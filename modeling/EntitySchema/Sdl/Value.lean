import EntitySchema.Json.Printer

/-!
Constant values of directive arguments, their text, and their equality.
-/

namespace EntitySchema.Sdl

inductive Value where
  | null
  | bool (value : Bool)
  | number (value : JsonNumber)
  | string (value : String)
  | enumeration (name : String)
  | list (items : List Value)
  | object (members : List (String × Value))
  deriving Repr, Inhabited

namespace Value

def isControl (c : Char) : Bool := c.toNat < 0x20 || (0x7F ≤ c.toNat && c.toNat ≤ 0x9F)

def decimalCode (c : Char) : String :=
  let digits := toString c.toNat
  String.ofList (List.replicate (4 - digits.length) '0') ++ digits

/-- Control characters without a short escape are written by their decimal code. -/
def escapeChar (c : Char) : List Char :=
  if c = '\r' then ['\\', 'r']
  else if c = '\n' then ['\\', 'n']
  else if c = '\t' then ['\\', 't']
  else if c = '"' then ['\\', '"']
  else if c = '\\' then ['\\', '\\']
  else if isControl c then '\\' :: 'u' :: (decimalCode c).toList
  else [c]

def quote (s : String) : String := "\"" ++ String.ofList (s.toList.flatMap escapeChar) ++ "\""

mutual

def text : Value → String
  | .null => "null"
  | .bool value => if value then "true" else "false"
  | .number value => Json.numberText value
  | .string value => quote value
  | .enumeration name => name
  | .list items => "[" ++ ", ".intercalate (itemTexts items) ++ "]"
  | .object members => "\x7b" ++ ", ".intercalate (memberTexts members) ++ "\x7d"

def itemTexts : List Value → List String
  | [] => []
  | item :: rest => item.text :: itemTexts rest

def memberTexts : List (String × Value) → List String
  | [] => []
  | (name, value) :: rest => (name ++ ": " ++ value.text) :: memberTexts rest

end

/-- Equality of numbers: zeros are equal whatever their signs. -/
def sameNumber : JsonNumber → JsonNumber → Bool
  | .int a, .int b => a = b
  | .float a, .float b => a = b || (a.isZero && b.isZero)
  | _, _ => false

mutual

/-- Equality that takes a string and an enum value of the same text for equal, and objects of the
same members in any order. -/
def same : Value → Value → Bool
  | .null, .null => true
  | .bool a, .bool b => a = b
  | .number a, .number b => sameNumber a b
  | .string a, .string b | .string a, .enumeration b => a = b
  | .enumeration a, .string b | .enumeration a, .enumeration b => a = b
  | .list a, .list b => sameItems a b
  | .object a, .object b => a.length = b.length && sameMembers a b
  | _, _ => false

def sameItems : List Value → List Value → Bool
  | [], [] => true
  | a :: as, b :: bs => a.same b && sameItems as bs
  | _, _ => false

def sameMembers : List (String × Value) → List (String × Value) → Bool
  | [], _ => true
  | (name, value) :: rest, others =>
    (match Entries.get? others name with
      | some other => value.same other
      | none => false) && sameMembers rest others

end

end Value

end EntitySchema.Sdl
