import EntitySchema.Json.Value
import EntitySchema.Number.Shortest

/-!
JSON text: a compact form on one line and an indented form with two blanks per level.
-/

namespace EntitySchema.Json

def hexDigit (n : Nat) : Char :=
  if n < 10 then Char.ofNat ('0'.toNat + n) else Char.ofNat ('a'.toNat + (n - 10))

/-- Quotes, backslashes and control characters are escaped; all else is written as it is. -/
def escapeChar (c : Char) : List Char :=
  if c = '"' then ['\\', '"']
  else if c = '\\' then ['\\', '\\']
  else if c = '\n' then ['\\', 'n']
  else if c = '\r' then ['\\', 'r']
  else if c = '\t' then ['\\', 't']
  else if c = '\x08' then ['\\', 'b']
  else if c = '\x0c' then ['\\', 'f']
  else if c.toNat < 0x20 then
    ['\\', 'u', '0', '0', hexDigit (c.toNat / 16), hexDigit (c.toNat % 16)]
  else [c]

def quote (s : String) : String := "\"" ++ String.ofList (s.toList.flatMap escapeChar) ++ "\""

def numberText : JsonNumber → String
  | .int value => toString value
  | .float value => value.text

mutual

def compact : Json → String
  | .null => "null"
  | .bool value => if value then "true" else "false"
  | .number value => numberText value
  | .string value => quote value
  | .array items => "[" ++ ",".intercalate (compactItems items) ++ "]"
  | .object members => "\x7b" ++ ",".intercalate (compactMembers members) ++ "\x7d"

def compactItems : List Json → List String
  | [] => []
  | item :: rest => compact item :: compactItems rest

def compactMembers : List (String × Json) → List String
  | [] => []
  | (key, value) :: rest => (quote key ++ ":" ++ compact value) :: compactMembers rest

end

def block (opening closing : String) (indent : Nat) (entries : List String) : String :=
  let margin (n : Nat) := String.ofList (List.replicate (2 * n) ' ')
  if entries.isEmpty then opening ++ closing
  else
    opening ++ "\n" ++
      ",\n".intercalate (entries.map fun entry => margin (indent + 1) ++ entry) ++
      "\n" ++ margin indent ++ closing

mutual

def prettyAt (indent : Nat) : Json → String
  | .array items => block "[" "]" indent (prettyItems (indent + 1) items)
  | .object members => block "\x7b" "\x7d" indent (prettyMembers (indent + 1) members)
  | .null => "null"
  | .bool value => if value then "true" else "false"
  | .number value => numberText value
  | .string value => quote value

def prettyItems (indent : Nat) : List Json → List String
  | [] => []
  | item :: rest => prettyAt indent item :: prettyItems indent rest

def prettyMembers (indent : Nat) : List (String × Json) → List String
  | [] => []
  | (key, value) :: rest =>
    (quote key ++ ": " ++ prettyAt indent value) :: prettyMembers indent rest

end

def pretty (value : Json) : String := value.prettyAt 0

end EntitySchema.Json
