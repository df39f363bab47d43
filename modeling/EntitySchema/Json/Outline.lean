import EntitySchema.Json.Numeral
import EntitySchema.Text.Scanner

/-!
The outline of a JSON text: its structure up to the first place where the text is malformed,
with that place marked. A reader that follows the outline in order meets a wrong type or a
missing member before a malformation that stands behind it, as if it read the text itself.
-/

namespace EntitySchema.Json

/-- A number out of range and a string whose escapes have no character are `none`: neither is an
error where the value is skipped. -/
inductive Outline where
  | null
  | bool (value : Bool)
  | number (value : Option JsonNumber)
  | string (value : Option String)
  | array (items : List Outline)
  | object (members : List (Option String × Outline)) (closed : Bool)
  /-- The text is malformed here. -/
  | broken
  deriving Inhabited, Repr

def skipBlanks (text : List Char) : List Char :=
  text.dropWhile fun c => c = ' ' || c = '\n' || c = '\t' || c = '\r'

inductive StringPiece where
  | char (c : Char)
  | code (n : Nat)
  deriving DecidableEq, Repr

namespace StringPiece

def isHighSurrogate (n : Nat) : Bool := 0xD800 ≤ n ∧ n ≤ 0xDBFF
def isLowSurrogate (n : Nat) : Bool := 0xDC00 ≤ n ∧ n ≤ 0xDFFF

/-- The characters of a string, none if a surrogate stands outside a pair. -/
def resolve : List StringPiece → Option (List Char)
  | [] => some []
  | .char c :: rest => (resolve rest).map (c :: ·)
  | .code high :: .code low :: rest =>
    if isHighSurrogate high then
      if isLowSurrogate low then
        (resolve rest).map (Char.ofNat (0x10000 + (high - 0xD800) * 0x400 + (low - 0xDC00)) :: ·)
      else none
    else if isLowSurrogate high then none
    else (resolve (.code low :: rest)).map (Char.ofNat high :: ·)
  | .code n :: rest =>
    if isHighSurrogate n || isLowSurrogate n then none
    else (resolve rest).map (Char.ofNat n :: ·)

def escaped? (c : Char) : Option Char :=
  match c with
  | '"' => some '"'
  | '\\' => some '\\'
  | '/' => some '/'
  | 'b' => some '\x08'
  | 'f' => some '\x0c'
  | 'n' => some '\n'
  | 'r' => some '\r'
  | 't' => some '\t'
  | _ => none

def scan : List Char → Option (List StringPiece × List Char)
  | [] => none
  | '"' :: rest => some ([], rest)
  | '\\' :: 'u' :: a :: b :: c :: d :: rest => do
    let n ← Text.hexCode? a b c d
    let (pieces, rest) ← scan rest
    return (.code n :: pieces, rest)
  | '\\' :: e :: rest => do
    let c ← escaped? e
    let (pieces, rest) ← scan rest
    return (.char c :: pieces, rest)
  | c :: rest =>
    if c = '\\' ∨ c.toNat < 0x20 then none
    else do
      let (pieces, rest) ← scan rest
      return (.char c :: pieces, rest)

end StringPiece

def scanString (text : List Char) : Option (Option String × List Char) :=
  (StringPiece.scan text).map fun (pieces, rest) =>
    ((StringPiece.resolve pieces).map String.ofList, rest)

namespace Outline

mutual

/-- The value at the front of a text and the text behind it, none behind a malformed place. -/
def scanValue : Nat → List Char → Outline × Option (List Char)
  | 0, _ => (.broken, none)
  | fuel + 1, text =>
    let literal (word : String) (value : Outline) : Outline × Option (List Char) :=
      match Text.dropLiteral? word.toList (skipBlanks text) with
      | some rest => (value, some rest)
      | none => (.broken, none)
    match skipBlanks text with
    | [] => (.broken, none)
    | 'n' :: _ => literal "null" .null
    | 't' :: _ => literal "true" (.bool true)
    | 'f' :: _ => literal "false" (.bool false)
    | '"' :: rest =>
      match scanString rest with
      | some (value, rest) => (.string value, some rest)
      | none => (.broken, none)
    | '[' :: rest =>
      match skipBlanks rest with
      | ']' :: rest => (.array [], some rest)
      | _ =>
        let (items, rest) := scanItems fuel rest
        (.array items, rest)
    | '\x7b' :: rest =>
      match skipBlanks rest with
      | '\x7d' :: rest => (.object [] true, some rest)
      | _ =>
        let (members, rest) := scanMembers fuel rest
        (.object members rest.isSome, rest)
    | text =>
      match Numeral.scan text with
      | some (numeral, rest) => (.number numeral.value?, some rest)
      | none => (.broken, none)

def scanItems : Nat → List Char → List Outline × Option (List Char)
  | 0, _ => ([.broken], none)
  | fuel + 1, text =>
    match scanValue fuel text with
    | (item, none) => ([item], none)
    | (item, some rest) =>
      match skipBlanks rest with
      | ']' :: rest => ([item], some rest)
      | ',' :: rest =>
        let (items, rest) := scanItems fuel rest
        (item :: items, rest)
      | _ => ([item, .broken], none)

def scanMembers : Nat → List Char → List (Option String × Outline) × Option (List Char)
  | 0, _ => ([], none)
  | fuel + 1, text =>
    match skipBlanks text with
    | '"' :: rest =>
      match scanString rest with
      | none => ([], none)
      | some (key, rest) =>
        match skipBlanks rest with
        | ':' :: rest =>
          match scanValue fuel rest with
          | (value, none) => ([(key, value)], none)
          | (value, some rest) =>
            match skipBlanks rest with
            | '\x7d' :: rest => ([(key, value)], some rest)
            | ',' :: rest =>
              let (members, rest) := scanMembers fuel rest
              ((key, value) :: members, rest)
            | _ => ([(key, value)], none)
        | _ => ([(key, .broken)], none)
    | _ => ([], none)

end

mutual

def wellFormed : Outline → Bool
  | .broken => false
  | .array items => wellFormedItems items
  | .object members closed => wellFormedMembers members && closed
  | _ => true

def wellFormedItems : List Outline → Bool
  | [] => true
  | item :: rest => item.wellFormed && wellFormedItems rest

def wellFormedMembers : List (Option String × Outline) → Bool
  | [] => true
  | (_, value) :: rest => value.wellFormed && wellFormedMembers rest

end

end Outline

structure Source where
  value : Outline
  ended : Bool

/-- Each level of the scan takes a character or is one of two calls for the same one, so twice the
length of the text is enough. -/
def Source.ofText (text : String) : Source :=
  let chars := text.toList
  let (value, rest) := Outline.scanValue (2 * chars.length + 2) chars
  ⟨value, rest.any fun rest => (skipBlanks rest).isEmpty⟩

end EntitySchema.Json
