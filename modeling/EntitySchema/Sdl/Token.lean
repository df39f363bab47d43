import EntitySchema.Json.Numeral
import EntitySchema.Sdl.Document
import EntitySchema.Sdl.Rule

/-!
The tokens of schema text: names, type syntax, numbers and strings. Nothing is ignored inside one.
-/

namespace EntitySchema.Sdl.Rule

def isNameStart (c : Char) : Bool := c.isAlpha || c = '_'

def isNameRest (c : Char) : Bool := c.isAlphanum || c = '_'

def nameHere : Rule String := fun text =>
  match text with
  | [] => none
  | c :: rest =>
    if isNameStart c then
      some (String.ofList (c :: rest.takeWhile isNameRest), rest.dropWhile isNameRest)
    else none

def name : Rule String := do
  skip
  nameHere

def takeMark (text : List Char) : Bool × List Char :=
  match text with
  | '!' :: rest => (true, rest)
  | _ => (false, text)

def typeWithin : Nat → List Char → Option (TypeExpr × List Char)
  | 0, _ => none
  | fuel + 1, '[' :: rest =>
    match typeWithin fuel rest with
    | some (item, ']' :: rest) =>
      let (required, rest) := takeMark rest
      some (.list item required, rest)
    | _ => none
  | _ + 1, text =>
    (nameHere text).map fun (name, rest) =>
      let (required, rest) := takeMark rest
      (.named name required, rest)

def typeExpr : Rule TypeExpr := do
  skip
  fun text => typeWithin (text.length + 1) text

def digits (text : List Char) : Option (List Char × List Char) :=
  let found := text.takeWhile Char.isDigit
  if found.isEmpty then none else some (found, text.dropWhile Char.isDigit)

def wholeDigits (text : List Char) : Option (List Char × List Char) :=
  match text with
  | '0' :: rest => some (['0'], rest)
  | text => digits text

def fractionDigits (text : List Char) : Option (List Char) × List Char :=
  match text with
  | '.' :: rest =>
    match digits rest with
    | some (found, rest) => (some found, rest)
    | none => (none, text)
  | _ => (none, text)

def exponentDigits (text : List Char) : Option (Bool × List Char) × List Char :=
  let signed (negative : Bool) (rest : List Char) :=
    match digits rest with
    | some (found, rest) => (some (negative, found), rest)
    | none => (none, text)
  match text with
  | 'e' :: '-' :: rest | 'E' :: '-' :: rest => signed true rest
  | 'e' :: '+' :: rest | 'E' :: '+' :: rest => signed false rest
  | 'e' :: rest | 'E' :: rest => signed false rest
  | _ => (none, text)

/-- A number that no name follows at once, and that is not beyond the greatest double. -/
def numberHere : Rule JsonNumber := fun text => do
  let (negative, unsigned) :=
    match text with
    | '-' :: rest => (true, rest)
    | _ => (false, text)
  let (whole, rest) ← wholeDigits unsigned
  let (fraction, rest) := fractionDigits rest
  let (exponent, rest) := exponentDigits rest
  if rest.head?.any isNameStart then none
  else
    let value ← Json.Numeral.value? ⟨negative, whole, fraction, exponent⟩
    some (value, rest)

def escaped? (c : Char) : Option Char :=
  match c with
  | '"' => some '"'
  | '\\' => some '\\'
  | '/' => some '/'
  | 'b' => some '\x08'
  | 'f' => some '\x0c'
  | 'n' => some '\n'
  | 'r' => some '\r'
  | 't' => some '\t'
  | _ => none

def charOfCode? (n : Nat) : Option Char :=
  if 0xD800 ≤ n ∧ n ≤ 0xDFFF then none else some (Char.ofNat n)

def quotedChars : List Char → Option (List Char × List Char)
  | [] => none
  | '"' :: rest => some ([], rest)
  | '\\' :: 'u' :: a :: b :: c :: d :: rest => do
    let char ← charOfCode? (← Text.hexCode? a b c d)
    let (chars, rest) ← quotedChars rest
    return (char :: chars, rest)
  | '\\' :: e :: rest => do
    let char ← escaped? e
    let (chars, rest) ← quotedChars rest
    return (char :: chars, rest)
  | c :: rest =>
    if c = '\\' ∨ isLineEnd c then none
    else do
      let (chars, rest) ← quotedChars rest
      return (c :: chars, rest)

/-- The characters of a block string up to its three closing quotes. An escaped triple of quotes
stays as it is written. -/
def blockChars : List Char → Option (List Char × List Char)
  | [] => none
  | '"' :: '"' :: '"' :: rest => some ([], rest)
  | '\\' :: '"' :: '"' :: '"' :: rest =>
    (blockChars rest).map fun (chars, rest) => ('\\' :: '"' :: '"' :: '"' :: chars, rest)
  | c :: rest => (blockChars rest).map fun (chars, rest) => (c :: chars, rest)

def lines : List Char → List (List Char)
  | [] => [[]]
  | '\r' :: '\n' :: rest => [] :: lines rest
  | c :: rest =>
    if isLineEnd c then [] :: lines rest
    else
      match lines rest with
      | [] => [[c]]
      | first :: others => (c :: first) :: others

def isIndent (c : Char) : Bool := c = ' ' || c = '\t'

def commonIndent (lines : List (List Char)) : Nat :=
  let indents := (lines.filter fun line => !line.all isIndent).map fun line =>
    (line.takeWhile isIndent).length
  (indents.min?).getD 0

/-- Cuts the common indentation off all lines but the first, and leaves out the lines without
content at both ends. -/
def blockText (raw : List Char) : List Char :=
  match lines raw with
  | [] => []
  | first :: others =>
    let indent := commonIndent others
    let cut := first :: others.map fun line =>
      if line.length ≥ indent then line.drop indent else line
    let hasContent := (first :: others).map fun line => !line.all isIndent
    let marked := cut.zip hasContent
    let kept := ((marked.dropWhile (!·.2)).reverse.dropWhile (!·.2)).reverse
    ['\n'].intercalate (kept.map (·.1))

def stringHere : Rule String := fun text =>
  let block :=
    match text with
    | '"' :: '"' :: '"' :: rest => blockChars rest
    | _ => none
  match block with
  | some (raw, rest) => some (String.ofList (blockText raw), rest)
  | none =>
    match text with
    | '"' :: rest => (quotedChars rest).map fun (chars, rest) => (String.ofList chars, rest)
    | _ => none

def string : Rule String := do
  skip
  stringHere

end EntitySchema.Sdl.Rule
