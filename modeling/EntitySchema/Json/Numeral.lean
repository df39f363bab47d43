import EntitySchema.Json.Value
import EntitySchema.Text.Scanner

/-!
Number texts of JSON and the numbers they stand for.
-/

namespace EntitySchema.Json

/-- A well-formed number text: sign, digits before and after the point, signed exponent. -/
structure Numeral where
  negative : Bool
  whole : List Char
  fraction : Option (List Char)
  exponent : Option (Bool × List Char)
  deriving DecidableEq, Repr

namespace Numeral

def significandLimit : Nat := Nat.pow 2 64 - 1

/-- Takes digits into the significand while it stays within the limit; gives the digits left. -/
def absorb (significand : Nat) : List Char → Nat × List Char
  | [] => (significand, [])
  | c :: rest =>
    let next := 10 * significand + Text.digitValue c
    if next ≤ significandLimit then absorb next rest else (significand, c :: rest)

/-- Digits that no longer fit are dropped: before the point each counts as a power of ten. -/
def scientific (n : Numeral) : Nat × Int :=
  let (significand, dropped) := absorb 0 n.whole
  let fraction := n.fraction.getD []
  let (significand, unread) := absorb significand fraction
  let places := (dropped.length : Int) - (fraction.length - unread.length : Nat)
  match n.exponent with
  | none => (significand, places)
  | some (negative, digits) =>
    let power := Text.natOfDigits digits
    (significand, if negative then places - power else places + power)

/-- The number of a text, none if its magnitude is beyond the greatest double. Texts without point
and exponent from `-2 ^ 63` to `2 ^ 64 - 1` are integers, except a negative zero. -/
def value? (n : Numeral) : Option JsonNumber :=
  let magnitude := Text.natOfDigits n.whole
  let plain := n.fraction.isNone && n.exponent.isNone
  if plain && !n.negative && decide (magnitude < Nat.pow 2 64) then some (.int magnitude)
  else if plain && n.negative && magnitude ≠ 0 && decide (magnitude ≤ Nat.pow 2 63) then
    some (.int (-(magnitude : Int)))
  else
    let (significand, exponent) := n.scientific
    (Binary64.ofScientific? n.negative significand exponent).map .float

def sign (text : List Char) : Bool × List Char :=
  match text with
  | '-' :: rest => (true, rest)
  | _ => (false, text)

def whole? (text : List Char) : Option (List Char × List Char) :=
  match text with
  | '0' :: rest => if rest.head?.any Char.isDigit then none else some (['0'], rest)
  | c :: _ =>
    if c.isDigit then some (text.takeWhile Char.isDigit, text.dropWhile Char.isDigit) else none
  | [] => none

def fraction? (text : List Char) : Option (Option (List Char) × List Char) :=
  match text with
  | '.' :: rest =>
    let digits := rest.takeWhile Char.isDigit
    if digits.isEmpty then none else some (some digits, rest.dropWhile Char.isDigit)
  | _ => some (none, text)

def exponent? (text : List Char) : Option (Option (Bool × List Char) × List Char) :=
  match text with
  | [] => some (none, [])
  | c :: rest =>
    if c = 'e' ∨ c = 'E' then
      let (negative, rest) :=
        match rest with
        | '-' :: more => (true, more)
        | '+' :: more => (false, more)
        | _ => (false, rest)
      let digits := rest.takeWhile Char.isDigit
      if digits.isEmpty then none
      else some (some (negative, digits), rest.dropWhile Char.isDigit)
    else some (none, text)

def scan (text : List Char) : Option (Numeral × List Char) := do
  let (negative, text) := sign text
  let (whole, text) ← whole? text
  let (fraction, text) ← fraction? text
  let (exponent, text) ← exponent? text
  return (⟨negative, whole, fraction, exponent⟩, text)

end Numeral

end EntitySchema.Json
