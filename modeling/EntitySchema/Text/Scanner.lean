/-!
Scanners: functions that take a phrase off the front of a text. Choices are ordered and
repetitions greedy; what a scanner has taken is not given back for another reading. Before them
stand the values of digits and the front of a text that a literal takes.
-/

namespace EntitySchema.Text

def digitValue (c : Char) : Nat := c.toNat - '0'.toNat

def natOfDigits (digits : List Char) : Nat :=
  digits.foldl (fun n c => 10 * n + digitValue c) 0

def hexValue? (c : Char) : Option Nat :=
  if '0' ≤ c ∧ c ≤ '9' then some (digitValue c)
  else if 'a' ≤ c ∧ c ≤ 'f' then some (c.toNat - 'a'.toNat + 10)
  else if 'A' ≤ c ∧ c ≤ 'F' then some (c.toNat - 'A'.toNat + 10)
  else none

def hexCode? (a b c d : Char) : Option Nat := do
  return ((← hexValue? a) * 16 + (← hexValue? b)) * 256 + (← hexValue? c) * 16 + (← hexValue? d)

def dropLiteral? (literal : List Char) (text : List Char) : Option (List Char) :=
  match literal, text with
  | [], text => some text
  | _ :: _, [] => none
  | c :: literal, d :: text => if c = d then dropLiteral? literal text else none

abbrev Scanner (α : Type) := StateT (List Char) Option α

namespace Scanner

variable {α : Type}

/-- A fixed text, which may be followed by anything. -/
def exact (word : String) : Scanner Unit := fun text =>
  (dropLiteral? word.toList text).map fun rest => ((), rest)

def one (accepts : Char → Bool) : Scanner Char
  | [] => none
  | c :: rest => if accepts c then some (c, rest) else none

def span (accepts : Char → Bool) : Scanner (List Char) := fun text =>
  some (text.takeWhile accepts, text.dropWhile accepts)

/-- As many phrases as come one after another, at most `fuel`. -/
def manyWithin (scanner : Scanner α) : Nat → Scanner (List α)
  | 0 => pure []
  | fuel + 1 => (do return (← scanner) :: (← manyWithin scanner fuel)) <|> pure []

/-- Each phrase takes a character at least, so the length of the text is enough. -/
def many (scanner : Scanner α) : Scanner (List α) := fun text =>
  manyWithin scanner text.length text

def many1 (scanner : Scanner α) : Scanner (List α) := do
  return (← scanner) :: (← many scanner)

def orNone (scanner : Scanner (List α)) : Scanner (List α) := scanner <|> pure []

def ending : Scanner Unit := fun text => if text.isEmpty then some ((), text) else none

end Scanner

end EntitySchema.Text
