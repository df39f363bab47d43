import EntitySchema.Number.Shortest
import EntitySchema.Text.Scanner

/-!
Doubles together with the infinities and the undefined number, which settings may hold.
-/

namespace EntitySchema

inductive Extended where
  | finite (x : Binary64)
  | infinite (negative : Bool)
  | undefined
  deriving DecidableEq, Repr

namespace Extended

/-- The decimal magnitude beyond which a double is infinite, or zero on the other side. -/
def magnitudeLimit : Int := 400

def ofDecimal (negative : Bool) (digits : Nat) (exponent : Int) : Extended :=
  let magnitude := ((toString digits).length : Int) + exponent
  if digits = 0 ∨ magnitude < -magnitudeLimit then .finite (Binary64.zero negative)
  else if magnitude > magnitudeLimit then .infinite negative
  else
    let (num, den) := (⟨digits, exponent⟩ : Binary64.Decimal).fraction
    match Binary64.nearest? negative num den with
    | some x => .finite x
    | none => .infinite negative

def splitSign : List Char → Bool × List Char
  | '-' :: rest => (true, rest)
  | '+' :: rest => (false, rest)
  | text => (false, text)

def power? : List Char → Option Int
  | [] => some 0
  | c :: rest =>
    let (negative, digits) := splitSign rest
    if (c = 'e' ∨ c = 'E') ∧ !digits.isEmpty ∧ digits.all Char.isDigit then
      some (if negative then -(Text.natOfDigits digits : Int) else Text.natOfDigits digits)
    else none

/-- Reads digits with an optional point and exponent; there are digits on one side of the point
at least. -/
def ofDecimalText? (negative : Bool) (text : List Char) : Option Extended := do
  let whole := text.takeWhile Char.isDigit
  let rest := text.dropWhile Char.isDigit
  let (fraction, rest) :=
    match rest with
    | '.' :: more => (more.takeWhile Char.isDigit, more.dropWhile Char.isDigit)
    | _ => ([], rest)
  let power ← power? rest
  if whole.isEmpty ∧ fraction.isEmpty then none
  else return ofDecimal negative (Text.natOfDigits (whole ++ fraction)) (power - fraction.length)

def ofText? (text : String) : Option Extended :=
  let (negative, body) := splitSign text.toList
  match String.ofList (body.map Char.toLower) with
  | "inf" | "infinity" => some (.infinite negative)
  | "nan" => some .undefined
  | _ => ofDecimalText? negative body

def positional (x : Binary64.Decimal) : String :=
  let digits := (toString x.digits).toList
  let zeros (n : Int) := List.replicate n.toNat '0'
  let point := (digits.length : Int) + x.exponent
  String.ofList <|
    if 0 ≤ x.exponent then digits ++ zeros x.exponent
    else if 0 < point then digits.take point.toNat ++ ['.'] ++ digits.drop point.toNat
    else ['0', '.'] ++ zeros (-point) ++ digits

/-- The text of a setting that is a number. A tie goes to the greater digit. -/
def text : Extended → String
  | .finite x =>
    (if x.negative then "-" else "") ++ if x.isZero then "0" else positional (x.shortest .up)
  | .infinite negative => if negative then "-inf" else "inf"
  | .undefined => "NaN"

/-- The nearest natural number up to a limit, a half upwards; zero if there is none. -/
def roundedNat (limit : Nat) : Extended → Nat
  | .finite x =>
    if x.negative then 0
    else
      let (num, den) := x.fraction
      min limit ((2 * num + den) / (2 * den))
  | .infinite negative => if negative then 0 else limit
  | .undefined => 0

end Extended

end EntitySchema
