/-!
Finite double-precision numbers as exact dyadic fractions. Every operation is a rational
operation in natural numbers followed by one rounding, so nothing here depends on the
machine's floating point unit.
-/

namespace EntitySchema

/-- The number `± mantissa * 2 ^ exponent`. Numbers made by `Binary64.nearest?` have a mantissa
below `2 ^ 53`, and one of at least `2 ^ 52` unless the exponent is the least one. -/
structure Binary64 where
  negative : Bool
  mantissa : Nat
  exponent : Int
  deriving DecidableEq, Repr

namespace Binary64

def leastExponent : Int := -1074

def greatestExponent : Int := 971

def zero (negative : Bool) : Binary64 := ⟨negative, 0, leastExponent⟩

def isZero (x : Binary64) : Bool := x.mantissa == 0

def roundHalfEven (num den : Nat) : Nat :=
  let q := num / den
  let twice := 2 * (num % den)
  if twice > den ∨ (twice = den ∧ q % 2 = 1) then q + 1 else q

/-- `num / den` in units of `2 ^ e`, as a fraction of natural numbers. -/
def inUnits (num den : Nat) (e : Int) : Nat × Nat :=
  if e ≥ 0 then (num, den * Nat.pow 2 e.toNat) else (num * Nat.pow 2 (-e).toNat, den)

/-- The double nearest to `± num / den`, ties to the even mantissa, if it is finite. -/
def nearest? (negative : Bool) (num den : Nat) : Option Binary64 :=
  if num = 0 then some (zero negative) else
  let e := max leastExponent ((num.log2 : Int) - (den.log2 : Int) - 53)
  let (n, d) := inUnits num den e
  -- one binary place more than wanted can be left over from the estimate
  let (n, d, e) := if n ≥ d * Nat.pow 2 53 then (n, d * 2, e + 1) else (n, d, e)
  let m := roundHalfEven n d
  let (m, e) := if m = Nat.pow 2 53 then (Nat.pow 2 52, e + 1) else (m, e)
  if e > greatestExponent then none else some ⟨negative, m, e⟩

def fraction (x : Binary64) : Nat × Nat :=
  if x.exponent ≥ 0 then (x.mantissa * Nat.pow 2 x.exponent.toNat, 1)
  else (x.mantissa, Nat.pow 2 (-x.exponent).toNat)

def timesPowerOfTen? (x : Binary64) (k : Nat) : Option Binary64 := do
  let ten ← nearest? false (Nat.pow 10 k) 1
  nearest? x.negative (x.fraction.1 * ten.fraction.1) (x.fraction.2 * ten.fraction.2)

def overPowerOfTen? (x : Binary64) (k : Nat) : Option Binary64 := do
  let ten ← nearest? false (Nat.pow 10 k) 1
  nearest? x.negative (x.fraction.1 * ten.fraction.2) (x.fraction.2 * ten.fraction.1)

def greatestPowerOfTen : Nat := 308

def scaleDown? (k : Nat) : Nat → Binary64 → Option Binary64
  | 0, x => x.overPowerOfTen? k
  | blocks + 1, x =>
    if x.isZero then some x
    else
      match x.overPowerOfTen? greatestPowerOfTen with
      | none => none
      | some y => scaleDown? k blocks y

/-- Reads `± significand * 10 ^ exponent`: the significand is rounded to a double, which is then
scaled. Two roundings take place, so the result may miss the nearest double by one place. -/
def ofScientific? (negative : Bool) (significand : Nat) (exponent : Int) : Option Binary64 := do
  let x ← nearest? negative significand 1
  if exponent < 0 then
    let blocks := (exponent.natAbs - 1) / greatestPowerOfTen
    scaleDown? (exponent.natAbs - blocks * greatestPowerOfTen) blocks x
  else if exponent ≤ greatestPowerOfTen then x.timesPowerOfTen? exponent.natAbs
  else if x.isZero then some x
  else none

end Binary64

end EntitySchema
