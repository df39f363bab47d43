import EntitySchema.Number.Binary64

/-!
The shortest decimal text that reads back as the same double, and the layout in which
numbers with a fraction are written.
-/

namespace EntitySchema.Binary64

structure Decimal where
  digits : Nat
  exponent : Int
  deriving DecidableEq, Repr

def Decimal.trimmed (fuel : Nat) (x : Decimal) : Decimal :=
  match fuel with
  | 0 => x
  | fuel + 1 =>
    if x.digits ≠ 0 ∧ x.digits % 10 = 0 then
      Decimal.trimmed fuel ⟨x.digits / 10, x.exponent + 1⟩
    else x

def Decimal.fraction (x : Decimal) : Nat × Nat :=
  if x.exponent ≥ 0 then (x.digits * Nat.pow 10 x.exponent.toNat, 1)
  else (x.digits, Nat.pow 10 (-x.exponent).toNat)

/-- The reals that round to a double, in quarters of its last place: lower end, upper end, and
whether the ends belong to it. The place below a power of two is half as wide. -/
def roundingInterval (x : Binary64) : Nat × Nat × Bool :=
  let lower := if x.mantissa = Nat.pow 2 52 ∧ x.exponent > leastExponent then 1 else 2
  (4 * x.mantissa - lower, 4 * x.mantissa + 2, x.mantissa % 2 = 0)

def roundsTo (x : Binary64) (d : Decimal) : Bool :=
  let (lower, upper, closed) := x.roundingInterval
  let (num, den) := d.fraction
  let quarter := inUnits num den (x.exponent - 2)
  let low := lower * quarter.2
  let high := upper * quarter.2
  if closed then low ≤ quarter.1 ∧ quarter.1 ≤ high else low < quarter.1 ∧ quarter.1 < high

/-- The number `k` with `10 ^ (k - 1) ≤ num / den < 10 ^ k`. -/
def decimalMagnitude (num den : Nat) : Int :=
  if num ≥ den then (toString (num / den)).length
  else
    let k := (toString (den / num)).length
    -- den / num has k digits, so num / den lies in (10 ^ -k, 10 ^ (1 - k)]
    if den ≤ num * Nat.pow 10 (k - 1) then 2 - (k : Int) else 1 - (k : Int)

/-- Which of two equally near decimals is taken: the one with the even last digit, or the greater
one. -/
inductive Tie where
  | toEven
  | up
  deriving DecidableEq, Repr

/-- The neighbours of a double among the decimals of `n` significant digits, nearer one first. -/
def neighbours (tie : Tie) (x : Binary64) (n : Nat) : List Decimal :=
  let (num, den) := x.fraction
  let e := decimalMagnitude num den - n
  let (a, b) :=
    if e ≥ 0 then (num, den * Nat.pow 10 e.toNat) else (num * Nat.pow 10 (-e).toNat, den)
  let below : Decimal := ⟨a / b, e⟩
  let above : Decimal := ⟨a / b + 1, e⟩
  let twice := 2 * (a % b)
  let downwards := twice < b ∨ (twice = b ∧ tie = .toEven ∧ (a / b) % 2 = 0)
  if downwards then [below, above] else [above, below]

/-- The fewest digits that round to the double, and among those the nearest to it. -/
def shortest (tie : Tie) (x : Binary64) : Decimal :=
  let candidates := (List.range 17).flatMap fun n => x.neighbours tie (n + 1)
  let found := (candidates.find? x.roundsTo).getD ⟨x.mantissa, x.exponent⟩
  found.trimmed 20

/-- Positional with at least one decimal place while the point falls at most sixteen places
after the first digit and at most four before it, else scientific with a signed exponent. -/
def Decimal.layout (x : Decimal) : String :=
  let digits := toString x.digits
  let point := (digits.length : Int) + x.exponent
  if 0 ≤ x.exponent ∧ point ≤ 16 then
    digits ++ String.ofList (List.replicate x.exponent.toNat '0') ++ ".0"
  else if 0 < point ∧ point ≤ 16 then
    let place := point.toNat
    String.ofList (digits.toList.take place) ++ "." ++ String.ofList (digits.toList.drop place)
  else if -5 < point ∧ point ≤ 0 then
    "0." ++ String.ofList (List.replicate (-point).toNat '0') ++ digits
  else
    let power := point - 1
    let exponent := (if power < 0 then "e-" else "e+") ++ toString power.natAbs
    match digits.toList with
    | [] => exponent
    | [d] => d.toString ++ exponent
    | d :: rest => d.toString ++ "." ++ String.ofList rest ++ exponent

def text (x : Binary64) : String :=
  let magnitude := if x.isZero then "0.0" else (x.shortest .toEven).layout
  if x.negative then "-" ++ magnitude else magnitude

end EntitySchema.Binary64
