import EntitySchema.Entries
import EntitySchema.Json.Value
import EntitySchema.Number.Extended

/-!
Settings before their types are known: what a configuration file or the environment says. They are
converted leniently, so that a number may be given as a text and the other way round.
-/

namespace EntitySchema

inductive Setting where
  | absent
  | flag (value : Bool)
  | whole (value : Int)
  | real (value : Extended)
  | text (value : String)
  | list (items : List Setting)
  | table (entries : List (String × Setting))
  deriving Repr

namespace Setting

def greatestNat : Nat := Nat.pow 2 64 - 1

/-- The least and the greatest integer that a file or a variable may write in digits. -/
def leastWhole : Int := -(Nat.pow 2 63 : Nat)

def greatestWhole : Int := (Nat.pow 2 63 - 1 : Nat)

def integer? (text : String) : Option Int :=
  let (negative, digits) := Extended.splitSign text.toList
  if digits.isEmpty || !digits.all Char.isDigit then none
  else
    let magnitude : Int := Text.natOfDigits digits
    some (if negative then -magnitude else magnitude)

def whole? (text : String) : Option Int := do
  let value ← integer? text
  if leastWhole ≤ value ∧ value ≤ greatestWhole then some value else none

/-- Reads digits with an optional plus. A minus is refused even before a zero. -/
def nat? (text : String) : Option Nat := do
  if text.startsWith "-" then none
  else
    let value ← integer? text
    if value ≤ greatestNat then some value.toNat else none

def switch? (text : String) : Option Bool :=
  match String.ofList (text.toList.map Char.toLower) with
  | "true" | "on" | "yes" => some true
  | "false" | "off" | "no" => some false
  | _ => none

/-- The setting as a natural number: switches count as one and zero, fractions are rounded. -/
def toNat? : Setting → Option Nat
  | .flag value => some value.toNat
  | .whole value => if 0 ≤ value then some value.toNat else none
  | .real value => some (value.roundedNat greatestNat)
  | .text value => ((switch? value).map Bool.toNat).or (nat? value)
  | .absent | .list _ | .table _ => none

def toText? : Setting → Option String
  | .flag value => some (if value then "true" else "false")
  | .whole value => some (toString value)
  | .real value => some value.text
  | .text value => some value
  | .absent | .list _ | .table _ => none

mutual

def ofJson : Json → Setting
  | .null => .absent
  | .bool value => .flag value
  | .number (.int value) => .whole value
  | .number (.float value) => .real (.finite value)
  | .string value => .text value
  | .array items => .list (ofItems items)
  | .object members => .table (ofMembers members)

def ofItems : List Json → List Setting
  | [] => []
  | item :: rest => ofJson item :: ofItems rest

def ofMembers : List (String × Json) → List (String × Setting)
  | [] => []
  | (key, value) :: rest => (key, ofJson value) :: ofMembers rest

end

def entries : Setting → Entries Setting
  | .table entries => entries
  | _ => []

def items : Setting → List Setting
  | .list items => items
  | _ => []

def lookup (entries : Entries Setting) (key : String) : Setting := (entries.get? key).getD .absent

mutual

/-- What stands after one setting is given over another: tables are merged, all else replaced. -/
def override : Setting → Setting → Setting
  | .table incoming, current => .table (mergeInto incoming current.entries)
  | .absent, _ => .absent
  | .flag value, _ => .flag value
  | .whole value, _ => .whole value
  | .real value, _ => .real value
  | .text value, _ => .text value
  | .list items, _ => .list items

def mergeInto : List (String × Setting) → Entries Setting → Entries Setting
  | [], current => current
  | (key, value) :: rest, current =>
    mergeInto rest (current.put key (override value (lookup current key)))

end

end Setting

end EntitySchema
