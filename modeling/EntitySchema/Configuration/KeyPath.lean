import EntitySchema.Configuration.Setting
import EntitySchema.Text.Scanner

/-!
Paths to nested settings, such as `search.recursion_depth` or `servers[0].name`.
-/

namespace EntitySchema

/-- A step into a setting. A negative index counts from the end of a list. -/
inductive KeyStep where
  | key (name : String)
  | index (position : Int)
  deriving DecidableEq, Repr

abbrev KeyPath := List KeyStep

namespace KeyPath

open Text.Scanner

def isKeyChar (c : Char) : Bool := c.isAlphanum || c = '_' || c = '-'

def name : Text.Scanner String := do
  let first ← one isKeyChar
  return String.ofList (first :: (← span isKeyChar))

def step : Text.Scanner KeyStep :=
  (do
    exact "."
    return .key (← name)) <|>
  (do
    exact "["
    discard (span fun c => c = ' ' || c = '\t')
    let sign ← optional (exact "-")
    let first ← one Char.isDigit
    let magnitude : Int := Text.natOfDigits (first :: (← span Char.isDigit))
    discard (span fun c => c = ' ' || c = '\t')
    exact "]"
    let position := if sign.isSome then -magnitude else magnitude
    if Setting.leastWhole ≤ position ∧ position ≤ Setting.greatestWhole then
      return .index position
    else failure)

def path : Text.Scanner KeyPath := do
  let root ← name
  let steps ← many step
  ending
  return .key root :: steps

/-- A text that is no path is a key as it stands. -/
def ofText (text : String) : KeyPath := ((path text.toList).map (·.1)).getD [.key text]

/-- The list with an item for an index, and the item's place. Items that are missing behind the
end, or before the start for a negative index, are absent. -/
def extended (items : List Setting) (position : Int) : List Setting × Nat :=
  let size : Int := items.length
  if 0 ≤ position then
    (items ++ List.replicate (position + 1 - size).toNat .absent, position.toNat)
  else if 0 ≤ size + position then (items, (size + position).toNat)
  else (List.replicate (-(size + position)).toNat .absent ++ items, 0)

/-- Changes the setting at a path. What stands in the way of the path is replaced. -/
def alter (change : Setting → Setting) : KeyPath → Setting → Setting
  | [], current => change current
  | .key name :: rest, current =>
    .table (current.entries.put name (alter change rest (Setting.lookup current.entries name)))
  | .index position :: rest, current =>
    let (items, place) := extended current.items position
    .list (items.modify place (alter change rest))

end KeyPath

namespace Setting

/-- Lays the settings of one source over those of earlier ones. Its keys are paths. -/
def overlay (current : Setting) (source : List (String × Setting)) : Setting :=
  source.foldl
    (fun current (key, value) => (KeyPath.ofText key).alter (override value) current) current

end Setting

end EntitySchema
