/-!
Lists of named values, in the order in which the names first came.
-/

namespace EntitySchema

/-- Named values in insertion order. -/
abbrev Entries (α : Type) := List (String × α)

namespace Entries

variable {α β : Type}

def keys (entries : Entries α) : List String := entries.map (·.1)

def get? (entries : Entries α) (key : String) : Option α :=
  (entries.find? (·.1 == key)).map (·.2)

def contains (entries : Entries α) (key : String) : Bool := entries.any (·.1 == key)

/-- Replaces the value of a name where it stands, or adds the name at the end. -/
def put (entries : Entries α) (key : String) (value : α) : Entries α :=
  match entries with
  | [] => [(key, value)]
  | (k, v) :: rest => if k = key then (k, value) :: rest else (k, v) :: put rest key value

/-- Puts the values of a list in turn: the last value of a name stands at its first place. -/
def collect (pairs : List (String × α)) : Entries α :=
  pairs.foldl (fun entries pair => entries.put pair.1 pair.2) []

theorem get?_mem {entries : Entries α} {key : String} {value : α}
    (h : entries.get? key = some value) : (key, value) ∈ entries := by
  obtain ⟨⟨k, v⟩, hfind, rfl⟩ := Option.map_eq_some_iff.1 h
  have hk : k = key := by simpa using List.find?_some hfind
  exact hk ▸ List.mem_of_find?_eq_some hfind

end Entries

end EntitySchema
