import EntitySchema.Json.Decode

/-!
Links of collections and fields into a search view. Options that are not set take the store's
defaults; links of the same fields in another order are equal.
-/

namespace EntitySchema.Search

open Json (Fault Outline)
open Json.Outline

inductive StoredValues where
  | nothing
  | identifiers
  deriving DecidableEq, Repr

namespace StoredValues

def name : StoredValues → String
  | .nothing => "none"
  | .identifiers => "id"

def ofName? (name : String) : Option StoredValues := [nothing, identifiers].find? (·.name == name)

end StoredValues

structure Link where
  analyzers : Option (List String) := none
  fields : Option (List (String × Link)) := none
  includeAllFields : Option Bool := none
  trackListPositions : Option Bool := none
  storedValues : Option StoredValues := none
  deriving Repr, Inhabited

namespace Link

mutual

def decEq : (a b : Link) → Decidable (a = b)
  | ⟨analyzers, fields, includeAll, trackPositions, stored⟩,
    ⟨analyzers', fields', includeAll', trackPositions', stored'⟩ =>
    have := decEqFields fields fields'
    decidable_of_iff
      (analyzers = analyzers' ∧ fields = fields' ∧ includeAll = includeAll' ∧
        trackPositions = trackPositions' ∧ stored = stored') (by simp)

def decEqFields : (a b : Option (List (String × Link))) → Decidable (a = b)
  | none, none => isTrue rfl
  | none, some _ | some _, none => isFalse (by simp)
  | some fields, some others =>
    have := decEqEntries fields others
    decidable_of_iff (fields = others) (by simp)

def decEqEntries : (a b : List (String × Link)) → Decidable (a = b)
  | [], [] => isTrue rfl
  | [], _ :: _ | _ :: _, [] => isFalse (by simp)
  | (name, link) :: rest, (name', link') :: rest' =>
    have := decEq link link'
    have := decEqEntries rest rest'
    decidable_of_iff (name = name' ∧ link = link' ∧ rest = rest') (by simp [and_assoc])

end

instance : DecidableEq Link := decEq

mutual

/-- Equality up to the order of fields at every level. -/
def same : Link → Link → Bool
  | ⟨analyzers, fields, includeAll, trackPositions, stored⟩, other =>
    analyzers = other.analyzers && sameFields fields other.fields &&
      includeAll = other.includeAllFields && trackPositions = other.trackListPositions &&
      stored = other.storedValues

def sameFields : Option (List (String × Link)) → Option (List (String × Link)) → Bool
  | none, other => other.isNone
  | some _, none => false
  | some fields, some others => fields.length = others.length && sameEntries fields others

def sameEntries : List (String × Link) → List (String × Link) → Bool
  | [], _ => true
  | (name, link) :: rest, others =>
    (match Entries.get? others name with
      | some other => link.same other
      | none => false) && sameEntries rest others

end

mutual

def toJson : Link → Json
  | ⟨analyzers, fields, includeAll, trackPositions, stored⟩ =>
    .object <|
      (analyzers.map fun names => ("analyzers", .array (names.map .string))).toList ++
      fieldsToJson fields ++
      (includeAll.map fun flag => ("includeAllFields", .bool flag)).toList ++
      (trackPositions.map fun flag => ("trackListPositions", .bool flag)).toList ++
      (stored.map fun values => ("storeValues", .string values.name)).toList

def fieldsToJson : Option (List (String × Link)) → List (String × Json)
  | none => []
  | some fields => [("fields", .object (entriesToJson fields))]

def entriesToJson : List (String × Link) → List (String × Json)
  | [] => []
  | (name, link) :: rest => (name, link.toJson) :: entriesToJson rest

end

def keys : List String :=
  ["analyzers", "fields", "includeAllFields", "trackListPositions", "storeValues"]

def readPart (style : CaseStyle) (readFields : Outline → Except Fault (Option (Entries Link)))
    (room : Nat) (link : Link) (key : String) (value : Outline) : Except Fault Link := do
  match key with
  | "analyzers" =>
    return { link with analyzers := ← readOption (readList fun _ => readString) room value }
  | "fields" => return { link with fields := ← readFields value }
  | "includeAllFields" =>
    return { link with includeAllFields := ← readOption (fun _ => readBool) room value }
  | "trackListPositions" =>
    return { link with trackListPositions := ← readOption (fun _ => readBool) room value }
  | _ =>
    let read := readCase style StoredValues.ofName?
    return { link with storedValues := ← readOption read room value }

mutual

def read (style : CaseStyle) : Nat → Outline → Except Fault Link
  | 0, o => readRecord keys {} (readPart style fun _ => .ok none) 0 o
  | room + 1, o => readRecord keys {} (readPart style (readFields style room)) (room + 1) o

def readFields (style : CaseStyle) : Nat → Outline → Except Fault (Option (Entries Link))
  | _, .null => .ok none
  | 0, .object .. => .error .malformed
  | room + 1, .object members closed => (readMembers (read style room) members closed).map some
  | _, o => .error o.unexpected

end

end Link

end EntitySchema.Search
