import EntitySchema.Search.Link

/-!
The properties of a search view, and when two of them agree.
-/

namespace EntitySchema.Search

open Json (Fault Outline)
open Json.Outline

/-- The prefix of the views that belong to this program; others are left alone. -/
def reservedPrefix : String := "flex_view_"

def viewName (collection : String) : String := reservedPrefix ++ collection

/-- Compares values as they are; every link has it unless it names others. -/
def identityAnalyzer : String := "identity"

/-- Compares normalized values without regard to case. -/
def foldingAnalyzer : String := "norm_ci"

structure SortKey where
  field : String
  ascending : Bool
  deriving DecidableEq, Repr

structure ViewProperties where
  links : Entries Link := []
  primarySort : List SortKey := []
  commitInterval : Option Nat := none
  consolidationInterval : Option Nat := none
  deriving DecidableEq, Repr, Inhabited

structure View where
  name : String
  properties : ViewProperties := {}
  deriving DecidableEq, Repr, Inhabited

namespace ViewProperties

def sameLinks (a b : ViewProperties) : Bool := Link.sameFields (some a.links) (some b.links)

/-- Whether a view already has the required properties. The consolidation interval takes no part:
a difference in it alone is no reason to migrate. -/
def agrees (required existing : ViewProperties) : Bool :=
  required.sameLinks existing && required.primarySort = existing.primarySort &&
    required.commitInterval = existing.commitInterval

def same (a b : ViewProperties) : Bool :=
  a.agrees b && a.consolidationInterval = b.consolidationInterval

/-- The primary sort of a view cannot change in place. -/
def needsRecreation (required existing : ViewProperties) : Bool :=
  required.primarySort ≠ existing.primarySort

end ViewProperties

def SortKey.toJson (key : SortKey) : Json :=
  .object [("field", .string key.field), ("asc", .bool key.ascending)]

def ViewProperties.toJson (properties : ViewProperties) : Json :=
  .object <|
    [("links", .object (Link.entriesToJson properties.links)),
      ("primarySort", .array (properties.primarySort.map SortKey.toJson))] ++
    (properties.commitInterval.map fun n => ("commitIntervalMsec", .nat n)).toList ++
    (properties.consolidationInterval.map fun n => ("consolidationIntervalMsec", .nat n)).toList

def View.toJson (view : View) : Json :=
  .object [("name", .string view.name), ("properties", view.properties.toJson)]

structure SortKey.Draft where
  field : Option String := none
  ascending : Option Bool := none

def SortKey.read (room : Nat) (o : Outline) : Except Fault SortKey := do
  let draft ← readRecord ["field", "asc"] { : SortKey.Draft }
    (fun _ draft key value => do
      match key with
      | "field" => return { draft with field := ← value.readString }
      | _ => return { draft with ascending := ← value.readBool })
    room o
  return { field := ← required draft.field, ascending := ← required draft.ascending }

def ViewProperties.readPart (style : CaseStyle) (room : Nat) (properties : ViewProperties)
    (key : String) (value : Outline) : Except Fault ViewProperties := do
  match key with
  | "links" => return { properties with links := ← readMap (Link.read style) room value }
  | "primarySort" => return { properties with primarySort := ← readList SortKey.read room value }
  | "commitIntervalMsec" =>
    return { properties with commitInterval := ← readOption (fun _ => readNat) room value }
  | _ =>
    return { properties with consolidationInterval := ← readOption (fun _ => readNat) room value }

def ViewProperties.read (style : CaseStyle) : Json.Reader ViewProperties :=
  readRecord ["links", "primarySort", "commitIntervalMsec", "consolidationIntervalMsec"] {}
    (ViewProperties.readPart style)

structure View.Draft where
  name : Option String := none
  properties : ViewProperties := {}

def View.read (room : Nat) (o : Outline) : Except Fault View := do
  let draft ← readRecord ["name", "properties"] { : View.Draft }
    (fun room draft key value => do
      match key with
      | "name" => return { draft with name := ← value.readString }
      | _ => return { draft with properties := ← ViewProperties.read .strict room value })
    room o
  return { name := ← required draft.name, properties := draft.properties }

end EntitySchema.Search
