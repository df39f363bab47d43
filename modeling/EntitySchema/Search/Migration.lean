import EntitySchema.Search.Properties

/-!
The steps that bring the views of a store in line with a model.
-/

namespace EntitySchema.Search

open Json (Fault Outline)
open Json.Outline

structure ViewChange where
  view : String
  collection : String
  /-- The number of documents when the step was planned. -/
  documents : Nat
  properties : ViewProperties
  deriving DecidableEq, Repr

inductive Migration where
  | create (change : ViewChange)
  | drop (view : String)
  | update (change : ViewChange)
  /-- Drops the view and builds it again, because its primary sort changes. -/
  | recreate (change : ViewChange)
  deriving DecidableEq, Repr

namespace Migration

def view : Migration → String
  | .create change | .update change | .recreate change => change.view
  | .drop view => view

def documents? : Migration → Option Nat
  | .create change | .update change | .recreate change => some change.documents
  | .drop _ => none

def isDrop : Migration → Bool
  | .drop _ => true
  | _ => false

def quoted (name : String) : String := "\"" ++ name ++ "\""

def description : Migration → String
  | .create change =>
    "Create search view " ++ quoted change.view ++ " on collection " ++ quoted change.collection ++
      " (" ++ toString change.documents ++ " documents)"
  | .drop view => "Drop search view " ++ quoted view
  | .update change =>
    "Update properties of search view " ++ quoted change.view ++ " on collection " ++
      quoted change.collection
  | .recreate change =>
    "Recreate search view " ++ quoted change.view ++ " on collection " ++
      quoted change.collection ++ " (" ++ toString change.documents ++
      " documents) because its primary sort changed"

inductive Tag where
  | create
  | drop
  | update
  | recreate
  deriving DecidableEq, Repr

def Tag.name : Tag → String
  | .create => "create"
  | .drop => "drop"
  | .update => "update"
  | .recreate => "recreate"

def Tag.ofName? (name : String) : Option Tag :=
  [create, drop, update, recreate].find? (·.name == name)

end Migration

def ViewChange.members (change : ViewChange) : List (String × Json) :=
  [("viewName", .string change.view), ("collectionName", .string change.collection),
    ("collectionSize", .nat change.documents), ("properties", change.properties.toJson)]

namespace Migration

def toJson : Migration → Json
  | .create change => .object (("type", .string Tag.create.name) :: change.members)
  | .drop view => .object [("type", .string Tag.drop.name), ("viewName", .string view)]
  | .update change => .object (("type", .string Tag.update.name) :: change.members)
  | .recreate change => .object (("type", .string Tag.recreate.name) :: change.members)

end Migration

structure ViewChange.Draft where
  view : Option String := none
  collection : Option String := none
  documents : Option Nat := none
  properties : Option ViewProperties := none

def ViewChange.read (room : Nat) (o : Outline) : Except Fault ViewChange := do
  let draft ← readRecord ["viewName", "collectionName", "collectionSize", "properties"]
    { : ViewChange.Draft }
    (fun room draft key value => do
      match key with
      | "viewName" => return { draft with view := ← value.readString }
      | "collectionName" => return { draft with collection := ← value.readString }
      | "collectionSize" => return { draft with documents := ← value.readNat }
      | _ => return { draft with properties := ← ViewProperties.read .lenient room value })
    room o
  return { view := ← required draft.view, collection := ← required draft.collection,
           documents := ← required draft.documents, properties := ← required draft.properties }

namespace Migration

def readTag (o : Outline) : Except Fault Tag := do
  let name ← o.readString
  (Tag.ofName? name).elim (.error .mismatch) .ok

def readDrop (room : Nat) (o : Outline) : Except Fault String := do
  let view ← readRecord ["viewName"] none (fun _ _ _ value => value.readString.map some) room o
  required view

def readBody (tag : Tag) (room : Nat) (o : Outline) : Except Fault Migration :=
  match tag with
  | .create => (ViewChange.read room o).map .create
  | .drop => (readDrop room o).map .drop
  | .update => (ViewChange.read room o).map .update
  | .recreate => (ViewChange.read room o).map .recreate

/-- Takes the tag out of the members of an object. The other members are looked through once for
what no value may hold, and keep their order. -/
def splitTag (room : Nat) : Option Tag → List (Option String × Outline) →
    Except Fault (Option Tag × List (Option String × Outline))
  | tag, [] => .ok (tag, [])
  | _, (none, _) :: _ => .error .malformed
  | tag, (some key, value) :: rest =>
    if key = "type" then
      if tag.isSome then .error .mismatch
      else do
        let found ← readTag value
        splitTag room (some found) rest
    else do
      let _ ← readJson room value
      let (tag, members) ← splitTag room tag rest
      return (tag, (some key, value) :: members)

/-- A migration is an object with its tag among the members, or a list with the tag in front. Its
parts are read when all of it has been seen, so that they can only mismatch. -/
def read : Nat → Outline → Except Fault Migration
  | 0, .array _ | 0, .object .. => .error .malformed
  | _ + 1, .array [] => .error .mismatch
  | room + 1, .array (tag :: items) => do
    let tag ← readTag tag
    items.forM fun item => discard (readJson room item)
    (readBody tag (room + 1) (.array items)).mapError fun _ => .mismatch
  | room + 1, .object members closed => do
    let (tag, members) ← splitTag room none members
    if closed then
      match tag with
      | none => .error .mismatch
      | some tag =>
        (readBody tag (room + 1) (.object members true)).mapError fun _ => .mismatch
    else .error .malformed
  | _, o => .error o.unexpected

end Migration

end EntitySchema.Search
