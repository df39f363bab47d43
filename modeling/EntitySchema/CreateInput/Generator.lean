import EntitySchema.CreateInput.Error
import EntitySchema.CreateInput.Reachable

/-!
A store of Create inputs that are built on request. An input refers to those it nests through slots,
and a slot is filled when the input it waits for has been built, so that types may embed each other.
All that is built for one request becomes available together, and stays at its place for good.
-/

namespace EntitySchema

/-- A reference to the Create input of the object type that a field embeds. -/
structure SlotRef where
  name : String
  slot : Nat
  deriving DecidableEq, Repr

inductive StoredKind where
  | basic
  | basicList
  | object (ref : SlotRef)
  | objectList (ref : SlotRef)
  | relation (toMany : Bool)
  deriving DecidableEq, Repr

namespace StoredKind

def ref? : StoredKind → Option SlotRef
  | .object ref | .objectList ref => some ref
  | _ => none

def leaf (list : Bool) : StoredKind := if list then .basicList else .basic

def embedded (ref : SlotRef) (list : Bool) : StoredKind :=
  if list then .objectList ref else .object ref

end StoredKind

structure StoredField where
  name : String
  field : FieldId
  default : Option Json
  type : Sdl.TypeExpr
  kind : StoredKind
  deriving DecidableEq, Repr

def StoredField.ofField (field : Field) (type : Sdl.TypeExpr) (kind : StoredKind) : StoredField :=
  { name := field.name, field := field.id, default := field.default, type, kind }

structure StoredInput where
  name : String
  objectType : TypeId
  server : ServerProperties
  fields : List StoredField
  deriving DecidableEq, Repr

/-- The inputs and slots in existence while a request is served. Of the types of this request, those
begun have a slot, and those finished an input. -/
structure Build where
  inputs : List StoredInput
  /-- The place of the input that a slot holds, nothing as long as it is being built. -/
  slots : List (Option Nat)
  begun : List (TypeId × SlotRef) := []
  finished : List (TypeId × Nat) := []
  deriving DecidableEq, Repr

abbrev Builder := TypeId → Build → Option (Nat × Build)

namespace Build

def inputType (name : String) (list : Bool) : Sdl.TypeExpr :=
  if list then .listOf name else .optional name

def start (build : Build) (id : TypeId) (type : ObjectType) : SlotRef × Build :=
  let ref : SlotRef := { name := Names.createInput type.name, slot := build.slots.length }
  (ref, { build with slots := build.slots ++ [none], begun := (id, ref) :: build.begun })

/-- Stores the input of a type, and fills its slot unless that holds an input already. -/
def finish (build : Build) (id : TypeId) (ref : SlotRef) (input : StoredInput) : Nat × Build :=
  let place := build.inputs.length
  (place,
    { build with
      inputs := build.inputs ++ [input]
      slots := build.slots.modify ref.slot (·.or (some place))
      finished := build.finished ++ [(id, place)] })

def link (build : Build) (place : Nat) : Option (SlotRef × Build) := do
  let input ← build.inputs[place]?
  return ({ name := input.name, slot := build.slots.length },
    { build with slots := build.slots ++ [some place] })

/-- The input of an embedded type: the available one, the one of this request, which may still be
under way, or one that is built now. -/
def nested (available : List (TypeId × Nat)) (builder : Builder) (id : TypeId) (build : Build) :
    Option (SlotRef × Build) :=
  match available.lookup id with
  | some place => build.link place
  | none =>
    match build.begun.lookup id with
    | some ref => some (ref, build)
    | none => do
      let (place, build) ← builder id build
      build.link place

def field (available : List (TypeId × Nat)) (builder : Builder) (field : Field) (build : Build) :
    Option (StoredField × Build) :=
  match field.type with
  | .scalar name | .enumeration name =>
    some (.ofField field (inputType name field.list) (.leaf field.list), build)
  | .object target =>
    if field.relation then
      some (.ofField field (inputType "ID" field.list) (.relation field.list), build)
    else if field.reference then
      some (.ofField field (inputType "String" field.list) (.leaf field.list), build)
    else do
      let (ref, build) ← nested available builder target build
      return (.ofField field (inputType ref.name field.list) (.embedded ref field.list), build)

def fields (available : List (TypeId × Nat)) (builder : Builder) :
    List Field → Build → Option (List StoredField × Build)
  | [], build => some ([], build)
  | first :: rest, build => do
    let (stored, build) ← field available builder first build
    let (others, build) ← fields available builder rest build
    return (stored :: others, build)

def input (model : Model) (available : List (TypeId × Nat)) : Nat → Builder
  | 0, _, _ => none
  | depth + 1, id, build => do
    let type ← model.type? id
    let (ref, build) := build.start id type
    let (stored, build) ←
      fields available (input model available depth) (type.fields.filter (!·.system)) build
    return build.finish id ref
      { name := ref.name, objectType := id, server := CreateInput.serverProperties type.kind,
        fields := stored }

end Build

/-- The inputs built so far, at fixed places, and those available by their type. -/
structure InputGenerator where
  model : Model
  inputs : List StoredInput := []
  slots : List (Option Nat) := []
  available : List (TypeId × Nat) := []
  deriving DecidableEq, Repr

namespace InputGenerator

def idle (generator : InputGenerator) : Build :=
  { inputs := generator.inputs, slots := generator.slots }

def publish (available : List (TypeId × Nat)) (entry : TypeId × Nat) : List (TypeId × Nat) :=
  if (available.lookup entry.1).isSome then available else entry :: available

/-- The place of the input of an object type. No type is begun twice for a request, so the number of
types bounds how deep builds stand inside one another. -/
def generate (generator : InputGenerator) (id : TypeId) : Option (Nat × InputGenerator) :=
  match generator.available.lookup id with
  | some place => some (place, generator)
  | none => do
    let (root, build) ← Build.input generator.model generator.available
      generator.model.types.length id generator.idle
    let nested := build.finished.filter (·.1 ≠ id)
    let available := publish (nested.foldl publish generator.available) (id, root)
    let place ← available.lookup id
    return (place, { generator with inputs := build.inputs, slots := build.slots, available })

def typeOf? (generator : InputGenerator) (name : String) : Except InputError TypeId :=
  match generator.model.find? name with
  | some type => .ok type.id
  | none => .error (.unknownType name)

def generateByName (generator : InputGenerator) (name : String) :
    Except InputError (Option (Nat × InputGenerator)) :=
  (generator.typeOf? name).map generator.generate

def get (generator : InputGenerator) (ref : SlotRef) : Except InputError Nat :=
  match generator.slots[ref.slot]? with
  | some (some place) => .ok place
  | _ => .error (.unknownType ref.name)

def readRef? (generator : InputGenerator) (ref : SlotRef) : Option NestedInput := do
  let place ← (generator.get ref).toOption
  let input ← generator.inputs[place]?
  return { name := ref.name, target := input.objectType }

def readKind? (generator : InputGenerator) : StoredKind → Option InputKind
  | .basic => some .basic
  | .basicList => some .basicList
  | .object ref => (generator.readRef? ref).map .object
  | .objectList ref => (generator.readRef? ref).map .objectList
  | .relation toMany => some (.relation toMany)

def readField? (generator : InputGenerator) (field : StoredField) : Option InputField := do
  let kind ← generator.readKind? field.kind
  return { name := field.name, field := field.field, default := field.default, type := field.type,
           kind }

def read? (generator : InputGenerator) (place : Nat) : Option CreateInput := do
  let input ← generator.inputs[place]?
  let fields ← input.fields.mapM generator.readField?
  return { name := input.name, objectType := input.objectType, server := input.server, fields }

def place? (generator : InputGenerator) (id : TypeId) : Option Nat := generator.available.lookup id

def stored? (generator : InputGenerator) (id : TypeId) : Option CreateInput :=
  (generator.place? id).bind generator.read?

/-- Makes sure that the input of an object type is available, and all those it nests. -/
def request (generator : InputGenerator) (id : TypeId) : InputGenerator :=
  match generator.generate id with
  | some (_, generator) => generator
  | none => generator

end InputGenerator

end EntitySchema
