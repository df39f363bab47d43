import EntitySchema.CreateInput.Error
import EntitySchema.CreateInput.Shape
import EntitySchema.Instant

/-!
Preparing a payload: the properties of the new document, with defaults for what the payload
leaves out and with the properties that the server computes.

A default of a field that embeds an object is prepared like a payload, and may leave out fields
whose defaults are prepared in turn. Such a chain need not end, so the depth of preparation is
bounded by a number that every chain stays below that ends at all.
-/

namespace EntitySchema

inductive PathStep where
  | field (name : String)
  | item (index : Nat)
  deriving DecidableEq, Repr

/-- What the server knows when it creates documents: the instant, which all nested objects share,
and a fresh identifier for each position of a child entity. -/
structure Creation where
  now : Instant
  freshId : List PathStep → String

inductive PrepareError where
  | input (e : InputError)
  /-- The defaults demand each other without end. -/
  | endless
  deriving DecidableEq, Repr

namespace Creation

def properties (creation : Creation) (path : List PathStep) :
    ServerProperties → Except InputError Json.Object
  | .none => .ok []
  | server =>
    match creation.now.rfc3339? with
    | none => .error (.timestamp Instant.unformattableYear)
    | some now =>
      let timestamps :=
        [(Names.createdAtField, Json.string now), (Names.updatedAtField, Json.string now)]
      if server = .childEntity then
        .ok ((Names.idField, .string (creation.freshId path)) :: timestamps)
      else .ok timestamps

end Creation

namespace Prepare

abbrev Nested := TypeId → List PathStep → Json.Object → Except PrepareError Json.Object

def mismatch {α : Type} (field : InputField) (expected : Expectation) (actual : Json) :
    Except PrepareError α :=
  .error (.input (.payloadShape field.name expected actual.kind))

def items (prepare : Nested) (field : InputField) (target : TypeId) (path : List PathStep) :
    Nat → List Json → Except PrepareError (List Json)
  | _, [] => .ok []
  | index, .object members :: rest => do
    let first ← prepare target (.item index :: path) members
    let others ← items prepare field target path (index + 1) rest
    return .object first :: others
  | _, other :: _ => mismatch field .listOfObjects other

/-- The property that a field makes of its value, none for a relation. -/
def property (prepare : Nested) (path : List PathStep) (field : InputField) (value : Json) :
    Except PrepareError (Option Json) :=
  let path := PathStep.field field.name :: path
  match field.kind with
  | .basic => .ok (some value)
  | .basicList =>
    match value with
    | .null => .ok (some (.array []))
    | other => .ok (some other)
  | .object nested =>
    match value with
    | .null => .ok (some .null)
    | .object members => (prepare nested.target path members).map fun o => some (.object o)
    | other => mismatch field .anObject other
  | .objectList nested =>
    match value with
    | .null => .ok (some (.array []))
    | .array values =>
      (items prepare field nested.target path 0 values).map fun prepared => some (.array prepared)
    | other => mismatch field .anArray other
  | .relation _ => .ok none

/-- The properties of the fields that the payload has or that declare a default, in field order. -/
def ownProperties (prepare : Nested) (path : List PathStep) (payload : Json.Object) :
    List InputField → Except PrepareError Json.Object
  | [] => .ok []
  | field :: rest =>
    match (payload.get? field.name).or field.default with
    | none => ownProperties prepare path payload rest
    | some value => do
      let prepared ← property prepare path field value
      let others ← ownProperties prepare path payload rest
      return (prepared.map fun p => (field.name, p)).toList ++ others

/-- Prepares a payload with at most `fuel` objects inside one another. -/
def within (model : Model) (creation : Creation) : Nat → Nested
  | 0, _, _, _ => .error .endless
  | fuel + 1, id, path, payload =>
    match model.createInput? id with
    | none => .error (.input (.unknownType ""))
    | some input => do
      let own ← ownProperties (within model creation fuel) path payload input.fields
      let server ← (creation.properties path input.server).mapError .input
      return own ++ server

/-- A chain of nested objects that ends visits no default twice, so it is no longer than the
payload and all defaults are deep. -/
def bound (model : Model) (payload : Json.Object) : Nat :=
  let defaults := model.types.flatMap fun type => type.fields.filterMap (·.default)
  defaults.foldl (fun sum value => sum + value.depth) (Json.object payload).depth + 1

end Prepare

def Model.prepare (model : Model) (creation : Creation) (id : TypeId) (payload : Json.Object) :
    Except PrepareError Json.Object :=
  Prepare.within model creation (Prepare.bound model payload) id [] payload

end EntitySchema
