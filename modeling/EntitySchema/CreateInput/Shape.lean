import EntitySchema.Model.Basic
import EntitySchema.Names
import EntitySchema.Sdl.Document

/-!
The Create input of an object type: which fields a payload may have, of which type, and how the
value of each becomes a property of the new document.
-/

namespace EntitySchema

structure NestedInput where
  name : String
  target : TypeId
  deriving DecidableEq, Repr

inductive InputKind where
  /-- A scalar, an enum or the key of a reference; the value passes through. -/
  | basic
  /-- A list of such; null stands for no items. -/
  | basicList
  | object (nested : NestedInput)
  | objectList (nested : NestedInput)
  /-- Keys of related entities, which are no properties of the document. -/
  | relation (toMany : Bool)
  deriving DecidableEq, Repr

structure InputField where
  name : String
  /-- The field of the model that it writes. -/
  field : FieldId
  default : Option Json
  type : Sdl.TypeExpr
  kind : InputKind
  deriving DecidableEq, Repr

/-- The properties that every prepared object gets beside those of its payload. -/
inductive ServerProperties where
  | none
  /-- The two timestamps. -/
  | rootEntity
  /-- A fresh identifier and the two timestamps. -/
  | childEntity
  deriving DecidableEq, Repr

structure CreateInput where
  name : String
  objectType : TypeId
  server : ServerProperties
  fields : List InputField
  deriving DecidableEq, Repr

namespace CreateInput

def leaf (typeName : String) (list : Bool) : Sdl.TypeExpr × InputKind :=
  if list then (.listOf typeName, .basicList) else (.optional typeName, .basic)

def relation (toMany : Bool) : Sdl.TypeExpr × InputKind :=
  (if toMany then .listOf "ID" else .optional "ID", .relation toMany)

def embedded (nested : NestedInput) (list : Bool) : Sdl.TypeExpr × InputKind :=
  if list then (.listOf nested.name, .objectList nested)
  else (.optional nested.name, .object nested)

/-- The input type and kind of a model field. What a field links to is not embedded. -/
def shape (model : Model) (field : Field) : Sdl.TypeExpr × InputKind :=
  match field.type with
  | .scalar name | .enumeration name => leaf name field.list
  | .object target =>
    if field.relation then relation field.list
    else if field.reference then leaf "String" field.list
    else
      let name := ((model.type? target).map (·.name)).getD ""
      embedded { name := Names.createInput name, target } field.list

def inputField (model : Model) (field : Field) : InputField :=
  let (type, kind) := shape model field
  { name := field.name, field := field.id, default := field.default, type, kind }

def serverProperties : TypeKind → ServerProperties
  | .rootEntity => .rootEntity
  | .childEntity => .childEntity
  | .entityExtension | .valueObject | .object => .none

def ofType (model : Model) (type : ObjectType) : CreateInput :=
  { name := Names.createInput type.name
    objectType := type.id
    server := serverProperties type.kind
    fields := (type.fields.filter (!·.system)).map (inputField model) }

def nested (input : CreateInput) : List NestedInput :=
  input.fields.filterMap fun field =>
    match field.kind with
    | .object nested | .objectList nested => some nested
    | _ => none

def toTypeDef (input : CreateInput) : Sdl.TypeDef :=
  { name := input.name
    fields := input.fields.map fun field => { name := field.name, type := field.type } }

end CreateInput

def Model.createInput? (model : Model) (id : TypeId) : Option CreateInput :=
  (model.type? id).map (CreateInput.ofType model)

end EntitySchema
