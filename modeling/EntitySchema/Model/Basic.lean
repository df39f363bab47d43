import EntitySchema.Model.Declaration

/-!
The resolved domain model. Types and fields are addressed by their positions.
-/

namespace EntitySchema

/-- The position of an object type in its model. -/
abbrev TypeId := Nat

/-- The declaring type of a field and the field's position in it. -/
structure FieldId where
  type : TypeId
  index : Nat
  deriving DecidableEq, Repr

inductive FieldType where
  | scalar (name : String)
  | enumeration (name : String)
  | object (target : TypeId)
  deriving DecidableEq, Repr

namespace FieldType

def isLeaf : FieldType → Bool
  | .scalar _ | .enumeration _ => true
  | .object _ => false

def target? : FieldType → Option TypeId
  | .object target => some target
  | _ => none

end FieldType

structure SearchOptions where
  indexed : Bool := false
  fulltext : Bool := false
  caseSensitive : Bool := false
  language : Option SearchLanguage := none
  deriving DecidableEq, Repr

structure Field where
  id : FieldId
  name : String
  type : FieldType
  list : Bool
  system : Bool
  default : Option Json
  relation : Bool
  reference : Bool
  /-- The field embeds a list of child entities. -/
  childEntities : Bool
  search : SearchOptions
  deriving DecidableEq, Repr

structure RootOptions where
  plural : String
  collection : String
  searchIndexed : Bool
  primarySort : List SortClause
  deriving DecidableEq, Repr

/-- The fields stand in declaration order behind the system fields. -/
structure ObjectType where
  id : TypeId
  name : String
  kind : TypeKind
  fields : List Field
  root : Option RootOptions
  deriving DecidableEq, Repr

namespace ObjectType

def field? (type : ObjectType) (name : String) : Option Field :=
  type.fields.find? (·.name == name)

def searchIndexed (type : ObjectType) : Bool := type.root.any (·.searchIndexed)

def primarySort (type : ObjectType) : List SortClause :=
  (type.root.map (·.primarySort)).getD []

end ObjectType

structure Model where
  types : List ObjectType
  deriving DecidableEq, Repr

namespace Model

def type? (model : Model) (id : TypeId) : Option ObjectType := model.types[id]?

def find? (model : Model) (name : String) : Option ObjectType :=
  model.types.find? (·.name == name)

def field? (model : Model) (id : FieldId) : Option Field := do
  (← model.type? id.type).fields[id.index]?

def rootEntities (model : Model) : List ObjectType :=
  model.types.filter (·.kind = .rootEntity)

def childEntities (model : Model) : List ObjectType :=
  model.types.filter (·.kind = .childEntity)

def targetType? (model : Model) (field : Field) : Option ObjectType :=
  field.type.target?.bind model.type?

def fieldPath? (model : Model) (id : FieldId) : Option String := do
  return (← model.type? id.type).name ++ "." ++ (← model.field? id).name

end Model

end EntitySchema
