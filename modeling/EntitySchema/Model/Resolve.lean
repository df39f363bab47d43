import EntitySchema.Model.Basic
import EntitySchema.Names

/-!
Resolving a model declaration: names become positions, entities receive their system fields, and
the first violation of a rule of the model is reported.
-/

namespace EntitySchema

inductive ModelError where
  | duplicateType (name : String)
  | duplicateField (type field : String)
  | unknownType (type field referenced : String)
  | nonListChildEntityField (type field : String)
  | embeddedRootEntity (type field referenced : String)
  | invalidRelationTarget (type field referenced : String)
  | unknownPrimarySortField (type field : String)
  deriving DecidableEq, Repr

namespace ModelError

def quoted (text : String) : String := "\"" ++ text ++ "\""

def path (type field : String) : String := quoted (type ++ "." ++ field)

def message : ModelError → String
  | .duplicateType name => "Type " ++ quoted name ++ " is declared more than once"
  | .duplicateField type field => "Field " ++ path type field ++ " is declared more than once"
  | .unknownType type field referenced =>
    "Field " ++ path type field ++ " references unknown type " ++ quoted referenced
  | .nonListChildEntityField type field =>
    "Field " ++ path type field ++ " holds child entities and must be a list"
  | .embeddedRootEntity type field referenced =>
    "Field " ++ path type field ++ " embeds root entity " ++ quoted referenced ++
      "; declare it as a relation or a reference"
  | .invalidRelationTarget type field referenced =>
    "Field " ++ path type field ++ " is a relation or reference but " ++ quoted referenced ++
      " is not a root entity"
  | .unknownPrimarySortField type field =>
    "Primary sort of " ++ quoted type ++ " references unknown field " ++ quoted field

end ModelError

/-- The first name that an earlier place of the list holds already. -/
def firstRepeated? : List String → List String → Option String
  | _, [] => none
  | seen, name :: rest => if name ∈ seen then some name else firstRepeated? (name :: seen) rest

namespace ModelDecl

def lookup? (decl : ModelDecl) (name : String) : Option (TypeId × TypeKind) := do
  let id ← decl.types.findIdx? (·.name == name)
  let type ← decl.types[id]?
  return (id, type.kind)

def resolveType (decl : ModelDecl) (type : TypeDecl) (field : FieldDecl) :
    Except ModelError (FieldType × Bool) :=
  match decl.lookup? field.typeName with
  | some (id, kind) =>
    let linked := field.relation || field.reference
    if kind = .childEntity ∧ !field.list then
      .error (.nonListChildEntityField type.name field.name)
    else if kind = .rootEntity ∧ !linked then
      .error (.embeddedRootEntity type.name field.name field.typeName)
    else if linked ∧ kind ≠ .rootEntity then
      .error (.invalidRelationTarget type.name field.name field.typeName)
    else .ok (.object id, kind = .childEntity)
  | none =>
    if isBuiltinScalar field.typeName then .ok (.scalar field.typeName, false)
    else if field.typeName ∈ decl.enums then .ok (.enumeration field.typeName, false)
    else .error (.unknownType type.name field.name field.typeName)

/-- The fields that every entity has. Those of a search-indexed root entity are indexed. -/
def systemFields (id : TypeId) (type : TypeDecl) : List Field :=
  if type.kind.hasSystemFields then
    let system (index : Nat) (name scalar : String) : Field :=
      { id := ⟨id, index⟩, name, type := .scalar scalar, list := false, system := true,
        default := none, relation := false, reference := false, childEntities := false,
        search :=
          { indexed := type.kind = .rootEntity && type.searchIndexed, caseSensitive := true } }
    [system 0 Names.idField "ID", system 1 Names.createdAtField "DateTime",
      system 2 Names.updatedAtField "DateTime"]
  else []

def addField (decl : ModelDecl) (id : TypeId) (type : TypeDecl) (fields : List Field)
    (field : FieldDecl) : Except ModelError (List Field) := do
  if fields.any (·.name == field.name) then throw (.duplicateField type.name field.name)
  let (fieldType, childEntities) ← decl.resolveType type field
  return fields ++
    [{ id := ⟨id, fields.length⟩, name := field.name, type := fieldType, list := field.list,
       system := false, default := field.default, relation := field.relation,
       reference := field.reference, childEntities,
       search :=
        { indexed := field.indexed, fulltext := field.fulltext,
          caseSensitive := field.caseSensitive, language := field.language } }]

def resolveFields (decl : ModelDecl) (id : TypeId) (type : TypeDecl) :
    Except ModelError (List Field) :=
  type.fields.foldlM (decl.addField id type) (systemFields id type)

def pathHead (path : String) : String := String.ofList (path.toList.takeWhile (· ≠ '.'))

def resolveRoot (type : TypeDecl) (fields : List Field) :
    Except ModelError (Option RootOptions) :=
  if type.kind = .rootEntity then
    let sortable (clause : SortClause) : Bool :=
      fields.any (·.name == pathHead clause.field)
    match type.primarySort.find? (!sortable ·) with
    | some clause => .error (.unknownPrimarySortField type.name clause.field)
    | none =>
      let plural := type.plural.getD (Names.pluralize type.name)
      .ok (some
        { plural, collection := Names.collection plural, searchIndexed := type.searchIndexed,
          primarySort := type.primarySort })
  else .ok none

def resolveObject (decl : ModelDecl) (id : TypeId) (type : TypeDecl) :
    Except ModelError ObjectType := do
  let fields ← decl.resolveFields id type
  let root ← resolveRoot type fields
  return { id, name := type.name, kind := type.kind, fields, root }

end ModelDecl

def Model.resolve (decl : ModelDecl) : Except ModelError Model := do
  if let some name := firstRepeated? [] (decl.types.map (·.name)) then
    throw (.duplicateType name)
  let types ← decl.types.zipIdx.mapM fun (type, id) => decl.resolveObject id type
  return { types }

end EntitySchema
