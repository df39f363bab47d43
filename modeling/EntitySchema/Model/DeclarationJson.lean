import EntitySchema.Json.Decode
import EntitySchema.Model.Declaration
import EntitySchema.Model.Resolve

/-!
The JSON form of model declarations, written with every field but an absent default, and read
with every optional field missing; and models from the text of their declaration.
-/

namespace EntitySchema

open Json (Fault Outline)
open Json.Outline

def SortClause.toJson (clause : SortClause) : Json :=
  .object [("field", .string clause.field), ("direction", .string clause.direction.name)]

def FieldDecl.toJson (field : FieldDecl) : Json :=
  .object <|
    [("name", .string field.name), ("type", .string field.typeName), ("list", .bool field.list),
      ("relation", .bool field.relation), ("reference", .bool field.reference)] ++
    (field.default.map fun value => ("defaultValue", value)).toList ++
    [("flexSearch", .bool field.indexed), ("flexSearchFulltext", .bool field.fulltext),
      ("flexSearchCaseSensitive", .bool field.caseSensitive),
      ("flexSearchLanguage", (field.language.map fun l => .string l.name).getD .null)]

def TypeDecl.toJson (type : TypeDecl) : Json :=
  .object
    [("name", .string type.name), ("kind", .string type.kind.name),
      ("fields", .array (type.fields.map FieldDecl.toJson)),
      ("pluralName", (type.plural.map .string).getD .null),
      ("flexSearch", .bool type.searchIndexed),
      ("flexSearchPrimarySort", .array (type.primarySort.map SortClause.toJson))]

def ModelDecl.toJson (model : ModelDecl) : Json :=
  .object
    [("types", .array (model.types.map TypeDecl.toJson)),
      ("enums", .array (model.enums.map .string))]

structure SortClause.Draft where
  field : Option String := none
  direction : SortDirection := .ascending

def SortClause.read (room : Nat) (o : Outline) : Except Fault SortClause := do
  let draft ← readRecord ["field", "direction"] { : SortClause.Draft }
    (fun room draft key value => do
      match key with
      | "field" => return { draft with field := ← value.readString }
      | _ => return { draft with direction := ← readCase .strict SortDirection.ofName? room value })
    room o
  return { field := ← required draft.field, direction := draft.direction }

/-- A field of which some parts have been read; the two names may still be missing. -/
structure FieldDecl.Draft where
  name : Option String := none
  typeName : Option String := none
  field : FieldDecl := { name := "", typeName := "" }

def FieldDecl.keys : List String :=
  ["name", "type", "list", "relation", "reference", "defaultValue", "flexSearch",
   "flexSearchFulltext", "flexSearchCaseSensitive", "flexSearchLanguage"]

def FieldDecl.readPart (room : Nat) (draft : FieldDecl.Draft) (key : String) (value : Outline) :
    Except Fault FieldDecl.Draft := do
  let field := draft.field
  match key with
  | "name" => return { draft with name := ← value.readString }
  | "type" => return { draft with typeName := ← value.readString }
  | "list" => return { draft with field := { field with list := ← value.readBool } }
  | "relation" => return { draft with field := { field with relation := ← value.readBool } }
  | "reference" => return { draft with field := { field with reference := ← value.readBool } }
  | "defaultValue" => return { draft with field := { field with default := ← readJson room value } }
  | "flexSearch" => return { draft with field := { field with indexed := ← value.readBool } }
  | "flexSearchFulltext" =>
    return { draft with field := { field with fulltext := ← value.readBool } }
  | "flexSearchCaseSensitive" =>
    return { draft with field := { field with caseSensitive := ← value.readBool } }
  | _ =>
    let language ← readOption (readCase .strict SearchLanguage.ofName?) room value
    return { draft with field := { field with language } }

def FieldDecl.read (room : Nat) (o : Outline) : Except Fault FieldDecl := do
  let draft ← readRecord FieldDecl.keys {} FieldDecl.readPart room o
  let name ← required draft.name
  let typeName ← required draft.typeName
  return { draft.field with name, typeName }

structure TypeDecl.Draft where
  name : Option String := none
  kind : Option TypeKind := none
  type : TypeDecl := { name := "", kind := .object }

def TypeDecl.keys : List String :=
  ["name", "kind", "fields", "pluralName", "flexSearch", "flexSearchPrimarySort"]

def TypeDecl.readPart (room : Nat) (draft : TypeDecl.Draft) (key : String) (value : Outline) :
    Except Fault TypeDecl.Draft := do
  let type := draft.type
  match key with
  | "name" => return { draft with name := ← value.readString }
  | "kind" => return { draft with kind := ← readCase .strict TypeKind.ofName? room value }
  | "fields" =>
    return { draft with type := { type with fields := ← readList FieldDecl.read room value } }
  | "pluralName" =>
    let plural ← readOption (fun _ => readString) room value
    return { draft with type := { type with plural } }
  | "flexSearch" => return { draft with type := { type with searchIndexed := ← value.readBool } }
  | _ =>
    let primarySort ← readList SortClause.read room value
    return { draft with type := { type with primarySort } }

def TypeDecl.read (room : Nat) (o : Outline) : Except Fault TypeDecl := do
  let draft ← readRecord TypeDecl.keys {} TypeDecl.readPart room o
  let name ← required draft.name
  let kind ← required draft.kind
  return { draft.type with name, kind }

def ModelDecl.readPart (room : Nat) (model : ModelDecl) (key : String) (value : Outline) :
    Except Fault ModelDecl := do
  match key with
  | "types" => return { model with types := ← readList TypeDecl.read room value }
  | _ => return { model with enums := ← readList (fun _ => readString) room value }

def ModelDecl.read : Json.Reader ModelDecl :=
  readRecord ["types", "enums"] {} ModelDecl.readPart

inductive ModelTextError where
  | unreadable (fault : Json.Fault)
  | rejected (e : ModelError)
  deriving DecidableEq, Repr

def ModelTextError.message : ModelTextError → String
  | .unreadable fault => "Model configuration could not be parsed: " ++ fault.message
  | .rejected e => e.message

def Model.ofText (text : String) : Except ModelTextError Model := do
  let decl ← (Json.readText ModelDecl.read text).mapError .unreadable
  (Model.resolve decl).mapError .rejected

end EntitySchema
