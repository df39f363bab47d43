import EntitySchema.Json.Value

/-!
Model declarations: the object types of a domain with their fields and flags, as an author
writes them. `Model.resolve` turns a declaration into a model.
-/

namespace EntitySchema

inductive TypeKind where
  | rootEntity
  | childEntity
  | entityExtension
  | valueObject
  | object
  deriving DecidableEq, Repr

namespace TypeKind

def all : List TypeKind := [.rootEntity, .childEntity, .entityExtension, .valueObject, .object]

def name : TypeKind → String
  | .rootEntity => "rootEntity"
  | .childEntity => "childEntity"
  | .entityExtension => "entityExtension"
  | .valueObject => "valueObject"
  | .object => "object"

def ofName? (name : String) : Option TypeKind := all.find? (·.name == name)

def hasSystemFields : TypeKind → Bool
  | .rootEntity | .childEntity => true
  | .entityExtension | .valueObject | .object => false

end TypeKind

inductive SortDirection where
  | ascending
  | descending
  deriving DecidableEq, Repr

namespace SortDirection

def all : List SortDirection := [.ascending, .descending]

def name : SortDirection → String
  | .ascending => "ASCENDING"
  | .descending => "DESCENDING"

def ofName? (name : String) : Option SortDirection := all.find? (·.name == name)

end SortDirection

inductive SearchLanguage where
  | en | de | es | fi | fr | it | nl | no | pt | ru | sv | zh
  deriving DecidableEq, Repr

namespace SearchLanguage

def all : List SearchLanguage := [.en, .de, .es, .fi, .fr, .it, .nl, .no, .pt, .ru, .sv, .zh]

def name : SearchLanguage → String
  | .en => "EN"
  | .de => "DE"
  | .es => "ES"
  | .fi => "FI"
  | .fr => "FR"
  | .it => "IT"
  | .nl => "NL"
  | .no => "NO"
  | .pt => "PT"
  | .ru => "RU"
  | .sv => "SV"
  | .zh => "ZH"

def ofName? (name : String) : Option SearchLanguage := all.find? (·.name == name)

def analyzer : SearchLanguage → String
  | .en => "text_en"
  | .de => "text_de"
  | .es => "text_es"
  | .fi => "text_fi"
  | .fr => "text_fr"
  | .it => "text_it"
  | .nl => "text_nl"
  | .no => "text_no"
  | .pt => "text_pt"
  | .ru => "text_ru"
  | .sv => "text_sv"
  | .zh => "text_zh"

end SearchLanguage

/-- A clause of a sort order over a dot-separated field path. -/
structure SortClause where
  field : String
  direction : SortDirection := .ascending
  deriving DecidableEq, Repr

structure FieldDecl where
  name : String
  /-- Names an object type, a built-in scalar or an enum, in this order of precedence. -/
  typeName : String
  list : Bool := false
  relation : Bool := false
  reference : Bool := false
  /-- A declared null is a default too. -/
  default : Option Json := none
  indexed : Bool := false
  fulltext : Bool := false
  caseSensitive : Bool := false
  language : Option SearchLanguage := none
  deriving DecidableEq, Repr

/-- A plural, the search flag and the primary sort mean something for root entities only. -/
structure TypeDecl where
  name : String
  kind : TypeKind
  fields : List FieldDecl := []
  plural : Option String := none
  searchIndexed : Bool := false
  primarySort : List SortClause := []
  deriving DecidableEq, Repr

structure ModelDecl where
  types : List TypeDecl := []
  enums : List String := []
  deriving DecidableEq, Repr

def builtinScalars : List String :=
  ["ID", "String", "Int", "Float", "Boolean", "DateTime", "LocalDate", "LocalTime",
   "OffsetDateTime", "Int53", "Decimal1", "Decimal2", "Decimal3", "JSON", "JSONObject",
   "I18nString"]

def isBuiltinScalar (name : String) : Bool := name ∈ builtinScalars

end EntitySchema
