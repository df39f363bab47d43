import EntitySchema.Sdl.Value

/-!
Schema documents: type syntax, the definitions that input synthesis reads and writes, and their
text.
-/

namespace EntitySchema.Sdl

/-- A required mark stands on a name or a list, never on another mark. -/
inductive TypeExpr where
  | named (name : String) (required : Bool)
  | list (item : TypeExpr) (required : Bool)
  deriving DecidableEq, Repr, Inhabited

namespace TypeExpr

def optional (name : String) : TypeExpr := .named name false

/-- A list without null items, as in `[name!]`. -/
def listOf (name : String) : TypeExpr := .list (.named name true) false

def innermost : TypeExpr → String
  | .named name _ => name
  | .list item _ => item.innermost

def isList : TypeExpr → Bool
  | .named .. => false
  | .list .. => true

def mark (required : Bool) : String := if required then "!" else ""

def text : TypeExpr → String
  | .named name required => name ++ mark required
  | .list item required => "[" ++ item.text ++ "]" ++ mark required

end TypeExpr

structure Directive where
  name : String
  arguments : List (String × Value) := []
  deriving Repr, Inhabited

namespace Directive

/-! The directives that input synthesis understands. -/

def rootEntity : String := "rootEntity"
def childEntity : String := "childEntity"
def entityExtension : String := "entityExtension"
def valueObject : String := "valueObject"
def relation : String := "relation"
def reference : String := "reference"
def roles : String := "roles"
def calcMutations : String := "calcMutations"

def operators : String := "operators"

def argument? (directive : Directive) (name : String) : Option Value :=
  Entries.get? directive.arguments name

/-- The first directive of a name. -/
def find? (directives : List Directive) (name : String) : Option Directive :=
  List.find? (·.name == name) directives

def present (directives : List Directive) (name : String) : Bool :=
  (find? directives name).isSome

end Directive

structure FieldDef where
  name : String
  type : TypeExpr
  directives : List Directive := []
  deriving Repr, Inhabited

structure TypeDef where
  name : String
  directives : List Directive := []
  fields : List FieldDef := []
  deriving Repr, Inhabited

namespace TypeDef

def has (type : TypeDef) (directive : String) : Bool := Directive.present type.directives directive

def isRootEntity (type : TypeDef) : Bool := type.has Directive.rootEntity
def isChildEntity (type : TypeDef) : Bool := type.has Directive.childEntity
def isEntityExtension (type : TypeDef) : Bool := type.has Directive.entityExtension

end TypeDef

inductive Definition where
  | object (type : TypeDef)
  | input (type : TypeDef)
  | enumeration (name : String) (directives : List Directive) (values : List String)
  | scalar (name : String) (directives : List Directive)
  deriving Repr, Inhabited

def Definition.name : Definition → String
  | .object type | .input type => type.name
  | .enumeration name .. | .scalar name _ => name

structure Document where
  definitions : List Definition := []
  deriving Repr, Inhabited

namespace Document

/-- The first definition of a name. -/
def definition? (document : Document) (name : String) : Option Definition :=
  document.definitions.find? (·.name == name)

def objectTypes (document : Document) : List TypeDef :=
  document.definitions.filterMap fun
    | .object type => some type
    | _ => none

def inputObjects (document : Document) : List TypeDef :=
  document.definitions.filterMap fun
    | .input type => some type
    | _ => none

def rootEntities (document : Document) : List TypeDef :=
  document.objectTypes.filter (·.isRootEntity)

def childEntities (document : Document) : List TypeDef :=
  document.objectTypes.filter (·.isChildEntity)

end Document

/-- Equality of parts of a document, up to the equality of argument values. -/
def samePairwise {α : Type} (same : α → α → Bool) : List α → List α → Bool
  | [], [] => true
  | a :: as, b :: bs => same a b && samePairwise same as bs
  | _, _ => false

def Directive.same (a b : Directive) : Bool :=
  a.name = b.name &&
    samePairwise (fun x y => x.1 = y.1 && x.2.same y.2) a.arguments b.arguments

def FieldDef.same (a b : FieldDef) : Bool :=
  a.name = b.name && a.type = b.type && samePairwise Directive.same a.directives b.directives

def TypeDef.same (a b : TypeDef) : Bool :=
  a.name = b.name && samePairwise Directive.same a.directives b.directives &&
    samePairwise FieldDef.same a.fields b.fields

def Definition.same : Definition → Definition → Bool
  | .object a, .object b | .input a, .input b => a.same b
  | .enumeration name directives values, .enumeration name' directives' values' =>
    name = name' && samePairwise Directive.same directives directives' && values = values'
  | .scalar name directives, .scalar name' directives' =>
    name = name' && samePairwise Directive.same directives directives'
  | _, _ => false

def Document.same (a b : Document) : Bool :=
  samePairwise Definition.same a.definitions b.definitions

/-! ### Schema text: one member a line, definitions parted by a blank line -/

def Directive.text (directive : Directive) : String :=
  let arguments := directive.arguments.map fun (name, value) => name ++ ": " ++ value.text
  "@" ++ directive.name ++
    (if arguments.isEmpty then "" else "(" ++ ", ".intercalate arguments ++ ")")

def directivesText (directives : List Directive) : String :=
  String.join (directives.map fun directive => " " ++ directive.text)

def FieldDef.text (field : FieldDef) : String :=
  field.name ++ ": " ++ field.type.text ++ directivesText field.directives

def blockText (keyword name : String) (directives : List Directive) (members : List String) :
    String :=
  keyword ++ " " ++ name ++ directivesText directives ++
    (if members.isEmpty then ""
    else " \x7b\n" ++ String.join (members.map fun member => "  " ++ member ++ "\n") ++ "\x7d")

def TypeDef.inputText (type : TypeDef) : String :=
  blockText "input" type.name type.directives (type.fields.map FieldDef.text)

def Definition.text : Definition → String
  | .object type => blockText "type" type.name type.directives (type.fields.map FieldDef.text)
  | .input type => type.inputText
  | .enumeration name directives values => blockText "enum" name directives values
  | .scalar name directives => blockText "scalar" name directives []

def Document.text (document : Document) : String :=
  "\n\n".intercalate (document.definitions.map Definition.text)

end EntitySchema.Sdl
