import EntitySchema.Model.Declaration
import EntitySchema.Names
import EntitySchema.Sdl.Document

/-!
Synthesis of Update inputs from a schema document. Each root entity gets an input for one entity
and one for all, each child entity an input for one; a declared field becomes the input fields
through which it can change. The restrictions of a field hold for all input fields made of it.
-/

namespace EntitySchema

/-- The operators of calculating updates, which change a value instead of replacing it. -/
inductive CalcOperator where
  | add
  | multiply
  | subtract
  | divide
  | modulo
  | append
  | prepend
  deriving DecidableEq, Repr

namespace CalcOperator

def all : List CalcOperator := [.add, .multiply, .subtract, .divide, .modulo, .append, .prepend]

def keyword : CalcOperator → String
  | .add => "ADD"
  | .multiply => "MULTIPLY"
  | .subtract => "SUBTRACT"
  | .divide => "DIVIDE"
  | .modulo => "MODULO"
  | .append => "APPEND"
  | .prepend => "PREPEND"

/-- What the names of the input fields of an operator begin with. -/
def verb : CalcOperator → String
  | .add => "add"
  | .multiply => "multiplyWith"
  | .subtract => "subtract"
  | .divide => "divideBy"
  | .modulo => "moduloOf"
  | .append => "appendTo"
  | .prepend => "prependTo"

def ofKeyword? (keyword : String) : Option CalcOperator := all.find? (·.keyword == keyword)

end CalcOperator

open Sdl

inductive SynthesisProblem where
  | listOfLists
  | unsupportedType (name : String)
  | unknownType (name : String)
  | invalidOperator (value : Value)
  | unknownOperator (keyword : String)
  deriving Repr

structure SynthesisError where
  type : String
  field : String
  problem : SynthesisProblem
  deriving Repr

def SynthesisProblem.message : SynthesisProblem → String
  | .listOfLists => "lists of lists are not allowed"
  | .unsupportedType name => "type \"" ++ name ++ "\" is not supported in update inputs"
  | .unknownType name => "unknown type \"" ++ name ++ "\""
  | .invalidOperator value => "invalid calc mutation operator " ++ value.text
  | .unknownOperator keyword => "unknown calc mutation operator " ++ keyword

def SynthesisError.message (e : SynthesisError) : String :=
  "Field \"" ++ e.type ++ "." ++ e.field ++ "\": " ++ e.problem.message

def SynthesisProblem.code : SynthesisProblem → String
  | .listOfLists => "LIST_OF_LISTS"
  | .unsupportedType _ => "UNSUPPORTED_TYPE"
  | .unknownType _ => "UNKNOWN_TYPE"
  | .invalidOperator _ | .unknownOperator _ => "INVALID_DIRECTIVE"

namespace UpdateInput

inductive Target where
  | leaf
  | object (type : TypeDef)

/-- The first definition of a name counts, and a built-in scalar if there is none. -/
def resolve (document : Document) (name : String) : Except SynthesisProblem Target :=
  match document.definition? name with
  | some (.object type) => .ok (.object type)
  | some (.enumeration ..) | some (.scalar ..) => .ok .leaf
  | some (.input _) => .error (.unsupportedType name)
  | none => if isBuiltinScalar name then .ok .leaf else .error (.unknownType name)

/-- The first restriction among directives, as the only one. -/
def rolesOf (directives : List Directive) : List Directive :=
  (Directive.find? directives Directive.roles).toList

def inputField (field : FieldDef) (name : String) (type : TypeExpr) : FieldDef :=
  { name, type, directives := rolesOf field.directives }

/-- The type through which a single value is updated. What is linked is replaced by its key, what
is part of the entity is updated in turn, and a value object is replaced as a whole. -/
def valueTypeName (field : FieldDef) (name : String) : Target → Except SynthesisProblem String
  | .leaf => .ok name
  | .object type =>
    if Directive.present field.directives Directive.relation then .ok "ID"
    else if Directive.present field.directives Directive.reference then .ok "String"
    else if type.isChildEntity || type.isEntityExtension then .ok (Names.updateInput type.name)
    else if type.isRootEntity then .error (.unsupportedType name)
    else .ok (Names.createInput type.name)

def operatorValues (field : FieldDef) : List Value :=
  match Directive.find? field.directives Directive.calcMutations with
  | none => []
  | some directive =>
    match directive.argument? Directive.operators with
    | none => []
    | some (.list values) => values
    | some value => [value]

def operator : Value → Except SynthesisProblem CalcOperator
  | .enumeration keyword | .string keyword =>
    (CalcOperator.ofKeyword? keyword).elim (.error (.unknownOperator keyword)) .ok
  | value => .error (.invalidOperator value)

def calcInput (field : FieldDef) (typeName : String) (operator : CalcOperator) : FieldDef :=
  inputField field (operator.verb ++ Names.capitalize field.name) (.optional typeName)

def valueInputs (document : Document) (field : FieldDef) (name : String) :
    Except SynthesisProblem (List FieldDef) := do
  let target ← resolve document name
  let typeName ← valueTypeName field name target
  let operators ← (operatorValues field).mapM operator
  return inputField field field.name (.optional typeName) :: operators.map (calcInput field name)

def listInputs (document : Document) (field : FieldDef) (name : String) :
    Except SynthesisProblem (List FieldDef) := do
  match ← resolve document name with
  | .leaf => return [inputField field field.name (.listOf name)]
  | .object type =>
    if Directive.present field.directives Directive.relation then
      return [inputField field (Names.addField field.name) (.listOf "ID"),
        inputField field (Names.removeField field.name) (.listOf "ID")]
    else if type.isChildEntity then
      return [inputField field (Names.addField field.name) (.listOf (Names.createInput type.name)),
        inputField field (Names.updateField field.name)
          (.listOf (Names.updateInput type.name)),
        inputField field (Names.removeField field.name) (.listOf "ID")]
    else return [inputField field field.name (.listOf (Names.updateInput type.name))]

def fieldInputs (document : Document) (field : FieldDef) :
    Except SynthesisProblem (List FieldDef) :=
  match field.type with
  | .named name _ => valueInputs document field name
  | .list (.named name _) _ => listInputs document field name
  | .list (.list ..) _ => .error .listOfLists

def isSystemField (name : String) : Bool :=
  name ∈ [Names.idField, Names.createdAtField, Names.updatedAtField]

/-- The input fields of all fields of a type that clients may change, in declaration order. -/
def typeInputs (document : Document) (type : TypeDef) : Except SynthesisError (List FieldDef) := do
  let blocks ← (type.fields.filter (!isSystemField ·.name)).mapM fun field =>
    (fieldInputs document field).mapError fun problem =>
      { type := type.name, field := field.name, problem }
  return blocks.flatten

def updateOne (type : TypeDef) (fields : List FieldDef) : TypeDef :=
  { name := Names.updateInput type.name
    directives := rolesOf type.directives
    fields := { name := Names.idField, type := .named "ID" true } :: fields }

def updateAll (type : TypeDef) (fields : List FieldDef) : TypeDef :=
  { name := Names.updateAllInput type.name, directives := rolesOf type.directives, fields }

/-- The Update inputs of a document: of the root entities, then of the child entities. -/
def synthesize (document : Document) : Except SynthesisError (List TypeDef) := do
  let roots ← document.rootEntities.mapM fun type =>
    (typeInputs document type).map fun fields => [updateOne type fields, updateAll type fields]
  let children ← document.childEntities.mapM fun type =>
    (typeInputs document type).map fun fields => updateOne type fields
  return roots.flatten ++ children

def extend (document : Document) : Except SynthesisError Document := do
  let inputs ← synthesize document
  return { definitions := document.definitions ++ inputs.map .input }

/-- A change of a document in place, which may fail. -/
abbrev Pass := ExceptT SynthesisError (StateM Document) Unit

def Pass.apply (pass : Pass) (document : Document) : Except SynthesisError Unit × Document :=
  (ExceptT.run pass).run document

def pass : Pass := do
  let inputs ← synthesize (← get)
  modify fun document => { definitions := document.definitions ++ inputs.map .input }

def inOrder (passes : List Pass) : Pass := passes.forM id

def passName : String := "update-input-types"

def textOf (document : Document) (whole : Bool) : Except SynthesisError String :=
  if whole then (extend document).map (·.text)
  else (synthesize document).map fun inputs => "\n\n".intercalate (inputs.map (·.inputText))

end UpdateInput

end EntitySchema
