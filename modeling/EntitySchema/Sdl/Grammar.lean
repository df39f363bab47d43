import EntitySchema.Sdl.Document
import EntitySchema.Sdl.Token

/-!
The grammar of schema text, and the document that a text stands for. Descriptions, arguments of
fields, default values, interfaces, unions, and the definitions of schemas and directives are
recognized and left out; extensions become ordinary definitions.
-/

namespace EntitySchema.Sdl

namespace Rule

open Text.Scanner (many many1 orNone)

def startsWith (word : String) (text : List Char) : Bool :=
  (Text.dropLiteral? word.toList text).isSome

/-- A name that does not start like a word with a meaning of its own. -/
def enumValue : Rule String := do
  skip
  fun text =>
    if ["true", "false", "null"].any (startsWith · text) then none else nameHere text

def number : Rule JsonNumber := do
  skip
  numberHere

def valueWithin : Nat → Rule Value
  | 0 => failure
  | fuel + 1 =>
    (.number <$> number) <|> (.string <$> string) <|> (do lit "true"; return .bool true) <|>
      (do lit "false"; return .bool false) <|> (do lit "null"; return .null) <|>
      (.enumeration <$> enumValue) <|>
      (.list <$> bracketed "[" "]" (many (valueWithin fuel))) <|>
      (do
        let members ← bracketed "\x7b" "\x7d" <| many do
          let key ← name
          lit ":"
          return (key, ← valueWithin fuel)
        return .object (Entries.collect members))

def value : Rule Value := fun text => valueWithin (text.length + 1) text

def directive : Rule Directive := do
  lit "@"
  let name ← name
  let arguments ← orNone <| bracketed "(" ")" <| many1 do
    let key ← Rule.name
    lit ":"
    return (key, ← value)
  return { name, arguments }

def directives : Rule (List Directive) := many1 directive

def description : Rule Unit := discard string <|> pure ()

/-- An argument or an input field. Its default value is left out. -/
def inputValue : Rule FieldDef := do
  description
  let name ← name
  lit ":"
  let type ← typeExpr
  (do lit "="; discard value) <|> pure ()
  let directives ← orNone directives
  return { name, type, directives }

def arguments : Rule Unit := discard (bracketed "(" ")" (many1 inputValue)) <|> pure ()

def field : Rule FieldDef := do
  description
  let name ← name
  arguments
  lit ":"
  let type ← typeExpr
  let directives ← orNone directives
  return { name, type, directives }

def fields : Rule (List FieldDef) := bracketed "\x7b" "\x7d" (many1 field)

def inputFields : Rule (List FieldDef) := bracketed "\x7b" "\x7d" (many1 inputValue)

def enumValues : Rule (List String) :=
  bracketed "\x7b" "\x7d" <| many1 do
    description
    let value ← enumValue
    let _ ← orNone directives
    return value

def implements : Rule Unit := do
  lit "implements"
  lit "&" <|> pure ()
  let _ ← name
  discard <| many do
    lit "&"
    name

def implementsOrNone : Rule Unit := implements <|> pure ()

def unionMembers : Rule Unit := do
  lit "="
  lit "|" <|> pure ()
  let _ ← name
  discard <| many do
    lit "|"
    name

def head (keyword : String) : Rule String := do
  description
  lit keyword
  name

def extensionHead (keyword : String) : Rule String := do
  lit "extend"
  lit keyword
  name

/-- What an extension adds: members with or without directives, or directives alone. -/
def addition {α : Type} (members : Rule (List α)) : Rule (List Directive × List α) :=
  (do return (← orNone directives, ← members)) <|> (do return (← directives, []))

def scalarDefinition : Rule Definition :=
  (do return .scalar (← head "scalar") (← orNone directives)) <|>
    (do return .scalar (← extensionHead "scalar") (← directives))

def objectDefinition : Rule Definition :=
  (do
    let name ← head "type"
    implementsOrNone
    let directives ← orNone directives
    return .object { name, directives, fields := ← orNone fields }) <|>
  (do
    let name ← extensionHead "type"
    let (directives, fields) ←
      (do implementsOrNone; addition fields) <|> (do implements; return ([], []))
    return .object { name, directives, fields })

def interfaceDefinition : Rule Unit :=
  (do
    let _ ← head "interface"
    implementsOrNone
    let _ ← orNone directives
    discard (orNone fields)) <|>
  (do
    let _ ← extensionHead "interface"
    implementsOrNone
    discard (addition fields))

def unionDefinition : Rule Unit :=
  let members : Rule (List Unit) := do
    unionMembers
    return []
  (do
    let _ ← head "union"
    let _ ← orNone directives
    discard (orNone members)) <|>
  (do
    let _ ← extensionHead "union"
    discard (addition members))

def enumDefinition : Rule Definition :=
  (do return .enumeration (← head "enum") (← orNone directives) (← orNone enumValues)) <|>
    (do
      let name ← extensionHead "enum"
      let (directives, values) ← addition enumValues
      return .enumeration name directives values)

def inputDefinition : Rule Definition :=
  (do
    let name ← head "input"
    let directives ← orNone directives
    return .input { name, directives, fields := ← orNone inputFields }) <|>
  (do
    let name ← extensionHead "input"
    let (directives, fields) ← addition inputFields
    return .input { name, directives, fields })

inductive RootOperation where
  | query
  | mutation
  | subscription
  deriving DecidableEq

def rootOperation : Rule RootOperation := do
  let operation ←
    (do lit "query"; return RootOperation.query) <|>
      (do lit "mutation"; return .mutation) <|> (do lit "subscription"; return .subscription)
  lit ":"
  let _ ← name
  return operation

def rootOperations : Rule (List RootOperation) := do
  let operations ← bracketed "\x7b" "\x7d" (many1 rootOperation)
  if operations.eraseDups.length = operations.length then return operations else failure

def schemaDefinition : Rule Unit :=
  (do
    lit "schema"
    let _ ← orNone directives
    let operations ← rootOperations
    if .query ∈ operations then return else failure) <|>
  (do
    lit "extend"
    lit "schema"
    discard (addition rootOperations))

/-- Where a directive may stand. Of two locations of which one starts like the other, the order
here decides. -/
def locations : List String :=
  ["QUERY", "MUTATION", "SUBSCRIPTION", "FIELD_DEFINITION", "FIELD", "FRAGMENT_DEFINITION",
   "FRAGMENT_SPREAD", "INLINE_FRAGMENT", "VARIABLE_DEFINITION", "SCHEMA", "SCALAR", "OBJECT",
   "ARGUMENT_DEFINITION", "INTERFACE", "UNION", "ENUM_VALUE", "ENUM", "INPUT_OBJECT",
   "INPUT_FIELD_DEFINITION"]

def location : Rule Unit := locations.foldr (fun word others => lit word <|> others) failure

def directiveDefinition : Rule Unit := do
  description
  lit "directive"
  lit "@"
  let _ ← name
  arguments
  lit "repeatable" <|> pure ()
  lit "on"
  lit "|" <|> pure ()
  location
  discard <| many do
    lit "|"
    location

/-- A definition, or none if the tree has no place for it. -/
def definition : Rule (Option Definition) :=
  (do schemaDefinition; return none) <|> (some <$> scalarDefinition) <|>
    (some <$> objectDefinition) <|> (do interfaceDefinition; return none) <|>
    (do unionDefinition; return none) <|> (some <$> enumDefinition) <|>
    (some <$> inputDefinition) <|> (do directiveDefinition; return none)

def document : Rule Document := do
  let definitions ← many1 definition
  ending
  return { definitions := definitions.filterMap id }

end Rule

def Document.parse? (text : String) : Option Document :=
  (Rule.document text.toList).map (·.1)

end EntitySchema.Sdl
