import EntitySchema.Text.CaseMapping

/-!
The naming conventions of generated types, fields and collections.
-/

namespace EntitySchema.Names

def idField : String := "id"

def createdAtField : String := "createdAt"

def updatedAtField : String := "updatedAt"

/-- The key under which a store keeps the identifier of a root entity. -/
def storeKeyField : String := "_key"

def createInput (typeName : String) : String := "Create" ++ typeName ++ "Input"

def updateInput (typeName : String) : String := "Update" ++ typeName ++ "Input"

def updateAllInput (typeName : String) : String := "UpdateAll" ++ typeName ++ "Input"

def capitalize (name : String) : String :=
  match name.toList with
  | [] => ""
  | c :: rest => String.ofList (Text.upperCase c ++ rest)

def decapitalize (name : String) : String :=
  match name.toList with
  | [] => ""
  | c :: rest => String.ofList (Text.lowerCase c ++ rest)

def addField (field : String) : String := "add" ++ capitalize field

def updateField (field : String) : String := "update" ++ capitalize field

def removeField (field : String) : String := "remove" ++ capitalize field

def isVowel (c : Char) : Bool := c ∈ ['a', 'e', 'i', 'o', 'u']

def endsHissing : List Char → Bool
  | 's' :: _ | 'x' :: _ | 'h' :: 'c' :: _ | 'h' :: 's' :: _ => true
  | _ => false

/-- The English plural: a final `y` behind a consonant becomes `ies`, hissing sounds take `es`. -/
def pluralize (name : String) : String :=
  match name.toList.reverse with
  | 'y' :: stem =>
    if stem.head?.any isVowel then name ++ "s" else String.ofList stem.reverse ++ "ies"
  | backwards => if endsHissing (backwards.map Char.toLower) then name ++ "es" else name ++ "s"

/-- The collection that holds the root entities of a plural name. -/
def collection (plural : String) : String := decapitalize plural

end EntitySchema.Names
