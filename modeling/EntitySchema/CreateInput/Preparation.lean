import EntitySchema.CreateInput.Affected
import EntitySchema.CreateInput.Generator
import EntitySchema.CreateInput.Prepare
import EntitySchema.CreateInput.Relations

/-!
All that is known of a payload before it is stored: the properties of the document, the fields it
writes, and the relations to add.
-/

namespace EntitySchema

/-- Fields are given as paths. -/
structure Preparation where
  properties : Json.Object
  affectedFields : List String
  relationAdditions : List (String × List String)
  deriving DecidableEq

namespace Preparation

def toJson (p : Preparation) : Json :=
  .object
    [("properties", .object p.properties),
      ("affectedFields", .array (p.affectedFields.map .string)),
      ("relationAdditions", .array (p.relationAdditions.map fun (field, ids) =>
        .object [("field", .string field), ("ids", .array (ids.map .string))]))]

inductive Error where
  | notAnObject
  | prepare (e : PrepareError)
  deriving DecidableEq, Repr

def Error.message : Error → String
  | .notAnObject => "Payload must be a JSON object"
  | .prepare (.input e) => e.message
  | .prepare .endless => "Defaults demand each other without end"

end Preparation

def Model.preparation (model : Model) (creation : Creation) (type : String) (payload : Json) :
    Except Preparation.Error Preparation := do
  let .object members := payload | .error .notAnObject
  let orFail {α : Type} (result : Except InputError α) : Except Preparation.Error α :=
    result.mapError fun e => .prepare (.input e)
  let id ← orFail (({ model } : InputGenerator).typeOf? type)
  let input ← orFail ((model.createInput? id).elim (.error (.unknownType type)) .ok)
  let properties ← (model.prepare creation id members).mapError .prepare
  let affected ← orFail (model.affectedFields id members)
  let additions ← orFail (input.relationAdditions members)
  return { properties
           affectedFields := affected.filterMap model.fieldPath?
           relationAdditions := additions.filterMap fun a =>
             (model.fieldPath? a.field).map fun path => (path, a.ids) }

end EntitySchema
