import EntitySchema.CreateInput.Error
import EntitySchema.CreateInput.Shape

/-!
The related entities that a payload asks to link.
-/

namespace EntitySchema

structure RelationAddition where
  field : FieldId
  ids : List String
  deriving DecidableEq, Repr

namespace CreateInput

def idItems (field : InputField) : List Json → Except InputError (List String)
  | [] => .ok []
  | .string id :: rest => (idItems field rest).map (id :: ·)
  | other :: _ => .error (.payloadShape field.name .listOfIds other.kind)

def relationIds (field : InputField) (toMany : Bool) (value : Json) :
    Except InputError (List String) :=
  match value, toMany with
  | .null, _ => .ok []
  | .string id, false => .ok [id]
  | .array items, true => idItems field items
  | other, false => .error (.payloadShape field.name .anId other.kind)
  | other, true => .error (.payloadShape field.name .anArray other.kind)

def relationAdditions (input : CreateInput) (payload : Json.Object) :
    Except InputError (List RelationAddition) := do
  let additions ← input.fields.mapM fun field =>
    match field.kind, payload.get? field.name with
    | .relation toMany, some value =>
      (relationIds field toMany value).map fun ids => { field := field.field, ids }
    | _, _ => .ok { field := field.field, ids := [] }
  return additions.filter (!·.ids.isEmpty)

end CreateInput

end EntitySchema
