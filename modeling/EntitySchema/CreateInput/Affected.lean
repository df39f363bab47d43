import EntitySchema.CreateInput.Error
import EntitySchema.CreateInput.Shape

/-!
The model fields that a payload writes. Only what the client supplies counts; a default does not.
-/

namespace EntitySchema

theorem Entries.sizeOf_lt_of_get? {members : Json.Object} {key : String} {value : Json}
    (h : members.get? key = some value) : sizeOf value < sizeOf members := by
  have hmem := List.sizeOf_lt_of_mem (Entries.get?_mem h)
  simp only [Prod.mk.sizeOf_spec] at hmem
  omega

namespace Affected

mutual

/-- The fields met on a walk through a payload, as often as they are met. -/
def touched (model : Model) (id : TypeId) (payload : Json.Object) :
    Except InputError (List FieldId) :=
  match model.createInput? id with
  | none => .error (.unknownType "")
  | some input => touchedFields model payload input.fields
termination_by (sizeOf payload, 1, 0)

def touchedFields (model : Model) (payload : Json.Object) :
    List InputField → Except InputError (List FieldId)
  | [] => .ok []
  | field :: rest =>
    match _h : payload.get? field.name with
    | none => touchedFields model payload rest
    | some value => do
      let inner ← touchedValue model field value
      let others ← touchedFields model payload rest
      return field.field :: inner ++ others
termination_by fields => (sizeOf payload, 0, fields.length)
decreasing_by
  · exact Prod.Lex.right _ (Prod.Lex.right _ (by simp))
  · exact Prod.Lex.left _ _ (Entries.sizeOf_lt_of_get? _h)
  · exact Prod.Lex.right _ (Prod.Lex.right _ (by simp))

def touchedValue (model : Model) (field : InputField) :
    Json → Except InputError (List FieldId)
  | .null => .ok []
  | .object members =>
    match field.kind with
    | .object nested => touched model nested.target members
    | .objectList _ => .error (.payloadShape field.name .anArray .object)
    | _ => .ok []
  | .array items =>
    match field.kind with
    | .objectList nested => touchedItems model field nested.target items
    | .object _ => .error (.payloadShape field.name .anObject .array)
    | _ => .ok []
  | other =>
    match field.kind with
    | .object _ => .error (.payloadShape field.name .anObject other.kind)
    | .objectList _ => .error (.payloadShape field.name .anArray other.kind)
    | _ => .ok []
termination_by value => (sizeOf value, 0, 0)
decreasing_by
  · simp only [Json.object.sizeOf_spec]
    exact Prod.Lex.left _ _ (by omega)
  · simp only [Json.array.sizeOf_spec]
    exact Prod.Lex.left _ _ (by omega)

def touchedItems (model : Model) (field : InputField) (target : TypeId) :
    List Json → Except InputError (List FieldId)
  | [] => .ok []
  | .object members :: rest => do
    let inner ← touched model target members
    let others ← touchedItems model field target rest
    return inner ++ others
  | other :: _ => .error (.payloadShape field.name .listOfObjects other.kind)
termination_by items => (sizeOf items, 0, 0)
decreasing_by
  · simp only [List.cons.sizeOf_spec, Json.object.sizeOf_spec]
    exact Prod.Lex.left _ _ (by omega)
  · simp only [List.cons.sizeOf_spec]
    exact Prod.Lex.left _ _ (by omega)

end

def addNew (set : List FieldId) (field : FieldId) : List FieldId :=
  if field ∈ set then set else set ++ [field]

end Affected

/-- The fields that a payload writes, in the order in which they are first met. -/
def Model.affectedFields (model : Model) (id : TypeId) (payload : Json.Object) :
    Except InputError (List FieldId) :=
  (Affected.touched model id payload).map fun fields => fields.foldl Affected.addNew []

/-- Adds the fields that a payload writes to a set, which a failure leaves as it was. -/
def Model.collectAffectedFields (model : Model) (set : List FieldId) (id : TypeId)
    (payload : Json.Object) : List FieldId × Except InputError Unit :=
  match Affected.touched model id payload with
  | .ok fields => (fields.foldl Affected.addNew set, .ok ())
  | .error e => (set, .error e)

end EntitySchema
