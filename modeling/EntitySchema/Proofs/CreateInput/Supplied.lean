import EntitySchema.CreateInput.Affected
import EntitySchema.CreateInput.Prepare
import EntitySchema.Proofs.Results

/-! # The objects that a payload supplies

Collecting the affected fields meets every object that stands in a payload where an input expects
one, and reports each field that such an object supplies. -/
namespace EntitySchema

def Json.follow? (step : PathStep) : Json → Option Json
  | .object members =>
    match step with
    | .field name => Entries.get? members name
    | .item _ => none
  | .array items =>
    match step with
    | .field _ => none
    | .item index => items[index]?
  | _ => none

/-- The value at a position, which is given with its last step first. -/
def Json.at? (value : Json) : List PathStep → Option Json
  | [] => some value
  | step :: path => (value.at? path).bind (Json.follow? step)

inductive Supplied (model : Model) (id : TypeId) (payload : Json.Object) :
    List PathStep → TypeId → Json.Object → Prop
  | root : Supplied model id payload [] id payload
  | field {path : List PathStep} {type : TypeId} {object inner : Json.Object}
      {input : CreateInput} {field : InputField} {nested : NestedInput}
      (outer : Supplied model id payload path type object)
      (hinput : model.createInput? type = some input) (hfield : field ∈ input.fields)
      (hkind : field.kind = .object nested)
      (hvalue : object.get? field.name = some (.object inner)) :
      Supplied model id payload (.field field.name :: path) nested.target inner
  | item {path : List PathStep} {type : TypeId} {object inner : Json.Object}
      {input : CreateInput} {field : InputField} {nested : NestedInput} {items : List Json}
      {index : Nat}
      (outer : Supplied model id payload path type object)
      (hinput : model.createInput? type = some input) (hfield : field ∈ input.fields)
      (hkind : field.kind = .objectList nested)
      (hvalue : object.get? field.name = some (.array items))
      (hitem : items[index]? = some (.object inner)) :
      Supplied model id payload (.item index :: .field field.name :: path) nested.target inner

/-- What a supplied object supplies in turn, the payload supplies as well. -/
theorem Supplied.trans {model : Model} {id type : TypeId} {payload object : Json.Object}
    {path : List PathStep} (houter : Supplied model id payload path type object)
    {inside : List PathStep} {innerType : TypeId} {inner : Json.Object}
    (hinner : Supplied model type object inside innerType inner) :
    Supplied model id payload (inside ++ path) innerType inner := by
  induction hinner with
  | root => exact houter
  | field _ hinput hfield hkind hvalue ih => exact .field ih hinput hfield hkind hvalue
  | item _ hinput hfield hkind hvalue hitem ih => exact .item ih hinput hfield hkind hvalue hitem

namespace Affected

variable {model : Model}

theorem mem_foldl_addNew {fields set : List FieldId} {f : FieldId} :
    f ∈ fields.foldl addNew set ↔ f ∈ set ∨ f ∈ fields := by
  induction fields generalizing set with
  | nil => simp
  | cons first rest ih =>
    rw [List.foldl_cons, ih, List.mem_cons]
    by_cases hmem : first ∈ set
    · rw [addNew, if_pos hmem]
      constructor
      · exact fun h => h.imp_right .inr
      · rintro (h | rfl | h)
        · exact .inl h
        · exact .inl hmem
        · exact .inr h
    · rw [addNew, if_neg hmem, List.mem_append, List.mem_singleton, or_assoc]

theorem touched_eq_ok_iff {id : TypeId} {payload : Json.Object} {fs : List FieldId} :
    touched model id payload = .ok fs ↔
      ∃ input, model.createInput? id = some input ∧
        touchedFields model payload input.fields = .ok fs := by
  rw [touched]
  cases model.createInput? id with
  | none => simp
  | some input => simp

theorem touchedFields_nil (payload : Json.Object) : touchedFields model payload [] = .ok [] := by
  rw [touchedFields]

theorem touchedFields_cons (payload : Json.Object) (field : InputField) (rest : List InputField) :
    touchedFields model payload (field :: rest) =
      match payload.get? field.name with
      | none => touchedFields model payload rest
      | some value => do
        let inner ← touchedValue model field value
        let others ← touchedFields model payload rest
        return field.field :: inner ++ others := by
  rw [touchedFields]
  split <;> simp_all

/-- The walk reports each field that the payload has, and goes into its value. -/
theorem touchedFields_of_mem {payload : Json.Object} {fields : List InputField}
    {fs : List FieldId} (h : touchedFields model payload fields = .ok fs) {field : InputField}
    (hfield : field ∈ fields) {value : Json} (hvalue : payload.get? field.name = some value) :
    field.field ∈ fs ∧ ∃ inner, touchedValue model field value = .ok inner ∧ inner ⊆ fs := by
  induction fields generalizing fs with
  | nil => cases hfield
  | cons first rest ih =>
    rw [touchedFields] at h
    split at h
    · rename_i hnone
      rcases List.mem_cons.1 hfield with rfl | hrest
      · rw [hvalue] at hnone
        cases hnone
      · exact ih h hrest
    · rename_i found hfound
      obtain ⟨inner, hinner, hnext⟩ := Results.bind_eq_ok_iff.1 h
      obtain ⟨others, hothers, heq⟩ := Results.bind_eq_ok_iff.1 hnext
      cases heq
      rcases List.mem_cons.1 hfield with rfl | hrest
      · rw [hvalue] at hfound
        cases hfound
        refine ⟨List.mem_cons_self, inner, hinner, fun f hf => ?_⟩
        exact List.mem_cons_of_mem _ (List.mem_append_left _ hf)
      · obtain ⟨hmem, inner', hinner', hsub⟩ := ih hothers hrest
        have hincl : others ⊆ first.field :: inner ++ others := List.subset_append_right _ _
        exact ⟨hincl hmem, inner', hinner', fun f hf => hincl (hsub hf)⟩

theorem touchedItems_of_getElem? {field : InputField} {target : TypeId} {items : List Json}
    {fs : List FieldId} (h : touchedItems model field target items = .ok fs) {index : Nat}
    {members : Json.Object} (hitem : items[index]? = some (.object members)) :
    ∃ inner, touched model target members = .ok inner ∧ inner ⊆ fs := by
  induction items generalizing fs index with
  | nil => cases hitem
  | cons first rest ih =>
    cases first with
    | object firstMembers =>
      rw [touchedItems] at h
      obtain ⟨inner, hinner, hnext⟩ := Results.bind_eq_ok_iff.1 h
      obtain ⟨others, hothers, heq⟩ := Results.bind_eq_ok_iff.1 hnext
      cases heq
      cases index with
      | zero =>
        cases hitem
        exact ⟨inner, hinner, List.subset_append_left _ _⟩
      | succ index =>
        obtain ⟨inner', hinner', hsub⟩ := ih hothers hitem
        exact ⟨inner', hinner', fun f hf => List.mem_append_right _ (hsub hf)⟩
    | _ => simp [touchedItems] at h

/-- The walk meets every object that the payload supplies. -/
theorem touched_of_supplied {id : TypeId} {payload : Json.Object} {fs : List FieldId}
    (h : touched model id payload = .ok fs) {path : List PathStep} {type : TypeId}
    {object : Json.Object} (hsupplied : Supplied model id payload path type object) :
    ∃ inner, touched model type object = .ok inner ∧ inner ⊆ fs := by
  induction hsupplied with
  | root => exact ⟨fs, h, List.Subset.refl _⟩
  | field outer hinput hfield hkind hvalue ih =>
    obtain ⟨seen, hseen, hsub⟩ := ih
    obtain ⟨input, hsame, hfields⟩ := touched_eq_ok_iff.1 hseen
    rw [hinput] at hsame
    cases hsame
    obtain ⟨-, inner, hinner, hincl⟩ := touchedFields_of_mem hfields hfield hvalue
    rw [touchedValue, hkind] at hinner
    exact ⟨inner, hinner, fun f hf => hsub (hincl hf)⟩
  | item outer hinput hfield hkind hvalue hitem ih =>
    obtain ⟨seen, hseen, hsub⟩ := ih
    obtain ⟨input, hsame, hfields⟩ := touched_eq_ok_iff.1 hseen
    rw [hinput] at hsame
    cases hsame
    obtain ⟨-, inner, hinner, hincl⟩ := touchedFields_of_mem hfields hfield hvalue
    rw [touchedValue, hkind] at hinner
    obtain ⟨own, hown, hin⟩ := touchedItems_of_getElem? hinner hitem
    exact ⟨own, hown, fun f hf => hsub (hincl (hin hf))⟩

end Affected

/-- A field that is not reported is supplied by no object of the payload. -/
theorem Model.get?_eq_none_of_unreported {model : Model} {id : TypeId} {payload : Json.Object}
    {reported : List FieldId} (h : model.affectedFields id payload = .ok reported)
    {path : List PathStep} {type : TypeId} {object : Json.Object}
    (hsupplied : Supplied model id payload path type object) {input : CreateInput}
    (hinput : model.createInput? type = some input) {field : InputField}
    (hfield : field ∈ input.fields) (hnot : field.field ∉ reported) :
    object.get? field.name = none := by
  obtain ⟨fs, hfs, rfl⟩ := Results.map_eq_ok_iff.1 h
  obtain ⟨inner, hinner, hsub⟩ := Affected.touched_of_supplied hfs hsupplied
  obtain ⟨input', hsame, hfields⟩ := Affected.touched_eq_ok_iff.1 hinner
  rw [hinput] at hsame
  cases hsame
  cases hvalue : object.get? field.name with
  | none => rfl
  | some value =>
    obtain ⟨hmem, -⟩ := Affected.touchedFields_of_mem hfields hfield hvalue
    exact absurd (Affected.mem_foldl_addNew.2 (.inr (hsub hmem))) hnot

end EntitySchema
