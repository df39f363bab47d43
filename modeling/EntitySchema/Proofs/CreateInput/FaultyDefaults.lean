import EntitySchema.Proofs.CreateInput.Rejected

/-! # Defaults that are taken for faults of the payload

A default may lack the shape that its field demands of a payload. A payload that leaves the field out
is then rejected as malformed, though collecting its affected fields finds nothing wrong with it. -/
namespace EntitySchema

/-- Whatever payload for a type is rejected as malformed, collecting its affected fields rejects it
as well. -/
def Model.BlamesPayloads (model : Model) (id : TypeId) : Prop :=
  ∀ (creation : Creation) (payload : Json.Object) (e : InputError),
    creation.now.rfc3339?.isSome = true →
    model.prepare creation id payload = .error (.input e) → e.isPayloadError = true →
    ∃ cause, model.affectedFields id payload = .error cause

namespace Prepare

section Unseen

variable {model : Model} {creation : Creation} {prepare : Nested} {input : CreateInput}
  {field : InputField} {e : InputError}

theorem Refines.eq_of_input {α : Type} {result : Except PrepareError α}
    (h : Refines (.error (.input e)) result) : result = .error (.input e) := by
  cases h with
  | input => rfl

/-- An error does not depend on the position. -/
theorem within_error_at {n : Nat} {id : TypeId} {path : List PathStep} {payload : Json.Object}
    (h : within model creation n id path payload = .error (.input e)) (path' : List PathStep) :
    within model creation n id path' payload = .error (.input e) := by
  have hrefines : Refines (within model creation n id path payload)
      (within model creation n id path' payload) :=
    within_refines (Nat.le_refl n) id path path' payload
  rw [h] at hrefines
  exact hrefines.eq_of_input

/-- One field fails, and no other one fails differently. -/
theorem ownProperties_eq_error {path : List PathStep} {payload : Json.Object}
    {fields : List InputField} {cause : PrepareError} (hfield : field ∈ fields)
    (hfails : ∃ value, (payload.get? field.name).or field.default = some value ∧
      property prepare path field value = .error cause)
    (hothers : ∀ other ∈ fields, other ≠ field → ∃ value prepared,
      (payload.get? other.name).or other.default = some value ∧
        property prepare path other value = .ok prepared) :
    ownProperties prepare path payload fields = .error cause := by
  induction fields with
  | nil => cases hfield
  | cons first rest ih =>
    rw [ownProperties]
    by_cases hfirst : first = field
    · subst hfirst
      obtain ⟨value, hvalue, hproperty⟩ := hfails
      rw [hvalue]
      exact Results.bind_eq_error_iff.2 (.inl hproperty)
    · have hrest : field ∈ rest := (List.mem_cons.1 hfield).resolve_left (Ne.symm hfirst)
      obtain ⟨value, prepared, hvalue, hproperty⟩ := hothers first List.mem_cons_self hfirst
      have hlater := ih hrest fun other hother => hothers other (List.mem_cons_of_mem _ hother)
      rw [hvalue]
      refine Results.bind_eq_error_iff.2 (.inr ⟨prepared, hproperty, ?_⟩)
      exact Results.bind_eq_error_iff.2 (.inl hlater)

theorem within_eq_error {n : Nat} {id : TypeId} {path : List PathStep} {payload : Json.Object}
    {cause : PrepareError} (hinput : model.createInput? id = some input)
    (h : ownProperties (within model creation n) path payload input.fields = .error cause) :
    within model creation (n + 1) id path payload = .error cause := by
  rw [within]
  simp only [hinput]
  exact Results.bind_eq_error_iff.2 (.inl h)

def RejectedUnseen (model : Model) (creation : Creation) (id : TypeId) (payload : Json.Object)
    (e : InputError) : Prop :=
  (∃ n path, within model creation n id path payload = .error (.input e)) ∧
    ∃ fields, Affected.touched model id payload = .ok fields

theorem rejectedUnseen_only {id : TypeId} (hinput : model.createInput? id = some input)
    (hnames : (input.fields.map (·.name)).Nodup) (hfield : field ∈ input.fields) {value : Json}
    {n : Nat} {path : List PathStep}
    (hproperty : property (within model creation n) path field value = .error (.input e))
    (htouched : ∃ inner, Affected.touchedValue model field value = .ok inner) :
    RejectedUnseen model creation id (input.only field value) e := by
  constructor
  · refine ⟨n + 1, path, within_eq_error hinput ?_⟩
    apply ownProperties_eq_error hfield
    · refine ⟨value, ?_, hproperty⟩
      rw [CreateInput.get?_only hfield, if_pos rfl, Option.some_or]
    · intro other hother hne
      obtain ⟨prepared, hprepared⟩ :=
        exists_property_null (within model creation n) path other
      refine ⟨.null, prepared, ?_, hprepared⟩
      rcases CreateInput.get?_only_cases hnames hfield hother value with ⟨hsame, -⟩ | hget
      · exact absurd hsame hne
      · rw [hget, Option.some_or]
  · exact Affected.exists_touched_only hinput hnames hfield htouched

/-- The objects of one field may hold a payload that is rejected unseen. -/
theorem exists_rejectedUnseen_outer {id inner : TypeId} {object : Json.Object}
    (hinput : model.createInput? id = some input)
    (hnames : (input.fields.map (·.name)).Nodup) {nested : NestedInput}
    (hnested : nested ∈ input.nested) (htarget : nested.target = inner)
    (hobject : RejectedUnseen model creation inner object e) :
    ∃ payload, RejectedUnseen model creation id payload e := by
  subst htarget
  obtain ⟨⟨n, path, hrejected⟩, fields, hfields⟩ := hobject
  obtain ⟨field, hfield, hkind⟩ := CreateInput.mem_nested.1 hnested
  rcases hkind with hkind | hkind
  · have hproperty : property (within model creation n) [] field (.object object) =
        .error (.input e) := by
      rw [property_object hkind, within_error_at hrejected]
      rfl
    refine ⟨_, rejectedUnseen_only hinput hnames hfield hproperty ⟨fields, ?_⟩⟩
    rw [Affected.touchedValue, hkind]
    exact hfields
  · have hproperty : property (within model creation n) [] field (.array [.object object]) =
        .error (.input e) := by
      rw [property_objectList hkind, items, within_error_at hrejected]
      rfl
    refine ⟨_, rejectedUnseen_only hinput hnames hfield hproperty ?_⟩
    rw [Affected.touchedValue, hkind]
    simp only [Affected.touchedItems]
    exact Results.exists_bind_ok ⟨fields, hfields⟩ fun inner => ⟨_, rfl⟩

end Unseen

end Prepare

def CreateInput.without (input : CreateInput) (field : InputField) : Json.Object :=
  (input.fields.filter (·.name ≠ field.name)).map fun other => (other.name, .null)

theorem CreateInput.get?_without {input : CreateInput} {field other : InputField}
    (h : other ∈ input.fields) : (input.without field).get? other.name =
      if other.name = field.name then none else some .null := by
  have hentry : ∀ {key : String} {value : Json}, (key, value) ∈ input.without field →
      key ≠ field.name ∧ value = .null := by
    intro key value hmem
    obtain ⟨kept, hkept, heq⟩ := List.mem_map.1 hmem
    cases heq
    exact ⟨by simpa using (List.mem_filter.1 hkept).2, rfl⟩
  cases hget : (input.without field).get? other.name with
  | some value =>
    obtain ⟨hname, rfl⟩ := hentry (Entries.get?_mem hget)
    rw [if_neg hname]
  | none =>
    by_cases hname : other.name = field.name
    · rw [if_pos hname]
    · have hmem : (other.name, Json.null) ∈ input.without field :=
        List.mem_map.2 ⟨other, List.mem_filter.2 ⟨h, by simpa using hname⟩, rfl⟩
      exact absurd (List.mem_map.2 ⟨_, hmem, rfl⟩) (Entries.get?_eq_none_iff.1 hget)

section Blame

open Prepare

variable {decl : ModelDecl} {model : Model} {creation : Creation} {e : InputError}

theorem Prepare.rejectedUnseen_without {id : TypeId} {input : CreateInput} {field : InputField}
    (hinput : model.createInput? id = some input) (hnames : (input.fields.map (·.name)).Nodup)
    (hfield : field ∈ input.fields) {value : Json} (hdefault : field.default = some value) {n : Nat}
    {path : List PathStep}
    (hproperty : property (within model creation n) path field value = .error (.input e)) :
    RejectedUnseen model creation id (input.without field) e := by
  constructor
  · refine ⟨n + 1, path, within_eq_error hinput ?_⟩
    apply ownProperties_eq_error hfield
    · refine ⟨value, ?_, hproperty⟩
      rw [CreateInput.get?_without hfield, if_pos rfl, Option.none_or, hdefault]
    · intro other hother hne
      obtain ⟨prepared, hprepared⟩ := exists_property_null (within model creation n) path other
      have hname : other.name ≠ field.name := by
        intro heq
        exact hne (List.inj_on_of_nodup_map hnames hother hfield heq)
      refine ⟨.null, prepared, ?_, hprepared⟩
      rw [CreateInput.get?_without hother, if_neg hname, Option.some_or]
  · obtain ⟨all, hall⟩ : ∃ all, Affected.touchedFields model (input.without field) input.fields =
        .ok all := by
      apply Affected.exists_touchedFields
      intro other hother found hfound
      rw [CreateInput.get?_without hother] at hfound
      split_ifs at hfound
      cases hfound
      exact ⟨[], by rw [Affected.touchedValue]⟩
    exact ⟨all, Affected.touched_eq_ok_iff.2 ⟨input, hinput, hall⟩⟩

/-- A client can come to any faulty default by leaving its field out. -/
theorem Prepare.FaultyDefault.exists_rejectedUnseen (hresolve : Model.resolve decl = .ok model)
    {id : TypeId} (h : FaultyDefault model creation id e) :
    ∃ payload, RejectedUnseen model creation id payload e := by
  obtain ⟨type, input, hreach, hinput, field, hfield, value, hdefault, -, n, path, hproperty⟩ := h
  induction hreach using Relation.ReflTransGen.head_induction_on with
  | refl =>
    have hnames := Model.nodup_names_of_createInput? hresolve hinput
    exact ⟨_, rejectedUnseen_without hinput hnames hfield hdefault hproperty⟩
  | head hstep _ ih =>
    obtain ⟨object, hobject⟩ := ih
    obtain ⟨outer, houter, nested, hnested, htarget⟩ := hstep
    have hnames := Model.nodup_names_of_createInput? hresolve houter
    exact exists_rejectedUnseen_outer houter hnames hnested htarget hobject

/-- A payload that is rejected is so for a value of its own or for a faulty default, and the latter
happens for a type exactly if its input, or one nested in it, declares such a default. -/
theorem Model.blamesPayloads_iff (hresolve : Model.resolve decl = .ok model) (id : TypeId) :
    (model.BlamesPayloads id ↔ ∀ (creation : Creation) (e : InputError),
      creation.now.rfc3339?.isSome = true → e.isPayloadError = true →
      ¬ FaultyDefault model creation id e) ∧
    ∀ (creation : Creation) (payload : Json.Object) (e : InputError),
      creation.now.rfc3339?.isSome = true →
      model.prepare creation id payload = .error (.input e) →
      model.affectedFields id payload = .error e ∨ FaultyDefault model creation id e := by
  have hcause : ∀ (creation : Creation) (payload : Json.Object) (e : InputError),
      creation.now.rfc3339?.isSome = true →
      model.prepare creation id payload = .error (.input e) →
      model.affectedFields id payload = .error e ∨ FaultyDefault model creation id e := by
    intro creation payload e hnow hfails
    rcases blames_within hnow _ id [] payload e hfails with htouched | hfaulty
    · exact .inl (Results.map_eq_error_iff.2 htouched)
    · exact .inr hfaulty
  refine ⟨?_, hcause⟩
  constructor
  · intro hblames creation e hnow hpayload hfaulty
    obtain ⟨payload, ⟨n, path, hrejected⟩, fields, hfields⟩ :=
      hfaulty.exists_rejectedUnseen hresolve
    have hwithin := within_error_at hrejected []
    have hends : within model creation n id [] payload ≠ .error .endless := by
      simp [hwithin]
    have hprepare : model.prepare creation id payload = .error (.input e) :=
      (prepare_eq_of_within hends).trans hwithin
    obtain ⟨cause, haffected⟩ := hblames creation payload e hnow hprepare hpayload
    rw [affectedFields, hfields] at haffected
    cases haffected
  · intro hnone creation payload e hnow hfails hpayload
    rcases hcause creation payload e hnow hfails with haffected | hfaulty
    · exact ⟨e, haffected⟩
    · exact absurd hfaulty (hnone creation e hnow hpayload)

/-- An address by default, whose country has a default of its own. -/
theorem blamesPayloads_of_deliveries :
    let decl : ModelDecl :=
      { types :=
        [{ name := "Delivery", kind := .rootEntity,
           fields :=
            [{ name := "address", typeName := "Address",
               default := some (.object [("city", .string "Ulm")]) }] },
         { name := "Address", kind := .valueObject,
           fields := [{ name := "city", typeName := "String" },
             { name := "country", typeName := "String", default := some (.string "DE") }] }] }
    ∃ model, Model.resolve decl = .ok model ∧ model.BlamesPayloads 0 := by
  intro decl
  let address : InputField :=
    ⟨"address", ⟨0, 3⟩, some (.object [("city", .string "Ulm")]),
      .optional (Names.createInput "Address"), .object ⟨Names.createInput "Address", 1⟩⟩
  let city : InputField := ⟨"city", ⟨1, 0⟩, none, .optional "String", .basic⟩
  let country : InputField := ⟨"country", ⟨1, 1⟩, some (.string "DE"), .optional "String", .basic⟩
  obtain ⟨model, hresolve, hfields, inner, hinner, hinnerFields⟩ :
      ∃ model, Model.resolve decl = .ok model ∧ inputFields model = [address, city, country] ∧
        ∃ inner, model.createInput? 1 = some inner ∧ inner.fields = [city, country] :=
    ⟨_, rfl, rfl, _, rfl, rfl⟩
  have hwalks : ∀ field ∈ inputFields model, ∀ value, field.default = some value →
      ∃ fs, Affected.touchedValue model field value = .ok fs := by
    intro field hfield value hdefault
    rw [hfields] at hfield
    simp only [List.mem_cons, List.not_mem_nil, or_false] at hfield
    rcases hfield with rfl | rfl | rfl
    · cases hdefault
      refine ⟨[⟨1, 0⟩], ?_⟩
      simp only [Affected.touchedValue, Affected.touched, hinner, hinnerFields,
        Affected.touchedFields_cons, Affected.touchedFields_nil, Entries.get?_cons,
        Entries.get?_nil, String.reduceEq, reduceIte, address, city, country]
      rfl
    · cases hdefault
    · cases hdefault
      exact ⟨[], Affected.touchedValue_of_leaf (by simp [country]) _⟩
  refine ⟨model, hresolve, (Model.blamesPayloads_iff hresolve 0).1.2 ?_⟩
  rintro creation e - - ⟨type, input, -, hinput, field, hfield, value, hdefault, htouched, -⟩
  obtain ⟨fs, hwalked⟩ := hwalks field (mem_inputFields hinput hfield) value hdefault
  cases htouched.symm.trans hwalked

/-- A text stands for an address by default, and an empty payload is said to be malformed. -/
theorem text_for_address_blames_payload :
    let decl : ModelDecl :=
      { types :=
        [{ name := "Delivery", kind := .rootEntity,
           fields :=
            [{ name := "address", typeName := "Address", default := some (.string "Ulm") }] },
         { name := "Address", kind := .valueObject,
           fields := [{ name := "city", typeName := "String" }] }] }
    let e : InputError := .payloadShape "address" .anObject .string
    ∃ model, Model.resolve decl = .ok model ∧ e.isPayloadError = true ∧
      model.prepare ⟨⟨0, 0⟩, fun _ => "a"⟩ 0 [] = .error (.input e) ∧
      model.affectedFields 0 [] = .ok [] ∧ ¬ model.BlamesPayloads 0 := by
  intro decl e
  obtain ⟨model, hresolve, hprepare, input, hinput, address, hfields⟩ :
      ∃ model, Model.resolve decl = .ok model ∧
        model.prepare ⟨⟨0, 0⟩, fun _ => "a"⟩ 0 [] = .error (.input e) ∧
        ∃ input, model.createInput? 0 = some input ∧ ∃ address, input.fields = [address] :=
    ⟨_, rfl, rfl, _, rfl, _, rfl⟩
  have haffected : model.affectedFields 0 [] = .ok [] := by
    simp only [Model.affectedFields, Affected.touched, hinput, hfields, Affected.touchedFields_cons,
      Affected.touchedFields_nil, Entries.get?_nil]
    rfl
  refine ⟨model, hresolve, rfl, hprepare, haffected, ?_⟩
  intro hblames
  obtain ⟨cause, hrejected⟩ := hblames _ [] e (by decide) hprepare rfl
  rw [haffected] at hrejected
  cases hrejected

end Blame

end EntitySchema
