import EntitySchema.Proofs.CreateInput.RelationKeys

/-! # Who is to blame for a payload that is rejected

Preparing a payload and collecting the fields it affects go through the same values, but only the
former goes into defaults. So what collecting rejects, preparing does not accept; what only preparing
rejects is in a default. -/
namespace EntitySchema

/-- No default stands in place of an object. -/
def Model.EmbedsNoDefaults (model : Model) : Prop :=
  ∀ type ∈ model.types, ∀ field ∈ type.fields, ∀ target, field.Embeds target → field.default = none

theorem Affected.touchedValue_of_leaf {model : Model} {field : InputField}
    (h : ∀ nested, field.kind ≠ .object nested ∧ field.kind ≠ .objectList nested) (value : Json) :
    touchedValue model field value = .ok [] := by
  cases hkind : field.kind with
  | object nested => exact absurd hkind (h nested).1
  | objectList nested => exact absurd hkind (h nested).2
  | _ => cases value <;> simp [touchedValue, hkind]

namespace Prepare

variable {model : Model} {creation : Creation} {prepare : Nested}

/-! ### What is prepared can be walked through -/

def Walked (model : Model) (prepare : Nested) : Prop :=
  ∀ id path payload built, prepare id path payload = .ok built →
    ∃ fields, Affected.touched model id payload = .ok fields

theorem exists_touchedItems (h : Walked model prepare) {field : InputField} {target : TypeId}
    {path : List PathStep} {start : Nat} {values prepared : List Json}
    (hitems : items prepare field target path start values = .ok prepared) :
    ∃ fields, Affected.touchedItems model field target values = .ok fields := by
  induction values generalizing start prepared with
  | nil => exact ⟨[], by rw [Affected.touchedItems]⟩
  | cons first rest ih =>
    cases first with
    | object members =>
      rw [items] at hitems
      obtain ⟨object, hobject, hnext⟩ := Results.bind_eq_ok_iff.1 hitems
      obtain ⟨others, hothers, -⟩ := Results.bind_eq_ok_iff.1 hnext
      rw [Affected.touchedItems]
      apply Results.exists_bind_ok (h _ _ _ _ hobject)
      intro inner
      exact Results.exists_bind_ok (ih hothers) fun others => ⟨_, rfl⟩
    | _ => simp [items, mismatch] at hitems

theorem exists_touchedValue (h : Walked model prepare) {field : InputField} {path : List PathStep}
    {value : Json} {prepared : Option Json}
    (hproperty : property prepare path field value = .ok prepared) :
    ∃ fields, Affected.touchedValue model field value = .ok fields := by
  cases hkind : field.kind with
  | object nested =>
    cases value with
    | null => exact ⟨[], by rw [Affected.touchedValue]⟩
    | object members =>
      rw [property_object hkind] at hproperty
      obtain ⟨built, hbuilt, -⟩ := Results.map_eq_ok_iff.1 hproperty
      rw [Affected.touchedValue, hkind]
      exact h _ _ _ _ hbuilt
    | _ => simp [property, hkind, mismatch] at hproperty
  | objectList nested =>
    cases value with
    | null => exact ⟨[], by rw [Affected.touchedValue]⟩
    | array values =>
      rw [property_objectList hkind] at hproperty
      obtain ⟨made, hmade, -⟩ := Results.map_eq_ok_iff.1 hproperty
      rw [Affected.touchedValue, hkind]
      exact exists_touchedItems h hmade
    | _ => simp [property, hkind, mismatch] at hproperty
  | _ => exact ⟨[], Affected.touchedValue_of_leaf (by simp [hkind]) value⟩

theorem exists_touchedFields (h : Walked model prepare) {path : List PathStep}
    {payload own : Json.Object} {fields : List InputField}
    (hown : ownProperties prepare path payload fields = .ok own) :
    ∃ all, Affected.touchedFields model payload fields = .ok all := by
  induction fields generalizing own with
  | nil => exact ⟨[], by rw [Affected.touchedFields]⟩
  | cons field rest ih =>
    rw [Affected.touchedFields_cons]
    rcases ownProperties_cons hown with
      ⟨hnone, hrest⟩ | ⟨value, prepared, others, hvalue, hprepared, hothers, -⟩
    · rw [(Option.or_eq_none_iff.1 hnone).1]
      exact ih hrest
    · cases hget : payload.get? field.name with
      | none => exact ih hothers
      | some given =>
        rw [hget, Option.some_or, Option.some.injEq] at hvalue
        subst hvalue
        apply Results.exists_bind_ok (exists_touchedValue h hprepared)
        intro inner
        exact Results.exists_bind_ok (ih hothers) fun others => ⟨_, rfl⟩

theorem walked_within (n : Nat) : Walked model (within model creation n) := by
  induction n with
  | zero =>
    intro id path payload built h
    cases h
  | succ n ih =>
    intro id path payload built h
    obtain ⟨input, own, server, hinput, hown, -, -⟩ := within_eq_ok_iff.1 h
    obtain ⟨all, hall⟩ := exists_touchedFields ih hown
    exact ⟨all, Affected.touched_eq_ok_iff.2 ⟨input, hinput, hall⟩⟩

/-! ### What is rejected is a value of the payload or a default -/

/-- A default that an input of the type, or one nested in it, declares is rejected when it is
prepared, and would be rejected as a value of a payload. -/
def FaultyDefault (model : Model) (creation : Creation) (id : TypeId) (e : InputError) : Prop :=
  ∃ type input, Relation.ReflTransGen model.Embeds id type ∧ model.createInput? type = some input ∧
    ∃ field ∈ input.fields, ∃ value, field.default = some value ∧
      Affected.touchedValue model field value = .error e ∧
      ∃ n path, property (within model creation n) path field value = .error (.input e)

theorem FaultyDefault.of_embeds {id inner : TypeId} {e : InputError}
    (h : FaultyDefault model creation inner e) (hembeds : model.Embeds id inner) :
    FaultyDefault model creation id e := by
  obtain ⟨type, input, hreach, hrest⟩ := h
  exact ⟨type, input, hreach.head hembeds, hrest⟩

def Blames (model : Model) (creation : Creation) (prepare : Nested) : Prop :=
  ∀ id path payload e, prepare id path payload = .error (.input e) →
    Affected.touched model id payload = .error e ∨ FaultyDefault model creation id e

theorem items_blames (hwalked : Walked model prepare) (h : Blames model creation prepare)
    {field : InputField} {target : TypeId} {path : List PathStep} {start : Nat}
    {values : List Json} {e : InputError}
    (hitems : items prepare field target path start values = .error (.input e)) :
    Affected.touchedItems model field target values = .error e ∨
      FaultyDefault model creation target e := by
  induction values generalizing start with
  | nil => cases hitems
  | cons first rest ih =>
    cases first with
    | object members =>
      rw [items] at hitems
      rw [Affected.touchedItems]
      rcases Results.bind_eq_error_iff.1 hitems with hfirst | ⟨object, hobject, hnext⟩
      · rcases h _ _ _ _ hfirst with htouched | hfaulty
        · left
          exact Results.bind_eq_error_iff.2 (.inl htouched)
        · right
          exact hfaulty
      · obtain ⟨inner, hinner⟩ := hwalked _ _ _ _ hobject
        rcases Results.bind_eq_error_iff.1 hnext with hothers | ⟨_, _, hdone⟩
        · rcases ih hothers with htouched | hfaulty
          · left
            refine Results.bind_eq_error_iff.2 (.inr ⟨inner, hinner, ?_⟩)
            exact Results.bind_eq_error_iff.2 (.inl htouched)
          · right
            exact hfaulty
        · cases hdone
    | _ =>
      left
      simp only [items, mismatch, Except.error.injEq, PrepareError.input.injEq] at hitems
      simp [Affected.touchedItems, hitems]

theorem property_blames (hwalked : Walked model prepare) (h : Blames model creation prepare)
    {field : InputField} {path : List PathStep} {value : Json} {e : InputError}
    (hproperty : property prepare path field value = .error (.input e)) :
    Affected.touchedValue model field value = .error e ∨
      ∃ nested, (field.kind = .object nested ∨ field.kind = .objectList nested) ∧
        FaultyDefault model creation nested.target e := by
  cases hkind : field.kind with
  | basic | relation => simp [property, hkind] at hproperty
  | basicList => cases value <;> simp [property, hkind] at hproperty
  | object nested =>
    cases value with
    | null => simp [property, hkind] at hproperty
    | object members =>
      rw [property_object hkind, Results.map_eq_error_iff] at hproperty
      rw [Affected.touchedValue, hkind]
      rcases h _ _ _ _ hproperty with htouched | hfaulty
      · exact .inl htouched
      · exact .inr ⟨nested, .inl rfl, hfaulty⟩
    | _ =>
      left
      simp only [property, hkind, mismatch, Except.error.injEq, PrepareError.input.injEq]
        at hproperty
      simp [Affected.touchedValue, hkind, ← hproperty, Json.kind]
  | objectList nested =>
    cases value with
    | null => simp [property, hkind] at hproperty
    | array values =>
      rw [property_objectList hkind, Results.map_eq_error_iff] at hproperty
      rw [Affected.touchedValue, hkind]
      rcases items_blames hwalked h hproperty with htouched | hfaulty
      · exact .inl htouched
      · exact .inr ⟨nested, .inr rfl, hfaulty⟩
    | _ =>
      left
      simp only [property, hkind, mismatch, Except.error.injEq, PrepareError.input.injEq]
        at hproperty
      simp [Affected.touchedValue, hkind, ← hproperty, Json.kind]

/-- The first value that is rejected is supplied, or it is a default of the input or of one that
the field nests. -/
theorem ownProperties_blames {n : Nat} (h : Blames model creation (within model creation n))
    {id : TypeId} {input : CreateInput} (hinput : model.createInput? id = some input)
    {path : List PathStep} {payload : Json.Object} {fields : List InputField} {e : InputError}
    (hfields : fields ⊆ input.fields)
    (hown : ownProperties (within model creation n) path payload fields = .error (.input e)) :
    Affected.touchedFields model payload fields = .error e ∨
      FaultyDefault model creation id e := by
  induction fields with
  | nil => cases hown
  | cons field rest ih =>
    obtain ⟨hfield, hrest⟩ := List.cons_subset.1 hfields
    have hnested : ∀ nested, field.kind = .object nested ∨ field.kind = .objectList nested →
        FaultyDefault model creation nested.target e → FaultyDefault model creation id e := by
      intro nested hkind hfaulty
      exact hfaulty.of_embeds
        ⟨input, hinput, nested, CreateInput.mem_nested.2 ⟨field, hfield, hkind⟩, rfl⟩
    rw [ownProperties] at hown
    rw [Affected.touchedFields_cons]
    cases hget : payload.get? field.name with
    | some value =>
      simp only [hget, Option.some_or] at hown
      rcases Results.bind_eq_error_iff.1 hown with hproperty | ⟨prepared, hprepared, hnext⟩
      · rcases property_blames (walked_within n) h hproperty with htouched | ⟨nested, hkind, hfaulty⟩
        · left
          exact Results.bind_eq_error_iff.2 (.inl htouched)
        · right
          exact hnested nested hkind hfaulty
      · obtain ⟨inner, hinner⟩ := exists_touchedValue (walked_within n) hprepared
        rcases Results.bind_eq_error_iff.1 hnext with hothers | ⟨_, _, hdone⟩
        · rcases ih hrest hothers with htouched | hfaulty
          · left
            refine Results.bind_eq_error_iff.2 (.inr ⟨inner, hinner, ?_⟩)
            exact Results.bind_eq_error_iff.2 (.inl htouched)
          · right
            exact hfaulty
        · cases hdone
    | none =>
      rw [hget, Option.none_or] at hown
      cases hdefault : field.default with
      | none =>
        rw [hdefault] at hown
        exact ih hrest hown
      | some value =>
        simp only [hdefault] at hown
        rcases Results.bind_eq_error_iff.1 hown with hproperty | ⟨prepared, -, hnext⟩
        · right
          rcases property_blames (walked_within n) h hproperty with
            htouched | ⟨nested, hkind, hfaulty⟩
          · exact ⟨id, input, .refl, hinput, field, hfield, value, hdefault, htouched, n, path,
              hproperty⟩
          · exact hnested nested hkind hfaulty
        · rcases Results.bind_eq_error_iff.1 hnext with hothers | ⟨_, _, hdone⟩
          · exact ih hrest hothers
          · cases hdone

theorem blames_within (hnow : creation.now.rfc3339?.isSome = true) (n : Nat) :
    Blames model creation (within model creation n) := by
  induction n with
  | zero =>
    intro id path payload e h
    cases h
  | succ n ih =>
    intro id path payload e h
    rw [within] at h
    rw [Affected.touched]
    cases hinput : model.createInput? id with
    | none =>
      left
      simpa [hinput] using h
    | some input =>
      simp only [hinput] at h
      rcases Results.bind_eq_error_iff.1 h with hown | ⟨own, -, hnext⟩
      · exact ownProperties_blames ih hinput (List.Subset.refl _) hown
      · rcases Results.bind_eq_error_iff.1 hnext with hserver | ⟨_, _, hdone⟩
        · obtain ⟨server, hok⟩ := Creation.exists_properties hnow path input.server
          rw [hok] at hserver
          cases hserver
        · cases hdone

end Prepare

/-! ### Without defaults in place of objects -/

section Agreement

variable {model : Model} {creation : Creation} {id : TypeId} {payload : Json.Object}

theorem Model.EmbedsNoDefaults.default_eq_none (h : model.EmbedsNoDefaults) {field : InputField}
    (hfield : field ∈ Prepare.inputFields model) {nested : NestedInput}
    (hkind : field.kind = .object nested ∨ field.kind = .objectList nested) :
    field.default = none := by
  obtain ⟨type, htype, hmem⟩ := List.mem_flatMap.1 hfield
  obtain ⟨source, hsource, -, rfl⟩ := CreateInput.mem_fields_ofType.1 hmem
  exact h type htype source hsource nested.target (CreateInput.embeds_of_kind hkind)

theorem Model.EmbedsNoDefaults.not_faultyDefault (h : model.EmbedsNoDefaults) {e : InputError} :
    ¬ Prepare.FaultyDefault model creation id e := by
  rintro ⟨type, input, -, hinput, field, hfield, value, hdefault, htouched, -⟩
  have hnone : ∀ nested, field.kind ≠ .object nested ∧ field.kind ≠ .objectList nested := by
    intro nested
    have hmem := Prepare.mem_inputFields hinput hfield
    constructor
    · intro hkind
      rw [h.default_eq_none hmem (.inl hkind)] at hdefault
      cases hdefault
    · intro hkind
      rw [h.default_eq_none hmem (.inr hkind)] at hdefault
      cases hdefault
  rw [Affected.touchedValue_of_leaf hnone] at htouched
  cases htouched

theorem Model.EmbedsNoDefaults.prepare_ne_endless (h : model.EmbedsNoDefaults) :
    model.prepare creation id payload ≠ .error .endless := by
  intro hcut
  obtain ⟨start, ⟨field, hfield, value, hdefault, hleads⟩, -⟩ := exists_cycle_of_endless hcut
  have hnone : field.default = none := by
    cases hleads with
    | object hkind => exact h.default_eq_none hfield (.inl hkind)
    | item hkind => exact h.default_eq_none hfield (.inr hkind)
  rw [hnone] at hdefault
  cases hdefault

/-- A payload whose affected fields cannot be collected is not prepared. Where no default stands in
place of an object, exactly these payloads are not prepared, and both fail alike. -/
theorem Model.rejections_agree (model : Model) (id : TypeId) (payload : Json.Object) :
    (∀ e, model.affectedFields id payload = .error e →
      ∀ creation prepared, model.prepare creation id payload ≠ .ok prepared) ∧
    (model.EmbedsNoDefaults → ∀ creation : Creation, creation.now.rfc3339?.isSome = true → ∀ e,
      model.prepare creation id payload = .error e ↔
        ∃ cause, e = .input cause ∧ model.affectedFields id payload = .error cause) := by
  have hsound : ∀ e, model.affectedFields id payload = .error e →
      ∀ creation prepared, model.prepare creation id payload ≠ .ok prepared := by
    intro e hrejected creation prepared hprepared
    obtain ⟨fields, hfields⟩ := Prepare.walked_within _ id [] payload prepared hprepared
    rw [affectedFields, hfields] at hrejected
    cases hrejected
  refine ⟨hsound, ?_⟩
  intro hdefaults creation hnow e
  have hblames : ∀ cause, model.prepare creation id payload = .error (.input cause) →
      model.affectedFields id payload = .error cause := by
    intro cause hfails
    rcases Prepare.blames_within hnow _ id [] payload cause hfails with htouched | hfaulty
    · exact Results.map_eq_error_iff.2 htouched
    · exact absurd hfaulty hdefaults.not_faultyDefault
  constructor
  · intro hfails
    cases e with
    | endless => exact absurd hfails hdefaults.prepare_ne_endless
    | input cause => exact ⟨cause, rfl, hblames cause hfails⟩
  · rintro ⟨cause, rfl, hrejected⟩
    cases hresult : model.prepare creation id payload with
    | ok prepared => exact absurd hresult (hsound cause hrejected creation prepared)
    | error e =>
      cases e with
      | endless => exact absurd hresult hdefaults.prepare_ne_endless
      | input other =>
        have hsame := hblames other hresult
        rw [hrejected, Except.error.injEq] at hsame
        rw [hsame]

/-- An order with a text among its items. -/
theorem rejections_agree_on_text_item :
    let decl : ModelDecl :=
      { types :=
        [{ name := "Order", kind := .rootEntity,
           fields := [{ name := "items", typeName := "Item", list := true }] },
         { name := "Item", kind := .childEntity,
           fields := [{ name := "name", typeName := "String", default := some (.string "") }] }] }
    let order : Json.Object := [("items", .array [.object [], .string "tea"])]
    let cause : InputError := .payloadShape "items" .listOfObjects .string
    ∃ model, Model.resolve decl = .ok model ∧ model.EmbedsNoDefaults ∧
      model.affectedFields 0 order = .error cause ∧
      (∀ creation prepared, model.prepare creation 0 order ≠ .ok prepared) ∧
      model.prepare ⟨⟨0, 0⟩, fun _ => "a"⟩ 0 order = .error (.input cause) := by
  intro decl order cause
  let items : InputField :=
    ⟨"items", ⟨0, 3⟩, none, .listOf (Names.createInput "Item"),
      .objectList ⟨Names.createInput "Item", 1⟩⟩
  let name : InputField := ⟨"name", ⟨1, 3⟩, some (.string ""), .optional "String", .basic⟩
  obtain ⟨model, hresolve, hdefaults, input, hinput, hfields, inner, hinner, hinnerFields⟩ :
      ∃ model, Model.resolve decl = .ok model ∧
        (∀ type ∈ model.types, ∀ field ∈ type.fields, field.type.isLeaf = true ∨
          field.default = none) ∧
        ∃ input, model.createInput? 0 = some input ∧ input.fields = [items] ∧
        ∃ inner, model.createInput? 1 = some inner ∧ inner.fields = [name] :=
    ⟨_, rfl, by decide, _, rfl, rfl, _, rfl, rfl⟩
  have haffected : model.affectedFields 0 order = .error cause := by
    simp only [Model.affectedFields, Affected.touched, hinput, hfields, hinner, hinnerFields,
      Affected.touchedFields_cons, Affected.touchedFields_nil, Affected.touchedValue,
      Affected.touchedItems, Entries.get?_cons, Entries.get?_nil, reduceIte, order, items, name]
    rfl
  have hembeds : model.EmbedsNoDefaults := by
    intro type htype field hfield target hembeds
    apply (hdefaults type htype field hfield).resolve_left
    simp [hembeds.1, FieldType.isLeaf]
  obtain ⟨hsound, hagree⟩ := Model.rejections_agree model 0 order
  refine ⟨model, hresolve, hembeds, haffected, hsound cause haffected, ?_⟩
  exact (hagree hembeds _ (by decide) _).2 ⟨cause, rfl, haffected⟩

end Agreement

end EntitySchema
