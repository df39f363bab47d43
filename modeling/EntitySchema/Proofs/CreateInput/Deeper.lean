import EntitySchema.Proofs.CreateInput.Prepared

/-! # Preparing with a greater bound

A preparation that a bound on its depth does not cut off ends as it does with every greater bound,
and as it does at every other position. -/
namespace EntitySchema.Prepare

variable {model : Model} {creation : Creation} {prepare prepare' : Nested} {α β : Type}

/-- The second result is a success or an error as the first one is, unless that one was cut off.
Values may differ in their identifiers. -/
inductive Refines : Except PrepareError α → Except PrepareError α → Prop
  | endless (result : Except PrepareError α) : Refines (.error .endless) result
  | input (e : InputError) : Refines (.error (.input e)) (.error (.input e))
  | ok (a b : α) : Refines (.ok a) (.ok b)

namespace Refines

variable {first second third : Except PrepareError α}

theorem bind {next next' : α → Except PrepareError β} (h : Refines first second)
    (hnext : ∀ a b, Refines (next a) (next' b)) : Refines (first >>= next) (second >>= next') := by
  cases h with
  | endless => exact .endless _
  | input e => exact .input e
  | ok a b => exact hnext a b

theorem map {f g : α → β} (h : Refines first second) :
    Refines (first.map f) (second.map g) := by
  cases h with
  | endless => exact .endless _
  | input e => exact .input e
  | ok a b => exact .ok (f a) (g b)

/-- Two results that one result refines agree on success, where neither was cut off. -/
theorem exists_ok {a : α} (h : Refines (.ok a) third) (h' : Refines second third)
    (hends : second ≠ .error .endless) : ∃ b, second = .ok b := by
  cases h' with
  | endless => exact absurd rfl hends
  | input e => cases h
  | ok b _ => exact ⟨b, rfl⟩

end Refines

def Deepens (prepare prepare' : Nested) : Prop :=
  ∀ id path path' payload, Refines (prepare id path payload) (prepare' id path' payload)

theorem items_refines (h : Deepens prepare prepare') (field : InputField) (target : TypeId)
    (path path' : List PathStep) (start start' : Nat) (values : List Json) :
    Refines (items prepare field target path start values)
      (items prepare' field target path' start' values) := by
  induction values generalizing start start' with
  | nil => exact .ok _ _
  | cons first rest ih =>
    cases first with
    | object members =>
      rw [items, items]
      refine (h target (.item start :: path) (.item start' :: path') members).bind ?_
      intro object object'
      refine (ih (start + 1) (start' + 1)).bind ?_
      intro others others'
      exact .ok _ _
    | _ => exact .input _

theorem property_refines (h : Deepens prepare prepare') (path path' : List PathStep)
    (field : InputField) (value : Json) :
    Refines (property prepare path field value) (property prepare' path' field value) := by
  cases hkind : field.kind with
  | basic =>
    simp only [property, hkind]
    exact .ok _ _
  | basicList =>
    simp only [property, hkind]
    cases value <;> exact .ok _ _
  | object nested =>
    cases value with
    | object members =>
      rw [property_object hkind, property_object hkind]
      exact (h nested.target _ _ members).map
    | null =>
      simp only [property, hkind]
      exact .ok _ _
    | _ =>
      simp only [property, hkind]
      exact .input _
  | objectList nested =>
    cases value with
    | array values =>
      rw [property_objectList hkind, property_objectList hkind]
      exact (items_refines h field nested.target _ _ 0 0 values).map
    | null =>
      simp only [property, hkind]
      exact .ok _ _
    | _ =>
      simp only [property, hkind]
      exact .input _
  | relation toMany =>
    simp only [property, hkind]
    exact .ok _ _

theorem ownProperties_refines (h : Deepens prepare prepare') (path path' : List PathStep)
    (payload : Json.Object) (fields : List InputField) :
    Refines (ownProperties prepare path payload fields)
      (ownProperties prepare' path' payload fields) := by
  induction fields with
  | nil => exact .ok _ _
  | cons field rest ih =>
    rw [ownProperties, ownProperties]
    cases (payload.get? field.name).or field.default with
    | none => exact ih
    | some value =>
      refine (property_refines h path path' field value).bind ?_
      intro prepared prepared'
      refine ih.bind ?_
      intro others others'
      exact .ok _ _

/-- Whether an instant can be written does not depend on the position. -/
theorem properties_refines (creation : Creation) (path path' : List PathStep)
    (server : ServerProperties) :
    Refines ((creation.properties path server).mapError .input)
      ((creation.properties path' server).mapError .input) := by
  cases server with
  | none => exact .ok _ _
  | rootEntity | childEntity =>
    cases hnow : creation.now.rfc3339? with
    | none =>
      simp only [Creation.properties, hnow]
      exact .input _
    | some now =>
      simp only [Creation.properties, hnow, reduceCtorEq, if_true, if_false]
      exact .ok _ _

theorem within_refines {n m : Nat} (h : n ≤ m) :
    Deepens (within model creation n) (within model creation m) := by
  induction n generalizing m with
  | zero =>
    intro id path path' payload
    exact .endless _
  | succ n ih =>
    cases m with
    | zero => omega
    | succ m =>
      intro id path path' payload
      rw [within, within]
      cases model.createInput? id with
      | none => exact .input _
      | some input =>
        have hdeeper : Deepens (within model creation n) (within model creation m) := ih (by omega)
        refine (ownProperties_refines hdeeper path path' payload input.fields).bind ?_
        intro own own'
        refine (properties_refines creation path path' input.server).bind ?_
        intro server server'
        exact .ok _ _

/-- Where one bound lets a step of preparation succeed, every bound does that does not cut it
off. -/
theorem exists_ok_of_ends (run : Nested → List PathStep → Except PrepareError α)
    (hrun : ∀ prepare prepare', Deepens prepare prepare' →
      ∀ path path', Refines (run prepare path) (run prepare' path'))
    {n m : Nat} {path path' : List PathStep} {a : α}
    (h : run (within model creation n) path = .ok a)
    (hends : run (within model creation m) path' ≠ .error .endless) :
    ∃ b, run (within model creation m) path' = .ok b := by
  have hfirst : Refines (run (within model creation n) path)
      (run (within model creation (max n m)) path) :=
    hrun _ _ (within_refines (Nat.le_max_left n m)) path path
  have hsecond : Refines (run (within model creation m) path')
      (run (within model creation (max n m)) path) :=
    hrun _ _ (within_refines (Nat.le_max_right n m)) path' path
  rw [h] at hfirst
  exact hfirst.exists_ok hsecond hends

/-- A preparation that is not cut off is the same with every greater bound. -/
theorem within_eq_of_le {n m : Nat} (h : n ≤ m) {id : TypeId} {path : List PathStep}
    {payload : Json.Object} (hends : within model creation n id path payload ≠ .error .endless) :
    within model creation m id path payload = within model creation n id path payload := by
  have hrefines : Refines (within model creation n id path payload)
      (within model creation m id path payload) := within_refines h id path path payload
  cases hshort : within model creation n id path payload with
  | error e =>
    rw [hshort] at hrefines hends
    generalize within model creation m id path payload = deep at hrefines ⊢
    cases hrefines with
    | endless => exact absurd rfl hends
    | input => rfl
  | ok built =>
    have hsame := @within_simulates model creation [] n m h id path payload built
    rw [List.append_nil, creation.below_nil] at hsame
    exact hsame hshort

end EntitySchema.Prepare
