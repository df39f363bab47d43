import Mathlib.Data.List.Forall2

/-! # Results that may be errors

What a chain of checks, or one check for each item of a list, must have done to end well. -/
namespace EntitySchema.Results

variable {ε δ α β : Type}

theorem bind_eq_ok_iff {result : Except ε α} {next : α → Except ε β} {b : β} :
    result >>= next = .ok b ↔ ∃ a, result = .ok a ∧ next a = .ok b := by
  cases result <;> simp [bind, Except.bind]

theorem exists_bind_ok {result : Except ε α} {next : α → Except ε β}
    (h : ∃ a, result = .ok a) (hnext : ∀ a, ∃ b, next a = .ok b) :
    ∃ b, result >>= next = .ok b := by
  obtain ⟨a, ha⟩ := h
  obtain ⟨b, hb⟩ := hnext a
  exact ⟨b, bind_eq_ok_iff.2 ⟨a, ha, hb⟩⟩

theorem bind_eq_error_iff {result : Except ε α} {next : α → Except ε β} {e : ε} :
    result >>= next = .error e ↔ result = .error e ∨ ∃ a, result = .ok a ∧ next a = .error e := by
  cases result <;> simp [bind, Except.bind]

theorem pure_ne_error {a : α} {e : ε} : (pure a : Except ε α) ≠ .error e := by
  intro h
  cases h

theorem exists_ok_iff {result : Except ε α} :
    (∃ a, result = .ok a) ↔ ∀ e, result ≠ .error e := by
  cases result <;> simp

theorem map_eq_ok_iff {f : α → β} {result : Except ε α} {b : β} :
    result.map f = .ok b ↔ ∃ a, result = .ok a ∧ f a = b := by
  cases result <;> simp [Except.map]

theorem map_eq_error_iff {f : α → β} {result : Except ε α} {e : ε} :
    result.map f = .error e ↔ result = .error e := by
  cases result <;> simp [Except.map]

theorem mapError_eq_ok_iff {f : ε → δ} {result : Except ε α} {a : α} :
    result.mapError f = .ok a ↔ result = .ok a := by
  cases result <;> simp [Except.mapError]

theorem mapError_eq_error_iff {f : ε → δ} {result : Except ε α} {d : δ} :
    result.mapError f = .error d ↔ ∃ e, result = .error e ∧ f e = d := by
  cases result <;> simp [Except.mapError]

theorem mapM_eq_ok_iff {check : α → Except ε β} {items : List α} {results : List β} :
    items.mapM check = .ok results ↔
      List.Forall₂ (fun item result => check item = .ok result) items results := by
  induction items generalizing results with
  | nil => cases results <;> simp [pure, Except.pure]
  | cons item rest ih =>
    rw [List.mapM_cons, bind_eq_ok_iff]
    constructor
    · rintro ⟨first, hfirst, hrest⟩
      obtain ⟨others, hothers, hcons⟩ := bind_eq_ok_iff.1 hrest
      cases hcons
      exact .cons hfirst (ih.1 hothers)
    · intro h
      cases h with
      | cons hfirst hothers =>
        exact ⟨_, hfirst, bind_eq_ok_iff.2 ⟨_, ih.2 hothers, rfl⟩⟩

theorem exists_mapM_ok {check : α → Except ε β} {items : List α}
    (h : ∀ item ∈ items, ∃ result, check item = .ok result) :
    ∃ results, items.mapM check = .ok results := by
  induction items with
  | nil => exact ⟨[], rfl⟩
  | cons item rest ih =>
    obtain ⟨first, hfirst⟩ := h item List.mem_cons_self
    obtain ⟨others, hothers⟩ := ih fun other hother => h other (List.mem_cons_of_mem _ hother)
    refine ⟨first :: others, ?_⟩
    rw [mapM_eq_ok_iff] at hothers ⊢
    exact .cons hfirst hothers

/-- The first item that fails decides, and the items behind it are not looked at. -/
theorem mapM_eq_error_iff {check : α → Except ε β} {items : List α} {e : ε} :
    items.mapM check = .error e ↔ ∃ before item after, items = before ++ item :: after ∧
      (∀ other ∈ before, ∃ result, check other = .ok result) ∧ check item = .error e := by
  constructor
  · intro h
    induction items with
    | nil => cases h
    | cons first rest ih =>
      rw [List.mapM_cons] at h
      rcases bind_eq_error_iff.1 h with hfirst | ⟨result, hresult, hnext⟩
      · exact ⟨[], first, rest, rfl, by simp, hfirst⟩
      · rcases bind_eq_error_iff.1 hnext with hothers | ⟨_, _, hdone⟩
        · obtain ⟨before, item, after, rfl, hbefore, hitem⟩ := ih hothers
          refine ⟨first :: before, item, after, rfl, ?_, hitem⟩
          intro other hother
          rcases List.mem_cons.1 hother with rfl | hrest
          · exact ⟨result, hresult⟩
          · exact hbefore other hrest
        · cases hdone
  · rintro ⟨before, item, after, rfl, hbefore, hitem⟩
    induction before with
    | nil =>
      rw [List.nil_append, List.mapM_cons]
      exact bind_eq_error_iff.2 (.inl hitem)
    | cons first rest ih =>
      obtain ⟨result, hresult⟩ := hbefore first List.mem_cons_self
      have hothers := ih fun other hother => hbefore other (List.mem_cons_of_mem _ hother)
      rw [List.cons_append, List.mapM_cons]
      refine bind_eq_error_iff.2 (.inr ⟨result, hresult, ?_⟩)
      exact bind_eq_error_iff.2 (.inl hothers)

/-- Changing what each item gives does not change whether an item fails. -/
theorem mapM_map_eq_error_iff {γ : Type} {check : α → Except ε β} {change : α → β → γ}
    {items : List α} {e : ε} :
    items.mapM (fun item => (check item).map (change item)) = .error e ↔
      items.mapM check = .error e := by
  have hok : ∀ item, (∃ result, (check item).map (change item) = .ok result) ↔
      ∃ result, check item = .ok result := by
    intro item
    cases check item <;> simp [Except.map]
  simp only [mapM_eq_error_iff, map_eq_error_iff, hok]

theorem foldlM_append_ok {step : β → α → Except ε β} {items others : List α} {start next last : β}
    (h : items.foldlM step start = .ok next) (h' : others.foldlM step next = .ok last) :
    (items ++ others).foldlM step start = .ok last := by
  rw [List.foldlM_append]
  exact bind_eq_ok_iff.2 ⟨next, h, h'⟩

theorem foldlM_eq_error_iff {step : β → α → Except ε β} {start : β} {items : List α} {e : ε} :
    items.foldlM step start = .error e ↔ ∃ before item after reached,
      items = before ++ item :: after ∧ before.foldlM step start = .ok reached ∧
        step reached item = .error e := by
  constructor
  · intro h
    induction items generalizing start with
    | nil => cases h
    | cons first rest ih =>
      rw [List.foldlM_cons] at h
      rcases bind_eq_error_iff.1 h with hfirst | ⟨next, hnext, hrest⟩
      · exact ⟨[], first, rest, start, rfl, rfl, hfirst⟩
      · obtain ⟨before, item, after, reached, rfl, hbefore, hitem⟩ := ih hrest
        refine ⟨first :: before, item, after, reached, rfl, ?_, hitem⟩
        rw [List.foldlM_cons]
        exact bind_eq_ok_iff.2 ⟨next, hnext, hbefore⟩
  · rintro ⟨before, item, after, reached, rfl, hbefore, hitem⟩
    rw [List.foldlM_append]
    refine bind_eq_error_iff.2 (.inr ⟨reached, hbefore, ?_⟩)
    rw [List.foldlM_cons]
    exact bind_eq_error_iff.2 (.inl hitem)

theorem mapM_congr {check check' : α → Except ε β} {items : List α}
    (h : ∀ item ∈ items, check item = check' item) : items.mapM check = items.mapM check' := by
  induction items with
  | nil => rfl
  | cons item rest ih =>
    rw [List.mapM_cons, List.mapM_cons, h item List.mem_cons_self,
      ih fun other hother => h other (List.mem_cons_of_mem _ hother)]

theorem exists_of_mem_right {R : α → β → Prop} {items : List α} {results : List β}
    (h : List.Forall₂ R items results) {result : β} (hmem : result ∈ results) :
    ∃ item ∈ items, R item result := by
  induction h with
  | nil => cases hmem
  | cons hfirst _ ih =>
    rcases List.mem_cons.1 hmem with rfl | hrest
    · exact ⟨_, List.mem_cons_self, hfirst⟩
    · obtain ⟨item, hitem, hrelated⟩ := ih hrest
      exact ⟨item, List.mem_cons_of_mem _ hitem, hrelated⟩

theorem exists_of_mem_left {R : α → β → Prop} {items : List α} {results : List β}
    (h : List.Forall₂ R items results) {item : α} (hmem : item ∈ items) :
    ∃ result ∈ results, R item result :=
  exists_of_mem_right h.flip hmem

theorem map_eq_map_of_forall₂ {γ : Type} {R : α → β → Prop} {f : α → γ} {g : β → γ}
    {items : List α} {results : List β} (h : List.Forall₂ R items results)
    (hfg : ∀ a b, R a b → g b = f a) : results.map g = items.map f := by
  induction h with
  | nil => rfl
  | cons hfirst _ ih => rw [List.map_cons, List.map_cons, hfg _ _ hfirst, ih]

/-- Dropping from both sides what belongs together. -/
theorem forall₂_filter {R S : α → β → Prop} {p : α → Bool} {q : β → Bool}
    {items : List α} {results : List β} (h : List.Forall₂ R items results)
    (hpq : ∀ a b, R a b → p a = q b) (hS : ∀ a b, R a b → p a = true → S a b) :
    List.Forall₂ S (items.filter p) (results.filter q) := by
  induction h with
  | nil => exact .nil
  | @cons a b as bs hab _ ih =>
    have hsame := hpq a b hab
    cases ha : p a with
    | true =>
      rw [List.filter_cons_of_pos ha, List.filter_cons_of_pos (hsame ▸ ha)]
      exact .cons (hS a b hab ha) ih
    | false =>
      rw [List.filter_cons_of_neg (by simp [ha]), List.filter_cons_of_neg (by simp [← hsame, ha])]
      exact ih

end EntitySchema.Results
