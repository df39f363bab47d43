import EntitySchema.Proofs.Search.Outcome
import EntitySchema.Proofs.Search.Remaining
import Mathlib.Logic.Function.Iterate

/-! # Repeated migration

Several required views may share a name. Those that do not exist are all created, so that the last
one stays, but an existing view is compared with the first. The two rules meet at most once: the
first plan brings every required name into the store, and the second one can only correct. -/
namespace EntitySchema.Search

namespace Store

/-- The views with the reserved prefix are those of the required names. -/
structure Complete (store : Store) (model : Model) : Prop where
  present : ∀ view ∈ requiredViews model, (store.view? view.name).isSome
  required : ∀ name, name.startsWith reservedPrefix → (store.view? name).isSome →
    ∃ view ∈ requiredViews model, view.name = name

/-- Each view is, moreover, as the first definition of its name demands. -/
structure Settled (store : Store) (model : Model) (settings : Settings) : Prop
    extends Complete store model where
  agrees : ∀ name wanted existing, (requiredViews model).find? (·.name == name) = some wanted →
    store.view? name = some existing → (wanted.properties model settings).agrees existing

def migrate (model : Model) (settings : Settings) (store : Store) : Store :=
  match plan model store.probe settings false with
  | .ok planned => store.applyAll planned
  | .error _ => store

variable {store : Store} {model : Model} {settings : Settings}

theorem find?_eq_none_of_not_required {name : String}
    (h : ¬ ∃ view ∈ requiredViews model, view.name = name) :
    (requiredViews model).find? (·.name == name) = none := by
  rw [List.find?_eq_none]
  intro view hview heq
  exact h ⟨view, hview, by simpa using heq⟩

/-- Where all required names are there and no other reserved ones, planning only corrects. -/
theorem mem_corrected_of_complete (hcomplete : store.Complete model) {migration : Migration}
    (hmem : migration ∈ store.steps model settings) :
    migration ∈ store.corrected model settings := by
  rcases mem_steps.1 hmem with hcreated | hdropped | hcorrected
  · obtain ⟨view, hview, hmissing, -⟩ := mem_created.1 hcreated
    have hpresent := hcomplete.present view hview
    rw [hmissing] at hpresent
    cases hpresent
  · obtain ⟨name, hsome, hreserved, hfind, -⟩ := mem_drops.1 hdropped
    obtain ⟨view, hview, hname⟩ := hcomplete.required name hreserved hsome
    exact absurd (by simpa using hname) (List.find?_eq_none.1 hfind view hview)
  · exact hcorrected

/-- Nothing is planned exactly where there is nothing to do. -/
theorem steps_eq_nil_iff : store.steps model settings = [] ↔ store.Settled model settings := by
  rw [List.eq_nil_iff_forall_not_mem]
  constructor
  · intro hnone
    refine ⟨⟨fun view hview => ?_, fun name hreserved hsome => ?_⟩, ?_⟩
    · by_contra hmissing
      rw [Option.not_isSome_iff_eq_none] at hmissing
      exact hnone _ (mem_steps.2 (.inl (mem_created.2 ⟨view, hview, hmissing, rfl⟩)))
    · by_contra hforeign
      have hfind := find?_eq_none_of_not_required hforeign
      exact hnone _ (mem_steps.2 (.inr (.inl (mem_drops.2 ⟨name, hsome, hreserved, hfind, rfl⟩))))
    · intro name wanted existing hfind hget
      by_contra hdiffers
      exact hnone _ (mem_steps.2 (.inr (.inr (mem_corrected.2
        ⟨name, wanted, existing, hfind, hget, Bool.eq_false_iff.2 hdiffers, rfl⟩))))
  · intro hsettled migration hmem
    obtain ⟨name, wanted, existing, hfind, hget, hdiffers, -⟩ :=
      mem_corrected.1 (mem_corrected_of_complete hsettled.toComplete hmem)
    rw [hsettled.agrees name wanted existing hfind hget] at hdiffers
    cases hdiffers

/-- One plan suffices to bring in all that is required and to drop all that is not. -/
theorem complete_applyAll_steps (store : Store) (model : Model) (settings : Settings) :
    (store.applyAll (store.steps model settings)).Complete model := by
  constructor
  · intro view hview
    rcases store.view?_applyAll (store.steps model settings) view.name with
      ⟨migration, hmem, hname, hget⟩ | ⟨hother, hget⟩
    · cases houtcome : migration.outcome with
      | none => exact absurd hname.symm (dropped_of_mem_steps hmem houtcome view hview)
      | some properties => simp [hget, houtcome]
    · obtain ⟨-, -, -, existing, hexisting, -⟩ := agrees_of_no_step hview hother
      simp [hget, hexisting]
  · intro name hreserved hsome
    rcases store.view?_applyAll (store.steps model settings) name with
      ⟨migration, hmem, rfl, hget⟩ | ⟨hother, hget⟩
    · obtain ⟨properties, houtcome⟩ := Option.isSome_iff_exists.1 (hget ▸ hsome)
      obtain ⟨wanted, hwanted, hname, -⟩ := mem_requiredViews_of_mem_steps hmem houtcome
      exact ⟨wanted, hwanted, hname⟩
    · by_contra hforeign
      have hnone : store.view? name = none := by
        refine view?_of_no_step (fun view hview hname => ?_) hother hreserved
        exact hforeign ⟨view, hview, hname⟩
      simp [hget, hnone] at hsome

/-- A plan that only corrects leaves nothing to correct: it goes by the first definition of a name,
as the next one will. -/
theorem settled_applyAll_steps (hcomplete : store.Complete model) :
    (store.applyAll (store.steps model settings)).Settled model settings := by
  refine ⟨complete_applyAll_steps store model settings, ?_⟩
  intro name wanted existing hfind hget
  rcases store.view?_applyAll (store.steps model settings) name with
    ⟨migration, hmem, hname, hget'⟩ | ⟨hother, hget'⟩
  · -- Only creates could have left a later definition of the name.
    obtain ⟨name', wanted', _, hfind', -, -, rfl⟩ :=
      mem_corrected.1 (mem_corrected_of_complete hcomplete hmem)
    have hsame : name' = name := by
      rw [← hname, view_correction]
      exact (name_of_find? hfind').symm
    subst hsame
    rw [hfind, Option.some.injEq] at hfind'
    subst hfind'
    rw [hget, outcome_correction, Option.some.injEq] at hget'
    rw [hget']
    exact wanted.agrees_self model settings
  · rw [hget] at hget'
    by_contra hdiffers
    have hmem : _ ∈ store.steps model settings := mem_steps.2 (.inr (.inr (mem_corrected.2
      ⟨name, wanted, existing, hfind, hget'.symm, Bool.eq_false_iff.2 hdiffers, rfl⟩)))
    refine hother _ hmem ?_
    rw [view_correction]
    exact name_of_find? hfind

theorem migrate_eq (store : Store) (model : Model) (hvalid : settings.validate = .ok ()) :
    store.migrate model settings = store.applyAll (store.steps model settings) := by
  rw [migrate, store.plan_probe model hvalid]

theorem migrate_of_settled (hvalid : settings.validate = .ok ())
    (hsettled : store.Settled model settings) : store.migrate model settings = store := by
  rw [migrate_eq store model hvalid, steps_eq_nil_iff.2 hsettled]
  rfl

end Store

/-- Two migrations settle any store, whatever names the required views share: each view is as the
first definition of its name demands, nothing is planned any more, and the store stays as it is. -/
theorem migration_settles (model : Model) (store : Store) (settings : Settings)
    (hvalid : settings.validate = .ok ()) :
    ∃ first second, plan model store.probe settings false = .ok first ∧
      plan model (store.applyAll first).probe settings false = .ok second ∧
      (∀ migration ∈ second, migration.isCorrection) ∧
      ((store.applyAll first).applyAll second).Settled model settings ∧
      plan model ((store.applyAll first).applyAll second).probe settings false = .ok [] ∧
      ∀ runs, 2 ≤ runs → (Store.migrate model settings)^[runs] store =
        (store.applyAll first).applyAll second := by
  have hcomplete := store.complete_applyAll_steps model settings
  set middle := store.applyAll (store.steps model settings) with hmiddle
  have hsettled : (middle.applyAll (middle.steps model settings)).Settled model settings :=
    Store.settled_applyAll_steps hcomplete
  refine ⟨_, _, store.plan_probe model hvalid, middle.plan_probe model hvalid, ?_, hsettled, ?_, ?_⟩
  · intro migration hmem
    have hcorrected := Store.mem_corrected_of_complete hcomplete hmem
    exact (Store.mem_corrected_iff_steps.1 hcorrected).2
  · rw [Store.plan_probe _ _ hvalid, Store.steps_eq_nil_iff.2 hsettled]
  · intro runs hruns
    obtain ⟨more, rfl⟩ := Nat.exists_eq_add_of_le' hruns
    have htwo : (Store.migrate model settings)^[2] store =
        middle.applyAll (middle.steps model settings) := by
      change Store.migrate model settings (Store.migrate model settings store) = _
      rw [Store.migrate_eq store model hvalid, ← hmiddle, Store.migrate_eq middle model hvalid]
    rw [Function.iterate_add_apply, htwo]
    exact Function.iterate_fixed (Store.migrate_of_settled hvalid hsettled) more

/-- Two entities share a view and sort it differently. After the first migration it is sorted for
the second of them, after the next one for the first. -/
theorem migration_settles_for_lenses :
    let root (field : String) : RootOptions :=
      { plural := "Lenses", collection := "lenses", searchIndexed := true,
        primarySort := [{ field }] }
    let model : Model :=
      { types :=
        [{ id := 0, name := "Lens", kind := .rootEntity, fields := [], root := root "createdAt" },
         { id := 1, name := "Lense", kind := .rootEntity, fields := [], root := root "updatedAt" }] }
    ({} : Settings).validate = .ok () ∧
      ∃ first second, plan model (Store.probe {}) {} false = .ok first ∧
        plan model (Store.applyAll {} first).probe {} false = .ok second ∧ second ≠ [] ∧
        plan model ((Store.applyAll {} first).applyAll second).probe {} false = .ok [] := by
  intro root model
  obtain ⟨first, second, hfirst, hsecond, -, -, hthird, -⟩ := migration_settles model {} {} rfl
  refine ⟨rfl, first, second, hfirst, hsecond, ?_, hthird⟩
  rintro rfl
  have hplanned : first = Store.steps {} model {} := by
    rw [Store.plan_probe {} model rfl] at hfirst
    exact (Except.ok.inj hfirst).symm
  have hsettled : (Store.applyAll {} first).Settled model {} := by
    rw [Store.plan_probe _ model rfl] at hsecond
    exact Store.steps_eq_nil_iff.1 (Except.ok.inj hsecond)
  have hsort : ((Store.applyAll {} first).view? "flex_view_lenses").map (·.primarySort) =
      some [{ field := "updatedAt", ascending := true }] := by
    rw [hplanned]
    decide +kernel
  obtain ⟨existing, hget, hexisting⟩ := Option.map_eq_some_iff.1 hsort
  obtain ⟨wanted, hfind, hwanted⟩ : ∃ wanted,
      (requiredViews model).find? (·.name == "flex_view_lenses") = some wanted ∧
        wanted.primarySort = [{ field := "createdAt", ascending := true }] :=
    ⟨_, rfl, rfl⟩
  have hagrees := hsettled.agrees _ wanted existing hfind hget
  simp [ViewProperties.agrees, RequiredView.properties, hexisting, hwanted] at hagrees

end EntitySchema.Search
