import EntitySchema.Proofs.Search.Planning
import Mathlib.Data.List.Sort

/-! # What is left of a plan

A plan can be applied in part and in any order: planning again finds what was planned and has not
been applied, in the order of the first plan. The steps of a plan do not interfere, because each
view name has at most one and a step that was taken leaves nothing to do for its name. -/
namespace EntitySchema

def Model.SearchCollectionsDistinct (model : Model) : Prop :=
  (model.rootEntities.filter (·.searchIndexed)).Pairwise fun a b =>
    a.root.map (·.collection) ≠ b.root.map (·.collection)

instance (model : Model) : Decidable model.SearchCollectionsDistinct :=
  inferInstanceAs (Decidable (List.Pairwise _ _))

namespace Search

theorem viewName_injective {a b : String} (h : viewName a = viewName b) : a = b :=
  (String.append_right_inj reservedPrefix).1 h

/-- Distinct collections have distinct views. -/
theorem pairwise_requiredViews {model : Model} (h : model.SearchCollectionsDistinct) :
    (requiredViews model).Pairwise (·.name ≠ ·.name) := by
  refine List.pairwise_filterMap.2 ((List.pairwise_filter.1 h).imp ?_)
  intro a b hab view hview other hother heq
  obtain ⟨root, hroot, hindexed, rfl⟩ := requiredView?_eq_some_iff.1 hview
  obtain ⟨root', hroot', hindexed', rfl⟩ := requiredView?_eq_some_iff.1 hother
  refine hab ?_ ?_ ?_
  · simp [ObjectType.searchIndexed, hroot, hindexed]
  · simp [ObjectType.searchIndexed, hroot', hindexed']
  · rw [hroot, hroot', Option.map_some, Option.map_some, viewName_injective heq]

theorem find?_requiredViews {model : Model} (h : model.SearchCollectionsDistinct)
    {view : RequiredView} (hmem : view ∈ requiredViews model) :
    (requiredViews model).find? (·.name == view.name) = some view := by
  have hpairwise := pairwise_requiredViews h
  generalize requiredViews model = views at hmem hpairwise
  induction views with
  | nil => cases hmem
  | cons first rest ih =>
    obtain ⟨hfirst, hrest⟩ := List.pairwise_cons.1 hpairwise
    rcases List.mem_cons.1 hmem with rfl | htail
    · simp
    · rw [List.find?_cons_of_neg (by simpa using hfirst view htail)]
      exact ih htail hrest

namespace Migration

def isCorrection : Migration → Bool
  | .update _ | .recreate _ => true
  | _ => false

@[simp] theorem isCorrection_correction (recreation : Bool) (change : ViewChange) :
    (correction recreation change).isCorrection = true := by
  cases recreation <;> rfl

@[simp] theorem isDrop_correction (recreation : Bool) (change : ViewChange) :
    (correction recreation change).isDrop = false := by
  cases recreation <;> rfl

end Migration

namespace Store

def step? (store : Store) (model : Model) (settings : Settings) (name : String) :
    Option Migration :=
  match (requiredViews model).find? (·.name == name), store.view? name with
  | none, none => none
  | none, some _ => if name.startsWith reservedPrefix then some (.drop name) else none
  | some wanted, none => some (.create (store.change wanted (wanted.properties model settings)))
  | some wanted, some existing =>
    if (wanted.properties model settings).agrees existing then none
    else some (correction ((wanted.properties model settings).needsRecreation existing)
      (store.change wanted (wanted.properties model settings)))

variable {store : Store} {model : Model} {settings : Settings} {migration : Migration}
  {applied : List Migration}

/-- Where no two required views share a name, the plan is what is to be done for each name. -/
theorem mem_steps_iff_step? (h : model.SearchCollectionsDistinct) :
    migration ∈ store.steps model settings ↔
      store.step? model settings migration.view = some migration := by
  rw [mem_steps]
  constructor
  · rintro (hcreated | hdropped | hcorrected)
    · obtain ⟨view, hmem, hget, rfl⟩ := mem_created.1 hcreated
      have hfind := find?_requiredViews h hmem
      simp [step?, Migration.view, change, hfind, hget]
    · obtain ⟨name, hget, hreserved, hfind, rfl⟩ := mem_drops.1 hdropped
      obtain ⟨existing, hget⟩ := Option.isSome_iff_exists.1 hget
      simp [step?, Migration.view, hfind, hget, hreserved]
    · obtain ⟨name, wanted, existing, hfind, hget, hdiffers, rfl⟩ := mem_corrected.1 hcorrected
      have hname := name_of_find? hfind
      simp [step?, change, hname, hfind, hget, hdiffers]
  · intro hstep
    simp only [step?] at hstep
    split at hstep
    · cases hstep
    · rename_i existing hfind hget
      split at hstep
      · rename_i hreserved
        exact .inr (.inl (mem_drops.2 ⟨_, by simp [hget], hreserved, hfind,
          (Option.some.inj hstep).symm⟩))
      · cases hstep
    · rename_i wanted hfind hget
      refine .inl (mem_created.2 ⟨wanted, List.mem_of_find?_eq_some hfind, ?_,
        (Option.some.inj hstep).symm⟩)
      rw [name_of_find? hfind]
      exact hget
    · rename_i wanted existing hfind hget
      split at hstep
      · cases hstep
      · rename_i hdiffers
        exact .inr (.inr (mem_corrected.2 ⟨_, wanted, existing, hfind, hget,
          Bool.eq_false_iff.2 hdiffers, (Option.some.inj hstep).symm⟩))

theorem step?_of_view? {store' : Store} {name : String}
    (hget : store'.view? name = store.view? name)
    (hchange : ∀ view properties, store'.change view properties = store.change view properties) :
    store'.step? model settings name = store.step? model settings name := by
  simp only [step?, hget, hchange]

/-- A step that has been taken for a name leaves nothing to do for it. -/
theorem step?_of_outcome {store' : Store} (h : model.SearchCollectionsDistinct)
    (hmem : migration ∈ store.steps model settings)
    (hget : store'.view? migration.view = migration.outcome) :
    store'.step? model settings migration.view = none := by
  rcases mem_steps.1 hmem with hcreated | hdropped | hcorrected
  · obtain ⟨view, hview, -, rfl⟩ := mem_created.1 hcreated
    have hfind := find?_requiredViews h hview
    simp only [Migration.view, change, Migration.outcome] at hget
    simp [step?, Migration.view, change, hfind, hget, view.agrees_self model settings]
  · obtain ⟨name, -, -, hfind, rfl⟩ := mem_drops.1 hdropped
    simp only [Migration.view, Migration.outcome] at hget
    simp [step?, Migration.view, hfind, hget]
  · obtain ⟨name, wanted, existing, hfind, -, -, rfl⟩ := mem_corrected.1 hcorrected
    have hname := name_of_find? hfind
    simp only [view_correction, change, hname, outcome_correction] at hget
    simp [step?, change, hname, hfind, hget, wanted.agrees_self model settings]

/-- What is still to be done is what was to be done and has not been applied. -/
theorem mem_steps_applyAll (h : model.SearchCollectionsDistinct)
    (happlied : applied ⊆ store.steps model settings) :
    migration ∈ (store.applyAll applied).steps model settings ↔
      migration ∈ store.steps model settings ∧ migration ∉ applied := by
  rw [mem_steps_iff_step? h, mem_steps_iff_step? h]
  rcases store.view?_applyAll applied migration.view with
    ⟨done, hdone, hview, hget⟩ | ⟨hother, hget⟩
  · have hplanned := happlied hdone
    rw [← hview] at hget ⊢
    rw [step?_of_outcome h hplanned hget, (mem_steps_iff_step? h).1 hplanned]
    constructor
    · intro hnone
      cases hnone
    · rintro ⟨hsame, hnew⟩
      exact absurd (Option.some.inj hsame ▸ hdone) hnew
  · rw [step?_of_view? hget (change_applyAll store applied)]
    exact ⟨fun hstep => ⟨hstep, fun hmem => hother _ hmem rfl⟩, And.left⟩

theorem create_mem_steps {view : RequiredView} (hview : view ∈ requiredViews model) :
    .create (store.change view (view.properties model settings)) ∈ store.steps model settings ↔
      store.view? view.name = none := by
  constructor
  · intro hmem
    rcases mem_steps.1 hmem with hcreated | hdropped | hcorrected
    · obtain ⟨other, -, hget, heq⟩ := mem_created.1 hcreated
      obtain ⟨hname, -⟩ := ViewChange.mk.inj (Migration.create.inj heq)
      rw [hname]
      exact hget
    · obtain ⟨_, -, -, -, heq⟩ := mem_drops.1 hdropped
      cases heq
    · obtain ⟨_, wanted, existing, -, -, -, heq⟩ := mem_corrected.1 hcorrected
      have hkind := congrArg Migration.isCorrection heq
      rw [Migration.isCorrection_correction] at hkind
      cases hkind
  · intro hget
    exact mem_steps.2 (.inl (mem_created.2 ⟨view, hview, hget, rfl⟩))

theorem mem_drops_iff_steps (settings : Settings) :
    migration ∈ drops store.listViews (requiredViews model) ↔
      migration ∈ store.steps model settings ∧ migration.isDrop := by
  rw [mem_steps]
  constructor
  · intro hmem
    obtain ⟨name, -, -, -, rfl⟩ := mem_drops.1 hmem
    exact ⟨.inr (.inl hmem), rfl⟩
  · rintro ⟨hcreated | hdropped | hcorrected, hdrop⟩
    · obtain ⟨view, -, -, rfl⟩ := mem_created.1 hcreated
      cases hdrop
    · exact hdropped
    · obtain ⟨_, _, _, -, -, -, rfl⟩ := mem_corrected.1 hcorrected
      simp at hdrop

theorem mem_corrected_iff_steps : migration ∈ store.corrected model settings ↔
    migration ∈ store.steps model settings ∧ migration.isCorrection := by
  rw [mem_steps]
  constructor
  · intro hmem
    obtain ⟨_, _, _, -, -, -, rfl⟩ := mem_corrected.1 hmem
    exact ⟨.inr (.inr hmem), by simp⟩
  · rintro ⟨hcreated | hdropped | hcorrected, hcorrects⟩
    · obtain ⟨view, -, -, rfl⟩ := mem_created.1 hcreated
      cases hcorrects
    · obtain ⟨name, -, -, -, rfl⟩ := mem_drops.1 hdropped
      cases hcorrects
    · exact hcorrected

/-! ## The order of the remaining steps

Creates follow the model, drops and corrections the names of the views. -/

theorem created_applyAll (h : model.SearchCollectionsDistinct)
    (happlied : applied ⊆ store.steps model settings) :
    (store.applyAll applied).created model settings =
      (store.created model settings).filter (· ∉ applied) := by
  simp only [created, change_applyAll, List.filter_map, List.filter_filter]
  congr 1
  refine List.filter_congr fun view hview => ?_
  have hleft : .create (store.change view (view.properties model settings)) ∈
        (store.applyAll applied).steps model settings ↔
      .create (store.change view (view.properties model settings)) ∈ store.steps model settings ∧
        .create (store.change view (view.properties model settings)) ∉ applied :=
    mem_steps_applyAll h happlied
  rw [create_mem_steps hview, ← change_applyAll store applied, create_mem_steps hview,
    change_applyAll] at hleft
  rw [Bool.eq_iff_iff]
  simp only [Function.comp_apply, Bool.and_eq_true, decide_eq_true_eq, Option.isNone_iff_eq_none,
    hleft, and_comm]

theorem pairwise_drops (store : Store) (model : Model) :
    (drops store.listViews (requiredViews model)).Pairwise (·.view < ·.view) :=
  List.pairwise_map.2 (store.pairwise_listViews.filter _)

theorem pairwise_corrected (store : Store) (model : Model) (settings : Settings) :
    (store.corrected model settings).Pairwise (·.view < ·.view) := by
  refine List.pairwise_map.2 (List.pairwise_filterMap.2 (store.pairwise_listViews.imp ?_))
  intro a b hab wanted hwanted other hother
  obtain ⟨_, hfind, -, rfl⟩ := outdated?_eq_some_iff.1 hwanted
  obtain ⟨_, hfind', -, rfl⟩ := outdated?_eq_some_iff.1 hother
  simp only [view_correction, change, name_of_find? hfind, name_of_find? hfind']
  exact hab

/-- Steps in the order of their view names are the same when they are the same as a set. -/
theorem eq_of_pairwise_view {steps others : List Migration}
    (hsteps : steps.Pairwise (·.view < ·.view)) (hothers : others.Pairwise (·.view < ·.view))
    (hmem : ∀ migration, migration ∈ steps ↔ migration ∈ others) : steps = others := by
  have : Std.Irrefl fun a b : Migration => a.view < b.view := ⟨fun _ => String.lt_irrefl _⟩
  have : Std.Antisymm fun a b : Migration => a.view < b.view :=
    ⟨fun _ _ hab hba => absurd hba (String.lt_asymm hab)⟩
  exact hsteps.eq_of_mem_iff hothers hmem

theorem drops_applyAll (h : model.SearchCollectionsDistinct)
    (happlied : applied ⊆ store.steps model settings) :
    drops (store.applyAll applied).listViews (requiredViews model) =
      (drops store.listViews (requiredViews model)).filter (· ∉ applied) := by
  refine eq_of_pairwise_view (pairwise_drops _ _) ((pairwise_drops _ _).filter _) ?_
  intro migration
  rw [mem_drops_iff_steps settings, mem_steps_applyAll h happlied, List.mem_filter,
    mem_drops_iff_steps settings, decide_eq_true_iff]
  exact and_right_comm

theorem corrected_applyAll (h : model.SearchCollectionsDistinct)
    (happlied : applied ⊆ store.steps model settings) :
    (store.applyAll applied).corrected model settings =
      (store.corrected model settings).filter (· ∉ applied) := by
  refine eq_of_pairwise_view (pairwise_corrected _ _ _) ((pairwise_corrected _ _ _).filter _) ?_
  intro migration
  rw [mem_corrected_iff_steps, mem_steps_applyAll h happlied, List.mem_filter,
    mem_corrected_iff_steps, decide_eq_true_iff]
  exact and_right_comm

theorem steps_applyAll (h : model.SearchCollectionsDistinct)
    (happlied : applied ⊆ store.steps model settings) :
    (store.applyAll applied).steps model settings =
      (store.steps model settings).filter (· ∉ applied) := by
  rw [steps, created_applyAll h happlied, drops_applyAll h happlied,
    corrected_applyAll h happlied, steps, List.filter_append, List.filter_append]

theorem nodup_steps (h : model.SearchCollectionsDistinct) :
    (store.steps model settings).Nodup := by
  have hcreated : (store.created model settings).Nodup := by
    refine List.pairwise_map.2 (((pairwise_requiredViews h).filter _).imp fun hne heq => hne ?_)
    exact (ViewChange.mk.inj (Migration.create.inj heq)).1
  have hlt : ∀ {steps : List Migration}, steps.Pairwise (·.view < ·.view) → steps.Nodup := by
    intro steps hsteps
    refine hsteps.imp ?_
    rintro a _ hlt rfl
    exact String.lt_irrefl _ hlt
  have hkinds : ∀ migration ∈ store.created model settings,
      migration.isDrop = false ∧ migration.isCorrection = false := by
    intro migration hmem
    obtain ⟨_, -, -, rfl⟩ := mem_created.1 hmem
    exact ⟨rfl, rfl⟩
  refine List.nodup_append'.2 ⟨List.nodup_append'.2 ⟨hcreated, hlt (pairwise_drops _ _), ?_⟩,
    hlt (pairwise_corrected _ _ _), ?_⟩
  · intro migration hmem hdrop
    have := (mem_drops_iff_steps settings).1 hdrop
    simp [(hkinds migration hmem).1] at this
  · intro migration hmem hcorrected
    have hcorrects := (mem_corrected_iff_steps.1 hcorrected).2
    rcases List.mem_append.1 hmem with hleft | hdrop
    · simp [(hkinds migration hleft).2] at hcorrects
    · obtain ⟨_, -, -, -, rfl⟩ := mem_drops.1 hdrop
      cases hcorrects

end Store

theorem filter_not_mem_erase {steps : List Migration} (h : steps.Nodup) {migration : Migration}
    (hmem : migration ∈ steps) : steps.filter (· ∉ steps.erase migration) = [migration] := by
  have hsame : steps.filter (· ∉ steps.erase migration) = steps.filter (· == migration) := by
    refine List.filter_congr fun other hother => ?_
    rw [Bool.eq_iff_iff]
    simp [h.mem_erase_iff, hother]
  rw [hsame, List.filter_beq, h.count, if_pos hmem, List.replicate_one]

theorem filter_not_mem_take {steps : List Migration} (h : steps.Nodup) (n : Nat) :
    steps.filter (· ∉ steps.take n) = steps.drop n := by
  have hdisjoint := List.disjoint_take_drop h (le_refl n)
  calc steps.filter (· ∉ steps.take n)
      = (steps.take n ++ steps.drop n).filter (· ∉ steps.take n) := by rw [List.take_append_drop]
    _ = steps.drop n := by
      rw [List.filter_append, List.filter_eq_nil_iff.2, List.nil_append, List.filter_eq_self]
      · exact fun migration hmem => decide_eq_true fun htake => hdisjoint htake hmem
      · exact fun migration hmem hnew => of_decide_eq_true hnew hmem

/-- A plan that is interrupted resumes. The applied steps may be any of the plan, in any order. -/
theorem replanning_finds_the_remaining_steps (model : Model)
    (hdistinct : model.SearchCollectionsDistinct) (store : Store) (settings : Settings)
    (hvalid : settings.validate = .ok ()) :
    ∃ planned, plan model store.probe settings false = .ok planned ∧
      (∀ applied, applied ⊆ planned →
        plan model (store.applyAll applied).probe settings false =
          .ok (planned.filter (· ∉ applied))) ∧
      plan model (store.applyAll planned).probe settings false = .ok [] ∧
      (∀ migration ∈ planned,
        plan model (store.applyAll (planned.erase migration)).probe settings false =
          .ok [migration]) ∧
      ∀ n, plan model (store.applyAll (planned.take n)).probe settings false =
        .ok (planned.drop n) := by
  have hnodup : (store.steps model settings).Nodup := store.nodup_steps hdistinct
  have hremaining : ∀ applied, applied ⊆ store.steps model settings →
      plan model (store.applyAll applied).probe settings false =
        .ok ((store.steps model settings).filter (· ∉ applied)) := by
    intro applied happlied
    rw [Store.plan_probe _ _ hvalid, Store.steps_applyAll hdistinct happlied]
  refine ⟨_, store.plan_probe model hvalid, hremaining, ?_, ?_, ?_⟩
  · rw [hremaining _ (List.Subset.refl _), List.filter_eq_nil_iff.2]
    exact fun migration hmem hnew => of_decide_eq_true hnew hmem
  · intro migration hmem
    rw [hremaining _ (List.erase_subset), filter_not_mem_erase hnodup hmem]
  · intro n
    rw [hremaining _ (List.take_subset n _), filter_not_mem_take hnodup n]

/-- Deliveries and orders, both searchable, in a store that has a view of deliveries and one that
is no longer required. Either the drop or the other two steps are applied, those in reverse. -/
theorem replanning_of_two_entities :
    let root (collection : String) : RootOptions :=
      { plural := collection, collection, searchIndexed := true, primarySort := [] }
    let model : Model :=
      { types :=
        [{ id := 0, name := "Delivery", kind := .rootEntity, fields := [],
           root := root "deliveries" },
         { id := 1, name := "Order", kind := .rootEntity, fields := [], root := root "orders" }] }
    let store := Store.ofSnapshot
      { views := [{ name := "flex_view_deliveries" }, { name := "flex_view_old" }],
        collections := [("deliveries", 120)] }
    let link : Link :=
      { analyzers := some ["identity"], fields := some [], includeAllFields := some false,
        trackListPositions := some false, storedValues := some .identifiers }
    let properties (collection : String) : ViewProperties :=
      { links := [(collection, link)], commitInterval := some 1000,
        consolidationInterval := some 1000 }
    let orders : ViewChange := ⟨"flex_view_orders", "orders", 0, properties "orders"⟩
    let deliveries : ViewChange :=
      ⟨"flex_view_deliveries", "deliveries", 120, properties "deliveries"⟩
    model.SearchCollectionsDistinct ∧ ({} : Settings).validate = .ok () ∧
      plan model store.probe {} false =
        .ok [.create orders, .drop "flex_view_old", .update deliveries] ∧
      plan model (store.applyAll [.drop "flex_view_old"]).probe {} false =
        .ok [.create orders, .update deliveries] ∧
      plan model (store.applyAll [.update deliveries, .create orders]).probe {} false =
        .ok [.drop "flex_view_old"] ∧
      plan model
        (store.applyAll [.create orders, .drop "flex_view_old", .update deliveries]).probe {}
        false = .ok [] := by
  intro root model store link properties orders deliveries
  have hdistinct : model.SearchCollectionsDistinct := by decide +kernel
  have hplan : plan model store.probe {} false =
      .ok [.create orders, .drop "flex_view_old", .update deliveries] := by decide +kernel
  obtain ⟨planned, hplanned, hremaining, hall, -⟩ :=
    replanning_finds_the_remaining_steps model hdistinct store {} rfl
  rw [hplan, Except.ok.injEq] at hplanned
  subst hplanned
  refine ⟨hdistinct, rfl, hplan, ?_, ?_, hall⟩
  · rw [hremaining _ (by simp)]
    simp
  · rw [hremaining _ (by simp)]
    simp

end Search

end EntitySchema
