import EntitySchema.Proofs.Search.Planning

/-! # What an applied plan leaves

After a whole plan every required view is up to date, views with the reserved prefix that are not
required are gone, and all else in the store is as it was. No assumption on collection names is
made: of several required views of one name, one decides. -/
namespace EntitySchema.Search

/-- No step of any plan, whatever the probe answers, concerns a foreign view. -/
theorem startsWith_of_mem_plan {model : Model} {probe : Probe} {settings : Settings}
    {cancelled : Bool} {planned : List Migration}
    (hplan : plan model probe settings cancelled = .ok planned) {migration : Migration}
    (hmem : migration ∈ planned) : migration.view.startsWith reservedPrefix := by
  have hrequired : ∀ view ∈ requiredViews model, ∀ properties change,
      probe.change view properties = .value change → change.view.startsWith reservedPrefix := by
    intro view hview properties change hchange
    obtain ⟨documents, -, rfl⟩ := Reply.map_eq_value_iff.1 hchange
    rw [name_of_mem_requiredViews hview]
    exact startsWith_viewName _
  obtain ⟨-, -, existing, created, updated, -, hcreated, hupdated, rfl⟩ := plan_eq_ok_iff.1 hplan
  rcases List.mem_append.1 hmem with hleft | hmem
  · rcases List.mem_append.1 hleft with hmem | hmem
    · have hreply : .value migration ∈ created.map (Reply.value (ε := ProbeError)) :=
        List.mem_map_of_mem hmem
      rw [← gather_eq_value_iff.1 hcreated] at hreply
      obtain ⟨view, hview, hvalue⟩ := List.mem_map.1 hreply
      obtain ⟨change, hchange, rfl⟩ := Reply.map_eq_value_iff.1 hvalue
      exact hrequired view (List.mem_filter.1 hview).1 _ _ hchange
    · obtain ⟨view, hview, rfl⟩ := List.mem_map.1 hmem
      exact (Bool.and_eq_true_iff.1 (List.mem_filter.1 hview).2).1
  · have hreply : .value migration ∈ updated.map (Reply.value (ε := ProbeError)) :=
      List.mem_map_of_mem hmem
    rw [← gather_eq_value_iff.1 hupdated] at hreply
    obtain ⟨_, hwanted, hvalue⟩ := List.mem_map.1 hreply
    obtain ⟨view, -, houtdated⟩ := List.mem_filterMap.1 hwanted
    obtain ⟨wanted, hfind, -, rfl⟩ := outdated?_eq_some_iff.1 houtdated
    obtain ⟨change, hchange, rfl⟩ := Reply.map_eq_value_iff.1 hvalue
    have hview := hrequired wanted (List.mem_of_find?_eq_some hfind) _ _ hchange
    split <;> exact hview

namespace Store

variable {store : Store} {model : Model} {settings : Settings}

/-- The views after a plan that steps of it decide. -/
theorem mem_requiredViews_of_mem_steps {migration : Migration}
    (hmem : migration ∈ store.steps model settings) {properties : ViewProperties}
    (houtcome : migration.outcome = some properties) :
    ∃ wanted ∈ requiredViews model, wanted.name = migration.view ∧
      properties = wanted.properties model settings := by
  rcases mem_steps.1 hmem with hcreated | hdropped | hcorrected
  · obtain ⟨wanted, hwanted, -, rfl⟩ := mem_created.1 hcreated
    exact ⟨wanted, hwanted, rfl, (Option.some.inj houtcome).symm⟩
  · obtain ⟨_, -, -, -, rfl⟩ := mem_drops.1 hdropped
    cases houtcome
  · obtain ⟨_, wanted, existing, hfind, -, -, rfl⟩ := mem_corrected.1 hcorrected
    rw [outcome_correction] at houtcome
    refine ⟨wanted, List.mem_of_find?_eq_some hfind, ?_, (Option.some.inj houtcome).symm⟩
    rw [view_correction]
    rfl

theorem dropped_of_mem_steps {migration : Migration}
    (hmem : migration ∈ store.steps model settings) (houtcome : migration.outcome = none) :
    ∀ view ∈ requiredViews model, view.name ≠ migration.view := by
  rcases mem_steps.1 hmem with hcreated | hdropped | hcorrected
  · obtain ⟨_, -, -, rfl⟩ := mem_created.1 hcreated
    cases houtcome
  · obtain ⟨name, -, -, hfind, rfl⟩ := mem_drops.1 hdropped
    simpa [Migration.view] using hfind
  · obtain ⟨_, _, _, -, -, -, rfl⟩ := mem_corrected.1 hcorrected
    simp at houtcome

/-- A required view that no step concerns is there and up to date. -/
theorem agrees_of_no_step {view : RequiredView} (hview : view ∈ requiredViews model)
    (hother : ∀ migration ∈ store.steps model settings, migration.view ≠ view.name) :
    ∃ wanted ∈ requiredViews model, wanted.name = view.name ∧ ∃ existing,
      store.view? view.name = some existing ∧
        (wanted.properties model settings).agrees existing := by
  cases hget : store.view? view.name with
  | none =>
    refine absurd rfl (hother (.create (store.change view (view.properties model settings))) ?_)
    exact mem_steps.2 (.inl (mem_created.2 ⟨view, hview, hget, rfl⟩))
  | some existing =>
    have hsome : ((requiredViews model).find? (·.name == view.name)).isSome :=
      List.find?_isSome.2 ⟨view, hview, by simp⟩
    obtain ⟨wanted, hfind⟩ := Option.isSome_iff_exists.1 hsome
    have hname := name_of_find? hfind
    refine ⟨wanted, List.mem_of_find?_eq_some hfind, hname, existing, rfl, ?_⟩
    by_contra hdiffers
    have hmem := mem_steps.2 (.inr (.inr (mem_corrected.2
      ⟨_, wanted, existing, hfind, hget, Bool.eq_false_iff.2 hdiffers, rfl⟩)))
    exact hother _ hmem (by rw [view_correction]; exact hname)

theorem view?_of_no_step {name : String} (hforeign : ∀ view ∈ requiredViews model, view.name ≠ name)
    (hother : ∀ migration ∈ store.steps model settings, migration.view ≠ name)
    (hreserved : name.startsWith reservedPrefix) : store.view? name = none := by
  by_contra hsome
  have hnone : (requiredViews model).find? (·.name == name) = none := by
    simpa using hforeign
  refine hother (.drop name) ?_ rfl
  exact mem_steps.2 (.inr (.inl (mem_drops.2
    ⟨name, Option.isSome_iff_ne_none.2 hsome, hreserved, hnone, rfl⟩)))

end Store

/-- The whole store after a whole plan, and the views that any plan may touch at all. Links are
compared up to the order in which a store reports them. -/
theorem applied_plan_outcome (model : Model) (store : Store) (settings : Settings)
    (hvalid : settings.validate = .ok ()) :
    (∃ planned, plan model store.probe settings false = .ok planned ∧
      (∀ view ∈ requiredViews model, ∃ wanted ∈ requiredViews model, wanted.name = view.name ∧
        ∃ properties, (store.applyAll planned).view? view.name = some properties ∧
          (wanted.properties model settings).sameLinks properties ∧
          properties.primarySort = (wanted.properties model settings).primarySort ∧
          properties.commitInterval = (wanted.properties model settings).commitInterval) ∧
      (∀ name, (∀ view ∈ requiredViews model, view.name ≠ name) →
        (store.applyAll planned).view? name =
          if name.startsWith reservedPrefix then none else store.view? name) ∧
      (store.applyAll planned).collections = store.collections) ∧
    ∀ (probe : Probe) (settings : Settings) (cancelled : Bool) (planned : List Migration),
      plan model probe settings cancelled = .ok planned →
        ∀ migration ∈ planned, migration.view.startsWith reservedPrefix := by
  refine ⟨⟨_, store.plan_probe model hvalid, ?_, ?_, store.collections_applyAll _⟩,
    fun _ _ _ _ hplan _ hmem => startsWith_of_mem_plan hplan hmem⟩
  · intro view hview
    suffices ∃ wanted ∈ requiredViews model, wanted.name = view.name ∧ ∃ properties,
        (store.applyAll (store.steps model settings)).view? view.name = some properties ∧
          (wanted.properties model settings).agrees properties by
      obtain ⟨wanted, hwanted, hname, properties, hget, hagrees⟩ := this
      simp only [ViewProperties.agrees, Bool.and_eq_true, decide_eq_true_eq] at hagrees
      obtain ⟨⟨hlinks, hsort⟩, hcommit⟩ := hagrees
      exact ⟨wanted, hwanted, hname, properties, hget, hlinks, hsort.symm, hcommit.symm⟩
    rcases store.view?_applyAll (store.steps model settings) view.name with
      ⟨migration, hmem, hname, hget⟩ | ⟨hother, hget⟩
    · cases houtcome : migration.outcome with
      | none => exact absurd hname.symm (Store.dropped_of_mem_steps hmem houtcome view hview)
      | some properties =>
        obtain ⟨wanted, hwanted, hsame, rfl⟩ := Store.mem_requiredViews_of_mem_steps hmem houtcome
        exact ⟨wanted, hwanted, hsame.trans hname, _, hget.trans houtcome,
          wanted.agrees_self model settings⟩
    · rw [hget]
      exact Store.agrees_of_no_step hview hother
  · intro name hforeign
    rcases store.view?_applyAll (store.steps model settings) name with
      ⟨migration, hmem, rfl, hget⟩ | ⟨hother, hget⟩
    · have hreserved := startsWith_of_mem_plan (store.plan_probe model hvalid) hmem
      rw [hget, if_pos hreserved]
      cases houtcome : migration.outcome with
      | none => rfl
      | some properties =>
        obtain ⟨wanted, hwanted, hsame, -⟩ := Store.mem_requiredViews_of_mem_steps hmem houtcome
        exact absurd hsame (hforeign wanted hwanted)
    · rw [hget]
      split
      · rename_i hreserved
        exact Store.view?_of_no_step hforeign hother hreserved
      · rfl

/-- Deliveries, whose view is stale, in a store that also has a foreign view. -/
theorem applied_plan_outcome_for_deliveries :
    let model : Model :=
      { types :=
        [{ id := 0, name := "Delivery", kind := .rootEntity, fields := [],
           root := some
            { plural := "Deliveries", collection := "deliveries", searchIndexed := true,
              primarySort := [{ field := "id" }] } }] }
    let store := Store.ofSnapshot
      { views := [{ name := "flex_view_deliveries" }, { name := "reports" }] }
    ({} : Settings).validate = .ok () ∧
      ∃ planned, plan model store.probe {} false = .ok planned ∧
        (store.applyAll planned).view? "reports" = store.view? "reports" := by
  intro model store
  obtain ⟨⟨planned, hplan, -, hforeign, -⟩, -⟩ := applied_plan_outcome model store {} rfl
  refine ⟨rfl, planned, hplan, ?_⟩
  rw [hforeign "reports" (by decide +kernel), if_neg (by decide +kernel)]

end EntitySchema.Search
