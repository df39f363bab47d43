import EntitySchema.Proofs.Search.Applying
import EntitySchema.Proofs.Search.Links

/-! # Plans as lists of steps

A plan that is found has all its questions answered, so it is a list of creates, drops and
corrections, each with the answer it waited for. Against a store in memory every question is
answered, and for each view name there is at most one step when no two required views share it. -/
namespace EntitySchema.Search

namespace Reply

variable {ε δ α β : Type}

theorem map_eq_value_iff {f : α → β} {reply : Reply ε α} {b : β} :
    reply.map f = .value b ↔ ∃ a, reply = .value a ∧ f a = b := by
  cases reply <;> simp [map, bind]

theorem both_eq_value_iff {left : Reply ε α} {right : Reply ε β} {a : α} {b : β} :
    both left right = .value (a, b) ↔ left = .value a ∧ right = .value b := by
  cases left <;> cases right <;> simp [both]

theorem all_eq_value_iff {replies : List (Reply ε α)} {answers : List α} :
    all replies = .value answers ↔ replies = answers.map .value := by
  induction replies generalizing answers with
  | nil => cases answers <;> simp [all]
  | cons reply rest ih =>
    constructor
    · intro h
      obtain ⟨⟨a, as⟩, hboth, rfl⟩ := map_eq_value_iff.1 h
      obtain ⟨rfl, hrest⟩ := both_eq_value_iff.1 hboth
      rw [List.map_cons, ← ih.1 hrest]
    · intro h
      cases answers with
      | nil => cases h
      | cons a as =>
        obtain ⟨rfl, hrest⟩ := List.cons.inj h
        exact map_eq_value_iff.2 ⟨(a, as), both_eq_value_iff.2 ⟨rfl, ih.2 hrest⟩, rfl⟩

theorem inOrder_eq_value_iff {replies : List (Reply ε α)} {answers : List α} :
    inOrder replies = .value answers ↔ replies = answers.map .value := by
  induction replies generalizing answers with
  | nil => cases answers <;> simp [inOrder]
  | cons reply rest ih =>
    cases reply with
    | value a =>
      rw [inOrder, bind, map_eq_value_iff]
      constructor
      · rintro ⟨as, hrest, rfl⟩
        rw [List.map_cons, ← ih.1 hrest]
      · intro h
        cases answers with
        | nil => cases h
        | cons b bs =>
          obtain ⟨hb, hrest⟩ := List.cons.inj h
          exact ⟨bs, ih.2 hrest, by rw [Reply.value.inj hb]⟩
    | failure e => cases answers <;> simp [inOrder, bind]
    | pending => cases answers <;> simp [inOrder, bind]

end Reply

theorem gather_eq_value_iff {α : Type} {candidates : Nat} {replies : List (Reply ProbeError α)}
    {answers : List α} : gather candidates replies = .value answers ↔
      replies = answers.map .value := by
  simp only [gather]
  split
  · exact Reply.all_eq_value_iff
  · exact Reply.inOrder_eq_value_iff

def correction (recreation : Bool) (change : ViewChange) : Migration :=
  if recreation then .recreate change else .update change

@[simp] theorem view_correction (recreation : Bool) (change : ViewChange) :
    (correction recreation change).view = change.view := by
  cases recreation <;> rfl

theorem name_of_find? {required : List RequiredView} {name : String} {wanted : RequiredView}
    (h : required.find? (·.name == name) = some wanted) : wanted.name = name := by
  simpa using List.find?_some h

theorem outdated?_eq_some_iff {model : Model} {required : List RequiredView} {settings : Settings}
    {view : View} {result : RequiredView × ViewProperties × Bool} :
    outdated? model required settings view = some result ↔
      ∃ wanted, required.find? (·.name == view.name) = some wanted ∧
        (wanted.properties model settings).agrees view.properties = false ∧
        result = (wanted, wanted.properties model settings,
          (wanted.properties model settings).needsRecreation view.properties) := by
  simp only [outdated?, Option.bind_eq_bind, Option.bind_eq_some_iff]
  refine exists_congr fun wanted => and_congr_right fun _ => ?_
  cases (wanted.properties model settings).agrees view.properties <;> simp [eq_comm]

@[simp] theorem outcome_correction (recreation : Bool) (change : ViewChange) :
    (correction recreation change).outcome = some change.properties := by
  cases recreation <;> rfl

/-- A found plan has three parts, of which the first and the last waited for answers. -/
theorem plan_eq_ok_iff {model : Model} {probe : Probe} {settings : Settings} {cancelled : Bool}
    {migrations : List Migration} :
    plan model probe settings cancelled = .ok migrations ↔
      cancelled = false ∧ settings.validate = .ok () ∧
      ∃ existing created updated, probe.listViews = .value existing ∧
        creates model existing (requiredViews model) probe settings = .value created ∧
        updates model existing (requiredViews model) probe settings = .value updated ∧
        migrations = created ++ drops existing (requiredViews model) ++ updated := by
  cases cancelled with
  | true => simp [plan]
  | false =>
    cases hlist : probe.listViews with
    | failure e => simp [plan, hlist, Reply.mapFailure, Reply.bind]
    | pending => simp [plan, hlist, Reply.mapFailure, Reply.bind]
    | value existing =>
      cases hvalid : settings.validate with
      | error reason => simp [plan, hlist, hvalid, diff, Reply.mapFailure, Reply.bind]
      | ok _ =>
        cases hcreate : creates model existing (requiredViews model) probe settings <;>
          cases hupdate : updates model existing (requiredViews model) probe settings <;>
          simp [plan, hlist, hvalid, diff, hcreate, hupdate, Reply.mapFailure, Reply.bind,
            Reply.both, Reply.map, eq_comm]

namespace Store

def change (store : Store) (view : RequiredView) (properties : ViewProperties) : ViewChange :=
  { view := view.name
    collection := view.collection
    documents := (store.collections.get? view.collection).getD 0
    properties }

theorem change_probe (store : Store) (view : RequiredView) (properties : ViewProperties) :
    store.probe.change view properties = .value (store.change view properties) := by
  have hcount : store.probe.documents view.collection =
      .value ((store.collections.get? view.collection).getD 0) := by
    simp only [Probe.documents, probe, Reply.bind, Entries.contains_eq_isSome]
    cases store.collections.get? view.collection <;> rfl
  simp [Probe.change, hcount, Reply.map, Reply.bind, change]

@[simp] theorem change_applyAll (store : Store) (migrations : List Migration)
    (view : RequiredView) (properties : ViewProperties) :
    (store.applyAll migrations).change view properties = store.change view properties := by
  simp [change]

def created (store : Store) (model : Model) (settings : Settings) : List Migration :=
  ((requiredViews model).filter fun view => (store.view? view.name).isNone).map fun view =>
    .create (store.change view (view.properties model settings))

def corrected (store : Store) (model : Model) (settings : Settings) : List Migration :=
  (store.listViews.filterMap (outdated? model (requiredViews model) settings)).map
    fun (wanted, properties, recreation) => correction recreation (store.change wanted properties)

def steps (store : Store) (model : Model) (settings : Settings) : List Migration :=
  store.created model settings ++ drops store.listViews (requiredViews model) ++
    store.corrected model settings

theorem any_listViews (store : Store) (name : String) :
    store.listViews.any (·.name == name) = (store.view? name).isSome := by
  rw [Bool.eq_iff_iff, ← exists_listViews]
  simp [List.any_eq_true]

theorem creates_probe (store : Store) (model : Model) (settings : Settings) :
    creates model store.listViews (requiredViews model) store.probe settings =
      .value (store.created model settings) := by
  refine gather_eq_value_iff.2 ?_
  simp only [created, any_listViews, change_probe, Reply.map, Reply.bind, List.map_map]
  congr 1
  refine List.filter_congr fun view _ => ?_
  cases store.view? view.name <;> rfl

theorem updates_probe (store : Store) (model : Model) (settings : Settings) :
    updates model store.listViews (requiredViews model) store.probe settings =
      .value (store.corrected model settings) := by
  refine gather_eq_value_iff.2 ?_
  simp only [corrected, change_probe, Reply.map, Reply.bind, List.map_map]
  rfl

/-- Against a store in memory, valid settings always have a plan. -/
theorem plan_probe (store : Store) (model : Model) {settings : Settings}
    (hvalid : settings.validate = .ok ()) :
    plan model store.probe settings false = .ok (store.steps model settings) :=
  plan_eq_ok_iff.2 ⟨rfl, hvalid, _, _, _, rfl, store.creates_probe model settings,
    store.updates_probe model settings, rfl⟩

variable {store : Store} {model : Model} {settings : Settings} {migration : Migration}

theorem mem_created : migration ∈ store.created model settings ↔
    ∃ view ∈ requiredViews model, store.view? view.name = none ∧
      migration = .create (store.change view (view.properties model settings)) := by
  simp only [created, List.mem_map, List.mem_filter, Option.isNone_iff_eq_none]
  constructor
  · rintro ⟨view, ⟨hmem, hnone⟩, rfl⟩
    exact ⟨view, hmem, hnone, rfl⟩
  · rintro ⟨view, hmem, hnone, rfl⟩
    exact ⟨view, ⟨hmem, hnone⟩, rfl⟩

theorem mem_drops : migration ∈ drops store.listViews (requiredViews model) ↔
    ∃ name, (store.view? name).isSome ∧ name.startsWith reservedPrefix ∧
      (requiredViews model).find? (·.name == name) = none ∧ migration = .drop name := by
  simp only [drops, List.mem_map, List.mem_filter, Bool.and_eq_true, Bool.not_eq_true',
    ← exists_listViews, List.find?_eq_none, List.any_eq_false]
  constructor
  · rintro ⟨view, ⟨hmem, hreserved, hnone⟩, rfl⟩
    exact ⟨view.name, ⟨view, hmem, rfl⟩, hreserved, hnone, rfl⟩
  · rintro ⟨_, ⟨view, hmem, rfl⟩, hreserved, hnone, rfl⟩
    exact ⟨view, ⟨hmem, hreserved, hnone⟩, rfl⟩

theorem mem_corrected : migration ∈ store.corrected model settings ↔
    ∃ name wanted existing, (requiredViews model).find? (·.name == name) = some wanted ∧
      store.view? name = some existing ∧
      (wanted.properties model settings).agrees existing = false ∧
      migration = correction ((wanted.properties model settings).needsRecreation existing)
        (store.change wanted (wanted.properties model settings)) := by
  simp only [corrected, List.mem_map, List.mem_filterMap, outdated?_eq_some_iff]
  constructor
  · rintro ⟨_, ⟨view, hmem, wanted, hfind, hdiffers, rfl⟩, rfl⟩
    exact ⟨view.name, wanted, view.properties, hfind, mem_listViews.1 hmem, hdiffers, rfl⟩
  · rintro ⟨name, wanted, existing, hfind, hget, hdiffers, rfl⟩
    exact ⟨_, ⟨⟨name, existing⟩, mem_listViews.2 hget, wanted, hfind, hdiffers, rfl⟩, rfl⟩

theorem mem_steps : migration ∈ store.steps model settings ↔
    migration ∈ store.created model settings ∨
      migration ∈ drops store.listViews (requiredViews model) ∨
      migration ∈ store.corrected model settings := by
  simp [steps]

end Store

theorem startsWith_viewName (collection : String) :
    (viewName collection).startsWith reservedPrefix := by
  rw [String.startsWith_string_iff, viewName, String.toList_append]
  exact List.prefix_append _ _

theorem requiredView?_eq_some_iff {type : ObjectType} {view : RequiredView} :
    requiredView? type = some view ↔ ∃ root, type.root = some root ∧ root.searchIndexed ∧
      view = { rootEntity := type.id, name := viewName root.collection,
               collection := root.collection, primarySort := root.primarySort.map sortKey } := by
  simp only [requiredView?, Option.bind_eq_bind, Option.bind_eq_some_iff]
  constructor
  · rintro ⟨root, hroot, hif⟩
    split at hif
    · rename_i hindexed
      exact ⟨root, hroot, hindexed, (Option.some.inj hif).symm⟩
    · cases hif
  · rintro ⟨root, hroot, hindexed, rfl⟩
    exact ⟨root, hroot, if_pos hindexed⟩

/-- A required view is named for its collection. -/
theorem name_of_mem_requiredViews {model : Model} {view : RequiredView}
    (h : view ∈ requiredViews model) : view.name = viewName view.collection := by
  obtain ⟨type, -, hview⟩ := List.mem_filterMap.1 h
  obtain ⟨root, -, -, rfl⟩ := requiredView?_eq_some_iff.1 hview
  rfl

end EntitySchema.Search
