import EntitySchema.Proofs.Search.Planning

/-! # Plans and the questions they ask

Planning asks for the sizes of the collections of those definitions that are to be created or
corrected, and of no others. It fails exactly if one of these questions fails, with such a failure. -/
namespace EntitySchema.Search

namespace Reply

variable {ε δ α β : Type}

def FailsBy (failures : ε → Prop) : Reply ε α → Prop
  | .value _ => True
  | .failure e => failures e
  | .pending => False

variable {failures : ε → Prop}

theorem FailsBy.mono {failures' : ε → Prop} {reply : Reply ε α} (h : reply.FailsBy failures)
    (himp : ∀ e, failures e → failures' e) : reply.FailsBy failures' := by
  cases reply with
  | value a => trivial
  | failure e => exact himp e h
  | pending => exact h

theorem FailsBy.bind {reply : Reply ε α} {next : α → Reply ε β} (h : reply.FailsBy failures)
    (hnext : ∀ a, reply = .value a → (next a).FailsBy failures) :
    (reply.bind next).FailsBy failures := by
  cases reply with
  | value a => exact hnext a rfl
  | failure e => exact h
  | pending => exact h

theorem FailsBy.map {reply : Reply ε α} (f : α → β) (h : reply.FailsBy failures) :
    (reply.map f).FailsBy failures :=
  h.bind fun _ _ => trivial

theorem FailsBy.both {left : Reply ε α} {right : Reply ε β} (hleft : left.FailsBy failures)
    (hright : right.FailsBy failures) : (Reply.both left right).FailsBy failures := by
  cases left with
  | value a =>
    cases right with
    | value b => trivial
    | failure e => exact hright
    | pending => exact hright
  | failure e => exact hleft
  | pending => exact absurd hleft id

theorem FailsBy.all {replies : List (Reply ε α)} (h : ∀ reply ∈ replies, reply.FailsBy failures) :
    (Reply.all replies).FailsBy failures := by
  induction replies with
  | nil => trivial
  | cons reply rest ih =>
    have hrest := ih fun other hother => h other (List.mem_cons_of_mem _ hother)
    exact ((h reply List.mem_cons_self).both hrest).map _

theorem FailsBy.inOrder {replies : List (Reply ε α)}
    (h : ∀ reply ∈ replies, reply.FailsBy failures) : (Reply.inOrder replies).FailsBy failures := by
  induction replies with
  | nil => trivial
  | cons reply rest ih =>
    have hrest := ih fun other hother => h other (List.mem_cons_of_mem _ hother)
    exact (h reply List.mem_cons_self).bind fun _ _ => hrest.map _

end Reply

theorem gather_failsBy {α : Type} {failures : ProbeError → Prop} (candidates : Nat)
    {replies : List (Reply ProbeError α)} (h : ∀ reply ∈ replies, reply.FailsBy failures) :
    (gather candidates replies).FailsBy failures := by
  simp only [gather]
  split
  · exact .all h
  · exact .inOrder h

/-! ### The size of one collection -/

namespace Probe

structure Answers (probe : Probe) : Prop where
  listViews : probe.listViews ≠ .pending
  collectionExists : ∀ collection, probe.collectionExists collection ≠ .pending
  collectionCount : ∀ collection, probe.collectionCount collection ≠ .pending

/-- The size of a collection: a collection that does not exist is empty, and is not counted. -/
inductive Sizes (probe : Probe) (collection : String) : Nat → Prop
  | missing (h : probe.collectionExists collection = .value false) : Sizes probe collection 0
  | counted {n : Nat} (h : probe.collectionExists collection = .value true)
      (hcount : probe.collectionCount collection = .value n) : Sizes probe collection n

/-- The question whether a collection exists fails, or else it exists and counting it fails. -/
inductive FailsAt (probe : Probe) (collection : String) (e : ProbeError) : Prop
  | unknown (h : probe.collectionExists collection = .failure e)
  | counted (h : probe.collectionExists collection = .value true)
      (hcount : probe.collectionCount collection = .failure e)

variable {probe : Probe} {collection : String}

theorem documents_eq_value_iff {n : Nat} :
    probe.documents collection = .value n ↔ probe.Sizes collection n := by
  constructor
  · intro h
    simp only [documents] at h
    cases hexists : probe.collectionExists collection with
    | value found =>
      rw [hexists] at h
      cases found with
      | true => exact .counted hexists h
      | false =>
        cases h
        exact .missing hexists
    | failure e =>
      rw [hexists] at h
      cases h
    | pending =>
      rw [hexists] at h
      cases h
  · rintro (h | ⟨h, hcount⟩)
    · rw [documents, h]
      rfl
    · rw [documents, h]
      exact hcount

theorem documents_failsBy (hanswers : probe.Answers) (collection : String) :
    (probe.documents collection).FailsBy (probe.FailsAt collection) := by
  have hdocuments : probe.documents collection = (probe.collectionExists collection).bind
      fun found => if found then probe.collectionCount collection else .value 0 := rfl
  rw [hdocuments]
  cases hexists : probe.collectionExists collection with
  | value found =>
    cases found with
    | true =>
      change (probe.collectionCount collection).FailsBy _
      cases hcount : probe.collectionCount collection with
      | value n => trivial
      | failure e => exact .counted hexists hcount
      | pending => exact hanswers.collectionCount collection hcount
    | false => trivial
  | failure e => exact .unknown hexists
  | pending => exact hanswers.collectionExists collection hexists

theorem not_failsAt_of_sizes {n : Nat} {e : ProbeError} (hsizes : probe.Sizes collection n) :
    ¬ probe.FailsAt collection e := by
  rintro (h | ⟨h, hcount⟩)
  · cases hsizes with
    | missing h' => simp [h] at h'
    | counted h' => simp [h] at h'
  · cases hsizes with
    | missing h' => simp [h] at h'
    | counted h' hcount' => simp [hcount] at hcount'

structure SameSize (probe other : Probe) (collection : String) : Prop where
  exists_eq : other.collectionExists collection = probe.collectionExists collection
  count_eq : probe.collectionExists collection = .value true →
    other.collectionCount collection = probe.collectionCount collection

theorem SameSize.documents_eq {other : Probe} (h : probe.SameSize other collection) :
    other.documents collection = probe.documents collection := by
  simp only [documents, h.exists_eq]
  cases hexists : probe.collectionExists collection with
  | value found =>
    cases found with
    | true => exact h.count_eq hexists
    | false => rfl
  | failure e => rfl
  | pending => rfl

end Probe

/-! ### The definitions that a plan changes the store for -/

/-- A required definition that has no view, or that a view differs from. -/
inductive Awaited (model : Model) (settings : Settings) (existing : List View)
    (view : RequiredView) : Prop
  | missing (hview : view ∈ requiredViews model) (hnone : ∀ other ∈ existing, other.name ≠ view.name)
  | outdated {other : View} (hother : other ∈ existing)
      (hfind : (requiredViews model).find? (·.name == other.name) = some view)
      (hdiffers : (view.properties model settings).agrees other.properties = false)

variable {model : Model} {settings : Settings} {existing : List View} {probe : Probe}

theorem mem_missing {view : RequiredView} :
    (view ∈ (requiredViews model).filter fun view => !existing.any (·.name == view.name)) ↔
      view ∈ requiredViews model ∧ ∀ other ∈ existing, other.name ≠ view.name := by
  simp [List.mem_filter]

theorem mem_outdated {result : RequiredView × ViewProperties × Bool}
    (h : result ∈ existing.filterMap (outdated? model (requiredViews model) settings)) :
    Awaited model settings existing result.1 ∧ result.2.1 = result.1.properties model settings := by
  obtain ⟨other, hother, houtdated⟩ := List.mem_filterMap.1 h
  obtain ⟨wanted, hfind, hdiffers, rfl⟩ := outdated?_eq_some_iff.1 houtdated
  exact ⟨.outdated hother hfind hdiffers, rfl⟩

def Awaited.FailsWith (model : Model) (settings : Settings) (existing : List View) (probe : Probe)
    (e : ProbeError) : Prop :=
  ∃ view, Awaited model settings existing view ∧ probe.FailsAt view.collection e

theorem change_failsBy (hanswers : probe.Answers) {view : RequiredView}
    (hawaited : Awaited model settings existing view) (properties : ViewProperties) :
    (probe.change view properties).FailsBy (Awaited.FailsWith model settings existing probe) :=
  ((Probe.documents_failsBy hanswers view.collection).mono
    fun _ hfails => ⟨view, hawaited, hfails⟩).map _

theorem creates_failsBy (hanswers : probe.Answers) :
    (creates model existing (requiredViews model) probe settings).FailsBy
      (Awaited.FailsWith model settings existing probe) := by
  refine gather_failsBy _ fun reply hreply => ?_
  obtain ⟨view, hview, rfl⟩ := List.mem_map.1 hreply
  obtain ⟨hmem, hnone⟩ := mem_missing.1 hview
  exact (change_failsBy hanswers (.missing hmem hnone) _).map _

theorem updates_failsBy (hanswers : probe.Answers) :
    (updates model existing (requiredViews model) probe settings).FailsBy
      (Awaited.FailsWith model settings existing probe) := by
  refine gather_failsBy _ fun reply hreply => ?_
  obtain ⟨result, hresult, rfl⟩ := List.mem_map.1 hreply
  exact (change_failsBy hanswers (mem_outdated hresult).1 _).map _

def changes (model : Model) (existing : List View) (probe : Probe) (settings : Settings) :
    Reply ProbeError (List Migration × List Migration) :=
  Reply.both (creates model existing (requiredViews model) probe settings)
    (updates model existing (requiredViews model) probe settings)

def conclude (existing : List View) (model : Model) :
    Reply ProbeError (List Migration × List Migration) → Except MigrationError (List Migration)
  | .value (created, updated) =>
    .ok (created ++ drops existing (requiredViews model) ++ updated)
  | .failure e => .error (.probe e)
  | .pending => .error .cancelled

theorem plan_eq_conclude (hlist : probe.listViews = .value existing)
    (hvalid : settings.validate = .ok ()) :
    plan model probe settings false =
      conclude existing model (changes model existing probe settings) := by
  simp only [plan, hlist, hvalid, diff, Reply.mapFailure, Reply.bind, changes]
  cases Reply.both (creates model existing (requiredViews model) probe settings)
    (updates model existing (requiredViews model) probe settings) <;> rfl

theorem plan_ok_or_fails (hanswers : probe.Answers) (hlist : probe.listViews = .value existing)
    (hvalid : settings.validate = .ok ()) :
    (∃ planned, plan model probe settings false = .ok planned) ∨
      ∃ e, Awaited.FailsWith model settings existing probe e ∧
        plan model probe settings false = .error (.probe e) := by
  have hfails : (changes model existing probe settings).FailsBy
      (Awaited.FailsWith model settings existing probe) :=
    (creates_failsBy hanswers).both (updates_failsBy hanswers)
  rw [plan_eq_conclude hlist hvalid]
  cases hchanges : changes model existing probe settings with
  | value parts => exact .inl ⟨_, rfl⟩
  | failure e =>
    rw [hchanges] at hfails
    exact .inr ⟨e, hfails, rfl⟩
  | pending =>
    rw [hchanges] at hfails
    exact absurd hfails id

/-! ### What the steps of a plan carry -/

def Migration.change? : Migration → Option ViewChange
  | .create change | .update change | .recreate change => some change
  | .drop _ => none

@[simp] theorem Migration.change?_correction (recreation : Bool) (change : ViewChange) :
    (correction recreation change).change? = some change := by
  cases recreation <;> rfl

structure ViewChange.Realizes (change : ViewChange) (model : Model) (settings : Settings)
    (probe : Probe) (view : RequiredView) : Prop where
  view_eq : change.view = view.name
  collection_eq : change.collection = view.collection
  properties_eq : change.properties = view.properties model settings
  documents : probe.Sizes view.collection change.documents

theorem realizes_of_change {view : RequiredView} {change : ViewChange}
    (h : probe.change view (view.properties model settings) = .value change) :
    change.Realizes model settings probe view := by
  obtain ⟨n, hdocuments, rfl⟩ := Reply.map_eq_value_iff.1 h
  exact ⟨rfl, rfl, rfl, Probe.documents_eq_value_iff.1 hdocuments⟩

theorem value_mem_of_gather {α : Type} {candidates : Nat} {replies : List (Reply ProbeError α)}
    {answers : List α} (h : gather candidates replies = .value answers) {answer : α}
    (hmem : answer ∈ answers) : .value answer ∈ replies := by
  rw [gather_eq_value_iff.1 h]
  exact List.mem_map_of_mem hmem

theorem exists_value_of_gather {α : Type} {candidates : Nat} {replies : List (Reply ProbeError α)}
    {answers : List α} (h : gather candidates replies = .value answers) {reply : Reply ProbeError α}
    (hmem : reply ∈ replies) : ∃ answer ∈ answers, reply = .value answer := by
  rw [gather_eq_value_iff.1 h] at hmem
  obtain ⟨answer, hanswer, rfl⟩ := List.mem_map.1 hmem
  exact ⟨answer, hanswer, rfl⟩

section Steps

variable {planned : List Migration} (hlist : probe.listViews = .value existing)
  (hplan : plan model probe settings false = .ok planned)

include hlist hplan

theorem realizes_of_mem_plan {migration : Migration} (hmem : migration ∈ planned) :
    migration.isDrop ∨ ∃ view change, Awaited model settings existing view ∧
      migration.change? = some change ∧ change.Realizes model settings probe view := by
  obtain ⟨-, -, listed, created, updated, hlisted, hcreated, hupdated, rfl⟩ :=
    plan_eq_ok_iff.1 hplan
  rw [hlist] at hlisted
  cases hlisted
  rcases List.mem_append.1 hmem with hleft | hmem
  · rcases List.mem_append.1 hleft with hmem | hmem
    · obtain ⟨view, hview, hvalue⟩ := List.mem_map.1 (value_mem_of_gather hcreated hmem)
      obtain ⟨hrequired, hnone⟩ := mem_missing.1 hview
      obtain ⟨change, hchange, rfl⟩ := Reply.map_eq_value_iff.1 hvalue
      exact .inr ⟨view, change, .missing hrequired hnone, rfl, realizes_of_change hchange⟩
    · obtain ⟨view, -, rfl⟩ := List.mem_map.1 hmem
      exact .inl rfl
  · obtain ⟨⟨view, properties, recreation⟩, hresult, hvalue⟩ :=
      List.mem_map.1 (value_mem_of_gather hupdated hmem)
    obtain ⟨hawaited, hproperties⟩ := mem_outdated hresult
    replace hproperties : properties = view.properties model settings := hproperties
    subst hproperties
    obtain ⟨change, hchange, rfl⟩ := Reply.map_eq_value_iff.1 hvalue
    refine .inr ⟨view, change, hawaited, ?_, realizes_of_change hchange⟩
    exact Migration.change?_correction recreation change

theorem exists_step_of_awaited {view : RequiredView}
    (hawaited : Awaited model settings existing view) :
    ∃ migration ∈ planned, ∃ change, migration.change? = some change ∧
      change.Realizes model settings probe view := by
  obtain ⟨-, -, listed, created, updated, hlisted, hcreated, hupdated, rfl⟩ :=
    plan_eq_ok_iff.1 hplan
  rw [hlist] at hlisted
  cases hlisted
  -- A view that is missing is created, one that differs is corrected.
  cases hawaited with
  | missing hview hnone =>
    obtain ⟨migration, hmem, hvalue⟩ :=
      exists_value_of_gather hcreated (List.mem_map_of_mem (mem_missing.2 ⟨hview, hnone⟩))
    obtain ⟨change, hchange, rfl⟩ := Reply.map_eq_value_iff.1 hvalue
    refine ⟨.create change, ?_, change, rfl, realizes_of_change hchange⟩
    exact List.mem_append_left _ (List.mem_append_left _ hmem)
  | @outdated other hother hfind hdiffers =>
    have hresult := List.mem_filterMap.2
      ⟨other, hother, outdated?_eq_some_iff.2 ⟨view, hfind, hdiffers, rfl⟩⟩
    obtain ⟨migration, hmem, hvalue⟩ :=
      exists_value_of_gather hupdated (List.mem_map_of_mem hresult)
    obtain ⟨change, hchange, rfl⟩ := Reply.map_eq_value_iff.1 hvalue
    refine ⟨_, List.mem_append_right _ hmem, change, ?_, realizes_of_change hchange⟩
    exact Migration.change?_correction _ change

end Steps

/-! ### The answers that matter -/

theorem change_congr {other : Probe} {view : RequiredView}
    (hsize : probe.SameSize other view.collection) (properties : ViewProperties) :
    other.change view properties = probe.change view properties := by
  rw [Probe.change, Probe.change, hsize.documents_eq]

/-- A plan is the same with any other answers about collections that it does not ask for. -/
theorem plan_congr {other : Probe} (hlist : probe.listViews = .value existing)
    (hlist' : other.listViews = probe.listViews)
    (hsame : ∀ view, Awaited model settings existing view →
      probe.SameSize other view.collection) :
    plan model other settings false = plan model probe settings false := by
  have hcreates : creates model existing (requiredViews model) other settings =
      creates model existing (requiredViews model) probe settings := by
    rw [creates, creates]
    congr 1
    refine List.map_congr_left fun view hview => ?_
    obtain ⟨hmem, hnone⟩ := mem_missing.1 hview
    rw [change_congr (hsame view (.missing hmem hnone))]
  have hupdates : updates model existing (requiredViews model) other settings =
      updates model existing (requiredViews model) probe settings := by
    rw [updates, updates]
    congr 1
    refine List.map_congr_left fun ⟨view, properties, recreation⟩ hresult => ?_
    have hsize : probe.SameSize other view.collection := hsame view (mem_outdated hresult).1
    simp only [change_congr hsize]
  simp only [plan, hlist', hlist, diff, hcreates, hupdates, Reply.mapFailure, Reply.bind]

/-- How the outcome of planning depends on the answers of a store: which error comes first, when
there is a plan, what it carries, and which answers never matter. -/
theorem plan_by_answers (model : Model) (settings : Settings) (probe : Probe)
    (hanswers : probe.Answers) :
    plan model probe settings true = .error .cancelled ∧
    (∀ e, probe.listViews = .failure e → plan model probe settings false = .error (.probe e)) ∧
    ∀ existing, probe.listViews = .value existing →
      (∀ reason, settings.validate = .error reason →
        plan model probe settings false = .error (.invalidConfiguration reason)) ∧
      (settings.validate = .ok () →
        ((∃ planned, plan model probe settings false = .ok planned) ↔
          ∀ view, Awaited model settings existing view → ∃ n, probe.Sizes view.collection n) ∧
        (∀ error, plan model probe settings false = .error error →
          ∃ view e, Awaited model settings existing view ∧ probe.FailsAt view.collection e ∧
            error = .probe e)) ∧
      (∀ planned, plan model probe settings false = .ok planned →
        (∀ migration ∈ planned, migration.isDrop ∨ ∃ view change,
          Awaited model settings existing view ∧ migration.change? = some change ∧
            change.Realizes model settings probe view) ∧
        ∀ view, Awaited model settings existing view → ∃ migration ∈ planned, ∃ change,
          migration.change? = some change ∧ change.Realizes model settings probe view) ∧
      ∀ other : Probe, other.listViews = probe.listViews →
        (∀ view, Awaited model settings existing view →
          probe.SameSize other view.collection) →
        plan model other settings false = plan model probe settings false := by
  refine ⟨rfl, fun e hlist => ?_, fun existing hlist => ⟨fun reason hinvalid => ?_,
    fun hvalid => ⟨⟨?_, fun hsizes => ?_⟩, fun error herror => ?_⟩, fun planned hplan => ?_, ?_⟩⟩
  · simp [plan, hlist, Reply.mapFailure, Reply.bind]
  · simp [plan, hlist, hinvalid, diff, Reply.mapFailure, Reply.bind]
  · rintro ⟨planned, hplan⟩ view hawaited
    obtain ⟨_, -, change, -, hrealizes⟩ := exists_step_of_awaited hlist hplan hawaited
    exact ⟨change.documents, hrealizes.documents⟩
  · -- A failing question would be one about a collection that has a size.
    rcases plan_ok_or_fails hanswers hlist hvalid with hok | ⟨e, ⟨view, hawaited, hfails⟩, -⟩
    · exact hok
    · obtain ⟨n, hn⟩ := hsizes view hawaited
      exact absurd hfails (Probe.not_failsAt_of_sizes hn)
  · rcases plan_ok_or_fails hanswers hlist hvalid with
      ⟨planned, hok⟩ | ⟨e, ⟨view, hawaited, hfails⟩, hplan⟩
    · rw [hok] at herror
      cases herror
    · rw [hplan] at herror
      cases herror
      exact ⟨view, e, hawaited, hfails, rfl⟩
  · exact ⟨fun _ hmem => realizes_of_mem_plan hlist hplan hmem,
      fun _ hawaited => exists_step_of_awaited hlist hplan hawaited⟩
  · exact fun other hlist' hsame => plan_congr hlist hlist' hsame

/-- Two entities without views. Counting the collection of the one that has documents fails, and
that fails the plan for both. -/
theorem plan_by_answers_of_orders :
    let root (collection : String) : RootOptions :=
      { plural := collection, collection, searchIndexed := true, primarySort := [] }
    let model : Model :=
      { types :=
        [{ id := 0, name := "Delivery", kind := .rootEntity, fields := [],
           root := root "deliveries" },
         { id := 1, name := "Order", kind := .rootEntity, fields := [], root := root "orders" }] }
    let probe : Probe :=
      { listViews := .value []
        collectionExists := fun collection => .value (collection == "orders")
        collectionCount := fun collection => .failure (.query "count" collection "timed out") }
    probe.Answers ∧ plan model probe {} false =
      .error (.probe (.query "count" "orders" "timed out")) := by
  intro root model probe
  have hanswers : probe.Answers := ⟨nofun, fun _ => nofun, fun _ => nofun⟩
  obtain ⟨-, -, hlisted⟩ := plan_by_answers model {} probe hanswers
  obtain ⟨-, hplanned, -, -⟩ := hlisted [] rfl
  obtain ⟨hfound, hfails⟩ := hplanned rfl
  refine ⟨hanswers, ?_⟩
  have horders : Awaited model {} [] ⟨1, "flex_view_orders", "orders", []⟩ :=
    .missing (by decide) (by simp)
  cases hplan : plan model probe {} false with
  | ok planned =>
    obtain ⟨n, hsizes⟩ := hfound.1 ⟨planned, hplan⟩ _ horders
    cases hsizes with
    | missing h => simp [probe] at h
    | counted _ hcount => simp [probe] at hcount
  | error error =>
    obtain ⟨view, e, -, hview, rfl⟩ := hfails error hplan
    cases hview with
    | unknown h => simp [probe] at h
    | counted h hcount =>
      have hname : view.collection = "orders" := by simpa [probe] using h
      simp only [probe, hname] at hcount
      cases hcount
      rfl

end EntitySchema.Search
