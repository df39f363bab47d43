import EntitySchema.Proofs.Json.Printing
import EntitySchema.Proofs.Search.Applying
import EntitySchema.Proofs.Search.JsonForms
import EntitySchema.Proofs.Text.ByteOrder
import EntitySchema.Search.Plan
import EntitySchema.Search.Store

/-! # Reloading a store

A store is the same after it has been written to a text and read from it. The snapshot of a store
that is made of any snapshot has of each name the last value, in the byte order of the names. -/
namespace EntitySchema.Search

variable {α : Type}

/-! ### Sorting by name -/

theorem insertSorted_of_last {entries : Entries α} {key : String} (value : α)
    (h : ∀ entry ∈ entries, entry.1 < key) :
    insertSorted key value entries = entries ++ [(key, value)] := by
  induction entries with
  | nil => rfl
  | cons first rest ih =>
    obtain ⟨hfirst, hrest⟩ := List.forall_mem_cons.1 h
    have hne : key ≠ first.1 := fun heq => String.lt_irrefl _ (heq ▸ hfirst)
    have hnot : ¬ key < first.1 := fun hlt => String.lt_irrefl _ (String.lt_trans hlt hfirst)
    rw [insertSorted, if_neg hne, if_neg hnot, ih hrest, List.cons_append]

theorem sortedByName_eq_foldl (entries : List (String × α)) : sortedByName entries =
    entries.foldl (fun sorted entry => insertSorted entry.1 entry.2 sorted) [] := rfl

theorem sortedByName_of_ascending {entries : Entries α} (h : Ascending entries) :
    sortedByName entries = entries := by
  -- what has been inserted stays in front of what is to come
  have hfold : ∀ (rest sorted : Entries α), Ascending (sorted ++ rest) →
      rest.foldl (fun sorted entry => insertSorted entry.1 entry.2 sorted) sorted =
        sorted ++ rest := by
    intro rest
    induction rest with
    | nil => simp
    | cons first rest ih =>
      intro sorted hascending
      obtain ⟨key, value⟩ := first
      have hlast : ∀ entry ∈ sorted, entry.1 < key := fun entry hentry =>
        (List.pairwise_append.1 hascending).2.2 entry hentry _ List.mem_cons_self
      have happend : sorted ++ [(key, value)] ++ rest = sorted ++ (key, value) :: rest := by simp
      rw [List.foldl_cons, insertSorted_of_last value hlast, ih _ (happend ▸ hascending), happend]
  rw [sortedByName_eq_foldl]
  exact hfold entries [] h

/-- The last value of a name is the one that is found. -/
theorem get?_sortedByName (entries : List (String × α)) (name : String) :
    Entries.get? (sortedByName entries) name = Entries.get? entries.reverse name := by
  have hfold : ∀ (entries : List (String × α)) (sorted : Entries α), Ascending sorted →
      Entries.get? (entries.foldl (fun sorted entry => insertSorted entry.1 entry.2 sorted) sorted)
          name = (Entries.get? entries.reverse name).or (Entries.get? sorted name) := by
    intro entries
    induction entries with
    | nil => simp
    | cons first rest ih =>
      intro sorted hsorted
      obtain ⟨key, value⟩ := first
      rw [List.foldl_cons, ih _ (ascending_insertSorted key value hsorted),
        get?_insertSorted key value hsorted, List.reverse_cons, Entries.get?_append,
        Entries.get?_cons, Option.or_assoc]
      by_cases hkey : key = name <;> simp [hkey]
  simpa [sortedByName_eq_foldl] using hfold entries [] .nil

/-! ### The last value of each name -/

def IsLast (name : α → String) (items : List α) (item : α) : Prop :=
  ∃ before after, items = before ++ item :: after ∧ ∀ later ∈ after, name later ≠ name item

/-- Each name of a list is kept once, with the last item of that name, in the byte order of the
names. -/
structure Keeps (name : α → String) (items kept : List α) : Prop where
  last : ∀ item, item ∈ kept ↔ IsLast name items item
  once : ∀ item ∈ items, (kept.map name).count (name item) = 1
  ordered : kept.Pairwise fun a b => Text.bytes (name a) < Text.bytes (name b)

theorem exists_isLast (name : α → String) {items : List α} {item : α} (h : item ∈ items) :
    ∃ last, IsLast name items last ∧ name last = name item := by
  induction items generalizing item with
  | nil => cases h
  | cons first rest ih =>
    by_cases hlater : ∃ later ∈ rest, name later = name item
    · obtain ⟨later, hmem, hname⟩ := hlater
      obtain ⟨last, ⟨before, after, rfl, hnone⟩, hlast⟩ := ih hmem
      exact ⟨last, ⟨first :: before, after, rfl, hnone⟩, hlast.trans hname⟩
    · have hfirst : item = first := (List.mem_cons.1 h).resolve_right fun hrest =>
        hlater ⟨item, hrest, rfl⟩
      subst hfirst
      exact ⟨item, ⟨[], rest, rfl, fun later hmem hname => hlater ⟨later, hmem, hname⟩⟩, rfl⟩

theorem keeps_of_last {name : α → String} {items kept : List α}
    (hlast : ∀ item, item ∈ kept ↔ IsLast name items item)
    (hordered : kept.Pairwise fun a b => name a < name b) : Keeps name items kept := by
  refine ⟨hlast, fun item hitem => ?_, hordered.imp Text.lt_iff_bytes_lt.1⟩
  have hnodup : (kept.map name).Nodup := by
    refine List.pairwise_map.2 (hordered.imp ?_)
    intro a b hlt heq
    exact String.lt_irrefl _ (heq ▸ hlt)
  obtain ⟨last, hmem, hname⟩ := exists_isLast name hitem
  exact List.count_eq_one_of_mem hnodup (hname ▸ List.mem_map_of_mem ((hlast last).2 hmem))

theorem get?_reverse_eq_some_iff {entries : List (String × α)} {entry : String × α} :
    Entries.get? entries.reverse entry.1 = some entry.2 ↔ IsLast Prod.fst entries entry := by
  constructor
  · intro h
    obtain ⟨found, hfind, hvalue⟩ := Option.map_eq_some_iff.1 h
    obtain ⟨hname, after, before, hsplit, hnone⟩ := List.find?_eq_some_iff_append.1 hfind
    obtain rfl : found = entry := Prod.ext (by simpa using hname) hvalue
    refine ⟨before.reverse, after.reverse, ?_, fun later hlater => ?_⟩
    · simpa using congrArg List.reverse hsplit
    · simpa using hnone later (List.mem_reverse.1 hlater)
  · rintro ⟨before, after, rfl, hnone⟩
    have hafter : Entries.get? after.reverse entry.1 = none := by
      rw [Entries.get?_eq_none_iff]
      intro hmem
      obtain ⟨later, hlater, hname⟩ := List.mem_map.1 hmem
      exact hnone later (List.mem_reverse.1 hlater) hname
    obtain ⟨name, value⟩ := entry
    rw [List.reverse_append, List.reverse_cons, List.append_assoc, Entries.get?_append, hafter]
    simp [Entries.get?_cons]

theorem mem_sortedByName_iff {entries : List (String × α)} {entry : String × α} :
    entry ∈ sortedByName entries ↔ IsLast Prod.fst entries entry := by
  rw [← get?_reverse_eq_some_iff, ← get?_sortedByName]
  exact Entries.mem_iff_get? (ascending_sortedByName entries).nodup_keys

theorem keeps_sortedByName (entries : List (String × α)) :
    Keeps Prod.fst entries (sortedByName entries) :=
  keeps_of_last (fun _ => mem_sortedByName_iff) (ascending_sortedByName entries)

namespace Store

theorem ofSnapshot_snapshot (store : Store) : ofSnapshot store.snapshot = store := by
  obtain ⟨views, collections, hviews, hcollections⟩ := store
  have hmap : (listViews ⟨views, collections, hviews, hcollections⟩).map
      (fun view => (view.name, view.properties)) = views := by
    rw [listViews, List.map_map]
    exact List.map_id _
  simp only [ofSnapshot, snapshot, hmap, sortedByName_of_ascending hviews,
    sortedByName_of_ascending hcollections]

/-- A store as it can be in memory: maps have each name once, and numbers have 64 bits. -/
structure Storable (store : Store) : Prop where
  links : ∀ entry ∈ store.views, entry.2.Distinct
  intervals : ∀ entry ∈ store.views, entry.2.Measured Json.IsWord
  counts : ∀ entry ∈ store.collections, Json.IsWord (.int entry.2)

theorem ofText_text {store : Store} (h : store.Storable)
    (hdepth : store.snapshot.toJson.depth ≤ Json.nestingLimit) : ofText store.text = .ok store := by
  have hdistinct : store.snapshot.Distinct := by
    refine ⟨fun view hview => ?_, store.collections_ascending.nodup_keys⟩
    obtain ⟨entry, hentry, rfl⟩ := List.mem_map.1 hview
    exact h.links entry hentry
  have hmeasured : store.snapshot.Measured Json.IsWord := by
    refine ⟨fun view hview => ?_, h.counts⟩
    obtain ⟨entry, hentry, rfl⟩ := List.mem_map.1 hview
    exact h.intervals entry hentry
  have hparse := Json.parse_pretty (Snapshot.regular_toJson hdistinct hmeasured) hdepth
  have hread := (Snapshot.reads_toJson hdistinct).readValue_eq
  have hform : store.snapshot.toJson = .object _ := rfl
  simp only [ofText, text, hparse]
  rw [hform] at hread ⊢
  simp only [Except.mapError, bind, Except.bind, hread, ofSnapshot_snapshot]
  rfl

theorem isLast_view_iff {views : List View} {view : View} :
    IsLast Prod.fst (views.map fun view => (view.name, view.properties))
      (view.name, view.properties) ↔ IsLast View.name views view := by
  constructor
  · rintro ⟨before, after, hsplit, hnone⟩
    obtain ⟨front, rest, rfl, rfl, hrest⟩ := List.map_eq_append_iff.1 hsplit
    obtain ⟨found, back, rfl, hfound, rfl⟩ := List.map_eq_cons_iff.1 hrest
    obtain rfl : found = view := by
      cases found
      cases view
      simpa using hfound
    exact ⟨front, back, rfl, fun later hlater => hnone _ (List.mem_map_of_mem hlater)⟩
  · rintro ⟨before, after, rfl, hnone⟩
    refine ⟨_, _, List.map_append, fun later hlater => ?_⟩
    obtain ⟨other, hother, rfl⟩ := List.mem_map.1 hlater
    exact hnone other hother

theorem keeps_views (snapshot : Snapshot) :
    Keeps View.name snapshot.views (ofSnapshot snapshot).listViews := by
  refine keeps_of_last (fun view => ?_) (ofSnapshot snapshot).pairwise_listViews
  have hmem : view ∈ (ofSnapshot snapshot).listViews ↔
      (view.name, view.properties) ∈ (ofSnapshot snapshot).views := by
    obtain ⟨name, properties⟩ := view
    simp [listViews]
  rw [hmem, ← isLast_view_iff]
  exact mem_sortedByName_iff

end Store

/-- Writing a store and reading it back changes nothing. -/
theorem reloaded_as_written :
    (∀ store : Store, store.Storable → store.snapshot.toJson.depth ≤ Json.nestingLimit →
      ∃ reloaded, Store.ofText store.text = .ok reloaded ∧ reloaded.views = store.views ∧
        reloaded.collections = store.collections ∧ reloaded.text = store.text ∧
        ∀ model settings cancelled, plan model reloaded.probe settings cancelled =
          plan model store.probe settings cancelled) ∧
    ∀ snapshot : Snapshot,
      Keeps View.name snapshot.views (Store.ofSnapshot snapshot).snapshot.views ∧
        Keeps Prod.fst snapshot.collections (Store.ofSnapshot snapshot).snapshot.collections := by
  refine ⟨fun store h hdepth => ?_, fun snapshot => ?_⟩
  · exact ⟨store, Store.ofText_text h hdepth, rfl, rfl, rfl, fun _ _ _ => rfl⟩
  · exact ⟨Store.keeps_views snapshot, keeps_sortedByName snapshot.collections⟩

def deliveriesStore : Store where
  views := [("flex_view_deliveries", deliveriesProperties)]
  collections := [("deliveries", 120)]
  views_ascending := List.pairwise_singleton _ _
  collections_ascending := List.pairwise_singleton _ _

theorem reloaded_deliveries :
    deliveriesStore.Storable ∧ deliveriesStore.snapshot.toJson.depth ≤ Json.nestingLimit ∧
      ∃ reloaded, Store.ofText deliveriesStore.text = .ok reloaded ∧
        reloaded.views = deliveriesStore.views ∧
        reloaded.collections = deliveriesStore.collections ∧
        reloaded.text = deliveriesStore.text := by
  have hstorable : deliveriesStore.Storable := by
    refine ⟨fun entry hentry => ?_, fun entry hentry => ?_, fun entry hentry => ?_⟩
    · obtain rfl := List.mem_singleton.1 hentry
      exact distinct_deliveriesProperties
    · obtain rfl := List.mem_singleton.1 hentry
      refine ⟨?_, by simp [deliveriesProperties]⟩
      rintro msec ⟨⟩
      exact ⟨0, by decide, rfl⟩
    · obtain rfl := List.mem_singleton.1 hentry
      exact ⟨120, by decide, rfl⟩
  have hdepth : deliveriesStore.snapshot.toJson.depth ≤ Json.nestingLimit := by decide
  obtain ⟨reloaded, hread, hviews, hcollections, htext, _⟩ :=
    reloaded_as_written.1 deliveriesStore hstorable hdepth
  exact ⟨hstorable, hdepth, reloaded, hread, hviews, hcollections, htext⟩

end EntitySchema.Search
