import EntitySchema.Proofs.Entries
import EntitySchema.Search.Store

/-! # Applying migrations to a store in memory

A migration decides what is stored under its own view name and touches nothing else; after a run
each view name holds what some migration of that name left, or what it held before. -/
namespace EntitySchema.Search

variable {α : Type}

theorem Ascending.nodup_keys {entries : Entries α} (h : Ascending entries) :
    (Entries.keys entries).Nodup := by
  refine List.pairwise_map.2 (h.imp fun hlt heq => ?_)
  exact String.lt_irrefl _ (heq ▸ hlt)

theorem get?_insertSorted (key : String) (value : α) {entries : Entries α}
    (h : Ascending entries) (name : String) :
    Entries.get? (insertSorted key value entries) name =
      if key = name then some value else Entries.get? entries name := by
  induction entries with
  | nil => simp [insertSorted, Entries.get?_cons]
  | cons first rest ih =>
    obtain ⟨k, v⟩ := first
    have hrest : Ascending rest := (List.pairwise_cons.1 h).2
    simp only [insertSorted]
    split
    · rename_i heq
      subst heq
      by_cases hname : key = name <;> simp [Entries.get?_cons, hname]
    · rename_i hne
      split
      · simp [Entries.get?_cons]
      · by_cases hk : k = name
        · subst hk
          simp [Entries.get?_cons, hne]
        · simp [Entries.get?_cons, hk, ih hrest]

theorem get?_filter_ne (entries : Entries α) (name other : String) :
    Entries.get? (entries.filter (·.1 ≠ name)) other =
      if name = other then none else Entries.get? entries other := by
  induction entries with
  | nil => simp
  | cons first rest ih =>
    obtain ⟨k, v⟩ := first
    by_cases hk : k = name
    · subst hk
      by_cases hother : k = other <;> simp_all [Entries.get?_cons]
    · by_cases hother : k = other
      · subst hother
        simp [Entries.get?_cons, hk, Ne.symm hk]
      · simp_all [Entries.get?_cons]

def Migration.outcome : Migration → Option ViewProperties
  | .create change | .update change | .recreate change => some change.properties
  | .drop _ => none

namespace Store

theorem view?_putView (store : Store) (name other : String) (properties : ViewProperties) :
    (store.putView name properties).view? other =
      if name = other then some properties else store.view? other :=
  get?_insertSorted name properties store.views_ascending other

theorem view?_dropView (store : Store) (name other : String) :
    (store.dropView name).view? other = if name = other then none else store.view? other :=
  get?_filter_ne store.views name other

theorem view?_apply (store : Store) (migration : Migration) (name : String) :
    (store.apply migration).view? name =
      if migration.view = name then migration.outcome else store.view? name := by
  cases migration with
  | create change => exact store.view?_putView _ _ _
  | drop view => exact store.view?_dropView _ _
  | update change => exact store.view?_putView _ _ _
  | recreate change => exact store.view?_putView _ _ _

@[simp] theorem collections_apply (store : Store) (migration : Migration) :
    (store.apply migration).collections = store.collections := by
  cases migration <;> rfl

@[simp] theorem collections_applyAll (store : Store) (migrations : List Migration) :
    (store.applyAll migrations).collections = store.collections := by
  simp only [applyAll]
  induction migrations generalizing store with
  | nil => rfl
  | cons migration rest ih => rw [List.foldl_cons, ih, collections_apply]

/-- The last migration of a name decides; without one the view is as before. -/
theorem view?_applyAll (store : Store) (migrations : List Migration) (name : String) :
    (∃ migration ∈ migrations, migration.view = name ∧
        (store.applyAll migrations).view? name = migration.outcome) ∨
      (∀ migration ∈ migrations, migration.view ≠ name) ∧
        (store.applyAll migrations).view? name = store.view? name := by
  simp only [applyAll]
  induction migrations generalizing store with
  | nil => exact .inr ⟨fun _ h => absurd h List.not_mem_nil, rfl⟩
  | cons first rest ih =>
    rw [List.foldl_cons]
    rcases ih (store.apply first) with ⟨migration, hmem, hview, hget⟩ | ⟨hother, hget⟩
    · exact .inl ⟨migration, List.mem_cons_of_mem _ hmem, hview, hget⟩
    · rw [hget, view?_apply]
      by_cases hfirst : first.view = name
      · exact .inl ⟨first, List.mem_cons_self, hfirst, if_pos hfirst⟩
      · refine .inr ⟨fun migration hmem => ?_, if_neg hfirst⟩
        rcases List.mem_cons.1 hmem with rfl | hrest
        · exact hfirst
        · exact hother migration hrest

theorem mem_listViews {store : Store} {view : View} :
    view ∈ store.listViews ↔ store.view? view.name = some view.properties := by
  obtain ⟨name, properties⟩ := view
  rw [view?, ← Entries.mem_iff_get? store.views_ascending.nodup_keys]
  simp [listViews]

theorem exists_listViews {store : Store} {name : String} :
    (∃ view ∈ store.listViews, view.name = name) ↔ (store.view? name).isSome := by
  constructor
  · rintro ⟨view, hmem, rfl⟩
    simp [mem_listViews.1 hmem]
  · intro h
    obtain ⟨properties, hget⟩ := Option.isSome_iff_exists.1 h
    exact ⟨⟨name, properties⟩, mem_listViews.2 hget, rfl⟩

theorem pairwise_listViews (store : Store) :
    store.listViews.Pairwise (·.name < ·.name) := by
  simp only [listViews, List.pairwise_map]
  exact store.views_ascending

end Store

end EntitySchema.Search
