import EntitySchema.Json.Printer
import EntitySchema.Search.Plan

/-!
A store in memory: views and document counts by name, in the byte order of the names; and the text
in which it is kept in a file.
-/

namespace EntitySchema.Search

open Json (Fault Outline)
open Json.Outline

def insertSorted {α : Type} (key : String) (value : α) : Entries α → Entries α
  | [] => [(key, value)]
  | (k, v) :: rest =>
    if key = k then (key, value) :: rest
    else if key < k then (key, value) :: (k, v) :: rest
    else (k, v) :: insertSorted key value rest

/-- The names of the entries ascend, so each stands once. -/
def Ascending {α : Type} (entries : Entries α) : Prop := entries.Pairwise (·.1 < ·.1)

theorem mem_insertSorted {α : Type} {key : String} {value : α} {entries : Entries α}
    {entry : String × α} (h : entry ∈ insertSorted key value entries) :
    entry = (key, value) ∨ entry ∈ entries := by
  induction entries with
  | nil => exact .inl (List.mem_singleton.1 h)
  | cons first rest ih =>
    simp only [insertSorted] at h
    split at h
    · exact (List.mem_cons.1 h).imp_right (List.mem_cons_of_mem _)
    · split at h
      · exact List.mem_cons.1 h
      · rcases List.mem_cons.1 h with rfl | htail
        · exact .inr List.mem_cons_self
        · exact (ih htail).imp_right (List.mem_cons_of_mem _)

theorem ascending_insertSorted {α : Type} (key : String) (value : α) {entries : Entries α}
    (h : Ascending entries) : Ascending (insertSorted key value entries) := by
  induction entries with
  | nil => exact List.pairwise_singleton _ _
  | cons first rest ih =>
    obtain ⟨hfirst, hrest⟩ := List.pairwise_cons.1 h
    simp only [insertSorted]
    split
    · rename_i heq
      exact List.pairwise_cons.2 ⟨fun entry hmem => heq ▸ hfirst entry hmem, hrest⟩
    · rename_i hne
      split
      · rename_i hlt
        refine List.pairwise_cons.2 ⟨fun entry hmem => ?_, h⟩
        rcases List.mem_cons.1 hmem with rfl | htail
        · exact hlt
        · exact String.lt_trans hlt (hfirst entry htail)
      · rename_i hnlt
        refine List.pairwise_cons.2 ⟨fun entry hmem => ?_, ih hrest⟩
        rcases mem_insertSorted hmem with rfl | htail
        · have hle : first.1 ≤ key := String.not_lt.1 hnlt
          exact Decidable.byContradiction fun hge =>
            hne (String.le_antisymm (String.not_lt.1 hge) hle)
        · exact hfirst entry htail

/-- Entries whose names ascend. The byte order of texts is the order of their code points. -/
def sortedByName {α : Type} (entries : List (String × α)) : Entries α :=
  entries.foldl (fun sorted (key, value) => insertSorted key value sorted) []

theorem ascending_sortedByName {α : Type} (entries : List (String × α)) :
    Ascending (sortedByName entries) := by
  have hfold : ∀ sorted : Entries α, Ascending sorted →
      Ascending (entries.foldl (fun sorted (key, value) => insertSorted key value sorted)
        sorted) := by
    induction entries with
    | nil => exact fun _ h => h
    | cons entry rest ih => exact fun _ h => ih _ (ascending_insertSorted _ _ h)
  exact hfold [] .nil

structure Snapshot where
  views : List View := []
  collections : Entries Nat := []
  deriving DecidableEq, Repr

/-- The names of views and of collections ascend. -/
structure Store where
  views : Entries ViewProperties := []
  collections : Entries Nat := []
  views_ascending : Ascending views := by exact .nil
  collections_ascending : Ascending collections := by exact .nil
  deriving DecidableEq, Repr

namespace Store

/-- Of views of one name the last one stands. -/
def ofSnapshot (snapshot : Snapshot) : Store :=
  { views := sortedByName (snapshot.views.map fun view => (view.name, view.properties))
    collections := sortedByName snapshot.collections
    views_ascending := ascending_sortedByName _
    collections_ascending := ascending_sortedByName _ }

def listViews (store : Store) : List View :=
  store.views.map fun (name, properties) => { name, properties }

def snapshot (store : Store) : Snapshot :=
  { views := store.listViews, collections := store.collections }

def view? (store : Store) (name : String) : Option ViewProperties := store.views.get? name

def putView (store : Store) (name : String) (properties : ViewProperties) : Store :=
  { store with
    views := insertSorted name properties store.views
    views_ascending := ascending_insertSorted _ _ store.views_ascending }

def dropView (store : Store) (name : String) : Store :=
  { store with
    views := store.views.filter (·.1 ≠ name)
    views_ascending := store.views_ascending.filter _ }

def putCollection (store : Store) (name : String) (documents : Nat) : Store :=
  { store with
    collections := insertSorted name documents store.collections
    collections_ascending := ascending_insertSorted _ _ store.collections_ascending }

def apply (store : Store) : Migration → Store
  | .create change | .update change | .recreate change =>
    store.putView change.view change.properties
  | .drop view => store.dropView view

def applyAll (store : Store) (migrations : List Migration) : Store := migrations.foldl apply store

/-- Every question to a store in memory is answered. -/
def probe (store : Store) : Probe :=
  { listViews := .value store.listViews
    collectionExists := fun name => .value (store.collections.contains name)
    collectionCount := fun name =>
      match store.collections.get? name with
      | some documents => .value documents
      | none => .failure (.query "count" name "collection does not exist") }

end Store

def Snapshot.toJson (snapshot : Snapshot) : Json :=
  .object
    [("views", .array (snapshot.views.map View.toJson)),
      ("collections", .object (snapshot.collections.map fun (name, n) => (name, .nat n)))]

def Snapshot.readPart (room : Nat) (snapshot : Snapshot) (key : String) (value : Outline) :
    Except Fault Snapshot := do
  match key with
  | "views" => return { snapshot with views := ← readList View.read room value }
  | _ => return { snapshot with collections := ← readMap (fun _ => readNat) room value }

def Snapshot.read : Json.Reader Snapshot :=
  readRecord ["views", "collections"] {} Snapshot.readPart

inductive SnapshotFault where
  | unreadable (fault : Json.Fault)
  | notAnObject
  deriving DecidableEq, Repr

namespace Store

def text (store : Store) : String := store.snapshot.toJson.pretty

/-- Reads a snapshot text, which is an object: a list of the fields' values is refused. -/
def ofText (text : String) : Except SnapshotFault Store := do
  match ← (Json.parse text).mapError .unreadable with
  | .object members =>
    let snapshot ← (Json.readValue Snapshot.read (.object members)).mapError .unreadable
    return ofSnapshot snapshot
  | _ => .error .notAnObject

end Store

end EntitySchema.Search
