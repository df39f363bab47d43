import EntitySchema.Model.Basic
import EntitySchema.Names
import EntitySchema.Search.Properties
import EntitySchema.Search.Settings

/-!
The search views that a model requires, and the properties they should have. The links of a view
follow the fields of a root entity into the objects they embed; types may be recursive, so a field
stands only a limited number of times on a path of links.
-/

namespace EntitySchema

def Model.fieldIds (model : Model) : List FieldId :=
  model.types.flatMap fun type => type.fields.map (·.id)

theorem Model.mem_fieldIds {model : Model} {id : TypeId} {type : ObjectType} {field : Field}
    (htype : model.type? id = some type) (hfield : field ∈ type.fields) :
    field.id ∈ model.fieldIds :=
  List.mem_flatMap.2
    ⟨type, List.mem_of_getElem? htype, List.mem_map.2 ⟨field, hfield, rfl⟩⟩

namespace Search

structure RequiredView where
  rootEntity : TypeId
  name : String
  collection : String
  primarySort : List SortKey
  deriving DecidableEq, Repr

/-- Sorting by the identifier is sorting by the store's key. -/
def sortKey (clause : SortClause) : SortKey :=
  { field := if clause.field = Names.idField then Names.storeKeyField else clause.field
    ascending := clause.direction = .ascending }

def requiredView? (type : ObjectType) : Option RequiredView := do
  let root ← type.root
  if root.searchIndexed then
    return { rootEntity := type.id, name := viewName root.collection,
             collection := root.collection, primarySort := root.primarySort.map sortKey }
  else none

def requiredViews (model : Model) : List RequiredView :=
  model.rootEntities.filterMap requiredView?

def fieldAnalyzers (field : Field) : List String :=
  (if field.search.fulltext then field.search.language.map (·.analyzer) else none).toList ++
  (if field.search.indexed then
    [if field.search.caseSensitive then identityAnalyzer else foldingAnalyzer]
  else [])

/-- The identity analyzer alone is implicit. -/
def leafLink (field : Field) : Link :=
  let analyzers := fieldAnalyzers field
  if analyzers = [identityAnalyzer] then {} else { analyzers := some analyzers }

/-- The identifier of a root entity is linked under the store's key. -/
def linkName (model : Model) (field : Field) : String :=
  let inRoot := (model.type? field.id.type).any (·.kind = .rootEntity)
  if inRoot ∧ field.system ∧ field.name = Names.idField then Names.storeKeyField else field.name

/-- A field takes part in a view if it is indexed and stored in the document, and stands on the
path fewer than `depth` times. -/
def eligible (depth : Nat) (path : List FieldId) (field : Field) : Bool :=
  (field.search.indexed || field.search.fulltext) && !field.relation &&
    path.count field.id < depth

/-- How many fields, counted with repetition, may still follow a path. -/
def slack (ids : List FieldId) (depth : Nat) (path : List FieldId) : Nat :=
  match ids with
  | [] => 0
  | id :: rest => depth - path.count id + slack rest depth path

theorem slack_cons_le (ids : List FieldId) (depth : Nat) (path : List FieldId) (id : FieldId) :
    slack ids depth (id :: path) ≤ slack ids depth path := by
  induction ids with
  | nil => simp [slack]
  | cons other rest ih =>
    have : path.count other ≤ (id :: path).count other := List.count_le_count_cons
    simp only [slack]
    omega

theorem slack_cons_lt {ids : List FieldId} {depth : Nat} {path : List FieldId} {id : FieldId}
    (hmem : id ∈ ids) (hcount : path.count id < depth) :
    slack ids depth (id :: path) < slack ids depth path := by
  induction ids with
  | nil => simp at hmem
  | cons other rest ih =>
    have hrest := slack_cons_le rest depth path id
    have hcons : path.count other ≤ (id :: path).count other := List.count_le_count_cons
    simp only [slack]
    rcases List.mem_cons.1 hmem with rfl | htail
    · rw [List.count_cons_self]
      omega
    · have := ih htail
      omega

def links (model : Model) (depth : Nat) (path : List FieldId) (id : TypeId) : Entries Link :=
  match _htype : model.type? id with
  | none => []
  | some type =>
    Entries.collect <|
      (type.fields.filter (eligible depth path)).attach.map fun ⟨field, _hfield⟩ =>
        let link : Link :=
          match field.type with
          | .object target =>
            if field.reference then leafLink field
            else { fields := some (links model depth (field.id :: path) target) }
          | _ => leafLink field
        (linkName model field, link)
termination_by slack model.fieldIds depth path
decreasing_by
  have hmem := List.mem_filter.1 _hfield
  have hcount : path.count field.id < depth := by
    have := hmem.2
    simp only [eligible, Bool.and_eq_true, decide_eq_true_eq] at this
    exact this.2
  exact slack_cons_lt (Model.mem_fieldIds _htype hmem.1) hcount

def RequiredView.properties (view : RequiredView) (model : Model) (settings : Settings) :
    ViewProperties :=
  let link : Link :=
    { analyzers := some [identityAnalyzer]
      fields := some (links model settings.recursionDepth [] view.rootEntity)
      includeAllFields := some false
      trackListPositions := some false
      storedValues := some .identifiers }
  { links := [(view.collection, link)]
    primarySort := view.primarySort
    commitInterval := some settings.commitInterval
    consolidationInterval := some settings.consolidationInterval }

end Search

end EntitySchema
