import EntitySchema.Proofs.Search.Levels

/-! # The analyzers of the links in a view

A link inside a collection leads to the fields of embedded objects, or indexes a field with its
analyzers. The flags of a field decide its analyzers, and a field that is to be searched by words
but names no language gets none at all. Its link then has an empty list, not the implicit
analyzer. -/
namespace EntitySchema

/-- A field that embeds no objects and is to be searched by words, in no language, and not as a
whole. -/
structure Field.Silent (field : Field) : Prop where
  leaf : field.type.isLeaf = true ∨ field.reference = true
  fulltext : field.search.fulltext = true
  language : field.search.language = none
  indexed : field.search.indexed = false

variable {decl : ModelDecl} {model : Model}

namespace Search

namespace Link

def Nested (link : Link) : Prop := link.fields.isSome = true ∧ link.analyzers = none

def Searchable (link : Link) : Prop :=
  link.fields = none ∧
    ∀ names, link.analyzers = some names → names ≠ [] ∧ names ≠ [identityAnalyzer]

/-- Every link inside the link of a collection leads to fields or can be searched. -/
def CoversFields (link : Link) : Prop :=
  ∀ names inner, names ≠ [] → link.along? names = some inner → inner.Nested ∨ inner.Searchable

end Link

variable {depth : Nat} {path : List FieldId} {type : ObjectType} {link : Link} {field : Field}

theorem fieldAnalyzers_eq_nil_iff : fieldAnalyzers field = [] ↔ field.search.indexed = false ∧
    (field.search.fulltext = false ∨ field.search.language = none) := by
  rw [fieldAnalyzers]
  cases field.search.indexed <;> cases field.search.fulltext <;> simp

theorem searchable_leafLink_iff : (leafLink field).Searchable ↔ fieldAnalyzers field ≠ [] := by
  simp only [leafLink, Link.Searchable]
  split_ifs with hidentity
  · simp [hidentity]
  · simp [hidentity]

theorem fieldLink_cases (model : Model) (depth : Nat) (path : List FieldId) (field : Field) :
    (fieldLink model depth path field).Nested ∧
        ¬ (field.type.isLeaf = true ∨ field.reference = true) ∨
      fieldLink model depth path field = leafLink field ∧
        (field.type.isLeaf = true ∨ field.reference = true) := by
  cases htype : field.type <;> cases hreference : field.reference <;>
    simp [fieldLink, htype, hreference, Link.Nested, FieldType.isLeaf]

/-- The link of a linked field is as it should be unless the field is silent. -/
theorem nested_or_searchable_iff (hlinked : field.Linked) :
    (fieldLink model depth path field).Nested ∨ (fieldLink model depth path field).Searchable ↔
      ¬ field.Silent := by
  rcases fieldLink_cases model depth path field with ⟨hnested, hembeds⟩ | ⟨hlink, hleaf⟩
  · exact iff_of_true (.inl hnested) fun hsilent => hembeds hsilent.leaf
  · have hfields : ¬ (leafLink field).Nested := by
      simp only [Link.Nested, leafLink]
      split <;> simp
    rw [hlink, or_iff_right hfields, searchable_leafLink_iff, ne_eq, fieldAnalyzers_eq_nil_iff,
      not_iff_not]
    constructor
    · rintro ⟨hindexed, hwords⟩
      have hfulltext : field.search.fulltext = true := by simpa [hindexed] using hlinked.1
      exact ⟨hleaf, hfulltext, by simpa [hfulltext] using hwords, hindexed⟩
    · rintro ⟨-, -, hlanguage, hindexed⟩
      exact ⟨hindexed, .inr hlanguage⟩

theorem coversFields_iff_of_link (hresolve : Model.resolve decl = .ok model)
    (htype : type ∈ model.rootEntities)
    (hlink : link.fields = some (links model depth [] type.id)) :
    link.CoversFields ↔ ∀ route owner, Leads model type route owner →
      ∀ field ∈ owner.fields, Permitted depth [] (route ++ [field]) → ¬ field.Silent := by
  have hat := Model.type?_id_of_mem hresolve (List.mem_filter.1 htype).1
  constructor
  · intro hcovers route owner hleads field hfield hpermitted hsilent
    obtain ⟨ownerId, howner⟩ := hleads.exists_type? ⟨_, hat⟩
    obtain ⟨_, -, hresolved⟩ := Model.resolved_type hresolve howner
    have hdeclared := hresolved.system_of_fulltext hfield hsilent.fulltext
    have halong := along?_of_leads hresolve hat hlink hleads hfield hdeclared hpermitted
    have hlinked := hpermitted.linked field (List.mem_append_right _ List.mem_cons_self)
    exact (nested_or_searchable_iff hlinked).1 (hcovers _ _ (by simp) halong) hsilent
  · intro hloud names inner hnames halong
    obtain ⟨name, rest, rfl⟩ := List.exists_cons_of_ne_nil hnames
    obtain ⟨route, owner, field, hleads, hfield, hpermitted, -, rfl⟩ :=
      exists_leads_of_along? hresolve hat hlink halong
    have hlinked := hpermitted.linked field (List.mem_append_right _ List.mem_cons_self)
    exact (nested_or_searchable_iff hlinked).2 (hloud route owner hleads field hfield hpermitted)

/-- In the view of a search-indexed root entity every link inside the collection leads to fields or
can be searched, exactly if none of the fields that are linked there is silent. -/
theorem coversFields_iff (hresolve : Model.resolve decl = .ok model)
    (htype : type ∈ model.rootEntities) (hindexed : type.searchIndexed = true)
    (settings : Settings) :
    ∃ view ∈ requiredViews model, requiredView? type = some view ∧
      ∃ link, (view.properties model settings).links = [(view.collection, link)] ∧
        (link.CoversFields ↔ ∀ route owner, Leads model type route owner →
          ∀ field ∈ owner.fields, Permitted settings.recursionDepth [] (route ++ [field]) →
            ¬ field.Silent) := by
  obtain ⟨view, hview, hrequired, link, hlinks, hfields⟩ :=
    exists_collectionLink hresolve htype hindexed settings
  exact ⟨view, hview, hrequired, link, hlinks, coversFields_iff_of_link hresolve htype hfields⟩

/-- Deliveries are described in English, letter by letter, and lead to the cities of addresses. -/
theorem coversFields_of_deliveries :
    let description : FieldDecl :=
      { name := "description", typeName := "String", indexed := true, fulltext := true
        caseSensitive := true, language := some .en }
    let address : FieldDecl := { name := "address", typeName := "Address", indexed := true }
    let city : FieldDecl :=
      { name := "city", typeName := "String", fulltext := true, language := some .de }
    let decl : ModelDecl :=
      { types :=
        [{ name := "Delivery", kind := .rootEntity, fields := [description, address]
           searchIndexed := true },
         { name := "Address", kind := .valueObject, fields := [city] }] }
    ∃ model, Model.resolve decl = .ok model ∧ ∃ type ∈ model.rootEntities,
      ∃ view ∈ requiredViews model, requiredView? type = some view ∧
        ∃ link, (view.properties model {}).links = [(view.collection, link)] ∧
          link.CoversFields := by
  intro description address city decl
  obtain ⟨model, hresolve, type, htype, hindexed, hlanguages⟩ :
      ∃ model, Model.resolve decl = .ok model ∧ ∃ type ∈ model.rootEntities,
        type.searchIndexed = true ∧ ∀ type ∈ model.types, ∀ field ∈ type.fields,
          field.search.fulltext = true → field.search.language ≠ none :=
    ⟨_, rfl, _, List.mem_cons_self, rfl, by decide⟩
  obtain ⟨view, hview, hrequired, link, hlinks, hcovers⟩ :=
    coversFields_iff hresolve htype hindexed {}
  refine ⟨model, hresolve, type, htype, view, hview, hrequired, link, hlinks, hcovers.2 ?_⟩
  intro route owner hleads field hfield _ hsilent
  have hat := Model.type?_id_of_mem hresolve (List.mem_filter.1 htype).1
  obtain ⟨_, howner⟩ := hleads.exists_type? ⟨_, hat⟩
  exact hlanguages owner (List.mem_of_getElem? howner) field hfield hsilent.fulltext
    hsilent.language

/-- Notes that are to be searched by words, in no language, are linked without any analyzer. -/
theorem notes_of_orders_are_silent :
    let notes : FieldDecl := { name := "notes", typeName := "String", fulltext := true }
    let decl : ModelDecl :=
      { types :=
        [{ name := "Order", kind := .rootEntity, fields := [notes], searchIndexed := true }] }
    ∃ model, Model.resolve decl = .ok model ∧ ∃ type ∈ model.rootEntities,
      ∃ view ∈ requiredViews model, requiredView? type = some view ∧
        ∃ link, (view.properties model {}).links = [(view.collection, link)] ∧
          link.along? ["notes"] = some { analyzers := some [] } ∧ ¬ link.CoversFields := by
  intro notes decl
  obtain ⟨model, hresolve, type, htype, hindexed, field, hfield, hname, hdeclared, heligible,
      hlink⟩ :
      ∃ model, Model.resolve decl = .ok model ∧ ∃ type ∈ model.rootEntities,
        type.searchIndexed = true ∧ ∃ field ∈ type.fields, linkName model field = "notes" ∧
          field.system = false ∧ eligible 1 [] field = true ∧
          fieldLink model 1 [] field = { analyzers := some [] } :=
    ⟨_, rfl, _, List.mem_cons_self, rfl, _, List.mem_of_getElem? (i := 3) rfl, rfl, rfl, rfl, rfl⟩
  obtain ⟨view, hview, hrequired, link, hlinks, hfields⟩ :=
    exists_collectionLink hresolve htype hindexed {}
  have hat := Model.type?_id_of_mem hresolve (List.mem_filter.1 htype).1
  have halong := along?_of_leads hresolve hat hfields (.nil type) hfield hdeclared
    (permitted_cons.2 ⟨heligible, permitted_nil⟩)
  rw [List.nil_append, List.map_singleton, hname] at halong
  rw [List.map_nil, List.reverse_nil, List.nil_append, hlink] at halong
  refine ⟨model, hresolve, type, htype, view, hview, hrequired, link, hlinks, halong, ?_⟩
  intro hcovers
  rcases hcovers _ _ (List.cons_ne_nil _ _) halong with ⟨hnested, -⟩ | ⟨-, hsearchable⟩
  · cases hnested
  · exact (hsearchable [] rfl).1 rfl

end Search

end EntitySchema
