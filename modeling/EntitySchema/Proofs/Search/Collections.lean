import EntitySchema.Proofs.Model.Resolved
import EntitySchema.Proofs.Names
import EntitySchema.Proofs.Search.Remaining

/-! # Which root entities share a collection

Resolving a declaration compares the names of types, not those of collections. Two root entities
share a collection, and with it the view over it, if their plurals differ at most in the case of the
first character. English plurals do so for some names that are different. -/
namespace EntitySchema

def TypeDecl.pluralName (type : TypeDecl) : String :=
  type.plural.getD (Names.pluralize type.name)

def TypeDecl.collection (type : TypeDecl) : String := Names.collection type.pluralName

def TypeDecl.GivesRoot (declared : TypeDecl) (type : ObjectType) : Prop :=
  type.root = some
    { plural := declared.pluralName, collection := declared.collection
      searchIndexed := declared.searchIndexed, primarySort := declared.primarySort }

namespace ModelDecl

variable {decl : ModelDecl}

def rootEntities (decl : ModelDecl) : List TypeDecl := decl.types.filter (·.kind = .rootEntity)

/-- No two root entities have plurals that are equal once both begin in lower case. -/
def PluralsDistinct (decl : ModelDecl) : Prop :=
  decl.rootEntities.Pairwise fun a b =>
    Names.decapitalize a.pluralName ≠ Names.decapitalize b.pluralName

instance : DecidablePred PluralsDistinct := fun _ => inferInstanceAs (Decidable (List.Pairwise _ _))

theorem root_of_resolveObject {id : TypeId} {declared : TypeDecl} {type : ObjectType}
    (h : decl.resolveObject id declared = .ok type) :
    type.kind = declared.kind ∧ (declared.kind = .rootEntity → declared.GivesRoot type) := by
  obtain ⟨fields, -, hrest⟩ := Results.bind_eq_ok_iff.1 h
  obtain ⟨root, hroot, htype⟩ := Results.bind_eq_ok_iff.1 hrest
  cases htype
  refine ⟨rfl, fun hkind => ?_⟩
  rw [resolveRoot, if_pos hkind] at hroot
  dsimp only at hroot
  split at hroot
  · cases hroot
  · cases hroot
    rfl

end ModelDecl

namespace Model

variable {decl : ModelDecl} {model : Model}

theorem rootEntities_of_resolve (h : Model.resolve decl = .ok model) :
    List.Forall₂ TypeDecl.GivesRoot decl.rootEntities model.rootEntities := by
  have htypes : List.Forall₂ (fun declared type => ∃ id, decl.resolveObject id declared = .ok type)
      decl.types model.types := by
    have hzip := (types_of_resolve h).imp fun entry type hresolve =>
      (⟨entry.2, hresolve⟩ : ∃ id, decl.resolveObject id entry.1 = .ok type)
    have hfst : decl.types.zipIdx.map Prod.fst = decl.types := by simp
    rw [← hfst]
    exact List.forall₂_map_left_iff.2 hzip
  apply Results.forall₂_filter htypes
  · rintro declared type ⟨id, hresolve⟩
    rw [(ModelDecl.root_of_resolveObject hresolve).1]
  · rintro declared type ⟨id, hresolve⟩ hkind
    exact (ModelDecl.root_of_resolveObject hresolve).2 (of_decide_eq_true hkind)

theorem collections_of_givesRoot {declared : List TypeDecl} {types : List ObjectType}
    (h : List.Forall₂ TypeDecl.GivesRoot declared types) :
    types.map (·.root.map (·.collection)) = declared.map fun d => some d.collection := by
  induction h with
  | nil => rfl
  | cons hfirst _ ih => rw [List.map_cons, List.map_cons, hfirst, ih, Option.map_some]

end Model

namespace Search

variable {decl : ModelDecl} {model : Model}

theorem names_of_givesRoot {declared : List TypeDecl} {types : List ObjectType}
    (h : List.Forall₂ TypeDecl.GivesRoot declared types) :
    (types.filterMap requiredView?).map (·.name) =
      (declared.filter (·.searchIndexed)).map fun d => viewName d.collection := by
  induction h with
  | nil => rfl
  | @cons first type _ _ hfirst _ ih =>
    cases hindexed : first.searchIndexed with
    | true =>
      have hview : requiredView? type = some
          { rootEntity := type.id, name := viewName first.collection,
            collection := first.collection, primarySort := first.primarySort.map sortKey } :=
        requiredView?_eq_some_iff.2 ⟨_, hfirst, hindexed, rfl⟩
      rw [List.filterMap_cons_some hview, List.filter_cons_of_pos hindexed, List.map_cons,
        List.map_cons, ih]
    | false =>
      have hview : requiredView? type = none := by
        rw [requiredView?, hfirst]
        simp [hindexed]
      rw [List.filterMap_cons_none hview, List.filter_cons_of_neg (by simp [hindexed]), ih]

theorem pairwise_collections_iff (h : Model.resolve decl = .ok model) :
    (model.rootEntities.Pairwise fun a b =>
      a.root.map (·.collection) ≠ b.root.map (·.collection)) ↔ decl.PluralsDistinct := by
  have hmap := Model.collections_of_givesRoot (Model.rootEntities_of_resolve h)
  rw [← List.pairwise_map (R := (· ≠ ·)), hmap, List.pairwise_map]
  simp only [ne_eq, Option.some.injEq]
  rfl

theorem pairwise_names_iff (h : Model.resolve decl = .ok model) :
    (requiredViews model).Pairwise (·.name ≠ ·.name) ↔
      (decl.rootEntities.filter (·.searchIndexed)).Pairwise fun a b =>
        Names.decapitalize a.pluralName ≠ Names.decapitalize b.pluralName := by
  have hmap : (requiredViews model).map (·.name) = _ :=
    names_of_givesRoot (Model.rootEntities_of_resolve h)
  rw [← List.pairwise_map (R := (· ≠ ·)), hmap, List.pairwise_map]
  refine List.Pairwise.iff fun a b => not_congr ?_
  exact ⟨fun heq => viewName_injective heq, fun heq => congrArg viewName heq⟩

/-- Each root entity has a collection of its own, and each search-indexed one a view of its own. -/
structure Separated (model : Model) : Prop where
  collections : model.rootEntities.Pairwise fun a b =>
    a.root.map (·.collection) ≠ b.root.map (·.collection)
  names : (requiredViews model).Pairwise (·.name ≠ ·.name)
  views : ∀ type ∈ model.rootEntities, type.searchIndexed = true →
    ∃ view ∈ requiredViews model, view.rootEntity = type.id ∧
      type.root.map (·.collection) = some view.collection ∧
      ∀ other ∈ requiredViews model,
        other.name = view.name ∨ other.collection = view.collection → other = view

theorem eq_of_pairwise_names (h : (requiredViews model).Pairwise (·.name ≠ ·.name))
    {view other : RequiredView} (hview : view ∈ requiredViews model)
    (hother : other ∈ requiredViews model) (hname : other.name = view.name) : other = view := by
  have hnodup : ((requiredViews model).map (·.name)).Nodup := List.pairwise_map.2 h
  exact List.inj_on_of_nodup_map hnodup hother hview hname

theorem separated_of_pluralsDistinct (h : Model.resolve decl = .ok model)
    (hplurals : decl.PluralsDistinct) : Separated model := by
  have hnames : (requiredViews model).Pairwise (·.name ≠ ·.name) :=
    (pairwise_names_iff h).2 (hplurals.sublist List.filter_sublist)
  refine ⟨(pairwise_collections_iff h).2 hplurals, hnames, ?_⟩
  intro type htype hindexed
  obtain ⟨declared, -, hroot⟩ :=
    Results.exists_of_mem_right (Model.rootEntities_of_resolve h) htype
  rw [ObjectType.searchIndexed, hroot] at hindexed
  have hview := requiredView?_eq_some_iff.2 ⟨_, hroot, hindexed, rfl⟩
  have hmem := List.mem_filterMap.2 ⟨type, htype, hview⟩
  refine ⟨_, hmem, rfl, by rw [hroot]; rfl, ?_⟩
  rintro other hother (hname | hcollection)
  · exact eq_of_pairwise_names hnames hmem hother hname
  · have hname : other.name = viewName declared.collection := by
      rw [name_of_mem_requiredViews hother, hcollection]
    exact eq_of_pairwise_names hnames hmem hother hname

/-- Root entities keep to their own collections and views exactly if no two plurals fall together,
and the views keep apart exactly if no two plurals of search-indexed root entities do. Where no plural
is declared, plurals with the same first character give one collection only to equal names and to
names that English merges. -/
theorem separated_iff_pluralsDistinct (h : Model.resolve decl = .ok model) :
    (Separated model ↔ decl.PluralsDistinct) ∧
      ((requiredViews model).Pairwise (·.name ≠ ·.name) ↔
        (decl.rootEntities.filter (·.searchIndexed)).Pairwise fun a b =>
          Names.decapitalize a.pluralName ≠ Names.decapitalize b.pluralName) ∧
      ∀ a ∈ decl.rootEntities, ∀ b ∈ decl.rootEntities, a.plural = none → b.plural = none →
        a.pluralName.toList.head? = b.pluralName.toList.head? →
        (a.collection = b.collection ↔
          a.name = b.name ∨ Names.Merges a.name b.name ∨ Names.Merges b.name a.name) := by
  refine ⟨⟨?_, separated_of_pluralsDistinct h⟩, pairwise_names_iff h, ?_⟩
  · intro hseparated
    exact (pairwise_collections_iff h).1 hseparated.collections
  · intro a _ b _ ha hb hhead
    have hcollection : a.collection = b.collection ↔ a.pluralName = b.pluralName :=
      Names.decapitalize_eq_iff_of_head hhead
    rw [hcollection, TypeDecl.pluralName, TypeDecl.pluralName, ha, hb]
    exact Names.pluralize_eq_pluralize_iff

/-- Two root entities that are told apart, one of them by its declared plural. -/
theorem separated_of_lenses :
    let decl : ModelDecl :=
      { types :=
        [{ name := "Lens", kind := .rootEntity, searchIndexed := true },
         { name := "Lense", kind := .rootEntity, plural := some "LensesOfOld" }] }
    ∃ model, Model.resolve decl = .ok model ∧ Separated model := by
  intro decl
  have hresolve : ∃ model, Model.resolve decl = .ok model := ⟨_, rfl⟩
  obtain ⟨model, h⟩ := hresolve
  have hdistinct : decl.PluralsDistinct := by decide
  exact ⟨model, h, (separated_iff_pluralsDistinct h).1.2 hdistinct⟩

/-- Two names with one plural: the entities share a collection and a view. -/
theorem lens_and_lense_share_a_view :
    let decl : ModelDecl :=
      { types :=
        [{ name := "Lens", kind := .rootEntity, searchIndexed := true },
         { name := "Lense", kind := .rootEntity, searchIndexed := true }] }
    ∃ model, Model.resolve decl = .ok model ∧
      ¬ (model.rootEntities.Pairwise fun a b =>
        a.root.map (·.collection) ≠ b.root.map (·.collection)) ∧
      ¬ (requiredViews model).Pairwise (·.name ≠ ·.name) := by
  refine ⟨_, rfl, ?_, ?_⟩
  · decide
  · decide

end Search

end EntitySchema
