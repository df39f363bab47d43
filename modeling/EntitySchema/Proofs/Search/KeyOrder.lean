import EntitySchema.Model.Resolve
import EntitySchema.Proofs.Results
import EntitySchema.Proofs.Search.Planning

/-! # The order of names in the links that a store reports

A store may report the maps of its links in any order. Two links are rearrangements of one another
if at every depth their maps have the same names, with links under each name that are so again. This
is an equivalence, and it is what planning compares: where a link has each name once, at every depth,
the links that equal it are its rearrangements. So two stores whose views are rearranged get the same
plan. -/
namespace EntitySchema.Search

namespace Link

/-- Links that differ at most in the order of the names in their maps, at any depth. -/
inductive Rearranged : Link → Link → Prop
  | leaf {link : Link} (h : link.fields = none) : Rearranged link link
  | nested {link : Link} {fields others : Entries Link} (h : link.fields = some fields)
      (names : (Entries.keys fields).Perm (Entries.keys others))
      (links : ∀ name inner other, Entries.get? fields name = some inner →
        Entries.get? others name = some other → Rearranged inner other) :
      Rearranged link { link with fields := some others }

variable {link other third : Link}

theorem Rearranged.symm (h : link.Rearranged other) : other.Rearranged link := by
  induction h with
  | leaf h => exact .leaf h
  | @nested link fields others h names _ ih =>
    have hback : Rearranged { link with fields := some others }
        { link with fields := some fields } :=
      .nested rfl names.symm fun name inner other hinner hother => ih name other inner hother hinner
    rwa [← eq_with_fields h] at hback

/-- By induction on the left pair; what stands between has each name that the outer maps have. -/
theorem Rearranged.trans (h : link.Rearranged other) (h' : other.Rearranged third) :
    link.Rearranged third := by
  induction h generalizing third with
  | leaf => exact h'
  | @nested link fields others hfields names _ ih =>
    cases h' with
    | leaf hnone => cases hnone
    | @nested _ _ last hothers names' links' =>
      cases hothers
      refine .nested hfields (names.trans names') fun name inner outer hinner houter => ?_
      have hname : name ∈ Entries.keys others :=
        names.mem_iff.1 (Entries.mem_keys_iff.2 ⟨inner, hinner⟩)
      obtain ⟨middle, hmiddle⟩ := Entries.mem_keys_iff.1 hname
      exact ih name inner middle hinner hmiddle (links' name middle outer hmiddle houter)

theorem same_iff_sameFields :
    link.same other ↔ other = { link with fields := other.fields } ∧
      sameFields link.fields other.fields := by
  obtain ⟨analyzers, fields, includeAll, trackPositions, stored⟩ := link
  obtain ⟨analyzers', fields', includeAll', trackPositions', stored'⟩ := other
  simp only [same, Bool.and_eq_true, decide_eq_true_eq, Link.mk.injEq, true_and]
  constructor
  · rintro ⟨⟨⟨⟨rfl, hfields⟩, rfl⟩, rfl⟩, rfl⟩
    exact ⟨⟨rfl, rfl, rfl, rfl⟩, hfields⟩
  · rintro ⟨⟨rfl, rfl, rfl, rfl⟩, hfields⟩
    exact ⟨⟨⟨⟨rfl, hfields⟩, rfl⟩, rfl⟩, rfl⟩

/-- A link that has each name once is the same as its rearrangements and as no other link. By
induction on the depth of the link: its maps are paired name by name. -/
theorem same_iff_rearranged (h : link.Distinct) : link.same other ↔ link.Rearranged other := by
  induction h generalizing other with
  | @leaf link hnone =>
    rw [same_iff_sameFields, hnone]
    constructor
    · rintro ⟨hother, hfields⟩
      have hsame : other.fields = link.fields := by
        rw [hnone]
        simpa [sameFields] using hfields
      rw [hother, hsame, ← eq_with_fields rfl]
      exact .leaf hnone
    · intro hrearranged
      cases hrearranged with
      | leaf => exact ⟨eq_with_fields rfl, by simp [hnone, sameFields]⟩
      | nested hsome => rw [hnone] at hsome; cases hsome
  | @nested link fields hsome hnames _ ih =>
    rw [same_iff_sameFields, hsome]
    constructor
    · rintro ⟨hother, hfields⟩
      cases hothers : other.fields with
      | none => rw [hothers] at hfields; cases hfields
      | some others =>
        rw [hothers] at hother hfields
        have hpaired := sameFields_iff_paired.1 hfields
        rw [hother]
        refine .nested hsome (hpaired.perm_keys hnames) fun name inner outer hinner houter => ?_
        have hmem := Entries.get?_mem hinner
        obtain ⟨partner, hpartner, hsame⟩ := hpaired.2 _ hmem
        obtain rfl : partner = outer := Option.some.inj (hpartner.symm.trans houter)
        exact (ih _ hmem).1 hsame
    · intro hrearranged
      cases hrearranged with
      | leaf hnone => rw [hsome] at hnone; cases hnone
      | @nested _ _ others hfields names links =>
        cases hsome.symm.trans hfields
        refine ⟨rfl, sameFields_iff_paired.2 ⟨by simpa [Entries.keys] using names.length_eq, ?_⟩⟩
        rintro ⟨name, inner⟩ hmem
        have hinner : Entries.get? fields name = some inner :=
          (Entries.mem_iff_get? hnames).1 hmem
        have hname : name ∈ Entries.keys others :=
          names.mem_iff.1 (Entries.mem_keys_iff.2 ⟨inner, hinner⟩)
        obtain ⟨outer, houter⟩ := Entries.mem_keys_iff.1 hname
        exact ⟨outer, houter, (ih _ hmem).2 (links name inner outer hinner houter)⟩

end Link

namespace ViewProperties

/-- The properties agree in all that planning compares, up to the order of the names in the maps of
links. The collections stand in a map of links like the fields of a link. -/
structure Rearranged (properties other : ViewProperties) : Prop where
  links : Link.Rearranged { fields := some properties.links } { fields := some other.links }
  primarySort : properties.primarySort = other.primarySort
  commitInterval : properties.commitInterval = other.commitInterval

theorem Rearranged.symm {properties other : ViewProperties} (h : properties.Rearranged other) :
    other.Rearranged properties :=
  ⟨h.links.symm, h.primarySort.symm, h.commitInterval.symm⟩

theorem Rearranged.trans {properties other third : ViewProperties}
    (h : properties.Rearranged other) (h' : other.Rearranged third) :
    properties.Rearranged third :=
  ⟨h.links.trans h'.links, h.primarySort.trans h'.primarySort,
    h.commitInterval.trans h'.commitInterval⟩

end ViewProperties

variable {model : Model} {settings : Settings}

/-- An existing view passes for the required one exactly if it is a rearrangement of it. -/
theorem RequiredView.agrees_iff_rearranged (view : RequiredView) {existing : ViewProperties} :
    (view.properties model settings).agrees existing ↔
      (view.properties model settings).Rearranged existing := by
  have hcollection : ∀ entry ∈ (view.properties model settings).links, entry.2.Distinct := by
    intro entry hentry
    obtain rfl := List.mem_singleton.1 hentry
    exact .nested rfl (nodup_keys_links _ _ _ _) (distinct_links _ _ _ _)
  have hdistinct : Link.Distinct { fields := some (view.properties model settings).links } :=
    .nested rfl (List.nodup_singleton _) hcollection
  have hlinks : (view.properties model settings).sameLinks existing ↔
      Link.Rearranged { fields := some (view.properties model settings).links }
        { fields := some existing.links } := by
    rw [← Link.same_iff_rearranged hdistinct, Link.same_iff_sameFields]
    simp [ViewProperties.sameLinks]
  simp only [ViewProperties.agrees, Bool.and_eq_true, decide_eq_true_eq, hlinks]
  constructor
  · rintro ⟨⟨hsame, hsort⟩, hinterval⟩
    exact ⟨hsame, hsort, hinterval⟩
  · rintro ⟨hsame, hsort, hinterval⟩
    exact ⟨⟨hsame, hsort⟩, hinterval⟩

namespace View

structure Rearranged (view other : View) : Prop where
  name : view.name = other.name
  properties : view.properties.Rearranged other.properties

theorem Rearranged.outdated?_eq {view other : View} (h : view.Rearranged other) :
    outdated? model (requiredViews model) settings view =
      outdated? model (requiredViews model) settings other := by
  have hagrees (wanted : RequiredView) :
      (wanted.properties model settings).agrees view.properties =
        (wanted.properties model settings).agrees other.properties := by
    rw [Bool.eq_iff_iff, wanted.agrees_iff_rearranged, wanted.agrees_iff_rearranged]
    exact ⟨fun hview => hview.trans h.properties, fun hother => hother.trans h.properties.symm⟩
  have hrecreation (wanted : RequiredView) :
      (wanted.properties model settings).needsRecreation view.properties =
        (wanted.properties model settings).needsRecreation other.properties := by
    simp only [ViewProperties.needsRecreation, h.properties.primarySort]
  simp only [outdated?, h.name, hagrees, hrecreation]

end View

namespace Store

structure Rearranged (store other : Store) : Prop where
  collections : store.collections = other.collections
  names : Entries.keys store.views = Entries.keys other.views
  views : ∀ name properties properties', store.view? name = some properties →
    other.view? name = some properties' → properties.Rearranged properties'

variable {store other : Store}

theorem names_listViews (store : Store) :
    store.listViews.map (·.name) = Entries.keys store.views := by
  rw [listViews, List.map_map]
  rfl

theorem Rearranged.isNone_view? (h : store.Rearranged other) (name : String) :
    (store.view? name).isNone = (other.view? name).isNone := by
  rw [Bool.eq_iff_iff, Option.isNone_iff_eq_none, Option.isNone_iff_eq_none, view?, view?,
    Entries.get?_eq_none_iff, Entries.get?_eq_none_iff, h.names]

/-- The stores list views that belong together at the same places. -/
theorem Rearranged.listViews (h : store.Rearranged other) :
    List.Forall₂ View.Rearranged store.listViews other.listViews := by
  have hnames : store.listViews.map (·.name) = other.listViews.map (·.name) := by
    rw [names_listViews, names_listViews, h.names]
  have hlength := congrArg List.length hnames
  rw [List.length_map, List.length_map] at hlength
  refine List.forall₂_iff_get.2 ⟨hlength, fun i hi hi' => ?_⟩
  have hname : (store.listViews.get ⟨i, hi⟩).name = (other.listViews.get ⟨i, hi'⟩).name := by
    have hat := congrArg (·[i]?) hnames
    simpa [List.getElem?_eq_getElem hi, List.getElem?_eq_getElem hi'] using hat
  have hview := mem_listViews.1 (List.get_mem store.listViews ⟨i, hi⟩)
  have hother := mem_listViews.1 (List.get_mem other.listViews ⟨i, hi'⟩)
  rw [← hname] at hother
  exact ⟨hname, h.views _ _ _ hview hother⟩

theorem Rearranged.created_eq (h : store.Rearranged other) :
    store.created model settings = other.created model settings := by
  simp only [created, change, h.isNone_view?, h.collections]

/-- What is dropped is told by the names of the views alone. -/
theorem Rearranged.drops_eq (h : store.Rearranged other) (required : List RequiredView) :
    drops store.listViews required = drops other.listViews required := by
  have hdrops (existing : List View) : drops existing required =
      ((existing.map (·.name)).filter fun name =>
        name.startsWith reservedPrefix && !required.any (·.name == name)).map .drop := by
    rw [drops, List.filter_map, List.map_map]
    rfl
  rw [hdrops, hdrops, names_listViews, names_listViews, h.names]

theorem Rearranged.corrected_eq (h : store.Rearranged other) :
    store.corrected model settings = other.corrected model settings := by
  have houtdated : store.listViews.map (outdated? model (requiredViews model) settings) =
      other.listViews.map (outdated? model (requiredViews model) settings) :=
    (Results.map_eq_map_of_forall₂ h.listViews fun _ _ hview => hview.outdated?_eq.symm).symm
  have hfound (existing : List View) :
      existing.filterMap (outdated? model (requiredViews model) settings) =
        (existing.map (outdated? model (requiredViews model) settings)).filterMap id := by
    rw [List.filterMap_map]
    rfl
  simp only [corrected, hfound, houtdated, change, h.collections]

/-- Stores whose views differ in the order of names, and in how often they are consolidated, get one
plan. Planning takes exactly the rearrangements of a required view for it, so that the order of
analyzers and of sort keys counts. -/
theorem plan_of_rearranged (h : store.Rearranged other) (hvalid : settings.validate = .ok ()) :
    (∃ migrations, plan model store.probe settings false = .ok migrations ∧
      plan model other.probe settings false = .ok migrations) ∧
    ∀ view ∈ requiredViews model, ∀ existing,
      (view.properties model settings).agrees existing ↔
        (view.properties model settings).Rearranged existing := by
  refine ⟨⟨store.steps model settings, plan_probe store model hvalid, ?_⟩,
    fun view _ existing => view.agrees_iff_rearranged⟩
  rw [steps, h.created_eq, h.drops_eq, h.corrected_eq]
  exact plan_probe other model hvalid

/-- One of two stores reports the fields of deliveries and those of addresses the other way round,
and consolidates more often. Both get the plan of deliveries. -/
theorem plan_of_rearranged_deliveries :
    let street : FieldDecl := { name := "street", typeName := "String", indexed := true }
    let address : FieldDecl := { name := "address", typeName := "Address", indexed := true }
    let decl : ModelDecl :=
      { types :=
        [{ name := "Delivery", kind := .rootEntity, fields := [address], searchIndexed := true },
         { name := "Address", kind := .valueObject, fields := [street] }] }
    let properties : ViewProperties :=
      { links := [("deliveries",
          { fields := some [("_key", { analyzers := some ["norm_ci"] }),
              ("address", { fields := some [("city", {}), ("street", {})] })] })] }
    let turned : ViewProperties :=
      { links := [("deliveries",
          { fields := some [("address", { fields := some [("street", {}), ("city", {})] }),
              ("_key", { analyzers := some ["norm_ci"] })] })]
        consolidationInterval := some 10 }
    let store (properties : ViewProperties) : Store :=
      { views := [("flex_view_deliveries", properties)], collections := [("deliveries", 120)]
        views_ascending := List.pairwise_singleton _ _
        collections_ascending := List.pairwise_singleton _ _ }
    ∃ model, Model.resolve decl = .ok model ∧ (store properties).Rearranged (store turned) ∧
      ∃ migrations, plan model (store properties).probe {} false = .ok migrations ∧
        plan model (store turned).probe {} false = .ok migrations := by
  intro street address decl properties turned store
  obtain ⟨model, hresolve⟩ : ∃ model, Model.resolve decl = .ok model := ⟨_, rfl⟩
  have hdistinct : Link.Distinct { fields := some properties.links } := by
    refine .nested rfl (by decide) fun collection hcollection => ?_
    obtain rfl := List.mem_singleton.1 hcollection
    refine .nested rfl (by decide) fun field hfield => ?_
    simp only [List.mem_cons, List.not_mem_nil, or_false] at hfield
    rcases hfield with rfl | rfl
    · exact .leaf rfl
    · refine .nested rfl (by decide) fun part hpart => ?_
      simp only [List.mem_cons, List.not_mem_nil, or_false] at hpart
      rcases hpart with rfl | rfl <;> exact .leaf rfl
  have hlinks : Link.Rearranged { fields := some properties.links }
      { fields := some turned.links } := (Link.same_iff_rearranged hdistinct).1 rfl
  have hstores : (store properties).Rearranged (store turned) := by
    refine ⟨rfl, rfl, fun name found found' hfound hfound' => ?_⟩
    cases List.mem_singleton.1 (Entries.get?_mem hfound)
    cases List.mem_singleton.1 (Entries.get?_mem hfound')
    exact ⟨hlinks, rfl, rfl⟩
  exact ⟨model, hresolve, hstores, (plan_of_rearranged hstores rfl).1⟩

end Store

end EntitySchema.Search
