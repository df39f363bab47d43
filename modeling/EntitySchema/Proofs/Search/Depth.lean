import EntitySchema.Proofs.Search.Levels

/-! # The links of a view at different recursion depths

The recursion depth says how often a field may stand on a path of links. More paths are there when
it is raised, and those that were there before lead to links with the same options. Where no path
meets a field twice, there is nothing to cut off, and a view has the same properties at every
depth. -/
namespace EntitySchema

/-- No route of linked fields from an object type meets a field twice. -/
def Unrepeated (model : Model) (type : ObjectType) : Prop :=
  ∀ route, Route model type route → (∀ field ∈ route, field.Linked) → (route.map (·.id)).Nodup

variable {decl : ModelDecl} {model : Model}

namespace Search

/-- Names that lead to a link here lead to one there with the same options, the analyzers among
them. The link there has nested links if the one here has some, possibly more. -/
def Link.Within (link other : Link) : Prop :=
  ∀ names inner, link.along? names = some inner →
    ∃ fields, other.along? names = some { inner with fields } ∧
      fields.isSome = inner.fields.isSome

theorem Link.within_refl (link : Link) : link.Within link := by
  intro names inner hinner
  refine ⟨inner.fields, ?_, rfl⟩
  rwa [← Link.eq_with_fields rfl]

variable {depth deeper : Nat} {path : List FieldId} {id : TypeId} {type : ObjectType}

theorem eligible_of_le (hle : depth ≤ deeper) {field : Field}
    (h : eligible depth path field = true) : eligible deeper path field = true := by
  rw [eligible_iff] at h ⊢
  exact ⟨h.1, by omega⟩

/-- Where no link has been followed yet, the depth does not matter. -/
theorem eligible_start (hpos : 0 < depth) (hle : depth ≤ deeper) (field : Field) :
    eligible deeper [] field = eligible depth [] field := by
  rw [Bool.eq_iff_iff, eligible_iff, eligible_iff, List.count_nil]
  constructor
  · rintro ⟨hlinked, -⟩
    exact ⟨hlinked, hpos⟩
  · rintro ⟨hlinked, -⟩
    exact ⟨hlinked, by omega⟩

/-! ### Which field a name is linked to -/

/-- The field whose link a name leads to, behind a path: of several the last one. -/
def linkedField? (model : Model) (depth : Nat) (path : List FieldId) (type : ObjectType)
    (name : String) : Option Field :=
  (type.fields.filter (eligible depth path)).reverse.find? (linkName model · == name)

theorem get?_links (htype : model.type? id = some type) (name : String) :
    (links model depth path id).get? name =
      (linkedField? model depth path type name).map (fieldLink model depth path) := by
  rw [links_of_some htype, Entries.get?_collect, ← List.map_reverse, Entries.get?, List.find?_map,
    Option.map_map]
  rfl

theorem mem_of_linkedField? {name : String} {field : Field}
    (h : linkedField? model depth path type name = some field) :
    field ∈ type.fields ∧ eligible depth path field = true ∧ linkName model field = name := by
  have hmem := List.mem_of_find?_eq_some h
  rw [List.mem_reverse, List.mem_filter] at hmem
  exact ⟨hmem.1, hmem.2, by simpa using List.find?_some h⟩

/-- Fields that become eligible take no name away. At the first level there are none, and below it
the names of all fields are distinct. -/
theorem linkedField?_deeper (hresolve : Model.resolve decl = .ok model)
    (htype : model.type? id = some type) (hlevel : path = [] ∨ type.kind ≠ .rootEntity)
    (hpos : 0 < depth) (hle : depth ≤ deeper) {name : String} {field : Field}
    (h : linkedField? model depth path type name = some field) :
    linkedField? model deeper path type name = some field := by
  rcases hlevel with rfl | hkind
  · have hsame : eligible deeper [] = eligible depth [] := funext (eligible_start hpos hle)
    rw [linkedField?, hsame]
    exact h
  · obtain ⟨hfield, heligible, hname⟩ := mem_of_linkedField? h
    have hmem : field ∈ (type.fields.filter (eligible deeper path)).reverse :=
      List.mem_reverse.2 (List.mem_filter.2 ⟨hfield, eligible_of_le hle heligible⟩)
    have hsome : (linkedField? model deeper path type name).isSome = true :=
      List.find?_isSome.2 ⟨field, hmem, by simpa using hname⟩
    obtain ⟨found, hfound⟩ := Option.isSome_iff_exists.1 hsome
    obtain ⟨-, -, hfoundName⟩ := mem_of_linkedField? hfound
    have hnames : ((type.fields.filter (eligible deeper path)).map (linkName model)).Nodup :=
      nodup_linkNames hresolve htype (.inl hkind)
    have hsame : found = field :=
      List.inj_on_of_nodup_map hnames (List.mem_reverse.1 (List.mem_of_find?_eq_some hfound))
        (List.mem_reverse.1 hmem) (hfoundName.trans hname.symm)
    rw [hfound, hsame]

/-- The link of a field leads to the fields of the embedded type, or does not depend on the path. -/
theorem fieldLink_embedded_or_leaf (model : Model) (field : Field) :
    (∃ target, field.type = .object target ∧ field.reference = false ∧ ∀ depth path,
      fieldLink model depth path field =
        { fields := some (links model depth (field.id :: path) target) }) ∨
      ∀ depth path, fieldLink model depth path field = leafLink field := by
  cases htype : field.type <;> cases hreference : field.reference <;> simp [fieldLink, *]

/-! ### Paths at a greater depth -/

/-- By induction on the names: behind the first of them stand the links of an embedded type, which
is no root entity. -/
theorem within_links (hresolve : Model.resolve decl = .ok model)
    (htype : model.type? id = some type) (hlevel : path = [] ∨ type.kind ≠ .rootEntity)
    (hpos : 0 < depth) (hle : depth ≤ deeper) (link : Link) :
    Link.Within { link with fields := some (links model depth path id) }
      { link with fields := some (links model deeper path id) } := by
  intro names inner hinner
  induction names generalizing link path id type with
  | nil =>
    cases hinner
    exact ⟨_, rfl, rfl⟩
  | cons name rest ih =>
    simp only [Link.along?, Option.bind_eq_bind, Option.bind_some, Option.bind_eq_some_iff,
      get?_links htype, Option.map_eq_some_iff] at hinner
    obtain ⟨_, ⟨field, hfound, rfl⟩, hrest⟩ := hinner
    have hdeeper := linkedField?_deeper hresolve htype hlevel hpos hle hfound
    obtain ⟨hfield, heligible, -⟩ := mem_of_linkedField? hfound
    have halong : Link.along? { link with fields := some (links model deeper path id) }
        (name :: rest) = (fieldLink model deeper path field).along? rest := by
      simp [Link.along?, get?_links htype, hdeeper]
    rw [halong]
    rcases fieldLink_embedded_or_leaf model field with ⟨target, hobject, hembedded, hlink⟩ | hleaf
    · obtain ⟨_, hfoundType, htarget⟩ := Model.exists_target hresolve htype hfield hobject
      have hrelation : field.relation = false := (eligible_iff.1 heligible).1.2
      have hkind := Model.kind_of_targetType? hresolve htype hfield htarget
      rw [hlink] at hrest ⊢
      refine ih hfoundType (.inr fun hroot => ?_) {} hrest
      simpa [hrelation, hembedded] using hkind.1 hroot
    · rw [hleaf] at hrest ⊢
      exact Link.within_refl _ rest inner hrest

/-! ### Routes without repetition -/

def Fresh (model : Model) (path : List FieldId) (type : ObjectType) : Prop :=
  ∀ route, Route model type route → (∀ field ∈ route, field.Linked) →
    (route.map (·.id)).Nodup ∧ ∀ field ∈ route, field.id ∉ path

theorem fresh_of_unrepeated (h : Unrepeated model type) : Fresh model [] type :=
  fun route hroute hlinked => ⟨h route hroute hlinked, fun _ _ => List.not_mem_nil⟩

theorem Fresh.not_mem (h : Fresh model path type) {field : Field} (hfield : field ∈ type.fields)
    (hlinked : field.Linked) : field.id ∉ path := by
  obtain ⟨-, hnew⟩ := h [field] (.last hfield) (by simpa using hlinked)
  exact hnew field List.mem_cons_self

/-- The field at the front of a route moves to the path. -/
theorem Fresh.behind (h : Fresh model path type) {field : Field} {target : ObjectType}
    (hfield : field ∈ type.fields) (hlinked : field.Linked)
    (htarget : model.targetType? field = some target) (hembedded : field.reference = false) :
    Fresh model (field.id :: path) target := by
  intro route hroute hrest
  obtain ⟨hnodup, hnew⟩ := h (field :: route) (.through hfield htarget hembedded hroute)
    (List.forall_mem_cons.2 ⟨hlinked, hrest⟩)
  rw [List.map_cons, List.nodup_cons] at hnodup
  refine ⟨hnodup.2, fun other hother hmem => ?_⟩
  rcases List.mem_cons.1 hmem with hsame | hpath
  · exact hnodup.1 (hsame ▸ List.mem_map_of_mem hother)
  · exact hnew other (List.mem_cons_of_mem _ hother) hpath

theorem Fresh.eligible_eq (h : Fresh model path type) (hpos : 0 < depth) (hpos' : 0 < deeper)
    {field : Field} (hfield : field ∈ type.fields) :
    eligible depth path field = eligible deeper path field := by
  rw [Bool.eq_iff_iff, eligible_iff, eligible_iff]
  refine and_congr_right fun hlinked => ?_
  rw [List.count_eq_zero_of_not_mem (h.not_mem hfield hlinked)]
  exact iff_of_true hpos hpos'

/-- Without repetition no depth cuts anything off. By induction on the computation of the links. -/
theorem links_eq_of_fresh (hpos : 0 < depth) (hpos' : 0 < deeper)
    (h : ∀ type, model.type? id = some type → Fresh model path type) :
    links model depth path id = links model deeper path id := by
  induction path, id using links.induct model depth with
  | case1 path id hnone => rw [links_of_none hnone, links_of_none hnone]
  | case2 path id type htype ih =>
    have hfresh := h type htype
    have hfilter : type.fields.filter (eligible depth path) =
        type.fields.filter (eligible deeper path) :=
      List.filter_congr fun field hfield => hfresh.eligible_eq hpos hpos' hfield
    rw [links_of_some htype, links_of_some htype, ← hfilter]
    refine congrArg Entries.collect (List.map_congr_left fun field hmem => ?_)
    obtain ⟨hfield, heligible⟩ := List.mem_filter.1 hmem
    rcases fieldLink_embedded_or_leaf model field with ⟨target, hobject, hembedded, hlink⟩ | hleaf
    · have hinner := ih field hmem target fun found hfound => hfresh.behind hfield
        (eligible_iff.1 heligible).1 (Model.targetType?_eq_some_iff.2 ⟨target, hobject, hfound⟩)
        hembedded
      rw [hlink, hlink, hinner]
    · rw [hleaf, hleaf]

/-! ### Views and plans -/

/-- The settings take part in a plan through the properties of the required views. -/
theorem plan_eq_of_properties {settings other : Settings}
    (hvalid : settings.validate = other.validate)
    (h : ∀ view ∈ requiredViews model,
      view.properties model settings = view.properties model other)
    (probe : Probe) (cancelled : Bool) :
    plan model probe settings cancelled = plan model probe other cancelled := by
  have hcreates (existing : List View) :
      creates model existing (requiredViews model) probe settings =
        creates model existing (requiredViews model) probe other := by
    rw [creates, creates]
    refine congrArg _ (List.map_congr_left fun view hview => ?_)
    rw [h view (List.mem_filter.1 hview).1]
  have houtdated : outdated? model (requiredViews model) settings =
      outdated? model (requiredViews model) other := by
    funext view
    cases hfound : (requiredViews model).find? (·.name == view.name) with
    | none => simp [outdated?, hfound]
    | some wanted => simp [outdated?, hfound, h wanted (List.mem_of_find?_eq_some hfound)]
  have hupdates (existing : List View) :
      updates model existing (requiredViews model) probe settings =
        updates model existing (requiredViews model) probe other := by
    rw [updates, updates, houtdated]
  simp only [plan, diff, hvalid, hcreates, hupdates]

theorem Settings.validate_eq_ok_iff {settings : Settings} :
    settings.validate = .ok () ↔ 0 < settings.recursionDepth ∧ 0 < settings.commitInterval := by
  rw [validate]
  split_ifs <;> simp <;> omega

/-- A required view is that of the root entity that it is made for, which is search-indexed. -/
theorem requiredView?_eq_some {view : RequiredView} (h : requiredView? type = some view) :
    view.rootEntity = type.id ∧ type.searchIndexed = true := by
  obtain ⟨root, hroot, hindexed, rfl⟩ := requiredView?_eq_some_iff.1 h
  refine ⟨rfl, ?_⟩
  rw [ObjectType.searchIndexed, hroot]
  exact hindexed

theorem properties_of_unrepeated (hresolve : Model.resolve decl = .ok model)
    (htype : type ∈ model.rootEntities) {view : RequiredView}
    (hview : requiredView? type = some view) (h : Unrepeated model type) {settings : Settings}
    (hpos : 0 < settings.recursionDepth) (hpos' : 0 < deeper) :
    view.properties model settings =
      view.properties model { settings with recursionDepth := deeper } := by
  obtain ⟨hroot, -⟩ := requiredView?_eq_some hview
  have hat := Model.type?_id_of_mem hresolve (List.mem_filter.1 htype).1
  have hlinks : links model settings.recursionDepth [] type.id = links model deeper [] type.id := by
    refine links_eq_of_fresh hpos hpos' fun found hfound => ?_
    cases hat.symm.trans hfound
    exact fresh_of_unrepeated h
  rw [RequiredView.properties, RequiredView.properties, hroot, hlinks]

/-- A greater recursion depth keeps every path of nested links in the view of a root entity, with
the analyzers at its end. It changes nothing where no route from the root entity meets a field
twice, and no plan where this holds of all root entities with a view. -/
theorem links_grow_with_depth (hresolve : Model.resolve decl = .ok model) (settings : Settings)
    (hvalid : settings.validate = .ok ()) (deeper : Nat)
    (hle : settings.recursionDepth ≤ deeper) :
    (∀ type ∈ model.rootEntities, type.searchIndexed = true →
      ∃ view ∈ requiredViews model, requiredView? type = some view ∧
        (∃ link other, (view.properties model settings).links = [(view.collection, link)] ∧
          (view.properties model { settings with recursionDepth := deeper }).links =
            [(view.collection, other)] ∧ link.Within other) ∧
        (Unrepeated model type → view.properties model settings =
          view.properties model { settings with recursionDepth := deeper })) ∧
    ((∀ type ∈ model.rootEntities, type.searchIndexed = true → Unrepeated model type) →
      ∀ probe cancelled, plan model probe settings cancelled =
        plan model probe { settings with recursionDepth := deeper } cancelled) := by
  obtain ⟨hpos, hinterval⟩ := Settings.validate_eq_ok_iff.1 hvalid
  have hpos' : 0 < deeper := by omega
  constructor
  · intro type htype hindexed
    obtain ⟨view, hmem, hview, -⟩ := exists_collectionLink hresolve htype hindexed settings
    have hat := Model.type?_id_of_mem hresolve (List.mem_filter.1 htype).1
    obtain ⟨hroot, -⟩ := requiredView?_eq_some hview
    refine ⟨view, hmem, hview, ⟨_, _, rfl, rfl, ?_⟩, fun h =>
      properties_of_unrepeated hresolve htype hview h hpos hpos'⟩
    rw [hroot]
    exact within_links hresolve hat (.inl rfl) hpos hle
      { analyzers := some [identityAnalyzer], includeAllFields := some false,
        trackListPositions := some false, storedValues := some .identifiers }
  · intro hunrepeated probe cancelled
    have hvalid' : ({ settings with recursionDepth := deeper } : Settings).validate = .ok () :=
      Settings.validate_eq_ok_iff.2 ⟨hpos', hinterval⟩
    refine plan_eq_of_properties (hvalid.trans hvalid'.symm) (fun view hview => ?_) probe cancelled
    obtain ⟨type, htype, hrequired⟩ := List.mem_filterMap.1 hview
    obtain ⟨-, hindexed⟩ := requiredView?_eq_some hrequired
    exact properties_of_unrepeated hresolve htype hrequired (hunrepeated type htype hindexed) hpos
      hpos'

/-- An address embeds the next one, so a view of deliveries grows with the depth. Customers embed
nothing, and their view stays the same. -/
theorem links_grow_for_deliveries :
    let address : FieldDecl := { name := "address", typeName := "Address", indexed := true }
    let next : FieldDecl := { name := "next", typeName := "Address", indexed := true }
    let phone : FieldDecl := { name := "phone", typeName := "String", indexed := true }
    let decl : ModelDecl :=
      { types :=
        [{ name := "Delivery", kind := .rootEntity, fields := [address], searchIndexed := true },
         { name := "Customer", kind := .rootEntity, fields := [phone], searchIndexed := true },
         { name := "Address", kind := .valueObject, fields := [next] }] }
    ∃ model, Model.resolve decl = .ok model ∧
      (∃ view ∈ requiredViews model, ∃ link other,
        (view.properties model {}).links = [("deliveries", link)] ∧
          (view.properties model { recursionDepth := 2 }).links = [("deliveries", other)] ∧
          link.Within other ∧ ¬ (link.along? ["address", "next", "next"]).isSome ∧
          (other.along? ["address", "next", "next"]).isSome) ∧
      ∃ view ∈ requiredViews model, view.collection = "customers" ∧
        view.properties model {} = view.properties model { recursionDepth := 2 } := by
  intro address next phone decl
  let names := ["address", "next", "next"]
  let deliveries : RequiredView :=
    { rootEntity := 0, name := "flex_view_deliveries", collection := "deliveries"
      primarySort := [] }
  obtain ⟨model, hresolve, delivery, hdelivery, hindexed, hdeliveries, customer, hcustomer,
      hindexed', hcollection, hplain, hshort, hlong⟩ :
      ∃ model, Model.resolve decl = .ok model ∧
        ∃ delivery ∈ model.rootEntities, delivery.searchIndexed = true ∧
          requiredView? delivery = some deliveries ∧
        ∃ customer ∈ model.rootEntities, customer.searchIndexed = true ∧
          (requiredView? customer).map (·.collection) = some "customers" ∧
          (∀ field ∈ customer.fields, model.targetType? field = none) ∧
        (((deliveries.properties model {}).links.get? "deliveries").bind
          (·.along? names)).isSome = false ∧
        (((deliveries.properties model { recursionDepth := 2 }).links.get? "deliveries").bind
          (·.along? names)).isSome = true :=
    ⟨_, rfl, _, List.mem_cons_self, rfl, by decide, _, List.mem_cons_of_mem _ List.mem_cons_self,
      rfl, by decide, by decide, by decide +kernel, by decide +kernel⟩
  obtain ⟨hroots, -⟩ := links_grow_with_depth hresolve {} rfl 2 (by decide)
  refine ⟨model, hresolve, ?_, ?_⟩
  · obtain ⟨view, hview, hrequired, ⟨link, other, hlink, hother, hwithin⟩, -⟩ :=
      hroots delivery hdelivery hindexed
    cases hdeliveries.symm.trans hrequired
    rw [hlink] at hshort
    rw [hother] at hlong
    exact ⟨_, hview, link, other, hlink, hother, hwithin, Bool.eq_false_iff.1 hshort, hlong⟩
  · obtain ⟨view, hview, hrequired, -, hsame⟩ := hroots customer hcustomer hindexed'
    rw [hrequired] at hcollection
    refine ⟨view, hview, Option.some.inj hcollection, hsame fun route hroute _ => ?_⟩
    cases hroute with
    | last => exact List.nodup_singleton _
    | through hfield htarget => simp [hplain _ hfield] at htarget

end Search

end EntitySchema
