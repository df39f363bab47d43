import EntitySchema.Proofs.Model.Resolved
import EntitySchema.Proofs.Search.Collections

/-! # The paths of links in a view

The links of a view follow the fields of its root entity into the objects they embed. Names lead
through these links exactly if they name a route along such fields, all of them indexed, on which no
field stands more often than the settings allow. Types may embed one another, so it is this count
that ends every route. -/
namespace EntitySchema

def Field.Linked (field : Field) : Prop :=
  (field.search.indexed = true ∨ field.search.fulltext = true) ∧ field.relation = false

/-- Fields of which the first stands in an object type and each other one in the type of the objects
that the field in front of it embeds. -/
inductive Route (model : Model) : ObjectType → List Field → Prop where
  | last {type : ObjectType} {field : Field} (hfield : field ∈ type.fields) :
      Route model type [field]
  | through {type target : ObjectType} {field : Field} {rest : List Field}
      (hfield : field ∈ type.fields) (htarget : model.targetType? field = some target)
      (hembedded : field.reference = false) (hrest : Route model target rest) :
      Route model type (field :: rest)

variable {decl : ModelDecl} {model : Model}

theorem Model.targetType?_eq_some_iff {field : Field} {target : ObjectType} :
    model.targetType? field = some target ↔
      ∃ id, field.type = .object id ∧ model.type? id = some target := by
  cases h : field.type <;> simp [targetType?, FieldType.target?, h]

theorem Model.type?_id_of_mem (hresolve : Model.resolve decl = .ok model) {type : ObjectType}
    (h : type ∈ model.types) : model.type? type.id = some type := by
  obtain ⟨id, hid⟩ := List.mem_iff_getElem?.1 h
  obtain ⟨_, -, hresolved⟩ := Model.resolved_type hresolve hid
  rwa [hresolved.id_eq]

/-- A field that holds objects has a type of the model. -/
theorem Model.exists_target (hresolve : Model.resolve decl = .ok model) {id targetId : TypeId}
    {type : ObjectType} {field : Field} (htype : model.type? id = some type)
    (hfield : field ∈ type.fields) (hobject : field.type = .object targetId) :
    ∃ target, model.type? targetId = some target ∧ model.targetType? field = some target := by
  have hlt := target_lt hresolve htype hfield hobject
  have hfound : model.type? targetId = some model.types[targetId] := List.getElem?_eq_getElem hlt
  exact ⟨_, hfound, targetType?_eq_some_iff.2 ⟨targetId, hobject, hfound⟩⟩

namespace Search

namespace Link

def along? : Link → List String → Option Link
  | link, [] => some link
  | link, name :: rest => do
    let fields ← link.fields
    let next ← Entries.get? fields name
    next.along? rest

theorem isSome_along?_cons {link : Link} {name : String} {rest : List String} :
    (link.along? (name :: rest)).isSome ↔ ∃ fields next, link.fields = some fields ∧
      Entries.get? fields name = some next ∧ (next.along? rest).isSome := by
  simp only [along?, Option.bind_eq_bind, Option.isSome_bind, Option.any_eq_true]
  constructor
  · rintro ⟨fields, hfields, next, hnext, hrest⟩
    exact ⟨fields, next, hfields, hnext, hrest⟩
  · rintro ⟨fields, next, hfields, hnext, hrest⟩
    exact ⟨fields, hfields, next, hnext, hrest⟩

end Link

variable {depth : Nat} {path : List FieldId} {id : TypeId}

theorem eligible_iff {field : Field} :
    eligible depth path field = true ↔ field.Linked ∧ path.count field.id < depth := by
  simp [eligible, Field.Linked, and_assoc]

/-- Each field of a route is linked, and none stands more than `depth` times on the route and on a
path that leads to it. -/
structure Permitted (depth : Nat) (path : List FieldId) (route : List Field) : Prop where
  linked : ∀ field ∈ route, field.Linked
  count : ∀ field ∈ route, path.count field.id + (route.map (·.id)).count field.id ≤ depth

theorem permitted_nil : Permitted depth path [] :=
  ⟨by simp, by simp⟩

/-- The field at the front of a route moves to the path. -/
theorem permitted_cons {field : Field} {rest : List Field} :
    Permitted depth path (field :: rest) ↔
      eligible depth path field = true ∧ Permitted depth (field.id :: path) rest := by
  have hmove (id : FieldId) : (field.id :: path).count id + (rest.map (·.id)).count id =
      path.count id + ((field :: rest).map (·.id)).count id := by
    simp only [List.map_cons, List.count_cons]
    omega
  rw [eligible_iff]
  constructor
  · rintro ⟨hlinked, hcount⟩
    have hfirst := hcount field List.mem_cons_self
    rw [← hmove, List.count_cons_self] at hfirst
    refine ⟨⟨hlinked field List.mem_cons_self, by omega⟩,
      fun other hother => hlinked other (List.mem_cons_of_mem _ hother), fun other hother => ?_⟩
    rw [hmove]
    exact hcount other (List.mem_cons_of_mem _ hother)
  · rintro ⟨⟨hlinked, hcount⟩, hrest⟩
    refine ⟨List.forall_mem_cons.2 ⟨hlinked, hrest.linked⟩,
      List.forall_mem_cons.2 ⟨?_, fun other hother => ?_⟩⟩
    · rw [← hmove, List.count_cons_self]
      -- A field that comes again is counted where it stands in the rest.
      by_cases hagain : field.id ∈ rest.map (·.id)
      · obtain ⟨other, hother, heq⟩ := List.mem_map.1 hagain
        have hle := hrest.count other hother
        rw [heq, List.count_cons_self] at hle
        exact hle
      · rw [List.count_eq_zero_of_not_mem hagain]
        omega
    · rw [← hmove]
      exact hrest.count other hother

theorem permitted_start_iff {route : List Field} :
    Permitted depth [] route ↔
      (∀ field ∈ route, field.Linked) ∧ ∀ id, (route.map (·.id)).count id ≤ depth := by
  constructor
  · rintro ⟨hlinked, hcount⟩
    refine ⟨hlinked, fun id => ?_⟩
    by_cases hmem : id ∈ route.map (·.id)
    · obtain ⟨field, hfield, rfl⟩ := List.mem_map.1 hmem
      simpa using hcount field hfield
    · rw [List.count_eq_zero_of_not_mem hmem]
      exact Nat.zero_le _
  · rintro ⟨hlinked, hcount⟩
    exact ⟨hlinked, fun field _ => by simpa using hcount field.id⟩

theorem fields_fieldLink_eq_some_iff {field : Field} {fields : Entries Link} :
    (fieldLink model depth path field).fields = some fields ↔
      ∃ target, field.type = .object target ∧ field.reference = false ∧
        fields = links model depth (field.id :: path) target := by
  have hleaf : (leafLink field).fields = none := by
    simp only [leafLink]
    split <;> rfl
  cases htype : field.type <;> cases hreference : field.reference <;>
    simp [fieldLink, htype, hreference, hleaf, eq_comm]

theorem linkName_of_declared {field : Field} (h : field.system = false) :
    linkName model field = field.name := by
  simp [linkName, h]

section Linked

variable {type : ObjectType} (htype : model.type? id = some type)

include htype

theorem exists_field_of_get?_links {name : String} {link : Link}
    (h : (links model depth path id).get? name = some link) :
    ∃ field ∈ type.fields, eligible depth path field = true ∧ linkName model field = name ∧
      fieldLink model depth path field = link := by
  rw [links_of_some htype] at h
  obtain ⟨field, hfield, heq⟩ := List.mem_map.1 (Entries.mem_collect (Entries.get?_mem h))
  obtain ⟨hname, hlink⟩ := Prod.mk.inj heq
  obtain ⟨hmem, heligible⟩ := List.mem_filter.1 hfield
  exact ⟨field, hmem, heligible, hname, hlink⟩

variable {field : Field} (hfield : field ∈ type.fields)
  (heligible : eligible depth path field = true)

include hfield heligible

theorem exists_get?_links :
    ∃ link, (links model depth path id).get? (linkName model field) = some link := by
  refine Option.ne_none_iff_exists'.1 fun hnone => ?_
  rw [links_of_some htype, Entries.get?_eq_none_iff] at hnone
  refine hnone (Entries.keys_collect_subset _ ?_)
  exact List.mem_map.2
    ⟨_, List.mem_map.2 ⟨field, List.mem_filter.2 ⟨hfield, heligible⟩, rfl⟩, rfl⟩

/-- A declared field keeps its link. The identifier of a root entity may share its name, but it is a
system field and stands in front of every declared one. -/
theorem get?_links_of_declared (hresolve : Model.resolve decl = .ok model)
    (hdeclared : field.system = false) :
    (links model depth path id).get? (linkName model field) =
      some (fieldLink model depth path field) := by
  obtain ⟨declared, -, hresolved⟩ := Model.resolved_type hresolve htype
  obtain ⟨added, hfields, hadded⟩ := hresolved.fields_eq
  have hsystem : ∀ other ∈ added, other.system = false := by
    intro other hother
    obtain ⟨_, -, _, _, _, -, rfl⟩ := Results.exists_of_mem_right hadded hother
    rfl
  have hmem : field ∈ added := by
    rw [hfields] at hfield
    refine (List.mem_append.1 hfield).resolve_left fun hsys => ?_
    rw [(ModelDecl.mem_systemFields hsys).1] at hdeclared
    cases hdeclared
  have hkept : field ∈ added.filter (eligible depth path) := List.mem_filter.2 ⟨hmem, heligible⟩
  rw [links_of_some htype, hfields, List.filter_append, List.map_append]
  refine Entries.get?_collect_append ?_ (List.mem_map.2 ⟨field, hkept, rfl⟩)
  have hkeys : Entries.keys ((added.filter (eligible depth path)).map fun other =>
      (linkName model other, fieldLink model depth path other)) =
      (added.filter (eligible depth path)).map (·.name) := by
    rw [Entries.keys, List.map_map]
    exact List.map_congr_left fun other hother =>
      linkName_of_declared (hsystem other (List.mem_filter.1 hother).1)
  rw [hkeys]
  have hsub : ((added.filter (eligible depth path)).map (·.name)).Sublist
      (type.fields.map (·.name)) := by
    rw [hfields]
    exact (List.filter_sublist.trans (List.sublist_append_right _ _)).map _
  exact hsub.nodup hresolved.fieldsAt.names

theorem get?_links_of_object (hresolve : Model.resolve decl = .ok model) {target : TypeId}
    (htarget : field.type = .object target) :
    (links model depth path id).get? (linkName model field) =
      some (fieldLink model depth path field) := by
  obtain ⟨_, -, hresolved⟩ := Model.resolved_type hresolve htype
  exact get?_links_of_declared htype hfield heligible hresolve
    (hresolved.system_of_object hfield htarget)

end Linked

/-- A path of names through computed links names a permitted route, and each permitted route has its
path. By induction on the names: behind the first of them the path of fields is longer by one. -/
theorem isSome_along?_iff (hresolve : Model.resolve decl = .ok model) {type : ObjectType}
    (htype : model.type? id = some type) {link : Link}
    (hlink : link.fields = some (links model depth path id)) (names : List String) :
    names ≠ [] ∧ (link.along? names).isSome ↔
      ∃ route, Route model type route ∧ route.map (linkName model) = names ∧
        Permitted depth path route := by
  induction names generalizing link path id type with
  | nil =>
    refine iff_of_false (fun h => h.1 rfl) ?_
    rintro ⟨route, hroute, hnames, -⟩
    cases List.map_eq_nil_iff.1 hnames
    cases hroute
  | cons name rest ih =>
    rw [and_iff_right (List.cons_ne_nil _ _), Link.isSome_along?_cons]
    constructor
    · rintro ⟨fields, next, hfields, hnext, hrest⟩
      obtain rfl := Option.some.inj (hlink.symm.trans hfields)
      obtain ⟨field, hfield, heligible, rfl, rfl⟩ := exists_field_of_get?_links htype hnext
      cases rest with
      | nil => exact ⟨[field], .last hfield, rfl, permitted_cons.2 ⟨heligible, permitted_nil⟩⟩
      | cons second others =>
        obtain ⟨inner, _, hinner, -, -⟩ := Link.isSome_along?_cons.1 hrest
        obtain ⟨targetId, htargetId, hembedded, rfl⟩ := fields_fieldLink_eq_some_iff.1 hinner
        obtain ⟨target, htarget, htarget?⟩ := Model.exists_target hresolve htype hfield htargetId
        obtain ⟨route, hroute, hnames, hpermitted⟩ :=
          (ih htarget hinner).1 ⟨List.cons_ne_nil _ _, hrest⟩
        exact ⟨field :: route, .through hfield htarget? hembedded hroute,
          congrArg (linkName model field :: ·) hnames, permitted_cons.2 ⟨heligible, hpermitted⟩⟩
    · rintro ⟨route, hroute, hnames, hpermitted⟩
      cases hroute with
      | @last _ field hfield =>
        obtain ⟨rfl, rfl⟩ := List.cons.inj hnames
        obtain ⟨heligible, -⟩ := permitted_cons.1 hpermitted
        obtain ⟨next, hnext⟩ := exists_get?_links htype hfield heligible
        exact ⟨_, next, hlink, hnext, rfl⟩
      | @through _ target field others hfield htarget? hembedded hothers =>
        obtain ⟨rfl, hrest⟩ := List.cons.inj hnames
        obtain ⟨heligible, hpermitted⟩ := permitted_cons.1 hpermitted
        obtain ⟨targetId, htargetId, htarget⟩ := Model.targetType?_eq_some_iff.1 htarget?
        have hinner : (fieldLink model depth path field).fields =
            some (links model depth (field.id :: path) targetId) :=
          fields_fieldLink_eq_some_iff.2 ⟨targetId, htargetId, hembedded, rfl⟩
        exact ⟨_, _, hlink, get?_links_of_object htype hfield heligible hresolve htargetId,
          ((ih htarget hinner).2 ⟨others, hothers, hrest, hpermitted⟩).2⟩

theorem slack_nil (ids : List FieldId) (depth : Nat) : slack ids depth [] = depth * ids.length := by
  induction ids with
  | nil => rfl
  | cons _ rest ih =>
    simp only [slack, ih, List.count_nil, Nat.sub_zero, List.length_cons, Nat.mul_succ]
    omega

/-- What may still follow a path bounds the routes behind it. -/
theorem length_le_slack {type : ObjectType} {route : List Field} (hroute : Route model type route)
    (htype : model.type? id = some type) (hpermitted : Permitted depth path route) :
    route.length ≤ slack model.fieldIds depth path := by
  induction hroute generalizing path id with
  | last hfield =>
    obtain ⟨heligible, -⟩ := permitted_cons.1 hpermitted
    have := slack_cons_lt (Model.mem_fieldIds htype hfield) (eligible_iff.1 heligible).2
    simp only [List.length_singleton]
    omega
  | through hfield htarget? _ _ ih =>
    obtain ⟨heligible, hrest⟩ := permitted_cons.1 hpermitted
    obtain ⟨targetId, -, htarget⟩ := Model.targetType?_eq_some_iff.1 htarget?
    have hless := slack_cons_lt (Model.mem_fieldIds htype hfield) (eligible_iff.1 heligible).2
    have hbound := ih htarget hrest
    simp only [List.length_cons]
    omega

theorem exists_link_of_properties (view : RequiredView) (model : Model) (settings : Settings) :
    ∃ link, (view.properties model settings).links = [(view.collection, link)] ∧
      link.fields = some (links model settings.recursionDepth [] view.rootEntity) :=
  ⟨_, rfl, rfl⟩

/-- Each search-indexed root entity has a view, with a link of its collection to its fields. -/
theorem exists_collectionLink (hresolve : Model.resolve decl = .ok model) {type : ObjectType}
    (htype : type ∈ model.rootEntities) (hindexed : type.searchIndexed = true)
    (settings : Settings) :
    ∃ view ∈ requiredViews model, requiredView? type = some view ∧
      ∃ link, (view.properties model settings).links = [(view.collection, link)] ∧
        link.fields = some (links model settings.recursionDepth [] type.id) := by
  obtain ⟨declared, -, hroot⟩ :=
    Results.exists_of_mem_right (Model.rootEntities_of_resolve hresolve) htype
  rw [ObjectType.searchIndexed, hroot] at hindexed
  have hview := requiredView?_eq_some_iff.2 ⟨_, hroot, hindexed, rfl⟩
  obtain ⟨link, hlinks, hfields⟩ := exists_link_of_properties _ model settings
  exact ⟨_, List.mem_filterMap.2 ⟨type, htype, hview⟩, hview, link, hlinks, hfields⟩

/-- The view of a search-indexed root entity links its collection, and names are a path of nested
links there exactly if they name a route from the root entity along linked fields, with no field
more often than the recursion depth. No path is longer than that depth allows for all fields of the
model, so the links end also where types embed one another. -/
theorem paths_of_collection_link (hresolve : Model.resolve decl = .ok model) {type : ObjectType}
    (htype : type ∈ model.rootEntities) (hindexed : type.searchIndexed = true)
    (settings : Settings) :
    ∃ view ∈ requiredViews model, requiredView? type = some view ∧
      ∃ link, (view.properties model settings).links = [(view.collection, link)] ∧
        ∀ names, (names ≠ [] ∧ (link.along? names).isSome ↔
            ∃ route, Route model type route ∧ route.map (linkName model) = names ∧
              (∀ field ∈ route, field.Linked) ∧
              ∀ id, (route.map (·.id)).count id ≤ settings.recursionDepth) ∧
          ((link.along? names).isSome →
            names.length ≤ settings.recursionDepth * model.fieldIds.length) := by
  obtain ⟨declared, -, hroot⟩ :=
    Results.exists_of_mem_right (Model.rootEntities_of_resolve hresolve) htype
  rw [ObjectType.searchIndexed, hroot] at hindexed
  have hview := requiredView?_eq_some_iff.2 ⟨_, hroot, hindexed, rfl⟩
  obtain ⟨link, hlinks, hfields⟩ := exists_link_of_properties _ model settings
  refine ⟨_, List.mem_filterMap.2 ⟨type, htype, hview⟩, hview, link, hlinks, fun names => ?_⟩
  have hid := Model.type?_id_of_mem hresolve (List.mem_filter.1 htype).1
  have hroutes := isSome_along?_iff hresolve hid hfields names
  refine ⟨by simpa only [permitted_start_iff] using hroutes, fun hsome => ?_⟩
  by_cases hnames : names = []
  · simp [hnames]
  · obtain ⟨route, hroute, rfl, hpermitted⟩ := hroutes.1 ⟨hnames, hsome⟩
    rw [List.length_map, ← slack_nil]
    exact length_le_slack hroute hid hpermitted

/-- An address embeds the next one. A view of deliveries links the city of the next address, but
not the address behind it: that would be the field `next` twice. -/
theorem paths_of_deliveries :
    let address : FieldDecl := { name := "address", typeName := "Address", indexed := true }
    let city : FieldDecl := { name := "city", typeName := "String", fulltext := true }
    let next : FieldDecl := { name := "next", typeName := "Address", indexed := true }
    let decl : ModelDecl :=
      { types :=
        [{ name := "Delivery", kind := .rootEntity, fields := [address], searchIndexed := true },
         { name := "Address", kind := .valueObject, fields := [city, next] }] }
    ∃ model, Model.resolve decl = .ok model ∧ ∃ view ∈ requiredViews model,
      ∃ link, (view.properties model {}).links = [("deliveries", link)] ∧
        (link.along? ["address", "next", "city"]).isSome ∧
        ¬ (link.along? ["address", "next", "next"]).isSome := by
  intro address city next decl
  let address' := address.toField ⟨0, 3⟩ (.object 1) false
  let city' := city.toField ⟨1, 0⟩ (.scalar "String") false
  let next' := next.toField ⟨1, 1⟩ (.object 1) false
  let declared : TypeDecl := { name := "Delivery", kind := .rootEntity, searchIndexed := true }
  let delivery : ObjectType :=
    { id := 0, name := "Delivery", kind := .rootEntity
      fields := ModelDecl.systemFields 0 declared ++ [address']
      root := some ⟨"Deliveries", "deliveries", true, []⟩ }
  let type : ObjectType :=
    { id := 1, name := "Address", kind := .valueObject, fields := [city', next'], root := none }
  obtain ⟨model, hresolve, hroot, hnames, hfromAddress, hfromNext, haddress, hnext⟩ :
      ∃ model, Model.resolve decl = .ok model ∧ delivery ∈ model.rootEntities ∧
        [address', next', city'].map (linkName model) = ["address", "next", "city"] ∧
        model.targetType? address' = some type ∧ model.targetType? next' = some type ∧
        (∀ field ∈ delivery.fields, linkName model field = "address" → field = address') ∧
        ∀ field ∈ type.fields, linkName model field = "next" → field = next' :=
    ⟨{ types := [delivery, type] }, by decide⟩
  obtain ⟨view, hview, hrequired, link, hlinks, hpaths⟩ :=
    paths_of_collection_link hresolve hroot rfl {}
  cases hrequired
  refine ⟨_, hresolve, _, hview, link, hlinks, ?_, fun hsome => ?_⟩
  · have hroute : Route model delivery [address', next', city'] :=
      .through (by decide) hfromAddress rfl
        (.through (by decide) hfromNext rfl (.last (by decide)))
    refine ((hpaths _).1.2 ⟨_, hroute, hnames, ?_, ?_⟩).2
    · simp [Field.Linked, address', next', city', address, city, next, FieldDecl.toField]
    · exact List.nodup_iff_count_le_one.1 (by decide)
  · obtain ⟨route, hroute, hnames, -, hcount⟩ := (hpaths _).1.1 ⟨by decide, hsome⟩
    obtain ⟨first, _, rfl, hfirst, hnames⟩ := List.map_eq_cons_iff.1 hnames
    obtain ⟨second, _, rfl, hsecond, hnames⟩ := List.map_eq_cons_iff.1 hnames
    obtain ⟨third, rest, rfl, hthird, -⟩ := List.map_eq_cons_iff.1 hnames
    obtain _ | ⟨hmem₁, htarget₁, -, hroute⟩ := hroute
    cases haddress first hmem₁ hfirst
    cases hfromAddress.symm.trans htarget₁
    obtain _ | ⟨hmem₂, htarget₂, -, hroute⟩ := hroute
    cases hnext second hmem₂ hsecond
    cases hfromNext.symm.trans htarget₂
    have hmem₃ : third ∈ type.fields := by
      cases hroute with
      | last hmem₃ | through hmem₃ => exact hmem₃
    have htwice : ([address'.id, next'.id, third.id] ++ rest.map (·.id)).count next'.id ≤ 1 :=
      hcount next'.id
    rw [hnext third hmem₃ hthird, List.count_append] at htwice
    exact absurd ((Nat.le_add_right _ _).trans htwice) (by decide)

end Search

end EntitySchema
