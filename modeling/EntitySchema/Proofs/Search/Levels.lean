import EntitySchema.Proofs.Model.LinkTargets

/-! # The levels of the links in a view

A level is the map of links that a collection or a field that embeds objects has. Each eligible
field of the type there should have an entry of its own. Fields of a type have distinct names, but
the identifier of a root entity is linked under the store's key, and a declared field may be called
so. The map then keeps the link of that field, since it comes later. -/
namespace EntitySchema

variable {decl : ModelDecl} {model : Model}

inductive Leads (model : Model) : ObjectType → List Field → ObjectType → Prop where
  | nil (type : ObjectType) : Leads model type [] type
  | cons {type next target : ObjectType} {field : Field} {rest : List Field}
      (hfield : field ∈ type.fields) (hnext : model.targetType? field = some next)
      (hembedded : field.reference = false) (hrest : Leads model next rest target) :
      Leads model type (field :: rest) target

theorem Leads.concat {type owner target : ObjectType} {route : List Field} {field : Field}
    (h : Leads model type route owner) (hfield : field ∈ owner.fields)
    (htarget : model.targetType? field = some target) (hembedded : field.reference = false) :
    Leads model type (route ++ [field]) target := by
  induction h with
  | nil => exact .cons hfield htarget hembedded (.nil _)
  | cons hfirst hnext hfirstEmbedded _ ih => exact .cons hfirst hnext hfirstEmbedded (ih hfield)

theorem Leads.exists_type? {type owner : ObjectType} {route : List Field}
    (h : Leads model type route owner) (htype : ∃ id, model.type? id = some type) :
    ∃ id, model.type? id = some owner := by
  induction h with
  | nil => exact htype
  | cons _ hnext _ _ ih =>
    obtain ⟨target, -, hfound⟩ := Model.targetType?_eq_some_iff.1 hnext
    exact ih ⟨target, hfound⟩

namespace Search

/-- The entries of a map of links are those of the eligible fields of a type behind a path: no two
of them have the same name, and each entry is the link of its field. -/
structure MatchesFields (model : Model) (depth : Nat) (path : List FieldId) (type : ObjectType)
    (entries : Entries Link) : Prop where
  names : ((type.fields.filter (eligible depth path)).map (linkName model)).Nodup
  entries_eq : entries = (type.fields.filter (eligible depth path)).map fun field =>
    (linkName model field, fieldLink model depth path field)

/-- Each level inside the link of a collection matches the fields of the type that the names on the
way to it lead to. The link of the store's key is that of the identifier. -/
structure LinksEachField (model : Model) (depth : Nat) (type : ObjectType) (link : Link) :
    Prop where
  levels : ∀ names level entries, link.along? names = some level → level.fields = some entries →
    ∃ route target, Leads model type route target ∧ route.map (linkName model) = names ∧
      MatchesFields model depth (route.map (·.id)).reverse target entries
  key : ∀ entries inner, link.fields = some entries →
    Entries.get? entries Names.storeKeyField = some inner →
      ∃ field ∈ type.fields, field.system = true ∧ field.name = Names.idField ∧
        inner = fieldLink model depth [] field

variable {depth : Nat} {path : List FieldId} {id : TypeId} {type : ObjectType} {link : Link}

/-! ### Where names lead -/

/-- Names that lead to a link name the fields on the way, and the link there is that of the last
one. By induction on the names: behind the first of them the path is longer by one. -/
theorem exists_leads_of_along? (hresolve : Model.resolve decl = .ok model)
    (htype : model.type? id = some type) (hlink : link.fields = some (links model depth path id))
    {name : String} {rest : List String} {inner : Link}
    (h : link.along? (name :: rest) = some inner) :
    ∃ route owner field, Leads model type route owner ∧ field ∈ owner.fields ∧
      Permitted depth path (route ++ [field]) ∧
      (route ++ [field]).map (linkName model) = name :: rest ∧
      inner = fieldLink model depth ((route.map (·.id)).reverse ++ path) field := by
  induction rest generalizing link path id type name with
  | nil =>
    simp only [Link.along?, hlink, Option.bind_eq_bind, Option.bind_some, Option.bind_eq_some_iff,
      Option.some.injEq] at h
    obtain ⟨next, hnext, rfl⟩ := h
    obtain ⟨field, hfield, heligible, rfl, rfl⟩ := exists_field_of_get?_links htype hnext
    have hpermitted : Permitted depth path [field] := permitted_cons.2 ⟨heligible, permitted_nil⟩
    exact ⟨[], type, field, .nil type, hfield, hpermitted, rfl, rfl⟩
  | cons second others ih =>
    rw [Link.along?] at h
    simp only [hlink, Option.bind_eq_bind, Option.bind_some, Option.bind_eq_some_iff] at h
    obtain ⟨next, hnext, hrest⟩ := h
    obtain ⟨first, hfirst, heligible, rfl, rfl⟩ := exists_field_of_get?_links htype hnext
    obtain ⟨inner', _, hinner, -, -⟩ := Link.isSome_along?_cons.1 (Option.isSome_of_mem hrest)
    obtain ⟨target, htarget, hembedded, rfl⟩ := fields_fieldLink_eq_some_iff.1 hinner
    obtain ⟨_, hfound, hnext⟩ := Model.exists_target hresolve htype hfirst htarget
    obtain ⟨route, owner, field, hleads, hfield, hpermitted, hnames, rfl⟩ := ih hfound hinner hrest
    refine ⟨first :: route, owner, field, .cons hfirst hnext hembedded hleads, hfield,
      permitted_cons.2 ⟨heligible, hpermitted⟩, ?_, ?_⟩
    · rw [List.cons_append, List.map_cons, hnames]
    · rw [List.map_cons, List.reverse_cons, List.append_assoc, List.singleton_append]

/-- Permitted fields that lead to a declared one lead to its link, which no other field takes. -/
theorem along?_of_leads (hresolve : Model.resolve decl = .ok model)
    (htype : model.type? id = some type) (hlink : link.fields = some (links model depth path id))
    {route : List Field} {owner : ObjectType} {field : Field}
    (hleads : Leads model type route owner) (hfield : field ∈ owner.fields)
    (hdeclared : field.system = false)
    (hpermitted : Permitted depth path (route ++ [field])) :
    link.along? ((route ++ [field]).map (linkName model)) =
      some (fieldLink model depth ((route.map (·.id)).reverse ++ path) field) := by
  induction hleads generalizing link path id with
  | nil =>
    obtain ⟨heligible, -⟩ := permitted_cons.1 hpermitted
    have hget := get?_links_of_declared htype hfield heligible hresolve hdeclared
    simp [Link.along?, hlink, hget]
  | @cons _ next _ first rest hfirst hnext hembedded _ ih =>
    obtain ⟨heligible, hrest⟩ := permitted_cons.1 hpermitted
    obtain ⟨target, htarget, hfound⟩ := Model.targetType?_eq_some_iff.1 hnext
    have hget := get?_links_of_object htype hfirst heligible hresolve htarget
    have hinner : (fieldLink model depth path first).fields =
        some (links model depth (first.id :: path) target) :=
      fields_fieldLink_eq_some_iff.2 ⟨target, htarget, hembedded, rfl⟩
    have hbelow := ih hfound hinner hfield hrest
    rw [List.cons_append, List.map_cons, Link.along?]
    simp only [hlink, hget, Option.bind_eq_bind, Option.bind_some]
    rw [hbelow, List.map_cons, List.reverse_cons, List.append_assoc, List.singleton_append]

/-! ### Names of links -/

theorem matchesFields_links_iff (htype : model.type? id = some type) :
    MatchesFields model depth path type (links model depth path id) ↔
      ((type.fields.filter (eligible depth path)).map (linkName model)).Nodup := by
  refine ⟨MatchesFields.names, fun hnames => ⟨hnames, ?_⟩⟩
  rw [links_of_some htype]
  refine Entries.collect_of_nodup ?_
  rwa [Entries.keys, List.map_map]

section Named

variable (hresolve : Model.resolve decl = .ok model) (htype : model.type? id = some type)

include hresolve htype

/-- Only the identifier of a root entity is linked under another name than its own. -/
theorem linkName_cases {field : Field} (hfield : field ∈ type.fields) :
    linkName model field = field.name ∨ type.kind = .rootEntity ∧ field.system = true ∧
      field.name = Names.idField ∧ linkName model field = Names.storeKeyField := by
  obtain ⟨index, hindex⟩ := List.mem_iff_getElem?.1 hfield
  obtain ⟨_, -, hresolved⟩ := Model.resolved_type hresolve htype
  have hat : field.id.type = id := by rw [hresolved.fieldsAt.position index field hindex]
  rw [linkName, hat, htype, Option.any_some]
  by_cases hcondition : type.kind = .rootEntity ∧ field.system = true ∧ field.name = Names.idField
  · simp [hcondition]
  · left
    simp_all

/-- Where no eligible field has the name of the store's key, or no field is linked under it, all
names of links are distinct. -/
theorem nodup_linkNames
    (h : type.kind ≠ .rootEntity ∨ ∀ field ∈ type.fields, eligible depth path field = true →
      field.name ≠ Names.storeKeyField) :
    ((type.fields.filter (eligible depth path)).map (linkName model)).Nodup := by
  obtain ⟨_, -, hresolved⟩ := Model.resolved_type hresolve htype
  have hfields : type.fields.Nodup := List.Nodup.of_map _ hresolved.fieldsAt.names
  refine List.Nodup.map_on ?_ (hfields.filter _)
  intro a ha b hb hsame
  obtain ⟨ha, haEligible⟩ := List.mem_filter.1 ha
  obtain ⟨hb, hbEligible⟩ := List.mem_filter.1 hb
  rcases linkName_cases hresolve htype ha with hname | ⟨hkind, -, hname, hkey⟩ <;>
    rcases linkName_cases hresolve htype hb with hname' | ⟨hkind', -, hname', hkey'⟩
  · exact hresolved.eq_of_name ha hb (hname.symm.trans (hsame.trans hname'))
  · exact absurd (hname.symm.trans (hsame.trans hkey')) (h.resolve_left (· hkind') a ha haEligible)
  · exact absurd (hname'.symm.trans (hsame.symm.trans hkey))
      (h.resolve_left (· hkind) b hb hbEligible)
  · exact hresolved.eq_of_name ha hb (hname.trans hname'.symm)

end Named

/-- A search-indexed root entity has an indexed identifier, linked under the store's key. -/
theorem exists_identifier (hresolve : Model.resolve decl = .ok model)
    (htype : type ∈ model.rootEntities) (hindexed : type.searchIndexed = true) :
    ∃ field ∈ type.fields, field.name = Names.idField ∧ field.Linked ∧
      linkName model field = Names.storeKeyField := by
  obtain ⟨hmem, hkind⟩ := List.mem_filter.1 htype
  obtain ⟨⟨declared, id⟩, -, hobject⟩ :=
    Results.exists_of_mem_right (Model.types_of_resolve hresolve) hmem
  have hresolved := ModelDecl.resolved_of_resolveObject hobject
  obtain ⟨hsame, hroot⟩ := ModelDecl.root_of_resolveObject hobject
  have hkind : type.kind = .rootEntity := of_decide_eq_true hkind
  rw [hkind] at hsame
  rw [ObjectType.searchIndexed, hroot hsame.symm, Option.any_some] at hindexed
  obtain ⟨added, hfields, -⟩ := hresolved.fields_eq
  have hat := Model.type?_id_of_mem hresolve hmem
  rw [hresolved.id_eq] at hat
  rw [hfields, ModelDecl.systemFields, if_pos (by rw [← hsame]; rfl)]
  refine ⟨_, List.mem_append_left _ List.mem_cons_self, rfl, ⟨.inl ?_, rfl⟩, ?_⟩
  · simpa using ⟨hsame.symm, hindexed⟩
  · simp [linkName, hat, hkind]

/-! ### One entry for each field -/

/-- No level below the first is that of a root entity, so the names of links are those of fields. -/
theorem exists_matchesFields_below (hresolve : Model.resolve decl = .ok model)
    (htype : model.type? id = some type) {route : List Field} {owner : ObjectType} {field : Field}
    (hleads : Leads model type route owner) (hfield : field ∈ owner.fields)
    (hrelation : field.relation = false) {entries : Entries Link}
    (hentries : (fieldLink model depth (route.map (·.id)).reverse field).fields = some entries) :
    ∃ target, Leads model type (route ++ [field]) target ∧
      MatchesFields model depth ((route ++ [field]).map (·.id)).reverse target entries := by
  obtain ⟨targetId, hobject, hembedded, rfl⟩ := fields_fieldLink_eq_some_iff.1 hentries
  obtain ⟨ownerId, howner⟩ := hleads.exists_type? ⟨id, htype⟩
  obtain ⟨_, hfound, htarget⟩ := Model.exists_target hresolve howner hfield hobject
  refine ⟨_, hleads.concat hfield htarget hembedded, ?_⟩
  rw [List.map_append, List.reverse_append, List.map_singleton, List.reverse_singleton,
    List.singleton_append, matchesFields_links_iff hfound]
  refine nodup_linkNames hresolve hfound (.inl fun hkind => ?_)
  simpa [hrelation, hembedded] using
    (Model.kind_of_targetType? hresolve howner hfield htarget).1 hkind

section Root

variable (hresolve : Model.resolve decl = .ok model) (htype : type ∈ model.rootEntities)
  (hlink : link.fields = some (links model depth [] type.id))

include hresolve htype hlink

theorem linksEachField_of_names (h : ∀ field ∈ type.fields, eligible depth [] field = true →
    field.name ≠ Names.storeKeyField) : LinksEachField model depth type link := by
  have hat := Model.type?_id_of_mem hresolve (List.mem_filter.1 htype).1
  constructor
  · intro names level entries hlevel hentries
    cases names with
    | nil =>
      cases hlevel
      cases hlink.symm.trans hentries
      exact ⟨[], type, .nil type, rfl,
        (matchesFields_links_iff hat).2 (nodup_linkNames hresolve hat (.inr h))⟩
    | cons name rest =>
      obtain ⟨route, owner, field, hleads, hfield, hpermitted, hnames, rfl⟩ :=
        exists_leads_of_along? hresolve hat hlink hlevel
      rw [List.append_nil] at hentries
      have hlast := hpermitted.linked field (List.mem_append_right _ List.mem_cons_self)
      obtain ⟨target, htarget, hmatches⟩ :=
        exists_matchesFields_below hresolve hat hleads hfield hlast.2 hentries
      exact ⟨route ++ [field], target, htarget, hnames, hmatches⟩
  · intro entries inner hentries hget
    cases hlink.symm.trans hentries
    obtain ⟨field, hfield, heligible, hname, rfl⟩ := exists_field_of_get?_links hat hget
    rcases linkName_cases hresolve hat hfield with hown | ⟨-, hsystem, hidentifier, -⟩
    · exact absurd (hown.symm.trans hname) (h field hfield heligible)
    · exact ⟨field, hfield, hsystem, hidentifier, rfl⟩

/-- The identifier and a declared field of the store's name cannot both have an entry. -/
theorem names_of_linksEachField (hindexed : type.searchIndexed = true)
    (heach : LinksEachField model depth type link) :
    ∀ field ∈ type.fields, eligible depth [] field = true → field.name ≠ Names.storeKeyField := by
  intro field hfield heligible hname
  have hat := Model.type?_id_of_mem hresolve (List.mem_filter.1 htype).1
  obtain ⟨route, target, hleads, hroute, hmatches⟩ := heach.levels [] link _ rfl hlink
  cases List.map_eq_nil_iff.1 hroute
  cases hleads
  obtain ⟨identifier, hidentifier, hidName, hidLinked, hkey⟩ :=
    exists_identifier hresolve htype hindexed
  have hidEligible : eligible depth [] identifier = true :=
    eligible_iff.2 ⟨hidLinked, by simpa using (eligible_iff.1 heligible).2⟩
  have hlinkName : linkName model field = Names.storeKeyField := by
    rcases linkName_cases hresolve hat hfield with hown | ⟨-, -, -, hkey⟩
    · exact hown.trans hname
    · exact hkey
  have hsame : identifier = field :=
    List.inj_on_of_nodup_map hmatches.names (List.mem_filter.2 ⟨hidentifier, hidEligible⟩)
      (List.mem_filter.2 ⟨hfield, heligible⟩) (hkey.trans hlinkName.symm)
  rw [hsame, hname] at hidName
  exact absurd hidName (by decide)

end Root

/-- The view of a search-indexed root entity has one entry for each eligible field at every level,
and the identifier under the store's key, exactly if no eligible field of the root entity has the
name of that key. -/
theorem linksEachField_iff (hresolve : Model.resolve decl = .ok model)
    (htype : type ∈ model.rootEntities) (hindexed : type.searchIndexed = true)
    (settings : Settings) :
    ∃ view ∈ requiredViews model, requiredView? type = some view ∧
      ∃ link, (view.properties model settings).links = [(view.collection, link)] ∧
        (LinksEachField model settings.recursionDepth type link ↔
          ∀ field ∈ type.fields, eligible settings.recursionDepth [] field = true →
            field.name ≠ Names.storeKeyField) := by
  obtain ⟨view, hview, hrequired, link, hlinks, hfields⟩ :=
    exists_collectionLink hresolve htype hindexed settings
  exact ⟨view, hview, hrequired, link, hlinks,
    names_of_linksEachField hresolve htype hfields hindexed,
    linksEachField_of_names hresolve htype hfields⟩

/-- Below the collection of deliveries a field may well be called like the store's key. -/
theorem links_of_deliveries_with_codes :
    let address : FieldDecl := { name := "address", typeName := "Address", indexed := true }
    let code : FieldDecl := { name := "_key", typeName := "String", indexed := true }
    let decl : ModelDecl :=
      { types :=
        [{ name := "Delivery", kind := .rootEntity, fields := [address], searchIndexed := true },
         { name := "Address", kind := .valueObject, fields := [code] }] }
    ∃ model, Model.resolve decl = .ok model ∧ ∃ type ∈ model.rootEntities,
      ∃ view ∈ requiredViews model, requiredView? type = some view ∧
        ∃ link, (view.properties model {}).links = [(view.collection, link)] ∧
          LinksEachField model 1 type link := by
  intro address code decl
  obtain ⟨model, hresolve, type, htype, hindexed, hnames⟩ :
      ∃ model, Model.resolve decl = .ok model ∧ ∃ type ∈ model.rootEntities,
        type.searchIndexed = true ∧ ∀ field ∈ type.fields, eligible 1 [] field = true →
          field.name ≠ Names.storeKeyField :=
    ⟨_, rfl, _, List.mem_cons_self, rfl, by decide⟩
  obtain ⟨view, hview, hrequired, link, hlinks, heach⟩ :=
    linksEachField_iff hresolve htype hindexed {}
  exact ⟨model, hresolve, type, htype, view, hview, hrequired, link, hlinks, heach.2 hnames⟩

/-- A field of orders that is called like the store's key takes the entry of the identifier. -/
theorem key_of_orders_is_overwritten :
    let code : FieldDecl := { name := "_key", typeName := "String", indexed := true }
    let decl : ModelDecl :=
      { types :=
        [{ name := "Order", kind := .rootEntity, fields := [code], searchIndexed := true }] }
    ∃ model, Model.resolve decl = .ok model ∧ ∃ type ∈ model.rootEntities,
      ∃ view ∈ requiredViews model, requiredView? type = some view ∧
        ∃ link, (view.properties model {}).links = [(view.collection, link)] ∧
          ¬ LinksEachField model 1 type link := by
  intro code decl
  obtain ⟨model, hresolve, type, htype, hindexed, field, hfield, heligible, hname⟩ :
      ∃ model, Model.resolve decl = .ok model ∧ ∃ type ∈ model.rootEntities,
        type.searchIndexed = true ∧ ∃ field ∈ type.fields, eligible 1 [] field = true ∧
          field.name = Names.storeKeyField :=
    ⟨_, rfl, _, List.mem_cons_self, rfl, _, List.mem_of_getElem? (i := 3) rfl, rfl, rfl⟩
  obtain ⟨view, hview, hrequired, link, hlinks, hfields⟩ :=
    exists_collectionLink hresolve htype hindexed {}
  refine ⟨model, hresolve, type, htype, view, hview, hrequired, link, hlinks, fun heach => ?_⟩
  exact names_of_linksEachField hresolve htype hfields hindexed heach field hfield heligible hname

end Search

end EntitySchema
