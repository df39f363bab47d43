import EntitySchema.Proofs.CreateInput.Inputs
import EntitySchema.Proofs.CreateInput.Prepared

/-! # What is stored for a field that is not reported

A field that the affected fields of a payload leave out has, in every object that the payload
supplies, a content in which the payload has no part. -/
namespace EntitySchema

namespace Prepare

variable {decl : ModelDecl} {model : Model} {creation : Creation}

/-- The content of a field that a payload leaves out: what the server computes for a system field,
and for another one its default, prepared, or nothing. -/
def Unsupplied (model : Model) (creation : Creation) (path : List PathStep) (kind : TypeKind)
    (field : Field) (content : Option Json) : Prop :=
  if field.system then
    ∃ server, creation.properties path (CreateInput.serverProperties kind) = .ok server ∧
      content = server.get? field.name
  else
    match field.default with
    | none => content = none
    | some value => ∃ n, property (within model creation n) path
        (CreateInput.inputField model field) value = .ok content

/-- The position of an object matters only for where its identifiers come from. -/
theorem Unsupplied.below {path : List PathStep} {kind : TypeKind} {field : Field}
    {content : Option Json} (h : Unsupplied model creation path kind field content) :
    Unsupplied model (creation.below path) [] kind field content := by
  unfold Unsupplied at h ⊢
  by_cases hsystem : field.system = true
  · rw [if_pos hsystem] at h ⊢
    rw [Creation.properties_below]
    exact h
  · rw [if_neg hsystem] at h ⊢
    cases hdefault : field.default with
    | none =>
      rw [hdefault] at h
      exact h
    | some value =>
      rw [hdefault] at h
      obtain ⟨n, hn⟩ := h
      have hsimulates : Simulates path (within model creation n)
          (within model (creation.below path) n) := within_simulates (Nat.le_refl n)
      exact ⟨n, property_simulates hsimulates hn⟩

/-- Bounds on the depth of preparation that suffice give the same result. -/
theorem property_unique {n m : Nat} {path : List PathStep} {field : InputField} {value : Json}
    {first second : Option Json}
    (hfirst : property (within model creation n) path field value = .ok first)
    (hsecond : property (within model creation m) path field value = .ok second) :
    first = second := by
  have hdeeper : ∀ {k : Nat} {content : Option Json}, k ≤ max n m →
      property (within model creation k) path field value = .ok content →
      property (within model (creation.below []) (max n m)) path field value = .ok content := by
    intro k content hk hcontent
    have hsimulates : Simulates [] (within model creation k)
        (within model (creation.below []) (max n m)) := within_simulates hk
    rw [← List.append_nil path] at hcontent
    exact property_simulates hsimulates hcontent
  have hn := hdeeper (Nat.le_max_left n m) hfirst
  have hm := hdeeper (Nat.le_max_right n m) hsecond
  rw [hn] at hm
  cases hm
  rfl

theorem Unsupplied.unique {path : List PathStep} {kind : TypeKind} {field : Field}
    {first second : Option Json} (hfirst : Unsupplied model creation path kind field first)
    (hsecond : Unsupplied model creation path kind field second) : first = second := by
  unfold Unsupplied at hfirst hsecond
  by_cases hsystem : field.system = true
  · rw [if_pos hsystem] at hfirst hsecond
    obtain ⟨server, hserver, rfl⟩ := hfirst
    obtain ⟨server', hserver', rfl⟩ := hsecond
    rw [hserver] at hserver'
    cases hserver'
    rfl
  · rw [if_neg hsystem] at hfirst hsecond
    cases hdefault : field.default with
    | none =>
      rw [hdefault] at hfirst hsecond
      rw [hfirst, hsecond]
    | some value =>
      rw [hdefault] at hfirst hsecond
      obtain ⟨n, hn⟩ := hfirst
      obtain ⟨m, hm⟩ := hsecond
      exact property_unique hn hm

/-- The server computes properties of entities only, and names them like system fields. -/
theorem get?_properties_eq_none {path : List PathStep} {kind : TypeKind} {server : Json.Object}
    (h : creation.properties path (CreateInput.serverProperties kind) = .ok server) {name : String}
    (hname : kind.hasSystemFields = true →
      name ∉ [Names.idField, Names.createdAtField, Names.updatedAtField]) :
    server.get? name = none := by
  cases hkind : kind.hasSystemFields with
  | false =>
    rw [CreateInput.serverProperties_eq_none_iff.2 hkind] at h
    cases h
    rfl
  | true =>
    refine Entries.get?_eq_none_iff.2 fun hmem => ?_
    rw [Creation.keys_properties h] at hmem
    exact hname hkind (TypeKind.mem_serverNames hmem).2

/-- An object stores for a field that it is not given what the server computes, or the default. -/
theorem unsupplied_of_within (hresolve : Model.resolve decl = .ok model) {id : TypeId}
    {type : ObjectType} (htype : model.type? id = some type) {field : Field}
    (hfield : field ∈ type.fields) {n : Nat} {path : List PathStep} {object built : Json.Object}
    (h : within model creation n id path object = .ok built)
    (hobject : field.system = false → object.get? field.name = none) :
    Unsupplied model creation path type.kind field (built.get? field.name) := by
  obtain ⟨_, -, hresolved⟩ := Model.resolved_type hresolve htype
  cases n with
  | zero => cases h
  | succ n =>
    obtain ⟨input, own, server, hinput, hown, hserver, rfl⟩ := within_eq_ok_iff.1 h
    obtain ⟨type', htype', rfl⟩ := Model.createInput?_eq_some_iff.1 hinput
    rw [htype] at htype'
    cases htype'
    have hnames : ((CreateInput.ofType model type).fields.map (·.name)).Nodup :=
      CreateInput.nodup_names_ofType hresolved.fieldsAt
    rw [Entries.get?_append]
    unfold Unsupplied
    by_cases hsystem : field.system = true
    · rw [if_pos hsystem]
      refine ⟨server, hserver, ?_⟩
      have hforeign : field.name ∉ (CreateInput.ofType model type).fields.map (·.name) := by
        intro hmem
        rw [CreateInput.names_ofType] at hmem
        obtain ⟨other, hother, hname⟩ := List.mem_map.1 hmem
        obtain ⟨hin, hdeclared⟩ := List.mem_filter.1 hother
        have hsame : other = field := hresolved.eq_of_name hin hfield hname
        rw [hsame, hsystem] at hdeclared
        cases hdeclared
      rw [get?_ownProperties_of_not_mem hown hforeign, Option.none_or]
    · rw [if_neg hsystem]
      have hdeclared : field.system = false := by simpa using hsystem
      have hinputField : CreateInput.inputField model field ∈
          (CreateInput.ofType model type).fields :=
        CreateInput.mem_fields_ofType.2 ⟨field, hfield, hdeclared, rfl⟩
      have hserverNone : server.get? field.name = none := by
        refine get?_properties_eq_none hserver fun hkind => ?_
        exact hresolved.name_ne_of_system hkind hfield hdeclared
      rw [hserverNone, Option.or_none]
      have hvalue : (object.get? (CreateInput.inputField model field).name).or
          (CreateInput.inputField model field).default = field.default := by
        have hnone : object.get? (CreateInput.inputField model field).name = none :=
          hobject hdeclared
        rw [hnone]
        rfl
      have hproperty := get?_ownProperties hown hnames hinputField
      rw [hvalue] at hproperty
      cases hdefault : field.default with
      | none =>
        rw [hdefault] at hproperty
        exact hproperty
      | some value =>
        rw [hdefault] at hproperty
        exact ⟨n, hproperty⟩

/-- The content of a field that is left out at the outermost position is a function of the
identifiers that the supply gives. -/
theorem exists_content (model : Model) (now : Instant) (kind : TypeKind) (field : Field) :
    ∃ content : (List PathStep → String) → Option Json, ∀ ids stored,
      Unsupplied model ⟨now, ids⟩ [] kind field stored → stored = content ids := by
  classical
  refine ⟨fun ids =>
    if h : ∃ stored, Unsupplied model ⟨now, ids⟩ [] kind field stored then h.choose else none, ?_⟩
  intro ids stored hstored
  have hsome : ∃ stored, Unsupplied model ⟨now, ids⟩ [] kind field stored := ⟨stored, hstored⟩
  beta_reduce
  rw [dif_pos hsome]
  exact hstored.unique hsome.choose_spec

end Prepare

/-- For each field there is one content, up to the identifiers that are drawn for it, that every
supplied object gets of it from every payload that is not reported to write it. -/
theorem unreported_field_ignores_payload {decl : ModelDecl} {model : Model}
    (hresolve : Model.resolve decl = .ok model) (now : Instant) {f : FieldId}
    {type : ObjectType} {field : Field} (htype : model.type? f.type = some type)
    (hfield : type.fields[f.index]? = some field) :
    ∃ content : (List PathStep → String) → Option Json,
      ∀ (freshId : List PathStep → String) (id : TypeId) (payload prepared : Json.Object)
        (reported : List FieldId) (path : List PathStep) (object : Json.Object),
        model.prepare ⟨now, freshId⟩ id payload = .ok prepared →
        model.affectedFields id payload = .ok reported → f ∉ reported →
        Supplied model id payload path f.type object →
        ∃ built : Json.Object, (Json.object prepared).at? path = some (.object built) ∧
          built.get? field.name = content (fun below => freshId (below ++ path)) ∧
          Prepare.Unsupplied model ⟨now, freshId⟩ path type.kind field
            (built.get? field.name) := by
  obtain ⟨_, -, hresolved⟩ := Model.resolved_type hresolve htype
  have hmem : field ∈ type.fields := List.mem_of_getElem? hfield
  have hid : field.id = f := hresolved.fieldsAt.position f.index field hfield
  have hnames : ∀ {id : TypeId} {input : CreateInput}, model.createInput? id = some input →
      (input.fields.map (·.name)).Nodup := by
    intro id input hinput
    obtain ⟨other, hother, rfl⟩ := Model.createInput?_eq_some_iff.1 hinput
    obtain ⟨_, -, hplaced⟩ := Model.resolved_type hresolve hother
    exact CreateInput.nodup_names_ofType hplaced.fieldsAt
  obtain ⟨content, hcontent⟩ := Prepare.exists_content model now type.kind field
  refine ⟨content, ?_⟩
  intro freshId id payload prepared reported path object hprepare hreported hnot hsupplied
  obtain ⟨n, built, hbuilt, hat⟩ := Prepare.built_of_supplied hnames hprepare hsupplied
  have hobject : field.system = false → object.get? field.name = none := by
    intro hsystem
    have hinput : model.createInput? f.type = some (CreateInput.ofType model type) :=
      Model.createInput?_eq_some_iff.2 ⟨type, htype, rfl⟩
    have hin : CreateInput.inputField model field ∈ (CreateInput.ofType model type).fields :=
      CreateInput.mem_fields_ofType.2 ⟨field, hmem, hsystem, rfl⟩
    have hunreported : (CreateInput.inputField model field).field ∉ reported := by
      rw [← hid] at hnot
      exact hnot
    exact Model.get?_eq_none_of_unreported hreported hsupplied hinput hin hunreported
  have hstored := Prepare.unsupplied_of_within hresolve htype hmem hbuilt hobject
  exact ⟨built, hat, hcontent _ _ hstored.below, hstored⟩

/-- Two orders of items whose quantity is left out, and defaults to one. -/
theorem unreported_field_of_two_orders :
    let decl : ModelDecl :=
      { types :=
        [{ name := "Order", kind := .object,
           fields := [{ name := "items", typeName := "Item", list := true }] },
         { name := "Item", kind := .valueObject,
           fields := [{ name := "name", typeName := "String" },
             { name := "quantity", typeName := "Int", default := some (Json.nat 1) }] }] }
    let tea : Json.Object := [("name", .string "tea")]
    ∃ model prepared prepared', ∃ built built' : Json.Object, Model.resolve decl = .ok model ∧
      model.prepare ⟨⟨0, 0⟩, fun _ => "a"⟩ 0 [("items", .array [.object [], .object tea])] =
        .ok prepared ∧
      model.prepare ⟨⟨0, 0⟩, fun _ => "a"⟩ 0 [("items", .array [.object []])] = .ok prepared' ∧
      (Json.object prepared).at? [.item 1, .field "items"] = some (.object built) ∧
      (Json.object prepared').at? [.item 0, .field "items"] = some (.object built') ∧
      built.get? "quantity" = built'.get? "quantity" := by
  intro decl tea
  let items : InputField :=
    ⟨"items", ⟨0, 0⟩, none, .listOf (Names.createInput "Item"),
      .objectList ⟨Names.createInput "Item", 1⟩⟩
  let name : InputField := ⟨"name", ⟨1, 0⟩, none, .optional "String", .basic⟩
  let quantity : InputField := ⟨"quantity", ⟨1, 1⟩, some (Json.nat 1), .optional "Int", .basic⟩
  obtain ⟨model, hresolve, input, hinput, hfields, inner, hinner, hinnerFields, type, htype, field,
      hfield, hname, prepared, hprepared, prepared', hprepared'⟩ :
      ∃ model, Model.resolve decl = .ok model ∧
        ∃ input, model.createInput? 0 = some input ∧ input.fields = [items] ∧
        ∃ inner, model.createInput? 1 = some inner ∧ inner.fields = [name, quantity] ∧
        ∃ type, model.type? 1 = some type ∧
        ∃ field, type.fields[1]? = some field ∧ field.name = "quantity" ∧
        ∃ prepared, model.prepare ⟨⟨0, 0⟩, fun _ => "a"⟩ 0
          [("items", .array [.object [], .object tea])] = .ok prepared ∧
        ∃ prepared', model.prepare ⟨⟨0, 0⟩, fun _ => "a"⟩ 0
          [("items", .array [.object []])] = .ok prepared' :=
    ⟨_, rfl, _, rfl, rfl, _, rfl, rfl, _, rfl, _, rfl, rfl, _, rfl, _, rfl⟩
  obtain ⟨hreported, hreported'⟩ :
      model.affectedFields 0 [("items", .array [.object [], .object tea])] =
        .ok [⟨0, 0⟩, ⟨1, 0⟩] ∧
      model.affectedFields 0 [("items", .array [.object []])] = .ok [⟨0, 0⟩] := by
    simp only [Model.affectedFields, Affected.touched, hinput, hfields, hinner, hinnerFields,
      Affected.touchedFields_cons, Affected.touchedFields_nil, Affected.touchedValue,
      Affected.touchedItems, Entries.get?_cons, Entries.get?_nil, String.reduceEq, reduceIte, tea,
      items, name, quantity]
    exact ⟨rfl, rfl⟩
  have hsupplied : ∀ {values : List Json} {index : Nat} {members : Json.Object},
      values[index]? = some (.object members) →
      Supplied model 0 [("items", .array values)] [.item index, .field "items"] 1 members := by
    intro values index members hvalue
    have hitems : items ∈ input.fields := hfields ▸ List.mem_singleton_self items
    exact .item .root hinput hitems rfl rfl hvalue
  obtain ⟨content, hcontent⟩ :=
    unreported_field_ignores_payload (f := ⟨1, 1⟩) hresolve ⟨0, 0⟩ htype hfield
  obtain ⟨built, hat, hbuilt, -⟩ := hcontent _ 0 _ _ _ [.item 1, .field "items"] tea
    hprepared hreported (by decide) (hsupplied rfl)
  obtain ⟨built', hat', hbuilt', -⟩ := hcontent _ 0 _ _ _ [.item 0, .field "items"] []
    hprepared' hreported' (by decide) (hsupplied rfl)
  rw [hname] at hbuilt hbuilt'
  refine ⟨model, prepared, prepared', built, built', hresolve, hprepared, hprepared', hat, hat', ?_⟩
  rw [hbuilt, hbuilt']

end EntitySchema
