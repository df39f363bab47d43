import EntitySchema.CreateInput.Relations
import EntitySchema.Proofs.CreateInput.Endless

/-! # What of a payload is never seen

The three walks through a payload go by the fields of the input and look each of them up. So they see
neither the order of the members nor members of other names, in the payload or in any object that
it has for a field. -/
namespace EntitySchema

/-! ### Rearranging a payload -/

/-- One change to the members of an object, or to those of an object inside it. The names of the
members of an object are distinct. -/
inductive Edit (model : Model) : TypeId → Json.Object → Json.Object → Prop
  | reorder {id : TypeId} {payload payload' : Json.Object} (hperm : payload.Perm payload')
      (hkeys : (Entries.keys payload).Nodup) : Edit model id payload payload'
  /-- Adds a member that no field of the input has the name of. -/
  | foreign {id : TypeId} {input : CreateInput} {before after : Json.Object} {key : String}
      {value : Json} (hinput : model.createInput? id = some input)
      (hkey : ∀ field ∈ input.fields, field.name ≠ key) :
      Edit model id (before ++ after) (before ++ (key, value) :: after)
  | object {id : TypeId} {input : CreateInput} {field : InputField} {nested : NestedInput}
      {before after inner inner' : Json.Object} (hinput : model.createInput? id = some input)
      (hfield : field ∈ input.fields) (hkind : field.kind = .object nested)
      (hinner : Edit model nested.target inner inner') :
      Edit model id (before ++ (field.name, .object inner) :: after)
        (before ++ (field.name, .object inner') :: after)
  | item {id : TypeId} {input : CreateInput} {field : InputField} {nested : NestedInput}
      {before after inner inner' : Json.Object} {first rest : List Json}
      (hinput : model.createInput? id = some input) (hfield : field ∈ input.fields)
      (hkind : field.kind = .objectList nested) (hinner : Edit model nested.target inner inner') :
      Edit model id (before ++ (field.name, .array (first ++ .object inner :: rest)) :: after)
        (before ++ (field.name, .array (first ++ .object inner' :: rest)) :: after)

/-- One payload becomes the other by changes, made or taken back. -/
abbrev Rearranged (model : Model) (id : TypeId) : Json.Object → Json.Object → Prop :=
  Relation.EqvGen (Edit model id)

/-! ### What an input field sees of it -/

inductive ValueAlike (R : TypeId → Json.Object → Json.Object → Prop) (field : InputField) :
    Json → Json → Prop
  | same (value : Json) : ValueAlike R field value value
  | object {nested : NestedInput} {inner inner' : Json.Object} (hkind : field.kind = .object nested)
      (hinner : R nested.target inner inner') :
      ValueAlike R field (.object inner) (.object inner')
  | item {nested : NestedInput} {inner inner' : Json.Object} {first rest : List Json}
      (hkind : field.kind = .objectList nested) (hinner : R nested.target inner inner') :
      ValueAlike R field (.array (first ++ .object inner :: rest))
        (.array (first ++ .object inner' :: rest))

def Alike (R : TypeId → Json.Object → Json.Object → Prop) (fields : List InputField)
    (payload payload' : Json.Object) : Prop :=
  ∀ field ∈ fields,
    Option.Rel (ValueAlike R field) (payload.get? field.name) (payload'.get? field.name)

section Seen

variable {model : Model} {R : TypeId → Json.Object → Json.Object → Prop}

theorem ValueAlike.mono {R' : TypeId → Json.Object → Json.Object → Prop} {field : InputField}
    {value value' : Json} (h : ValueAlike R field value value')
    (himp : ∀ id payload payload', R id payload payload' → R' id payload payload') :
    ValueAlike R' field value value' := by
  cases h with
  | same => exact .same value
  | object hkind hinner => exact .object hkind (himp _ _ _ hinner)
  | item hkind hinner => exact .item hkind (himp _ _ _ hinner)

theorem Alike.mono {R' : TypeId → Json.Object → Json.Object → Prop} {fields : List InputField}
    {payload payload' : Json.Object} (h : Alike R fields payload payload')
    (himp : ∀ id payload payload', R id payload payload' → R' id payload payload') :
    Alike R' fields payload payload' := by
  intro field hfield
  have hseen := h field hfield
  generalize Entries.get? payload field.name = found at hseen ⊢
  generalize Entries.get? payload' field.name = found' at hseen ⊢
  cases hseen with
  | none => exact .none
  | some hvalue => exact .some (hvalue.mono himp)

theorem rel_same (field : InputField) (value? : Option Json) :
    Option.Rel (ValueAlike R field) value? value? := by
  cases value? with
  | none => exact .none
  | some value => exact .some (.same value)

theorem alike_of_get?_eq {fields : List InputField} {payload payload' : Json.Object}
    (h : ∀ field ∈ fields, payload.get? field.name = payload'.get? field.name) :
    Alike R fields payload payload' := by
  intro field hfield
  rw [h field hfield]
  exact rel_same field _

theorem alike_of_replace {fields : List InputField} (hnames : (fields.map (·.name)).Nodup)
    {field : InputField} (hfield : field ∈ fields) {value value' : Json}
    (hvalue : ValueAlike R field value value') (before after : Json.Object) :
    Alike R fields (before ++ (field.name, value) :: after)
      (before ++ (field.name, value') :: after) := by
  intro other hother
  rw [Entries.get?_append, Entries.get?_append, Entries.get?_cons, Entries.get?_cons]
  -- Fields have distinct names, so the others look for another member.
  by_cases hname : field.name = other.name
  · have hsame : field = other := List.inj_on_of_nodup_map hnames hfield hother hname
    subst hsame
    rw [if_pos rfl, if_pos rfl]
    -- A member of the same name in front of both would hide them.
    cases Entries.get? before field.name with
    | none => exact .some hvalue
    | some shadowing => exact .some (.same shadowing)
  · rw [if_neg hname, if_neg hname]
    exact rel_same other _

/-- What holds of objects in which all fields find the same, up to it, holds across a change. -/
theorem Edit.induct
    (hnames : ∀ {id : TypeId} {input : CreateInput}, model.createInput? id = some input →
      (input.fields.map (·.name)).Nodup)
    (hstep : ∀ id payload payload', (∀ input, model.createInput? id = some input →
      Alike R input.fields payload payload') → R id payload payload')
    {id : TypeId} {payload payload' : Json.Object} (h : Edit model id payload payload') :
    R id payload payload' := by
  induction h with
  | reorder hperm hkeys =>
    refine hstep _ _ _ fun input _ => alike_of_get?_eq fun field _ => ?_
    exact Entries.get?_of_perm hperm hkeys field.name
  | foreign hinput hkey =>
    refine hstep _ _ _ fun input hinput' => alike_of_get?_eq fun field hfield => ?_
    rw [hinput, Option.some.injEq] at hinput'
    subst hinput'
    rw [Entries.get?_append, Entries.get?_append, Entries.get?_cons,
      if_neg (hkey field hfield).symm]
  | object hinput hfield hkind _ ih =>
    refine hstep _ _ _ fun input hinput' => ?_
    rw [hinput, Option.some.injEq] at hinput'
    subst hinput'
    exact alike_of_replace (hnames hinput) hfield (.object hkind ih) _ _
  | item hinput hfield hkind _ ih =>
    refine hstep _ _ _ fun input hinput' => ?_
    rw [hinput, Option.some.injEq] at hinput'
    subst hinput'
    exact alike_of_replace (hnames hinput) hfield (.item hkind ih) _ _

/-- What no change to a payload affects is the same for rearranged payloads. -/
theorem eq_of_rearranged {β : Type} {id : TypeId} {outcome : Json.Object → β}
    (hedit : ∀ payload payload', Edit model id payload payload' →
      outcome payload = outcome payload')
    {payload payload' : Json.Object} (h : Rearranged model id payload payload') :
    outcome payload = outcome payload' :=
  congrArg (Quot.lift outcome hedit) (Quot.eqvGen_sound h)

end Seen

/-! ### The walks -/

namespace Prepare

variable {model : Model} {creation : Creation} {prepare : Nested}

def SameFor (prepare : Nested) (id : TypeId) (payload payload' : Json.Object) : Prop :=
  ∀ path, prepare id path payload = prepare id path payload'

theorem items_congr {target : TypeId} {inner inner' : Json.Object}
    (h : SameFor prepare target inner inner') (field : InputField) (path : List PathStep)
    (first rest : List Json) (start : Nat) :
    items prepare field target path start (first ++ .object inner :: rest) =
      items prepare field target path start (first ++ .object inner' :: rest) := by
  rw [items_append, items_append, items, items, h]

theorem property_congr {field : InputField} {value value' : Json}
    (h : ValueAlike (SameFor prepare) field value value') (path : List PathStep) :
    property prepare path field value = property prepare path field value' := by
  cases h with
  | same => rfl
  | object hkind hinner => rw [property_object hkind, property_object hkind, hinner]
  | item hkind hinner =>
    rw [property_objectList hkind, property_objectList hkind, items_congr hinner]

theorem ownProperties_congr {payload payload' : Json.Object} {fields : List InputField}
    (h : Alike (SameFor prepare) fields payload payload') (path : List PathStep) :
    ownProperties prepare path payload fields = ownProperties prepare path payload' fields := by
  induction fields with
  | nil => rfl
  | cons field rest ih =>
    have hrest := ih fun other hother => h other (List.mem_cons_of_mem _ hother)
    have hfield := h field List.mem_cons_self
    rw [ownProperties, ownProperties, hrest]
    generalize Entries.get? payload field.name = found at hfield
    generalize Entries.get? payload' field.name = found' at hfield
    cases hfield with
    | none => rfl
    | some hvalue => simp only [Option.some_or, property_congr hvalue]

end Prepare

namespace Affected

variable {model : Model}

def SameFor (model : Model) (id : TypeId) (payload payload' : Json.Object) : Prop :=
  touched model id payload = touched model id payload'

theorem touchedItems_congr {target : TypeId} {inner inner' : Json.Object}
    (h : SameFor model target inner inner') (field : InputField) (first rest : List Json) :
    touchedItems model field target (first ++ .object inner :: rest) =
      touchedItems model field target (first ++ .object inner' :: rest) := by
  induction first with
  | nil =>
    rw [List.nil_append, List.nil_append, touchedItems, touchedItems, h]
  | cons item others ih =>
    cases item with
    | object members => rw [List.cons_append, List.cons_append, touchedItems, touchedItems, ih]
    | _ => rw [List.cons_append, List.cons_append, touchedItems, touchedItems] <;> simp

theorem touchedValue_congr {field : InputField} {value value' : Json}
    (h : ValueAlike (SameFor model) field value value') :
    touchedValue model field value = touchedValue model field value' := by
  cases h with
  | same => rfl
  | object hkind hinner =>
    rw [touchedValue, touchedValue, hkind]
    exact hinner
  | item hkind hinner =>
    rw [touchedValue, touchedValue, hkind]
    exact touchedItems_congr hinner field _ _

theorem touchedFields_congr {payload payload' : Json.Object} {fields : List InputField}
    (h : Alike (SameFor model) fields payload payload') :
    touchedFields model payload fields = touchedFields model payload' fields := by
  induction fields with
  | nil => rw [touchedFields, touchedFields]
  | cons field rest ih =>
    have hrest := ih fun other hother => h other (List.mem_cons_of_mem _ hother)
    have hfield := h field List.mem_cons_self
    rw [touchedFields_cons, touchedFields_cons, hrest]
    generalize Entries.get? payload field.name = found at hfield
    generalize Entries.get? payload' field.name = found' at hfield
    cases hfield with
    | none => rfl
    | some hvalue => simp only [touchedValue_congr hvalue]

end Affected

/-- The keys of relations stand in the payload itself and are no objects. -/
theorem CreateInput.relationAdditions_congr {R : TypeId → Json.Object → Json.Object → Prop}
    {input : CreateInput} {payload payload' : Json.Object}
    (h : Alike R input.fields payload payload') :
    input.relationAdditions payload = input.relationAdditions payload' := by
  rw [relationAdditions, relationAdditions]
  congr 1
  refine Results.mapM_congr fun field hfield => ?_
  have hseen := h field hfield
  generalize Entries.get? payload field.name = found at hseen
  generalize Entries.get? payload' field.name = found' at hseen
  cases hseen with
  | none => rfl
  | some hvalue =>
    cases hvalue with
    | same => rfl
    | object hkind => simp only [hkind]
    | item hkind => simp only [hkind]

/-! ### The results -/

section Results

variable {decl : ModelDecl} {model : Model} {creation : Creation} {id : TypeId}
  {payload payload' : Json.Object}

theorem Prepare.within_eq_of_edit (hresolve : Model.resolve decl = .ok model)
    (h : Edit model id payload payload') (n : Nat) (path : List PathStep) :
    within model creation n id path payload = within model creation n id path payload' := by
  refine Edit.induct (R := fun id payload payload' =>
    ∀ n, SameFor (within model creation n) id payload payload')
    (Model.nodup_names_of_createInput? hresolve) ?_ h n path
  intro id payload payload' hseen n path
  cases n with
  | zero => rfl
  | succ n =>
    rw [within, within]
    cases hinput : model.createInput? id with
    | none => rfl
    | some input =>
      have halike : Alike (SameFor (within model creation n)) input.fields payload payload' :=
        (hseen input hinput).mono fun _ _ _ hsame => hsame n
      simp only [ownProperties_congr halike path]

/-- Payloads that no bound tells apart are prepared alike, though their own bounds differ. -/
theorem Model.prepare_eq_of_within_eq
    (h : ∀ n path, Prepare.within model creation n id path payload =
      Prepare.within model creation n id path payload') :
    model.prepare creation id payload = model.prepare creation id payload' := by
  by_cases hends : model.prepare creation id payload = .error .endless
  · have hendless : Prepare.Endless model creation (id, payload') := by
      intro n path
      exact (h n path).symm.trans (Model.prepare_eq_endless_iff.1 hends n path)
    rw [hends, Model.prepare_eq_endless_iff.2 hendless]
  · have hends' : model.prepare creation id payload' ≠ .error .endless := by
      intro hcut
      refine hends (Model.prepare_eq_endless_iff.2 fun n path => ?_)
      exact (h n path).trans (Model.prepare_eq_endless_iff.1 hcut n path)
    -- Neither preparation is cut off, so each is the same with the greater of the two bounds.
    let bound := max (Prepare.bound model payload) (Prepare.bound model payload')
    calc model.prepare creation id payload
        = Prepare.within model creation bound id [] payload :=
          (Prepare.within_eq_of_le (Nat.le_max_left _ _) hends).symm
      _ = Prepare.within model creation bound id [] payload' := h bound []
      _ = model.prepare creation id payload' :=
          Prepare.within_eq_of_le (Nat.le_max_right _ _) hends'

theorem Affected.touched_eq_of_edit (hresolve : Model.resolve decl = .ok model)
    (h : Edit model id payload payload') : touched model id payload = touched model id payload' := by
  refine Edit.induct (R := SameFor model) (Model.nodup_names_of_createInput? hresolve) ?_ h
  intro id payload payload' hseen
  rw [SameFor, touched, touched]
  cases hinput : model.createInput? id with
  | none => rfl
  | some input => exact touchedFields_congr (hseen input hinput)

/-- The fields of the input find the same in an edited payload, up to whatever holds of everything. -/
theorem Edit.alike (hresolve : Model.resolve decl = .ok model)
    (h : Edit model id payload payload') {input : CreateInput}
    (hinput : model.createInput? id = some input) :
    Alike (fun _ _ _ => True) input.fields payload payload' := by
  refine Edit.induct (R := fun id payload payload' => ∀ input, model.createInput? id = some input →
    Alike (fun _ _ _ => True) input.fields payload payload')
    (Model.nodup_names_of_createInput? hresolve) ?_ h input hinput
  intro id payload payload' hseen input hinput
  exact (hseen input hinput).mono fun _ _ _ _ => trivial

/-- What the server computes for an entity: the timestamps, and a fresh identifier for a child. -/
theorem Creation.get?_properties {kind : TypeKind} (hkind : kind = .rootEntity ∨ kind = .childEntity)
    {path : List PathStep} {server : Json.Object}
    (h : creation.properties path (CreateInput.serverProperties kind) = .ok server) :
    ∃ now, creation.now.rfc3339? = some now ∧
      server.get? Names.createdAtField = some (.string now) ∧
      server.get? Names.updatedAtField = some (.string now) ∧
      server.get? Names.idField =
        if kind = .childEntity then some (.string (creation.freshId path)) else none := by
  cases hnow : creation.now.rfc3339? with
  | none => rcases hkind with rfl | rfl <;> simp [properties, CreateInput.serverProperties, hnow] at h
  | some now =>
    refine ⟨now, rfl, ?_⟩
    rcases hkind with rfl | rfl
    · simp only [properties, CreateInput.serverProperties, hnow] at h
      cases h
      exact ⟨rfl, rfl, rfl⟩
    · simp only [properties, CreateInput.serverProperties, hnow] at h
      cases h
      exact ⟨rfl, rfl, rfl⟩

/-- What an entity stores under the names of its system fields is the server's alone. -/
theorem Prepare.system_of_within (hresolve : Model.resolve decl = .ok model)
    {type : ObjectType} (htype : model.type? id = some type)
    (hkind : type.kind = .rootEntity ∨ type.kind = .childEntity) {n : Nat} {path : List PathStep}
    {object built : Json.Object} (h : within model creation n id path object = .ok built) :
    ∃ now, creation.now.rfc3339? = some now ∧
      built.get? Names.createdAtField = some (.string now) ∧
      built.get? Names.updatedAtField = some (.string now) ∧
      built.get? Names.idField =
        if type.kind = .childEntity then some (.string (creation.freshId path)) else none := by
  cases n with
  | zero => cases h
  | succ n =>
    obtain ⟨input, own, server, hinput, hown, hserver, rfl⟩ := within_eq_ok_iff.1 h
    obtain ⟨type', htype', rfl⟩ := Model.createInput?_eq_some_iff.1 hinput
    rw [htype, Option.some.injEq] at htype'
    subst htype'
    obtain ⟨_, -, hresolved⟩ := Model.resolved_type hresolve htype
    have hsystem : type.kind.hasSystemFields = true := by
      rcases hkind with hkind | hkind <;> rw [hkind] <;> rfl
    have hforeign : ∀ name ∈ [Names.idField, Names.createdAtField, Names.updatedAtField],
        own.get? name = none := by
      intro name hname
      refine get?_ownProperties_of_not_mem hown fun hmem => ?_
      obtain ⟨_, hfield, rfl⟩ := List.mem_map.1 hmem
      obtain ⟨source, hsource, hdeclared, rfl⟩ := CreateInput.mem_fields_ofType.1 hfield
      exact hresolved.name_ne_of_system hsystem hsource hdeclared hname
    rw [Entries.get?_append, Entries.get?_append, Entries.get?_append,
      hforeign Names.createdAtField (by simp), hforeign Names.updatedAtField (by simp),
      hforeign Names.idField (by simp), Option.none_or, Option.none_or, Option.none_or]
    exact Creation.get?_properties hkind hserver

/-- Reordered members, and members that no field of the input has the name of, change nothing: not
the document, not the affected fields, not the relations, nor an error of any of them. So a client
cannot set the system fields of an entity, wherever it stands in the payload. -/
theorem Model.results_of_rearranged (hresolve : Model.resolve decl = .ok model)
    {input : CreateInput} (hinput : model.createInput? id = some input) (creation : Creation)
    (h : Rearranged model id payload payload') :
    model.prepare creation id payload = model.prepare creation id payload' ∧
    model.affectedFields id payload = model.affectedFields id payload' ∧
    input.relationAdditions payload = input.relationAdditions payload' ∧
    ∀ prepared, model.prepare creation id payload = .ok prepared →
      ∀ path typeId object type, Supplied model id payload path typeId object →
        model.type? typeId = some type → type.kind = .rootEntity ∨ type.kind = .childEntity →
        ∃ (built : Json.Object) (now : String), (Json.object prepared).at? path = some (.object built) ∧
          creation.now.rfc3339? = some now ∧
          built.get? Names.createdAtField = some (.string now) ∧
          built.get? Names.updatedAtField = some (.string now) ∧
          built.get? Names.idField =
            if type.kind = .childEntity then some (.string (creation.freshId path)) else none := by
  refine ⟨eq_of_rearranged (fun _ _ hedit => ?_) h, eq_of_rearranged (fun _ _ hedit => ?_) h,
    eq_of_rearranged (fun _ _ hedit => ?_) h, ?_⟩
  · exact Model.prepare_eq_of_within_eq (Prepare.within_eq_of_edit hresolve hedit)
  · rw [Model.affectedFields, Model.affectedFields, Affected.touched_eq_of_edit hresolve hedit]
  · exact CreateInput.relationAdditions_congr (Edit.alike hresolve hedit hinput)
  · intro prepared hprepared path typeId object type hsupplied htype hkind
    obtain ⟨n, built, hbuilt, hat⟩ :=
      Prepare.built_of_supplied (Model.nodup_names_of_createInput? hresolve) hprepared hsupplied
    obtain ⟨now, hnow, hcreated, hupdated, hid⟩ :=
      Prepare.system_of_within hresolve htype hkind hbuilt
    exact ⟨built, now, hat, hnow, hcreated, hupdated, hid⟩

/-- An order that comes with an identifier of its own, and an item that does, against one without
either. The server identifies the item. -/
theorem results_of_order_with_ids :
    let decl : ModelDecl :=
      { types :=
        [{ name := "Order", kind := .rootEntity,
           fields := [{ name := "number", typeName := "String" },
             { name := "items", typeName := "Item", list := true }] },
         { name := "Item", kind := .childEntity,
           fields := [{ name := "text", typeName := "String" }] }] }
    let order (item : Json.Object) : Json.Object :=
      [("number", .string "7"), ("items", .array [.object item])]
    let mine : String × Json := ("id", .string "mine")
    let creation : Creation := ⟨⟨0, 0⟩, fun _ => "fresh"⟩
    ∃ model, Model.resolve decl = .ok model ∧ ∃ prepared built : Json.Object,
      model.prepare creation 0 (mine :: order [mine]) = .ok prepared ∧
      model.prepare creation 0 (order []) = .ok prepared ∧
      (Json.object prepared).at? [.item 0, .field "items"] = some (.object built) ∧
      built.get? "id" = some (.string "fresh") := by
  intro decl order mine creation
  obtain ⟨model, hresolve, input, hinput, items, hitems, hname, nested, hkind, htarget, item, hitem,
      hforeign, hforeign', type, htype, htypeKind, prepared, hprepared⟩ :
      ∃ model, Model.resolve decl = .ok model ∧ ∃ input, model.createInput? 0 = some input ∧
        ∃ items ∈ input.fields, items.name = "items" ∧
        ∃ nested, items.kind = .objectList nested ∧ nested.target = 1 ∧
        ∃ item, model.createInput? 1 = some item ∧ (∀ field ∈ input.fields, field.name ≠ "id") ∧
          (∀ field ∈ item.fields, field.name ≠ "id") ∧
        ∃ type, model.type? 1 = some type ∧ type.kind = .childEntity ∧
        ∃ prepared, model.prepare ⟨⟨0, 0⟩, fun _ => "fresh"⟩ 0 (mine :: order [mine]) =
          .ok prepared :=
    ⟨_, rfl, _, rfl, _, .tail _ (.head _), rfl, _, rfl, rfl, _, rfl, by decide, by decide, _, rfl,
      rfl, _, rfl⟩
  have hinner : Edit model nested.target ([] ++ []) ([] ++ mine :: []) := by
    rw [htarget]
    exact .foreign hitem hforeign'
  have hitemEdit : Edit model 0 (order []) (order [mine]) := by
    have hedit : Edit model 0
        ([("number", .string "7")] ++ (items.name, .array ([] ++ .object [] :: [])) :: [])
        ([("number", .string "7")] ++ (items.name, .array ([] ++ .object [mine] :: [])) :: []) :=
      .item hinput hitems hkind hinner
    rwa [hname] at hedit
  have houter : Edit model 0 ([] ++ order [mine]) ([] ++ mine :: order [mine]) :=
    .foreign hinput hforeign
  have hrearranged : Rearranged model 0 (mine :: order [mine]) (order []) :=
    .symm _ _ (.trans _ _ _ (.rel _ _ hitemEdit) (.rel _ _ houter))
  have hsupplied : Supplied model 0 (mine :: order [mine]) [.item 0, .field "items"] 1 [mine] := by
    rw [← hname, ← htarget]
    exact .item .root hinput hitems hkind (by rw [hname]; rfl) rfl
  obtain ⟨hsame, -, -, hsystem⟩ := Model.results_of_rearranged hresolve hinput creation hrearranged
  obtain ⟨built, _, hat, -, -, -, hid⟩ :=
    hsystem prepared hprepared _ _ _ type hsupplied htype (.inr htypeKind)
  rw [if_pos htypeKind] at hid
  exact ⟨model, hresolve, prepared, built, hprepared, hsame ▸ hprepared, hat, hid⟩

end Results

end EntitySchema
