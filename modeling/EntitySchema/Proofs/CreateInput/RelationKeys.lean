import EntitySchema.CreateInput.Relations
import EntitySchema.Proofs.CreateInput.Endless
import EntitySchema.Proofs.CreateInput.Supplied

/-! # The relation keys that a payload supplies

The additions report the keys that the outermost object of a payload gives, and no others. So no
payload for a type loses a key exactly if none of the types that its input nests has a relation. -/
namespace EntitySchema

def HasKey (toMany : Bool) (value : Json) (key : String) : Prop :=
  if toMany then ∃ items, value = .array items ∧ .string key ∈ items else value = .string key

def CreateInput.Gives (input : CreateInput) (object : Json.Object) (f : FieldId) (key : String) :
    Prop :=
  ∃ field ∈ input.fields, field.field = f ∧ ∃ toMany value, field.kind = .relation toMany ∧
    object.get? field.name = some value ∧ HasKey toMany value key

def Reports (additions : List RelationAddition) (f : FieldId) (key : String) : Prop :=
  ∃ addition ∈ additions, addition.field = f ∧ key ∈ addition.ids

/-- Whatever can be done with a payload for a type, the additions report every key that one of the
objects of the payload gives. -/
def Model.KeepsKeys (model : Model) (id : TypeId) : Prop :=
  ∀ (creation : Creation) (payload prepared : Json.Object) (affected : List FieldId)
    (input : CreateInput) (additions : List RelationAddition),
    model.prepare creation id payload = .ok prepared →
    model.affectedFields id payload = .ok affected → model.createInput? id = some input →
    input.relationAdditions payload = .ok additions →
    ∀ (path : List PathStep) (type : TypeId) (object : Json.Object) (inner : CreateInput)
      (f : FieldId) (key : String), Supplied model id payload path type object →
      model.createInput? type = some inner → inner.Gives object f key → Reports additions f key

/-! ### The additions are those of the outermost object -/

namespace CreateInput

theorem idItems_eq_ok {field : InputField} {items : List Json} {ids : List String}
    (h : idItems field items = .ok ids) : items = ids.map .string := by
  induction items generalizing ids with
  | nil =>
    cases h
    rfl
  | cons first rest ih =>
    cases first with
    | string key =>
      rw [idItems] at h
      obtain ⟨others, hothers, heq⟩ := Results.map_eq_ok_iff.1 h
      subst heq
      rw [List.map_cons, ih hothers]
    | _ => simp [idItems] at h

theorem mem_relationIds_iff {field : InputField} {toMany : Bool} {value : Json} {ids : List String}
    (h : relationIds field toMany value = .ok ids) (key : String) :
    key ∈ ids ↔ HasKey toMany value key := by
  cases toMany with
  | false =>
    cases value with
    | null =>
      cases h
      simp [HasKey]
    | string given =>
      cases h
      simp [HasKey, eq_comm]
    | _ => simp [relationIds] at h
  | true =>
    cases value with
    | null =>
      cases h
      simp [HasKey]
    | array items =>
      rw [relationIds] at h
      have hitems := idItems_eq_ok h
      simp [HasKey, hitems]
    | _ => simp [relationIds] at h

theorem reports_iff_gives {input : CreateInput} {payload : Json.Object}
    {additions : List RelationAddition} (h : input.relationAdditions payload = .ok additions)
    {f : FieldId} {key : String} : Reports additions f key ↔ input.Gives payload f key := by
  obtain ⟨all, hall, hkept⟩ := Results.bind_eq_ok_iff.1 h
  cases hkept
  have hpairs := Results.mapM_eq_ok_iff.1 hall
  constructor
  · rintro ⟨addition, hkept, hf, hkey⟩
    obtain ⟨hmem, -⟩ := List.mem_filter.1 hkept
    obtain ⟨field, hfield, hcheck⟩ := Results.exists_of_mem_right hpairs hmem
    split at hcheck
    · rename_i toMany value hkind hget
      obtain ⟨ids, hids, heq⟩ := Results.map_eq_ok_iff.1 hcheck
      subst heq
      exact ⟨field, hfield, hf, toMany, value, hkind, hget, (mem_relationIds_iff hids key).1 hkey⟩
    · cases hcheck
      cases hkey
  · rintro ⟨field, hfield, hf, toMany, value, hkind, hget, hkey⟩
    obtain ⟨addition, hmem, hcheck⟩ := Results.exists_of_mem_left hpairs hfield
    simp only [hkind, hget] at hcheck
    obtain ⟨ids, hids, heq⟩ := Results.map_eq_ok_iff.1 hcheck
    subst heq
    have hin : key ∈ ids := (mem_relationIds_iff hids key).2 hkey
    refine ⟨_, List.mem_filter.2 ⟨hmem, ?_⟩, hf, hin⟩
    cases ids with
    | nil => cases hin
    | cons first rest => rfl

/-- Null is no key, and what is no relation is not looked at. -/
theorem exists_relationAdditions {input : CreateInput} {payload : Json.Object}
    (h : ∀ field ∈ input.fields, ∀ toMany value, field.kind = .relation toMany →
      payload.get? field.name = some value → value = .null) :
    ∃ additions, input.relationAdditions payload = .ok additions := by
  rw [relationAdditions]
  apply Results.exists_bind_ok
  · apply Results.exists_mapM_ok
    intro field hfield
    split
    · rename_i toMany value hkind hget
      rw [h field hfield toMany value hkind hget, relationIds]
      exact ⟨_, rfl⟩
    · exact ⟨_, rfl⟩
  · intro all
    exact ⟨_, rfl⟩

end CreateInput

/-! ### Payloads of which one field is not null -/

def Processable (model : Model) (creation : Creation) (id : TypeId) (payload : Json.Object) :
    Prop :=
  (∃ n, ∀ path, ∃ built, Prepare.within model creation n id path payload = .ok built) ∧
    ∃ fields, Affected.touched model id payload = .ok fields

def CreateInput.only (input : CreateInput) (field : InputField) (value : Json) : Json.Object :=
  input.fields.map fun other => (other.name, if other.name = field.name then value else .null)

section Only

variable {model : Model} {creation : Creation} {input : CreateInput} {field : InputField}
  {value : Json}

theorem CreateInput.get?_only {other : InputField} (h : other ∈ input.fields) :
    (input.only field value).get? other.name =
      some (if other.name = field.name then value else .null) := by
  rw [only]
  generalize input.fields = fields at h
  induction fields with
  | nil => cases h
  | cons first rest ih =>
    rw [List.map_cons, Entries.get?_cons]
    by_cases hname : first.name = other.name
    · rw [if_pos hname, hname]
    · rw [if_neg hname]
      rcases List.mem_cons.1 h with rfl | hrest
      · exact absurd rfl hname
      · exact ih hrest

theorem CreateInput.get?_only_cases (hnames : (input.fields.map (·.name)).Nodup)
    (hfield : field ∈ input.fields) {other : InputField} (hother : other ∈ input.fields)
    (value : Json) :
    other = field ∧ (input.only field value).get? other.name = some value ∨
      (input.only field value).get? other.name = some .null := by
  rw [get?_only hother]
  by_cases hname : other.name = field.name
  · have hsame : other = field := List.inj_on_of_nodup_map hnames hother hfield hname
    exact .inl ⟨hsame, by rw [if_pos hname]⟩
  · exact .inr (by rw [if_neg hname])

theorem Prepare.exists_ownProperties {prepare : Prepare.Nested} {path : List PathStep}
    {payload : Json.Object} {fields : List InputField}
    (h : ∀ field ∈ fields, ∃ value prepared, payload.get? field.name = some value ∧
      Prepare.property prepare path field value = .ok prepared) :
    ∃ own, Prepare.ownProperties prepare path payload fields = .ok own := by
  induction fields with
  | nil => exact ⟨[], rfl⟩
  | cons field rest ih =>
    obtain ⟨value, prepared, hvalue, hprepared⟩ := h field List.mem_cons_self
    obtain ⟨others, hothers⟩ := ih fun other hother => h other (List.mem_cons_of_mem _ hother)
    rw [Prepare.ownProperties, hvalue, Option.some_or]
    apply Results.exists_bind_ok ⟨prepared, hprepared⟩
    intro prepared
    exact Results.exists_bind_ok ⟨others, hothers⟩ fun others => ⟨_, rfl⟩

theorem Affected.exists_touchedFields {payload : Json.Object} {fields : List InputField}
    (h : ∀ field ∈ fields, ∀ value, payload.get? field.name = some value →
      ∃ inner, touchedValue model field value = .ok inner) :
    ∃ all, touchedFields model payload fields = .ok all := by
  induction fields with
  | nil => exact ⟨[], by rw [touchedFields]⟩
  | cons field rest ih =>
    have hrest := ih fun other hother => h other (List.mem_cons_of_mem _ hother)
    rw [touchedFields_cons]
    cases hvalue : payload.get? field.name with
    | none => exact hrest
    | some value =>
      apply Results.exists_bind_ok (h field List.mem_cons_self value hvalue)
      intro inner
      exact Results.exists_bind_ok hrest fun others => ⟨_, rfl⟩

theorem Prepare.exists_property_null (prepare : Prepare.Nested) (path : List PathStep)
    (field : InputField) : ∃ prepared, Prepare.property prepare path field .null = .ok prepared := by
  cases hkind : field.kind <;> simp [Prepare.property, hkind]

theorem Affected.exists_touched_only {id : TypeId} (hinput : model.createInput? id = some input)
    (hnames : (input.fields.map (·.name)).Nodup) (hfield : field ∈ input.fields)
    (htouched : ∃ inner, touchedValue model field value = .ok inner) :
    ∃ fields, touched model id (input.only field value) = .ok fields := by
  obtain ⟨all, hall⟩ : ∃ all, touchedFields model (input.only field value) input.fields =
      .ok all := by
    apply exists_touchedFields
    intro other hother found hfound
    rcases CreateInput.get?_only_cases hnames hfield hother value with ⟨rfl, hget⟩ | hget
    · rw [hget, Option.some.injEq] at hfound
      subst hfound
      exact htouched
    · rw [hget, Option.some.injEq] at hfound
      subst hfound
      exact ⟨[], by rw [touchedValue]⟩
  exact ⟨all, touched_eq_ok_iff.2 ⟨input, hinput, hall⟩⟩

theorem processable_only {id : TypeId} (hnow : creation.now.rfc3339?.isSome = true)
    (hinput : model.createInput? id = some input)
    (hnames : (input.fields.map (·.name)).Nodup) (hfield : field ∈ input.fields)
    (hproperty : ∃ n, ∀ path, ∃ prepared,
      Prepare.property (Prepare.within model creation n) path field value = .ok prepared)
    (htouched : ∃ inner, Affected.touchedValue model field value = .ok inner) :
    Processable model creation id (input.only field value) := by
  constructor
  · obtain ⟨n, hn⟩ := hproperty
    refine ⟨n + 1, fun path => ?_⟩
    obtain ⟨own, hown⟩ : ∃ own, Prepare.ownProperties (Prepare.within model creation n) path
        (input.only field value) input.fields = .ok own := by
      refine Prepare.exists_ownProperties fun other hother => ?_
      rcases CreateInput.get?_only_cases hnames hfield hother value with ⟨rfl, hget⟩ | hget
      · obtain ⟨prepared, hprepared⟩ := hn path
        exact ⟨value, prepared, hget, hprepared⟩
      · obtain ⟨prepared, hprepared⟩ :=
          Prepare.exists_property_null (Prepare.within model creation n) path other
        exact ⟨.null, prepared, hget, hprepared⟩
    obtain ⟨server, hserver⟩ := Creation.exists_properties hnow path input.server
    exact ⟨_, Prepare.within_eq_ok_iff.2 ⟨input, own, server, hinput, hown, hserver, rfl⟩⟩
  · exact Affected.exists_touched_only hinput hnames hfield htouched

/-- A field that embeds a type can hold an object that can be processed. -/
theorem exists_processable_outer {id inner : TypeId} {object : Json.Object}
    (hnow : creation.now.rfc3339?.isSome = true) (hinput : model.createInput? id = some input)
    (hnames : (input.fields.map (·.name)).Nodup) {nested : NestedInput}
    (hnested : nested ∈ input.nested) (htarget : nested.target = inner)
    (hobject : Processable model creation inner object) :
    ∃ field ∈ input.fields, (∀ toMany, field.kind ≠ .relation toMany) ∧ ∃ value path,
      Processable model creation id (input.only field value) ∧
        Supplied model id (input.only field value) path inner object := by
  subst htarget
  obtain ⟨⟨n, hn⟩, fields, hfields⟩ := hobject
  obtain ⟨field, hfield, hkind⟩ := CreateInput.mem_nested.1 hnested
  refine ⟨field, hfield, by rcases hkind with hkind | hkind <;> simp [hkind], ?_⟩
  have hget : ∀ value : Json, (input.only field value).get? field.name = some value := by
    intro value
    rw [CreateInput.get?_only hfield, if_pos rfl]
  rcases hkind with hkind | hkind
  · refine ⟨.object object, [.field field.name], processable_only hnow hinput hnames hfield ?_ ?_,
      .field .root hinput hfield hkind (hget _)⟩
    · refine ⟨n, fun path => ?_⟩
      obtain ⟨built, hbuilt⟩ := hn (.field field.name :: path)
      rw [Prepare.property_object hkind, hbuilt]
      exact ⟨_, rfl⟩
    · rw [Affected.touchedValue, hkind]
      exact ⟨fields, hfields⟩
  · refine ⟨.array [.object object], [.item 0, .field field.name],
      processable_only hnow hinput hnames hfield ?_ ?_,
      .item .root hinput hfield hkind (hget _) rfl⟩
    · refine ⟨n, fun path => ?_⟩
      obtain ⟨built, hbuilt⟩ := hn (.item 0 :: .field field.name :: path)
      rw [Prepare.property_objectList hkind, Prepare.items, hbuilt]
      exact ⟨_, rfl⟩
    · rw [Affected.touchedValue, hkind]
      simp only [Affected.touchedItems]
      exact Results.exists_bind_ok ⟨fields, hfields⟩ fun fields => ⟨_, rfl⟩

end Only

/-! ### Keys of nested objects -/

section Nested

variable {decl : ModelDecl} {model : Model} {creation : Creation}

/-- Every object of a payload but the outermost one is of a type that is embedded. -/
theorem Supplied.outermost_or_embeds {id type : TypeId} {payload object : Json.Object}
    {path : List PathStep} (h : Supplied model id payload path type object) :
    type = id ∧ object = payload ∨ Relation.TransGen model.Embeds id type := by
  have hextend : ∀ {outer inner : TypeId} {outerObject : Json.Object},
      outer = id ∧ outerObject = payload ∨ Relation.TransGen model.Embeds id outer →
      model.Embeds outer inner → Relation.TransGen model.Embeds id inner := by
    intro outer inner outerObject houter hstep
    rcases houter with ⟨rfl, -⟩ | hreach
    · exact .single hstep
    · exact hreach.tail hstep
  induction h with
  | root => exact .inl ⟨rfl, rfl⟩
  | @field _ _ _ _ _ field nested _ hinput hfield hkind _ ih =>
    have hnested := CreateInput.mem_nested.2 ⟨field, hfield, .inl hkind⟩
    exact .inr (hextend ih ⟨_, hinput, nested, hnested, rfl⟩)
  | @item _ _ _ _ _ field nested _ _ _ hinput hfield hkind _ _ ih =>
    have hnested := CreateInput.mem_nested.2 ⟨field, hfield, .inr hkind⟩
    exact .inr (hextend ih ⟨_, hinput, nested, hnested, rfl⟩)

theorem exists_processable_of_embeds (hresolve : Model.resolve decl = .ok model)
    (hnow : creation.now.rfc3339?.isSome = true) {id type : TypeId} {object : Json.Object}
    (hobject : Processable model creation type object)
    (h : Relation.ReflTransGen model.Embeds id type) :
    ∃ payload path, Processable model creation id payload ∧
      Supplied model id payload path type object := by
  induction h using Relation.ReflTransGen.head_induction_on with
  | refl => exact ⟨object, [], hobject, .root⟩
  | head hstep _ ih =>
    obtain ⟨inner, path, hinner, hsupplied⟩ := ih
    obtain ⟨input, hinput, nested, hnested, htarget⟩ := hstep
    have hnames := Model.nodup_names_of_createInput? hresolve hinput
    obtain ⟨field, -, -, value, path', houter, hplace⟩ :=
      exists_processable_outer hnow hinput hnames hnested htarget hinner
    exact ⟨input.only field value, path ++ path', houter, hplace.trans hsupplied⟩

/-- An object can give a key for any relation of its input. -/
theorem exists_processable_gives (hresolve : Model.resolve decl = .ok model)
    (hnow : creation.now.rfc3339?.isSome = true) {id : TypeId} {input : CreateInput}
    (hinput : model.createInput? id = some input) {field : InputField}
    (hfield : field ∈ input.fields) {toMany : Bool} (hkind : field.kind = .relation toMany)
    (key : String) :
    ∃ object, Processable model creation id object ∧ input.Gives object field.field key := by
  have hnames := Model.nodup_names_of_createInput? hresolve hinput
  obtain ⟨value, hkey, htouched⟩ : ∃ value, HasKey toMany value key ∧
      ∃ inner, Affected.touchedValue model field value = .ok inner := by
    cases toMany with
    | false => exact ⟨.string key, by simp [HasKey], [], by simp [Affected.touchedValue, hkind]⟩
    | true =>
      refine ⟨.array [.string key], by simp [HasKey], [], by simp [Affected.touchedValue, hkind]⟩
  have hproperty : ∃ n, ∀ path, ∃ prepared,
      Prepare.property (Prepare.within model creation n) path field value = .ok prepared := by
    refine ⟨0, fun path => ⟨none, ?_⟩⟩
    simp only [Prepare.property, hkind]
  have hget : (input.only field value).get? field.name = some value := by
    rw [CreateInput.get?_only hfield, if_pos rfl]
  exact ⟨input.only field value,
    processable_only hnow hinput hnames hfield hproperty htouched,
    field, hfield, rfl, toMany, value, hkind, hget, hkey⟩

/-- No payload for a type loses a key exactly if the types that its input nests, directly or through
others, have no relations. -/
theorem Model.keepsKeys_iff (hresolve : Model.resolve decl = .ok model) (id : TypeId) :
    model.KeepsKeys id ↔ ∀ type input, Relation.TransGen model.Embeds id type →
      model.createInput? type = some input →
      ∀ field ∈ input.fields, ∀ toMany, field.kind ≠ .relation toMany := by
  constructor
  · intro hkeeps type inner hembeds hinner field hfield toMany hkind
    obtain ⟨creation, hnow⟩ : ∃ creation : Creation, creation.now.rfc3339?.isSome = true :=
      ⟨⟨⟨0, 0⟩, fun _ => ""⟩, by decide⟩
    obtain ⟨object, hobject, hgives⟩ :=
      exists_processable_gives hresolve hnow hinner hfield hkind "k"
    obtain ⟨middle, hstep, hrest⟩ := Relation.TransGen.head'_iff.1 hembeds
    obtain ⟨nestedObject, path, hmiddle, hsupplied⟩ :=
      exists_processable_of_embeds hresolve hnow hobject hrest
    obtain ⟨input, hinput, nested, hnested, htarget⟩ := hstep
    have hnames := Model.nodup_names_of_createInput? hresolve hinput
    obtain ⟨outer, houter, hnoRelation, value, path', hpayload, hplace⟩ :=
      exists_processable_outer hnow hinput hnames hnested htarget hmiddle
    obtain ⟨⟨n, hn⟩, fields, hfields⟩ := hpayload
    obtain ⟨built, hbuilt⟩ := hn []
    have hprepared := Model.prepare_of_within hbuilt
    -- The outermost object gives no key: its one field that is not null embeds an object.
    have hnull : ∀ other ∈ input.fields, ∀ toMany found, other.kind = .relation toMany →
        (input.only outer value).get? other.name = some found → found = .null := by
      intro other hother toMany' found hrelation hfound
      rcases CreateInput.get?_only_cases hnames houter hother value with ⟨rfl, -⟩ | hget
      · exact absurd hrelation (hnoRelation toMany')
      · rw [hfound, Option.some.injEq] at hget
        exact hget
    obtain ⟨additions, hadditions⟩ := CreateInput.exists_relationAdditions hnull
    have haffected : model.affectedFields id (input.only outer value) = .ok _ :=
      Results.map_eq_ok_iff.2 ⟨fields, hfields, rfl⟩
    have hreports := hkeeps creation _ built _ input additions hprepared haffected hinput
      hadditions _ type object inner field.field "k" (hplace.trans hsupplied) hinner hgives
    obtain ⟨other, hother, -, toMany', found, hrelation, hfound, hkey⟩ :=
      (CreateInput.reports_iff_gives hadditions).1 hreports
    rw [hnull other hother toMany' found hrelation hfound] at hkey
    cases toMany' <;> simp [HasKey] at hkey
  · intro hnone creation payload prepared affected input additions _ _ hinput hadditions path type
      object inner f key hsupplied hinner hgives
    rcases hsupplied.outermost_or_embeds with ⟨rfl, rfl⟩ | hembeds
    · rw [hinput, Option.some.injEq] at hinner
      subst hinner
      exact (CreateInput.reports_iff_gives hadditions).2 hgives
    · obtain ⟨field, hfield, -, toMany, -, hkind, -, -⟩ := hgives
      exact absurd hkind (hnone type inner hembeds hinner field hfield toMany)

/-- An order relates to its customer itself; its lines relate to nothing. -/
theorem keepsKeys_of_orders :
    let decl : ModelDecl :=
      { types :=
        [{ name := "Customer", kind := .rootEntity },
         { name := "Order", kind := .rootEntity,
           fields := [{ name := "customer", typeName := "Customer", relation := true },
             { name := "lines", typeName := "Line", list := true }] },
         { name := "Line", kind := .childEntity,
           fields := [{ name := "text", typeName := "String" }] }] }
    ∃ model, Model.resolve decl = .ok model ∧ model.KeepsKeys 1 := by
  intro decl
  obtain ⟨model, hresolve, order, horder, lines, hlines, htarget, line, hline, hnone, text, hfields,
      hkind⟩ :
      ∃ model, Model.resolve decl = .ok model ∧
        ∃ order, model.createInput? 1 = some order ∧
        ∃ lines, order.nested = [lines] ∧ lines.target = 2 ∧
        ∃ line, model.createInput? 2 = some line ∧ line.nested = [] ∧
        ∃ text, line.fields = [text] ∧ text.kind = .basic :=
    ⟨_, rfl, _, rfl, _, rfl, rfl, _, rfl, rfl, _, rfl, rfl⟩
  refine ⟨model, hresolve, (Model.keepsKeys_iff hresolve 1).2 ?_⟩
  intro type input hembeds hinput field hfield toMany
  obtain ⟨middle, ⟨order', horder', nested, hnested, rfl⟩, hrest⟩ :=
    Relation.TransGen.head'_iff.1 hembeds
  rw [horder, Option.some.injEq] at horder'
  rw [← horder', hlines, List.mem_singleton] at hnested
  rw [hnested, htarget] at hrest
  have htype : type = 2 := by
    rcases Relation.ReflTransGen.cases_head hrest with rfl | ⟨_, ⟨line', hline', inner, hinner, -⟩, -⟩
    · rfl
    · rw [hline, Option.some.injEq] at hline'
      rw [← hline', hnone] at hinner
      cases hinner
  subst htype
  rw [hline, Option.some.injEq] at hinput
  rw [← hinput, hfields, List.mem_singleton] at hfield
  rw [hfield, hkind]
  simp

/-- An order with an item relates to the product of that item, whose key is reported nowhere. -/
theorem product_of_an_item_is_lost :
    let decl : ModelDecl :=
      { types :=
        [{ name := "Product", kind := .rootEntity },
         { name := "Item", kind := .childEntity,
           fields := [{ name := "product", typeName := "Product", relation := true }] },
         { name := "Order", kind := .rootEntity,
           fields := [{ name := "items", typeName := "Item", list := true }] }] }
    let item : Json.Object := [("product", .string "p1")]
    let order : Json.Object := [("items", .array [.object item])]
    ∃ model prepared input inner, Model.resolve decl = .ok model ∧
      model.createInput? 2 = some input ∧ model.createInput? 1 = some inner ∧
      model.prepare ⟨⟨0, 0⟩, fun _ => "i"⟩ 2 order = .ok prepared ∧
      model.affectedFields 2 order = .ok [⟨2, 3⟩, ⟨1, 3⟩] ∧
      input.relationAdditions order = .ok [] ∧
      Supplied model 2 order [.item 0, .field "items"] 1 item ∧
      inner.Gives item ⟨1, 3⟩ "p1" ∧ ¬ model.KeepsKeys 2 := by
  intro decl item order
  let items : InputField :=
    ⟨"items", ⟨2, 3⟩, none, .listOf (Names.createInput "Item"),
      .objectList ⟨Names.createInput "Item", 1⟩⟩
  let product : InputField := ⟨"product", ⟨1, 3⟩, none, .optional "ID", .relation false⟩
  obtain ⟨model, hresolve, input, hinput, hfields, inner, hinner, hinnerFields, prepared, hprepared,
      hadditions⟩ :
      ∃ model, Model.resolve decl = .ok model ∧
        ∃ input, model.createInput? 2 = some input ∧ input.fields = [items] ∧
        ∃ inner, model.createInput? 1 = some inner ∧ inner.fields = [product] ∧
        ∃ prepared, model.prepare ⟨⟨0, 0⟩, fun _ => "i"⟩ 2 order = .ok prepared ∧
          input.relationAdditions order = .ok [] :=
    ⟨_, rfl, _, rfl, rfl, _, rfl, rfl, _, rfl, rfl⟩
  have haffected : model.affectedFields 2 order = .ok [⟨2, 3⟩, ⟨1, 3⟩] := by
    simp only [Model.affectedFields, Affected.touched, hinput, hfields, hinner, hinnerFields,
      Affected.touchedFields_cons, Affected.touchedFields_nil, Affected.touchedValue,
      Affected.touchedItems, Entries.get?_cons, reduceIte, order, item, items, product]
    rfl
  have hitems : items ∈ input.fields := hfields ▸ List.mem_singleton_self items
  have hproduct : product ∈ inner.fields := hinnerFields ▸ List.mem_singleton_self product
  have hsupplied : Supplied model 2 order [.item 0, .field "items"] 1 item :=
    .item .root hinput hitems rfl rfl rfl
  have hgives : inner.Gives item ⟨1, 3⟩ "p1" :=
    ⟨product, hproduct, rfl, false, .string "p1", rfl, rfl, rfl⟩
  refine ⟨model, prepared, input, inner, hresolve, hinput, hinner, hprepared, haffected, hadditions,
    hsupplied, hgives, ?_⟩
  intro hkeeps
  obtain ⟨addition, hnone, -⟩ := hkeeps _ order prepared _ input [] hprepared haffected hinput
    hadditions _ 1 item inner ⟨1, 3⟩ "p1" hsupplied hinner hgives
  cases hnone

end Nested

end EntitySchema
