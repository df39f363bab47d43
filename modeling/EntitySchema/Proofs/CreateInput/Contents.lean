import EntitySchema.Proofs.CreateInput.Inputs
import EntitySchema.Proofs.CreateInput.Rearranged

/-! # What a prepared object holds

A document and each object prepared inside it hold one property for each field of their type that
has a value, and those that the server computes. Fields say what becomes of their values: all but
objects pass through, and an object is prepared in its place for the type that the field names. -/
namespace EntitySchema

/-! ### Fields -/

/-- What an object has for a field, or the default of the field where it has nothing. -/
def Field.valueIn? (field : Field) (object : Json.Object) : Option Json :=
  (object.get? field.name).or field.default

def Field.propertyIn? (field : Field) (built : Json.Object) : Option Json := built.get? field.name

def ObjectType.stored (type : ObjectType) (object : Json.Object) : List Field :=
  type.fields.filter fun field =>
    field.system = false ∧ ¬ field.Relates ∧ (field.valueIn? object).isSome = true

/-- What a field makes of a value. Scalars, members of enums and keys stay as they are, null stands
for no items, and objects are prepared for the type of the field. -/
inductive Field.Becomes (model : Model) (creation : Creation) (field : Field) : Json → Json → Prop
  | kept {value : Json} (hplain : field.Plain) (hvalue : field.list = true → value ≠ .null) :
      Becomes model creation field value value
  | noItems (hlist : field.list = true) : Becomes model creation field .null (.array [])
  | noObject {target : TypeId} (hembeds : field.Embeds target) (hsingle : field.list = false) :
      Becomes model creation field .null .null
  | object {target : TypeId} {inner built : Json.Object} (hembeds : field.Embeds target)
      (hsingle : field.list = false)
      (hinner : model.prepare (creation.below [.field field.name]) target inner = .ok built) :
      Becomes model creation field (.object inner) (.object built)
  | items {target : TypeId} {values results : List Json} (hembeds : field.Embeds target)
      (hlist : field.list = true) (hlength : results.length = values.length)
      (hitems : ∀ index value, values[index]? = some value → ∃ inner built,
        value = .object inner ∧ results[index]? = some (.object built) ∧
          model.prepare (creation.below [.item index, .field field.name]) target inner =
            .ok built) :
      Becomes model creation field (.array values) (.array results)

structure PreparedFrom (model : Model) (creation : Creation) (type : ObjectType)
    (object built : Json.Object) : Prop where
  keys : Entries.keys built = (type.stored object).map (·.name) ++ type.kind.serverNames
  distinct : (Entries.keys built).Nodup
  values : ∀ field ∈ type.stored object, ∃ value result, field.valueIn? object = some value ∧
    field.propertyIn? built = some result ∧ field.Becomes model creation value result
  times : type.kind = .rootEntity ∨ type.kind = .childEntity →
    ∃ now, creation.now.rfc3339? = some now ∧ built.get? "createdAt" = some (.string now) ∧
      built.get? "updatedAt" = some (.string now)
  identifier : type.kind = .childEntity → built.get? "id" = some (.string (creation.freshId []))

/-- The objects at all depths that fields lead to, where each field reads its value in an object. -/
inductive Holds (model : Model) (read : Field → Json.Object → Option Json) (id : TypeId)
    (root : Json.Object) : List PathStep → TypeId → Json.Object → Prop
  | root : Holds model read id root [] id root
  | field {path : List PathStep} {typeId target : TypeId} {object inner : Json.Object}
      {type : ObjectType} {field : Field} (outer : Holds model read id root path typeId object)
      (htype : model.type? typeId = some type) (hfield : field ∈ type.fields)
      (hembeds : field.Embeds target) (hsingle : field.list = false)
      (hvalue : read field object = some (.object inner)) :
      Holds model read id root (.field field.name :: path) target inner
  | item {path : List PathStep} {typeId target : TypeId} {object inner : Json.Object}
      {type : ObjectType} {field : Field} {values : List Json} {index : Nat}
      (outer : Holds model read id root path typeId object)
      (htype : model.type? typeId = some type) (hfield : field ∈ type.fields)
      (hembeds : field.Embeds target) (hlist : field.list = true)
      (hvalue : read field object = some (.array values))
      (hitem : values[index]? = some (.object inner)) :
      Holds model read id root (.item index :: .field field.name :: path) target inner

variable {decl : ModelDecl} {model : Model} {creation : Creation} {type : ObjectType}
  {field : Field} {object : Json.Object} {target : TypeId} {value result : Json}

theorem ObjectType.mem_stored : field ∈ type.stored object ↔ field ∈ type.fields ∧
    field.system = false ∧ ¬ field.Relates ∧ (field.valueIn? object).isSome = true := by
  simp only [stored, List.mem_filter, decide_eq_true_eq]

theorem ObjectType.Resolved.system_of_embeds {id : TypeId} {declared : TypeDecl}
    (h : type.Resolved decl id declared) (hfield : field ∈ type.fields)
    (hembeds : field.Embeds target) : field.system = false :=
  h.system_of_object hfield hembeds.1

/-- A document holds each of its names once: the server takes names of system fields only. -/
theorem ObjectType.Resolved.nodup_stored {id : TypeId} {declared : TypeDecl}
    (h : type.Resolved decl id declared) (object : Json.Object) :
    ((type.stored object).map (·.name) ++ type.kind.serverNames).Nodup := by
  apply List.nodup_append'.2
  refine ⟨h.fieldsAt.names.sublist (List.filter_sublist.map _), ?_, ?_⟩
  · cases type.kind <;> decide
  · intro name hmem hserver
    obtain ⟨field, hfield, rfl⟩ := List.mem_map.1 hmem
    obtain ⟨hdeclared, hsystem, -⟩ := mem_stored.1 hfield
    obtain ⟨hkind, hname⟩ := TypeKind.mem_serverNames hserver
    exact h.name_ne_of_system hkind hdeclared hsystem hname

/-! ### One object -/

/-- Objects at different positions differ in where their identifiers come from only. -/
theorem Model.prepare_below_of_within {n : Nat} {id : TypeId} {path : List PathStep}
    {payload built : Json.Object}
    (h : Prepare.within model creation n id path payload = .ok built) :
    model.prepare (creation.below path) id payload = .ok built := by
  have hsimulates : Prepare.Simulates path (Prepare.within model creation n)
      (Prepare.within model (creation.below path) n) := Prepare.within_simulates (Nat.le_refl n)
  exact Model.prepare_of_within (hsimulates id [] payload built h)

theorem Field.Becomes.single (hembeds : field.Embeds target) (hsingle : field.list = false)
    (h : field.Becomes model creation value result) :
    value = .null ∧ result = .null ∨ ∃ inner built, value = .object inner ∧
      result = .object built ∧
        model.prepare (creation.below [.field field.name]) target inner = .ok built := by
  cases h with
  | kept hplain => exact absurd hplain hembeds.not_plain
  | noItems hlist | items _ hlist =>
    rw [hsingle] at hlist
    cases hlist
  | noObject => exact .inl ⟨rfl, rfl⟩
  | object hother _ hinner =>
    rw [hembeds.unique hother] at hinner
    exact .inr ⟨_, _, rfl, rfl, hinner⟩

theorem Field.Becomes.many (hembeds : field.Embeds target) (hlist : field.list = true)
    (h : field.Becomes model creation value result) :
    value = .null ∧ result = .array [] ∨ ∃ values results, value = .array values ∧
      result = .array results ∧ results.length = values.length ∧
        ∀ index item, values[index]? = some item → ∃ inner built, item = .object inner ∧
          results[index]? = some (.object built) ∧
            model.prepare (creation.below [.item index, .field field.name]) target inner =
              .ok built := by
  cases h with
  | kept hplain => exact absurd hplain hembeds.not_plain
  | noItems => exact .inl ⟨rfl, rfl⟩
  | noObject _ hsingle | object _ hsingle =>
    rw [hsingle] at hlist
    cases hlist
  | items hother _ hlength hitems =>
    rw [hembeds.unique hother] at hitems
    exact .inr ⟨_, _, rfl, rfl, hlength, hitems⟩

namespace Prepare

theorem contributes_inputField :
    (CreateInput.inputField model field).contributes object =
      decide (¬ field.Relates ∧ (field.valueIn? object).isSome = true) := by
  have hvalue : (object.get? (CreateInput.inputField model field).name).or
      (CreateInput.inputField model field).default = field.valueIn? object := rfl
  rw [InputField.contributes, hvalue]
  rcases CreateInput.kind_cases model field with
    ⟨hplain, hkind⟩ | ⟨hrelates, hkind⟩ | ⟨target, name, hembeds, hkind⟩
  · rw [hkind]
    split_ifs <;> simp [hplain.not_relates]
  · simp [hkind, hrelates]
  · rw [hkind]
    split_ifs <;> simp [hembeds.not_relates]

theorem names_contributing : ((CreateInput.ofType model type).fields.filter
    (·.contributes object)).map (·.name) = (type.stored object).map (·.name) := by
  have hnames : ∀ fields : List Field, (fields.map (CreateInput.inputField model)).map (·.name) =
      fields.map (·.name) := by
    intro fields
    rw [List.map_map]
    rfl
  rw [CreateInput.ofType, List.filter_map, hnames, List.filter_filter, ObjectType.stored]
  congr 1
  refine List.filter_congr fun field _ => ?_
  rw [Function.comp_apply, contributes_inputField]
  cases field.system <;> simp

theorem items_all {prepare : Nested} {field : InputField} {target : TypeId} {path : List PathStep}
    {start : Nat} {values prepared : List Json}
    (h : items prepare field target path start values = .ok prepared) :
    prepared.length = values.length ∧ ∀ value ∈ values, ∃ members, value = .object members := by
  induction values generalizing start prepared with
  | nil =>
    cases h
    exact ⟨rfl, fun value hvalue => absurd hvalue List.not_mem_nil⟩
  | cons first rest ih =>
    cases first with
    | object members =>
      rw [items] at h
      obtain ⟨_, -, hnext⟩ := Results.bind_eq_ok_iff.1 h
      obtain ⟨others, hothers, heq⟩ := Results.bind_eq_ok_iff.1 hnext
      cases heq
      obtain ⟨hlength, hobjects⟩ := ih hothers
      refine ⟨congrArg (· + 1) hlength, fun value hvalue => ?_⟩
      rcases List.mem_cons.1 hvalue with rfl | hrest
      · exact ⟨members, rfl⟩
      · exact hobjects value hrest
    | _ => simp [items, mismatch] at h

theorem becomes_of_property {n : Nat} {made : Option Json} (hstored : ¬ field.Relates)
    (h : property (within model creation n) [] (CreateInput.inputField model field) value =
      .ok made) :
    ∃ result, made = some result ∧ field.Becomes model creation value result := by
  rcases CreateInput.kind_cases model field with
    ⟨hplain, hkind⟩ | ⟨hrelates, -⟩ | ⟨target, name, hembeds, hkind⟩
  · cases hlist : field.list with
    | false =>
      rw [hlist] at hkind
      simp only [property, hkind, Bool.false_eq_true, if_false, Except.ok.injEq] at h
      exact ⟨value, h.symm, .kept hplain (by simp [hlist])⟩
    | true =>
      rw [hlist] at hkind
      by_cases hnull : value = .null
      · subst hnull
        simp only [property, hkind, if_true, Except.ok.injEq] at h
        exact ⟨.array [], h.symm, .noItems hlist⟩
      · have hmade : made = some value := by
          cases value <;> simp_all [property]
        exact ⟨value, hmade, .kept hplain fun _ => hnull⟩
  · exact absurd hrelates hstored
  · cases hlist : field.list with
    | false =>
      rw [hlist, if_neg Bool.false_ne_true] at hkind
      cases value with
      | null =>
        simp only [property, hkind, Except.ok.injEq] at h
        exact ⟨.null, h.symm, .noObject hembeds hlist⟩
      | object inner =>
        rw [property_object hkind] at h
        obtain ⟨built, hbuilt, rfl⟩ := Results.map_eq_ok_iff.1 h
        exact ⟨.object built, rfl, .object hembeds hlist (Model.prepare_below_of_within hbuilt)⟩
      | _ => simp [property, hkind, mismatch] at h
    | true =>
      rw [hlist, if_pos rfl] at hkind
      cases value with
      | null =>
        simp only [property, hkind, Except.ok.injEq] at h
        exact ⟨.array [], h.symm, .noItems hlist⟩
      | array values =>
        rw [property_objectList hkind] at h
        obtain ⟨results, hresults, rfl⟩ := Results.map_eq_ok_iff.1 h
        obtain ⟨hlength, hobjects⟩ := items_all hresults
        refine ⟨.array results, rfl, .items hembeds hlist hlength fun index item hitem => ?_⟩
        obtain ⟨inner, rfl⟩ := hobjects item (List.mem_of_getElem? hitem)
        obtain ⟨built, hbuilt, hplace⟩ := items_getElem? hresults hitem
        rw [Nat.zero_add] at hbuilt
        exact ⟨inner, built, rfl, hplace, Model.prepare_below_of_within hbuilt⟩
      | _ => simp [property, hkind, mismatch] at h

end Prepare

theorem Model.preparedFrom_of_prepare (hresolve : Model.resolve decl = .ok model) {id : TypeId}
    {built : Json.Object} (h : model.prepare creation id object = .ok built) :
    ∃ type, model.type? id = some type ∧ PreparedFrom model creation type object built := by
  rw [Model.prepare] at h
  generalize Prepare.bound model object = n at h
  cases n with
  | zero => cases h
  | succ n =>
    obtain ⟨input, own, server, hinput, hown, hserver, rfl⟩ := Prepare.within_eq_ok_iff.1 h
    obtain ⟨type, htype, rfl⟩ := Model.createInput?_eq_some_iff.1 hinput
    obtain ⟨_, -, hresolved⟩ := Model.resolved_type hresolve htype
    have hkeys : Entries.keys (own ++ server) =
        (type.stored object).map (·.name) ++ type.kind.serverNames := by
      rw [← Prepare.names_contributing, ← Prepare.keys_ownProperties hown,
        ← Creation.keys_properties hserver]
      exact List.map_append
    refine ⟨type, htype, ?_⟩
    constructor
    · exact hkeys
    · rw [hkeys]
      exact hresolved.nodup_stored object
    · intro field hfield
      obtain ⟨hdeclared, hsystem, hrelates, hsome⟩ := ObjectType.mem_stored.1 hfield
      obtain ⟨value, hvalue⟩ := Option.isSome_iff_exists.1 hsome
      have hread : (object.get? (CreateInput.inputField model field).name).or
          (CreateInput.inputField model field).default = some value := hvalue
      have hmade := Prepare.get?_ownProperties hown
        (CreateInput.nodup_names_ofType hresolved.fieldsAt)
        (CreateInput.mem_fields_ofType.2 ⟨field, hdeclared, hsystem, rfl⟩)
      rw [hread] at hmade
      obtain ⟨result, hresult, hbecomes⟩ := Prepare.becomes_of_property hrelates hmade
      refine ⟨value, result, hvalue, ?_, hbecomes⟩
      rw [Field.propertyIn?, Entries.get?_append]
      exact Option.or_eq_some_iff.2 (.inl hresult)
    · intro hkind
      obtain ⟨now, hnow, hcreated, hupdated, -⟩ :=
        Prepare.system_of_within hresolve htype hkind h
      exact ⟨now, hnow, hcreated, hupdated⟩
    · intro hkind
      obtain ⟨_, -, -, -, hid⟩ := Prepare.system_of_within hresolve htype (.inr hkind) h
      rw [if_pos hkind] at hid
      exact hid

/-! ### Values and properties of one field -/

theorem PreparedFrom.becomes_of_value {id : TypeId} {declared : TypeDecl} {built : Json.Object}
    (h : PreparedFrom model creation type object built) (hresolved : type.Resolved decl id declared)
    (hfield : field ∈ type.fields) (hembeds : field.Embeds target)
    (hvalue : field.valueIn? object = some value) :
    ∃ result, field.propertyIn? built = some result ∧
      field.Becomes model creation value result := by
  have hsystem := hresolved.system_of_embeds hfield hembeds
  have hstored : field ∈ type.stored object :=
    ObjectType.mem_stored.2 ⟨hfield, hsystem, hembeds.not_relates, by simp [hvalue]⟩
  obtain ⟨value', result, hvalue', hresult, hbecomes⟩ := h.values field hstored
  rw [hvalue] at hvalue'
  cases hvalue'
  exact ⟨result, hresult, hbecomes⟩

/-- A property comes from a value, since the names of a type and of the server differ. -/
theorem PreparedFrom.becomes_of_property {id : TypeId} {declared : TypeDecl} {built : Json.Object}
    (h : PreparedFrom model creation type object built) (hresolved : type.Resolved decl id declared)
    (hfield : field ∈ type.fields) (hsystem : field.system = false)
    (hresult : field.propertyIn? built = some result) :
    ∃ value, field.valueIn? object = some value ∧ field.Becomes model creation value result := by
  have hmem : field.name ∈ Entries.keys built :=
    List.mem_map.2 ⟨(field.name, result), Entries.get?_mem hresult, rfl⟩
  rw [h.keys, List.mem_append] at hmem
  rcases hmem with hstored | hserver
  · obtain ⟨other, hother, hname⟩ := List.mem_map.1 hstored
    obtain ⟨hdeclared, -⟩ := ObjectType.mem_stored.1 hother
    obtain rfl := hresolved.eq_of_name hdeclared hfield hname
    obtain ⟨value, result', hvalue, hresult', hbecomes⟩ := h.values other hother
    rw [hresult] at hresult'
    cases hresult'
    exact ⟨value, hvalue, hbecomes⟩
  · obtain ⟨hkind, hname⟩ := TypeKind.mem_serverNames hserver
    exact absurd hname (hresolved.name_ne_of_system hkind hfield hsystem)

/-! ### Objects at corresponding positions -/

section Positions

variable {id typeId : TypeId} {payload prepared built : Json.Object} {path : List PathStep}

theorem Model.preparedFrom_of_type (hresolve : Model.resolve decl = .ok model)
    (h : model.prepare creation id object = .ok built) (htype : model.type? id = some type) :
    PreparedFrom model creation type object built ∧ ∃ declared, type.Resolved decl id declared := by
  obtain ⟨type', htype', hfrom⟩ := Model.preparedFrom_of_prepare hresolve h
  cases htype.symm.trans htype'
  obtain ⟨declared, -, hresolved⟩ := Model.resolved_type hresolve htype
  exact ⟨hfrom, declared, hresolved⟩

/-- Each object that a payload has, its own or by default, is prepared where it stands. -/
theorem Model.prepared_of_held (hresolve : Model.resolve decl = .ok model)
    (h : model.prepare creation id payload = .ok prepared)
    (hheld : Holds model Field.valueIn? id payload path typeId object) :
    ∃ built, Holds model Field.propertyIn? id prepared path typeId built ∧
      model.prepare (creation.below path) typeId object = .ok built := by
  induction hheld with
  | root =>
    rw [Creation.below_nil]
    exact ⟨prepared, .root, h⟩
  | field outer htype hfield hembeds hsingle hvalue ih =>
    obtain ⟨built, hholds, hbuilt⟩ := ih
    obtain ⟨hfrom, _, hresolved⟩ := Model.preparedFrom_of_type hresolve hbuilt htype
    obtain ⟨result, hresult, hbecomes⟩ := hfrom.becomes_of_value hresolved hfield hembeds hvalue
    rcases hbecomes.single hembeds hsingle with ⟨hnull, -⟩ | ⟨_, inner, heq, rfl, hinner⟩
    · cases hnull
    · cases heq
      rw [Creation.below_below] at hinner
      exact ⟨inner, .field hholds htype hfield hembeds hsingle hresult, hinner⟩
  | item outer htype hfield hembeds hlist hvalue hitem ih =>
    obtain ⟨built, hholds, hbuilt⟩ := ih
    obtain ⟨hfrom, _, hresolved⟩ := Model.preparedFrom_of_type hresolve hbuilt htype
    obtain ⟨result, hresult, hbecomes⟩ := hfrom.becomes_of_value hresolved hfield hembeds hvalue
    rcases hbecomes.many hembeds hlist with ⟨hnull, -⟩ | ⟨_, results, heq, rfl, -, hitems⟩
    · cases hnull
    · cases heq
      obtain ⟨_, inner, heq, hplace, hinner⟩ := hitems _ _ hitem
      cases heq
      rw [Creation.below_below] at hinner
      exact ⟨inner, .item hholds htype hfield hembeds hlist hresult hplace, hinner⟩

/-- Each object inside a document is prepared from one that stands there in the payload. -/
theorem Model.held_of_prepared (hresolve : Model.resolve decl = .ok model)
    (h : model.prepare creation id payload = .ok prepared)
    (hholds : Holds model Field.propertyIn? id prepared path typeId built) :
    ∃ object, Holds model Field.valueIn? id payload path typeId object ∧
      model.prepare (creation.below path) typeId object = .ok built := by
  induction hholds with
  | root =>
    rw [Creation.below_nil]
    exact ⟨payload, .root, h⟩
  | field outer htype hfield hembeds hsingle hresult ih =>
    obtain ⟨object, hheld, hbuilt⟩ := ih
    obtain ⟨hfrom, _, hresolved⟩ := Model.preparedFrom_of_type hresolve hbuilt htype
    have hsystem := hresolved.system_of_embeds hfield hembeds
    obtain ⟨value, hvalue, hbecomes⟩ := hfrom.becomes_of_property hresolved hfield hsystem hresult
    rcases hbecomes.single hembeds hsingle with ⟨-, hnull⟩ | ⟨inner, _, rfl, heq, hinner⟩
    · cases hnull
    · cases heq
      rw [Creation.below_below] at hinner
      exact ⟨inner, .field hheld htype hfield hembeds hsingle hvalue, hinner⟩
  | @item _ _ _ _ _ _ _ _ index outer htype hfield hembeds hlist hresult hplace ih =>
    obtain ⟨object, hheld, hbuilt⟩ := ih
    obtain ⟨hfrom, _, hresolved⟩ := Model.preparedFrom_of_type hresolve hbuilt htype
    have hsystem := hresolved.system_of_embeds hfield hembeds
    obtain ⟨value, hvalue, hbecomes⟩ := hfrom.becomes_of_property hresolved hfield hsystem hresult
    rcases hbecomes.many hembeds hlist with ⟨-, hnull⟩ | ⟨values, _, rfl, heq, hlength, hitems⟩
    · cases hnull
      cases hplace
    · cases heq
      -- The list is as long as the one that it is made of, so there is an item at the index.
      have hlt : index < values.length := hlength ▸ (List.getElem?_eq_some_iff.1 hplace).1
      have hitem := List.getElem?_eq_getElem hlt
      obtain ⟨inner, _, heq, hplace', hinner⟩ := hitems index _ hitem
      rw [hplace, Option.some.injEq, Json.object.injEq] at hplace'
      subst hplace'
      rw [Creation.below_below] at hinner
      rw [heq] at hitem
      exact ⟨inner, .item hheld htype hfield hembeds hlist hvalue hitem, hinner⟩

/-- A document holds objects where its payload does, with the defaults for what it leaves out, and
each of them, the document among them, is prepared from the object there as its type says. -/
theorem Model.contents_of_prepared (hresolve : Model.resolve decl = .ok model)
    (h : model.prepare creation id payload = .ok prepared) (path : List PathStep)
    (typeId : TypeId) :
    (∀ object, Holds model Field.valueIn? id payload path typeId object →
      ∃ type built, model.type? typeId = some type ∧
        Holds model Field.propertyIn? id prepared path typeId built ∧
        PreparedFrom model (creation.below path) type object built) ∧
    ∀ built, Holds model Field.propertyIn? id prepared path typeId built →
      ∃ type object, model.type? typeId = some type ∧
        Holds model Field.valueIn? id payload path typeId object ∧
        PreparedFrom model (creation.below path) type object built := by
  constructor
  · intro object hheld
    obtain ⟨built, hholds, hbuilt⟩ := Model.prepared_of_held hresolve h hheld
    obtain ⟨type, htype, hfrom⟩ := Model.preparedFrom_of_prepare hresolve hbuilt
    exact ⟨type, built, htype, hholds, hfrom⟩
  · intro built hholds
    obtain ⟨object, hheld, hbuilt⟩ := Model.held_of_prepared hresolve h hholds
    obtain ⟨type, htype, hfrom⟩ := Model.preparedFrom_of_prepare hresolve hbuilt
    exact ⟨type, object, htype, hheld, hfrom⟩

/-- An order with an item that names itself. Its customer is a relation, and its tags are null by
default. -/
theorem contents_of_order :
    let decl : ModelDecl :=
      { types :=
        [{ name := "Order", kind := .rootEntity,
           fields :=
            [{ name := "customer", typeName := "Customer", relation := true },
             { name := "tags", typeName := "String", list := true, default := some .null },
             { name := "items", typeName := "Item", list := true }] },
         { name := "Item", kind := .childEntity,
           fields := [{ name := "text", typeName := "String" }] },
         { name := "Customer", kind := .rootEntity }] }
    let item : Json.Object := [("id", .string "mine"), ("text", .string "bolt")]
    let order : Json.Object := [("items", .array [.object item]), ("customer", .string "7")]
    let creation : Creation := ⟨⟨0, 0⟩, fun _ => "fresh"⟩
    ∃ model, Model.resolve decl = .ok model ∧ ∃ prepared built : Json.Object,
      model.prepare creation 0 order = .ok prepared ∧
      Entries.keys prepared = ["tags", "items", "createdAt", "updatedAt"] ∧
      Holds model Field.propertyIn? 0 prepared [.item 0, .field "items"] 1 built ∧
      Entries.keys built = ["text", "id", "createdAt", "updatedAt"] ∧
      built.get? "id" = some (.string "fresh") := by
  intro decl item order creation
  obtain ⟨model, hresolve, prepared, hprepared, root, hroot, hrootKind, hrootStored, items, hitems,
      hname, hembeds, hlist, type, htype, hkind, hstored⟩ :
      ∃ model, Model.resolve decl = .ok model ∧
        ∃ prepared, model.prepare ⟨⟨0, 0⟩, fun _ => "fresh"⟩ 0 order = .ok prepared ∧
        ∃ root, model.type? 0 = some root ∧ root.kind = .rootEntity ∧
          (root.stored order).map (·.name) = ["tags", "items"] ∧
        ∃ items ∈ root.fields, items.name = "items" ∧ items.Embeds 1 ∧ items.list = true ∧
        ∃ type, model.type? 1 = some type ∧ type.kind = .childEntity ∧
          (type.stored item).map (·.name) = ["text"] :=
    ⟨_, rfl, _, rfl, _, rfl, rfl, by decide, _, List.mem_of_getElem? (i := 5) rfl, rfl,
      ⟨rfl, rfl, rfl⟩, rfl, _, rfl, rfl, by decide⟩
  have hheld : Holds model Field.valueIn? 0 order [.item 0, .field "items"] 1 item := by
    have hvalue : items.valueIn? order = some (.array [.object item]) := by
      rw [Field.valueIn?, hname]
      rfl
    rw [← hname]
    exact .item .root hroot hitems hembeds hlist hvalue rfl
  obtain ⟨_, built, htype', hholds, hfrom⟩ :=
    (Model.contents_of_prepared hresolve hprepared _ _).1 item hheld
  obtain ⟨_, _, hroot', hpayload, hwhole⟩ :=
    (Model.contents_of_prepared hresolve hprepared [] 0).2 prepared .root
  cases htype.symm.trans htype'
  cases hroot.symm.trans hroot'
  cases hpayload
  have hwholeKeys := hwhole.keys
  have hkeys := hfrom.keys
  rw [hrootStored, hrootKind] at hwholeKeys
  rw [hstored, hkind] at hkeys
  exact ⟨model, hresolve, prepared, built, hprepared, hwholeKeys, hholds, hkeys,
    hfrom.identifier hkind⟩

end Positions

end EntitySchema
