import EntitySchema.Proofs.CreateInput.Contents
import EntitySchema.Proofs.CreateInput.Rejected
import Mathlib.Data.List.Induction

/-! # The order in which affected fields are reported

A payload touches a field where it has the field's name as a key, in itself or in an object that it
nests. The places are ordered as a walk passes them: the fields of an object as they are declared,
each in front of what its value nests, and the items of a list as they stand. The affected fields
are the touched ones, in the order of the first places at which they are touched. -/
namespace EntitySchema

/-- A payload touches a field at a place, which lists positions from the outside in: those of fields
in their types and those of items in their lists. -/
inductive Touches (model : Model) : TypeId → Json.Object → List Nat → FieldId → Prop
  | key {id : TypeId} {object : Json.Object} {type : ObjectType} {index : Nat} {field : Field}
      (htype : model.type? id = some type) (hfield : type.fields[index]? = some field)
      (hsystem : field.system = false) (hkey : (field.propertyIn? object).isSome = true) :
      Touches model id object [index] field.id
  | object {id target : TypeId} {object inner : Json.Object} {type : ObjectType} {index : Nat}
      {field : Field} {place : List Nat} {f : FieldId}
      (htype : model.type? id = some type) (hfield : type.fields[index]? = some field)
      (hembeds : field.Embeds target) (hsingle : field.list = false)
      (hvalue : field.propertyIn? object = some (.object inner))
      (hinner : Touches model target inner place f) :
      Touches model id object (index :: place) f
  | item {id target : TypeId} {object inner : Json.Object} {type : ObjectType} {index : Nat}
      {field : Field} {values : List Json} {item : Nat} {place : List Nat} {f : FieldId}
      (htype : model.type? id = some type) (hfield : type.fields[index]? = some field)
      (hembeds : field.Embeds target) (hlist : field.list = true)
      (hvalue : field.propertyIn? object = some (.array values))
      (hitem : values[item]? = some (.object inner))
      (hinner : Touches model target inner place f) :
      Touches model id object (index :: item :: place) f

def Field.KeyedIn (field : Field) (model : Model) (id : TypeId) (payload : Json.Object) : Prop :=
  ∃ path object, Holds model Field.propertyIn? id payload path field.id.type object ∧
    (field.propertyIn? object).isSome = true

variable {decl : ModelDecl} {model : Model}

/-! ### Tours -/

/-- The fields are those that are met anywhere, in the order of the places, each as often as it is
met. -/
def Tour (met : List Nat → FieldId → Prop) (fields : List FieldId) : Prop :=
  ∃ stops : List (List Nat × FieldId), stops.map (·.2) = fields ∧
    stops.Pairwise (fun a b => a.1 < b.1) ∧ ∀ place f, (place, f) ∈ stops ↔ met place f

namespace Tour

variable {met met' : List Nat → FieldId → Prop} {fields fields' : List FieldId}

theorem congr (h : Tour met fields) (hiff : ∀ place f, met place f ↔ met' place f) :
    Tour met' fields := by
  obtain ⟨stops, hfields, hsorted, hmem⟩ := h
  exact ⟨stops, hfields, hsorted, fun place f => (hmem place f).trans (hiff place f)⟩

theorem empty (h : ∀ place f, ¬ met place f) : Tour met [] :=
  ⟨[], rfl, .nil, fun place f => by simp [h place f]⟩

theorem here (field : FieldId) : Tour (fun place f => place = [] ∧ f = field) [field] :=
  ⟨[([], field)], rfl, List.pairwise_singleton _ _, fun place f => by simp⟩

theorem append (h : Tour met fields) (h' : Tour met' fields')
    (hbefore : ∀ place f place' f', met place f → met' place' f' → place < place') :
    Tour (fun place f => met place f ∨ met' place f) (fields ++ fields') := by
  obtain ⟨stops, rfl, hsorted, hmem⟩ := h
  obtain ⟨stops', rfl, hsorted', hmem'⟩ := h'
  refine ⟨stops ++ stops', List.map_append, List.pairwise_append.2 ⟨hsorted, hsorted', ?_⟩, ?_⟩
  · rintro ⟨place, f⟩ hstop ⟨place', f'⟩ hstop'
    exact hbefore place f place' f' ((hmem place f).1 hstop) ((hmem' place' f').1 hstop')
  · intro place f
    rw [List.mem_append, hmem, hmem']

/-- The same tour, seen from one position further out. -/
theorem below (h : Tour met fields) (position : Nat) :
    Tour (fun place f => ∃ rest, place = position :: rest ∧ met rest f) fields := by
  obtain ⟨stops, rfl, hsorted, hmem⟩ := h
  refine ⟨stops.map fun stop => (position :: stop.1, stop.2), ?_, ?_, ?_⟩
  · rw [List.map_map]
    rfl
  · refine List.pairwise_map.2 (hsorted.imp fun {a b} hlt => ?_)
    exact List.cons_lt_cons_iff.2 (.inr ⟨rfl, hlt⟩)
  · intro place f
    constructor
    · intro hstop
      obtain ⟨⟨rest, g⟩, hrest, heq⟩ := List.mem_map.1 hstop
      cases heq
      exact ⟨rest, rfl, (hmem rest g).1 hrest⟩
    · rintro ⟨rest, rfl, hmet⟩
      exact List.mem_map.2 ⟨(rest, f), (hmem rest f).2 hmet, rfl⟩

def Along {α : Type} (met : α → List Nat → FieldId → Prop) (start : Nat) (items : List α)
    (place : List Nat) (f : FieldId) : Prop :=
  ∃ index item rest, items[index]? = some item ∧ place = (start + index) :: rest ∧ met item rest f

theorem along_nil {α : Type} (met : α → List Nat → FieldId → Prop) (start : Nat) :
    Tour (Along met start []) [] :=
  .empty fun place f ⟨index, item, rest, hitem, _⟩ => by simp at hitem

/-- A tour of the first item, then one of those behind it. -/
theorem along_cons {α : Type} {met : α → List Nat → FieldId → Prop} {start : Nat} {item : α}
    {items : List α} (h : Tour (met item) fields)
    (h' : Tour (Along met (start + 1) items) fields') :
    Tour (Along met start (item :: items)) (fields ++ fields') := by
  refine ((h.below start).append h' ?_).congr fun place f => ?_
  · rintro place f place' f' ⟨rest, rfl, -⟩ ⟨index, _, rest', -, rfl, -⟩
    exact List.cons_lt_cons_iff.2 (.inl (by omega))
  constructor
  · rintro (⟨rest, rfl, hmet⟩ | ⟨index, other, rest, hother, rfl, hmet⟩)
    · exact ⟨0, item, rest, rfl, rfl, hmet⟩
    · exact ⟨index + 1, other, rest, hother, by rw [Nat.add_right_comm, Nat.add_assoc], hmet⟩
  · rintro ⟨index, other, rest, hother, rfl, hmet⟩
    cases index with
    | zero =>
      cases hother
      exact .inl ⟨rest, rfl, hmet⟩
    | succ index =>
      exact .inr ⟨index, other, rest, hother, by rw [Nat.add_right_comm, Nat.add_assoc], hmet⟩

/-- Adding the fields of a tour to an ordered set leaves them in the order of their first stops. -/
theorem foldl_addNew (h : Tour met fields) :
    (∀ f, f ∈ fields.foldl Affected.addNew [] ↔ ∃ place, met place f) ∧
      (fields.foldl Affected.addNew []).Pairwise fun f g =>
        ∃ place, met place f ∧ ∀ later, met later g → place < later := by
  obtain ⟨stops, rfl, hsorted, hmem⟩ := h
  simp only [← hmem]
  clear hmem
  have hfound : ∀ (stops : List (List Nat × FieldId)) f,
      f ∈ (stops.map (·.2)).foldl Affected.addNew [] ↔ ∃ place, (place, f) ∈ stops := by
    intro stops f
    simp [Affected.mem_foldl_addNew]
  refine ⟨hfound stops, ?_⟩
  -- The last stop comes after all others, so it can only add its field behind theirs.
  induction stops using List.reverseRecOn with
  | nil => exact .nil
  | append_singleton stops last ih =>
    obtain ⟨hfront, -, hlast⟩ := List.pairwise_append.1 hsorted
    have hkeep : ((stops.map (·.2)).foldl Affected.addNew []).Pairwise fun f g =>
        ∃ place, (place, f) ∈ stops ++ [last] ∧
          ∀ later, (later, g) ∈ stops ++ [last] → place < later := by
      refine (ih hfront).imp fun {f g} hfg => ?_
      obtain ⟨place, hplace, hfirst⟩ := hfg
      refine ⟨place, List.mem_append_left _ hplace, fun later hlater => ?_⟩
      rcases List.mem_append.1 hlater with hold | hnew
      · exact hfirst later hold
      · rw [← List.mem_singleton.1 hnew] at hlast
        exact hlast _ hplace _ (List.mem_singleton_self _)
    rw [List.map_append, List.foldl_append, List.map_singleton, List.foldl_cons, List.foldl_nil,
      Affected.addNew]
    split
    · exact hkeep
    · rename_i hnew
      refine List.pairwise_append.2 ⟨hkeep, List.pairwise_singleton _ _, fun f hf g hg => ?_⟩
      obtain rfl := List.mem_singleton.1 hg
      obtain ⟨place, hplace⟩ := (hfound stops f).1 hf
      refine ⟨place, List.mem_append_left _ hplace, fun later hlater => ?_⟩
      rcases List.mem_append.1 hlater with hold | honly
      · exact absurd ((hfound stops _).2 ⟨later, hold⟩) hnew
      · exact hlast _ hplace _ honly

end Tour

/-! ### The tour of a payload -/

def ObjectTouches (model : Model) (target : TypeId) (value : Json) (place : List Nat)
    (f : FieldId) : Prop :=
  ∃ inner, value = .object inner ∧ Touches model target inner place f

def ValueTouches (model : Model) (field : Field) (value : Json) (place : List Nat) (f : FieldId) :
    Prop :=
  ∃ target, field.Embeds target ∧
    (field.list = false ∧ ObjectTouches model target value place f ∨
      field.list = true ∧ ∃ values, value = .array values ∧
        Tour.Along (ObjectTouches model target) 0 values place f)

def FieldTouches (model : Model) (object : Json.Object) (field : Field) (place : List Nat)
    (f : FieldId) : Prop :=
  field.system = false ∧ ∃ value, field.propertyIn? object = some value ∧
    (place = [] ∧ f = field.id ∨ ValueTouches model field value place f)

variable {id target : TypeId} {object : Json.Object} {place : List Nat} {f : FieldId}

theorem touches_iff (hresolve : Model.resolve decl = .ok model) :
    Touches model id object place f ↔ ∃ type, model.type? id = some type ∧
      Tour.Along (FieldTouches model object) 0 type.fields place f := by
  have hdeclared : ∀ {type : ObjectType} {index : Nat} {field : Field} {target : TypeId},
      model.type? id = some type → type.fields[index]? = some field → field.Embeds target →
        field.system = false := by
    intro type index field target htype hfield hembeds
    obtain ⟨_, -, hresolved⟩ := Model.resolved_type hresolve htype
    exact hresolved.system_of_embeds (List.mem_of_getElem? hfield) hembeds
  simp only [Tour.Along, FieldTouches, ValueTouches, ObjectTouches, Nat.zero_add]
  constructor
  · intro h
    cases h with
    | @key _ _ type index field htype hfield hsystem hkey =>
      obtain ⟨value, hvalue⟩ := Option.isSome_iff_exists.1 hkey
      exact ⟨type, htype, index, field, [], hfield, rfl, hsystem, value, hvalue, .inl ⟨rfl, rfl⟩⟩
    | object htype hfield hembeds hsingle hvalue hinner =>
      exact ⟨_, htype, _, _, _, hfield, rfl, hdeclared htype hfield hembeds, _, hvalue,
        .inr ⟨_, hembeds, .inl ⟨hsingle, _, rfl, hinner⟩⟩⟩
    | item htype hfield hembeds hlist hvalue hitem hinner =>
      exact ⟨_, htype, _, _, _, hfield, rfl, hdeclared htype hfield hembeds, _, hvalue,
        .inr ⟨_, hembeds, .inr ⟨hlist, _, rfl, _, _, _, hitem, rfl, _, rfl, hinner⟩⟩⟩
  · rintro ⟨type, htype, index, field, rest, hfield, rfl, hsystem, value, hvalue, htouched⟩
    rcases htouched with ⟨rfl, rfl⟩ | ⟨target, hembeds, ⟨hsingle, inner, rfl, hinner⟩ |
      ⟨hlist, values, rfl, item, _, rest, hitem, rfl, inner, rfl, hinner⟩⟩
    · exact .key htype hfield hsystem (by simp [hvalue])
    · exact .object htype hfield hembeds hsingle hvalue hinner
    · exact .item htype hfield hembeds hlist hvalue hitem hinner

theorem ValueTouches.exists_cons {field : Field} {value : Json}
    (h : ValueTouches model field value place f) : ∃ first rest, place = first :: rest := by
  obtain ⟨target, -, ⟨-, inner, -, hinner⟩ | ⟨-, _, -, item, _, rest, -, rfl, -⟩⟩ := h
  · cases hinner <;> exact ⟨_, _, rfl⟩
  · exact ⟨_, rest, rfl⟩

namespace Affected

def Tours (model : Model) (n : Nat) : Prop :=
  ∀ id object fields, sizeOf object < n → touched model id object = .ok fields →
    Tour (Touches model id object) fields

variable {n : Nat} {fields : List FieldId}

theorem tour_touchedItems (h : Tours model n) {field : InputField} {values : List Json}
    (hsize : sizeOf values ≤ n) (hfields : touchedItems model field target values = .ok fields)
    (start : Nat) :
    Tour (Tour.Along (ObjectTouches model target) start values) fields := by
  induction values generalizing fields start with
  | nil =>
    rw [touchedItems] at hfields
    cases hfields
    exact .along_nil _ _
  | cons first others ih =>
    cases first with
    | object members =>
      rw [touchedItems] at hfields
      obtain ⟨inner, hinner, hnext⟩ := Results.bind_eq_ok_iff.1 hfields
      obtain ⟨behind, hbehind, heq⟩ := Results.bind_eq_ok_iff.1 hnext
      cases heq
      simp only [List.cons.sizeOf_spec, Json.object.sizeOf_spec] at hsize
      have hfirst : Tour (Touches model target members) inner :=
        h target members inner (by omega) hinner
      exact .along_cons (hfirst.congr (by simp [ObjectTouches])) (ih (by omega) hbehind (start + 1))
    | _ => simp [touchedItems] at hfields

theorem tour_touchedValue (h : Tours model n) {field : Field} {value : Json}
    (hsize : sizeOf value ≤ n)
    (hfields : touchedValue model (CreateInput.inputField model field) value = .ok fields) :
    Tour (ValueTouches model field value) fields := by
  have hleaf : (∀ target, ¬ field.Embeds target) → Tour (ValueTouches model field value) [] := by
    refine fun hnone => .empty ?_
    rintro place f ⟨target, hembeds, -⟩
    exact hnone target hembeds
  rcases CreateInput.kind_cases model field with
    ⟨hplain, hkind⟩ | ⟨hrelates, hkind⟩ | ⟨target, name, hembeds, hkind⟩
  · rw [touchedValue_of_leaf (by intro nested; rw [hkind]; split_ifs <;> simp)] at hfields
    cases hfields
    exact hleaf fun target hembeds => hembeds.not_plain hplain
  · rw [touchedValue_of_leaf (by simp [hkind])] at hfields
    cases hfields
    exact hleaf fun target hembeds => hembeds.not_relates hrelates
  · cases hlist : field.list with
    | false =>
      rw [hlist, if_neg Bool.false_ne_true] at hkind
      cases value with
      | null =>
        rw [touchedValue] at hfields
        cases hfields
        refine .empty ?_
        rintro place f ⟨_, _, hnested⟩
        simp [ObjectTouches, hlist] at hnested
      | object inner =>
        rw [touchedValue, hkind] at hfields
        simp only [Json.object.sizeOf_spec] at hsize
        refine (h target inner fields (by omega) hfields).congr fun place f => ?_
        constructor
        · exact fun hmet => ⟨target, hembeds, .inl ⟨hlist, inner, rfl, hmet⟩⟩
        · rintro ⟨other, hother, ⟨-, _, heq, hmet⟩ | ⟨hmany, -⟩⟩
          · cases heq
            exact hembeds.unique hother ▸ hmet
          · rw [hlist] at hmany
            cases hmany
      | _ => simp [touchedValue, hkind] at hfields
    | true =>
      rw [hlist, if_pos rfl] at hkind
      cases value with
      | null =>
        rw [touchedValue] at hfields
        cases hfields
        refine .empty ?_
        rintro place f ⟨_, _, hnested⟩
        simp [ObjectTouches, hlist] at hnested
      | array values =>
        rw [touchedValue, hkind] at hfields
        simp only [Json.array.sizeOf_spec] at hsize
        refine (tour_touchedItems h (by omega) hfields 0).congr fun place f => ?_
        constructor
        · exact fun hmet => ⟨target, hembeds, .inr ⟨hlist, values, rfl, hmet⟩⟩
        · rintro ⟨other, hother, ⟨hsingle, -⟩ | ⟨-, _, heq, hmet⟩⟩
          · rw [hlist] at hsingle
            cases hsingle
          · cases heq
            exact hembeds.unique hother ▸ hmet
      | _ => simp [touchedValue, hkind] at hfields

/-- The walk through the fields of an input is the tour of the fields of its type. -/
theorem tour_touchedFields (h : Tours model n) (hsize : sizeOf object ≤ n) {sources : List Field}
    (hfields : touchedFields model object
      ((sources.filter (!·.system)).map (CreateInput.inputField model)) = .ok fields)
    (start : Nat) :
    Tour (Tour.Along (FieldTouches model object) start sources) fields := by
  induction sources generalizing fields start with
  | nil =>
    rw [List.filter_nil, List.map_nil, touchedFields] at hfields
    cases hfields
    exact .along_nil _ _
  | cons field others ih =>
    cases hsystem : field.system with
    | true =>
      rw [List.filter_cons_of_neg (by simp [hsystem])] at hfields
      have hnone : Tour (FieldTouches model object field) [] :=
        .empty fun place f hmet => by simp [FieldTouches, hsystem] at hmet
      exact hnone.along_cons (ih hfields (start + 1))
    | false =>
      rw [List.filter_cons_of_pos (by simp [hsystem]), List.map_cons, touchedFields_cons] at hfields
      have hname : (CreateInput.inputField model field).name = field.name := rfl
      rw [hname] at hfields
      cases hvalue : Entries.get? object field.name with
      | none =>
        rw [hvalue] at hfields
        have hnone : Tour (FieldTouches model object field) [] :=
          .empty fun place f hmet => by simp [FieldTouches, Field.propertyIn?, hvalue] at hmet
        exact hnone.along_cons (ih hfields (start + 1))
      | some value =>
        rw [hvalue] at hfields
        obtain ⟨inner, hinner, hnext⟩ := Results.bind_eq_ok_iff.1 hfields
        obtain ⟨behind, hothers, heq⟩ := Results.bind_eq_ok_iff.1 hnext
        cases heq
        have hsmall := Entries.sizeOf_lt_of_get? hvalue
        have hnested : Tour (ValueTouches model field value) inner :=
          tour_touchedValue h (by omega) hinner
        have hfirst : Tour (FieldTouches model object field) (field.id :: inner) := by
          refine ((Tour.here field.id).append hnested ?_).congr fun place f => ?_
          · rintro place f place' f' ⟨rfl, rfl⟩ hmet
            obtain ⟨first, rest, rfl⟩ := hmet.exists_cons
            exact List.nil_lt_cons first rest
          · simp [FieldTouches, hsystem, Field.propertyIn?, hvalue]
        exact hfirst.along_cons (ih hothers (start + 1))

theorem tours (hresolve : Model.resolve decl = .ok model) (n : Nat) : Tours model n := by
  induction n with
  | zero =>
    intro id object fields hsize
    omega
  | succ n ih =>
    intro id object fields hsize htouched
    obtain ⟨input, hinput, hfields⟩ := touched_eq_ok_iff.1 htouched
    obtain ⟨type, htype, rfl⟩ := Model.createInput?_eq_some_iff.1 hinput
    refine (tour_touchedFields ih (by omega) hfields 0).congr fun place f => ?_
    rw [touches_iff hresolve]
    simp [htype]

end Affected

/-! ### What the objects of a payload have -/

theorem Holds.trans {read : Field → Json.Object → Option Json} {root inner : Json.Object}
    {path inside : List PathStep} {typeId innerType : TypeId}
    (houter : Holds model read id root path typeId object)
    (hinner : Holds model read typeId object inside innerType inner) :
    Holds model read id root (inside ++ path) innerType inner := by
  induction hinner with
  | root => exact houter
  | field _ htype hfield hembeds hsingle hvalue ih =>
    exact .field ih htype hfield hembeds hsingle hvalue
  | item _ htype hfield hembeds hlist hvalue hitem ih =>
    exact .item ih htype hfield hembeds hlist hvalue hitem

theorem exists_touches_of_holds {payload : Json.Object} {path : List PathStep} {typeId : TypeId}
    (h : Holds model Field.propertyIn? id payload path typeId object)
    (htouches : Touches model typeId object place f) :
    ∃ place, Touches model id payload place f := by
  induction h generalizing place with
  | root => exact ⟨place, htouches⟩
  | field _ htype hfield hembeds hsingle hvalue ih =>
    obtain ⟨index, hindex⟩ := List.mem_iff_getElem?.1 hfield
    exact ih (.object htype hindex hembeds hsingle hvalue htouches)
  | item _ htype hfield hembeds hlist hvalue hitem ih =>
    obtain ⟨index, hindex⟩ := List.mem_iff_getElem?.1 hfield
    exact ih (.item htype hindex hembeds hlist hvalue hitem htouches)

/-- A field is touched exactly if an object of its type has it as a key, unless it is the
system's. -/
theorem exists_touches_iff (hresolve : Model.resolve decl = .ok model) {payload : Json.Object} :
    (∃ place, Touches model id payload place f) ↔ ∃ field, model.field? f = some field ∧
      field.system = false ∧ field.KeyedIn model id payload := by
  constructor
  · rintro ⟨place, h⟩
    induction h with
    | @key id object type index field htype hfield hsystem hkey =>
      obtain ⟨_, -, hresolved⟩ := Model.resolved_type hresolve htype
      have hid : field.id.type = id := by rw [hresolved.fieldsAt.position index field hfield]
      refine ⟨field, Model.field?_of_mem hresolve htype (List.mem_of_getElem? hfield), hsystem, [],
        object, ?_, hkey⟩
      rw [hid]
      exact .root
    | object htype hfield hembeds hsingle hvalue _ ih =>
      obtain ⟨field, hf, hsystem, path, object, hholds, hkey⟩ := ih
      have houter := Holds.field .root htype (List.mem_of_getElem? hfield) hembeds hsingle hvalue
      exact ⟨field, hf, hsystem, _, object, houter.trans hholds, hkey⟩
    | item htype hfield hembeds hlist hvalue hitem _ ih =>
      obtain ⟨field, hf, hsystem, path, object, hholds, hkey⟩ := ih
      have houter := Holds.item .root htype (List.mem_of_getElem? hfield) hembeds hlist hvalue hitem
      exact ⟨field, hf, hsystem, _, object, houter.trans hholds, hkey⟩
  · rintro ⟨field, hf, hsystem, path, object, hholds, hkey⟩
    simp only [Model.field?, Option.bind_eq_bind, Option.bind_eq_some_iff] at hf
    obtain ⟨type, htype, hfield⟩ := hf
    obtain ⟨_, -, hresolved⟩ := Model.resolved_type hresolve htype
    have hid : field.id = f := hresolved.fieldsAt.position _ _ hfield
    have htouches := Touches.key htype hfield hsystem hkey
    rw [hid] at hholds htouches
    exact exists_touches_of_holds hholds htouches

def TouchesBefore (model : Model) (id : TypeId) (payload : Json.Object) (f g : FieldId) : Prop :=
  ∃ place, Touches model id payload place f ∧
    ∀ later, Touches model id payload later g → place < later

/-- The affected fields are those that an object of the payload has as a key, apart from the fields
of the system, each once, in the order in which the payload touches them first. -/
theorem Model.affectedFields_in_walk_order (hresolve : Model.resolve decl = .ok model)
    {payload : Json.Object} {fields : List FieldId}
    (h : model.affectedFields id payload = .ok fields) :
    (∀ f, f ∈ fields ↔ ∃ field, model.field? f = some field ∧ field.system = false ∧
      field.KeyedIn model id payload) ∧
    fields.Nodup ∧ fields.Pairwise (TouchesBefore model id payload) := by
  obtain ⟨touched, htouched, rfl⟩ := Results.map_eq_ok_iff.1 h
  have htour : Tour (Touches model id payload) touched :=
    Affected.tours hresolve (sizeOf payload + 1) id payload touched (by omega) htouched
  obtain ⟨hmem, hsorted⟩ := htour.foldl_addNew
  refine ⟨fun f => (hmem f).trans (exists_touches_iff hresolve), ?_, hsorted⟩
  refine hsorted.imp fun {f g} hfg heq => ?_
  obtain ⟨place, hplace, hfirst⟩ := hfg
  exact List.lt_irrefl place (hfirst place (heq ▸ hplace))

open Affected

/-- The parts of an item are declared in front of its text, but the first item has a text alone. The
note is left to its default. -/
theorem walk_order_of_items :
    let decl : ModelDecl :=
      { types :=
        [{ name := "Order", kind := .rootEntity,
           fields := [{ name := "note", typeName := "String", default := some (.string "none") },
             { name := "items", typeName := "Item", list := true }] },
         { name := "Item", kind := .childEntity,
           fields := [{ name := "parts", typeName := "Item", list := true },
             { name := "text", typeName := "String" }] }] }
    let order : Json.Object :=
      [("items", .array [.object [("text", .null)],
        .object [("text", .string "bolt"), ("parts", .array [.object []])]])]
    ∃ model, Model.resolve decl = .ok model ∧
      model.affectedFields 0 order = .ok [⟨0, 4⟩, ⟨1, 4⟩, ⟨1, 3⟩] ∧
      TouchesBefore model 0 order ⟨1, 4⟩ ⟨1, 3⟩ ∧
      ∃ note, model.field? ⟨0, 3⟩ = some note ∧ ¬ note.KeyedIn model 0 order := by
  intro decl order
  let items (id : FieldId) (name : String) : InputField :=
    ⟨name, id, none, .listOf (Names.createInput "Item"), .objectList ⟨Names.createInput "Item", 1⟩⟩
  let text (id : FieldId) (name : String) (default : Option Json) : InputField :=
    ⟨name, id, default, .optional "String", .basic⟩
  obtain ⟨model, hresolve, input, hinput, hfields, inner, hinner, hinnerFields, note, hnote,
      hsystem⟩ :
      ∃ model, Model.resolve decl = .ok model ∧
        ∃ input, model.createInput? 0 = some input ∧
          input.fields = [text ⟨0, 3⟩ "note" (some (.string "none")), items ⟨0, 4⟩ "items"] ∧
        ∃ inner, model.createInput? 1 = some inner ∧
          inner.fields = [items ⟨1, 3⟩ "parts", text ⟨1, 4⟩ "text" none] ∧
        ∃ note, model.field? ⟨0, 3⟩ = some note ∧ note.system = false :=
    ⟨_, rfl, _, rfl, rfl, _, rfl, rfl, _, rfl, rfl⟩
  have haffected : model.affectedFields 0 order = .ok [⟨0, 4⟩, ⟨1, 4⟩, ⟨1, 3⟩] := by
    simp only [Model.affectedFields, touched, hinput, hfields, hinner, hinnerFields,
      touchedFields_cons, touchedFields_nil, touchedValue, touchedItems, Entries.get?_cons,
      Entries.get?_nil, String.reduceEq, reduceIte, order, items, text]
    rfl
  obtain ⟨hmem, -, hsorted⟩ := Model.affectedFields_in_walk_order hresolve haffected
  refine ⟨model, hresolve, haffected, ?_, note, hnote, fun hkeyed => ?_⟩
  · exact (List.pairwise_cons.1 (List.pairwise_cons.1 hsorted).2).1 _ (by decide)
  · exact absurd ((hmem ⟨0, 3⟩).2 ⟨note, hnote, hsystem, hkeyed⟩) (by decide)

/-- An order that comes with an identifier of its own has the name of a field as a key, and no field
is reported for it. -/
theorem given_identifier_is_not_reported :
    let decl : ModelDecl := { types := [{ name := "Order", kind := .rootEntity }] }
    let order : Json.Object := [("id", .string "7")]
    ∃ model fields field, Model.resolve decl = .ok model ∧
      model.affectedFields 0 order = .ok fields ∧
      model.field? ⟨0, 0⟩ = some field ∧ field.KeyedIn model 0 order ∧ ⟨0, 0⟩ ∉ fields := by
  intro decl order
  obtain ⟨model, hresolve, input, hinput, hfields, field, hfield, hkeyed⟩ :
      ∃ model, Model.resolve decl = .ok model ∧
        ∃ input, model.createInput? 0 = some input ∧ input.fields = [] ∧
        ∃ field, model.field? ⟨0, 0⟩ = some field ∧ field.KeyedIn model 0 order :=
    ⟨_, rfl, _, rfl, rfl, _, rfl, [], _, .root, rfl⟩
  have haffected : model.affectedFields 0 order = .ok [] := by
    simp only [Model.affectedFields, touched, hinput, hfields, touchedFields_nil]
    rfl
  exact ⟨model, [], field, hresolve, haffected, hfield, hkeyed, List.not_mem_nil⟩

end EntitySchema
