import EntitySchema.CreateInput.Reachable
import EntitySchema.Proofs.CreateInput.Inputs
import EntitySchema.Proofs.Model.Violations
import Mathlib.Logic.Relation

/-! # The inputs that an input nests at any depth

A walk with a stack that marks inputs by name meets the same inputs in the same order as a recursive
traversal that marks types: the inputs reachable through embedding fields, each once. Their schema
text names no input but these. -/
namespace EntitySchema

variable {decl : ModelDecl} {model : Model}

/-! ### The recursive traversal -/

/-- The recursive traversal in pre-order goes through some types in turn. It passes over one that it
has seen, and gives another one and all that the fields of its input lead to, as they are declared,
before it goes on. The last argument lists the types that it gives. -/
inductive Traversal (model : Model) : List TypeId → List TypeId → List TypeId → Prop
  | done {seen : List TypeId} : Traversal model seen [] []
  | again {seen ids order : List TypeId} {id : TypeId} (hseen : id ∈ seen)
      (rest : Traversal model seen ids order) : Traversal model seen (id :: ids) order
  | enter {seen ids inner order : List TypeId} {id : TypeId} {input : CreateInput}
      (hnew : id ∉ seen) (hinput : model.createInput? id = some input)
      (within : Traversal model (seen ++ [id]) (input.nested.map (·.target)) inner)
      (rest : Traversal model (seen ++ id :: inner) ids order) :
      Traversal model seen (id :: ids) (id :: (inner ++ order))

namespace Traversal

variable {seen ids order : List TypeId}

theorem unique {other : List TypeId} (h : Traversal model seen ids order)
    (h' : Traversal model seen ids other) : other = order := by
  induction h generalizing other with
  | done =>
    cases h'
    rfl
  | again hseen _ ih =>
    cases h' with
    | again _ rest => exact ih rest
    | enter hnew => exact absurd hseen hnew
  | enter hnew hinput _ _ ihwithin ihrest =>
    cases h' with
    | again hseen => exact absurd hseen hnew
    | enter _ hinput' within rest =>
      cases hinput.symm.trans hinput'
      obtain rfl := ihwithin within
      rw [ihrest rest]

/-- Going through two lists in turn is going through the first one, and then through the second. -/
theorem split {first second : List TypeId} (h : Traversal model seen (first ++ second) order) :
    ∃ front back, Traversal model seen first front ∧ Traversal model (seen ++ front) second back ∧
      order = front ++ back := by
  generalize hids : first ++ second = ids at h
  induction h generalizing first with
  | done =>
    obtain ⟨rfl, rfl⟩ := List.append_eq_nil_iff.1 hids
    exact ⟨[], [], .done, .done, rfl⟩
  | @again seen ids order id hseen rest ih =>
    cases first with
    | nil =>
      cases hids
      exact ⟨[], order, .done, by simpa using .again hseen rest, rfl⟩
    | cons _ first =>
      cases hids
      obtain ⟨front, back, hfront, hback, rfl⟩ := ih rfl
      exact ⟨front, back, .again hseen hfront, hback, rfl⟩
  | @enter seen ids inner order id input hnew hinput within rest _ ih =>
    cases first with
    | nil =>
      cases hids
      exact ⟨[], _, .done, by simpa using .enter hnew hinput within rest, rfl⟩
    | cons _ first =>
      cases hids
      obtain ⟨front, back, hfront, hback, rfl⟩ := ih rfl
      refine ⟨id :: (inner ++ front), back, .enter hnew hinput within hfront, ?_, by simp⟩
      simpa using hback

/-- No type is given twice, and none that has been seen. -/
theorem nodup (h : Traversal model seen ids order) : order.Nodup ∧ ∀ id ∈ order, id ∉ seen := by
  induction h with
  | done => exact ⟨List.nodup_nil, by simp⟩
  | again _ _ ih => exact ih
  | @enter seen ids inner order id _ hnew _ _ _ ihwithin ihrest =>
    simp only [List.mem_append, List.mem_cons, not_or] at ihwithin ihrest
    refine ⟨List.nodup_cons.2 ⟨fun hmem => ?_, ?_⟩, fun other hother hseen => ?_⟩
    · rcases List.mem_append.1 hmem with hinner | horder
      · exact (ihwithin.2 id hinner).2.1 rfl
      · exact (ihrest.2 id horder).2.1 rfl
    · refine List.nodup_append'.2 ⟨ihwithin.1, ihrest.1, fun other hinner horder => ?_⟩
      exact (ihrest.2 other horder).2.2 hinner
    · rcases List.mem_cons.1 hother with rfl | hrest
      · exact hnew hseen
      · rcases List.mem_append.1 hrest with hinner | horder
        · exact (ihwithin.2 other hinner).1 hseen
        · exact (ihrest.2 other horder).1 hseen

/-- Every type that is given is nested in one that the traversal goes through. -/
theorem reaches (h : Traversal model seen ids order) :
    ∀ id ∈ order, ∃ start ∈ ids, Relation.ReflTransGen model.Embeds start id := by
  induction h with
  | done => simp
  | again _ _ ih =>
    intro id hid
    obtain ⟨start, hstart, hreach⟩ := ih id hid
    exact ⟨start, List.mem_cons_of_mem _ hstart, hreach⟩
  | enter _ hinput _ _ ihwithin ihrest =>
    intro other hother
    rcases List.mem_cons.1 hother with rfl | hrest
    · exact ⟨other, List.mem_cons_self, .refl⟩
    rcases List.mem_append.1 hrest with hinner | horder
    · obtain ⟨start, hstart, hreach⟩ := ihwithin other hinner
      obtain ⟨nested, hnested, rfl⟩ := List.mem_map.1 hstart
      exact ⟨_, List.mem_cons_self, .head ⟨_, hinput, nested, hnested, rfl⟩ hreach⟩
    · obtain ⟨start, hstart, hreach⟩ := ihrest other horder
      exact ⟨start, List.mem_cons_of_mem _ hstart, hreach⟩

/-- What the traversal goes through, and what a type that it gives nests, is seen in the end. -/
theorem closed (h : Traversal model seen ids order) :
    (∀ id ∈ ids, id ∈ seen ++ order) ∧
      ∀ outer ∈ order, ∀ inner, model.Embeds outer inner → inner ∈ seen ++ order := by
  induction h with
  | done => simp
  | again hseen _ ih =>
    refine ⟨fun id hid => ?_, ih.2⟩
    rcases List.mem_cons.1 hid with rfl | hrest
    · exact List.mem_append_left _ hseen
    · exact ih.1 id hrest
  | @enter seen ids inner order id input hnew hinput _ _ ihwithin ihrest =>
    have hsubset : ∀ other ∈ seen ++ [id] ++ inner, other ∈ seen ++ id :: (inner ++ order) := by
      simp only [List.mem_append, List.mem_cons]
      tauto
    refine ⟨fun other hother => ?_, fun outer houter target htarget => ?_⟩
    · rcases List.mem_cons.1 hother with rfl | hrest
      · simp
      · simpa using ihrest.1 other hrest
    rcases List.mem_cons.1 houter with rfl | hrest
    · obtain ⟨_, hinput', nested, hnested, rfl⟩ := htarget
      cases hinput.symm.trans hinput'
      exact hsubset _ (ihwithin.1 _ (List.mem_map_of_mem hnested))
    rcases List.mem_append.1 hrest with hinner | horder
    · exact hsubset _ (ihwithin.2 outer hinner target htarget)
    · simpa using ihrest.2 outer horder target htarget

/-- From one type on, the traversal gives exactly the types that it nests at any depth. -/
theorem mem_iff {id target : TypeId} (h : Traversal model [] [id] order) :
    target ∈ order ↔ Relation.ReflTransGen model.Embeds id target := by
  constructor
  · intro hmem
    obtain ⟨start, hstart, hreach⟩ := h.reaches target hmem
    rwa [List.mem_singleton.1 hstart] at hreach
  · intro hreach
    obtain ⟨hstart, hnested⟩ := h.closed
    simp only [List.nil_append] at hstart hnested
    induction hreach with
    | refl => exact hstart id List.mem_cons_self
    | tail _ hlast ih => exact hnested _ ih _ hlast

end Traversal

/-! ### The walk with a stack -/

theorem Names.createInput_injective : Function.Injective createInput := fun _ _ h =>
  (String.append_right_inj "Create").1 ((String.append_left_inj "Input").1 h)

namespace Model

/-- Inputs of one name are the input of one type. -/
theorem eq_of_inputName (hresolve : Model.resolve decl = .ok model) {id other : TypeId}
    {input input' : CreateInput} (hinput : model.createInput? id = some input)
    (hinput' : model.createInput? other = some input') (hname : input.name = input'.name) :
    id = other := by
  obtain ⟨type, htype, rfl⟩ := createInput?_eq_some_iff.1 hinput
  obtain ⟨type', htype', rfl⟩ := createInput?_eq_some_iff.1 hinput'
  obtain ⟨declared, hdeclared, hresolved⟩ := resolved_type hresolve htype
  obtain ⟨declared', hdeclared', hresolved'⟩ := resolved_type hresolve htype'
  have hsame : declared.name = declared'.name := by
    rw [← hresolved.name_eq, ← hresolved'.name_eq]
    exact Names.createInput_injective hname
  have hlt : id < (decl.types.map (·.name)).length := by
    simpa using (List.getElem?_eq_some_iff.1 hdeclared).1
  refine (List.getElem?_inj hlt (wellFormed_of_resolve hresolve).names).1 ?_
  rw [List.getElem?_map, List.getElem?_map, hdeclared, hdeclared', Option.map_some,
    Option.map_some, hsame]

theorem exists_createInput {id : TypeId} (hlt : id < model.types.length) :
    ∃ input, model.createInput? id = some input :=
  ⟨_, createInput?_eq_some_iff.2 ⟨_, List.getElem?_eq_getElem hlt, rfl⟩⟩

/-- What an input nests are inputs of the model. -/
theorem target_lt_of_nested (hresolve : Model.resolve decl = .ok model) {id : TypeId}
    {input : CreateInput} (hinput : model.createInput? id = some input) {target : TypeId}
    (htarget : target ∈ input.nested.map (·.target)) : target < model.types.length := by
  obtain ⟨type, htype, rfl⟩ := createInput?_eq_some_iff.1 hinput
  obtain ⟨nested, hnested, rfl⟩ := List.mem_map.1 htarget
  obtain ⟨field, hfield, hkind⟩ := CreateInput.mem_nested.1 hnested
  obtain ⟨source, hsource, -, rfl⟩ := CreateInput.mem_fields_ofType.1 hfield
  exact target_lt hresolve htype hsource (CreateInput.embeds_of_kind hkind).1

end Model

namespace Reachable

def Marks (model : Model) (marked : List String) (seen : List TypeId) : Prop :=
  ∀ id input, model.createInput? id = some input → (input.name ∈ marked ↔ id ∈ seen)

theorem Marks.mark {marked : List String} {seen : List TypeId} (h : Marks model marked seen)
    (hresolve : Model.resolve decl = .ok model) {id : TypeId} {input : CreateInput}
    (hinput : model.createInput? id = some input) :
    Marks model (input.name :: marked) (seen ++ [id]) := by
  intro other input' hinput'
  have hsame : input'.name = input.name ↔ other = id := by
    refine ⟨Model.eq_of_inputName hresolve hinput' hinput, ?_⟩
    rintro rfl
    rw [Option.some.inj (hinput.symm.trans hinput')]
  rw [List.mem_cons, List.mem_append, List.mem_singleton, hsame, h other input' hinput', or_comm]

theorem visit_of_marked {marked : List String} {id : TypeId} {input : CreateInput}
    (hinput : model.createInput? id = some input) (hmarked : input.name ∈ marked)
    (stack : List TypeId) : visit model marked (id :: stack) = visit model marked stack := by
  rw [visit]
  split
  · rfl
  · rename_i found hfound
    obtain rfl : found = input := Option.some.inj (hfound.symm.trans hinput)
    rw [dif_pos hmarked]

theorem visit_of_new {marked : List String} {id : TypeId} {input : CreateInput}
    (hinput : model.createInput? id = some input) (hnew : input.name ∉ marked)
    (stack : List TypeId) : visit model marked (id :: stack) =
      input :: visit model (input.name :: marked) (input.nested.map (·.target) ++ stack) := by
  rw [visit]
  split
  · rename_i hnone
    rw [hinput] at hnone
    cases hnone
  · rename_i found hfound
    obtain rfl : found = input := Option.some.inj (hfound.symm.trans hinput)
    rw [dif_neg hnew]

/-- The walk meets the inputs of the types that the recursive traversal gives. The stack of the walk
is what the traversal has still to go through, at all its levels. -/
theorem exists_traversal (hresolve : Model.resolve decl = .ok model) (marked : List String)
    (stack seen : List TypeId) (hmarks : Marks model marked seen)
    (hstack : ∀ id ∈ stack, id < model.types.length) :
    ∃ order, Traversal model seen stack order ∧
      (visit model marked stack).map some = order.map model.createInput? := by
  induction marked, stack using visit.induct model generalizing seen with
  | case1 marked =>
    rw [visit]
    exact ⟨[], .done, rfl⟩
  | case2 marked id stack hnone =>
    obtain ⟨input, hinput⟩ := Model.exists_createInput (hstack id List.mem_cons_self)
    rw [hnone] at hinput
    cases hinput
  | case3 marked id stack input hinput hmarked ih =>
    have hrest := fun other hother => hstack other (List.mem_cons_of_mem _ hother)
    obtain ⟨order, htraversal, hvisit⟩ := ih seen hmarks hrest
    refine ⟨order, .again ((hmarks id input hinput).1 hmarked) htraversal, ?_⟩
    rw [visit_of_marked hinput hmarked, hvisit]
  | case4 marked id stack input hinput hnew ih =>
    have hrest : ∀ other ∈ input.nested.map (·.target) ++ stack, other < model.types.length := by
      intro other hother
      rcases List.mem_append.1 hother with hnested | hbehind
      · exact Model.target_lt_of_nested hresolve hinput hnested
      · exact hstack other (List.mem_cons_of_mem _ hbehind)
    obtain ⟨order, htraversal, hvisit⟩ :=
      ih (seen ++ [id]) (hmarks.mark hresolve hinput) hrest
    -- The nested inputs and the rest of the stack are one list here and two in the traversal.
    obtain ⟨inner, behind, hinner, hbehind, rfl⟩ := htraversal.split
    refine ⟨id :: (inner ++ behind), ?_, ?_⟩
    · exact .enter (fun hseen => hnew ((hmarks id input hinput).2 hseen)) hinput hinner
        (by simpa using hbehind)
    · rw [visit_of_new hinput hnew, List.map_cons, List.map_cons, hvisit, hinput]

end Reachable

/-! ### The names in their schema text -/

namespace ModelDecl

/-- A name that stands for no object type is one that every model has, or a declared enum. -/
theorem known_of_resolveType {type : TypeDecl} {declared : FieldDecl} {fieldType : FieldType}
    {childEntities : Bool} {name : String}
    (h : decl.resolveType type declared = .ok (fieldType, childEntities))
    (hname : fieldType = .scalar name ∨ fieldType = .enumeration name) :
    isBuiltinScalar name ∨ name ∈ decl.enums := by
  simp only [resolveType] at h
  split at h
  · split_ifs at h
    cases h
    simp at hname
  · split_ifs at h with hscalar henum
    · cases h
      obtain rfl : declared.typeName = name := by simpa using hname
      exact .inl hscalar
    · cases h
      obtain rfl : declared.typeName = name := by simpa using hname
      exact .inr henum

end ModelDecl

/-- The type of an input field names a scalar, an enum, or the input of the type that the field
embeds. -/
theorem CreateInput.innermost_inputField (hresolve : Model.resolve decl = .ok model) {id : TypeId}
    {type : ObjectType} {field : Field} (htype : model.type? id = some type)
    (hfield : field ∈ type.fields) (hsystem : field.system = false) :
    (isBuiltinScalar (inputField model field).type.innermost ∨
        (inputField model field).type.innermost ∈ decl.enums) ∨
      ∃ target input, field.Embeds target ∧ model.createInput? target = some input ∧
        input.name = (inputField model field).type.innermost := by
  obtain ⟨source, -, hresolved⟩ := Model.resolved_type hresolve htype
  have hleaf (name : String) (list : Bool) : (leaf name list).1.innermost = name := by
    cases list <;> rfl
  have hrelation (toMany : Bool) : (relation toMany).1.innermost = "ID" := by
    cases toMany <;> rfl
  have hembedded (nested : NestedInput) (list : Bool) :
      (embedded nested list).1.innermost = nested.name := by
    cases list <;> rfl
  simp only [inputField, shape]
  cases hobject : field.type with
  | scalar name | enumeration name =>
    rcases hresolved.mem_systemFields_or hfield with hfront | ⟨declared, -, hdeclared⟩
    · rw [(ModelDecl.mem_systemFields hfront).1] at hsystem
      cases hsystem
    obtain ⟨_, _, _, hresolves, rfl⟩ := hdeclared
    cases hobject
    simp only [hleaf]
    exact .inl (ModelDecl.known_of_resolveType hresolves (by simp))
  | object target =>
    by_cases hlink : field.relation = true
    · simp only [hlink, if_true, hrelation]
      exact .inl (.inl rfl)
    by_cases hreference : field.reference = true
    · simp only [hlink, hreference, if_true, Bool.false_eq_true, if_false, hleaf]
      exact .inl (.inl rfl)
    right
    simp only [hlink, hreference, Bool.false_eq_true, if_false, hembedded]
    have hlt := Model.target_lt hresolve htype hfield hobject
    have htarget : model.type? target = some model.types[target] := List.getElem?_eq_getElem hlt
    refine ⟨target, _, ⟨hobject, by simpa using hlink, by simpa using hreference⟩,
      Model.createInput?_eq_some_iff.2 ⟨_, htarget, rfl⟩, ?_⟩
    rw [htarget]
    rfl

theorem CreateInput.embeds_of_field {id target : TypeId} {type : ObjectType} {field : Field}
    (htype : model.type? id = some type) (hfield : field ∈ type.fields)
    (hsystem : field.system = false) (hembeds : field.Embeds target) : model.Embeds id target := by
  refine ⟨ofType model type, Model.createInput?_eq_some_iff.2 ⟨type, htype, rfl⟩, ?_⟩
  have hmem : inputField model field ∈ (ofType model type).fields :=
    mem_fields_ofType.2 ⟨field, hfield, hsystem, rfl⟩
  rcases kind_cases model field with ⟨hplain, -⟩ | ⟨hrelates, -⟩ | ⟨found, name, hfound, hkind⟩
  · exact absurd hplain hembeds.not_plain
  · exact absurd hrelates hembeds.not_relates
  · refine ⟨⟨name, found⟩, mem_nested.2 ⟨_, hmem, ?_⟩, hembeds.unique hfound⟩
    split_ifs at hkind
    · exact .inr hkind
    · exact .inl hkind

namespace Model

/-- The reachable inputs are those that the recursive traversal gives, in the same order: the ones
nested at any depth, each once. Their schema text declares just these, in this order and no name
twice, and every type that a field has in it is a scalar, an enum of the model or one of the inputs
declared. -/
theorem reachableInputs_in_preorder (hresolve : Model.resolve decl = .ok model) {id : TypeId}
    (hlt : id < model.types.length) :
    (∃ order, (∀ other, Traversal model [] [id] other ↔ other = order) ∧
        (model.reachableInputs id).map some = order.map model.createInput?) ∧
      (∀ input, input ∈ model.reachableInputs id ↔ ∃ target,
        Relation.ReflTransGen model.Embeds id target ∧ model.createInput? target = some input) ∧
      (model.reachableInputs id).Nodup ∧
      (model.createInputDocument id).definitions =
        (model.reachableInputs id).map (fun input => .input input.toTypeDef) ∧
      ((model.createInputDocument id).definitions.map (·.name)).Nodup ∧
      ∀ definition ∈ (model.createInputDocument id).definitions, ∃ type,
        definition = .input type ∧ ∀ field ∈ type.fields,
          isBuiltinScalar field.type.innermost ∨ field.type.innermost ∈ decl.enums ∨
            ∃ other ∈ (model.createInputDocument id).definitions,
              other.name = field.type.innermost := by
  have hnone : Reachable.Marks model [] [] := fun _ _ _ => by simp
  obtain ⟨order, htraversal, hvisit⟩ :=
    Reachable.exists_traversal hresolve [] [id] [] hnone (by simpa using hlt)
  have hmem : ∀ input, input ∈ model.reachableInputs id ↔ ∃ target,
      Relation.ReflTransGen model.Embeds id target ∧ model.createInput? target = some input := by
    intro input
    have hsome : input ∈ model.reachableInputs id ↔
        some input ∈ (model.reachableInputs id).map some := by simp
    rw [hsome, reachableInputs, hvisit, List.mem_map]
    exact exists_congr fun target => and_congr_left' htraversal.mem_iff
  have hinputs : (model.reachableInputs id).Nodup := by
    refine .of_map some ?_
    rw [reachableInputs, hvisit]
    refine htraversal.nodup.1.map_on fun a ha b hb hsame => ?_
    have hfound : model.createInput? a ∈ (Reachable.visit model [] [id]).map some := by
      rw [hvisit]
      exact List.mem_map_of_mem ha
    obtain ⟨input, -, hinput⟩ := List.mem_map.1 hfound
    exact eq_of_inputName hresolve hinput.symm (hinput.trans hsame).symm rfl
  have hnames : ((model.reachableInputs id).map (·.name)).Nodup := by
    refine hinputs.map_on fun a ha b hb hsame => ?_
    obtain ⟨_, -, hfirst⟩ := (hmem a).1 ha
    obtain ⟨_, -, hsecond⟩ := (hmem b).1 hb
    obtain rfl := eq_of_inputName hresolve hfirst hsecond hsame
    exact Option.some.inj (hfirst.symm.trans hsecond)
  refine ⟨⟨order, fun other => ⟨htraversal.unique, fun h => h ▸ htraversal⟩, hvisit⟩, hmem,
    hinputs, rfl, ?_, ?_⟩
  · rw [createInputDocument, List.map_map]
    exact hnames
  · intro definition hdefinition
    obtain ⟨input, hinput, rfl⟩ := List.mem_map.1 hdefinition
    refine ⟨input.toTypeDef, rfl, fun field hfield => ?_⟩
    obtain ⟨target, hreach, hinput'⟩ := (hmem input).1 hinput
    obtain ⟨type, htype, rfl⟩ := createInput?_eq_some_iff.1 hinput'
    obtain ⟨inputField, hinputField, rfl⟩ := List.mem_map.1 hfield
    obtain ⟨source, hsource, hsystem, rfl⟩ := CreateInput.mem_fields_ofType.1 hinputField
    rcases CreateInput.innermost_inputField hresolve htype hsource hsystem with
      (hscalar | henum) | ⟨inner, other, hembeds, hother, hname⟩
    · exact .inl hscalar
    · exact .inr (.inl henum)
    · have hnested := CreateInput.embeds_of_field htype hsource hsystem hembeds
      have hreached := (hmem other).2 ⟨inner, hreach.tail hnested, hother⟩
      exact .inr (.inr ⟨.input other.toTypeDef, List.mem_map_of_mem hreached, hname⟩)

/-- Items have parts, which are items too. The walk comes to the place of an item before the label
of the order, and does not come back to it from there. The schema text declares the four inputs in
this order. -/
theorem reachableInputs_of_orders :
    let decl : ModelDecl :=
      { types :=
        [{ name := "Order", kind := .rootEntity,
           fields := [{ name := "items", typeName := "Item", list := true },
             { name := "label", typeName := "Label" }] },
         { name := "Item", kind := .childEntity,
           fields := [{ name := "parts", typeName := "Item", list := true },
             { name := "place", typeName := "Place" }] },
         { name := "Label", kind := .valueObject,
           fields := [{ name := "color", typeName := "Color" },
             { name := "place", typeName := "Place" }] },
         { name := "Place", kind := .valueObject }]
        enums := ["Color"] }
    ∃ model, Model.resolve decl = .ok model ∧ 0 < model.types.length ∧
      (model.reachableInputs 0).map some = [0, 1, 3, 2].map model.createInput? ∧
      (model.createInputDocument 0).definitions.map (·.name) =
        ["CreateOrderInput", "CreateItemInput", "CreatePlaceInput", "CreateLabelInput"] ∧
      ∀ definition ∈ (model.createInputDocument 0).definitions, ∃ type,
        definition = .input type ∧ ∀ field ∈ type.fields,
          isBuiltinScalar field.type.innermost ∨ field.type.innermost ∈ decl.enums ∨
            ∃ other ∈ (model.createInputDocument 0).definitions,
              other.name = field.type.innermost := by
  intro decl
  obtain ⟨model, hresolve, hlt, ⟨order, horder, hinOrder, horderName⟩,
      ⟨item, hitem, hinItem, hitemName⟩, ⟨label, hlabel, hinLabel, hlabelName⟩,
      ⟨place, hplace, hinPlace, hplaceName⟩⟩ :
      ∃ model, Model.resolve decl = .ok model ∧ 0 < model.types.length ∧
        (∃ input, model.createInput? 0 = some input ∧ input.nested.map (·.target) = [1, 2] ∧
          input.name = "CreateOrderInput") ∧
        (∃ input, model.createInput? 1 = some input ∧ input.nested.map (·.target) = [1, 3] ∧
          input.name = "CreateItemInput") ∧
        (∃ input, model.createInput? 2 = some input ∧ input.nested.map (·.target) = [3] ∧
          input.name = "CreateLabelInput") ∧
        ∃ input, model.createInput? 3 = some input ∧ input.nested.map (·.target) = [] ∧
          input.name = "CreatePlaceInput" :=
    ⟨_, rfl, by decide, ⟨_, rfl, rfl, rfl⟩, ⟨_, rfl, rfl, rfl⟩, ⟨_, rfl, rfl, rfl⟩, _, rfl, rfl,
      rfl⟩
  have hbelowItem : Traversal model [0, 1] [1, 3] (3 :: ([] ++ [])) :=
    .again (by decide) (.enter (by decide) hplace (by rw [hinPlace]; exact .done) .done)
  have hbehindItem : Traversal model [0, 1, 3] [2] (2 :: ([] ++ [])) :=
    .enter (by decide) hlabel (by rw [hinLabel]; exact .again (by decide) .done) .done
  have hbelowOrder : Traversal model [0] [1, 2] (1 :: ([3] ++ [2])) :=
    .enter (by decide) hitem (by rwa [hinItem]) hbehindItem
  have htraversal : Traversal model [] [0] (0 :: ([1, 3, 2] ++ [])) :=
    .enter (by decide) horder (by rwa [hinOrder]) .done
  obtain ⟨⟨_, hunique, hinputs⟩, -, -, hdeclared, -, hclosed⟩ :=
    reachableInputs_in_preorder hresolve hlt
  obtain rfl := (hunique _).1 htraversal
  have hreached : model.reachableInputs 0 = [order, item, place, label] := by
    apply List.map_injective_iff.2 fun _ _ => Option.some.inj
    rw [hinputs]
    simp [horder, hitem, hplace, hlabel]
  refine ⟨model, hresolve, hlt, hinputs, ?_, hclosed⟩
  rw [hdeclared, hreached, ← horderName, ← hitemName, ← hplaceName, ← hlabelName]
  rfl

end Model

end EntitySchema
