import EntitySchema.Proofs.CreateInput.Generation
import EntitySchema.Proofs.CreateInput.ReachableInputs
import EntitySchema.Proofs.CreateInput.WalkOrder
import EntitySchema.CreateInput.Relations
import EntitySchema.Proofs.Model.Arrangement
import EntitySchema.Proofs.Search.Planning

/-! # The positions that are handed out

Create inputs, the walks through payloads and the required views tell callers the positions of types
and fields, and callers look them up in the model. A position that is handed out was read from the
model, so there is a type or a field at it. -/
namespace EntitySchema

inductive Handle where
  | type (id : TypeId)
  | field (id : FieldId)
  deriving DecidableEq, Repr

def Model.Has (model : Model) : Handle → Prop
  | .type id => ∃ type, model.type? id = some type
  | .field id => ∃ field, model.field? id = some field

/-- A Create input that a caller can come by: that of a type, one that is reachable from it, or one
that a generator has built, which references lead to from one of its answers. -/
inductive Obtained (model : Model) : CreateInput → Prop
  | described {id : TypeId} {input : CreateInput} (h : model.createInput? id = some input) :
      Obtained model input
  | reached {id : TypeId} {input : CreateInput} (h : input ∈ model.reachableInputs id) :
      Obtained model input
  | built {requests : List Request} {places : List Nat} {generator : InputGenerator}
      {place inner : Nat} {path : List String} {input : CreateInput}
      (hanswers : ({ model } : InputGenerator).answerAll requests = some (places, generator))
      (hplace : place ∈ places) (hpath : generator.along? place path = some inner)
      (hread : generator.read? inner = some input) : Obtained model input

inductive HandsOut (model : Model) : Handle → Prop
  | inputType {input : CreateInput} (h : Obtained model input) :
      HandsOut model (.type input.objectType)
  | inputField {input : CreateInput} {field : InputField} (h : Obtained model input)
      (hfield : field ∈ input.fields) : HandsOut model (.field field.field)
  | nestedType {input : CreateInput} {nested : NestedInput} (h : Obtained model input)
      (hnested : nested ∈ input.nested) : HandsOut model (.type nested.target)
  | affected {id : TypeId} {payload : Json.Object} {fields : List FieldId} {f : FieldId}
      (h : model.affectedFields id payload = .ok fields) (hf : f ∈ fields) :
      HandsOut model (.field f)
  | collected {set : List FieldId} {id : TypeId} {payload : Json.Object} {f : FieldId}
      (hf : f ∈ (model.collectAffectedFields set id payload).1) (hnew : f ∉ set) :
      HandsOut model (.field f)
  | addition {input : CreateInput} {payload : Json.Object} {additions : List RelationAddition}
      {addition : RelationAddition} (h : Obtained model input)
      (hadditions : input.relationAdditions payload = .ok additions)
      (hmem : addition ∈ additions) : HandsOut model (.field addition.field)
  | view {view : Search.RequiredView} (h : view ∈ Search.requiredViews model) :
      HandsOut model (.type view.rootEntity)

variable {decl : ModelDecl} {model : Model}

/-! ### Answers of a generator -/

theorem Build.type?_of_input {available : List (TypeId × Nat)} {depth place : Nat} {id : TypeId}
    {build build' : Build} (h : input model available depth id build = some (place, build')) :
    ∃ type, model.type? id = some type := by
  cases depth with
  | zero => cases h
  | succ depth =>
    simp only [input, Option.bind_eq_bind, Option.bind_eq_some_iff] at h
    obtain ⟨type, htype, -⟩ := h
    exact ⟨type, htype⟩

namespace InputGenerator

variable {generator generator' : InputGenerator}

/-- Only requests for existing types are answered. -/
theorem exists_type?_of_answer (hsound : Sound model generator) {request : Request} {place : Nat}
    (h : generator.answer request = some (place, generator')) :
    ∃ id, request.type? model = some id := by
  cases request with
  | byPosition id =>
    suffices ∃ type, model.type? id = some type by
      obtain ⟨type, htype⟩ := this
      exact ⟨id, by rw [Request.type?, htype, Option.map_some]⟩
    simp only [answer, generate] at h
    split at h
    · rename_i found havailable
      obtain ⟨type, -, htype, -⟩ := hsound.exists_stored havailable
      exact ⟨type, htype⟩
    · simp only [Option.bind_eq_bind, Option.bind_eq_some_iff] at h
      obtain ⟨⟨root, build⟩, hbuild, -⟩ := h
      rw [hsound.model_eq] at hbuild
      exact Build.type?_of_input hbuild
  | byName typeName =>
    simp only [answer, generateByName, typeOf?, hsound.model_eq] at h
    cases hfind : model.find? typeName with
    | none => simp [hfind, Except.map, Except.toOption] at h
    | some type => exact ⟨type.id, by rw [Request.type?, hfind, Option.map_some]⟩

theorem exists_type?_of_answerAll (hresolve : Model.resolve decl = .ok model)
    (hsound : Sound model generator) {requests : List Request} {places : List Nat}
    (h : generator.answerAll requests = some (places, generator')) :
    ∀ request ∈ requests, (request.type? model).isSome := by
  induction requests generalizing generator places with
  | nil => simp
  | cons request rest ih =>
    simp only [answerAll, Option.bind_eq_bind, Option.bind_eq_some_iff] at h
    obtain ⟨⟨place, next⟩, hanswer, ⟨others, last⟩, hrest, hdone⟩ := h
    cases hdone
    obtain ⟨id, hid⟩ := exists_type?_of_answer hsound hanswer
    -- The generator that answers the rest is again one of which `Sound` is known.
    obtain ⟨_, _, hgenerate, hsound', -⟩ :=
      generate_completes hresolve hsound (Request.lt_of_type? hresolve hid)
    rw [answer_eq hsound.model_eq hid, hgenerate] at hanswer
    cases hanswer
    intro other hother
    rcases List.mem_cons.1 hother with rfl | hmem
    · rw [hid, Option.isSome_some]
    · exact ih hsound' hrest other hmem

end InputGenerator

/-! ### Create inputs -/

theorem Reachable.exists_id_of_mem_visit {marked : List String} {stack : List TypeId}
    {input : CreateInput} (h : input ∈ visit model marked stack) :
    ∃ id, model.createInput? id = some input := by
  induction marked, stack using visit.induct model with
  | case1 marked => simp [visit] at h
  | case2 marked id stack hnone ih =>
    rw [visit] at h
    split at h
    · exact ih h
    · rename_i found hfound
      rw [hnone] at hfound
      cases hfound
  | case3 marked id stack found hfound hmarked ih =>
    rw [visit_of_marked hfound hmarked] at h
    exact ih h
  | case4 marked id stack found hfound hnew ih =>
    rw [visit_of_new hfound hnew] at h
    rcases List.mem_cons.1 h with rfl | hrest
    · exact ⟨id, hfound⟩
    · exact ih hrest

/-- However a caller comes by it, it is the input that the model describes for a type. -/
theorem Obtained.exists_id (hresolve : Model.resolve decl = .ok model) {input : CreateInput}
    (h : Obtained model input) : ∃ id, model.createInput? id = some input := by
  cases h with
  | described h => exact ⟨_, h⟩
  | reached h => exact Reachable.exists_id_of_mem_visit h
  | @built requests places generator place inner path _ hanswers hplace hpath hread =>
    have hnew := InputGenerator.sound_new model
    obtain ⟨_, _, hanswers', hsound, hplaces, -⟩ := InputGenerator.answerAll_completes hresolve hnew
      (InputGenerator.exists_type?_of_answerAll hresolve hnew hanswers)
    rw [hanswers] at hanswers'
    cases hanswers'
    obtain ⟨_, -, id, -, havailable⟩ := Results.exists_of_mem_right hplaces hplace
    rcases InputGenerator.along?_of_available hsound path havailable with
      ⟨-, hnone⟩ | ⟨type, inner', -, hinner, havailable'⟩
    · rw [hpath] at hnone
      cases hnone
    · rw [hpath] at hinner
      cases hinner
      obtain ⟨found, hfound, hread'⟩ :=
        InputGenerator.read?_of_available hresolve hsound havailable'
      rw [hread] at hread'
      cases hread'
      exact ⟨type, hfound⟩

namespace Model

variable {id : TypeId} {input : CreateInput}

theorem has_objectType (hresolve : Model.resolve decl = .ok model)
    (h : model.createInput? id = some input) : model.Has (.type input.objectType) := by
  obtain ⟨type, htype, rfl⟩ := createInput?_eq_some_iff.1 h
  obtain ⟨_, -, hresolved⟩ := resolved_type hresolve htype
  have hid : (CreateInput.ofType model type).objectType = id := hresolved.id_eq
  exact ⟨type, by rw [hid, htype]⟩

theorem has_inputField (hresolve : Model.resolve decl = .ok model)
    (h : model.createInput? id = some input) {field : InputField} (hfield : field ∈ input.fields) :
    model.Has (.field field.field) := by
  obtain ⟨type, htype, rfl⟩ := createInput?_eq_some_iff.1 h
  obtain ⟨source, hsource, -, rfl⟩ := CreateInput.mem_fields_ofType.1 hfield
  exact ⟨source, field?_of_mem hresolve htype hsource⟩

theorem has_nestedType (hresolve : Model.resolve decl = .ok model)
    (h : model.createInput? id = some input) {nested : NestedInput}
    (hnested : nested ∈ input.nested) : model.Has (.type nested.target) :=
  ⟨_, List.getElem?_eq_getElem (target_lt_of_nested hresolve h (List.mem_map_of_mem hnested))⟩

end Model

/-! ### Payloads -/

theorem Affected.has_of_touched (hresolve : Model.resolve decl = .ok model) {id : TypeId}
    {payload : Json.Object} {fields : List FieldId} (h : touched model id payload = .ok fields)
    {f : FieldId} (hf : f ∈ fields) : model.Has (.field f) := by
  have htour := tours hresolve (sizeOf payload + 1) id payload fields (Nat.lt_succ_self _) h
  have hmet : ∃ place, Touches model id payload place f :=
    (htour.foldl_addNew.1 f).1 (mem_foldl_addNew.2 (.inr hf))
  obtain ⟨field, hfield, -⟩ := (exists_touches_iff hresolve).1 hmet
  exact ⟨field, hfield⟩

/-- An addition is for a field of the input. -/
theorem CreateInput.exists_field_of_addition {input : CreateInput} {payload : Json.Object}
    {additions : List RelationAddition} (h : input.relationAdditions payload = .ok additions)
    {addition : RelationAddition} (hmem : addition ∈ additions) :
    ∃ field ∈ input.fields, field.field = addition.field := by
  obtain ⟨all, hall, hkept⟩ := Results.bind_eq_ok_iff.1 h
  cases hkept
  obtain ⟨field, hfield, hgiven⟩ := Results.exists_of_mem_right
    (Results.mapM_eq_ok_iff.1 hall) (List.mem_filter.1 hmem).1
  refine ⟨field, hfield, ?_⟩
  split at hgiven
  · obtain ⟨ids, -, rfl⟩ := Results.map_eq_ok_iff.1 hgiven
    rfl
  · cases hgiven
    rfl

/-! ### All positions -/

theorem Model.has_of_handsOut (hresolve : Model.resolve decl = .ok model) {handle : Handle}
    (h : HandsOut model handle) : model.Has handle := by
  cases h with
  | inputType h =>
    obtain ⟨id, hinput⟩ := h.exists_id hresolve
    exact has_objectType hresolve hinput
  | inputField h hfield =>
    obtain ⟨id, hinput⟩ := h.exists_id hresolve
    exact has_inputField hresolve hinput hfield
  | nestedType h hnested =>
    obtain ⟨id, hinput⟩ := h.exists_id hresolve
    exact has_nestedType hresolve hinput hnested
  | affected h hf =>
    obtain ⟨fields, hfields, rfl⟩ := Results.map_eq_ok_iff.1 h
    obtain hnone | hmem := Affected.mem_foldl_addNew.1 hf
    · cases hnone
    · exact Affected.has_of_touched hresolve hfields hmem
  | collected hf hnew =>
    rw [collectAffectedFields] at hf
    split at hf
    · rename_i fields hfields
      obtain hold | hmem := Affected.mem_foldl_addNew.1 hf
      · exact absurd hold hnew
      · exact Affected.has_of_touched hresolve hfields hmem
    · exact absurd hf hnew
  | addition h hadditions hmem =>
    obtain ⟨id, hinput⟩ := h.exists_id hresolve
    obtain ⟨field, hfield, heq⟩ := CreateInput.exists_field_of_addition hadditions hmem
    rw [← heq]
    exact has_inputField hresolve hinput hfield
  | view h =>
    obtain ⟨type, htype, hview⟩ := List.mem_filterMap.1 h
    obtain ⟨root, -, -, rfl⟩ := Search.requiredView?_eq_some_iff.1 hview
    exact ⟨type, type?_id_of_mem hresolve (List.mem_filter.1 htype).1⟩

/-- The model of a declaration is arranged as declared, and no position that its Create inputs, the
fields and relations of payloads or its required views hand out is out of bounds. -/
theorem Model.arranged_and_handles_in_bounds (hresolve : Model.resolve decl = .ok model) :
    model.Arranged decl ∧ ∀ handle, HandsOut model handle → model.Has handle :=
  ⟨arranged_of_resolve hresolve, fun _ => has_of_handsOut hresolve⟩

/-- An order names items and a customer that are declared behind it, and items have parts that are
items. The payload for an order with a part of an item writes that part's text. -/
theorem handles_of_orders :
    let items : FieldDecl := { name := "items", typeName := "Item", list := true }
    let customer : FieldDecl := { name := "customer", typeName := "Customer", relation := true }
    let parts : FieldDecl := { name := "parts", typeName := "Item", list := true }
    let text : FieldDecl := { name := "text", typeName := "String" }
    let decl : ModelDecl :=
      { types :=
        [{ name := "Order", kind := .rootEntity, fields := [items, customer],
           searchIndexed := true },
         { name := "Item", kind := .childEntity, fields := [parts, text] },
         { name := "Customer", kind := .rootEntity }] }
    ∃ model, Model.resolve decl = .ok model ∧
      (∃ item, model.find? "Item" = some item ∧
        item.fields.map (·.name) = ["id", "createdAt", "updatedAt", "parts", "text"]) ∧
      model.fieldPath? ⟨0, 4⟩ = some "Order.customer" ∧
      (HandsOut model (.type 0) ∧ model.Has (.type 0)) ∧
      (HandsOut model (.type 1) ∧ model.Has (.type 1)) ∧
      (HandsOut model (.field ⟨0, 4⟩) ∧ model.Has (.field ⟨0, 4⟩)) ∧
      HandsOut model (.field ⟨1, 4⟩) ∧ model.Has (.field ⟨1, 4⟩) := by
  intro items customer parts text decl
  let part : Json := .object [("text", .string "bolt")]
  let order : Json.Object :=
    [("items", .array [.object [("parts", .array [part])]]), ("customer", .string "c1")]
  let listOfItems (id : FieldId) (name : String) : InputField :=
    ⟨name, id, none, .listOf (Names.createInput "Item"), .objectList ⟨Names.createInput "Item", 1⟩⟩
  let customerKey : InputField :=
    ⟨"customer", ⟨0, 4⟩, none, .optional "ID", .relation false⟩
  let textField : InputField := ⟨"text", ⟨1, 4⟩, none, .optional "String", .basic⟩
  obtain ⟨model, hresolve, ⟨item, hitem, hname, hnames⟩,
      ⟨order', horder, horderName, customer', hcustomer, hcustomerName⟩, ⟨view, hview, hroot⟩,
      ⟨input, hinput, hfields, addition, hadditions, hadded⟩, ⟨inner, hinner, hinnerFields⟩,
      generator, hanswers, hparts, built, hbuilt, htype⟩ :
      ∃ model, Model.resolve decl = .ok model ∧
        (∃ item, model.types[1]? = some item ∧ item.name = "Item" ∧
          item.fields.map (·.name) = ["id", "createdAt", "updatedAt", "parts", "text"]) ∧
        (∃ order, model.types[0]? = some order ∧ order.name = "Order" ∧
          ∃ field, order.fields[4]? = some field ∧ field.name = "customer") ∧
        (∃ view, view ∈ Search.requiredViews model ∧ view.rootEntity = 0) ∧
        (∃ input, model.createInput? 0 = some input ∧
          input.fields = [listOfItems ⟨0, 3⟩ "items", customerKey] ∧ ∃ addition,
          input.relationAdditions order = .ok [addition] ∧ addition.field = ⟨0, 4⟩) ∧
        (∃ inner, model.createInput? 1 = some inner ∧
          inner.fields = [listOfItems ⟨1, 3⟩ "parts", textField]) ∧
        ∃ generator, ({ model } : InputGenerator).answerAll [.byName "Order"] =
          some ([1], generator) ∧ generator.along? 1 ["items", "parts"] = some 0 ∧
        ∃ built, generator.read? 0 = some built ∧ built.objectType = 1 :=
    ⟨_, rfl, ⟨_, rfl, rfl, rfl⟩, ⟨_, rfl, rfl, _, rfl, rfl⟩, ⟨_, .head _, rfl⟩,
      ⟨_, rfl, rfl, _, rfl, rfl⟩, ⟨_, rfl, rfl⟩, _, rfl, rfl, _, rfl, rfl⟩
  have haffected : model.affectedFields 0 order = .ok [⟨0, 3⟩, ⟨1, 3⟩, ⟨1, 4⟩, ⟨0, 4⟩] := by
    simp only [Model.affectedFields, Affected.touched, hinput, hfields, hinner, hinnerFields,
      Affected.touchedFields_cons, Affected.touchedFields_nil, Affected.touchedValue,
      Affected.touchedItems, Entries.get?_cons, Entries.get?_nil, String.reduceEq, reduceIte, order,
      part, listOfItems, customerKey, textField]
    rfl
  have hofView : HandsOut model (.type 0) := hroot ▸ .view hview
  have hofParts : HandsOut model (.type 1) :=
    htype ▸ .inputType (.built hanswers List.mem_cons_self hparts hbuilt)
  have hofCustomer : HandsOut model (.field ⟨0, 4⟩) :=
    hadded ▸ .addition (.described hinput) hadditions List.mem_cons_self
  have hofText : HandsOut model (.field ⟨1, 4⟩) := .affected haffected (by decide)
  obtain ⟨harranged, hbounds⟩ := Model.arranged_and_handles_in_bounds hresolve
  obtain ⟨-, -, hpath⟩ := harranged.placed 0 4 order' customer' horder hcustomer
  rw [horderName, hcustomerName] at hpath
  refine ⟨model, hresolve, ⟨item, ?_, hnames⟩, hpath, ⟨hofView, hbounds _ hofView⟩,
    ⟨hofParts, hbounds _ hofParts⟩, ⟨hofCustomer, hbounds _ hofCustomer⟩, hofText,
    hbounds _ hofText⟩
  exact (harranged.named "Item" item).2 ⟨List.mem_of_getElem? hitem, hname⟩

end EntitySchema
