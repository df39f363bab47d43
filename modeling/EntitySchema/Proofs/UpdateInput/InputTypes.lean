import EntitySchema.Proofs.UpdateInput.Faults

/-! # The types of the fields of Update inputs

An object type cannot be the type of an input field. Other types stand in for it, but an input field
is of an object type all the same where an operator applies to an object, and where a document calls
an object type like one of the types that stand in. -/
namespace EntitySchema

open Sdl

namespace UpdateInput

variable {document : Document} {field : FieldDef} {target : TypeDef}

/-- The first definition of a name is an object type. -/
def IsObject (document : Document) (name : String) : Prop :=
  ∃ type, document.definition? name = some (.object type)

instance (document : Document) (name : String) : Decidable (IsObject document name) :=
  match hfound : document.definition? name with
  | some (.object type) => isTrue ⟨type, hfound⟩
  | some (.input _) | some (.enumeration ..) | some (.scalar ..) | none =>
    isFalse fun ⟨_, h⟩ => by
      rw [hfound] at h
      cases h

def standIn (field : FieldDef) (target : TypeDef) : String :=
  if Directive.present field.directives Directive.relation then "ID"
  else if Directive.present field.directives Directive.reference then "String"
  else if target.isChildEntity || target.isEntityExtension then Names.updateInput target.name
  else Names.createInput target.name

/-- The types that stand in for an object type where a field holds a list, one for each input
field. -/
def itemStandIns (field : FieldDef) (target : TypeDef) : List String :=
  if Directive.present field.directives Directive.relation then ["ID", "ID"]
  else if target.isChildEntity then
    [Names.createInput target.name, Names.updateInput target.name, "ID"]
  else [Names.updateInput target.name]

def standIns (field : FieldDef) (target : TypeDef) : List String :=
  if field.type.isList then itemStandIns field target else [standIn field target]

inductive Mistyped (document : Document) (field : FieldDef) : Prop
  | calculated (hsingle : field.type.isList = false)
      (hobject : IsObject document field.type.innermost) (hoperators : operatorValues field ≠ [])
  | taken {target : TypeDef} {name : String}
      (hfound : document.definition? field.type.innermost = some (.object target))
      (hname : name ∈ standIns field target) (htaken : IsObject document name)

/-! ### One field -/

theorem innermost_of_leaf {inputs : List FieldDef} (h : fieldInputs document field = .ok inputs)
    (hleaf : resolve document field.type.innermost = .ok .leaf) :
    ∀ input ∈ inputs, input.type.innermost = field.type.innermost := by
  intro input hinput
  rcases inputs_of_fieldInputs h with ⟨-, hvalue⟩ | ⟨-, hlist⟩
  · obtain ⟨target, htarget, typeName, hname, listed, -, rfl⟩ := valueInputs_eq_ok_iff.1 hvalue
    cases hleaf.symm.trans htarget
    cases hname
    rcases List.mem_cons.1 hinput with rfl | hcalculated
    · rfl
    · obtain ⟨operator, -, rfl⟩ := List.mem_map.1 hcalculated
      rfl
  · obtain ⟨target, htarget, hmade⟩ := Results.bind_eq_ok_iff.1 hlist
    cases hleaf.symm.trans htarget
    cases hmade
    rw [List.mem_singleton.1 hinput]
    rfl

theorem standIn_of_valueTypeName {name typeName : String}
    (h : valueTypeName field name (.object target) = .ok typeName) :
    typeName = standIn field target := by
  rw [valueTypeName] at h
  rw [standIn]
  split_ifs at h ⊢ <;> cases h <;> rfl

/-- The types of the input fields of an object type, in their order. -/
theorem types_of_fieldInputs {inputs : List FieldDef}
    (h : fieldInputs document field = .ok inputs)
    (hfound : document.definition? field.type.innermost = some (.object target)) :
    inputs.map (·.type) =
      if field.type.isList then (standIns field target).map .listOf
      else (standIns field target).map .optional ++
        (operatorValues field).map fun _ => .optional field.type.innermost := by
  have hresolve := resolve_eq_object_iff.2 hfound
  rcases inputs_of_fieldInputs h with ⟨hsingle, hvalue⟩ | ⟨hlist, hitems⟩
  · obtain ⟨_, htarget, typeName, hname, listed, hlisted, rfl⟩ := valueInputs_eq_ok_iff.1 hvalue
    cases hresolve.symm.trans htarget
    have hcalculated : (listed.map (calcInput field field.type.innermost)).map (·.type) =
        (operatorValues field).map fun _ => .optional field.type.innermost := by
      rw [List.map_map]
      exact Results.map_eq_map_of_forall₂ (Results.mapM_eq_ok_iff.1 hlisted) fun _ _ _ => rfl
    rw [List.map_cons, hcalculated, standIn_of_valueTypeName hname, standIns, hsingle]
    rfl
  · obtain ⟨_, htarget, hmade⟩ := Results.bind_eq_ok_iff.1 hitems
    cases hresolve.symm.trans htarget
    dsimp only at hmade
    rw [if_pos hlist, standIns, if_pos hlist, itemStandIns]
    split_ifs at hmade ⊢ <;> cases hmade <;> rfl

theorem mistyped_iff
    (hfound : document.definition? field.type.innermost = some (.object target)) :
    Mistyped document field ↔ (∃ name ∈ standIns field target, IsObject document name) ∨
      field.type.isList = false ∧ operatorValues field ≠ [] := by
  constructor
  · intro h
    cases h with
    | calculated hsingle _ hoperators => exact .inr ⟨hsingle, hoperators⟩
    | taken hfound' hname htaken =>
      cases hfound.symm.trans hfound'
      exact .inl ⟨_, hname, htaken⟩
  · rintro (⟨name, hname, htaken⟩ | ⟨hsingle, hoperators⟩)
    · exact .taken hfound hname htaken
    · exact .calculated hsingle ⟨target, hfound⟩ hoperators

theorem exists_object_iff {inputs : List FieldDef}
    (h : fieldInputs document field = .ok inputs) :
    (∃ input ∈ inputs, IsObject document input.type.innermost) ↔ Mistyped document field := by
  obtain ⟨resolved, hresolve⟩ := exists_resolve_of_fieldInputs h
  cases resolved with
  | leaf =>
    have hleaf : ¬ IsObject document field.type.innermost := by
      rintro ⟨type, hfound⟩
      rw [resolve_eq_object_iff.2 hfound] at hresolve
      cases hresolve
    constructor
    · rintro ⟨input, hinput, hobject⟩
      rw [innermost_of_leaf h hresolve input hinput] at hobject
      exact absurd hobject hleaf
    · intro hmistyped
      cases hmistyped with
      | calculated _ hobject => exact absurd hobject hleaf
      | taken hfound => exact absurd ⟨_, hfound⟩ hleaf
  | object target =>
    have hfound := resolve_eq_object_iff.1 hresolve
    have htypes : (∃ input ∈ inputs, IsObject document input.type.innermost) ↔
        ∃ type ∈ inputs.map (·.type), IsObject document type.innermost := by
      simp only [List.mem_map, exists_exists_and_eq_and]
    rw [htypes, types_of_fieldInputs h hfound, mistyped_iff hfound]
    have hcalculated : (∃ type ∈ (operatorValues field).map fun _ =>
        TypeExpr.optional field.type.innermost, IsObject document type.innermost) ↔
        operatorValues field ≠ [] := by
      constructor
      · rintro ⟨type, htype, -⟩ hnil
        rw [hnil] at htype
        cases htype
      · intro hne
        obtain ⟨value, hvalue⟩ := List.exists_mem_of_ne_nil _ hne
        exact ⟨_, List.mem_map_of_mem hvalue, target, hfound⟩
    cases hlist : field.type.isList with
    | true => simp [TypeExpr.listOf, TypeExpr.innermost]
    | false =>
      simp only [Bool.false_eq_true, if_false, List.mem_append, or_and_right, exists_or,
        hcalculated, true_and]
      simp [TypeExpr.optional, TypeExpr.innermost]

variable {inputs : List TypeDef}

/-- Update inputs refer to types that an input can have exactly if no changeable field of an entity
gives rise to an object type, and the identifier has none. -/
theorem types_of_synthesize_iff (h : synthesize document = .ok inputs) :
    (∀ input ∈ inputs, ∀ field ∈ input.fields, ¬ IsObject document field.type.innermost) ↔
      ∀ type ∈ document.rootEntities ++ document.childEntities,
        ¬ IsObject document "ID" ∧ ∀ field ∈ changeable type, ¬ Mistyped document field := by
  constructor
  · intro hall type htype
    have hfree : ∀ field, (∃ input ∈ inputs, field ∈ input.fields) →
        ¬ IsObject document field.type.innermost :=
      fun field ⟨input, hinput, hfield⟩ => hall input hinput field hfield
    refine ⟨hfree idInput ((mem_fields_iff h).2 ⟨type, htype, .inl rfl⟩), ?_⟩
    intro field hfield hmistyped
    have hblock := fieldInputs_of_synthesize h htype hfield
    obtain ⟨input, hinput, hobject⟩ := (exists_object_iff hblock).2 hmistyped
    exact hfree input ((mem_fields_iff h).2 ⟨type, htype, .inr ⟨field, hfield, hinput⟩⟩) hobject
  · intro hall input hinput field hfield hobject
    obtain ⟨type, htype, rfl | ⟨source, hsource, hblock⟩⟩ :=
      (mem_fields_iff h).1 ⟨input, hinput, hfield⟩
    · exact (hall type htype).1 hobject
    · have hmade := fieldInputs_of_synthesize h htype hsource
      have hmistyped := (exists_object_iff hmade).1 ⟨field, hblock, hobject⟩
      exact (hall type htype).2 source hsource hmistyped

/-- An order with a total to add to and with items, all of types that an input can have. -/
theorem types_of_order_and_items :
    let total : FieldDef :=
      { name := "total", type := .named "Int" true
        directives :=
        [{ name := "calcMutations", arguments := [("operators", .list [.enumeration "ADD"])] }] }
    let order : TypeDef :=
      { name := "Order", directives := [{ name := "rootEntity" }]
        fields := [total, { name := "items", type := .listOf "Item" }] }
    let document : Document :=
      { definitions :=
        [.object order, .object { name := "Item", directives := [{ name := "childEntity" }] }] }
    ∃ inputs, synthesize document = .ok inputs ∧
      inputs.map (·.fields.map (·.type.text)) =
        [["ID!", "Int", "Int", "[CreateItemInput!]", "[UpdateItemInput!]", "[ID!]"],
          ["Int", "Int", "[CreateItemInput!]", "[UpdateItemInput!]", "[ID!]"], ["ID!"]] ∧
      ¬ IsObject document "ID" ∧ ¬ Mistyped document total := by
  intro total order document
  obtain ⟨inputs, hinputs, htexts, htyped⟩ : ∃ inputs, synthesize document = .ok inputs ∧
      inputs.map (·.fields.map (·.type.text)) =
        [["ID!", "Int", "Int", "[CreateItemInput!]", "[UpdateItemInput!]", "[ID!]"],
          ["Int", "Int", "[CreateItemInput!]", "[UpdateItemInput!]", "[ID!]"], ["ID!"]] ∧
      ∀ input ∈ inputs, ∀ field ∈ input.fields, ¬ IsObject document field.type.innermost :=
    ⟨_, rfl, by decide, by decide⟩
  obtain ⟨hid, hfields⟩ := (types_of_synthesize_iff hinputs).1 htyped order List.mem_cons_self
  exact ⟨inputs, hinputs, htexts, hid, hfields total List.mem_cons_self⟩

/-- Adding to an address is offered with the type of the address itself. -/
theorem added_address_is_an_object :
    let document : Document :=
      { definitions :=
        [.object
          { name := "Delivery", directives := [{ name := "rootEntity" }]
            fields :=
              [{ name := "address", type := .optional "Address"
                 directives := [{ name := "calcMutations",
                                  arguments := [("operators", .list [.enumeration "ADD"])] }] }] },
         .object
          { name := "Address", directives := [{ name := "valueObject" }]
            fields := [{ name := "street", type := .optional "String" }] }] }
    ∃ inputs, synthesize document = .ok inputs ∧
      ∃ input ∈ inputs, ∃ field ∈ input.fields, IsObject document field.type.innermost :=
  ⟨_, rfl, by decide⟩

end UpdateInput

end EntitySchema
