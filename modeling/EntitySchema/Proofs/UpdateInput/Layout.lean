import EntitySchema.Proofs.UpdateInput.FieldNames

/-! # The layout of Update inputs

The inputs stand in the order of the types they are made for, and the fields of an input in blocks,
one for each changeable field of its type. A restriction of access goes with whatever is made of the
restricted type or field. -/
namespace EntitySchema

open Sdl

namespace UpdateInput

variable {document : Document} {field : FieldDef}

/-! ### Restrictions -/

/-- The restriction that directives put on access: the first one for roles, or none. -/
inductive Restriction (directives : List Directive) : List Directive → Prop
  | none (hnone : ∀ directive ∈ directives, directive.name ≠ Directive.roles) :
      Restriction directives []
  | first {before after : List Directive} {directive : Directive}
      (hsplit : directives = before ++ directive :: after)
      (hname : directive.name = Directive.roles)
      (hbefore : ∀ other ∈ before, other.name ≠ Directive.roles) :
      Restriction directives [directive]

theorem restriction_rolesOf (directives : List Directive) :
    Restriction directives (rolesOf directives) := by
  cases hfound : Directive.find? directives Directive.roles with
  | none =>
    rw [rolesOf, hfound]
    exact .none (by simpa [Directive.find?] using hfound)
  | some directive =>
    rw [rolesOf, hfound]
    obtain ⟨hname, before, after, hsplit, hbefore⟩ := List.find?_eq_some_iff_append.1 hfound
    exact .first hsplit (by simpa using hname) (by simpa using hbefore)

/-! ### Blocks -/

def block (document : Document) (field : FieldDef) : List FieldDef :=
  (fieldInputs document field).toOption.getD []

theorem block_of_fieldInputs {inputs : List FieldDef}
    (h : fieldInputs document field = .ok inputs) : block document field = inputs := by
  rw [block, h]
  rfl

theorem valueInputs_eq_ok_iff {name : String} {inputs : List FieldDef} :
    valueInputs document field name = .ok inputs ↔
      ∃ target, resolve document name = .ok target ∧
        ∃ typeName, valueTypeName field name target = .ok typeName ∧
          ∃ operators, (operatorValues field).mapM operator = .ok operators ∧
            inputField field field.name (.optional typeName) ::
              operators.map (calcInput field name) = inputs := by
  simp only [valueInputs, Results.bind_eq_ok_iff, pure, Except.pure, Except.ok.injEq]

/-- A field holds one value or a list of values of the type that is looked up. -/
theorem inputs_of_fieldInputs {inputs : List FieldDef}
    (h : fieldInputs document field = .ok inputs) :
    field.type.isList = false ∧ valueInputs document field field.type.innermost = .ok inputs ∨
      field.type.isList = true ∧ listInputs document field field.type.innermost = .ok inputs := by
  cases htype : field.type with
  | named name required =>
    simp only [fieldInputs, htype] at h
    exact .inl ⟨rfl, h⟩
  | list item required =>
    cases item with
    | named name required' =>
      simp only [fieldInputs, htype] at h
      exact .inr ⟨rfl, h⟩
    | list => simp [fieldInputs, htype] at h

theorem directives_of_valueInputs {name : String} {inputs : List FieldDef}
    (h : valueInputs document field name = .ok inputs) :
    ∀ input ∈ inputs, input.directives = rolesOf field.directives := by
  obtain ⟨target, -, typeName, -, operators, -, rfl⟩ := valueInputs_eq_ok_iff.1 h
  intro input hmem
  rcases List.mem_cons.1 hmem with rfl | hcalculated
  · rfl
  · obtain ⟨operator, -, rfl⟩ := List.mem_map.1 hcalculated
    rfl

theorem directives_of_listInputs {name : String} {inputs : List FieldDef}
    (h : listInputs document field name = .ok inputs) :
    ∀ input ∈ inputs, input.directives = rolesOf field.directives := by
  obtain ⟨target, -, hmade⟩ := Results.bind_eq_ok_iff.1 h
  intro input hmem
  cases target with
  | leaf =>
    cases hmade
    rw [List.mem_singleton.1 hmem, inputField]
  | object type =>
    dsimp only at hmade
    split_ifs at hmade
    all_goals
      cases hmade
      simp only [List.mem_cons, List.not_mem_nil, or_false] at hmem
    · rcases hmem with rfl | rfl <;> rfl
    · rcases hmem with rfl | rfl | rfl <;> rfl
    · rw [hmem, inputField]

theorem directives_of_fieldInputs {inputs : List FieldDef}
    (h : fieldInputs document field = .ok inputs) :
    ∀ input ∈ inputs, input.directives = rolesOf field.directives := by
  rcases inputs_of_fieldInputs h with ⟨-, hvalue⟩ | ⟨-, hlist⟩
  · exact directives_of_valueInputs hvalue
  · exact directives_of_listInputs hlist

theorem ways_ne_nil {inputs : List FieldDef} (h : fieldInputs document field = .ok inputs) :
    ways document field ≠ [] := by
  cases htype : field.type with
  | named name required =>
    simp only [ways, htype]
    exact List.cons_ne_nil _ _
  | list item required =>
    cases hitem : item with
    | list => simp [fieldInputs, htype, hitem] at h
    | named name required' =>
      simp only [ways, htype, hitem]
      split
      · split_ifs <;> exact List.cons_ne_nil _ _
      · exact List.cons_ne_nil _ _

/-- Every field leaves something in the inputs. -/
theorem ne_nil_of_fieldInputs {inputs : List FieldDef}
    (h : fieldInputs document field = .ok inputs) : inputs ≠ [] := by
  rintro rfl
  have hnames := names_of_fieldInputs h
  exact ways_ne_nil h (List.map_eq_nil_iff.1 hnames.symm)

/-- The input fields of a type are the blocks of its changeable fields. -/
theorem typeInputs_eq_ok_iff {type : TypeDef} {fields : List FieldDef} :
    typeInputs document type = .ok fields ↔
      (∀ field ∈ changeable type, fieldInputs document field = .ok (block document field)) ∧
        fields = (changeable type).flatMap (block document) := by
  rw [typeInputs, Results.bind_eq_ok_iff, List.flatMap_def]
  simp only [Results.mapM_eq_ok_iff, Results.mapError_eq_ok_iff]
  constructor
  · rintro ⟨blocks, hblocks, heq⟩
    cases heq
    have hmap : blocks.map id = (changeable type).map (block document) :=
      Results.map_eq_map_of_forall₂ hblocks fun field inputs h => (block_of_fieldInputs h).symm
    refine ⟨fun field hfield => ?_, by rw [← hmap, List.map_id]⟩
    obtain ⟨inputs, -, hinputs⟩ := Results.exists_of_mem_left hblocks hfield
    rw [hinputs, block_of_fieldInputs hinputs]
  · rintro ⟨hblocks, rfl⟩
    exact ⟨_, List.forall₂_map_right_iff.2 (List.forall₂_same.2 hblocks), rfl⟩

/-! ### Inputs -/

theorem mem_entities_iff {type : TypeDef} :
    type ∈ document.rootEntities ++ document.childEntities ↔
      type ∈ document.objectTypes ∧ (type.isRootEntity = true ∨ type.isChildEntity = true) := by
  simp only [Document.rootEntities, Document.childEntities, List.mem_append, List.mem_filter,
    and_or_left]

def idInput : FieldDef := { name := "id", type := .named "ID" true, directives := [] }

def blocks (document : Document) (type : TypeDef) : List FieldDef :=
  (changeable type).flatMap (block document)

variable {inputs : List TypeDef}

theorem inputs_of_synthesize (h : synthesize document = .ok inputs) :
    inputs = (document.rootEntities.flatMap fun type =>
        [updateOne type (blocks document type), updateAll type (blocks document type)]) ++
      document.childEntities.map fun type => updateOne type (blocks document type) := by
  obtain ⟨roots, hroots, hrest⟩ := Results.bind_eq_ok_iff.1 h
  obtain ⟨children, hchildren, heq⟩ := Results.bind_eq_ok_iff.1 hrest
  cases heq
  have hrootsMap : roots.map id = document.rootEntities.map fun type =>
      [updateOne type (blocks document type), updateAll type (blocks document type)] := by
    refine Results.map_eq_map_of_forall₂ (Results.mapM_eq_ok_iff.1 hroots) ?_
    intro type pair hpair
    obtain ⟨fields, hfields, rfl⟩ := Results.map_eq_ok_iff.1 hpair
    rw [(typeInputs_eq_ok_iff.1 hfields).2, blocks, id]
  have hchildrenMap : children.map id = document.childEntities.map fun type =>
      updateOne type (blocks document type) := by
    refine Results.map_eq_map_of_forall₂ (Results.mapM_eq_ok_iff.1 hchildren) ?_
    intro type one hone
    obtain ⟨fields, hfields, rfl⟩ := Results.map_eq_ok_iff.1 hone
    rw [(typeInputs_eq_ok_iff.1 hfields).2, blocks, id]
  rw [List.map_id] at hrootsMap hchildrenMap
  rw [hrootsMap, hchildrenMap, List.flatMap_def]

theorem typeInputs_of_synthesize (h : synthesize document = .ok inputs) {type : TypeDef}
    (htype : type ∈ document.rootEntities ++ document.childEntities) :
    typeInputs document type = .ok (blocks document type) := by
  obtain ⟨hmem, hrole⟩ := mem_entities_iff.1 htype
  obtain ⟨fields, hfields⟩ := exists_typeInputs h hmem hrole
  rw [hfields, (typeInputs_eq_ok_iff.1 hfields).2, blocks]

theorem fieldInputs_of_synthesize (h : synthesize document = .ok inputs) {type : TypeDef}
    (htype : type ∈ document.rootEntities ++ document.childEntities)
    (hfield : field ∈ changeable type) :
    fieldInputs document field = .ok (block document field) :=
  (typeInputs_eq_ok_iff.1 (typeInputs_of_synthesize h htype)).1 field hfield

/-- Where the fields of the inputs come from. -/
theorem mem_fields_iff (h : synthesize document = .ok inputs) :
    (∃ input ∈ inputs, field ∈ input.fields) ↔
      ∃ type ∈ document.rootEntities ++ document.childEntities,
        field = idInput ∨ ∃ source ∈ changeable type, field ∈ block document source := by
  constructor
  · rintro ⟨input, hinput, hfield⟩
    obtain ⟨type, hmem, fields, hfields, hmade⟩ := (mem_synthesize_iff h).1 hinput
    obtain ⟨-, rfl⟩ := typeInputs_eq_ok_iff.1 hfields
    have hrole : type.isRootEntity = true ∨ type.isChildEntity = true :=
      hmade.imp And.left And.left
    refine ⟨type, mem_entities_iff.2 ⟨hmem, hrole⟩, ?_⟩
    have hone : input = updateOne type (blocks document type) ∨
        input = updateAll type (blocks document type) :=
      hmade.elim And.right fun hchild => .inl hchild.2
    rcases hone with rfl | rfl
    · exact (List.mem_cons.1 hfield).imp_right List.mem_flatMap.1
    · exact .inr (List.mem_flatMap.1 hfield)
  · rintro ⟨type, htype, hfield⟩
    obtain ⟨hmem, hrole⟩ := mem_entities_iff.1 htype
    have hone : updateOne type (blocks document type) ∈ inputs := by
      refine (mem_synthesize_iff h).2 ⟨type, hmem, _, typeInputs_of_synthesize h htype, ?_⟩
      exact hrole.imp (fun hroot => ⟨hroot, .inl rfl⟩) fun hchild => ⟨hchild, rfl⟩
    exact ⟨_, hone, List.mem_cons.2 (hfield.imp_right List.mem_flatMap.2)⟩

/-- Inputs stand in the order of their types, and their fields in blocks in the order of the fields
that they come of. What is made of a restricted field is restricted like it. -/
theorem layout_of_synthesize (h : synthesize document = .ok inputs) :
    inputs = (document.rootEntities.flatMap fun type =>
        [{ name := "Update" ++ type.name ++ "Input", directives := rolesOf type.directives
           fields := idInput :: (changeable type).flatMap (block document) },
         { name := "UpdateAll" ++ type.name ++ "Input", directives := rolesOf type.directives
           fields := (changeable type).flatMap (block document) }]) ++
      (document.childEntities.map fun type =>
        { name := "Update" ++ type.name ++ "Input", directives := rolesOf type.directives
          fields := idInput :: (changeable type).flatMap (block document) }) ∧
    (∀ type ∈ document.rootEntities ++ document.childEntities,
      Restriction type.directives (rolesOf type.directives) ∧
        ∀ field ∈ changeable type, fieldInputs document field = .ok (block document field) ∧
          block document field ≠ [] ∧
          ∀ input ∈ block document field, Restriction field.directives input.directives) ∧
    ∀ input ∈ inputs, ∀ field ∈ input.fields, field.directives = [] →
      field = idInput ∨ ∃ type ∈ document.rootEntities ++ document.childEntities,
        ∃ source ∈ changeable type, field ∈ block document source ∧
          ∀ directive ∈ source.directives, directive.name ≠ Directive.roles := by
  have hrestricted : ∀ type ∈ document.rootEntities ++ document.childEntities,
      ∀ field ∈ changeable type, ∀ input ∈ block document field,
        Restriction field.directives input.directives := by
    intro type htype field hfield input hinput
    have hblock := fieldInputs_of_synthesize h htype hfield
    rw [directives_of_fieldInputs hblock input hinput]
    exact restriction_rolesOf field.directives
  refine ⟨inputs_of_synthesize h, fun type htype => ⟨restriction_rolesOf type.directives, ?_⟩, ?_⟩
  · intro field hfield
    have hblock := fieldInputs_of_synthesize h htype hfield
    exact ⟨hblock, ne_nil_of_fieldInputs hblock, hrestricted type htype field hfield⟩
  · intro input hinput field hfield hfree
    obtain ⟨type, htype, hid | ⟨source, hsource, hblock⟩⟩ :=
      (mem_fields_iff h).1 ⟨input, hinput, hfield⟩
    · exact .inl hid
    · have hsame := hrestricted type htype source hsource field hblock
      rw [hfree] at hsame
      cases hsame with
      | none hnone => exact .inr ⟨type, htype, source, hsource, hblock, hnone⟩

/-- Whoever may not change the total of an order may not add to it either. -/
theorem layout_of_restricted_total :
    let roles : Directive :=
      { name := "roles", arguments := [("readWrite", .list [.string "admin"])] }
    let total : FieldDef :=
      { name := "total", type := .named "Int" true
        directives :=
        [{ name := "calcMutations", arguments := [("operators", .enumeration "ADD")] }, roles] }
    let order : TypeDef :=
      { name := "Order", directives := [{ name := "rootEntity" }]
        fields :=
        [{ name := "id", type := .named "ID" true }, total,
         { name := "items", type := .listOf "Item" }] }
    let document : Document :=
      { definitions :=
        [.object order,
         .object { name := "Item", directives := [roles, { name := "childEntity" }] }] }
    ∃ inputs, synthesize document = .ok inputs ∧
      inputs.map (·.name) = ["UpdateOrderInput", "UpdateAllOrderInput", "UpdateItemInput"] ∧
      (block document total).map (·.name) = ["total", "addTotal"] ∧
      ∀ input ∈ block document total, input.directives ≠ [] := by
  intro roles total order document
  obtain ⟨inputs, hinputs⟩ : ∃ inputs, synthesize document = .ok inputs := ⟨_, rfl⟩
  obtain ⟨hlayout, hblocks, -⟩ := layout_of_synthesize hinputs
  refine ⟨inputs, hinputs, by rw [hlayout]; decide, by decide, fun input hinput hfree => ?_⟩
  have htotal : total ∈ changeable order := List.mem_cons_self
  obtain ⟨-, hfields⟩ := hblocks order List.mem_cons_self
  have hrestricted := (hfields total htotal).2.2 input hinput
  rw [hfree] at hrestricted
  cases hrestricted with
  | none hnone =>
    have hroles : roles ∈ total.directives := List.mem_cons_of_mem _ List.mem_cons_self
    exact hnone roles hroles rfl

end UpdateInput

end EntitySchema
