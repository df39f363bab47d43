import EntitySchema.Proofs.UpdateInput.Synthesized

/-! # What Update inputs refer to

A field of an Update input takes its type from a built-in scalar, from the document, from a Create
input, or from an Update input. Root and child entities have an Update input; an extension or a
value object has none, and yet a field may refer to it. -/
namespace EntitySchema

open Sdl

namespace UpdateInput

variable {document extended : Document}

/-- A name that stands for a type: a built-in scalar, a definition, or the Create input of an
object type of the document. -/
def Known (document extended : Document) (name : String) : Prop :=
  isBuiltinScalar name = true ∨ (extended.definition? name).isSome = true ∨
    ∃ type ∈ document.objectTypes, name = Names.createInput type.name

instance (document extended : Document) (name : String) :
    Decidable (Known document extended name) :=
  inferInstanceAs (Decidable (_ ∨ _ ∨ _))

/-- A field that refers to the Update input of an object type that gets none: of an extension as a
value, or of whatever the items of a list are. -/
def Dangling (document : Document) (field : FieldDef) : Prop :=
  ∃ type ∈ document.objectTypes, type.isRootEntity = false ∧ type.isChildEntity = false ∧
    (field.type = .optional (Names.updateInput type.name) ∧ type.isEntityExtension = true ∨
      field.type = .listOf (Names.updateInput type.name))

def Refers (document extended : Document) (field : FieldDef) : Prop :=
  Known document extended field.type.innermost ∨ Dangling document field

theorem isSome_definition?_iff {name : String} :
    (document.definition? name).isSome = true ↔ ∃ d ∈ document.definitions, d.name = name := by
  simp only [Document.definition?, List.find?_isSome, beq_iff_eq]

theorem mem_objectTypes_of_definition? {name : String} {type : TypeDef}
    (h : document.definition? name = some (.object type)) : type ∈ document.objectTypes := by
  have hmem : Definition.object type ∈ document.definitions := List.mem_of_find?_eq_some h
  exact List.mem_filterMap.2 ⟨_, hmem, rfl⟩

theorem mem_objectTypes_of_resolve {name : String} {type : TypeDef}
    (h : resolve document name = .ok (.object type)) : type ∈ document.objectTypes := by
  rw [resolve] at h
  split at h
  · rename_i hfound
    cases h
    exact mem_objectTypes_of_definition? hfound
  · cases h
  · cases h
  · cases h
  · split at h <;> cases h

theorem isBuiltinScalar_or_definition?_of_resolve {name : String} {target : Target}
    (h : resolve document name = .ok target) :
    isBuiltinScalar name = true ∨ (document.definition? name).isSome = true := by
  rw [resolve] at h
  cases hfound : document.definition? name with
  | some definition => exact .inr rfl
  | none =>
    rw [hfound] at h
    by_cases hscalar : isBuiltinScalar name = true
    · exact .inl hscalar
    · rw [if_neg hscalar] at h
      cases h

/-! ### The definitions of an extended document -/

theorem extend_eq_ok_iff :
    extend document = .ok extended ↔ ∃ inputs, synthesize document = .ok inputs ∧
      extended = { definitions := document.definitions ++ inputs.map .input } := by
  rw [extend, Results.bind_eq_ok_iff]
  refine exists_congr fun inputs => and_congr_right fun _ => ?_
  simp only [pure, Except.pure, Except.ok.injEq, eq_comm]

theorem isSome_definition?_of_extend (h : extend document = .ok extended) {name : String}
    (hname : (document.definition? name).isSome = true) :
    (extended.definition? name).isSome = true := by
  obtain ⟨inputs, -, rfl⟩ := extend_eq_ok_iff.1 h
  obtain ⟨definition, hmem, hdefines⟩ := isSome_definition?_iff.1 hname
  exact isSome_definition?_iff.2 ⟨definition, List.mem_append_left _ hmem, hdefines⟩

/-- What the inputs of a document are made of: for a root entity there are two, for a child entity
there is one. -/
theorem mem_synthesize_iff {inputs : List TypeDef} (h : synthesize document = .ok inputs)
    {input : TypeDef} :
    input ∈ inputs ↔ ∃ type ∈ document.objectTypes, ∃ fields,
      typeInputs document type = .ok fields ∧
        (type.isRootEntity = true ∧ (input = updateOne type fields ∨ input = updateAll type fields) ∨
          type.isChildEntity = true ∧ input = updateOne type fields) := by
  obtain ⟨roots, hroots, hrest⟩ := Results.bind_eq_ok_iff.1 h
  obtain ⟨children, hchildren, heq⟩ := Results.bind_eq_ok_iff.1 hrest
  cases heq
  have hrootsMade := Results.mapM_eq_ok_iff.1 hroots
  have hchildrenMade := Results.mapM_eq_ok_iff.1 hchildren
  rw [List.mem_append]
  constructor
  · rintro (hroot | hchild)
    · obtain ⟨pair, hpair, hin⟩ := List.mem_flatten.1 hroot
      obtain ⟨type, htype, hmade⟩ := Results.exists_of_mem_right hrootsMade hpair
      obtain ⟨fields, hfields, rfl⟩ := Results.map_eq_ok_iff.1 hmade
      obtain ⟨hmem, hrole⟩ := List.mem_filter.1 htype
      have hcases : input = updateOne type fields ∨ input = updateAll type fields := by
        simpa using hin
      exact ⟨type, hmem, fields, hfields, .inl ⟨hrole, hcases⟩⟩
    · obtain ⟨type, htype, hmade⟩ := Results.exists_of_mem_right hchildrenMade hchild
      obtain ⟨fields, hfields, rfl⟩ := Results.map_eq_ok_iff.1 hmade
      obtain ⟨hmem, hrole⟩ := List.mem_filter.1 htype
      exact ⟨type, hmem, fields, hfields, .inr ⟨hrole, rfl⟩⟩
  · rintro ⟨type, hmem, fields, hfields, ⟨hrole, hinput⟩ | ⟨hrole, rfl⟩⟩
    · left
      have htype : type ∈ document.rootEntities := List.mem_filter.2 ⟨hmem, hrole⟩
      obtain ⟨pair, hpair, hmade⟩ := Results.exists_of_mem_left hrootsMade htype
      rw [hfields] at hmade
      cases hmade
      refine List.mem_flatten.2 ⟨_, hpair, ?_⟩
      simpa using hinput
    · right
      have htype : type ∈ document.childEntities := List.mem_filter.2 ⟨hmem, hrole⟩
      obtain ⟨one, hone, hmade⟩ := Results.exists_of_mem_left hchildrenMade htype
      rw [hfields] at hmade
      cases hmade
      exact hone

/-- The fields of the inputs of an entity are made if the whole is. -/
theorem exists_typeInputs {inputs : List TypeDef} (h : synthesize document = .ok inputs)
    {type : TypeDef} (hmem : type ∈ document.objectTypes)
    (hrole : type.isRootEntity = true ∨ type.isChildEntity = true) :
    ∃ fields, typeInputs document type = .ok fields := by
  obtain ⟨roots, hroots, hrest⟩ := Results.bind_eq_ok_iff.1 h
  obtain ⟨children, hchildren, -⟩ := Results.bind_eq_ok_iff.1 hrest
  rcases hrole with hroot | hchild
  · have htype : type ∈ document.rootEntities := List.mem_filter.2 ⟨hmem, hroot⟩
    obtain ⟨_, -, hmade⟩ :=
      Results.exists_of_mem_left (Results.mapM_eq_ok_iff.1 hroots) htype
    obtain ⟨fields, hfields, -⟩ := Results.map_eq_ok_iff.1 hmade
    exact ⟨fields, hfields⟩
  · have htype : type ∈ document.childEntities := List.mem_filter.2 ⟨hmem, hchild⟩
    obtain ⟨_, -, hmade⟩ :=
      Results.exists_of_mem_left (Results.mapM_eq_ok_iff.1 hchildren) htype
    obtain ⟨fields, hfields, -⟩ := Results.map_eq_ok_iff.1 hmade
    exact ⟨fields, hfields⟩

/-- Every entity has an Update input in the extended document. -/
theorem isSome_definition?_updateInput (h : extend document = .ok extended) {type : TypeDef}
    (hmem : type ∈ document.objectTypes)
    (hrole : type.isRootEntity = true ∨ type.isChildEntity = true) :
    (extended.definition? (Names.updateInput type.name)).isSome = true := by
  obtain ⟨inputs, hinputs, rfl⟩ := extend_eq_ok_iff.1 h
  obtain ⟨fields, hfields⟩ := exists_typeInputs hinputs hmem hrole
  have hone : updateOne type fields ∈ inputs := by
    refine (mem_synthesize_iff hinputs).2 ⟨type, hmem, fields, hfields, ?_⟩
    rcases hrole with hroot | hchild
    · exact .inl ⟨hroot, .inl rfl⟩
    · exact .inr ⟨hchild, rfl⟩
  have hdefined : Definition.input (updateOne type fields) ∈ inputs.map .input :=
    List.mem_map.2 ⟨_, hone, rfl⟩
  exact isSome_definition?_iff.2 ⟨_, List.mem_append_right _ hdefined, rfl⟩

/-! ### The types of the fields -/

theorem Known.of_resolve (h : extend document = .ok extended) {name : String} {target : Target}
    (hresolve : resolve document name = .ok target) : Known document extended name := by
  rcases isBuiltinScalar_or_definition?_of_resolve hresolve with hscalar | hdefined
  · exact .inl hscalar
  · exact .inr (.inl (isSome_definition?_of_extend h hdefined))

theorem Known.createInput {type : TypeDef} (hmem : type ∈ document.objectTypes) :
    Known document extended (Names.createInput type.name) :=
  .inr (.inr ⟨type, hmem, rfl⟩)

theorem Known.updateInput (h : extend document = .ok extended) {type : TypeDef}
    (hmem : type ∈ document.objectTypes)
    (hrole : type.isRootEntity = true ∨ type.isChildEntity = true) :
    Known document extended (Names.updateInput type.name) :=
  .inr (.inl (isSome_definition?_updateInput h hmem hrole))

theorem Known.id : Known document extended "ID" := .inl (by decide)

/-- The type of a single value is known, or the Update input of an extension. -/
theorem known_or_extension_of_valueTypeName (h : extend document = .ok extended)
    {field : FieldDef} {name typeName : String} {target : Target}
    (hresolve : resolve document name = .ok target)
    (htype : valueTypeName field name target = .ok typeName) :
    Known document extended typeName ∨ ∃ type ∈ document.objectTypes,
      type.isRootEntity = false ∧ type.isChildEntity = false ∧
        typeName = Names.updateInput type.name ∧ type.isEntityExtension = true := by
  cases target with
  | leaf =>
    cases htype
    exact .inl (.of_resolve h hresolve)
  | object type =>
    have hmem := mem_objectTypes_of_resolve hresolve
    rw [valueTypeName] at htype
    split at htype
    · cases htype
      exact .inl .id
    split at htype
    · cases htype
      exact .inl (.inl (by decide))
    split at htype
    · rename_i hpart
      cases htype
      by_cases hrole : type.isRootEntity = true ∨ type.isChildEntity = true
      · exact .inl (.updateInput h hmem hrole)
      · have hplain : type.isRootEntity = false ∧ type.isChildEntity = false := by
          simpa using hrole
        have hextension : type.isEntityExtension = true := by simpa [hplain.2] using hpart
        exact .inr ⟨type, hmem, hplain.1, hplain.2, rfl, hextension⟩
    split at htype
    · cases htype
    · cases htype
      exact .inl (.createInput hmem)

theorem refers_of_valueInputs (h : extend document = .ok extended) {field : FieldDef}
    {name : String} {inputs : List FieldDef} (hinputs : valueInputs document field name = .ok inputs) :
    ∀ input ∈ inputs, Refers document extended input := by
  obtain ⟨target, htarget, htyped⟩ := Results.bind_eq_ok_iff.1 hinputs
  obtain ⟨typeName, htypeName, hcalc⟩ := Results.bind_eq_ok_iff.1 htyped
  obtain ⟨operators, -, heq⟩ := Results.bind_eq_ok_iff.1 hcalc
  cases heq
  intro input hmem
  rcases List.mem_cons.1 hmem with rfl | hcalculated
  · rcases known_or_extension_of_valueTypeName h htarget htypeName with
      hknown | ⟨type, htype, hroot, hchild, rfl, hextension⟩
    · exact .inl hknown
    · exact .inr ⟨type, htype, hroot, hchild, .inl ⟨rfl, hextension⟩⟩
  · obtain ⟨operator, -, rfl⟩ := List.mem_map.1 hcalculated
    exact .inl (.of_resolve h htarget)

theorem refers_of_listInputs (h : extend document = .ok extended) {field : FieldDef}
    {name : String} {inputs : List FieldDef} (hinputs : listInputs document field name = .ok inputs) :
    ∀ input ∈ inputs, Refers document extended input := by
  obtain ⟨target, htarget, hmade⟩ := Results.bind_eq_ok_iff.1 hinputs
  cases target with
  | leaf =>
    cases hmade
    intro input hmem
    rw [List.mem_singleton.1 hmem]
    exact .inl (.of_resolve h htarget)
  | object type =>
    have htype := mem_objectTypes_of_resolve htarget
    dsimp only at hmade
    split at hmade
    · cases hmade
      intro input hmem
      simp only [List.mem_cons, List.not_mem_nil, or_false] at hmem
      rcases hmem with rfl | rfl
      · exact .inl .id
      · exact .inl .id
    split at hmade
    · rename_i hchild
      cases hmade
      intro input hmem
      simp only [List.mem_cons, List.not_mem_nil, or_false] at hmem
      rcases hmem with rfl | rfl | rfl
      · exact .inl (.createInput htype)
      · exact .inl (.updateInput h htype (.inr hchild))
      · exact .inl .id
    · rename_i hchild
      cases hmade
      intro input hmem
      rw [List.mem_singleton.1 hmem]
      by_cases hroot : type.isRootEntity = true
      · exact .inl (.updateInput h htype (.inl hroot))
      · refine .inr ⟨type, htype, ?_, ?_, .inr rfl⟩
        · simpa using hroot
        · simpa using hchild

theorem refers_of_fieldInputs (h : extend document = .ok extended) {field : FieldDef}
    {inputs : List FieldDef} (hinputs : fieldInputs document field = .ok inputs) :
    ∀ input ∈ inputs, Refers document extended input := by
  rw [fieldInputs] at hinputs
  split at hinputs
  · exact refers_of_valueInputs h hinputs
  · exact refers_of_listInputs h hinputs
  · cases hinputs

theorem refers_of_typeInputs (h : extend document = .ok extended) {type : TypeDef}
    {inputs : List FieldDef} (hinputs : typeInputs document type = .ok inputs) :
    ∀ input ∈ inputs, Refers document extended input := by
  obtain ⟨blocks, hblocks, heq⟩ := Results.bind_eq_ok_iff.1 hinputs
  cases heq
  intro input hmem
  obtain ⟨block, hblock, hin⟩ := List.mem_flatten.1 hmem
  obtain ⟨field, -, hmade⟩ :=
    Results.exists_of_mem_right (Results.mapM_eq_ok_iff.1 hblocks) hblock
  exact refers_of_fieldInputs h (Results.mapError_eq_ok_iff.1 hmade) input hin

/-- Whatever the fields of Update inputs refer to is known, apart from the Update inputs that
extensions and items of lists would need. Those of entities are all there. -/
theorem references_of_extend (h : extend document = .ok extended) :
    ∃ inputs, synthesize document = .ok inputs ∧
      extended.definitions = document.definitions ++ inputs.map .input ∧
      (∀ input ∈ inputs, ∀ field ∈ input.fields,
        Known document extended field.type.innermost ∨ Dangling document field) ∧
      ∀ type ∈ document.objectTypes, type.isRootEntity = true ∨ type.isChildEntity = true →
        (extended.definition? (Names.updateInput type.name)).isSome = true := by
  obtain ⟨inputs, hinputs, heq⟩ := extend_eq_ok_iff.1 h
  refine ⟨inputs, hinputs, by rw [heq], ?_, fun type htype hrole =>
    isSome_definition?_updateInput h htype hrole⟩
  intro input hinput field hfield
  obtain ⟨type, -, fields, hfields, hmade⟩ := (mem_synthesize_iff hinputs).1 hinput
  have hrefers := refers_of_typeInputs h hfields
  have hone : ∀ other ∈ (updateOne type fields).fields, Refers document extended other := by
    intro other hother
    rcases List.mem_cons.1 hother with rfl | hrest
    · exact .inl .id
    · exact hrefers other hrest
  rcases hmade with ⟨-, rfl | rfl⟩ | ⟨-, rfl⟩
  · exact hone field hfield
  · exact hrefers field hfield
  · exact hone field hfield

/-- A delivery whose items have inputs of their own, and whose addresses do not. -/
theorem references_of_deliveries :
    let document : Document :=
      { definitions :=
        [.object
          { name := "Delivery", directives := [{ name := "rootEntity" }]
            fields :=
              [{ name := "items", type := .list (.named "Item" true) true },
                { name := "addresses", type := .list (.named "Address" false) false }] },
         .object { name := "Item", directives := [{ name := "childEntity" }] },
         .object { name := "Address", directives := [{ name := "valueObject" }] }] }
    ∃ extended, extend document = .ok extended ∧ ∃ inputs, synthesize document = .ok inputs ∧
      (∀ input ∈ inputs, ∀ field ∈ input.fields,
        Known document extended field.type.innermost ∨ Dangling document field) ∧
      (extended.definition? "UpdateItemInput").isSome = true := by
  intro document
  have hextend : ∃ extended, extend document = .ok extended := ⟨_, rfl⟩
  obtain ⟨extended, h⟩ := hextend
  obtain ⟨inputs, hinputs, -, hrefers, hdefined⟩ := references_of_extend h
  refine ⟨extended, h, inputs, hinputs, hrefers, ?_⟩
  exact hdefined { name := "Item", directives := [{ name := "childEntity" }] }
    (.tail _ (.head _)) (.inr (by decide))

/-- The items of a list of value objects are said to be updated through an input that nothing
defines. -/
theorem addresses_refer_to_nothing :
    let document : Document :=
      { definitions :=
        [.object
          { name := "Delivery", directives := [{ name := "rootEntity" }]
            fields := [{ name := "addresses", type := .list (.named "Address" false) false }] },
         .object
          { name := "Address", directives := [{ name := "valueObject" }]
            fields := [{ name := "street", type := .named "String" false }] }] }
    ∃ extended inputs, extend document = .ok extended ∧ synthesize document = .ok inputs ∧
      ¬ ∀ input ∈ inputs, ∀ field ∈ input.fields,
        Known document extended field.type.innermost := by
  refine ⟨_, _, rfl, rfl, ?_⟩
  decide

end UpdateInput

end EntitySchema
