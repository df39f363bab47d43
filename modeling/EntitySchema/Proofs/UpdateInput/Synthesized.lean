import EntitySchema.Proofs.Results
import EntitySchema.Proofs.Sdl.WellFormed
import EntitySchema.UpdateInput.Synthesis
import Mathlib.Data.List.Forall2

/-! # Update inputs can be expressed in schema text

The Update inputs of a well-formed document are well formed: their names are put together from
names, and their directives are copies of directives of the document. -/
namespace EntitySchema

open Sdl

namespace Sdl

/-- A text of characters that may stand in a name, apart from its front. -/
def HasNameChars (text : String) : Prop := ∀ c ∈ text.toList, Rule.isNameRest c = true

instance (text : String) : Decidable (HasNameChars text) :=
  List.decidableBAll (fun c => Rule.isNameRest c = true) text.toList

theorem isNameRest_of_isNameStart {c : Char} (h : Rule.isNameStart c = true) :
    Rule.isNameRest c = true := by
  simp only [Rule.isNameStart, Rule.isNameRest, Char.isAlphanum, Bool.or_eq_true] at h ⊢
  rcases h with h | h
  · exact .inl (.inl h)
  · exact .inr h

theorem IsName.chars {name : String} (h : IsName name) : HasNameChars name := by
  obtain ⟨c, rest, heq, hstart, hrest⟩ := h
  intro d hd
  rw [heq] at hd
  rcases List.mem_cons.1 hd with rfl | hmem
  · exact isNameRest_of_isNameStart hstart
  · exact hrest d hmem

theorem IsName.append {name text : String} (h : IsName name) (htext : HasNameChars text) :
    IsName (name ++ text) := by
  obtain ⟨c, rest, heq, hstart, hrest⟩ := h
  refine ⟨c, rest ++ text.toList, ?_, hstart, ?_⟩
  · rw [String.toList_append, heq]
    rfl
  · intro d hd
    rcases List.mem_append.1 hd with hmem | hmem
    · exact hrest d hmem
    · exact htext d hmem

/-- A character of a name stays one in upper case. -/
theorem isNameRest_upperCase {c : Char} (h : Rule.isNameRest c = true) :
    ∀ d ∈ Text.upperCase c, Rule.isNameRest d = true := by
  have hascii : c.toNat < 128 := by
    simp only [Rule.isNameRest, Char.isAlphanum, Char.isDigit, Bool.or_eq_true, Bool.and_eq_true,
      decide_eq_true_eq, ge_iff_le, UInt32.le_iff_toNat_le] at h
    rcases h with (halpha | hdigit) | rfl
    · exact Nat.lt_of_le_of_lt (toNat_of_isAlpha halpha).2 (by decide)
    · exact Nat.lt_of_le_of_lt hdigit.2 (by decide)
    · decide
  have hall : ∀ n < 128, Rule.isNameRest (Char.ofNat n) = true →
      Rule.isNameRest (Char.ofNat n).toUpper = true := by
    decide
  have hupper := hall c.toNat hascii
  rw [Char.ofNat_toNat] at hupper
  intro d hd
  rw [Text.upperCase, if_pos hascii, List.mem_singleton] at hd
  rw [hd]
  exact hupper h

theorem IsName.capitalize {name : String} (h : IsName name) :
    HasNameChars (Names.capitalize name) := by
  have hchars := h.chars
  obtain ⟨c, rest, heq, -, -⟩ := h
  rw [HasNameChars, heq] at hchars
  intro d hd
  rw [Names.capitalize, heq, String.toList_ofList] at hd
  rcases List.mem_append.1 hd with hfirst | hrest
  · exact isNameRest_upperCase (hchars c List.mem_cons_self) d hfirst
  · exact hchars d (List.mem_cons_of_mem _ hrest)

theorem isName_of_toList {name : String} {c : Char} {rest : List Char}
    (h : name.toList = c :: rest) (hstart : Rule.isNameStart c = true)
    (hrest : rest.all Rule.isNameRest = true) : IsName name :=
  ⟨c, rest, h, hstart, List.all_eq_true.1 hrest⟩

end Sdl

namespace UpdateInput

variable {document : Document}

theorem isName_input {stem name : String} (hstem : IsName stem) (hname : IsName name) :
    IsName (stem ++ name ++ "Input") := by
  refine (hstem.append hname.chars).append ?_
  decide

def Expressible (field : FieldDef) : Prop := field.WellFormed ∧ field.Plain

theorem mem_rolesOf {directives : List Directive} {directive : Directive}
    (h : directive ∈ rolesOf directives) : directive ∈ directives :=
  List.mem_of_find?_eq_some (Option.mem_toList.1 h)

theorem expressible_inputField {field : FieldDef} (hfield : Expressible field) {name : String}
    (hname : IsName name) {type : TypeExpr} (htype : type.WellFormed) :
    Expressible (inputField field name type) := by
  refine ⟨⟨hname, htype, fun directive hmem => ?_⟩, fun directive hmem => ?_⟩
  · exact hfield.1.2.2 directive (mem_rolesOf hmem)
  · exact hfield.2 directive (mem_rolesOf hmem)

theorem isName_verb (operator : CalcOperator) : IsName operator.verb := by
  cases operator <;> exact isName_of_toList rfl rfl rfl

theorem isName_of_resolve (hwell : document.WellFormed) {name : String} {type : TypeDef}
    (h : resolve document name = .ok (.object type)) : IsName type.name := by
  rw [resolve] at h
  split at h
  · rename_i hfound
    cases h
    exact (hwell _ (List.mem_of_find?_eq_some hfound)).1
  · cases h
  · cases h
  · cases h
  · split at h <;> cases h

theorem isName_of_valueTypeName (hwell : document.WellFormed) {field : FieldDef}
    {name typeName : String} (hname : IsName name) {target : Target}
    (hresolve : resolve document name = .ok target)
    (h : valueTypeName field name target = .ok typeName) : IsName typeName := by
  cases target with
  | leaf =>
    cases h
    exact hname
  | object type =>
    have htype := isName_of_resolve hwell hresolve
    rw [valueTypeName] at h
    split at h
    · cases h
      exact isName_of_toList rfl rfl rfl
    split at h
    · cases h
      exact isName_of_toList rfl rfl rfl
    split at h
    · cases h
      exact isName_input (isName_of_toList rfl rfl rfl) htype
    split at h
    · cases h
    · cases h
      exact isName_input (isName_of_toList rfl rfl rfl) htype

theorem wellFormed_listOf {name : String} (h : IsName name) :
    (TypeExpr.listOf name).WellFormed := h

theorem expressible_of_valueInputs (hwell : document.WellFormed) {field : FieldDef}
    (hfield : Expressible field) {name : String} (hname : IsName name) {inputs : List FieldDef}
    (h : valueInputs document field name = .ok inputs) : ∀ input ∈ inputs, Expressible input := by
  obtain ⟨target, htarget, htyped⟩ := Results.bind_eq_ok_iff.1 h
  obtain ⟨typeName, htypeName, hcalc⟩ := Results.bind_eq_ok_iff.1 htyped
  obtain ⟨operators, -, hinputs⟩ := Results.bind_eq_ok_iff.1 hcalc
  cases hinputs
  have htype := isName_of_valueTypeName hwell hname htarget htypeName
  intro input hmem
  rcases List.mem_cons.1 hmem with rfl | hcalc
  · exact expressible_inputField hfield hfield.1.1 htype
  · obtain ⟨operator, -, rfl⟩ := List.mem_map.1 hcalc
    refine expressible_inputField hfield ?_ hname
    exact (isName_verb operator).append hfield.1.1.capitalize

theorem expressible_of_listInputs (hwell : document.WellFormed) {field : FieldDef}
    (hfield : Expressible field) {name : String} (hname : IsName name) {inputs : List FieldDef}
    (h : listInputs document field name = .ok inputs) : ∀ input ∈ inputs, Expressible input := by
  have hid : IsName "ID" := isName_of_toList rfl rfl rfl
  have hverb : ∀ {verb : String}, IsName verb → IsName (verb ++ Names.capitalize field.name) :=
    fun hverb => hverb.append hfield.1.1.capitalize
  have hadd : IsName (Names.addField field.name) := hverb (isName_of_toList rfl rfl rfl)
  have hupdate : IsName (Names.updateField field.name) := hverb (isName_of_toList rfl rfl rfl)
  have hremove : IsName (Names.removeField field.name) := hverb (isName_of_toList rfl rfl rfl)
  obtain ⟨target, htarget, hinputs⟩ := Results.bind_eq_ok_iff.1 h
  cases target with
  | leaf =>
    cases hinputs
    intro input hmem
    rw [List.mem_singleton.1 hmem]
    exact expressible_inputField hfield hfield.1.1 (wellFormed_listOf hname)
  | object type =>
    have htype := isName_of_resolve hwell htarget
    have hcreateType : IsName (Names.createInput type.name) :=
      isName_input (isName_of_toList rfl rfl rfl) htype
    have hupdateType : IsName (Names.updateInput type.name) :=
      isName_input (isName_of_toList rfl rfl rfl) htype
    dsimp only at hinputs
    split at hinputs
    · cases hinputs
      intro input hmem
      simp only [List.mem_cons, List.not_mem_nil, or_false] at hmem
      rcases hmem with rfl | rfl
      · exact expressible_inputField hfield hadd (wellFormed_listOf hid)
      · exact expressible_inputField hfield hremove (wellFormed_listOf hid)
    split at hinputs
    · cases hinputs
      intro input hmem
      simp only [List.mem_cons, List.not_mem_nil, or_false] at hmem
      rcases hmem with rfl | rfl | rfl
      · exact expressible_inputField hfield hadd (wellFormed_listOf hcreateType)
      · exact expressible_inputField hfield hupdate (wellFormed_listOf hupdateType)
      · exact expressible_inputField hfield hremove (wellFormed_listOf hid)
    · cases hinputs
      intro input hmem
      rw [List.mem_singleton.1 hmem]
      exact expressible_inputField hfield hfield.1.1 (wellFormed_listOf hupdateType)

theorem expressible_of_fieldInputs (hwell : document.WellFormed) {field : FieldDef}
    (hfield : Expressible field) {inputs : List FieldDef}
    (h : fieldInputs document field = .ok inputs) : ∀ input ∈ inputs, Expressible input := by
  have htype := hfield.1.2.1
  rw [fieldInputs] at h
  split at h
  · rename_i hnamed
    rw [hnamed] at htype
    exact expressible_of_valueInputs hwell hfield htype h
  · rename_i hlist
    rw [hlist] at htype
    exact expressible_of_listInputs hwell hfield htype h
  · cases h

theorem expressible_of_typeInputs (hwell : document.WellFormed) {type : TypeDef}
    (hfields : ∀ field ∈ type.fields, Expressible field) {inputs : List FieldDef}
    (h : typeInputs document type = .ok inputs) : ∀ input ∈ inputs, Expressible input := by
  obtain ⟨blocks, hblocks, hinputs⟩ := Results.bind_eq_ok_iff.1 h
  cases hinputs
  intro input hmem
  obtain ⟨block, hblock, hin⟩ := List.mem_flatten.1 hmem
  obtain ⟨field, hfield, hmade⟩ := Results.exists_of_mem_right (Results.mapM_eq_ok_iff.1 hblocks)
    hblock
  exact expressible_of_fieldInputs hwell (hfields field (List.mem_of_mem_filter hfield))
    (Results.mapError_eq_ok_iff.1 hmade) input hin

/-- Both inputs of a type are well formed and plain, if the type is. -/
theorem wellFormed_updates {type : TypeDef} (hwell : type.WellFormed) (hplain : type.Plain)
    {fields : List FieldDef} (hfields : ∀ field ∈ fields, Expressible field) :
    ((updateOne type fields).WellFormed ∧ (updateOne type fields).Plain) ∧
      ((updateAll type fields).WellFormed ∧ (updateAll type fields).Plain) := by
  have hid : Expressible { name := Names.idField, type := .named "ID" true } := by
    refine ⟨⟨isName_of_toList rfl rfl rfl, isName_of_toList rfl rfl rfl, ?_⟩, ?_⟩ <;>
      exact fun _ hmem => absurd hmem List.not_mem_nil
  have hone : ∀ field ∈ { name := Names.idField, type := .named "ID" true } :: fields,
      Expressible field := List.forall_mem_cons.2 ⟨hid, hfields⟩
  have hroles : ∀ directive ∈ rolesOf type.directives, directive.WellFormed ∧ directive.Plain :=
    fun directive hmem =>
      ⟨hwell.2.1 directive (mem_rolesOf hmem), hplain.1 directive (mem_rolesOf hmem)⟩
  refine ⟨⟨⟨isName_input (isName_of_toList rfl rfl rfl) hwell.1, ?_, ?_⟩, ?_, ?_⟩,
    ⟨⟨isName_input (isName_of_toList rfl rfl rfl) hwell.1, ?_, ?_⟩, ?_, ?_⟩⟩
  · exact fun directive hmem => (hroles directive hmem).1
  · exact fun field hmem => (hone field hmem).1
  · exact fun directive hmem => (hroles directive hmem).2
  · exact fun field hmem => (hone field hmem).2
  · exact fun directive hmem => (hroles directive hmem).1
  · exact fun field hmem => (hfields field hmem).1
  · exact fun directive hmem => (hroles directive hmem).2
  · exact fun field hmem => (hfields field hmem).2

theorem mem_objectTypes {type : TypeDef} (h : type ∈ document.objectTypes) :
    .object type ∈ document.definitions := by
  obtain ⟨definition, hmem, heq⟩ := List.mem_filterMap.1 h
  cases definition with
  | object other =>
    cases heq
    exact hmem
  | _ => cases heq

theorem wellFormed_of_synthesize (hwell : document.WellFormed) (hplain : document.Plain)
    {inputs : List TypeDef} (h : synthesize document = .ok inputs) :
    ∀ input ∈ inputs, input.WellFormed ∧ input.Plain := by
  have hinputs : ∀ {type : TypeDef} {fields : List FieldDef}, type ∈ document.objectTypes →
      typeInputs document type = .ok fields →
      ((updateOne type fields).WellFormed ∧ (updateOne type fields).Plain) ∧
        ((updateAll type fields).WellFormed ∧ (updateAll type fields).Plain) := by
    intro type fields hmem hfields
    have htype : type.WellFormed := hwell _ (mem_objectTypes hmem)
    have htypePlain : type.Plain := hplain _ (mem_objectTypes hmem)
    refine wellFormed_updates htype htypePlain (expressible_of_typeInputs hwell ?_ hfields)
    exact fun field hfield => ⟨htype.2.2 field hfield, htypePlain.2 field hfield⟩
  obtain ⟨roots, hroots, hrest⟩ := Results.bind_eq_ok_iff.1 h
  obtain ⟨children, hchildren, heq⟩ := Results.bind_eq_ok_iff.1 hrest
  cases heq
  intro input hmem
  rcases List.mem_append.1 hmem with hroot | hchild
  · obtain ⟨pair, hpair, hin⟩ := List.mem_flatten.1 hroot
    obtain ⟨type, htype, hmade⟩ := Results.exists_of_mem_right
      (Results.mapM_eq_ok_iff.1 hroots) hpair
    obtain ⟨fields, hfields, rfl⟩ := Results.map_eq_ok_iff.1 hmade
    obtain ⟨hone, hall⟩ := hinputs (List.mem_of_mem_filter htype) hfields
    simp only [List.mem_cons, List.not_mem_nil, or_false] at hin
    rcases hin with rfl | rfl
    · exact hone
    · exact hall
  · obtain ⟨type, htype, hmade⟩ := Results.exists_of_mem_right
      (Results.mapM_eq_ok_iff.1 hchildren) hchild
    obtain ⟨fields, hfields, rfl⟩ := Results.map_eq_ok_iff.1 hmade
    exact (hinputs (List.mem_of_mem_filter htype) hfields).1

/-- Update inputs leave a document one that schema text can express. -/
theorem wellFormed_of_extend (hwell : document.WellFormed) (hplain : document.Plain)
    {extended : Document} (h : extend document = .ok extended) :
    extended.WellFormed ∧ extended.Plain := by
  obtain ⟨inputs, hinputs, heq⟩ := Results.bind_eq_ok_iff.1 h
  cases heq
  have hmade := wellFormed_of_synthesize hwell hplain hinputs
  constructor
  · intro definition hmem
    rcases List.mem_append.1 hmem with hold | hnew
    · exact hwell definition hold
    · obtain ⟨input, hinput, rfl⟩ := List.mem_map.1 hnew
      exact (hmade input hinput).1
  · intro definition hmem
    rcases List.mem_append.1 hmem with hold | hnew
    · exact hplain definition hold
    · obtain ⟨input, hinput, rfl⟩ := List.mem_map.1 hnew
      exact (hmade input hinput).2

theorem definitions_of_extend {extended : Document} (h : extend document = .ok extended) :
    ∃ inputs, extended.definitions = document.definitions ++ inputs := by
  obtain ⟨inputs, -, heq⟩ := Results.bind_eq_ok_iff.1 h
  cases heq
  exact ⟨_, rfl⟩

end UpdateInput

end EntitySchema
