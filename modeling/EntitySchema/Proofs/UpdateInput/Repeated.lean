import EntitySchema.Proofs.UpdateInput.Faults
import EntitySchema.Proofs.UpdateInput.InputNames

/-! # Update inputs that are made again

The Update inputs stand behind the definitions that they are made from. A name that was found there
before is found at the same place, and none of the new names is that of a built-in scalar, which
counts only where nothing else is defined. So a document with its Update inputs has the same Update
inputs, and a pass over it puts the same list behind it once more. -/
namespace EntitySchema

open Sdl

/-- No built-in scalar is called like an Update input. -/
theorem Names.isBuiltinScalar_updateInput (name : String) :
    isBuiltinScalar (updateInput name) = false := by
  have hfirst : (updateInput name).toList.head? = some 'U' := by
    rw [updateInput, String.toList_append, String.toList_append]
    rfl
  have hscalars : ∀ scalar ∈ builtinScalars, scalar.toList.head? ≠ some 'U' := by decide
  exact decide_eq_false fun hmem => hscalars _ hmem hfirst

namespace UpdateInput

def withInputs (document : Document) (inputs : List TypeDef) : Document :=
  { definitions := document.definitions ++ inputs.map .input }

variable {document other : Document}

theorem withInputs_withInputs (inputs added : List TypeDef) :
    withInputs (withInputs document inputs) added = withInputs document (inputs ++ added) := by
  simp [withInputs]

theorem objectTypes_withInputs (inputs : List TypeDef) :
    (withInputs document inputs).objectTypes = document.objectTypes := by
  simp [withInputs, Document.objectTypes, List.filterMap_map]

theorem definition?_withInputs {inputs : List TypeDef} {name : String}
    (h : (document.definition? name).isSome = true) :
    (withInputs document inputs).definition? name = document.definition? name := by
  rw [withInputs, Document.definition?, List.find?_append]
  exact Option.or_of_isSome h

/-! ### What else is found -/

/-- A name that stands for something in a document stands for the same in another one. -/
def Finds (document other : Document) : Prop :=
  ∀ name target, resolve document name = .ok target → resolve other name = .ok target

/-- Only names that a document leaves to the scalars could get another meaning. -/
theorem finds_withInputs {inputs : List TypeDef}
    (h : ∀ input ∈ inputs, isBuiltinScalar input.name = false) :
    Finds document (withInputs document inputs) := by
  intro name target htarget
  cases hfound : document.definition? name with
  | some definition =>
    rw [← htarget, resolve, resolve, definition?_withInputs (by rw [hfound]; rfl)]
  | none =>
    have hscalar : isBuiltinScalar name = true :=
      (isBuiltinScalar_or_definition?_of_resolve htarget).resolve_right (by simp [hfound])
    have hnone : (withInputs document inputs).definition? name = none := by
      rw [withInputs, Document.definition?, List.find?_append, Option.or_eq_none_iff]
      refine ⟨hfound, List.find?_eq_none.2 fun definition hmem hname => ?_⟩
      obtain ⟨input, hinput, rfl⟩ := List.mem_map.1 hmem
      have hsame : input.name = name := by simpa [Definition.name] using hname
      rw [← hsame, h input hinput] at hscalar
      cases hscalar
    rw [← htarget, resolve, resolve, hfound, hnone]

theorem Finds.fieldInputs (h : Finds document other) {field : FieldDef} {made : List FieldDef}
    (hmade : fieldInputs document field = .ok made) : fieldInputs other field = .ok made := by
  rw [UpdateInput.fieldInputs] at hmade ⊢
  split at hmade
  · obtain ⟨target, htarget, hrest⟩ := Results.bind_eq_ok_iff.1 hmade
    exact Results.bind_eq_ok_iff.2 ⟨target, h _ _ htarget, hrest⟩
  · obtain ⟨target, htarget, hrest⟩ := Results.bind_eq_ok_iff.1 hmade
    exact Results.bind_eq_ok_iff.2 ⟨target, h _ _ htarget, hrest⟩
  · cases hmade

theorem Finds.typeInputs (h : Finds document other) {type : TypeDef} {made : List FieldDef}
    (hmade : typeInputs document type = .ok made) : typeInputs other type = .ok made := by
  obtain ⟨blocks, hblocks, hflat⟩ := Results.bind_eq_ok_iff.1 hmade
  refine Results.bind_eq_ok_iff.2 ⟨blocks, Results.mapM_eq_ok_iff.2 ?_, hflat⟩
  refine (Results.mapM_eq_ok_iff.1 hblocks).imp fun field block hblock => ?_
  exact Results.mapError_eq_ok_iff.2 (h.fieldInputs (Results.mapError_eq_ok_iff.1 hblock))

/-- Whatever is made of the fields of the inputs of some types is made again. -/
theorem Finds.mapM_typeInputs {α : Type} (h : Finds document other)
    (make : TypeDef → List FieldDef → α) {types : List TypeDef} {results : List α}
    (hresults : types.mapM (fun type => (UpdateInput.typeInputs document type).map (make type)) =
      .ok results) :
    types.mapM (fun type => (UpdateInput.typeInputs other type).map (make type)) = .ok results := by
  rw [Results.mapM_eq_ok_iff] at hresults ⊢
  refine hresults.imp fun type result hresult => ?_
  obtain ⟨fields, hfields, rfl⟩ := Results.map_eq_ok_iff.1 hresult
  exact Results.map_eq_ok_iff.2 ⟨fields, h.typeInputs hfields, rfl⟩

theorem Finds.synthesize (h : Finds document other)
    (htypes : other.objectTypes = document.objectTypes) {inputs : List TypeDef}
    (hinputs : synthesize document = .ok inputs) : synthesize other = .ok inputs := by
  obtain ⟨roots, hroots, hrest⟩ := Results.bind_eq_ok_iff.1 hinputs
  obtain ⟨children, hchildren, heq⟩ := Results.bind_eq_ok_iff.1 hrest
  have hrootEntities : other.rootEntities = document.rootEntities := by
    rw [Document.rootEntities, Document.rootEntities, htypes]
  have hchildEntities : other.childEntities = document.childEntities := by
    rw [Document.childEntities, Document.childEntities, htypes]
  rw [UpdateInput.synthesize, hrootEntities, hchildEntities]
  have hrootsAgain := h.mapM_typeInputs
    (fun type fields => [updateOne type fields, updateAll type fields]) hroots
  have hchildrenAgain := h.mapM_typeInputs updateOne hchildren
  exact Results.bind_eq_ok_iff.2
    ⟨roots, hrootsAgain, Results.bind_eq_ok_iff.2 ⟨children, hchildrenAgain, heq⟩⟩

/-! ### Passes over what a pass has made -/

/-- Behind a document its own Update inputs, any number of times, change nothing. -/
theorem synthesize_withInputs {inputs added : List TypeDef}
    (hinputs : synthesize document = .ok inputs) (hadded : ∀ input ∈ added, input ∈ inputs) :
    synthesize (withInputs document added) = .ok inputs := by
  refine (finds_withInputs fun input hinput => ?_).synthesize (objectTypes_withInputs added) hinputs
  have hname : input.name ∈ (stems document).map Names.updateInput := by
    rw [← names_of_synthesize hinputs]
    exact List.mem_map_of_mem (hadded input hinput)
  obtain ⟨stem, -, hstem⟩ := List.mem_map.1 hname
  rw [← hstem]
  exact Names.isBuiltinScalar_updateInput stem

/-- The first pass adds the inputs, and so does each pass behind it. By induction on the number of
passes, of which the first leaves one more list of inputs in front of the others. -/
theorem apply_inOrder_replicate {inputs added : List TypeDef}
    (hinputs : synthesize document = .ok inputs) (hadded : ∀ input ∈ added, input ∈ inputs)
    (n : Nat) :
    (inOrder (List.replicate n pass)).apply (withInputs document added) =
      (.ok (), withInputs document (added ++ (List.replicate n inputs).flatten)) := by
  induction n generalizing added with
  | zero =>
    rw [List.replicate_zero, List.replicate_zero, List.flatten_nil, List.append_nil]
    rfl
  | succ n ih =>
    have hpass : pass.apply (withInputs document added) =
        (.ok (), withInputs document (added ++ inputs)) := by
      rw [apply_pass_eq_ok_iff, extend_eq_ok_iff]
      exact ⟨inputs, synthesize_withInputs hinputs hadded, (withInputs_withInputs _ _).symm⟩
    have hboth : ∀ input ∈ added ++ inputs, input ∈ inputs := by
      intro input hinput
      exact (List.mem_append.1 hinput).elim (hadded input) id
    rw [List.replicate_succ, List.replicate_succ, List.flatten_cons, apply_inOrder_cons, hpass]
    dsimp only
    rw [ih hboth, List.append_assoc]

/-- Where a pass succeeds, the document that it leaves has the Update inputs of the one that it
found, and each further pass succeeds and puts this list behind it once more. -/
theorem synthesize_of_extended {extended : Document}
    (h : pass.apply document = (.ok (), extended)) :
    ∃ inputs, synthesize document = .ok inputs ∧ synthesize extended = .ok inputs ∧
      ∀ n, ∃ after, (inOrder (List.replicate n pass)).apply extended = (.ok (), after) ∧
        after.definitions =
          extended.definitions ++ (List.replicate n (inputs.map Definition.input)).flatten ∧
        synthesize after = .ok inputs := by
  obtain ⟨inputs, hinputs, rfl⟩ := extend_eq_ok_iff.1 (apply_pass_eq_ok_iff.1 h)
  refine ⟨inputs, hinputs, synthesize_withInputs hinputs fun _ => id, fun n => ?_⟩
  refine ⟨_, apply_inOrder_replicate hinputs (fun _ => id) n, ?_, ?_⟩
  · simp [withInputs, List.map_flatten]
  · refine synthesize_withInputs hinputs fun input hinput => ?_
    rcases List.mem_append.1 hinput with hfirst | hagain
    · exact hfirst
    · obtain ⟨list, hlist, hmem⟩ := List.mem_flatten.1 hagain
      rwa [List.eq_of_mem_replicate hlist] at hmem

/-- A scalar has the name of the Update input of orders, and a field of orders has its type. The
input stands behind the scalar and takes nothing from it. -/
theorem synthesize_of_extended_orders :
    let document : Document :=
      { definitions :=
        [.scalar "UpdateOrderInput" [],
         .object { name := "Order", directives := [{ name := "rootEntity" }]
                   fields :=
                     [{ name := "change", type := .optional "UpdateOrderInput" },
                      { name := "total", type := .named "Int" true }] }] }
    ∃ extended inputs, pass.apply document = (.ok (), extended) ∧
      synthesize extended = .ok inputs ∧
      inputs.map (·.name) = ["UpdateOrderInput", "UpdateAllOrderInput"] ∧
      ∃ after, (inOrder [pass, pass]).apply extended = (.ok (), after) ∧
        after.definitions.map (·.name) =
          extended.definitions.map (·.name) ++ ["UpdateOrderInput", "UpdateAllOrderInput",
            "UpdateOrderInput", "UpdateAllOrderInput"] := by
  intro document
  obtain ⟨extended, hpass⟩ : ∃ extended, pass.apply document = (.ok (), extended) := ⟨_, rfl⟩
  obtain ⟨inputs, hinputs, hextended, hagain⟩ := synthesize_of_extended hpass
  obtain ⟨after, hafter, hdefinitions, -⟩ := hagain 2
  have hnames : inputs.map (·.name) = ["UpdateOrderInput", "UpdateAllOrderInput"] := by
    rw [names_of_synthesize hinputs]
    rfl
  refine ⟨extended, inputs, hpass, hextended, hnames, after, hafter, ?_⟩
  have hlist : (inputs.map Definition.input).map (·.name) = inputs.map (·.name) := by
    simp [Definition.name]
  rw [hdefinitions, List.map_append, List.map_flatten, List.map_replicate, hlist, hnames]
  rfl

end UpdateInput

end EntitySchema
