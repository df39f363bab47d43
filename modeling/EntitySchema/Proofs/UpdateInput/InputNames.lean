import EntitySchema.Proofs.UpdateInput.References
import Mathlib.Data.List.Nodup
import Mathlib.Data.List.Perm.Basic

/-! # The names of Update inputs

The input for all entities of a type is named like the input for one entity of a type with `All` in
front of its name. So a document can make two inputs of one name, and also one of a name that it
defines itself. -/
namespace EntitySchema

open Sdl

theorem Names.updateAllInput_eq (name : String) :
    updateAllInput name = updateInput ("All" ++ name) := by
  rw [updateInput, ← String.append_assoc]
  rfl

theorem Names.updateInput_injective : Function.Injective updateInput := fun _ _ h =>
  (String.append_right_inj "Update").1 ((String.append_left_inj "Input").1 h)

namespace UpdateInput

variable {document extended : Document}

/-- Nothing takes the name of an Update input: neither another one nor a definition. -/
structure NamesFree (document : Document) : Prop where
  /-- A root entity that is a child entity as well has two inputs for one entity. -/
  roles : ∀ type ∈ document.rootEntities, type ∉ document.childEntities
  /-- The input for all of one type is the input for one of another type. -/
  all : ∀ root ∈ document.rootEntities, ∀ type ∈ document.rootEntities ++ document.childEntities,
    type.name ≠ "All" ++ root.name
  inputs : ∀ definition ∈ document.definitions,
    ∀ type ∈ document.rootEntities ++ document.childEntities,
      definition.name ≠ Names.updateInput type.name
  allInputs : ∀ definition ∈ document.definitions, ∀ root ∈ document.rootEntities,
    definition.name ≠ Names.updateAllInput root.name

def stems (document : Document) : List String :=
  (document.rootEntities.flatMap fun type => [type.name, "All" ++ type.name]) ++
    document.childEntities.map (·.name)

theorem names_of_synthesize {inputs : List TypeDef} (h : synthesize document = .ok inputs) :
    inputs.map (·.name) = (stems document).map Names.updateInput := by
  obtain ⟨roots, hroots, hrest⟩ := Results.bind_eq_ok_iff.1 h
  obtain ⟨children, hchildren, heq⟩ := Results.bind_eq_ok_iff.1 hrest
  cases heq
  rw [stems, List.map_append, List.map_append]
  congr 1
  · rw [List.map_flatten, List.map_flatMap, List.flatMap_def]
    congr 1
    refine Results.map_eq_map_of_forall₂ (Results.mapM_eq_ok_iff.1 hroots) fun type pair hpair => ?_
    obtain ⟨fields, -, rfl⟩ := Results.map_eq_ok_iff.1 hpair
    simp only [List.map_cons, List.map_nil, updateOne, updateAll, Names.updateAllInput_eq]
  · rw [List.map_map]
    refine Results.map_eq_map_of_forall₂ (Results.mapM_eq_ok_iff.1 hchildren)
      fun type one hone => ?_
    obtain ⟨fields, -, rfl⟩ := Results.map_eq_ok_iff.1 hone
    rfl

theorem names_objectTypes_sublist :
    (document.objectTypes.map (·.name)).Sublist (document.definitions.map (·.name)) := by
  rw [Document.objectTypes]
  induction document.definitions with
  | nil => exact .slnil
  | cons definition rest ih =>
    cases definition with
    | object type => exact ih.cons_cons _
    | _ => exact ih.cons _

theorem mem_stems {stem : String} :
    stem ∈ stems document ↔
      (∃ type ∈ document.rootEntities ++ document.childEntities, type.name = stem) ∨
        ∃ root ∈ document.rootEntities, "All" ++ root.name = stem := by
  simp only [stems, List.mem_append, List.mem_flatMap, List.mem_cons, List.not_mem_nil, or_false,
    List.mem_map]
  constructor
  · rintro (⟨type, htype, rfl | rfl⟩ | ⟨type, htype, rfl⟩)
    · exact .inl ⟨type, .inl htype, rfl⟩
    · exact .inr ⟨type, htype, rfl⟩
    · exact .inl ⟨type, .inr htype, rfl⟩
  · rintro (⟨type, htype | htype, rfl⟩ | ⟨type, htype, rfl⟩)
    · exact .inl ⟨type, htype, .inl rfl⟩
    · exact .inr ⟨type, htype, rfl⟩
    · exact .inl ⟨type, htype, .inr rfl⟩

/-- The inputs have distinct names unless a type has both roles or a name that starts with `All`
names the inputs for all of another type. -/
theorem nodup_stems_iff (hdistinct : (document.objectTypes.map (·.name)).Nodup) :
    (stems document).Nodup ↔ (∀ type ∈ document.rootEntities, type ∉ document.childEntities) ∧
      ∀ root ∈ document.rootEntities, ∀ type ∈ document.rootEntities ++ document.childEntities,
        type.name ≠ "All" ++ root.name := by
  have hroots : (document.rootEntities.map (·.name)).Nodup :=
    hdistinct.sublist (List.filter_sublist.map _)
  have hchildren : (document.childEntities.map (·.name)).Nodup :=
    hdistinct.sublist (List.filter_sublist.map _)
  have halls : (document.rootEntities.map ("All" ++ ·.name)).Nodup := by
    have hmap : document.rootEntities.map ("All" ++ ·.name) =
        (document.rootEntities.map (·.name)).map ("All" ++ ·) := by
      rw [List.map_map]
      rfl
    rw [hmap]
    exact List.Nodup.map (fun _ _ h => (String.append_right_inj "All").1 h) hroots
  have hperm : (stems document).Perm
      (document.rootEntities.map ("All" ++ ·.name) ++
        (document.rootEntities.map (·.name) ++ document.childEntities.map (·.name))) := by
    have hsplit : (document.rootEntities.flatMap fun type => [type.name, "All" ++ type.name]).Perm
        (document.rootEntities.map (·.name) ++ document.rootEntities.map ("All" ++ ·.name)) := by
      rw [List.map_eq_flatMap, List.map_eq_flatMap]
      exact (List.flatMap_append_perm document.rootEntities (fun type => [type.name])
        fun type => ["All" ++ type.name]).symm
    rw [stems, ← List.append_assoc]
    exact (hsplit.trans List.perm_append_comm).append_right _
  rw [hperm.nodup_iff, List.nodup_append', List.nodup_append']
  constructor
  · rintro ⟨-, ⟨-, -, hroles⟩, hall⟩
    refine ⟨fun type hroot hchild => ?_, fun root hroot type htype hname => ?_⟩
    · exact hroles (List.mem_map_of_mem hroot) (List.mem_map_of_mem hchild)
    · refine hall (List.mem_map_of_mem hroot) ?_
      rw [← List.map_append, ← hname]
      exact List.mem_map_of_mem htype
  · rintro ⟨hroles, hall⟩
    refine ⟨halls, ⟨hroots, hchildren, fun name hr hc => ?_⟩, fun name hr ht => ?_⟩
    · obtain ⟨type, hroot, rfl⟩ := List.mem_map.1 hr
      obtain ⟨other, hchild, hname⟩ := List.mem_map.1 hc
      have hsame : other = type := List.inj_on_of_nodup_map hdistinct
        (List.mem_of_mem_filter hchild) (List.mem_of_mem_filter hroot) hname
      exact hroles type hroot (hsame ▸ hchild)
    · obtain ⟨root, hroot, rfl⟩ := List.mem_map.1 hr
      rw [← List.map_append] at ht
      obtain ⟨type, htype, hname⟩ := List.mem_map.1 ht
      exact hall root hroot type htype hname

/-- Update inputs keep the names of a document distinct exactly if the document leaves their names
free. -/
theorem nodup_names_extend_iff (hdistinct : (document.definitions.map (·.name)).Nodup)
    (h : extend document = .ok extended) :
    (extended.definitions.map (·.name)).Nodup ↔ NamesFree document := by
  obtain ⟨inputs, hinputs, rfl⟩ := extend_eq_ok_iff.1 h
  have hnames : (inputs.map Definition.input).map (·.name) =
      (stems document).map Names.updateInput := by
    rw [← names_of_synthesize hinputs, List.map_map]
    rfl
  have hstems := nodup_stems_iff (hdistinct.sublist names_objectTypes_sublist)
  rw [List.map_append, hnames, List.nodup_append',
    List.nodup_map_iff Names.updateInput_injective, hstems]
  constructor
  · rintro ⟨-, ⟨hroles, hall⟩, hfree⟩
    have hapart : ∀ definition ∈ document.definitions, ∀ stem ∈ stems document,
        definition.name ≠ Names.updateInput stem := fun definition hdefinition stem hstem hname =>
      hfree (List.mem_map_of_mem hdefinition) (hname ▸ List.mem_map_of_mem hstem)
    refine ⟨hroles, hall, fun definition hdefinition type htype => ?_,
      fun definition hdefinition root hroot => ?_⟩
    · exact hapart definition hdefinition _ (mem_stems.2 (.inl ⟨type, htype, rfl⟩))
    · rw [Names.updateAllInput_eq]
      exact hapart definition hdefinition _ (mem_stems.2 (.inr ⟨root, hroot, rfl⟩))
  · intro hfree
    refine ⟨hdistinct, ⟨hfree.roles, hfree.all⟩, fun name hdefined hmade => ?_⟩
    obtain ⟨definition, hdefinition, rfl⟩ := List.mem_map.1 hdefined
    obtain ⟨stem, hstem, hname⟩ := List.mem_map.1 hmade
    rcases mem_stems.1 hstem with ⟨type, htype, rfl⟩ | ⟨root, hroot, rfl⟩
    · exact hfree.inputs definition hdefinition type htype hname.symm
    · rw [← Names.updateAllInput_eq] at hname
      exact hfree.allInputs definition hdefinition root hroot hname.symm

/-- An order and its items, next to an input that is named like none of theirs. -/
theorem names_of_orders_free :
    let document : Document :=
      { definitions :=
        [.object
          { name := "Order", directives := [{ name := "rootEntity" }]
            fields :=
              [{ name := "number", type := .named "String" true },
               { name := "items", type := .list (.named "Item" true) true }] },
         .object
          { name := "Item", directives := [{ name := "childEntity" }]
            fields := [{ name := "text", type := .optional "String" }] },
         .input
          { name := "UpdateOrders", fields := [{ name := "all", type := .optional "Boolean" }] }] }
    ∃ extended, (document.definitions.map (·.name)).Nodup ∧ extend document = .ok extended ∧
      extended.definitions.map (·.name) =
        ["Order", "Item", "UpdateOrders", "UpdateOrderInput", "UpdateAllOrderInput",
          "UpdateItemInput"] ∧
      NamesFree document := by
  intro document
  obtain ⟨extended, hdistinct, hextended, hnames⟩ : ∃ extended,
      (document.definitions.map (·.name)).Nodup ∧ extend document = .ok extended ∧
        extended.definitions.map (·.name) =
          ["Order", "Item", "UpdateOrders", "UpdateOrderInput", "UpdateAllOrderInput",
            "UpdateItemInput"] :=
    ⟨_, by decide, rfl, by decide⟩
  refine ⟨extended, hdistinct, hextended, hnames, ?_⟩
  apply (nodup_names_extend_iff hdistinct hextended).1
  rw [hnames]
  decide

/-- The input for all orders is named like the input for one `AllOrder`. -/
theorem order_and_all_order_share_an_input :
    let document : Document :=
      { definitions :=
        [.object
          { name := "Order", directives := [{ name := "rootEntity" }]
            fields := [{ name := "number", type := .optional "String" }] },
         .object
          { name := "AllOrder", directives := [{ name := "rootEntity" }]
            fields := [{ name := "number", type := .optional "String" }] }] }
    ∃ extended, (document.definitions.map (·.name)).Nodup ∧ extend document = .ok extended ∧
      ¬ (extended.definitions.map (·.name)).Nodup :=
  ⟨_, by decide, rfl, by decide⟩

end UpdateInput

end EntitySchema
