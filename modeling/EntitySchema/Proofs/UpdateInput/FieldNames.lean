import EntitySchema.Proofs.UpdateInput.References
import Mathlib.Data.List.Nodup
import Mathlib.Data.List.Pairwise

/-! # The names of the fields of Update inputs

A declared field becomes an input field of its own name, or input fields with a verb in front of it,
or both. No verb begins another one, so two fields give rise to one name in two cases only: one is
named like the other with a verb in front, or the same verb stands in front of two names that differ
in how their first letter is written. -/
namespace EntitySchema

open Sdl

/-! ### Capitals -/

theorem Text.upperCase_ne_nil (c : Char) : upperCase c ≠ [] := by
  have hsequences : ∀ entry ∈ upperSequences, entry.2 ≠ [] := by decide
  rw [upperCase]
  split
  · exact List.cons_ne_nil _ _
  · rw [mapCase]
    split
    · rename_i _ codes hfound
      have hcodes : codes ≠ [] := hsequences _ (List.mem_of_find?_eq_some hfound)
      simpa using hcodes
    · split <;> exact List.cons_ne_nil _ _

theorem Names.length_le_capitalize (name : String) : name.length ≤ (capitalize name).length := by
  rw [← String.length_toList, ← String.length_toList, capitalize]
  cases name.toList with
  | nil => exact Nat.zero_le _
  | cons c rest =>
    have hupper := List.length_pos_iff.2 (Text.upperCase_ne_nil c)
    simp only [String.toList_ofList, List.length_append, List.length_cons]
    omega

namespace UpdateInput

variable {document : Document}

/-! ### Verbs -/

def verbs : List String := ["add", "update", "remove"] ++ CalcOperator.all.map (·.verb)

theorem verb_mem_verbs (operator : CalcOperator) : operator.verb ∈ verbs := by
  cases operator <;> decide

/-- No verb begins another one. -/
theorem verb_eq_of_append {verb verb' a b : String} (hverb : verb ∈ verbs) (hverb' : verb' ∈ verbs)
    (h : verb ++ a = verb' ++ b) : verb = verb' := by
  have hfree : ∀ verb ∈ verbs, ∀ verb' ∈ verbs, verb.toList <+: verb'.toList → verb = verb' := by
    decide
  have hlist := congrArg String.toList h
  rw [String.toList_append, String.toList_append] at hlist
  have hfirst : verb.toList <+: verb.toList ++ a.toList := List.prefix_append _ _
  have hsecond : verb'.toList <+: verb.toList ++ a.toList := hlist ▸ List.prefix_append _ _
  rcases List.prefix_or_prefix_of_prefix hfirst hsecond with hle | hge
  · exact hfree verb hverb verb' hverb' hle
  · exact (hfree verb' hverb' verb hverb hge).symm

/-- A verb with something behind it is longer than that. -/
theorem ne_verb_append_capitalize {verb : String} (hverb : verb ∈ verbs) (name : String) :
    name ≠ verb ++ Names.capitalize name := by
  have hlong : ∀ verb ∈ verbs, 0 < verb.length := by decide
  intro h
  have hlength := congrArg String.length h
  rw [String.length_append] at hlength
  have := hlong verb hverb
  have := Names.length_le_capitalize name
  omega

theorem verb_append_ne_id {verb : String} (hverb : verb ∈ verbs) (a : String) :
    verb ++ a ≠ Names.idField := by
  have hfree : ∀ verb ∈ verbs, ¬ verb.toList <+: Names.idField.toList := by decide
  intro h
  refine hfree verb hverb ?_
  rw [← h, String.toList_append]
  exact List.prefix_append _ _

/-! ### The names that one field gives rise to -/

def operators (field : FieldDef) : List CalcOperator :=
  (operatorValues field).filterMap fun value => (operator value).toOption

/-- In which ways the name of a field is used: with each of some verbs in front, or by itself. -/
def ways (document : Document) (field : FieldDef) : List (Option String) :=
  match field.type with
  | .named _ _ => none :: (operators field).map fun operator => some operator.verb
  | .list (.named name _) _ =>
    match resolve document name with
    | .ok (.object type) =>
      if Directive.present field.directives Directive.relation then [some "add", some "remove"]
      else if type.isChildEntity then [some "add", some "update", some "remove"]
      else [none]
    | _ => [none]
  | .list (.list _ _) _ => []

def nameIn (field : FieldDef) : Option String → String
  | none => field.name
  | some verb => verb ++ Names.capitalize field.name

variable {field other : FieldDef}

theorem operators_of_mapM {listed : List CalcOperator}
    (h : (operatorValues field).mapM operator = .ok listed) : operators field = listed := by
  have hread := Results.mapM_eq_ok_iff.1 h
  rw [operators]
  generalize operatorValues field = values at hread ⊢
  clear h
  induction hread with
  | nil => rfl
  | cons hfirst _ ih => rw [List.filterMap_cons_some (by rw [hfirst]; rfl), ih]

theorem names_of_fieldInputs {inputs : List FieldDef}
    (h : fieldInputs document field = .ok inputs) :
    inputs.map (·.name) = (ways document field).map (nameIn field) := by
  cases htype : field.type with
  | named name required =>
    simp only [fieldInputs, htype] at h
    obtain ⟨target, -, htyped⟩ := Results.bind_eq_ok_iff.1 h
    obtain ⟨typeName, -, hcalc⟩ := Results.bind_eq_ok_iff.1 htyped
    obtain ⟨listed, hlisted, heq⟩ := Results.bind_eq_ok_iff.1 hcalc
    cases heq
    simp only [ways, htype, operators_of_mapM hlisted, List.map_cons, List.map_map]
    rfl
  | list item required =>
    cases item with
    | list item required => simp [fieldInputs, htype] at h
    | named name required =>
      simp only [fieldInputs, htype] at h
      obtain ⟨target, htarget, hmade⟩ := Results.bind_eq_ok_iff.1 h
      simp only [ways, htype, htarget]
      cases target with
      | leaf =>
        cases hmade
        rfl
      | object type =>
        dsimp only at hmade ⊢
        split_ifs at hmade ⊢
        all_goals
          cases hmade
          rfl

theorem mem_verbs_of_ways {verb : String} (h : some verb ∈ ways document field) : verb ∈ verbs := by
  rw [ways] at h
  split at h
  · simp only [List.mem_cons, reduceCtorEq, List.mem_map, Option.some.injEq, false_or] at h
    obtain ⟨operator, -, rfl⟩ := h
    exact verb_mem_verbs operator
  · split at h
    · split_ifs at h
      · simp only [List.mem_cons, Option.some.injEq, List.not_mem_nil, or_false] at h
        rcases h with rfl | rfl <;> decide
      · simp only [List.mem_cons, Option.some.injEq, List.not_mem_nil, or_false] at h
        rcases h with rfl | rfl | rfl <;> decide
      · simp at h
    · simp at h
  · cases h

theorem nodup_ways (hoperators : (operators field).Nodup) : (ways document field).Nodup := by
  have hverb : Function.Injective fun operator : CalcOperator => some operator.verb := by
    intro a b
    cases a <;> cases b <;> decide
  rw [ways]
  split
  · refine List.nodup_cons.2 ⟨by simp, hoperators.map hverb⟩
  · split
    · split_ifs <;> decide
    · decide
  · exact List.nodup_nil

theorem nodup_names_in_ways (hoperators : (operators field).Nodup) :
    ((ways document field).map (nameIn field)).Nodup := by
  refine (nodup_ways hoperators).map_on fun a ha b hb hname => ?_
  cases a with
  | none =>
    cases b with
    | none => rfl
    | some verb => exact absurd hname (ne_verb_append_capitalize (mem_verbs_of_ways hb) field.name)
  | some verb =>
    cases b with
    | none =>
      exact absurd hname.symm (ne_verb_append_capitalize (mem_verbs_of_ways ha) field.name)
    | some verb' =>
      rw [verb_eq_of_append (mem_verbs_of_ways ha) (mem_verbs_of_ways hb) hname]

/-! ### Two fields of one type -/

/-- A verb in front of the first field makes the name of the second one, or the name that the same
verb in front of the second one makes. -/
def Clash (document : Document) (field other : FieldDef) : Prop :=
  ∃ verb, some verb ∈ ways document field ∧
    (none ∈ ways document other ∧ other.name = verb ++ Names.capitalize field.name ∨
      some verb ∈ ways document other ∧
        Names.capitalize field.name = Names.capitalize other.name)

theorem disjoint_names_iff (hne : field.name ≠ other.name) :
    ((ways document field).map (nameIn field)).Disjoint ((ways document other).map (nameIn other)) ↔
      ¬ Clash document field other ∧ ¬ Clash document other field := by
  constructor
  · intro hdisjoint
    have hapart : ∀ a ∈ ways document field, ∀ b ∈ ways document other,
        nameIn field a ≠ nameIn other b := fun a ha b hb hname =>
      hdisjoint (List.mem_map_of_mem ha) (hname ▸ List.mem_map_of_mem hb)
    constructor
    · rintro ⟨verb, hverb, ⟨hown, hname⟩ | ⟨hverb', hname⟩⟩
      · exact hapart _ hverb _ hown hname.symm
      · exact hapart _ hverb _ hverb' (congrArg (verb ++ ·) hname)
    · rintro ⟨verb, hverb, ⟨hown, hname⟩ | ⟨hverb', hname⟩⟩
      · exact hapart _ hown _ hverb hname
      · exact hapart _ hverb' _ hverb (congrArg (verb ++ ·) hname.symm)
  · rintro ⟨hclash, hclash'⟩ name hfield hother
    obtain ⟨a, ha, rfl⟩ := List.mem_map.1 hfield
    obtain ⟨b, hb, hname⟩ := List.mem_map.1 hother
    cases a with
    | none =>
      cases b with
      | none => exact hne hname.symm
      | some verb => exact hclash' ⟨verb, hb, .inl ⟨ha, hname.symm⟩⟩
    | some verb =>
      cases b with
      | none => exact hclash ⟨verb, ha, .inl ⟨hb, hname⟩⟩
      | some verb' =>
        obtain rfl := verb_eq_of_append (mem_verbs_of_ways hb) (mem_verbs_of_ways ha) hname
        exact hclash ⟨verb', ha, .inr ⟨hb, ((String.append_right_inj verb').1 hname).symm⟩⟩

def changeable (type : TypeDef) : List FieldDef := type.fields.filter (!isSystemField ·.name)

theorem names_of_typeInputs {type : TypeDef} {inputs : List FieldDef}
    (h : typeInputs document type = .ok inputs) :
    inputs.map (·.name) =
      (changeable type).flatMap fun field => (ways document field).map (nameIn field) := by
  obtain ⟨blocks, hblocks, heq⟩ := Results.bind_eq_ok_iff.1 h
  cases heq
  rw [List.map_flatten, List.flatMap_def]
  congr 1
  refine Results.map_eq_map_of_forall₂ (Results.mapM_eq_ok_iff.1 hblocks)
    fun field block hblock => ?_
  exact names_of_fieldInputs (Results.mapError_eq_ok_iff.1 hblock)

/-- The names of the input fields of a type are distinct exactly if no two of its fields clash. -/
theorem nodup_names_typeInputs_iff {type : TypeDef} (hdistinct : (type.fields.map (·.name)).Nodup)
    (hoperators : ∀ field ∈ type.fields, (operators field).Nodup) {inputs : List FieldDef}
    (h : typeInputs document type = .ok inputs) :
    (inputs.map (·.name)).Nodup ↔ ∀ field ∈ changeable type, ∀ other ∈ changeable type,
      field.name ≠ other.name → ¬ Clash document field other := by
  have hown : ((changeable type).map (·.name)).Nodup :=
    hdistinct.sublist (List.filter_sublist.map _)
  rw [names_of_typeInputs h, List.nodup_flatMap]
  constructor
  · rintro ⟨-, hapart⟩ field hfield other hother hne
    have : Std.Symm (Function.onFun List.Disjoint
        fun field => (ways document field).map (nameIn field)) :=
      ⟨fun _ _ h _ hfirst hsecond => h hsecond hfirst⟩
    have hdisjoint := hapart.forall hfield hother fun heq => hne (congrArg FieldDef.name heq)
    exact ((disjoint_names_iff hne).1 hdisjoint).1
  · intro hapart
    refine ⟨fun field hfield => nodup_names_in_ways
      (hoperators field (List.mem_of_mem_filter hfield)), ?_⟩
    refine (List.pairwise_map.1 hown).imp_of_mem fun {field other} hfield hother hne => ?_
    exact (disjoint_names_iff hne).2
      ⟨hapart field hfield other hother hne, hapart other hother field hfield hne.symm⟩

/-- The identifier is no name that a changeable field gives rise to. -/
theorem id_not_mem_names {type : TypeDef} {inputs : List FieldDef}
    (h : typeInputs document type = .ok inputs) : Names.idField ∉ inputs.map (·.name) := by
  rw [names_of_typeInputs h]
  intro hid
  obtain ⟨field, hfield, hname⟩ := List.mem_flatMap.1 hid
  obtain ⟨way, hway, hname⟩ := List.mem_map.1 hname
  cases way with
  | none =>
    have hchangeable := List.of_mem_filter hfield
    rw [nameIn] at hname
    simp [hname, isSystemField] at hchangeable
  | some verb => exact verb_append_ne_id (mem_verbs_of_ways hway) _ hname

/-- The fields of all Update inputs have distinct names exactly if no two changeable fields of an
entity clash. -/
theorem nodup_names_fields_iff {inputs : List TypeDef}
    (hdistinct : ∀ type ∈ document.objectTypes, (type.fields.map (·.name)).Nodup)
    (hoperators : ∀ type ∈ document.objectTypes, ∀ field ∈ type.fields, (operators field).Nodup)
    (h : synthesize document = .ok inputs) :
    (∀ input ∈ inputs, (input.fields.map (·.name)).Nodup) ↔
      ∀ type ∈ document.rootEntities ++ document.childEntities,
        ∀ field ∈ changeable type, ∀ other ∈ changeable type, field.name ≠ other.name →
          ¬ Clash document field other := by
  have hone : ∀ {type : TypeDef} {fields : List FieldDef}, typeInputs document type = .ok fields →
      (((updateOne type fields).fields.map (·.name)).Nodup ↔ (fields.map (·.name)).Nodup) := by
    intro type fields hfields
    rw [updateOne, List.map_cons, List.nodup_cons]
    exact and_iff_right (id_not_mem_names hfields)
  constructor
  · intro hnodup type htype
    have hobject : type ∈ document.objectTypes ∧
        (type.isRootEntity = true ∨ type.isChildEntity = true) := by
      rcases List.mem_append.1 htype with hroot | hchild
      · exact ⟨List.mem_of_mem_filter hroot, .inl (List.of_mem_filter hroot)⟩
      · exact ⟨List.mem_of_mem_filter hchild, .inr (List.of_mem_filter hchild)⟩
    obtain ⟨hmem, hrole⟩ := hobject
    obtain ⟨fields, hfields⟩ := exists_typeInputs h hmem hrole
    have hinput : updateOne type fields ∈ inputs := by
      refine (mem_synthesize_iff h).2 ⟨type, hmem, fields, hfields, ?_⟩
      exact hrole.imp (fun hroot => ⟨hroot, .inl rfl⟩) fun hchild => ⟨hchild, rfl⟩
    exact (nodup_names_typeInputs_iff (hdistinct type hmem) (hoperators type hmem) hfields).1
      ((hone hfields).1 (hnodup _ hinput))
  · intro hapart input hinput
    obtain ⟨type, hmem, fields, hfields, hmade⟩ := (mem_synthesize_iff h).1 hinput
    have htype : type ∈ document.rootEntities ++ document.childEntities := by
      rcases hmade with ⟨hroot, -⟩ | ⟨hchild, -⟩
      · exact List.mem_append_left _ (List.mem_filter.2 ⟨hmem, hroot⟩)
      · exact List.mem_append_right _ (List.mem_filter.2 ⟨hmem, hchild⟩)
    have hnames := (nodup_names_typeInputs_iff (hdistinct type hmem) (hoperators type hmem)
      hfields).2 (hapart type htype)
    rcases hmade with ⟨-, rfl | rfl⟩ | ⟨-, rfl⟩
    · exact (hone hfields).2 hnames
    · exact hnames
    · exact (hone hfields).2 hnames

/-- A quantity that can be added to and multiplied, and items that can be added, in one order. -/
theorem names_of_quantity_and_items_apart :
    let quantity : FieldDef :=
      { name := "quantity", type := .optional "Int"
        directives :=
        [{ name := "calcMutations",
           arguments := [("operators", .list [.enumeration "ADD", .string "MULTIPLY"])] }] }
    let items : FieldDef := { name := "items", type := .listOf "Item" }
    let document : Document :=
      { definitions :=
        [.object { name := "Order", directives := [{ name := "rootEntity" }],
                   fields := [quantity, items] },
         .object { name := "Item", directives := [{ name := "childEntity" }],
                   fields := [{ name := "text", type := .optional "String" }] }] }
    ∃ inputs, synthesize document = .ok inputs ∧
      inputs.map (·.fields.map (·.name)) =
        [["id", "quantity", "addQuantity", "multiplyWithQuantity", "addItems", "updateItems",
            "removeItems"],
          ["quantity", "addQuantity", "multiplyWithQuantity", "addItems", "updateItems",
            "removeItems"],
          ["id", "text"]] ∧
      ¬ Clash document quantity items ∧ ¬ Clash document items quantity := by
  intro quantity items document
  obtain ⟨inputs, hinputs, hnames⟩ : ∃ inputs, synthesize document = .ok inputs ∧
      inputs.map (·.fields.map (·.name)) =
        [["id", "quantity", "addQuantity", "multiplyWithQuantity", "addItems", "updateItems",
            "removeItems"],
          ["quantity", "addQuantity", "multiplyWithQuantity", "addItems", "updateItems",
            "removeItems"],
          ["id", "text"]] :=
    ⟨_, rfl, by decide⟩
  have hall : ∀ names ∈ inputs.map (·.fields.map (·.name)), names.Nodup := by
    rw [hnames]
    decide
  have hapart := (nodup_names_fields_iff (by decide) (by decide) hinputs).1 fun input hinput =>
    hall _ (List.mem_map_of_mem hinput)
  have hquantity : quantity ∈ [quantity, items] := List.mem_cons_self
  have hitems : items ∈ [quantity, items] := List.mem_cons_of_mem _ List.mem_cons_self
  have horder := hapart _ List.mem_cons_self
  exact ⟨inputs, hinputs, hnames, horder quantity hquantity items hitems (by decide),
    horder items hitems quantity hquantity (by decide)⟩

/-- Adding to the quantity of an order is named like the field that it has for it. -/
theorem quantity_clashes_with_add_quantity :
    let document : Document :=
      { definitions :=
        [.object
          { name := "Order", directives := [{ name := "rootEntity" }]
            fields :=
              [{ name := "quantity", type := .optional "Int"
                 directives := [{ name := "calcMutations",
                                  arguments := [("operators", .list [.enumeration "ADD"])] }] },
               { name := "addQuantity", type := .optional "Int" }] }] }
    (∀ type ∈ document.objectTypes, (type.fields.map (·.name)).Nodup) ∧
      (∀ type ∈ document.objectTypes, ∀ field ∈ type.fields, (operators field).Nodup) ∧
      ∃ inputs, synthesize document = .ok inputs ∧
        ∃ input ∈ inputs, ¬ (input.fields.map (·.name)).Nodup :=
  ⟨by decide, by decide, _, rfl, _, List.mem_cons_self, by decide⟩

end UpdateInput

end EntitySchema
