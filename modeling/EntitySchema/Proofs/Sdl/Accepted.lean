import EntitySchema.Proofs.Entries
import EntitySchema.Proofs.Sdl.WellFormed
import EntitySchema.Proofs.Text.Scanner
import EntitySchema.Sdl.Grammar

/-! # What the grammar accepts is well formed

Every rule of the grammar yields well-formed parts, whatever the text is. -/
namespace EntitySchema

theorem Text.dropLiteral?_append {literal text left : List Char}
    (h : dropLiteral? literal text = some left) (more : List Char) :
    dropLiteral? literal (text ++ more) = some (left ++ more) := by
  induction literal generalizing text with
  | nil =>
    cases h
    rfl
  | cons c literal ih =>
    cases text with
    | nil => cases h
    | cons d text =>
      rw [dropLiteral?] at h
      split at h
      · rename_i heq
        rw [List.cons_append, dropLiteral?, if_pos heq]
        exact ih h
      · cases h

theorem Entries.forall_mem_collect {α : Type} {P : String × α → Prop} {pairs : List (String × α)}
    (h : ∀ pair ∈ pairs, P pair) : ∀ entry ∈ collect pairs, P entry :=
  fun entry hentry => h entry (mem_collect hentry)

namespace Sdl.Rule

open Text Text.Scanner

/-! ### Tokens -/

theorem name_split {text rest : List Char} {name : String} (h : nameHere text = some (name, rest)) :
    IsName name ∧ text = name.toList ++ rest := by
  cases text with
  | nil => cases h
  | cons c tail =>
    rw [nameHere] at h
    split at h
    · rename_i hstart
      cases h
      rw [String.toList_ofList, List.cons_append, List.takeWhile_append_dropWhile]
      refine ⟨⟨c, _, String.toList_ofList, hstart, ?_⟩, rfl⟩
      intro d hd
      exact List.all_eq_true.1 List.all_takeWhile d hd
    · cases h

theorem yields_name : Yields name IsName :=
  Yields.andThen fun _ _ _ _ h => (name_split h).1

theorem yields_enumValue : Yields enumValue IsEnumValue := by
  refine Yields.andThen fun _ text name rest h => ?_
  split at h
  · cases h
  · rename_i hreserved
    obtain ⟨hname, rfl⟩ := name_split h
    refine ⟨hname, fun word hword => ?_⟩
    cases hdrop : dropLiteral? word.toList name.toList with
    | none => rfl
    | some left =>
      refine absurd (List.any_eq_true.2 ⟨word, hword, ?_⟩) hreserved
      rw [startsWith, dropLiteral?_append hdrop]
      rfl

/-- Integers keep the bounds within which a number text stands for one. -/
theorem wellFormed_of_value? {numeral : Json.Numeral} {number : JsonNumber}
    (h : numeral.value? = some number) : (Value.number number).WellFormed := by
  rw [Json.Numeral.value?] at h
  split at h
  · rename_i hunsigned
    cases h
    simp only [Bool.and_eq_true, decide_eq_true_eq] at hunsigned
    constructor
    · have : (0 : Int) ≤ (Nat.pow 2 63 : Nat) := Int.natCast_nonneg _
      have : (0 : Int) ≤ (natOfDigits numeral.whole : Nat) := Int.natCast_nonneg _
      omega
    · exact Int.ofNat_lt.2 hunsigned.2
  · split at h
    · rename_i hsigned
      cases h
      simp only [Bool.and_eq_true, decide_eq_true_eq] at hsigned
      constructor
      · have := Int.ofNat_le.2 hsigned.2
        omega
      · have : (0 : Int) < (Nat.pow 2 64 : Nat) := by decide
        have : (0 : Int) ≤ (natOfDigits numeral.whole : Nat) := Int.natCast_nonneg _
        omega
    · obtain ⟨value, -, rfl⟩ := Option.map_eq_some_iff.1 h
      trivial

theorem yields_number : Yields number fun n => (Value.number n).WellFormed := by
  refine Yields.andThen fun _ text n rest h => ?_
  simp only [numberHere, Option.bind_eq_bind, Option.bind_eq_some_iff] at h
  obtain ⟨⟨whole, afterWhole⟩, -, h⟩ := h
  dsimp only at h
  split at h
  · cases h
  · obtain ⟨value, hvalue, hresult⟩ := Option.bind_eq_some_iff.1 h
    cases hresult
    exact wellFormed_of_value? hvalue

theorem wellFormed_of_typeWithin {fuel : Nat} {text rest : List Char} {type : TypeExpr}
    (h : typeWithin fuel text = some (type, rest)) : type.WellFormed := by
  induction fuel generalizing text rest type with
  | zero => cases h
  | succ fuel ih =>
    unfold typeWithin at h
    split at h
    · cases h
    · split at h
      · rename_i hfuel _ item after hitem
        cases hfuel
        obtain ⟨rfl, -⟩ := Prod.mk.inj (Option.some.inj h)
        have hwell : item.WellFormed := ih hitem
        exact hwell
      · cases h
    · obtain ⟨⟨name, after⟩, hname, heq⟩ := Option.map_eq_some_iff.1 h
      cases heq
      exact (name_split hname).1

theorem yields_typeExpr : Yields typeExpr TypeExpr.WellFormed :=
  Yields.andThen fun _ _ _ _ h => wellFormed_of_typeWithin h

theorem yields_bracketed {α : Type} {opening closing : String} {rule : Rule α} {P : α → Prop}
    (h : Yields rule P) : Yields (bracketed opening closing rule) P :=
  Yields.andThen fun _ => Yields.bind h fun _ ha => Yields.andThen fun _ => Yields.pure ha

/-! ### Values and directives -/

theorem yields_valueWithin (fuel : Nat) : Yields (valueWithin fuel) Value.WellFormed := by
  induction fuel with
  | zero => exact Yields.failure
  | succ fuel ih =>
    refine .orElse (yields_number.map fun _ h => h) (.orElse ?_ (.orElse ?_ (.orElse ?_
      (.orElse ?_ (.orElse ?_ (.orElse ?_ ?_))))))
    · exact Yields.map (Yields.of_forall fun _ => trivial) fun _ _ => trivial
    · exact Yields.andThen fun _ => Yields.pure trivial
    · exact Yields.andThen fun _ => Yields.pure trivial
    · exact Yields.andThen fun _ => Yields.pure trivial
    · exact yields_enumValue.map fun _ h => h
    · refine Yields.map (yields_bracketed (Yields.many ih)) fun items h => ?_
      exact Value.wellFormedItems_iff.2 h
    · have hmember : Yields (do
          let key ← name
          lit ":"
          return (key, ← valueWithin fuel)) fun member : String × Value =>
            IsName member.1 ∧ member.2.WellFormed := by
        refine Yields.bind yields_name fun key hkey => Yields.andThen fun _ => ?_
        exact Yields.bind ih fun value hvalue => Yields.pure ⟨hkey, hvalue⟩
      refine Yields.bind (yields_bracketed (Yields.many hmember)) fun members h => Yields.pure ?_
      exact ⟨Entries.nodup_collect members,
        Value.wellFormedMembers_iff.2 (Entries.forall_mem_collect h)⟩

theorem yields_value : Yields value Value.WellFormed :=
  fun text => yields_valueWithin (text.length + 1) text

theorem yields_directive : Yields directive Directive.WellFormed := by
  refine Yields.andThen fun _ => Yields.bind yields_name fun name hname => ?_
  have hargument : Yields (do
      let key ← Rule.name
      lit ":"
      return (key, ← value)) fun argument : String × Value =>
        IsName argument.1 ∧ argument.2.WellFormed := by
    refine Yields.bind yields_name fun key hkey => Yields.andThen fun _ => ?_
    exact Yields.bind yields_value fun value hvalue => Yields.pure ⟨hkey, hvalue⟩
  refine Yields.bind (Yields.orNone (yields_bracketed (Yields.many1 hargument)))
    fun arguments harguments => Yields.pure ?_
  exact ⟨hname, harguments⟩

theorem yields_directives :
    Yields directives fun directives => ∀ directive ∈ directives, directive.WellFormed :=
  Yields.many1 yields_directive

theorem yields_directivesOrNone :
    Yields (orNone directives) fun directives => ∀ directive ∈ directives, directive.WellFormed :=
  Yields.orNone yields_directives

/-! ### Members -/

theorem yields_inputValue : Yields inputValue FieldDef.WellFormed := by
  refine Yields.andThen fun _ => Yields.bind yields_name fun name hname => ?_
  refine Yields.andThen fun _ => Yields.bind yields_typeExpr fun type htype => ?_
  refine Yields.andThen fun _ => Yields.bind yields_directivesOrNone fun found hfound => ?_
  exact Yields.pure ⟨hname, htype, hfound⟩

theorem yields_field : Yields field FieldDef.WellFormed := by
  refine Yields.andThen fun _ => Yields.bind yields_name fun name hname => ?_
  refine Yields.andThen fun _ => Yields.andThen fun _ => ?_
  refine Yields.bind yields_typeExpr fun type htype => ?_
  refine Yields.bind yields_directivesOrNone fun found hfound => ?_
  exact Yields.pure ⟨hname, htype, hfound⟩

theorem yields_fields : Yields fields fun fields => ∀ field ∈ fields, field.WellFormed :=
  yields_bracketed (Yields.many1 yields_field)

theorem yields_inputFields : Yields inputFields fun fields => ∀ field ∈ fields, field.WellFormed :=
  yields_bracketed (Yields.many1 yields_inputValue)

theorem yields_enumValues :
    Yields enumValues fun values => ∀ value ∈ values, IsEnumValue value := by
  refine yields_bracketed (Yields.many1 ?_)
  refine Yields.andThen fun _ => Yields.bind yields_enumValue fun value hvalue => ?_
  exact Yields.andThen fun _ => Yields.pure hvalue

/-! ### Definitions -/

theorem yields_head (keyword : String) : Yields (head keyword) IsName :=
  Yields.andThen fun _ => Yields.andThen fun _ => yields_name

theorem yields_extensionHead (keyword : String) : Yields (extensionHead keyword) IsName :=
  Yields.andThen fun _ => Yields.andThen fun _ => yields_name

theorem yields_addition {α : Type} {members : Rule (List α)} {P : α → Prop}
    (h : Yields members fun as => ∀ a ∈ as, P a) :
    Yields (addition members) fun added =>
      (∀ directive ∈ added.1, directive.WellFormed) ∧ ∀ a ∈ added.2, P a := by
  refine .orElse ?_ ?_
  · refine Yields.bind yields_directivesOrNone fun directives hdirectives => ?_
    exact Yields.bind h fun members hmembers => Yields.pure ⟨hdirectives, hmembers⟩
  · refine Yields.bind yields_directives fun directives hdirectives => Yields.pure ?_
    exact ⟨hdirectives, fun a ha => absurd ha List.not_mem_nil⟩

theorem yields_scalarDefinition : Yields scalarDefinition Definition.WellFormed := by
  refine .orElse ?_ ?_
  · refine Yields.bind (yields_head _) fun name hname => ?_
    exact Yields.bind yields_directivesOrNone fun found hfound => Yields.pure ⟨hname, hfound⟩
  · refine Yields.bind (yields_extensionHead _) fun name hname => ?_
    exact Yields.bind yields_directives fun found hfound => Yields.pure ⟨hname, hfound⟩

theorem yields_objectDefinition : Yields objectDefinition Definition.WellFormed := by
  refine .orElse ?_ ?_
  · refine Yields.bind (yields_head _) fun name hname => Yields.andThen fun _ => ?_
    refine Yields.bind yields_directivesOrNone fun directives hdirectives => ?_
    refine Yields.bind (Yields.orNone yields_fields) fun fields hfields => Yields.pure ?_
    exact ⟨hname, hdirectives, hfields⟩
  · refine Yields.bind (yields_extensionHead _) fun name hname => ?_
    refine Yields.bind (.orElse (Yields.andThen fun _ => yields_addition yields_fields)
      (Yields.andThen fun _ => Yields.pure ?_)) fun added hadded => Yields.pure ⟨hname, hadded⟩
    exact ⟨fun _ h => absurd h List.not_mem_nil, fun _ h => absurd h List.not_mem_nil⟩

theorem yields_enumDefinition : Yields enumDefinition Definition.WellFormed := by
  refine .orElse ?_ ?_
  · refine Yields.bind (yields_head _) fun name hname => ?_
    refine Yields.bind yields_directivesOrNone fun directives hdirectives => ?_
    refine Yields.bind (Yields.orNone yields_enumValues) fun values hvalues => Yields.pure ?_
    exact ⟨hname, hdirectives, hvalues⟩
  · refine Yields.bind (yields_extensionHead _) fun name hname => ?_
    refine Yields.bind (yields_addition yields_enumValues) fun added hadded => Yields.pure ?_
    exact ⟨hname, hadded⟩

theorem yields_inputDefinition : Yields inputDefinition Definition.WellFormed := by
  refine .orElse ?_ ?_
  · refine Yields.bind (yields_head _) fun name hname => ?_
    refine Yields.bind yields_directivesOrNone fun directives hdirectives => ?_
    refine Yields.bind (Yields.orNone yields_inputFields) fun fields hfields => Yields.pure ?_
    exact ⟨hname, hdirectives, hfields⟩
  · refine Yields.bind (yields_extensionHead _) fun name hname => ?_
    refine Yields.bind (yields_addition yields_inputFields) fun added hadded => Yields.pure ?_
    exact ⟨hname, hadded⟩

theorem yields_definition :
    Yields definition fun found => ∀ definition ∈ found, definition.WellFormed := by
  have hskipped : ∀ rule : Rule Unit, Yields (do rule; return none)
      fun found : Option Definition => ∀ definition ∈ found, definition.WellFormed := by
    intro rule
    exact Yields.andThen fun _ => Yields.pure fun definition h => by cases h
  have hkept : ∀ rule : Rule Definition, Yields rule Definition.WellFormed →
      Yields (some <$> rule) fun found => ∀ definition ∈ found, definition.WellFormed := by
    intro rule hrule
    refine Yields.map hrule fun definition hdefinition other hother => ?_
    cases hother
    exact hdefinition
  exact .orElse (hskipped _) (.orElse (hkept _ yields_scalarDefinition)
    (.orElse (hkept _ yields_objectDefinition) (.orElse (hskipped _) (.orElse (hskipped _)
    (.orElse (hkept _ yields_enumDefinition) (.orElse (hkept _ yields_inputDefinition)
    (hskipped _)))))))

theorem yields_document : Yields document Document.WellFormed := by
  refine Yields.bind (Yields.many1 yields_definition) fun definitions hdefinitions => ?_
  refine Yields.andThen fun _ => Yields.pure fun definition hmem => ?_
  obtain ⟨found, hfound, heq⟩ := List.mem_filterMap.1 hmem
  exact hdefinitions found hfound definition heq

end Sdl.Rule

/-- A document that a text stands for is well formed. -/
theorem Sdl.Document.wellFormed_of_parse? {text : String} {document : Document}
    (h : Document.parse? text = some document) : document.WellFormed := by
  obtain ⟨⟨_, rest⟩, hread, rfl⟩ := Option.map_eq_some_iff.1 h
  exact Rule.yields_document text.toList _ rest hread

end EntitySchema
