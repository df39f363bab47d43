import EntitySchema.Sdl.Document
import EntitySchema.Sdl.Token

/-! # Documents that schema text can express

A document is well formed if each of its names, types and values is one that the grammar has a
text for. Among these, the plain values have a text that says all about them. -/
namespace EntitySchema.Sdl

def IsName (name : String) : Prop :=
  ∃ c rest, name.toList = c :: rest ∧ Rule.isNameStart c = true ∧
    ∀ d ∈ rest, Rule.isNameRest d = true

/-- A name that does not start like a constant with a meaning of its own. -/
def IsEnumValue (name : String) : Prop :=
  IsName name ∧ ∀ word ∈ ["true", "false", "null"], Text.dropLiteral? word.toList name.toList = none

/-- Letters are those of the Latin alphabet without accents. -/
theorem toNat_of_isAlpha {c : Char} (h : c.isAlpha = true) : 65 ≤ c.toNat ∧ c.toNat ≤ 122 := by
  have hletter : c.isUpper = true ∨ c.isLower = true := Bool.or_eq_true_iff.1 h
  rcases hletter with hupper | hlower
  · have hrange : 'A'.val ≤ c.val ∧ c.val ≤ 'Z'.val := of_decide_eq_true hupper
    exact ⟨hrange.1, Nat.le_trans hrange.2 (by decide)⟩
  · obtain ⟨hlow, hhigh⟩ := Bool.and_eq_true_iff.1 hlower
    exact ⟨Nat.le_trans (by decide) (of_decide_eq_true hlow), of_decide_eq_true hhigh⟩

namespace TypeExpr

def WellFormed : TypeExpr → Prop
  | .named name _ => IsName name
  | .list item _ => item.WellFormed

end TypeExpr

namespace Value

/-- Strings that are printed without a decimal code, which the grammar reads otherwise. -/
def IsPlainText (text : String) : Prop :=
  ∀ c ∈ text.toList, isControl c = true → c = '\t' ∨ c = '\n' ∨ c = '\r'

mutual

/-- Integers are in the range of signed or of unsigned numbers of 64 bits. -/
def WellFormed : Value → Prop
  | .number (.int n) => -(Nat.pow 2 63 : Int) ≤ n ∧ n < (Nat.pow 2 64 : Int)
  | .enumeration name => IsEnumValue name
  | .list items => WellFormedItems items
  | .object members => (Entries.keys members).Nodup ∧ WellFormedMembers members
  | _ => True

def WellFormedItems : List Value → Prop
  | [] => True
  | item :: rest => item.WellFormed ∧ WellFormedItems rest

def WellFormedMembers : List (String × Value) → Prop
  | [] => True
  | (name, value) :: rest => (IsName name ∧ value.WellFormed) ∧ WellFormedMembers rest

end

mutual

/-- A value without floating-point numbers, and without control characters in strings other than
tabs and line ends. -/
def Plain : Value → Prop
  | .number (.float _) => False
  | .string text => IsPlainText text
  | .list items => PlainItems items
  | .object members => PlainMembers members
  | _ => True

def PlainItems : List Value → Prop
  | [] => True
  | item :: rest => item.Plain ∧ PlainItems rest

def PlainMembers : List (String × Value) → Prop
  | [] => True
  | (_, value) :: rest => value.Plain ∧ PlainMembers rest

end

instance (text : String) : Decidable (IsPlainText text) :=
  List.decidableBAll (fun c => isControl c = true → c = '\t' ∨ c = '\n' ∨ c = '\r') text.toList

mutual

def decPlain : (value : Value) → Decidable value.Plain
  | .number (.float _) => isFalse id
  | .string text => inferInstanceAs (Decidable (IsPlainText text))
  | .list items => decPlainItems items
  | .object members => decPlainMembers members
  | .null | .bool _ | .number (.int _) | .enumeration _ => isTrue trivial

def decPlainItems : (items : List Value) → Decidable (PlainItems items)
  | [] => isTrue trivial
  | item :: rest => @instDecidableAnd _ _ (decPlain item) (decPlainItems rest)

def decPlainMembers : (members : List (String × Value)) → Decidable (PlainMembers members)
  | [] => isTrue trivial
  | (_, value) :: rest => @instDecidableAnd _ _ (decPlain value) (decPlainMembers rest)

end

instance : DecidablePred Value.Plain := decPlain

theorem wellFormedItems_iff {items : List Value} :
    WellFormedItems items ↔ ∀ item ∈ items, item.WellFormed := by
  induction items with
  | nil => simp [WellFormedItems]
  | cons item rest ih => simp [WellFormedItems, ih]

theorem wellFormedMembers_iff {members : List (String × Value)} :
    WellFormedMembers members ↔
      ∀ member ∈ members, IsName member.1 ∧ member.2.WellFormed := by
  induction members with
  | nil => simp [WellFormedMembers]
  | cons member rest ih => simp [WellFormedMembers, ih]

theorem plainItems_iff {items : List Value} :
    PlainItems items ↔ ∀ item ∈ items, item.Plain := by
  induction items with
  | nil => simp [PlainItems]
  | cons item rest ih => simp [PlainItems, ih]

theorem plainMembers_iff {members : List (String × Value)} :
    PlainMembers members ↔ ∀ member ∈ members, member.2.Plain := by
  induction members with
  | nil => simp [PlainMembers]
  | cons member rest ih => simp [PlainMembers, ih]

end Value

namespace Directive

def WellFormed (directive : Directive) : Prop :=
  IsName directive.name ∧
    ∀ argument ∈ directive.arguments, IsName argument.1 ∧ argument.2.WellFormed

def Plain (directive : Directive) : Prop :=
  ∀ argument ∈ directive.arguments, argument.2.Plain

instance : DecidablePred Directive.Plain := fun directive =>
  inferInstanceAs (Decidable (∀ argument ∈ directive.arguments, argument.2.Plain))

end Directive

namespace FieldDef

def WellFormed (field : FieldDef) : Prop :=
  IsName field.name ∧ field.type.WellFormed ∧
    ∀ directive ∈ field.directives, directive.WellFormed

def Plain (field : FieldDef) : Prop := ∀ directive ∈ field.directives, directive.Plain

instance : DecidablePred FieldDef.Plain := fun field =>
  inferInstanceAs (Decidable (∀ directive ∈ field.directives, directive.Plain))

end FieldDef

namespace TypeDef

def WellFormed (type : TypeDef) : Prop :=
  IsName type.name ∧ (∀ directive ∈ type.directives, directive.WellFormed) ∧
    ∀ field ∈ type.fields, field.WellFormed

def Plain (type : TypeDef) : Prop :=
  (∀ directive ∈ type.directives, directive.Plain) ∧ ∀ field ∈ type.fields, field.Plain

instance : DecidablePred TypeDef.Plain := fun type =>
  inferInstanceAs (Decidable ((∀ directive ∈ type.directives, directive.Plain) ∧
    ∀ field ∈ type.fields, field.Plain))

end TypeDef

namespace Definition

def WellFormed : Definition → Prop
  | .object type | .input type => type.WellFormed
  | .enumeration name directives values =>
    IsName name ∧ (∀ directive ∈ directives, directive.WellFormed) ∧
      ∀ value ∈ values, IsEnumValue value
  | .scalar name directives => IsName name ∧ ∀ directive ∈ directives, directive.WellFormed

def Plain : Definition → Prop
  | .object type | .input type => type.Plain
  | .enumeration _ directives _ | .scalar _ directives => ∀ directive ∈ directives, directive.Plain

instance : DecidablePred Definition.Plain
  | .object type | .input type => inferInstanceAs (Decidable type.Plain)
  | .enumeration _ directives _ | .scalar _ directives =>
    inferInstanceAs (Decidable (∀ directive ∈ directives, directive.Plain))

end Definition

namespace Document

def WellFormed (document : Document) : Prop :=
  ∀ definition ∈ document.definitions, definition.WellFormed

def Plain (document : Document) : Prop :=
  ∀ definition ∈ document.definitions, definition.Plain

instance : DecidablePred Document.Plain := fun document =>
  inferInstanceAs (Decidable (∀ definition ∈ document.definitions, definition.Plain))

end Document

end EntitySchema.Sdl
