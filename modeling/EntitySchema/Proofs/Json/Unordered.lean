import EntitySchema.Json.Value
import EntitySchema.Proofs.Entries
import Mathlib.Data.List.Forall2

/-! # Equality up to the order of members

Two objects are the same if each name of the one has in the other a value that is the same. For
objects made of the same parts, some of which may be left out, this is said part by part. -/
namespace EntitySchema

namespace Json

mutual

/-- Equality up to the order of members at every level. -/
def same : Json → Json → Bool
  | .null, .null => true
  | .bool a, .bool b => a = b
  | .number a, .number b => a = b
  | .string a, .string b => a = b
  | .array items, .array others => sameItems items others
  | .object members, .object others =>
    members.length = others.length && sameMembers members others
  | _, _ => false

def sameItems : List Json → List Json → Bool
  | [], [] => true
  | item :: rest, other :: others => item.same other && sameItems rest others
  | _, _ => false

def sameMembers : List (String × Json) → List (String × Json) → Bool
  | [], _ => true
  | (key, value) :: rest, others =>
    (match Entries.get? others key with
      | some other => value.same other
      | none => false) && sameMembers rest others

end

@[simp] theorem same_bool_iff {a b : Bool} : (Json.bool a).same (.bool b) = true ↔ a = b := by
  simp [same]

@[simp] theorem same_nat_iff {a b : Nat} : (Json.nat a).same (.nat b) = true ↔ a = b := by
  simp only [Json.nat, same, decide_eq_true_iff, JsonNumber.int.injEq, Int.ofNat_inj]

@[simp] theorem same_string_iff {a b : String} :
    (Json.string a).same (.string b) = true ↔ a = b := by
  simp [same]

theorem sameMembers_iff {members others : List (String × Json)} :
    sameMembers members others ↔ ∀ member ∈ members,
      ∃ other, Entries.get? others member.1 = some other ∧ member.2.same other := by
  induction members with
  | nil => simp [sameMembers]
  | cons first rest ih =>
    obtain ⟨key, value⟩ := first
    rw [sameMembers, Bool.and_eq_true, List.forall_mem_cons, ih]
    cases h : Entries.get? others key <;> simp

theorem same_object_iff {members others : Json.Object} :
    (Json.object members).same (.object others) ↔
      Entries.Paired (fun a b => a.same b) members others := by
  rw [same, Bool.and_eq_true, decide_eq_true_iff, sameMembers_iff]
  rfl

variable {α : Type}

/-- Lists are the same if the written forms of their items tell them apart. -/
theorem same_array_map_iff {encode : α → Json} (h : ∀ a b, (encode a).same (encode b) ↔ a = b)
    {items others : List α} :
    (Json.array (items.map encode)).same (.array (others.map encode)) ↔ items = others := by
  rw [same]
  induction items generalizing others with
  | nil => cases others <;> simp [sameItems]
  | cons item rest ih =>
    cases others with
    | nil => simp [sameItems]
    | cons other others => simp [sameItems, ih, h]

/-- An option that may be missing is told apart like its values. -/
theorem same_optional_iff {encode : α → Json} (h : ∀ a b, (encode a).same (encode b) ↔ a = b)
    {value other : Option α} :
    Option.Rel (fun a b => a.same b) (value.map encode) (other.map encode) ↔ value = other := by
  cases value <;> cases other <;> simp [h]

/-! ### Objects made of parts -/

def present (parts : Entries (Option Json)) : Json.Object :=
  parts.filterMap fun part => part.2.map (part.1, ·)

@[simp] theorem present_nil : present [] = [] := rfl

@[simp] theorem present_cons (key : String) (value : Option Json)
    (parts : Entries (Option Json)) :
    present ((key, value) :: parts) = (value.map (key, ·)).toList ++ present parts := by
  cases value <;> rfl

theorem keys_present (parts : Entries (Option Json)) :
    (Entries.keys (present parts)).Sublist (Entries.keys parts) := by
  induction parts with
  | nil => exact .refl _
  | cons part rest ih =>
    obtain ⟨key, value⟩ := part
    rw [present_cons]
    cases value with
    | none => exact ih.cons _
    | some value => exact ih.cons_cons _

theorem get?_present {parts : Entries (Option Json)} (h : (Entries.keys parts).Nodup)
    (key : String) : (present parts).get? key = (Entries.get? parts key).join := by
  induction parts with
  | nil => rfl
  | cons part rest ih =>
    obtain ⟨name, value⟩ := part
    obtain ⟨hnew, hrest⟩ := List.nodup_cons.1 h
    rw [present_cons, Entries.get?_append, Entries.get?_cons, ih hrest]
    by_cases hname : name = key
    · subst hname
      rw [Entries.get?_eq_none_iff.2 hnew, if_pos rfl]
      cases value <;> simp [Entries.get?_cons]
    · rw [if_neg hname]
      cases value <;> simp [Entries.get?_cons, hname]

/-- Objects with parts of the same names are the same if their parts are. -/
theorem same_present_iff {parts others : Entries (Option Json)}
    (hnames : Entries.keys parts = Entries.keys others) (h : (Entries.keys parts).Nodup) :
    (Json.object (present parts)).same (.object (present others)) ↔
      List.Forall₂ (Option.Rel fun a b => a.same b) (parts.map (·.2)) (others.map (·.2)) := by
  have h' : (Entries.keys others).Nodup := hnames ▸ h
  rw [same_object_iff,
    Entries.paired_iff (h.sublist (keys_present _)) (h'.sublist (keys_present _))]
  simp only [get?_present h, get?_present h']
  clear h'
  induction parts generalizing others with
  | nil =>
    obtain rfl : others = [] := List.map_eq_nil_iff.1 hnames.symm
    simp
  | cons part rest ih =>
    obtain ⟨name, value⟩ := part
    cases others with
    | nil => cases hnames
    | cons other others =>
      obtain ⟨name', value'⟩ := other
      obtain ⟨rfl, htail⟩ := List.cons.inj hnames
      obtain ⟨hnew, hrest⟩ := List.nodup_cons.1 h
      have hnew' : name ∉ Entries.keys others := fun hmem => hnew (htail.symm ▸ hmem)
      rw [List.map_cons, List.map_cons, List.forall₂_cons]
      refine Iff.trans ?_ (and_congr_right' (ih htail hrest))
      constructor
      · intro hrel
        refine ⟨by simpa [Entries.get?_cons] using hrel name, fun key => ?_⟩
        by_cases hkey : name = key
        · subst hkey
          rw [Entries.get?_eq_none_iff.2 hnew, Entries.get?_eq_none_iff.2 hnew']
          exact .none
        · simpa [Entries.get?_cons, hkey] using hrel key
      · rintro ⟨hvalue, hrel⟩ key
        by_cases hkey : name = key
        · simpa [Entries.get?_cons, hkey] using hvalue
        · simpa [Entries.get?_cons, hkey] using hrel key

end Json

end EntitySchema
