import Mathlib.Data.List.Lex
import Mathlib.Data.String.Basic

/-! # The byte order of texts

Code points are encoded in such a way that the order of their numbers is that of their bytes. So
texts are in the same order by code points and by bytes. -/
namespace EntitySchema.Text

def bytes (text : String) : List UInt8 := text.toUTF8.data.toList

theorem bytes_eq_flatMap (text : String) :
    bytes text = text.toList.flatMap String.utf8EncodeChar := by
  rw [bytes, String.toUTF8_eq_toByteArray]
  conv_lhs => rw [← String.ofList_toList (s := text)]
  rw [String.toByteArray_ofList, List.utf8Encode]
  simp

theorem utf8EncodeChar_ne_nil (c : Char) : String.utf8EncodeChar c ≠ [] := by
  simp only [String.utf8EncodeChar]
  split_ifs <;> simp

/-- Whatever follows, the bytes of the lesser character are less. -/
theorem utf8EncodeChar_lt {c d : Char} (h : c < d) (rest others : List UInt8) :
    String.utf8EncodeChar c ++ rest < String.utf8EncodeChar d ++ others := by
  have hlt : c.val.toNat < d.val.toNat := UInt32.lt_iff_toNat_lt.1 (Char.lt_def.1 h)
  have hbound : d.val.toNat < 0x110000 := by
    rcases d.valid with hlow | ⟨_, hhigh⟩
    · exact Nat.lt_trans hlow (by decide)
    · exact hhigh
  simp only [String.utf8EncodeChar]
  generalize c.val.toNat = v, d.val.toNat = w at hlt hbound ⊢
  -- the bytes are digits to the base 64, of which the first difference decides
  have hlast : v / 64 < w / 64 ∨ v / 64 = w / 64 ∧ v % 64 < w % 64 := by omega
  have hmiddle (x : Nat) (hxy : v / x < w / x) : v / (x * 64) < w / (x * 64) ∨
      v / (x * 64) = w / (x * 64) ∧ v / x % 64 < w / x % 64 := by
    rw [← Nat.div_div_eq_div_mul, ← Nat.div_div_eq_div_mul]
    omega
  have hnext (x : Nat) : (x % 64 + 128) % 2 ^ 8 = x % 64 + 128 := Nat.mod_eq_of_lt (by omega)
  have hfirst {x : Nat} (hx : x < 0x110000) :
      (x / 262144 % 8 + 240) % 2 ^ 8 = x / 262144 + 240 := by omega
  have hthird := hmiddle 64
  have hsecond := hmiddle 4096
  split_ifs <;>
    simp only [List.cons_append, List.nil_append, List.cons_lt_cons_iff, UInt8.lt_iff_toNat_lt,
      ← UInt8.toNat_inj, UInt8.toNat_ofNat', hnext,
      hfirst hbound, hfirst (Nat.lt_trans hlt hbound)] <;>
    omega

/-- Texts are in the order of their bytes. -/
theorem bytes_lt_of_lt {a b : String} (h : a < b) : bytes a < bytes b := by
  rw [bytes_eq_flatMap, bytes_eq_flatMap]
  rw [String.lt_iff_toList_lt] at h
  generalize a.toList = chars, b.toList = chars' at h
  induction h with
  | nil =>
    rename_i c rest
    rw [List.flatMap_nil, List.flatMap_cons]
    obtain ⟨byte, tail, heq⟩ := List.exists_cons_of_ne_nil (utf8EncodeChar_ne_nil c)
    rw [heq]
    exact .nil
  | rel hlt =>
    rw [List.flatMap_cons, List.flatMap_cons]
    exact utf8EncodeChar_lt hlt _ _
  | cons _ ih =>
    rw [List.flatMap_cons, List.flatMap_cons]
    exact List.append_left_lt ih

theorem lt_iff_bytes_lt {a b : String} : a < b ↔ bytes a < bytes b := by
  refine ⟨bytes_lt_of_lt, fun h => ?_⟩
  by_contra hnot
  rcases (String.not_lt.1 hnot).lt_or_eq with hlt | heq
  · exact List.lt_irrefl _ (List.lt_trans h (bytes_lt_of_lt hlt))
  · rw [heq] at h
    exact List.lt_irrefl _ h

end EntitySchema.Text
