import EntitySchema.Proofs.Sdl.WellFormed
import EntitySchema.Proofs.Text.Front
import EntitySchema.Proofs.Text.Scanner
import EntitySchema.Sdl.Grammar

/-! # Reading tokens back

A token is read back from its text, if what follows the text cannot be taken for a part of it. -/
namespace EntitySchema

namespace Sdl.Rule

open Text Text.Scanner

/-! ### What is passed over -/

def isSolid (c : Char) : Bool := !isBlank c && c ≠ '#'

theorem skipIgnored_blank {c : Char} (h : isBlank c = true) (text : List Char) :
    skipIgnored (c :: text) = skipIgnored text := by
  simp [skipIgnored, skipFrom, h]

theorem skipIgnored_solid {c : Char} (h : isSolid c = true) (text : List Char) :
    skipIgnored (c :: text) = c :: text := by
  simp only [isSolid, Bool.and_eq_true, Bool.not_eq_true', decide_eq_true_eq] at h
  simp [skipIgnored, skipFrom, h.1, h.2]

theorem length_skipFrom_le (inComment : Bool) (text : List Char) :
    (skipFrom inComment text).length ≤ text.length := by
  induction text generalizing inComment with
  | nil => exact Nat.le_refl _
  | cons c rest ih =>
    have hrest := fun inComment => Nat.le_succ_of_le (ih inComment)
    rw [skipFrom, List.length_cons]
    split
    · exact hrest _
    · split
      · exact hrest _
      · split
        · exact hrest _
        · exact Nat.le_refl _

theorem isSolid_of_accepts {accepts : Char → Bool} {c : Char} (h : accepts c = true)
    (hignored : [' ', '\t', ',', '\n', '\r', '\uFEFF', '#'].any accepts = false) :
    isSolid c = true := by
  by_cases hmem : c ∈ [' ', '\t', ',', '\n', '\r', '\uFEFF', '#']
  · exact absurd h (List.any_eq_false.1 hignored c hmem)
  · simp only [List.mem_cons, List.not_mem_nil, or_false, not_or] at hmem
    simp [isSolid, isBlank, hmem]

theorem isSolid_of_isNameStart {c : Char} (h : isNameStart c = true) : isSolid c = true :=
  isSolid_of_accepts h (by decide)

theorem skipIgnored_name {name : String} (h : IsName name) (text : List Char) :
    skipIgnored (name.toList ++ text) = name.toList ++ text := by
  obtain ⟨c, rest, heq, hstart, -⟩ := h
  rw [heq]
  exact skipIgnored_solid (isSolid_of_isNameStart hstart) _

/-! ### Fixed texts and names -/

theorem skip_apply (text : List Char) : skip text = some ((), skipIgnored text) := rfl

theorem skip_bind {α : Type} (rule : Rule α) (text : List Char) :
    (skip >>= fun _ => rule) text = rule (skipIgnored text) :=
  bind_of_some (skip_apply text)

theorem lit_reads {word : String} {text rest : List Char}
    (h : skipIgnored text = word.toList ++ rest) : lit word text = some ((), rest) := by
  rw [lit, skip_bind, h, Scanner.exact, dropLiteral?_self_append]
  rfl

theorem lit_fails {word : String} {text : List Char}
    (h : dropLiteral? word.toList (skipIgnored text) = none) : lit word text = none := by
  rw [lit, skip_bind, Scanner.exact, h]
  rfl

theorem nameHere_reads {name : String} (hname : IsName name) {rest : List Char}
    (hrest : Free isNameRest rest) : nameHere (name.toList ++ rest) = some (name, rest) := by
  obtain ⟨c, tail, heq, hstart, htail⟩ := hname
  rw [heq, List.cons_append, nameHere, if_pos hstart, hrest.takeWhile htail,
    hrest.dropWhile htail, ← heq, String.ofList_toList]

theorem name_reads {name : String} (hname : IsName name) {text rest : List Char}
    (hrest : Free isNameRest rest) (h : skipIgnored text = name.toList ++ rest) :
    Rule.name text = some (name, rest) := by
  rw [Rule.name, skip_bind, h]
  exact nameHere_reads hname hrest

theorem name_fails {text : List Char} (h : Free isNameStart (skipIgnored text)) :
    Rule.name text = none := by
  rw [Rule.name, skip_bind]
  cases hskip : skipIgnored text with
  | nil => rfl
  | cons c rest =>
    rw [hskip] at h
    rw [nameHere, h c rfl]
    rfl

/-- The words that no enum value starts with are names. -/
theorem reserved_chars {word : String} (h : word ∈ ["true", "false", "null"]) :
    ∀ c ∈ word.toList, isNameRest c = true := by
  simp only [List.mem_cons, List.not_mem_nil, or_false] at h
  rcases h with rfl | rfl | rfl <;> exact List.all_eq_true.1 rfl

theorem enumValue_reads {name : String} (hname : IsEnumValue name) {text rest : List Char}
    (hrest : Free isNameRest rest) (h : skipIgnored text = name.toList ++ rest) :
    enumValue text = some (name, rest) := by
  rw [enumValue, skip_bind, h]
  have hreserved : ["true", "false", "null"].any (startsWith · (name.toList ++ rest)) = false := by
    rw [List.any_eq_false]
    intro word hword
    rw [startsWith, dropLiteral?_append_of_free (hname.2 word hword) (reserved_chars hword) hrest]
    simp
  rw [hreserved]
  exact nameHere_reads hname.1 hrest

theorem enumValue_fails {text : List Char} (h : Free isNameStart (skipIgnored text)) :
    enumValue text = none := by
  rw [enumValue, skip_bind]
  split
  · rfl
  · cases hskip : skipIgnored text with
    | nil => rfl
    | cons c rest =>
      rw [hskip] at h
      rw [nameHere, h c rfl]
      rfl

/-! ### Type syntax -/

theorem takeMark_mark {required : Bool} {rest : List Char} (h : Free (· = '!') rest) :
    takeMark ((TypeExpr.mark required).toList ++ rest) = (required, rest) := by
  cases required with
  | true => rfl
  | false =>
    cases rest with
    | nil => rfl
    | cons c rest =>
      have hne : c ≠ '!' := by simpa using h c rfl
      simp [TypeExpr.mark, takeMark, hne]

theorem typeWithin_reads {fuel : Nat} {type : TypeExpr} (hwell : type.WellFormed)
    (hfuel : type.text.toList.length < fuel) {rest : List Char}
    (hrest : Free (fun c => isNameRest c || c = '!') rest) :
    typeWithin fuel (type.text.toList ++ rest) = some (type, rest) := by
  have hmark : Free (· = '!') rest := fun c hc => by
    have := hrest c hc
    simp_all
  induction type generalizing fuel rest with
  | named name required =>
    cases fuel with
    | zero => omega
    | succ fuel =>
      obtain ⟨c, tail, heq, hstart, -⟩ := id hwell
      have hne : c ≠ '[' := by
        rintro rfl
        cases hstart
      have hfree : Free isNameRest ((TypeExpr.mark required).toList ++ rest) := by
        intro d hd
        cases required with
        | true =>
          cases hd
          rfl
        | false =>
          have := hrest d hd
          simp_all
      have hname := nameHere_reads hwell hfree
      rw [TypeExpr.text, String.toList_append, List.append_assoc]
      rw [heq, List.cons_append] at hname ⊢
      rw [typeWithin]
      · rw [hname, Option.map_some]
        simp only [takeMark_mark hmark]
      · rintro tail' heq'
        exact hne (List.cons.inj heq').1
  | list item required ih =>
    cases fuel with
    | zero => omega
    | succ fuel =>
      have hfree : Free (fun c => isNameRest c || c = '!')
          (']' :: ((TypeExpr.mark required).toList ++ rest)) := by
        intro d hd
        cases hd
        rfl
      have hlength : item.text.toList.length < fuel := by
        simp only [TypeExpr.text, String.toList_append, List.length_append] at hfuel
        have : "[".toList.length = 1 := rfl
        omega
      have hitem := ih hwell hlength hfree fun c hc => by
        cases hc
        rfl
      have htext : (TypeExpr.list item required).text.toList ++ rest =
          '[' :: (item.text.toList ++ ']' :: ((TypeExpr.mark required).toList ++ rest)) := by
        simp [TypeExpr.text]
      rw [htext, typeWithin, hitem]
      simp only [takeMark_mark hmark]

theorem typeExpr_reads {type : TypeExpr} (hwell : type.WellFormed) {text rest : List Char}
    (hrest : Free (fun c => isNameRest c || c = '!') rest)
    (h : skipIgnored text = type.text.toList ++ rest) : typeExpr text = some (type, rest) := by
  rw [typeExpr, skip_bind, h]
  refine typeWithin_reads hwell ?_ hrest
  rw [List.length_append]
  omega

end Sdl.Rule

end EntitySchema
