import EntitySchema.Names
import Mathlib.Data.List.Basic

/-! # Names with the same plural

The English plural tells names apart but for two kinds of pairs, of which `Bus` and `Buse`, `Story`
and `Storie` are examples. -/
namespace EntitySchema.Names

def Hissing (name : String) : Prop := endsHissing (name.toList.reverse.map Char.toLower) = true

/-- A word in front of a final `y` that becomes `ies`. -/
def EndsInConsonant (stem : String) : Prop := stem.toList.reverse.head?.any isVowel = false

instance : DecidablePred Hissing := fun _ => inferInstanceAs (Decidable (_ = true))

instance : DecidablePred EndsInConsonant := fun _ => inferInstanceAs (Decidable (_ = false))

inductive Merges : String → String → Prop
  | hissing {name : String} (h : Hissing name) : Merges name (name ++ "e")
  | consonant {stem : String} (h : EndsInConsonant stem) : Merges (stem ++ "y") (stem ++ "ie")

theorem eq_of_reverse {a b : String} (h : a.toList.reverse = b.toList.reverse) : a = b :=
  String.toList_inj.1 (List.reverse_injective h)

/-- A hissing word ends in one of three letters, in either case. -/
theorem Hissing.ending {name : String} (h : Hissing name) :
    ∃ c rest, name.toList.reverse = c :: rest ∧ c.toLower ∈ ['s', 'x', 'h'] := by
  rw [Hissing] at h
  cases hname : name.toList.reverse with
  | nil =>
    rw [hname] at h
    cases h
  | cons c rest =>
    rw [hname, List.map_cons] at h
    refine ⟨c, rest, rfl, ?_⟩
    unfold endsHissing at h
    split at h
    · rename_i heq
      simp [(List.cons.inj heq).1]
    · rename_i heq
      simp [(List.cons.inj heq).1]
    · rename_i heq
      simp [(List.cons.inj heq).1]
    · rename_i heq
      simp [(List.cons.inj heq).1]
    · cases h

theorem pluralize_of_consonant {stem : String} (h : EndsInConsonant stem) :
    pluralize (stem ++ "y") = stem ++ "ies" := by
  have hreverse : (stem ++ "y").toList.reverse = 'y' :: stem.toList.reverse := by
    rw [String.toList_append, List.reverse_append]
    rfl
  rw [EndsInConsonant] at h
  rw [pluralize, hreverse]
  change (if stem.toList.reverse.head?.any isVowel then _
    else String.ofList stem.toList.reverse.reverse ++ "ies") = _
  rw [h, if_neg Bool.false_ne_true, List.reverse_reverse, String.ofList_toList]

theorem pluralize_of_hissing {name : String} (h : Hissing name) : pluralize name = name ++ "es" := by
  obtain ⟨c, rest, hreverse, hc⟩ := h.ending
  have hy : c ≠ 'y' := by
    rintro rfl
    exact absurd hc (by decide)
  rw [Hissing, hreverse] at h
  rw [pluralize, hreverse]
  split
  · rename_i heq
    exact absurd (List.cons.inj heq).1 hy
  · rw [if_pos h]

/-- Any other word takes a bare `s`. -/
theorem pluralize_of_plain {name : String} (hhiss : ¬ Hissing name)
    (hy : ∀ stem, name = stem ++ "y" → ¬ EndsInConsonant stem) : pluralize name = name ++ "s" := by
  rw [Hissing] at hhiss
  rw [pluralize]
  split
  · rename_i stem heq
    have hname : name = String.ofList stem.reverse ++ "y" := by
      apply eq_of_reverse
      rw [heq, String.toList_append, String.toList_ofList, List.reverse_append, List.reverse_reverse]
      rfl
    have hvowel := hy _ hname
    rw [EndsInConsonant, String.toList_ofList, List.reverse_reverse] at hvowel
    rw [if_pos (by simpa using hvowel)]
  · rw [if_neg hhiss]

/-- A name with a plural that is more than the name and an `s`. -/
inductive Irregular : String → String → Prop
  | hissing {name : String} (h : Hissing name) : Irregular name (name ++ "es")
  | consonant {stem : String} (h : EndsInConsonant stem) : Irregular (stem ++ "y") (stem ++ "ies")

theorem pluralize_cases (name : String) :
    Irregular name (pluralize name) ∨ pluralize name = name ++ "s" := by
  by_cases hhiss : Hissing name
  · rw [pluralize_of_hissing hhiss]
    exact .inl (.hissing hhiss)
  by_cases hy : ∃ stem, EndsInConsonant stem ∧ name = stem ++ "y"
  · obtain ⟨stem, hstem, rfl⟩ := hy
    rw [pluralize_of_consonant hstem]
    exact .inl (.consonant hstem)
  · refine .inr (pluralize_of_plain hhiss ?_)
    intro stem hname hstem
    exact hy ⟨stem, hstem, hname⟩

/-- A word in front of `e` takes a bare `s`. -/
theorem pluralize_of_e (stem : String) : pluralize (stem ++ "e") = stem ++ "es" := by
  have hreverse : (stem ++ "e").toList.reverse = 'e' :: stem.toList.reverse := by
    rw [String.toList_append, List.reverse_append]
    rfl
  have hplain : pluralize (stem ++ "e") = stem ++ "e" ++ "s" := by
    apply pluralize_of_plain
    · intro h
      obtain ⟨c, rest, hname, hc⟩ := h.ending
      rw [hreverse] at hname
      rw [← (List.cons.inj hname).1] at hc
      exact absurd hc (by decide)
    · intro other hname
      rw [hname, String.toList_append, List.reverse_append] at hreverse
      exact absurd (List.cons.inj hreverse).1 (by decide)
  rw [hplain, String.append_assoc]
  rfl

theorem Merges.pluralize_eq {a b : String} (h : Merges a b) : pluralize a = pluralize b := by
  cases h with
  | hissing h => rw [pluralize_of_hissing h, pluralize_of_e]
  | @consonant stem h =>
    have hie : stem ++ "ie" = stem ++ "i" ++ "e" := by
      rw [String.append_assoc]
      rfl
    rw [pluralize_of_consonant h, hie, pluralize_of_e, String.append_assoc]
    rfl

theorem eq_of_append_s {a b : String} (h : a ++ "s" = b ++ "s") : a = b :=
  (String.append_left_inj "s").1 h

theorem Irregular.merges {a b : String} (h : Irregular a (b ++ "s")) : Merges a b := by
  generalize hplural : b ++ "s" = plural at h
  cases h with
  | hissing h =>
    have hb : b = a ++ "e" := by
      apply eq_of_append_s
      rw [hplural, String.append_assoc]
      rfl
    rw [hb]
    exact .hissing h
  | @consonant stem h =>
    have hb : b = stem ++ "ie" := by
      apply eq_of_append_s
      rw [hplural, String.append_assoc]
      rfl
    rw [hb]
    exact .consonant h

/-- A hissing word ends in another letter than the `i` of a plural in `ies`. -/
theorem not_hissing_of_append_es {name stem : String} (h : name ++ "es" = stem ++ "ies") :
    ¬ Hissing name := by
  have hname : name = stem ++ "i" := by
    apply (String.append_left_inj "es").1
    rw [h, String.append_assoc]
    rfl
  intro hhiss
  obtain ⟨c, rest, hreverse, hc⟩ := hhiss.ending
  rw [hname, String.toList_append, List.reverse_append] at hreverse
  rw [← (List.cons.inj hreverse).1] at hc
  exact absurd hc (by decide)

theorem Irregular.eq {a b plural : String} (ha : Irregular a plural) (hb : Irregular b plural) :
    a = b := by
  generalize hplural : plural = other at hb
  cases ha with
  | hissing ha =>
    cases hb with
    | hissing hb => exact (String.append_left_inj "es").1 hplural
    | consonant hb => exact absurd ha (not_hissing_of_append_es hplural)
  | consonant ha =>
    cases hb with
    | hissing hb => exact absurd hb (not_hissing_of_append_es hplural.symm)
    | consonant hb => rw [(String.append_left_inj "ies").1 hplural]

/-- Two names share their plural only if they are equal, or merge. -/
theorem pluralize_eq_pluralize_iff {a b : String} :
    pluralize a = pluralize b ↔ a = b ∨ Merges a b ∨ Merges b a := by
  constructor
  · intro h
    rcases pluralize_cases a with ha | ha
    · rcases pluralize_cases b with hb | hb
      · rw [← h] at hb
        exact .inl (ha.eq hb)
      · rw [h, hb] at ha
        exact .inr (.inl ha.merges)
    · rcases pluralize_cases b with hb | hb
      · rw [← h, ha] at hb
        exact .inr (.inr hb.merges)
      · rw [ha, hb] at h
        exact .inl (eq_of_append_s h)
  · rintro (rfl | h | h)
    · rfl
    · exact h.pluralize_eq
    · exact h.pluralize_eq.symm

/-- Lowering the first character confuses no texts that begin alike. -/
theorem decapitalize_eq_iff_of_head {a b : String} (h : a.toList.head? = b.toList.head?) :
    decapitalize a = decapitalize b ↔ a = b := by
  refine ⟨fun heq => ?_, congrArg decapitalize⟩
  rw [decapitalize, decapitalize] at heq
  apply String.toList_inj.1
  cases ha : a.toList with
  | nil =>
    rw [ha] at h
    rw [List.head?_eq_none_iff.1 h.symm]
  | cons c rest =>
    rw [ha] at h heq
    cases hb : b.toList with
    | nil =>
      rw [hb] at h
      cases h
    | cons d others =>
      rw [hb] at h heq
      cases h
      have hlower := String.ofList_injective heq
      rw [List.append_cancel_left hlower]

end EntitySchema.Names
