import EntitySchema.Proofs.Sdl.Tokens
import EntitySchema.Sdl.Document

/-! # Reading numbers and strings back

Integers of 64 bits are read back from their decimal digits. Strings without control characters
that have no short escape are read back from their quoted form. -/
namespace EntitySchema.Sdl.Rule

open Text Text.Scanner

/-! ### Integers -/

theorem wholeDigits_reads (n : Nat) {rest : List Char} (hrest : Free Char.isDigit rest) :
    wholeDigits (Nat.toDigits 10 n ++ rest) = some (Nat.toDigits 10 n, rest) := by
  by_cases hzero : n = 0
  · rw [hzero, Nat.toDigits_zero]
    rfl
  · have hall : ∀ c ∈ Nat.toDigits 10 n, c.isDigit = true := fun c hc =>
      Nat.isDigit_of_mem_toDigits (by decide) (by decide) hc
    have hdigits : digits (Nat.toDigits 10 n ++ rest) = some (Nat.toDigits 10 n, rest) := by
      rw [digits, hrest.takeWhile hall, hrest.dropWhile hall]
      have hne : (Nat.toDigits 10 n).isEmpty = false :=
        List.isEmpty_eq_false_iff.2 Nat.toDigits_ne_nil
      rw [hne]
      rfl
    obtain ⟨c, tail, heq, -, hnonzero⟩ := exists_toDigits n
    rw [heq, List.cons_append] at hdigits ⊢
    rw [wholeDigits]
    · exact hdigits
    · intro tail' heq'
      exact hnonzero (by omega) (List.cons.inj heq').1

theorem fractionDigits_of_free {rest : List Char} (h : Free (· = '.') rest) :
    fractionDigits rest = (none, rest) := by
  cases rest with
  | nil => rfl
  | cons c rest =>
    have hne : c ≠ '.' := by simpa using h c rfl
    simp [fractionDigits, hne]

theorem exponentDigits_of_free {rest : List Char} (h : Free isNameStart rest) :
    exponentDigits rest = (none, rest) := by
  cases rest with
  | nil => rfl
  | cons c rest =>
    have hlower : c ≠ 'e' := by
      rintro rfl
      cases h _ rfl
    have hupper : c ≠ 'E' := by
      rintro rfl
      cases h _ rfl
    simp [exponentDigits, hlower, hupper]

def continuesNumber (c : Char) : Bool := isNameRest c || c = '.'

theorem number_tail {rest : List Char} (h : Free continuesNumber rest) :
    Free Char.isDigit rest ∧ Free (· = '.') rest ∧ Free isNameStart rest := by
  refine ⟨fun c hc => ?_, fun c hc => ?_, fun c hc => ?_⟩ <;>
    have := h c hc <;>
    simp only [continuesNumber, isNameRest, isNameStart, Char.isAlphanum, Bool.or_eq_false_iff,
      decide_eq_false_iff_not] at this ⊢ <;>
    simp [this]

def signed (text : List Char) : Bool × List Char :=
  match text with
  | '-' :: rest => (true, rest)
  | _ => (false, text)

theorem numberHere_of_signed {text rest : List Char} {negative : Bool} {n : Nat}
    (hsigned : signed text = (negative, Nat.toDigits 10 n ++ rest))
    (hrest : Free continuesNumber rest) :
    numberHere text =
      (Json.Numeral.value? ⟨negative, Nat.toDigits 10 n, none, none⟩).map fun v => (v, rest) := by
  obtain ⟨hdigit, hpoint, hname⟩ := number_tail hrest
  have hhead : rest.head?.any isNameStart = false := by
    cases rest with
    | nil => rfl
    | cons c rest => exact hname c rfl
  have hsplit : numberHere text = (wholeDigits (signed text).2).bind fun whole =>
      let fraction := fractionDigits whole.2
      let exponent := exponentDigits fraction.2
      if exponent.2.head?.any isNameStart then none
      else
        (Json.Numeral.value? ⟨(signed text).1, whole.1, fraction.1, exponent.1⟩).bind fun value =>
          some (value, exponent.2) := rfl
  rw [hsplit, hsigned, wholeDigits_reads n hdigit]
  simp only [Option.bind_some, fractionDigits_of_free hpoint, exponentDigits_of_free hname, hhead]
  cases Json.Numeral.value? ⟨negative, Nat.toDigits 10 n, none, none⟩ <;> rfl

theorem signed_of_ne {c : Char} (h : c ≠ '-') (rest : List Char) :
    signed (c :: rest) = (false, c :: rest) := by
  simp [signed, h]

theorem numberHere_reads {n : Int} (hwell : (Value.number (.int n)).WellFormed)
    {rest : List Char} (hrest : Free continuesNumber rest) :
    numberHere ((toString n).toList ++ rest) = some (.int n, rest) := by
  obtain ⟨hlow, hhigh⟩ := hwell
  rw [Int.toString_eq_repr, Int.repr_eq_if]
  by_cases hsign : 0 ≤ n
  · obtain ⟨m, rfl⟩ := Int.eq_ofNat_of_zero_le hsign
    have hm : m < Nat.pow 2 64 := Int.ofNat_lt.1 hhigh
    rw [if_pos hsign, Int.toNat_natCast, Nat.toList_repr]
    obtain ⟨c, tail, heq, hdigit, -⟩ := exists_toDigits m
    have hne : c ≠ '-' := by
      rintro rfl
      cases hdigit
    have hsigned : signed (Nat.toDigits 10 m ++ rest) = (false, Nat.toDigits 10 m ++ rest) := by
      rw [heq]
      exact signed_of_ne hne _
    rw [numberHere_of_signed hsigned hrest, Json.Numeral.value?, natOfDigits_toDigits]
    simp [hm]
  · obtain ⟨m, hm⟩ := Int.eq_ofNat_of_zero_le (show 0 ≤ -n by omega)
    obtain rfl : n = -(m : Int) := by omega
    have hpos : m ≠ 0 := by omega
    have hle : m ≤ Nat.pow 2 63 := by
      refine Int.ofNat_le.1 ?_
      omega
    rw [if_neg hsign, Int.neg_neg, Int.toNat_natCast, String.toList_append, Nat.toList_repr]
    have hsigned : signed ("-".toList ++ Nat.toDigits 10 m ++ rest) =
        (true, Nat.toDigits 10 m ++ rest) := rfl
    rw [numberHere_of_signed hsigned hrest, Json.Numeral.value?, natOfDigits_toDigits]
    simp [hpos, hle]

theorem numberHere_fails {text : List Char} (h : Free (fun c => c = '-' || c.isDigit) text) :
    numberHere text = none := by
  cases text with
  | nil => rfl
  | cons c rest =>
    have hc := h c rfl
    simp only [Bool.or_eq_false_iff, decide_eq_false_iff_not] at hc
    have hzero : c ≠ '0' := by
      rintro rfl
      cases hc.2
    have hdigits : digits (c :: rest) = none := by
      simp [digits, hc.2]
    have hwhole : wholeDigits (c :: rest) = none := by
      rw [wholeDigits]
      · exact hdigits
      · intro tail heq
        exact hzero (List.cons.inj heq).1
    simp [numberHere, hc.1, hwhole]

/-! ### Strings -/

theorem quotedChars_cons {c : Char} (hquote : c ≠ '"') (hback : c ≠ '\\')
    (hline : isLineEnd c = false) (text : List Char) :
    quotedChars (c :: text) = (quotedChars text).map fun result => (c :: result.1, result.2) := by
  rw [quotedChars]
  · rw [if_neg (by simp [hback, hline])]
    cases quotedChars text <;> rfl
  · exact fun h => hquote h
  · intro _ _ _ _ _ h
    exact absurd h hback
  · intro _ _ h
    exact absurd h hback

theorem quotedChars_escape {c e : Char} (h : escaped? e = some c) (text : List Char) :
    quotedChars ('\\' :: e :: text) =
      (quotedChars text).map fun result => (c :: result.1, result.2) := by
  have hu : e ≠ 'u' := by
    rintro rfl
    cases h
  rw [quotedChars]
  · rw [h]
    cases quotedChars text <;> rfl
  · intro _ _ _ _ _ heq
    exact absurd heq hu

theorem quotedChars_escapeChar {c : Char}
    (h : Value.isControl c = true → c = '\t' ∨ c = '\n' ∨ c = '\r') (text : List Char) :
    quotedChars (Value.escapeChar c ++ text) =
      (quotedChars text).map fun result => (c :: result.1, result.2) := by
  rw [Value.escapeChar]
  split
  · subst c
    exact quotedChars_escape rfl text
  split
  · subst c
    exact quotedChars_escape rfl text
  split
  · subst c
    exact quotedChars_escape rfl text
  split
  · subst c
    exact quotedChars_escape rfl text
  split
  · subst c
    exact quotedChars_escape rfl text
  · rename_i hreturn hline htab hquote hback
    have hcontrol : Value.isControl c = false := by
      rw [← Bool.not_eq_true]
      intro htrue
      rcases h htrue with hc | hc | hc
      · exact htab hc
      · exact hline hc
      · exact hreturn hc
    rw [hcontrol]
    exact quotedChars_cons hquote hback (by simp [isLineEnd, hline, hreturn]) text

theorem quotedChars_reads {chars : List Char}
    (h : ∀ c ∈ chars, Value.isControl c = true → c = '\t' ∨ c = '\n' ∨ c = '\r')
    (rest : List Char) :
    quotedChars (chars.flatMap Value.escapeChar ++ '"' :: rest) = some (chars, rest) := by
  induction chars with
  | nil => rfl
  | cons c chars ih =>
    rw [List.flatMap_cons, List.append_assoc, quotedChars_escapeChar (h c List.mem_cons_self),
      ih fun d hd => h d (List.mem_cons_of_mem _ hd)]
    rfl

theorem exists_escapeChar (c : Char) :
    ∃ d tail, Value.escapeChar c = d :: tail ∧ d ≠ '"' := by
  rw [Value.escapeChar]
  split
  · exact ⟨_, _, rfl, by decide⟩
  split
  · exact ⟨_, _, rfl, by decide⟩
  split
  · exact ⟨_, _, rfl, by decide⟩
  split
  · exact ⟨_, _, rfl, by decide⟩
  split
  · exact ⟨_, _, rfl, by decide⟩
  split
  · exact ⟨_, _, rfl, by decide⟩
  · rename_i hquote _ _
    exact ⟨c, [], rfl, hquote⟩

theorem stringHere_reads {s : String} (hplain : Value.IsPlainText s) {rest : List Char}
    (hrest : Free (· = '"') rest) :
    stringHere ((Value.quote s).toList ++ rest) = some (s, rest) := by
  have htext : (Value.quote s).toList ++ rest =
      '"' :: (s.toList.flatMap Value.escapeChar ++ '"' :: rest) := by
    simp [Value.quote]
  have hquoted := quotedChars_reads hplain rest
  -- Three quotes would start a block string: neither the string nor what follows has a bare one.
  have hblock : ∀ more, s.toList.flatMap Value.escapeChar ++ '"' :: rest ≠ '"' :: '"' :: more := by
    intro more heq
    cases hchars : s.toList with
    | nil =>
      rw [hchars] at heq
      have hhead : rest.head? = some '"' := by
        rw [(List.cons.inj heq).2]
        rfl
      cases hrest _ hhead
    | cons c chars =>
      obtain ⟨d, tail, hescape, hne⟩ := exists_escapeChar c
      rw [hchars, List.flatMap_cons, hescape] at heq
      exact hne (List.cons.inj heq).1
  rw [htext, stringHere]
  · simp only [hquoted, Option.map_some, String.ofList_toList]
  · intro more heq
    exact hblock more (List.cons.inj heq).2

theorem stringHere_fails {text : List Char} (h : Free (· = '"') text) :
    stringHere text = none := by
  cases text with
  | nil => rfl
  | cons c rest =>
    have hne : c ≠ '"' := by simpa using h c rfl
    simp [stringHere, hne]

end EntitySchema.Sdl.Rule
