import EntitySchema.Proofs.Instant.Calendar
import Mathlib.Data.List.DropRight
import Mathlib.Data.List.Lex
import Mathlib.Data.String.Basic

/-! # The order of the texts of instants

The parts of an RFC 3339 text have fixed widths down to the second, so texts of different seconds
are in the order of time. Within a second the fraction decides, the width of which varies: a shorter
fraction that a longer one continues comes behind it, since the mark for UTC comes behind digits. -/
namespace EntitySchema.Instant

/-! ### Digits -/

def digits : Nat → Nat → List Char
  | 0, _ => []
  | width + 1, n => (n / 10 ^ width % 10).digitChar :: digits width n

theorem digitChar_lt_iff {a b : Nat} (ha : a < 10) (hb : b < 10) :
    a.digitChar < b.digitChar ↔ a < b := by
  have h : ∀ n < 10, n.digitChar.val.toNat = n + 48 := by decide
  rw [Char.lt_def, UInt32.lt_iff_toNat_lt, h a ha, h b hb]
  omega

theorem digitChar_inj {a b : Nat} (ha : a < 10) (hb : b < 10) :
    a.digitChar = b.digitChar ↔ a = b := by
  have h : ∀ a < 10, ∀ b < 10, a.digitChar = b.digitChar → a = b := by decide
  exact ⟨h a ha b hb, congrArg _⟩

theorem digitChar_lt_mark {a : Nat} (ha : a < 10) : a.digitChar < 'Z' := by
  revert a
  decide

theorem pow_ten_pos (width : Nat) : 0 < 10 ^ width := Nat.pow_pos (by decide)

/-- A number that fits into a width is a digit in front of a number that fits into the rest. -/
theorem exists_first {width n : Nat} (h : n < 10 ^ (width + 1)) :
    ∃ a rest, a < 10 ∧ rest < 10 ^ width ∧ n = a * 10 ^ width + rest := by
  refine ⟨n / 10 ^ width, n % 10 ^ width, ?_, Nat.mod_lt _ (pow_ten_pos width), ?_⟩
  · rw [Nat.div_lt_iff_lt_mul (pow_ten_pos width), ← Nat.pow_succ']
    exact h
  · rw [Nat.mul_comm, Nat.div_add_mod]

/-- The first digit decides, and then the rest. -/
theorem first_compare {p a b m n : Nat} (hm : m < p) (hn : n < p) :
    (a * p + m < b * p + n ↔ a < b ∨ a = b ∧ m < n) ∧
      (a * p + m = b * p + n ↔ a = b ∧ m = n) := by
  have hstep {c d : Nat} (h : c < d) : c * p + p ≤ d * p := by
    rw [← Nat.succ_mul]
    exact Nat.mul_le_mul_right p h
  rcases Nat.lt_trichotomy a b with hlt | rfl | hgt
  · have := hstep hlt
    omega
  · omega
  · have := hstep hgt
    omega

theorem first_eq_zero_iff {width a n : Nat} : a * 10 ^ width + n = 0 ↔ a = 0 ∧ n = 0 := by
  have := pow_ten_pos width
  rw [Nat.add_eq_zero_iff, Nat.mul_eq_zero]
  omega

theorem digits_add (width a n : Nat) : digits width (a * 10 ^ width + n) = digits width n := by
  induction width generalizing a with
  | zero => rfl
  | succ width ih =>
    have hsplit : a * 10 ^ (width + 1) = a * 10 * 10 ^ width := by
      rw [Nat.pow_succ', Nat.mul_assoc]
    have hfirst : (a * 10 * 10 ^ width + n) / 10 ^ width % 10 = n / 10 ^ width % 10 := by
      rw [Nat.add_comm, Nat.add_mul_div_right _ _ (pow_ten_pos width)]
      omega
    rw [digits, hsplit, ih, hfirst, digits]

theorem digits_cons {width a n : Nat} (ha : a < 10) (hn : n < 10 ^ width) :
    digits (width + 1) (a * 10 ^ width + n) = a.digitChar :: digits width n := by
  rw [digits, digits_add, Nat.add_comm, Nat.add_mul_div_right _ _ (pow_ten_pos width),
    Nat.div_eq_of_lt hn, Nat.zero_add, Nat.mod_eq_of_lt ha]

/-- Digits that fill a width are in the order of the numbers, whatever follows. -/
theorem digits_append_lt_iff {width m n : Nat} (hm : m < 10 ^ width) (hn : n < 10 ^ width)
    (r s : List Char) :
    digits width m ++ r < digits width n ++ s ↔ m < n ∨ m = n ∧ r < s := by
  induction width generalizing m n with
  | zero =>
    obtain rfl : m = 0 := by simpa using hm
    obtain rfl : n = 0 := by simpa using hn
    simp [digits]
  | succ width ih =>
    obtain ⟨a, m, ha, hm', rfl⟩ := exists_first hm
    obtain ⟨b, n, hb, hn', rfl⟩ := exists_first hn
    obtain ⟨hlt, heq⟩ := first_compare hm' hn' (a := a) (b := b)
    rw [digits_cons ha hm', digits_cons hb hn', List.cons_append, List.cons_append,
      List.cons_lt_cons_iff, ih hm' hn', digitChar_lt_iff ha hb, digitChar_inj ha hb, hlt, heq,
      and_or_left, and_assoc, or_assoc]

theorem digits_succ (width n : Nat) :
    digits (width + 1) n = digits width (n / 10) ++ [(n % 10).digitChar] := by
  induction width with
  | zero => simp [digits]
  | succ width ih =>
    rw [digits, ih, digits, List.cons_append, Nat.div_div_eq_div_mul, Nat.pow_succ']

theorem digits_zero (width : Nat) : digits width 0 = List.replicate width '0' := by
  induction width with
  | zero => rfl
  | succ width ih =>
    rw [digits, ih, Nat.zero_div]
    rfl

/-- A number that fits into a width is padded to just this width. -/
theorem toList_padded {width n : Nat} (hwidth : 0 < width) (h : n < 10 ^ width) :
    (padded width n).toList = digits width n := by
  have hpadded : (padded width n).toList =
      List.replicate (width - (Nat.toDigits 10 n).length) '0' ++ Nat.toDigits 10 n := by
    simp [padded, String.length]
  rw [hpadded]
  clear hpadded
  induction width generalizing n with
  | zero => omega
  | succ width ih =>
    rw [digits_succ]
    by_cases hsmall : n < 10
    · rw [Nat.toDigits_of_lt_base hsmall, Nat.div_eq_of_lt hsmall, digits_zero,
        Nat.mod_eq_of_lt hsmall]
      rfl
    · have hpos : 0 < width := by
        rcases Nat.eq_zero_or_pos width with rfl | hpos
        · omega
        · exact hpos
      have hdiv : n / 10 < 10 ^ width := by
        rw [Nat.pow_succ] at h
        omega
      rw [Nat.toDigits_of_base_le (by decide) (by omega), ← ih hpos hdiv]
      simp

/-! ### Fractions -/

def trimmed (width n : Nat) : List Char := (digits width n).rdropWhile (· = '0')

theorem rdropWhile_cons {α : Type} (p : α → Bool) (a : α) (l : List α) :
    (a :: l).rdropWhile p =
      if p a = true ∧ l.rdropWhile p = [] then [] else a :: l.rdropWhile p := by
  simp only [List.rdropWhile, List.reverse_cons, List.dropWhile_append, List.reverse_eq_nil_iff,
    List.isEmpty_iff]
  by_cases hl : l.reverse.dropWhile p = []
  · by_cases ha : p a = true <;> simp [hl, ha]
  · simp [hl]

theorem trimmed_eq_nil_iff {width n : Nat} (h : n < 10 ^ width) :
    trimmed width n = [] ↔ n = 0 := by
  induction width generalizing n with
  | zero =>
    obtain rfl : n = 0 := by simpa using h
    decide
  | succ width ih =>
    obtain ⟨a, m, ha, hm, rfl⟩ := exists_first h
    have hrest := ih hm
    rw [trimmed, List.rdropWhile_eq_nil_iff] at hrest ⊢
    rw [digits_cons ha hm, List.forall_mem_cons, hrest, first_eq_zero_iff, decide_eq_true_eq,
      Nat.digitChar_eq_zero]

theorem trimmed_cons {width a n : Nat} (ha : a < 10) (hn : n < 10 ^ width) :
    trimmed (width + 1) (a * 10 ^ width + n) =
      if a * 10 ^ width + n = 0 then [] else a.digitChar :: trimmed width n := by
  rw [trimmed, digits_cons ha hn, rdropWhile_cons]
  refine if_congr ?_ rfl rfl
  rw [first_eq_zero_iff, ← trimmed_eq_nil_iff hn, decide_eq_true_eq, Nat.digitChar_eq_zero]
  rfl

def cut (k n : Nat) : Nat := n / 10 ^ k * 10 ^ k

theorem cut_le (k n : Nat) : cut k n ≤ n := Nat.div_mul_le_self n (10 ^ k)

theorem cut_of_lt {k n : Nat} (h : n < 10 ^ k) : cut k n = 0 := by
  rw [cut, Nat.div_eq_of_lt h, Nat.zero_mul]

theorem cut_cons {width k : Nat} (a n : Nat) (h : k ≤ width) :
    cut k (a * 10 ^ width + n) = a * 10 ^ width + cut k n := by
  obtain ⟨more, rfl⟩ := Nat.exists_eq_add_of_le h
  rw [cut, cut, Nat.pow_add, Nat.mul_comm (10 ^ k) (10 ^ more), ← Nat.mul_assoc, Nat.add_comm,
    Nat.add_mul_div_right _ _ (pow_ten_pos k), Nat.add_mul, Nat.add_comm]

/-- What is left of a number that is cut, if it is not zero, has the first digit of the number. -/
theorem exists_cut_cons_iff {width a b m n : Nat} (hb : b < 10) (hm : m < 10 ^ width)
    (hn : n < 10 ^ width) (hzero : a * 10 ^ width + m ≠ 0) :
    (∃ k, a * 10 ^ width + m = cut k (b * 10 ^ width + n)) ↔ a = b ∧ ∃ k, m = cut k n := by
  constructor
  · rintro ⟨k, hk⟩
    rcases Nat.lt_or_ge width k with hlong | hshort
    · have hlt : b * 10 ^ width + n < 10 ^ k := by
        have hpow : 10 ^ (width + 1) ≤ 10 ^ k := Nat.pow_le_pow_right (by decide) hlong
        have hdigit : (b + 1) * 10 ^ width ≤ 10 * 10 ^ width := Nat.mul_le_mul_right _ hb
        rw [Nat.pow_succ'] at hpow
        rw [Nat.succ_mul] at hdigit
        omega
      exact absurd (hk.trans (cut_of_lt hlt)) hzero
    · rw [cut_cons b n hshort] at hk
      obtain ⟨hab, hrest⟩ := (first_compare hm ((cut_le k n).trans_lt hn)).2.1 hk
      exact ⟨hab, k, hrest⟩
  · rintro ⟨rfl, k, rfl⟩
    rcases Nat.lt_or_ge width k with hlong | hshort
    · have hpow : 10 ^ width ≤ 10 ^ k := Nat.pow_le_pow_right (by decide) hlong.le
      refine ⟨width, ?_⟩
      rw [cut_cons a n le_rfl, cut_of_lt hn, cut_of_lt (hn.trans_le hpow)]
    · exact ⟨k, (cut_cons a n hshort).symm⟩

/-- In front of the mark, the greater of two fractions comes first exactly if the other one is cut
from it. By induction on the width, a digit at a time. -/
theorem trimmed_lt_iff {width m n : Nat} (hle : m ≤ n) (h : n < 10 ^ width) :
    trimmed width n ++ ['Z'] < trimmed width m ++ ['Z'] ↔ m ≠ n ∧ ∃ k, m = cut k n := by
  induction width generalizing m n with
  | zero =>
    obtain rfl : n = 0 := by simpa using h
    obtain rfl : m = 0 := by omega
    simp
  | succ width ih =>
    by_cases hn0 : n = 0
    · obtain rfl : m = 0 := by omega
      simp [hn0]
    obtain ⟨b, n, hb, hn, rfl⟩ := exists_first h
    rw [trimmed_cons hb hn, if_neg hn0, List.cons_append]
    by_cases hm0 : m = 0
    · -- The mark stands where the greater fraction has its first digit.
      subst hm0
      rw [(trimmed_eq_nil_iff (pow_ten_pos _)).2 rfl, List.nil_append]
      exact iff_of_true (.rel (digitChar_lt_mark hb)) ⟨Ne.symm hn0, width + 1, (cut_of_lt h).symm⟩
    obtain ⟨a, m, ha, hm, rfl⟩ := exists_first (hle.trans_lt h)
    obtain ⟨hlt, heq⟩ := first_compare hm hn (a := a) (b := b)
    rw [trimmed_cons ha hm, if_neg hm0, List.cons_append, List.cons_lt_cons_iff,
      digitChar_lt_iff hb ha, digitChar_inj hb ha, exists_cut_cons_iff hb hm hn hm0, Ne, heq]
    by_cases hsame : a = b
    · subst hsame
      simpa using ih (by omega) hn
    · simp [hsame, Ne.symm hsame]
      omega

theorem fractionText_lt_iff {m n : Nat} (hle : m ≤ n) (h : n < 10 ^ 9) :
    (fractionText n).toList ++ ['Z'] < (fractionText m).toList ++ ['Z'] ↔
      m ≠ n ∧ ∃ k, m = cut k n := by
  have htext {k : Nat} (hk : k < 10 ^ 9) (hpos : k ≠ 0) :
      (fractionText k).toList = '.' :: trimmed 9 k := by
    simp only [fractionText, if_neg hpos, String.toList_append, String.toList_ofList,
      toList_padded (by decide) hk]
    rfl
  by_cases hn0 : n = 0
  · obtain rfl : m = 0 := by omega
    simp [hn0]
  rw [htext h hn0, List.cons_append]
  by_cases hm0 : m = 0
  · subst hm0
    exact iff_of_true (.rel (by decide)) ⟨Ne.symm hn0, 9, (cut_of_lt h).symm⟩
  · rw [htext (hle.trans_lt h) hm0, List.cons_append, List.cons_lt_cons_iff, trimmed_lt_iff hle h]
    simp

/-! ### Texts -/

def behindYear (t : Instant) : List Char :=
  '-' :: (digits 2 t.date.month ++ '-' :: (digits 2 t.date.day ++ 'T' ::
    (digits 2 (t.secondOfDay / 3600) ++ ':' :: (digits 2 (t.secondOfDay / 60 % 60) ++ ':' ::
      (digits 2 (t.secondOfDay % 60) ++ ((fractionText t.nanos).toList ++ ['Z']))))))

theorem month_lt (t : Instant) : t.date.month < 10 ^ 2 :=
  (Date.ofDays_bounds (t.seconds / 86400)).1.trans_lt (by decide)

theorem day_lt (t : Instant) : t.date.day < 10 ^ 2 :=
  (Date.ofDays_bounds (t.seconds / 86400)).2.trans_lt (by decide)

theorem secondOfDay_lt (t : Instant) : t.secondOfDay < 86400 := by
  simp only [secondOfDay]
  omega

theorem toList_of_rfc3339? {t : Instant} {text : String} (h : t.rfc3339? = some text) :
    0 ≤ t.date.year ∧ t.date.year.toNat < 10 ^ 4 ∧
      text.toList = digits 4 t.date.year.toNat ++ behindYear t := by
  have hsecond := t.secondOfDay_lt
  rw [rfc3339?] at h
  split_ifs at h with hyear
  have hwidth : t.date.year.toNat < 10 ^ 4 := by omega
  refine ⟨hyear.1, hwidth, ?_⟩
  rw [← Option.some.inj h]
  simp only [String.toList_append, List.append_assoc]
  rw [toList_padded (by decide) hwidth, toList_padded (by decide) t.month_lt,
    toList_padded (by decide) t.day_lt, toList_padded (by decide) (by omega),
    toList_padded (by decide) (by omega), toList_padded (by decide) (by omega)]
  rfl

theorem separator_lt_iff (c : Char) (r s : List Char) : c :: r < c :: s ↔ r < s := by
  simp

theorem behindYear_lt_iff (a b : Instant) : behindYear a < behindYear b ↔
    a.date.month < b.date.month ∨ a.date.month = b.date.month ∧
      (a.date.day < b.date.day ∨ a.date.day = b.date.day ∧
        (a.secondOfDay < b.secondOfDay ∨ a.secondOfDay = b.secondOfDay ∧
          (fractionText a.nanos).toList ++ ['Z'] < (fractionText b.nanos).toList ++ ['Z'])) := by
  have ha := a.secondOfDay_lt
  have hb := b.secondOfDay_lt
  -- Hours, minutes and seconds are the digits of the second of the day to the base 60.
  have hlt : a.secondOfDay < b.secondOfDay ↔
      a.secondOfDay / 3600 < b.secondOfDay / 3600 ∨
        a.secondOfDay / 3600 = b.secondOfDay / 3600 ∧
        (a.secondOfDay / 60 % 60 < b.secondOfDay / 60 % 60 ∨
          a.secondOfDay / 60 % 60 = b.secondOfDay / 60 % 60 ∧
          a.secondOfDay % 60 < b.secondOfDay % 60) := by omega
  have heq : a.secondOfDay = b.secondOfDay ↔
      a.secondOfDay / 3600 = b.secondOfDay / 3600 ∧
        a.secondOfDay / 60 % 60 = b.secondOfDay / 60 % 60 ∧
        a.secondOfDay % 60 = b.secondOfDay % 60 := by omega
  rw [behindYear, behindYear, separator_lt_iff, digits_append_lt_iff a.month_lt b.month_lt,
    separator_lt_iff, digits_append_lt_iff a.day_lt b.day_lt, separator_lt_iff,
    digits_append_lt_iff (by omega) (by omega), separator_lt_iff,
    digits_append_lt_iff (by omega) (by omega), separator_lt_iff,
    digits_append_lt_iff (by omega) (by omega), hlt, heq]
  simp only [and_or_left, and_assoc, or_assoc]

theorem text_lt_of_seconds_lt {a b : Instant} {text text' : String}
    (ha : a.rfc3339? = some text) (hb : b.rfc3339? = some text') (h : a.seconds < b.seconds) :
    text < text' := by
  obtain ⟨hyear, hwidth, htext⟩ := toList_of_rfc3339? ha
  obtain ⟨hyear', hwidth', htext'⟩ := toList_of_rfc3339? hb
  rw [String.lt_iff_toList_lt, htext, htext', digits_append_lt_iff hwidth hwidth',
    behindYear_lt_iff]
  have hday : a.seconds / 86400 ≤ b.seconds / 86400 := by omega
  rcases hday.lt_or_eq with hbefore | hsame
  · have hdate : a.date.Before b.date := Date.ofDays_before hbefore
    rcases hdate with hyears | ⟨hyears, hmonths | ⟨hmonths, hdays⟩⟩
    · exact .inl (by omega)
    · exact .inr ⟨by omega, .inl hmonths⟩
    · exact .inr ⟨by omega, .inr ⟨hmonths, .inl hdays⟩⟩
  · have hdate : a.date = b.date := congrArg Date.ofDays hsame
    have hsecond : a.secondOfDay < b.secondOfDay := by
      simp only [secondOfDay]
      omega
    rw [hdate]
    exact .inr ⟨rfl, .inr ⟨rfl, .inr ⟨rfl, .inl hsecond⟩⟩⟩

theorem text_lt_iff_of_seconds_eq {a b : Instant} {text text' : String}
    (ha : a.rfc3339? = some text) (hb : b.rfc3339? = some text') (h : a.seconds = b.seconds) :
    text < text' ↔
      (fractionText a.nanos).toList ++ ['Z'] < (fractionText b.nanos).toList ++ ['Z'] := by
  obtain ⟨-, hwidth, htext⟩ := toList_of_rfc3339? ha
  obtain ⟨-, hwidth', htext'⟩ := toList_of_rfc3339? hb
  have hdate : a.date = b.date := congrArg (fun s => Date.ofDays (s / 86400)) h
  have hsecond : a.secondOfDay = b.secondOfDay := congrArg (fun s => (s % 86400).toNat) h
  rw [String.lt_iff_toList_lt, htext, htext', digits_append_lt_iff hwidth hwidth',
    behindYear_lt_iff, hdate, hsecond]
  simp

/-- An instant is another one with zeros for some of the last digits of its fraction. -/
def CutFrom (a b : Instant) : Prop :=
  a.seconds = b.seconds ∧ a.nanos ≠ b.nanos ∧ ∃ k, a.nanos = cut k b.nanos

/-- The text of the later of two instants comes first exactly if the earlier one is cut from it. -/
theorem text_lt_iff_cutFrom {a b : Instant} {text text' : String} (ha : a.rfc3339? = some text)
    (hb : b.rfc3339? = some text') (hle : a.le b = true) (hnanos : b.nanos < 10 ^ 9) :
    text' < text ↔ a.CutFrom b := by
  simp only [le, decide_eq_true_eq] at hle
  rcases hle with hbefore | ⟨hsame, hnano⟩
  · have hlt := text_lt_of_seconds_lt ha hb hbefore
    refine iff_of_false (fun h => lt_asymm h hlt) fun hcut => ?_
    exact absurd hcut.1 hbefore.ne
  · rw [text_lt_iff_of_seconds_eq hb ha hsame.symm, fractionText_lt_iff hnano hnanos, CutFrom]
    simp [hsame]

end EntitySchema.Instant
