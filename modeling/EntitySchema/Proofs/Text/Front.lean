import EntitySchema.Text.Scanner

/-! # Texts made of pieces

What stands at the front of a text, decimal digits, and texts joined by a separator. -/
namespace EntitySchema.Text

/-- The front of a text is no character of a kind. -/
def Free (accepts : Char → Bool) (text : List Char) : Prop :=
  ∀ c ∈ text.head?, accepts c = false

def StartsIn (chars : List Char) (text : List Char) : Prop :=
  ∀ c ∈ text.head?, c ∈ chars

theorem StartsIn.free {chars text : List Char} (h : StartsIn chars text) {accepts : Char → Bool}
    (hchars : chars.all (!accepts ·) = true) : Free accepts text := by
  intro c hc
  simpa using List.all_eq_true.1 hchars c (h c hc)

theorem free_of_eq {accepts : Char → Bool} {text tail : List Char} {c : Char}
    (h : text = c :: tail) (hc : accepts c = false) : Free accepts text := by
  intro d hd
  rw [h] at hd
  cases hd
  exact hc

theorem Free.takeWhile {accepts : Char → Bool} {word text : List Char} (h : Free accepts text)
    (hword : ∀ c ∈ word, accepts c = true) : (word ++ text).takeWhile accepts = word := by
  rw [List.takeWhile_append_of_pos hword]
  cases text with
  | nil => simp
  | cons c text => simp [h c rfl]

theorem Free.dropWhile {accepts : Char → Bool} {word text : List Char} (h : Free accepts text)
    (hword : ∀ c ∈ word, accepts c = true) : (word ++ text).dropWhile accepts = text := by
  rw [List.dropWhile_append_of_pos hword]
  cases text with
  | nil => rfl
  | cons c text => simp [h c rfl]

theorem dropLiteral?_self_append (literal text : List Char) :
    dropLiteral? literal (literal ++ text) = some text := by
  induction literal with
  | nil => rfl
  | cons c literal ih =>
    rw [List.cons_append, dropLiteral?, if_pos rfl]
    exact ih

/-- A word is met at the front of a name only if it is met in the name. -/
theorem dropLiteral?_append_of_free {accepts : Char → Bool} {literal name text : List Char}
    (hname : dropLiteral? literal name = none) (hliteral : ∀ c ∈ literal, accepts c = true)
    (h : Free accepts text) : dropLiteral? literal (name ++ text) = none := by
  induction literal generalizing name with
  | nil => cases hname
  | cons c literal ih =>
    cases name with
    | nil =>
      cases text with
      | nil => rfl
      | cons d text =>
        have hne : c ≠ d := by
          rintro rfl
          have htrue := hliteral c List.mem_cons_self
          rw [h c rfl] at htrue
          cases htrue
        rw [List.nil_append, dropLiteral?, if_neg hne]
    | cons d name =>
      rw [dropLiteral?] at hname
      rw [List.cons_append, dropLiteral?]
      split
      · rename_i heq
        rw [if_pos heq] at hname
        exact ih hname fun e he => hliteral e (List.mem_cons_of_mem _ he)
      · rfl

/-! ### Digits -/

theorem exists_toDigits (n : Nat) :
    ∃ c rest, Nat.toDigits 10 n = c :: rest ∧ c.isDigit = true ∧ (0 < n → c ≠ '0') := by
  induction n using Nat.strongRecOn with
  | ind n ih =>
    by_cases hsmall : n < 10
    · refine ⟨n.digitChar, [], Nat.toDigits_of_lt_base hsmall, ?_, ?_⟩
      · rw [Nat.isDigit_digitChar, decide_eq_true hsmall]
      · intro hpos hzero
        have := Nat.digitChar_eq_zero.1 hzero
        omega
    · obtain ⟨c, rest, heq, hdigit, hzero⟩ := ih (n / 10) (by omega)
      refine ⟨c, rest ++ [(n % 10).digitChar], ?_, hdigit, fun _ => hzero (by omega)⟩
      rw [Nat.toDigits_of_base_le (by decide) (by omega), heq]
      rfl

theorem natOfDigits_toDigits (n : Nat) : natOfDigits (Nat.toDigits 10 n) = n := by
  have h := Nat.ofDigitChars_toDigits (b := 10) (n := n) (by decide) (by decide)
  rw [Nat.ofDigitChars_eq_foldl] at h
  exact h

/-! ### Joined texts -/

theorem intercalate_toList_cons {α : Type} (write : α → String) (sep : String) (a : α)
    (as : List α) :
    (sep.intercalate ((a :: as).map write)).toList =
      (write a).toList ++ as.flatMap fun b => sep.toList ++ (write b).toList := by
  induction as generalizing a with
  | nil => simp
  | cons b bs ih =>
    have htail := ih b
    simp only [List.map_cons] at htail
    rw [List.map_cons, List.map_cons, String.intercalate_cons_cons, String.toList_append,
      String.toList_append, htail, List.flatMap_cons]
    simp only [List.append_assoc]

end EntitySchema.Text
