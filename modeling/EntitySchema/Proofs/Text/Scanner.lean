import EntitySchema.Text.Scanner

/-! # Scanners

How the result of a composed scanner comes from the results of its parts: forwards, to run a
scanner on a text that is known, and backwards, to see what a scanner can yield at all. -/
namespace EntitySchema.Text.Scanner

variable {α β : Type} {scanner other : Scanner α} {next : α → Scanner β}

/-! ### Running forwards -/

theorem pure_apply (a : α) (text : List Char) : (pure a : Scanner α) text = some (a, text) := rfl

theorem bind_of_some {text mid : List Char} {a : α} (h : scanner text = some (a, mid)) :
    (scanner >>= next) text = next a mid := by
  simp only [bind, StateT.bind, h]
  rfl

theorem bind_of_none {text : List Char} (h : scanner text = none) :
    (scanner >>= next) text = none := by
  simp only [bind, StateT.bind, h]
  rfl

theorem map_of_some {f : α → β} {text rest : List Char} {a : α}
    (h : scanner text = some (a, rest)) : (f <$> scanner) text = some (f a, rest) := by
  simp only [Functor.map, StateT.map, h]
  rfl

theorem map_of_none {f : α → β} {text : List Char} (h : scanner text = none) :
    (f <$> scanner) text = none := by
  simp only [Functor.map, StateT.map, h]
  rfl

theorem orElse_of_some {text : List Char} {result : α × List Char}
    (h : scanner text = some result) : (scanner <|> other) text = some result := by
  simp only [HOrElse.hOrElse, OrElse.orElse, Alternative.orElse, StateT.orElse, h]
  rfl

theorem orElse_of_none {text : List Char} (h : scanner text = none) :
    (scanner <|> other) text = other text := by
  simp only [HOrElse.hOrElse, OrElse.orElse, Alternative.orElse, StateT.orElse, h]
  rfl

theorem orNone_of_some {list : Scanner (List α)} {text : List Char} {result : List α × List Char}
    (h : list text = some result) : orNone list text = some result :=
  orElse_of_some h

theorem orNone_of_none {list : Scanner (List α)} {text : List Char} (h : list text = none) :
    orNone list text = some ([], text) :=
  orElse_of_none h

inductive ReadsAll (scanner : Scanner α) : List Char → List α → List Char → Prop
  | nil {text : List Char} (hend : scanner text = none) : ReadsAll scanner text [] text
  | cons {text mid rest : List Char} {a : α} {as : List α} (hfirst : scanner text = some (a, mid))
      (hshorter : mid.length < text.length) (hrest : ReadsAll scanner mid as rest) :
      ReadsAll scanner text (a :: as) rest

theorem manyWithin_of_readsAll {fuel : Nat} {text rest : List Char} {as : List α}
    (h : ReadsAll scanner text as rest) (hfuel : text.length ≤ fuel) :
    manyWithin scanner fuel text = some (as, rest) := by
  induction h generalizing fuel with
  | nil hend =>
    cases fuel with
    | zero => rfl
    | succ fuel =>
      rw [manyWithin, orElse_of_none (bind_of_none hend)]
      rfl
  | cons hfirst hshorter hrest ih =>
    cases fuel with
    | zero => omega
    | succ fuel =>
      rw [manyWithin]
      refine orElse_of_some ?_
      rw [bind_of_some hfirst, bind_of_some (ih (by omega))]
      rfl

theorem many_of_readsAll {text rest : List Char} {as : List α}
    (h : ReadsAll scanner text as rest) : many scanner text = some (as, rest) :=
  manyWithin_of_readsAll h (Nat.le_refl _)

theorem many1_of_readsAll {text rest : List Char} {as : List α}
    (h : ReadsAll scanner text as rest) (hne : as ≠ []) :
    many1 scanner text = some (as, rest) := by
  cases h with
  | nil => exact absurd rfl hne
  | cons hfirst hshorter hrest =>
    rw [many1, bind_of_some hfirst, bind_of_some (many_of_readsAll hrest)]
    rfl

/-- Phrases that stand one after another are read back, if each can be read back from in front of
what may follow it. -/
theorem readsAll_flatMap {write : α → List Char} {Follows : List Char → Prop} {items : List α}
    {rest : List Char}
    (hread : ∀ a ∈ items, ∀ more, Follows more → scanner (write a ++ more) = some (a, more))
    (hnext : ∀ a ∈ items, ∀ more, Follows (write a ++ more)) (hne : ∀ a ∈ items, write a ≠ [])
    (hrest : Follows rest) (hend : scanner rest = none) :
    Follows (items.flatMap write ++ rest) ∧
      ReadsAll scanner (items.flatMap write ++ rest) items rest := by
  induction items with
  | nil => exact ⟨hrest, .nil hend⟩
  | cons a as ih =>
    obtain ⟨hfollows, hall⟩ := ih (fun b hb => hread b (List.mem_cons_of_mem _ hb))
      (fun b hb => hnext b (List.mem_cons_of_mem _ hb))
      (fun b hb => hne b (List.mem_cons_of_mem _ hb))
    rw [List.flatMap_cons, List.append_assoc]
    refine ⟨hnext a List.mem_cons_self _, .cons (hread a List.mem_cons_self _ hfollows) ?_ hall⟩
    have hpos := List.length_pos_iff.2 (hne a List.mem_cons_self)
    simp only [List.length_append]
    omega

/-! ### Looking back -/

theorem bind_eq_some_iff {text rest : List Char} {b : β} :
    (scanner >>= next) text = some (b, rest) ↔
      ∃ a mid, scanner text = some (a, mid) ∧ next a mid = some (b, rest) := by
  cases h : scanner text with
  | none => simp [bind_of_none h]
  | some result =>
    obtain ⟨a, mid⟩ := result
    rw [bind_of_some h]
    constructor
    · intro hnext
      exact ⟨a, mid, rfl, hnext⟩
    · rintro ⟨_, _, heq, hnext⟩
      cases heq
      exact hnext

def Yields (scanner : Scanner α) (P : α → Prop) : Prop :=
  ∀ text a rest, scanner text = some (a, rest) → P a

namespace Yields

variable {P : α → Prop} {Q : β → Prop}

theorem of_forall (h : ∀ a, P a) : Yields scanner P := fun _ a _ _ => h a

theorem pure {a : α} (h : P a) : Yields (pure a : Scanner α) P := by
  intro text b rest hread
  cases hread
  exact h

theorem failure : Yields (failure : Scanner α) P := by
  intro text a rest hread
  cases hread

theorem bind (h : Yields scanner P) (hnext : ∀ a, P a → Yields (next a) Q) :
    Yields (scanner >>= next) Q := by
  intro text b rest hread
  obtain ⟨a, mid, hfirst, hsecond⟩ := bind_eq_some_iff.1 hread
  exact hnext a (h text a mid hfirst) mid b rest hsecond

/-- A part whose own result does not matter. -/
theorem andThen (hnext : ∀ a, Yields (next a) Q) : Yields (scanner >>= next) Q :=
  bind (of_forall fun _ => trivial) fun a _ => hnext a

theorem map {f : α → β} (h : Yields scanner P) (himp : ∀ a, P a → Q (f a)) :
    Yields (f <$> scanner) Q := by
  intro text b rest hread
  cases hfirst : scanner text with
  | none =>
    rw [map_of_none hfirst] at hread
    cases hread
  | some result =>
    obtain ⟨a, mid⟩ := result
    rw [map_of_some hfirst] at hread
    cases hread
    exact himp a (h text a _ hfirst)

theorem orElse (h : Yields scanner P) (hother : Yields other P) :
    Yields (scanner <|> other) P := by
  intro text a rest hread
  cases hfirst : scanner text with
  | none =>
    rw [orElse_of_none hfirst] at hread
    exact hother text a rest hread
  | some result =>
    rw [orElse_of_some hfirst] at hread
    cases hread
    exact h text a rest hfirst

theorem manyWithin (h : Yields scanner P) (fuel : Nat) :
    Yields (Scanner.manyWithin scanner fuel) fun as => ∀ a ∈ as, P a := by
  induction fuel with
  | zero => exact pure fun _ ha => absurd ha List.not_mem_nil
  | succ fuel ih =>
    refine orElse ?_ (pure fun _ ha => absurd ha List.not_mem_nil)
    refine bind h fun _ ha => bind ih fun _ has => pure ?_
    exact List.forall_mem_cons.2 ⟨ha, has⟩

theorem many (h : Yields scanner P) :
    Yields (Scanner.many scanner) fun as => ∀ a ∈ as, P a :=
  fun text as rest hread => manyWithin h text.length text as rest hread

theorem many1 (h : Yields scanner P) :
    Yields (Scanner.many1 scanner) fun as => ∀ a ∈ as, P a := by
  refine bind h fun _ ha => bind (many h) fun _ has => pure ?_
  exact List.forall_mem_cons.2 ⟨ha, has⟩

theorem orNone {list : Scanner (List α)} (h : Yields list fun as => ∀ a ∈ as, P a) :
    Yields (Scanner.orNone list) fun as => ∀ a ∈ as, P a :=
  orElse h (pure fun _ ha => absurd ha List.not_mem_nil)

end Yields

end EntitySchema.Text.Scanner
