import EntitySchema.Proofs.Sdl.Values

/-! # Reading directives back

Directives are read back from their text, if a blank or a line end stands behind them, and then
nothing that could go on with them. -/
namespace EntitySchema.Sdl

open Text Text.Scanner

def Apart (rest : List Char) : Prop := StartsIn [' ', '\n'] rest

namespace Rule

def goesOn (c : Char) : Bool := c = '(' || c = '@' || c = '='

/-- Nothing behind a phrase can be taken for a part of it. -/
def Closed (rest : List Char) : Prop := Apart rest ∧ Free goesOn (skipIgnored rest)

/-- A fixed text is not met in front of another character than its first one. -/
theorem lit_fails_of_free {word : String} {w : Char} {word' : List Char}
    (hword : word.toList = w :: word') {text : List Char} (h : Free (· = w) (skipIgnored text)) :
    dropLiteral? word.toList (skipIgnored text) = none := by
  rw [hword]
  cases hfront : skipIgnored text with
  | nil => rfl
  | cons c tail =>
    have hne : w ≠ c := by
      rintro rfl
      rw [hfront] at h
      simpa using h _ rfl
    exact if_neg hne

theorem Closed.free {rest : List Char} (h : Closed rest) {c : Char} (hc : goesOn c = true) :
    Free (· = c) (skipIgnored rest) := by
  intro d hd
  rw [decide_eq_false_iff_not]
  rintro rfl
  rw [h.2 d hd] at hc
  cases hc

theorem value_reads {value : Value} (hwell : value.WellFormed) (hplain : value.Plain)
    {text rest : List Char} (hrest : StartsIn closers rest)
    (h : skipIgnored text = value.text.toList ++ rest) : Rule.value text = some (value, rest) := by
  refine valueWithin_reads hwell hplain ?_ hrest h
  have hle : (skipIgnored text).length ≤ text.length := length_skipFrom_le false text
  rw [h, List.length_append] at hle
  omega

/-! ### Directives -/

theorem directive_toList (directive : Directive) :
    directive.text.toList = '@' :: (directive.name.toList ++
      if directive.arguments.isEmpty then []
      else '(' :: ((", ".intercalate (directive.arguments.map memberText)).toList ++ [')'])) := by
  have htext : directive.text = "@" ++ directive.name ++
      (if (directive.arguments.map memberText).isEmpty then ""
        else "(" ++ ", ".intercalate (directive.arguments.map memberText) ++ ")") := rfl
  rw [htext, List.isEmpty_map]
  cases directive.arguments.isEmpty <;> simp

theorem directive_reads {directive : Directive} (hwell : directive.WellFormed)
    (hplain : directive.Plain) {text rest : List Char} (hrest : Apart rest)
    (hopen : Free (· = '(') (skipIgnored rest))
    (h : skipIgnored text = directive.text.toList ++ rest) :
    Rule.directive text = some (directive, rest) := by
  obtain ⟨name, arguments⟩ := directive
  obtain ⟨hname, harguments⟩ := hwell
  rw [directive_toList, List.cons_append, List.append_assoc] at h
  dsimp only at hname harguments h
  have hskip := skipIgnored_name hname
  cases arguments with
  | nil =>
    have hat : lit "@" text = some ((), name.toList ++ rest) := lit_reads h
    have hparen : dropLiteral? "(".toList (skipIgnored rest) = none :=
      lit_fails_of_free rfl hopen
    rw [Rule.directive, bind_of_some hat,
      bind_of_some (name_reads hname (hrest.free (by decide)) (hskip _)),
      bind_of_some (orNone_of_none (bracketed_fails hparen))]
    rfl
  | cons first others =>
    have hread : ∀ argument ∈ first :: others, ∀ more, StartsIn closers more →
        Rule.value (' ' :: (argument.2.text.toList ++ more)) = some (argument.2, more) := by
      intro argument hargument more hmore
      obtain ⟨-, hvalue⟩ := harguments argument hargument
      obtain ⟨c, tail, heq, hsolid⟩ := exists_text hvalue (hplain argument hargument)
      refine value_reads hvalue (hplain argument hargument) hmore ?_
      rw [skipIgnored_blank rfl, heq]
      exact skipIgnored_solid hsolid _
    have hclose : ')' ∈ ['\x7d', ')'] := by decide
    have hall := readsAll_members (fun argument hargument => (harguments argument hargument).1)
      hread hclose rest
    have hfree : Free isNameRest ('(' ::
        ((", ".intercalate ((first :: others).map memberText)).toList ++ ')' :: rest)) := by
      intro c hc
      cases hc
      rfl
    have hat : lit "@" text = some ((), name.toList ++ '(' ::
        ((", ".intercalate ((first :: others).map memberText)).toList ++ ')' :: rest)) := by
      refine lit_reads ?_
      rw [h]
      simp
    rw [Rule.directive, bind_of_some hat, bind_of_some (name_reads hname hfree (hskip _)),
      bind_of_some (orNone_of_some (bracketed_reads rfl
        (many1_of_readsAll hall (List.cons_ne_nil _ _)) rfl))]
    rfl

theorem directivesText_toList (directives : List Directive) :
    (directivesText directives).toList =
      directives.flatMap fun directive => ' ' :: directive.text.toList := by
  rw [directivesText, String.toList_join, List.flatMap_map]
  refine List.flatMap_congr fun directive _ => ?_
  rw [String.toList_append]
  rfl

theorem apart_directivesText (directives : List Directive) {rest : List Char}
    (hrest : Apart rest) : Apart ((directivesText directives).toList ++ rest) := by
  rw [directivesText_toList]
  cases directives with
  | nil => exact hrest
  | cons first others =>
    intro c hc
    cases hc
    exact List.mem_cons_self

theorem skipIgnored_directive (directive : Directive) (rest : List Char) :
    skipIgnored (' ' :: (directive.text.toList ++ rest)) = directive.text.toList ++ rest := by
  rw [skipIgnored_blank rfl, directive_toList]
  exact skipIgnored_solid rfl _

theorem free_directivesText (directives : List Directive) {accepts : Char → Bool}
    (hat : accepts '@' = false) {rest : List Char} (hrest : Free accepts (skipIgnored rest)) :
    Free accepts (skipIgnored ((directivesText directives).toList ++ rest)) := by
  rw [directivesText_toList]
  cases directives with
  | nil => exact hrest
  | cons first others =>
    rw [List.flatMap_cons, List.append_assoc, List.cons_append, skipIgnored_directive,
      directive_toList]
    intro c hc
    cases hc
    exact hat

/-- The directives of a field or of a definition are read back, if any. -/
theorem directives_read {directives : List Directive}
    (hwell : ∀ directive ∈ directives, directive.WellFormed)
    (hplain : ∀ directive ∈ directives, directive.Plain) {rest : List Char}
    (hrest : Closed rest) :
    orNone Rule.directives ((directivesText directives).toList ++ rest) =
      some (directives, rest) := by
  have hend : Rule.directive rest = none :=
    bind_of_none (lit_fails (lit_fails_of_free rfl (hrest.free rfl)))
  rw [directivesText_toList]
  cases directives with
  | nil => exact orNone_of_none (bind_of_none hend)
  | cons first others =>
    have hread : ∀ directive ∈ first :: others, ∀ more,
        Apart more ∧ Free (· = '(') (skipIgnored more) →
        Rule.directive ((' ' :: directive.text.toList) ++ more) = some (directive, more) := by
      intro directive hmem more hmore
      exact directive_reads (hwell directive hmem) (hplain directive hmem) hmore.1 hmore.2
        (skipIgnored_directive directive more)
    have hstart : ∀ directive ∈ first :: others, ∀ more,
        Apart ((' ' :: directive.text.toList) ++ more) ∧
          Free (· = '(') (skipIgnored ((' ' :: directive.text.toList) ++ more)) := by
      intro directive _ more
      constructor
      · intro c hc
        cases hc
        exact List.mem_cons_self
      · rw [List.cons_append, skipIgnored_directive, directive_toList]
        intro c hc
        cases hc
        rfl
    have hall := readsAll_flatMap hread hstart (fun _ _ => List.cons_ne_nil _ _)
      ⟨hrest.1, hrest.free rfl⟩ hend
    exact orNone_of_some (many1_of_readsAll hall.2 (List.cons_ne_nil _ _))

end Rule

end EntitySchema.Sdl
