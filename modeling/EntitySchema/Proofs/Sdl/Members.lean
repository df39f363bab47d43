import EntitySchema.Proofs.Sdl.Directives

/-! # Reading members back

The fields of a type and the values of an enum are read back from the lines of their block. -/
namespace EntitySchema.Sdl

open Text Text.Scanner

namespace Rule

theorem discard_of_none {α : Type} {rule : Rule α} {text : List Char} (h : rule text = none) :
    (discard rule : Rule PUnit) text = none := by
  change ((fun _ => PUnit.unit) <$> rule) text = none
  exact map_of_none h

/-- No description stands in front of a phrase that starts with no quote. -/
theorem description_passes {text : List Char} (h : Free (· = '"') (skipIgnored text)) :
    description text = some ((), text) :=
  orElse_of_none (discard_of_none (string_fails h))

theorem not_quote_of_isNameStart {c : Char} (h : isNameStart c = true) :
    decide (c = '"') = false := by
  rw [decide_eq_false_iff_not]
  rintro rfl
  cases h

theorem skipIgnored_type {type : TypeExpr} (hwell : type.WellFormed) (rest : List Char) :
    skipIgnored (type.text.toList ++ rest) = type.text.toList ++ rest := by
  cases type with
  | named name required =>
    rw [TypeExpr.text, String.toList_append, List.append_assoc]
    exact skipIgnored_name hwell _
  | list item required =>
    rw [TypeExpr.text, String.toList_append, String.toList_append, String.toList_append]
    exact skipIgnored_solid rfl _

theorem field_toList (field : FieldDef) (rest : List Char) :
    field.text.toList ++ rest = field.name.toList ++ ':' :: ' ' ::
      (field.type.text.toList ++ ((directivesText field.directives).toList ++ rest)) := by
  simp [FieldDef.text]

/-- What every reading of a field meets: no description, and apart from its directives nothing
that could go on with its type. -/
theorem field_parts {field : FieldDef} (hwell : field.WellFormed) {text rest : List Char}
    (hrest : Closed rest) (h : skipIgnored text = field.text.toList ++ rest) :
    description text = some ((), text) ∧
      Rule.name text = some (field.name, ':' :: ' ' :: (field.type.text.toList ++
        ((directivesText field.directives).toList ++ rest))) ∧
      typeExpr (' ' :: (field.type.text.toList ++
        ((directivesText field.directives).toList ++ rest))) =
        some (field.type, (directivesText field.directives).toList ++ rest) := by
  obtain ⟨hname, htype, -⟩ := hwell
  rw [field_toList] at h
  obtain ⟨c, tail, heq, hstart, -⟩ := id hname
  have hquote : Free (· = '"') (skipIgnored text) := by
    rw [h, heq]
    exact free_of_eq rfl (not_quote_of_isNameStart hstart)
  have hapart : Free (fun c => isNameRest c || c = '!')
      ((directivesText field.directives).toList ++ rest) :=
    (apart_directivesText field.directives hrest.1).free (by decide)
  refine ⟨description_passes hquote, name_reads hname (free_of_eq rfl rfl) h, ?_⟩
  refine typeExpr_reads htype hapart ?_
  rw [skipIgnored_blank rfl]
  exact skipIgnored_type htype _

theorem field_reads {field : FieldDef} (hwell : field.WellFormed) (hplain : field.Plain)
    {text rest : List Char} (hrest : Closed rest)
    (h : skipIgnored text = field.text.toList ++ rest) : Rule.field text = some (field, rest) := by
  obtain ⟨hdescription, hname, htype⟩ := field_parts hwell hrest h
  have harguments : ∀ tail, arguments (':' :: tail) = some ((), ':' :: tail) := fun tail =>
    orElse_of_none (discard_of_none (bracketed_fails rfl))
  rw [Rule.field, bind_of_some hdescription, bind_of_some hname, bind_of_some (harguments _),
    bind_of_some (lit_reads rfl), bind_of_some htype,
    bind_of_some (directives_read hwell.2.2 hplain hrest)]
  rfl

theorem inputValue_reads {field : FieldDef} (hwell : field.WellFormed) (hplain : field.Plain)
    {text rest : List Char} (hrest : Closed rest)
    (h : skipIgnored text = field.text.toList ++ rest) :
    inputValue text = some (field, rest) := by
  obtain ⟨hdescription, hname, htype⟩ := field_parts hwell hrest h
  have hequals : lit "=" ((directivesText field.directives).toList ++ rest) = none := by
    refine lit_fails (lit_fails_of_free rfl ?_)
    exact free_directivesText field.directives rfl (hrest.free rfl)
  rw [inputValue, bind_of_some hdescription, bind_of_some hname, bind_of_some (lit_reads rfl),
    bind_of_some htype, bind_of_some (orElse_of_none (bind_of_none hequals)),
    bind_of_some (directives_read hwell.2.2 hplain hrest)]
  rfl

/-- The rule for the values of an enum. -/
theorem enumMember_reads {value : String} (hvalue : IsEnumValue value) {text rest : List Char}
    (hrest : Closed rest) (h : skipIgnored text = value.toList ++ rest) :
    (do
      description
      let value ← enumValue
      let _ ← orNone Rule.directives
      return value : Rule String) text = some (value, rest) := by
  obtain ⟨c, tail, heq, hstart, -⟩ := hvalue.1
  have hquote : Free (· = '"') (skipIgnored text) := by
    rw [h, heq]
    exact free_of_eq rfl (not_quote_of_isNameStart hstart)
  have hdirectives : orNone Rule.directives rest = some ([], rest) :=
    orNone_of_none (bind_of_none (bind_of_none
      (lit_fails (lit_fails_of_free rfl (hrest.free rfl)))))
  rw [bind_of_some (description_passes hquote),
    bind_of_some (enumValue_reads hvalue (hrest.1.free (by decide)) h),
    bind_of_some hdirectives]
  rfl

/-! ### Blocks -/

theorem block_toList (members : List String) :
    " \x7b\n".toList ++ (String.join (members.map fun member => "  " ++ member ++ "\n")).toList =
      ' ' :: '\x7b' ::
        (members.flatMap (fun member => "\n  ".toList ++ member.toList) ++ ['\n']) := by
  rw [String.toList_join, List.flatMap_map]
  have hshift : '\n' :: (members.flatMap fun member => ("  " ++ member ++ "\n").toList) =
      members.flatMap (fun member => "\n  ".toList ++ member.toList) ++ ['\n'] := by
    induction members with
    | nil => rfl
    | cons member others ih =>
      simp only [List.flatMap_cons, String.toList_append, List.append_assoc] at ih ⊢
      rw [← ih]
      rfl
  rw [← hshift]
  rfl

/-- The members of a block are read back, if each can be read back from its line. -/
theorem block_reads {α : Type} {rule : Rule α} {write : α → String} {items : List α}
    (hread : ∀ a ∈ items, ∀ text more, Closed more →
      skipIgnored text = (write a).toList ++ more → rule text = some (a, more))
    (hstart : ∀ a ∈ items, ∃ c tail, (write a).toList = c :: tail ∧ isNameStart c = true)
    (hend : ∀ tail, rule ('\n' :: '\x7d' :: tail) = none) (hne : items ≠ []) (rest : List Char) :
    bracketed "\x7b" "\x7d" (many1 rule) ((" \x7b\n" ++ String.join ((items.map write).map
      fun member => "  " ++ member ++ "\n") ++ "\x7d").toList ++ rest) = some (items, rest) := by
  have hskip : ∀ a ∈ items, ∀ more,
      skipIgnored ("\n  ".toList ++ (write a).toList ++ more) = (write a).toList ++ more := by
    intro a ha more
    obtain ⟨c, tail, heq, hc⟩ := hstart a ha
    rw [List.append_assoc]
    change skipIgnored ('\n' :: ' ' :: ' ' :: ((write a).toList ++ more)) = _
    rw [skipIgnored_blank rfl, skipIgnored_blank rfl, skipIgnored_blank rfl, heq]
    exact skipIgnored_solid (isSolid_of_isNameStart hc) _
  have hline : ∀ a ∈ items, ∀ more, Closed more →
      rule ("\n  ".toList ++ (write a).toList ++ more) = some (a, more) := by
    intro a ha more hmore
    exact hread a ha _ more hmore (hskip a ha more)
  have hnext : ∀ a ∈ items, ∀ more, Closed ("\n  ".toList ++ (write a).toList ++ more) := by
    intro a ha more
    obtain ⟨c, tail, heq, hc⟩ := hstart a ha
    refine ⟨fun d hd => ?_, ?_⟩
    · cases hd
      decide
    · rw [hskip a ha more, heq]
      refine free_of_eq rfl ?_
      cases hgoes : goesOn c with
      | false => rfl
      | true =>
        simp only [goesOn, Bool.or_eq_true, decide_eq_true_eq] at hgoes
        rcases hgoes with (rfl | rfl) | rfl <;> cases hc
  have hclosed : Closed ('\n' :: '\x7d' :: rest) :=
    ⟨fun d hd => by cases hd; decide, free_of_eq rfl rfl⟩
  have hall := readsAll_flatMap hline hnext (fun a _ heq => by cases heq) hclosed (hend rest)
  have htext : (" \x7b\n" ++ String.join ((items.map write).map
      fun member => "  " ++ member ++ "\n") ++ "\x7d").toList ++ rest =
      ' ' :: '\x7b' :: (items.flatMap (fun a => "\n  ".toList ++ (write a).toList) ++
        '\n' :: '\x7d' :: rest) := by
    rw [String.toList_append, String.toList_append, block_toList, List.flatMap_map]
    simp
  rw [htext]
  exact bracketed_reads rfl (many1_of_readsAll hall.2 hne) rfl

end Rule

end EntitySchema.Sdl
