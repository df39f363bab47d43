import EntitySchema.Proofs.Sdl.Members

/-! # Reading definitions back

A definition is read back from its text in front of another one, or of nothing, and is no
definition of another kind. -/
namespace EntitySchema.Sdl

open Text Text.Scanner

namespace Rule

def keywords : List String := ["type", "input", "enum", "scalar"]

def Behind (rest : List Char) : Prop :=
  rest = [] ∨ ∃ keyword ∈ keywords, ∃ tail, rest = '\n' :: '\n' :: (keyword.toList ++ ' ' :: tail)

theorem Behind.cases {P : List Char → Prop} {rest : List Char} (h : Behind rest)
    (hnil : P []) (htype : ∀ tail, P ("type".toList ++ ' ' :: tail))
    (hinput : ∀ tail, P ("input".toList ++ ' ' :: tail))
    (henum : ∀ tail, P ("enum".toList ++ ' ' :: tail))
    (hscalar : ∀ tail, P ("scalar".toList ++ ' ' :: tail)) : P (skipIgnored rest) := by
  rcases h with rfl | ⟨keyword, hkeyword, tail, rfl⟩
  · exact hnil
  · rw [skipIgnored_blank rfl, skipIgnored_blank rfl]
    simp only [keywords, List.mem_cons, List.not_mem_nil, or_false] at hkeyword
    rcases hkeyword with rfl | rfl | rfl | rfl
    · exact htype tail
    · exact hinput tail
    · exact henum tail
    · exact hscalar tail

theorem Behind.closed {rest : List Char} (h : Behind rest) : Closed rest := by
  constructor
  · rcases h with rfl | ⟨keyword, -, tail, rfl⟩
    · intro c hc
      cases hc
    · intro c hc
      cases hc
      decide
  · refine h.cases (fun c hc => by cases hc) ?_ ?_ ?_ ?_ <;> exact fun _ => free_of_eq rfl rfl

def blockTail (members : List String) : List Char :=
  if members.isEmpty then []
  else (" \x7b\n" ++ String.join (members.map fun member => "  " ++ member ++ "\n") ++
    "\x7d").toList

theorem blockText_toList (keyword name : String) (directives : List Directive)
    (members : List String) (rest : List Char) :
    (Sdl.blockText keyword name directives members).toList ++ rest = keyword.toList ++ ' ' ::
      (name.toList ++ ((directivesText directives).toList ++ (blockTail members ++ rest))) := by
  rw [Sdl.blockText, blockTail]
  cases members.isEmpty <;> simp

theorem exists_blockTail {members : List String} (h : members ≠ []) :
    ∃ tail, blockTail members = ' ' :: '\x7b' :: tail := by
  cases members with
  | nil => exact absurd rfl h
  | cons member others =>
    rw [blockTail, List.isEmpty_cons]
    exact ⟨_, by rw [String.toList_append, String.toList_append]; rfl⟩

/-- What stands behind the head of a definition, when its directives have been read. -/
theorem front_blockTail {P : List Char → Prop} (members : List String) {rest : List Char}
    (hrest : P (skipIgnored rest)) (hbrace : ∀ tail, P ('\x7b' :: tail)) :
    P (skipIgnored (blockTail members ++ rest)) := by
  by_cases h : members = []
  · rw [h]
    exact hrest
  · obtain ⟨tail, heq⟩ := exists_blockTail h
    rw [heq, List.cons_append, skipIgnored_blank rfl]
    exact hbrace (tail ++ rest)

theorem closed_blockTail (members : List String) {rest : List Char} (hrest : Behind rest) :
    Closed (blockTail members ++ rest) := by
  refine ⟨?_, front_blockTail members hrest.closed.2 fun _ => free_of_eq rfl rfl⟩
  by_cases h : members = []
  · rw [h]
    exact hrest.closed.1
  · obtain ⟨tail, heq⟩ := exists_blockTail h
    rw [heq]
    intro c hc
    cases hc
    decide

/-- What a definition has behind its name is no list of interfaces. -/
theorem implementsOrNone_passes (directives : List Directive) (members : List String)
    {rest : List Char} (hrest : Behind rest) :
    implementsOrNone ((directivesText directives).toList ++ (blockTail members ++ rest)) =
      some ((), (directivesText directives).toList ++ (blockTail members ++ rest)) := by
  refine orElse_of_none (bind_of_none (lit_fails ?_))
  rw [directivesText_toList]
  cases directives with
  | nil =>
    have hbehind : dropLiteral? "implements".toList (skipIgnored rest) = none :=
      hrest.cases (P := fun front => dropLiteral? "implements".toList front = none)
        rfl (fun _ => rfl) (fun _ => rfl) (fun _ => rfl) (fun _ => rfl)
    exact front_blockTail (P := fun front => dropLiteral? "implements".toList front = none)
      members hbehind fun _ => rfl
  | cons first others =>
    rw [List.flatMap_cons, List.append_assoc, List.cons_append, skipIgnored_directive,
      directive_toList]
    rfl

/-! ### Blocks -/

/-- The members of a definition are read back, if there are any. -/
theorem members_read {α : Type} {rule : Rule α} {write : α → String} {items : List α}
    (hread : ∀ a ∈ items, ∀ text more, Closed more →
      skipIgnored text = (write a).toList ++ more → rule text = some (a, more))
    (hstart : ∀ a ∈ items, ∃ c tail, (write a).toList = c :: tail ∧ isNameStart c = true)
    (hend : ∀ tail, rule ('\n' :: '\x7d' :: tail) = none) {rest : List Char}
    (hrest : Behind rest) :
    orNone (bracketed "\x7b" "\x7d" (many1 rule)) (blockTail (items.map write) ++ rest) =
      some (items, rest) := by
  cases items with
  | nil =>
    refine orNone_of_none (bracketed_fails ?_)
    exact hrest.cases (P := fun front => dropLiteral? "\x7b".toList front = none)
      rfl (fun _ => rfl) (fun _ => rfl) (fun _ => rfl) (fun _ => rfl)
  | cons first others =>
    exact orNone_of_some (block_reads hread hstart hend (List.cons_ne_nil _ _) rest)

theorem exists_fieldText {field : FieldDef} (hwell : field.WellFormed) :
    ∃ c tail, field.text.toList = c :: tail ∧ isNameStart c = true := by
  obtain ⟨c, tail, heq, hstart, -⟩ := hwell.1
  have htext := field_toList field []
  rw [List.append_nil, heq] at htext
  exact ⟨c, _, htext, hstart⟩

/-- A line end and a closing brace start no member. -/
theorem description_of_close (tail : List Char) :
    description ('\n' :: '\x7d' :: tail) = some ((), '\n' :: '\x7d' :: tail) :=
  description_passes (free_of_eq rfl rfl)

theorem name_of_close (tail : List Char) : Rule.name ('\n' :: '\x7d' :: tail) = none :=
  name_fails (free_of_eq rfl rfl)

theorem fields_read {fields : List FieldDef} (hwell : ∀ field ∈ fields, field.WellFormed)
    (hplain : ∀ field ∈ fields, field.Plain) {rest : List Char} (hrest : Behind rest) :
    orNone Rule.fields (blockTail (fields.map FieldDef.text) ++ rest) = some (fields, rest) := by
  refine members_read ?_ ?_ ?_ hrest
  · intro field hmem text more hmore htext
    exact field_reads (hwell field hmem) (hplain field hmem) hmore htext
  · intro field hmem
    exact exists_fieldText (hwell field hmem)
  · intro tail
    rw [Rule.field, bind_of_some (description_of_close tail)]
    exact bind_of_none (name_of_close tail)

theorem inputFields_read {fields : List FieldDef} (hwell : ∀ field ∈ fields, field.WellFormed)
    (hplain : ∀ field ∈ fields, field.Plain) {rest : List Char} (hrest : Behind rest) :
    orNone inputFields (blockTail (fields.map FieldDef.text) ++ rest) = some (fields, rest) := by
  refine members_read ?_ ?_ ?_ hrest
  · intro field hmem text more hmore htext
    exact inputValue_reads (hwell field hmem) (hplain field hmem) hmore htext
  · intro field hmem
    exact exists_fieldText (hwell field hmem)
  · intro tail
    rw [inputValue, bind_of_some (description_of_close tail)]
    exact bind_of_none (name_of_close tail)

theorem enumValues_read {values : List String} (hvalues : ∀ value ∈ values, IsEnumValue value)
    {rest : List Char} (hrest : Behind rest) :
    orNone enumValues (blockTail values ++ rest) = some (values, rest) := by
  have hread : orNone enumValues (blockTail (values.map fun value => value) ++ rest) =
      some (values, rest) := by
    refine members_read ?_ ?_ ?_ hrest
    · intro value hmem text more hmore htext
      exact enumMember_reads (hvalues value hmem) hmore htext
    · intro value hmem
      obtain ⟨⟨c, tail, heq, hstart, -⟩, -⟩ := hvalues value hmem
      exact ⟨c, tail, heq, hstart⟩
    · intro tail
      rw [bind_of_some (description_of_close tail)]
      exact bind_of_none (enumValue_fails (free_of_eq rfl rfl))
  rw [List.map_id'] at hread
  exact hread

/-! ### Definitions -/

theorem quote_of_keyword {keyword : String} (hkeyword : keyword ∈ keywords) {text tail : List Char}
    (h : skipIgnored text = keyword.toList ++ ' ' :: tail) : Free (· = '"') (skipIgnored text) := by
  simp only [keywords, List.mem_cons, List.not_mem_nil, or_false] at hkeyword
  rcases hkeyword with rfl | rfl | rfl | rfl <;> exact free_of_eq h rfl

/-- The head of a definition is read back, up to its directives. -/
theorem head_reads {keyword name : String} {directives : List Directive} {members : List String}
    (hkeyword : keyword ∈ keywords) (hname : IsName name) {text rest : List Char}
    (hrest : Behind rest)
    (h : skipIgnored text = (Sdl.blockText keyword name directives members).toList ++ rest) :
    head keyword text =
      some (name, (directivesText directives).toList ++ (blockTail members ++ rest)) := by
  rw [blockText_toList] at h
  have hclosed := closed_blockTail members hrest
  have hfree : Free isNameRest
      ((directivesText directives).toList ++ (blockTail members ++ rest)) :=
    (apart_directivesText directives hclosed.1).free (by decide)
  rw [head, bind_of_some (description_passes (quote_of_keyword hkeyword h)),
    bind_of_some (lit_reads h)]
  refine name_reads hname hfree ?_
  rw [skipIgnored_blank rfl]
  exact skipIgnored_name hname _

/-- A definition and an extension of another kind start with other words. -/
theorem alternatives_fail {α : Type} {keyword : String} {whole extension : String → Rule α}
    {text : List Char} (hquote : Free (· = '"') (skipIgnored text))
    (hkeyword : dropLiteral? keyword.toList (skipIgnored text) = none)
    (hextend : dropLiteral? "extend".toList (skipIgnored text) = none) :
    ((head keyword >>= whole) <|> (extensionHead keyword >>= extension)) text = none := by
  have hhead : head keyword text = none := by
    rw [head, bind_of_some (description_passes hquote)]
    exact bind_of_none (lit_fails hkeyword)
  have hextension : extensionHead keyword text = none := bind_of_none (lit_fails hextend)
  rw [orElse_of_none (bind_of_none hhead)]
  exact bind_of_none hextension

theorem schemaDefinition_fails {text : List Char}
    (hschema : dropLiteral? "schema".toList (skipIgnored text) = none)
    (hextend : dropLiteral? "extend".toList (skipIgnored text) = none) :
    schemaDefinition text = none := by
  rw [schemaDefinition, orElse_of_none (bind_of_none (lit_fails hschema))]
  exact bind_of_none (lit_fails hextend)

theorem directiveDefinition_fails {text : List Char} (hquote : Free (· = '"') (skipIgnored text))
    (hdirective : dropLiteral? "directive".toList (skipIgnored text) = none) :
    directiveDefinition text = none := by
  rw [directiveDefinition, bind_of_some (description_passes hquote)]
  exact bind_of_none (lit_fails hdirective)

theorem scalarDefinition_reads {name : String} {directives : List Directive}
    (hname : IsName name) (hwell : ∀ directive ∈ directives, directive.WellFormed)
    (hplain : ∀ directive ∈ directives, directive.Plain) {text rest : List Char}
    (hrest : Behind rest)
    (h : skipIgnored text = (Sdl.blockText "scalar" name directives []).toList ++ rest) :
    scalarDefinition text = some (.scalar name directives, rest) := by
  refine orElse_of_some ?_
  rw [bind_of_some (head_reads (by decide) hname hrest h),
    bind_of_some (directives_read hwell hplain (closed_blockTail [] hrest))]
  rfl

theorem objectDefinition_reads {type : TypeDef} (hwell : type.WellFormed) (hplain : type.Plain)
    {text rest : List Char} (hrest : Behind rest)
    (h : skipIgnored text = (Definition.object type).text.toList ++ rest) :
    objectDefinition text = some (.object type, rest) := by
  obtain ⟨hname, hdirectives, hfields⟩ := hwell
  refine orElse_of_some ?_
  rw [bind_of_some (head_reads (by decide) hname hrest h),
    bind_of_some (implementsOrNone_passes _ _ hrest),
    bind_of_some (directives_read hdirectives hplain.1 (closed_blockTail _ hrest)),
    bind_of_some (fields_read hfields hplain.2 hrest)]
  rfl

theorem inputDefinition_reads {type : TypeDef} (hwell : type.WellFormed) (hplain : type.Plain)
    {text rest : List Char} (hrest : Behind rest)
    (h : skipIgnored text = (Definition.input type).text.toList ++ rest) :
    inputDefinition text = some (.input type, rest) := by
  obtain ⟨hname, hdirectives, hfields⟩ := hwell
  refine orElse_of_some ?_
  rw [bind_of_some (head_reads (by decide) hname hrest h),
    bind_of_some (directives_read hdirectives hplain.1 (closed_blockTail _ hrest)),
    bind_of_some (inputFields_read hfields hplain.2 hrest)]
  rfl

theorem enumDefinition_reads {name : String} {directives : List Directive} {values : List String}
    (hname : IsName name) (hwell : ∀ directive ∈ directives, directive.WellFormed)
    (hplain : ∀ directive ∈ directives, directive.Plain)
    (hvalues : ∀ value ∈ values, IsEnumValue value) {text rest : List Char} (hrest : Behind rest)
    (h : skipIgnored text = (Sdl.blockText "enum" name directives values).toList ++ rest) :
    enumDefinition text = some (.enumeration name directives values, rest) := by
  refine orElse_of_some ?_
  rw [bind_of_some (head_reads (by decide) hname hrest h),
    bind_of_some (directives_read hwell hplain (closed_blockTail values hrest)),
    bind_of_some (enumValues_read hvalues hrest)]
  rfl

/-- The rules of the other kinds fail in front of the word of one kind. -/
theorem kinds_fail {text : List Char} (hquote : Free (· = '"') (skipIgnored text))
    (hextend : dropLiteral? "extend".toList (skipIgnored text) = none) :
    (dropLiteral? "scalar".toList (skipIgnored text) = none → scalarDefinition text = none) ∧
      (dropLiteral? "type".toList (skipIgnored text) = none → objectDefinition text = none) ∧
      (dropLiteral? "interface".toList (skipIgnored text) = none →
        interfaceDefinition text = none) ∧
      (dropLiteral? "union".toList (skipIgnored text) = none → unionDefinition text = none) ∧
      (dropLiteral? "enum".toList (skipIgnored text) = none → enumDefinition text = none) ∧
      (dropLiteral? "input".toList (skipIgnored text) = none → inputDefinition text = none) := by
  refine ⟨fun h => ?_, fun h => ?_, fun h => ?_, fun h => ?_, fun h => ?_, fun h => ?_⟩ <;>
    exact alternatives_fail hquote h hextend

theorem definition_reads {definition : Definition} (hwell : definition.WellFormed)
    (hplain : definition.Plain) {text rest : List Char} (hrest : Behind rest)
    (h : skipIgnored text = definition.text.toList ++ rest) :
    Rule.definition text = some (some definition, rest) := by
  cases definition with
  | scalar name directives =>
    have hfront := h.trans (blockText_toList "scalar" name directives [] rest)
    have hschema : schemaDefinition text = none :=
      schemaDefinition_fails (by rw [hfront]; rfl) (by rw [hfront]; rfl)
    rw [Rule.definition, orElse_of_none (bind_of_none hschema)]
    exact orElse_of_some (map_of_some
      (scalarDefinition_reads hwell.1 hwell.2 hplain hrest h))
  | object type =>
    have hfront := h.trans (blockText_toList "type" type.name type.directives
      (type.fields.map FieldDef.text) rest)
    have hschema : schemaDefinition text = none :=
      schemaDefinition_fails (by rw [hfront]; rfl) (by rw [hfront]; rfl)
    obtain ⟨hscalar, -, -, -, -, -⟩ := kinds_fail (free_of_eq hfront rfl) (by rw [hfront]; rfl)
    rw [Rule.definition, orElse_of_none (bind_of_none hschema),
      orElse_of_none (map_of_none (hscalar (by rw [hfront]; rfl)))]
    exact orElse_of_some (map_of_some (objectDefinition_reads hwell hplain hrest h))
  | enumeration name directives values =>
    have hfront := h.trans (blockText_toList "enum" name directives values rest)
    have hschema : schemaDefinition text = none :=
      schemaDefinition_fails (by rw [hfront]; rfl) (by rw [hfront]; rfl)
    obtain ⟨hscalar, hobject, hinterface, hunion, -, -⟩ :=
      kinds_fail (free_of_eq hfront rfl) (by rw [hfront]; rfl)
    rw [Rule.definition, orElse_of_none (bind_of_none hschema),
      orElse_of_none (map_of_none (hscalar (by rw [hfront]; rfl))),
      orElse_of_none (map_of_none (hobject (by rw [hfront]; rfl))),
      orElse_of_none (bind_of_none (hinterface (by rw [hfront]; rfl))),
      orElse_of_none (bind_of_none (hunion (by rw [hfront]; rfl)))]
    exact orElse_of_some (map_of_some
      (enumDefinition_reads hwell.1 hwell.2.1 hplain hwell.2.2 hrest h))
  | input type =>
    have hfront := h.trans (blockText_toList "input" type.name type.directives
      (type.fields.map FieldDef.text) rest)
    have hschema : schemaDefinition text = none :=
      schemaDefinition_fails (by rw [hfront]; rfl) (by rw [hfront]; rfl)
    obtain ⟨hscalar, hobject, hinterface, hunion, henum, -⟩ :=
      kinds_fail (free_of_eq hfront rfl) (by rw [hfront]; rfl)
    rw [Rule.definition, orElse_of_none (bind_of_none hschema),
      orElse_of_none (map_of_none (hscalar (by rw [hfront]; rfl))),
      orElse_of_none (map_of_none (hobject (by rw [hfront]; rfl))),
      orElse_of_none (bind_of_none (hinterface (by rw [hfront]; rfl))),
      orElse_of_none (bind_of_none (hunion (by rw [hfront]; rfl))),
      orElse_of_none (map_of_none (henum (by rw [hfront]; rfl)))]
    exact orElse_of_some (map_of_some (inputDefinition_reads hwell hplain hrest h))

/-- Nothing is no definition. -/
theorem definition_nil : Rule.definition [] = none := by
  have hfree : Free (· = '"') (skipIgnored []) := fun c hc => by cases hc
  obtain ⟨hscalar, hobject, hinterface, hunion, henum, hinput⟩ := kinds_fail hfree rfl
  rw [Rule.definition, orElse_of_none (bind_of_none (schemaDefinition_fails rfl rfl)),
    orElse_of_none (map_of_none (hscalar rfl)), orElse_of_none (map_of_none (hobject rfl)),
    orElse_of_none (bind_of_none (hinterface rfl)), orElse_of_none (bind_of_none (hunion rfl)),
    orElse_of_none (map_of_none (henum rfl)), orElse_of_none (map_of_none (hinput rfl))]
  exact bind_of_none (directiveDefinition_fails hfree rfl)

/-! ### Documents -/

theorem exists_definitionText (definition : Definition) :
    ∃ keyword ∈ keywords, ∃ tail, definition.text.toList = keyword.toList ++ ' ' :: tail := by
  have htext := fun keyword name directives members =>
    (List.append_nil _).symm.trans (blockText_toList keyword name directives members [])
  cases definition with
  | object type => exact ⟨"type", by decide, _, htext _ _ _ _⟩
  | input type => exact ⟨"input", by decide, _, htext _ _ _ _⟩
  | enumeration name directives values => exact ⟨"enum", by decide, _, htext _ _ _ _⟩
  | scalar name directives => exact ⟨"scalar", by decide, _, htext _ _ _ _⟩

theorem skipIgnored_definition (definition : Definition) (rest : List Char) :
    skipIgnored (definition.text.toList ++ rest) = definition.text.toList ++ rest := by
  obtain ⟨keyword, hkeyword, tail, heq⟩ := exists_definitionText definition
  rw [heq]
  simp only [keywords, List.mem_cons, List.not_mem_nil, or_false] at hkeyword
  rcases hkeyword with rfl | rfl | rfl | rfl <;> exact skipIgnored_solid rfl _

theorem readsAll_definitions {definitions : List Definition}
    (hwell : ∀ definition ∈ definitions, definition.WellFormed)
    (hplain : ∀ definition ∈ definitions, definition.Plain) :
    ReadsAll Rule.definition ("\n\n".intercalate (definitions.map Definition.text)).toList
      (definitions.map some) [] := by
  cases definitions with
  | nil => exact .nil definition_nil
  | cons first others =>
    let write (found : Option Definition) : List Char :=
      "\n\n".toList ++ (found.elim "" Definition.text).toList
    have hread : ∀ found ∈ others.map some, ∀ more, Behind more →
        Rule.definition (write found ++ more) = some (found, more) := by
      intro found hfound more hmore
      obtain ⟨definition, hmem, rfl⟩ := List.mem_map.1 hfound
      have hmem' : definition ∈ first :: others := List.mem_cons_of_mem _ hmem
      refine definition_reads (hwell definition hmem') (hplain definition hmem') hmore ?_
      change skipIgnored ('\n' :: '\n' :: (definition.text.toList ++ more)) = _
      rw [skipIgnored_blank rfl, skipIgnored_blank rfl]
      exact skipIgnored_definition definition more
    have hnext : ∀ found ∈ others.map some, ∀ more, Behind (write found ++ more) := by
      intro found hfound more
      obtain ⟨definition, -, rfl⟩ := List.mem_map.1 hfound
      obtain ⟨keyword, hkeyword, tail, heq⟩ := exists_definitionText definition
      refine .inr ⟨keyword, hkeyword, tail ++ more, ?_⟩
      change '\n' :: '\n' :: (definition.text.toList ++ more) = _
      rw [heq, List.append_assoc]
      rfl
    obtain ⟨hbehind, hall⟩ := readsAll_flatMap hread hnext (fun _ _ => List.cons_ne_nil _ _)
      (.inl rfl) definition_nil
    have hwrite : (others.map some).flatMap write =
        others.flatMap fun definition => "\n\n".toList ++ definition.text.toList := by
      rw [List.flatMap_map]
      rfl
    rw [List.append_nil, hwrite] at hbehind hall
    rw [intercalate_toList_cons]
    refine .cons (definition_reads (hwell first List.mem_cons_self)
      (hplain first List.mem_cons_self) hbehind (skipIgnored_definition first _)) ?_ hall
    obtain ⟨keyword, -, tail, heq⟩ := exists_definitionText first
    rw [heq]
    simp only [List.length_append, List.length_cons]
    omega

end Rule

/-- A document that the grammar can express is read back from its text. -/
theorem Document.parse?_text {document : Document} (hwell : document.WellFormed)
    (hplain : document.Plain) (hne : document.definitions ≠ []) :
    Document.parse? document.text = some document := by
  obtain ⟨definitions⟩ := document
  have hall : ReadsAll Rule.definition (Document.mk definitions).text.toList
      (definitions.map some) [] := Rule.readsAll_definitions hwell hplain
  have hread : Rule.document (Document.mk definitions).text.toList =
      some (Document.mk definitions, []) := by
    rw [Rule.document, bind_of_some (many1_of_readsAll hall ?_)]
    · rw [bind_of_some (show Rule.ending [] = some ((), []) from rfl), List.filterMap_map]
      simp [pure_apply]
    · intro heq
      exact hne (List.map_eq_nil_iff.1 heq)
  rw [Document.parse?, hread]
  rfl

end EntitySchema.Sdl
