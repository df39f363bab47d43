import EntitySchema.Proofs.Entries
import EntitySchema.Proofs.Sdl.Constants

/-! # Reading values and directives back

Well-formed plain values, and directives with such arguments, are read back from their text. -/
namespace EntitySchema.Sdl

open Text Text.Scanner Rule

def closers : List Char := [',', ']', '}', ')']

theorem itemTexts_eq_map (items : List Value) : Value.itemTexts items = items.map Value.text := by
  induction items with
  | nil => rfl
  | cons item rest ih => rw [Value.itemTexts, ih, List.map_cons]

def memberText (member : String × Value) : String := member.1 ++ ": " ++ member.2.text

theorem memberTexts_eq_map (members : List (String × Value)) :
    Value.memberTexts members = members.map memberText := by
  induction members with
  | nil => rfl
  | cons member rest ih =>
    obtain ⟨name, value⟩ := member
    rw [Value.memberTexts, ih, List.map_cons]
    rfl

namespace Rule

/-! ### Brackets and commas -/

theorem bracketed_reads {α : Type} {opening closing : String} {rule : Rule α}
    {text mid after rest : List Char} {a : α} (hopen : skipIgnored text = opening.toList ++ mid)
    (hrule : rule mid = some (a, after)) (hclose : skipIgnored after = closing.toList ++ rest) :
    bracketed opening closing rule text = some (a, rest) := by
  rw [bracketed, bind_of_some (lit_reads hopen), bind_of_some hrule,
    bind_of_some (lit_reads hclose)]
  rfl

theorem bracketed_fails {α : Type} {opening closing : String} {rule : Rule α} {text : List Char}
    (h : dropLiteral? opening.toList (skipIgnored text) = none) :
    bracketed opening closing rule text = none :=
  bind_of_none (lit_fails h)

theorem length_le_intercalate {α : Type} {write : α → String} {items : List α} {a : α}
    (ha : a ∈ items) :
    (write a).toList.length ≤ (", ".intercalate (items.map write)).toList.length := by
  cases items with
  | nil => cases ha
  | cons b bs =>
    rw [intercalate_toList_cons, List.length_append]
    rcases List.mem_cons.1 ha with rfl | hmem
    · omega
    · obtain ⟨before, after, rfl⟩ := List.append_of_mem hmem
      simp only [List.flatMap_append, List.flatMap_cons, List.length_append]
      omega

/-- Items behind commas are read back, if each can be read back from in front of a closer. -/
theorem readsAll_commas {α : Type} {rule : Rule α} {write : α → String} {items : List α}
    {rest : List Char}
    (hread : ∀ a ∈ items, ∀ text more, StartsIn closers more →
      skipIgnored text = (write a).toList ++ more → rule text = some (a, more))
    (hsolid : ∀ a ∈ items, ∃ c tail, (write a).toList = c :: tail ∧ isSolid c = true)
    (hrest : StartsIn closers rest) (hend : rule rest = none) :
    ReadsAll rule ((", ".intercalate (items.map write)).toList ++ rest) items rest := by
  have hskip : ∀ a ∈ items, ∀ more,
      skipIgnored ((write a).toList ++ more) = (write a).toList ++ more := by
    intro a ha more
    obtain ⟨c, tail, heq, hc⟩ := hsolid a ha
    rw [heq]
    exact skipIgnored_solid hc _
  cases items with
  | nil => exact .nil hend
  | cons a as =>
    have hall : StartsIn closers ((as.flatMap fun b => ", ".toList ++ (write b).toList) ++ rest) ∧
        ReadsAll rule ((as.flatMap fun b => ", ".toList ++ (write b).toList) ++ rest) as rest := by
      refine readsAll_flatMap ?_ ?_ ?_ hrest hend
      · intro b hb more hmore
        have hb' : b ∈ a :: as := List.mem_cons_of_mem _ hb
        refine hread b hb' _ more hmore ?_
        rw [List.append_assoc]
        change skipIgnored (',' :: ' ' :: ((write b).toList ++ more)) = _
        rw [skipIgnored_blank rfl, skipIgnored_blank rfl]
        exact hskip b hb' more
      · intro b _ more c hc
        cases hc
        exact List.mem_cons_self
      · intro b _ heq
        cases heq
    rw [intercalate_toList_cons, List.append_assoc]
    refine .cons (hread a List.mem_cons_self _ _ hall.1 (hskip a List.mem_cons_self _)) ?_ hall.2
    obtain ⟨c, tail, heq, -⟩ := hsolid a List.mem_cons_self
    rw [heq]
    simp only [List.cons_append, List.length_cons, List.length_append]
    omega

/-! ### Values -/

theorem quote_toList (s : String) :
    (Value.quote s).toList = '"' :: (s.toList.flatMap Value.escapeChar ++ ['"']) := by
  simp [Value.quote]

theorem list_toList (items : List Value) :
    (Value.list items).text.toList =
      '[' :: ((", ".intercalate (items.map Value.text)).toList ++ [']']) := by
  rw [Value.text, itemTexts_eq_map, String.toList_append, String.toList_append]
  rfl

theorem object_toList (members : List (String × Value)) :
    (Value.object members).text.toList =
      '\x7b' :: ((", ".intercalate (members.map memberText)).toList ++ ['\x7d']) := by
  rw [Value.text, memberTexts_eq_map, String.toList_append, String.toList_append]
  rfl

/-- The text of a value starts a token. -/
theorem exists_text {value : Value} (hwell : value.WellFormed) (hplain : value.Plain) :
    ∃ c tail, value.text.toList = c :: tail ∧ isSolid c = true := by
  cases value with
  | null => exact ⟨_, _, rfl, rfl⟩
  | bool value =>
    cases value with
    | true => exact ⟨_, _, rfl, rfl⟩
    | false => exact ⟨_, _, rfl, rfl⟩
  | number number =>
    cases number with
    | int n =>
      rw [Value.text, Json.numberText, Int.toString_eq_repr, Int.repr_eq_if]
      split
      · obtain ⟨c, rest, heq, hdigit, -⟩ := exists_toDigits n.toNat
        rw [Nat.toList_repr]
        exact ⟨c, rest, heq, isSolid_of_accepts hdigit (by decide)⟩
      · rw [String.toList_append]
        exact ⟨_, _, rfl, rfl⟩
    | float f => cases hplain
  | string s => exact ⟨_, _, quote_toList s, rfl⟩
  | enumeration name =>
    obtain ⟨⟨c, rest, heq, hstart, -⟩, -⟩ := hwell
    exact ⟨c, rest, heq, isSolid_of_isNameStart hstart⟩
  | list items => exact ⟨_, _, list_toList items, rfl⟩
  | object members => exact ⟨_, _, object_toList members, rfl⟩

theorem number_reads {n : Int} (hwell : (Value.number (.int n)).WellFormed)
    {text rest : List Char} (hrest : StartsIn closers rest)
    (h : skipIgnored text = (toString n).toList ++ rest) :
    number text = some (.int n, rest) := by
  rw [number, skip_bind, h]
  exact numberHere_reads hwell (hrest.free (by decide))

theorem number_fails {text : List Char}
    (h : Free (fun c => c = '-' || c.isDigit) (skipIgnored text)) : number text = none := by
  rw [number, skip_bind]
  exact numberHere_fails h

theorem string_reads {s : String} (hplain : Value.IsPlainText s) {text rest : List Char}
    (hrest : StartsIn closers rest) (h : skipIgnored text = (Value.quote s).toList ++ rest) :
    Rule.string text = some (s, rest) := by
  rw [Rule.string, skip_bind, h]
  exact stringHere_reads hplain (hrest.free (by decide))

theorem string_fails {text : List Char} (h : Free (· = '"') (skipIgnored text)) :
    Rule.string text = none := by
  rw [Rule.string, skip_bind]
  exact stringHere_fails h

/-- A name, a colon, and a value that is read back. -/
theorem member_reads {rule : Rule Value} {member : String × Value} (hname : IsName member.1)
    {text rest : List Char} (hvalue : rule (' ' :: (member.2.text.toList ++ rest)) =
      some (member.2, rest)) (h : skipIgnored text = (memberText member).toList ++ rest) :
    (do
      let key ← Rule.name
      lit ":"
      return (key, ← rule) : Rule (String × Value)) text = some (member, rest) := by
  have htext : skipIgnored text =
      member.1.toList ++ ':' :: ' ' :: (member.2.text.toList ++ rest) := by
    rw [h, memberText]
    simp
  have hcolon : Free isNameRest (':' :: ' ' :: (member.2.text.toList ++ rest)) := by
    intro c hc
    cases hc
    rfl
  rw [bind_of_some (name_reads hname hcolon htext), bind_of_some (lit_reads rfl),
    bind_of_some hvalue]
  rfl

theorem exists_memberText {member : String × Value} (hname : IsName member.1) :
    ∃ c tail, (memberText member).toList = c :: tail ∧ isSolid c = true := by
  obtain ⟨c, rest, heq, hstart, -⟩ := hname
  refine ⟨c, rest ++ ": ".toList ++ member.2.text.toList, ?_, isSolid_of_isNameStart hstart⟩
  rw [memberText, String.toList_append, String.toList_append, heq]
  rfl

def startsLiteral (c : Char) : Bool := c = '-' || c.isDigit || c = '"'

theorem not_startsLiteral_of_isNameStart {c : Char} (h : isNameStart c = true) :
    startsLiteral c = false := by
  have hcode : 65 ≤ c.toNat := by
    rw [isNameStart, Bool.or_eq_true, decide_eq_true_eq] at h
    rcases h with halpha | rfl
    · exact (toNat_of_isAlpha halpha).1
    · decide
  cases hstart : startsLiteral c with
  | false => rfl
  | true =>
    simp only [startsLiteral, Char.isDigit, Bool.or_eq_true, Bool.and_eq_true, decide_eq_true_eq,
      ge_iff_le, UInt32.le_iff_toNat_le] at hstart
    rcases hstart with (rfl | hdigit) | rfl
    · exact absurd hcode (by decide)
    · have hlast : c.toNat ≤ 57 := hdigit.2
      omega
    · exact absurd hcode (by decide)

theorem literals_fail {text : List Char} (h : Free startsLiteral (skipIgnored text)) :
    number text = none ∧ Rule.string text = none := by
  constructor
  · refine number_fails fun c hc => ?_
    have := h c hc
    simp_all [startsLiteral]
  · refine string_fails fun c hc => ?_
    have := h c hc
    simp_all [startsLiteral]

/-- A word with a meaning of its own. -/
theorem word_fails {word name : String} (hname : IsEnumValue name)
    (hword : word ∈ ["true", "false", "null"]) {text rest : List Char}
    (hrest : StartsIn closers rest) (h : skipIgnored text = name.toList ++ rest) :
    lit word text = none := by
  have hfree : Free isNameRest rest := hrest.free (by decide)
  refine lit_fails ?_
  rw [h]
  exact dropLiteral?_append_of_free (hname.2 word hword) (reserved_chars hword) hfree

def bracketsWithin (fuel : Nat) : Rule Value :=
  (.list <$> bracketed "[" "]" (many (valueWithin fuel))) <|>
    (do
      let members ← bracketed "\x7b" "\x7d" <| many do
        let key ← Rule.name
        lit ":"
        return (key, ← valueWithin fuel)
      return .object (Entries.collect members))

def wordsWithin (fuel : Nat) : Rule Value :=
  (do lit "true"; return .bool true) <|> (do lit "false"; return .bool false) <|>
    (do lit "null"; return .null) <|> (.enumeration <$> enumValue) <|> bracketsWithin fuel

theorem valueWithin_succ (fuel : Nat) : valueWithin (fuel + 1) =
    ((.number <$> number) <|> (.string <$> Rule.string) <|> wordsWithin fuel : Rule Value) := rfl

theorem valueWithin_of_free {fuel : Nat} {text : List Char}
    (h : Free startsLiteral (skipIgnored text)) :
    valueWithin (fuel + 1) text = wordsWithin fuel text := by
  obtain ⟨hnumber, hstring⟩ := literals_fail h
  rw [valueWithin_succ, orElse_of_none (map_of_none hnumber), orElse_of_none (map_of_none hstring)]

/-- A bracket starts neither a literal nor a word. -/
theorem valueWithin_of_bracket {fuel : Nat} {c : Char}
    (hc : c ∈ ['[', '\x7b', ']', '\x7d', ')']) {text tail : List Char}
    (h : skipIgnored text = c :: tail) :
    valueWithin (fuel + 1) text = bracketsWithin fuel text := by
  simp only [List.mem_cons, List.not_mem_nil, or_false] at hc
  rcases hc with rfl | rfl | rfl | rfl | rfl <;>
    rw [valueWithin_of_free (free_of_eq h rfl), wordsWithin,
      orElse_of_none (bind_of_none (lit_fails (by rw [h]; rfl))),
      orElse_of_none (bind_of_none (lit_fails (by rw [h]; rfl))),
      orElse_of_none (bind_of_none (lit_fails (by rw [h]; rfl))),
      orElse_of_none (map_of_none (enumValue_fails (free_of_eq h rfl)))]

theorem valueWithin_fails {fuel : Nat} {c : Char} (hc : c ∈ [']', '\x7d', ')'])
    {text tail : List Char} (h : skipIgnored text = c :: tail) : valueWithin fuel text = none := by
  cases fuel with
  | zero => rfl
  | succ fuel =>
    have hopening : dropLiteral? "[".toList (skipIgnored text) = none ∧
        dropLiteral? "\x7b".toList (skipIgnored text) = none := by
      rw [h]
      simp only [List.mem_cons, List.not_mem_nil, or_false] at hc
      rcases hc with rfl | rfl | rfl <;> exact ⟨rfl, rfl⟩
    rw [valueWithin_of_bracket (List.mem_cons_of_mem _ (List.mem_cons_of_mem _ hc)) h,
      bracketsWithin, orElse_of_none (map_of_none (bracketed_fails hopening.1))]
    exact bind_of_none (bracketed_fails hopening.2)

theorem startsIn_closers {c : Char} (hc : c ∈ closers) (rest : List Char) :
    StartsIn closers (c :: rest) := by
  intro d hd
  cases hd
  exact hc

theorem list_reads {rule : Rule Value} {items : List Value}
    (hread : ∀ item ∈ items, ∀ text more, StartsIn closers more →
      skipIgnored text = item.text.toList ++ more → rule text = some (item, more))
    (hsolid : ∀ item ∈ items, ∃ c tail, item.text.toList = c :: tail ∧ isSolid c = true)
    (hend : ∀ tail, rule (']' :: tail) = none) {text rest : List Char}
    (h : skipIgnored text = (Value.list items).text.toList ++ rest) :
    bracketed "[" "]" (many rule) text = some (items, rest) := by
  have hall : ReadsAll rule ((", ".intercalate (items.map Value.text)).toList ++ ']' :: rest)
      items (']' :: rest) :=
    readsAll_commas hread hsolid (startsIn_closers (by decide) rest) (hend rest)
  have hopen : skipIgnored text =
      "[".toList ++ ((", ".intercalate (items.map Value.text)).toList ++ ']' :: rest) := by
    rw [h, list_toList]
    simp
  exact bracketed_reads hopen (many_of_readsAll hall) rfl

/-- The members of an object and the arguments of a directive are read back alike. -/
theorem readsAll_members {rule : Rule Value} {members : List (String × Value)}
    (hnames : ∀ member ∈ members, IsName member.1)
    (hread : ∀ member ∈ members, ∀ more, StartsIn closers more →
      rule (' ' :: (member.2.text.toList ++ more)) = some (member.2, more))
    {c : Char} (hc : c ∈ ['\x7d', ')']) (rest : List Char) :
    ReadsAll (do
      let key ← Rule.name
      lit ":"
      return (key, ← rule) : Rule (String × Value))
      ((", ".intercalate (members.map memberText)).toList ++ c :: rest) members (c :: rest) := by
  have hcloser : c ∈ closers := List.mem_cons_of_mem _ (List.mem_cons_of_mem _ hc)
  refine readsAll_commas ?_ ?_ (startsIn_closers hcloser rest) ?_
  · intro member hmember text more hmore htext
    exact member_reads (hnames member hmember) (hread member hmember more hmore) htext
  · intro member hmember
    exact exists_memberText (hnames member hmember)
  · refine bind_of_none (name_fails ?_)
    simp only [List.mem_cons, List.not_mem_nil, or_false] at hc
    rcases hc with rfl | rfl <;>
      · intro d hd
        cases hd
        rfl

/-- Words are read back: constants and the values of enums. -/
theorem wordsWithin_reads (fuel : Nat) (text : List Char) {rest : List Char}
    (hrest : StartsIn closers rest) :
    (skipIgnored text = "null".toList ++ rest → wordsWithin fuel text = some (.null, rest)) ∧
      (skipIgnored text = "true".toList ++ rest →
        wordsWithin fuel text = some (.bool true, rest)) ∧
      (skipIgnored text = "false".toList ++ rest →
        wordsWithin fuel text = some (.bool false, rest)) ∧
      ∀ name, IsEnumValue name → skipIgnored text = name.toList ++ rest →
        wordsWithin fuel text = some (.enumeration name, rest) := by
  refine ⟨fun h => ?_, fun h => ?_, fun h => ?_, fun name hname h => ?_⟩
  · rw [wordsWithin, orElse_of_none (bind_of_none (lit_fails (by rw [h]; rfl))),
      orElse_of_none (bind_of_none (lit_fails (by rw [h]; rfl)))]
    refine orElse_of_some ?_
    rw [bind_of_some (lit_reads h)]
    rfl
  · refine orElse_of_some ?_
    rw [bind_of_some (lit_reads h)]
    rfl
  · rw [wordsWithin, orElse_of_none (bind_of_none (lit_fails (by rw [h]; rfl)))]
    refine orElse_of_some ?_
    rw [bind_of_some (lit_reads h)]
    rfl
  · have hword : ∀ word ∈ ["true", "false", "null"], lit word text = none :=
      fun word hmem => word_fails hname hmem hrest h
    rw [wordsWithin, orElse_of_none (bind_of_none (hword "true" (by decide))),
      orElse_of_none (bind_of_none (hword "false" (by decide))),
      orElse_of_none (bind_of_none (hword "null" (by decide)))]
    exact orElse_of_some (map_of_some (enumValue_reads hname (hrest.free (by decide)) h))

theorem object_reads {fuel : Nat} {members : List (String × Value)}
    (hnodup : (Entries.keys members).Nodup) (hnames : ∀ member ∈ members, IsName member.1)
    (hread : ∀ member ∈ members, ∀ more, StartsIn closers more →
      valueWithin fuel (' ' :: (member.2.text.toList ++ more)) = some (member.2, more))
    {text rest : List Char}
    (h : skipIgnored text = (Value.object members).text.toList ++ rest) :
    bracketsWithin fuel text = some (.object members, rest) := by
  have hclose : '\x7d' ∈ ['\x7d', ')'] := List.mem_cons_self
  have hall := readsAll_members hnames hread hclose rest
  have hopen : skipIgnored text = "\x7b".toList ++
      ((", ".intercalate (members.map memberText)).toList ++ '\x7d' :: rest) := by
    rw [h, object_toList]
    simp
  have hlist : dropLiteral? "[".toList (skipIgnored text) = none := by
    rw [hopen]
    rfl
  rw [bracketsWithin, orElse_of_none (map_of_none (bracketed_fails hlist)),
    bind_of_some (bracketed_reads hopen (many_of_readsAll hall) rfl),
    Entries.collect_of_nodup hnodup]
  rfl

/-- A value is read back, whatever bound on its depth lets it be read. -/
theorem valueWithin_reads {fuel : Nat} {value : Value} (hwell : value.WellFormed)
    (hplain : value.Plain) (hfuel : value.text.toList.length < fuel) {text rest : List Char}
    (hrest : StartsIn closers rest) (h : skipIgnored text = value.text.toList ++ rest) :
    valueWithin fuel text = some (value, rest) := by
  -- The bound exceeds the length of the text, and what stands in brackets is shorter.
  induction fuel generalizing value text rest with
  | zero => omega
  | succ fuel ih =>
    obtain ⟨hnull, htrue, hfalse, henum⟩ := wordsWithin_reads fuel text hrest
    cases value with
    | number number =>
      cases number with
      | int n => exact orElse_of_some (map_of_some (number_reads hwell hrest h))
      | float f => cases hplain
    | string s =>
      have hfront := h.trans (congrArg (· ++ rest) (quote_toList s))
      rw [valueWithin_succ, orElse_of_none (map_of_none (number_fails (free_of_eq hfront rfl)))]
      exact orElse_of_some (map_of_some (string_reads hplain hrest h))
    | null =>
      rw [valueWithin_of_free (free_of_eq h rfl)]
      exact hnull h
    | bool value =>
      cases value with
      | true =>
        rw [valueWithin_of_free (free_of_eq h rfl)]
        exact htrue h
      | false =>
        rw [valueWithin_of_free (free_of_eq h rfl)]
        exact hfalse h
    | enumeration name =>
      obtain ⟨c, tail, heq, hstart, -⟩ := hwell.1
      have hfront : skipIgnored text = c :: (tail ++ rest) := h.trans (congrArg (· ++ rest) heq)
      rw [valueWithin_of_free (free_of_eq hfront (not_startsLiteral_of_isNameStart hstart))]
      exact henum name hwell h
    | list items =>
      have hwells := Value.wellFormedItems_iff.1 hwell
      have hplains := Value.plainItems_iff.1 hplain
      have hfront := h.trans (congrArg (· ++ rest) (list_toList items))
      rw [valueWithin_of_bracket (by decide) hfront]
      refine orElse_of_some (map_of_some (list_reads ?_ ?_ ?_ h))
      · intro item hitem text' more hmore htext
        refine ih (hwells item hitem) (hplains item hitem) ?_ hmore htext
        have hle : item.text.toList.length ≤ _ := length_le_intercalate hitem
        rw [list_toList] at hfuel
        simp only [List.length_cons, List.length_append] at hfuel
        omega
      · intro item hitem
        exact exists_text (hwells item hitem) (hplains item hitem)
      · intro tail
        exact valueWithin_fails (by decide) rfl
    | object members =>
      obtain ⟨hnodup, hmembers⟩ := hwell
      have hwells := Value.wellFormedMembers_iff.1 hmembers
      have hplains := Value.plainMembers_iff.1 hplain
      have hfront := h.trans (congrArg (· ++ rest) (object_toList members))
      rw [valueWithin_of_bracket (by decide) hfront]
      refine object_reads hnodup (fun member hmember => (hwells member hmember).1) ?_ h
      intro member hmember more hmore
      obtain ⟨c, tail, heq, hsolid⟩ :=
        exists_text (hwells member hmember).2 (hplains member hmember)
      refine ih (hwells member hmember).2 (hplains member hmember) ?_ hmore ?_
      · have hle : (memberText member).toList.length ≤ _ := length_le_intercalate hmember
        rw [memberText, String.toList_append, List.length_append] at hle
        rw [object_toList] at hfuel
        simp only [List.length_cons, List.length_append] at hfuel
        omega
      · rw [skipIgnored_blank rfl, heq]
        exact skipIgnored_solid hsolid _

end Rule

end EntitySchema.Sdl
