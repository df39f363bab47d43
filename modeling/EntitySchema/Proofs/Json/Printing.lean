import EntitySchema.Json.Outline
import EntitySchema.Json.Printer
import EntitySchema.Proofs.Json.Reading
import EntitySchema.Proofs.Text.Front

/-! # Reading indented text back

Strings and natural numbers of 64 bits are scanned as what was written, arrays and objects if their
entries are. Main statement: a value without repeated names that does not nest too deep is parsed
back from its indented text. -/
namespace EntitySchema.Json

open Text

def isBlank (c : Char) : Bool := c = ' ' || c = '\n' || c = '\t' || c = '\r'

theorem skipBlanks_append {blanks : List Char} (h : ∀ c ∈ blanks, isBlank c = true)
    (text : List Char) : skipBlanks (blanks ++ text) = skipBlanks text :=
  List.dropWhile_append_of_pos h

theorem skipBlanks_of_free {text : List Char} (h : Free isBlank text) : skipBlanks text = text := by
  have hnone : ∀ c ∈ ([] : List Char), isBlank c = true := by simp
  exact h.dropWhile hnone

theorem skipBlanks_cons {c : Char} (h : isBlank c = false) (text : List Char) :
    skipBlanks (c :: text) = c :: text :=
  skipBlanks_of_free (free_of_eq rfl h)

/-! ### Strings -/

namespace StringPiece

theorem scan_cons {c : Char} (hquote : c ≠ '"') (hback : c ≠ '\\') (hcontrol : ¬ c.toNat < 0x20)
    (text : List Char) :
    scan (c :: text) = (scan text).map fun result => (.char c :: result.1, result.2) := by
  rw [scan]
  · rw [if_neg (by simp [hback, hcontrol])]
    cases scan text <;> rfl
  · exact fun h => hquote h
  · intro _ _ _ _ _ h
    exact absurd h hback
  · intro _ _ h
    exact absurd h hback

theorem scan_escape {c e : Char} (h : escaped? e = some c) (text : List Char) :
    scan ('\\' :: e :: text) =
      (scan text).map fun result => (.char c :: result.1, result.2) := by
  have hu : e ≠ 'u' := by
    rintro rfl
    cases h
  rw [scan]
  · rw [h]
    cases scan text <;> rfl
  · intro _ _ _ _ _ heq
    exact absurd heq hu

theorem resolve_code {n : Nat} (h : n < 0x20) (pieces : List StringPiece) :
    resolve (.code n :: pieces) = (resolve pieces).map (Char.ofNat n :: ·) := by
  have hhigh : isHighSurrogate n = false := by
    simp only [isHighSurrogate, decide_eq_false_iff_not]
    omega
  have hlow : isLowSurrogate n = false := by
    simp only [isLowSurrogate, decide_eq_false_iff_not]
    omega
  cases pieces with
  | nil => simp [resolve, hhigh, hlow]
  | cons piece rest => cases piece <;> simp [resolve, hhigh, hlow]

theorem hexCode?_hexDigit : ∀ n < 0x20,
    hexCode? '0' '0' (hexDigit (n / 16)) (hexDigit (n % 16)) = some n := by
  decide

/-- A character is scanned as a piece that stands for it. -/
theorem exists_piece (c : Char) : ∃ piece,
    (∀ text, scan (escapeChar c ++ text) =
      (scan text).map fun result => (piece :: result.1, result.2)) ∧
    ∀ pieces, resolve (piece :: pieces) = (resolve pieces).map (c :: ·) := by
  have hshort {e : Char} (h : escaped? e = some c) : ∃ piece,
      (∀ text, scan (['\\', e] ++ text) =
        (scan text).map fun result => (piece :: result.1, result.2)) ∧
      ∀ pieces, resolve (piece :: pieces) = (resolve pieces).map (c :: ·) :=
    ⟨.char c, scan_escape h, fun _ => rfl⟩
  rw [escapeChar]
  split_ifs with hquote hback hline hreturn htab hbackspace hfeed hcontrol
  · exact hshort (by subst c; rfl)
  · exact hshort (by subst c; rfl)
  · exact hshort (by subst c; rfl)
  · exact hshort (by subst c; rfl)
  · exact hshort (by subst c; rfl)
  · exact hshort (by subst c; rfl)
  · exact hshort (by subst c; rfl)
  · refine ⟨.code c.toNat, fun text => ?_, fun pieces => ?_⟩
    · rw [List.cons_append, List.cons_append, List.cons_append, List.cons_append, List.cons_append,
        List.cons_append, List.nil_append, scan, hexCode?_hexDigit _ hcontrol]
      cases scan text <;> rfl
    · rw [resolve_code hcontrol, Char.ofNat_toNat]
  · exact ⟨.char c, scan_cons hquote hback hcontrol, fun _ => rfl⟩

theorem exists_pieces (chars rest : List Char) : ∃ pieces,
    scan (chars.flatMap escapeChar ++ '"' :: rest) = some (pieces, rest) ∧
      resolve pieces = some chars := by
  induction chars with
  | nil => exact ⟨[], rfl, rfl⟩
  | cons c chars ih =>
    obtain ⟨pieces, hscan, hresolve⟩ := ih
    obtain ⟨piece, hpiece, hchar⟩ := exists_piece c
    refine ⟨piece :: pieces, ?_, ?_⟩
    · rw [List.flatMap_cons, List.append_assoc, hpiece, hscan, Option.map_some]
    · rw [hchar, hresolve, Option.map_some]

end StringPiece

theorem quote_toList (s : String) :
    (quote s).toList = '"' :: (s.toList.flatMap escapeChar ++ ['"']) := by
  simp [quote]

theorem scanString_quoted (s : String) (rest : List Char) :
    scanString (s.toList.flatMap escapeChar ++ '"' :: rest) = some (some s, rest) := by
  obtain ⟨pieces, hscan, hresolve⟩ := StringPiece.exists_pieces s.toList rest
  rw [scanString, hscan]
  simp only [Option.map_some, hresolve, String.ofList_toList]

/-! ### Numbers -/

theorem ne_of_isDigit {c d : Char} (hc : c.isDigit = true) (hd : d.isDigit = false) : c ≠ d := by
  rintro rfl
  rw [hc] at hd
  cases hd

theorem isBlank_of_isDigit {c : Char} (h : c.isDigit = true) : isBlank c = false := by
  simp [isBlank, ne_of_isDigit h]

def continuesNumber (c : Char) : Bool := c.isDigit || c = '.' || c = 'e' || c = 'E'

/-- A natural number of 64 bits. -/
def IsWord (number : JsonNumber) : Prop := ∃ n : Nat, n < Nat.pow 2 64 ∧ number = .int n

namespace Numeral

theorem sign_of_isDigit {c : Char} (h : c.isDigit = true) (text : List Char) :
    sign (c :: text) = (false, c :: text) := by
  rw [sign]
  rintro rest heq
  obtain ⟨rfl, _⟩ := List.cons.inj heq
  cases h

theorem whole?_toDigits (n : Nat) {rest : List Char} (h : Free Char.isDigit rest) :
    whole? (Nat.toDigits 10 n ++ rest) = some (Nat.toDigits 10 n, rest) := by
  by_cases hzero : n = 0
  · rw [hzero, Nat.toDigits_zero, List.cons_append, List.nil_append, whole?, if_neg]
    cases rest with
    | nil => simp
    | cons d rest => simp [h d rfl]
  · have hall : ∀ d ∈ Nat.toDigits 10 n, d.isDigit = true := fun d hd =>
      Nat.isDigit_of_mem_toDigits (by decide) (by decide) hd
    have htake := h.takeWhile hall
    have hdrop := h.dropWhile hall
    obtain ⟨c, tail, heq, hdigit, hnonzero⟩ := exists_toDigits n
    rw [heq, List.cons_append] at htake hdrop ⊢
    rw [whole?, if_pos hdigit, htake, hdrop]
    exact hnonzero (by omega)

theorem fraction?_of_free {text : List Char} (h : Free continuesNumber text) :
    fraction? text = some (none, text) := by
  rw [fraction?]
  rintro rest rfl
  cases h _ rfl

theorem exponent?_of_free {text : List Char} (h : Free continuesNumber text) :
    exponent? text = some (none, text) := by
  cases text with
  | nil => rfl
  | cons c rest =>
    have hc : ¬ (c = 'e' ∨ c = 'E') := by
      rintro (rfl | rfl) <;> cases h _ rfl
    simp only [exponent?, if_neg hc]

theorem scan_toDigits (n : Nat) {rest : List Char} (h : Free continuesNumber rest) :
    scan (Nat.toDigits 10 n ++ rest) = some (⟨false, Nat.toDigits 10 n, none, none⟩, rest) := by
  have hfree : Free Char.isDigit rest := fun d hd => by
    have hd' := h d hd
    simp only [continuesNumber, Bool.or_eq_false_iff] at hd'
    exact hd'.1.1.1
  obtain ⟨c, tail, heq, hdigit, _⟩ := exists_toDigits n
  have hsign : sign (Nat.toDigits 10 n ++ rest) = (false, Nat.toDigits 10 n ++ rest) := by
    rw [heq, List.cons_append]
    exact sign_of_isDigit hdigit _
  simp only [scan, hsign, whole?_toDigits n hfree, fraction?_of_free h, exponent?_of_free h,
    Option.bind_eq_bind, Option.bind_some]
  rfl

theorem value?_toDigits {n : Nat} (h : n < Nat.pow 2 64) :
    value? ⟨false, Nat.toDigits 10 n, none, none⟩ = some (.int n) := by
  rw [value?, natOfDigits_toDigits]
  simp [h]

end Numeral

theorem numberText_nat (n : Nat) : (numberText (.int n)).toList = Nat.toDigits 10 n := by
  rw [numberText, Int.toString_eq_repr, Int.repr_eq_if, if_pos (Int.natCast_nonneg n),
    Int.toNat_natCast, Nat.toList_repr]

/-! ### Values -/

namespace Outline

/-- A text is scanned as an outline, wherever nothing behind it could continue a number. -/
structure Scans (text : List Char) (outline : Outline) : Prop where
  starts : ∃ c tail, text = c :: tail ∧ isBlank c = false ∧ c ≠ ']'
  scanned : ∀ fuel rest, 2 * text.length ≤ fuel → Free continuesNumber rest →
    scanValue fuel (text ++ rest) = (outline, some rest)

theorem scanValue_blanks {blanks : List Char} (h : ∀ c ∈ blanks, isBlank c = true) (fuel : Nat)
    (text : List Char) : scanValue fuel (blanks ++ text) = scanValue fuel text := by
  cases fuel with
  | zero => rfl
  | succ fuel => simp only [scanValue, skipBlanks_append h]

/-- Fuel of twice the length of a text is enough for one step of the scan at least. -/
theorem Scans.of_cons {c : Char} {tail : List Char} {outline : Outline} (hblank : isBlank c = false)
    (hc : c ≠ ']') (h : ∀ fuel rest, 2 * tail.length < fuel → Free continuesNumber rest →
      scanValue (fuel + 1) (c :: (tail ++ rest)) = (outline, some rest)) :
    Scans (c :: tail) outline := by
  refine ⟨⟨c, tail, rfl, hblank, hc⟩, fun fuel rest hfuel hrest => ?_⟩
  rw [List.length_cons] at hfuel
  obtain ⟨fuel, rfl⟩ : ∃ less, fuel = less + 1 := ⟨fuel - 1, by omega⟩
  exact h fuel rest (by omega) hrest

theorem scans_null : Scans "null".toList .null :=
  .of_cons rfl (by decide) fun _ _ _ _ => rfl

theorem scans_bool (value : Bool) :
    Scans (if value then "true" else "false").toList (.bool value) := by
  cases value with
  | false => exact .of_cons rfl (by decide) fun _ _ _ _ => rfl
  | true => exact .of_cons rfl (by decide) fun _ _ _ _ => rfl

theorem scans_string (s : String) : Scans (quote s).toList (.string (some s)) := by
  rw [quote_toList]
  refine .of_cons rfl (by decide) fun fuel rest _ _ => ?_
  rw [List.append_assoc, List.singleton_append]
  have hquote : isBlank '"' = false := rfl
  simp only [scanValue, skipBlanks_cons hquote, scanString_quoted]

/-- A value that starts with a digit is a number. -/
theorem scanValue_digit {c : Char} {text rest : List Char} {numeral : Numeral}
    (hdigit : c.isDigit = true) (h : Numeral.scan (c :: text) = some (numeral, rest)) (fuel : Nat) :
    scanValue (fuel + 1) (c :: text) = (.number numeral.value?, some rest) := by
  have hskip := skipBlanks_cons (isBlank_of_isDigit hdigit) text
  simp [scanValue, hskip, h, ne_of_isDigit hdigit]

theorem scans_nat {n : Nat} (h : n < Nat.pow 2 64) :
    Scans (numberText (.int n)).toList (.number (some (.int n))) := by
  rw [numberText_nat]
  obtain ⟨c, tail, heq, hdigit, _⟩ := exists_toDigits n
  rw [heq]
  refine .of_cons (isBlank_of_isDigit hdigit) (ne_of_isDigit hdigit rfl) fun fuel rest _ hrest => ?_
  have hscan := Numeral.scan_toDigits n hrest
  rw [heq, List.cons_append] at hscan
  rw [scanValue_digit hdigit hscan, ← heq, Numeral.value?_toDigits h]

/-! ### Arrays and objects -/

def margin (indent : Nat) : List Char := List.replicate (2 * indent) ' '

theorem isBlank_margin {indent : Nat} : ∀ c ∈ margin indent, isBlank c = true := by
  intro c hc
  rw [List.eq_of_mem_replicate hc]
  rfl

theorem isBlank_newline (indent : Nat) : ∀ c ∈ '\n' :: margin indent, isBlank c = true := by
  rw [List.forall_mem_cons]
  exact ⟨rfl, isBlank_margin⟩

def others (indent : Nat) (entries : List String) (closing : List Char) : List Char :=
  (entries.flatMap fun entry => ',' :: '\n' :: (margin (indent + 1) ++ entry.toList)) ++
    '\n' :: (margin indent ++ closing)

theorem others_cons (indent : Nat) (entry : String) (entries : List String) (closing : List Char) :
    others indent (entry :: entries) closing =
      ',' :: (('\n' :: margin (indent + 1)) ++
        (entry.toList ++ others indent entries closing)) := by
  simp [others]

theorem others_append (indent : Nat) (entries : List String) (closing rest : List Char) :
    others indent entries closing ++ rest = others indent entries (closing ++ rest) := by
  simp [others]

theorem free_others (indent : Nat) (entries : List String) (closing : List Char) :
    Free continuesNumber (others indent entries closing) := by
  cases entries with
  | nil => exact free_of_eq rfl rfl
  | cons entry entries => exact free_of_eq (others_cons _ _ _ _) rfl

theorem skipBlanks_others_nil (indent : Nat) {closing : List Char} (h : Free isBlank closing) :
    skipBlanks (others indent [] closing) = closing := by
  rw [others, List.flatMap_nil, List.nil_append, ← List.cons_append,
    skipBlanks_append (isBlank_newline indent), skipBlanks_of_free h]

theorem block_nil (opening closing : String) (indent : Nat) :
    (block opening closing indent []).toList = opening.toList ++ closing.toList := by
  simp [block]

theorem block_toList (opening closing : String) (indent : Nat) (entry : String)
    (entries : List String) : (block opening closing indent (entry :: entries)).toList =
      opening.toList ++ (('\n' :: margin (indent + 1)) ++
        (entry.toList ++ others indent entries closing.toList)) := by
  have hlines := intercalate_toList_cons
    (fun entry => String.ofList (List.replicate (2 * (indent + 1)) ' ') ++ entry) ",\n" entry
    entries
  simp only [block, List.isEmpty_cons, Bool.false_eq_true, if_false, String.toList_append, hlines]
  simp [others, margin]

theorem scanItems_reads {write : Json → String} {indent : Nat} {item : Json} {items : List Json}
    (h : ∀ value ∈ item :: items, Scans (write value).toList (ofJson value))
    {front : List Char} (hfront : ∀ c ∈ front, isBlank c = true) (rest : List Char) {fuel : Nat}
    (hfuel : 2 * ((write item).toList ++ others indent (items.map write) []).length < fuel) :
    scanItems fuel
        (front ++ ((write item).toList ++ others indent (items.map write) (']' :: rest))) =
      (ofItems (item :: items), some rest) := by
  induction items generalizing item front fuel with
  | nil =>
    obtain ⟨fuel, rfl⟩ : ∃ less, fuel = less + 1 := ⟨fuel - 1, by omega⟩
    have hitem := (h item List.mem_cons_self).scanned fuel _
      (by rw [List.length_append] at hfuel; omega)
      (free_others indent [] (']' :: rest))
    have hclosing : skipBlanks (others indent [] (']' :: rest)) = ']' :: rest :=
      skipBlanks_others_nil indent (free_of_eq rfl rfl)
    rw [scanItems, scanValue_blanks hfront, List.map_nil, hitem]
    simp only [hclosing, ofItems]
  | cons next items ih =>
    obtain ⟨fuel, rfl⟩ : ∃ less, fuel = less + 1 := ⟨fuel - 1, by omega⟩
    have hitem := (h item List.mem_cons_self).scanned fuel _
      (by rw [List.length_append] at hfuel; omega)
      (free_others indent ((next :: items).map write) (']' :: rest))
    have hshorter :
        2 * ((write next).toList ++ others indent (items.map write) []).length < fuel := by
      simp only [List.map_cons, others_cons, List.length_append, List.length_cons] at hfuel ⊢
      omega
    have hothers := ih (fun value hvalue => h value (List.mem_cons_of_mem _ hvalue))
      (isBlank_newline (indent + 1)) hshorter
    rw [List.map_cons, others_cons] at hitem ⊢
    have hcomma : isBlank ',' = false := rfl
    rw [scanItems, scanValue_blanks hfront, hitem]
    simp only [skipBlanks_cons hcomma, hothers, ofItems]

def memberText (indent : Nat) (member : String × Json) : String :=
  quote member.1 ++ ": " ++ prettyAt indent member.2

theorem prettyItems_eq_map (indent : Nat) (items : List Json) :
    prettyItems indent items = items.map (prettyAt indent) := by
  induction items with
  | nil => rfl
  | cons item rest ih => rw [prettyItems, ih, List.map_cons]

theorem prettyMembers_eq_map (indent : Nat) (members : List (String × Json)) :
    prettyMembers indent members = members.map (memberText indent) := by
  induction members with
  | nil => rfl
  | cons member rest ih =>
    obtain ⟨key, value⟩ := member
    rw [prettyMembers, ih, List.map_cons]
    rfl

theorem memberText_toList (indent : Nat) (key : String) (value : Json) :
    (memberText indent (key, value)).toList =
      '"' :: (key.toList.flatMap escapeChar ++
        '"' :: ':' :: ' ' :: (prettyAt indent value).toList) := by
  simp [memberText, quote_toList]

section Members

variable {indent fuel : Nat} {key : String} {value : Json} {front tail : List Char}

/-- The value of a member stands behind a blank. -/
theorem scanValue_member (h : Scans (prettyAt indent value).toList (ofJson value))
    (htail : Free continuesNumber tail)
    (hfuel : 2 * (memberText indent (key, value)).toList.length ≤ fuel) :
    scanValue fuel (' ' :: ((prettyAt indent value).toList ++ tail)) =
      (ofJson value, some tail) := by
  have hblank : ∀ c ∈ [' '], isBlank c = true := by simp [isBlank]
  have hshorter : 2 * (prettyAt indent value).toList.length ≤ fuel := by
    rw [memberText_toList] at hfuel
    simp only [List.length_cons, List.length_append] at hfuel
    omega
  rw [← h.scanned fuel tail hshorter htail]
  exact scanValue_blanks hblank fuel _

theorem scanMembers_last (h : Scans (prettyAt indent value).toList (ofJson value))
    (hfront : ∀ c ∈ front, isBlank c = true) (htail : Free continuesNumber tail)
    (hfuel : 2 * (memberText indent (key, value)).toList.length ≤ fuel) {rest : List Char}
    (hend : skipBlanks tail = '\x7d' :: rest) :
    scanMembers (fuel + 1) (front ++ ((memberText indent (key, value)).toList ++ tail)) =
      ([(some key, ofJson value)], some rest) := by
  have hquote : isBlank '"' = false := rfl
  have hcolon : isBlank ':' = false := rfl
  simp only [memberText_toList, List.cons_append, List.append_assoc, scanMembers,
    skipBlanks_append hfront, skipBlanks_cons hquote, scanString_quoted, skipBlanks_cons hcolon,
    scanValue_member h htail hfuel, hend]

theorem scanMembers_more (h : Scans (prettyAt indent value).toList (ofJson value))
    (hfront : ∀ c ∈ front, isBlank c = true) (htail : Free continuesNumber tail)
    (hfuel : 2 * (memberText indent (key, value)).toList.length ≤ fuel) {more : List Char}
    (hend : skipBlanks tail = ',' :: more) {members : List (Option String × Outline)}
    {rest : Option (List Char)} (hmore : scanMembers fuel more = (members, rest)) :
    scanMembers (fuel + 1) (front ++ ((memberText indent (key, value)).toList ++ tail)) =
      ((some key, ofJson value) :: members, rest) := by
  have hquote : isBlank '"' = false := rfl
  have hcolon : isBlank ':' = false := rfl
  simp only [memberText_toList, List.cons_append, List.append_assoc, scanMembers,
    skipBlanks_append hfront, skipBlanks_cons hquote, scanString_quoted, skipBlanks_cons hcolon,
    scanValue_member h htail hfuel, hend, hmore]

end Members

theorem scanMembers_reads {indent inner : Nat} {key : String} {value : Json}
    {members : List (String × Json)} (h : Scans (prettyAt inner value).toList (ofJson value))
    (hmembers : ∀ member ∈ members, Scans (prettyAt inner member.2).toList (ofJson member.2))
    {front : List Char} (hfront : ∀ c ∈ front, isBlank c = true) (rest : List Char) {fuel : Nat}
    (hfuel : 2 * ((memberText inner (key, value)).toList ++
      others indent (members.map (memberText inner)) []).length < fuel) :
    scanMembers fuel (front ++ ((memberText inner (key, value)).toList ++
        others indent (members.map (memberText inner)) ('\x7d' :: rest))) =
      (ofMembers ((key, value) :: members), some rest) := by
  induction members generalizing key value front fuel with
  | nil =>
    obtain ⟨fuel, rfl⟩ : ∃ less, fuel = less + 1 := ⟨fuel - 1, by omega⟩
    have hclosing : skipBlanks (others indent [] ('\x7d' :: rest)) = '\x7d' :: rest :=
      skipBlanks_others_nil indent (free_of_eq rfl rfl)
    rw [List.length_append] at hfuel
    exact scanMembers_last h hfront (free_others indent [] ('\x7d' :: rest)) (by omega) hclosing
  | cons next members ih =>
    obtain ⟨key', value'⟩ := next
    obtain ⟨fuel, rfl⟩ : ∃ less, fuel = less + 1 := ⟨fuel - 1, by omega⟩
    obtain ⟨hnext, hlater⟩ := List.forall_mem_cons.1 hmembers
    rw [List.map_cons, others_cons] at hfuel ⊢
    simp only [List.length_append, List.length_cons] at hfuel
    have hshorter : 2 * ((memberText inner (key', value')).toList ++
        others indent (members.map (memberText inner)) []).length < fuel := by
      rw [List.length_append]
      omega
    have hothers := ih hnext hlater (isBlank_newline (indent + 1)) hshorter
    exact scanMembers_more h hfront (free_of_eq rfl rfl) (by omega) rfl hothers

theorem scanValue_array {text rest : List Char} {items : List Outline} {c : Char}
    {tail : List Char} (hfirst : skipBlanks text = c :: tail) (hc : c ≠ ']') {fuel : Nat}
    (h : scanItems fuel text = (items, some rest)) :
    scanValue (fuel + 1) ('[' :: text) = (.array items, some rest) := by
  have hskip : skipBlanks ('[' :: text) = '[' :: text := skipBlanks_cons rfl text
  simp [scanValue, hskip, hfirst, hc, h]

theorem scanValue_object {text rest : List Char} {members : List (Option String × Outline)}
    {tail : List Char} (hfirst : skipBlanks text = '"' :: tail) {fuel : Nat}
    (h : scanMembers fuel text = (members, some rest)) :
    scanValue (fuel + 1) ('\x7b' :: text) = (.object members true, some rest) := by
  have hskip : skipBlanks ('\x7b' :: text) = '\x7b' :: text := skipBlanks_cons rfl text
  simp [scanValue, hskip, hfirst, h]

theorem scans_array {indent inner : Nat} {items : List Json}
    (h : ∀ item ∈ items, Scans (prettyAt inner item).toList (ofJson item)) :
    Scans (block "[" "]" indent (items.map (prettyAt inner))).toList (.array (ofItems items)) := by
  cases items with
  | nil =>
    rw [List.map_nil, block_nil]
    exact .of_cons rfl (by decide) fun _ _ _ _ => rfl
  | cons item items =>
    obtain ⟨c, tail, hitem, hblank, hc⟩ := (h item List.mem_cons_self).starts
    rw [List.map_cons, block_toList, show "[".toList = ['['] from rfl,
      show "]".toList = [']'] from rfl, List.singleton_append]
    refine .of_cons rfl (by decide) fun fuel rest hfuel _ => ?_
    have hshorter : 2 * ((prettyAt inner item).toList ++
        others indent (items.map (prettyAt inner)) []).length < fuel := by
      simp only [others, List.length_append, List.length_cons] at hfuel ⊢
      omega
    have hitems := scanItems_reads h (isBlank_newline (indent + 1)) rest hshorter
    have hfirst : skipBlanks (('\n' :: margin (indent + 1)) ++ ((prettyAt inner item).toList ++
        others indent (items.map (prettyAt inner)) (']' :: rest))) =
        c :: (tail ++ others indent (items.map (prettyAt inner)) (']' :: rest)) := by
      rw [skipBlanks_append (isBlank_newline _), hitem]
      exact skipBlanks_cons hblank _
    rw [List.append_assoc, List.append_assoc, others_append]
    exact scanValue_array hfirst hc hitems

theorem scans_object {indent inner : Nat} {members : List (String × Json)}
    (h : ∀ member ∈ members, Scans (prettyAt inner member.2).toList (ofJson member.2)) :
    Scans (block "\x7b" "\x7d" indent (members.map (memberText inner))).toList
      (.object (ofMembers members) true) := by
  cases members with
  | nil =>
    rw [List.map_nil, block_nil]
    exact .of_cons rfl (by decide) fun _ _ _ _ => rfl
  | cons member members =>
    obtain ⟨key, value⟩ := member
    obtain ⟨hvalue, hmembers⟩ := List.forall_mem_cons.1 h
    rw [List.map_cons, block_toList, show "\x7b".toList = ['\x7b'] from rfl,
      show "\x7d".toList = ['\x7d'] from rfl, List.singleton_append]
    refine .of_cons rfl (by decide) fun fuel rest hfuel _ => ?_
    have hshorter : 2 * ((memberText inner (key, value)).toList ++
        others indent (members.map (memberText inner)) []).length < fuel := by
      simp only [others, List.length_append, List.length_cons] at hfuel ⊢
      omega
    have hmembers := scanMembers_reads hvalue hmembers (isBlank_newline (indent + 1)) rest hshorter
    have hfirst : ∃ tail, skipBlanks (('\n' :: margin (indent + 1)) ++
        ((memberText inner (key, value)).toList ++
          others indent (members.map (memberText inner)) ('\x7d' :: rest))) = '"' :: tail := by
      rw [skipBlanks_append (isBlank_newline _), memberText_toList]
      exact ⟨_, rfl⟩
    obtain ⟨tail, hfirst⟩ := hfirst
    rw [List.append_assoc, List.append_assoc, others_append]
    exact scanValue_object hfirst hmembers

/-- The indented text of a value is scanned as the value. -/
theorem scans_prettyAt {value : Json} (h : Regular IsWord value) (indent : Nat) :
    Scans (prettyAt indent value).toList (ofJson value) := by
  induction h generalizing indent with
  | null => exact scans_null
  | bool value => exact scans_bool value
  | number hword =>
    obtain ⟨n, hn, rfl⟩ := hword
    exact scans_nat hn
  | string s => exact scans_string s
  | array _ ih =>
    rw [prettyAt, prettyItems_eq_map]
    exact scans_array fun item hitem => ih item hitem (indent + 1)
  | object _ _ ih =>
    rw [prettyAt, prettyMembers_eq_map]
    exact scans_object fun member hmember => ih member hmember (indent + 1)

end Outline

/-- A value whose numbers are natural numbers of 64 bits is parsed back from its indented text. -/
theorem parse_pretty {value : Json} (h : Regular IsWord value)
    (hdepth : value.depth ≤ nestingLimit) : parse value.pretty = .ok value := by
  have hscan := (Outline.scans_prettyAt h 0).scanned (2 * value.pretty.toList.length + 2) []
    (by rw [pretty]; omega) (fun _ hc => by cases hc)
  rw [List.append_nil] at hscan
  have hsource : Source.ofText value.pretty = ⟨Outline.ofJson value, true⟩ := by
    simp only [Source.ofText, pretty] at hscan ⊢
    rw [hscan]
    rfl
  have hread := reads_json h nestingLimit hdepth
  simp only [parse, readText, hsource, hread]
  rfl

end EntitySchema.Json
