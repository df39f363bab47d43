import EntitySchema.Text.Columns.Ligature
import EntitySchema.Text.Columns.Tables

/-!
How many columns of a terminal a text takes. Most characters take one, ideographs and pictures
two, combining marks none. What stands behind a character can change that: selectors, skin tones,
joiners between pictures, and letters that are drawn together. So a text is read from its end.
-/

namespace EntitySchema.Text

/-- A selector right behind a character: whether it is shown as a picture, as text, or as wide as
an ideograph. -/
inductive Selector where
  | picture
  | text
  | wide
  deriving DecidableEq, Repr

/-- What stands behind a character, as far as it bears on the columns of that character. -/
inductive Behind where
  | other
  | lineEnd
  | picture
  | skinTone
  /-- So many letters of flags, which a joiner and a picture follow or not. -/
  | flagLetters (count : Nat) (joined : Bool)
  /-- A joiner and a picture, with the sign of a keycap in front or not. -/
  | joined (keycap : Bool)
  /-- The end of a flag of a region that is joined to a picture: letters, and digits in front. -/
  | tags (letters digits : Nat)
  /-- The tail of a ligature, with a joiner in front or not. -/
  | ligature (tail : LigatureTail) (joined : Bool)
  deriving DecidableEq, Repr

namespace Behind

def outlasts (behind : Behind) (selector : Selector) : Bool :=
  match behind, selector with
  | .ligature .vowelE _, _ | .ligature .vowelAi _, _ => false
  | .ligature .., _ | .joined _, .picture => true
  | _, _ => false

def isFlagLetter (c : Char) : Bool := 0x1f1e6 ≤ c.toNat ∧ c.toNat ≤ 0x1f1ff

def isSkinTone (c : Char) : Bool := 0x1f3fb ≤ c.toNat ∧ c.toNat ≤ 0x1f3ff

def isTagLetter (c : Char) : Bool := 0xe0061 ≤ c.toNat ∧ c.toNat ≤ 0xe007a

def isTagDigit (c : Char) : Bool := 0xe0030 ≤ c.toNat ∧ c.toNat ≤ 0xe0039

/-- The columns of a character that nothing behind it changes, and what it is to the character in
front of it. -/
def alone (c : Char) : Int × Behind :=
  if c.toNat = 0x17d8 then (3, .other)
  else if markRuns.has c then (0, .other)
  else if isSkinTone c then (2, .skinTone)
  else if isFlagLetter c then (1, .flagLetters 1 false)
  else if pictureRuns.has c then (2, .picture)
  else if wideRuns.has c then (2, .other)
  else (1, (LigatureTail.ofLetter? c).elim .other (.ligature · false))

def isJoinable : Behind → Bool
  | .picture | .skinTone => true
  | .flagLetters count _ => 2 ≤ count
  | _ => false

def joinedTo (keycap : Bool) (c : Char) : Option (Int × Behind) :=
  if keycap then none
  else if c = '\u20E3' then some (0, .joined true)
  else if isFlagLetter c then some (1, .flagLetters 1 true)
  else if isSkinTone c then some (0, .skinTone)
  else if c.toNat = 0xe007f then some (0, .tags 0 0)
  else if pictureRuns.has c then some (0, .picture)
  else none

def tagged (letters digits : Nat) (c : Char) : Option (Int × Behind) :=
  if isTagLetter c ∧ digits = 0 ∧ letters < 6 then some (0, .tags (letters + 1) 0)
  else if isTagDigit c ∧ digits < 3 ∧ letters < 5 then some (0, .tags letters (digits + 1))
  else if c.toNat = 0x1f3f4 ∧ (digits = 3 ∨ (digits = 0 ∧ 3 ≤ letters)) then some (0, .picture)
  else none

def together? (behind : Behind) (c : Char) : Option (Int × Behind) :=
  if c = LigatureTail.joiner ∧ behind.isJoinable then some (0, .joined false)
  else
    match behind with
    | .skinTone => if skinRuns.has c then some (0, .picture) else none
    | .flagLetters count inside =>
      if !isFlagLetter c then none
      else
        let columns : Int := if !inside then 1 else if count % 2 = 1 then -1 else 3
        some (columns, .flagLetters (count + 1) inside)
    | .joined keycap => joinedTo keycap c
    | .tags letters digits => tagged letters digits c
    | .ligature tail tied =>
      if tail.seesThrough c then some (0, .ligature tail (tied || c = LigatureTail.joiner))
      else
        (tail.extend? tied c).map fun (columns, tail?) =>
          (columns, tail?.elim .other (.ligature · true))
    | .other | .lineEnd | .picture => none

end Behind

/-- A character's surroundings: what stands behind it, and a selector in front of that. -/
structure Surround where
  behind : Behind := .other
  selector : Option Selector := none
  deriving DecidableEq, Repr

namespace Surround

def selected? (surround : Surround) (c : Char) : Option (Int × Behind) :=
  match surround.selector with
  | some .picture =>
    if selectableRuns.has c then
      let inside := surround.behind matches .joined _
      some (if inside then 0 else 2, .picture)
    else none
  | some .text =>
    -- ideographs stay as wide as they are
    if selectableRuns.has c ∧ pictureRuns.has c ∧ ¬(0x1f200 ≤ c.toNat ∧ c.toNat ≤ 0x1f2ff) then
      some (1, .other)
    else none
  | some .wide => if c ∈ ['‘', '’', '“', '”'] then some (2, .other) else none
  | none => none

def selectorOf? : Char → Option Selector
  | '\uFE0F' => some .picture
  | '\uFE0E' => some .text
  | '\uFE01' => some .wide
  | _ => none

def unselected (surround : Surround) : Behind :=
  match surround.behind, surround.selector with
  | .joined _, some _ => .other
  | behind, _ => behind

/-- The columns that a character adds, and what it is to the character in front of it. -/
def add (surround : Surround) (c : Char) : Int × Surround :=
  match surround.selected? c with
  | some (columns, behind) => (columns, { behind })
  | none =>
    let behind := surround.unselected
    if c = '\n' then (1, { behind := .lineEnd })
    else if c ≤ '\u00A0' then (if c = '\r' ∧ behind = .lineEnd then 0 else 1, {})
    else
      match selectorOf? c with
      | some selector =>
        (0, { behind := if behind.outlasts selector then behind else .other
              selector := some selector })
      | none =>
        let (columns, behind) := (behind.together? c).getD (Behind.alone c)
        (columns, { behind })

end Surround

def columns (text : List Char) : Nat :=
  (text.foldr
    (fun c (sum, surround) =>
      let (columns, surround) := Surround.add surround c
      (sum + columns, surround))
    ((0 : Int), ({} : Surround))).1.toNat

end EntitySchema.Text
