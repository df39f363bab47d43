import EntitySchema.Text.Columns.Tables

/-!
Letters that are drawn together with the letters in front of them and then take fewer columns
than apart.
-/

namespace EntitySchema.Text

/-- The last part of a ligature: what stands behind a letter that may belong to it. -/
inductive LigatureTail where
  /-- An Arabic alef, which joins with a lam. -/
  | alef
  /-- A Hebrew lamed, which a joiner ties to an alef. -/
  | lamed
  /-- A Khmer letter, which is set below the line by a coeng. -/
  | subjoined
  /-- A Buginese ya, which a joiner ties to a vowel sign and a letter a. -/
  | ya
  /-- The Buginese vowel sign in front of the joiner. -/
  | vowelOfYa
  | tifinagh
  /-- A Tifinagh consonant with the sign that joins it to another one. -/
  | tifinaghJoined
  /-- The second part of a Lisu tone. -/
  | lisuTone
  /-- An Old Turkic i, which a joiner ties to a letter ec. -/
  | orkhonI
  /-- Kirat Rai vowels, which are composed of others. -/
  | vowelE
  | vowelAi
  deriving DecidableEq, Repr

namespace LigatureTail

def joiner : Char := '\u200D'

def alefRuns : Runs :=
  [(0x622, 0x623), (0x625, 0x625), (0x627, 0x627), (0x671, 0x673), (0x675, 0x675),
   (0x773, 0x774), (0x870, 0x882)]

def lamRuns : Runs :=
  [(0x644, 0x644), (0x6b5, 0x6b8), (0x76a, 0x76a), (0x8a6, 0x8a6), (0x8c7, 0x8c7)]

def subjoinedRuns : Runs :=
  [(0x1780, 0x1782), (0x1784, 0x1787), (0x1789, 0x178c), (0x178e, 0x1793), (0x1795, 0x1798),
   (0x179b, 0x179d), (0x17a0, 0x17a0), (0x17a2, 0x17a2), (0x17a7, 0x17a7), (0x17ab, 0x17ac),
   (0x17af, 0x17af)]

def tifinaghRuns : Runs := [(0x2d31, 0x2d65), (0x2d6f, 0x2d6f)]

def transparentRuns : Runs :=
  [(0x34f, 0x34f), (0x17b4, 0x17b5), (0x180b, 0x180d), (0x180f, 0x180f), (0xfe00, 0xfe0f),
   (0xe0100, 0xe01ef)]

def ofLetter? (c : Char) : Option LigatureTail :=
  match c.toNat with
  | 0x5dc => some lamed
  | 0x1a10 => some ya
  | 0xa4fc | 0xa4fd => some lisuTone
  | 0x10c03 => some orkhonI
  | 0x16d67 => some vowelE
  | 0x16d68 => some vowelAi
  | _ =>
    if alefRuns.has c then some alef
    else if subjoinedRuns.has c then some subjoined
    else if tifinaghRuns.has c then some tifinagh
    else none

/-- What a character in front adds to the columns if it belongs to the ligature, and the tail that
both make together. `joined` tells whether a joiner stands between them. -/
def extend? (tail : LigatureTail) (joined : Bool) (c : Char) : Option (Int × Option LigatureTail) :=
  match tail, c.toNat with
  | lamed, 0x5d0 | orkhonI, 0x10c32 => if joined then some (0, none) else none
  | ya, 0x1a17 => if joined then some (0, some vowelOfYa) else none
  | vowelOfYa, 0x1a15 => some (0, none)
  | subjoined, 0x17d2 => some (-1, none)
  | tifinagh, 0x2d7f => some (1, some tifinaghJoined)
  | lisuTone, code => if 0xa4f8 ≤ code ∧ code ≤ 0xa4fb then some (0, none) else none
  | vowelE, 0x16d63 | vowelE, 0x16d69 | vowelAi, 0x16d63 => some (0, none)
  | vowelE, 0x16d67 => some (0, some vowelAi)
  | vowelE, 0x16d68 => some (1, some vowelE)
  | alef, _ => if lamRuns.has c then some (0, none) else none
  | tifinagh, _ => if joined && tifinaghRuns.has c then some (0, none) else none
  | tifinaghJoined, _ => if tifinaghRuns.has c then some (-1, none) else none
  | _, _ => none

def seesThrough (tail : LigatureTail) (c : Char) : Bool :=
  match tail with
  | alef => markRuns.has c && !joinBreakingRuns.has c
  | vowelE | vowelAi => false
  | _ => transparentRuns.has c || c = joiner

end LigatureTail

end EntitySchema.Text
