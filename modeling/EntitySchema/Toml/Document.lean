import EntitySchema.Toml.Scalar
import EntitySchema.Toml.Table

/-!
TOML documents: lines that open tables or give values to keys, and the table they stand for.
-/

namespace EntitySchema.Toml

open Text Text.Scanner

def blanks : Scanner Unit := discard (span isBlank)

def lineEnd : Scanner Unit := fun text => (dropLineEnd? text).map fun rest => ((), rest)

def comment : Scanner Unit := do
  exact "#"
  discard (span isPlain)

def spacing : Scanner Unit := do
  discard <| many <| discard (one isBlank) <|> lineEnd <|> comment

def isBare (c : Char) : Bool := c.isAlphanum || c = '_' || c = '-'

def simpleKey : Scanner String :=
  (do return String.ofList ((← one isBare) :: (← span isBare))) <|> lineString '"' <|>
    lineString '\''

/-- How many lists and braces may stand inside one another, and how many names a key has. -/
def nestingLimit : Nat := 80

def key : Scanner Key := do
  let first ← simpleKey
  let others ← many do
    blanks
    exact "."
    blanks
    simpleKey
  let names := first :: others
  if names.length ≤ nestingLimit then
    return { parents := names.dropLast, name := names.getLastD first }
  else failure

def separated {α : Type} (item : Scanner α) : Scanner (List α) :=
  orNone do
    let first ← item
    return first :: (← many (do exact ","; item))

def pairOf (gap : Scanner Unit) (value : Scanner Setting) : Scanner (Key × Setting) := do
  let key ← key
  gap
  exact "="
  gap
  return (key, ← value)

/-- Items in brackets, which may go over several lines. A comma may stand behind the last one. -/
def bracketed {α : Type} (opening closing : String) (item : Scanner α) : Scanner (List α) := do
  exact opening
  let items ← separated do
    spacing
    let item ← item
    spacing
    return item
  unless items.isEmpty do discard (optional (exact ","))
  spacing
  exact closing
  return items

def valueWithin : Nat → Scanner Setting
  | 0 => scalar
  | room + 1 =>
    (.list <$> bracketed "[" "]" (valueWithin room)) <|>
    (do
      let pairs ← bracketed "\x7b" "\x7d" (pairOf spacing (valueWithin room))
      (inlineTable? pairs).elim failure pure) <|>
    scalar

inductive Line where
  | nothing
  | pair (key : Key) (value : Setting)
  | table (key : Key)
  | item (key : Key)
  deriving Repr

def header (opening closing : String) : Scanner Key := do
  exact opening
  blanks
  let key ← key
  blanks
  exact closing
  return key

def line : Scanner Line := do
  blanks
  let said ←
    (.item <$> header "[[" "]]") <|> (.table <$> header "[" "]") <|>
      ((fun (key, value) => .pair key value) <$> pairOf blanks (valueWithin nestingLimit)) <|>
      pure .nothing
  blanks
  discard (optional comment)
  return said

def lines : Scanner (List Line) := do
  discard (optional (exact "\uFEFF"))
  let first ← line
  let others ← many (do lineEnd; line)
  ending
  return first :: others

/-- A document while it is built, and the header that its next pairs stand under. -/
structure Draft where
  root : Table := (.defined, [])
  header : List String := []
  deriving Repr

def Draft.add (draft : Draft) : Line → Option Draft
  | .nothing => some draft
  | .table key => do
    return { root := ← Table.openTable key draft.root, header := key.parents ++ [key.name] }
  | .item key => do
    return { root := ← Table.openItem key draft.root, header := key.parents ++ [key.name] }
  | .pair key value => do
    let root ← Table.enter false (Table.assign key value) draft.header draft.root
    return { draft with root }

def read? (text : String) : Option (List (String × Setting)) := do
  let (lines, _) ← lines text.toList
  let draft ← lines.foldlM Draft.add {}
  return settingsOf draft.root.2

end EntitySchema.Toml
