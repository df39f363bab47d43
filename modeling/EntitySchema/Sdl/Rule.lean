import EntitySchema.Text.Scanner

/-!
Rules of the schema grammar: scanners that pass over what means nothing between tokens.
-/

namespace EntitySchema.Sdl

abbrev Rule (α : Type) := Text.Scanner α

namespace Rule

open Text

/-- Blanks, commas, line ends and the byte order mark mean nothing between tokens. -/
def isBlank (c : Char) : Bool :=
  c = ' ' || c = '\t' || c = ',' || c = '\n' || c = '\r' || c = '\uFEFF'

def isLineEnd (c : Char) : Bool := c = '\n' || c = '\r'

def skipFrom (inComment : Bool) : List Char → List Char
  | [] => []
  | c :: rest =>
    if inComment then skipFrom (!isLineEnd c) rest
    else if isBlank c then skipFrom false rest
    else if c = '#' then skipFrom true rest
    else c :: rest

def skipIgnored (text : List Char) : List Char := skipFrom false text

def skip : Rule Unit := modify skipIgnored

def lit (word : String) : Rule Unit := do
  skip
  Scanner.exact word

variable {α : Type}

def bracketed (opening closing : String) (rule : Rule α) : Rule α := do
  lit opening
  let phrase ← rule
  lit closing
  return phrase

def ending : Rule Unit := do
  skip
  Scanner.ending

end Rule

end EntitySchema.Sdl
