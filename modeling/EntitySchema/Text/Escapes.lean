/-!
Texts without the sequences that control a terminal, and without other control characters.
-/

namespace EntitySchema.Text

/-- Where in a sequence that controls a terminal a text stands. -/
inductive EscapeState where
  /-- Outside of any. -/
  | outside
  /-- Behind the escape character. -/
  | escape
  /-- Behind the characters between the escape character and the last one. -/
  | intermediate
  /-- Behind the parameters of a sequence that a letter ends. -/
  | parameters
  /-- In a text for the terminal, which another sequence ends, and a bell or not. -/
  | message (bell : Bool)
  deriving DecidableEq, Repr

namespace EscapeState

def isLayout (c : Char) : Bool := c = '\t' || c = '\n' || c = '\x0c' || c = '\r'

def isControl (c : Char) : Bool := c < ' ' || c = '\x7f'

def next (state : EscapeState) (c : Char) : EscapeState × Bool :=
  if c = '\x1b' then (escape, false)
  else if c = '\x18' ∨ c = '\x1a' then (outside, false)
  else
    match state with
    | message bell => (if bell && c = '\x07' then outside else message bell, false)
    | outside => (outside, isLayout c || !isControl c)
    | escape | intermediate | parameters =>
      if isLayout c then (outside, true)
      else if isControl c || c > '~' then (state, false)
      else if state = parameters then (if c < '@' then parameters else outside, false)
      else if c < '0' then (intermediate, false)
      else if state = intermediate then (outside, false)
      else
        match c with
        | '[' => (parameters, false)
        | ']' => (message true, false)
        | 'P' | 'X' | '^' | '_' => (message false, false)
        | _ => (outside, false)

def shown (state : EscapeState) : List Char → List Char
  | [] => []
  | c :: rest =>
    let (state, visible) := state.next c
    if visible then c :: state.shown rest else state.shown rest

end EscapeState

def withoutEscapes (text : String) : String :=
  String.ofList (EscapeState.outside.shown text.toList)

end EntitySchema.Text
