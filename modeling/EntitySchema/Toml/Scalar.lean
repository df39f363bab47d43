import EntitySchema.Configuration.Setting
import EntitySchema.Instant
import EntitySchema.Text.Scanner

/-!
The scalars of TOML: strings in four kinds of quotes, numbers, switches, dates and times.
-/

namespace EntitySchema.Toml

open Text Text.Scanner

abbrev Scanner (α : Type) := Text.Scanner α

def isBlank (c : Char) : Bool := c = ' ' || c = '\t'

def isPlain (c : Char) : Bool := c = '\t' || (' ' ≤ c && c ≠ '\x7f')

def dropLineEnd? : List Char → Option (List Char)
  | '\n' :: rest | '\r' :: '\n' :: rest => some rest
  | _ => none

def escape? : List Char → Option (Char × List Char)
  | 'b' :: rest => some ('\x08', rest)
  | 't' :: rest => some ('\t', rest)
  | 'n' :: rest => some ('\n', rest)
  | 'f' :: rest => some ('\x0c', rest)
  | 'r' :: rest => some ('\r', rest)
  | 'e' :: rest => some ('\x1b', rest)
  | '"' :: rest => some ('"', rest)
  | '\\' :: rest => some ('\\', rest)
  | 'x' :: a :: b :: rest => do
    let code ← hexCode? '0' '0' a b
    return (Char.ofNat code, rest)
  | 'u' :: a :: b :: c :: d :: rest => do
    let code ← hexCode? a b c d
    if code.isValidChar then return (Char.ofNat code, rest) else none
  | 'U' :: a :: b :: c :: d :: e :: f :: g :: h :: rest => do
    let code := (← hexCode? a b c d) * 65536 + (← hexCode? e f g h)
    if code.isValidChar then return (Char.ofNat code, rest) else none
  | _ => none

def dropBlankLines : List Char → List Char
  | ' ' :: rest | '\t' :: rest | '\n' :: rest | '\r' :: '\n' :: rest => dropBlankLines rest
  | rest => rest

/-- What follows a backslash that ends a line: the text from the next word on. -/
def continuation? (text : List Char) : Option (List Char) :=
  (dropLineEnd? (text.dropWhile isBlank)).map dropBlankLines

def lineBody (quote : Char) : Nat → Scanner (List Char)
  | 0, _ => none
  | _ + 1, [] => none
  | fuel + 1, c :: rest =>
    if c = quote then some ([], rest)
    else if c = '\\' ∧ quote = '"' then do
      let (d, rest) ← escape? rest
      let (tail, rest) ← lineBody quote fuel rest
      return (d :: tail, rest)
    else if isPlain c then do
      let (tail, rest) ← lineBody quote fuel rest
      return (c :: tail, rest)
    else none

/-- The rest of a string of several lines, whose line ends stay as they are written. Of the quotes
that close it, up to two more than three belong to the string. -/
def blockBody (quote : Char) : Nat → Scanner (List Char)
  | 0, _ => none
  | _ + 1, [] => none
  | fuel + 1, c :: rest =>
    if c = quote then
      let quotes := ((c :: rest).takeWhile (· = quote)).length
      let behind := (c :: rest).dropWhile (· = quote)
      if quotes < 3 then do
        let (tail, rest) ← blockBody quote fuel behind
        return (List.replicate quotes quote ++ tail, rest)
      else
        let inside := min (quotes - 3) 2
        some (List.replicate inside quote, List.replicate (quotes - 3 - inside) quote ++ behind)
    else if c = '\\' ∧ quote = '"' then
      match continuation? rest with
      | some rest => blockBody quote fuel rest
      | none => do
        let (d, rest) ← escape? rest
        let (tail, rest) ← blockBody quote fuel rest
        return (d :: tail, rest)
    else if isPlain c || (dropLineEnd? (c :: rest)).isSome then do
      let (tail, rest) ← blockBody quote fuel rest
      return (c :: tail, rest)
    else none

def lineString (quote : Char) : Scanner String := do
  exact quote.toString
  return String.ofList (← fun text => lineBody quote text.length text)

/-- A line end right behind the opening quotes is left out. -/
def blockString (quote : Char) : Scanner String := do
  exact (String.ofList [quote, quote, quote])
  modify fun text => (dropLineEnd? text).getD text
  return String.ofList (← fun text => blockBody quote text.length text)

def string : Scanner String :=
  blockString '"' <|> blockString '\'' <|> lineString '"' <|> lineString '\''

/-- Digits of a class, with single underscores between them. -/
def digits (accepts : Char → Bool) : Scanner (List Char) := do
  let first ← one accepts
  return first :: (← many ((do exact "_"; one accepts) <|> one accepts))

def basedNumber (opening : String) (base : Nat) : Scanner Setting := do
  exact opening
  let found ← digits fun c => (hexValue? c).any (· < base)
  let value : Int := found.foldl (fun n c => base * n + ((hexValue? c).getD 0 : Nat)) 0
  if value ≤ Setting.greatestWhole then return .whole value else failure

def sign : Scanner Bool := do
  return (← optional (one fun c => c = '+' || c = '-')) = some '-'

def exponent : Scanner Int := do
  discard (one fun c => c = 'e' || c = 'E')
  let negative ← sign
  let magnitude : Int := natOfDigits (← digits Char.isDigit)
  return if negative then -magnitude else magnitude

def decimalNumber : Scanner Setting := do
  let negative ← sign
  (do
    exact "inf"
    return .real (.infinite negative)) <|>
  (do
    exact "nan"
    return .real .undefined) <|>
  (do
    let whole ← (do exact "0"; return ['0']) <|> digits Char.isDigit
    let fraction ← optional (do exact "."; digits Char.isDigit)
    let power ← optional exponent
    match fraction, power with
    | none, none =>
      let magnitude : Int := natOfDigits whole
      let value := if negative then -magnitude else magnitude
      if Setting.leastWhole ≤ value ∧ value ≤ Setting.greatestWhole then return .whole value
      else failure
    | fraction, power =>
      let behind := fraction.getD []
      let significand := natOfDigits (whole ++ behind)
      match Extended.ofDecimal negative significand (power.getD 0 - behind.length) with
      | .finite x => return .real (.finite x)
      | _ => failure)

def fixedNumber (count least greatest : Nat) : Scanner Nat := do
  let found ← (List.range count).mapM fun _ => one Char.isDigit
  let value := natOfDigits found
  if least ≤ value ∧ value ≤ greatest then return value else failure

def isLeapYear (year : Nat) : Bool := year % 4 = 0 && (year % 100 ≠ 0 || year % 400 = 0)

def daysInMonth (year month : Nat) : Nat :=
  match month with
  | 2 => if isLeapYear year then 29 else 28
  | 4 | 6 | 9 | 11 => 30
  | _ => 31

def date : Scanner String := do
  let year ← fixedNumber 4 0 9999
  exact "-"
  let month ← fixedNumber 2 1 12
  exact "-"
  let day ← fixedNumber 2 1 (daysInMonth year month)
  return Instant.padded 4 year ++ "-" ++ Instant.padded 2 month ++ "-" ++ Instant.padded 2 day

/-- The digits behind the point of a second. Those behind the ninth and trailing zeros are dropped,
but one digit stays. -/
def fraction : Scanner String := do
  exact "."
  let first ← one Char.isDigit
  let kept := (← span Char.isDigit).take 8
  return "." ++ String.ofList (first :: (kept.reverse.dropWhile (· = '0')).reverse)

def second : Scanner String := do
  exact ":"
  let whole ← fixedNumber 2 0 60
  return ":" ++ Instant.padded 2 whole ++ (← optional fraction).getD ""

def time : Scanner String := do
  let hour ← fixedNumber 2 0 23
  exact ":"
  let minute ← fixedNumber 2 0 59
  return Instant.padded 2 hour ++ ":" ++ Instant.padded 2 minute ++ (← optional second).getD ""

def offset : Scanner String :=
  (do
    discard (one fun c => c = 'Z' || c = 'z')
    return "Z") <|>
  (do
    let mark ← one fun c => c = '+' || c = '-'
    let hours ← fixedNumber 2 0 23
    exact ":"
    let minutes ← fixedNumber 2 0 59
    let mark := if hours = 0 ∧ minutes = 0 then '+' else mark
    return mark.toString ++ Instant.padded 2 hours ++ ":" ++ Instant.padded 2 minutes)

def moment : Scanner String :=
  (do
    let day ← date
    let rest ← optional do
      discard (one fun c => c = 'T' || c = 't' || c = ' ')
      let clock ← time
      return "T" ++ clock ++ (← optional offset).getD ""
    return day ++ rest.getD "") <|>
  time

def scalar : Scanner Setting :=
  (.text <$> string) <|> (.text <$> moment) <|> basedNumber "0x" 16 <|> basedNumber "0o" 8 <|>
    basedNumber "0b" 2 <|> decimalNumber <|> (do exact "true"; return .flag true) <|>
    (do exact "false"; return .flag false)

end EntitySchema.Toml
