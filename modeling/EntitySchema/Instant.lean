/-!
Instants in UTC and their RFC 3339 text.
-/

namespace EntitySchema

/-- Seconds since 1970 and nanoseconds within the second. -/
structure Instant where
  seconds : Int
  nanos : Nat
  deriving DecidableEq, Repr

namespace Instant

inductive RangeError where
  | timestamp
  | nanosecond
  | offsetSeconds
  | localDateTime
  deriving DecidableEq, Repr

/-- The first second of the year -9999. -/
def firstSecond : Int := -377705116800

/-- The last second of the year 9999. -/
def lastSecond : Int := 253402300799

def inRange (seconds : Int) : Bool := firstSecond ≤ seconds ∧ seconds ≤ lastSecond

/-- The greatest offset from UTC, 25:59:59. -/
def greatestOffset : Nat := 93599

def ofParts? (seconds : Int) (nanos : Nat) (offset : Int) : Except RangeError Instant :=
  if !inRange seconds then .error .timestamp
  else if nanos > 999999999 then .error .nanosecond
  else if offset.natAbs > greatestOffset then .error .offsetSeconds
  else if !inRange (seconds + offset) then .error .localDateTime
  else .ok ⟨seconds, nanos⟩

structure Date where
  year : Int
  month : Nat
  day : Nat
  deriving DecidableEq, Repr

/-- The date a number of days after 1970-01-01. Years are counted from March, in eras of 400. -/
def Date.ofDays (days : Int) : Date :=
  let shifted := days + 719468
  let era := shifted / 146097
  let dayOfEra := (shifted % 146097).toNat
  let yearOfEra :=
    (dayOfEra - dayOfEra / 1460 + dayOfEra / 36524 - dayOfEra / 146096) / 365
  let dayOfYear := dayOfEra - (365 * yearOfEra + yearOfEra / 4 - yearOfEra / 100)
  let fromMarch := (5 * dayOfYear + 2) / 153
  let day := dayOfYear - (153 * fromMarch + 2) / 5 + 1
  let month := if fromMarch < 10 then fromMarch + 3 else fromMarch - 9
  let year := (yearOfEra : Int) + era * 400 + (if month ≤ 2 then 1 else 0)
  ⟨year, month, day⟩

def date (t : Instant) : Date := Date.ofDays (t.seconds / 86400)

def secondOfDay (t : Instant) : Nat := (t.seconds % 86400).toNat

def padded (width n : Nat) : String :=
  let digits := toString n
  String.ofList (List.replicate (width - digits.length) '0') ++ digits

def fractionText (nanos : Nat) : String :=
  if nanos = 0 then ""
  else "." ++ String.ofList ((padded 9 nanos).toList.reverse.dropWhile (· = '0')).reverse

/-- RFC 3339 expresses the years from 0 to 9999. -/
def rfc3339? (t : Instant) : Option String :=
  let date := t.date
  if 0 ≤ date.year ∧ date.year ≤ 9999 then
    let second := t.secondOfDay
    some (padded 4 date.year.toNat ++ "-" ++ padded 2 date.month ++ "-" ++ padded 2 date.day ++
      "T" ++ padded 2 (second / 3600) ++ ":" ++ padded 2 (second / 60 % 60) ++ ":" ++
      padded 2 (second % 60) ++ fractionText t.nanos ++ "Z")
  else none

def unformattableYear : String :=
  "The year component cannot be formatted into the requested format."

def le (a b : Instant) : Bool := a.seconds < b.seconds ∨ (a.seconds = b.seconds ∧ a.nanos ≤ b.nanos)

end Instant

end EntitySchema
