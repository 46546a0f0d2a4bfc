import RepoGraph.Number.Decimal
import RepoGraph.Text.Blank
import RepoGraph.Text.Quoted

/-!
# Instants

An `Instant` is a moment of the proleptic Gregorian calendar in universal time, to the microsecond.
`Instant.stamp` is its text to the millisecond, `millisecondsBetween` the time that lies between two
such texts.
-/

namespace RepoGraph

-- powers are those of whole numbers, whatever other powers are in scope
attribute [local instance (high)] instPowNat

-- sums start from the zero of the naturals, whatever other zeros are in scope
attribute [local instance (high)] Zero.ofOfNat0

/-- A date and a time of day, in universal time. -/
structure Instant where
  year : Nat
  month : Nat
  day : Nat
  hour : Nat
  minute : Nat
  second : Nat
  microsecond : Nat
deriving DecidableEq, Repr

namespace Instant

open Binary64 (padded)

/-- The text of an instant: its date, the letter `T`, the time to the millisecond (what lies below
is cut off) and the letter `Z`. -/
def stamp (t : Instant) : String :=
  padded 4 t.year ++ "-" ++ padded 2 t.month ++ "-" ++ padded 2 t.day ++ "T" ++
    padded 2 t.hour ++ ":" ++ padded 2 t.minute ++ ":" ++ padded 2 t.second ++ "." ++
    padded 3 (t.microsecond / 1000) ++ "Z"

/-! ### The calendar -/

/-- Whether a year has a leap day. -/
def isLeap (year : Nat) : Bool := year % 4 == 0 && (year % 100 != 0 || year % 400 == 0)

/-- The length of a month, and zero for a number that is no month. -/
def daysInMonth (year : Nat) : Nat → Nat
  | 1 => 31
  | 2 => if isLeap year then 29 else 28
  | 3 => 31
  | 4 => 30
  | 5 => 31
  | 6 => 30
  | 7 => 31
  | 8 => 31
  | 9 => 30
  | 10 => 31
  | 11 => 30
  | 12 => 31
  | _ => 0

/-- The days of the months before the given one. -/
def daysBeforeMonth (year month : Nat) : Nat :=
  ((List.range (month - 1)).map fun m => daysInMonth year (m + 1)).sum

/-- The days from the first day of year one to the given date. -/
def dayNumber (year month day : Nat) : Nat :=
  let y := year - 1
  y * 365 + y / 4 - y / 100 + y / 400 + daysBeforeMonth year month + (day - 1)

/-- The microseconds from the beginning of year one. -/
def microseconds (t : Instant) : Nat :=
  (((dayNumber t.year t.month t.day * 24 + t.hour) * 60 + t.minute) * 60 + t.second) * 1000000 +
    t.microsecond

/-! ### Reading -/

/-- A run of between one and `most` digits, its length, and the rest. -/
def digitsUpTo (most : Nat) (cs : List Char) : Option (Nat × Nat × List Char) :=
  let digits := (cs.take most).takeWhile Char.isDigit
  if digits.isEmpty then none
  else some (Decimal.natOfDigits digits, digits.length, cs.drop digits.length)

/-- The rest of a text after one given character. -/
def after (c : Char) : List Char → Option (List Char)
  | d :: rest => if d == c then some rest else none
  | [] => none

/-- The instant of a text in the form of `stamp`, with one to six digits after the point. -/
def ofStamp? (s : String) : Option Instant := do
  let (year, width, cs) ← digitsUpTo 4 s.toList
  guard (width == 4)
  let (month, _, cs) ← digitsUpTo 2 (← after '-' cs)
  let (day, _, cs) ← digitsUpTo 2 (← after '-' cs)
  let (hour, _, cs) ← digitsUpTo 2 (← after 'T' cs)
  let (minute, _, cs) ← digitsUpTo 2 (← after ':' cs)
  let (second, _, cs) ← digitsUpTo 2 (← after ':' cs)
  let (fraction, width, cs) ← digitsUpTo 6 (← after '.' cs)
  let cs ← after 'Z' cs
  guard cs.isEmpty
  guard (1 ≤ day && day ≤ daysInMonth year month && hour < 24 && minute < 60 && second < 60)
  return ⟨year, month, day, hour, minute, second, fraction * 10 ^ (6 - width)⟩

end Instant

/-- A text that should be a stamp and is not. -/
structure NotAStamp where
  text : String

/-- The fault as text. -/
def NotAStamp.message (fault : NotAStamp) : String :=
  "time data " ++ Text.quoted fault.text ++ " does not match format '%Y-%m-%dT%H:%M:%S.%fZ'"

/-- A stamp read, or the text refused. -/
def Instant.ofStamp (s : String) : Except NotAStamp Instant :=
  match Instant.ofStamp? s with
  | some t => .ok t
  | none => .error ⟨s⟩

/-- The milliseconds of a span given in microseconds: the seconds as a double-precision number,
times a thousand in such numbers, and the fraction dropped. -/
def wholeMilliseconds (microseconds : Int) : Int :=
  let seconds := Binary64.ofRatio (microseconds < 0) microseconds.natAbs 1000000
  (Binary64.ofRatio seconds.isNegative (seconds.ratio.1 * 1000) seconds.ratio.2).truncate

/-- The milliseconds from one stamp to another. -/
def millisecondsBetween (start finish : String) : Except NotAStamp Int := do
  let b ← Instant.ofStamp finish
  let a ← Instant.ofStamp start
  return wholeMilliseconds ((b.microseconds : Int) - a.microseconds)

end RepoGraph
