import RepoGraph.Text.Case
import RepoGraph.Yaml.Lexer
import RepoGraph.Yaml.Resolve
import RepoGraph.Yaml.Value

/-!
# Scalars from their spelling

A type turns the text of a scalar into its value.  A tag may give a text a type that it has not the
spelling of, so each type has its own way to refuse a text.
-/

namespace RepoGraph

namespace Yaml

/-- Why numbers make no date or time of day. -/
inductive CalendarFault where
  | year (n : Nat)
  | month
  | day
  | hour
  | minute
  | second
  /-- A zone a day or more away, in minutes. -/
  | zone (minutes : Int)
deriving DecidableEq, Repr

/-- The fault as text. -/
def CalendarFault.message : CalendarFault → String
  | year n => "year " ++ toString n ++ " is out of range"
  | month => "month must be in 1..12"
  | day => "day is out of range for month"
  | hour => "hour must be in 0..23"
  | minute => "minute must be in 0..59"
  | second => "second must be in 0..59"
  | zone minutes =>
    "offset must be a timedelta strictly between -timedelta(hours=24) and timedelta(hours=24), not " ++
      spanText minutes ++ "."

/-- Why a text has no value. -/
inductive Fault where
  /-- The text breaks the rules of the format. -/
  | malformed
  /-- An escape names a number beyond all characters. -/
  | noCharacter
  /-- An escape names a number beyond all words. -/
  | noWord
  | numeral (fault : NumeralFault)
  /-- A number without any text. -/
  | emptyNumber
  /-- A word that is no truth value, in lower case. -/
  | noTruthValue (word : String)
  /-- A text that is no date. -/
  | noTimestamp
  /-- A mapping where a date is wanted. -/
  | timestampOfMapping
  | calendar (fault : CalendarFault)
deriving DecidableEq, Repr

/-- The fault of a text that has no tokens. -/
def Fault.ofLex : LexFault → Fault
  | .malformed => .malformed
  | .noCharacter => .noCharacter
  | .noWord => .noWord

namespace Literal

/-! ### Numbers -/

/-- Without underscores, and cut at the sign: whether it is negative, and the rest. -/
def signed (text : String) : Except Fault (Bool × List Char) :=
  match text.toList.filter (· != '_') with
  | [] => .error .emptyNumber
  | '-' :: rest => .ok (true, rest)
  | '+' :: rest => .ok (false, rest)
  | cs => .ok (false, cs)

/-- The parts of a text between colons. -/
def sixtieths (cs : List Char) : List String :=
  (Text.splitAt (· == ':') cs).map String.ofList

/-- An integer in the base that its spelling names. -/
def magnitude (cs : List Char) : Except Fault Int :=
  let ofNumeral (n : Except NumeralFault Int) : Except Fault Int := n.mapError .numeral
  match cs with
  | [] => .error .emptyNumber
  | ['0'] => .ok 0
  | '0' :: 'b' :: rest => ofNumeral (Numeral.integerIn 2 (String.ofList rest))
  | '0' :: 'x' :: rest => ofNumeral (Numeral.integerIn 16 (String.ofList rest))
  | '0' :: _ => ofNumeral (Numeral.integerIn 8 (String.ofList cs))
  | _ =>
    if cs.contains ':' then do
      let parts ← (sixtieths cs).mapM fun p => ofNumeral (Numeral.integer p)
      return parts.foldl (fun n part => 60 * n + part) 0
    else ofNumeral (Numeral.integer (String.ofList cs))

/-- An integer. -/
def integer (text : String) : Except Fault Int := do
  let (negative, cs) ← signed text
  let n ← magnitude cs
  return if negative then -n else n

/-- The sum of parts of sixty in double precision, the last part first. -/
def sumSixtieths : Nat → Binary64 → List Binary64 → Except Fault Binary64
  | _, sum, [] => .ok sum
  | base, sum, part :: rest => do
    let factor ← (Numeral.floatOfInt base).mapError .numeral
    sumSixtieths (base * 60) (sum.add (part.mul factor)) rest

/-- A double-precision number. -/
def float (text : String) : Except Fault Binary64 := do
  let (negative, cs) ← signed (Text.lower text)
  let word := String.ofList cs
  let x ←
    if word == ".inf" then .ok (Binary64.infinity false)
    else if word == ".nan" then .ok Binary64.nan
    else if cs.contains ':' then do
      let parts ← (sixtieths cs).mapM fun p => (Numeral.float p).mapError Fault.numeral
      sumSixtieths 1 (Binary64.ofInt 0) parts.reverse
    else (Numeral.float word).mapError Fault.numeral
  return if negative && !x.isNaN then x.neg else x

/-! ### Words -/

/-- The words for truth values, in lower case. -/
def truthValues : List (String × Bool) :=
  [("yes", true), ("no", false), ("true", true), ("false", false), ("on", true), ("off", false)]

/-- A truth value. -/
def truthValue (text : String) : Except Fault Bool :=
  let word := Text.lower text
  match truthValues.find? fun e => e.1 == word with
  | some (_, b) => .ok b
  | none => .error (.noTruthValue word)

/-! ### Bytes -/

/-- The value of one of sixty-four characters. -/
def sixBits? (c : Char) : Option Nat :=
  if c.isUpper then some (c.toNat - 65)
  else if c.isLower then some (c.toNat - 71)
  else if c.isDigit then some (c.toNat + 4)
  else if c == '+' then some 62
  else if c == '/' then some 63
  else none

/-- The bytes behind groups of four characters: `count` and `bits` are of the group so far, `pads`
counts the signs that fill it up.  Other characters are passed over. -/
def base64 (count bits pads : Nat) : List Char → Option (List UInt8)
  | [] => if count = 0 then some [] else none
  | '=' :: rest =>
    if 2 ≤ count && 4 ≤ count + (pads + 1) then some []
    else base64 count bits (if 2 ≤ count then pads + 1 else pads) rest
  | c :: rest =>
    match sixBits? c with
    | none => base64 count bits pads rest
    | some v =>
      let byte (n : Nat) : UInt8 := UInt8.ofNat n
      match count with
      | 0 => base64 1 v 0 rest
      | 1 => (base64 2 (v % 16) 0 rest).map (byte (bits * 4 + v / 16) :: ·)
      | 2 => (base64 3 (v % 4) 0 rest).map (byte (bits * 16 + v / 4) :: ·)
      | _ => (base64 0 0 0 rest).map (byte (bits * 64 + v) :: ·)

/-- Bytes, six bits a character. -/
def bytes (text : String) : Except Fault (List UInt8) :=
  if text.toList.all fun c => c.toNat < 128 then
    match base64 0 0 0 text.toList with
    | some bs => .ok bs
    | none => .error .malformed
  else .error .malformed

/-! ### Times -/

/-- Refuses numbers that make no date. -/
def checkDate (s : Spelling.Stamp) : Except CalendarFault Unit :=
  if s.year == 0 then .error (.year 0)
  else if s.month == 0 || 12 < s.month then .error .month
  else if s.day == 0 || Instant.daysInMonth s.year s.month < s.day then .error .day
  else .ok ()

/-- The microseconds of the digits of a fraction; only six count. -/
def microseconds (fraction : List Char) : Nat :=
  Spelling.number ((fraction ++ List.replicate 6 '0').take 6)

/-- The scalar of a date and a time as written. -/
def ofStamp (s : Spelling.Stamp) : Except CalendarFault Scalar := do
  match s.time with
  | none =>
    checkDate s
    return .date s.year s.month s.day
  | some (hour, minute, second, fraction, zone) =>
    match zone with
    | some z => if 1440 ≤ z.natAbs then throw (.zone z)
    | none => pure ()
    checkDate s
    if 23 < hour then throw .hour
    if 59 < minute then throw .minute
    if 59 < second then throw .second
    return .moment ⟨s.year, s.month, s.day, hour, minute, second, microseconds fraction, zone⟩

/-- A date or an instant. -/
def timestamp (text : String) : Except Fault Scalar :=
  match Spelling.stamp? (Spelling.withoutFinalBreak text.toList) with
  | some s => (ofStamp s).mapError .calendar
  | none => .error .noTimestamp

end Literal

/-- The value of a text of a scalar type. -/
def Scalar.ofText (kind : Kind) (text : String) : Except Fault Scalar :=
  match kind with
  | .null => .ok .null
  | .bool => (Literal.truthValue text).map .bool
  | .int => (Literal.integer text).map .int
  | .float => (Literal.float text).map .float
  | .binary => (Literal.bytes text).map .bytes
  | .timestamp => Literal.timestamp text
  | .text => .ok (.text text)
  | _ => .error .malformed

end Yaml

end RepoGraph
