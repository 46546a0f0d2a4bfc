import RepoGraph.Json.Basic
import RepoGraph.Json.Printer
import RepoGraph.Number.Numeral
import RepoGraph.Text.Quoted
import RepoGraph.Time

/-!
# Values of YAML

Beside what JSON knows, a YAML text can hold bytes, dates, instants, sets, pairs, and lists and
mappings that contain themselves; the keys of a mapping may be scalars of any type.
`Value.display` shows a value as text, and `Value.toJson` writes what JSON does not know as text and
refuses what cannot be written.
-/

namespace RepoGraph

namespace Yaml

/-- A date and a time of day, in a zone if one is given (in minutes east). -/
structure Moment where
  year : Nat
  month : Nat
  day : Nat
  hour : Nat
  minute : Nat
  second : Nat
  microsecond : Nat
  zone : Option Int
deriving DecidableEq, Repr

/-- A scalar. -/
inductive Scalar where
  | null
  | bool (b : Bool)
  | int (n : Int)
  | float (x : Binary64)
  | text (s : String)
  | bytes (bs : List UInt8)
  | date (year month day : Nat)
  | moment (t : Moment)
deriving DecidableEq, Repr, Inhabited

/-- A value.  `loop` stands where a list or a mapping contains itself. -/
inductive Value where
  | scalar (s : Scalar)
  | list (items : List Value)
  | map (entries : List (Scalar × Value))
  | set (keys : List Scalar)
  | pair (key value : Value)
  | loop (isMap : Bool)
deriving Inhabited

/-! ### Equality of keys -/

namespace Moment

/-- The microseconds from the beginning of year one, in universal time where a zone is given. -/
def microseconds (t : Moment) : Int :=
  let instant : Instant := ⟨t.year, t.month, t.day, t.hour, t.minute, t.second, t.microsecond⟩
  instant.microseconds - (t.zone.getD 0) * 60000000

/-- Whether two moments are the same; one with a zone differs from one without. -/
def same (t u : Moment) : Bool :=
  t.zone.isSome == u.zone.isSome && t.microseconds == u.microseconds

end Moment

namespace Scalar

/-- The number that a key counts as: truth values count as zero and one. -/
def number? : Scalar → Option Number
  | bool b => some (.int (if b then 1 else 0))
  | int n => some (.int n)
  | float x => some (.float x)
  | _ => none

/-- Whether two numbers are equal as keys; a value that is no number is equal to itself. -/
def sameNumber : Number → Number → Bool
  | .int a, .int b => a == b
  | .float x, .float y => x == y || x.numEq y
  | .int a, .float x | .float x, .int a =>
    x.isFinite && x.signedRatio.1 == a * (x.signedRatio.2 : Int)

/-- Whether two keys are the same key: numbers count by their value. -/
def sameKey (a b : Scalar) : Bool :=
  match a.number?, b.number? with
  | some m, some n => sameNumber m n
  | none, none =>
    match a, b with
    | moment t, moment u => t.same u
    | _, _ => a == b
  | _, _ => false

/-- Gives a key a value: in place where the key is present, at the end where it is not. -/
def setEntry {α : Type} (key : Scalar) (value : α) : List (Scalar × α) → List (Scalar × α)
  | [] => [(key, value)]
  | (k, old) :: rest =>
    if k.sameKey key then (k, value) :: rest else (k, old) :: setEntry key value rest

end Scalar

/-! ### Text -/

open Binary64 (padded)

/-- A span in minutes, as days and the seconds of the last day. -/
def spanText (minutes : Int) : String :=
  let days := minutes.fdiv 1440
  let seconds := minutes.fmod 1440 * 60
  let parts := (if days == 0 then [] else ["days=" ++ toString days]) ++
    (if seconds == 0 then [] else ["seconds=" ++ toString seconds])
  "datetime.timedelta(" ++ (if parts.isEmpty then "0" else ", ".intercalate parts) ++ ")"

namespace Moment

/-- The zone behind the time of day. -/
def zoneText : Option Int → String
  | none => ""
  | some z =>
    (if z < 0 then "-" else "+") ++ padded 2 (z.natAbs / 60) ++ ":" ++ padded 2 (z.natAbs % 60)

/-- Date, time and zone; microseconds only where there are any. -/
def text (t : Moment) : String :=
  padded 4 t.year ++ "-" ++ padded 2 t.month ++ "-" ++ padded 2 t.day ++ " " ++
    padded 2 t.hour ++ ":" ++ padded 2 t.minute ++ ":" ++ padded 2 t.second ++
    (if t.microsecond == 0 then "" else "." ++ padded 6 t.microsecond) ++ zoneText t.zone

/-- The parts between parentheses; seconds and microseconds only where there are any. -/
def shown (t : Moment) : String :=
  let fine := if t.microsecond != 0 then [t.second, t.microsecond]
    else if t.second != 0 then [t.second] else []
  let parts := ([t.year, t.month, t.day, t.hour, t.minute] ++ fine).map toString
  let zone := match t.zone with
    | none => []
    | some 0 => ["tzinfo=datetime.timezone.utc"]
    | some z => ["tzinfo=datetime.timezone(" ++ spanText z ++ ")"]
  "datetime.datetime(" ++ ", ".intercalate (parts ++ zone) ++ ")"

end Moment

namespace Scalar

/-- A scalar inside another value: texts are quoted. -/
def shown : Scalar → Except NumeralFault String
  | null => .ok "None"
  | bool b => .ok (if b then "True" else "False")
  | int n => Numeral.integerText n
  | float x => .ok x.text
  | text s => .ok (Text.quoted s)
  | bytes bs => .ok (Text.quotedBytes bs)
  | date year month day =>
    .ok ("datetime.date(" ++ ", ".intercalate ([year, month, day].map toString) ++ ")")
  | moment t => .ok t.shown

/-- A scalar as plain text. -/
def display : Scalar → Except NumeralFault String
  | text s => .ok s
  | date year month day => .ok (padded 4 year ++ "-" ++ padded 2 month ++ "-" ++ padded 2 day)
  | moment t => .ok t.text
  | s => s.shown

end Scalar

namespace Value

/-- Keys between braces. -/
def shownSet (keys : List Scalar) : Except NumeralFault String := do
  if keys.isEmpty then return "set()"
  else return "\x7b" ++ ", ".intercalate (← keys.mapM Scalar.shown) ++ "\x7d"

mutual

/-- A value inside another: texts are quoted. -/
def shown : Value → Except NumeralFault String
  | scalar s => s.shown
  | list items => do return "[" ++ ", ".intercalate (← shownItems items) ++ "]"
  | map entries => do return "\x7b" ++ ", ".intercalate (← shownEntries entries) ++ "\x7d"
  | set keys => shownSet keys
  | pair key value => do return "(" ++ (← shown key) ++ ", " ++ (← shown value) ++ ")"
  | loop isMap => .ok (if isMap then "\x7b...\x7d" else "[...]")

/-- The texts of items. -/
def shownItems : List Value → Except NumeralFault (List String)
  | [] => .ok []
  | item :: rest => do return (← shown item) :: (← shownItems rest)

/-- The texts of entries. -/
def shownEntries : List (Scalar × Value) → Except NumeralFault (List String)
  | [] => .ok []
  | (key, value) :: rest => do
    return ((← key.shown) ++ ": " ++ (← shown value)) :: (← shownEntries rest)

end

/-- A value as plain text: a text stands for itself. -/
def display : Value → Except NumeralFault String
  | scalar s => s.display
  | v => v.shown

/-- The value under a text key of a mapping. -/
def get? (v : Value) (name : String) : Option Value :=
  match v with
  | map entries => (entries.find? fun e => e.1 == .text name).map Prod.snd
  | _ => none

end Value

/-! ### JSON -/

/-- Why a value has no JSON form. -/
inductive JsonFault where
  /-- A value contains itself. -/
  | circular
  /-- A key is neither text nor number nor truth value nor null. -/
  | noKey
  | numeral (fault : NumeralFault)
deriving DecidableEq, Repr

/-- The fault as text. -/
def JsonFault.message : JsonFault → String
  | circular => "Circular reference detected"
  | noKey => "keys must be texts or numbers"
  | numeral f => f.message

namespace Scalar

/-- A scalar as JSON; bytes and times are written as text. -/
def toJson (s : Scalar) : Except JsonFault Json :=
  match s with
  | null => .ok .null
  | bool b => .ok (.bool b)
  | int n => (Numeral.integerText n).mapError .numeral |>.map fun _ => .int n
  | float x => .ok (.float x)
  | text s => .ok (.str s)
  | s => s.display.mapError .numeral |>.map Json.str

/-- A key as the name of a field. -/
def fieldName : Scalar → Except JsonFault String
  | null => .ok "null"
  | bool b => .ok (if b then "true" else "false")
  | int n => (Numeral.integerText n).mapError .numeral
  | float x => .ok (Json.floatText x)
  | text s => .ok s
  | _ => .error .noKey

end Scalar

namespace Value

mutual

/-- A value as JSON: a pair becomes an array, and a set is written as text. -/
def toJson : Value → Except JsonFault Json
  | scalar s => s.toJson
  | list items => do return .arr (← itemsToJson items)
  | map entries => do return .obj (Fields.update [] (← entriesToJson entries))
  | set keys => (shownSet keys).mapError .numeral |>.map Json.str
  | pair key value => do return .arr [← toJson key, ← toJson value]
  | loop _ => .error .circular

/-- Items as JSON. -/
def itemsToJson : List Value → Except JsonFault (List Json)
  | [] => .ok []
  | item :: rest => do return (← toJson item) :: (← itemsToJson rest)

/-- Entries as fields. -/
def entriesToJson : List (Scalar × Value) → Except JsonFault Fields
  | [] => .ok []
  | (key, value) :: rest => do
    let name ← key.fieldName
    return (name, ← toJson value) :: (← entriesToJson rest)

end

mutual

/-- A JSON value as a value of YAML. -/
def ofJson : Json → Value
  | .null => scalar .null
  | .bool b => scalar (.bool b)
  | .int n => scalar (.int n)
  | .float x => scalar (.float x)
  | .str s => scalar (.text s)
  | .arr items => list (ofItems items)
  | .obj fields => map (ofFields fields)

/-- The items of a JSON array. -/
def ofItems : List Json → List Value
  | [] => []
  | item :: rest => ofJson item :: ofItems rest

/-- The fields of a JSON object. -/
def ofFields : List (String × Json) → List (Scalar × Value)
  | [] => []
  | (name, value) :: rest => (.text name, ofJson value) :: ofFields rest

end

/-- Whether a value counts as filled: null, false, zero and everything empty do not. -/
def isFilled : Value → Bool
  | scalar .null => false
  | scalar (.bool b) => b
  | scalar (.int n) => n != 0
  | scalar (.float x) => !x.isZero
  | scalar (.text s) => s != ""
  | scalar (.bytes bs) => !bs.isEmpty
  | scalar (.date ..) | scalar (.moment _) => true
  | list items => !items.isEmpty
  | map entries => !entries.isEmpty
  | set keys => !keys.isEmpty
  | pair .. | loop _ => true

end Value

end Yaml

end RepoGraph
