import RepoGraph.Json.Basic
import RepoGraph.Number.Numeral

/-!
# Reading records

Entities, relationships and stage outputs are kept as JSON objects.  A field reader answers the
field's value or a fault: a name that is missing, a value of the wrong shape, a numeral that is
none.
-/

namespace RepoGraph

/-- What is wrong with a record. -/
inductive RecordFault where
  /-- A field that must be there is missing. -/
  | missing (name : String)
  /-- A numeral cannot be read. -/
  | numeral (fault : NumeralFault)
  /-- A value has another type than the field asks for. -/
  | wrongType
  /-- Something that is no record stands where a record is expected. -/
  | notARecord
deriving DecidableEq, Repr

namespace Record

/-- A field that must be there. -/
def required (v : Json) (name : String) : Except RecordFault Json :=
  match v with
  | .obj fields =>
    match Fields.get? fields name with
    | some value => .ok value
    | none => .error (.missing name)
  | _ => .error .wrongType

/-- A value that must be a text. -/
def text : Json → Except RecordFault String
  | .str s => .ok s
  | _ => .error .wrongType

/-- A text field that must be there. -/
def requiredText (v : Json) (name : String) : Except RecordFault String := do
  text (← required v name)

/-- A text field with a value for its absence. -/
def textOr (v : Json) (name default : String) : Except RecordFault String :=
  match v.get? name with
  | some value => text value
  | none => .ok default

/-- A text field that may be absent or `null`. -/
def optionalText (v : Json) (name : String) : Except RecordFault (Option String) :=
  match v.getNonNull? name with
  | some value => (text value).map some
  | none => .ok none

/-- A field that holds an object; absent, `null` and empty values are the empty object. -/
def fieldsOf (v : Json) (name : String) : Except RecordFault Fields :=
  match v.get? name with
  | none => .ok []
  | some (.obj fields) => .ok fields
  | some value => if value.isFilled then .error .wrongType else .ok []

/-- The integer a value stands for: an integer, the integer part of a number, a numeral, or a truth
value as zero or one. -/
def integer : Json → Except RecordFault Int
  | .int n => .ok n
  | .float x => (Numeral.integerPart x).mapError .numeral
  | .str s => (Numeral.integer s).mapError .numeral
  | .bool b => .ok (if b then 1 else 0)
  | _ => .error .wrongType

/-- An integer field, zero when absent. -/
def integerOrZero (v : Json) (name : String) : Except RecordFault Int :=
  match v.get? name with
  | some value => integer value
  | none => .ok 0

/-- A field that holds a list of records; absent it is empty. -/
def recordsOf {α : Type} (read : Json → Except RecordFault α) (v : Json) (name : String) :
    Except RecordFault (List α) :=
  match v.get? name with
  | none => .ok []
  | some (.arr items) => items.mapM read
  | some (.obj []) => .ok []
  | some (.str "") => .ok []
  | some _ => .error .wrongType

/-- A number. -/
def number : Json → Except RecordFault Number
  | .int n => .ok (.int n)
  | .float x => .ok (.float x)
  | _ => .error .wrongType

/-- A list of values that may be absent or `null`. -/
def optionalList {α : Type} (read : Json → Except RecordFault α) (v : Json) (name : String) :
    Except RecordFault (Option (List α)) :=
  match v.getNonNull? name with
  | none => .ok none
  | some (.arr items) => (items.mapM read).map some
  | some _ => .error .wrongType

/-- An integer that may be absent or `null`. -/
def optionalInteger (v : Json) (name : String) : Except RecordFault (Option Int) :=
  match v.getNonNull? name with
  | none => .ok none
  | some (.int n) => .ok (some n)
  | some _ => .error .wrongType

end Record

/-- A number as JSON. -/
def Number.toJson : Number → Json
  | .int n => .int n
  | .float x => .float x

/-- A text that may be absent, as JSON. -/
def Json.ofOption : Option String → Json
  | some s => .str s
  | none => .null

end RepoGraph
