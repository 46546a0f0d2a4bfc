import RepoGraph.Number.Decimal

/-!
# JSON values

A `Json` keeps integers and double-precision numbers apart and the fields of an object in the order
they were first written.  `Fields` is the association list of an object: `set` replaces the value of
a name that is present and appends one that is not, so a name occurs at most once.

Main statements: `Fields.get?_set_self`, `Fields.get?_set_of_ne`, `Fields.names_set`.
-/

namespace RepoGraph

/-- A JSON value. -/
inductive Json where
  | null
  | bool (b : Bool)
  | int (n : Int)
  | float (x : Binary64)
  | str (s : String)
  | arr (items : List Json)
  | obj (fields : List (String × Json))
deriving Inhabited

/-- The fields of an object, in order. -/
abbrev Fields := List (String × Json)

namespace Fields

/-- The value under a name. -/
def get? : Fields → String → Option Json
  | [], _ => none
  | (name, value) :: rest, key => if name == key then some value else get? rest key

/-- Gives a name a value: in place where the name is present, at the end where it is not. -/
def set : Fields → String → Json → Fields
  | [], key, value => [(key, value)]
  | (name, old) :: rest, key, value =>
    if name == key then (name, value) :: rest else (name, old) :: set rest key value

/-- Gives every name of the second list its value there, in the order of that list. -/
def update (fields new : Fields) : Fields := new.foldl (fun acc (k, v) => set acc k v) fields

/-- The names, in order. -/
def names (fields : Fields) : List String := fields.map Prod.fst

@[simp]
theorem get?_set_self (fields : Fields) (key : String) (value : Json) :
    (fields.set key value).get? key = some value := by
  induction fields with
  | nil => simp [set, get?]
  | cons field rest ih =>
    obtain ⟨name, old⟩ := field
    by_cases h : name == key <;> simp [set, get?, h, ih]

theorem get?_set_of_ne (fields : Fields) {key other : String} (h : key ≠ other) (value : Json) :
    (fields.set key value).get? other = fields.get? other := by
  induction fields with
  | nil => simp [set, get?, h]
  | cons field rest ih =>
    obtain ⟨name, old⟩ := field
    by_cases hk : name = key
    · subst hk; simp [set, get?, h]
    · by_cases ho : name = other
      · subst ho; simp [set, get?, hk]
      · simp [set, get?, hk, ho, ih]

/-- Setting a name keeps the other names and their order. -/
theorem names_set (fields : Fields) (key : String) (value : Json) :
    (fields.set key value).names =
      if key ∈ fields.names then fields.names else fields.names ++ [key] := by
  induction fields with
  | nil => simp [set, names]
  | cons field rest ih =>
    obtain ⟨name, old⟩ := field
    by_cases hk : name = key
    · subst hk; simp [set, names]
    · have hk' : ¬ key = name := fun h => hk h.symm
      simp only [names] at ih
      simp only [set, beq_iff_eq, hk, names, List.map_cons, List.mem_cons, hk', false_or, ih,
        if_false]
      by_cases hm : key ∈ List.map Prod.fst rest <;> simp [hm]

end Fields

namespace Json

/-- The field of an object under a name; nothing for another value. -/
def get? (v : Json) (name : String) : Option Json :=
  match v with
  | obj fields => Fields.get? fields name
  | _ => none

/-- Absent and `null` fields are alike. -/
def getNonNull? (v : Json) (name : String) : Option Json :=
  match v.get? name with
  | some null => none
  | other => other

/-- A text, when the value is one. -/
def str? : Json → Option String
  | str s => some s
  | _ => none

/-- The items of an array. -/
def arr? : Json → Option (List Json)
  | arr items => some items
  | _ => none

/-- The fields of an object. -/
def obj? : Json → Option Fields
  | obj fields => some fields
  | _ => none

/-- An integer. -/
def int? : Json → Option Int
  | int n => some n
  | _ => none

/-- A truth value. -/
def bool? : Json → Option Bool
  | bool b => some b
  | _ => none

/-- The object with the fields that are present. -/
def ofFields (fields : List (String × Option Json)) : Json :=
  obj (fields.filterMap fun (name, value) => value.map fun v => (name, v))

/-- Whether a value counts as filled: `null`, `false`, zero and everything empty do not. -/
def isFilled : Json → Bool
  | null => false
  | bool b => b
  | int n => n != 0
  | float x => !x.isZero
  | str s => s != ""
  | arr items => !items.isEmpty
  | obj fields => !fields.isEmpty

/-! ### Equality -/

mutual

/-- Whether two values are the same, number kinds and field order included. -/
def same : Json → Json → Bool
  | null, null => true
  | bool a, bool b => a == b
  | int a, int b => a == b
  | float a, float b => a == b
  | str a, str b => a == b
  | arr a, arr b => sameItems a b
  | obj a, obj b => sameFields a b
  | _, _ => false

/-- Whether two lists of values are the same. -/
def sameItems : List Json → List Json → Bool
  | [], [] => true
  | a :: as, b :: bs => same a b && sameItems as bs
  | _, _ => false

/-- Whether two lists of fields are the same. -/
def sameFields : List (String × Json) → List (String × Json) → Bool
  | [], [] => true
  | (k, a) :: as, (l, b) :: bs => k == l && same a b && sameFields as bs
  | _, _ => false

end

instance : BEq Json := ⟨same⟩

end Json

end RepoGraph
