import Mathlib.Data.List.Forall2
import RepoGraph.Json.Reader
import RepoGraph.Proofs.Extract
import RepoGraph.Yaml.Value

/-!
# Values that can be written

Not every value of YAML has a JSON form.  It has none if it contains itself, if a mapping in it has
a key that is no name, or if an integer in it has too many digits to be written; `JsonFault.IsIn`
says so of the value and of the values inside it.  These are all the reasons: a value without such a
fault is written, and one with a fault is refused for a fault that it has.

Main statements: `Yaml.Value.failsBy_toJson`, `Yaml.Value.forall₂_of_entriesToJson`.
-/

namespace RepoGraph

/-! ### Answers and their faults -/

/-- An answer that is an error exactly if there are faults, and then one of them. -/
inductive FailsBy {ε α : Type} (faults : ε → Prop) : Except ε α → Prop where
  | ok (a : α) (h : ∀ fault, ¬ faults fault) : FailsBy faults (.ok a)
  | error {fault : ε} (h : faults fault) : FailsBy faults (.error fault)

namespace FailsBy

variable {ε α β : Type} {faults more : ε → Prop} {answer : Except ε α}

theorem congr (h : FailsBy faults answer) (hiff : ∀ fault, more fault ↔ faults fault) :
    FailsBy more answer := by
  cases h with
  | ok a h => exact .ok a fun fault hfault => h fault ((hiff fault).1 hfault)
  | error h => exact .error ((hiff _).2 h)

theorem map (h : FailsBy faults answer) (f : α → β) : FailsBy faults (answer.map f) := by
  cases h with
  | ok a h => exact .ok (f a) h
  | error h => exact .error h

theorem mapError {ε' : Type} {reason : ε → ε'} (faults : ε' → Prop)
    (h : FailsBy (fun fault => faults (reason fault)) answer)
    (hreason : ∀ fault, faults fault → ∃ inner, reason inner = fault) :
    FailsBy faults (answer.mapError reason) := by
  cases h with
  | error h => exact .error h
  | ok a h =>
    refine .ok a fun fault hfault => ?_
    obtain ⟨inner, rfl⟩ := hreason fault hfault
    exact h inner hfault

theorem bind {next : α → Except ε β} (h : FailsBy faults answer)
    (hnext : ∀ a, FailsBy more (next a)) :
    FailsBy (fun fault => faults fault ∨ more fault) (answer >>= next) := by
  cases h with
  | error h => exact .error (.inl h)
  | ok a h => exact (hnext a).congr fun fault => or_iff_right (h fault)

/-- Steps in a row fail by the faults of each. -/
theorem mapM {f : β → Except ε α} {of : β → ε → Prop} (h : ∀ b, FailsBy (of b) (f b))
    (bs : List β) :
    FailsBy (fun fault => ∃ b ∈ bs, of b fault) (bs.mapM f) := by
  induction bs with
  | nil => exact .ok [] fun _ ⟨_, hb, _⟩ => nomatch hb
  | cons b rest ih =>
    rw [List.mapM_cons]
    exact ((h b).bind fun a => ih.map (a :: ·)).congr fun fault => List.exists_mem_cons_iff ..

theorem exists_ok (h : FailsBy faults answer) (hnone : ∀ fault, ¬ faults fault) :
    ∃ a, answer = .ok a := by
  cases h with
  | ok a _ => exact ⟨a, rfl⟩
  | error h => exact absurd h (hnone _)

theorem exists_error {fault : ε} (h : FailsBy faults answer) (hfault : faults fault) :
    ∃ first, faults first ∧ answer = .error first := by
  cases h with
  | ok a h => exact absurd hfault (h fault)
  | error h => exact ⟨_, h, rfl⟩

end FailsBy

namespace Yaml

-- powers are those of whole numbers, whatever other powers are in scope
attribute [local instance (high)] instPowNat

/-! ### The parts of a value -/

namespace Value

mutual

/-- A value and all values inside it, but for the keys. -/
def parts : Value → List Value
  | scalar s => [scalar s]
  | list items => list items :: itemParts items
  | map entries => map entries :: entryParts entries
  | set keys => [set keys]
  | pair key value => pair key value :: (parts key ++ parts value)
  | loop isMap => [loop isMap]

/-- The parts of items. -/
def itemParts : List Value → List Value
  | [] => []
  | item :: rest => parts item ++ itemParts rest

/-- The parts of the values of entries. -/
def entryParts : List (Scalar × Value) → List Value
  | [] => []
  | (_, value) :: rest => parts value ++ entryParts rest

end

theorem itemParts_eq_flatMap (items : List Value) : itemParts items = items.flatMap parts := by
  induction items with
  | nil => rfl
  | cons item rest ih => rw [itemParts, ih, List.flatMap_cons]

theorem entryParts_eq_flatMap (entries : List (Scalar × Value)) :
    entryParts entries = entries.flatMap fun e => parts e.2 := by
  induction entries with
  | nil => rfl
  | cons e rest ih => rw [entryParts, ih, List.flatMap_cons]

end Value

/-! ### Faults -/

namespace Scalar

/-- Whether a key is a name in JSON: a text, a number, a truth value or null. -/
def isName : Scalar → Bool
  | null | bool _ | int _ | float _ | text _ => true
  | bytes _ | date .. | moment _ => false

/-- Whether a scalar is an integer with too many digits to be written. -/
def isTooLong : Scalar → Bool
  | int n => decide (10 ^ Json.maxDigits ≤ n.natAbs)
  | _ => false

end Scalar

namespace JsonFault

/-- Whether a scalar has a fault: an integer can be too long. -/
def isOfScalar (fault : JsonFault) (s : Scalar) : Bool := fault == numeral .tooLong && s.isTooLong

/-- Whether a key has a fault. -/
def isOfKey : JsonFault → Scalar → Bool
  | noKey, key => !key.isName
  | fault, key => fault.isOfScalar key

/-- Whether a value has a fault of its own, the values inside it left aside. -/
def isOf : JsonFault → Value → Bool
  | circular, .loop _ => true
  | fault, .scalar s => fault.isOfScalar s
  | fault, .set keys => keys.any fault.isOfScalar
  | fault, .map entries => entries.any fun e => fault.isOfKey e.1
  | _, _ => false

/-- Whether a value or one inside it has a fault. -/
def IsIn (fault : JsonFault) (v : Value) : Prop := ∃ part ∈ v.parts, fault.isOf part = true

instance (fault : JsonFault) (v : Value) : Decidable (fault.IsIn v) :=
  inferInstanceAs (Decidable (∃ part ∈ v.parts, fault.isOf part = true))

variable {fault : JsonFault}

theorem isOfScalar_iff {s : Scalar} :
    fault.isOfScalar s = true ↔ fault = numeral .tooLong ∧ s.isTooLong = true := by
  rw [isOfScalar, Bool.and_eq_true, beq_iff_eq]

theorem exists_numeral {s : Scalar} (h : fault.isOfScalar s = true) :
    ∃ inner, numeral inner = fault :=
  ⟨_, (isOfScalar_iff.1 h).1.symm⟩

/-- A fault in a value is its own or one in a value inside it. -/
theorem isIn_cons {v : Value} {inner : List Value} (h : v.parts = v :: inner) :
    fault.IsIn v ↔ fault.isOf v = true ∨ ∃ part ∈ inner, fault.isOf part = true := by
  rw [IsIn, h, List.exists_mem_cons_iff]

theorem isIn_scalar_iff {s : Scalar} : fault.IsIn (.scalar s) ↔ fault.isOfScalar s = true := by
  rw [isIn_cons rfl]
  cases fault <;> simp [isOf]

theorem isIn_set_iff {keys : List Scalar} :
    fault.IsIn (.set keys) ↔ ∃ key ∈ keys, fault.isOfScalar key = true := by
  rw [isIn_cons rfl]
  cases fault <;> simp [isOf]

theorem isIn_loop_iff {isMap : Bool} : fault.IsIn (.loop isMap) ↔ fault = circular := by
  rw [isIn_cons rfl]
  cases fault <;> simp [isOf, isOfScalar]

theorem isIn_list_iff {items : List Value} :
    fault.IsIn (.list items) ↔ ∃ item ∈ items, fault.IsIn item := by
  rw [isIn_cons rfl, Value.itemParts_eq_flatMap]
  have hown : fault.isOf (.list items) = false := by cases fault <;> rfl
  simp only [hown, IsIn, List.mem_flatMap]
  grind

theorem isIn_map_iff {entries : List (Scalar × Value)} :
    fault.IsIn (.map entries) ↔ ∃ e ∈ entries, fault.isOfKey e.1 = true ∨ fault.IsIn e.2 := by
  rw [isIn_cons rfl, Value.entryParts_eq_flatMap]
  have hown : fault.isOf (.map entries) = entries.any fun e => fault.isOfKey e.1 := by
    cases fault <;> rfl
  rw [hown, List.any_eq_true]
  constructor
  · rintro (⟨e, he, hkey⟩ | ⟨part, hpart, hfault⟩)
    · exact ⟨e, he, .inl hkey⟩
    · obtain ⟨e, he, hpart⟩ := List.mem_flatMap.1 hpart
      exact ⟨e, he, .inr ⟨part, hpart, hfault⟩⟩
  · rintro ⟨e, he, hkey | ⟨part, hpart, hfault⟩⟩
    · exact .inl ⟨e, he, hkey⟩
    · exact .inr ⟨part, List.mem_flatMap.2 ⟨e, he, hpart⟩, hfault⟩

theorem isIn_pair_iff {key value : Value} :
    fault.IsIn (.pair key value) ↔ fault.IsIn key ∨ fault.IsIn value := by
  rw [isIn_cons rfl]
  have hown : fault.isOf (.pair key value) = false := by cases fault <;> rfl
  simp only [hown, IsIn, List.mem_append]
  grind

end JsonFault

/-! ### What is written and what is refused -/

namespace Scalar

open JsonFault (numeral)

variable {s : Scalar}

/-- Only integers have a fault. -/
theorem isTooLong_iff : s.isTooLong = true ↔ ∃ n, s = .int n ∧ 10 ^ Json.maxDigits ≤ n.natAbs := by
  cases s with
  | int n => simp only [isTooLong, decide_eq_true_eq, int.injEq, exists_eq_left']
  | _ => simp [isTooLong]

theorem failsBy_integerText (n : Int) :
    FailsBy (fun fault => (numeral fault).isOfScalar (.int n) = true) (Numeral.integerText n) := by
  simp only [JsonFault.isOfScalar_iff, isTooLong_iff]
  rw [Numeral.integerText, show (4300 : Nat) = Json.maxDigits from rfl]
  by_cases hlong : 10 ^ Json.maxDigits ≤ n.natAbs
  · rw [if_pos hlong]
    exact .error ⟨rfl, n, rfl, hlong⟩
  · rw [if_neg hlong]
    refine .ok _ fun fault hfault => ?_
    obtain ⟨-, m, heq, hm⟩ := hfault
    rw [Scalar.int.inj heq] at hlong
    exact hlong hm

/-- A scalar that is no integer has no fault. -/
theorem not_isOfScalar (h : ∀ n, s ≠ .int n) (fault : JsonFault) : ¬ fault.isOfScalar s = true := by
  intro hfault
  obtain ⟨n, rfl, -⟩ := isTooLong_iff.1 (JsonFault.isOfScalar_iff.1 hfault).2
  exact h n rfl

theorem failsBy_shown (s : Scalar) :
    FailsBy (fun fault => (numeral fault).isOfScalar s = true) s.shown := by
  cases s with
  | int n => exact failsBy_integerText n
  | _ => exact .ok _ fun fault => not_isOfScalar (by simp) _

theorem failsBy_mapError {α : Type} {answer : Except NumeralFault α}
    (h : FailsBy (fun fault => (numeral fault).isOfScalar s = true) answer) :
    FailsBy (fun fault : JsonFault => fault.isOfScalar s = true) (answer.mapError numeral) :=
  h.mapError _ fun _ => JsonFault.exists_numeral

theorem failsBy_toJson (s : Scalar) : FailsBy
    (fun fault => fault.isOfScalar s = true) s.toJson := by
  cases s with
  | int n =>
    rw [toJson]
    exact (failsBy_mapError (failsBy_integerText n)).map _
  | _ => exact .ok _ (not_isOfScalar (by simp))

theorem isOfKey_iff {fault : JsonFault} {key : Scalar} : fault.isOfKey key = true ↔
    fault = .noKey ∧ key.isName = false ∨ fault.isOfScalar key = true := by
  cases fault <;> simp [JsonFault.isOfKey, JsonFault.isOfScalar]

theorem failsBy_fieldName (key : Scalar) :
    FailsBy (fun fault => fault.isOfKey key = true) key.fieldName := by
  have hname (h : key.isName = true) (fault : JsonFault) :
      fault.isOfKey key = true ↔ fault.isOfScalar key = true := by simp [isOfKey_iff, h]
  cases key with
  | int n =>
    rw [fieldName]
    exact (failsBy_mapError (failsBy_integerText n)).congr (hname rfl)
  | bytes | date | moment => exact .error rfl
  | _ => exact (FailsBy.ok _ (not_isOfScalar (by simp))).congr (hname rfl)

end Scalar

namespace Value

open JsonFault (isIn_list_iff isIn_map_iff)

theorem failsBy_shownSet (keys : List Scalar) :
    FailsBy (fun fault => ∃ key ∈ keys, (JsonFault.numeral fault).isOfScalar key = true)
      (shownSet keys) := by
  rw [shownSet]
  split
  · rename_i hempty
    rw [List.isEmpty_iff.1 hempty]
    exact .ok _ fun _ ⟨_, hkey, _⟩ => nomatch hkey
  · exact (FailsBy.mapM Scalar.failsBy_shown keys).map _

mutual

/-- A value is refused for a fault that is in it, and written if there is none. -/
theorem failsBy_toJson (v : Value) : FailsBy (fun fault => fault.IsIn v) v.toJson := by
  match v with
  | scalar s => exact s.failsBy_toJson.congr fun _ => JsonFault.isIn_scalar_iff
  | list items =>
    rw [toJson]
    exact ((failsBy_itemsToJson items).map _).congr fun _ => isIn_list_iff
  | map entries =>
    rw [toJson]
    exact ((failsBy_entriesToJson entries).map _).congr fun _ => isIn_map_iff
  | set keys =>
    rw [toJson]
    -- a set is written as one text, so only what its keys are shown as can be too long
    exact (((failsBy_shownSet keys).mapError
      (fun fault => ∃ key ∈ keys, fault.isOfScalar key = true)
      fun _ ⟨_, _, hfault⟩ => JsonFault.exists_numeral hfault).map _).congr
        fun _ => JsonFault.isIn_set_iff
  | pair key value =>
    rw [toJson]
    exact ((failsBy_toJson key).bind fun _ => (failsBy_toJson value).map _).congr
      fun _ => JsonFault.isIn_pair_iff
  | loop isMap => exact .error (JsonFault.isIn_loop_iff.2 rfl)
termination_by sizeOf v

theorem failsBy_itemsToJson (items : List Value) :
    FailsBy (fun fault => ∃ item ∈ items, fault.IsIn item) (itemsToJson items) := by
  match items with
  | [] => exact .ok [] fun _ ⟨_, hitem, _⟩ => nomatch hitem
  | item :: rest =>
    rw [itemsToJson]
    exact ((failsBy_toJson item).bind fun _ => (failsBy_itemsToJson rest).map _).congr
      fun _ => List.exists_mem_cons_iff ..
termination_by sizeOf items

theorem failsBy_entriesToJson (entries : List (Scalar × Value)) :
    FailsBy (fun fault => ∃ e ∈ entries, fault.isOfKey e.1 = true ∨ fault.IsIn e.2)
      (entriesToJson entries) := by
  match entries with
  | [] => exact .ok [] fun _ ⟨_, he, _⟩ => nomatch he
  | (key, value) :: rest =>
    rw [entriesToJson]
    -- a key is looked at before its value, so the fault that is told may be of either
    refine (key.failsBy_fieldName.bind fun _ => (failsBy_toJson value).bind fun _ =>
      (failsBy_entriesToJson rest).map _).congr fun _ => ?_
    rw [List.exists_mem_cons_iff, or_assoc]
termination_by sizeOf entries

end

/-- The fields of entries stand in their order, each with the name of its key and the form of its
value. -/
theorem forall₂_of_entriesToJson {entries : List (Scalar × Value)} {fields : Fields}
    (h : entriesToJson entries = .ok fields) : List.Forall₂ (fun e field =>
      e.1.fieldName = .ok field.1 ∧ e.2.toJson = .ok field.2) entries fields := by
  induction entries generalizing fields with
  | nil =>
    cases h
    exact .nil
  | cons e rest ih =>
    rw [entriesToJson] at h
    obtain ⟨name, hname, h⟩ := exists_of_bind h
    obtain ⟨json, hvalue, h⟩ := exists_of_bind h
    obtain ⟨more, hrest, rfl⟩ := exists_of_map h
    exact .cons ⟨hname, hvalue⟩ (ih hrest)

end Value

end Yaml

end RepoGraph
