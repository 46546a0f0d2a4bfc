import Mathlib.Data.Nat.Digits.Defs
import RepoGraph.Proofs.Json.Grammar
import RepoGraph.Proofs.Record

/-!
# Values that come back

`Json.IsKept` says of a value that no object in it has two fields of one name and no integer in it
is too long to be written.  The text of such a value is read as the value itself, and whatever is
read from a text is such a value.

Main statements: `Json.IsKept.asRead_eq`, `Json.IsKept.isShort_eq`, `Json.isKept_of_read`.
-/

namespace RepoGraph

/-! ### Fields with distinct names -/

namespace Fields

variable {fields new : Fields} {name : String} {value : Json}

theorem nodup_names_set (h : fields.names.Nodup) (name : String) (value : Json) :
    (fields.set name value).names.Nodup := by
  rw [names_set]
  split
  · exact h
  · rename_i hnot
    exact List.Nodup.append h (List.nodup_singleton _) (by simpa using hnot)

theorem nodup_names_update (h : fields.names.Nodup) (new : Fields) :
    (fields.update new).names.Nodup := by
  induction new generalizing fields with
  | nil => exact h
  | cons field rest ih => exact ih (nodup_names_set h _ _)

theorem mem_set {field : String × Json} (h : field ∈ fields.set name value) :
    field ∈ fields ∨ field.2 = value := by
  induction fields with
  | nil => exact .inr (List.mem_singleton.1 h ▸ rfl)
  | cons first rest ih =>
    obtain ⟨n, old⟩ := first
    rw [set] at h
    split at h
    · rcases List.mem_cons.1 h with rfl | h
      · exact .inr rfl
      · exact .inl (List.mem_cons_of_mem _ h)
    · rcases List.mem_cons.1 h with rfl | h
      · exact .inl List.mem_cons_self
      · exact (ih h).imp_left (List.mem_cons_of_mem _)

/-- Every value after an update is an old one or a new one. -/
theorem mem_update {field : String × Json} (h : field ∈ fields.update new) :
    field ∈ fields ∨ ∃ f ∈ new, field.2 = f.2 := by
  induction new generalizing fields with
  | nil => exact .inl h
  | cons first rest ih =>
    have hrest : field ∈ (fields.set first.1 first.2).update rest := h
    obtain h | ⟨f, hf, hvalue⟩ := ih hrest
    · exact (mem_set h).imp_right fun hvalue => ⟨first, List.mem_cons_self, hvalue⟩
    · exact .inr ⟨f, List.mem_cons_of_mem _ hf, hvalue⟩

theorem mem_of_get? (h : fields.get? name = some value) : (name, value) ∈ fields := by
  induction fields with
  | nil => cases h
  | cons first rest ih =>
    obtain ⟨n, old⟩ := first
    rw [get?] at h
    split at h
    · rename_i hname
      cases h
      rw [eq_of_beq hname]
      exact List.mem_cons_self
    · exact List.mem_cons_of_mem _ (ih h)

/-- Setting a name that is not there puts it at the end. -/
theorem set_of_not_mem (h : name ∉ fields.names) (value : Json) :
    fields.set name value = fields ++ [(name, value)] := by
  induction fields with
  | nil => rfl
  | cons first rest ih =>
    obtain ⟨n, old⟩ := first
    rw [names, List.map_cons, List.mem_cons, not_or] at h
    rw [set, if_neg (by simpa using Ne.symm h.1), ih h.2, List.cons_append]

/-- An update by fields with other, distinct names puts them at the end. -/
theorem update_of_nodup (h : (Fields.names (fields ++ new)).Nodup) :
    fields.update new = fields ++ new := by
  induction new generalizing fields with
  | nil => exact (List.append_nil _).symm
  | cons first rest ih =>
    obtain ⟨n, value⟩ := first
    have hnot : n ∉ fields.names := by
      rw [names_append, List.nodup_append] at h
      exact fun hmem => h.2.2 n hmem n List.mem_cons_self rfl
    have hstep : fields.update ((n, value) :: rest) = (fields.set n value).update rest := rfl
    rw [hstep, set_of_not_mem hnot, ih] <;> rw [List.append_assoc, List.singleton_append]
    exact h

end Fields

namespace Json

/-! ### Kept values -/

/-- Whether a value comes back from its text: the fields of each object in it have distinct names,
and no integer in it is too long to be written. -/
inductive IsKept : Json → Prop
  | null : IsKept null
  | bool (b : Bool) : IsKept (bool b)
  | int {n : Int} (h : n.natAbs < 10 ^ maxDigits) : IsKept (int n)
  | float (x : Binary64) : IsKept (float x)
  | str (s : String) : IsKept (str s)
  | arr {items : List Json} (h : ∀ item ∈ items, IsKept item) : IsKept (arr items)
  | obj {fields : Fields} (hnames : fields.names.Nodup) (h : ∀ field ∈ fields, IsKept field.2) :
      IsKept (obj fields)

theorem areShort_eq_all (items : List Json) : areShort items = items.all isShort := by
  induction items with
  | nil => rfl
  | cons item rest ih => rw [areShort, ih, List.all_cons]

theorem areShortFields_eq_all (fields : Fields) :
    areShortFields fields = fields.all fun field => field.2.isShort := by
  induction fields with
  | nil => rfl
  | cons field rest ih => rw [areShortFields, ih, List.all_cons]

namespace IsKept

variable {v : Json} {fields new : Fields} {items : List Json}

/-- A kept value is read as it is. -/
theorem asRead_eq (h : v.IsKept) : v.asRead = v := by
  induction h with
  | null | bool | int | float | str => rw [asRead]
  | arr _ ih =>
    rw [asRead, asReadItems_eq_map, List.map_congr_left ih, List.map_id']
  | @obj fields hnames _ ih =>
    have hmap : (fields.map fun f => (f.1, f.2.asRead)) = fields := by
      rw [List.map_congr_left fun f hf => by rw [ih f hf], List.map_id']
    rw [asRead, asReadFields_eq_update, hmap]
    have hupdate : Fields.update [] fields = [] ++ fields := Fields.update_of_nodup hnames
    exact congrArg Json.obj hupdate

/-- The text of a kept value can be written. -/
theorem isShort_eq (h : v.IsKept) : v.isShort = true := by
  induction h with
  | null | bool | float | str => rfl
  | int h => exact decide_eq_true (Nat.toDigits_length 10 _ _ (by decide) h)
  | arr _ ih => rwa [isShort, areShort_eq_all, List.all_eq_true]
  | obj _ _ ih => rwa [isShort, areShortFields_eq_all, List.all_eq_true]

/-- Counts of things that a memory can hold are not too long. -/
theorem ofNat {n : Nat} (h : n ≤ 2 ^ 63) : (Json.int n).IsKept := by
  have hpow : 2 ^ 63 < 10 ^ maxDigits :=
    calc 2 ^ 63 < 10 ^ 63 := by decide
      _ ≤ 10 ^ maxDigits := Nat.pow_le_pow_right (by decide) (by decide)
  exact .int (by rw [Int.natAbs_natCast]; omega)

/-- Lists of texts are kept. -/
theorem strings (names : List String) : (Json.arr (names.map Json.str)).IsKept := by
  refine .arr fun item hitem => ?_
  obtain ⟨s, -, rfl⟩ := List.mem_map.1 hitem
  exact .str s

theorem noFields : (Json.obj []).IsKept := .obj List.nodup_nil fun _ h => nomatch h

/-- One more field, of another name. -/
theorem cons {name : String} (hname : fields.names.contains name = false) (hv : v.IsKept)
    (h : (Json.obj fields).IsKept) : (Json.obj ((name, v) :: fields)).IsKept := by
  cases h with
  | obj hnames h =>
    have hnot : name ∉ fields.names := by simpa only [List.contains_eq_mem, decide_eq_false_iff_not]
      using hname
    exact .obj (List.nodup_cons.2 ⟨hnot, hnames⟩) (List.forall_mem_cons.2 ⟨hv, h⟩)

theorem get? (h : (Json.obj fields).IsKept) {name : String}
    (hget : Fields.get? fields name = some v) :
    v.IsKept := by
  cases h with
  | obj _ h => exact h _ (Fields.mem_of_get? hget)

theorem of_mem (h : (Json.arr items).IsKept) : ∀ item ∈ items, item.IsKept := by
  cases h with
  | arr h => exact h

/-- An update by kept values. -/
theorem update (h : (Json.obj fields).IsKept) (hnew : ∀ field ∈ new, field.2.IsKept) :
    (Json.obj (fields.update new)).IsKept := by
  cases h with
  | obj hnames h =>
    refine .obj (Fields.nodup_names_update hnames new) fun field hfield => ?_
    obtain hfield | ⟨f, hf, hvalue⟩ := Fields.mem_update hfield
    · exact h field hfield
    · rw [hvalue]
      exact hnew f hf

/-- Fields put together in whatever order. -/
theorem ofFields (h : ∀ field ∈ new, field.2.IsKept) :
    (Json.obj (Fields.update [] new)).IsKept :=
  noFields.update h

end IsKept

/-! ### What is read is kept -/

theorem natOfDigits_lt {cs : List Char} (h : ∀ c ∈ cs, c.isDigit = true) :
    Decimal.natOfDigits cs < 10 ^ cs.length := by
  suffices hbound : ∀ init, Nat.ofDigitChars 10 cs init < (init + 1) * 10 ^ cs.length by
    simpa [Decimal.natOfDigits_eq] using hbound 0
  induction cs with
  | nil => exact fun init => by simp
  | cons c cs ih =>
    intro init
    have hc := h c List.mem_cons_self
    have hdigit : c.toNat - '0'.toNat ≤ 9 := by
      have hle := (Char.isDigit_iff_toNat.1 hc).2
      exact Nat.sub_le_iff_le_add.2 hle
    calc Nat.ofDigitChars 10 (c :: cs) init
        = Nat.ofDigitChars 10 cs (10 * init + (c.toNat - '0'.toNat)) := Nat.ofDigitChars_cons
      _ < (10 * init + (c.toNat - '0'.toNat) + 1) * 10 ^ cs.length :=
          ih (fun d hd => h d (List.mem_cons_of_mem _ hd)) _
      _ ≤ (init + 1) * 10 * 10 ^ cs.length := Nat.mul_le_mul_right _ (by omega)
      _ = (init + 1) * 10 ^ (c :: cs).length := by rw [List.length_cons, Nat.pow_succ]; ring

theorem SpellsScalar.isKept {cs : List Char} {v : Json} (h : SpellsScalar cs v) : v.IsKept := by
  cases h with
  | word h =>
    simp only [words, List.mem_cons, Prod.mk.injEq, List.not_mem_nil, or_false] at h
    obtain ⟨-, rfl⟩ | ⟨-, rfl⟩ | ⟨-, rfl⟩ | ⟨-, rfl⟩ | ⟨-, rfl⟩ | ⟨-, rfl⟩ := h
    all_goals constructor
  | @numeral t _ negative _ ht _ hvalue =>
    rw [numeralValue] at hvalue
    split at hvalue
    · split at hvalue
      · cases hvalue
      · rename_i hshort
        cases hvalue
        refine .int ?_
        have habs : (if negative = true then -(Decimal.natOfDigits t.whole : Int)
            else (Decimal.natOfDigits t.whole : Int)).natAbs = Decimal.natOfDigits t.whole := by
          split <;> simp
        rw [habs]
        exact (natOfDigits_lt ht.whole.isDigit).trans_le
          (Nat.pow_le_pow_right (by decide) (Nat.not_lt.1 hshort))
    · cases hvalue
      exact .float _

/-- Whether the values in a part of a text are kept. -/
def IsKeptPart : Part → Prop
  | .value v | .field _ v => v.IsKept
  | .items items => ∀ item ∈ items, item.IsKept
  | .fields fields => ∀ field ∈ fields, field.2.IsKept

theorem Spells.isKeptPart {cs : List Char} {part : Part} (h : Spells cs part) :
    IsKeptPart part := by
  induction h with
  | scalar h => exact h.isKept
  | string _ => exact .str _
  | array _ ih => exact .arr ih
  | object _ ih => exact .ofFields ih
  | noItems | noFields => exact fun _ h => nomatch h
  | lastItem _ _ _ ih => exact List.forall_mem_singleton.2 ih
  | nextItem _ _ _ _ ih ihmore => exact List.forall_mem_cons.2 ⟨ih, ihmore⟩
  | named _ _ _ _ ih => exact ih
  | lastField _ _ _ ih => exact List.forall_mem_singleton.2 ih
  | nextField _ _ _ _ ih ihmore => exact List.forall_mem_cons.2 ⟨ih, ihmore⟩

/-- What is read from a text is kept. -/
theorem isKept_of_read {text : String} {v : Json} (h : read text = .ok v) : v.IsKept := by
  obtain ⟨_, _, _, -, -, -, hspells⟩ := read_eq_ok_iff.1 h
  exact hspells.isKeptPart

end Json

end RepoGraph
