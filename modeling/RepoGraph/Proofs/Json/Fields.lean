import Mathlib.Data.List.Nodup
import RepoGraph.Json.Basic

/-!
# Fields by name

What is found under a name after an update, in fields put together, and where a field may be left
out.

Main statements: `Fields.get?_update`, `Fields.get?_append`, `Fields.get?_optional`.
-/

namespace RepoGraph

namespace Fields

theorem get?_eq_none_iff {fields : Fields} {name : String} :
    fields.get? name = none ↔ name ∉ fields.names := by
  induction fields with
  | nil => simp [get?, names]
  | cons field rest ih =>
    obtain ⟨n, value⟩ := field
    by_cases h : n = name
    · simp [get?, names, h]
    · have h' : ¬ name = n := fun e => h e.symm
      simp only [get?, beq_iff_eq, h, if_false, ih, names, List.map_cons, List.mem_cons, h',
        false_or]

theorem mem_names_of_get? {fields : Fields} {name : String} {value : Json}
    (h : fields.get? name = some value) : name ∈ fields.names := by
  by_contra hno
  rw [get?_eq_none_iff.2 hno] at h
  cases h

/-- After an update with distinct names, each of them has its new value. -/
theorem get?_update {new : Fields} (hnew : new.names.Nodup) (fields : Fields) (name : String) :
    (fields.update new).get? name = (new.get? name).or (fields.get? name) := by
  induction new generalizing fields with
  | nil => rfl
  | cons field rest ih =>
    obtain ⟨n, value⟩ := field
    have hrest : (names rest).Nodup := (List.nodup_cons.1 hnew).2
    have hn : n ∉ names rest := (List.nodup_cons.1 hnew).1
    have hstep : fields.update ((n, value) :: rest) = (fields.set n value).update rest := rfl
    rw [hstep, ih hrest]
    by_cases h : n = name
    · subst h
      rw [get?_eq_none_iff.2 hn, Fields.get?_set_self]
      simp [get?]
    · rw [Fields.get?_set_of_ne _ h]
      simp [get?, h]

theorem get?_append (a b : Fields) (name : String) :
    Fields.get? (a ++ b) name = (a.get? name).or (b.get? name) := by
  induction a with
  | nil => rfl
  | cons field rest ih =>
    obtain ⟨n, value⟩ := field
    by_cases h : n = name <;> simp [get?, h, ih]

theorem get?_optional {α : Type} (o : Option α) (name key : String) (value : α → Json) :
    Fields.get? (o.toList.map fun a => (name, value a)) key =
      if name = key then o.map value else none := by
  cases o with
  | none => simp [get?]
  | some a => by_cases h : name = key <;> simp [get?, h]

/-- A field that may be left out has at most its name. -/
theorem names_optional {α : Type} (o : Option α) (name : String) (value : α → Json) :
    (Fields.names (o.toList.map fun a => (name, value a))).Sublist [name] := by
  cases o with
  | none => exact List.nil_sublist _
  | some a => exact List.Sublist.refl _

theorem names_append (a b : Fields) : Fields.names (a ++ b) = a.names ++ b.names :=
  List.map_append

end Fields

end RepoGraph
