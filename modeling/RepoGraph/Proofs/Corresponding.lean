import Mathlib.Data.List.Forall2
import Mathlib.Data.Option.Basic

/-!
# What corresponds

Two lists correspond if they are of one length and their members do one by one, and two optional
values if both are missing or both are there and correspond.  What is done with one and with the
other in the same way gives what corresponds again, or the same.

Main statements: `rel_mem`, `rel_filter`, `rel_find?`, `map_eq_of_rel`, `cases_of_rel`.
-/

namespace RepoGraph

variable {α β γ : Type} {R : α → β → Prop} {xs : List α} {ys : List β}

/-- What corresponds is in the lists. -/
theorem rel_mem (h : List.Forall₂ R xs ys) :
    List.Forall₂ (fun a b => R a b ∧ a ∈ xs ∧ b ∈ ys) xs ys := by
  rw [List.forall₂_iff_get] at h ⊢
  exact ⟨h.1, fun i hi hi' => ⟨h.2 i hi hi', List.get_mem .., List.get_mem ..⟩⟩

/-- What is in the second list corresponds to something in the first one. -/
theorem exists_mem_of_rel (h : List.Forall₂ R xs ys) {b : β} (hb : b ∈ ys) : ∃ a ∈ xs, R a b := by
  induction h with
  | nil => cases hb
  | @cons a b' xs ys hab _ ih =>
    rcases List.mem_cons.1 hb with rfl | hb
    · exact ⟨a, List.mem_cons_self, hab⟩
    · obtain ⟨a', ha', hR⟩ := ih hb
      exact ⟨a', List.mem_cons_of_mem _ ha', hR⟩

theorem rel_find? {p : α → Bool} {q : β → Bool} (h : List.Forall₂ R xs ys)
    (hpq : ∀ a b, R a b → p a = q b) : Option.Rel R (xs.find? p) (ys.find? q) := by
  induction h with
  | nil => exact .none
  | @cons a b xs ys hab _ ih =>
    rw [List.find?_cons, List.find?_cons, ← hpq a b hab]
    cases p a with
    | true => exact .some hab
    | false => exact ih

theorem rel_head? (h : List.Forall₂ R xs ys) : Option.Rel R xs.head? ys.head? := by
  cases h with
  | nil => exact .none
  | cons hab _ => exact .some hab

theorem rel_filter {p : α → Bool} {q : β → Bool} (h : List.Forall₂ R xs ys)
    (hpq : ∀ a b, R a b → p a = q b) : List.Forall₂ R (xs.filter p) (ys.filter q) :=
  List.rel_filter (fun {a b} hab => iff_of_eq (congrArg (· = true) (hpq a b hab))) h

/-- It is enough that the conditions agree on the lists. -/
theorem rel_filter_of_mem {p : α → Bool} {q : β → Bool} (h : List.Forall₂ R xs ys)
    (hpq : ∀ a ∈ xs, ∀ b ∈ ys, R a b → p a = q b) : List.Forall₂ R (xs.filter p) (ys.filter q) :=
  (rel_filter (rel_mem h) fun a b hab => hpq a hab.2.1 b hab.2.2 hab.1).imp fun _ _ hab => hab.1

theorem any_eq_of_rel {p : α → Bool} {q : β → Bool} (h : List.Forall₂ R xs ys)
    (hpq : ∀ a b, R a b → p a = q b) : xs.any p = ys.any q := by
  induction h with
  | nil => rfl
  | cons hab _ ih => rw [List.any_cons, List.any_cons, hpq _ _ hab, ih]

theorem map_eq_of_rel {f : α → γ} {g : β → γ} (h : List.Forall₂ R xs ys)
    (hfg : ∀ a b, R a b → f a = g b) : xs.map f = ys.map g := by
  induction h with
  | nil => rfl
  | cons hab _ ih => rw [List.map_cons, List.map_cons, hfg _ _ hab, ih]

/-- It is enough that the functions agree on the lists. -/
theorem map_eq_of_rel_mem {f : α → γ} {g : β → γ} (h : List.Forall₂ R xs ys)
    (hfg : ∀ a ∈ xs, ∀ b ∈ ys, R a b → g b = f a) : ys.map g = xs.map f :=
  (map_eq_of_rel (rel_mem h) fun a b hab => (hfg a hab.2.1 b hab.2.2 hab.1).symm).symm

theorem flatMap_eq_of_rel {f : α → List γ} {g : β → List γ} (h : List.Forall₂ R xs ys)
    (hfg : ∀ a b, R a b → f a = g b) : xs.flatMap f = ys.flatMap g := by
  rw [List.flatMap, List.flatMap, map_eq_of_rel h hfg]

theorem filterMap_eq_of_rel {f : α → Option γ} {g : β → Option γ} (h : List.Forall₂ R xs ys)
    (hfg : ∀ a b, R a b → f a = g b) : xs.filterMap f = ys.filterMap g := by
  induction h with
  | nil => rfl
  | cons hab _ ih => rw [List.filterMap_cons, List.filterMap_cons, hfg _ _ hab, ih]

/-- Optional values that correspond are both missing or both there. -/
theorem cases_of_rel {o : Option α} {o' : Option β} (h : Option.Rel R o o') :
    (o = none ∧ o' = none) ∨ ∃ a b, o = some a ∧ o' = some b ∧ R a b := by
  cases h with
  | none => exact .inl ⟨rfl, rfl⟩
  | some hab => exact .inr ⟨_, _, rfl, rfl, hab⟩

theorem rel_bind {δ : Type} {S : γ → δ → Prop} {o : Option α} {o' : Option β} {f : α → Option γ}
    {g : β → Option δ} (h : Option.Rel R o o') (hfg : ∀ a b, R a b → Option.Rel S (f a) (g b)) :
    Option.Rel S (o.bind f) (o'.bind g) := by
  cases h with
  | none => exact .none
  | some hab => exact hfg _ _ hab

theorem map_eq_of_option_rel {o : Option α} {o' : Option β} {f : α → γ} {g : β → γ}
    (h : Option.Rel R o o') (hfg : ∀ a b, R a b → f a = g b) : o.map f = o'.map g := by
  cases h with
  | none => rfl
  | some hab => exact congrArg some (hfg _ _ hab)

theorem bind_eq_of_rel {o : Option α} {o' : Option β} {f : α → Option γ} {g : β → Option γ}
    (h : Option.Rel R o o') (hfg : ∀ a b, R a b → f a = g b) : o.bind f = o'.bind g := by
  cases h with
  | none => rfl
  | some hab => exact hfg _ _ hab

theorem rel_option_filter {o : Option α} {o' : Option β} {p : α → Bool} {q : β → Bool}
    (h : Option.Rel R o o') (hpq : ∀ a b, R a b → p a = q b) :
    Option.Rel (fun a b => R a b ∧ p a = true) (o.filter p) (o'.filter q) := by
  cases h with
  | none => exact .none
  | @some a b hab =>
    rw [Option.filter_some, Option.filter_some, ← hpq a b hab]
    split
    · rename_i hp
      exact .some ⟨hab, hp⟩
    · exact .none

theorem rel_flatMap {δ : Type} {S : γ → δ → Prop} {f : α → List γ} {g : β → List δ}
    (h : List.Forall₂ R xs ys) (hfg : ∀ a b, R a b → List.Forall₂ S (f a) (g b)) :
    List.Forall₂ S (xs.flatMap f) (ys.flatMap g) := by
  induction h with
  | nil => exact .nil
  | cons hab _ ih =>
    rw [List.flatMap_cons, List.flatMap_cons]
    exact List.rel_append (hfg _ _ hab) ih

/-- What gives nothing may be left out. -/
theorem flatMap_filter {p : α → Bool} {f : α → List γ} (h : ∀ a ∈ xs, p a = false → f a = []) :
    (xs.filter p).flatMap f = xs.flatMap f := by
  induction xs with
  | nil => rfl
  | cons a rest ih =>
    have hrest := ih fun b hb => h b (List.mem_cons_of_mem _ hb)
    by_cases hp : p a = true
    · rw [List.filter_cons_of_pos hp, List.flatMap_cons, List.flatMap_cons, hrest]
    · rw [List.filter_cons_of_neg hp, List.flatMap_cons, hrest,
        h a List.mem_cons_self (Bool.eq_false_iff.2 hp), List.nil_append]

end RepoGraph
