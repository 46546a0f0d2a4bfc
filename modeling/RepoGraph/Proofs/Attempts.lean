import Mathlib.Data.Nat.Find
import RepoGraph.Proofs.Build

/-!
# Attempts

A step that fails may be tried again, after a warning and a pause.  `Attempts.start` is the world in
which an attempt begins where all those before it have failed; the attempts are numbered from 0.
Whatever loop makes the attempts, `Attempts.run_of_failsBefore` leads it to the first one that does
not fail, and `Attempts.history_finish` says in which order the attempts and the pauses have come.

Main statements: `Attempts.run_of_failsBefore`, `Attempts.exists_last`, `Attempts.history_finish`.
-/

namespace RepoGraph

/-! ### Histories -/

/-- The events of a kind, in order. -/
def World.history (which : Event → Bool) (w : World) : List Event := (w.events.filter which).reverse

theorem World.history_append (which : Event → Bool) (w : World) (events : List Event) :
    { w with events := events ++ w.events }.history which =
      w.history which ++ (events.filter which).reverse := by
  rw [history, history, List.filter_append, List.reverse_append]

/-! ### Runs -/

namespace Build

variable {α β : Type} {outside : Outside} {w after : World} {step : Build α}

theorem run_bind_of_ok {a : α} (h : step.run outside w = (.ok a, after)) (next : α → Build β) :
    (step >>= next).run outside w = (next a).run outside after := by
  rw [run_bind, h]

theorem run_bind_of_error {f : Failure} (h : step.run outside w = (.error f, after))
    (next : α → Build β) : (step >>= next).run outside w = (.error f, after) := by
  rw [run_bind, h]

theorem run_outcome (step : Build α) (outside : Outside) (w : World) :
    (outcome step).run outside w = (.ok (step.run outside w).1, (step.run outside w).2) := rfl

theorem run_take (answer : Except Failure α) (outside : Outside) (w : World) :
    (take id answer).run outside w = (answer, w) := by
  cases answer <;> rfl

theorem run_takeFrom {ε : Type} (reason : ε → Failure) (answer : Except ε α) (outside : Outside)
    (w : World) : (take reason answer).run outside w = (answer.mapError reason, w) := by
  cases answer <;> rfl

theorem run_attempt (event : Event) (outside : Outside) (w : World) :
    (attempt event).run outside w =
      (match outside.refuses w.events event with
        | none => .ok ()
        | some f => .error f, { w with events := event :: w.events }) := by
  show (match outside.refuses w.events event with
    | none => pure ()
    | some f => throw f : Build Unit) outside { w with events := event :: w.events } = _
  cases outside.refuses w.events event <;> rfl

end Build

/-! ### Failing again and again -/

/-- A step that is tried, and what is noted after an attempt that failed, latest first. -/
structure Attempts (α : Type) where
  step : Build α
  noted : ℕ → Failure → List Event

namespace Attempts

variable {α β : Type} (a : Attempts α) (outside : Outside) (w : World)

/-- The world in which an attempt begins, if all those before it fail. -/
def start : ℕ → World
  | 0 => w
  | i + 1 =>
    match a.step.run outside (start i) with
    | (.ok _, after) => after
    | (.error f, after) => { after with events := a.noted i f ++ after.events }

/-- The answer of an attempt. -/
def answer (i : ℕ) : Except Failure α := (a.step.run outside (a.start outside w i)).1

/-- The world that an attempt leaves. -/
def finish (i : ℕ) : World := (a.step.run outside (a.start outside w i)).2

/-- Whether all attempts before one fail. -/
def FailsBefore (k : ℕ) : Prop := ∀ i < k, ∃ f, a.answer outside w i = .error f

variable {a outside w} {i k : ℕ} {f : Failure}

theorem run_start (a : Attempts α) (outside : Outside) (w : World) (i : ℕ) :
    a.step.run outside (a.start outside w i) = (a.answer outside w i, a.finish outside w i) := rfl

theorem start_succ (h : a.answer outside w i = .error f) :
    a.start outside w (i + 1) =
      { a.finish outside w i with events := a.noted i f ++ (a.finish outside w i).events } := by
  rw [start, run_start, h]

theorem FailsBefore.of_le (h : a.FailsBefore outside w k) (hi : i ≤ k) :
    a.FailsBefore outside w i := fun j hj => h j (Nat.lt_of_lt_of_le hj hi)

theorem FailsBefore.succ (h : a.FailsBefore outside w k) (hk : a.answer outside w k = .error f) :
    a.FailsBefore outside w (k + 1) := by
  intro i hi
  rcases Nat.lt_succ_iff_lt_or_eq.1 hi with hlt | rfl
  · exact h i hlt
  · exact ⟨f, hk⟩

/-- Attempts that all fail lead a loop to the next one, if the loop goes on after each of them. -/
theorem run_of_failsBefore (loop : ℕ → ℕ → Build β) (hfails : a.FailsBefore outside w k)
    (hnext : ∀ i < k, ∀ left w f after, a.step.run outside w = (.error f, after) →
      (loop i (left + 2)).run outside w =
        (loop (i + 1) (left + 1)).run outside { after with events := a.noted i f ++ after.events })
    (left : ℕ) :
    (loop 0 (k + left + 1)).run outside w =
      (loop k (left + 1)).run outside (a.start outside w k) := by
  induction k generalizing left with
  | zero => rw [Nat.zero_add]; rfl
  | succ k ih =>
    -- the attempts before lead to this one, and its failure leads to the next one
    obtain ⟨f, hf⟩ := hfails k (Nat.lt_succ_self k)
    have hrun : a.step.run outside (a.start outside w k) = (.error f, a.finish outside w k) := by
      rw [run_start, hf]
    have hlength : k + 1 + left + 1 = k + (left + 1) + 1 := by omega
    rw [hlength, ih (hfails.of_le (Nat.le_succ k)) (fun i hi => hnext i (Nat.lt_succ_of_lt hi)),
      hnext k k.lt_succ_self left _ f _ hrun, ← start_succ hf]

/-- Of attempts that are made until one succeeds or something else stops them, at least one, there
is a last one. -/
theorem exists_last (a : Attempts α) (outside : Outside) (w : World) (stops : ℕ → Prop) {n : ℕ}
    (hn : 0 < n) : ∃ k < n, a.FailsBefore outside w k ∧ (∀ i < k, ¬ stops i) ∧
      ((∃ value, a.answer outside w k = .ok value) ∨ stops k ∨ k + 1 = n) := by
  classical
  have hends : ∃ k, (∃ value, a.answer outside w k = .ok value) ∨ stops k ∨ n ≤ k + 1 :=
    ⟨n, .inr (.inr n.le_succ)⟩
  have hbelow : Nat.find hends ≤ n - 1 := Nat.find_min' hends (.inr (.inr (by omega)))
  refine ⟨Nat.find hends, by omega, fun i hi => ?_,
    fun i hi hstops => Nat.find_min hends hi (.inr (.inl hstops)), ?_⟩
  · cases hanswer : a.answer outside w i with
    | ok value => exact absurd (.inl ⟨value, hanswer⟩) (Nat.find_min hends hi)
    | error f => exact ⟨f, rfl⟩
  · exact (Nat.find_spec hends).imp_right (Or.imp_right fun hlast => by omega)

/-- Each attempt that failed is followed by what comes in between, and the last one by nothing. -/
theorem history_finish {which : Event → Bool} {asked : List Event} (between : ℕ → List Event)
    (hasked : ∀ w, (a.step.run outside w).2.history which = w.history which ++ asked)
    (hbetween : ∀ i < k, ∀ f, ((a.noted i f).filter which).reverse = between i)
    (hfails : a.FailsBefore outside w k) :
    (a.finish outside w k).history which =
      w.history which ++ (List.range k).flatMap (fun i => asked ++ between i) ++ asked := by
  rw [finish, hasked, List.append_cancel_right_eq]
  induction k with
  | zero => rw [start, List.range_zero, List.flatMap_nil, List.append_nil]
  | succ k ih =>
    obtain ⟨f, hf⟩ := hfails k k.lt_succ_self
    rw [start_succ hf, World.history_append, hbetween k k.lt_succ_self, finish, hasked,
      ih (fun i hi => hbetween i (Nat.lt_succ_of_lt hi)) (hfails.of_le k.le_succ),
      List.range_succ, List.flatMap_append, List.flatMap_singleton]
    simp only [List.append_assoc]

end Attempts

end RepoGraph
