/-!
# Batches and progress

Work on many items goes in batches of a fixed size, and long work tells its progress at about ten
evenly spaced points.

Main statements: `Batch.flatten_split`, `Batch.length_le_of_mem_split`.
-/

namespace RepoGraph

namespace Batch

/-- The consecutive batches of a list, each of the given size except that the last may be smaller.
A size of zero counts as one. -/
def split {α : Type} (size : Nat) : List α → List (List α)
  | [] => []
  | item :: rest => (item :: rest.take (size - 1)) :: split size (rest.drop (size - 1))
termination_by items => items.length
decreasing_by simp only [List.length_drop, List.length_cons]; omega

/-- The batches hold the items, in order. -/
theorem flatten_split {α : Type} (size : Nat) (items : List α) :
    (split size items).flatten = items := by
  fun_induction split size items with
  | case1 => rfl
  | case2 item rest ih => simp [ih]

/-- A batch is not larger than the size. -/
theorem length_le_of_mem_split {α : Type} {size : Nat} (h : 0 < size) {items batch : List α}
    (hm : batch ∈ split size items) : batch.length ≤ size := by
  fun_induction split size items with
  | case1 => simp at hm
  | case2 item rest ih =>
    rcases List.mem_cons.1 hm with rfl | hm
    · simp only [List.length_cons, List.length_take]; omega
    · exact ih hm

/-- The batches of a list, each with the number of items up to its end. -/
def counted {α : Type} (size : Nat) (items : List α) : List (List α × Nat) :=
  go 0 (split size items)
where
  /-- The batches from some number of items on. -/
  go (before : Nat) : List (List α) → List (List α × Nat)
    | [] => []
    | batch :: rest => (batch, before + batch.length) :: go (before + batch.length) rest

end Batch

namespace Progress

/-- After how many items progress is told: after each of fewer than ten, else about ten times. -/
def interval (total : Nat) : Nat := if total < 10 then 1 else (total + 9) / 10

/-- Whether progress is told after some of the items. -/
def isTold (step total done : Nat) : Bool := done % step == 0 || done == total

end Progress

end RepoGraph
