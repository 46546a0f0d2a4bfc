/-!
# Texts in order

Texts are ordered by their code points.  `Text.inOrder` sorts a list, `Text.distinct` keeps each
text once besides.

Main statements: `Text.perm_inOrder`, `Text.mem_distinct`.
-/

namespace RepoGraph

namespace Text

/-- The texts of a list in order. -/
def inOrder (xs : List String) : List String := xs.mergeSort fun a b => !(b < a)

/-- The texts of a list in order, each once. -/
def distinct (xs : List String) : List String := (inOrder xs).eraseDups

/-- Sorting keeps every text as often as it is there. -/
theorem perm_inOrder (xs : List String) : (inOrder xs).Perm xs := List.mergeSort_perm ..

/-- The distinct texts are those of the list. -/
theorem mem_distinct {s : String} {xs : List String} : s ∈ distinct xs ↔ s ∈ xs := by
  simp [distinct, inOrder, List.mem_eraseDups]

end Text

end RepoGraph
