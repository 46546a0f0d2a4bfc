import RepoGraph.Outline.Statement

/-!
# The tree of an indented source

The rules of the grammar are put together: every goal is answered by its rule, and a rule's own
goals with one unit less of a bound.  The bound grows with the text, so no text that is a source
exceeds it.
-/

namespace RepoGraph

namespace Outline

open Syntax

/-- The rule of a goal. -/
def rule (g : Grammar) : Goal → Scan Node
  | .statement indent => statement g indent
  | .expression stopsAtIn => expression g stopsAtIn
  | .operand => operand g

/-- Answers goals within a bound on the depth of the rules. -/
def parse : Nat → Goal → Scan Node
  | 0, _ => Scan.fail
  | n + 1, goal => rule ⟨parse n⟩ goal

/-- All lines of a source. -/
def program (bound : Nat) : Scan Node := do
  let found ← blockLines ⟨parse bound⟩ 0
  Scan.node .other 0 found

/-- The tree of a source's text. -/
def tree (chars : Array Char) : Node :=
  match program (16 * (chars.size + 4)) (Cursor.start chars) with
  | some (root, c) => Comment.insertAll c.comments.reverse root
  | none => Node.make .other ⟨0, chars.size⟩ []

end Outline

end RepoGraph
