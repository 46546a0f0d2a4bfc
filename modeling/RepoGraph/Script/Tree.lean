import RepoGraph.Script.Statement

/-!
# The tree of a script

The rules of the grammar are put together: every goal is answered by its rule, and a rule's own
goals with one unit less of a bound.  The bound grows with the text, so no text that is a script
exceeds it.
-/

namespace RepoGraph

namespace Script

open Syntax

/-- A dialect of scripts. -/
structure Dialect where
  /-- Types may be written. -/
  typed : Bool
  /-- Markup may be written. -/
  markup : Bool
deriving DecidableEq, Repr

/-- The rule of a goal. -/
def rule (g : Grammar) : Goal → Scan Node
  | .statement => statement g
  | .block => block g
  | .sequence mode => sequence g mode
  | .expression mode => expression g mode
  | .unary => unary g
  | .leftHand => leftHand g
  | .type => do
    let start ← Scan.position
    Typing.type g
    Scan.node .other start []
  | .element => Markup.element g

/-- Answers goals within a bound on the depth of the rules. -/
def parse (d : Dialect) : Nat → Goal → Scan Node
  | 0, _ => Scan.fail
  | n + 1, goal => rule ⟨d.typed, d.markup, parse d n⟩ goal

/-- The first line of a script that names the program that runs it. -/
def firstLine : Scan Unit := do
  if ← Scan.startsWith "#!" then
    Scan.advance (← Scan.runLength fun c => !isLineEnd c)

/-- A statement, or one character where no statement can be read. -/
def statementOrSkip (d : Dialect) (bound : Nat) : Scan (List Node) := do
  Scan.check (!(← Scan.atEnd))
  match ← Scan.maybe (parse d bound .statement) with
  | some n => return [n]
  | none =>
    pass (max 1 (← wordLengthHere))
    return []

/-- All statements of a script. -/
def program (d : Dialect) (bound : Nat) : Scan Node := do
  firstLine
  skip
  let body ← Scan.many (statementOrSkip d bound)
  Scan.node .other 0 body.flatten

/-- The tree of a script's text. -/
def tree (d : Dialect) (chars : Array Char) : Node :=
  match program d (16 * (chars.size + 4)) (Cursor.start chars) with
  | some (root, c) => Comment.insertAll c.comments.reverse root
  | none => Node.make .other ⟨0, chars.size⟩ []

end Script

end RepoGraph
