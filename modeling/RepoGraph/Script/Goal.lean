import RepoGraph.Script.Token

/-!
# The grammar's goals

The rules of the grammar refer to each other in circles.  A rule is a function of a `Grammar`, which
answers the goals that lie on such a circle; the circle is closed in `Script.Tree`, where every goal
costs one unit of a bound that grows with the text.
-/

namespace RepoGraph

namespace Script

open Syntax

/-- How an expression is to be read. -/
structure Mode where
  /-- The operator `in` ends the expression. -/
  stopsAtIn : Bool
  /-- An arrow function names no type of its result. -/
  untypedArrow : Bool

/-- The usual way to read an expression. -/
def Mode.plain : Mode := ⟨false, false⟩

/-- What can be asked for. -/
inductive Goal where
  /-- A statement. -/
  | statement
  /-- Statements between braces. -/
  | block
  /-- Expressions between commas. -/
  | sequence (mode : Mode)
  /-- An expression without a comma. -/
  | expression (mode : Mode)
  /-- An operand with the operators before and after it. -/
  | unary
  /-- An operand with its calls and members. -/
  | leftHand
  /-- A type. -/
  | type
  /-- An element of markup; nothing is skipped after it. -/
  | element

/-- A dialect, and the answers to the goals. -/
structure Grammar where
  /-- Types may be written. -/
  typed : Bool
  /-- Markup may be written. -/
  markup : Bool
  /-- Reads what is asked for. -/
  parse : Goal → Scan Node

namespace Grammar

/-- An expression without a comma. -/
def expression (g : Grammar) : Scan Node := g.parse (.expression .plain)

/-- Expressions between commas. -/
def sequence (g : Grammar) : Scan Node := g.parse (.sequence .plain)

/-- Goes on only where types may be written. -/
def whenTyped (g : Grammar) : Scan Unit := Scan.check g.typed

end Grammar

end Script

end RepoGraph
