import RepoGraph.Outline.Token

/-!
# Expressions in indented sources

The rules of the grammar refer to each other in circles.  A rule is a function of a `Grammar`, which
answers the goals that lie on such a circle; the circle is closed in `Outline.Tree`, where every
goal costs one unit of a bound that grows with the text.

Only names, string literals, calls and members keep their own kinds; operators leave their operands
side by side, so that binding strengths do not matter.
-/

namespace RepoGraph

namespace Outline

open Syntax

/-! ### Goals -/

/-- What can be asked for. -/
inductive Goal where
  /-- A statement of a block with the given indentation. -/
  | statement (indent : Nat)
  /-- An expression without a comma; the word `in` may end it. -/
  | expression (stopsAtIn : Bool)
  /-- An operand with its calls and members. -/
  | operand

/-- The answers to the goals. -/
structure Grammar where
  /-- Reads what is asked for. -/
  parse : Goal → Scan Node

namespace Grammar

/-- An expression without a comma. -/
def expression (g : Grammar) : Scan Node := g.parse (.expression false)

end Grammar

/-! ### Between brackets -/

/-- A part of a comprehension: a loop or a condition. -/
def comprehensionPart (g : Grammar) : Scan Node := do
  let start ← Scan.position
  let loop : Scan (List Node) := do
    let _ ← Scan.maybe (word "async")
    word "for"
    let targets ← Scan.separated (do
      let _ ← Scan.maybe (mark "*")
      g.parse (.expression true)) (mark ",")
    word "in"
    let first ← g.expression
    let rest ← Scan.many (do
      mark ","
      let e ← g.expression
      Scan.check ((← seesWord "for") || (← seesWord "if") || (← seesMark "]") || (← seesMark ","))
      return e)
    return targets ++ first :: rest
  let test : Scan (List Node) := do
    word "if"
    return [← g.expression]
  let parts ← Scan.firstOf [loop, test]
  Scan.node .other start parts

/-- Colons, at least one. -/
def colons : Scan Unit := do
  let found ← Scan.many (mark ":")
  Scan.check !found.isEmpty

/-- A value that is given a name, a key with a value, or a value and another name for it. -/
def itemTail (g : Grammar) : Scan Node := do
  Scan.firstOf [mark ":=", (do
    Scan.check (!(← Scan.startsWith "=="))
    mark "="), colons, word "as"]
  g.expression

/-- One item between brackets, in parts: the value, then the parts of a comprehension. -/
def item (g : Grammar) : Scan (List Node) := do
  let start ← Scan.position
  let starred ← Scan.maybe (anyMark ["**", "*"])
  let yields ← Scan.maybe (do
    word "yield"
    let _ ← Scan.maybe (word "from"))
  let gap ← Scan.maybe colons
  match ← Scan.maybe g.expression with
  | none =>
    Scan.check (yields.isSome || gap.isSome)
    return [← Scan.node .other start []]
  | some e =>
    let tail ← Scan.many (itemTail g)
    let _ ← Scan.maybe colons
    let isPlain := starred.isNone && yields.isNone && gap.isNone && tail.isEmpty
    let value ← if isPlain then pure e else Scan.node .other start (e :: tail)
    let parts ← Scan.many (comprehensionPart g)
    return value :: parts

/-- Items between commas. -/
def items (g : Grammar) : Scan (List Node) := do
  let found ← Scan.separated (item g) (mark ",")
  return found.flatten

/-- Items between brackets. -/
def bracketed (g : Grammar) (kind : Kind) (left right : String) : Scan Node := do
  let start ← Scan.position
  opening left
  let found ← items g
  closing right
  Scan.node kind start found

/-! ### String literals -/

/-- The letters that may mark a literal. -/
def isLiteralMark (c : Char) : Bool :=
  ['r', 'R', 'b', 'B', 'u', 'U', 'f', 'F', 't', 'T'].contains c

/-- The length of a stretch of a literal without substitutions: up to its quote and, in an
interpolated literal, up to a brace that is not doubled. -/
def literalRun (chars quote : Array Char) (interpolated : Bool) : Nat → Nat → Nat
  | 0, _ => 0
  | n + 1, k =>
    let rest := literalRun chars quote interpolated n
    match chars[k]? with
    | none => 0
    | some c =>
      if chars.extract k (k + quote.size) == quote then 0
      else if c == '\\' then
        match chars[k + 1]? with
        | none => 1
        | some d =>
          if interpolated && (d == '\x7b' || d == '\x7d') then rest (k + 1) + 1
          else if interpolated && d == 'N' && chars[k + 2]? == some '\x7b' then
            let name := Scan.countWhile (· != '\x7d') chars chars.size k + 1
            rest (k + name) + name
          else rest (k + 2) + 2
      else if interpolated && c == '\x7b' then
        if chars[k + 1]? == some '\x7b' then rest (k + 2) + 2 else 0
      else rest (k + 1) + 1

/-- A stretch of characters in the form of a substituted value. -/
def formatRun : Scan (List Node) := do
  let n ← Scan.runLength fun c => c != '\x7b' && c != '\x7d'
  Scan.check (0 < n)
  Scan.advance n
  return []

/-- The value substituted into a literal, up to its closing brace. -/
def substitutedValue (g : Grammar) : Scan (List Node) := do
  Scan.check (← Scan.startsWith "\x7b")
  opening "\x7b"
  let values ← Scan.separated (do
    let _ ← Scan.maybe (mark "*")
    let _ ← Scan.maybe (do
      word "yield"
      let _ ← Scan.maybe (word "from"))
    g.expression) (mark ",")
  let _ ← Scan.maybe (do
    Scan.check (!(← Scan.startsWith "=="))
    mark "=")
  let _ ← Scan.maybe (do
    mark "!"
    pass (← wordLengthHere))
  return values

/-- The closing brace of a substitution; nothing is skipped after it. -/
def closeSubstitution : Scan Unit := do
  Scan.check (← Scan.startsWith "\x7d")
  setDepth (· - 1)
  Scan.advance 1

/-- A substitution inside the form of another one. -/
def innerSubstitution (g : Grammar) : Scan (List Node) := do
  let values ← substitutedValue g
  let _ ← Scan.maybe (do
    Scan.check (← Scan.startsWith ":")
    Scan.advance 1
    Scan.many formatRun)
  closeSubstitution
  return values

/-- A substitution: a value and the form it is shown in. -/
def substitution (g : Grammar) : Scan Node := do
  let start ← Scan.position
  let values ← substitutedValue g
  let form ← Scan.maybe (do
    Scan.check (← Scan.startsWith ":")
    Scan.advance 1
    Scan.many (Scan.firstOf [formatRun, innerSubstitution g]))
  closeSubstitution
  Scan.node .other start (values ++ (form.getD []).flatten)

/-- A part of a literal: text, or a substitution. -/
def literalPart (g : Grammar) (quote : Array Char) (interpolated : Bool) : Scan (List Node) := do
  let n : Nat ← fun c => some (literalRun c.chars quote interpolated c.chars.size c.pos, c)
  if 0 < n then
    Scan.advance n
    return []
  else
    Scan.check interpolated
    return [← substitution g]

/-- The quote at the cursor. -/
def quote : Scan String := do
  let texts := ["\"\"\"", "'''", "\"", "'"]
  Scan.firstOf (texts.map fun text => do
    Scan.check (← Scan.startsWith text)
    Scan.advance text.length
    return text)

/-- A string literal. -/
def string (g : Grammar) : Scan Node := do
  let start ← Scan.position
  let marks ← Scan.runLength isLiteralMark
  let letters ← Scan.peekText marks
  Scan.advance marks
  let text ← quote
  let interpolated := letters.toList.any fun c => ['f', 'F', 't', 'T'].contains c
  let parts ← Scan.many (literalPart g text.toList.toArray interpolated)
  Scan.check (← Scan.startsWith text)
  pass text.length
  Scan.node .string start parts.flatten

/-- One string literal, or several side by side, which make one value. -/
def strings (g : Grammar) : Scan Node := do
  let first ← string g
  let rest ← Scan.many (string g)
  if rest.isEmpty then return first
  else Scan.node .other first.span.start (first :: rest)

/-! ### Operands -/

/-- A parameter of a function without a name. -/
def plainParameter (g : Grammar) : Scan (List Node) := do
  let _ ← Scan.maybe (anyMark ["**", "*", "/"])
  let _ ← Scan.maybe (Scan.firstOf [(do let _ ← identifier), (do
    let _ ← bracketed g .other "(" ")")])
  let value ← Scan.maybe (do
    mark "="
    g.expression)
  return value.toList

/-- A function without a name. -/
def lambda (g : Grammar) (stopsAtIn : Bool) : Scan Node := do
  let start ← Scan.position
  word "lambda"
  let values ← Scan.separated (plainParameter g) (mark ",")
  mark ":"
  let body ← g.parse (.expression stopsAtIn)
  Scan.node .other start (values.flatten ++ [body])

/-- A name, a constant, a literal, or something between brackets. -/
def atom (g : Grammar) : Scan Node := do
  match ← Scan.charAt 0 with
  | none => Scan.fail
  | some c =>
    if c == '(' then bracketed g .other "(" ")"
    else if c == '[' then bracketed g .other "[" "]"
    else if c == '\x7b' then bracketed g .other "\x7b" "\x7d"
    else if c.isDigit then number
    else if c == '.' then do
      let start ← Scan.position
      Scan.firstOf [number, (do
        mark "..."
        Scan.node .other start [])]
    else if c == '"' || c == '\'' then strings g
    else Scan.firstOf [strings g, identifier]

/-- A call of a node, a part of it, or a member of it. -/
def callStep (g : Grammar) (n : Node) : Scan Node := do
  let start := n.span.start
  match ← Scan.charAt 0 with
  | some '(' => do
    let args ← bracketed g .arguments "(" ")"
    Scan.node .call start [n.inRole .function, args.inRole .arguments]
  | some '[' => do
    let part ← bracketed g .other "[" "]"
    Scan.node .other start [n, part]
  | some '.' => do
    mark "."
    let nameStart ← Scan.position
    let length ← wordLengthHere
    Scan.check (0 < length)
    pass length
    let name ← Scan.node .identifier nameStart []
    Scan.node .memberAccess start [n, name.inRole .property]
  | _ => Scan.fail

/-- The marks before an operand. -/
def signs : List String := ["-", "+", "~"]

/-- An operand with its signs, its calls and its members. -/
def operand (g : Grammar) : Scan Node := do
  let start ← Scan.position
  let signed : Scan Node := do
    Scan.firstOf [anyMark signs, word "not", word "await"]
    let e ← g.parse .operand
    Scan.node .other start [e]
  Scan.firstOf [signed, lambda g false, (do Scan.iterate (callStep g) (← atom g))]

/-! ### Operators -/

/-- The marks between two operands, longer ones first. -/
def operatorMarks : List String :=
  ["==", "!=", "<>", "<=", ">=", "<<", ">>", "<", ">", "**", "//", "+", "-", "*", "/",
    "%", "@", "&", "|", "^"]

/-- The marks that change a variable. -/
def updateMarks : List String :=
  [">>=", "<<=", "**=", "//=", "+=", "-=", "*=", "/=", "%=", "@=", "&=", "|=", "^="]

/-- The words between two operands. -/
def operatorWord (stopsAtIn : Bool) : Scan Unit :=
  Scan.firstOf [
    (do let _ ← wordOf ["and", "or"]),
    (do
      word "is"
      let _ ← Scan.maybe (word "not")),
    (do
      Scan.check !stopsAtIn
      let _ ← Scan.maybe (word "not")
      word "in")]

/-- An operator and the operand after it. -/
def operatorStep (g : Grammar) (stopsAtIn : Bool) : Scan Node := do
  Scan.check (!(← Scan.sees (anyMark updateMarks)))
  Scan.firstOf [anyMark operatorMarks, operatorWord stopsAtIn]
  g.parse .operand

/-- The condition and the other choice of a conditional expression. -/
def otherChoice (g : Grammar) : Scan (List Node) := do
  word "if"
  let test ← g.expression
  word "else"
  let other ← g.expression
  return [test, other]

/-- An expression without a comma. -/
def expression (g : Grammar) (stopsAtIn : Bool) : Scan Node := do
  let first ← g.parse .operand
  let rest ← Scan.many (operatorStep g stopsAtIn)
  let choice ← Scan.maybe (otherChoice g)
  let parts := rest ++ choice.getD []
  if parts.isEmpty then return first
  else Scan.node .other first.span.start (first :: parts)

/-- An expression that may stand for several values. -/
def starredExpression (g : Grammar) (stopsAtIn : Bool) : Scan Node := do
  if ← seesMark "*" then
    let start ← Scan.position
    mark "*"
    let e ← g.parse (.expression stopsAtIn)
    Scan.node .other start [e]
  else g.parse (.expression stopsAtIn)

/-- Expressions between commas, at least one. -/
def expressions (g : Grammar) (stopsAtIn : Bool) : Scan (List Node) := do
  let found ← Scan.separated (starredExpression g stopsAtIn) (mark ",")
  Scan.check !found.isEmpty
  return found

end Outline

end RepoGraph
