import RepoGraph.Script.Class
import RepoGraph.Script.Markup

/-!
# Expressions in scripts

Only names, literals, calls, members and functions keep their own kinds; operators leave their
operands side by side, so that binding strengths do not matter.  An expression goes on after a line
end unless the next token begins a statement.
-/

namespace RepoGraph

namespace Script

open Syntax

/-! ### Templates -/

/-- The length of the text of a template up to a substitution or the end. -/
def templateRun (chars : Array Char) : Nat → Nat → Nat
  | 0, _ => 0
  | n + 1, k =>
    match chars[k]?, chars[k + 1]? with
    | some '\\', _ => templateRun chars n (k + 2) + 2
    | some '$', some '\x7b' => 0
    | some c, _ => if c == '\x60' then 0 else templateRun chars n (k + 1) + 1
    | none, _ => 0

/-- A stretch of a template's text, or a substitution. -/
def templatePart (g : Grammar) : Scan (List Node) := do
  let start ← Scan.position
  if ← Scan.startsWith "$\x7b" then
    pass 2
    let e ← g.sequence
    Markup.closeBrace
    return [← Scan.node .other start [e]]
  else
    let n : Nat ← fun c => some (templateRun c.chars c.chars.size c.pos, c)
    Scan.check (0 < n)
    Scan.advance n
    return []

/-- A template between backticks. -/
def template (g : Grammar) : Scan Node := do
  let start ← Scan.position
  Scan.check (← Scan.startsWith "\x60")
  Scan.advance 1
  let parts ← Scan.many (templatePart g)
  Scan.check (← Scan.startsWith "\x60")
  pass 1
  Scan.node .other start parts.flatten

/-! ### Operands -/

/-- An expression between parentheses. -/
def parenthesized (g : Grammar) : Scan Node := do
  let start ← Scan.position
  mark "("
  let e ← g.sequence
  Typing.optionalType g
  mark ")"
  Scan.node .other start [e]

/-- The members after the class of a new object. -/
def constructorStep (g : Grammar) (n : Node) : Scan Node := do
  if ← seesMark "." then
    mark "."
    memberOf n
  else
    mark "["
    let e ← g.sequence
    mark "]"
    Scan.node .other n.span.start [n, e]

/-- A name or another word that stands for a value. -/
def wordOperand : Scan Node := do
  let w ← peekWord
  if ["this", "super", "null", "true", "false", "import"].contains w then anyWord .other
  else identifier

/-- An operand that begins with a word or a bracket, new objects aside. -/
def simpleOperand (g : Grammar) : Scan Node := do
  match ← Scan.charAt 0 with
  | none => Scan.fail
  | some c =>
    if c == '(' then parenthesized g
    else if c == '[' then listLiteral g
    else if c == '\x7b' then objectLiteral g
    else if c == '\x60' then template g
    else if c == '"' || c == '\'' then string
    else if c.isDigit || c == '.' then number
    else if c == '/' then regex
    else if c == '@' then classConstruct g false
    else if c == '#' then memberName g
    else if c == '<' then do
      Scan.check g.markup
      let e ← g.parse .element
      skip
      return e
    else
      let w ← peekWord
      if w == "function" then function g false
      else if w == "class" then classConstruct g false
      else if w == "async" then Scan.firstOf [function g false, wordOperand]
      else wordOperand

/-- A new object: its class, with members but without calls, and the arguments. -/
def newObject (g : Grammar) : Scan Node := do
  let start ← Scan.position
  word "new"
  if ← seesMark "." then
    mark "."
    let _ ← anyWord .other
    Scan.node .other start []
  else
    let callee ← if ← seesWord "new" then g.parse .leftHand else simpleOperand g
    let callee ← Scan.iterate (constructorStep g) callee
    if g.typed then
      let _ ← Scan.maybe (Typing.arguments g)
    let args ← Scan.maybe (arguments g)
    Scan.node .other start (callee :: args.toList)

/-- An operand. -/
def operand (g : Grammar) : Scan Node := do
  if ← seesWord "new" then newObject g else simpleOperand g

/-- Type arguments inside an expression.  They count as such before the arguments of a call, before
a template, and where no operand follows that a comparison could go on with. -/
def typeArguments (g : Grammar) : Scan Unit := do
  g.whenTyped
  Typing.arguments g
  let c ← Scan.charAt 0
  let line ← Scan.newlineBefore
  Scan.check (line || c.isNone ||
    c.any fun x => ['(', '\x60', ')', ']', '\x7d', ',', ';', ':', '.', '?', '=', '|',
      '&'].contains x)

/-- A call of the node, or a member of it. -/
def callStep (g : Grammar) (n : Node) : Scan Node := do
  let start := n.span.start
  let subscript : Scan Node := do
    mark "["
    let e ← g.sequence
    mark "]"
    Scan.node .other start [n, e]
  let call : Scan Node := do callOf n (← arguments g)
  let tagged : Scan Node := do callOf n (← template g)
  match ← Scan.charAt 0 with
  | some '(' => call
  | some '[' => subscript
  | some '.' => do
    mark "."
    memberOf n
  | some '?' => do
    let next ← Scan.charAt 2
    mark "?."
    Scan.check (!next.any Char.isDigit)
    if g.typed then
      let _ ← Scan.maybe (typeArguments g)
    Scan.firstOf [call, subscript, tagged, memberOf n]
  | some '!' => do
    g.whenTyped
    Scan.check (!(← Scan.newlineBefore) && !(← seesMark "!="))
    mark "!"
    Scan.node .other start [n]
  | some '<' => do
    typeArguments g
    Scan.firstOf [call, tagged, Scan.node .other start [n]]
  | some c => if c == '\x60' then tagged else Scan.fail
  | none => Scan.fail

/-- An operand with its calls and members. -/
def leftHand (g : Grammar) : Scan Node := do
  Scan.iterate (callStep g) (← operand g)

/-! ### Operators -/

/-- The marks before an operand. -/
def signs : List String := ["++", "--", "!", "~", "+", "-"]

/-- The words before an operand. -/
def signWords : List String := ["typeof", "void", "delete", "await"]

/-- A value whose type is asserted in front of it. -/
def assertedValue (g : Grammar) : Scan Node := do
  let start ← Scan.position
  Scan.check (g.typed && !g.markup)
  mark "<"
  let _ ← g.parse .type
  mark ">"
  let e ← g.parse .unary
  Scan.node .other start [e]

/-- An operand after a mark or a word. -/
def signedValue (g : Grammar) : Scan Node := do
  let start ← Scan.position
  Scan.firstOf [anyMark signs, (do let _ ← wordOf signWords)]
  let e ← g.parse .unary
  Scan.node .other start [e]

/-- An operand with the marks after it. -/
def suffixedValue (g : Grammar) : Scan Node := do
  let n ← leftHand g
  if (← Scan.newlineBefore) then return n
  else
    match ← Scan.maybe (anyMark ["++", "--"]) with
    | some () => Scan.node .other n.span.start [n]
    | none => return n

/-- An operand with the operators before and after it. -/
def unary (g : Grammar) : Scan Node :=
  Scan.firstOf [signedValue g, assertedValue g, suffixedValue g, wordOperand]

/-- The marks that assign, longer ones first. -/
def assignmentMarks : List String :=
  [">>>=", "<<=", ">>=", "**=", "&&=", "||=", "??=", "+=", "-=", "*=", "/=", "%=", "&=", "|=", "^="]

/-- An assignment mark. -/
def assignmentMark : Scan Unit := do
  let plain ← Scan.startsWith "="
  if plain then
    Scan.check (!(← Scan.startsWith "==") && !(← Scan.startsWith "=>"))
    mark "="
  else anyMark assignmentMarks

/-- The marks between two operands, longer ones first. -/
def operatorMarks : List String :=
  ["===", "!==", "==", "!=", "<=", ">=", "<<", ">>>", ">>", "<", ">", "&&", "||", "??", "**", "+",
    "-", "*", "/", "%", "&", "|", "^"]

/-- The words between two operands. -/
def operatorWord (mode : Mode) : Scan Unit := do
  let _ ← wordOf (if mode.stopsAtIn then ["instanceof"] else ["in", "instanceof"])

/-- A type that an operand is claimed to have. -/
def claimedType (g : Grammar) : Scan (List Node) := do
  g.whenTyped
  Scan.check (!(← Scan.newlineBefore))
  let _ ← wordOf ["as", "satisfies"]
  let _ ← g.parse .type
  return []

/-- An operator and the operand after it. -/
def operatorStep (g : Grammar) (mode : Mode) : Scan (List Node) := do
  Scan.check (!(← endsAtLine))
  Scan.firstOf [
    claimedType g,
    (do
      Scan.check (!(← Scan.sees assignmentMark) && !(← Scan.startsWith "=>"))
      Scan.firstOf [anyMark operatorMarks, operatorWord mode]
      return [← g.parse .unary])]

/-- Operands with operators between them. -/
def operation (g : Grammar) (mode : Mode) : Scan Node := do
  let first ← g.parse .unary
  let before ← Scan.position
  let rest ← Scan.many (operatorStep g mode)
  let after ← Scan.position
  if before == after then return first
  else Scan.node .other first.span.start (first :: rest.flatten)

/-- The two choices of a conditional expression.  When the first choice cannot be read with typed
arrow functions, it is read without them. -/
def choices (g : Grammar) (mode : Mode) : Scan (List Node) := do
  Scan.check (← seesMark "?")
  Scan.check (!(← Scan.startsWith "??"))
  let next ← Scan.charAt 1
  let afterNext ← Scan.charAt 2
  Scan.check (next != some '.' || afterNext.any Char.isDigit)
  mark "?"
  let both (m : Mode) : Scan (List Node) := do
    let a ← g.parse (.expression m)
    mark ":"
    let b ← g.parse (.expression mode)
    return [a, b]
  Scan.firstOf [both Mode.plain, both ⟨false, true⟩]

/-! ### Arrow functions -/

/-- The body of an arrow function. -/
def arrowBody (g : Grammar) (mode : Mode) : Scan Node := do
  if ← seesMark "\x7b" then g.parse .block else g.parse (.expression mode)

/-- The parameters of an arrow function in parentheses, up to the arrow. -/
def arrowParameters (g : Grammar) (mode : Mode) : Scan Node := do
  Typing.optionalParameters g
  let ps ← parameters g
  if g.typed && !mode.untypedArrow then Typing.optionalType g
  mark "=>"
  return ps

/-- The single parameter of an arrow function, up to the arrow. -/
def arrowName : Scan Node := do
  let p ← identifier
  mark "=>"
  return p

/-- An arrow function. -/
def arrowFunction (g : Grammar) (mode : Mode) : Scan Node := do
  let start ← Scan.position
  let heads := [arrowName, arrowParameters g mode]
  let head ← Scan.firstOf (heads ++ [do
    let _ ← asyncMark
    Scan.firstOf heads])
  let body ← arrowBody g mode
  Scan.node .other start [head, body]

/-- A value handed out by a generator. -/
def yielded (g : Grammar) (mode : Mode) : Scan Node := do
  let start ← Scan.position
  word "yield"
  if ← seesMark "*" then
    mark "*"
    let e ← g.parse (.expression mode)
    Scan.node .other start [e]
  else if ← endsStatement then Scan.node .other start []
  else
    let e ← Scan.maybe (g.parse (.expression mode))
    Scan.node .other start e.toList

/-- An expression without arrow functions and generators at its front. -/
def plainExpression (g : Grammar) (mode : Mode) : Scan Node := do
  let n ← operation g mode
  let start := n.span.start
  match ← Scan.maybe (choices g mode) with
  | some parts => Scan.node .other start (n :: parts)
  | none =>
    match ← Scan.maybe (do
      assignmentMark
      g.parse (.expression mode)) with
    | some value => Scan.node .other start [n, value]
    | none => return n

/-- An expression without a comma. -/
def expression (g : Grammar) (mode : Mode) : Scan Node := do
  let c ← Scan.charAt 0
  let mayBeArrow := c.any fun x => x == '(' || x == '<' || isWordStart x
  if mayBeArrow then Scan.firstOf [arrowFunction g mode, yielded g mode, plainExpression g mode]
  else plainExpression g mode

/-- Expressions between commas; several of them make one node. -/
def sequence (g : Grammar) (mode : Mode) : Scan Node := do
  let first ← g.parse (.expression mode)
  let rest ← Scan.many (do
    mark ","
    g.parse (.expression mode))
  if rest.isEmpty then return first
  else Scan.node .other first.span.start (first :: rest)

end Script

end RepoGraph
