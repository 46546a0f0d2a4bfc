import RepoGraph.Script.Typing

/-!
# Functions and members

Parameters and bodies of functions, and the named members of classes and object literals.  A word
such as `get` or `static` modifies a member when another name follows it on its line; otherwise it
is the member's name.
-/

namespace RepoGraph

namespace Script

open Syntax

/-! ### Arguments and decorators -/

/-- A value after three dots. -/
def spread (g : Grammar) : Scan Node := do
  let start ← Scan.position
  mark "..."
  let e ← g.expression
  Scan.node .other start [e]

/-- Values between commas; gaps are allowed. -/
def items (g : Grammar) : Scan (List Node) := do
  let found ← Scan.many (do
    if ← seesMark "," then
      mark ","
      return []
    else
      return [← Scan.firstOf [spread g, g.expression]])
  return found.flatten

/-- The arguments of a call. -/
def arguments (g : Grammar) : Scan Node := do
  let start ← Scan.position
  mark "("
  let values ← items g
  mark ")"
  Scan.node .arguments start values

/-- A list between square brackets, as a value or as a pattern. -/
def listLiteral (g : Grammar) : Scan Node := do
  let start ← Scan.position
  mark "["
  let values ← items g
  mark "]"
  Scan.node .other start values

/-- A call of a node with arguments. -/
def callOf (callee arguments : Node) : Scan Node :=
  Scan.node .call callee.span.start [callee.inRole .function, arguments.inRole .arguments]

/-- A member of a node. -/
def memberOf (object : Node) : Scan Node := do
  let start ← Scan.position
  let name ←
    if ← seesMark "#" then do
      mark "#"
      let _ ← anyWord .other
      Scan.node .other start []
    else anyWord .memberName
  Scan.node .memberAccess object.span.start [object, name.inRole .property]

/-- A call or a member after a decorator's name. -/
def decoratorStep (g : Grammar) (n : Node) : Scan Node := do
  if ← seesMark "." then
    mark "."
    memberOf n
  else
    if g.typed then
      let _ ← Scan.maybe (Typing.arguments g)
    let args ← arguments g
    callOf n args

/-- A decorator. -/
def decorator (g : Grammar) : Scan Node := do
  let start ← Scan.position
  mark "@"
  if ← seesMark "(" then
    mark "("
    let e ← g.sequence
    mark ")"
    Scan.node .other start [e]
  else
    let name ← anyWord .identifier
    let e ← Scan.iterate (decoratorStep g) name
    Scan.node .other start [e]

/-! ### Functions -/

/-- The words that make a parameter a member. -/
def parameterModifiers : List String := ["public", "private", "protected", "override", "readonly"]

/-- A word before a parameter. -/
def parameterModifier : Scan Unit := do
  let _ ← wordOf parameterModifiers
  let c ← Scan.charAt 0
  Scan.check (c.any fun x => isWordStart x || x == '\x7b' || x == '[' || x == '.')

/-- What a parameter or a variable is bound to: a name, or a pattern in brackets. -/
def pattern (g : Grammar) : Scan Node := do
  if (← seesMark "\x7b") || (← seesMark "[") then g.parse .leftHand
  else if ← seesWord "this" then anyWord .other
  else identifier

/-- A value after an equals sign. -/
def initialValue (g : Grammar) : Scan Node := do
  mark "="
  g.expression

/-- A parameter. -/
def parameter (g : Grammar) : Scan Node := do
  let start ← Scan.position
  let decorators ← Scan.many (decorator g)
  if g.typed then
    let _ ← Scan.many parameterModifier
  let patternStart ← Scan.position
  let isRest ← seesMark "..."
  if isRest then mark "..."
  let inner ← pattern g
  let bound ← if isRest then Scan.node .other patternStart [inner] else pure inner
  if g.typed then
    let _ ← Scan.maybe (mark "?")
  Typing.optionalType g
  let value ← Scan.maybe (initialValue g)
  if g.typed then
    Scan.node .parameter start (decorators ++ [bound.inRole .pattern] ++ value.toList)
  else
    match value with
    | none => return bound
    | some v => Scan.node .defaultParameter start [bound.inRole .left, v]

/-- Parameters between parentheses. -/
def parameters (g : Grammar) : Scan Node := do
  let start ← Scan.position
  mark "("
  let ps ← Scan.separated (parameter g) (mark ",")
  mark ")"
  Scan.node .parameters start ps

/-- The head of a function after its name: type parameters, parameters, the type of the result. -/
def functionHead (g : Grammar) : Scan Node := do
  Typing.optionalParameters g
  let ps ← parameters g
  Typing.optionalType g
  return ps.inRole .parameters

/-- The body of a function, where one is written. -/
def functionBody (g : Grammar) : Scan (Option Node) := do
  if ← seesMark "\x7b" then
    let b ← g.parse .block
    return some (b.inRole .body)
  else
    return none

/-- The mark of an asynchronous function. -/
def asyncMark : Scan Node := do
  let start ← Scan.position
  word "async"
  Scan.check (!(← Scan.newlineBefore))
  Scan.node .asyncMark start []

/-- A function after its marks: the word, a name that may be missing, and the rest.  Without a body
it only announces a function. -/
def functionFrom (g : Grammar) (start : Nat) (marks : List Node) (declares : Bool) :
    Scan Node := do
  word "function"
  let _ ← Scan.maybe (mark "*")
  let name ← Scan.maybe (anyWord .identifier)
  let ps ← functionHead g
  let body ← functionBody g
  if body.isNone then
    g.whenTyped
    if declares then semicolon
  let kind := if declares && name.isSome && body.isSome then Kind.functionDefinition else .other
  Scan.node kind start (marks ++ (name.map (Node.inRole .name)).toList ++ [ps] ++ body.toList)

/-- A function, declared or as a value. -/
def function (g : Grammar) (declares : Bool) : Scan Node := do
  let start ← Scan.position
  let async ← Scan.maybe asyncMark
  functionFrom g start async.toList declares

/-! ### Members -/

/-- Whether a character may begin the name of a member. -/
def beginsMemberName (c : Char) : Bool :=
  isWordStart c || c.isDigit || ['"', '\'', '[', '#', '\\'].contains c

/-- The name of a member. -/
def memberName (g : Grammar) : Scan Node := do
  let start ← Scan.position
  match ← Scan.charAt 0 with
  | none => Scan.fail
  | some c =>
    if c == '[' then do
      mark "["
      let e ← g.expression
      mark "]"
      Scan.node .other start [e]
    else if c == '#' then do
      mark "#"
      let _ ← anyWord .other
      Scan.node .other start []
    else if c == '"' || c == '\'' then string
    else if c.isDigit || c == '.' then number
    else anyWord .memberName

/-- A word that modifies the member whose name follows.  Where a line end may end a member, the name
must follow on the same line. -/
def memberModifier (words : List String) (endsWithLine : Bool) : Scan Unit := do
  let _ ← wordOf words
  Scan.check (!(endsWithLine && (← endsAtLine)))
  let c ← Scan.charAt 0
  Scan.check (c.any fun x => beginsMemberName x || x == '*')

/-- The words before a method or field; the marks of asynchronous methods are kept. -/
def memberModifiers (words : List String) (endsWithLine : Bool) : Scan (List Node) := do
  let found ← Scan.many (do
    let start ← Scan.position
    let isAsync ← seesWord "async"
    memberModifier ("async" :: words) endsWithLine
    if isAsync then return [← Scan.node .asyncMark start []] else return [])
  let _ ← Scan.maybe (mark "*")
  return found.flatten

/-- The rest of a method after its name. -/
def methodFrom (g : Grammar) (start : Nat) (marks : List Node) (name : Node) : Scan Node := do
  let ps ← functionHead g
  let body ← functionBody g
  let kind := if body.isSome then Kind.method else .other
  Scan.node kind start (marks ++ [name.inRole .name, ps] ++ body.toList)

/-- A member of an object literal or of a pattern. -/
def property (g : Grammar) : Scan Node := do
  let start ← Scan.position
  if ← seesMark "..." then spread g
  else
    let decorators ← Scan.many (decorator g)
    let marks ← memberModifiers ["get", "set"] false
    let name ← memberName g
    if (← seesMark "(") || (g.typed && (← seesMark "<")) then
      methodFrom g start (decorators ++ marks) name
    else if ← seesMark ":" then
      mark ":"
      let value ← g.expression
      Scan.node .other start [name.inRole .name, value]
    else
      let value ← Scan.maybe (initialValue g)
      Scan.node .other start (name :: value.toList)

/-- An object between braces, as a value or as a pattern. -/
def objectLiteral (g : Grammar) : Scan Node := do
  let start ← Scan.position
  mark "\x7b"
  let ps ← Scan.separated (property g) (mark ",")
  mark "\x7d"
  Scan.node .other start ps

end Script

end RepoGraph
