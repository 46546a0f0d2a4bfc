import RepoGraph.Outline.Expression

/-!
# Statements in indented sources

A block holds the lines that are indented at least as far as its first one.  A comment after the
block's last line belongs to the block when it is indented as far; so does a comment that ends that
line.  What follows the colon of a compound statement may also stand on the same line.
-/

namespace RepoGraph

namespace Outline

open Syntax

/-! ### Imports -/

/-- A name with names after dots. -/
def dottedName : Scan Node := do
  let start ← Scan.position
  let first ← identifier
  let _ ← Scan.many (do
    mark "."
    identifier)
  Scan.node .other start [first]

/-- A module or a thing, perhaps under another name. -/
def importItem : Scan Node := do
  let start ← Scan.position
  let name ← dottedName
  match ← Scan.maybe (do
    word "as"
    identifier) with
  | some other => do
    let n ← Scan.node .aliasedImport start [name.inRole .name, other]
    return n.inRole .name
  | none => return name.inRole .name

/-- The import of modules. -/
def importStatement : Scan Node := do
  let start ← Scan.position
  word "import"
  let names ← Scan.separated importItem (mark ",")
  Scan.node .importStatement start names

/-- A module that is given by the steps up to it. -/
def relativeModule : Scan Node := do
  let start ← Scan.position
  let dots ← Scan.many (mark ".")
  Scan.check !dots.isEmpty
  let name ← Scan.maybe dottedName
  Scan.node .other start name.toList

/-- All things of a module. -/
def wildcardImport : Scan (List Node) := do
  let start ← Scan.position
  mark "*"
  return [← Scan.node .wildcardImport start []]

/-- The import of things from a module. -/
def importFrom : Scan Node := do
  let start ← Scan.position
  word "from"
  let isFuture ← seesWord "__future__"
  let module ← Scan.firstOf [relativeModule, dottedName]
  word "import"
  let names ← Scan.firstOf [
    wildcardImport,
    (do
      opening "("
      let names ← Scan.separated importItem (mark ",")
      closing ")"
      return names),
    Scan.separated importItem (mark ",")]
  let kind := if isFuture then Kind.other else .importFrom
  Scan.node kind start (module.inRole .moduleName :: names)

/-! ### Simple statements -/

/-- A value handed out by a generator. -/
def yielded (g : Grammar) : Scan (List Node) := do
  let start ← Scan.position
  word "yield"
  let _ ← Scan.maybe (word "from")
  let values ← Scan.maybe (expressions g false)
  return [← Scan.node .other start (values.getD [])]

/-- What stands on the right of an assignment. -/
def assignedValues (g : Grammar) : Scan (List Node) :=
  Scan.firstOf [yielded g, expressions g false]

/-- The places on the left of an assignment as one node. -/
def assignedPlace (places : List Node) : Scan Node := do
  match places with
  | [place] => do
    let comma := place.span.stop
    let c : Cursor ← get
    if place.kind == .identifier && c.last != comma then Scan.node .other place.span.start [place]
    else return place
  | _ => Scan.node .other ((places.head?.map fun n => n.span.start).getD 0) places

/-- An equals sign and the values after it; those may be places that are assigned to in turn. -/
def assignStep (g : Grammar) : Scan (List Node) := do
  Scan.check (!(← Scan.startsWith "=="))
  mark "="
  assignedValues g

/-- An assignment: a place with a type, with values, or with both. -/
def assignment (g : Grammar) (start : Nat) (places : List Node) : Scan Node := do
  let place ← assignedPlace places
  let type ← Scan.maybe (do
    mark ":"
    let typeStart ← Scan.position
    let t ← g.expression
    Scan.node .other typeStart [t])
  let values ← Scan.many (assignStep g)
  Scan.check (type.isSome || !values.isEmpty)
  Scan.node .assignment start
    (place.inRole .left :: type.toList ++ values.flatten)

/-- A change of a variable. -/
def update (g : Grammar) (start : Nat) (places : List Node) : Scan Node := do
  anyMark updateMarks
  let values ← assignedValues g
  Scan.node .other start (places ++ values)

/-- An expression, an assignment or a change as a statement. -/
def expressionStatement (g : Grammar) : Scan Node := do
  let start ← Scan.position
  match ← Scan.maybe (yielded g) with
  | some values => Scan.node .expressionStatement start values
  | none => do
    let places ← expressions g false
    match ← Scan.maybe (Scan.firstOf [update g start places, assignment g start places]) with
    | some n => Scan.node .expressionStatement start [n]
    | none => do
      let named ← Scan.maybe (do
        mark ":="
        g.expression)
      Scan.node .expressionStatement start (places ++ named.toList)

/-- The words of statements with expressions after them. -/
def plainWords : List String :=
  ["return", "del", "raise", "assert", "global", "nonlocal", "pass", "break", "continue"]

/-- A statement that is a word and expressions. -/
def plainStatement (g : Grammar) : Scan Node := do
  let start ← Scan.position
  let _ ← wordOf plainWords
  let values ← Scan.maybe (expressions g false)
  let cause ← Scan.maybe (do
    word "from"
    g.expression)
  Scan.node .other start (values.getD [] ++ cause.toList)

/-- Whether a character begins an operand that cannot continue one. -/
def beginsOperand (c : Char) : Bool := isWordStart c || c.isDigit || c == '"' || c == '\''

/-- The words that continue an operand. -/
def joiningWords : List String :=
  ["and", "or", "in", "is", "not", "if", "else", "as", "for", "from"]

/-- A word that acts on the expressions after it. -/
def actionStatement (g : Grammar) : Scan Node := do
  let start ← Scan.position
  let w ← wordOf ["print", "exec"]
  let target ← Scan.maybe (do
    Scan.check (w == "print")
    mark ">>"
    let e ← g.expression
    let _ ← Scan.maybe (mark ",")
    return e)
  let c ← Scan.charAt 0
  let next ← peekWord
  Scan.check (target.isSome || (c.any beginsOperand && !joiningWords.contains next))
  let values ← Scan.maybe (expressions g false)
  Scan.node .other start (target.toList ++ values.getD [])

/-- Another name for a type. -/
def typeStatement (g : Grammar) : Scan Node := do
  let start ← Scan.position
  word "type"
  let c ← Scan.charAt 0
  Scan.check (c.any isWordStart && !joiningWords.contains (← peekWord))
  let name ← g.expression
  mark "="
  let value ← g.expression
  Scan.node .other start [name, value]

/-- A statement that fills at most a line. -/
def simpleStatement (g : Grammar) : Scan Node := do
  let w ← peekWord
  if w == "import" then importStatement
  else if w == "from" then importFrom
  else if plainWords.contains w then plainStatement g
  else if w == "print" || w == "exec" then Scan.firstOf [actionStatement g, expressionStatement g]
  else if w == "type" then Scan.firstOf [typeStatement g, expressionStatement g]
  else expressionStatement g

/-- Simple statements between semicolons, and the end of their line. -/
def simpleLine (g : Grammar) : Scan (List Node) := do
  let found ← Scan.separated (simpleStatement g) (mark ";")
  Scan.check !found.isEmpty
  lineEnd
  return found

/-! ### Blocks -/

/-- A line of a block with the given indentation, compound statements included. -/
def blockLine (g : Grammar) (indent : Nat) : Scan (List Node) := do
  let line ← nextLine
  Scan.check (indent ≤ line.indent && !(← textEnds line))
  moveTo line
  Scan.firstOf [(do return [← g.parse (.statement indent)]), simpleLine g, (do
    pass (← Scan.runLength (· != '\n'))
    return [])]

/-- The comments after a block's last line that belong to the block. -/
def trailingComments (indent : Nat) : Scan Unit := do
  let line ← nextLine
  takeComments (line.comments.takeWhile fun c => indent ≤ c.indent)

/-- The lines of a block with the given indentation. -/
def blockLines (g : Grammar) (indent : Nat) : Scan (List Node) := do
  let found ← Scan.many (blockLine g indent)
  trailingComments indent
  return found.flatten

/-- What follows the colon of a compound statement of a block with the given indentation. -/
def suite (g : Grammar) (indent : Nat) : Scan Node := do
  mark ":"
  let start ← Scan.position
  match ← Scan.maybe (simpleLine g) with
  | some found => Scan.node .body start found
  | none => do
    lineEnd
    let line ← nextLine
    if indent < line.indent then
      let found ← blockLines g line.indent
      Scan.node .body line.pos found
    else
      let c : Cursor ← get
      Scan.node .body c.last []

/-- A part of a compound statement that begins with a word on a line of its own. -/
def onNextLine {α : Type} (indent : Nat) (p : Scan α) : Scan α := do
  let line ← nextLine
  Scan.check (line.indent == indent)
  moveTo line
  p

/-! ### Compound statements -/

/-- An expression that decides about a block. -/
def condition (g : Grammar) : Scan (List Node) := do
  let e ← g.expression
  let named ← Scan.maybe (do
    mark ":="
    g.expression)
  return e :: named.toList

/-- The part for all other cases. -/
def elsePart (g : Grammar) (indent : Nat) : Scan (List Node) := do
  word "else"
  return [← suite g indent]

/-- A conditional statement. -/
def ifStatement (g : Grammar) (indent : Nat) : Scan Node := do
  let start ← Scan.position
  word "if"
  let test ← condition g
  let body ← suite g indent
  let others ← Scan.many (onNextLine indent (do
    word "elif"
    let test ← condition g
    let body ← suite g indent
    return test ++ [body]))
  let final ← Scan.maybe (onNextLine indent (elsePart g indent))
  Scan.node .other start (test ++ [body] ++ others.flatten ++ final.getD [])

/-- A loop over values. -/
def forStatement (g : Grammar) (indent : Nat) : Scan Node := do
  let start ← Scan.position
  let _ ← Scan.maybe (word "async")
  word "for"
  let targets ← expressions g true
  word "in"
  let values ← expressions g false
  let body ← suite g indent
  let final ← Scan.maybe (onNextLine indent (elsePart g indent))
  Scan.node .other start (targets ++ values ++ [body] ++ final.getD [])

/-- A loop with a condition. -/
def whileStatement (g : Grammar) (indent : Nat) : Scan Node := do
  let start ← Scan.position
  word "while"
  let test ← condition g
  let body ← suite g indent
  let final ← Scan.maybe (onNextLine indent (elsePart g indent))
  Scan.node .other start (test ++ [body] ++ final.getD [])

/-- The handler of some failures. -/
def handler (g : Grammar) (indent : Nat) : Scan (List Node) := do
  word "except"
  let _ ← Scan.maybe (mark "*")
  let kinds ← Scan.maybe (expressions g false)
  let _ ← Scan.maybe (do
    word "as"
    g.expression)
  let body ← suite g indent
  return kinds.getD [] ++ [body]

/-- A block whose failures are handled. -/
def tryStatement (g : Grammar) (indent : Nat) : Scan Node := do
  let start ← Scan.position
  word "try"
  let body ← suite g indent
  let handlers ← Scan.many (onNextLine indent (handler g indent))
  let other ← Scan.maybe (onNextLine indent (elsePart g indent))
  let final ← Scan.maybe (onNextLine indent (do
    word "finally"
    return [← suite g indent]))
  Scan.node .other start ([body] ++ handlers.flatten ++ other.getD [] ++ final.getD [])

/-- A resource that a block uses, perhaps under a name. -/
def resource (g : Grammar) : Scan Node := do
  let start ← Scan.position
  let e ← g.expression
  match ← Scan.maybe (do
    word "as"
    starredExpression g false) with
  | some name => Scan.node .other start [e, name]
  | none => return e

/-- A block that uses resources. -/
def withStatement (g : Grammar) (indent : Nat) : Scan Node := do
  let start ← Scan.position
  let _ ← Scan.maybe (word "async")
  word "with"
  let resources ← Scan.separated (resource g) (mark ",")
  let body ← suite g indent
  Scan.node .other start (resources ++ [body])

/-- A pattern of a case.  Calls in patterns match values and call nothing, so a pattern has no
nodes. -/
def casePattern (g : Grammar) : Scan Unit := do
  let _ ← Scan.separated (do
    let _ ← starredExpression g false
    let _ ← Scan.maybe (do
      word "as"
      g.expression)) (mark ",")

/-- A case of a choice by patterns. -/
def matchCase (g : Grammar) (indent : Nat) : Scan (List Node) := do
  word "case"
  casePattern g
  let test ← Scan.maybe (do
    word "if"
    condition g)
  let body ← suite g indent
  return test.getD [] ++ [body]

/-- A choice by patterns. -/
def matchStatement (g : Grammar) : Scan Node := do
  let start ← Scan.position
  word "match"
  let values ← expressions g false
  mark ":"
  lineEnd
  let line ← nextLine
  let cases ← Scan.many (onNextLine line.indent (matchCase g line.indent))
  Scan.check !cases.isEmpty
  trailingComments line.indent
  Scan.node .other start (values ++ cases.flatten)

/-! ### Definitions -/

/-- The names of types that a definition leaves open. -/
def typeParameters (g : Grammar) : Scan (List Node) := do
  match ← Scan.maybe (bracketed g .other "[" "]") with
  | some n => return [n]
  | none => return []

/-- A type. -/
def typeNode (g : Grammar) : Scan Node := do
  let start ← Scan.position
  let t ← starredExpression g false
  Scan.node .other start [t]

/-- A parameter that takes what is left over, or a separator of parameters. -/
def spreadParameter (g : Grammar) : Scan Node := do
  let start ← Scan.position
  anyMark ["**", "*", "/"]
  match ← Scan.maybe identifier with
  | none => Scan.node .other start []
  | some name => do
    let n ← Scan.node .spreadParameter start [name]
    match ← Scan.maybe (do
      mark ":"
      typeNode g) with
    | some t => Scan.node .annotatedParameter start [n, t]
    | none => return n

/-- A parameter with a name, and perhaps a type and a value. -/
def namedParameter (g : Grammar) : Scan Node := do
  let start ← Scan.position
  let name ← Scan.firstOf [identifier, bracketed g .other "(" ")"]
  let type ← Scan.maybe (do
    mark ":"
    typeNode g)
  let value ← Scan.maybe (do
    mark "="
    g.expression)
  match type, value with
  | none, none => return name
  | some t, none => Scan.node .annotatedParameter start [name, t]
  | _, some v =>
    Scan.node .defaultParameter start ([name.inRole .name] ++ type.toList ++ [v.inRole .value])

/-- The parameters of a function. -/
def parameters (g : Grammar) : Scan Node := do
  let start ← Scan.position
  opening "("
  let found ← Scan.separated (Scan.firstOf [spreadParameter g, namedParameter g]) (mark ",")
  closing ")"
  Scan.node .parameters start found

/-- The definition of a function. -/
def functionDefinition (g : Grammar) (indent : Nat) : Scan Node := do
  let start ← Scan.position
  let async ← Scan.maybe (do
    word "async"
    Scan.node .asyncMark start [])
  word "def"
  let name ← identifier
  let types ← typeParameters g
  let ps ← parameters g
  let result ← Scan.maybe (do
    mark "->"
    typeNode g)
  let body ← suite g indent
  Scan.node .functionDefinition start
    (async.toList ++ [name.inRole .name] ++ types ++ [ps.inRole .parameters] ++ result.toList ++
      [body.inRole .body])

/-- The definition of a class. -/
def classDefinition (g : Grammar) (indent : Nat) : Scan Node := do
  let start ← Scan.position
  word "class"
  let name ← identifier
  let types ← typeParameters g
  let bases ← Scan.maybe (bracketed g .arguments "(" ")")
  let body ← suite g indent
  Scan.node .classDefinition start
    ([name.inRole .name] ++ types ++ (bases.map (Node.inRole .superclasses)).toList ++
      [body.inRole .body])

/-- A definition with a name. -/
def definition (g : Grammar) (indent : Nat) : Scan Node :=
  Scan.firstOf [functionDefinition g indent, classDefinition g indent]

/-- A decorator and the end of its line. -/
def decorator (g : Grammar) : Scan Node := do
  let start ← Scan.position
  mark "@"
  let named ← condition g
  lineEnd
  Scan.node .other start named

/-- A definition with decorators on the lines before it. -/
def decoratedDefinition (g : Grammar) (indent : Nat) : Scan Node := do
  let start ← Scan.position
  let first ← decorator g
  let line ← nextLine
  let rest ← Scan.many (onNextLine line.indent (decorator g))
  let inner ← onNextLine line.indent (definition g indent)
  Scan.node .decoratedDefinition start (first :: rest ++ [inner.inRole .definition])

/-- A compound statement of a block with the given indentation. -/
def statement (g : Grammar) (indent : Nat) : Scan Node := do
  match ← Scan.charAt 0 with
  | some '@' => decoratedDefinition g indent
  | _ =>
    let w ← peekWord
    if w == "if" then ifStatement g indent
    else if w == "for" then forStatement g indent
    else if w == "while" then whileStatement g indent
    else if w == "try" then tryStatement g indent
    else if w == "with" then withStatement g indent
    else if w == "match" then matchStatement g
    else if w == "async" then
      Scan.firstOf [functionDefinition g indent, forStatement g indent, withStatement g indent]
    else definition g indent

end Outline

end RepoGraph
