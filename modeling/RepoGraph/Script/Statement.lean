import RepoGraph.Script.Expression

/-!
# Statements in scripts

Declarations, imports, exports and control flow.  Only imports, classes and functions keep their own
kinds; every other statement carries the nodes inside it.
-/

namespace RepoGraph

namespace Script

open Syntax

/-- A statement of no kind of its own. -/
def statementNode (start : Nat) (children : List Node) : Scan Node :=
  Scan.node .other start children

/-! ### Imports -/

/-- A word or a literal that names what a module gives. -/
def exportedName : Scan Node := Scan.firstOf [anyWord .identifier, string]

/-- A name taken from a module: before it a word for types, after it another name. -/
def importSpecifier (g : Grammar) : Scan Node := do
  let start ← Scan.position
  let names ← Scan.many exportedName
  let texts ← names.mapM fun n => Scan.textOf n.span
  let isMarked := g.typed && (texts.length == 2 || texts.length == 4) &&
    (texts.head? == some "type" || texts.head? == some "typeof")
  match if isMarked then names.tail else names with
  | [] => Scan.fail
  | name :: _ => Scan.node .importSpecifier start [name.inRole .name]

/-- The names taken from a module. -/
def namedImports (g : Grammar) : Scan Node := do
  let start ← Scan.position
  mark "\x7b"
  let specifiers ← Scan.separated (importSpecifier g) (mark ",")
  mark "\x7d"
  Scan.node .namedImports start specifiers

/-- A module taken as a whole. -/
def namespaceImport : Scan Node := do
  let start ← Scan.position
  mark "*"
  word "as"
  let name ← exportedName
  Scan.node .namespaceImport start [name]

/-- What an import takes: a default, names or the whole. -/
def importClause (g : Grammar) : Scan Node := do
  let start ← Scan.position
  let rest := Scan.firstOf [namespaceImport, namedImports g]
  let parts ← Scan.firstOf [
    (do return [← rest]),
    (do
      let name ← anyWord .identifier
      let more ← Scan.maybe (do
        mark ","
        rest)
      return name :: more.toList)]
  Scan.node .importClause start parts

/-- The conditions on an imported module. -/
def importConditions (g : Grammar) : Scan Unit := do
  let _ ← Scan.maybe (do
    let _ ← wordOf ["with", "assert"]
    objectLiteral g)

/-- An import with a clause. -/
def clauseImport (g : Grammar) (start : Nat) : Scan Node := do
  let clause ← importClause g
  word "from"
  let source ← string
  importConditions g
  semicolon
  Scan.node .importStatement start [clause, source.inRole .source]

/-- An import for its effects. -/
def bareImport (g : Grammar) (start : Nat) : Scan Node := do
  let source ← string
  importConditions g
  semicolon
  Scan.node .importStatement start [source.inRole .source]

/-- Another name for a module or a part of a namespace. -/
def importAlias (g : Grammar) (start : Nat) : Scan Node := do
  g.whenTyped
  let _ ← anyWord .other
  mark "="
  let e ← g.expression
  semicolon
  Scan.node .other start [e]

/-- An import statement. -/
def importStatement (g : Grammar) : Scan Node := do
  let start ← Scan.position
  word "import"
  let plain := [bareImport g start, clauseImport g start, importAlias g start]
  Scan.firstOf (plain ++ [do
    g.whenTyped
    let _ ← wordOf ["type", "typeof"]
    Scan.firstOf plain])

/-! ### Declarations -/

/-- A variable with its type and its value. -/
def variableBinding (g : Grammar) (mode : Mode) : Scan Node := do
  let start ← Scan.position
  let name ← pattern g
  if g.typed then
    let _ ← Scan.maybe (mark "!")
  Typing.optionalType g
  let value ← Scan.maybe (do
    mark "="
    g.parse (.expression mode))
  Scan.node .other start (name :: value.toList)

/-- The word that declares variables. -/
def variableWord : Scan Unit := do
  Scan.firstOf [
    (do
      let _ ← wordOf ["var", "const"]
      Scan.check (!(← seesWord "enum"))),
    (do
      let _ ← wordOf ["let"]
      let w ← peekWord
      let c ← Scan.charAt 0
      Scan.check (c == some '[' || c == some '\x7b' ||
        (w != "" && w != "in" && w != "instanceof" && w != "of"))),
    (do
      let _ ← Scan.maybe (word "await")
      let _ ← wordOf ["using"]
      Scan.check (!(← Scan.newlineBefore) && 0 < (← wordLengthHere) &&
        !(← seesWord "in") && !(← seesWord "of") && !(← seesWord "instanceof")))]

/-- Variables after the word that declares them. -/
def bindings (g : Grammar) (mode : Mode) : Scan (List Node) := do
  variableWord
  Scan.separated (variableBinding g mode) (mark ",")

/-- A declaration of variables. -/
def variableStatement (g : Grammar) : Scan Node := do
  let start ← Scan.position
  let vs ← bindings g .plain
  semicolon
  statementNode start vs

/-- The description of an interface. -/
def interfaceStatement (g : Grammar) : Scan Node := do
  let start ← Scan.position
  word "interface"
  Scan.check (!(← Scan.newlineBefore))
  let _ ← anyWord .other
  Typing.optionalParameters g
  let _ ← Scan.maybe (do
    word "extends"
    Scan.separated (g.parse .type) (mark ","))
  Typing.group
  statementNode start []

/-- Another name for a type. -/
def typeStatement (g : Grammar) : Scan Node := do
  let start ← Scan.position
  word "type"
  Scan.check (!(← Scan.newlineBefore))
  let _ ← anyWord .other
  Typing.optionalParameters g
  mark "="
  let _ ← g.parse .type
  semicolon
  statementNode start []

/-- A choice of an enumeration. -/
def enumChoice (g : Grammar) : Scan Node := do
  let start ← Scan.position
  let name ← memberName g
  let value ← Scan.maybe (initialValue g)
  Scan.node .other start (name :: value.toList)

/-- An enumeration. -/
def enumStatement (g : Grammar) : Scan Node := do
  let start ← Scan.position
  let _ ← Scan.maybe (word "const")
  word "enum"
  let _ ← anyWord .other
  mark "\x7b"
  let cs ← Scan.separated (enumChoice g) (mark ",")
  mark "\x7d"
  statementNode start cs

/-- A namespace or the declaration of a module. -/
def namespaceStatement (g : Grammar) : Scan Node := do
  let start ← Scan.position
  let w ← wordOf ["namespace", "module", "global"]
  Scan.check (!(← Scan.newlineBefore))
  if w != "global" then
    Scan.firstOf [
      (do
        let _ ← string),
      (do
        let _ ← anyWord .other
        let _ ← Scan.many (do
          mark "."
          anyWord .other))]
  let body ← Scan.maybe (g.parse .block)
  if body.isNone then semicolon
  statementNode start body.toList

/-- A declaration of what exists elsewhere. -/
def ambientStatement (g : Grammar) : Scan Node := do
  let start ← Scan.position
  word "declare"
  Scan.check (!(← Scan.newlineBefore) && 0 < (← wordLengthHere))
  let inner ← g.parse .statement
  statementNode start [inner]

/-- A declaration that only typed scripts have. -/
def typedDeclaration (g : Grammar) : Scan Node := do
  g.whenTyped
  Scan.firstOf [interfaceStatement g, typeStatement g, enumStatement g, namespaceStatement g,
    ambientStatement g]

/-- A class with the decorators directly before it. -/
def classStatement (g : Grammar) : Scan Node := classConstruct g true

/-! ### Exports -/

/-- Names handed on, from this module or from another one. -/
def exportList (g : Grammar) : Scan (List Node) := do
  if g.typed then
    let _ ← Scan.maybe (word "type")
  if ← seesMark "*" then
    mark "*"
    let _ ← Scan.maybe (do
      word "as"
      exportedName)
  else
    mark "\x7b"
    let _ ← Scan.separated (do
      Scan.check (0 < (← Scan.many exportedName).length)) (mark ",")
    mark "\x7d"
  let _ ← Scan.maybe (do
    word "from"
    let _ ← string
    importConditions g)
  semicolon
  return []

/-- What a module hands out by default: a declaration with a name, or a value. -/
def exportDefault (g : Grammar) : Scan (List Node) := do
  word "default"
  Scan.firstOf [
    (do
      let n ← Scan.firstOf [function g true, classStatement g]
      Scan.check (n.kind != .other)
      return [n]),
    (do
      let n ← Scan.firstOf [function g false, classConstruct g false]
      let _ ← Scan.maybe semicolon
      return [n]),
    (do
      g.whenTyped
      return [← interfaceStatement g]),
    (do
      let e ← g.sequence
      semicolon
      return [e])]

/-- The forms of export that only typed scripts have. -/
def typedExport (g : Grammar) : Scan (List Node) := do
  g.whenTyped
  if ← seesMark "=" then
    mark "="
    let e ← g.expression
    semicolon
    return [e]
  else
    word "as"
    word "namespace"
    let _ ← anyWord .other
    semicolon
    return []

/-- An export, after decorators that belong to it. -/
def exportFrom (g : Grammar) (start : Nat) (decorators : List Node) : Scan Node := do
  word "export"
  let parts ← Scan.firstOf [exportDefault g, exportList g, typedExport g,
    (do return [← g.parse .statement])]
  statementNode start (decorators ++ parts)

/-- An export. -/
def exportStatement (g : Grammar) : Scan Node := do
  let start ← Scan.position
  let decorators ← Scan.many (decorator g)
  exportFrom g start decorators

/-! ### Control flow -/

/-- An expression between parentheses that decides about a statement. -/
def condition (g : Grammar) : Scan Node := do
  mark "("
  let e ← g.sequence
  mark ")"
  return e

/-- A conditional statement. -/
def ifStatement (g : Grammar) : Scan Node := do
  let start ← Scan.position
  word "if"
  let c ← condition g
  let yes ← g.parse .statement
  let no ← Scan.maybe (do
    word "else"
    g.parse .statement)
  statementNode start ([c, yes] ++ no.toList)

/-- What a loop over values begins with: variables or a place to assign to. -/
def loopTarget (g : Grammar) : Scan (List Node) :=
  Scan.firstOf [bindings g ⟨true, false⟩, (do return [← g.parse (.sequence ⟨true, false⟩)])]

/-- The head of a loop over values. -/
def valuesHead (g : Grammar) : Scan (List Node) := do
  let target ← loopTarget g
  let _ ← wordOf ["of", "in"]
  let e ← g.sequence
  return target ++ [e]

/-- The head of a counting loop. -/
def countingHead (g : Grammar) : Scan (List Node) := do
  let first ← Scan.maybe (loopTarget g)
  mark ";"
  let test ← Scan.maybe g.sequence
  mark ";"
  let step ← Scan.maybe g.sequence
  return first.getD [] ++ test.toList ++ step.toList

/-- A loop. -/
def forStatement (g : Grammar) : Scan Node := do
  let start ← Scan.position
  word "for"
  let _ ← Scan.maybe (word "await")
  mark "("
  let head ← Scan.firstOf [valuesHead g, countingHead g]
  mark ")"
  let body ← g.parse .statement
  statementNode start (head ++ [body])

/-- A loop or a scope with one expression before its statement. -/
def whileStatement (g : Grammar) : Scan Node := do
  let start ← Scan.position
  let _ ← wordOf ["while", "with"]
  let c ← condition g
  let body ← g.parse .statement
  statementNode start [c, body]

/-- A loop with its condition at the end. -/
def doStatement (g : Grammar) : Scan Node := do
  let start ← Scan.position
  word "do"
  let body ← g.parse .statement
  word "while"
  let c ← condition g
  let _ ← Scan.maybe (mark ";")
  statementNode start [body, c]

/-- The handler of a failure. -/
def catchClause (g : Grammar) : Scan (List Node) := do
  word "catch"
  let bound ← Scan.maybe (do
    mark "("
    let p ← pattern g
    Typing.optionalType g
    mark ")"
    return p)
  let body ← g.parse .block
  return bound.toList ++ [body]

/-- A block whose failures are handled. -/
def tryStatement (g : Grammar) : Scan Node := do
  let start ← Scan.position
  word "try"
  let body ← g.parse .block
  let handler ← Scan.maybe (catchClause g)
  let final ← Scan.maybe (do
    word "finally"
    g.parse .block)
  statementNode start ([body] ++ handler.getD [] ++ final.toList)

/-- A case of a choice between values. -/
def switchCase (g : Grammar) : Scan (List Node) := do
  let value ← Scan.firstOf [
    (do
      word "case"
      return [← g.sequence]),
    (do
      word "default"
      return [])]
  mark ":"
  let body ← Scan.many (g.parse .statement)
  return value ++ body

/-- A choice between values. -/
def switchStatement (g : Grammar) : Scan Node := do
  let start ← Scan.position
  word "switch"
  let c ← condition g
  mark "\x7b"
  let cases ← Scan.many (switchCase g)
  mark "\x7d"
  statementNode start (c :: cases.flatten)

/-- A statement that leaves a function, a loop or a block. -/
def leaveStatement (g : Grammar) : Scan Node := do
  let start ← Scan.position
  let _ ← wordOf ["return", "throw", "break", "continue", "debugger"]
  if ← seesMark ";" then
    mark ";"
    statementNode start []
  else if ← endsStatement then statementNode start []
  else
    let e ← g.sequence
    semicolon
    statementNode start [e]

/-- A statement with a label. -/
def labelled (g : Grammar) : Scan Node := do
  let start ← Scan.position
  let _ ← identifier
  mark ":"
  let s ← g.parse .statement
  statementNode start [s]

/-- A lone semicolon. -/
def emptyStatement : Scan Node := do
  let start ← Scan.position
  mark ";"
  statementNode start []

/-- An expression as a statement. -/
def expressionStatement (g : Grammar) : Scan Node := do
  let start ← Scan.position
  let e ← g.sequence
  semicolon
  Scan.node .expressionStatement start [e]

/-! ### All statements -/

/-- The statements that begin with a given word. -/
def statementsFor (g : Grammar) (w : String) : List (Scan Node) :=
  if w == "import" then [importStatement g]
  else if w == "export" then [exportStatement g]
  else if w == "function" || w == "async" then [function g true]
  else if w == "class" || w == "abstract" then [classStatement g]
  else if ["var", "let", "const", "using", "await"].contains w then
    [variableStatement g, typedDeclaration g]
  else if w == "if" then [ifStatement g]
  else if w == "for" then [forStatement g]
  else if w == "while" || w == "with" then [whileStatement g]
  else if w == "do" then [doStatement g]
  else if w == "try" then [tryStatement g]
  else if w == "switch" then [switchStatement g]
  else if ["return", "throw", "break", "continue", "debugger"].contains w then [leaveStatement g]
  else [typedDeclaration g, labelled g]

/-- A statement. -/
def statement (g : Grammar) : Scan Node := do
  match ← Scan.charAt 0 with
  | none => Scan.fail
  | some c =>
    if c == '\x7b' then g.parse .block
    else if c == ';' then emptyStatement
    else if c == '@' then Scan.firstOf [exportStatement g, classStatement g]
    else if isWordStart c then
      Scan.firstOf (statementsFor g (← peekWord) ++ [expressionStatement g])
    else expressionStatement g

/-- Statements between braces. -/
def block (g : Grammar) : Scan Node := do
  let start ← Scan.position
  mark "\x7b"
  let body ← Scan.many (g.parse .statement)
  mark "\x7d"
  Scan.node .other start body

end Script

end RepoGraph
