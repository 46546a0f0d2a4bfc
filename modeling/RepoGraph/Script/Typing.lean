import RepoGraph.Script.Goal

/-!
# Types in scripts

Types mean nothing for the graph: they are read to find where they end, and leave no nodes.  Object
types, tuples and the parameters of function types are passed over by their brackets.
-/

namespace RepoGraph

namespace Script

namespace Typing

open Syntax

/-! ### Groups in brackets -/

/-- The closing backtick of a literal type. -/
def templateEnd (chars : Array Char) : Nat → Nat → Nat
  | 0, k => k
  | n + 1, k =>
    match chars[k]? with
    | none => k
    | some '\\' => templateEnd chars n (k + 2)
    | some c => if c == '\x60' then k + 1 else templateEnd chars n (k + 1)

/-- A literal type between backticks. -/
def templateType : Scan Unit := do
  Scan.check (← Scan.startsWith "\x60")
  let n : Nat ← fun c => some (templateEnd c.chars c.chars.size (c.pos + 1) - c.pos, c)
  pass n

/-- One token inside brackets; the number of open brackets goes with it. -/
def groupToken (depth : Nat) : Scan Nat := do
  Scan.check (0 < depth)
  match ← Scan.charAt 0 with
  | none => Scan.fail
  | some c =>
    if c == '(' || c == '[' || c == '\x7b' then do
      pass 1
      return depth + 1
    else if c == ')' || c == ']' || c == '\x7d' then do
      pass 1
      return depth - 1
    else if c == '"' || c == '\'' then do
      let _ ← string
      return depth
    else if c == '\x60' then do
      templateType
      return depth
    else if isWordStart c then do
      pass (← wordLengthHere)
      return depth
    else do
      pass 1
      return depth

/-- A group between brackets, whatever it holds. -/
def group : Scan Unit := do
  match ← Scan.charAt 0 with
  | none => Scan.fail
  | some c =>
    Scan.check (c == '(' || c == '[' || c == '\x7b')
    pass 1
    let depth ← Scan.iterate groupToken 1
    Scan.check (depth == 0)

/-! ### Types -/

/-- The words that stand before a type. -/
def typeOperators : List String := ["keyof", "unique", "readonly", "infer", "asserts"]

/-- Type arguments. -/
def arguments (g : Grammar) : Scan Unit := do
  mark "<"
  let _ ← Scan.separated (g.parse .type) (mark ",")
  mark ">"

/-- One type parameter. -/
def parameter (g : Grammar) : Scan Unit := do
  let _ ← Scan.many (do
    let _ ← wordOf ["const", "in", "out"]
    Scan.check (0 < (← wordLengthHere) && !(← seesWord "extends")))
  let _ ← anyWord .other
  let _ ← Scan.maybe (do
    word "extends"
    g.parse .type)
  let _ ← Scan.maybe (do
    mark "="
    g.parse .type)

/-- Type parameters. -/
def parameters (g : Grammar) : Scan Unit := do
  mark "<"
  let _ ← Scan.separated (parameter g) (mark ",")
  mark ">"

/-- What follows the parameters of a function type. -/
def functionResult (g : Grammar) : Scan Unit := do
  mark "=>"
  let _ ← g.parse .type

/-- A function type after the words before it. -/
def functionType (g : Grammar) : Scan Unit := do
  let _ ← Scan.maybe (parameters g)
  group
  functionResult g

/-- A name with the names it is qualified by, and type arguments. -/
def qualifiedName (g : Grammar) : Scan Unit := do
  let _ ← anyWord .other
  let _ ← Scan.many (do
    let _ ← Scan.maybe (mark "?")
    mark "."
    let _ ← Scan.maybe (mark "#")
    let _ ← anyWord .other)
  let _ ← Scan.maybe (arguments g)

/-- The module of an imported type, and its name. -/
def importedType (g : Grammar) : Scan Unit := do
  word "import"
  group
  let _ ← Scan.many (do
    mark "."
    let _ ← anyWord .other)
  let _ ← Scan.maybe (arguments g)

/-- A type without operators. -/
def primary (g : Grammar) : Scan Unit := do
  let c ← Scan.charAt 0
  if c == some '(' then do
    group
    let _ ← Scan.maybe (functionResult g)
  else if c == some '[' || c == some '\x7b' then group
  else if c == some '\x60' then templateType
  else if c == some '<' then functionType g
  else if c == some '"' || c == some '\'' then do
    let _ ← string
  else
    Scan.firstOf [
      (do let _ ← number),
      (do
        mark "-"
        let _ ← number),
      (do
        let _ ← Scan.maybe (word "abstract")
        word "new"
        functionType g),
      importedType g,
      (do
        word "typeof"
        Scan.firstOf [importedType g, qualifiedName g]),
      qualifiedName g]

/-- A type with the words before it and the brackets after it. -/
def operand (g : Grammar) : Scan Unit := do
  let _ ← Scan.many (do
    let _ ← wordOf typeOperators
    let c ← Scan.charAt 0
    Scan.check (!(← Scan.newlineBefore) && c.any fun x =>
      isWordStart x || ['(', '[', '\x7b', '"', '\'', '\x60'].contains x))
  primary g
  let _ ← Scan.many (do
    Scan.check (!(← Scan.newlineBefore) && (← seesMark "["))
    group)
  let _ ← Scan.maybe (do
    Scan.check (!(← Scan.newlineBefore))
    word "is"
    g.parse .type)

/-- A type. -/
def type (g : Grammar) : Scan Unit := do
  let _ ← Scan.maybe (anyMark ["|", "&"])
  operand g
  let _ ← Scan.many (do
    anyMark ["|", "&"]
    operand g)
  let _ ← Scan.maybe (do
    Scan.check (!(← Scan.newlineBefore))
    word "extends"
    let _ ← g.parse .type
    mark "?"
    let _ ← g.parse .type
    mark ":"
    g.parse .type)

/-- A type after a colon. -/
def typeMark (g : Grammar) : Scan Unit := do
  mark ":"
  let _ ← g.parse .type

/-- A type after a colon, where one is written. -/
def optionalType (g : Grammar) : Scan Unit := do
  if g.typed then
    let _ ← Scan.maybe (typeMark g)

/-- Type parameters, where they are written. -/
def optionalParameters (g : Grammar) : Scan Unit := do
  if g.typed then
    let _ ← Scan.maybe (parameters g)

end Typing

end Script

end RepoGraph
