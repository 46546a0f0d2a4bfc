import RepoGraph.Script.Member

/-!
# Classes in scripts

A class has decorators, a name that may be missing, a heritage and a body of methods, fields and
static blocks.  Where types may be written there are clauses of implemented interfaces, signatures
without a body and index signatures as well.
-/

namespace RepoGraph

namespace Script

open Syntax

/-- The words before the members of a class. -/
def classModifiers : List String :=
  ["static", "get", "set", "accessor", "declare", "public", "private", "protected", "override",
    "abstract", "readonly"]

/-- A block of statements that runs once for the class. -/
def staticBlock (g : Grammar) : Scan Node := do
  let start ← Scan.position
  word "static"
  Scan.check (← seesMark "\x7b")
  let b ← g.parse .block
  Scan.node .other start [b]

/-- The type of the members under any name of a kind. -/
def indexSignature (g : Grammar) : Scan Node := do
  let start ← Scan.position
  g.whenTyped
  Scan.check (← Scan.sees (do
    mark "["
    let _ ← anyWord .other
    Scan.firstOf [mark ":", word "in"]))
  Typing.group
  Typing.typeMark g
  semicolon
  Scan.node .other start []

/-- A field after its name. -/
def fieldFrom (g : Grammar) (start : Nat) (before : List Node) (name : Node) : Scan Node := do
  Typing.optionalType g
  let value ← Scan.maybe (initialValue g)
  semicolon
  Scan.node .classField start (before ++ [name.inRole .name] ++ value.toList)

/-- A method or a field. -/
def namedMember (g : Grammar) : Scan Node := do
  let start ← Scan.position
  let decorators ← Scan.many (decorator g)
  let marks ← memberModifiers classModifiers true
  Scan.firstOf [
    indexSignature g,
    (do
      let name ← memberName g
      if g.typed then
        let _ ← Scan.maybe (anyMark ["?", "!"])
      if (← seesMark "(") || (g.typed && (← seesMark "<")) then do
        let m ← methodFrom g start (decorators ++ marks) name
        if m.kind != .method then semicolon
        return m
      else fieldFrom g start (decorators ++ marks) name)]

/-- A member of a class; a lone semicolon is none. -/
def classMember (g : Grammar) : Scan (List Node) := do
  if ← seesMark ";" then
    mark ";"
    return []
  else
    return [← Scan.firstOf [staticBlock g, namedMember g]]

/-- The members of a class. -/
def classBody (g : Grammar) : Scan Node := do
  let start ← Scan.position
  mark "\x7b"
  let members ← Scan.many (classMember g)
  mark "\x7d"
  Scan.node .body start members.flatten

/-- What a class extends. -/
def extended (g : Grammar) : Scan Node := do
  let e ← g.parse .leftHand
  if g.typed then
    let _ ← Scan.maybe (Typing.arguments g)
  return e

/-- The clause of what a class extends. -/
def extendsClause (g : Grammar) : Scan Node := do
  let start ← Scan.position
  word "extends"
  let bases ← Scan.separated (extended g) (mark ",")
  Scan.node .extendsClause start (bases.map (Node.inRole .value))

/-- The clause of what a class implements. -/
def implementsClause (g : Grammar) : Scan Node := do
  let start ← Scan.position
  word "implements"
  let _ ← Scan.separated (g.parse .type) (mark ",")
  Scan.node .implementsClause start []

/-- The heritage of a class, where one is written. -/
def heritage (g : Grammar) : Scan (List Node) := do
  let start ← Scan.position
  if g.typed then
    let base ← Scan.maybe (extendsClause g)
    let interfaces ← Scan.maybe (implementsClause g)
    let clauses := base.toList ++ interfaces.toList
    if clauses.isEmpty then return []
    else return [← Scan.node .classHeritage start clauses]
  else
    let bases ← Scan.maybe (do
      word "extends"
      Scan.separated (extended g) (mark ","))
    match bases with
    | none => return []
    | some bs => return [← Scan.node .classHeritage start bs]

/-- The name of a class. -/
def className : Scan Node := do
  let w ← peekWord
  Scan.check (w != "extends" && w != "implements")
  anyWord .identifier

/-- A class, declared or as a value, after its decorators. -/
def classFrom (g : Grammar) (start : Nat) (decorators : List Node) (declares : Bool) :
    Scan Node := do
  if g.typed then
    let _ ← Scan.maybe (do
      word "abstract"
      Scan.check (← seesWord "class"))
  word "class"
  let name ← Scan.maybe className
  Typing.optionalParameters g
  let parts ← heritage g
  let body ← classBody g
  let kind := if declares && name.isSome then Kind.classDefinition else .other
  Scan.node kind start
    (decorators ++ (name.map (Node.inRole .name)).toList ++ parts ++ [body.inRole .body])

/-- A class, declared or as a value. -/
def classConstruct (g : Grammar) (declares : Bool) : Scan Node := do
  let start ← Scan.position
  let decorators ← Scan.many (decorator g)
  classFrom g start decorators declares

end Script

end RepoGraph
