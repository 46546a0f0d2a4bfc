import RepoGraph.Script.Goal

/-!
# Markup in scripts

Elements with attributes and children.  Between tags stands bare text, in which nothing is skipped
and nothing is a comment; expressions stand between braces.
-/

namespace RepoGraph

namespace Script

namespace Markup

open Syntax

/-- The characters of a tag's or an attribute's name. -/
def isNameChar (c : Char) : Bool := isWordChar c || c == '-' || c == '.' || c == ':'

/-- The name of a tag or an attribute. -/
def name : Scan Unit := do
  let n ← Scan.runLength isNameChar
  Scan.check (0 < n)
  pass n

/-- The closing brace of an expression inside text. -/
def closeBrace : Scan Unit := do
  Scan.check (← Scan.startsWith "\x7d")
  Scan.advance 1

/-- An expression between braces, empty or spread, up to its closing brace. -/
def container (g : Grammar) : Scan Node := do
  let start ← Scan.position
  mark "\x7b"
  let _ ← Scan.maybe (mark "...")
  let e ← Scan.maybe g.sequence
  closeBrace
  Scan.node .other start e.toList

/-- A text in quotes, without escapes. -/
def attributeText : Scan Node := do
  let start ← Scan.position
  match ← Scan.charAt 0 with
  | none => Scan.fail
  | some q =>
    Scan.check (q == '"' || q == '\'')
    Scan.advance 1
    let n ← Scan.runLength (· != q)
    Scan.advance (n + 1)
    Scan.node .string start []

/-- The value of an attribute. -/
def attributeValue (g : Grammar) : Scan Node := do
  let v ← Scan.firstOf [attributeText, container g, g.parse .element]
  skip
  return v

/-- An attribute, or attributes spread from a value. -/
def tagAttribute (g : Grammar) : Scan Node := do
  let start ← Scan.position
  if ← seesMark "\x7b" then
    let e ← container g
    skip
    return e
  else
    name
    let value ← Scan.maybe (do
      mark "="
      attributeValue g)
    Scan.node .other start value.toList

/-- A piece of an element's content: an expression, an element, or nothing but text. -/
def child (g : Grammar) : Scan (List Node) := do
  if ← seesMark "\x7b" then
    return [← container g]
  else if ← seesMark "<" then
    Scan.check (!(← Scan.sees (do
      mark "<"
      mark "/")))
    return [← g.parse .element]
  else
    let n ← Scan.runLength fun c => c != '<' && c != '\x7b'
    Scan.check (0 < n)
    Scan.advance n
    return []

/-- The end tag of an element; nothing is skipped after it. -/
def endTag : Scan Unit := do
  mark "<"
  mark "/"
  let _ ← Scan.maybe name
  Scan.check (← Scan.startsWith ">")
  Scan.advance 1

/-- An element or a fragment; nothing is skipped after it. -/
def element (g : Grammar) : Scan Node := do
  let start ← Scan.position
  mark "<"
  let _ ← Scan.maybe name
  if g.typed then
    let _ ← Scan.maybe (do
      mark "<"
      let _ ← Scan.separated (g.parse .type) (mark ",")
      mark ">")
  let attributes ← Scan.many (tagAttribute g)
  if ← seesMark "/" then
    mark "/"
    Scan.check (← Scan.startsWith ">")
    Scan.advance 1
    Scan.node .other start attributes
  else
    Scan.check (← Scan.startsWith ">")
    Scan.advance 1
    let children ← Scan.many (child g)
    endTag
    Scan.node .other start (attributes ++ children.flatten)

end Markup

end Script

end RepoGraph
