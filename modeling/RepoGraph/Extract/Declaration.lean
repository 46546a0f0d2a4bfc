import RepoGraph.Entity
import RepoGraph.Extract.Findings
import RepoGraph.Syntax.File
import RepoGraph.Text.Blank

/-!
# Declarations and events

A class or function becomes an entity with its source, without blanks around it and cut at eight
hundred characters, and an edge from its file.  A call of a method named `on` or `emit` with a
literal as its first argument becomes an edge to an event.

The value of a string literal is what stands between its quotes, escapes untouched.  Letters before
the quotes mark kinds of literals; a literal that is marked as interpolated has no value.
-/

namespace RepoGraph

namespace Extract

open Syntax (File Node Span)

/-! ### Literals -/

/-- The letters that may mark a literal, interpolation aside. -/
def isLiteralMark (c : Char) : Bool :=
  c == 'r' || c == 'R' || c == 'b' || c == 'B' || c == 'u' || c == 'U'

/-- The quotes of literals, longest first. -/
def quoteMarks : List (List Char) :=
  [['"', '"', '"'], ['\'', '\'', '\''], ['"'], ['\'']]

/-- What stands between a quote at the front and the same quote at the end. -/
def between (quote cs : List Char) : Option (List Char) :=
  if quote.isPrefixOf cs && quote.isSuffixOf cs && 2 * quote.length ≤ cs.length then
    some ((cs.drop quote.length).take (cs.length - 2 * quote.length))
  else none

/-- The value of a literal's source. -/
def literalValue (cs : List Char) : Option String :=
  let body := cs.dropWhile isLiteralMark
  match body with
  | 'f' :: _ => none
  | 'F' :: _ => none
  | _ => (quoteMarks.findSome? fun quote => between quote body).map String.ofList

/-- The value of a node that is a string literal. -/
def stringValue (file : Syntax.File) (n : Syntax.Node) : Option String :=
  if n.kind == .string then literalValue (file.slice n.span) else none

/-! ### Declarations -/

/-- The longest snippet, in characters. -/
def snippetLimit : Nat := 800

/-- The source of a stretch as a snippet. -/
def snippet (file : File) (span : Span) : String :=
  let cs := Text.trimChars Text.isBlank (file.slice span)
  if cs.length ≤ snippetLimit then String.ofList cs
  else String.ofList (cs.take snippetLimit) ++ "\n..."

/-- Where a node begins. -/
def locationOf (file : File) (n : Node) : Location :=
  let (row, column) := file.position n.span.start
  ⟨file.path, row + 1, column⟩

/-- Whether a function is marked as asynchronous. -/
def isAsync (n : Node) : Bool := n.children.any fun c => c.kind == .asyncMark

/-- A list of names as a value. -/
def nameList (names : List String) : Json := .arr (names.map .str)

/-- Adds an entity of a file and the edge that defines it. -/
def define (file : File) (n : Node) (id kind name : String) (metadata : Fields)
    (found : Findings) : Findings :=
  (found.addEntity ⟨id, kind, name, file.path, some (snippet file n.span), metadata,
    some (locationOf file n)⟩).relate (Entity.fileId file.path) Relationship.defines id []

/-- Adds a class with its members and its superclass. -/
def addClass (file : File) (n : Node) (name : String) (methods properties : List String)
    (superclass : Option String) (found : Findings) : Findings :=
  let id := Entity.classId file.path name
  let found := define file n id Entity.classKind name
    [("methods", nameList methods), ("properties", nameList properties)] found
  match superclass with
  | some base =>
    if base == "" then found
    else found.relate id Relationship.extendsType ("class:" ++ base) []
  | none => found

/-- Adds a function with its parameters. -/
def addFunction (file : File) (n : Node) (name : String) (params : List String)
    (found : Findings) : Findings :=
  define file n (Entity.functionId file.path name) Entity.functionKind name
    [("params", nameList params), ("async", .bool (isAsync n))] found

/-- Adds an import of a module. -/
def addImport (file : File) (module : String) (specifiers : List String) (found : Findings) :
    Findings :=
  found.relate (Entity.fileId file.path) Relationship.imports ("module:" ++ module)
    [("specifiers", nameList specifiers)]

/-- The edge type that a method's name stands for. -/
def eventType? (method : String) : Option String :=
  if method == "on" then some Relationship.subscribesTo
  else if method == "emit" then some Relationship.emits
  else none

/-- Adds the event that a call of a method subscribes to or raises. -/
def addEvent (file : File) (method : String) (arguments : Option Node) (found : Findings) :
    Findings :=
  match eventType? method, arguments.bind fun a => a.constructs.head? with
  | some type, some first =>
    match stringValue file first with
    | some event => found.relate (Entity.fileId file.path) type ("event:" ++ event) []
    | none => found
  | _, _ => found

end Extract

end RepoGraph
