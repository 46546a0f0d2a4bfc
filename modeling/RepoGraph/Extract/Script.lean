import RepoGraph.Extract.Declaration

/-!
# Scripts

What the nodes of a script's tree mean for the graph: imports with the names they take, classes with
their members and their plain superclass, functions with their parameters, calls of event methods.
-/

namespace RepoGraph

namespace Extract

namespace Script

open Syntax (File Node)

/-- The word for a name that is not a plain one. -/
def unknown : String := "unknown"

/-- The name of a node when it is an identifier. -/
def identifierText (file : File) (n : Node) : Option String :=
  if n.kind == .identifier then some (file.nodeText n) else none

/-- The name of a parameter. -/
def parameterName (file : File) (n : Node) : String :=
  let inner := match n.kind with
    | .identifier => some n
    | .parameter => n.child? .pattern
    | .defaultParameter => n.child? .left
    | _ => none
  (inner.bind (identifierText file)).getD unknown

/-- The names of the parameters of a function. -/
def parameterNames (file : File) (n : Node) : List String :=
  match n.child? .parameters with
  | some ps => ps.constructs.map (parameterName file)
  | none => []

/-- The name of a member of a class. -/
def memberNameText (file : File) (key : Option Node) : String :=
  match key with
  | some k =>
    if k.kind == .memberName || k.kind == .identifier then file.nodeText k else unknown
  | none => unknown

/-- The members of a class body of one kind, by name. -/
def memberNames (file : File) (kind : Syntax.Kind) (body : Node) : List String :=
  (body.namedChildren.filter fun m => m.kind == kind).map fun m =>
    memberNameText file (m.child? .name)

/-- The superclass among the parts of a heritage clause: the first part decides, clauses of
implemented interfaces aside. -/
def heritageName (file : File) : List Node → Option String
  | [] => none
  | part :: rest =>
    if part.kind == .implementsClause then heritageName file rest
    else
      let target := if part.kind == .extendsClause then part.child? .value else some part
      target.bind (identifierText file)

/-- The superclass of a class, when it is named by a plain identifier. -/
def superclass (file : File) (n : Node) : Option String :=
  (n.children.find? fun c => c.kind == .classHeritage).bind fun h =>
    heritageName file h.namedChildren

/-- The names a part of an import clause takes. -/
def clauseNames (file : File) (part : Node) : List String :=
  match part.kind with
  | .identifier => ["default"]
  | .namespaceImport => ["namespace"]
  | .namedImports =>
    (part.namedChildren.filter fun s => s.kind == .importSpecifier).map fun s =>
      match s.child? .name with
      | some name => file.nodeText name
      | none => "namespace"
  | _ => []

/-- The names an import statement takes. -/
def importedNames (file : File) (n : Node) : List String :=
  (n.namedChildren.filter fun c => c.kind == .importClause).flatMap fun clause =>
    clause.namedChildren.flatMap (clauseNames file)

/-- Adds an import, when its source is a literal. -/
def visitImport (file : File) (n : Node) (found : Findings) : Findings :=
  match (n.child? .source).bind (stringValue file) with
  | some module => addImport file module (importedNames file n) found
  | none => found

/-- Adds a class, when it has a name. -/
def visitClass (file : File) (n : Node) (found : Findings) : Findings :=
  match n.child? .name with
  | none => found
  | some name =>
    let members (kind : Syntax.Kind) : List String :=
      match n.child? .body with
      | some body => memberNames file kind body
      | none => []
    addClass file n (file.nodeText name) (members .method) (members .classField)
      (superclass file n) found

/-- Adds a function, when it has a name. -/
def visitFunction (file : File) (n : Node) (found : Findings) : Findings :=
  match n.child? .name with
  | none => found
  | some name => addFunction file n (file.nodeText name) (parameterNames file n) found

/-- Adds the event of a call of a method. -/
def visitCall (file : File) (n : Node) (found : Findings) : Findings :=
  match n.child? .function with
  | some callee =>
    if callee.kind == .memberAccess then
      match callee.child? .property with
      | some property =>
        if property.kind == .memberName then
          addEvent file (file.nodeText property) (n.child? .arguments) found
        else found
      | none => found
    else found
  | none => found

/-- What a node adds to the findings. -/
def visit (file : File) (found : Findings) (n : Node) : Findings :=
  match n.kind with
  | .importStatement => visitImport file n found
  | .classDefinition => visitClass file n found
  | .functionDefinition => visitFunction file n found
  | .call => visitCall file n found
  | _ => found

/-- What a script's tree yields, walked with a node before its children. -/
def walk (file : File) (root : Node) (found : Findings) : Findings :=
  Node.worklist (visit file) found root

end Script

end Extract

end RepoGraph
