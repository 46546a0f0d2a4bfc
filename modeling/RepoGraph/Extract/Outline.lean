import RepoGraph.Extract.Declaration

/-!
# Indented sources

What the nodes of an indented source's tree mean for the graph.  A function that stands directly in
the body of a class is a method: it is listed with its class and is no entity of its own.  The walk
knows methods by their stretches of source, which a class announces before its body is reached.
-/

namespace RepoGraph

namespace Extract

namespace Outline

open Syntax (File Node Span)

/-- What has been found, and the stretches of the methods announced so far. -/
structure State where
  found : Findings
  methodSpans : List Span

/-- The parameters that stand for the object or the class. -/
def receivers : List String := ["self", "cls"]

/-- The name of a parameter; separators and patterns have none. -/
def parameterName (file : File) (n : Node) : Option String :=
  match n.kind with
  | .identifier => some (file.nodeText n)
  | .defaultParameter => (n.child? .name).map file.nodeText
  | .annotatedParameter | .spreadParameter =>
    (n.namedChildren.find? fun c => c.kind == .identifier).map file.nodeText
  | _ => none

/-- The names of the parameters of a function, receivers left out. -/
def parameterNames (file : File) (n : Node) : List String :=
  match n.child? .parameters with
  | some ps =>
    (ps.constructs.filterMap (parameterName file)).filter fun name =>
      name != "" && !receivers.contains name
  | none => []

/-- The name of an imported module or thing, its alias left out. -/
def importedName (file : File) (n : Node) : String :=
  if n.kind == .aliasedImport then ((n.child? .name).map file.nodeText).getD ""
  else file.nodeText n

/-- The definition that a statement makes, decorated or not. -/
def definitionOf (stmt : Node) : Option Node :=
  if stmt.kind == .decoratedDefinition then stmt.child? .definition else some stmt

/-- The function that a statement of a class body defines. -/
def methodOf (stmt : Node) : Option Node :=
  (definitionOf stmt).filter fun d => d.kind == .functionDefinition

/-- The name that a statement of a class body assigns. -/
def attributeOf (file : File) (stmt : Node) : Option String :=
  if stmt.kind != .expressionStatement then none
  else
    match stmt.namedChildren.head? with
    | none => none
    | some expr =>
      if expr.kind != .assignment then none
      else (expr.child? .left).bind fun left =>
        if left.kind == .identifier then some (file.nodeText left) else none

/-- The statements of a class body. -/
def bodyOf (n : Node) : List Node :=
  match n.child? .body with
  | some body => body.namedChildren
  | none => []

/-- The first base of a class, when it is a plain name. -/
def superclass (file : File) (n : Node) : Option String :=
  ((n.child? .superclasses).bind fun bases => bases.constructs.head?).bind fun first =>
    if first.kind == .identifier then some (file.nodeText first) else none

/-- Adds a class and announces its methods, when it has a name. -/
def visitClass (file : File) (n : Node) (s : State) : State :=
  match n.child? .name with
  | none => s
  | some name =>
    let methods := (bodyOf n).filterMap methodOf
    let names := methods.map fun m => ((m.child? .name).map file.nodeText).getD ""
    let attributes := ((bodyOf n).filter fun stmt => (methodOf stmt).isNone).filterMap
      (attributeOf file)
    ⟨addClass file n (file.nodeText name) names attributes (superclass file n) s.found,
      s.methodSpans ++ methods.map Node.span⟩

/-- Adds a function that is no method, when it has a name. -/
def visitFunction (file : File) (n : Node) (s : State) : State :=
  if s.methodSpans.contains n.span then s
  else
    match n.child? .name with
    | none => s
    | some name =>
      { s with found := addFunction file n (file.nodeText name) (parameterNames file n) s.found }

/-- Adds the imports of whole modules. -/
def visitImport (file : File) (n : Node) (s : State) : State :=
  { s with found := (n.childrenIn .name).foldl (fun found child =>
      addImport file (importedName file child) ["namespace"] found) s.found }

/-- Adds the import of things from a module. -/
def visitImportFrom (file : File) (n : Node) (s : State) : State :=
  match n.child? .moduleName with
  | none => s
  | some module =>
    let names := (n.childrenIn .name).map (importedName file)
    let star := if n.namedChildren.any fun c => c.kind == .wildcardImport then ["*"] else []
    { s with found := addImport file (file.nodeText module) (names ++ star) s.found }

/-- Adds the event of a call of a method. -/
def visitCall (file : File) (n : Node) (s : State) : State :=
  match n.child? .function with
  | some callee =>
    if callee.kind == .memberAccess then
      let method := ((callee.child? .property).map file.nodeText).getD ""
      { s with found := addEvent file method (n.child? .arguments) s.found }
    else s
  | none => s

/-- What a node adds to the findings. -/
def visit (file : File) (s : State) (n : Node) : State :=
  match n.kind with
  | .importStatement => visitImport file n s
  | .importFrom => visitImportFrom file n s
  | .classDefinition => visitClass file n s
  | .functionDefinition => visitFunction file n s
  | .call => visitCall file n s
  | _ => s

/-- What an indented source's tree yields, walked with a node before its children. -/
def walk (file : File) (root : Node) (found : Findings) : Findings :=
  (Node.worklist (visit file) ⟨found, []⟩ root).found

end Outline

end Extract

end RepoGraph
