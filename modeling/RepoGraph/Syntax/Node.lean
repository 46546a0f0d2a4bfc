/-!
# Syntax trees

A syntax tree tells apart the constructs that the graph is built from; every other construct is of
kind `other` and only carries its children.  A node knows the stretch of source it covers and the
role it plays in its parent.  Unnamed tokens appear only where they carry information.

`preorder` lists a node before its children and children from left to right.  `worklist` visits the
same nodes without recursion: a `Walk` keeps a stack of the nodes that are still to be visited, and
a step of it visits the node on top and puts the node's children on the stack, the first one on top.

Comments are found while tokens are read and belong to no rule of a grammar.  `Comment.insertAll`
puts each into the innermost node that reaches over it on both sides, between that node's children.

Main statement: `worklist_eq_preorder`.
-/

namespace RepoGraph

namespace Syntax

/-- The constructs that are told apart. -/
inductive Kind where
  | comment
  | identifier
  | memberName
  | string
  | importStatement
  | importFrom
  | importClause
  | namespaceImport
  | namedImports
  | importSpecifier
  | aliasedImport
  | wildcardImport
  | classDefinition
  | classHeritage
  | extendsClause
  | implementsClause
  | body
  | method
  | classField
  | functionDefinition
  | decoratedDefinition
  | parameters
  | parameter
  | defaultParameter
  | annotatedParameter
  | spreadParameter
  | expressionStatement
  | assignment
  | call
  | memberAccess
  | arguments
  | asyncMark
  | other
deriving DecidableEq, Repr, Inhabited

/-- The role of a node in its parent. -/
inductive Role where
  | name
  | parameters
  | body
  | source
  | superclasses
  | function
  | arguments
  | property
  | pattern
  | left
  | value
  | definition
  | moduleName
deriving DecidableEq, Repr

/-- A stretch of source, by character offsets: its first character and the one after its last. -/
structure Span where
  start : Nat
  stop : Nat
deriving DecidableEq, Repr, Inhabited

/-- A construct of a source file. -/
structure Node where
  kind : Kind
  role : Option Role
  span : Span
  children : List Node
deriving Inhabited

namespace Node

/-- A construct without a role. -/
def make (kind : Kind) (span : Span) (children : List Node) : Node := ⟨kind, none, span, children⟩

/-- The node in a role. -/
def inRole (role : Role) (n : Node) : Node := { n with role := some role }

/-- Whether the node is a token without a name. -/
def isUnnamed (n : Node) : Bool := n.kind == .asyncMark

/-- The first child in a role. -/
def child? (n : Node) (role : Role) : Option Node :=
  n.children.find? fun c => c.role == some role

/-- The children in a role. -/
def childrenIn (n : Node) (role : Role) : List Node :=
  n.children.filter fun c => c.role == some role

/-- The children that are constructs, comments included. -/
def namedChildren (n : Node) : List Node := n.children.filter fun c => !c.isUnnamed

/-- The children that are constructs, without comments. -/
def constructs (n : Node) : List Node := n.namedChildren.filter fun c => c.kind != .comment

/-! ### Walking -/

mutual

/-- A node and all nodes below it, a node before its children. -/
def preorder : Node → List Node
  | ⟨kind, role, span, children⟩ => ⟨kind, role, span, children⟩ :: preorderList children

/-- The nodes of several trees, in order. -/
def preorderList : List Node → List Node
  | [] => []
  | n :: rest => preorder n ++ preorderList rest

end

mutual

/-- The number of nodes of a tree. -/
def size : Node → Nat
  | ⟨_, _, _, children⟩ => sizeList children + 1

/-- The number of nodes of several trees. -/
def sizeList : List Node → Nat
  | [] => 0
  | n :: rest => size n + sizeList rest

end

theorem size_eq (n : Node) : n.size = sizeList n.children + 1 := by
  cases n
  rfl

theorem sizeList_append (xs ys : List Node) :
    sizeList (xs ++ ys) = sizeList xs + sizeList ys := by
  induction xs with
  | nil => simp [sizeList]
  | cons x xs ih => simp [sizeList, ih]; omega

theorem preorder_eq_cons (n : Node) : n.preorder = n :: preorderList n.children := by
  cases n
  rfl

theorem preorderList_append (xs ys : List Node) :
    preorderList (xs ++ ys) = preorderList xs ++ preorderList ys := by
  induction xs with
  | nil => rfl
  | cons x xs ih => simp [preorderList, ih]

end Node

/-- A walk under way: what has been made of the nodes visited so far, and the stack of those that
are to be visited next, its top at the end. -/
structure Walk (σ : Type) where
  state : σ
  stack : Array Node

namespace Walk

variable {σ : Type} {visit : σ → Node → σ} {w next : Walk σ}

/-- Takes the node on top of the stack, visits it and puts its children on the stack, the last one
first.  There is no step from an empty stack. -/
def step? (visit : σ → Node → σ) (w : Walk σ) : Option (Walk σ) :=
  match w.stack.back? with
  | some n => some ⟨visit w.state n, w.stack.pop ++ n.children.reverse⟩
  | none => none

/-- The trees on the stack, the one on top first. -/
def waiting (w : Walk σ) : List Node := w.stack.toList.reverse

/-- A step takes the first of the trees that wait, and its children wait in its place. -/
theorem waiting_of_step? (h : w.step? visit = some next) :
    ∃ n rest, w.waiting = n :: rest ∧ next.waiting = n.children ++ rest ∧
      next.state = visit w.state n := by
  unfold step? at h
  split at h
  · rename_i n htop
    cases h
    rw [← Array.getLast?_toList] at htop
    obtain ⟨below, hstack⟩ := List.getLast?_eq_some_iff.1 htop
    exact ⟨n, below.reverse, by simp [waiting, hstack], by simp [waiting, hstack], rfl⟩
  · cases h

/-- There is no step only if nothing waits. -/
theorem waiting_of_step?_eq_none (h : w.step? visit = none) : w.waiting = [] := by
  unfold step? at h
  split at h
  · cases h
  · rename_i htop
    simpa [waiting] using htop

theorem size_of_step? (h : w.step? visit = some next) :
    Node.sizeList next.waiting < Node.sizeList w.waiting := by
  obtain ⟨n, rest, hwaiting, hnext, -⟩ := waiting_of_step? h
  rw [hwaiting, hnext, Node.sizeList, Node.size_eq, Node.sizeList_append]
  omega

/-- Goes on until nothing waits. -/
def run (visit : σ → Node → σ) (w : Walk σ) : σ :=
  match _h : w.step? visit with
  | some next => next.run visit
  | none => w.state
termination_by Node.sizeList w.waiting
decreasing_by exact size_of_step? _h

theorem run_of_step? (h : w.step? visit = some next) : w.run visit = next.run visit := by
  rw [run.eq_def]
  split
  · rename_i other hother
    rw [Option.some.inj (h.symm.trans hother)]
  · rename_i hnone
    exact absurd (h.symm.trans hnone) (Option.some_ne_none _)

theorem run_of_step?_eq_none (h : w.step? visit = none) : w.run visit = w.state := by
  rw [run.eq_def]
  split
  · rename_i other hother
    exact absurd (hother.symm.trans h) (Option.some_ne_none _)
  · rfl

/-- A walk visits exactly the nodes of the trees that wait, each once and in order. -/
theorem run_eq_foldl (visit : σ → Node → σ) (w : Walk σ) :
    w.run visit = (Node.preorderList w.waiting).foldl visit w.state := by
  induction w using run.induct visit with
  | case1 w next h ih =>
    obtain ⟨n, rest, hwaiting, hnext, hstate⟩ := waiting_of_step? h
    rw [run_of_step? h, ih, hwaiting, hnext, hstate, Node.preorderList_append, Node.preorderList,
      Node.preorder_eq_cons, List.cons_append, List.foldl_cons]
  | case2 w h =>
    rw [run_of_step?_eq_none h, waiting_of_step?_eq_none h, Node.preorderList, List.foldl_nil]

end Walk

namespace Node

/-- What a visitor makes of a tree that is walked with a stack, from its root on. -/
def worklist {σ : Type} (visit : σ → Node → σ) (state : σ) (root : Node) : σ :=
  Walk.run visit ⟨state, #[root]⟩

/-- Visiting a tree with a stack is folding over its nodes, a node before its children. -/
theorem worklist_eq_preorder {σ : Type} (visit : σ → Node → σ) (state : σ) (root : Node) :
    worklist visit state root = (preorder root).foldl visit state := by
  rw [worklist, Walk.run_eq_foldl, Walk.waiting]
  simp [preorderList]

end Node

/-! ### Comments -/

namespace Comment

/-- The node of a comment. -/
def node (span : Span) : Node := Node.make .comment span []

/-- Whether a node reaches over a stretch on both sides. -/
def reachesOver (n : Node) (span : Span) : Bool :=
  n.span.start < span.start && span.stop < n.span.stop

mutual

/-- Puts a comment below a node. -/
def insert (span : Span) : Node → Node
  | ⟨kind, role, range, children⟩ => ⟨kind, role, range, insertAmong span children⟩

/-- Puts a comment into the node among these that reaches over it, or else before the first that
begins after it. -/
def insertAmong (span : Span) : List Node → List Node
  | [] => [node span]
  | n :: rest =>
    if reachesOver n span then insert span n :: rest
    else if span.start < n.span.start then node span :: n :: rest
    else n :: insertAmong span rest

end

/-- Puts comments below a root. -/
def insertAll (spans : List Span) (root : Node) : Node :=
  spans.foldl (fun n span => insert span n) root

end Comment

end Syntax

end RepoGraph
