import RepoGraph.Json.Basic

/-!
# Property graphs

The nodes of a `Graph` are keyed by a project and an entity id, its edges by their two ends and a
label; both carry attributes.  Nodes and edges keep the order in which they were first put, and no
key is used twice.

Main statements: `Graph.attributes?_putNode_self`, `Graph.attributes?_putNode_of_ne`,
`Graph.attributes?_remove`.
-/

namespace RepoGraph

/-- The key of a node. -/
structure NodeKey where
  project : String
  id : String
deriving DecidableEq, Repr

/-- A labelled edge with attributes. -/
structure Edge where
  source : NodeKey
  target : NodeKey
  label : String
  attributes : Fields

/-- The ends and the label of an edge. -/
def Edge.key (e : Edge) : NodeKey × NodeKey × String := (e.source, e.target, e.label)

/-- Whether an edge has the given ends and label. -/
def Edge.isAt (e : Edge) (source target : NodeKey) (label : String) : Bool :=
  e.source == source && e.target == target && e.label == label

/-- Whether one of an edge's ends is among some keys. -/
def Edge.touches (e : Edge) (keys : List NodeKey) : Bool :=
  keys.contains e.source || keys.contains e.target

theorem Edge.isAt_iff {e : Edge} {source target : NodeKey} {label : String} :
    e.isAt source target label = true ↔ e.key = (source, target, label) := by
  simp [isAt, key, and_assoc]

/-- Nodes with their attributes, and edges.  A key stands for one node or edge. -/
structure Graph where
  nodes : List (NodeKey × Fields)
  edges : List Edge
  nodup_nodes : (nodes.map Prod.fst).Nodup
  nodup_edges : (edges.map Edge.key).Nodup

namespace Graph

/-- The graph without nodes. -/
def empty : Graph := ⟨[], [], List.nodup_nil, List.nodup_nil⟩

instance : Inhabited Graph := ⟨empty⟩

/-! ### Nodes -/

/-- The attributes of a node in a list of nodes. -/
def lookup : List (NodeKey × Fields) → NodeKey → Option Fields
  | [], _ => none
  | (k, attributes) :: rest, key => if k = key then some attributes else lookup rest key

/-- The attributes of a node. -/
def attributes? (g : Graph) (key : NodeKey) : Option Fields := lookup g.nodes key

/-- Whether there is a node under a key. -/
def hasNode (g : Graph) (key : NodeKey) : Bool := (g.attributes? key).isSome

/-- Gives a node of a list attributes: those it has are updated in place; a new node comes last. -/
def putAttributes (key : NodeKey) (attributes : Fields) :
    List (NodeKey × Fields) → List (NodeKey × Fields)
  | [] => [(key, attributes)]
  | (k, old) :: rest =>
    if k = key then (k, old.update attributes) :: rest
    else (k, old) :: putAttributes key attributes rest

theorem nodup_snoc {α : Type} {xs : List α} {a : α} (h : xs.Nodup) (ha : a ∉ xs) :
    (xs ++ [a]).Nodup := by
  refine List.nodup_append.2 ⟨h, by simp, fun b hb c hc hbc => ha ?_⟩
  rw [← List.mem_singleton.1 hc, ← hbc]
  exact hb

theorem map_fst_putAttributes (key : NodeKey) (attributes : Fields)
    (nodes : List (NodeKey × Fields)) :
    (putAttributes key attributes nodes).map Prod.fst =
      if key ∈ nodes.map Prod.fst then nodes.map Prod.fst else nodes.map Prod.fst ++ [key] := by
  induction nodes with
  | nil => simp [putAttributes]
  | cons node rest ih =>
    obtain ⟨k, old⟩ := node
    by_cases h : k = key
    · simp [putAttributes, h]
    · have h' : ¬ key = k := fun e => h e.symm
      simp only [putAttributes, h, if_false, List.map_cons, ih, List.mem_cons, h', false_or]
      split <;> simp

/-- Putting a node keeps the keys distinct. -/
theorem nodup_putAttributes {nodes : List (NodeKey × Fields)} (h : (nodes.map Prod.fst).Nodup)
    (key : NodeKey) (attributes : Fields) :
    ((putAttributes key attributes nodes).map Prod.fst).Nodup := by
  rw [map_fst_putAttributes]
  split
  · exact h
  · rename_i hkey
    exact nodup_snoc h hkey

/-- Adds a node, or updates the attributes of the one that is there. -/
def putNode (g : Graph) (key : NodeKey) (attributes : Fields) : Graph :=
  { g with
    nodes := putAttributes key attributes g.nodes
    nodup_nodes := nodup_putAttributes g.nodup_nodes key attributes }

/-- Adds a node without attributes unless it is there. -/
def ensureNode (g : Graph) (key : NodeKey) : Graph := if g.hasNode key then g else g.putNode key []

@[simp]
theorem attributes?_putNode_self (g : Graph) (key : NodeKey) (attributes : Fields) :
    (g.putNode key attributes).attributes? key =
      some (match g.attributes? key with
        | some old => old.update attributes
        | none => attributes) := by
  simp only [putNode, attributes?]
  induction g.nodes with
  | nil => simp [putAttributes, lookup]
  | cons node rest ih =>
    obtain ⟨k, old⟩ := node
    by_cases h : k = key <;> simp [putAttributes, lookup, h, ih]

theorem attributes?_putNode_of_ne (g : Graph) {key other : NodeKey} (h : key ≠ other)
    (attributes : Fields) : (g.putNode key attributes).attributes? other = g.attributes? other := by
  simp only [putNode, attributes?]
  induction g.nodes with
  | nil => simp [putAttributes, lookup, h]
  | cons node rest ih =>
    obtain ⟨k, old⟩ := node
    by_cases hk : k = key
    · subst hk; simp [putAttributes, lookup, h]
    · by_cases ho : k = other
      · subst ho; simp [putAttributes, lookup, hk]
      · simp [putAttributes, lookup, hk, ho, ih]

/-! ### Edges -/

/-- The attributes of an edge. -/
def edge? (g : Graph) (source target : NodeKey) (label : String) : Option Fields :=
  (g.edges.find? fun e => e.isAt source target label).map Edge.attributes

/-- Gives an edge of a list attributes: those it has are updated in place; a new edge comes last. -/
def putEdgeAttributes (edge : Edge) : List Edge → List Edge
  | [] => [edge]
  | e :: rest =>
    if e.isAt edge.source edge.target edge.label then
      { e with attributes := e.attributes.update edge.attributes } :: rest
    else e :: putEdgeAttributes edge rest

theorem map_key_putEdgeAttributes (edge : Edge) (edges : List Edge) :
    (putEdgeAttributes edge edges).map Edge.key =
      if edge.key ∈ edges.map Edge.key then edges.map Edge.key
      else edges.map Edge.key ++ [edge.key] := by
  induction edges with
  | nil => simp [putEdgeAttributes]
  | cons e rest ih =>
    by_cases h : e.isAt edge.source edge.target edge.label = true
    · have hk : e.key = edge.key := Edge.isAt_iff.1 h
      simp only [putEdgeAttributes, h, if_true, List.map_cons, ← hk, List.mem_cons, true_or]
      rfl
    · have hk : ¬ edge.key = e.key := fun k => h (Edge.isAt_iff.2 k.symm)
      simp only [putEdgeAttributes, h, Bool.false_eq_true, if_false, List.map_cons, ih,
        List.mem_cons, hk, false_or]
      split <;> simp

/-- Putting an edge keeps the keys distinct. -/
theorem nodup_putEdgeAttributes {edges : List Edge} (h : (edges.map Edge.key).Nodup)
    (edge : Edge) : ((putEdgeAttributes edge edges).map Edge.key).Nodup := by
  rw [map_key_putEdgeAttributes]
  split
  · exact h
  · rename_i hkey
    exact nodup_snoc h hkey

/-- Adds an edge, or updates the attributes of the one that is there.  Ends that are missing become
nodes without attributes. -/
def putEdge (g : Graph) (edge : Edge) : Graph :=
  let g := (g.ensureNode edge.source).ensureNode edge.target
  { g with
    edges := putEdgeAttributes edge g.edges
    nodup_edges := nodup_putEdgeAttributes g.nodup_edges edge }

/-! ### Removal -/

/-- Removes nodes and every edge that touches one of them. -/
def remove (g : Graph) (keys : List NodeKey) : Graph :=
  ⟨g.nodes.filter fun node => !keys.contains node.1, g.edges.filter fun e => !e.touches keys,
    g.nodup_nodes.sublist (List.filter_sublist.map _),
    g.nodup_edges.sublist (List.filter_sublist.map _)⟩

theorem attributes?_remove (g : Graph) (keys : List NodeKey) (key : NodeKey) :
    (g.remove keys).attributes? key = if key ∈ keys then none else g.attributes? key := by
  simp only [remove, attributes?]
  induction g.nodes with
  | nil => simp [lookup]
  | cons node rest ih =>
    obtain ⟨k, old⟩ := node
    by_cases hk : k ∈ keys
    · by_cases hkey : k = key
      · subst hkey; simp_all
      · simp_all [lookup]
    · by_cases hkey : k = key
      · subst hkey; simp_all [lookup]
      · simp_all [lookup]

end Graph

end RepoGraph
