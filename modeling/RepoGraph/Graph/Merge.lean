import RepoGraph.Entity
import RepoGraph.Graph.Basic
import RepoGraph.Json.Printer
import RepoGraph.Relationship

/-!
# Merging a project into a graph

One graph holds several projects.  Merging an entity puts a node under the project and the entity's
id; merging a relationship puts an edge if both of its ends are nodes of the project.  The stale
nodes of a project are those whose entity is not among the current ones, inside the paths that are
looked at.
-/

namespace RepoGraph

/-! ### What a node says -/

/-- The properties of an entity's node: the metadata are one JSON text, and what is not known about
the entity is null, the patterns excepted, of which there are none. -/
def Enriched.properties (e : Enriched) : Fields :=
  [("id", .str e.entity.id), ("type", .str e.entity.kind), ("name", .str e.entity.name),
    ("path", .str e.entity.path),
    ("semanticDescription", Json.ofOption e.enrichment.description),
    ("purpose", Json.ofOption e.enrichment.purpose),
    ("patterns", .arr ((e.enrichment.patterns.getD []).map .str)),
    ("architecturalRole", Json.ofOption e.enrichment.role),
    ("complexity", e.enrichment.complexity.elim .null .int),
    ("metadata", .str (Json.obj e.entity.metadata).compact)]

/-- The properties of a relationship as one JSON text. -/
def Relationship.propertiesText (r : Relationship) : String := (Json.obj r.properties).compact

namespace Graph

variable (stamp project : String)

/-- The attributes of an entity's node: its properties, the project and when it was merged. -/
def nodeAttributes (e : Enriched) : Fields :=
  e.properties ++ [("project", .str project), ("updatedAt", .str stamp)]

/-- The attributes of a relationship's edge. -/
def edgeAttributes (r : Relationship) : Fields :=
  [("type", .str r.type), ("properties", .str r.propertiesText), ("project", .str project),
    ("updatedAt", .str stamp)]

/-! ### Merging -/

/-- Puts the node of an entity. -/
def mergeEntity (g : Graph) (e : Enriched) : Graph :=
  g.putNode ⟨project, e.id⟩ (nodeAttributes stamp project e)

/-- Puts the nodes of entities, one after the other. -/
def mergeEntities (g : Graph) (entities : List Enriched) : Graph :=
  entities.foldl (mergeEntity stamp project) g

/-- Whether both ends of a relationship are nodes of the project. -/
def hasEnds (g : Graph) (r : Relationship) : Bool :=
  g.hasNode ⟨project, r.source⟩ && g.hasNode ⟨project, r.target⟩

/-- Puts the edge of a relationship whose ends are there. -/
def mergeRelationship (g : Graph) (r : Relationship) : Graph :=
  if g.hasEnds project r then
    g.putEdge ⟨⟨project, r.source⟩, ⟨project, r.target⟩, r.type, edgeAttributes stamp project r⟩
  else g

/-- Puts the edges of relationships, one after the other, and counts those put. -/
def mergeRelationships (g : Graph) : List Relationship → Graph × Nat
  | [] => (g, 0)
  | r :: rest =>
    let (merged, count) := mergeRelationships (mergeRelationship stamp project g r) rest
    (merged, if g.hasEnds project r then count + 1 else count)

/-! ### Stale nodes -/

/-- Whether the path of a node is looked at: it is one of the given ones, or none are given. -/
def isInScope (scope : Option (List String)) (attributes : Fields) : Bool :=
  match scope with
  | none => true
  | some paths =>
    match attributes.get? "path" with
    | some (.str path) => paths.contains path
    | _ => false

/-- The keys of the project's nodes in scope whose entity is not current. -/
def stale (g : Graph) (current : List String) (scope : Option (List String)) : List NodeKey :=
  (g.nodes.filter fun (key, attributes) =>
    key.project == project && !current.contains key.id && isInScope scope attributes).map Prod.fst

/-- Removes the stale nodes and answers their entities' ids. -/
def prune (g : Graph) (current : List String) (scope : Option (List String)) :
    Graph × List String :=
  let keys := g.stale project current scope
  (g.remove keys, keys.map NodeKey.id)

/-! ### Looking at a project -/

/-- The ids of the project's nodes. -/
def nodeIds (g : Graph) : List String :=
  ((g.nodes.map Prod.fst).filter fun key => key.project == project).map NodeKey.id

/-- Source, label and target of the project's edges. -/
def triples (g : Graph) : List (String × String × String) :=
  (g.edges.filter fun e => e.source.project == project).map fun e =>
    (e.source.id, e.label, e.target.id)

end Graph

/-- How many nodes and edges a project has. -/
structure GraphCounts where
  nodes : Int
  relationships : Int
deriving DecidableEq, Repr

/-- The record of counts. -/
def GraphCounts.toJson (c : GraphCounts) : Json :=
  .obj [("nodes", .int c.nodes), ("relationships", .int c.relationships)]

/-- The counts of a project in a graph. -/
def Graph.counts (project : String) (g : Graph) : GraphCounts :=
  ⟨(g.nodeIds project).length, (g.triples project).length⟩

end RepoGraph
