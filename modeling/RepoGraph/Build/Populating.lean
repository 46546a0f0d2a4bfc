import RepoGraph.Graph.Store
import RepoGraph.Output
import RepoGraph.Staging
import RepoGraph.Vector.Store

/-!
# Filling the stores

The third stage of a build writes what the second one staged into the graph store and the vector
store.  An incremental build then deletes what is stale: the nodes of the files it has read again or
that are gone, and their points.  Both stores are closed in any case, so the graph is saved even if
the stage fails.
-/

namespace RepoGraph

/-- What the third stage did. -/
structure Population where
  entities : Nat
  relationships : Nat
  points : Nat
  pruned : Nat
deriving DecidableEq, Repr

/-- The record of what the third stage did. -/
def Population.toJson (p : Population) : Json :=
  .obj [("entities", .int p.entities), ("relationships", .int p.relationships),
    ("vector_points", .int p.points), ("pruned", .int p.pruned)]

namespace Populating

/-- The name of the stage. -/
def stage : String := "populate"

/-- The part of the log. -/
def channel : String := "stages.populate"

/-! ### Scope -/

/-- The paths that a value lists; an empty value lists none. -/
def pathsOf (v : Json) : Except RecordFault (List String) :=
  if !v.isFilled then .ok []
  else
    match v with
    | .arr items => items.mapM Record.text
    | .str s => .ok (s.toList.map fun c => String.ofList [c])
    | .obj fields => .ok (Fields.names fields)
    | _ => .error .wrongType

/-- The paths whose nodes may be stale: the files that were read and those that are gone.  Where
neither is told, every path may be. -/
def scope (metadata : Fields) : Except RecordFault (Option (List String)) := do
  let given (name : String) : Json := (metadata.get? name).getD .null
  match given "parsedFiles", given "deletedFiles" with
  | .null, .null => return none
  | read, gone => return some (Text.distinct ((← pathsOf read) ++ (← pathsOf gone)))

/-! ### The stage -/

/-- Deletes what is stale, and answers how many nodes. -/
def prune (graph : GraphStore) (vectors : VectorStore) (config : BuildConfig)
    (output : EnrichOutput) : Build Nat := do
  if config.mode == Request.incremental then
    let paths ← Build.take .record (scope output.metadata)
    let gone ← graph.prune config.project (output.entities.map Enriched.id) paths
    if !gone.isEmpty then
      let _ ← vectors.deleteEntities gone
    return gone.length
  else return 0

/-- Writes an output into both stores, and answers how many nodes were stale and how many points
were put. -/
def fill (graph : GraphStore) (vectors : VectorStore) (config : BuildConfig)
    (output : EnrichOutput) : Build (Nat × Nat) := do
  graph.prepare
  vectors.ensure
  let _ ← graph.upsertEntities config.project output.entities
  let _ ← graph.upsertRelationships config.project output.relationships
  let pruned ← prune graph vectors config output
  let points ← vectors.upsertEntities output.entities
  return (pruned, points)

/-- Fills the stores with what the second stage staged. -/
def run (graph : Except Failure GraphStore) (vectors : VectorStore) (config : BuildConfig) :
    Build Population := do
  Build.log .info channel ["Starting populate stage"]
  let start ← Build.now
  let staged ← Staging.read config.stagingPath "enrich"
  let output ← Build.take .record (EnrichOutput.ofJson staged)
  let graph ← Build.take id graph
  graph.openStore
  vectors.openStore
  let (pruned, points) ← Build.ensuring (fill graph vectors config output) do
    graph.close
    vectors.close
  let finish ← Build.now
  Build.log .info channel
    ["Populate stage complete: " ++ toString output.entities.length ++ " entities, " ++
      toString output.relationships.length ++ " relationships in " ++
      toString (Build.elapsed start finish) ++ "ms"]
  return ⟨output.entities.length, output.relationships.length, points, pruned⟩

end Populating

/-- The third stage as the settings set it up. -/
def Settings.populating (s : Settings) (config : BuildConfig) : Build Population :=
  Populating.run s.graphStore (s.vectorStore config.project) config

end RepoGraph
