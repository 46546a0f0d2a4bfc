import RepoGraph.Batch
import RepoGraph.World

/-!
# Graph stores

A project's graph is kept in a file or on a server, and both are used in the same way.  The graph of
a file is opened, changed in memory and saved when the store is closed; a server takes statements,
in batches, and is connected to when it is first used.  Relationships of unknown type are told of in
the log and left out.
-/

namespace RepoGraph

/-- Where a graph is kept. -/
inductive GraphStore where
  /-- In a file, or only in memory. -/
  | file (path : Option String)
  /-- On a server. -/
  | server (url user password : String)
  /-- Nowhere: no operation is provided. -/
  | none

namespace GraphStore

/-- The part of the log. -/
def channel : String := "stores.graph_store"

/-- How many entities or relationships go in one batch. -/
def batchSize : Nat := 100

/-- How far some work is. -/
def progress (done total : Nat) : String := toString done ++ "/" ++ toString total

/-! ### Opening and closing -/

/-- Opens a store: the graph of the file, if there is one. -/
def openStore : GraphStore → Build Unit
  | file .none => modify fun w => { w with openGraph := .empty }
  | file (some path) => do
    if path != "" && (← Build.askDisk fun d cwd => d.doesExist cwd path) then
      match ← Build.readContent path with
      | .graph g => modify fun w => { w with openGraph := g }
      | _ => Build.fail (.outside "UnpicklingError" "the file holds no graph")
    else modify fun w => { w with openGraph := .empty }
  | server .. => modify fun w => { w with isConnected := false }
  | none => pure ()

/-- Saves the open graph to a file. -/
def save (path : String) : Build Unit := do
  let place ← Build.askDisk fun _ cwd => Disk.absolute cwd path
  Build.makeDirectories ("/" ++ "/".intercalate place.dropLast)
  let g := (← get).openGraph
  Build.changeDisk (.create path) fun d cwd => d.write cwd path (.graph g)

/-- Closes a store: the graph of a file is saved, a server is left. -/
def close : GraphStore → Build Unit
  | file .none => pure ()
  | file (some path) => if path == "" then pure () else save path
  | server url user password => do
    if (← get).isConnected then
      Build.note (.disconnect (.graph url user password))
      modify fun w => { w with isConnected := false }
  | none => pure ()

/-- Connects to a server, unless there is a connection. -/
def connect (url user password : String) : Build Unit := do
  if !(← get).isConnected then
    Build.attempt (.connect (.graph url user password))
    modify fun w => { w with isConnected := true }

/-- Sends a statement to the server that is connected. -/
def send (s : Statement) : Build Reply := do
  let before := (← get).events
  Build.attempt (.statement s)
  Build.take id ((← read).statement before s)

/-- Makes a store ready for use: a server indexes the nodes. -/
def prepare : GraphStore → Build Unit
  | file _ => pure ()
  | server url user password => do
    connect url user password
    Statement.indexedProperties.forM fun property => do
      let _ ← send (.index property)
    Build.log .info channel ["Neo4j indexes created"]
  | none => Build.fail .notProvided

/-- Whether a server answers. -/
def ping : GraphStore → Build Unit
  | server url user password => do
    connect url user password
    let before := (← get).events
    Build.attempt .ping
    Build.take id ((← read).ping before)
  | _ => Build.fail .notProvided

/-! ### Entities -/

/-- Merges a batch of entities into the open graph. -/
def mergeBatch (project : String) (batch : List Enriched) : Build Unit := do
  Build.attempt (.graph (.entities batch))
  let stamp ← Build.stamp
  modify fun w => { w with openGraph := w.openGraph.mergeEntities stamp project batch }

/-- Merges entities, and answers how many they are. -/
def upsertEntities (store : GraphStore) (project : String) (entities : List Enriched) :
    Build Nat := do
  let total := entities.length
  match store with
  | file _ =>
    (Batch.counted batchSize entities).forM fun (batch, done) => do
      mergeBatch project batch
      Build.log .info channel ["Graph entity load: " ++ progress done total]
    return total
  | server url user password =>
    connect url user password
    Build.log .info channel ["Populating " ++ toString total ++ " entities in Neo4j"]
    (Batch.counted batchSize entities).forM fun (batch, done) => do
      let _ ← send (.mergeNodes project (batch.map Enriched.properties))
      Build.log .info channel ["Neo4j entity load: " ++ progress done total]
    return total
  | none => Build.fail .notProvided

/-! ### Relationships -/

/-- The relationships of known type; the log is told of the others. -/
def knownOnly : List Relationship → Build (List Relationship)
  | [] => pure []
  | r :: rest => do
    if Relationship.isKnownType r.type then return r :: (← knownOnly rest)
    else
      Build.log .warning channel
        ["Skipping relationship " ++ r.id ++ ": unknown type " ++ Text.quoted r.type]
      knownOnly rest

/-- Merges relationships into the open graph, and answers how many. -/
def mergeOpen (project : String) (relationships : List Relationship) : Build Nat := do
  Build.attempt (.graph (.relationships relationships))
  let stamp ← Build.stamp
  let w ← get
  let (merged, count) := w.openGraph.mergeRelationships stamp project relationships
  set { w with openGraph := merged }
  return count

/-- Sends a batch of relationships in one transaction, a statement for each type, and answers how
many edges the server made. -/
def sendBatch (project : String) (batch : List Relationship) : Build Int := do
  Build.attempt (.transaction batch.length)
  (EdgeRow.grouped batch).foldlM
    (fun made (label, rows) => do
      let reply ← send (.mergeEdges project label rows)
      return made + reply.number)
    0

/-- Merges the relationships of known type, and answers how many were merged. -/
def upsertRelationships (store : GraphStore) (project : String)
    (relationships : List Relationship) : Build Int := do
  match store with
  | file _ =>
    let known ← knownOnly relationships
    return (← mergeOpen project known : Nat)
  | server url user password =>
    let known ← knownOnly relationships
    Build.log .info channel ["Populating " ++ toString known.length ++ " relationships in Neo4j"]
    connect url user password
    (Batch.counted batchSize known).foldlM
      (fun made (batch, done) => do
        let more ← sendBatch project batch
        Build.log .info channel ["Neo4j relationship load: " ++ progress done known.length]
        return made + more)
      0
  | none => Build.fail .notProvided

/-! ### Stale nodes -/

/-- Deletes the project's nodes in scope whose entity is not current, and answers their ids. -/
def prune (store : GraphStore) (project : String) (current : List String)
    (scope : Option (List String)) : Build (List String) := do
  match store with
  | file _ =>
    Build.attempt (.graph (.prune current scope))
    let w ← get
    let (kept, gone) := w.openGraph.prune project current scope
    set { w with openGraph := kept }
    Build.log .info channel
      ["Cleared " ++ toString gone.length ++ " stale entities from graph"]
    return gone
  | server url user password =>
    connect url user password
    let gone := (← send (.prune project current scope)).idList
    Build.log .info channel
      ["Cleared " ++ toString gone.length ++ " stale entities from Neo4j"]
    return gone
  | none => Build.fail .notProvided

/-! ### Counts -/

/-- How many nodes and edges a project has. -/
def counts (store : GraphStore) (project : String) : Build GraphCounts := do
  match store with
  | file _ => return (← get).openGraph.counts project
  | server url user password =>
    connect url user password
    let nodes ← send (.countNodes project)
    let edges ← send (.countEdges project)
    return ⟨nodes.number, edges.number⟩
  | none => Build.fail .notProvided

end GraphStore

/-- The file of the graph, in the staging area. -/
def Staging.graphPath (staging : String) : String :=
  Path.join (Path.join staging "graph") "graph.pkl"

/-- The graph store that the settings name. -/
def Settings.graphStore (s : Settings) : Except Failure GraphStore :=
  if s.graphBackend == "neo4j" then .ok (.server s.graphUrl s.graphUser s.graphPassword)
  else if s.graphBackend == "networkx" then .ok (.file (some (Staging.graphPath s.stagingPath)))
  else .error (.unknownGraph s.graphBackend)

end RepoGraph
