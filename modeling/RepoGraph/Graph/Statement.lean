import RepoGraph.Graph.Merge

/-!
# Statements for a graph server

A graph server takes statements in the language Cypher.  A `Statement` says what is meant; its
`text` is one of a fixed number of texts, and everything that comes from the repository goes into
its `parameters`.

Main statement: `Statement.text_mem_texts`.
-/

namespace RepoGraph

/-- One relationship as a row of a statement. -/
structure EdgeRow where
  source : String
  target : String
  properties : String
deriving DecidableEq, Repr

/-- A statement for a graph server. -/
inductive Statement where
  /-- Index the nodes by a property. -/
  | index (property : String)
  /-- Merge nodes of a project, one per row. -/
  | mergeNodes (project : String) (rows : List Fields)
  /-- Merge edges of one label between nodes of a project, one per row. -/
  | mergeEdges (project label : String) (rows : List EdgeRow)
  /-- Delete the stale nodes of a project and answer their ids. -/
  | prune (project : String) (current : List String) (scope : Option (List String))
  /-- Count the nodes of a project. -/
  | countNodes (project : String)
  /-- Count the edges of a project. -/
  | countEdges (project : String)

/-! ### Rows -/

/-- The row of a relationship. -/
def EdgeRow.ofRelationship (r : Relationship) : EdgeRow := ⟨r.source, r.target, r.propertiesText⟩

/-- The record of a row. -/
def EdgeRow.toJson (row : EdgeRow) : Json :=
  .obj [("sourceId", .str row.source), ("targetId", .str row.target),
    ("properties", .str row.properties)]

/-- Adds a row to the group of its label; a new group comes last. -/
def EdgeRow.addTo (label : String) (row : EdgeRow) :
    List (String × List EdgeRow) → List (String × List EdgeRow)
  | [] => [(label, [row])]
  | (l, rows) :: rest =>
    if l == label then (l, rows ++ [row]) :: rest else (l, rows) :: addTo label row rest

/-- Relationships as rows in groups by type; the groups are in order of their first rows. -/
def EdgeRow.grouped (relationships : List Relationship) : List (String × List EdgeRow) :=
  relationships.foldl (fun groups r => addTo r.type (ofRelationship r) groups) []

namespace Statement

/-! ### Texts -/

/-- The properties that nodes are indexed by. -/
def indexedProperties : List String := ["id", "type", "path", "project"]

/-- The text that indexes nodes by a property. -/
def indexText (property : String) : String :=
  "CREATE INDEX IF NOT EXISTS FOR (n:Entity) ON (n." ++ property ++ ")"

/-- The text that merges nodes. -/
def mergeNodesText : String :=
  "\nUNWIND $rows AS row\n" ++
  "MERGE (e:Entity \x7bid: row.id, project: $projectId\x7d)\n" ++
  "SET e.type = row.type,\n" ++
  "    e.name = row.name,\n" ++
  "    e.path = row.path,\n" ++
  "    e.semanticDescription = row.semanticDescription,\n" ++
  "    e.purpose = row.purpose,\n" ++
  "    e.patterns = row.patterns,\n" ++
  "    e.architecturalRole = row.architecturalRole,\n" ++
  "    e.complexity = row.complexity,\n" ++
  "    e.metadata = row.metadata,\n" ++
  "    e.updatedAt = datetime()\n"

/-- The text that merges edges of a label. -/
def mergeEdgesText (label : String) : String :=
  "\nUNWIND $rows AS row\n" ++
  "MATCH (source:Entity \x7bid: row.sourceId, project: $projectId\x7d)\n" ++
  "MATCH (target:Entity \x7bid: row.targetId, project: $projectId\x7d)\n" ++
  "MERGE (source)-[r:\x60" ++ label ++ "\x60]->(target)\n" ++
  "SET r.properties = row.properties,\n" ++
  "    r.project = $projectId,\n" ++
  "    r.updatedAt = datetime()\n" ++
  "RETURN count(r) AS created\n"

/-- The text that deletes stale nodes, of some paths or of the whole project. -/
def pruneText (isScoped : Bool) : String :=
  "\nMATCH (e:Entity)\n" ++
  "WHERE e.project = $projectId AND NOT e.id IN $currentIds " ++
  (if isScoped then "AND e.path IN $paths" else "") ++ "\n" ++
  "WITH e, e.id AS id\n" ++
  "DETACH DELETE e\n" ++
  "RETURN id\n"

/-- The text that counts nodes. -/
def countNodesText : String := "MATCH (e:Entity \x7bproject: $projectId\x7d) RETURN count(e) AS n"

/-- The text that counts edges. -/
def countEdgesText : String :=
  "MATCH (:Entity \x7bproject: $projectId\x7d)-[r \x7bproject: $projectId\x7d]->() " ++
  "RETURN count(r) AS n"

/-- The text of a statement. -/
def text : Statement → String
  | index property => indexText property
  | mergeNodes _ _ => mergeNodesText
  | mergeEdges _ label _ => mergeEdgesText label
  | prune _ _ scope => pruneText scope.isSome
  | countNodes _ => countNodesText
  | countEdges _ => countEdgesText

/-- The texts of all statements over the indexed properties and the known relationship types. -/
def texts : List String :=
  indexedProperties.map indexText ++ [mergeNodesText] ++
    Relationship.vocabulary.map mergeEdgesText ++ [pruneText true, pruneText false] ++
    [countNodesText, countEdgesText]

/-- Whether a statement names only indexed properties and known relationship types. -/
def isClosed : Statement → Bool
  | index property => indexedProperties.contains property
  | mergeEdges _ label _ => Relationship.isKnownType label
  | _ => true

/-- The text of such a statement is one of a fixed number of texts. -/
theorem text_mem_texts {s : Statement} (h : s.isClosed = true) : s.text ∈ texts := by
  cases s with
  | index property =>
    simp only [isClosed, List.contains_iff_mem] at h
    simp only [text, texts, List.mem_append, List.mem_map]
    exact .inl (.inl (.inl (.inl ⟨property, h, rfl⟩)))
  | mergeNodes project rows => simp [text, texts]
  | mergeEdges project label rows =>
    simp only [isClosed, Relationship.isKnownType, List.contains_iff_mem] at h
    simp only [text, texts, List.mem_append, List.mem_map]
    exact .inl (.inl (.inr ⟨label, h, rfl⟩))
  | prune project current scope => cases scope <;> simp [text, texts]
  | countNodes project => simp [text, texts]
  | countEdges project => simp [text, texts]

/-! ### Parameters -/

/-- The parameters of a statement; one that indexes has none. -/
def parameters : Statement → Option Fields
  | index _ => none
  | mergeNodes project rows => some [("rows", .arr (rows.map .obj)), ("projectId", .str project)]
  | mergeEdges project _ rows =>
    some [("rows", .arr (rows.map EdgeRow.toJson)), ("projectId", .str project)]
  | prune project current scope =>
    some ([("projectId", .str project), ("currentIds", .arr (current.map .str))] ++
      (scope.toList.map fun paths => ("paths", .arr (paths.map .str))))
  | countNodes project => some [("projectId", .str project)]
  | countEdges project => some [("projectId", .str project)]

end Statement

/-- What a graph server answers. -/
inductive Reply where
  /-- Nothing. -/
  | nothing
  /-- A number. -/
  | count (n : Int)
  /-- Ids. -/
  | ids (ids : List String)
deriving DecidableEq, Repr

/-- The number in an answer, zero where there is none. -/
def Reply.number : Reply → Int
  | count n => n
  | _ => 0

/-- The ids in an answer. -/
def Reply.idList : Reply → List String
  | ids xs => xs
  | _ => []

end RepoGraph
