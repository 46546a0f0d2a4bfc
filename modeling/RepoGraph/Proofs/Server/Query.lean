import RepoGraph.Proofs.Graph.Facts
import RepoGraph.Graph.Statement
import RepoGraph.Text.Blank

/-!
# The queries that statements say

The text of a statement is a query in Cypher: clauses, one after the other, and at the end what is
returned.  `Query` is the syntax of the queries that occur, `Query.render` writes one, and
`Statement.query` is the query of a statement.  That it is the query of the statement's text is
`Statement.words_text`: the two texts have the same words, and nothing but the blanks between words
is left open by that.

Main statement: `Statement.words_text`.
-/

namespace RepoGraph

namespace Cypher

/-! ### Syntax -/

/-- A term. -/
inductive Term where
  /-- `$name` -/
  | parameter (name : String)
  /-- `var.name` -/
  | property (var name : String)
  /-- `datetime()` -/
  | now

/-- A condition. -/
inductive Condition where
  /-- `a = b` -/
  | equal (a b : Term)
  /-- `a IN b` -/
  | isIn (a b : Term)
  /-- `NOT c` -/
  | not (c : Condition)
  /-- `c AND d` -/
  | and (c d : Condition)

/-- The pattern of a vertex, `(var:label {name: term, …})`; every part may be missing. -/
structure VertexPattern where
  var : String
  label : Option String
  properties : List (String × Term)

/-- The pattern of an arc of any type, `-[var {name: term, …}]->`. -/
structure ArcPattern where
  var : String
  properties : List (String × Term)

/-- A clause. -/
inductive Clause where
  /-- `UNWIND list AS var` -/
  | unwind (list : Term) (var : String)
  /-- `MATCH (…)` -/
  | matchVertex (pattern : VertexPattern)
  /-- `MATCH (…)-[…]->(…)` -/
  | matchArc (source : VertexPattern) (arc : ArcPattern) (target : VertexPattern)
  /-- `WHERE condition` -/
  | filter (condition : Condition)
  /-- `MERGE (…)` -/
  | mergeVertex (pattern : VertexPattern)
  /-- ``MERGE (source)-[var:`type`]->(target)``, between two variables. -/
  | mergeArc (source var type target : String)
  /-- `SET var.name = term, …` -/
  | set (var : String) (items : List (String × Term))
  /-- `WITH var, term AS name` -/
  | keep (var : String) (term : Term) (name : String)
  /-- `DETACH DELETE var` -/
  | delete (var : String)

/-- What a query returns. -/
inductive Return where
  /-- No records. -/
  | nothing
  /-- `RETURN count(var) AS name` -/
  | count (var name : String)
  /-- `RETURN name` -/
  | column (name : String)

/-- A query. -/
inductive Query where
  /-- `CREATE INDEX IF NOT EXISTS FOR (n:label) ON (n.property)` -/
  | index (label property : String)
  /-- Clauses and what is returned. -/
  | pipeline (clauses : List Clause) (result : Return)

/-! ### Texts -/

/-- Pieces of text, one after the other. -/
def glue : List String → String
  | [] => ""
  | piece :: rest => piece ++ glue rest

theorem toList_glue (pieces : List String) :
    (glue pieces).toList = pieces.flatMap String.toList := by
  induction pieces with
  | nil => rfl
  | cons piece rest ih => rw [glue, String.toList_append, ih, List.flatMap_cons]

/-- The pieces of several texts, with a text between them. -/
def separated (sep : String) : List (List String) → List String
  | [] => []
  | [pieces] => pieces
  | pieces :: next :: rest => pieces ++ sep :: separated sep (next :: rest)

/-- The text of a term, in pieces. -/
def Term.pieces : Term → List String
  | parameter name => ["$", name]
  | property var name => [var, ".", name]
  | now => ["datetime()"]

/-- The text of a condition, in pieces. -/
def Condition.pieces : Condition → List String
  | equal a b => a.pieces ++ [" = "] ++ b.pieces
  | isIn a b => a.pieces ++ [" IN "] ++ b.pieces
  | not c => ["NOT "] ++ c.pieces
  | and c d => c.pieces ++ [" AND "] ++ d.pieces

/-- The text of the properties of a pattern, in pieces. -/
def propertyPieces : List (String × Term) → List String
  | [] => []
  | items => [" \x7b"] ++ separated ", "
      (items.map fun (name, t) => [name, ": "] ++ t.pieces) ++ ["\x7d"]

/-- The text of the pattern of a vertex, in pieces. -/
def VertexPattern.pieces (p : VertexPattern) : List String :=
  ["(", p.var] ++ p.label.elim [] ([":", ·]) ++ propertyPieces p.properties ++ [")"]

/-- The text of a clause, in pieces. -/
def Clause.pieces : Clause → List String
  | unwind list var => ["UNWIND "] ++ list.pieces ++ [" AS ", var]
  | matchVertex pattern => ["MATCH "] ++ pattern.pieces
  | matchArc source arc target =>
    ["MATCH "] ++ source.pieces ++ ["-[", arc.var] ++ propertyPieces arc.properties ++ ["]->"] ++
      target.pieces
  | filter condition => ["WHERE "] ++ condition.pieces
  | mergeVertex pattern => ["MERGE "] ++ pattern.pieces
  | mergeArc source var type target =>
    ["MERGE (", source, ")-[", var, ":\x60", type, "\x60]->(", target, ")"]
  | set var items =>
    ["SET "] ++ separated ", " (items.map fun (name, t) => [var, ".", name, " = "] ++ t.pieces)
  | keep var term name => ["WITH ", var, ", "] ++ term.pieces ++ [" AS ", name]
  | delete var => ["DETACH DELETE ", var]

/-- The text of what is returned, in pieces. -/
def Return.pieces : Return → List String
  | nothing => []
  | count var name => ["RETURN count(", var, ") AS ", name]
  | column name => ["RETURN ", name]

/-- The text of a query, in pieces. -/
def Query.pieces : Query → List String
  | index label property =>
    ["CREATE INDEX IF NOT EXISTS FOR (n:", label, ") ON (n.", property, ")"]
  | pipeline clauses result => separated " " (clauses.map Clause.pieces ++ [result.pieces])

/-- The text of a query. -/
def Query.render (q : Query) : String := glue q.pieces

end Cypher

/-! ### The queries of statements -/

namespace Statement

open Cypher

/-- The label of every vertex. -/
def entityLabel : String := "Entity"

/-- The pattern of the vertex with an id in the project of the parameters. -/
def entityPattern (var : String) (id : Term) : VertexPattern :=
  ⟨var, some entityLabel, [("id", id), ("project", .parameter "projectId")]⟩

/-- What the vertex of an entity is given beside its id and the project. -/
def entityItems : List (String × Term) :=
  ["type", "name", "path", "semanticDescription", "purpose", "patterns", "architecturalRole",
    "complexity", "metadata"].map (fun name => (name, .property "row" name)) ++ [(mergedAt, .now)]

/-- What the arc of a relationship is given. -/
def relationshipItems : List (String × Term) :=
  [("properties", .property "row" "properties"), ("project", .parameter "projectId"),
    (mergedAt, .now)]

/-- Whether a vertex is stale. -/
def staleCondition (isScoped : Bool) : Condition :=
  let isStale := .and (.equal (.property "e" "project") (.parameter "projectId"))
    (.not (.isIn (.property "e" "id") (.parameter "currentIds")))
  if isScoped then .and isStale (.isIn (.property "e" "path") (.parameter "paths")) else isStale

/-- The query that deletes stale vertices. -/
def pruneQuery (isScoped : Bool) : Query :=
  .pipeline
    [.matchVertex ⟨"e", some entityLabel, []⟩, .filter (staleCondition isScoped),
      .keep "e" (.property "e" "id") "id", .delete "e"]
    (.column "id")

/-- The query of a statement. -/
def query : Statement → Query
  | index property => .index entityLabel property
  | mergeNodes _ _ =>
    .pipeline
      [.unwind (.parameter "rows") "row", .mergeVertex (entityPattern "e" (.property "row" "id")),
        .set "e" entityItems]
      .nothing
  | mergeEdges _ label _ =>
    .pipeline
      [.unwind (.parameter "rows") "row",
        .matchVertex (entityPattern "source" (.property "row" "sourceId")),
        .matchVertex (entityPattern "target" (.property "row" "targetId")),
        .mergeArc "source" "r" label "target", .set "r" relationshipItems]
      (.count "r" "created")
  | prune _ _ scope => pruneQuery scope.isSome
  | countNodes _ =>
    .pipeline
      [.matchVertex ⟨"e", some entityLabel, [("project", .parameter "projectId")]⟩]
      (.count "e" "n")
  | countEdges _ =>
    .pipeline
      [.matchArc ⟨"", some entityLabel, [("project", .parameter "projectId")]⟩
        ⟨"r", [("project", .parameter "projectId")]⟩ ⟨"", none, []⟩]
      (.count "r" "n")

/-- Texts have the same words if they have the same runs of characters that are not blank. -/
theorem words_eq_render {s : String} {q : Query}
    (h : Text.runsBetween Text.isBlank s.toList =
      Text.runsBetween Text.isBlank (q.pieces.flatMap String.toList)) :
    Text.words s = Text.words q.render := by
  rw [Text.words, Text.words, Query.render, toList_glue, h]

/-- The text of a statement is that of its query, but for the blanks between words. -/
theorem words_text {s : Statement} (h : s.isClosed = true) :
    Text.words s.text = Text.words s.query.render := by
  refine words_eq_render ?_
  -- the texts are fixed, so it is left to compare them, for each property and each label
  cases s with
  | index property =>
    have hall : ∀ p ∈ indexedProperties,
        Text.runsBetween Text.isBlank (indexText p).toList =
          Text.runsBetween Text.isBlank ((query (.index p)).pieces.flatMap String.toList) := by
      decide +kernel
    exact hall property (List.contains_iff_mem.1 h)
  | mergeNodes project rows =>
    show Text.runsBetween Text.isBlank mergeNodesText.toList = _
    delta mergeNodesText
    simp only [String.toList_append, -String.reduceAppend]
    show _ = Text.runsBetween Text.isBlank
        ((query (.mergeNodes "" [])).pieces.flatMap String.toList)
    decide +kernel
  | mergeEdges project label rows =>
    have hall : ∀ l ∈ Relationship.vocabulary,
        Text.runsBetween Text.isBlank (mergeEdgesText l).toList =
          Text.runsBetween Text.isBlank
            ((query (.mergeEdges "" l [])).pieces.flatMap String.toList) := by
      delta mergeEdgesText
      simp only [String.toList_append, -String.reduceAppend]
      decide +kernel
    exact hall label (List.contains_iff_mem.1 h)
  | prune project current scope =>
    have hall : ∀ isScoped, Text.runsBetween Text.isBlank (pruneText isScoped).toList =
        Text.runsBetween Text.isBlank ((pruneQuery isScoped).pieces.flatMap String.toList) := by
      delta pruneText
      simp only [String.toList_append, -String.reduceAppend]
      decide
    exact hall scope.isSome
  | countNodes project =>
    show Text.runsBetween Text.isBlank countNodesText.toList = Text.runsBetween Text.isBlank
      ((query (.countNodes "")).pieces.flatMap String.toList)
    decide
  | countEdges project =>
    show Text.runsBetween Text.isBlank countEdgesText.toList = Text.runsBetween Text.isBlank
      ((query (.countEdges "")).pieces.flatMap String.toList)
    decide

end Statement

end RepoGraph
