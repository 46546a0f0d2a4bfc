import Mathlib.Data.List.Nodup
import RepoGraph.Build.Enriching
import RepoGraph.Graph.Merge
import RepoGraph.Proofs.Json.Fields

/-!
# What nodes and edges say

The attributes of a node or an edge are read by name, and when they were merged is nothing they say:
`Fields.facts` is an attribute list as a function on names, without that time.  `Graph.nodeFacts`
and `Graph.edgeFacts` read a graph in this way.  Updating attributes lays the facts of the new ones
over those of the old ones, so an entity that is merged twice says what it says when merged once.

Main statements: `Fields.facts_update`, `Enriched.laidOn_laidOn`, `Relationship.laidOn_laidOn`.
-/

namespace RepoGraph

/-- What attributes say, by name. -/
abbrev Facts := String → Option Json

/-- Facts over others: a name that both have keeps the first value. -/
def Facts.over (new old : Facts) : Facts := fun name => (new name).or (old name)

/-- The name of the attribute that keeps the time of a merge. -/
def mergedAt : String := "updatedAt"

/-- What a list of attributes says, the time of its merge aside. -/
def Fields.facts (fields : Fields) : Facts :=
  fun name => if name = mergedAt then none else fields.get? name

namespace Fields

theorem facts_update {new : Fields} (hnew : new.names.Nodup) (fields : Fields) :
    (fields.update new).facts = Facts.over new.facts fields.facts := by
  funext name
  simp only [facts, Facts.over]
  split
  · rfl
  · exact get?_update hnew fields name

/-- The time of a merge is nothing that attributes say. -/
theorem facts_append_mergedAt (fields : Fields) (value : Json) :
    Fields.facts (fields ++ [(mergedAt, value)]) = fields.facts := by
  funext name
  simp only [facts, get?_append, get?]
  split
  · rfl
  · rename_i hname
    have h : (mergedAt == name) = false := beq_false_of_ne fun e => hname e.symm
    rw [h]
    exact Option.or_none

/-- What is said under which names. -/
theorem isSome_facts_iff {fields : Fields} {name : String} :
    (fields.facts name).isSome ↔ name ≠ mergedAt ∧ name ∈ fields.names := by
  simp only [facts]
  split
  · rename_i h
    simp [h]
  · rename_i h
    rw [Option.isSome_iff_ne_none, ne_eq, get?_eq_none_iff, not_not]
    exact ⟨fun hmem => ⟨h, hmem⟩, And.right⟩

theorem facts_nil : facts [] = fun _ => none := by
  funext name
  simp [facts, get?]

end Fields

namespace Facts

variable {new newer old : Facts}

theorem over_none (new : Facts) : new.over (fun _ => none) = new := by
  funext name
  exact Option.or_none

/-- Facts that cover others replace them. -/
theorem over_over (h : ∀ name, (new name).isSome → (newer name).isSome) (old : Facts) :
    newer.over (new.over old) = newer.over old := by
  funext name
  simp only [Facts.over]
  cases hnewer : newer name with
  | some value => rfl
  | none =>
    have hnew : new name = none := by
      have hnot : ¬ (new name).isSome := fun hs => by simpa [hnewer] using h name hs
      simpa using hnot
    rw [hnew]
    rfl

end Facts

/-! ### Entities and relationships -/

namespace Enriched

/-- What the node of an entity says. -/
def facts (project : String) (e : Enriched) : Facts :=
  Fields.facts (Graph.nodeAttributes "" project e)

/-- What a node says after an entity was merged into it. -/
def laidOn (project : String) (e : Enriched) (node : Option Facts) : Option Facts :=
  some ((e.facts project).over (node.getD fun _ => none))

/-- The names of an entity's attributes. -/
theorem names_nodeAttributes (stamp project : String) (e : Enriched) :
    Fields.names (Graph.nodeAttributes stamp project e) =
      ["id", "type", "name", "path", "semanticDescription", "purpose", "patterns",
        "architecturalRole", "complexity", "metadata", "project", mergedAt] :=
  rfl

theorem nodup_nodeAttributes (stamp project : String) (e : Enriched) :
    (Fields.names (Graph.nodeAttributes stamp project e)).Nodup := by
  rw [names_nodeAttributes]
  decide

/-- What an entity says does not depend on when it is merged. -/
theorem facts_nodeAttributes (stamp project : String) (e : Enriched) :
    Fields.facts (Graph.nodeAttributes stamp project e) = e.facts project := by
  have hsplit (t : String) : Graph.nodeAttributes t project e =
      (e.properties ++ [("project", .str project)]) ++ [(mergedAt, .str t)] := by
    rw [List.append_assoc]
    rfl
  rw [facts, hsplit, hsplit, Fields.facts_append_mergedAt, Fields.facts_append_mergedAt]

/-- All entities have the same attributes. -/
theorem isSome_facts (project : String) (e e' : Enriched) (name : String)
    (h : (e.facts project name).isSome) : (e'.facts project name).isSome := by
  rw [facts, Fields.isSome_facts_iff, names_nodeAttributes] at h ⊢
  exact h

/-- Of two entities that are merged into one node the later one counts. -/
theorem laidOn_laidOn (project : String) (e e' : Enriched) (node : Option Facts) :
    e'.laidOn project (e.laidOn project node) = e'.laidOn project node := by
  simp only [laidOn, Option.getD_some]
  rw [Facts.over_over (isSome_facts project e e')]

end Enriched

namespace Relationship

/-- What the edge of a relationship says. -/
def facts (project : String) (r : Relationship) : Facts :=
  Fields.facts (Graph.edgeAttributes "" project r)

/-- What an edge says after a relationship was merged into it. -/
def laidOn (project : String) (r : Relationship) (edge : Option Facts) : Option Facts :=
  some ((r.facts project).over (edge.getD fun _ => none))

theorem names_edgeAttributes (stamp project : String) (r : Relationship) :
    Fields.names (Graph.edgeAttributes stamp project r) =
      ["type", "properties", "project", mergedAt] :=
  rfl

theorem nodup_edgeAttributes (stamp project : String) (r : Relationship) :
    (Fields.names (Graph.edgeAttributes stamp project r)).Nodup := by
  rw [names_edgeAttributes]
  decide

/-- What a relationship says does not depend on when it is merged. -/
theorem facts_edgeAttributes (stamp project : String) (r : Relationship) :
    Fields.facts (Graph.edgeAttributes stamp project r) = r.facts project := by
  have hsplit (t : String) : Graph.edgeAttributes t project r =
      [("type", .str r.type), ("properties", .str r.propertiesText), ("project", .str project)] ++
        [(mergedAt, .str t)] :=
    rfl
  rw [facts, hsplit, hsplit, Fields.facts_append_mergedAt, Fields.facts_append_mergedAt]

theorem isSome_facts (project : String) (r r' : Relationship) (name : String)
    (h : (r.facts project name).isSome) : (r'.facts project name).isSome := by
  rw [facts, Fields.isSome_facts_iff, names_edgeAttributes] at h ⊢
  exact h

/-- Of two relationships that are merged into one edge the later one counts. -/
theorem laidOn_laidOn (project : String) (r r' : Relationship) (edge : Option Facts) :
    r'.laidOn project (r.laidOn project edge) = r'.laidOn project edge := by
  simp only [laidOn, Option.getD_some]
  rw [Facts.over_over (isSome_facts project r r')]

/-- Where a relationship's edge is, by its ends and its type. -/
def place (r : Relationship) : String × String × String := (r.source, r.target, r.type)

/-- The last of some relationships that has an edge between two ids under a type. -/
def lastAt? (relationships : List Relationship) (at_ : String × String × String) :
    Option Relationship :=
  relationships.reverse.find? fun r => r.place == at_

end Relationship

/-! ### Graphs -/

namespace Graph

/-- What a node says, if it is there. -/
def nodeFacts (g : Graph) (key : NodeKey) : Option Facts := (g.attributes? key).map Fields.facts

/-- What an edge says, if it is there. -/
def edgeFacts (g : Graph) (source target : NodeKey) (label : String) : Option Facts :=
  (g.edge? source target label).map Fields.facts

theorem isSome_nodeFacts (g : Graph) (key : NodeKey) :
    (g.nodeFacts key).isSome = g.hasNode key := by
  simp [nodeFacts, hasNode]

end Graph

end RepoGraph
