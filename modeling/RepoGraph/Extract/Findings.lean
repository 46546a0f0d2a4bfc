import RepoGraph.Entity
import RepoGraph.Relationship

/-!
# Findings

What reading one file yields: its entities and its relationships.  A relationship whose id has been
found before is not added again, so the ids of the relationships are distinct.

Main statements: `addRelationship_of_mem`, `ids_nodup_addRelationship`.
-/

namespace RepoGraph

/-- The entities and relationships found in a file. -/
structure Findings where
  entities : List Entity
  relationships : List Relationship

namespace Findings

/-- Nothing found. -/
def empty : Findings := ⟨[], []⟩

/-- The ids of the relationships found so far. -/
def relationshipIds (f : Findings) : List String := f.relationships.map Relationship.id

/-- Adds an entity. -/
def addEntity (f : Findings) (e : Entity) : Findings := { f with entities := f.entities ++ [e] }

/-- Adds a relationship, unless one of its id is there. -/
def addRelationship (f : Findings) (r : Relationship) : Findings :=
  if f.relationshipIds.contains r.id then f
  else { f with relationships := f.relationships ++ [r] }

/-- Adds an edge between two ids. -/
def relate (f : Findings) (source type target : String) (properties : Fields) : Findings :=
  f.addRelationship (Relationship.create source type target properties)

/-- The record of what was found. -/
def toJson (f : Findings) : Json :=
  .obj [("entities", .arr (f.entities.map Entity.toJson)),
    ("relationships", .arr (f.relationships.map Relationship.toJson))]

/-- An id that was found before changes nothing. -/
theorem addRelationship_of_mem {f : Findings} {r : Relationship} (h : r.id ∈ f.relationshipIds) :
    f.addRelationship r = f := by
  simp [addRelationship, h]

/-- Adding keeps the ids of the relationships distinct. -/
theorem ids_nodup_addRelationship {f : Findings} {r : Relationship}
    (h : f.relationshipIds.Nodup) : (f.addRelationship r).relationshipIds.Nodup := by
  unfold addRelationship
  split
  · exact h
  · rename_i hn
    simp only [List.contains_eq_mem, decide_eq_true_eq] at hn
    simp only [relationshipIds, List.map_append, List.map_cons, List.map_nil]
    rw [List.nodup_append]
    refine ⟨h, by simp, ?_⟩
    intro a ha b hb hab
    simp only [List.mem_singleton] at hb
    subst hb hab
    exact hn ha

end Findings

end RepoGraph
