import RepoGraph.Entity
import RepoGraph.Relationship

/-!
# What a stage puts out

The parse stage puts out entities, the enrich stage enriched entities; both add relationships and
metadata about the run.  `Output` is the common form, and `toJson` and `ofJson` are its record.
-/

namespace RepoGraph

/-- Entities, relationships and metadata of a run. -/
structure Output (α : Type) where
  entities : List α
  relationships : List Relationship
  metadata : Fields

/-- What the parse stage puts out. -/
abbrev ParseOutput := Output Entity

/-- What the enrich stage puts out. -/
abbrev EnrichOutput := Output Enriched

namespace Output

variable {α : Type}

/-- The record of an output. -/
def toJson (entity : α → Json) (o : Output α) : Json :=
  .obj [("entities", .arr (o.entities.map entity)),
    ("relationships", .arr (o.relationships.map Relationship.toJson)),
    ("metadata", .obj o.metadata)]

/-- An output from its record; missing parts are empty. -/
def ofJson (entity : Json → Except RecordFault α) (v : Json) : Except RecordFault (Output α) :=
  match v with
  | .obj _ => do
    let entities ← Record.recordsOf entity v "entities"
    let relationships ← Record.recordsOf Relationship.ofJson v "relationships"
    let metadata ← Record.fieldsOf v "metadata"
    return ⟨entities, relationships, metadata⟩
  | _ => .error .notARecord

end Output

namespace ParseOutput

/-- The record of what the parse stage puts out. -/
def toJson (o : ParseOutput) : Json := Output.toJson Entity.toJson o

/-- What the parse stage put out, from its record. -/
def ofJson (v : Json) : Except RecordFault ParseOutput := Output.ofJson Entity.ofJson v

end ParseOutput

namespace EnrichOutput

/-- The record of what the enrich stage puts out. -/
def toJson (o : EnrichOutput) : Json := Output.toJson Enriched.toJson o

/-- What the enrich stage put out, from its record. -/
def ofJson (v : Json) : Except RecordFault EnrichOutput := Output.ofJson Enriched.ofJson v

end EnrichOutput

end RepoGraph
