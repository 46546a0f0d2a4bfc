import RepoGraph.Record
import RepoGraph.Text.Case

/-!
# Relationships

A relationship is a directed, typed edge between two entity ids.  Its id is made of its ends and its
type, so the same edge found twice is one relationship.  The stores take the types of a closed
vocabulary only.
-/

namespace RepoGraph

/-- A directed, typed edge. -/
structure Relationship where
  id : String
  type : String
  source : String
  target : String
  properties : Fields

namespace Relationship

/-! ### The vocabulary -/

/-- A file imports a module. -/
def imports : String := "IMPORTS"

/-- A file defines a class or a function. -/
def defines : String := "DEFINES"

/-- A class extends another. -/
def extendsType : String := "EXTENDS"

/-- A file listens to an event. -/
def subscribesTo : String := "SUBSCRIBES_TO"

/-- A file raises an event. -/
def emits : String := "EMITS"

/-- A file implements a pattern. -/
def implementsPattern : String := "IMPLEMENTS_PATTERN"

/-- A document describes an entity. -/
def documents : String := "DOCUMENTS"

/-- A document links to another. -/
def linksTo : String := "LINKS_TO"

/-- A document is related to an entity. -/
def relatesTo : String := "RELATES_TO"

/-- A manifest depends on a package. -/
def dependsOnPackage : String := "DEPENDS_ON_PACKAGE"

/-- The types the stores take. -/
def vocabulary : List String :=
  [imports, defines, extendsType, subscribesTo, emits, implementsPattern, documents, linksTo,
    relatesTo, dependsOnPackage]

/-- Whether a type belongs to the vocabulary. -/
def isKnownType (type : String) : Bool := vocabulary.contains type

/-! ### Making and reading -/

/-- The id of an edge: its source, its type in lower case and its target, joined by hyphens. -/
def idOf (source type target : String) : String :=
  source ++ "-" ++ Text.lower type ++ "-" ++ target

/-- An edge between two ids. -/
def create (source type target : String) (properties : Fields) : Relationship :=
  ⟨idOf source type target, type, source, target, properties⟩

/-- The record of a relationship. -/
def toJson (r : Relationship) : Json :=
  .obj [("id", .str r.id), ("type", .str r.type), ("source", .str r.source),
    ("target", .str r.target), ("properties", .obj r.properties)]

/-- A relationship from its record: all but the properties must be there. -/
def ofJson (v : Json) : Except RecordFault Relationship := do
  let id ← Record.requiredText v "id"
  let type ← Record.requiredText v "type"
  let source ← Record.requiredText v "source"
  let target ← Record.requiredText v "target"
  let properties ← Record.fieldsOf v "properties"
  return ⟨id, type, source, target, properties⟩

end Relationship

end RepoGraph
