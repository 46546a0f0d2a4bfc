import RepoGraph.Record

/-!
# Entities

An entity is one thing found in one file of the repository: the file itself, a class, a function, a
document, an asset.  Its id is made of its kind, its path and, inside a file, its name.  Enriching
adds a semantic layer beside the entity and changes nothing in it.
-/

namespace RepoGraph

/-- Where in a file something begins: the line from one, the column in bytes from zero. -/
structure Location where
  file : String
  line : Int
  column : Int
deriving DecidableEq, Repr

/-- Something found in a file. -/
structure Entity where
  id : String
  kind : String
  name : String
  path : String
  content : Option String
  metadata : Fields
  location : Option Location

namespace Entity

/-! ### Kinds and ids -/

/-- The kinds of entity. -/
def fileKind : String := "file"

@[inherit_doc fileKind]
def classKind : String := "class"

@[inherit_doc fileKind]
def functionKind : String := "function"

@[inherit_doc fileKind]
def documentKind : String := "document"

@[inherit_doc fileKind]
def assetKind : String := "asset"

/-- The kinds whose content is code. -/
def codeKinds : List String := [classKind, functionKind, "component", "system"]

/-- The kinds whose content is prose or data. -/
def documentKinds : List String := [documentKind, assetKind]

/-- The id of a file. -/
def fileId (path : String) : String := "file:" ++ path

/-- The id of a class of a file. -/
def classId (path name : String) : String := "class:" ++ path ++ ":" ++ name

/-- The id of a function of a file. -/
def functionId (path name : String) : String := "function:" ++ path ++ ":" ++ name

/-- The id of a document. -/
def documentId (path : String) : String := "doc:" ++ path

/-- The id of an asset. -/
def assetId (path : String) : String := "asset:" ++ path

/-! ### Records -/

end Entity

/-- The record of a location. -/
def Location.toJson (l : Location) : Json :=
  .obj [("file", .str l.file), ("line", .int l.line), ("column", .int l.column)]

/-- A location from its record. -/
def Location.ofJson (v : Json) : Except RecordFault Location :=
  match v with
  | .obj _ => do
    let file ← Record.textOr v "file" ""
    let line ← Record.integerOrZero v "line"
    let column ← Record.integerOrZero v "column"
    return ⟨file, line, column⟩
  | _ => .error .notARecord

namespace Entity

/-- The fields of an entity's record.  Content and location are left out when there are none. -/
def toFields (e : Entity) : Fields :=
  [("id", .str e.id), ("type", .str e.kind), ("name", .str e.name), ("path", .str e.path),
    ("metadata", .obj e.metadata)] ++
  (e.content.toList.map fun text => ("content", .str text)) ++
  (e.location.toList.map fun l => ("sourceLocation", l.toJson))

/-- The record of an entity. -/
def toJson (e : Entity) : Json := .obj e.toFields

/-- An entity from its record: id and kind must be there. -/
def ofJson (v : Json) : Except RecordFault Entity :=
  match v with
  | .obj _ => do
    let id ← Record.requiredText v "id"
    let kind ← Record.requiredText v "type"
    let name ← Record.textOr v "name" ""
    let path ← Record.textOr v "path" ""
    let content ← Record.optionalText v "content"
    let metadata ← Record.fieldsOf v "metadata"
    let location ← match v.get? "sourceLocation" with
      | some l => if l.isFilled then (Location.ofJson l).map some else .ok none
      | none => .ok none
    return ⟨id, kind, name, path, content, metadata, location⟩
  | _ => .error .notARecord

end Entity

/-! ### The semantic layer -/

/-- What enriching says about an entity; every part may be missing. -/
structure Enrichment where
  description : Option String
  purpose : Option String
  patterns : Option (List String)
  role : Option String
  complexity : Option Int
  embedding : Option (List Number)
deriving DecidableEq, Repr

namespace Enrichment

/-- Nothing said. -/
def none : Enrichment := ⟨.none, .none, .none, .none, .none, .none⟩

/-- The fields of the parts that are there. -/
def toFields (x : Enrichment) : Fields :=
  (x.description.toList.map fun s => ("semanticDescription", .str s)) ++
  (x.purpose.toList.map fun s => ("purpose", .str s)) ++
  (x.patterns.toList.map fun ps => ("patterns", .arr (ps.map .str))) ++
  (x.role.toList.map fun s => ("architecturalRole", .str s)) ++
  (x.complexity.toList.map fun n => ("complexity", .int n)) ++
  (x.embedding.toList.map fun v => ("embedding", .arr (v.map Number.toJson)))

/-- The semantic layer from a record. -/
def ofJson (v : Json) : Except RecordFault Enrichment := do
  let description ← Record.optionalText v "semanticDescription"
  let purpose ← Record.optionalText v "purpose"
  let patterns ← Record.optionalList Record.text v "patterns"
  let role ← Record.optionalText v "architecturalRole"
  let complexity ← Record.optionalInteger v "complexity"
  let embedding ← Record.optionalList Record.number v "embedding"
  return ⟨description, purpose, patterns, role, complexity, embedding⟩

end Enrichment

/-- An entity with its semantic layer. -/
structure Enriched where
  entity : Entity
  enrichment : Enrichment

namespace Enriched

/-- An entity about which nothing is said. -/
def plain (e : Entity) : Enriched := ⟨e, .none⟩

/-- The entity's id. -/
def id (e : Enriched) : String := e.entity.id

/-- Whether there is an embedding with at least one number. -/
def hasEmbedding (e : Enriched) : Bool :=
  match e.enrichment.embedding with
  | some (_ :: _) => true
  | _ => false

/-- The record: the entity's fields, then those of the semantic layer. -/
def toJson (e : Enriched) : Json := .obj (e.entity.toFields ++ e.enrichment.toFields)

/-- An enriched entity from its record. -/
def ofJson (v : Json) : Except RecordFault Enriched := do
  let entity ← Entity.ofJson v
  let enrichment ← Enrichment.ofJson v
  return ⟨entity, enrichment⟩

end Enriched

end RepoGraph
