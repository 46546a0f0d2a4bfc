import RepoGraph.Extract.Findings
import RepoGraph.Extract.FrontMatter
import RepoGraph.Json.Display
import RepoGraph.Path

/-!
# Documents

A document becomes one entity.  It documents the code files named in its code spans, links to the
documents its links point to, and is related to what its front matter lists.
-/

namespace RepoGraph

namespace Extract

/-- How much of a document's body goes into its entity, in characters. -/
def documentLimit : Nat := 2000

/-- The extensions of the code files that a code span may name. -/
def spanExtensions : List String := [".js", ".ts", ".jsx", ".tsx", ".py"]

/-- The sign at both ends of a code span. -/
def spanSign : Char := '\x60'

/-- Whether a text is a name with one of the extensions. -/
def isCodeName (name : List Char) : Bool :=
  spanExtensions.any fun e =>
    e.toList.length < name.length && e.toList.isSuffixOf name

/-- The code files named in code spans, in order.  After a span the text is read on behind it. -/
def spanNames : Nat → List Char → List String
  | 0, _ => []
  | _, [] => []
  | fuel + 1, c :: rest =>
    if c == spanSign then
      let name := rest.takeWhile (· != spanSign)
      match rest.drop name.length with
      | _ :: after =>
        if isCodeName name then String.ofList name :: spanNames fuel after
        else spanNames fuel rest
      | [] => spanNames fuel rest
    else spanNames fuel rest

/-- The link that begins at an opening bracket, as text and target, and what follows it. -/
def link? (rest : List Char) : Option (List Char × List Char × List Char) :=
  let label := rest.takeWhile (· != ']')
  match rest.drop label.length with
  | ']' :: '(' :: more =>
    let target := more.takeWhile (· != ')')
    match more.drop target.length with
    | _ :: after =>
      if label.isEmpty || target.isEmpty then none else some (label, target, after)
    | [] => none
  | _ => none

/-- The links of a text, in order. -/
def links : Nat → List Char → List (String × String)
  | 0, _ => []
  | _, [] => []
  | fuel + 1, c :: rest =>
    if c == '[' then
      match link? rest with
      | some (label, target, after) =>
        (String.ofList label, String.ofList target) :: links fuel after
      | none => links fuel rest
    else links fuel rest

/-- A field that names one thing or a list of things. -/
def listed (fields : Fields) (name : String) : List Json :=
  match fields.get? name with
  | none | some .null => []
  | some (.arr items) => items
  | some item => [item]

/-- A file name without the extension of documents. -/
def documentName (path : String) : String :=
  let name := Path.fileName path
  if name.endsWith ".md" then Text.take (name.length - 3) name else name

/-- What a document yields. -/
def document (text path : String) : Except FrontMatter.Fault Findings := do
  let (fields, body) ← FrontMatter.read text
  let id := Entity.documentId path
  let entity : Entity :=
    ⟨id, Entity.documentKind, documentName path, path, some (Text.take documentLimit body),
      [("frontmatter", .obj fields), ("wordCount", .int (Text.words body).length)], none⟩
  let cs := body.toList
  let spans := (spanNames cs.length cs).map fun name =>
    (Relationship.documents, Entity.fileId name, [])
  let linked := ((links cs.length cs).filter fun l => l.2.endsWith ".md").map fun (label, target) =>
    (Relationship.linksTo, Entity.documentId target, [("text", Json.str label)])
  let related := (listed fields "relates_to").map fun v => (Relationship.relatesTo, v.display, [])
  let documented := (listed fields "documents").map fun v => (Relationship.documents, v.display, [])
  return (spans ++ linked ++ related ++ documented).foldl
    (fun acc (type, target, properties) => acc.relate id type target properties) ⟨[entity], []⟩

end Extract

end RepoGraph
