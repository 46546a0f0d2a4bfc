import RepoGraph.Extract.Findings
import RepoGraph.Extract.Outline
import RepoGraph.Extract.Script
import RepoGraph.Outline.Tree
import RepoGraph.Script.Tree
import RepoGraph.Text.Word

/-!
# Code files

A code file becomes one entity for the file and one for every class and function declared in it,
with edges for imports, definitions, inheritance, events and patterns.  The language is given or
follows from the extension.

A comment such as `// @implements observer` claims that its file implements a pattern.  Such a mark
is looked for in the bare text: a double slash or a hash sign, one space, the word, one space, and a
name of word characters and hyphens.
-/

namespace RepoGraph

/-- Why a file is not read as code. -/
inductive CodeFault where
  /-- The extension belongs to no language. -/
  | unsupported (path : String)
  /-- No grammar exists for the language. -/
  | noGrammar (language : String)
deriving DecidableEq, Repr

/-- The fault as text. -/
def CodeFault.message : CodeFault → String
  | unsupported path => "Unsupported code file: " ++ path
  | noGrammar language => "tree-sitter grammar unavailable for " ++ language

namespace Extract

open Syntax (File)

/-! ### Pattern marks -/

/-- The characters of a pattern's name. -/
def isPatternChar (c : Char) : Bool := Text.isWord c || c == '-'

/-- What follows the sign of a mark. -/
def markWord : List Char := " @implements ".toList

/-- The text after the sign of a mark. -/
def afterMarkSign : List Char → Option (List Char)
  | '/' :: '/' :: rest => some rest
  | '#' :: rest => some rest
  | _ => none

/-- The name of a mark that begins a text. -/
def markName? (cs : List Char) : Option (List Char) :=
  match afterMarkSign cs with
  | none => none
  | some rest =>
    if markWord.isPrefixOf rest then
      let name := (rest.drop markWord.length).takeWhile isPatternChar
      if name.isEmpty then none else some name
    else none

/-- The names of the marks of a text, in order. -/
def markNames : List Char → List String
  | [] => []
  | c :: cs =>
    match markName? (c :: cs) with
    | some name => String.ofList name :: markNames cs
    | none => markNames cs

/-- Adds the patterns that a file claims to implement. -/
def addPatterns (path text : String) (found : Findings) : Findings :=
  (markNames text.toList).foldl (fun acc name =>
    acc.relate (Entity.fileId path) Relationship.implementsPattern ("pattern:" ++ name) []) found

/-! ### The file -/

/-- How much of a file's text goes into its entity, in characters. -/
def previewLimit : Nat := 1000

/-- The entity of a code file. -/
def fileEntity (path text language : String) : Entity :=
  ⟨Entity.fileId path, Entity.fileKind, Path.fileName path, path,
    some (Text.take previewLimit text),
    [("extension", .str (Path.extension path)), ("size", .int text.length),
      ("language", .str language)],
    none⟩

/-- What the tree of a code file yields. -/
def walkCode (language : Language) (file : File) (found : Findings) : Findings :=
  match language with
  | .javascript => Script.walk file (Script.tree ⟨false, true⟩ file.chars) found
  | .typescript => Script.walk file (Script.tree ⟨true, false⟩ file.chars) found
  | .tsx => Script.walk file (Script.tree ⟨true, true⟩ file.chars) found
  | .python => Outline.walk file (Outline.tree file.chars) found

/-- The language of a file: the one that is named, or that of the path. -/
def languageOf (path : String) (named : Option String) : Except CodeFault Language :=
  match named with
  | some "" | none =>
    match Language.ofPath? path with
    | some language => .ok language
    | none => .error (.unsupported path)
  | some name =>
    match Language.ofName? name with
    | some language => .ok language
    | none => .error (.noGrammar name)

/-- What a code file yields. -/
def code (text path : String) (named : Option String) : Except CodeFault Findings := do
  let language ← languageOf path named
  let file := File.ofText path text
  let found := walkCode language file ⟨[fileEntity path text language.name], []⟩
  return addPatterns path text found

end Extract

end RepoGraph
