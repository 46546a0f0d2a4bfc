import RepoGraph.Json.Basic
import RepoGraph.Source.Kind

/-!
# Changes between revisions

A diff is a list of fields: a status word and one path, or a status word for a rename or a copy and
two paths.  `Change.ofFields` reads such a list, and `selection` splits the changes into the files
to read and the paths that are gone.
-/

namespace RepoGraph

/-- What happened to a file. -/
inductive ChangeStatus where
  | added
  | modified
  | deleted
  | renamed (oldPath : String)
deriving DecidableEq, Repr

/-- The word for a status. -/
def ChangeStatus.word : ChangeStatus → String
  | .added => "added"
  | .modified => "modified"
  | .deleted => "deleted"
  | .renamed _ => "renamed"

/-- A file and what happened to it. -/
structure Change where
  file : String
  status : ChangeStatus
deriving DecidableEq, Repr

namespace Change

/-- The fields of a text in which each ends with a zero character; empty fields are dropped. -/
def fieldsOf (text : String) : List String :=
  (Text.splitOnChar '\x00' text).filter (· != "")

/-- The status a word for one path begins with; a word of another kind means a modification. -/
def statusOf (word : String) : ChangeStatus :=
  match word.toList with
  | 'A' :: _ => .added
  | 'D' :: _ => .deleted
  | _ => .modified

/-- Whether a word announces a source and a destination path. -/
def isPairWord (word : String) : Bool :=
  match word.toList with
  | c :: _ => c == 'R' || c == 'C'
  | [] => false

/-- A change with a source and a destination: a copy adds the destination. -/
def ofPair (word source destination : String) : Change :=
  ⟨destination, if word.toList.head? == some 'R' then .renamed source else .added⟩

/-- The changes of a diff's fields.  A word for two paths with only one left is read as a
modification of that path, a word without a path ends the diff. -/
def ofFields : List String → List Change
  | word :: first :: second :: rest =>
    if isPairWord word then ofPair word first second :: ofFields rest
    else ⟨first, statusOf word⟩ :: ofFields (second :: rest)
  | [word, path] => [⟨path, statusOf word⟩]
  | _ => []
termination_by fields => fields.length

/-- The changes of the text of a diff. -/
def ofDiff (text : String) : List Change := ofFields (fieldsOf text)

/-- The record of a change. -/
def toJson (c : Change) : Json :=
  .obj [("file", .str c.file), ("status", .str c.status.word),
    ("oldPath", match c.status with | .renamed old => .str old | _ => .null)]

/-! ### What to read and what is gone -/

/-- The paths that a change removes. -/
def removedPaths (c : Change) : List String :=
  match c.status with
  | .deleted => [c.file]
  | .renamed old => if old == "" then [] else [old]
  | _ => []

/-- Whether the file of a change is to be read. -/
def isToRead (c : Change) : Bool := c.status != .deleted && Source.isIncluded c.file

/-- The files to read and the removed paths of a list of changes. -/
def selection (changes : List Change) : List String × List String :=
  ((changes.filter isToRead).map Change.file, changes.flatMap removedPaths)

end Change

end RepoGraph
