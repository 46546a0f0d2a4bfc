import RepoGraph.Text.Blank
import RepoGraph.Text.Case

/-!
# File paths

Paths are texts whose parts are separated by slashes.  The *extension* of a path is what follows the
last dot of its file name, the dot included; dots that lead the name do not begin an extension.
`matchesGlob` decides file-name patterns in which `*` stands for any text.
-/

namespace RepoGraph

namespace Path

/-- The parts of a path between its slashes. -/
def parts (path : String) : List String := Text.splitOnChar '/' path

/-- The part after the last slash. -/
def fileName (path : String) : String := (parts path).getLastD ""

/-- The parts before the last slash. -/
def directories (path : String) : List String := (parts path).dropLast

/-- A path below a directory; an absolute path stays as it is. -/
def join (dir path : String) : String :=
  if path.startsWith "/" then path
  else if dir == "" || dir.endsWith "/" then dir ++ path
  else dir ++ "/" ++ path

/-- The text of a path before its last slash. -/
def parent (path : String) : String :=
  let dir := "/".intercalate (directories path)
  if dir == "" && path.startsWith "/" then "/" else dir

/-- A file name cut at its last dot, unless only dots precede that dot. -/
def splitName (name : String) : String × String :=
  let cs := name.toList
  let lead := cs.takeWhile (· == '.')
  let rest := cs.dropWhile (· == '.')
  let tail := rest.reverse.takeWhile (· != '.')
  if tail.length == rest.length then (name, "")
  else
    let stem := rest.take (rest.length - tail.length - 1)
    (String.ofList (lead ++ stem), String.ofList ('.' :: tail.reverse))

/-- The extension of a path, as it is written. -/
def extension (path : String) : String := (splitName (fileName path)).2

/-- The extension in lower case, which selects the reader of a file. -/
def kindExtension (path : String) : String := Text.lower (extension path)

/-- Whether a name matches a pattern in which `*` stands for any text and every other character
for itself: what follows a `*` matches some end of the name. -/
def matchesGlobChars : List Char → List Char → Bool
  | [], name => name.isEmpty
  | '*' :: pattern, name =>
    (List.range (name.length + 1)).any fun n => matchesGlobChars pattern (name.drop n)
  | _ :: _, [] => false
  | p :: pattern, c :: name => p == c && matchesGlobChars pattern name

/-- Whether a name matches a pattern with `*`. -/
def matchesGlob (pattern name : String) : Bool := matchesGlobChars pattern.toList name.toList

end Path

end RepoGraph
