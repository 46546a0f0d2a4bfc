import RepoGraph.Path
import RepoGraph.Source.Kind
import RepoGraph.Syntax.Node

/-!
# Source files

The text of a source file, addressed by character offsets.  Rows count line feeds; columns count the
bytes of the text's encoding from the last line feed on.
-/

namespace RepoGraph

-- sums start from the zero of the naturals, whatever other zeros are in scope
attribute [local instance (high)] Zero.ofOfNat0

namespace Syntax

/-- A source file under reading. -/
structure File where
  path : String
  chars : Array Char

namespace File

/-- A file with the given text. -/
def ofText (path text : String) : File := ⟨path, text.toList.toArray⟩

/-- The characters of a stretch. -/
def slice (f : File) (span : Span) : List Char :=
  (f.chars.extract span.start span.stop).toList

/-- The text of a stretch. -/
def text (f : File) (span : Span) : String := String.ofList (f.slice span)

/-- The text of a node. -/
def nodeText (f : File) (n : Node) : String := f.text n.span

/-- The number of line feeds among characters. -/
def lineFeeds (cs : List Char) : Nat := cs.countP (· == '\n')

/-- The characters after the last line feed. -/
def lastLine (cs : List Char) : List Char := (cs.reverse.takeWhile (· != '\n')).reverse

/-- The bytes that encode characters. -/
def byteCount (cs : List Char) : Nat := (cs.map Char.utf8Size).sum

/-- The row, from zero, and the column of an offset. -/
def position (f : File) (offset : Nat) : Nat × Nat :=
  let before := f.slice ⟨0, offset⟩
  (lineFeeds before, byteCount (lastLine before))

end File

end Syntax

end RepoGraph
