import RepoGraph.Json.Reader

/-!
# The first object inside a text

A reply may wrap a JSON object in prose.  `Json.findObject` looks at each opening brace in turn,
follows the text to the brace that closes it (braces inside string literals do not count) and takes
the first such span that reads as an object.
-/

namespace RepoGraph

namespace Json

/-- Where the scan stands: outside string literals, inside one, or after a backslash in one. -/
inductive ScanState where
  | outside
  | inside
  | escaped
deriving DecidableEq, Repr

/-- The length of the text up to the brace that closes `depth` open ones, when there is such a
brace. -/
def closingLength (state : ScanState) (depth : Nat) : List Char → Option Nat
  | [] => none
  | c :: rest =>
    let go (state : ScanState) (depth : Nat) : Option Nat :=
      (closingLength state depth rest).map (· + 1)
    match state with
    | .escaped => go .inside depth
    | .inside =>
      if c == '\\' then go .escaped depth
      else if c == '"' then go .outside depth
      else go .inside depth
    | .outside =>
      if c == '"' then go .inside depth
      else if c == '\x7b' then go .outside (depth + 1)
      else if c == '\x7d' then (if depth ≤ 1 then some 1 else go .outside (depth - 1))
      else go .outside depth

/-- The object that a text beginning with a brace begins with. -/
def objectAt (cs : List Char) : Option Fields :=
  match closingLength .outside 0 cs with
  | none => none
  | some n =>
    match read (String.ofList (cs.take n)) with
    | .ok (.obj fields) => some fields
    | _ => none

/-- The first object among the spans that begin at an opening brace. -/
def findObjectChars : List Char → Fields
  | [] => []
  | c :: rest =>
    if c == '\x7b' then (objectAt (c :: rest)).getD (findObjectChars rest)
    else findObjectChars rest

/-- The first object in a text, and the empty object where there is none. -/
def findObject (text : Option String) : Fields := findObjectChars (text.getD "").toList

end Json

end RepoGraph
