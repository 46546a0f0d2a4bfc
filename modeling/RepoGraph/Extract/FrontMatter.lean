import RepoGraph.Yaml.Reader

/-!
# Front matter

A document may begin with a block of YAML between two fences.  A fence is a line of three hyphens,
blanks allowed behind them; the block ends at the first fence after the line that follows the
opening one.  `FrontMatter.split` cuts a text there, and `FrontMatter.read` gives the block as
fields.
-/

namespace RepoGraph

namespace FrontMatter

/-! ### Fences -/

/-- The three hyphens of a fence. -/
def fence : List Char := ['-', '-', '-']

/-- Whether a character is a space or a tab. -/
def isPadding (c : Char) : Bool := c == ' ' || c == '\t'

/-- The rest after a line break. -/
def afterBreak? : List Char → Option (List Char)
  | '\n' :: rest => some rest
  | '\r' :: '\n' :: rest => some rest
  | _ => none

/-- The rest after the hyphens of a fence and the blanks behind them. -/
def afterHyphens? (cs : List Char) : Option (List Char) :=
  if fence.isPrefixOf cs then some ((cs.drop fence.length).dropWhile isPadding) else none

/-- The rest after the opening fence. -/
def afterOpening? (cs : List Char) : Option (List Char) := (afterHyphens? cs).bind afterBreak?

/-- The rest after a line break and a closing fence, which may end the text. -/
def afterClosing? (cs : List Char) : Option (List Char) := do
  match ← afterHyphens? (← afterBreak? cs) with
  | [] => return []
  | rest => afterBreak? rest

/-- What stands before the first closing fence and what stands after it. -/
def splitAtClosing? : List Char → Option (List Char × List Char)
  | [] => none
  | c :: rest =>
    match afterClosing? (c :: rest) with
    | some body => some ([], body)
    | none => (splitAtClosing? rest).map fun (block, body) => (c :: block, body)

/-- The block between the fences of a text and the body after them. -/
def split? (cs : List Char) : Option (List Char × List Char) :=
  (afterOpening? cs).bind splitAtClosing?

/-! ### Fields -/

/-- Why a block has no fields. -/
inductive Fault where
  | yaml (fault : Yaml.Fault)
  | json (fault : Yaml.JsonFault)
deriving DecidableEq, Repr

/-- The fields of a block; a block that is no mapping has none. -/
def fields (block : String) : Except Fault Fields := do
  match ← (Yaml.read block).mapError .yaml with
  | .map entries => return Fields.update [] (← (Yaml.Value.entriesToJson entries).mapError .json)
  | _ => return []

/-- The fields of the front matter of a text, and its body. -/
def read (text : String) : Except Fault (Fields × String) := do
  match split? text.toList with
  | none => return ([], text)
  | some (block, body) => return (← fields (String.ofList block), String.ofList body)

end FrontMatter

end RepoGraph
