import RepoGraph.Text.Blank
import RepoGraph.Text.Case

/-!
# Projects

One graph store and one vector store serve several projects.  A project is named by a *slug*: lower
case letters, digits, hyphens and underscores, without hyphens at the ends or side by side.
`slug` makes one from any text, and `collection` names the project's part of the vector store.
-/

namespace RepoGraph

namespace Project

/-- The characters a slug may hold beside the hyphen. -/
def isSlugLetter (c : Char) : Bool :=
  ('a' ≤ c && c ≤ 'z') || ('0' ≤ c && c ≤ '9') || c == '_'

/-- Every character that a slug may not hold becomes a hyphen. -/
def hyphenate (c : Char) : Char := if isSlugLetter c then c else '-'

/-- A run of hyphens becomes one hyphen. -/
def collapseHyphens : List Char → List Char
  | [] => []
  | c :: rest =>
    match collapseHyphens rest with
    | '-' :: more => if c == '-' then '-' :: more else c :: '-' :: more
    | other => c :: other

/-- The slug of a text. -/
def slug (value : String) : String :=
  let letters := (Text.lower (Text.strip value)).toList.map hyphenate
  String.ofList (Text.trimChars (· == '-') (collapseHyphens letters))

/-- The collection of a project: its slug, two underscores and the name of what is collected. -/
def collection (project base : String) : String := project ++ "__" ++ base

end Project

end RepoGraph
