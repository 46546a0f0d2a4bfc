import RepoGraph.Json.Basic
import RepoGraph.Text.Quoted

/-!
# Values as plain text

Where a value takes the place of a name it is shown as text: a text as it is, everything else in a
notation with quoted texts, brackets and braces, and the words `None`, `True` and `False`.
-/

namespace RepoGraph

namespace Json

mutual

/-- A value inside another: texts are quoted. -/
def shown : Json → String
  | null => "None"
  | bool true => "True"
  | bool false => "False"
  | int n => toString n
  | float x => x.text
  | str s => Text.quoted s
  | arr items => "[" ++ shownItems items ++ "]"
  | obj fields => "\x7b" ++ shownFields fields ++ "\x7d"

/-- Items between commas. -/
def shownItems : List Json → String
  | [] => ""
  | [item] => shown item
  | item :: rest => shown item ++ ", " ++ shownItems rest

/-- Fields between commas. -/
def shownFields : List (String × Json) → String
  | [] => ""
  | [(name, value)] => Text.quoted name ++ ": " ++ shown value
  | (name, value) :: rest =>
    Text.quoted name ++ ": " ++ shown value ++ ", " ++ shownFields rest

end

/-- A value as plain text: a text stands for itself. -/
def display : Json → String
  | str s => s
  | v => shown v

end Json

end RepoGraph
