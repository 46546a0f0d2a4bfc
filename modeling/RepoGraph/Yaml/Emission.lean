import RepoGraph.Yaml.Value

/-!
# The text of a value as it is put out

A value is written piece by piece while it is walked, so a fault that is found inside it comes after
the text of all that stands before.  `Value.emit` is what is put out of a value: the text over
several lines that `Json.pretty` gives, up to the fault if there is one.

Keys and values are those of `Yaml.Value`.  A value of any other type is written as the text it
shows itself as, so it counts as that text.
-/

namespace RepoGraph

namespace Yaml

/-- What is put out: a text, and the fault that stopped it, if one did. -/
structure Emission where
  text : String
  fault : Option JsonFault

namespace Emission

/-- A text that is put out as a whole. -/
def whole (text : String) : Emission := ⟨text, none⟩

/-- A text, or nothing if it cannot be made. -/
def ofText : Except JsonFault String → Emission
  | .ok text => whole text
  | .error fault => ⟨"", some fault⟩

/-- One after the other; nothing comes after a fault. -/
def andThen (first rest : Emission) : Emission :=
  match first.fault with
  | some _ => first
  | none => ⟨first.text ++ rest.text, rest.fault⟩

instance : Append Emission := ⟨andThen⟩

end Emission

namespace Value

open Emission (whole ofText)

mutual

/-- What is put out of a value inside a container indented by `indent`, with a text before it.  The
text before a scalar is put out together with the scalar. -/
def emit (before : String) (indent : Nat) : Value → Emission
  | scalar s => ofText (s.toJson.map fun json => before ++ json.prettyAt indent)
  | list [] => whole (before ++ "[]")
  | list items =>
    whole before ++ emitItems ("[" ++ Json.newline (indent + 2)) (indent + 2) items ++
      whole (Json.newline indent ++ "]")
  | map [] => whole (before ++ "\x7b\x7d")
  | map entries =>
    whole (before ++ "\x7b" ++ Json.newline (indent + 2)) ++ emitEntries "" (indent + 2) entries ++
      whole (Json.newline indent ++ "\x7d")
  | set keys =>
    whole before ++ ofText (((shownSet keys).mapError .numeral).map Json.quote)
  | pair key value =>
    whole before ++
      (emit ("[" ++ Json.newline (indent + 2)) (indent + 2) key ++
        emit ("," ++ Json.newline (indent + 2)) (indent + 2) value) ++
      whole (Json.newline indent ++ "]")
  | loop _ => ⟨before, some .circular⟩

/-- What is put out of items, with a text before the first one. -/
def emitItems (before : String) (indent : Nat) : List Value → Emission
  | [] => whole ""
  | item :: rest =>
    emit before indent item ++ emitItems ("," ++ Json.newline indent) indent rest

/-- What is put out of entries, with a text before the first one. -/
def emitEntries (before : String) (indent : Nat) : List (Scalar × Value) → Emission
  | [] => whole ""
  | (key, value) :: rest =>
    ofText (key.fieldName.map fun name => before ++ Json.quote name ++ ": ") ++
      emit "" indent value ++ emitEntries ("," ++ Json.newline indent) indent rest

end

end Value

end Yaml

end RepoGraph
