import RepoGraph.Json.Basic

/-!
# Writing JSON

`Json.compact` writes a value on one line, with a blank after each comma and colon; `Json.pretty`
gives every item a line of its own, two blanks deeper than its container.  All text is ASCII:
other characters are escaped by UTF-16 units in lower-case hexadecimal.  Numbers take their
shortest text, and the three values without a numeral are the words `NaN`, `Infinity` and
`-Infinity`.
-/

namespace RepoGraph

namespace Json

/-- A hexadecimal digit, in lower case. -/
def hexChar (n : Nat) : Char := if n < 10 then Char.ofNat (48 + n) else Char.ofNat (87 + n)

/-- The last `width` hexadecimal digits of a natural. -/
def hexDigits : Nat → Nat → List Char
  | 0, _ => []
  | width + 1, n => hexDigits width (n / 16) ++ [hexChar (n % 16)]

/-- The escape of one UTF-16 unit. -/
def escapeUnit (n : Nat) : List Char := '\\' :: 'u' :: hexDigits 4 n

/-- The UTF-16 units of a character. -/
def utf16Units (c : Char) : List Nat :=
  let n := c.toNat
  if n < 0x10000 then [n]
  else [0xD800 + (n - 0x10000) / 0x400, 0xDC00 + (n - 0x10000) % 0x400]

/-- A character inside a string. -/
def escapeChar (c : Char) : List Char :=
  if c == '"' then ['\\', '"']
  else if c == '\\' then ['\\', '\\']
  else if c == '\n' then ['\\', 'n']
  else if c == '\r' then ['\\', 'r']
  else if c == '\t' then ['\\', 't']
  else if c == '\x08' then ['\\', 'b']
  else if c == '\x0c' then ['\\', 'f']
  else if 0x20 ≤ c.toNat && c.toNat ≤ 0x7E then [c]
  else (utf16Units c).flatMap escapeUnit

/-- A string between quotes. -/
def quote (s : String) : String :=
  "\"" ++ String.ofList (s.toList.flatMap escapeChar) ++ "\""

/-- The text of a number. -/
def floatText (x : Binary64) : String :=
  if x.isNaN then "NaN"
  else if x.isInfinite then (if x.isNegative then "-Infinity" else "Infinity")
  else x.finiteText

mutual

/-- A value on one line. -/
def compact : Json → String
  | null => "null"
  | bool true => "true"
  | bool false => "false"
  | int n => toString n
  | float x => floatText x
  | str s => quote s
  | arr items => "[" ++ compactItems items ++ "]"
  | obj fields => "\x7b" ++ compactFields fields ++ "\x7d"

/-- Items between commas. -/
def compactItems : List Json → String
  | [] => ""
  | [item] => compact item
  | item :: rest => compact item ++ ", " ++ compactItems rest

/-- Fields between commas. -/
def compactFields : List (String × Json) → String
  | [] => ""
  | [(name, value)] => quote name ++ ": " ++ compact value
  | (name, value) :: rest => quote name ++ ": " ++ compact value ++ ", " ++ compactFields rest

end

/-- A new line with the given number of blanks. -/
def newline (indent : Nat) : String := "\n" ++ "".pushn ' ' indent

mutual

/-- A value over several lines, inside a container indented by `indent`. -/
def prettyAt (indent : Nat) : Json → String
  | arr [] => "[]"
  | arr items => "[" ++ prettyItems (indent + 2) items ++ newline indent ++ "]"
  | obj [] => "\x7b\x7d"
  | obj fields => "\x7b" ++ prettyFields (indent + 2) fields ++ newline indent ++ "\x7d"
  | null => "null"
  | bool true => "true"
  | bool false => "false"
  | int n => toString n
  | float x => floatText x
  | str s => quote s

/-- Items, each on a line of its own. -/
def prettyItems (indent : Nat) : List Json → String
  | [] => ""
  | [item] => newline indent ++ prettyAt indent item
  | item :: rest => newline indent ++ prettyAt indent item ++ "," ++ prettyItems indent rest

/-- Fields, each on a line of its own. -/
def prettyFields (indent : Nat) : List (String × Json) → String
  | [] => ""
  | [(name, value)] => newline indent ++ quote name ++ ": " ++ prettyAt indent value
  | (name, value) :: rest =>
    newline indent ++ quote name ++ ": " ++ prettyAt indent value ++ "," ++
      prettyFields indent rest

end

/-- A value over several lines. -/
def pretty (v : Json) : String := prettyAt 0 v

end Json

end RepoGraph
