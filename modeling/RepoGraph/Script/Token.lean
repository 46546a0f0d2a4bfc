import RepoGraph.Syntax.Scan
import RepoGraph.Text.Blank

/-!
# Tokens of scripts

Words, marks, numbers, literals and regular expressions, and what lies between tokens: blanks and
comments.  A statement may end without a semicolon at a line end; `endsStatement` decides by the
character that follows.
-/

namespace RepoGraph

namespace Script

open Syntax

/-! ### Blanks and comments -/

/-- The characters between tokens: blanks, and the marks without a width. -/
def isSpace (c : Char) : Bool :=
  Text.isBlank c || c == '\uFEFF' || c == '\u2060' || c == '\u200B'

/-- The characters that end a line. -/
def isLineEnd (c : Char) : Bool := c == '\n' || c == '\u2028' || c == '\u2029'

/-- The offset after a comment that ends with its line. -/
def lineCommentEnd (chars : Array Char) (start : Nat) : Nat :=
  start + Scan.countWhile (fun c => !isLineEnd c) chars (chars.size - start) start

/-- The offset after a comment that ends with a star and a slash, and whether a line ended in
it. -/
def blockCommentEnd (chars : Array Char) : Nat → Nat → Bool → Nat × Bool
  | 0, k, newline => (k, newline)
  | n + 1, k, newline =>
    match chars[k]?, chars[k + 1]? with
    | some '*', some '/' => (k + 2, newline)
    | some c, _ => blockCommentEnd chars n (k + 1) (newline || isLineEnd c)
    | none, _ => (k, newline)

/-- Moves a cursor past blanks and comments. -/
def skipFrom : Nat → Cursor → Cursor
  | 0, c => c
  | n + 1, c =>
    match c.chars[c.pos]?, c.chars[c.pos + 1]? with
    | some '/', some '/' =>
      let stop := lineCommentEnd c.chars c.pos
      skipFrom n { c with pos := stop, comments := ⟨c.pos, stop⟩ :: c.comments }
    | some '/', some '*' =>
      let (stop, newline) := blockCommentEnd c.chars (c.chars.size - c.pos) (c.pos + 2) c.newline
      skipFrom n
        { c with pos := stop, newline := newline, comments := ⟨c.pos, stop⟩ :: c.comments }
    | some x, _ =>
      if isSpace x then skipFrom n { c with pos := c.pos + 1, newline := c.newline || isLineEnd x }
      else c
    | none, _ => c

/-- Moves to the next token. -/
def skip : Scan Unit := fun c => some ((), skipFrom (c.chars.size + 1 - c.pos) c)

/-- Passes a token of `n` characters. -/
def pass (n : Nat) : Scan Unit := do
  Scan.advance n
  skip

/-! ### Marks -/

/-- A mark. -/
def mark (text : String) : Scan Unit := do
  Scan.check (← Scan.startsWith text)
  pass text.length

/-- Whether a mark comes next. -/
def seesMark (text : String) : Scan Bool := Scan.startsWith text

/-- The first of several marks, longer ones standing first. -/
def anyMark (texts : List String) : Scan Unit := Scan.firstOf (texts.map mark)

/-! ### Words -/

/-- Whether a character may stand in a word, digits included. -/
def isWordChar (c : Char) : Bool :=
  if c.toNat < 0x80 then c.isAlphanum || c == '_' || c == '$' || c == '\x7f'
  else !isSpace c

/-- Whether a character may begin a word. -/
def isWordStart (c : Char) : Bool := isWordChar c && !c.isDigit

/-- The length of the escaped character at an offset: a backslash, the letter `u` and hexadecimal
digits, four of them or any number between braces. -/
def escapeLength (chars : Array Char) (k : Nat) : Nat :=
  if chars[k]? == some '\\' && chars[k + 1]? == some 'u' then
    if chars[k + 2]? == some '\x7b' then
      Scan.countWhile (· != '\x7d') chars (chars.size - k) (k + 3) + 4
    else 6
  else 0

/-- The length of the rest of a word at an offset. -/
def wordLength (chars : Array Char) : Nat → Nat → Nat
  | 0, _ => 0
  | n + 1, k =>
    match chars[k]? with
    | none => 0
    | some c =>
      if isWordChar c then wordLength chars n (k + 1) + 1
      else
        let escape := escapeLength chars k
        if escape == 0 then 0 else wordLength chars n (k + escape) + escape

/-- The length of the word at the cursor, zero when there is none. -/
def wordLengthHere : Scan Nat := fun c =>
  let n := match c.chars[c.pos]? with
    | some x => if x.isDigit then 0 else wordLength c.chars (c.chars.size - c.pos) c.pos
    | none => 0
  some (n, c)

/-- The word at the cursor, empty when there is none. -/
def peekWord : Scan String := do
  Scan.peekText (← wordLengthHere)

/-- A given word. -/
def word (text : String) : Scan Unit := do
  Scan.check ((← peekWord) == text)
  pass text.length

/-- Whether a word comes next. -/
def seesWord (text : String) : Scan Bool := do return (← peekWord) == text

/-- One of several words. -/
def wordOf (texts : List String) : Scan String := do
  let text ← peekWord
  Scan.check (texts.contains text)
  pass text.length
  return text

/-- The words that are never names of variables. -/
def reservedWords : List String :=
  ["break", "case", "catch", "class", "const", "continue", "debugger", "default", "delete", "do",
    "else", "export", "extends", "finally", "for", "function", "if", "import", "in", "instanceof",
    "new", "null", "return", "super", "switch", "this", "throw", "true", "false", "try", "typeof",
    "var", "void", "while", "with"]

/-- Any word, as a node of the given kind. -/
def anyWord (kind : Kind) : Scan Node := do
  let start ← Scan.position
  let n ← wordLengthHere
  Scan.check (0 < n)
  pass n
  Scan.node kind start []

/-- The name of a variable.  The word for the undefined value is no identifier. -/
def identifier : Scan Node := do
  let text ← peekWord
  Scan.check (!reservedWords.contains text)
  anyWord (if text == "undefined" then .other else .identifier)

/-! ### Numbers, literals, regular expressions -/

/-- The length of a number at an offset. -/
def numberLength (chars : Array Char) (k : Nat) : Nat :=
  let size := chars.size
  let isDigitMark (c : Char) : Bool := c.isDigit || c == '_'
  let isTail (c : Char) : Bool := c.isAlphanum || c == '_'
  let isBase (c : Char) : Bool :=
    c == 'x' || c == 'X' || c == 'o' || c == 'O' || c == 'b' || c == 'B'
  if chars[k]? == some '0' && (chars[k + 1]?).any isBase then
    2 + Scan.countWhile isTail chars size (k + 2)
  else
    let whole := Scan.countWhile isDigitMark chars size k
    let point := if chars[k + whole]? == some '.' then
        1 + Scan.countWhile isDigitMark chars size (k + whole + 1)
      else 0
    let m := whole + point
    let hasExponent := (chars[k + m]?).any fun c => c == 'e' || c == 'E'
    let signed := (chars[k + m + 1]?).any fun c => c == '+' || c == '-'
    let exponent :=
      if hasExponent then
        (if signed then 2 else 1) +
          Scan.countWhile isDigitMark chars size (k + m + (if signed then 2 else 1))
      else 0
    let suffix := if chars[k + m + exponent]? == some 'n' then 1 else 0
    m + exponent + suffix

/-- A number. -/
def number : Scan Node := do
  let start ← Scan.position
  let first ← Scan.charAt 0
  let second ← Scan.charAt 1
  Scan.check (first.any Char.isDigit || (first == some '.' && second.any Char.isDigit))
  let n : Nat ← fun c => some (numberLength c.chars c.pos, c)
  pass n
  Scan.node .other start []

/-- The offset after the closing quote of a literal; a backslash takes the next character along. -/
def quotedEnd (quote : Char) (chars : Array Char) : Nat → Nat → Option Nat
  | 0, _ => none
  | n + 1, k =>
    match chars[k]? with
    | none => none
    | some '\\' => quotedEnd quote chars n (k + 2)
    | some c => if c == quote then some (k + 1) else quotedEnd quote chars n (k + 1)

/-- A literal in quotes. -/
def string : Scan Node := do
  let start ← Scan.position
  let quote ← Scan.charAt 0
  match quote with
  | none => Scan.fail
  | some q =>
    Scan.check (q == '"' || q == '\'')
    let stop : Option Nat ← fun c => some (quotedEnd q c.chars c.chars.size (c.pos + 1), c)
    match stop with
    | none => Scan.fail
    | some k =>
      pass (k - start)
      Scan.node .string start []

/-- The offset after the closing slash of a regular expression; a slash between square brackets does
not close it. -/
def regexEnd (chars : Array Char) : Nat → Bool → Nat → Option Nat
  | 0, _, _ => none
  | n + 1, inClass, k =>
    match chars[k]? with
    | none => none
    | some '\\' => regexEnd chars n inClass (k + 2)
    | some '[' => regexEnd chars n true (k + 1)
    | some ']' => regexEnd chars n false (k + 1)
    | some '/' => if inClass then regexEnd chars n true (k + 1) else some (k + 1)
    | some c => if isLineEnd c then none else regexEnd chars n inClass (k + 1)

/-- A regular expression with its flags. -/
def regex : Scan Node := do
  let start ← Scan.position
  Scan.check (← Scan.startsWith "/")
  let stop : Option Nat ← fun c => some (regexEnd c.chars c.chars.size false (c.pos + 1), c)
  match stop with
  | none => Scan.fail
  | some k =>
    Scan.advance (k - start)
    let flags ← Scan.runLength isWordChar
    pass flags
    Scan.node .other start []

/-! ### Line ends -/

/-- Whether the characters at an offset let a statement end at the line end before them. -/
def beginsStatement (chars : Array Char) (k : Nat) : Bool :=
  match chars[k]? with
  | none => true
  | some c =>
    if ['\x60', ',', ':', ';', '*', '%', '>', '<', '=', '[', '(', '?', '^', '|', '&',
      '/'].contains c
    then false
    else
      let next := chars[k + 1]?
      if c == '.' then next.any Char.isDigit
      else if c == '+' || c == '-' then next == some c
      else if c == '!' then next != some '='
      else if c == 'i' then
        let text := String.ofList
          (chars.extract k (k + wordLength chars (chars.size - k) k)).toList
        text != "in" && text != "instanceof"
      else true

/-- Whether a statement may end here without a semicolon. -/
def endsStatement : Scan Bool := fun c =>
  let here := c.chars[c.pos]?
  some (here.isNone || here == some '\x7d' || (c.newline && beginsStatement c.chars c.pos), c)

/-- Whether a line ended here and ends the statement with it. -/
def endsAtLine : Scan Bool := fun c =>
  some (c.newline && beginsStatement c.chars c.pos, c)

/-- The end of a statement: a semicolon, or a line end after which nothing could go on. -/
def semicolon : Scan Unit := do
  if ← seesMark ";" then mark ";"
  else Scan.check ((← endsStatement) || (← Scan.newlineBefore))

end Script

end RepoGraph
