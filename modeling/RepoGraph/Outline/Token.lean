import RepoGraph.Syntax.Scan
import RepoGraph.Text.Blank

/-!
# Tokens of indented sources

Words, marks, numbers and string literals, and what lies between tokens.  Between brackets a line
end is a blank like any other; outside it ends a statement, and the blanks at the front of the next
line decide which block that line belongs to.  `NextLine` is what follows a line end: comments, and
then a line with something on it.
-/

namespace RepoGraph

namespace Outline

open Syntax

/-! ### Blanks and comments -/

/-- The characters between tokens, line ends aside. -/
def isSpace (c : Char) : Bool :=
  c != '\n' && (c == ' ' || c == '\t' || c == '\r' || c == '\x0b' || c == '\x0c' ||
    c == '\uFEFF' || c == '\u2060' || c == '\u200B')

/-- The offset after a comment. -/
def commentEnd (chars : Array Char) (start : Nat) : Nat :=
  start + Scan.countWhile (· != '\n') chars (chars.size - start) start

/-- The length of a line end that a backslash joins to the next line, or zero. -/
def joinLength (chars : Array Char) (k : Nat) : Nat :=
  if chars[k]? != some '\\' then 0
  else if chars[k + 1]? == some '\n' then 2
  else if chars[k + 1]? == some '\r' && chars[k + 2]? == some '\n' then 3
  else 0

/-- Moves a cursor past blanks and comments, and past line ends between brackets. -/
def skipFrom : Nat → Cursor → Cursor
  | 0, c => c
  | n + 1, c =>
    match c.chars[c.pos]? with
    | none => c
    | some x =>
      if x == '#' then
        let stop := commentEnd c.chars c.pos
        skipFrom n { c with pos := stop, comments := ⟨c.pos, stop⟩ :: c.comments }
      else if isSpace x || (x == '\n' && 0 < c.depth) then skipFrom n { c with pos := c.pos + 1 }
      else
        let join := joinLength c.chars c.pos
        if join == 0 then c else skipFrom n { c with pos := c.pos + join }

/-- Moves to the next token. -/
def skip : Scan Unit := fun c => some ((), skipFrom (c.chars.size + 1 - c.pos) c)

/-- Passes a token of `n` characters. -/
def pass (n : Nat) : Scan Unit := do
  Scan.advance n
  skip

/-- Changes the number of open brackets. -/
def setDepth (f : Nat → Nat) : Scan Unit := fun c => some ((), { c with depth := f c.depth })

/-! ### Marks and words -/

/-- A mark. -/
def mark (text : String) : Scan Unit := do
  Scan.check (← Scan.startsWith text)
  pass text.length

/-- Whether a mark comes next. -/
def seesMark (text : String) : Scan Bool := Scan.startsWith text

/-- The first of several marks, longer ones standing first. -/
def anyMark (texts : List String) : Scan Unit := Scan.firstOf (texts.map mark)

/-- An opening bracket. -/
def opening (text : String) : Scan Unit := do
  Scan.check (← Scan.startsWith text)
  setDepth (· + 1)
  pass text.length

/-- A closing bracket. -/
def closing (text : String) : Scan Unit := do
  Scan.check (← Scan.startsWith text)
  setDepth (· - 1)
  pass text.length

/-- Whether a character may stand in a word. -/
def isWordChar (c : Char) : Bool :=
  if c.toNat < 0x80 then c.isAlphanum || c == '_' else !Text.isBlank c && !isSpace c

/-- Whether a character may begin a word. -/
def isWordStart (c : Char) : Bool := isWordChar c && !c.isDigit

/-- The length of the word at the cursor, zero when there is none. -/
def wordLengthHere : Scan Nat := do
  match ← Scan.charAt 0 with
  | some c => if isWordStart c then Scan.runLength isWordChar else return 0
  | none => return 0

/-- The word at the cursor, empty when there is none. -/
def peekWord : Scan String := do
  Scan.peekText (← wordLengthHere)

/-- A given word. -/
def word (text : String) : Scan Unit := do
  Scan.check ((← peekWord) == text)
  pass text.length

/-- Whether a word comes next. -/
def seesWord (text : String) : Scan Bool := do return (← peekWord) == text

/-- One of several words. -/
def wordOf (texts : List String) : Scan String := do
  let text ← peekWord
  Scan.check (texts.contains text)
  pass text.length
  return text

/-- The words that are never names. -/
def reservedWords : List String :=
  ["and", "as", "assert", "break", "class", "continue", "def", "del", "elif", "else", "except",
    "finally", "for", "from", "global", "if", "import", "in", "is", "lambda", "nonlocal", "not",
    "or", "pass", "raise", "return", "try", "while", "with", "yield"]

/-- The words for constant values. -/
def constantWords : List String := ["True", "False", "None"]

/-- A name. -/
def identifier : Scan Node := do
  let start ← Scan.position
  let text ← peekWord
  Scan.check (text != "" && !reservedWords.contains text)
  pass text.length
  Scan.node (if constantWords.contains text then .other else .identifier) start []

/-! ### Numbers -/

/-- The length of a number at an offset. -/
def numberLength (chars : Array Char) (k : Nat) : Nat :=
  let size := chars.size
  let isDigitMark (c : Char) : Bool := c.isDigit || c == '_'
  let isTail (c : Char) : Bool := c.isAlphanum || c == '_'
  let isBase (c : Char) : Bool :=
    c == 'x' || c == 'X' || c == 'o' || c == 'O' || c == 'b' || c == 'B'
  if chars[k]? == some '0' && (chars[k + 1]?).any isBase then
    2 + Scan.countWhile isTail chars size (k + 2)
  else
    let whole := Scan.countWhile isDigitMark chars size k
    let point := if chars[k + whole]? == some '.' then
        1 + Scan.countWhile isDigitMark chars size (k + whole + 1)
      else 0
    let m := whole + point
    let hasExponent := (chars[k + m]?).any fun c => c == 'e' || c == 'E'
    let signed := (chars[k + m + 1]?).any fun c => c == '+' || c == '-'
    let lead := if signed then 2 else 1
    let digits := Scan.countWhile isDigitMark chars size (k + m + lead)
    let exponent := if hasExponent && 0 < digits then lead + digits else 0
    let suffix := if (chars[k + m + exponent]?).any fun c =>
        c == 'j' || c == 'J' || c == 'l' || c == 'L' then 1 else 0
    m + exponent + suffix

/-- A number. -/
def number : Scan Node := do
  let start ← Scan.position
  let first ← Scan.charAt 0
  let second ← Scan.charAt 1
  Scan.check (first.any Char.isDigit || (first == some '.' && second.any Char.isDigit))
  let n : Nat ← fun c => some (numberLength c.chars c.pos, c)
  pass n
  Scan.node .other start []

/-! ### Lines -/

/-- A comment with the indentation of its line. -/
structure LineComment where
  indent : Nat
  span : Span

/-- What follows a line end. -/
structure NextLine where
  /-- The comments before the next line with something on it. -/
  comments : List LineComment
  /-- The indentation of that line, zero at the end of the text. -/
  indent : Nat
  /-- The offset of the first thing on that line. -/
  pos : Nat

/-- Looks for the next line with something on it. -/
def nextLineFrom (chars : Array Char) : Nat → Nat → Nat → List LineComment → NextLine
  | 0, k, indent, comments => ⟨comments.reverse, indent, k⟩
  | n + 1, k, indent, comments =>
    match chars[k]? with
    | none => ⟨comments.reverse, 0, k⟩
    | some '\n' => nextLineFrom chars n (k + 1) 0 comments
    | some ' ' => nextLineFrom chars n (k + 1) (indent + 1) comments
    | some '\t' => nextLineFrom chars n (k + 1) (indent + 8) comments
    | some '\r' => nextLineFrom chars n (k + 1) 0 comments
    | some '\x0c' => nextLineFrom chars n (k + 1) 0 comments
    | some '#' =>
      let stop := commentEnd chars k
      nextLineFrom chars n stop 0 (⟨indent, ⟨k, stop⟩⟩ :: comments)
    | some c =>
      let join := joinLength chars k
      if join == 0 && !isSpace c then ⟨comments.reverse, indent, k⟩
      else nextLineFrom chars n (k + max 1 join) indent comments

/-- What follows the line that ends here. -/
def nextLine : Scan NextLine := fun c =>
  some (nextLineFrom c.chars (c.chars.size + 1 - c.pos) c.pos 0 [], c)

/-- Takes comments along; what they stand in reaches to the end of the last of them. -/
def takeComments (comments : List LineComment) : Scan Unit := fun c =>
  let spans := comments.map LineComment.span
  match spans.getLast? with
  | none => some ((), c)
  | some final =>
    some ((), { c with
      pos := final.stop, last := final.stop, comments := spans.reverse ++ c.comments })

/-- Moves to the next line with something on it. -/
def moveTo (line : NextLine) : Scan Unit := do
  takeComments line.comments
  fun c => some ((), { c with pos := line.pos })

/-- Whether the text ends after this line. -/
def textEnds (line : NextLine) : Scan Bool := fun c => some (decide (c.chars.size ≤ line.pos), c)

/-- The end of a line.  A comment on the line belongs to what ends here. -/
def lineEnd : Scan Unit := do
  match ← Scan.charAt 0 with
  | none => pure ()
  | some c => Scan.check (c == '\n')
  fun c =>
    match c.comments with
    | latest :: _ => some ((), { c with last := max c.last latest.stop })
    | [] => some ((), c)

end Outline

end RepoGraph
