import RepoGraph.Syntax.Node

/-!
# Scanning a text

A scan reads a construct at a cursor and may fail, in which case the cursor stays where it was.  The
cursor rests on the first character of the next token; what lies between two tokens is skipped when
the first of them has been read, and the comments in it are kept.

`many`, `separated` and `iterate` repeat a scan as long as it succeeds and moves on; the number of
characters bounds the number of repetitions.
-/

namespace RepoGraph

namespace Syntax

/-- A place in a text. -/
structure Cursor where
  /-- The text. -/
  chars : Array Char
  /-- The offset of the next token. -/
  pos : Nat
  /-- The offset after the last token. -/
  last : Nat
  /-- Whether a line ended between the two tokens. -/
  newline : Bool
  /-- The number of brackets that are open. -/
  depth : Nat
  /-- The comments passed, the latest first. -/
  comments : List Span

/-- The beginning of a text. -/
def Cursor.start (chars : Array Char) : Cursor := ⟨chars, 0, 0, false, 0, []⟩

/-- Reading at a cursor; the cursor moves only on success. -/
abbrev Scan := StateT Cursor Option

namespace Scan

variable {α : Type}

/-- Nothing can be read here. -/
def fail : Scan α := fun _ => none

/-- Goes on only if the condition holds. -/
def check (b : Bool) : Scan Unit := if b then pure () else fail

/-- The offset of the next token. -/
def position : Scan Nat := fun c => some (c.pos, c)

/-- Whether a line ended before the next token. -/
def newlineBefore : Scan Bool := fun c => some (c.newline, c)

/-- The character `k` places after the cursor. -/
def charAt (k : Nat) : Scan (Option Char) := fun c => some (c.chars[c.pos + k]?, c)

/-- Whether the characters at the cursor are the given ones. -/
def startsWith (text : String) : Scan Bool := fun c =>
  let rec go (k : Nat) : List Char → Bool
    | [] => true
    | x :: rest => c.chars[k]? == some x && go (k + 1) rest
  some (go c.pos text.toList, c)

/-- Whether the text ends here. -/
def atEnd : Scan Bool := fun c => some (decide (c.chars.size ≤ c.pos), c)

/-- Moves the cursor past a token of `n` characters and skips nothing after it. -/
def advance (n : Nat) : Scan Unit := fun c =>
  let pos := min (c.pos + n) c.chars.size
  some ((), { c with pos := pos, last := pos, newline := false })

/-- The stretch from an offset to the end of the last token. -/
def spanFrom (start : Nat) : Scan Span := fun c => some (⟨start, max start c.last⟩, c)

/-- A node from an offset to the end of the last token. -/
def node (kind : Kind) (start : Nat) (children : List Node) : Scan Node := do
  return Node.make kind (← spanFrom start) children

/-- Reads ahead: the cursor stays where it is. -/
def ahead (p : Scan α) : Scan α := fun c => (p c).map fun (a, _) => (a, c)

/-- Whether something can be read here; the cursor stays where it is. -/
def sees (p : Scan α) : Scan Bool := fun c => some ((p c).isSome, c)

/-- Reads something if it can be read. -/
def maybe (p : Scan α) : Scan (Option α) := fun c =>
  match p c with
  | some (a, d) => some (some a, d)
  | none => some (none, c)

/-- The first alternative that can be read. -/
def firstOf : List (Scan α) → Scan α
  | [] => fail
  | p :: rest => fun c =>
    match p c with
    | some result => some result
    | none => firstOf rest c

/-- The number of characters from an offset on that satisfy `p`. -/
def countWhile (p : Char → Bool) (chars : Array Char) : Nat → Nat → Nat
  | 0, _ => 0
  | n + 1, k =>
    match chars[k]? with
    | some c => if p c then countWhile p chars n (k + 1) + 1 else 0
    | none => 0

/-- The length of the run of characters at the cursor that satisfy `p`. -/
def runLength (p : Char → Bool) : Scan Nat := fun c =>
  some (countWhile p c.chars (c.chars.size - c.pos) c.pos, c)

/-- The `n` characters at the cursor. -/
def peekText (n : Nat) : Scan String := fun c =>
  some (String.ofList (c.chars.extract c.pos (c.pos + n)).toList, c)

/-- The text of a stretch. -/
def textOf (span : Span) : Scan String := fun c =>
  some (String.ofList (c.chars.extract span.start span.stop).toList, c)

/-! ### Repetition -/

/-- Repeats a step on a value as long as it succeeds and the cursor moves. -/
def iterateFor (step : α → Scan α) : Nat → α → Cursor → α × Cursor
  | 0, a, c => (a, c)
  | n + 1, a, c =>
    match step a c with
    | some (b, d) => if c.pos < d.pos then iterateFor step n b d else (b, d)
    | none => (a, c)

/-- Repeats a step on a value as long as it succeeds and the cursor moves. -/
def iterate (step : α → Scan α) (a : α) : Scan α := fun c =>
  some (iterateFor step (c.chars.size + 1 - c.pos) a c)

/-- Reads things one after another, none being allowed. -/
def many (p : Scan α) : Scan (List α) := do
  let items ← iterate (fun acc => do return (← p) :: acc) []
  return items.reverse

/-- Reads things with separators between them, none being allowed, and a separator after the
last. -/
def separated (p : Scan α) (separator : Scan Unit) : Scan (List α) := do
  match ← maybe p with
  | none => return []
  | some first =>
    let rest ← many (do separator; p)
    let _ ← maybe separator
    return first :: rest

end Scan

end Syntax

end RepoGraph
