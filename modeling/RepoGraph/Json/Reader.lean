import RepoGraph.Json.Basic

/-!
# Reading JSON

`Json.read` reads one value that takes up the whole text.  A fault is a cause and an offset into the
text; `Fault.message` states it with line, column and offset.  Beyond the standard grammar the words
`NaN`, `Infinity` and `-Infinity` are numbers, a name that occurs twice in an object keeps its first
place and its last value, and an integer of more than 4300 digits is refused.  An escaped surrogate
without its partner becomes the replacement character.
-/

namespace RepoGraph

namespace Json

/-- What is wrong with a text that is not JSON. -/
inductive Cause where
  | byteOrderMark
  | expectingValue
  | expectingName
  | expectingColon
  | expectingComma
  | unterminatedString
  | controlCharacter
  | invalidEscape
  | invalidUnicodeEscape
  | extraData
deriving DecidableEq, Repr

/-- A cause as text. -/
def Cause.text : Cause → String
  | byteOrderMark => "Unexpected UTF-8 BOM (decode using utf-8-sig)"
  | expectingValue => "Expecting value"
  | expectingName => "Expecting property name enclosed in double quotes"
  | expectingColon => "Expecting ':' delimiter"
  | expectingComma => "Expecting ',' delimiter"
  | unterminatedString => "Unterminated string starting at"
  | controlCharacter => "Invalid control character at"
  | invalidEscape => "Invalid \\escape"
  | invalidUnicodeEscape => "Invalid \\uXXXX escape"
  | extraData => "Extra data"

/-- Why reading failed: the text is malformed at an offset, or a numeral is too long. -/
inductive Fault where
  | malformed (cause : Cause) (offset : Nat)
  | tooManyDigits (count : Nat)
deriving DecidableEq, Repr

/-- The longest integer that is read, in digits. -/
def maxDigits : Nat := 4300

/-- The text of the fault for an integer with too many digits. -/
def tooManyDigitsText (count : Nat) : String :=
  "Exceeds the limit (4300 digits) for integer string conversion: value has " ++ toString count ++
    " digits; use sys.set_int_max_str_digits() to increase the limit"

/-- The line and the column, both counted from one, of an offset into a text. -/
def position (text : List Char) (offset : Nat) : Nat × Nat :=
  (text.take offset).foldl
    (fun (line, column) c => if c == '\n' then (line + 1, 1) else (line, column + 1)) (1, 1)

/-- A fault of reading `text`, as text. -/
def Fault.message (text : String) : Fault → String
  | malformed cause offset =>
    let (line, column) := position text.toList offset
    cause.text ++ ": line " ++ toString line ++ " column " ++ toString column ++
      " (char " ++ toString offset ++ ")"
  | tooManyDigits count => tooManyDigitsText count

/-! ### Tokens -/

/-- The rest of a text and its offset. -/
structure Cursor where
  rest : List Char
  offset : Nat

/-- The blanks between tokens. -/
def isSpace (c : Char) : Bool := c == ' ' || c == '\t' || c == '\n' || c == '\r'

/-- The place after the blanks. -/
def skipSpace (at_ : Cursor) : Cursor :=
  let blanks := at_.rest.takeWhile isSpace
  ⟨at_.rest.dropWhile isSpace, at_.offset + blanks.length⟩

/-- The value of a hexadecimal digit. -/
def hexDigit? (c : Char) : Option Nat :=
  if '0' ≤ c && c ≤ '9' then some (c.toNat - 48)
  else if 'a' ≤ c && c ≤ 'f' then some (c.toNat - 87)
  else if 'A' ≤ c && c ≤ 'F' then some (c.toNat - 55)
  else none

/-- The value of four hexadecimal digits. -/
def hex4? (a b c d : Char) : Option Nat := do
  let a ← hexDigit? a
  let b ← hexDigit? b
  let c ← hexDigit? c
  let d ← hexDigit? d
  return ((a * 16 + b) * 16 + c) * 16 + d

/-- The character of a one-letter escape. -/
def simpleEscape? : Char → Option Char
  | '"' => some '"'
  | '\\' => some '\\'
  | '/' => some '/'
  | 'b' => some '\x08'
  | 'f' => some '\x0c'
  | 'n' => some '\n'
  | 'r' => some '\r'
  | 't' => some '\t'
  | _ => none

/-- The first half of a surrogate pair. -/
def isHighSurrogate (n : Nat) : Bool := 0xD800 ≤ n && n ≤ 0xDBFF

/-- The second half of a surrogate pair. -/
def isLowSurrogate (n : Nat) : Bool := 0xDC00 ≤ n && n ≤ 0xDFFF

/-- The character of one UTF-16 unit; a surrogate alone is the replacement character. -/
def charOfUnit (n : Nat) : Char :=
  if isHighSurrogate n || isLowSurrogate n then Char.ofNat 0xFFFD else Char.ofNat n

/-- The character of a surrogate pair. -/
def charOfPair (high low : Nat) : Char :=
  Char.ofNat (0x10000 + (high - 0xD800) * 0x400 + (low - 0xDC00))

/-- What the escape of the unit `n` stands for when `next` follows it, and how much of `next` it
takes up: a high surrogate joins with an escaped low one.  The second escape must not end the
text. -/
def joinUnits (offset n : Nat) (next : List Char) : Except Fault (Char × Nat) :=
  match next with
  | '\\' :: 'u' :: a :: b :: c :: d :: _ :: _ =>
    if isHighSurrogate n then
      match hex4? a b c d with
      | none => .error (.malformed .invalidUnicodeEscape (offset + 7))
      | some m => .ok (if isLowSurrogate m then (charOfPair n m, 6) else (charOfUnit n, 0))
    else .ok (charOfUnit n, 0)
  | _ => .ok (charOfUnit n, 0)

/-- The rest of a string whose opening quote stands at `start`, after the characters of `done`,
which are given last first. -/
def readString (start : Nat) (done : List Char) (offset : Nat) :
    List Char → Except Fault (String × Cursor)
  | [] => .error (.malformed .unterminatedString start)
  | '"' :: rest => .ok (String.ofList done.reverse, ⟨rest, offset + 1⟩)
  | ['\\'] => .error (.malformed .unterminatedString start)
  | '\\' :: 'u' :: a :: b :: c :: d :: e :: rest =>
    match hex4? a b c d with
    | none => .error (.malformed .invalidUnicodeEscape (offset + 1))
    | some n =>
      match joinUnits offset n (e :: rest) with
      | .error fault => .error fault
      | .ok (image, taken) =>
        readString start (image :: done) (offset + 6 + taken) ((e :: rest).drop taken)
  | '\\' :: 'u' :: _ => .error (.malformed .invalidUnicodeEscape (offset + 1))
  | '\\' :: c :: rest =>
    match simpleEscape? c with
    | none => .error (.malformed .invalidEscape offset)
    | some image => readString start (image :: done) (offset + 2) rest
  | c :: rest =>
    if c.toNat < 0x20 then .error (.malformed .controlCharacter offset)
    else readString start (c :: done) (offset + 1) rest
termination_by cs => cs.length
decreasing_by all_goals (simp_all <;> omega)

/-- The digits at the front of a text and what follows them. -/
def spanDigits (cs : List Char) : List Char × List Char := cs.span Char.isDigit

/-- The digits before a point: a zero stands alone. -/
def wholeDigits (cs : List Char) : List Char × List Char :=
  match cs with
  | '0' :: rest => (['0'], rest)
  | _ => spanDigits cs

/-- A fractional part: a point and at least one digit. -/
def fraction (cs : List Char) : List Char × List Char :=
  match cs with
  | '.' :: rest =>
    let (digits, tail) := spanDigits rest
    if digits.isEmpty then ([], cs) else (digits, tail)
  | _ => ([], cs)

/-- An exponent: its sign, its digits and the rest; without a digit there is none. -/
def exponent (cs : List Char) : Option (Bool × List Char × List Char) :=
  match cs with
  | e :: rest =>
    if e == 'e' || e == 'E' then
      let (negative, rest) := match rest with
        | '-' :: tail => (true, tail)
        | '+' :: tail => (false, tail)
        | _ => (false, rest)
      let (digits, tail) := spanDigits rest
      if digits.isEmpty then none else some (negative, digits, tail)
    else none
  | [] => none

/-- A numeral without its sign, which begins with a digit. -/
def readNumeral (negative : Bool) (at_ : Cursor) : Except Fault (Json × Cursor) :=
  let (whole, afterWhole) := wholeDigits at_.rest
  if whole.isEmpty then .error (.malformed .expectingValue at_.offset)
  else
    let (places, afterFraction) := fraction afterWhole
    let power := exponent afterFraction
    let rest := match power with
      | some (_, _, tail) => tail
      | none => afterFraction
    let after : Cursor := ⟨rest, at_.offset + (at_.rest.length - rest.length)⟩
    if places.isEmpty && power.isNone then
      if maxDigits < whole.length then .error (.tooManyDigits whole.length)
      else
        let n : Int := Decimal.natOfDigits whole
        .ok (int (if negative then -n else n), after)
    else
      let e : Int := match power with
        | some (true, digits, _) => -(Decimal.natOfDigits digits : Int)
        | some (false, digits, _) => Decimal.natOfDigits digits
        | none => 0
      let value : Decimal := ⟨negative, Decimal.natOfDigits (whole ++ places), e - places.length⟩
      .ok (float value.toBinary64, after)

/-- The text after a word, when it begins with the word. -/
def afterWord (word : String) (at_ : Cursor) : Option Cursor :=
  let cs := word.toList
  if at_.rest.take cs.length == cs then some ⟨at_.rest.drop cs.length, at_.offset + cs.length⟩
  else none

/-- The value of a word. -/
def word? (at_ : Cursor) : Option (Json × Cursor) :=
  let words : List (String × Json) := [
    ("null", null), ("true", bool true), ("false", bool false), ("NaN", float Binary64.nan),
    ("Infinity", float (Binary64.infinity false)), ("-Infinity", float (Binary64.infinity true))]
  words.findSome? fun (word, value) => (afterWord word at_).map fun after => (value, after)

/-- A value that is neither a string, an object nor an array. -/
def readScalar (at_ : Cursor) : Except Fault (Json × Cursor) :=
  match word? at_ with
  | some found => .ok found
  | none =>
    match at_.rest with
    | '-' :: rest =>
      match readNumeral true ⟨rest, at_.offset + 1⟩ with
      | .error (.malformed cause _) => .error (.malformed cause at_.offset)
      | other => other
    | _ => readNumeral false at_

/-! ### Values -/

mutual

/-- A value at the front of a text.  Each bracket that is entered uses one unit of `depth`. -/
def readValue : Nat → Cursor → Except Fault (Json × Cursor)
  | 0, at_ => .error (.malformed .expectingValue at_.offset)
  | depth + 1, at_ =>
    match at_.rest with
    | '"' :: rest => do
      let (s, after) ← readString at_.offset [] (at_.offset + 1) rest
      return (str s, after)
    | '[' :: rest =>
      let inside := skipSpace ⟨rest, at_.offset + 1⟩
      match inside.rest with
      | ']' :: tail => .ok (arr [], ⟨tail, inside.offset + 1⟩)
      | _ => readItems depth [] inside
    | '{' :: rest =>
      let inside := skipSpace ⟨rest, at_.offset + 1⟩
      match inside.rest with
      | '}' :: tail => .ok (obj [], ⟨tail, inside.offset + 1⟩)
      | _ => readFields depth [] inside
    | _ => readScalar at_

/-- The items of an array after those of `done`, which are given last first. -/
def readItems : Nat → List Json → Cursor → Except Fault (Json × Cursor)
  | 0, _, at_ => .error (.malformed .expectingValue at_.offset)
  | depth + 1, done, at_ => do
    let (item, after) ← readValue depth at_
    let next := skipSpace after
    match next.rest with
    | ']' :: tail => return (arr (item :: done).reverse, ⟨tail, next.offset + 1⟩)
    | ',' :: tail => readItems depth (item :: done) (skipSpace ⟨tail, next.offset + 1⟩)
    | _ => throw (.malformed .expectingComma next.offset)

/-- The fields of an object after those of `done`. -/
def readFields : Nat → Fields → Cursor → Except Fault (Json × Cursor)
  | 0, _, at_ => .error (.malformed .expectingValue at_.offset)
  | depth + 1, done, at_ =>
    match at_.rest with
    | '"' :: rest => do
      let (name, after) ← readString at_.offset [] (at_.offset + 1) rest
      let colon := skipSpace after
      match colon.rest with
      | ':' :: tail => do
        let (value, after) ← readValue depth (skipSpace ⟨tail, colon.offset + 1⟩)
        let next := skipSpace after
        match next.rest with
        | '}' :: tail => return (obj (done.set name value), ⟨tail, next.offset + 1⟩)
        | ',' :: tail =>
          readFields depth (done.set name value) (skipSpace ⟨tail, next.offset + 1⟩)
        | _ => throw (.malformed .expectingComma next.offset)
      | _ => throw (.malformed .expectingColon colon.offset)
    | _ => .error (.malformed .expectingName at_.offset)

end

/-- The one value that a text consists of.  The depth given is more than the text has characters,
so it is never used up. -/
def read (text : String) : Except Fault Json := do
  let cs := text.toList
  if cs.head? == some (Char.ofNat 0xFEFF) then throw (.malformed .byteOrderMark 0)
  let (value, after) ← readValue (2 * cs.length + 2) (skipSpace ⟨cs, 0⟩)
  let finish := skipSpace after
  if finish.rest.isEmpty then return value else throw (.malformed .extraData finish.offset)

end Json

end RepoGraph
