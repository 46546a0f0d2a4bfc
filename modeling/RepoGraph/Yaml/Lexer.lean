/-!
# Tokens of YAML

A YAML text is cut into tokens.  Indentation becomes tokens too: where a line begins further right
than the block around it a block is opened, where it begins further left blocks are closed.  A
scalar may turn out to be a key only when the colon after it is met; until then its place is
remembered, and the tokens of the key are put there afterwards.  Such a key fits on one line and in
1024 characters.
-/

namespace RepoGraph

-- powers are those of whole numbers, whatever other powers are in scope
attribute [local instance (high)] instPowNat

namespace Yaml

/-- Why a text has no tokens. -/
inductive LexFault where
  /-- The text is not well formed. -/
  | malformed
  /-- An escape names a number beyond all characters. -/
  | noCharacter
  /-- An escape names a number beyond all words. -/
  | noWord
deriving DecidableEq, Repr

/-- A token. -/
inductive Token where
  | directive (name : String) (arguments : List String)
  | documentStart
  | documentEnd
  | streamEnd
  | blockSequenceStart
  | blockMappingStart
  | blockEnd
  | flowSequenceStart
  | flowSequenceEnd
  | flowMappingStart
  | flowMappingEnd
  | flowEntry
  | blockEntry
  | key
  | value
  | reference (name : String)
  | anchor (name : String)
  | tag (handle : Option String) (suffix : String)
  | scalar (text : String) (plain : Bool)
deriving DecidableEq, Repr, Inhabited

/-- A place where a key may have begun. -/
structure PossibleKey where
  /-- The number of tokens before it. -/
  index : Nat
  /-- Whether nothing but a key may stand there. -/
  required : Bool
  pos : Nat
  line : Nat
  column : Nat

/-- The state of cutting. -/
structure Lexer where
  chars : Array Char
  pos : Nat
  line : Nat
  column : Nat
  /-- The number of open brackets. -/
  flow : Nat
  /-- The column of the innermost block, `-1` outside all blocks. -/
  indent : Int
  /-- The columns of the blocks around it. -/
  indents : List Int
  /-- Whether a key may begin here. -/
  allowKey : Bool
  /-- The places where keys may have begun, by the number of open brackets. -/
  keys : List (Nat × PossibleKey)
  tokens : Array Token
  finished : Bool

namespace Lexer

/-- The beginning of a text. -/
def start (chars : Array Char) : Lexer :=
  ⟨chars, 0, 0, 0, 0, -1, [], true, [], #[], false⟩

end Lexer

/-- A step of cutting. -/
abbrev Lex := StateT Lexer (Except LexFault)

namespace Lex

/-! ### Characters -/

/-- The characters that break a line. -/
def isBreak (c : Char) : Bool :=
  c == '\r' || c == '\n' || c == '\x85' || c == '\u2028' || c == '\u2029'

/-- Whether a line ends here. -/
def endsLine (c : Option Char) : Bool := c.all isBreak

/-- Whether a line or a word ends here with a space. -/
def endsBySpace (c : Option Char) : Bool := c.all fun x => isBreak x || x == ' '

/-- Whether a word ends here. -/
def endsWord (c : Option Char) : Bool := c.all fun x => isBreak x || x == ' ' || x == '\t'

/-- The characters of names. -/
def isNameChar (c : Char) : Bool := c.isAlphanum || c == '-' || c == '_'

/-- The characters of a tag beside letters and digits. -/
def isUriMark (c : Char) : Bool :=
  ['-', ';', '/', '?', ':', '@', '&', '=', '+', '$', ',', '_', '.', '!', '~', '*', '\'',
    '(', ')', '[', ']', '%'].contains c

/-- Whether a character is a hexadecimal digit. -/
def isHexDigit (c : Char) : Bool :=
  c.isDigit || ('a' ≤ c && c ≤ 'f') || ('A' ≤ c && c ≤ 'F')

/-- The value of a hexadecimal digit. -/
def hexValue (c : Char) : Nat :=
  if c.isDigit then c.toNat - 48 else if c.isLower then c.toNat - 87 else c.toNat - 55

/-- The value of hexadecimal digits. -/
def hexNumber (cs : List Char) : Nat := cs.foldl (fun n c => 16 * n + hexValue c) 0

/-! ### The cursor -/

variable {α : Type}

/-- The text is not well formed here. -/
def fail : Lex α := throw .malformed

/-- Goes on only if the condition holds. -/
def check (b : Bool) : Lex Unit := if b then pure () else fail

/-- The character `k` places ahead. -/
def peekAt (k : Nat) : Lex (Option Char) := do
  let s ← get
  return s.chars[s.pos + k]?

/-- The character at the cursor. -/
def peek : Lex (Option Char) := peekAt 0

/-- Passes one character. -/
def forwardOne (s : Lexer) : Lexer :=
  match s.chars[s.pos]? with
  | none => s
  | some c =>
    let breaks := isBreak c && !(c == '\r' && s.chars[s.pos + 1]? == some '\n')
    let (line, column) :=
      if breaks then (s.line + 1, 0)
      else if c == '\uFEFF' then (s.line, s.column)
      else (s.line, s.column + 1)
    { s with pos := s.pos + 1, line := line, column := column }

/-- Passes `n` characters. -/
def forward (n : Nat) : Lex Unit := modify fun s => Nat.rec s (fun _ s => forwardOne s) n

/-- The number of characters from an offset on that satisfy `p`. -/
def countFrom (p : Char → Bool) (chars : Array Char) : Nat → Nat → Nat
  | 0, _ => 0
  | n + 1, k =>
    match chars[k]? with
    | some c => if p c then countFrom p chars n (k + 1) + 1 else 0
    | none => 0

/-- The length of the run of characters ahead that satisfy `p`. -/
def runLength (p : Char → Bool) : Lex Nat := do
  let s ← get
  return countFrom p s.chars (s.chars.size - s.pos) s.pos

/-- The next `n` characters, fewer at the end. -/
def ahead (n : Nat) : Lex (List Char) := do
  let s ← get
  return (s.chars.extract s.pos (s.pos + n)).toList

/-- Passes `n` characters and gives them back. -/
def takeNext (n : Nat) : Lex String := do
  let cs ← ahead n
  forward n
  return String.ofList cs

/-- Passes the characters that satisfy `p`. -/
def passWhile (p : Char → Bool) : Lex Unit := do forward (← runLength p)

/-- Passes the characters that satisfy `p` and gives them back. -/
def takeRun (p : Char → Bool) : Lex String := do takeNext (← runLength p)

/-- Passes spaces. -/
def passSpaces : Lex Unit := passWhile (· == ' ')

/-- Passes a line break and gives it back; most breaks count as line feeds. -/
def lineBreak : Lex String := do
  match ← peek with
  | some c =>
    if c == '\r' || c == '\n' || c == '\x85' then
      let next ← peekAt 1
      forward (if c == '\r' && next == some '\n' then 2 else 1)
      return "\n"
    else if c == '\u2028' || c == '\u2029' then
      forward 1
      return String.singleton c
    else return ""
  | none => return ""

/-- Passes a comment. -/
def comment : Lex Unit := do
  if (← peek) == some '#' then passWhile fun c => !isBreak c

/-- Whether a mark of three characters stands here as a word. -/
def seesMark (text : String) : Lex Bool := do
  let cs ← ahead 3
  return cs == text.toList && endsWord (← peekAt 3)

/-- Whether a document begins or ends here, the column aside. -/
def seesDocumentMark : Lex Bool := do return (← seesMark "---") || (← seesMark "...")

/-- Repeats a step as long as it asks for more. -/
def repeatFor (step : Lex Bool) : Nat → Lex Unit
  | 0 => pure ()
  | n + 1 => do if ← step then repeatFor step n

/-- Repeats a step that passes characters as long as it asks for more. -/
def repeatWhile (step : Lex Bool) : Lex Unit := do
  repeatFor step ((← get).chars.size + 2)

/-- Repeats a step that collects text as long as it asks for more. -/
def gatherFor (step : String → Lex (String × Bool)) : Nat → String → Lex String
  | 0, acc => pure acc
  | n + 1, acc => do
    let (acc, more) ← step acc
    if more then gatherFor step n acc else return acc

/-- Repeats a step that collects text as long as it asks for more. -/
def gather (step : String → Lex (String × Bool)) : Lex String := do
  gatherFor step ((← get).chars.size + 2) ""

/-! ### Tokens and keys -/

/-- Adds a token. -/
def emit (t : Token) : Lex Unit := modify fun s => { s with tokens := s.tokens.push t }

/-- Says whether a key may begin next. -/
def allowKey (b : Bool) : Lex Unit := modify fun s => { s with allowKey := b }

/-- The place where a key may have begun between the open brackets. -/
def possibleKey : Lex (Option PossibleKey) := do
  let s ← get
  return (s.keys.find? fun k => k.1 == s.flow).map Prod.snd

/-- Forgets the place where a key may have begun between the open brackets. -/
def dropKey : Lex Unit := modify fun s => { s with keys := s.keys.filter fun k => k.1 != s.flow }

/-- Gives up the place where a key may have begun; one that is required must not be given up. -/
def removeKey : Lex Unit := do
  match ← possibleKey with
  | none => pure ()
  | some k =>
    check !k.required
    dropKey

/-- Remembers that a key may begin here. -/
def saveKey : Lex Unit := do
  let s ← get
  if s.allowKey then
    removeKey
    let required := s.flow == 0 && s.indent == (s.column : Int)
    let k : PossibleKey := ⟨s.tokens.size, required, s.pos, s.line, s.column⟩
    modify fun s => { s with keys := s.keys ++ [(s.flow, k)] }

/-- Whether what began at a place can no longer be a key. -/
def isStale (s : Lexer) (k : PossibleKey) : Bool := k.line != s.line || 1024 < s.pos - k.pos

/-- Gives up all places whose line or length is passed. -/
def removeStaleKeys : Lex Unit := do
  let s ← get
  check !(s.keys.any fun k => isStale s k.2 && k.2.required)
  modify fun s => { s with keys := s.keys.filter fun k => !isStale s k.2 }

/-! ### Indentation -/

/-- Closes the blocks to the right of a column. -/
def unwindFor (column : Int) : Nat → Lexer → Lexer
  | 0, s => s
  | n + 1, s =>
    if s.indent ≤ column then s
    else
      match s.indents with
      | [] => s
      | outer :: rest =>
        unwindFor column n
          { s with indent := outer, indents := rest, tokens := s.tokens.push .blockEnd }

/-- Closes the blocks to the right of a column; between brackets columns mean nothing. -/
def unwind (column : Int) : Lex Unit := modify fun s =>
  if s.flow != 0 then s else unwindFor column (s.indents.length + 1) s

/-- Opens a block at a column, unless it lies in the innermost one. -/
def openBlock (column : Nat) : Lex Bool := do
  let s ← get
  if s.indent < (column : Int) then
    set { s with indents := s.indent :: s.indents, indent := (column : Int) }
    return true
  else return false

/-! ### Between tokens -/

/-- Passes spaces, a comment and a line break. -/
def gapStep : Lex Bool := do
  passSpaces
  comment
  if (← lineBreak) == "" then return false
  else
    if (← get).flow == 0 then allowKey true
    return true

/-- Moves to the next token. -/
def gap : Lex Unit := do
  if (← get).pos == 0 && (← peek) == some '\uFEFF' then forward 1
  repeatWhile gapStep

/-! ### Directives -/

/-- The rest of a line, on which only a comment may stand. -/
def restOfLine : Lex Unit := do
  passSpaces
  comment
  check (endsLine (← peek))
  let _ ← lineBreak

/-- Digits. -/
def digits : Lex String := do
  let text ← takeRun Char.isDigit
  check (text != "")
  return text

/-- A version: two numbers and a point. -/
def version : Lex (List String) := do
  passSpaces
  let major ← digits
  check ((← peek) == some '.')
  forward 1
  let minor ← digits
  check (endsBySpace (← peek))
  return [major, minor]

/-- The handle of a tag: an exclamation mark, or a name between two of them. -/
def tagHandle : Lex String := do
  check ((← peek) == some '!')
  let next ← peekAt 1
  if next == some ' ' then takeNext 1
  else
    forward 1
    let name ← takeRun isNameChar
    if (← peek) == some '!' then
      forward 1
      return "!" ++ name ++ "!"
    else fail

/-- The bytes of a run of escapes in a tag. -/
def uriBytes : Nat → Lex (List UInt8)
  | 0 => return []
  | n + 1 => do
    if (← peek) == some '%' then
      forward 1
      let cs ← ahead 2
      check (cs.length == 2 && cs.all isHexDigit)
      forward 2
      let rest ← uriBytes n
      return UInt8.ofNat (hexNumber cs) :: rest
    else return []

/-- A run of escapes in a tag, as the characters its bytes encode. -/
def uriEscapes : Lex String := do
  let bytes ← uriBytes (← get).chars.size
  match String.fromUTF8? ⟨bytes.toArray⟩ with
  | some text => return text
  | none => fail

/-- The suffix of a tag, or a prefix for tags. -/
def tagUri : Lex String := do
  let text ← gather fun acc => do
    match ← peek with
    | some '%' => return (acc ++ (← uriEscapes), true)
    | _ =>
      let run ← takeRun fun c => c != '%' && (c.isAlphanum || isUriMark c)
      return (acc ++ run, run != "")
  check (text != "")
  return text

/-- A handle and the prefix it stands for. -/
def tagDirective : Lex (List String) := do
  passSpaces
  let handle ← tagHandle
  check ((← peek) == some ' ')
  passSpaces
  let uri ← tagUri
  check (endsBySpace (← peek))
  return [handle, uri]

/-- What follows the name of a directive; of an unknown one it is passed over. -/
def directiveArguments (name : String) : Lex (List String) := do
  if name == "YAML" then version
  else if name == "TAG" then tagDirective
  else
    passWhile fun c => !isBreak c
    return []

/-- A directive. -/
def directive : Lex Unit := do
  unwind (-1)
  removeKey
  allowKey false
  forward 1
  let name ← takeRun isNameChar
  check (name != "" && endsBySpace (← peek))
  let arguments ← directiveArguments name
  restOfLine
  emit (.directive name arguments)

/-! ### Marks -/

/-- The beginning or the end of a document. -/
def documentMark (t : Token) : Lex Unit := do
  unwind (-1)
  removeKey
  allowKey false
  forward 3
  emit t

/-- An opening bracket. -/
def openFlow (t : Token) : Lex Unit := do
  saveKey
  modify fun s => { s with flow := s.flow + 1 }
  allowKey true
  forward 1
  emit t

/-- A closing bracket. -/
def closeFlow (t : Token) : Lex Unit := do
  removeKey
  check ((← get).flow != 0)
  modify fun s => { s with flow := s.flow - 1 }
  allowKey false
  forward 1
  emit t

/-- A comma between brackets. -/
def flowEntry : Lex Unit := do
  allowKey true
  removeKey
  forward 1
  emit .flowEntry

/-- Outside brackets, opens a block at the cursor where one may begin. -/
def blockHere (t : Token) : Lex Unit := do
  let s ← get
  if s.flow == 0 then
    check s.allowKey
    if ← openBlock s.column then emit t

/-- A hyphen before an item. -/
def blockEntry : Lex Unit := do
  blockHere .blockSequenceStart
  allowKey true
  removeKey
  forward 1
  emit .blockEntry

/-- A question mark before a key. -/
def key : Lex Unit := do
  blockHere .blockMappingStart
  allowKey ((← get).flow == 0)
  removeKey
  forward 1
  emit .key

/-- A colon before a value.  Where a key may have begun, it did. -/
def value : Lex Unit := do
  match ← possibleKey with
  | some k =>
    dropKey
    let opens ← if (← get).flow == 0 then openBlock k.column else pure false
    let before := if opens then [Token.blockMappingStart, .key] else [.key]
    modify fun s =>
      { s with tokens := s.tokens.extract 0 k.index ++ before.toArray ++
          s.tokens.extract k.index s.tokens.size }
    allowKey false
  | none =>
    blockHere .blockMappingStart
    allowKey ((← get).flow == 0)
    removeKey
  forward 1
  emit .value

/-- An anchor or a reference to one. -/
def anchor (token : String → Token) : Lex Unit := do
  saveKey
  allowKey false
  forward 1
  let name ← takeRun isNameChar
  check (name != "")
  let c ← peek
  check (endsWord c || c.any fun x => ['?', ':', ',', ']', '\x7d', '%', '@', '\x60'].contains x)
  emit (token name)

/-- The handle of a tag, which is one exclamation mark unless a second one follows in the word. -/
def shortHandle : Lex String := do
  let s ← get
  let run := countFrom (fun c => !isBreak c && c != ' ' && c != '!') s.chars s.chars.size
    (s.pos + 1)
  if s.chars[s.pos + 1 + run]? == some '!' then tagHandle
  else
    forward 1
    return "!"

/-- A tag. -/
def tag : Lex Unit := do
  saveKey
  allowKey false
  let next ← peekAt 1
  if next == some '<' then
    forward 2
    let suffix ← tagUri
    check ((← peek) == some '>')
    forward 1
    check (endsBySpace (← peek))
    emit (.tag none suffix)
  else if endsWord next then
    forward 1
    check (endsBySpace (← peek))
    emit (.tag none "!")
  else
    let handle ← shortHandle
    let suffix ← tagUri
    check (endsBySpace (← peek))
    emit (.tag (some handle) suffix)

/-! ### Block scalars -/

/-- What is kept of the line breaks at the end of a block scalar. -/
inductive Chomp where
  | strip
  | clip
  | keep
deriving DecidableEq

/-- A digit of one to nine. -/
def indentDigit : Lex (Option Nat) := do
  match ← peek with
  | some c =>
    if c.isDigit then
      check (c != '0')
      forward 1
      return some (c.toNat - 48)
    else return none
  | none => return none

/-- A sign for the line breaks at the end. -/
def chompSign : Lex (Option Chomp) := do
  match ← peek with
  | some '+' =>
    forward 1
    return some .keep
  | some '-' =>
    forward 1
    return some .strip
  | _ => return none

/-- What stands after the mark of a block scalar, in either order. -/
def blockHeader : Lex (Chomp × Option Nat) := do
  let first ← chompSign
  let increment ← indentDigit
  let sign ← match first, increment with
    | none, some _ => chompSign
    | other, _ => pure other
  check (endsBySpace (← peek))
  return (sign.getD .clip, increment)

/-- Line breaks and the spaces between them, up to a column. -/
def blockBreaks (indent : Nat) : Lex String := do
  let pad : Lex Unit := do
    let column := (← get).column
    let n ← runLength (· == ' ')
    forward (min n (indent - column))
  pad
  gather fun acc => do
    let text ← lineBreak
    if text == "" then return (acc, false)
    else
      pad
      return (acc ++ text, true)

/-- Line breaks and spaces before the text of a block scalar, and the furthest column reached. -/
def blockIndentation : Nat → String → Nat → Lex (String × Nat)
  | 0, acc, most => return (acc, most)
  | n + 1, acc, most => do
    match ← peek with
    | some c =>
      if c == ' ' then
        forward 1
        blockIndentation n acc (max most (← get).column)
      else if isBreak c then
        let text ← lineBreak
        blockIndentation n (acc ++ text) most
      else return (acc, most)
    | none => return (acc, most)

/-- Whether a line's text begins with a blank. -/
def beginsBlank (c : Option Char) : Bool := c == some ' ' || c == some '\t'

/-- The lines of a block scalar: the text so far, the last line break, and the breaks after it. -/
def blockLines (folded : Bool) (indent : Nat) :
    Nat → String → String → String → Lex (String × String × String)
  | 0, acc, line, breaks => return (acc, line, breaks)
  | n + 1, acc, line, breaks => do
    if (← get).column == indent && (← peek).isSome then
      let blank := beginsBlank (← peek)
      let text ← takeRun fun c => !isBreak c
      let acc := acc ++ breaks ++ text
      let line ← lineBreak
      let breaks ← blockBreaks indent
      if (← get).column == indent && (← peek).isSome then
        let joins := folded && line == "\n" && !blank && !beginsBlank (← peek)
        let between := if joins then (if breaks == "" then " " else "") else line
        blockLines folded indent n (acc ++ between) line breaks
      else return (acc, line, breaks)
    else return (acc, line, breaks)

/-- A block scalar. -/
def blockScalar (folded : Bool) : Lex Unit := do
  allowKey true
  removeKey
  forward 1
  let (chomp, increment) ← blockHeader
  restOfLine
  let s ← get
  let least := max 1 (s.indent + 1).toNat
  let (breaks, indent) ← match increment with
    | none => do
      let (breaks, most) ← blockIndentation (s.chars.size + 1) "" 0
      pure (breaks, max least most)
    | some k => do
      let indent := least + k - 1
      pure (← blockBreaks indent, indent)
  let (text, line, breaks) ← blockLines folded indent (s.chars.size + 1) "" "" breaks
  let text := match chomp with
    | .strip => text
    | .clip => text ++ line
    | .keep => text ++ line ++ breaks
  emit (.scalar text false)

/-! ### Quoted scalars -/

/-- The characters that an escape of one letter stands for. -/
def escapes : List (Char × Char) :=
  [('0', '\x00'), ('a', '\x07'), ('b', '\x08'), ('t', '\t'), ('\t', '\t'), ('n', '\n'),
    ('v', '\x0b'), ('f', '\x0c'), ('r', '\r'), ('e', '\x1b'), (' ', ' '), ('"', '"'),
    ('\\', '\\'), ('/', '/'), ('N', '\x85'), ('_', '\xa0'), ('L', '\u2028'), ('P', '\u2029')]

/-- The number of digits of an escape by number. -/
def escapeWidth? (c : Char) : Option Nat :=
  if c == 'x' then some 2 else if c == 'u' then some 4 else if c == 'U' then some 8 else none

/-- Line breaks inside quotes, with the blanks around them. -/
def quotedBreaks : Lex String := do
  gather fun acc => do
    check !(← seesDocumentMark)
    passWhile fun c => c == ' ' || c == '\t'
    let text ← lineBreak
    return (acc ++ text, text != "")

/-- An escape, after its backslash. -/
def escape : Lex String := do
  match ← peek with
  | none => fail
  | some c =>
    match escapes.find? fun e => e.1 == c with
    | some (_, image) =>
      forward 1
      return String.singleton image
    | none =>
      match escapeWidth? c with
      | some width =>
        forward 1
        let cs ← ahead width
        check (cs.length == width && cs.all isHexDigit)
        let n := hexNumber cs
        if 2 ^ (31 : Nat) ≤ n then throw .noWord
        if 0x110000 ≤ n then throw .noCharacter
        forward width
        return String.singleton (Char.ofNat n)
      | none =>
        check (isBreak c)
        let _ ← lineBreak
        quotedBreaks

/-- A stretch without blanks inside quotes. -/
def quotedWord (double : Bool) : Lex String := do
  gather fun acc => do
    let run ← takeRun fun c =>
      c != '\'' && c != '"' && c != '\\' && !isBreak c && c != ' ' && c != '\t'
    let acc := acc ++ run
    match ← peek with
    | some '\'' =>
      if double then
        forward 1
        return (acc ++ "'", true)
      else if (← peekAt 1) == some '\'' then
        forward 2
        return (acc ++ "'", true)
      else return (acc, false)
    | some '"' =>
      if double then return (acc, false)
      else
        forward 1
        return (acc ++ "\"", true)
    | some '\\' =>
      forward 1
      if double then return (acc ++ (← escape), true) else return (acc ++ "\\", true)
    | _ => return (acc, false)

/-- Blanks and line breaks inside quotes: a single break becomes a space. -/
def quotedGap : Lex String := do
  let blanks ← takeRun fun c => c == ' ' || c == '\t'
  match ← peek with
  | none => fail
  | some c =>
    if isBreak c then
      let line ← lineBreak
      let breaks ← quotedBreaks
      if line != "\n" then return line ++ breaks
      else if breaks == "" then return " "
      else return breaks
    else return blanks

/-- A scalar in quotes. -/
def quotedScalar (double : Bool) : Lex Unit := do
  saveKey
  allowKey false
  let quote ← peek
  forward 1
  let first ← quotedWord double
  let rest ← gather fun acc => do
    if (← peek) == quote then return (acc, false)
    else
      let space ← quotedGap
      let text ← quotedWord double
      return (acc ++ space ++ text, true)
  forward 1
  emit (.scalar (first ++ rest) false)

/-! ### Plain scalars -/

/-- Whether a plain scalar may begin here. -/
def beginsPlain : Lex Bool := do
  let c ← peek
  let next ← peekAt 1
  let flow := (← get).flow != 0
  let isMark (x : Char) : Bool :=
    ['-', '?', ':', ',', '[', ']', '\x7b', '\x7d', '#', '&', '*', '!', '|', '>', '\'',
      '"', '%', '@', '\x60'].contains x
  return c.any fun x =>
    (!isMark x && !endsWord (some x)) ||
      (!endsWord next && (x == '-' || (!flow && (x == '?' || x == ':'))))

/-- The length of a stretch of a plain scalar without blanks. -/
def plainRun (flow : Bool) (chars : Array Char) : Nat → Nat → Nat
  | 0, _ => 0
  | n + 1, k =>
    match chars[k]? with
    | none => 0
    | some c =>
      let next := chars[k + 1]?
      let ends := endsWord (some c) ||
        (c == ':' && (endsWord next ||
          (flow && next.any fun x => [',', '[', ']', '\x7b', '\x7d'].contains x))) ||
        (flow && [',', '?', '[', ']', '\x7b', '\x7d'].contains c)
      if ends then 0 else plainRun flow chars n (k + 1) + 1

/-- The line breaks after one inside a plain scalar; nothing where a document begins or ends. -/
def plainBreaks : Nat → String → Lex (Option String)
  | 0, acc => return some acc
  | n + 1, acc => do
    match ← peek with
    | some ' ' =>
      forward 1
      plainBreaks n acc
    | some c =>
      if isBreak c then
        let text ← lineBreak
        if ← seesDocumentMark then return none
        plainBreaks n (acc ++ text)
      else return some acc
    | none => return some acc

/-- Blanks and line breaks inside a plain scalar, as what they become between its words; nothing
where the scalar ends. -/
def plainGap : Lex String := do
  let blanks ← takeRun (· == ' ')
  match ← peek with
  | none => return blanks
  | some c =>
    if isBreak c then
      let line ← lineBreak
      allowKey true
      if ← seesDocumentMark then return ""
      match ← plainBreaks ((← get).chars.size + 1) "" with
      | none => return ""
      | some breaks =>
        if line != "\n" then return line ++ breaks
        else if breaks == "" then return " "
        else return breaks
    else return blanks

/-- The words of a plain scalar from here on, after the gap before them. -/
def plainWords (indent : Int) : Nat → String → String → Lex String
  | 0, acc, _ => return acc
  | n + 1, acc, space => do
    if (← peek) == some '#' then return acc
    let s ← get
    let length := plainRun (s.flow != 0) s.chars (s.chars.size - s.pos) s.pos
    if length == 0 then return acc
    allowKey false
    let text ← takeNext length
    let acc := acc ++ space ++ text
    let space ← plainGap
    let s ← get
    if space == "" || (s.flow == 0 && (s.column : Int) < indent) then return acc
    plainWords indent n acc space

/-- A plain scalar. -/
def plainScalar : Lex Unit := do
  saveKey
  allowKey false
  let s ← get
  let text ← plainWords (s.indent + 1) (s.chars.size + 1) "" ""
  emit (.scalar text true)

/-! ### All tokens -/

/-- The end of the text. -/
def finish : Lex Unit := do
  unwind (-1)
  removeKey
  emit .streamEnd
  modify fun s => { s with finished := true }

/-- The next token, and the tokens of the blocks that open or close before it. -/
def next : Lex Unit := do
  gap
  removeStaleKeys
  unwind (← get).column
  let s ← get
  let flow := s.flow != 0
  let after := endsWord (← peekAt 1)
  match ← peek with
  | none => finish
  | some c =>
    if c == '%' && s.column == 0 then directive
    else if s.column == 0 && (← seesMark "---") then documentMark .documentStart
    else if s.column == 0 && (← seesMark "...") then documentMark .documentEnd
    else if c == '[' then openFlow .flowSequenceStart
    else if c == '\x7b' then openFlow .flowMappingStart
    else if c == ']' then closeFlow .flowSequenceEnd
    else if c == '\x7d' then closeFlow .flowMappingEnd
    else if c == ',' then flowEntry
    else if c == '-' && after then blockEntry
    else if c == '?' && (flow || after) then key
    else if c == ':' && (flow || after) then value
    else if c == '*' then anchor .reference
    else if c == '&' then anchor .anchor
    else if c == '!' then tag
    else if c == '|' && !flow then blockScalar false
    else if c == '>' && !flow then blockScalar true
    else if c == '\'' then quotedScalar false
    else if c == '"' then quotedScalar true
    else if ← beginsPlain then plainScalar
    else fail

end Lex

/-! ### Cutting a text -/

/-- Cuts until the end or the first fault; every step passes a character or ends. -/
def Lexer.run : Nat → Lexer → Lexer × Option LexFault
  | 0, s => (s, none)
  | n + 1, s =>
    if s.finished then (s, none)
    else
      match Lex.next s with
      | .ok ((), t) => Lexer.run n t
      | .error fault => (s, some fault)

/-- The characters that may stand in a text. -/
def isPrintable (c : Char) : Bool :=
  let n := c.toNat
  n == 0x09 || n == 0x0A || n == 0x0D || (0x20 ≤ n && n ≤ 0x7E) || n == 0x85 ||
    (0xA0 ≤ n && n ≤ 0xD7FF) || (0xE000 ≤ n && n ≤ 0xFFFD) || 0x10000 ≤ n

/-- The tokens of a text, and the fault that ends them. -/
def tokens (text : String) : List Token × Option LexFault :=
  let cs := text.toList
  if cs.all isPrintable then
    let (s, fault) := Lexer.run (cs.length + 2) (Lexer.start cs.toArray)
    (s.tokens.toList, fault)
  else ([], some .malformed)

end Yaml

end RepoGraph
