import RepoGraph.Yaml.Lexer
import RepoGraph.Yaml.Resolve

/-!
# Nodes of YAML

The tokens of a text form nodes: scalars, sequences and mappings.  A node may be given a name and be
referred to later, even from inside itself, so nodes are kept in a `Store` and refer to each other
by their number there.  A text holds one document; `Store.ofText` gives the number of its root.
-/

namespace RepoGraph

namespace Yaml

/-- What a node is made of; other nodes appear by number. -/
inductive Content where
  | scalar (text : String)
  | sequence (items : List Nat)
  | mapping (entries : List (Nat × Nat))
deriving DecidableEq, Repr, Inhabited

/-- A node. -/
structure Node where
  kind : Kind
  content : Content
deriving DecidableEq, Repr

/-- The nodes of a text. -/
abbrev Store := Array Node

/-- The state of reading nodes. -/
structure Composer where
  /-- The tokens ahead. -/
  tokens : List Token
  /-- What is wrong where the tokens end. -/
  fault : Option LexFault
  nodes : Store
  /-- The named nodes. -/
  anchors : List (String × Nat)
  /-- What the handles of tags stand for. -/
  handles : List (String × String)

/-- A step of reading nodes. -/
abbrev Compose := StateT Composer (Except LexFault)

namespace Compose

/-! ### Tokens -/

/-- The text is not well formed here. -/
def fail {α : Type} : Compose α := throw .malformed

/-- The next token. -/
def peek : Compose Token := do
  let s ← get
  match s.tokens with
  | t :: _ => return t
  | [] => throw (s.fault.getD .malformed)

/-- Passes the next token. -/
def advance : Compose Unit := modify fun s => { s with tokens := s.tokens.drop 1 }

/-- Whether the next token is one of the given ones. -/
def sees (ts : List Token) : Compose Bool := do return ts.contains (← peek)

/-- Passes the next token if it is the given one, and says whether it was. -/
def accept (t : Token) : Compose Bool := do
  if (← peek) == t then
    advance
    return true
  else return false

/-- Passes the given token, which must come next. -/
def expect (t : Token) : Compose Unit := do
  if !(← accept t) then fail

/-! ### Nodes -/

/-- Adds a node. -/
def add (kind : Kind) (content : Content) : Compose Nat := do
  let s ← get
  set { s with nodes := s.nodes.push ⟨kind, content⟩ }
  return s.nodes.size

/-- Gives a node its content. -/
def fill (i : Nat) (content : Content) : Compose Unit :=
  modify fun s => { s with nodes := s.nodes.modify i fun n => { n with content := content } }

/-- Names a node. -/
def name (anchor : Option String) (i : Nat) : Compose Unit :=
  match anchor with
  | none => pure ()
  | some a => modify fun s => { s with anchors := (a, i) :: s.anchors }

/-- An empty scalar without tag. -/
def addEmpty : Compose Nat := add .null (.scalar "")

/-- A tag if one comes next, as handle and suffix. -/
def tag? : Compose (Option (Option String × String)) := do
  match ← peek with
  | .tag handle suffix =>
    advance
    return some (handle, suffix)
  | _ => return none

/-- A name if one comes next. -/
def anchor? : Compose (Option String) := do
  match ← peek with
  | .anchor name =>
    advance
    return some name
  | _ => return none

/-- The name and the tag before a node, in either order. -/
def properties : Compose (Option String × Option (Option String × String)) := do
  match ← anchor? with
  | some a => return (some a, ← tag?)
  | none =>
    match ← tag? with
    | some t => return (← anchor?, some t)
    | none => return (none, none)

/-- A tag in full. -/
def fullTag : Option (Option String × String) → Compose (Option String)
  | none => return none
  | some (none, suffix) => return some suffix
  | some (some handle, suffix) => do
    match (← get).handles.find? fun h => h.1 == handle with
    | some (_, uri) => return some (uri ++ suffix)
    | none => fail

/-- The type of a collection, by its tag or by its form. -/
def collectionKind (tag : Option String) (plain : Kind) : Kind :=
  match tag with
  | none => plain
  | some "!" => plain
  | some t => Kind.ofTag t

/-- The type of a scalar. -/
def scalarKind (tag : Option String) (text : String) (plain : Bool) : Kind :=
  match tag with
  | none => if plain then Kind.ofPlain text else .text
  | some "!" => Kind.ofPlain text
  | some t => Kind.ofTag t

/-- Where a node stands. -/
inductive Place where
  /-- Outside brackets. -/
  | block
  /-- Outside brackets, where items may begin in the column of the key before them. -/
  | blockOrItems
  /-- Between brackets. -/
  | flow
deriving DecidableEq

mutual

/-- A node; `fuel` bounds the number of steps. -/
def node (place : Place) : Nat → Compose Nat
  | 0 => fail
  | fuel + 1 => do
    match ← peek with
    | .reference anchor =>
      advance
      match (← get).anchors.find? fun a => a.1 == anchor with
      | some (_, i) => return i
      | none => fail
    | _ =>
      let (anchor, tag) ← properties
      let tag ← fullTag tag
      let named (i : Nat) : Compose Nat := do
        if (← get).anchors.any fun a => some a.1 == anchor then fail
        name anchor i
        return i
      let sequence (read : List Nat → Compose (List Nat)) : Compose Nat := do
        let i ← named (← add (collectionKind tag .items) (.sequence []))
        fill i (.sequence (← read []))
        return i
      let mapping (read : List (Nat × Nat) → Compose (List (Nat × Nat))) : Compose Nat := do
        let i ← named (← add (collectionKind tag .fields) (.mapping []))
        fill i (.mapping (← read []))
        return i
      let next ← peek
      match next with
      | .scalar text plain =>
        advance
        named (← add (scalarKind tag text plain) (.scalar text))
      | .flowSequenceStart =>
        advance
        sequence (flowItems true fuel)
      | .flowMappingStart =>
        advance
        mapping (flowEntries true fuel)
      | _ =>
        if place == .blockOrItems && next == .blockEntry then sequence (bareItems fuel)
        else if place != .flow && next == .blockSequenceStart then
          advance
          sequence (blockItems fuel)
        else if place != .flow && next == .blockMappingStart then
          advance
          mapping (blockEntries fuel)
        else if anchor.isSome || tag.isSome then
          named (← add (scalarKind tag "" true) (.scalar ""))
        else fail

/-- A node, or an empty scalar where one of the given tokens comes next. -/
def nodeUnless (place : Place) (ends : List Token) : Nat → Compose Nat
  | 0 => fail
  | fuel + 1 => do if ← sees ends then addEmpty else node place fuel

/-- The items of a block, to its end. -/
def blockItems : Nat → List Nat → Compose (List Nat)
  | 0, _ => fail
  | fuel + 1, items => do
    if ← accept .blockEntry then
      let i ← nodeUnless .block [.blockEntry, .blockEnd] fuel
      blockItems fuel (items ++ [i])
    else
      expect .blockEnd
      return items

/-- Items that stand in the column of the key before them. -/
def bareItems : Nat → List Nat → Compose (List Nat)
  | 0, _ => fail
  | fuel + 1, items => do
    if ← accept .blockEntry then
      let i ← nodeUnless .block [.blockEntry, .key, .value, .blockEnd] fuel
      bareItems fuel (items ++ [i])
    else return items

/-- The entries of a block, to its end. -/
def blockEntries : Nat → List (Nat × Nat) → Compose (List (Nat × Nat))
  | 0, _ => fail
  | fuel + 1, entries => do
    let ends := [Token.key, .value, .blockEnd]
    let value : Compose Nat := do
      if ← accept .value then nodeUnless .blockOrItems ends fuel else addEmpty
    if ← accept .key then
      let k ← nodeUnless .blockOrItems ends fuel
      blockEntries fuel (entries ++ [(k, ← value)])
    else
      expect .blockEnd
      return entries

/-- The items between brackets, to the closing one; `first` before any item. -/
def flowItems (first : Bool) : Nat → List Nat → Compose (List Nat)
  | 0, _ => fail
  | fuel + 1, items => do
    if ← accept .flowSequenceEnd then return items
    if !first then expect .flowEntry
    if ← accept .key then
      let i ← add .fields (.mapping [])
      let k ← nodeUnless .flow [.value, .flowEntry, .flowSequenceEnd] fuel
      let v ← flowValue [.flowEntry, .flowSequenceEnd] fuel
      fill i (.mapping [(k, v)])
      flowItems false fuel (items ++ [i])
    else if ← accept .flowSequenceEnd then return items
    else
      let i ← node .flow fuel
      flowItems false fuel (items ++ [i])

/-- The entries between braces, to the closing one; `first` before any entry. -/
def flowEntries (first : Bool) : Nat → List (Nat × Nat) → Compose (List (Nat × Nat))
  | 0, _ => fail
  | fuel + 1, entries => do
    let ends := [Token.flowEntry, .flowMappingEnd]
    if ← accept .flowMappingEnd then return entries
    if !first then expect .flowEntry
    if ← accept .key then
      let k ← nodeUnless .flow (.value :: ends) fuel
      let v ← flowValue ends fuel
      flowEntries false fuel (entries ++ [(k, v)])
    else if ← accept .flowMappingEnd then return entries
    else
      let k ← node .flow fuel
      let v ← addEmpty
      flowEntries false fuel (entries ++ [(k, v)])

/-- The value after a key between brackets, empty where no colon follows. -/
def flowValue (ends : List Token) : Nat → Compose Nat
  | 0 => fail
  | fuel + 1 => do
    if ← accept .value then nodeUnless .flow ends fuel else addEmpty

end

/-! ### Documents -/

/-- The directives before a document: at most one version, which begins with one, and the handles of
tags, each at most once. -/
def directives : Nat → Bool → List (String × String) → Compose (List (String × String))
  | 0, _, handles => return handles
  | fuel + 1, versioned, handles => do
    match ← peek with
    | .directive name arguments =>
      advance
      match name, arguments with
      | "YAML", major :: _ =>
        if versioned || Spelling.number major.toList != 1 then fail
        directives fuel true handles
      | "TAG", [handle, uri] =>
        if handles.any fun h => h.1 == handle then fail
        directives fuel versioned (handles ++ [(handle, uri)])
      | _, _ => directives fuel versioned handles
    | _ => return handles

/-- The handles that every document has unless it gives them another meaning. -/
def plainHandles : List (String × String) := [("!", "!"), ("!!", Kind.commonTag)]

/-- Passes the marks that end documents. -/
def passEnds : Nat → Compose Unit
  | 0 => pure ()
  | fuel + 1 => do if ← accept .documentEnd then passEnds fuel

/-- The content of a document that begins with a mark. -/
def markedDocument (fuel : Nat) : Compose Nat := do
  let handles ← directives fuel false []
  let missing := plainHandles.filter fun h => !handles.any fun g => g.1 == h.1
  modify fun s => { s with handles := handles ++ missing }
  expect .documentStart
  match ← peek with
  | .directive .. | .documentStart | .documentEnd | .streamEnd => addEmpty
  | _ => node .block fuel

/-- Whether the text goes on with a document without a mark. -/
def seesBareDocument : Compose Bool := do
  match ← peek with
  | .directive .. | .documentStart | .streamEnd => return false
  | _ => return true

/-- The one document of a text, if there is one. -/
def document (fuel : Nat) : Compose (Option Nat) := do
  if ← seesBareDocument then
    let i ← node .block fuel
    finish i
  else if ← accept .streamEnd then return none
  else
    let i ← markedDocument fuel
    finish i
where
  /-- The end of the text after the document; another document must not follow. -/
  finish (i : Nat) : Compose (Option Nat) := do
    passEnds fuel
    expect .streamEnd
    return some i

end Compose

/-- The nodes of a text and the number of the root, if there is a document. -/
def Store.ofText (text : String) : Except LexFault (Store × Option Nat) := do
  let (ts, fault) := tokens text
  let fuel := 4 * ts.length + 8
  let (root, s) ← Compose.document fuel ⟨ts, fault, #[], [], Compose.plainHandles⟩
  return (s.nodes, root)

end Yaml

end RepoGraph
