import RepoGraph.Yaml.Literal
import RepoGraph.Yaml.Node

/-!
# Reading YAML

`Yaml.read` gives the value of a text.  Scalars get their value when a collection that holds them is
filled, and collections are filled in the order in which they are met, the outermost first; the
first fault in this order is the fault of the text.  A mapping takes in the mappings that its key
`<<` names before it is filled; its own entries come last and win.
-/

namespace RepoGraph

-- powers are those of whole numbers, whatever other powers are in scope
attribute [local instance (high)] instPowNat

namespace Yaml

/-- The value of a node, where other nodes appear by number. -/
inductive Shape where
  | scalar (s : Scalar)
  | list (items : List Nat)
  | map (entries : List (Scalar × Nat))
  | set (keys : List Scalar)
  | pairs (entries : List (Nat × Nat))
deriving Inhabited

/-- The state of filling. -/
structure Filling where
  nodes : Store
  /-- The values so far, by the number of the node. -/
  shapes : Array (Option Shape)
  /-- The collections still to be filled. -/
  queue : List Nat

/-- A step of filling. -/
abbrev Fill := StateT Filling (Except Fault)

namespace Fill

/-- A node. -/
def node (i : Nat) : Fill Node := do
  match (← get).nodes[i]? with
  | some n => return n
  | none => throw .malformed

/-- The entries of a mapping. -/
def entries (i : Nat) : Fill (List (Nat × Nat)) := do
  match (← node i).content with
  | .mapping es => return es
  | _ => throw .malformed

/-- Gives a mapping other entries. -/
def setEntries (i : Nat) (es : List (Nat × Nat)) : Fill Unit :=
  modify fun s => { s with nodes := s.nodes.modify i fun n => { n with content := .mapping es } }

/-- Takes the merged mappings into a mapping: from an entry on, with what was merged so far. -/
def mergeFrom (i : Nat) : Nat → Nat → List (Nat × Nat) → Fill Unit
  | 0, _, _ => throw .malformed
  | fuel + 1, index, merged => do
    let es ← entries i
    match es[index]? with
    | none => if !merged.isEmpty then setEntries i (merged ++ es)
    | some (k, v) =>
      match (← node k).kind with
      | .merge =>
        setEntries i (es.eraseIdx index)
        match (← node v).content with
        | .mapping _ =>
          mergeFrom v fuel 0 []
          mergeFrom i fuel index (merged ++ (← entries v))
        | .sequence items =>
          let parts ← items.mapM fun j => do
            let _ ← entries j
            mergeFrom j fuel 0 []
            entries j
          mergeFrom i fuel index (merged ++ parts.reverse.flatten)
        | .scalar _ => throw .malformed
      | .standIn =>
        modify fun s => { s with nodes := s.nodes.modify k fun n => { n with kind := .text } }
        mergeFrom i fuel (index + 1) merged
      | _ => mergeFrom i fuel (index + 1) merged

/-- The text of a scalar; a mapping with the key `=` has the text of the value there. -/
def text : Nat → Nat → Fill String
  | 0, _ => throw .malformed
  | fuel + 1, i => do
    match (← node i).content with
    | .scalar s => return s
    | .sequence _ => throw .malformed
    | .mapping es =>
      let found ← es.findM? fun e => do return (← node e.1).kind == .standIn
      match found with
      | some (_, v) => text fuel v
      | none => throw .malformed

/-- The number of steps that suffice. -/
def fuel : Fill Nat := do return ((← get).nodes.size + 2) ^ (3 : Nat)

/-- Keeps the value of a node. -/
def keep (i : Nat) (shape : Shape) : Fill Unit :=
  modify fun s => { s with shapes := s.shapes.setIfInBounds i (some shape) }

/-- The scalar of a node of a scalar type. -/
def scalar (i : Nat) (n : Node) : Fill Scalar := do
  let s ← text (← fuel) i
  match n.kind, n.content with
  | .timestamp, .mapping _ => throw .timestampOfMapping
  | _, _ => Scalar.ofText n.kind s

/-- Gives a node its value; a collection is left empty and filled later. -/
def construct (i : Nat) : Fill Unit := do
  if ((← get).shapes.getD i none).isSome then return
  let n ← node i
  let later (shape : Shape) : Fill Unit := do
    keep i shape
    modify fun s => { s with queue := s.queue ++ [i] }
  match n.kind with
  | .items => later (.list [])
  | .fields => later (.map [])
  | .set => later (.set [])
  | .pairs => later (.pairs [])
  | .merge | .standIn | .unknown => throw .malformed
  | _ => keep i (.scalar (← scalar i n))

/-- The key of an entry; a collection is no key. -/
def key (i : Nat) : Fill Scalar := do
  construct i
  match (← get).shapes.getD i none with
  | some (.scalar s) => return s
  | _ => throw .malformed

/-- The entries of a mapping, the merged ones first. -/
def mapping (i : Nat) : Fill (List (Scalar × Nat)) := do
  let _ ← entries i
  mergeFrom i (← fuel) 0 []
  (← entries i).foldlM
    (fun acc (k, v) => do
      let name ← key k
      construct v
      return Scalar.setEntry name v acc)
    []

/-- The one entry of a mapping. -/
def pair (i : Nat) : Fill (Nat × Nat) := do
  match ← entries i with
  | [(k, v)] =>
    construct k
    construct v
    return (k, v)
  | _ => throw .malformed

/-- The items of a sequence. -/
def items (i : Nat) : Fill (List Nat) := do
  match (← node i).content with
  | .sequence is => return is
  | _ => throw .malformed

/-- Fills a collection. -/
def fill (i : Nat) : Fill Unit := do
  match (← node i).kind with
  | .items =>
    let is ← items i
    is.forM construct
    keep i (.list is)
  | .pairs => keep i (.pairs (← (← items i).mapM pair))
  | .set => keep i (.set ((← mapping i).map Prod.fst))
  | _ => keep i (.map (← mapping i))

/-- Fills the collections that wait. -/
def fillAll : Nat → Fill Unit
  | 0 => pure ()
  | n + 1 => do
    match (← get).queue with
    | [] => pure ()
    | i :: rest =>
      modify fun s => { s with queue := rest }
      fill i
      fillAll n

end Fill

namespace Value

/-- The value of a node, inside the nodes of `path`. -/
def unfold (shapes : Array (Option Shape)) : Nat → List Nat → Nat → Value
  | 0, _, _ => .scalar .null
  | fuel + 1, path, i =>
    let inner (j : Nat) : Value := unfold shapes fuel (i :: path) j
    match shapes.getD i none with
    | none => .scalar .null
    | some (.scalar s) => .scalar s
    | some (.set keys) => .set keys
    | some (.list is) => if path.contains i then .loop false else .list (is.map inner)
    | some (.pairs es) =>
      if path.contains i then .loop false
      else .list (es.map fun (k, v) => .pair (inner k) (inner v))
    | some (.map es) =>
      if path.contains i then .loop true else .map (es.map fun (k, v) => (k, inner v))

end Value

/-- The value of a text; a text without a document is null. -/
def read (text : String) : Except Fault Value := do
  let (nodes, root) ← (Store.ofText text).mapError Fault.ofLex
  match root with
  | none => return .scalar .null
  | some i =>
    let work : Fill Unit := do
      Fill.construct i
      Fill.fillAll (nodes.size + 1)
    let ((), s) ← work ⟨nodes, Array.replicate nodes.size none, []⟩
    return Value.unfold s.shapes (nodes.size + 2) [] i

end Yaml

end RepoGraph
