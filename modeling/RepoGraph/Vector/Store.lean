import RepoGraph.Batch
import RepoGraph.Vector.Basic
import RepoGraph.World

/-!
# The vector store

A project has one collection, of vectors of the size that the settings give.  An entity with a
vector of that size has a point; the points of entities that are gone are deleted by the numbers of
their ids.

Two vectors are compared by the cosine of the angle between them.  The numbers are taken exactly,
the root is taken to sixty binary places, and the result is rounded to the twenty-four binary digits
of single precision.  A search answers the most similar points first.
-/

namespace RepoGraph

namespace Similarity

-- powers are those of whole numbers, whatever other powers are in scope
attribute [local instance (high)] instPowNat

/-! ### Exact sums -/

/-- The value of a number as an integer over a positive natural. -/
def ratio : Number → Int × Nat
  | .int n => (n, 1)
  | .float x => x.signedRatio

/-- The sum of two ratios. -/
def addRatio (x y : Int × Nat) : Int × Nat := (x.1 * y.2 + y.1 * x.2, x.2 * y.2)

/-- The product of two ratios. -/
def mulRatio (x y : Int × Nat) : Int × Nat := (x.1 * y.1, x.2 * y.2)

/-- The inner product of two vectors. -/
def inner (a b : List Number) : Int × Nat :=
  (List.zipWith (fun x y => mulRatio (ratio x) (ratio y)) a b).foldl addRatio (0, 1)

/-! ### Roots and rounding -/

/-- The largest number whose square is at most `n`, among those made of `r` and `bits` lower
bits. -/
def rootFrom (n : Nat) : Nat → Nat → Nat
  | 0, r => r
  | bits + 1, r =>
    let candidate := r + 2 ^ bits
    rootFrom n bits (if candidate * candidate ≤ n then candidate else r)

/-- The integer square root. -/
def root (n : Nat) : Nat := rootFrom n (n.log2 / 2 + 1) 0

/-- The number nearest to `num / den` that has twenty-four binary digits, for a ratio of at
most one. -/
def toSingle (negative : Bool) (num den : Nat) : Binary64 :=
  if num = 0 then Binary64.ofRatio negative 0 1
  else
    let lead := (den / num).log2
    let shift := lead + 24
    Binary64.ofRatio negative (Binary64.roundDiv (num * 2 ^ shift) den) (2 ^ shift)

/-- The cosine of the angle between two vectors; zero where one of them is zero. -/
def cosine (a b : List Number) : Binary64 :=
  let (dot, dotDen) := inner a b
  let (na, naDen) := inner a a
  let (nb, nbDen) := inner b b
  let num := dot.natAbs * dot.natAbs * naDen * nbDen
  let den := dotDen * dotDen * na.natAbs * nb.natAbs
  if den = 0 then Binary64.ofRatio false 0 1
  else toSingle (dot < 0) (root (num * 2 ^ (120 : Nat) / den)) (2 ^ (60 : Nat))

/-- Whether one finite number is at most another. -/
def atMost (x y : Binary64) : Bool :=
  let (a, b) := x.signedRatio
  let (c, d) := y.signedRatio
  a * d ≤ c * b

end Similarity

/-- A point that a search found. -/
structure Hit where
  id : Nat
  score : Binary64
  payload : Fields

namespace Collection

/-- The payload fields that a search can ask for. -/
def searchKeys : List String := ["type", "path", "architecturalRole"]

/-- Whether a payload has the values that are asked for; what is empty is not asked for. -/
def satisfies (asked payload : Fields) : Bool :=
  searchKeys.all fun key =>
    match asked.get? key with
    | none => true
    | some value => !value.isFilled || payload.get? key == some value

/-- The points most similar to a vector among those that have what is asked for. -/
def search (c : Collection) (query : List Number) (limit : Int) (asked : Fields) : List Hit :=
  let hits := (c.points.filter fun p => satisfies asked p.payload).map fun p =>
    Hit.mk p.id (Similarity.cosine query p.vector) p.payload
  ((hits.mergeSort fun x y => Similarity.atMost x.score y.score).reverse).take limit.toNat

end Collection

/-! ### The store -/

/-- A project's part of the vector store: the URL of the store, the project, the size of its
vectors, and whether the client is shared with others, who made it and will close it. -/
structure VectorStore where
  url : String
  project : String
  size : Int
  isShared : Bool

namespace VectorStore

/-- The part of the log. -/
def channel : String := "stores.vector_store"

/-- How many points go in one batch. -/
def batchSize : Nat := 100

/-- The name of the project's collection. -/
def collection (v : VectorStore) : String := Project.collection v.project "code_graph"

/-- Opens a project's part of the store: a client of its own is yet to be made. -/
def openStore (v : VectorStore) : Build Unit := do
  if !v.isShared then modify fun w => { w with hasVectorClient := false }

/-- Makes a client, unless there is one. -/
def connect (v : VectorStore) : Build Unit := do
  if !v.isShared && !(← get).hasVectorClient then
    Build.attempt (.connect (.vector v.url))
    modify fun w => { w with hasVectorClient := true }

/-- Closes the client that was made. -/
def close (v : VectorStore) : Build Unit := do
  if !v.isShared && (← get).hasVectorClient then
    Build.note (.disconnect (.vector v.url))
    modify fun w => { w with hasVectorClient := false }

/-- The project's collection, which must be there. -/
def present (v : VectorStore) : Build Collection := do
  match (← get).collections.get? v.collection with
  | some c => return c
  | none => Build.fail (.noCollection v.collection)

/-- Changes the project's collection. -/
def change (v : VectorStore) (call : VectorCall) (f : Collection → Collection) : Build Unit := do
  Build.attempt (.vector call)
  let c ← v.present
  modify fun w => { w with collections := w.collections.set v.collection (f c) }

/-- Makes the project's collection if it is missing; the vectors of one that is there must have the
size of the settings. -/
def ensure (v : VectorStore) : Build Unit := do
  v.connect
  match (← get).collections.get? v.collection with
  | none =>
    Build.attempt (.vector (.create v.collection v.size))
    modify fun w =>
      { w with collections := w.collections.set v.collection (Collection.ofSize v.size) }
    Build.log .info channel ["Created Qdrant collection: " ++ v.collection]
  | some c =>
    if c.size != v.size then
      let fault : Failure := .vectorSize v.collection c.size v.size
      Build.log .error channel [fault.message]
      Build.fail fault

/-! ### Points -/

/-- How many numbers the vector of an entity has. -/
def dimensions (e : Enriched) : Nat := (e.enrichment.embedding.getD []).length

/-- The points of the entities with a vector of the right size; the log is told of vectors of
another size. -/
def pointsOf (v : VectorStore) : List Enriched → Build (List Point)
  | [] => pure []
  | e :: rest => do
    if !e.hasEmbedding then pointsOf v rest
    else if (dimensions e : Int) != v.size then
      Build.log .warning channel
        ["Skipping " ++ e.id ++ ": embedding has " ++ toString (dimensions e) ++
          " dimensions, expected " ++ toString v.size]
      pointsOf v rest
    else return Point.ofEntity e :: (← pointsOf v rest)

/-- Puts the points of entities, and answers how many. -/
def upsertEntities (v : VectorStore) (entities : List Enriched) : Build Nat := do
  let points ← v.pointsOf entities
  if points.isEmpty then
    Build.log .warning channel ["No entities with embeddings to store in Qdrant"]
    return 0
  else
    v.connect
    (Batch.counted batchSize points).forM fun (batch, done) => do
      v.change (.upsert v.collection batch) fun c => c.putAll batch
      Build.log .info channel
        ["Qdrant upsert progress: " ++ toString done ++ "/" ++ toString points.length]
    return points.length

/-- The numbers of some ids in order, each once. -/
def pointIds (ids : List String) : List Nat :=
  ((ids.map PointId.ofEntityId).mergeSort fun a b => a ≤ b).eraseDups

/-- Deletes the points of some entities, and answers how many numbers they have. -/
def deleteEntities (v : VectorStore) (ids : List String) : Build Nat := do
  let numbers := pointIds ids
  if numbers.isEmpty then return 0
  else
    v.connect
    (Batch.split batchSize numbers).forM fun batch =>
      v.change (.delete v.collection batch) fun c => c.delete batch
    return numbers.length

/-! ### Questions -/

/-- The points most similar to a vector. -/
def search (v : VectorStore) (query : List Number) (limit : Int) (asked : Fields) :
    Build (List Hit) := do
  v.connect
  return (← v.present).search query limit asked

/-- How many points the collection has. -/
def count (v : VectorStore) : Build Nat := do
  v.connect
  return (← v.present).points.length

/-- How many points the collection has, if it is there. -/
def count? (v : VectorStore) : Build (Option Nat) := do
  v.connect
  return ((← get).collections.get? v.collection).map fun c => c.points.length

end VectorStore

/-- A project's part of the vector store that the settings name. -/
def Settings.vectorStore (s : Settings) (project : String) : VectorStore :=
  ⟨s.vectorUrl, project, s.vectorSize, false⟩

end RepoGraph
