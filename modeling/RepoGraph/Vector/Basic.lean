import RepoGraph.Entity
import RepoGraph.Json.Printer

/-!
# Collections of points

The vector store holds collections by name.  A collection has the size of its vectors and points,
each under a number, with a vector and a payload.  A point is made of an enriched entity; two
entities whose ids have the same number share a point, and the later one wins.

A point is numbered by a hash of its entity's id: over the UTF-16 units of the id,
`h = 31 · h + unit` in 32-bit words, and at the end the absolute value of the word read as a signed
number.

Main statements: `Collection.find?_put_self`, `Collection.find?_put_of_ne`,
`Collection.find?_delete`.
-/

namespace RepoGraph

/-! ### Numbers of points -/

namespace PointId

/-- The UTF-16 units of a text. -/
def units (s : String) : List Nat := s.toList.flatMap Json.utf16Units

/-- The bytes of a text in UTF-16, the low byte of a unit before the high one. -/
def bytes (s : String) : List UInt8 :=
  (units s).flatMap fun u => [UInt8.ofNat u, UInt8.ofNat (u >>> 8)]

/-- The units that bytes make up, two by two. -/
def ofPairs : List UInt8 → List Nat
  | low :: high :: rest => (low.toNat ||| high.toNat <<< 8) :: ofPairs rest
  | _ => []

/-- One step of the hash: thirty-one times the word, and the unit, in thirty-two bits. -/
def step (h unit : Nat) : Nat := ((h <<< 5) - h + unit) &&& 0xFFFFFFFF

/-- The absolute value of a word of thirty-two bits read as a signed number. -/
def signedAbs (h : Nat) : Nat := (if 0x80000000 ≤ h then (h : Int) - 0x100000000 else h).natAbs

/-- The number of an entity id. -/
def ofEntityId (id : String) : Nat := signedAbs ((ofPairs (bytes id)).foldl step 0)

end PointId

/-! ### Points -/

/-- A vector with what is known about its entity. -/
structure Point where
  id : Nat
  vector : List Number
  payload : Fields

/-- Points whose vectors have one size. -/
structure Collection where
  size : Int
  points : List Point

/-! ### Points of entities -/

/-- How much of an entity's content goes into a payload, in characters. -/
def payloadLimit : Nat := 500

/-- What is known about an entity, as the payload of its point. -/
def Enriched.payload (e : Enriched) : Fields :=
  [("entityId", .str e.entity.id), ("type", .str e.entity.kind), ("name", .str e.entity.name),
    ("path", .str e.entity.path),
    ("semanticDescription", Json.ofOption e.enrichment.description),
    ("purpose", Json.ofOption e.enrichment.purpose),
    ("patterns", e.enrichment.patterns.elim .null fun ps => .arr (ps.map .str)),
    ("architecturalRole", Json.ofOption e.enrichment.role),
    ("complexity", e.enrichment.complexity.elim .null .int),
    ("content", match e.entity.content with
      | none | some "" => .null
      | some text => .str (Text.take payloadLimit text))]

/-- The point of an entity that has a vector. -/
def Point.ofEntity (e : Enriched) : Point :=
  ⟨PointId.ofEntityId e.id, e.enrichment.embedding.getD [], e.payload⟩

namespace Collection

/-- The collection of a size without points. -/
def ofSize (size : Int) : Collection := ⟨size, []⟩

/-- The point under a number in a list of points. -/
def lookup : List Point → Nat → Option Point
  | [], _ => none
  | p :: rest, id => if p.id = id then some p else lookup rest id

/-- The point under a number. -/
def find? (c : Collection) (id : Nat) : Option Point := lookup c.points id

/-- Puts a point into a list: in place of the one under its number, or at the end. -/
def putPoint (p : Point) : List Point → List Point
  | [] => [p]
  | q :: rest => if q.id = p.id then p :: rest else q :: putPoint p rest

/-- Puts a point. -/
def put (c : Collection) (p : Point) : Collection := { c with points := putPoint p c.points }

/-- Puts points, one after the other. -/
def putAll (c : Collection) (points : List Point) : Collection := points.foldl put c

/-- Deletes the points under some numbers. -/
def delete (c : Collection) (ids : List Nat) : Collection :=
  { c with points := c.points.filter fun p => !ids.contains p.id }

@[simp]
theorem find?_put_self (c : Collection) (p : Point) : (c.put p).find? p.id = some p := by
  simp only [find?, put]
  induction c.points with
  | nil => simp [putPoint, lookup]
  | cons q rest ih => by_cases h : q.id = p.id <;> simp [putPoint, lookup, h, ih]

theorem find?_put_of_ne (c : Collection) {p : Point} {id : Nat} (h : p.id ≠ id) :
    (c.put p).find? id = c.find? id := by
  simp only [find?, put]
  induction c.points with
  | nil => simp [putPoint, lookup, h]
  | cons q rest ih =>
    by_cases hq : q.id = p.id
    · simp [putPoint, lookup, hq, h]
    · by_cases hi : q.id = id
      · subst hi; simp [putPoint, lookup, hq]
      · simp [putPoint, lookup, hq, hi, ih]

theorem find?_delete (c : Collection) (ids : List Nat) (id : Nat) :
    (c.delete ids).find? id = if id ∈ ids then none else c.find? id := by
  simp only [find?, delete]
  induction c.points with
  | nil => simp [lookup]
  | cons q rest ih =>
    by_cases hq : q.id ∈ ids
    · by_cases hi : q.id = id
      · subst hi; simp_all
      · simp_all [lookup]
    · by_cases hi : q.id = id
      · subst hi; simp_all [lookup]
      · simp_all [lookup]

end Collection

/-- The collections by name. -/
abbrev Collections := List (String × Collection)

namespace Collections

/-- The collection of a name. -/
def get? : Collections → String → Option Collection
  | [], _ => none
  | (n, c) :: rest, name => if n = name then some c else get? rest name

/-- Gives a name a collection: in place where the name is present, at the end where it is not. -/
def set : Collections → String → Collection → Collections
  | [], name, c => [(name, c)]
  | (n, old) :: rest, name, c =>
    if n = name then (n, c) :: rest else (n, old) :: set rest name c

@[simp]
theorem get?_set_self (cs : Collections) (name : String) (c : Collection) :
    (cs.set name c).get? name = some c := by
  induction cs with
  | nil => simp [set, get?]
  | cons entry rest ih =>
    obtain ⟨n, old⟩ := entry
    by_cases h : n = name <;> simp [set, get?, h, ih]

theorem get?_set_of_ne (cs : Collections) {name other : String} (h : name ≠ other)
    (c : Collection) : (cs.set name c).get? other = cs.get? other := by
  induction cs with
  | nil => simp [set, get?, h]
  | cons entry rest ih =>
    obtain ⟨n, old⟩ := entry
    by_cases hn : n = name
    · subst hn; simp [set, get?, h]
    · by_cases ho : n = other
      · subst ho; simp [set, get?, hn]
      · simp [set, get?, hn, ho, ih]

end Collections

end RepoGraph
