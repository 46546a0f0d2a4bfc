import RepoGraph.Proofs.Server.Query
import RepoGraph.World

/-!
# A graph server

`Database` is what a graph server stores: vertices with labels and properties, and arcs between
them.  A query turns a table of rows over clause by clause.  A row says what its variables stand
for; a clause takes all rows of the table, in order, and gives the rows of the next one, and some
clauses change what is stored.  No property is ever null: setting one to null takes it away.  What
compares with null is unknown, and an unknown condition is not fulfilled.

`Database.after` is what a server that began empty stores after the statements among some events,
and `Outside.Serves` are the surroundings in which every statement is answered by such a server.

Main definitions: `Clause.apply`, `Query.run`, `Database.after`, `Outside.Serves`.
-/

namespace RepoGraph

namespace Cypher

/-! ### What is stored -/

/-- A vertex, by its number. -/
structure Vertex where
  number : Nat
  labels : List String
  properties : Fields

/-- An arc between two vertices, by its number. -/
structure Arc where
  number : Nat
  type : String
  source : Nat
  target : Nat
  properties : Fields

/-- What a server stores.  Numbers from `next` on have not been given to anything. -/
structure Database where
  vertices : List Vertex
  arcs : List Arc
  next : Nat

/-- A server that stores nothing. -/
def Database.empty : Database := ⟨[], [], 0⟩

/-! ### Values -/

/-- The value of a property, null where there is none. -/
def valueOf (properties : Fields) (name : String) : Json := (properties.get? name).getD .null

/-- Gives a property a value; null takes it away. -/
def assign (properties : Fields) (name : String) : Json → Fields
  | .null => properties.filter fun field => field.1 != name
  | value => properties.set name value

/-- Whether two values are equal; unknown if one of them is null. -/
def equals : Json → Json → Option Bool
  | .null, _ => none
  | _, .null => none
  | a, b => some (a == b)

/-- Whether a value is in a list; unknown if it is not found and a comparison is unknown. -/
def isAmong (a : Json) : Json → Option Bool
  | .arr items =>
    if items.any fun b => equals a b == some true then some true
    else if items.any fun b => equals a b == none then none
    else some false
  | _ => none

/-- The elements of a list. -/
def elements : Json → List Json
  | .arr items => items
  | _ => []

/-! ### Rows -/

/-- What a variable stands for. -/
inductive Binding where
  | value (v : Json)
  | vertex (number : Nat)
  | arc (number : Nat)

/-- What the variables stand for. -/
abbrev Row := String → Option Binding

/-- Lets a variable stand for something. -/
def Row.bind (row : Row) (var : String) (b : Binding) : Row :=
  fun other => if other = var then some b else row other

/-- The properties that a variable has in a row. -/
def Database.propertiesOf (db : Database) : Option Binding → Fields
  | some (.value (.obj fields)) => fields
  | some (.vertex n) => ((db.vertices.find? fun v => v.number == n).map Vertex.properties).getD []
  | some (.arc n) => ((db.arcs.find? fun a => a.number == n).map Arc.properties).getD []
  | _ => []

/-- What a query is given: its parameters and the time. -/
structure Given where
  parameters : Fields
  time : Json

variable (given : Given)

/-- The value of a term in a row. -/
def Term.eval (db : Database) (row : Row) : Term → Json
  | parameter name => valueOf given.parameters name
  | property var name => valueOf (db.propertiesOf (row var)) name
  | now => given.time

/-- Whether a condition is fulfilled in a row, if this is known. -/
def Condition.eval (db : Database) (row : Row) : Condition → Option Bool
  | equal a b => equals (a.eval given db row) (b.eval given db row)
  | isIn a b => isAmong (a.eval given db row) (b.eval given db row)
  | not c => (c.eval db row).map (!·)
  | and c d =>
    match c.eval db row, d.eval db row with
    | some false, _ => some false
    | _, some false => some false
    | some true, some true => some true
    | _, _ => none

/-- Whether properties have the values that a pattern asks for. -/
def admits (db : Database) (row : Row) (asked : List (String × Term))
    (properties : Fields) : Bool :=
  asked.all fun (name, t) => equals (valueOf properties name) (t.eval given db row) == some true

/-- The vertices that a pattern fits. -/
def VertexPattern.found (db : Database) (row : Row) (p : VertexPattern) : List Vertex :=
  db.vertices.filter fun v =>
    p.label.all v.labels.contains && admits given db row p.properties v.properties

/-! ### Clauses -/

/-- Gives a property of what a variable stands for a value. -/
def Database.assign (db : Database) (b : Binding) (name : String) (value : Json) : Database :=
  match b with
  | .value _ => db
  | .vertex n =>
    { db with vertices := db.vertices.map fun v =>
        if v.number = n then { v with properties := Cypher.assign v.properties name value } else v }
  | .arc n =>
    { db with arcs := db.arcs.map fun a =>
        if a.number = n then { a with properties := Cypher.assign a.properties name value } else a }

/-- The vertices that a pattern fits, or a new one that it fits, by their numbers.  The properties
of a pattern that is merged are not null: a server refuses it otherwise. -/
def VertexPattern.merge (p : VertexPattern) (row : Row) (db : Database) : Database × List Nat :=
  match p.found given db row with
  | [] =>
    let wanted := p.properties.map fun (name, t) => (name, t.eval given db row)
    ({ db with
        vertices := db.vertices ++ [⟨db.next, p.label.toList, wanted⟩], next := db.next + 1 },
      [db.next])
  | found => (db, found.map Vertex.number)

/-- The arcs of a type between two vertices, or a new one, by their numbers. -/
def Database.mergeArc (type : String) (source target : Nat) (db : Database) : Database × List Nat :=
  match db.arcs.filter fun a => a.type == type && a.source == source && a.target == target with
  | [] =>
    ({ db with arcs := db.arcs ++ [⟨db.next, type, source, target, []⟩], next := db.next + 1 },
      [db.next])
  | found => (db, found.map Arc.number)

/-- Deletes vertices and the arcs from and to them. -/
def Database.delete (numbers : List Nat) (db : Database) : Database :=
  { db with
    vertices := db.vertices.filter fun v => !numbers.contains v.number
    arcs := db.arcs.filter fun a => !(numbers.contains a.source || numbers.contains a.target) }

/-- The number of the vertex that a variable stands for. -/
def vertexNumber? : Option Binding → Option Nat
  | some (.vertex n) => some n
  | _ => none

/-- A clause that changes what is stored takes the rows one after the other. -/
def eachRow (step : Row → Database → Database × List Row) (rows : List Row) (db : Database) :
    Database × List Row :=
  match rows with
  | [] => (db, [])
  | row :: rest =>
    let (changed, next) := step row db
    let (last, others) := eachRow step rest changed
    (last, next ++ others)

/-- What a clause makes of what is stored and of the rows. -/
def Clause.apply (db : Database) (rows : List Row) : Clause → Database × List Row
  | unwind list var =>
    (db, rows.flatMap fun row => (elements (list.eval given db row)).map fun item =>
      row.bind var (.value item))
  | matchVertex p =>
    (db, rows.flatMap fun row => (p.found given db row).map
      fun v => row.bind p.var (.vertex v.number))
  | matchArc p arc q =>
    (db, rows.flatMap fun row =>
      (db.arcs.filter fun a => admits given db row arc.properties a.properties).flatMap fun a =>
        ((p.found given db row).filter fun v => v.number == a.source).flatMap fun v =>
          ((q.found given db row).filter fun v' => v'.number == a.target).map fun v' =>
            ((row.bind p.var (.vertex v.number)).bind q.var (.vertex v'.number)).bind arc.var
              (.arc a.number))
  | filter condition => (db, rows.filter fun row => condition.eval given db row == some true)
  | mergeVertex p =>
    eachRow (fun row db =>
      let (changed, numbers) := p.merge given row db
      (changed, numbers.map fun n => row.bind p.var (.vertex n))) rows db
  | mergeArc source var type target =>
    eachRow (fun row db =>
      match vertexNumber? (row source), vertexNumber? (row target) with
      | some n, some m =>
        let (changed, numbers) := db.mergeArc type n m
        (changed, numbers.map fun k => row.bind var (.arc k))
      | _, _ => (db, [])) rows db
  | set var items =>
    eachRow (fun row db =>
      (items.foldl (fun db (name, t) =>
        match row var with
        | some b => db.assign b name (t.eval given db row)
        | none => db) db, [row])) rows db
  | keep var term name =>
    (db, rows.map fun row => Row.bind (fun other => if other = var then row other else none) name
      (.value (term.eval given db row)))
  | delete var => (db.delete (rows.filterMap fun row => vertexNumber? (row var)), rows)

/-- What clauses make of what is stored and of the rows, one after the other. -/
def applyAll (db : Database) (rows : List Row) : List Clause → Database × List Row
  | [] => (db, rows)
  | clause :: rest =>
    let (changed, next) := clause.apply given db rows
    applyAll changed next rest

/-! ### Queries -/

/-- The records that are returned for some rows. -/
def Return.records (rows : List Row) : Return → List Fields
  | nothing => []
  | count var name => [[(name, .int (rows.countP fun row => (row var).isSome))]]
  | column name =>
    rows.map fun row =>
      [(name, match row name with
        | some (.value v) => v
        | _ => .null)]

/-- The row that a query begins with. -/
def Row.start : Row := fun _ => none

/-- What a query leaves stored and what it returns. -/
def Query.run (db : Database) : Query → Database × List Fields
  | index _ _ => (db, [])
  | pipeline clauses result =>
    let (changed, rows) := applyAll given db [Row.start] clauses
    (changed, result.records rows)

end Cypher

/-! ### Statements -/

namespace Statement

open Cypher

/-- What the query of a statement is given. -/
def given (time : Json) (s : Statement) : Given := ⟨s.parameters.getD [], time⟩

/-- The number in the first record. -/
def recordNumber (name : String) : List Fields → Int
  | record :: _ => ((record.get? name).bind Json.int?).getD 0
  | [] => 0

/-- The answer that is read from the records of a statement. -/
def replyOf (records : List Fields) : Statement → Reply
  | index _ => .nothing
  | mergeNodes _ _ => .nothing
  | mergeEdges _ _ _ => .count (recordNumber "created" records)
  | prune _ _ _ => .ids (records.filterMap fun record => (record.get? "id").bind Json.str?)
  | countNodes _ => .count (recordNumber "n" records)
  | countEdges _ => .count (recordNumber "n" records)

/-- What a server stores after a statement and what it answers. -/
def serve (time : Json) (db : Database) (s : Statement) : Database × Reply :=
  let (changed, records) := s.query.run (s.given time) db
  (changed, s.replyOf records)

end Statement

/-- What a server that began empty stores after some events, latest first. -/
def Cypher.Database.after (time : List Event → Json) : List Event → Database
  | [] => .empty
  | .statement s :: past => (s.serve (time past) (after time past)).1
  | _ :: past => after time past

/-- The statements are answered by a server that began empty. -/
def Outside.Serves (time : List Event → Json) (outside : Outside) : Prop :=
  ∀ past s, outside.statement past s = .ok (s.serve (time past) (.after time past)).2

end RepoGraph
