import RepoGraph.Failure
import RepoGraph.Graph.Statement
import RepoGraph.Service.State
import RepoGraph.Vector.Basic

/-!
# Builds and their surroundings

A build changes a disk, a graph that is open for editing, the collections of the vector store and
the state of the build service, and it asks what it does not hold: version control, models, a graph
server, a clock.  Every such step is an `Event`.  `Outside` answers the questions, knowing all
events before them, and may refuse any event; a refused event fails the build and has no effect.

`Build` is the type of a step of a build: it reads `Outside`, changes a `World` and answers a value
or a `Failure`; what it changed before a failure stays changed.
-/

namespace RepoGraph

/-! ### Events -/

/-- How much a log entry matters. -/
inductive LogLevel where
  | info
  | warning
  | error
deriving DecidableEq, Repr

/-- The word for a level. -/
def LogLevel.word : LogLevel → String
  | info => "INFO"
  | warning => "WARNING"
  | error => "ERROR"

/-- A part of a log entry: a text, or a failure in place of its text. -/
inductive LogPart where
  | text (s : String)
  | failure (f : Failure)

instance : Coe String LogPart := ⟨LogPart.text⟩

instance : Coe Failure LogPart := ⟨LogPart.failure⟩

/-- An entry of the log: its level, the part of the library it comes from, and its parts. -/
structure LogEntry where
  level : LogLevel
  channel : String
  parts : List LogPart

/-- What an embedding service is asked for. -/
inductive EmbeddingRequest where
  /-- The vector of a text, from the service at a URL, with the seconds to wait for a connection and
  for the answer. -/
  | service (url text : String) (connectLimit answerLimit : Number)
  /-- The vector of a text under a model, in a number of dimensions if one is given. -/
  | model (model text : String) (dimensions : Option Int)

/-- What a chat model is asked: the question, how long the answer may be in tokens, and its form. -/
structure ChatRequest where
  model : Yaml.Value
  instruction : String
  prompt : String
  tokenLimit : Nat
  form : String

/-- A client of a service outside. -/
inductive Client where
  /-- For the model service: a key, and a URL unless it is the usual one. -/
  | model (key url : Yaml.Value)
  /-- For the graph server. -/
  | graph (url user password : String)
  /-- For the vector store. -/
  | vector (url : String)

/-- A change of the vector store. -/
inductive VectorCall where
  | create (collection : String) (size : Int)
  | upsert (collection : String) (points : List Point)
  | delete (collection : String) (ids : List Nat)

/-- A change of the open graph. -/
inductive GraphCall where
  | entities (batch : List Enriched)
  | relationships (rs : List Relationship)
  | prune (current : List String) (scope : Option (List String))
  | load (path : String)
  | save (path : String)

/-- A step on the disk. -/
inductive DiskStep where
  | makeDirectories (path : String)
  | create (path : String)
  | write (path : String)
  | replace (source target : String)
  | remove (path : String)
  | removeTree (path : String)
  | read (path : String)

/-- One thing that a build does outside its own memory. -/
inductive Event where
  | log (entry : LogEntry)
  | disk (step : DiskStep)
  | git (arguments : List String) (directory : Option String)
  | embed (request : EmbeddingRequest)
  | chat (request : ChatRequest)
  | connect (client : Client)
  | disconnect (client : Client)
  | graph (call : GraphCall)
  | statement (s : Statement)
  | transaction (size : Nat)
  | ping
  | vector (call : VectorCall)
  | fetch (url : String) (timeout : Number)
  | sleep (seconds : Number)
  | worker
  | stage (name : String) (config : BuildConfig)
  | sync (path url branch : String)

/-! ### Outside -/

/-- What the version control program answers. -/
inductive GitReply where
  /-- It cannot be started. -/
  | notStarted (reason : String)
  /-- It ends with a code, 0 for success, and two outputs. -/
  | finished (code : Int) (output errors : String)

/-- The answers to the questions of a build.  Each may depend on all events before it, which are
listed latest first. -/
structure Outside where
  /-- The time. -/
  clock : List Event → Instant
  /-- Whether something comes in the way of an event. -/
  refuses : List Event → Event → Option Failure
  /-- How many characters of a refused write arrive all the same. -/
  arrived : List Event → Nat
  git : List Event → List String → Option String → GitReply
  /-- The body of the answer. -/
  embed : List Event → EmbeddingRequest → Except Failure Json
  chat : List Event → ChatRequest → Except Failure (Option String)
  statement : List Event → Statement → Except Failure Reply
  ping : List Event → Except Failure Unit
  fetch : List Event → String → Except Failure Unit

/-! ### The world -/

/-- What a build changes. -/
structure World where
  disk : Disk
  /-- The working directory. -/
  cwd : Place
  collections : Collections
  /-- The graph that is open for editing. -/
  openGraph : Graph
  /-- Whether there is a connection to the graph server. -/
  isConnected : Bool
  /-- Whether there is a client for the vector store. -/
  hasVectorClient : Bool
  service : Service
  /-- What was done, latest first. -/
  events : List Event

/-- The world with a disk and nothing else. -/
def World.ofDisk (disk : Disk) (cwd : Place) : World :=
  ⟨disk, cwd, [], .empty, false, false, .initial, []⟩

/-- A step of a build. -/
abbrev Build := ReaderT Outside (ExceptT Failure (StateM World))

namespace Build

variable {α : Type}

/-- The answer of a step and the world after it. -/
def run (step : Build α) (outside : Outside) (world : World) : Except Failure α × World :=
  step outside world

/-! ### Basic steps -/

/-- Notes an event. -/
def note (event : Event) : Build Unit := modify fun w => { w with events := event :: w.events }

/-- Fails for a reason. -/
def fail (f : Failure) : Build α := throw f

/-- Takes an answer, or fails. -/
def take {ε : Type} (reason : ε → Failure) (answer : Except ε α) : Build α :=
  match answer with
  | .ok value => pure value
  | .error e => throw (reason e)

/-- Notes an event and fails if it is refused. -/
def attempt (event : Event) : Build Unit := do
  let before := (← get).events
  note event
  match (← read).refuses before event with
  | none => pure ()
  | some f => throw f

/-- Writes to the log. -/
def log (level : LogLevel) (channel : String) (parts : List LogPart) : Build Unit :=
  note (.log ⟨level, channel, parts⟩)

/-- The present time. -/
def now : Build Instant := do return (← read).clock (← get).events

/-- The present time as text. -/
def stamp : Build String := do return (← now).stamp

/-- The milliseconds from an instant to another, none if time went back. -/
def elapsed (start finish : Instant) : Int :=
  ((finish.microseconds : Int) - start.microseconds).tdiv 1000

/-- Does one step and then another one in any case.  A failure of the second one is the failure
of both. -/
def ensuring (step : Build α) (after : Build Unit) : Build α := fun outside world =>
  match step outside world with
  | (answer, world) =>
    match after outside world with
    | (.ok (), world) => (answer, world)
    | (.error f, world) => (.error f, world)

/-- Does a step and answers its failure, if it fails. -/
def outcome (step : Build α) : Build (Except Failure α) := fun outside world =>
  match step outside world with
  | (answer, world) => (.ok answer, world)

/-! ### The disk -/

/-- What a question about the disk answers. -/
def askDisk (question : Disk → Place → α) : Build α := do
  let w ← get
  return question w.disk w.cwd

/-- Changes the disk. -/
def changeDisk (step : DiskStep) (change : Disk → Place → Except DiskFault Disk) : Build Unit := do
  attempt (.disk step)
  let w ← get
  let disk ← take .disk (change w.disk w.cwd)
  set { w with disk }

/-- Makes a directory and those that lead to it. -/
def makeDirectories (path : String) : Build Unit :=
  changeDisk (.makeDirectories path) fun d cwd => d.makeDirectories cwd path

/-- What a file holds. -/
def readContent (path : String) : Build Content := do
  attempt (.disk (.read path))
  take .disk (← askDisk fun d cwd => d.read cwd path)

/-- The text of a file. -/
def readText (path : String) : Build String := do take .encoding (← readContent path).read

/-- Creates a file and writes a text into it.  A refused write leaves a part of the text. -/
def writeText (path text : String) : Build Unit := do
  changeDisk (.create path) fun d cwd => d.write cwd path (.text "")
  match ← outcome (attempt (.disk (.write path))) with
  | .ok () =>
    let w ← get
    set { w with disk := (w.disk.write w.cwd path (.text text)).toOption.getD w.disk }
  | .error f =>
    let w ← get
    let part := Text.take ((← read).arrived w.events) text
    set { w with disk := (w.disk.write w.cwd path (.text part)).toOption.getD w.disk }
    throw f

end Build

end RepoGraph
