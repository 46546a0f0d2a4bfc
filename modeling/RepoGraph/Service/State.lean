import RepoGraph.Failure

/-!
# The state of the build service

The service runs one build at a time.  A `Job` is an accepted build in the hands of a worker; a
`Service` holds the run state that clients see, the summary of the last run and all workers, so that
what clients and workers do can be interleaved: `start` is the step of a client, `advance` and
`finish` are the steps of a worker.  Each of them happens at once.

Main statements: `Service.start_running`, `Service.start_idle`, `Service.state_finish`.
-/

namespace RepoGraph

/-! ### Tasks -/

/-- A part of a build. -/
inductive Task where
  /-- The checkout is brought up to date. -/
  | sync
  | parse
  | enrich
  | populate
deriving DecidableEq, Repr

namespace Request

/-- Whether a request asks for a stage. -/
def asksFor (r : Request) (stage : String) : Bool := r.stage == some "all" || r.stage == some stage

/-- The tasks of a request in order.  A checkout is brought up to date before it is read, if there
is a repository to do it from. -/
def tasks (r : Request) : List Task :=
  (if r.asksFor "parse" && r.repoUrl.any (· != "") then [.sync] else []) ++
    (if r.asksFor "parse" then [.parse] else []) ++
    (if r.asksFor "enrich" then [.enrich] else []) ++
    (if r.asksFor "populate" then [.populate] else [])

end Request

/-- A request with what it leaves open taken from the settings, unless it is refused. -/
def Settings.complete (s : Settings) (r : Request) : Except Failure Request := do
  let r := { r with stage := match r.stage with | none | some "" => some "all" | given => given }
  let _ ← r.check.mapError .request
  let project ← (s.resolve r.project).mapError .project
  return { r with
    project := some project
    repoUrl := some (r.repoUrl.getD s.repoUrl)
    branch := some (r.branch.getD s.branch) }

/-! ### Jobs -/

/-- An accepted build: what it was asked for and when it started, the tasks that are left, what was
done, and what stopped it. -/
structure Job where
  request : Request
  startedAt : String
  left : List Task
  done : List StageSummary
  failure : Option Failure

namespace Job

/-- The job of a request that starts now. -/
def ofRequest (request : Request) (startedAt : String) : Job :=
  ⟨request, startedAt, request.tasks, [], none⟩

/-- The next task; there is none at the end and after a failure. -/
def next? (j : Job) : Option Task :=
  match j.failure with
  | some _ => none
  | none => j.left.head?

/-- The job after its next task, which may have a summary or fail. -/
def after (j : Job) : Except Failure (Option StageSummary) → Job
  | .ok summary => { j with left := j.left.tail, done := j.done ++ summary.toList }
  | .error f => { j with failure := some f }

/-- The summary of a job that ends. -/
def summary (j : Job) (finishedAt : String) : RunSummary :=
  ⟨j.request, j.startedAt, finishedAt, j.failure.isNone, j.done, j.failure.map Failure.summary⟩

end Job

/-! ### The service -/

/-- What clients see of the run state. -/
inductive RunState where
  | idle
  | running (request : Request) (startedAt : String)
deriving DecidableEq, Repr

/-- What a worker is at. -/
inductive Worker where
  | busy (job : Job)
  | finished
  /-- It could not be started. -/
  | absent

/-- What the service answers about itself. -/
structure ServiceStatus where
  current : Option (Request × String)
  lastRun : Option RunSummary

/-- The record of a status. -/
def ServiceStatus.toJson (s : ServiceStatus) : Json :=
  .obj ([("running", .bool s.current.isSome)] ++
    (s.current.toList.map fun (request, startedAt) =>
      ("current", .obj [("request", request.toJson), ("startedAt", .str startedAt)])) ++
    (s.lastRun.toList.map fun run => ("lastRun", run.toJson)))

/-- The run state, the last run, and the workers in the order in which they were started. -/
structure Service where
  state : RunState
  lastRun : Option RunSummary
  workers : List Worker

namespace Service

/-- The service before its first build. -/
def initial : Service := ⟨.idle, none, []⟩

/-- What the service answers about itself. -/
def status (s : Service) : ServiceStatus :=
  match s.state with
  | .idle => ⟨none, s.lastRun⟩
  | .running request startedAt => ⟨some (request, startedAt), s.lastRun⟩

/-- The job of a worker that is busy. -/
def job? (s : Service) (worker : Nat) : Option Job :=
  match s.workers[worker]? with
  | some (.busy job) => some job
  | _ => none

/-- A client starts a build, and gets the number of its worker.  The run state is set before it is
known whether the worker can be started. -/
def start (request : Request) (now : String) (obstacle : Option Failure) (s : Service) :
    Except Failure Nat × Service :=
  match s.state, obstacle with
  | .running .., _ => (.error .inProgress, s)
  | .idle, some f =>
    (.error f, { s with state := .running request now, workers := s.workers ++ [.absent] })
  | .idle, none =>
    (.ok s.workers.length,
      { s with
        state := .running request now
        workers := s.workers ++ [.busy (Job.ofRequest request now)] })

/-- A worker is done with its next task. -/
def advance (worker : Nat) (outcome : Except Failure (Option StageSummary)) (s : Service) :
    Service :=
  match s.job? worker with
  | some job => { s with workers := s.workers.set worker (.busy (job.after outcome)) }
  | none => s

/-- A worker ends its job: the summary is that of the last run, and the service is idle. -/
def finish (worker : Nat) (now : String) (s : Service) : Service :=
  match s.job? worker with
  | some job => ⟨.idle, some (job.summary now), s.workers.set worker .finished⟩
  | none => s

theorem start_running {s : Service} {current : Request} {since : String}
    (h : s.state = .running current since) (request : Request) (now : String)
    (obstacle : Option Failure) : s.start request now obstacle = (.error .inProgress, s) := by
  cases obstacle <;> simp [start, h]

theorem start_idle {s : Service} (h : s.state = .idle) (request : Request) (now : String)
    (obstacle : Option Failure) :
    (s.start request now obstacle).2.state = .running request now := by
  cases obstacle <;> simp [start, h]

theorem state_finish {s : Service} {worker : Nat} {job : Job} (h : s.job? worker = some job)
    (now : String) : (s.finish worker now).state = .idle := by
  simp [finish, h]

end Service

end RepoGraph
