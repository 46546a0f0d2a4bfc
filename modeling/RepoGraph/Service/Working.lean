import RepoGraph.Build.Enriching
import RepoGraph.Build.Populating
import RepoGraph.Build.Reading

/-!
# Running builds

A client starts a build with `Service.startBuild`; a worker then does the tasks of its job one by
one with `Service.step`, and whatever happens in them ends in the summary of the run.
`Service.runJob` takes all steps of one worker without pause.
-/

namespace RepoGraph

/-- How the parts of a build are done. -/
structure Stages where
  sync : String → String → String → Build Unit
  parse : BuildConfig → Build ParseOutput
  enrich : BuildConfig → Build EnrichOutput
  populate : BuildConfig → Build Population

/-- The stages as the settings set them up. -/
def Settings.stages (s : Settings) : Stages :=
  ⟨Checkout.sync, Reading.run, s.enriching, s.populating⟩

/-- The settings of the build that a request asks for. -/
def Settings.configOf (s : Settings) (r : Request) : BuildConfig :=
  s.buildConfig (r.mode.getD "") (r.project.getD "") r.baseCommit

namespace Stages

/-- The part of the log. -/
def channel : String := "service"

/-- Does a stage and summarises it, given how long it took. -/
def timed {α : Type} (name : String) (config : BuildConfig) (stage : BuildConfig → Build α)
    (summary : Int → α → StageSummary) : Build (Option StageSummary) := do
  let start ← Build.now
  Build.attempt (.stage name config)
  let output ← stage config
  let finish ← Build.now
  return some (summary (Build.elapsed start finish) output)

/-- A number in the metadata of an output, zero where there is none. -/
def told (metadata : Fields) (name : String) : Json := (metadata.get? name).getD (.int 0)

/-- Brings the checkout up to date. -/
def runSync (s : Stages) (config : BuildConfig) (r : Request) : Build (Option StageSummary) := do
  let url := r.repoUrl.getD ""
  let branch := r.branch.getD ""
  Build.log .info channel
    ["Preparing repository (" ++ url ++ " @ " ++ branch ++ ") at " ++ config.repoPath]
  Build.attempt (.sync config.repoPath url branch)
  s.sync config.repoPath url branch
  Build.log .info channel ["Repository ready"]
  return none

/-- Does a task of a build and summarises it, if it is a stage. -/
def perform (s : Stages) (config : BuildConfig) (r : Request) :
    Task → Build (Option StageSummary)
  | .sync => s.runSync config r
  | .parse => timed Reading.stage config s.parse fun ms output =>
    ⟨Reading.stage, ms, .int output.entities.length, output.relationships.length,
      some [("filesProcessed", told output.metadata "filesProcessed")]⟩
  | .enrich => timed Enriching.stage config s.enrich fun ms output =>
    ⟨Enriching.stage, ms, told output.metadata "entitiesEnriched", output.relationships.length,
      some [("entitiesEnriched", told output.metadata "entitiesEnriched")]⟩
  | .populate => timed Populating.stage config s.populate fun ms done =>
    ⟨Populating.stage, ms, .int done.entities, done.relationships,
      some [("vectorPoints", .int done.points), ("pruned", .int done.pruned)]⟩

end Stages

namespace Service

open Stages (channel)

/-! ### Clients -/

/-- Changes the state of the service. -/
def change (f : Service → Service) : Build Unit := modify fun w => { w with service := f w.service }

/-- Starts a build, and answers its request with what it left open filled in. -/
def startBuild (settings : Settings) (request : Request) : Build Request := do
  let accepted ← Build.take id (settings.complete request)
  let now ← Build.stamp
  let w ← get
  let obstacle := (← read).refuses w.events .worker
  let (answer, after) := w.service.start accepted now obstacle
  change fun _ => after
  let _ ← Build.take id answer
  Build.note .worker
  Build.log .info channel
    ["Build queued: mode=" ++ accepted.mode.getD "" ++ ", stage=" ++ accepted.stage.getD "" ++
      ", project=" ++ accepted.project.getD "" ++ ", repo=" ++
      (match accepted.repoUrl with | none | some "" => "-" | some url => url) ++
      ", branch=" ++ accepted.branch.getD ""]
  return accepted

/-- The number of the worker that was started last. -/
def latest (s : Service) : Nat := s.workers.length - 1

/-! ### Workers -/

/-- Ends the job of a worker. -/
def close (worker : Nat) (job : Job) : Build Unit := do
  match job.failure with
  | some f => Build.log .error channel ["Build failed: " ++ f.summary]
  | none => pure ()
  let now ← Build.stamp
  change (finish worker now)
  match job.failure, millisecondsBetween job.startedAt now with
  | none, .ok ms =>
    Build.log .info channel
      ["Build complete (" ++ job.request.mode.getD "" ++ "/" ++ job.request.stage.getD "" ++
        ") in " ++ toString ms ++ "ms"]
  | _, _ => pure ()

/-- One step of a worker: the next task of its job, or its end. -/
def step (settings : Settings) (stages : Stages) (worker : Nat) : Build Unit := do
  match (← get).service.job? worker with
  | none => pure ()
  | some job =>
    match job.next? with
    | none => close worker job
    | some task =>
      let outcome ← Build.outcome
        (stages.perform (settings.configOf job.request) job.request task)
      change (advance worker outcome)

/-- At most how many steps a worker has left. -/
def stepsLeft (s : Service) (worker : Nat) : Nat :=
  match s.job? worker with
  | some job => job.left.length + 1
  | none => 0

/-- So many steps of a worker. -/
def steps (settings : Settings) (stages : Stages) (worker : Nat) : Nat → Build Unit
  | 0 => pure ()
  | n + 1 => do
    step settings stages worker
    steps settings stages worker n

/-- All steps of a worker. -/
def runJob (settings : Settings) (stages : Stages) (worker : Nat) : Build Unit := do
  steps settings stages worker ((← get).service.stepsLeft worker)

/-- Starts a build, waits for its end and answers its request and the summary of the last run. -/
def runBuild (settings : Settings) (stages : Stages) (request : Request) :
    Build (Request × Option RunSummary) := do
  let accepted ← startBuild settings request
  runJob settings stages (← get).service.latest
  return (accepted, (← get).service.lastRun)

end Service

end RepoGraph
