import RepoGraph.Json.Basic

/-!
# Build requests and summaries

A request names a mode, a stage and what to build; `Request.check` refuses unknown modes and stages.
A run is summarised stage by stage, with the first failure that stopped it.
-/

namespace RepoGraph

/-- What a client asks for.  Mode and stage are kept as they were given until they are checked. -/
structure Request where
  mode : Option String
  stage : Option String
  baseCommit : Option String
  repoUrl : Option String
  branch : Option String
  project : Option String
deriving DecidableEq, Repr

/-- Why a request is refused. -/
inductive RequestFault where
  | unknownMode (mode : Option String)
  | unknownStage (stage : Option String)
deriving DecidableEq, Repr

namespace Request

/-- The mode that builds what changed. -/
def incremental : String := "incremental"

/-- The mode that builds everything. -/
def full : String := "full"

/-- The modes. -/
def modes : List String := [incremental, full]

/-- The stages, and the word for all of them. -/
def stages : List String := ["all", "parse", "enrich", "populate"]

/-- A request for all stages of an incremental build. -/
def plain : Request := ⟨some incremental, some "all", none, none, none, none⟩

/-- Refuses an unknown mode, then an unknown stage. -/
def check (r : Request) : Except RequestFault Unit :=
  if !(r.mode.any modes.contains) then .error (.unknownMode r.mode)
  else if !(r.stage.any stages.contains) then .error (.unknownStage r.stage)
  else .ok ()

/-- The record of a request; what is not given is left out, mode and stage excepted. -/
def toJson (r : Request) : Json :=
  .obj ([("mode", r.mode.elim .null .str), ("stage", r.stage.elim .null .str)] ++
    (r.baseCommit.toList.map fun s => ("baseCommit", .str s)) ++
    (r.repoUrl.toList.map fun s => ("repoUrl", .str s)) ++
    (r.branch.toList.map fun s => ("branch", .str s)) ++
    (r.project.toList.map fun s => ("project", .str s)))

end Request

/-- The word for a missing text in messages. -/
def orNone (s : Option String) : String := s.getD "None"

/-- The fault as text. -/
def RequestFault.message : RequestFault → String
  | unknownMode mode =>
    "Invalid mode '" ++ orNone mode ++ "'. Expected 'incremental' or 'full'."
  | unknownStage stage =>
    "Invalid stage '" ++ orNone stage ++ "'. Expected one of all|parse|enrich|populate."

/-- The settings of one build, which all its stages share. -/
structure BuildConfig where
  repoPath : String
  stagingPath : String
  mode : String
  project : String
  baseCommit : Option String
deriving DecidableEq, Repr

/-- The record of a build's settings. -/
def BuildConfig.toJson (c : BuildConfig) : Json :=
  .obj [("repo_path", .str c.repoPath), ("staging_path", .str c.stagingPath),
    ("mode", .str c.mode), ("project_id", .str c.project),
    ("base_commit", c.baseCommit.elim .null .str)]

/-- What one stage of a run did; the number of entities is as the stage tells it. -/
structure StageSummary where
  stage : String
  durationMs : Int
  entities : Json
  relationships : Nat
  metadata : Option Fields

/-- The record of a stage's summary. -/
def StageSummary.toJson (s : StageSummary) : Json :=
  .obj ([("stage", .str s.stage), ("durationMs", .int s.durationMs),
    ("entitiesProcessed", s.entities), ("relationshipsProcessed", .int s.relationships)] ++
    (s.metadata.toList.map fun m => ("metadata", .obj m)))

/-- What one run did. -/
structure RunSummary where
  request : Request
  startedAt : String
  finishedAt : String
  success : Bool
  stages : List StageSummary
  error : Option String

/-- The record of a run's summary. -/
def RunSummary.toJson (s : RunSummary) : Json :=
  .obj ([("request", s.request.toJson), ("startedAt", .str s.startedAt),
    ("finishedAt", .str s.finishedAt), ("success", .bool s.success),
    ("stages", .arr (s.stages.map StageSummary.toJson))] ++
    (s.error.toList.map fun e => ("error", .str e)))

end RepoGraph
