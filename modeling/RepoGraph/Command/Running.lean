import RepoGraph.Command.Grammar
import RepoGraph.Logging
import RepoGraph.Service.Working
import RepoGraph.Settings.File

/-!
# Carrying out commands

`Invocation.run` loads the settings, carries a command out and answers what it prints and with what
number the program ends: zero for success, one for a failed command, two for a refused one.
-/

namespace RepoGraph

/-- What a command prints, and how it ends. -/
structure Printout where
  exitCode : Nat
  output : String
  errors : String
deriving DecidableEq, Repr

namespace Printout

/-- A line with a label in a column of its own. -/
def labelled (label value : String) : String :=
  "  " ++ label ++ "".pushn ' ' (20 - label.length) ++ " " ++ value ++ "\n"

/-- A title, underlined, after an empty line. -/
def titled (title : String) : String := "\n" ++ title ++ "\n" ++ "".pushn '=' 40 ++ "\n"

/-- The line of a stage. -/
def stageLine (s : StageSummary) : String :=
  labelled s.stage
    (s.entities.display ++ " entities, " ++ toString s.relationships ++ " relationships (" ++
      toString s.durationMs ++ "ms)")

/-- The summary of a run for readers. -/
def ofSummary (s : RunSummary) : String :=
  titled ("Build " ++ if s.success then "SUCCESS" else "FAILED") ++
    labelled "started" s.startedAt ++ labelled "finished" s.finishedAt ++
    String.join (s.stages.map stageLine) ++
    (match s.error with
      | none | some "" => ""
      | some text => labelled "error" text) ++
    "\n"

end Printout

namespace Command

open Printout (labelled titled)

/-! ### Builds -/

/-- Runs a build and shows its summary. -/
def runBuild (settings : Settings) (request : Request) (asRecord : Bool) : Build Printout := do
  Logging.openFile (Path.join settings.stagingPath "logs")
  match ← Build.outcome (Service.runBuild settings settings.stages request) with
  | .error f =>
    if f.isRefusal then return ⟨2, "", "Build rejected: " ++ f.message ++ "\n"⟩ else Build.fail f
  | .ok (_, none) => return ⟨1, "", "Build did not produce a summary.\n"⟩
  | .ok (_, some summary) =>
    let shown := if asRecord then summary.toJson.pretty ++ "\n" else Printout.ofSummary summary
    return ⟨if summary.success then 0 else 1, shown, ""⟩

/-! ### The status -/

/-- The metadata of an output that are not shown. -/
def unshown : List String := ["parsedFiles", "deletedFiles"]

/-- The line of a stage's output. -/
def stagedLine (settings : Settings) (stage : String) : Build String := do
  match ← Build.outcome (Staging.read settings.stagingPath stage) with
  | .error _ => return labelled stage "(no output)"
  | .ok output =>
    match (output.get? "metadata").getD (.obj []) with
    | .obj fields =>
      let shown := fields.filter fun field => !unshown.contains field.1
      return labelled stage (Json.obj shown).compact
    | _ => Build.fail (.record .notARecord)

/-- The lines of the stores. -/
def storeLines (settings : Settings) (project : Option String) : Build String := do
  let project ← Build.take .project (settings.resolve project)
  let graph ← Build.take id settings.graphStore
  graph.openStore
  let counts ← Build.ensuring (graph.counts project) graph.close
  let vectors := settings.vectorStore project
  let points ← Build.ensuring vectors.count? vectors.close
  return labelled "graph"
      (toString counts.nodes ++ " nodes, " ++ toString counts.relationships ++ " relationships") ++
    labelled "vectors" (toString (points.getD 0) ++ " points in " ++ vectors.collection)

/-- Shows the state of the staging area and of the stores. -/
def showStatus (settings : Settings) (withStores : Bool) (project : Option String) :
    Build Printout := do
  let revision ← Revision.last settings.stagingPath
  let parsed ← stagedLine settings Reading.stage
  let enriched ← stagedLine settings Enriching.stage
  let stores ← if withStores then storeLines settings project else pure ""
  return ⟨0,
    titled "Knowledge Graph Build Status" ++ labelled "staging" settings.stagingPath ++
      labelled "last build commit" (revision.elim "(none)" Json.display) ++
      parsed ++ enriched ++ stores ++ "\n",
    ""⟩

/-! ### Other commands -/

/-- Empties the staging area. -/
def resetStaging (settings : Settings) : Build Printout := do
  Staging.reset settings.stagingPath
  return ⟨0, "Staging directory reset: " ++ settings.stagingPath ++ "\n", ""⟩

/-- Waits for the services that builds depend on. -/
def awaitServices (settings : Settings) (retries : Int) (delay : Number) : Build Printout := do
  match ← Build.outcome (settings.waitForDependencies retries delay) with
  | .ok () => return ⟨0, "", ""⟩
  | .error f => return ⟨1, "", f.message ++ "\n"⟩

/-- Carries a command out. -/
def run (settings : Settings) : Command → Build Printout
  | build request asRecord => runBuild settings request asRecord
  | status withStores project => showStatus settings withStores project
  | reset => resetStaging settings
  | waitForDependencies retries delay => awaitServices settings retries delay

end Command

/-- Loads the settings and carries the command out. -/
def Invocation.run (env : Environment) (i : Invocation) : Build Printout := do
  i.command.run (← Settings.load env i.settingsFile)

end RepoGraph
