import RepoGraph.Command.Argument
import RepoGraph.Dependency

/-!
# The commands

`Invocation.read` reads a command line: an option that names the settings file, then one of four
commands with options of its own.
-/

namespace RepoGraph

/-- What is to be done. -/
inductive Command where
  /-- Run a build; its summary may be shown as a record. -/
  | build (request : Request) (asRecord : Bool)
  /-- Show the state of the staging area, and of the stores if asked for. -/
  | status (withStores : Bool) (project : Option String)
  /-- Empty the staging area. -/
  | reset
  /-- Wait for the services that builds depend on. -/
  | waitForDependencies (retries : Int) (delay : Number)

/-- A command with the settings file that is named. -/
structure Invocation where
  settingsFile : Option String
  command : Command

namespace Invocation

open Argument (Taken)

/-! ### Options -/

/-- An option with any value. -/
def valued (name : String) : CommandOption := ⟨name, some fun _ => true⟩

/-- The options in front of the command. -/
def generalOptions : List CommandOption := [valued "--config"]

/-- The options of a build. -/
def buildOptions : List CommandOption :=
  [⟨"--mode", some Request.modes.contains⟩, ⟨"--stage", some Request.stages.contains⟩,
    valued "--base-commit", valued "--repo-url", valued "--branch", valued "--project",
    ⟨"--json", none⟩]

/-- The options of the status. -/
def statusOptions : List CommandOption := [⟨"--stores", none⟩, valued "--project"]

/-- The options of waiting. -/
def waitOptions : List CommandOption :=
  [⟨"--retries", some fun v => (Numeral.integer v).toOption.isSome⟩,
    ⟨"--delay", some fun v => (Numeral.float v).toOption.isSome⟩]

/-! ### Commands -/

/-- The build that the options ask for. -/
def buildOf (t : Taken) : Command :=
  .build
    { mode := some ((t.value? "--mode").getD Request.incremental)
      stage := some ((t.value? "--stage").getD "all")
      baseCommit := t.value? "--base-commit"
      repoUrl := t.value? "--repo-url"
      branch := t.value? "--branch"
      project := t.value? "--project" }
    (t.has "--json")

/-- The status that the options ask for. -/
def statusOf (t : Taken) : Command := .status (t.has "--stores") (t.value? "--project")

/-- The waiting that the options ask for. -/
def waitOf (t : Taken) : Command :=
  .waitForDependencies
    (((t.value? "--retries").bind fun v => (Numeral.integer v).toOption).getD
      Dependency.usualRetries)
    (((t.value? "--delay").bind fun v => (Numeral.float v).toOption).elim Dependency.usualDelay
      .float)

/-- The options of a command, and how it is made of those that are given. -/
def commandOf? : String → Option (List CommandOption × (Taken → Command))
  | "build" => some (buildOptions, buildOf)
  | "status" => some (statusOptions, statusOf)
  | "reset" => some ([], fun _ => .reset)
  | "wait-deps" => some (waitOptions, waitOf)
  | _ => none

/-! ### Reading -/

/-- Reads a command line. -/
def read (args : List String) : Except Interruption Invocation := do
  let (general, left) ← Argument.collect true ⟨[], false⟩ (← Argument.classify generalOptions args)
  match args.drop (args.length - left) with
  | [] => throw .usage
  | name :: rest =>
    match commandOf? name with
    | none => throw .usage
    | some (options, make) =>
      let (own, _) ← Argument.collect false ⟨[], false⟩ (← Argument.classify options rest)
      if general.hasStray || own.hasStray then throw .usage
      return ⟨general.value? "--config", make own⟩

end Invocation

end RepoGraph
