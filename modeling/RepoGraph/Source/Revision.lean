import RepoGraph.Source.Change
import RepoGraph.Staging

/-!
# Revisions

Version control tells the present revision of a checkout and what changed since another one.  The
staging area keeps the revision of the last build in a file of its own.
-/

namespace RepoGraph

namespace Revision

/-- The part of the log. -/
def channel : String := "git"

/-- What the version control program writes; it fails unless the program ends well. -/
def git (arguments : List String) (directory : Option String) : Build String := do
  let before := (← get).events
  Build.attempt (.git arguments directory)
  match (← read).git before arguments directory with
  | .notStarted reason => Build.fail (.noGit (arguments.headD "") reason)
  | .finished status output errors =>
    if status != 0 then Build.fail (.git arguments status (Text.strip errors)) else return output

/-- The present revision of a checkout. -/
def current (repo : String) : Build String := do
  return Text.strip (← git ["log", "-1", "--format=%H"] (some repo))

/-- How much of a revision is shown, in characters. -/
def shownLength : Nat := 7

/-- The changes of a checkout since a revision; without one, every file that is tracked is new. -/
def changes (repo : String) (base : Option String) : Build (List Change) := do
  match base with
  | none | some "" =>
    let output ← git ["ls-files", "-z"] (some repo)
    return (Change.fieldsOf output).map fun path => ⟨path, .added⟩
  | some base =>
    let present ← current repo
    let output ← git ["diff", "--name-status", "-z", base, present] (some repo)
    let found := Change.ofDiff output
    Build.log .info channel ["Found " ++ toString found.length ++ " changed files since " ++
      Text.take shownLength base]
    return found

/-! ### The last build -/

/-- What the marker of the last build holds; nothing if it cannot be read. -/
def markerData (staging : String) : Build (Option Json) := do
  match ← Build.outcome (Build.readText (Staging.markerPath staging)) with
  | .ok text => return (Json.read text).toOption
  | .error _ => return none

/-- The revision of the last build as the marker has it. -/
def last (staging : String) : Build (Option Json) := do
  match ← markerData staging with
  | some data => return (data.get? "commit").filter Json.isFilled
  | none => return none

/-- The marker of a revision. -/
def marker (revision stamp : String) : Json :=
  .obj [("commit", .str revision), ("timestamp", .str stamp)]

/-- Keeps a revision as that of the last build. -/
def save (staging revision : String) : Build Unit := do
  Build.makeDirectories staging
  let stamp ← Build.stamp
  Build.writeText (Staging.markerPath staging) (marker revision stamp).pretty

end Revision

/-! ### Checkouts -/

namespace Checkout

/-- Brings a checkout up to date with a branch of a repository, or makes it. -/
def sync (repo url branch : String) : Build Unit := do
  if ← Build.askDisk fun d cwd => d.doesExist cwd repo then
    Build.log .info Revision.channel
      ["Updating repository at " ++ repo ++ " (branch: " ++ branch ++ ")"]
    let _ ← Revision.git ["fetch", "origin", branch] (some repo)
    let _ ← Revision.git ["checkout", branch] (some repo)
    let _ ← Revision.git ["pull", "origin", branch] (some repo)
    Build.log .info Revision.channel ["Repository update complete"]
  else
    let place ← Build.askDisk fun _ cwd => Disk.absolute cwd repo
    Build.makeDirectories ("/" ++ "/".intercalate place.dropLast)
    Build.log .info Revision.channel
      ["Cloning " ++ url ++ " into " ++ repo ++ " (branch: " ++ branch ++ ")"]
    let _ ← Revision.git ["clone", "--branch", branch, "--single-branch", url, repo] none
    Build.log .info Revision.channel ["Clone complete"]

end Checkout

end RepoGraph
