import RepoGraph.Json.Reader
import RepoGraph.World
import RepoGraph.Yaml.Emission

/-!
# The staging area

The stages hand their outputs on as files: `<staging>/<stage>/output.json`.  An output is written
beside its place and then moved there, so its place always holds a whole output; what was written
beside it is gone afterwards in any case.  `Staging.read` answers the object that was written, or
says which stage's output is missing or broken.
-/

namespace RepoGraph

namespace Staging

/-- The file of a stage's output. -/
def artifactPath (staging stage : String) : String :=
  Path.join (Path.join staging stage) "output.json"

/-- The file that names the revision of the last build. -/
def markerPath (staging : String) : String := Path.join staging "last-build.json"

/-- Where an output is written before it is moved to its place. -/
def temporaryPath (path : String) : String := path ++ ".tmp"

/-- Removes a file if it is there. -/
def removeIfThere (path : String) : Build Unit := do
  if ← Build.askDisk fun d cwd => d.doesExist cwd path then
    Build.changeDisk (.remove path) fun d cwd => d.remove cwd path

/-- Writes the text of a stage's output and answers the path of its file.  Where the text stops
before its end, what was put out of it has been written when the failure is known. -/
def writeImage (staging stage text : String) (stop : Option Failure) : Build String := do
  let path := artifactPath staging stage
  let temporary := temporaryPath path
  Build.makeDirectories (Path.parent path)
  Build.ensuring
    (do
      Build.writeText temporary text
      match stop with
      | some f => Build.fail f
      | none => Build.changeDisk (.replace temporary path) fun d cwd =>
          d.replace cwd temporary path)
    (removeIfThere temporary)
  return path

/-- Writes a value as a stage's output, as far as its text is put out. -/
def writeValue (staging stage : String) (v : Yaml.Value) : Build String :=
  let emitted := v.emit "" 0
  writeImage staging stage emitted.text (emitted.fault.map .form)

/-- Writes a stage's output and answers the path of its file. -/
def write (staging stage : String) (output : Json) : Build String :=
  writeImage staging stage output.pretty none

/-- Why an output that cannot be opened or decoded is of no use. -/
def readFailure (stage path : String) : Failure → Failure
  | .disk ⟨.missing, _, _⟩ => .noArtifact stage path
  | f => .unreadableArtifact stage path f.message

/-- A stage's output: an object. -/
def read (staging stage : String) : Build Json := do
  let path := artifactPath staging stage
  let text ← match ← Build.outcome (Build.readText path) with
    | .ok text => pure text
    | .error f => Build.fail (readFailure stage path f)
  match Json.read text with
  | .error f => Build.fail (.unreadableArtifact stage path (f.message text))
  | .ok (.obj fields) => return .obj fields
  | .ok _ => Build.fail (.artifactForm stage path)

/-- The part of the log. -/
def channel : String := "stages.staging"

/-- The directories of the staging area. -/
def directories : List String := ["parse", "enrich", "logs"]

/-- Empties the staging area and forgets the revision of the last build. -/
def reset (staging : String) : Build Unit := do
  directories.forM fun name => do
    let path := Path.join staging name
    Build.changeDisk (.removeTree path) fun d cwd => .ok (d.removeTree cwd path)
    Build.makeDirectories path
  removeIfThere (markerPath staging)
  Build.log .info channel ["Reset staging directory at " ++ staging]

end Staging

end RepoGraph
