import RepoGraph.Batch
import RepoGraph.Output
import RepoGraph.Source.Discovery
import RepoGraph.Source.Revision

/-!
# Reading the repository

The first stage of a build reads files: in a full build all that take part, in an incremental build
those that changed since a revision.  A file that cannot be read is left out and told of in the log;
the others are read in order.  What was found is staged, and only then is the present revision kept
as that of the last build.
-/

namespace RepoGraph

/-- What is found in the text of a file, which its path says how to read. -/
def Extract.file (path text : String) : Except Failure Findings :=
  match FileKind.ofPath? path with
  | some .code => (Extract.code text path none).mapError .code
  | some .document => (Extract.document text path).mapError .frontMatter
  | some .asset => (Extract.asset text path).mapError .asset
  | none => .error (.code (.unsupported path))

namespace Reading

/-- The name of the stage. -/
def stage : String := "parse"

/-- The part of the log. -/
def channel : String := "stages.parse"

/-- What is found in a file of the checkout. -/
def file (repo path : String) : Build Findings := do
  let text ← Build.readText (Path.join repo path)
  Build.take id (Extract.file path text)

/-- Tells the log of a file that cannot be read. -/
def report (path : String) : Except Failure Findings → Build Unit
  | .ok _ => pure ()
  | .error f => Build.log .error channel ["Error processing " ++ path ++ ": ", f]

/-- Tells the log how many files are done. -/
def tell (total done : Nat) : Build Unit := do
  if Progress.isTold (Progress.interval total) total done then
    Build.log .info channel
      ["Parse progress: " ++ toString done ++ "/" ++ toString total ++ " files processed"]

/-- What is found in the files that can be read, in order, each with its path.  So many of all the
files were done before. -/
def files (repo : String) (total : Nat) : Nat → List String → Build (List (String × Findings))
  | _, [] => pure []
  | done, path :: rest => do
    let found ← Build.outcome (file repo path)
    report path found
    tell total (done + 1)
    let more ← files repo total (done + 1) rest
    match found with
    | .ok findings => return (path, findings) :: more
    | .error _ => return more

/-- The files to read and the paths that are gone. -/
def select (config : BuildConfig) : Build (List String × List String) := do
  if config.mode == Request.full then
    let found ← Build.askDisk fun d cwd => Source.discover d cwd config.repoPath
    Build.log .info channel
      ["Full rebuild: processing " ++ toString found.length ++ " files"]
    return (found, [])
  else
    let base ← match config.baseCommit with
      | some given => if given == "" then lastRevision config else pure (some given)
      | none => lastRevision config
    let (toRead, removed) := Change.selection (← Revision.changes config.repoPath base)
    Build.log .info channel
      ["Incremental build: processing " ++ toString toRead.length ++
        " changed files (base commit: " ++
        Text.take Revision.shownLength (base.getD "initial") ++ ")"]
    return (toRead, removed)
where
  /-- The revision of the last build; one that is no text is of no use. -/
  lastRevision (config : BuildConfig) : Build (Option String) := do
    match ← Revision.last config.stagingPath with
    | none => return none
    | some (.str s) => return some s
    | some _ => Build.fail (.record .wrongType)

/-- The output of the stage. -/
def output (config : BuildConfig) (stamp revision : String) (found : List (String × Findings))
    (removed : List String) : ParseOutput where
  entities := found.flatMap fun f => f.2.entities
  relationships := found.flatMap fun f => f.2.relationships
  metadata := [("timestamp", .str stamp), ("commit", .str revision),
    ("filesProcessed", .int found.length), ("mode", .str config.mode),
    ("parsedFiles", .arr (found.map fun f => .str f.1)),
    ("deletedFiles", .arr (removed.map .str))]

/-- Reads the files of a build, stages what is found and keeps the revision. -/
def run (config : BuildConfig) : Build ParseOutput := do
  Build.log .info channel ["Starting parse stage (" ++ config.mode ++ " mode)"]
  let start ← Build.now
  let revision ← Revision.current config.repoPath
  let (paths, removed) ← select config
  let stamp ← Build.stamp
  if paths.isEmpty then Build.log .info channel ["Parse stage: no files to process"]
  let found ← files config.repoPath paths.length 0 paths
  let out := output config stamp revision found removed
  let _ ← Staging.write config.stagingPath stage (ParseOutput.toJson out)
  Revision.save config.stagingPath revision
  let finish ← Build.now
  Build.log .info channel
    ["Parse stage complete: " ++ toString out.entities.length ++ " entities, " ++
      toString out.relationships.length ++ " relationships in " ++
      toString (Build.elapsed start finish) ++ "ms"]
  return out

end Reading

end RepoGraph
