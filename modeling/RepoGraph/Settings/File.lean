import RepoGraph.World

/-!
# The settings file

The settings file is the one that is named, or the first that is found in the working directory and
in the home directory.  A file that is missing, is no YAML or holds no mapping sets nothing.
-/

namespace RepoGraph

namespace Settings

/-- The names of settings files, the preferred one first. -/
def fileNames : List String := [".kg-builder.yaml", ".kg-builder.yml"]

/-- The home directory. -/
def home (env : Environment) : String :=
  match Text.trimRight (· == '/') ((env.get? "HOME").getD "") with
  | "" => "/"
  | directory => directory

/-- The settings file that is found where none is named. -/
def usualFile? (env : Environment) (d : Disk) (cwd : Place) : Option String :=
  (fileNames ++ fileNames.map (Path.join (home env))).find? (d.isFile cwd)

/-- The settings file, if there is one. -/
def file? (env : Environment) (given : Option String) (d : Disk) (cwd : Place) : Option String :=
  match given with
  | none | some "" => usualFile? env d cwd
  | some path => if d.isFile cwd path then some path else none

/-- The mapping that a text holds.  Only values that YAML allows and that do not exist are a
failure. -/
def mappingOf (text : String) : Except Yaml.Fault Yaml.Value :=
  match Yaml.read text with
  | .ok (.map entries) => .ok (.map entries)
  | .ok _ | .error .malformed => .ok (.map [])
  | .error f => .error f

/-- The mapping that a settings file holds. -/
def dataOf (path : String) : Build Yaml.Value := do
  match ← Build.outcome (Build.readText path) with
  | .ok text => Build.take .yaml (mappingOf text)
  | .error (.disk _) => return .map []
  | .error f => Build.fail f

/-- The settings from the environment and the settings file. -/
def load (env : Environment) (given : Option String) : Build Settings := do
  match ← Build.askDisk (file? env given) with
  | some path => Build.take .record (read env (← dataOf path))
  | none => Build.take .record (read env (.map []))

end Settings

end RepoGraph
