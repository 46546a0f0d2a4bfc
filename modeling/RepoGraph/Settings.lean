import RepoGraph.Project
import RepoGraph.Record
import RepoGraph.Request
import RepoGraph.Text.Order
import RepoGraph.Yaml.Value

/-!
# Settings

A setting comes from the environment, else from the settings file, else from a default.  `pick` is
that rule, and `Settings.read` applies it to every setting in turn, so that the first setting that
cannot be read is the fault of the whole.

The projects that may be built are the slugs of those named in the file and the default project;
`Settings.resolve` finds the project that a client names among them.
`Settings.listing` names each setting as the environment variable that sets it.

Main statements: `Settings.pick_of_env`, `Settings.pick_of_value`, `Settings.pick_default`.
-/

namespace RepoGraph

/-- The environment variables, each with its text. -/
abbrev Environment := List (String × String)

/-- The text of a variable that is set. -/
def Environment.get? (env : Environment) (name : String) : Option String :=
  (env.find? fun v => v.1 == name).map Prod.snd

/-- How the library is set up. -/
structure Settings where
  repoPath : String
  stagingPath : String
  repoUrl : String
  branch : String
  graphBackend : String
  graphUrl : String
  graphUser : String
  graphPassword : String
  vectorUrl : String
  vectorSize : Int
  embeddingProvider : String
  embeddingUrl : String
  embeddingModel : String
  chatKey : Yaml.Value
  chatModel : Yaml.Value
  chatUrl : Yaml.Value
  batchSize : Int
  batchDelay : Binary64
  logLevel : String
  defaultProject : String
  projects : List String

namespace Settings

/-! ### Values of settings -/

/-- A setting that is a text: any value is shown as text. -/
def text (v : Yaml.Value) : Except RecordFault String := v.display.mapError .numeral

/-- A setting that is an integer. -/
def integer : Yaml.Value → Except RecordFault Int
  | .scalar (.int n) => .ok n
  | .scalar (.bool b) => .ok (if b then 1 else 0)
  | .scalar (.float x) => (Numeral.integerPart x).mapError .numeral
  | .scalar (.text s) => (Numeral.integer s).mapError .numeral
  | _ => .error .wrongType

/-- A setting that is a number in double precision. -/
def float : Yaml.Value → Except RecordFault Binary64
  | .scalar (.int n) => (Numeral.floatOfInt n).mapError .numeral
  | .scalar (.bool b) => .ok (Binary64.ofInt (if b then 1 else 0))
  | .scalar (.float x) => .ok x
  | .scalar (.text s) => (Numeral.float s).mapError .numeral
  | _ => .error .wrongType

/-! ### Precedence -/

/-- The value of a setting: that of the variable if it is set, else that of the file unless it is
null, else the default. -/
def pick {α : Type} (cast : Yaml.Value → Except RecordFault α) (fromEnv : Option String)
    (value : Option Yaml.Value) (default : α) : Except RecordFault α :=
  match fromEnv, value with
  | some s, _ => cast (.scalar (.text s))
  | none, some (.scalar .null) => .ok default
  | none, some v => cast v
  | none, none => .ok default

theorem pick_of_env {α : Type} (cast : Yaml.Value → Except RecordFault α) (s : String)
    (value : Option Yaml.Value) (default : α) :
    pick cast (some s) value default = cast (.scalar (.text s)) := rfl

theorem pick_of_value {α : Type} (cast : Yaml.Value → Except RecordFault α) {v : Yaml.Value}
    (h : v ≠ .scalar .null) (default : α) : pick cast none (some v) default = cast v := by
  unfold pick
  split
  · simp_all
  · simp_all
  · simp_all
  · simp_all

theorem pick_default {α : Type} (cast : Yaml.Value → Except RecordFault α) (default : α) :
    pick cast none none default = .ok default ∧
      pick cast none (some (.scalar .null)) default = .ok default := ⟨rfl, rfl⟩

/-- The value of a setting that is kept as it is given: that of the variable unless it is empty,
else that of the file if there is any, else the default. -/
def keep (fromEnv : Option String) (value : Option Yaml.Value) (default : Yaml.Value) :
    Yaml.Value :=
  match fromEnv with
  | none | some "" => value.getD default
  | some s => .scalar (.text s)

/-- A section of the settings file; what is no mapping is an empty section. -/
def sectionOf (data : Yaml.Value) (name : String) : Yaml.Value :=
  match data.get? name with
  | some (.map entries) => .map entries
  | _ => .map []

/-! ### Projects -/

/-- The slugs of the projects that a file names; what is no list names none. -/
def namedProjects : Option Yaml.Value → Except RecordFault (List String)
  | some (.list items) => items.mapM fun v => (text v).map Project.slug
  | _ => .ok []

/-- The projects in order, each once: those named by a non-empty slug, and the default one. -/
def projectList (named : List String) (default : String) : List String :=
  Text.distinct (default :: named.filter (· != ""))

/-- The default project of a name. -/
def defaultOf (name : String) : String :=
  if Project.slug name == "" then "default" else Project.slug name

/-! ### Reading -/

/-- The mapping that the data of a settings file are; what is not filled is an empty one. -/
def mapping : Yaml.Value → Except RecordFault Yaml.Value
  | .map entries => .ok (.map entries)
  | other => if other.isFilled then .error .notARecord else .ok (.map [])

/-- The settings that an environment and the data of a settings file amount to. -/
def read (env : Environment) (data : Yaml.Value) : Except RecordFault Settings := do
  let top ← mapping data
  let repository := sectionOf top "repository"
  let graph := sectionOf top "neo4j"
  let vector := sectionOf top "qdrant"
  let embedding := sectionOf top "embedding"
  let chat := sectionOf top "openai"
  let enrich := sectionOf top "enrich"
  let repoPath ← pick text (env.get? "REPO_PATH") (top.get? "repo_path") "/repo"
  let stagingPath ← pick text (env.get? "STAGING_PATH") (top.get? "staging_path") "/staging"
  let repoUrl ← pick text (env.get? "REPO_URL") (repository.get? "url") ""
  let branch ← pick text (env.get? "REPO_BRANCH") (repository.get? "branch") "main"
  let graphBackend ← pick text (env.get? "GRAPH_BACKEND") (top.get? "graph_backend") "neo4j"
  let graphUrl ← pick text (env.get? "NEO4J_URL") (graph.get? "url") "bolt://localhost:7687"
  let graphUser ← pick text (env.get? "NEO4J_USER") (graph.get? "user") "neo4j"
  let graphPassword ← pick text (env.get? "NEO4J_PASSWORD") (graph.get? "password") "password"
  let vectorUrl ← pick text (env.get? "QDRANT_URL") (vector.get? "url") "http://localhost:6333"
  let vectorSize ← pick integer (env.get? "VECTOR_SIZE") (vector.get? "vector_size") 768
  let provider ← pick text (env.get? "EMBEDDING_PROVIDER") (embedding.get? "provider") "tei"
  let embeddingUrl ← pick text (env.get? "EMBEDDING_URL") (embedding.get? "url")
    "http://localhost:80"
  let embeddingModel ← pick text (env.get? "EMBEDDING_MODEL") (embedding.get? "model")
    "text-embedding-3-small"
  let batchSize ← pick integer (env.get? "ENRICH_BATCH_SIZE") (enrich.get? "batch_size") 5
  let batchDelay ← pick float (env.get? "ENRICH_BATCH_DELAY") (enrich.get? "batch_delay")
    (Binary64.ofInt 1)
  let logLevel ← pick text (env.get? "LOG_LEVEL") (top.get? "log_level") "INFO"
  let defaultName ← pick text (env.get? "DEFAULT_PROJECT") (top.get? "default_project") "default"
  let named ← namedProjects (top.get? "projects")
  return {
    repoPath, stagingPath, repoUrl, branch
    graphBackend := Text.lower graphBackend
    graphUrl, graphUser, graphPassword, vectorUrl, vectorSize
    embeddingProvider := Text.lower provider
    embeddingUrl, embeddingModel
    chatKey := keep (env.get? "OPENAI_API_KEY") (chat.get? "api_key") (.scalar (.text ""))
    chatModel := keep (env.get? "OPENAI_MODEL") (chat.get? "model") (.scalar (.text "gpt-5"))
    chatUrl := keep (env.get? "OPENAI_BASE_URL") (chat.get? "base_url") (.scalar .null)
    batchSize, batchDelay
    logLevel := Text.upper logLevel
    defaultProject := defaultOf defaultName
    projects := projectList named (defaultOf defaultName) }

/-! ### Use -/

/-- A project is named that is not among those that may be built. -/
structure UnknownProject where
  name : String
deriving DecidableEq, Repr

/-- The fault as text. -/
def UnknownProject.message (f : UnknownProject) : String := "Unknown project '" ++ f.name ++ "'"

/-- The project that a client names; without a name, or with one whose slug is empty, it is the
default project. -/
def resolve (s : Settings) (name : Option String) : Except UnknownProject String :=
  match name with
  | none => .ok s.defaultProject
  | some raw =>
    let slug := Project.slug raw
    if slug == "" then .ok s.defaultProject
    else if s.projects.contains slug then .ok slug
    else .error ⟨raw⟩

/-- The settings of one build. -/
def buildConfig (s : Settings) (mode project : String) (baseCommit : Option String) :
    BuildConfig :=
  ⟨s.repoPath, s.stagingPath, mode, project, baseCommit⟩

/-! ### Settings as a record -/

/-- A setting that is kept as it was given. -/
def shown (v : Yaml.Value) : Json := v.toJson.toOption.getD .null

/-- The settings, each under the name of its variable, and the projects that may be built. -/
def listing (s : Settings) : Fields :=
  [("REPO_PATH", .str s.repoPath), ("STAGING_PATH", .str s.stagingPath),
    ("REPO_URL", .str s.repoUrl), ("REPO_BRANCH", .str s.branch),
    ("GRAPH_BACKEND", .str s.graphBackend), ("NEO4J_URL", .str s.graphUrl),
    ("NEO4J_USER", .str s.graphUser), ("NEO4J_PASSWORD", .str s.graphPassword),
    ("QDRANT_URL", .str s.vectorUrl), ("VECTOR_SIZE", .int s.vectorSize),
    ("EMBEDDING_PROVIDER", .str s.embeddingProvider), ("EMBEDDING_URL", .str s.embeddingUrl),
    ("EMBEDDING_MODEL", .str s.embeddingModel), ("OPENAI_API_KEY", shown s.chatKey),
    ("OPENAI_MODEL", shown s.chatModel), ("OPENAI_BASE_URL", shown s.chatUrl),
    ("ENRICH_BATCH_SIZE", .int s.batchSize), ("ENRICH_BATCH_DELAY", .float s.batchDelay),
    ("LOG_LEVEL", .str s.logLevel), ("DEFAULT_PROJECT", .str s.defaultProject),
    ("PROJECTS", .arr (s.projects.map .str))]

end Settings

end RepoGraph
