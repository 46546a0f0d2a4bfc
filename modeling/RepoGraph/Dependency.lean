import RepoGraph.Graph.Store

/-!
# Waiting for services

Before the first build the services that it depends on may still be starting.  `Dependency.wait`
asks one of them until it answers, a fixed number of times and with a fixed pause in between;
`Settings.waitForDependencies` waits for those that the settings name, one after the other.
-/

namespace RepoGraph

/-- A service that builds depend on. -/
inductive Dependency where
  /-- The embedding service, which answers at a URL. -/
  | embedding (url : String)
  /-- The vector store, which tells its health at a URL. -/
  | vectors (url : String)
  /-- The graph server. -/
  | graph (url user password : String)
deriving DecidableEq, Repr

namespace Dependency

/-- The part of the log. -/
def channel : String := "startup"

/-- How often a service is asked unless said otherwise. -/
def usualRetries : Int := 30

/-- The usual pause, in seconds. -/
def usualDelay : Number := .float (Binary64.ofInt 10)

/-- How long an answer may take, in seconds. -/
def answerLimit : Number := .float (Binary64.ofInt 2)

/-- The name of a service in messages. -/
def name : Dependency → String
  | embedding _ => "Embedding service"
  | vectors _ => "Qdrant"
  | graph .. => "Neo4j"

/-- Fetches a URL. -/
def fetch (url : String) : Build Unit := do
  let before := (← get).events
  Build.attempt (.fetch url answerLimit)
  Build.take id ((← read).fetch before url)

/-- Asks a service; it fails unless the service answers well. -/
def check : Dependency → Build Unit
  | embedding url => fetch url
  | vectors url => fetch url
  | graph url user password => do
    let store : GraphStore := .server url user password
    store.openStore
    Build.ensuring store.ping store.close

/-- Asks a service from some attempt on, with so many attempts left. -/
def waitFrom (d : Dependency) (retries : Int) (delay : Number) : Nat → Nat → Build Unit
  | _, 0 => pure ()
  | attempt, left + 1 => do
    match ← Build.outcome d.check with
    | .ok () =>
      Build.log .info channel
        ["[startup] " ++ d.name ++ " available (attempt " ++ toString attempt ++ ")"]
    | .error f =>
      Build.log .warning channel
        ["[startup] Waiting for " ++ d.name ++ " (attempt " ++ toString attempt ++ "/" ++
          toString retries ++ "): ", f]
      if left = 0 then Build.fail (.unreachable d.name retries)
      else
        Build.note (.sleep delay)
        waitFrom d retries delay (attempt + 1) left

/-- Asks a service until it answers or the attempts are used up, which is a failure.  Where there is
no attempt nothing is asked. -/
def wait (d : Dependency) (retries : Int) (delay : Number) : Build Unit :=
  d.waitFrom retries delay 1 retries.toNat

end Dependency

namespace Settings

/-- The services outside that builds depend on. -/
def dependencies (s : Settings) : List Dependency :=
  (if s.embeddingProvider == "tei" then [.embedding s.embeddingUrl] else []) ++
    (if s.vectorUrl == ":memory:" then []
      else [.vectors (Text.trimRight (· == '/') s.vectorUrl ++ "/healthz")]) ++
    (if s.graphBackend == "neo4j" then [.graph s.graphUrl s.graphUser s.graphPassword] else [])

/-- Waits for all services, in order. -/
def waitForDependencies (s : Settings) (retries : Int) (delay : Number) : Build Unit := do
  let names := s.dependencies.map Dependency.name
  Build.log .info Dependency.channel
    ["[startup] Waiting for dependencies: " ++
      (if names.isEmpty then "none" else ", ".intercalate names)]
  s.dependencies.forM fun d => d.wait retries delay
  Build.log .info Dependency.channel ["[startup] All dependencies are reachable"]

end Settings

end RepoGraph
