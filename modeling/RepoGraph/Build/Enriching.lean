import RepoGraph.Enrich.Describing
import RepoGraph.Output
import RepoGraph.Staging

/-!
# Enriching what was read

The second stage of a build takes what the first one staged, enriches code and documents, and stages
every entity again, enriched or plain, in the same order.  Relationships go through unchanged, and
so do the metadata that the third stage needs.

The settings name the provider of vectors and hold the key of the model service.  Without a key
there is no chat model.
-/

namespace RepoGraph

namespace Enriching

/-- The name of the stage. -/
def stage : String := "enrich"

/-- The part of the log. -/
def channel : String := "stages.enrich"

/-- The metadata that are handed on. -/
def forwarded : List String := ["commit", "mode", "parsedFiles", "deletedFiles"]

/-- The last of the enriched entities that has an id. -/
def lastOf? (enriched : List Enriched) (id : String) : Option Enriched :=
  enriched.reverse.find? fun e => e.id == id

/-- Each entity as it was enriched, or plain. -/
def collect (entities : List Entity) (enriched : List Enriched) : List Enriched :=
  entities.map fun e => (lastOf? enriched e.id).getD (Enriched.plain e)

/-- The metadata of the output. -/
def metadata (stamp : String) (count : Nat) (given : Fields) : Fields :=
  [("timestamp", .str stamp), ("entitiesEnriched", .int count)] ++
    forwarded.filterMap fun key => (given.get? key).map fun value => (key, value)

/-- Enriches what the first stage staged, and stages it. -/
def run (code : CodeEnricher) (documents : DocumentEnricher) (config : BuildConfig) :
    Build EnrichOutput := do
  Build.log .info channel ["Starting enrich stage"]
  let start ← Build.now
  let staged ← Staging.read config.stagingPath "parse"
  let input ← Build.take .record (ParseOutput.ofJson staged)
  let codeEntities := input.entities.filter fun e => Entity.codeKinds.contains e.kind
  let documentEntities := input.entities.filter fun e => Entity.documentKinds.contains e.kind
  Build.log .info channel
    ["Enriching " ++ toString codeEntities.length ++ " code entities and " ++
      toString documentEntities.length ++ " documentation/assets (" ++
      toString input.entities.length ++ " total)"]
  let codeEnriched ← code.enrichAll codeEntities
  let documentsEnriched ← documents.enrichAll documentEntities
  let enriched := codeEnriched ++ documentsEnriched
  let stamp ← Build.stamp
  let output : EnrichOutput :=
    ⟨collect input.entities enriched, input.relationships,
      metadata stamp enriched.length input.metadata⟩
  let _ ← Staging.write config.stagingPath stage (EnrichOutput.toJson output)
  let finish ← Build.now
  Build.log .info channel
    ["Enrich stage complete: " ++ toString enriched.length ++ " entities enriched in " ++
      toString (Build.elapsed start finish) ++ "ms"]
  return output

end Enriching

/-! ### Providers by settings -/

namespace Settings

/-- Connects to the model service; there must be a key. -/
def connectModel (s : Settings) : Build Unit := do
  if s.chatKey.isFilled then Build.attempt (.connect (.model s.chatKey s.chatUrl))
  else Build.fail .noKey

/-- The embedder that the settings name. -/
def embedder (s : Settings) : Build Embedder := do
  if s.embeddingProvider == "openai" then
    s.connectModel
    return ⟨.model s.embeddingModel (some s.vectorSize), Embedder.usualAttempts,
      Embedder.usualDelay⟩
  else if s.embeddingProvider == "tei" then
    return Embedder.ofService s.embeddingUrl Embedder.usualAttempts Embedder.usualDelay
  else Build.fail (.unknownProvider s.embeddingProvider)

/-- Whether there is a chat model. -/
def chat (s : Settings) : Build Bool := do
  if s.chatKey.isFilled then
    s.connectModel
    return true
  else
    Build.log .warning CodeEnricher.channel
      ["OPENAI_API_KEY is not set; semantic enrichment will return empty metadata."]
    return false

end Settings

/-- The second stage as the settings set it up. -/
def Settings.enriching (s : Settings) (config : BuildConfig) : Build EnrichOutput := do
  let embedder ← s.embedder
  let hasChat ← s.chat
  Enriching.run ⟨embedder.embed, hasChat, s.chatModel, s.batchSize, .float s.batchDelay⟩
    ⟨embedder.embed⟩ config

end RepoGraph
