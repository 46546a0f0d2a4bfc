import RepoGraph.Batch
import RepoGraph.Enrich.Embedding
import RepoGraph.Entity
import RepoGraph.Json.Display
import RepoGraph.Json.Printer
import RepoGraph.Json.Search
import RepoGraph.Text.Blank

/-!
# Enriching entities

Code gets a vector and what a chat model says about it, a document or an asset a vector and a
summary of its own text.  The two parts do not depend on each other, and a part that fails is
missing.

The summary is made of the first five lines that are not blank, without the blanks around them,
joined by single spaces and cut at four hundred characters.

A chat model is asked for a description of a code entity and answers in free form.
`Semantic.prompt` writes the question; `Semantic.read` keeps of an answer what is well formed:
non-blank texts, a list of patterns, a complexity from one to ten.
-/

namespace RepoGraph

/-! ### Questions and answers -/

namespace Semantic

/-- The standing instruction of the conversation. -/
def instruction : String :=
  "You are a knowledge-graph enrichment microservice. Return concise JSON " ++
    "summaries of code artifacts. Do not include prose, markdown, or explanations."

/-- The form an answer is asked for in. -/
def answerForm : String :=
  "\x7b\n" ++
  "  \"semanticDescription\": \"string\",\n" ++
  "  \"purpose\": \"string\",\n" ++
  "  \"patterns\": [\"string\", \"...\"],\n" ++
  "  \"architecturalRole\": \"string\",\n" ++
  "  \"complexity\": number (1-10)\n" ++
  "\x7d"

/-- The question about an entity. -/
def prompt (e : Entity) : String :=
  let content := match e.content with
    | some text => if text == "" then "No content" else text
    | none => "No content"
  "Analyze this " ++ e.kind ++ " and return JSON only.\n\nName: " ++ e.name ++
    "\nCode (may be truncated):\n```\n" ++ content ++ "\n```\n\nMetadata: " ++
    (Json.obj e.metadata).pretty ++ "\n\nExpected JSON schema:\n" ++ answerForm

/-- A text with something beside blanks in it, without the blanks around it. -/
def filledText (answer : Fields) (name : String) : Option String :=
  match answer.get? name with
  | some (.str s) =>
    let trimmed := Text.strip s
    if trimmed == "" then none else some trimmed
  | _ => none

/-- A pattern: a text, a number or a truth value, as text. -/
def patternText : Json → Option String
  | .str s => some s
  | .int n => some (Json.display (.int n))
  | .float x => some (Json.display (.float x))
  | .bool b => some (Json.display (.bool b))
  | _ => none

/-- The patterns of an answer that gives a list. -/
def patterns (answer : Fields) : Option (List String) :=
  match answer.get? "patterns" with
  | some (.arr items) => some (items.filterMap patternText)
  | _ => none

/-- A complexity from one to ten; a number without a fraction counts as an integer. -/
def complexity (answer : Fields) : Option Int :=
  let inRange (n : Int) : Option Int := if 1 ≤ n ∧ n ≤ 10 then some n else none
  match answer.get? "complexity" with
  | some (.int n) => inRange n
  | some (.float x) => if x.isInteger then inRange x.truncate else none
  | _ => none

/-- What is well formed of an answer. -/
def read (answer : Fields) : Enrichment :=
  ⟨filledText answer "semanticDescription", filledText answer "purpose", patterns answer,
    filledText answer "architecturalRole", complexity answer, none⟩

end Semantic

/-! ### Summaries -/

namespace Summary

/-- How many lines go into a summary. -/
def lineLimit : Nat := 5

/-- The longest summary, in characters. -/
def lengthLimit : Nat := 400

/-- Every line end of a carriage return and a line feed becomes a line feed. -/
def unifyLineEnds : List Char → List Char
  | [] => []
  | '\r' :: '\n' :: rest => '\n' :: unifyLineEnds rest
  | c :: rest => c :: unifyLineEnds rest

/-- The lines of a text that are not blank, without the blanks around them. -/
def filledLines (text : String) : List String :=
  ((Text.splitAt (· == '\n') (unifyLineEnds text.toList)).map fun line =>
    String.ofList (Text.trimChars Text.isBlank line)).filter (· != "")

/-- The first lines in one. -/
def joined (text : String) : String := String.intercalate " " ((filledLines text).take lineLimit)

/-- The summary of a text. -/
def ofText (text : String) : String :=
  if text == "" then "No content available."
  else
    let line := joined text
    if lengthLimit < line.length then Text.take (lengthLimit - 3) line ++ "..."
    else if line == "" then "Summary not available."
    else line

end Summary

/-! ### Enrichers -/

/-- What enriches code: who answers vectors, whether there is a chat model and which, and how the
entities are batched. -/
structure CodeEnricher where
  embed : String → Build (List Binary64)
  hasChat : Bool
  model : Yaml.Value
  batchSize : Int
  batchDelay : Number

/-- A vector as part of what is said about an entity; an empty one is none. -/
def Enrichment.embeddingOf (vector : List Binary64) : Option (List Number) :=
  if vector.isEmpty then .none else .some (vector.map .float)

namespace CodeEnricher

/-- The part of the log. -/
def channel : String := "enrichers.code"

/-- How much of an entity goes into its vector, in characters. -/
def textLimit : Nat := 512

/-- The text that an entity's vector is made of: its name and its content. -/
def embeddedText (e : Entity) : String :=
  Text.take textLimit (e.name ++ "\n" ++ e.content.getD "")

/-- The longest answer of the chat model, in tokens. -/
def tokenLimit : Nat := 1000

/-- The form that the chat model answers in. -/
def answerForm : String := "json_object"

/-- What the chat model answers about an entity. -/
def askChat (c : CodeEnricher) (e : Entity) : Build String := do
  let request : ChatRequest :=
    ⟨c.model, Semantic.instruction, Semantic.prompt e, tokenLimit, answerForm⟩
  let before := (← get).events
  Build.attempt (.chat request)
  let answer ← Build.take id ((← read).chat before request)
  return answer.getD ""

/-- What the chat model says about an entity; nothing if there is none, it fails, or its answer
holds no object. -/
def describe (c : CodeEnricher) (e : Entity) : Build Enrichment := do
  if !c.hasChat then return .none
  match ← Build.outcome (c.askChat e) with
  | .error f =>
    Build.log .warning channel ["Failed to get semantic info for " ++ e.id ++ ": ", f]
    return .none
  | .ok text =>
    let answer := Json.findObject (some text)
    if answer.isEmpty then
      Build.log .warning channel
        ["Semantic enrichment returned non-JSON payload for " ++ e.id]
      return .none
    else return Semantic.read answer

/-- An entity with its vector and its description; a plain one if the vector cannot be had. -/
def enrich (c : CodeEnricher) (e : Entity) : Build Enriched := do
  let step : Build Enriched := do
    let vector ← c.embed (embeddedText e)
    let description ← c.describe e
    return ⟨e, { description with embedding := Enrichment.embeddingOf vector }⟩
  match ← Build.outcome step with
  | .ok enriched => return enriched
  | .error f =>
    Build.log .error channel ["Error enriching entity " ++ e.id ++ ": ", f]
    return Enriched.plain e

/-- How many entities a batch holds. -/
def batchCount (c : CodeEnricher) : Nat := (max 1 c.batchSize).toNat

/-- Enriches the batches in order, and pauses between them. -/
def enrichBatches (c : CodeEnricher) (total : Nat) : List (List Entity × Nat) →
    Build (List Enriched)
  | [] => pure []
  | (batch, done) :: rest => do
    let enriched ← batch.mapM c.enrich
    Build.log .info channel
      ["Code enrichment progress: " ++ toString done ++ "/" ++ toString total]
    if done < total then Embedder.sleep c.batchDelay
    let more ← enrichBatches c total rest
    return enriched ++ more

/-- The entities enriched, in order. -/
def enrichAll (c : CodeEnricher) (entities : List Entity) : Build (List Enriched) :=
  c.enrichBatches entities.length (Batch.counted c.batchCount entities)

end CodeEnricher

/-- What enriches documents: who answers vectors. -/
structure DocumentEnricher where
  embed : String → Build (List Binary64)

namespace DocumentEnricher

/-- The part of the log. -/
def channel : String := "enrichers.doc"

/-- How much of a document goes into its vector, in characters. -/
def textLimit : Nat := 2048

/-- A document with its summary and its vector; what is no document stays plain. -/
def enrich (d : DocumentEnricher) (e : Entity) : Build Enriched := do
  if !Entity.documentKinds.contains e.kind then return Enriched.plain e
  let text := e.content.getD ""
  let summary := Summary.ofText text
  let vector ← match ← Build.outcome (d.embed (Text.take textLimit text)) with
    | .ok vector => pure vector
    | .error f => do
      Build.log .warning channel ["Failed to embed document " ++ e.id ++ ": ", f]
      pure []
  return ⟨e, { Enrichment.none with
    description := some summary
    purpose := some summary
    embedding := Enrichment.embeddingOf vector }⟩

/-- Enriches entities one after the other, so many of all being done before. -/
def enrichFrom (d : DocumentEnricher) (total : Nat) : Nat → List Entity → Build (List Enriched)
  | _, [] => pure []
  | done, e :: rest => do
    let enriched ← d.enrich e
    if Progress.isTold (max 1 ((total + 4) / 5)) total (done + 1) then
      Build.log .info channel
        ["Document enrichment progress: " ++ toString (done + 1) ++ "/" ++ toString total]
    let more ← enrichFrom d total (done + 1) rest
    return enriched :: more

/-- The entities enriched, in order. -/
def enrichAll (d : DocumentEnricher) (entities : List Entity) : Build (List Enriched) :=
  d.enrichFrom entities.length 0 entities

end DocumentEnricher

end RepoGraph
