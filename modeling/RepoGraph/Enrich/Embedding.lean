import RepoGraph.World

/-!
# Embedding texts

A provider answers the vector of a text.  An `Embedder` asks again, after growing pauses, until a
provider answers numbers or the attempts are used up; then the text has no vector.  Asking fails
only where so many attempts have failed that the next pause has no number.
-/

namespace RepoGraph

/-- Who answers vectors. -/
inductive EmbeddingProvider where
  /-- A service at a URL, with a time limit in seconds. -/
  | service (url : String) (timeout : Number)
  /-- A model service, with the number of dimensions to ask for. -/
  | model (name : String) (dimensions : Option Int)
  /-- Nobody. -/
  | nobody

/-- A provider, the number of attempts (at least one is made) and the first pause in seconds. -/
structure Embedder where
  provider : EmbeddingProvider
  attempts : Int
  delay : Number

namespace Embedder

/-- The part of the log. -/
def channel : String := "enrichers.embedding"

/-- How often a provider is asked unless said otherwise. -/
def usualAttempts : Int := 3

/-- How long a connection may take, in seconds. -/
def connectLimit : Number := .int 10

/-- The usual first pause: a second. -/
def usualDelay : Number := .float (Binary64.ofInt 1)

/-- An embedder of a service at a URL. -/
def ofService (url : String) (attempts : Int) (delay : Number) : Embedder :=
  ⟨.service (String.ofList (Text.dropRightWhile (· == '/') url.toList))
    (.float (Binary64.ofInt 60)), attempts, delay⟩

/-- The name of a provider in the log. -/
def name (e : Embedder) : String :=
  match e.provider with
  | .service .. => "TEI embedding"
  | .model .. => "OpenAI embedding"
  | .nobody => "embedder"

/-! ### Numbers in an answer -/

/-- The items of a value that has items. -/
def items : Json → Except Failure (List Json)
  | .arr xs => .ok xs
  | .str s => .ok (s.toList.map fun c => .str (String.ofList [c]))
  | .obj fields => .ok (fields.map fun f => .str f.1)
  | _ => .error (.record .wrongType)

/-- An item as a number in double precision. -/
def number : Json → Except Failure Binary64
  | .int n => (Numeral.floatOfInt n).mapError fun f => .record (.numeral f)
  | .float x => .ok x
  | .bool b => .ok (Binary64.ofInt (if b then 1 else 0))
  | .str s => (Numeral.float s).mapError fun f => .record (.numeral f)
  | _ => .error (.record .wrongType)

/-- The vector in the body of a service's answer: the first item if that is a list, else the whole
list. -/
def firstVector : Json → Except Failure Json
  | .arr (.arr xs :: _) => .ok (.arr xs)
  | .arr (x :: xs) => .ok (.arr (x :: xs))
  | _ => .error .noVectors

/-! ### Attempts -/

/-- The request for a text. -/
def request (e : Embedder) (text : String) : Option EmbeddingRequest :=
  match e.provider with
  | .service url timeout => some (.service (url ++ "/embed") text connectLimit timeout)
  | .model name dimensions => some (.model name text (dimensions.filter (· != 0)))
  | .nobody => none

/-- The numbers in an answer. -/
def vectorOf (e : Embedder) (answer : Json) : Except Failure (List Binary64) := do
  let vector ← match e.provider with
    | .service .. => firstVector answer
    | _ => .ok answer
  (← items vector).mapM number

/-- One attempt. -/
def tryOnce (e : Embedder) (text : String) : Build (List Binary64) := do
  match e.request text with
  | none => Build.fail .notProvided
  | some request =>
    let before := (← get).events
    Build.attempt (.embed request)
    let answer ← Build.take id ((← read).embed before request)
    Build.take id (e.vectorOf answer)

/-- How many attempts are made. -/
def attemptCount (e : Embedder) : Nat := (max 1 e.attempts).toNat

/-- The pause after a failed attempt: the first pause, doubled after each further attempt. -/
def pause (e : Embedder) (attempt : Nat) : Except NumeralFault Number := e.delay.scale (attempt - 1)

/-- Pauses if there is anything to wait for. -/
def sleep (seconds : Number) : Build Unit := do
  if seconds.isPositive then Build.note (.sleep seconds)

/-- Tells of a failed attempt, and pauses if there is another one. -/
def afterFailure (e : Embedder) (attempt left : Nat) (f : Failure) : Build Unit := do
  if left = 0 then
    Build.log .error channel
      [e.name ++ " failed after " ++ toString e.attemptCount ++ " attempts: ", f]
  else
    let pause ← Build.take (fun fault => .record (.numeral fault)) (e.pause attempt)
    Build.log .warning channel
      [e.name ++ " error (attempt " ++ toString attempt ++ "/" ++ toString e.attemptCount ++ "): ",
        f, ", retrying in " ++ pause.toBinary64.fixedText 1 ++ "s"]
    sleep pause

/-- The vector of a text after some attempts, with so many left. -/
def embedFrom (e : Embedder) (text : String) : Nat → Nat → Build (List Binary64)
  | _, 0 => pure []
  | attempt, left + 1 => do
    match ← Build.outcome (e.tryOnce text) with
    | .ok vector => return vector
    | .error f =>
      e.afterFailure attempt left f
      embedFrom e text (attempt + 1) left

/-- The vector of a text; empty for the empty text and where every attempt failed. -/
def embed (e : Embedder) (text : String) : Build (List Binary64) :=
  if text == "" then pure [] else e.embedFrom text 1 e.attemptCount

end Embedder

end RepoGraph
