import RepoGraph.World

/-!
# What was done

The events of a build seen from one side: what was logged, how long it paused, what it asked the
models.
-/

namespace RepoGraph

namespace Event

/-- The entry of an event that logs. -/
def entry? : Event → Option LogEntry
  | log e => some e
  | _ => none

/-- The seconds of a pause. -/
def pause? : Event → Option Number
  | sleep seconds => some seconds
  | _ => none

/-- The request for a vector. -/
def embedding? : Event → Option EmbeddingRequest
  | embed r => some r
  | _ => none

/-- The question to a chat model. -/
def question? : Event → Option ChatRequest
  | chat r => some r
  | _ => none

/-- Whether an event asks the graph server whether it is there. -/
def isPing : Event → Bool
  | ping => true
  | _ => false

end Event

/-- The text whose vector is asked for. -/
def EmbeddingRequest.subject : EmbeddingRequest → String
  | service _ text _ _ | model _ text _ => text

/-- Does a step; answers what came of it, the events of the step in order, and the world after
it. -/
def Build.observe {α : Type} (outside : Outside) (w : World) (step : Build α) :
    Except Failure α × List Event × World :=
  let (answer, after) := step.run outside w
  (answer, (after.events.take (after.events.length - w.events.length)).reverse, after)

end RepoGraph
