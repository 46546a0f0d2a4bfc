import RepoGraph.Graph.Store
import RepoGraph.Proofs.Vector.Points

/-!
# Requests to the stores

A `GraphRequest` is one call of a graph store, with the project it is issued for, and
`GraphStore.answer` is what a store does with it.  A `StoreStep` is a request to the graph store, or
the store's being closed or opened again, or one call of a part of the vector store.
`GraphStore.takeAll` takes such steps one after the other; a step that fails does not keep the next
ones from being taken.

`VectorStore.Touches v w w'`: the world `w'` is `w` except for the project's collection, the client
and what was done.  This is so after every call of a project's part of the vector store, whatever
the collection is like and whether the call fails or not.

Main statements: `GraphStore.kept_after`, `VectorStore.wp_upsertEntities_touches`,
`VectorStore.wp_deleteEntities_touches`.
-/

namespace RepoGraph

/-! ### The graph store -/

/-- A request to a graph store. -/
inductive GraphRequest where
  /-- Merge entities. -/
  | entities (project : String) (entities : List Enriched)
  /-- Merge relationships. -/
  | relationships (project : String) (relationships : List Relationship)
  /-- Delete the nodes in scope whose entity is not current. -/
  | prune (project : String) (current : List String) (scope : Option (List String))
  /-- Count nodes and edges. -/
  | counts (project : String)

/-- The project that a request is issued for. -/
def GraphRequest.project : GraphRequest → String
  | entities project _ => project
  | relationships project _ => project
  | prune project _ _ => project
  | counts project => project

/-- What a graph store answers. -/
inductive GraphAnswer where
  /-- How many entities or relationships were merged. -/
  | merged (n : Int)
  /-- The ids of the nodes that were deleted. -/
  | gone (ids : List String)
  /-- How many nodes and edges there are. -/
  | counted (c : GraphCounts)

/-- What a graph store does with a request. -/
def GraphStore.answer (store : GraphStore) : GraphRequest → Build GraphAnswer
  | .entities project entities => do
    return .merged (← store.upsertEntities project entities : Nat)
  | .relationships project relationships => do
    return .merged (← store.upsertRelationships project relationships)
  | .prune project current scope => do return .gone (← store.prune project current scope)
  | .counts project => do return .counted (← store.counts project)

/-! ### Both stores -/

/-- A step of somebody who uses the stores. -/
inductive StoreStep where
  /-- Ask the graph store. -/
  | ask (request : GraphRequest)
  /-- Close the graph store. -/
  | close
  /-- Open the graph store again. -/
  | reopen
  /-- Make sure of a project's collection. -/
  | ensure (v : VectorStore)
  /-- Put the points of entities. -/
  | points (v : VectorStore) (entities : List Enriched)
  /-- Delete the points of ids. -/
  | unpoint (v : VectorStore) (ids : List String)

/-- The project that a step is issued for; closing and opening are issued for none. -/
def StoreStep.project? : StoreStep → Option String
  | ask request => some request.project
  | close => none
  | reopen => none
  | ensure v => some v.project
  | points v _ => some v.project
  | unpoint v _ => some v.project

namespace GraphStore

/-- Takes a step, with a graph store. -/
def takeStep (store : GraphStore) : StoreStep → Build Unit
  | .ask request => discard (store.answer request)
  | .close => store.close
  | .reopen => store.openStore
  | .ensure v => v.ensure
  | .points v entities => discard (v.upsertEntities entities)
  | .unpoint v ids => discard (v.deleteEntities ids)

/-- Takes steps one after the other, whether they fail or not. -/
def takeAll (store : GraphStore) (steps : List StoreStep) : Build Unit :=
  steps.forM fun step => discard (Build.outcome (store.takeStep step))

theorem wp_discard {α : Type} {done : Unit → World → Prop} {failed : Failure → World → Prop}
    {outside : Outside} {w : World} (step : Build α) :
    (discard step : Build Unit).wp done failed outside w ↔
      step.wp (fun _ w' => done () w') failed outside w :=
  Build.wp_map step fun _ => ()

/-- The world after some steps. -/
def after (store : GraphStore) (steps : List StoreStep) (outside : Outside) (w : World) : World :=
  ((store.takeAll steps).run outside w).2

/-- What every step keeps, whether it fails or not, holds after all of them. -/
theorem kept_after {store : GraphStore} {steps : List StoreStep} {kept : World → Prop}
    {outside : Outside} {w : World}
    (hstep : ∀ step ∈ steps, ∀ w', kept w' →
      (store.takeStep step).wp (fun _ => kept) (fun _ => kept) outside w')
    (hstart : kept w) : kept (store.after steps outside w) := by
  have hall : (store.takeAll steps).wp (fun _ => kept) (fun _ => kept) outside w := by
    refine Build.wp_forM (fun _ => kept) (fun before step after hsteps w' hw' => ?_) hstart
    have hmem : step ∈ steps := by simp [hsteps]
    rw [wp_discard, Build.wp_outcome]
    exact hstep step hmem w' hw'
  unfold Build.wp at hall
  rw [GraphStore.after]
  generalize (store.takeAll steps).run outside w = ending at hall ⊢
  obtain ⟨_ | _, after⟩ := ending <;> exact hall

end GraphStore

/-! ### Calls of the vector store -/

namespace VectorStore

variable {v : VectorStore} {outside : Outside} {w w' : World}

/-- A world is another one except for the project's collection, the client and what was done. -/
def Touches (v : VectorStore) (w w' : World) : Prop :=
  ∃ collections client events,
    w' = { w with collections, hasVectorClient := client, events } ∧
      ∀ name, name ≠ v.collection → collections.get? name = w.collections.get? name

theorem Touches.refl (v : VectorStore) (w : World) : v.Touches w w :=
  ⟨w.collections, w.hasVectorClient, w.events, rfl, fun _ _ => rfl⟩

theorem Touches.trans {w'' : World} (h : v.Touches w w') (h' : v.Touches w' w'') :
    v.Touches w w'' := by
  obtain ⟨collections, client, events, rfl, hother⟩ := h
  obtain ⟨collections', client', events', rfl, hother'⟩ := h'
  exact ⟨collections', client', events', rfl, fun name hname =>
    (hother' name hname).trans (hother name hname)⟩

theorem Touches.noted (h : v.Touches w w') (events : List Event) :
    v.Touches w { w' with events } := by
  obtain ⟨collections, client, _, rfl, hother⟩ := h
  exact ⟨collections, client, events, rfl, hother⟩

theorem LeavesAll.touches (h : LeavesAll w w') (v : VectorStore) : v.Touches w w' := by
  obtain ⟨client, events, rfl⟩ := h
  exact ⟨w.collections, client, events, rfl, fun _ _ => rfl⟩

theorem Leaves.touches {c : Collection} (h : v.Leaves c w w') : v.Touches w w' := by
  obtain ⟨collections, client, events, rfl, -, hother⟩ := h
  exact ⟨collections, client, events, rfl, hother⟩

/-- A change of the collection touches it only, also where there is none. -/
theorem wp_change_touches (h : v.Touches w w') (call : VectorCall) (f : Collection → Collection) :
    (v.change call f).wp (fun _ => v.Touches w) (fun _ => v.Touches w) outside w' := by
  rw [change, Build.wp_bind, Build.wp_attempt]
  refine ⟨fun _ => ?_, fun _ _ => h.noted _⟩
  rw [Build.wp_bind, present, Build.wp_bind, Build.wp_get]
  cases w'.collections.get? v.collection with
  | none => exact h.noted _
  | some c =>
    refine h.trans ⟨_, w'.hasVectorClient, _, rfl, fun name hname => ?_⟩
    exact Collections.get?_set_of_ne _ (fun heq => hname heq.symm) _

theorem wp_ensure_touches :
    v.ensure.wp (fun _ => v.Touches w) (fun _ => v.Touches w) outside w :=
  Build.wp_mono wp_ensure (fun _ _ h => h.1.touches) fun _ _ h => h.touches v

theorem wp_upsertEntities_touches (entities : List Enriched) :
    (v.upsertEntities entities).wp (fun _ => v.Touches w) (fun _ => v.Touches w) outside w := by
  rw [upsertEntities, Build.wp_bind]
  refine wp_pointsOf fun events => ?_
  have hstart : v.Touches w { w with events } := (Touches.refl v w).noted events
  generalize Point.ofEntities v.size entities = points
  rw [Build.wp_ite]
  split
  · exact hstart.noted _
  · rw [Build.wp_bind]
    refine Build.wp_mono wp_connect (fun _ w₁ hw₁ => ?_) fun _ w₁ hw₁ =>
      hstart.trans (hw₁.touches v)
    rw [Build.wp_bind]
    refine Build.wp_forM (fun _ => v.Touches w) (fun before item after _ w₂ hw₂ => ?_)
      (hstart.trans (hw₁.1.touches v))
    rw [Build.wp_bind]
    refine Build.wp_mono (wp_change_touches hw₂ _ _) (fun _ w₃ hw₃ => ?_) fun _ _ h => h
    rw [Build.wp_log]
    exact hw₃.noted _

theorem wp_deleteEntities_touches (ids : List String) :
    (v.deleteEntities ids).wp (fun _ => v.Touches w) (fun _ => v.Touches w) outside w := by
  rw [deleteEntities, Build.wp_ite]
  split
  · exact Touches.refl v w
  · rw [Build.wp_bind]
    refine Build.wp_mono wp_connect (fun _ w₁ hw₁ => ?_) fun _ w₁ hw₁ => hw₁.touches v
    rw [Build.wp_bind]
    exact Build.wp_forM (fun _ => v.Touches w)
      (fun before item after _ w₂ hw₂ => wp_change_touches hw₂ _ _) (hw₁.1.touches v)

end VectorStore

end RepoGraph
