import RepoGraph.Proofs.Build
import RepoGraph.Vector.Store

/-!
# What operations on a project's points leave

Points are read by number.  Putting points leaves under a number the last of them with it, deleting
numbers leaves nothing under them, and batches do what their items do together.

`VectorStore.Leaves v c w w'` says of the world `w'` that it is `w` except that the project's
collection is `c` now; other collections are as they were.  A change that is refused leaves what a
first part of its items leaves.

Main statements: `Collection.find?_putAll`, `Collection.lastOf?_ofEntities`,
`VectorStore.wp_upsertEntities`, `VectorStore.wp_deleteEntities`.
-/

namespace RepoGraph

/-! ### Points by number -/

namespace Collection

/-- The last of some points under a number. -/
def lastOf? (points : List Point) (id : Nat) : Option Point :=
  points.reverse.find? fun p => p.id == id

theorem lastOf?_cons (p : Point) (rest : List Point) (id : Nat) :
    lastOf? (p :: rest) id = (lastOf? rest id).or (if p.id = id then some p else none) := by
  simp only [lastOf?, List.reverse_cons, List.find?_append, List.find?_singleton, beq_iff_eq]

/-- Of points that are put under one number the last one counts. -/
theorem find?_putAll (c : Collection) (points : List Point) (id : Nat) :
    (c.putAll points).find? id = (lastOf? points id).or (c.find? id) := by
  induction points generalizing c with
  | nil => rfl
  | cons p rest ih =>
    have hstep : c.putAll (p :: rest) = (c.put p).putAll rest := rfl
    rw [hstep, ih, lastOf?_cons, Option.or_assoc]
    by_cases h : p.id = id
    · subst h
      simp
    · simp [h, find?_put_of_ne c h]

theorem putAll_append (c : Collection) (points more : List Point) :
    c.putAll (points ++ more) = (c.putAll points).putAll more :=
  List.foldl_append

theorem size_putAll (c : Collection) (points : List Point) : (c.putAll points).size = c.size := by
  induction points generalizing c with
  | nil => rfl
  | cons p rest ih => exact ih (c.put p)

theorem delete_nil (c : Collection) : c.delete [] = c := by
  obtain ⟨size, points⟩ := c
  simp [delete]

theorem delete_append (c : Collection) (ids more : List Nat) :
    c.delete (ids ++ more) = (c.delete ids).delete more := by
  simp only [delete, List.filter_filter]
  congr 2
  funext p
  simp [Bool.and_comm]

end Collection

/-! ### Entities with points -/

/-- Whether an entity has a vector of a size, and so a point. -/
def Enriched.hasPoint (size : Int) (e : Enriched) : Bool :=
  e.hasEmbedding && (VectorStore.dimensions e : Int) == size

/-- The points of the entities that have one, in order. -/
def Point.ofEntities (size : Int) (entities : List Enriched) : List Point :=
  (entities.filter fun e => e.hasPoint size).map ofEntity

/-- The last of some entities with a point under a number. -/
def Enriched.lastNumbered? (size : Int) (entities : List Enriched) (id : Nat) : Option Enriched :=
  entities.reverse.find? fun e => e.hasPoint size && PointId.ofEntityId e.id == id

/-- The point under a number is that of the last entity that has it. -/
theorem Collection.lastOf?_ofEntities (size : Int) (entities : List Enriched) (id : Nat) :
    lastOf? (Point.ofEntities size entities) id =
      (Enriched.lastNumbered? size entities id).map Point.ofEntity := by
  simp only [lastOf?, Point.ofEntities, Enriched.lastNumbered?, ← List.map_reverse,
    ← List.filter_reverse, List.find?_map, List.find?_filter]
  congr 2
  funext e
  rw [Bool.eq_iff_iff, decide_eq_true_iff, Bool.and_eq_true]
  rfl

/-! ### The store -/

namespace VectorStore

variable {v : VectorStore} {outside : Outside} {w : World}

/-- A world is another one except for the project's collection, which is `c`, the client and what
was done. -/
def Leaves (v : VectorStore) (c : Collection) (w w' : World) : Prop :=
  ∃ collections client events,
    w' = { w with collections, hasVectorClient := client, events } ∧
      collections.get? v.collection = some c ∧
      ∀ name, name ≠ v.collection → collections.get? name = w.collections.get? name

/-- A world is another one except for the client and what was done. -/
def LeavesAll (w w' : World) : Prop :=
  ∃ client events, w' = { w with hasVectorClient := client, events }

/-- The project's collection as a build finds it: the one that is there, or one without points. -/
def prior (v : VectorStore) (w : World) : Collection :=
  (w.collections.get? v.collection).getD (Collection.ofSize v.size)

/-- A world is another one except for the project's collection, which a build finds as `c` now, the
client and what was done. -/
def Ends (v : VectorStore) (c : Collection) (w w' : World) : Prop :=
  ∃ collections client events,
    w' = { w with collections, hasVectorClient := client, events } ∧
      (collections.get? v.collection).getD (Collection.ofSize v.size) = c ∧
      ∀ name, name ≠ v.collection → collections.get? name = w.collections.get? name

theorem Leaves.ends {w' : World} {c : Collection} (h : v.Leaves c w w') : v.Ends c w w' := by
  obtain ⟨collections, client, events, rfl, hc, hother⟩ := h
  exact ⟨collections, client, events, rfl, by rw [hc]; rfl, hother⟩

theorem LeavesAll.ends {w' : World} (h : LeavesAll w w') : v.Ends (v.prior w) w w' := by
  obtain ⟨client, events, rfl⟩ := h
  exact ⟨w.collections, client, events, rfl, rfl, fun _ _ => rfl⟩

theorem LeavesAll.leaves {w' : World} {c : Collection} (h : LeavesAll w w')
    (hc : w.collections.get? v.collection = some c) : v.Leaves c w w' := by
  obtain ⟨client, events, rfl⟩ := h
  exact ⟨w.collections, client, events, rfl, hc, fun _ _ => rfl⟩

theorem Leaves.trans {w' w'' : World} {c c' : Collection} (h : v.Leaves c w w')
    (h' : v.Leaves c' w' w'') : v.Leaves c' w w'' := by
  obtain ⟨collections, client, events, rfl, -, hother⟩ := h
  obtain ⟨collections', client', events', rfl, hc', hother'⟩ := h'
  exact ⟨collections', client', events', rfl, hc', fun name hname =>
    (hother' name hname).trans (hother name hname)⟩

theorem Leaves.connected {w' w'' : World} {c : Collection} (h : v.Leaves c w w')
    (h' : LeavesAll w' w'') : v.Leaves c w w'' := by
  obtain ⟨collections, client, events, rfl, hc, hother⟩ := h
  obtain ⟨client', events', rfl⟩ := h'
  exact ⟨collections, client', events', rfl, hc, hother⟩

theorem Leaves.noted {w' : World} {c : Collection} (h : v.Leaves c w w') (events : List Event) :
    v.Leaves c w { w' with events } := by
  obtain ⟨collections, client, _, rfl, hc, hother⟩ := h
  exact ⟨collections, client, events, rfl, hc, hother⟩

/-! ### Reading numbers and points -/

theorem mem_pointIds {ids : List String} {number : Nat} :
    number ∈ pointIds ids ↔ ∃ id ∈ ids, PointId.ofEntityId id = number := by
  simp [pointIds, List.mem_eraseDups]

@[simp]
theorem pointIds_nil : pointIds [] = [] := by
  simp [pointIds]

/-- Which points are made; the log is told of the vectors of another size. -/
theorem wp_pointsOf {done : List Point → World → Prop} {failed : Failure → World → Prop}
    {entities : List Enriched}
    (h : ∀ events, done (Point.ofEntities v.size entities) { w with events }) :
    (v.pointsOf entities).wp done failed outside w := by
  induction entities generalizing done w with
  | nil => exact h w.events
  | cons e rest ih =>
    -- an entity has a point if its vector is there and has the size of the collection
    rw [pointsOf]
    by_cases hembedding : e.hasEmbedding = true
    · by_cases hsize : (dimensions e : Int) = v.size
      · have hpoint : e.hasPoint v.size = true := by simp [Enriched.hasPoint, hembedding, hsize]
        simp only [hembedding, hsize, Bool.not_true, Bool.false_eq_true, if_false,
          bne_self_eq_false,
          Build.wp_bind, Build.wp_pure]
        refine ih fun events => ?_
        have hcons : Point.ofEntities v.size (e :: rest) =
            Point.ofEntity e :: Point.ofEntities v.size rest := by
          simp [Point.ofEntities, hpoint]
        rw [← hcons]
        exact h events
      · have hpoint : e.hasPoint v.size = false := by simp [Enriched.hasPoint, hsize]
        have hsize' : ((dimensions e : Int) != v.size) = true := by simpa using hsize
        simp only [hembedding, Bool.not_true, Bool.false_eq_true, if_false, hsize', if_true,
          Build.wp_bind, Build.wp_log]
        refine ih fun events => ?_
        simpa [Point.ofEntities, hpoint] using h events
    · have hpoint : e.hasPoint v.size = false := by simp [Enriched.hasPoint, hembedding]
      simp only [hembedding, Bool.not_false, if_true]
      refine ih fun events => ?_
      simpa [Point.ofEntities, hpoint] using h events

/-! ### Steps -/

/-- Whether there is a client, shared or made. -/
def HasClient (v : VectorStore) (w : World) : Prop := v.isShared = true ∨ w.hasVectorClient = true

/-- Opening the store drops the client of an earlier use and leaves everything else. -/
theorem wp_openStore {failed : Failure → World → Prop} :
    v.openStore.wp (fun _ w' => ∃ client, w' = { w with hasVectorClient := client }) failed outside
      w := by
  rw [openStore, Build.wp_ite]
  split
  · exact ⟨false, rfl⟩
  · exact ⟨w.hasVectorClient, rfl⟩

/-- Making a client leaves everything else, whether it can be made or not. -/
theorem wp_connect :
    v.connect.wp (fun _ w' => LeavesAll w w' ∧ v.HasClient w') (fun _ w' => LeavesAll w w')
      outside w := by
  simp only [connect, Build.wp_bind, Build.wp_get, Build.wp_ite, Build.wp_attempt,
    Build.wp_modify, Build.wp_pure]
  split
  · exact ⟨fun _ => ⟨⟨_, _, rfl⟩, .inr rfl⟩, fun _ _ => ⟨_, _, rfl⟩⟩
  · rename_i hclient
    refine ⟨⟨_, _, rfl⟩, ?_⟩
    simp only [Bool.and_eq_true, Bool.not_eq_true', not_and, Bool.not_eq_false] at hclient
    exact (Bool.eq_false_or_eq_true v.isShared).imp_right hclient

/-- Closing the client leaves everything else. -/
theorem wp_close {failed : Failure → World → Prop} :
    v.close.wp (fun _ w' => LeavesAll w w') failed outside w := by
  simp only [close, Build.wp_bind, Build.wp_get, Build.wp_ite, Build.wp_note, Build.wp_modify,
    Build.wp_pure]
  split <;> exact ⟨_, _, rfl⟩

/-- Making the collection leaves it as it was if it was there, and else without points; its vectors
have the size of the settings. -/
theorem wp_ensure :
    v.ensure.wp
      (fun _ w' => v.Leaves (v.prior w) w w' ∧ (v.prior w).size = v.size ∧ v.HasClient w')
      (fun _ w' => LeavesAll w w') outside w := by
  rw [ensure, Build.wp_bind]
  refine Build.wp_mono wp_connect (fun _ w' hw' => ?_) fun _ _ h => h
  obtain ⟨⟨client, events, rfl⟩, hclient⟩ := hw'
  simp only [Build.wp_bind, Build.wp_get]
  cases hc : w.collections.get? v.collection with
  | none =>
    simp only [prior, hc, Option.getD_none, Build.wp_bind, Build.wp_attempt, Build.wp_modify,
      Build.wp_log]
    refine ⟨fun _ => ⟨⟨_, _, _, rfl, ?_, fun name hname => ?_⟩, rfl, hclient⟩,
      fun _ _ => ⟨_, _, rfl⟩⟩
    · exact Collections.get?_set_self _ _ _
    · exact Collections.get?_set_of_ne _ (fun h => hname h.symm) _
  | some c =>
    simp only [prior, hc, Option.getD_some, Build.wp_ite, Build.wp_bind, Build.wp_log,
      Build.wp_fail, Build.wp_pure]
    split
    · exact ⟨_, _, rfl⟩
    · rename_i hsize
      exact ⟨⟨_, _, _, rfl, hc, fun _ _ => rfl⟩, by simpa using hsize, hclient⟩

/-- A change of the collection does as it says, or is refused and leaves it. -/
theorem wp_change {c : Collection} {w' : World} (h : v.Leaves c w w') (call : VectorCall)
    (f : Collection → Collection) :
    (v.change call f).wp (fun _ w'' => v.Leaves (f c) w w'')
      (fun _ w'' => v.Leaves c w w'' ∧ ∃ past reason,
        outside.refuses past (.vector call) = some reason)
      outside w' := by
  obtain ⟨collections, client, events, rfl, hc, hother⟩ := h
  simp only [change, present, Build.wp_bind, Build.wp_attempt, Build.wp_get, hc, Build.wp_pure,
    Build.wp_modify]
  refine ⟨fun _ => ⟨_, _, _, rfl, ?_, fun name hname => ?_⟩,
    fun reason hreason => ⟨?_, _, _, hreason⟩⟩
  · exact Collections.get?_set_self _ _ _
  · exact (Collections.get?_set_of_ne _ (fun h => hname h.symm) _).trans (hother name hname)
  · exact ⟨_, _, _, rfl, hc, hother⟩

/-- Putting the points of entities puts them all, or a first part of them. -/
theorem wp_upsertEntities {c : Collection} {w' : World} (h : v.Leaves c w w')
    (entities : List Enriched) :
    (v.upsertEntities entities).wp
      (fun n w'' => n = (Point.ofEntities v.size entities).length ∧
        v.Leaves (c.putAll (Point.ofEntities v.size entities)) w w'')
      (fun _ w'' => ∃ put, put <+: Point.ofEntities v.size entities ∧ v.Leaves (c.putAll put) w w'')
      outside w' := by
  rw [upsertEntities, Build.wp_bind]
  refine wp_pointsOf fun events => ?_
  have hevents := h.noted events
  generalize Point.ofEntities v.size entities = points
  rw [Build.wp_ite]
  split
  · rename_i hempty
    rw [List.isEmpty_iff.1 hempty]
    simp only [Build.wp_bind, Build.wp_log, Build.wp_pure]
    exact ⟨rfl, hevents.noted _⟩
  · rw [Build.wp_bind]
    refine Build.wp_mono wp_connect (fun _ w₁ hw₁ => ?_) fun _ w₁ hw₁ =>
      ⟨[], List.nil_prefix, hevents.connected hw₁⟩
    · have hstart : v.Leaves c w w₁ := hevents.connected hw₁.1
      rw [Build.wp_bind]
      -- after some batches their points are put; a refused batch leaves it at that
      refine Build.wp_mono (Build.wp_forM
        (fun before w₂ => v.Leaves (c.putAll (before.flatMap Prod.fst)) w w₂)
        (fun before item after hitems w₂ hw₂ => ?_) hstart) (fun _ w₂ hw₂ => ?_) fun _ _ h => h
      · rw [Build.wp_bind]
        refine Build.wp_mono (wp_change hw₂ _ _) (fun _ w₃ hw₃ => ?_) fun _ w₃ hw₃ => ?_
        · rw [Build.wp_log, List.flatMap_append, Collection.putAll_append]
          have hitem : List.flatMap Prod.fst [item] = item.1 := List.flatMap_singleton ..
          rw [hitem]
          exact hw₃.noted _
        · refine ⟨before.flatMap Prod.fst, ?_, hw₃.1⟩
          rw [← Batch.flatMap_counted batchSize points, hitems, List.flatMap_append]
          exact List.prefix_append _ _
      · rw [Batch.flatMap_counted] at hw₂
        exact ⟨rfl, hw₂⟩

/-- Whether some deletion of points may be refused. -/
def RefusesDelete (v : VectorStore) (outside : Outside) : Prop :=
  ∃ past ids reason, outside.refuses past (.vector (.delete v.collection ids)) = some reason

/-- Where a client is there, none is asked for. -/
theorem wp_connect_of_hasClient (h : v.HasClient w) :
    v.connect.wp (fun _ w' => w' = w) (fun _ _ => False) outside w := by
  have hconnected : (!v.isShared && !w.hasVectorClient) = false := by
    rcases h with hshared | hthere
    · simp [hshared]
    · simp [hthere]
  simp only [connect, Build.wp_bind, Build.wp_get, hconnected, Bool.false_eq_true, if_false,
    Build.wp_pure]

/-- Deleting the points of some ids deletes all their numbers; where a client is there, it fails
only if a deletion is refused, after a first part of the numbers. -/
theorem wp_deleteEntities {c : Collection} {w' : World} (h : v.Leaves c w w')
    (hclient : v.HasClient w') (ids : List String) :
    (v.deleteEntities ids).wp (fun _ w'' => v.Leaves (c.delete (pointIds ids)) w w'')
      (fun _ w'' => v.RefusesDelete outside ∧
        ∃ numbers, numbers <+: pointIds ids ∧ v.Leaves (c.delete numbers) w w'')
      outside w' := by
  rw [deleteEntities]
  generalize pointIds ids = numbers
  rw [Build.wp_ite]
  split
  · rename_i hempty
    rw [List.isEmpty_iff.1 hempty, Collection.delete_nil]
    exact h
  · rw [Build.wp_bind]
    refine Build.wp_mono (wp_connect_of_hasClient hclient)
      (fun _ w₁ hw₁ => ?_) fun _ _ => False.elim
    subst hw₁
    rw [Build.wp_bind]
    have hstart : v.Leaves (c.delete (List.flatten [])) w w₁ := by
      rw [List.flatten_nil, Collection.delete_nil]
      exact h
    -- after some batches their numbers are deleted; a refused batch leaves it at that
    refine Build.wp_mono (Build.wp_forM
      (fun before w₂ => v.Leaves (c.delete before.flatten) w w₂)
      (fun before item after hitems w₂ hw₂ => ?_) hstart) (fun _ w₂ hw₂ => ?_) fun _ _ h => h
    · refine Build.wp_mono (wp_change hw₂ _ _) (fun _ w₃ hw₃ => ?_) fun _ w₃ hw₃ => ?_
      · rw [List.flatten_append, Collection.delete_append, List.flatten_singleton]
        exact hw₃
      · obtain ⟨hw₃, past, reason, hreason⟩ := hw₃
        refine ⟨⟨past, _, reason, hreason⟩, before.flatten, ?_, hw₃⟩
        rw [← Batch.flatten_split batchSize numbers, hitems, List.flatten_append]
        exact List.prefix_append _ _
    · rw [Batch.flatten_split] at hw₂
      exact hw₂

end VectorStore

end RepoGraph
