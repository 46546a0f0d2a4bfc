import RepoGraph.Graph.Store
import RepoGraph.Proofs.Build
import RepoGraph.Proofs.Disk.Changes
import RepoGraph.Proofs.Disk.Room
import RepoGraph.Proofs.Graph.Merging

/-!
# What operations on the graph of a file leave

`GraphStore.held path w` is the graph that the file of a store holds, the empty one if there is no
such file.  Opening the store opens that graph; every operation then changes the open graph, and the
file holds it again once the store is closed.  An operation that fails leaves what a first part of
its batches leaves, and a store that cannot be closed leaves the file as it was.

Main statements: `GraphStore.wp_openStore`, `GraphStore.wp_save`, `GraphStore.wp_upsertEntities`,
`GraphStore.wp_upsertRelationships`, `GraphStore.wp_prune`.
-/

namespace RepoGraph

namespace GraphStore

variable {outside : Outside} {w : World} {path project : String}

/-- A world is another one except for the open graph, which is `g`, and what was done. -/
def Opens (g : Graph) (w w' : World) : Prop := ∃ events, w' = { w with openGraph := g, events }

theorem Opens.trans {w' w'' : World} {g h : Graph} (hw : Opens g w w') (hw' : Opens h w' w'') :
    Opens h w w'' := by
  obtain ⟨events, rfl⟩ := hw
  obtain ⟨events', rfl⟩ := hw'
  exact ⟨events', rfl⟩

theorem Opens.service_eq {w' : World} {g : Graph} (h : Opens g w w') : w'.service = w.service := by
  obtain ⟨events, rfl⟩ := h
  rfl

theorem Opens.noted {w' : World} {g : Graph} (hw : Opens g w w') (events : List Event) :
    Opens g w { w' with events } := by
  obtain ⟨_, rfl⟩ := hw
  exact ⟨events, rfl⟩

/-! ### The file -/

/-- The graph that a path holds on a disk; the empty one if it leads to no file with a graph. -/
def onDisk (path : String) (disk : Disk) (cwd : Place) : Graph :=
  match disk.read cwd path with
  | .ok (.graph g) => g
  | _ => .empty

/-- The graph that the file of a store holds. -/
def held (path : String) (w : World) : Graph := onDisk path w.disk w.cwd

theorem onDisk_of_read {path : String} {disk : Disk} {cwd : Place} {g : Graph}
    (h : disk.read cwd path = .ok (.graph g)) : onDisk path disk cwd = g := by
  rw [onDisk, h]

/-- A path that leads to the same graph files on two disks holds the same graph on them. -/
theorem onDisk_congr {path : String} {disk disk' : Disk} {cwd : Place}
    (h : ∀ content, disk'.read cwd path = .ok content ↔ disk.read cwd path = .ok content) :
    onDisk path disk' cwd = onDisk path disk cwd := by
  unfold onDisk
  cases hread : disk.read cwd path with
  | ok content => rw [(h content).2 hread]
  | error fault =>
    cases hread' : disk'.read cwd path with
    | ok content =>
      rw [(h content).1 hread'] at hread
      cases hread
    | error fault' => rfl

/-- Opening a store opens the graph of its file, or fails and changes nothing. -/
theorem wp_openStore (hpath : path ≠ "") :
    (file (some path)).openStore.wp (fun _ w' => Opens (held path w) w w')
      (fun _ w' => Opens w.openGraph w w') outside w := by
  have hne : (path != "") = true := by simpa using hpath
  simp only [openStore, Build.wp_bind, Build.wp_askDisk, Build.wp_ite, hne, Bool.true_and,
    Build.wp_modify, Build.wp_readContent]
  split
  · refine ⟨fun _ => ⟨fun content hread => ?_, fun _ _ => ⟨_, rfl⟩⟩, fun _ _ => ⟨_, rfl⟩⟩
    cases content with
    | graph g =>
      rw [held, onDisk_of_read hread]
      exact ⟨_, rfl⟩
    | text s => exact ⟨_, rfl⟩
    | bytes bs => exact ⟨_, rfl⟩
  · rename_i hexists
    have hnone : held path w = .empty := by
      rw [held, onDisk]
      cases hread : w.disk.read w.cwd path with
      | ok content => exact absurd (Disk.doesExist_of_read hread) hexists
      | error fault => rfl
    rw [hnone]
    exact ⟨_, rfl⟩

/-- The directory of a graph's file, by its place. -/
def directoryOf (path : String) (cwd : Place) : String :=
  "/" ++ "/".intercalate (Disk.absolute cwd path).dropLast

/-- A disk holds a graph in a file where another one, once the file's directory is made, held
something else. -/
def Saves (path : String) (g : Graph) (cwd : Place) (disk disk' : Disk) : Prop :=
  ∃ made, disk.makeDirectories cwd (directoryOf path cwd) = .ok made ∧
    made.write cwd path (.graph g) = .ok disk'

theorem Saves.onDisk_eq {g : Graph} {cwd : Place} {disk disk' : Disk}
    (h : Saves path g cwd disk disk') : onDisk path disk' cwd = g := by
  obtain ⟨made, -, hwrite⟩ := h
  exact onDisk_of_read (Disk.read_write hwrite)

/-- Saving a graph changes its file only. -/
theorem Saves.changes {g : Graph} {cwd : Place} {disk disk' : Disk}
    (h : Saves path g cwd disk disk') :
    Disk.Changes [Disk.absolute cwd path] disk disk' := by
  obtain ⟨made, hmade, hwrite⟩ := h
  exact (Disk.expands_makeDirectories hmade).changes.trans (Disk.changes_write hwrite)

/-- Where a graph was saved another one can be saved. -/
theorem Saves.again {g : Graph} {cwd : Place} {disk disk' : Disk} (h : Saves path g cwd disk disk')
    (other : Graph) : ∃ disk'', Saves path other cwd disk' disk'' := by
  obtain ⟨made, hmade, hwrite⟩ := h
  obtain ⟨disk'', hagain⟩ := Disk.write_again hwrite (.graph other)
  exact ⟨disk'', disk', Disk.makeDirectories_again hmade (Disk.grows_write hwrite), hagain⟩

/-- Saving puts the open graph into the file; if it fails, at most directories are new. -/
theorem wp_save :
    (save path).wp
      (fun _ w' => ∃ disk events,
        Saves path w.openGraph w.cwd w.disk disk ∧ w' = { w with disk, events })
      (fun _ w' => ∃ disk events, w.disk.Expands disk ∧
        w' = { w with disk, events }) outside w := by
  simp only [save, Build.makeDirectories, Build.wp_bind, Build.wp_askDisk, Build.wp_get,
    Build.wp_changeDisk]
  have hsame := Disk.Expands.refl w.disk
  refine ⟨fun _ => ⟨fun made hmade => ⟨fun _ => ⟨fun disk hdisk => ?_, fun _ _ => ?_⟩,
    fun _ _ => ?_⟩, fun _ _ => ?_⟩, fun _ _ => ?_⟩
  · exact ⟨disk, _, ⟨made, hmade, hdisk⟩, rfl⟩
  · exact ⟨made, _, Disk.expands_makeDirectories hmade, rfl⟩
  · exact ⟨made, _, Disk.expands_makeDirectories hmade, rfl⟩
  · exact ⟨w.disk, _, hsame, rfl⟩
  · exact ⟨w.disk, _, hsame, rfl⟩

theorem close_file (hpath : path ≠ "") : (file (some path)).close = save path := by
  simp [close, hpath]

/-! ### Operations on the open graph -/

theorem wp_mergeBatch {g h : Graph} {entities : List Enriched}
    (hm : Graph.Merges project g entities h) (hopen : w.openGraph = h) (batch : List Enriched) :
    (mergeBatch project batch).wp
      (fun _ w' => ∃ h', Graph.Merges project g (entities ++ batch) h' ∧ Opens h' w w')
      (fun _ w' => Opens h w w') outside w := by
  subst hopen
  simp only [mergeBatch, Build.wp_bind, Build.wp_attempt, Build.wp_stamp, Build.wp_modify]
  exact ⟨fun _ => ⟨_, hm.mergeEntities _ batch, _, rfl⟩, fun _ _ => ⟨_, rfl⟩⟩

/-- Merging entities merges them all, or a first part of them. -/
theorem wp_upsertEntities {g : Graph} (hopen : w.openGraph = g) (file? : Option String)
    (entities : List Enriched) :
    (upsertEntities (file file?) project entities).wp
      (fun _ w' => ∃ h, Graph.Merges project g entities h ∧ Opens h w w')
      (fun _ w' => ∃ merged h, merged <+: entities ∧ Graph.Merges project g merged h ∧ Opens h w w')
      outside w := by
  simp only [upsertEntities, Build.wp_bind, Build.wp_pure]
  have hstart : ∃ h, Graph.Merges project g
      (List.flatMap Prod.fst ([] : List (List Enriched × Nat))) h ∧
      Opens h w w := ⟨g, .nil, w.events, by rw [← hopen]⟩
  refine Build.wp_mono (Build.wp_forM
    (fun before w' => ∃ h, Graph.Merges project g (before.flatMap Prod.fst) h ∧ Opens h w w')
    (fun before item after hitems w' hw' => ?_) hstart) (fun _ w' hw' => ?_) fun _ _ h => h
  · obtain ⟨h, hm, hw'⟩ := hw'
    have hopen' : w'.openGraph = h := by
      obtain ⟨events, rfl⟩ := hw'
      rfl
    rw [Build.wp_bind]
    refine Build.wp_mono (wp_mergeBatch hm hopen' item.1)
      (fun _ w'' hw'' => ?_) fun _ w'' hw'' => ?_
    · obtain ⟨h', hm', hw''⟩ := hw''
      rw [Build.wp_log, List.flatMap_append, List.flatMap_singleton]
      exact ⟨h', hm', (hw'.trans hw'').noted _⟩
    · refine ⟨before.flatMap Prod.fst, h, ?_, hm, hw'.trans hw''⟩
      rw [← Batch.flatMap_counted batchSize entities, hitems, List.flatMap_append]
      exact List.prefix_append _ _
  · rw [Batch.flatMap_counted] at hw'
    exact hw'

/-- The relationships of known type, in order. -/
def knownOf (relationships : List Relationship) : List Relationship :=
  relationships.filter fun r => Relationship.isKnownType r.type

/-- Leaving out the relationships of unknown type changes nothing but the log. -/
theorem wp_knownOnly {done : List Relationship → World → Prop} {failed : Failure → World → Prop}
    {relationships : List Relationship}
    (h : ∀ events, done (knownOf relationships) { w with events }) :
    (knownOnly relationships).wp done failed outside w := by
  induction relationships generalizing done w with
  | nil => exact h w.events
  | cons r rest ih =>
    rw [knownOnly]
    by_cases hknown : Relationship.isKnownType r.type = true
    · have hcons : knownOf (r :: rest) = r :: knownOf rest := List.filter_cons_of_pos hknown
      simp only [hknown, if_true, Build.wp_bind, Build.wp_pure]
      exact ih fun events => hcons ▸ h events
    · have hcons : knownOf (r :: rest) = knownOf rest := List.filter_cons_of_neg hknown
      simp only [hknown, Bool.false_eq_true, if_false, Build.wp_bind, Build.wp_log]
      exact ih fun events => hcons ▸ h events

/-- Merging relationships merges those of known type together, or none. -/
theorem wp_upsertRelationships {g : Graph} (hopen : w.openGraph = g) (file? : Option String)
    (relationships : List Relationship) :
    (upsertRelationships (file file?) project relationships).wp
      (fun _ w' => ∃ stamp,
        Opens (g.mergeRelationships stamp project (knownOf relationships)).1 w w')
      (fun _ w' => Opens g w w') outside w := by
  subst hopen
  simp only [upsertRelationships, Build.wp_bind]
  refine wp_knownOnly fun events => ?_
  simp only [mergeOpen, Build.wp_bind, Build.wp_attempt, Build.wp_stamp, Build.wp_get,
    Build.wp_set, Build.wp_pure]
  exact ⟨fun _ => ⟨_, _, rfl⟩, fun _ _ => ⟨_, rfl⟩⟩

/-- Pruning removes the stale nodes and answers their ids, or is refused. -/
theorem wp_prune {g : Graph} (hopen : w.openGraph = g) (file? : Option String)
    (current : List String) (scope : Option (List String)) :
    (prune (file file?) project current scope).wp
      (fun gone w' => gone = (g.prune project current scope).2 ∧
        Opens (g.prune project current scope).1 w w')
      (fun _ w' => Opens g w w') outside w := by
  subst hopen
  simp only [prune, Build.wp_bind, Build.wp_attempt, Build.wp_get, Build.wp_set, Build.wp_log,
    Build.wp_pure]
  exact ⟨fun _ => ⟨trivial, _, rfl⟩, fun _ _ => ⟨_, rfl⟩⟩

end GraphStore

end RepoGraph
