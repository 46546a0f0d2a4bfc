import RepoGraph.Proofs.Course.Steps
import RepoGraph.Proofs.Reading.Isolation
import RepoGraph.Proofs.Twin.Staging

/-!
# What a build leaves of other projects

Whatever a build does and wherever it is stopped, it leaves other projects alone: `Confined` says
that from one world to another at most the nodes, the edges and the points of one project have
changed, and that the staging area holds a sound graph again.  The staging area's other files are no
part of a project; any build may change them.

Main statements: `Populating.Reaches.sameIn`, `Stages.wp_perform_confined`.
-/

namespace RepoGraph

open Staging (Alters graphAt)

variable {outside : Outside} {w w' w'' : World} {staging project : String}

/-! ### Filling the stores -/

namespace Populating

open Graph (SameIn)

variable {config : BuildConfig} {output : EnrichOutput} {g h : Graph} {q : String}

/-- Merging an output keeps the graph sound and leaves other projects alone. -/
theorem IsMerged.spares (hm : IsMerged config output g h) (hsound : g.IsSound) :
    h.IsSound ∧ ∀ q, q ≠ config.project → SameIn q g h := by
  obtain ⟨merged, stamp, hmerges, rfl⟩ := hm
  refine ⟨(hsound.of_merges hmerges).mergeRelationships GraphStore.isKnownType_of_mem_knownOf,
    fun q hq => ?_⟩
  exact (SameIn.of_merges hq.symm hmerges).trans (SameIn.mergeRelationships hq.symm _ _)

/-- Removing what is stale does so, too. -/
theorem spares_of_sweep {removed : List String} (hsweep : sweep config output g = .ok (h, removed))
    (hsound : g.IsSound) : h.IsSound ∧ ∀ q, q ≠ config.project → SameIn q g h := by
  rw [sweep] at hsweep
  split at hsweep
  · cases hscope : scope output.metadata with
    | error fault =>
      rw [hscope] at hsweep
      cases hsweep
    | ok paths =>
      rw [hscope] at hsweep
      cases hsweep
      exact ⟨hsound.remove _, fun q hq => SameIn.remove hsound hq.symm fun key hkey =>
        (Graph.mem_stale_iff.1 hkey).1⟩
  · cases hsweep
    exact ⟨hsound, fun q _ => SameIn.refl q g⟩

/-- Wherever filling the stores stops, the graph is sound and other projects are left alone. -/
theorem Reaches.spares {v : VectorStore} {c d : Collection}
    (hreaches : Reaches v config output outside g c h d) (hsound : g.IsSound) :
    h.IsSound ∧ ∀ q, q ≠ config.project → SameIn q g h := by
  have hswept {merged : Graph} {gone : List String} (hm : IsMerged config output g merged)
      (hsweep : sweep config output merged = .ok (h, gone)) :
      h.IsSound ∧ ∀ q, q ≠ config.project → SameIn q g h := by
    obtain ⟨hmerged, hsame⟩ := hm.spares hsound
    obtain ⟨hkept, hsame'⟩ := spares_of_sweep hsweep hmerged
    exact ⟨hkept, fun q hq => (hsame q hq).trans (hsame' q hq)⟩
  cases hreaches with
  | entities hpart hm => exact ⟨hsound.of_merges hm, fun q hq => SameIn.of_merges hq.symm hm⟩
  | relationships hm => exact hm.spares hsound
  | stale hm hsweep => exact hswept hm hsweep
  | points hm hsweep => exact hswept hm hsweep

end Populating

/-! ### Whole tasks -/

/-- Whether the graph of a staging area is sound, if it holds one. -/
structure Staging.HoldsSound (staging : String) (w : World) : Prop where
  holds : HoldsGraph staging w
  isSound : (graphAt staging w).IsSound

/-- From one world to another nothing has changed of other projects, and the graph of the staging
area is sound again. -/
structure Confined (staging project : String) (w w' : World) : Prop where
  cwd_eq : w'.cwd = w.cwd
  sound : Staging.HoldsSound staging w'
  graph : ∀ q, q ≠ project → Graph.SameIn q (graphAt staging w) (graphAt staging w')
  points : ∀ v : VectorStore, v.project ≠ project →
    w'.collections.get? v.collection = w.collections.get? v.collection

namespace Confined

theorem trans (h : Confined staging project w w') (h' : Confined staging project w' w'') :
    Confined staging project w w'' where
  cwd_eq := h'.cwd_eq.trans h.cwd_eq
  sound := h'.sound
  graph q hq := (h.graph q hq).trans (h'.graph q hq)
  points v hv := (h'.points v hv).trans (h.points v hv)

/-- The graph's file is as it was. -/
theorem of_fileAt_eq (hsound : Staging.HoldsSound staging w) (hcwd : w'.cwd = w.cwd)
    (hfile : w'.disk.fileAt w.cwd (Staging.graphPath staging) =
      w.disk.fileAt w.cwd (Staging.graphPath staging))
    (hpoints : ∀ v : VectorStore, v.project ≠ project →
      w'.collections.get? v.collection = w.collections.get? v.collection) :
    Confined staging project w w' := by
  have hgraph : graphAt staging w' = graphAt staging w := by rw [graphAt, graphAt, hcwd, hfile]
  refine ⟨hcwd, ⟨fun content hcontent => ?_, hgraph ▸ hsound.isSound⟩,
    fun q _ => hgraph ▸ Graph.SameIn.refl q _, hpoints⟩
  rw [hcwd, hfile] at hcontent
  exact hsound.holds content hcontent

/-- A change of other files than the graph's. -/
theorem of_alters {places : List Place} (hsound : Staging.HoldsSound staging w)
    (h : Alters places w w') (hplace : Disk.absolute w.cwd (Staging.graphPath staging) ∉ places) :
    Confined staging project w w' := by
  refine of_fileAt_eq hsound h.cwd_eq (h.changes.fileAt_eq hplace) fun v _ => ?_
  obtain ⟨disk, events, -, rfl⟩ := h
  rfl

/-- A graph was saved that is sound and the same for other projects. -/
theorem of_saves {g : Graph} (hcwd : w'.cwd = w.cwd)
    (hsaves : GraphStore.Saves (Staging.graphPath staging) g w.cwd w.disk w'.disk)
    (hg : g.IsSound ∧ ∀ q, q ≠ project → Graph.SameIn q (graphAt staging w) g)
    (hpoints : ∀ v : VectorStore, v.project ≠ project →
      w'.collections.get? v.collection = w.collections.get? v.collection) :
    Confined staging project w w' := by
  have hgraph : graphAt staging w' = g := Staging.graphAt_of_saves hcwd rfl hsaves
  refine ⟨hcwd, ⟨fun content hcontent => ?_, hgraph ▸ hg.1⟩,
    fun q hq => hgraph ▸ hg.2 q hq, hpoints⟩
  obtain ⟨made, -, hwrite⟩ := hsaves
  rw [hcwd, Disk.fileAt_write hwrite] at hcontent
  exact ⟨g, (Option.some.inj hcontent).symm⟩

/-- Whatever becomes of the service. -/
theorem serviced (h : Confined staging project w w') (service : Service) :
    Confined staging project w { w' with service } :=
  ⟨h.cwd_eq, ⟨h.sound.holds, h.sound.isSound⟩, h.graph, h.points⟩

end Confined

namespace Settings

variable {s : Settings} {config : BuildConfig} {r : Request}

/-- Filling the stores is confined to the project. -/
theorem wp_populating_confined (hbackend : s.graphBackend = "networkx")
    (hstaging : config.stagingPath = s.stagingPath) (hsound : Staging.HoldsSound s.stagingPath w) :
    (s.populating config).wp
      (fun _ w' => Confined s.stagingPath config.project w w' ∧ w'.service = w.service)
      (fun _ w' => Confined s.stagingPath config.project w w' ∧
        w'.service = w.service) outside w := by
  -- the collections of other projects have other names
  have hother {v : VectorStore} {collections : Collections} (hne : v.project ≠ config.project)
      (hsame : ∀ name, name ≠ (s.vectorStore config.project).collection →
        collections.get? name = w.collections.get? name) :
      collections.get? v.collection = w.collections.get? v.collection :=
    hsame _ fun heq => hne (VectorStore.collection_inj heq)
  have hopened {held : EnrichOutput} (hheld : Staging.heldOutput Enriched.ofJson config.stagingPath
      Enriching.stage w.disk w.cwd = some held) :
      GraphStore.held (Staging.graphPath s.stagingPath) w = graphAt s.stagingPath w :=
    Staging.held_eq_graphAt (hstaging ▸ Staging.home_of_heldOutput Populating.isName_enrich hheld)
  rw [populating, Populating.graphStore_of_file hbackend]
  refine Build.wp_mono (Populating.wp_run (Populating.graphPath_ne_empty _))
    (fun result w₁ hw₁ => ?_) fun _ w₁ hw₁ => ?_
  · obtain ⟨output, hheld, g, d, gone, disk, hcompletes, -, hsaves, collections, client,
        events, rfl, -,
      hsame⟩ := hw₁
    have hreaches : Populating.Reaches (s.vectorStore config.project) config output outside
        (graphAt s.stagingPath w) _ g d := hopened hheld ▸ hcompletes.reaches
    exact ⟨.of_saves rfl hsaves (hreaches.spares hsound.isSound) fun v hne => hother hne hsame, rfl⟩
  · obtain ⟨opened, disk, d, ⟨collections, client, events, rfl, -, hsame⟩, hstores⟩ := hw₁
    -- a stage that fails has left the graph, has saved it, or was stopped at making directories
    rcases hstores with ⟨-, rfl⟩ | ⟨output, g, hheld, hreaches, hsaves | hexpands⟩
    · exact ⟨.of_fileAt_eq hsound rfl rfl fun v hne => hother hne hsame, rfl⟩
    · rw [hopened hheld] at hreaches
      exact ⟨.of_saves rfl hsaves (hreaches.spares hsound.isSound)
        fun v hne => hother hne hsame, rfl⟩
    · have hchanges : Disk.Changes [] w.disk disk := hexpands.changes
      exact ⟨.of_fileAt_eq hsound rfl (hchanges.fileAt_eq List.not_mem_nil)
        fun v hne => hother hne hsame, rfl⟩

/-- A task of a build is confined to the project, wherever it is stopped. -/
theorem wp_perform_confined (hbackend : s.graphBackend = "networkx")
    (hsound : Staging.HoldsSound s.stagingPath w) (task : Task) :
    (s.stages.perform (s.configOf r) r task).wp
      (fun _ w' => Confined s.stagingPath (s.configOf r).project w w' ∧ w'.service = w.service)
      (fun _ w' => Confined s.stagingPath (s.configOf r).project w w' ∧ w'.service = w.service)
      outside w := by
  have hnoted (events : List Event) : Staging.HoldsSound s.stagingPath { w with events } :=
    ⟨hsound.holds, hsound.isSound⟩
  have hquiet (events : List Event) :
      Confined s.stagingPath (s.configOf r).project w { w with events } :=
    .of_fileAt_eq hsound rfl rfl fun _ _ => rfl
  -- a stage that leaves the file of the graph alone changes nothing of any project
  have hfile {places : List Place} {events : List Event} {w' : World}
      (h : Alters places { w with events } w')
      (hplace : Disk.absolute w.cwd (Staging.graphPath s.stagingPath) ∉ places) :
      Confined s.stagingPath (s.configOf r).project w w' ∧ w'.service = w.service :=
    ⟨(hquiet events).trans (.of_alters (hnoted events) h hplace), h.service_eq⟩
  cases task with
  | sync =>
    have hw (w' : World) (h : Alters [] w w') :
        Confined s.stagingPath (s.configOf r).project w w' ∧ w'.service = w.service :=
      ⟨.of_alters hsound h List.not_mem_nil, h.service_eq⟩
    exact Build.wp_mono Stages.wp_sync (fun _ => hw) fun _ => hw
  | parse =>
    rw [Stages.perform]
    refine Stages.wp_timed (fun events => ⟨hquiet events, rfl⟩) fun events => ?_
    have hplace := Staging.graphPath_not_written w.cwd s.stagingPath
    exact Build.wp_mono Reading.wp_run_alters (fun _ _ h => hfile h hplace) fun _ _ h =>
      hfile h hplace
  | enrich =>
    rw [Stages.perform]
    refine Stages.wp_timed (fun events => ⟨hquiet events, rfl⟩) fun events => ?_
    have hplace := (Staging.graphPath_not_mem w.cwd s.stagingPath Enriching.stage).1
    refine Build.wp_mono wp_enriching_entity (fun output w' h => ?_) fun _ w' h => ?_
    · obtain ⟨input, -, -, hleaves⟩ := h
      exact hfile hleaves.alters hplace
    · exact hfile h fun hmem => hplace (List.mem_of_mem_head? (List.mem_singleton.1 hmem ▸ rfl))
  | populate =>
    rw [Stages.perform]
    refine Stages.wp_timed (fun events => ⟨hquiet events, rfl⟩) fun events => ?_
    have hw (w' : World) : Confined s.stagingPath (s.configOf r).project { w with events } w' ∧
        w'.service = w.service → Confined s.stagingPath (s.configOf r).project w w' ∧
          w'.service = w.service := fun h => ⟨(hquiet events).trans h.1, h.2⟩
    exact Build.wp_mono (wp_populating_confined hbackend rfl (hnoted events))
      (fun _ => hw) fun _ => hw

end Settings

end RepoGraph
