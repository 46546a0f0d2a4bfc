import RepoGraph.Proofs.Twin.Staging
import RepoGraph.Proofs.Twin.Stores

/-!
# Two runs that fill the stores

Two runs of the third stage that find the same output of the second one, and graphs and collections
that are the same for the project, leave graphs and collections that are the same for it.

Main statement: `Populating.twin_run`.
-/

namespace RepoGraph

open Build (Twin Keeps)
open Staging (Notes graphAt)

variable {related : List Event → List Event → Prop} {outside outside' : Outside} {w w' : World}
  {staging project : String}

/-! ### Opening and closing -/

namespace GraphStore

/-- The graph of a staging area that is reached is opened, unless the disk is at fault. -/
theorem wp_openStore_disk (hwrites : outside.Writes) (hholds : Staging.HoldsGraph staging w)
    (hreached : w.disk.IsReached w.cwd staging) :
    (file (some (Staging.graphPath staging))).openStore.wp
      (fun _ w' => Build.DiskOnly w w' ∧ Opens (graphAt staging w) w w') (fun f _ => f.IsDisk)
      outside w := by
  have hheld := Staging.held_eq_graphAt hreached
  have hdisk : (file (some (Staging.graphPath staging))).openStore.wp
      (fun _ w' => Build.DiskOnly w w') (fun f _ => f.IsDisk) outside w := by
    simp only [openStore, Build.wp_bind, Build.wp_askDisk, Build.wp_ite, Build.wp_modify,
      Build.wp_readContent]
    split
    · refine ⟨fun _ => ⟨fun content hread => ?_, fun fault _ => ⟨fault, rfl⟩⟩, fun f hf => ?_⟩
      · obtain ⟨g, rfl⟩ := hholds content (Disk.fileAt_of_read hread)
        exact .one rfl
      · rw [hwrites] at hf
        cases hf
    · exact ⟨[], rfl, List.forall_mem_nil _⟩
  have hopens := Build.wp_and_done hdisk (wp_openStore (Populating.graphPath_ne_empty staging))
  rwa [hheld] at hopens

/-- Saving the graphs changes nothing but the disk, and fails only there. -/
theorem wp_save_disk (hwrites : outside.Writes) (path : String) (w : World) :
    (save path).wp (fun _ w' => Build.DiskOnly w w' ∧
      ∃ disk events, Saves path w.openGraph w.cwd w.disk disk ∧ w' = { w with disk, events })
      (fun f _ => f.IsDisk) outside w := by
  refine Build.wp_and_done ?_ wp_save
  simp only [save, Build.wp_bind, Build.wp_askDisk]
  refine Build.wp_mono (Build.wp_makeDirectories_disk hwrites _) (fun _ w₁ hw₁ => ?_) fun _ _ h => h
  rw [Build.wp_get, Build.wp_changeDisk_of_writes hwrites]
  exact ⟨fun disk _ => hw₁.trans (.one rfl), fun fault _ => ⟨fault, rfl⟩⟩

end GraphStore

/-- Two worlds with the same project of which each has saved the graph of a staging area. -/
theorem SameProject.of_saves {disk disk' : Disk} {events events' : List Event}
    (h : OpenStores project w w')
    (hsaves : GraphStore.Saves (Staging.graphPath staging) w.openGraph w.cwd w.disk disk)
    (hsaves' : GraphStore.Saves (Staging.graphPath staging) w'.openGraph w'.cwd w'.disk disk') :
    SameProject staging project { w with disk, events }
      { w' with disk := disk', events := events' } := by
  have hgraph : graphAt staging { w with disk, events } = w.openGraph :=
    Staging.graphAt_of_saves rfl rfl hsaves
  have hgraph' : graphAt staging { w' with disk := disk', events := events' } = w'.openGraph :=
    Staging.graphAt_of_saves rfl rfl hsaves'
  have hholds {w : World} {disk : Disk} {events : List Event}
      (hsaves : GraphStore.Saves (Staging.graphPath staging) w.openGraph w.cwd w.disk disk) :
      Staging.HoldsGraph staging { w with disk, events } := by
    obtain ⟨made, -, hwrite⟩ := hsaves
    intro content hcontent
    rw [Disk.fileAt_write hwrite] at hcontent
    exact ⟨w.openGraph, (Option.some.inj hcontent).symm⟩
  refine ⟨h.cwd_eq, ?_, h.same.points, hholds hsaves, hholds hsaves'⟩
  rw [hgraph, hgraph']
  exact h.same.graph

namespace Populating

variable {config : BuildConfig} {v : VectorStore}

section Alike

variable (halike : Outside.Alike related outside outside')

include halike

/-- Closing the stores saves the graphs, unless the disk of one run is at fault. -/
theorem twin_closing {failed : World → World → Prop}
    (hfailed : ∀ v v', Tied related (SameProject staging project) v v' → failed v v')
    (hw : Tied related (OpenStores project) w w') :
    Twin (do (GraphStore.file (some (Staging.graphPath staging))).close; v.close)
      (do (GraphStore.file (some (Staging.graphPath staging))).close; v.close) Failure.IsDisk
      (fun _ => Tied related (SameProject staging project)) failed outside outside' w w' := by
  -- the vectors are let go of after that, which is nothing that the project is read from
  have hclose : Keeps (Tied related fun v v' => SameProject staging project v v' ∧
      v'.hasVectorClient = v.hasVectorClient) outside outside' v.close := by
    refine VectorStore.keeps_close halike v (fun _ _ h => h.2) fun u u' h => ⟨?_, rfl⟩
    exact ⟨h.1.cwd_eq, h.1.graph, h.1.points, h.1.holds, h.1.holds'⟩
  obtain ⟨hpast, hopen⟩ := hw
  rw [OpenStores.still_iff] at hopen
  rw [GraphStore.close_file (graphPath_ne_empty staging)]
  have hsaved : Twin (GraphStore.save (Staging.graphPath staging))
      (GraphStore.save (Staging.graphPath staging)) Failure.IsDisk
      (fun _ => Tied related fun v v' => SameProject staging project v v' ∧
        v'.hasVectorClient = v.hasVectorClient) failed outside outside' w w' := by
    refine Build.twin_of_wp (GraphStore.wp_save_disk halike.writes _ w)
      (GraphStore.wp_save_disk halike.writes' _ w') ?_
    rintro ⟨⟩ ⟨⟩ u u' ⟨honly, disk, events, hsaves, rfl⟩ ⟨honly', disk', events', hsaves', rfl⟩
    have hsame : SameProject staging project { w with disk, events }
        { w' with disk := disk', events := events' } := SameProject.of_saves hopen hsaves hsaves'
    exact ⟨rfl, halike.diskOnly hpast honly honly', SameProject.still_iff.2 hsame, hopen.client_eq⟩
  refine Build.twin_bind (hsaved.mono (fun _ h => h) (fun _ u u' hu => ?_) fun _ _ h => h)
  exact (hclose u u' hu).mono (fun _ => False.elim) (fun _ _ _ h => ⟨h.1, h.2.1⟩) fun _ _ h =>
    hfailed _ _ ⟨h.1, h.2.1⟩

/-- Opening the stores of a staging area that is reached opens what is the same for the project,
unless the disk of one run is at fault. -/
theorem twin_openGraph {failed : World → World → Prop}
    (hw : Tied related (fun u u' => SameProject staging project u u' ∧
      u.disk.IsReached u.cwd staging ∧ u'.disk.IsReached u'.cwd staging) w w') :
    Twin (GraphStore.file (some (Staging.graphPath staging))).openStore
      (GraphStore.file (some (Staging.graphPath staging))).openStore Failure.IsDisk
      (fun _ => Tied related fun u u' => u'.cwd = u.cwd ∧ GraphStore.SameFor project u u') failed
      outside outside' w w' := by
  obtain ⟨hpast, hsame, hreached, hreached'⟩ := hw
  rw [SameProject.still_iff] at hsame
  refine Build.twin_of_wp (GraphStore.wp_openStore_disk halike.writes hsame.holds hreached)
    (GraphStore.wp_openStore_disk halike.writes' hsame.holds' hreached') ?_
  rintro ⟨⟩ ⟨⟩ u u' ⟨honly, events, rfl⟩ ⟨honly', events', rfl⟩
  exact ⟨rfl, halike.diskOnly hpast honly honly', hsame.cwd_eq, hsame.graph, hsame.points⟩

omit halike in
theorem twin_openVectors (hshared : v.isShared = false) (hw : Tied related (fun u u' =>
    u'.cwd = u.cwd ∧ GraphStore.SameFor project u u') w w') {failed : World → World → Prop} :
    Twin v.openStore v.openStore Failure.IsDisk (fun _ => Tied related (OpenStores project)) failed
      outside outside' w w' := by
  obtain ⟨hpast, hcwd, hsame⟩ := hw
  rw [VectorStore.openStore, hshared]
  exact Build.twin_modify ⟨hpast, hcwd, ⟨hsame.graph, hsame.points⟩, rfl⟩

/-! ### The stage -/

theorem keeps_prune (hv : v.project = config.project) (file? : Option String)
    (output : EnrichOutput) :
    Keeps (Tied related (OpenStores config.project)) outside outside'
      (prune (.file file?) v config output) := by
  rw [prune]
  refine .ite (fun _ => ?_) fun _ => .pure _
  refine (Keeps.take _ _).bind fun paths => ?_
  refine (GraphStore.keeps_prune halike file? _ paths).bind fun gone => ?_
  refine .ite (fun _ => ?_) fun _ => .pure _
  exact (VectorStore.keeps_deleteEntities halike hv gone).bind fun _ => .pure _

theorem keeps_fill (hv : v.project = config.project) (file? : Option String)
    (output : EnrichOutput) :
    Keeps (Tied related (OpenStores config.project)) outside outside'
      (fill (.file file?) v config output) := by
  rw [fill]
  refine (Keeps.pure ()).bind fun _ => (VectorStore.keeps_ensure halike hv).bind fun _ => ?_
  refine (GraphStore.keeps_upsertEntities halike file? _).bind fun _ => ?_
  refine (GraphStore.keeps_upsertRelationships halike file? _).bind fun _ => ?_
  refine (keeps_prune halike hv file? output).bind fun pruned => ?_
  exact (VectorStore.keeps_upsertEntities halike hv _).bind fun _ => .pure _

/-- Two worlds have all in common that the third stage reads. -/
structure Alike (config : BuildConfig) (w w' : World) : Prop where
  project : SameProject config.stagingPath config.project w w'
  read_eq : w'.disk.read w'.cwd (Staging.artifactPath config.stagingPath Enriching.stage) =
    w.disk.read w.cwd (Staging.artifactPath config.stagingPath Enriching.stage)

/-- Two runs that find the same output and the same of their project leave the same of it, unless
the disk of one of them is at fault. -/
theorem twin_run (hv : v.project = config.project) (hshared : v.isShared = false)
    (hw : Tied related (Alike config) w w') :
    Twin (run (.ok (.file (some (Staging.graphPath config.stagingPath)))) v config)
      (run (.ok (.file (some (Staging.graphPath config.stagingPath)))) v config) Failure.IsDisk
      (fun _ => Tied related (SameProject config.stagingPath config.project))
      (Tied related (SameProject config.stagingPath config.project)) outside outside' w w' := by
  have hfailed (u u' : World) (hu : Tied related (Alike config) u u') :
      Tied related (SameProject config.stagingPath config.project) u u' := ⟨hu.1, hu.2.project⟩
  rw [run]
  refine Build.twin_bind ((Build.keeps_log halike _ _ _).twin hw (fun _ w₁ w₁' hw₁ => ?_) hfailed)
  refine Build.twin_bind ((Build.keeps_now halike).twin hw₁ (fun start w₂ w₂' hw₂ => ?_) hfailed)
  refine Build.twin_bind ((((Staging.keeps_read halike fun _ _ hu => hu.read_eq).twin hw₂
    (fun _ _ _ hu => hu) hfailed).and_wp (Build.wp_mono (Staging.wp_read _ _) (fun _ _ h => h)
      fun _ _ _ => trivial)).mono (fun _ h => h) (fun staged w₃ w₃' hw₃ => ?_) fun _ _ h => h)
  obtain ⟨⟨hheld, events, rfl⟩, hw₃⟩ := hw₃
  -- where an output is held, the staging area is reached
  have hheld' : Staging.held config.stagingPath Enriching.stage w₃'.disk w₃'.cwd = some staged := by
    have hread : w₃'.disk.read w₃'.cwd (Staging.artifactPath config.stagingPath Enriching.stage) =
      w₂.disk.read w₂.cwd (Staging.artifactPath config.stagingPath Enriching.stage) := hw₃.2.read_eq
    rw [Staging.held, hread]
    exact hheld
  have hreached : Tied related (fun u u' => SameProject config.stagingPath config.project u u' ∧
      u.disk.IsReached u.cwd config.stagingPath ∧ u'.disk.IsReached u'.cwd config.stagingPath)
      { w₂ with events } w₃' :=
    ⟨hw₃.1, hw₃.2.project, Staging.home_of_held isName_enrich hheld,
      Staging.home_of_held isName_enrich hheld'⟩
  refine Build.twin_bind ((Keeps.take _ _).twin hreached (fun output w₄ w₄' hw₄ => ?_)
    fun _ _ h => ⟨h.1, h.2.1⟩)
  refine Build.twin_bind (Build.twin_pure ?_)
  refine Build.twin_bind ((twin_openGraph halike hw₄).mono (fun _ h => h) (fun _ w₅ w₅' hw₅ => ?_)
    fun _ _ h => h)
  refine Build.twin_bind ((twin_openVectors hshared hw₅).mono (fun _ h => h)
    (fun _ w₆ w₆' hw₆ => ?_) fun _ _ h => h)
  -- the stores are closed in the end, whether filling them went well or not
  refine Build.twin_bind (Build.twin_ensuring ((keeps_fill halike hv _ output).twin hw₆
    (fun done w₇ w₇' hw₇ => ?_) fun w₇ w₇' hw₇ => ?_))
  · obtain ⟨pruned, points⟩ := done
    refine (twin_closing halike (fun _ _ h => ?_) hw₇).mono (fun _ h => h) (fun _ w₈ w₈' hw₈ => ?_)
      fun _ _ h => h
    · exact h
    · exact (Keeps.bind (Build.keeps_now halike) fun finish =>
        (Build.keeps_log halike _ _ _).bind fun _ => .pure _).twin hw₈ (fun _ _ _ h => h)
          fun _ _ h => h
  · exact twin_closing halike (fun _ _ h => h) hw₇

end Alike

end Populating

/-- Two runs of the third stage as the settings set it up, the graph being kept in a file. -/
theorem Settings.twin_populating {s : Settings} (hbackend : s.graphBackend = "networkx")
    (halike : Outside.Alike related outside outside') {config : BuildConfig}
    (hstaging : config.stagingPath = s.stagingPath)
    (hw : Tied related (Populating.Alike config) w w') :
    Twin (s.populating config) (s.populating config) Failure.IsDisk
      (fun _ => Tied related (SameProject config.stagingPath config.project))
      (Tied related (SameProject config.stagingPath config.project)) outside outside' w w' := by
  rw [Settings.populating, Populating.graphStore_of_file hbackend, ← hstaging]
  exact Populating.twin_run halike rfl rfl hw

end RepoGraph
