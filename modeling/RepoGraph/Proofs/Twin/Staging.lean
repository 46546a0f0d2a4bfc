import RepoGraph.Proofs.Course.Standing
import RepoGraph.Proofs.Stores.Scope
import RepoGraph.Proofs.Twin.Runs

/-!
# What two runs have in common

`SameProject` is what two worlds have in common of a project: its nodes and edges in the graph that
the staging area holds, and its points.  The staging area itself is shared by all projects, and what
it holds besides the graph is not compared: a stage that reads it in two runs needs that it finds
the same file there.  `Staging.SharesOutput` says so of a stage's output; two runs that write the
same output share it.

Where nothing is refused on the disk, a step that changes it fails with a fault of the disk only.
Such a failure is excused.

Main statements: `SameProject.alters`, `Staging.twin_write`, `Staging.keeps_read`.
-/

namespace RepoGraph

open Build (Twin Keeps)
open Staging (Alters Notes graphAt)

/-! ### Faults of the disk -/

/-- Whether a failure is a fault of the disk. -/
def Failure.IsDisk (f : Failure) : Prop := ∃ fault, f = .disk fault

/-- Whether nothing is refused on the disk. -/
def Outside.Writes (outside : Outside) : Prop :=
  ∀ past step, outside.refuses past (.disk step) = none

namespace Build

variable {outside : Outside} {w w' w'' : World}

/-- What was done from one world to another was done on the disk. -/
def DiskOnly (w w' : World) : Prop :=
  ∃ events, w'.events = events ++ w.events ∧ ∀ event ∈ events, ∃ step, event = .disk step

theorem DiskOnly.refl (w : World) : DiskOnly w w := ⟨[], rfl, fun _ h => (nomatch h)⟩

theorem DiskOnly.trans (h : DiskOnly w w') (h' : DiskOnly w' w'') : DiskOnly w w'' := by
  obtain ⟨events, heq, hdisk⟩ := h
  obtain ⟨events', heq', hdisk'⟩ := h'
  refine ⟨events' ++ events, by rw [heq', heq, List.append_assoc], fun event hevent => ?_⟩
  exact (List.mem_append.1 hevent).elim (hdisk' event) (hdisk event)

/-- A step on the disk. -/
theorem DiskOnly.one {step : DiskStep} (h : w'.events = .disk step :: w.events) : DiskOnly w w' :=
  ⟨[.disk step], h, fun _ hevent => ⟨step, List.mem_singleton.1 hevent⟩⟩

section Writing

variable (hwrites : outside.Writes)

include hwrites

theorem wp_changeDisk_of_writes {done : Unit → World → Prop} {failed : Failure → World → Prop}
    (step : DiskStep) (change : Disk → Place → Except DiskFault Disk) :
    (changeDisk step change).wp done failed outside w ↔
      (∀ disk, change w.disk w.cwd = .ok disk →
        done () { w with disk, events := .disk step :: w.events }) ∧
      ∀ fault, change w.disk w.cwd = .error fault →
        failed (.disk fault) { w with events := .disk step :: w.events } := by
  rw [wp_changeDisk, hwrites]
  simp

theorem wp_makeDirectories_disk (path : String) :
    (makeDirectories path).wp (fun _ w' => DiskOnly w w') (fun f _ => f.IsDisk) outside w := by
  rw [makeDirectories, wp_changeDisk_of_writes hwrites]
  exact ⟨fun _ _ => .one rfl, fun fault _ => ⟨fault, rfl⟩⟩

theorem wp_writeText_disk (path text : String) :
    (writeText path text).wp (fun _ w' => DiskOnly w w') (fun f _ => f.IsDisk) outside w := by
  rw [writeText, wp_bind, wp_changeDisk_of_writes hwrites]
  refine ⟨fun disk _ => ?_, fun fault _ => ⟨fault, rfl⟩⟩
  rw [wp_bind, wp_outcome, wp_attempt]
  refine ⟨fun _ => ?_, fun f hf => ?_⟩
  · rw [wp_bind, wp_get, wp_set]
    exact (DiskOnly.one rfl).trans (.one rfl)
  · rw [hwrites] at hf
    cases hf

end Writing

end Build

open Build (DiskOnly)

/-- Pasts stay related by what either run does on its disk. -/
theorem Outside.Alike.diskOnly {related : List Event → List Event → Prop}
    {outside outside' : Outside}
    (h : Outside.Alike related outside outside') {w w' v v' : World}
    (hw : related w.events w'.events) (hv : DiskOnly w v) (hv' : DiskOnly w' v') :
    related v.events v'.events := by
  obtain ⟨events, heq, hdisk⟩ := hv
  obtain ⟨events', heq', hdisk'⟩ := hv'
  have hleft : related (events ++ w.events) w'.events := by
    clear heq
    induction events with
    | nil => exact hw
    | cons event rest ih =>
      obtain ⟨step, rfl⟩ := hdisk event List.mem_cons_self
      exact h.left _ _ step (ih fun other hother => hdisk other (List.mem_cons_of_mem _ hother))
  rw [heq, heq']
  clear heq'
  induction events' with
  | nil => exact hleft
  | cons event rest ih =>
    obtain ⟨step, rfl⟩ := hdisk' event List.mem_cons_self
    exact h.right _ _ step (ih fun other hother => hdisk' other (List.mem_cons_of_mem _ hother))

namespace Staging

variable {outside : Outside} {w : World}

theorem wp_removeIfThere_disk (hwrites : outside.Writes) (path : String) :
    (removeIfThere path).wp (fun _ w' => DiskOnly w w') (fun f _ => f.IsDisk) outside w := by
  simp only [removeIfThere, Build.wp_bind, Build.wp_askDisk, Build.wp_ite, Build.wp_pure,
    Build.wp_changeDisk_of_writes hwrites]
  split
  · exact ⟨fun _ _ => .one rfl, fun fault _ => ⟨fault, rfl⟩⟩
  · exact .refl w

theorem wp_write_disk (hwrites : outside.Writes) (staging stage : String) (output : Json) :
    (write staging stage output).wp
      (fun path w' => path = artifactPath staging stage ∧ DiskOnly w w') (fun f _ => f.IsDisk)
      outside w := by
  simp only [write, writeImage, Build.wp_bind, Build.wp_ensuring, Build.wp_pure]
  refine Build.wp_mono (Build.wp_makeDirectories_disk hwrites _) (fun _ w₁ hw₁ => ?_) fun _ _ h => h
  refine Build.wp_mono (Build.wp_writeText_disk hwrites _ _) (fun _ w₂ hw₂ => ?_) fun f _ hf => ?_
  · rw [Build.wp_changeDisk_of_writes hwrites]
    refine ⟨fun disk _ => ?_, fun fault _ => ?_⟩
    · refine Build.wp_mono (wp_removeIfThere_disk hwrites _) (fun _ w₃ hw₃ => ⟨trivial, ?_⟩)
        fun _ _ h => h
      exact (hw₁.trans hw₂).trans (.trans (.one rfl) hw₃)
    · exact Build.wp_mono (wp_removeIfThere_disk hwrites _)
        (fun _ _ _ => ⟨fault, rfl⟩) fun _ _ h => h
  · exact Build.wp_mono (wp_removeIfThere_disk hwrites _) (fun _ _ _ => hf) fun _ _ h => h

end Staging

/-! ### What two worlds have in common -/

/-- Whether the file of a staging area's graph holds a graph, if it is there. -/
def Staging.HoldsGraph (staging : String) (w : World) : Prop :=
  ∀ content, w.disk.fileAt w.cwd (graphPath staging) = some content → ∃ g, content = .graph g

/-- Two worlds have the same nodes, edges and points of a project. -/
structure SameProject (staging project : String) (w w' : World) : Prop where
  cwd_eq : w'.cwd = w.cwd
  graph : Graph.SameIn project (graphAt staging w) (graphAt staging w')
  points : ∀ v : VectorStore, v.project = project →
    w'.collections.get? v.collection = w.collections.get? v.collection
  holds : Staging.HoldsGraph staging w
  holds' : Staging.HoldsGraph staging w'

namespace SameProject

variable {staging project : String} {w w' v v' : World} {places places' : List Place}

theorem still_iff :
    SameProject staging project w.still w'.still ↔ SameProject staging project w w' :=
  ⟨fun ⟨hcwd, hgraph, hpoints, hholds, hholds'⟩ => ⟨hcwd, hgraph, hpoints, hholds, hholds'⟩,
    fun ⟨hcwd, hgraph, hpoints, hholds, hholds'⟩ => ⟨hcwd, hgraph, hpoints, hholds, hholds'⟩⟩

theorem holdsGraph_of_alters (hv : Alters places w v)
    (hplace : Disk.absolute w.cwd (Staging.graphPath staging) ∉ places)
    (h : Staging.HoldsGraph staging w) : Staging.HoldsGraph staging v := by
  intro content hcontent
  rw [hv.fileAt_eq hplace] at hcontent
  exact h content hcontent

/-- What changes other files than the graph's keeps what is in common. -/
theorem alters (h : SameProject staging project w w') (hv : Alters places w v)
    (hv' : Alters places' w' v')
    (hplace : Disk.absolute w.cwd (Staging.graphPath staging) ∉ places)
    (hplace' : Disk.absolute w'.cwd (Staging.graphPath staging) ∉ places') :
    SameProject staging project v v' := by
  refine ⟨?_, ?_, ?_, holdsGraph_of_alters hv hplace h.holds,
    holdsGraph_of_alters hv' hplace' h.holds'⟩
  · rw [hv.cwd_eq, hv'.cwd_eq, h.cwd_eq]
  · rw [Staging.graphAt_of_alters hv hplace, Staging.graphAt_of_alters hv' hplace']
    exact h.graph
  · obtain ⟨disk, events, -, rfl⟩ := hv
    obtain ⟨disk', events', -, rfl⟩ := hv'
    exact h.points

end SameProject

/-! ### Writing an output -/

namespace Staging

variable {staging project stage : String} {w w' v v' : World} {places places' : List Place}

/-- Two staging areas hold the same output of a stage. -/
structure Shares (staging stage : String) (w w' : World) : Prop where
  reached : w.disk.IsReached w.cwd (Path.join staging stage)
  reached' : w'.disk.IsReached w'.cwd (Path.join staging stage)
  content : ∃ content, w.disk.fileAt w.cwd (artifactPath staging stage) = some content ∧
    w'.disk.fileAt w'.cwd (artifactPath staging stage) = some content

namespace Shares

/-- The output is read alike. -/
theorem read_eq (h : Shares staging stage w w') :
    w'.disk.read w'.cwd (artifactPath staging stage) =
      w.disk.read w.cwd (artifactPath staging stage) := by
  obtain ⟨content, hcontent, hcontent'⟩ := h.content
  have hread : w.disk.read w.cwd (artifactPath staging stage) = .ok content :=
    (Disk.read_join_iff h.reached isName_output).2 hcontent
  have hread' : w'.disk.read w'.cwd (artifactPath staging stage) = .ok content :=
    (Disk.read_join_iff h.reached' isName_output).2 hcontent'
  rw [hread, hread']

theorem alters (h : Shares staging stage w w') (hv : Alters places w v) (hv' : Alters places' w' v')
    (hplace : Disk.absolute w.cwd (artifactPath staging stage) ∉ places)
    (hplace' : Disk.absolute w'.cwd (artifactPath staging stage) ∉ places') :
    Shares staging stage v v' := by
  obtain ⟨content, hcontent, hcontent'⟩ := h.content
  refine ⟨?_, ?_, content, ?_, ?_⟩
  · rw [hv.cwd_eq]
    exact h.reached.keeps hv.changes.keeps
  · rw [hv'.cwd_eq]
    exact h.reached'.keeps hv'.changes.keeps
  · rw [hv.fileAt_eq hplace, hcontent]
  · rw [hv'.fileAt_eq hplace', hcontent']

end Shares

/-- Two worlds have a project in common, and the output of a stage. -/
structure SharesOutput (staging project stage : String) (w w' : World) : Prop where
  project : SameProject staging project w w'
  output : Shares staging stage w w'

namespace SharesOutput

theorem still_iff :
    SharesOutput staging project stage w.still w'.still ↔ SharesOutput staging project stage w w' :=
  ⟨fun ⟨hproject, houtput⟩ => ⟨SameProject.still_iff.1 hproject, houtput.1, houtput.2, houtput.3⟩,
    fun ⟨hproject, houtput⟩ => ⟨SameProject.still_iff.2 hproject, houtput.1, houtput.2, houtput.3⟩⟩

/-- What keeps a marker keeps what is shared. -/
theorem marks (h : SharesOutput staging project stage w w')
    (hv : Alters [Disk.absolute w.cwd (markerPath staging)] w v)
    (hv' : Alters [Disk.absolute w'.cwd (markerPath staging)] w' v') :
    SharesOutput staging project stage v v' := by
  have hgraph (cwd : Place) : Disk.absolute cwd (graphPath staging) ∉
      [Disk.absolute cwd (markerPath staging)] :=
    fun hmem => (graphPath_not_mem cwd staging "").2 (List.mem_singleton.1 hmem)
  have hartifact (cwd : Place) : Disk.absolute cwd (artifactPath staging stage) ∉
      [Disk.absolute cwd (markerPath staging)] := by
    intro hmem
    have hplaces : Disk.absolute cwd (artifactPath staging stage) ∈
        outputPlaces cwd staging stage :=
      List.mem_cons_of_mem _ List.mem_cons_self
    rw [List.mem_singleton.1 hmem] at hplaces
    exact markerPath_not_mem cwd staging stage hplaces
  exact ⟨h.project.alters hv hv' (hgraph _) (hgraph _),
    h.output.alters hv hv' (hartifact _) (hartifact _)⟩

end SharesOutput

variable {related : List Event → List Event → Prop} {outside outside' : Outside}
  {failed : World → World → Prop}

/-- Two runs that write the same output share it, unless the disk of one of them is at fault. -/
theorem twin_write (halike : Outside.Alike related outside outside')
    (hw : Tied related (SameProject staging project) w w') (output : Json) :
    Twin (write staging stage output) (write staging stage output) Failure.IsDisk
      (fun _ => Tied related (SharesOutput staging project stage)) failed outside
        outside' w w' := by
  obtain ⟨hpast, hsame⟩ := hw
  rw [SameProject.still_iff] at hsame
  have hwrite {outside : Outside} (hwrites : outside.Writes) (w : World) :=
    Build.wp_and_done (wp_write_disk (w := w) hwrites staging stage output)
      (wp_write staging stage output)
  refine Build.twin_of_wp (hwrite halike.writes w) (hwrite halike.writes' w') ?_
  rintro path path' v v' ⟨⟨rfl, hdisk⟩, halters, hfile, hreached⟩
    ⟨⟨rfl, hdisk'⟩, halters', hfile', hreached'⟩
  refine ⟨rfl, halike.diskOnly hpast hdisk hdisk', SharesOutput.still_iff.2
    ⟨?_, ?_, ?_, .text output.pretty, ?_, ?_⟩⟩
  · exact hsame.alters halters halters' (graphPath_not_mem _ _ _).1 (graphPath_not_mem _ _ _).1
  · rw [halters.cwd_eq]
    exact hreached
  · rw [halters'.cwd_eq]
    exact hreached'
  · rw [halters.cwd_eq]
    exact hfile
  · rw [halters'.cwd_eq]
    exact hfile'

/-- The object that the text of a staged output holds. -/
def objectIn (staging stage text : String) : Build Json :=
  match Json.read text with
  | .error f => Build.fail (.unreadableArtifact stage (artifactPath staging stage) (f.message text))
  | .ok (.obj fields) => pure (.obj fields)
  | .ok _ => Build.fail (.artifactForm stage (artifactPath staging stage))

/-- Two runs read an output alike that is the same file for both. -/
theorem keeps_read {state : World → World → Prop} (halike : Outside.Alike related outside outside')
    (h : ∀ v v', state v v' → v'.disk.read v'.cwd (artifactPath staging stage) =
      v.disk.read v.cwd (artifactPath staging stage)) :
    Keeps (Tied related state) outside outside' (read staging stage) := by
  rw [read]
  refine Keeps.bind (Build.keeps_readText halike h).outcome fun answer => ?_
  have hobject (text : String) :
      Keeps (Tied related state) outside outside' (objectIn staging stage text) := by
    rw [objectIn]
    split
    · exact .fail _
    · exact .pure _
    · exact .fail _
  cases answer with
  | ok text => exact Keeps.bind (.pure text) hobject
  | error f => exact Keeps.bind (.fail _) hobject

end Staging

end RepoGraph
