import RepoGraph.Proofs.Incremental
import RepoGraph.Proofs.Handover
import RepoGraph.Service.Working

/-!
# What the staging area and the graph stand at

A build does its tasks one after the other, and each of them advances something else: reading the
repository keeps the revision and stages what was read, enriching stages that enriched, and filling
the stores brings the graph on.  A `Standing` says how far each of them is: the revision that is
kept, what was selected for either artifact, and the trees whose entities the graph may hold.
`Standing.read`, `Standing.enrich`, `Standing.fill` and `Standing.fillPartly` are what the tasks
make of it.

Main statements: `Staged.wp_parse`, `Staged.wp_enrich`, `Staged.wp_populate`.
-/

namespace RepoGraph

open Staging (Alters Notes)
open Source (Tree HasPlainNames Covers IsDiff IsLast)
open Handover (IsHanded)
open Populating (IsMerged Reaches sweep)

/-! ### Standings -/

/-- What was selected for reading: files of a tree, and paths that are gone. -/
structure Selection where
  tree : Tree
  paths : List String
  gone : List String

/-- How far the builds of a project have come. -/
structure Standing where
  /-- The revision that is kept as that of the last build. -/
  marker : Option String
  /-- What the first artifact was read from. -/
  parsed : Option Selection
  /-- What the second artifact was read from. -/
  enriched : Option Selection
  /-- The trees whose entities the graph may hold. -/
  held : Tree → Prop

namespace Selection

/-- What the first stage puts out for a selection. -/
def output (sel : Selection) (config : BuildConfig) (stamp revision : String) : ParseOutput :=
  Reading.outputOf config stamp revision sel.tree (sel.paths, sel.gone)

/-- Whether the graph catches up with a tree once the stores are filled with a selection: the
selection covers the way from all trees that the graph may hold, and nothing is left over in a mode
that removes nothing. -/
def CatchesUp (sel : Selection) (mode : String) (held : Tree → Prop) : Prop :=
  (∀ t, held t → Covers t sel.tree sel.paths sel.gone) ∧
    (mode = Request.incremental ∨
      ∀ t, held t → ∀ path id e, IsLast t path id e → ∃ path' e', IsLast sel.tree path' id e')

end Selection

namespace Standing

/-- Before the first build. -/
def initial : Standing := ⟨none, none, none, (· = fun _ => none)⟩

/-- After the repository was read: a revision is kept, and what was selected is staged. -/
def read (present : String) (sel : Selection) (st : Standing) : Standing :=
  { st with marker := some present, parsed := some sel }

/-- After what was staged first was enriched. -/
def enrich (st : Standing) : Standing := { st with enriched := st.parsed }

/-- After the stores were filled. -/
def fill (mode : String) (st : Standing) : Standing :=
  match st.enriched with
  | none => st
  | some sel => { st with held := fun t => t = sel.tree ∨ st.held t ∧ ¬ sel.CatchesUp mode st.held }

/-- After filling the stores was stopped somewhere. -/
def fillPartly (st : Standing) : Standing :=
  match st.enriched with
  | none => st
  | some sel => { st with held := fun t => t = sel.tree ∨ st.held t }

end Standing

/-! ### The staging area -/

namespace Staging

/-- Whether the marker of a staging area names a revision, or there is none. -/
def IsMarked (staging : String) (w : World) : Option String → Prop
  | none => w.disk.fileAt w.cwd (markerPath staging) = none
  | some revision => revision ≠ "" ∧ w.disk.IsReached w.cwd staging ∧ ∃ stamp,
      w.disk.fileAt w.cwd (markerPath staging) =
        some (.text (Revision.marker revision stamp).pretty)

/-- Whether the first artifact of a staging area was read from a selection, or there is none. -/
def IsParsed (staging : String) (w : World) : Option Selection → Prop
  | none => w.disk.fileAt w.cwd (artifactPath staging Reading.stage) = none
  | some sel => ∃ config stamp revision,
      w.disk.fileAt w.cwd (artifactPath staging Reading.stage) =
        some (.text (ParseOutput.toJson (sel.output config stamp revision)).pretty)

/-- Whether the second artifact of a staging area was read from a selection, or there is none. -/
def IsEnriched (staging : String) (w : World) : Option Selection → Prop
  | none => w.disk.fileAt w.cwd (artifactPath staging Enriching.stage) = none
  | some sel => ∃ config stamp revision output,
      Enriching.IsOutputOf (fun e x => x.entity = e)
        ((sel.output config stamp revision).asRead Entity.asRead) output ∧
      w.disk.fileAt w.cwd (artifactPath staging Enriching.stage) =
        some (.text (EnrichOutput.toJson output).pretty)

variable {staging : String} {w w' : World} {marker : Option String} {sel? : Option Selection}

theorem IsMarked.same (h : IsMarked staging w marker)
    (hfile : w'.disk.fileAt w'.cwd (markerPath staging) = w.disk.fileAt w.cwd (markerPath staging))
    (hreached : w.disk.IsReached w.cwd staging → w'.disk.IsReached w'.cwd staging) :
    IsMarked staging w' marker := by
  cases marker with
  | none => exact hfile.trans h
  | some revision =>
    obtain ⟨hne, hreach, stamp, hmarker⟩ := h
    exact ⟨hne, hreached hreach, stamp, hfile.trans hmarker⟩

theorem IsParsed.same (h : IsParsed staging w sel?)
    (hfile : w'.disk.fileAt w'.cwd (artifactPath staging Reading.stage) =
      w.disk.fileAt w.cwd (artifactPath staging Reading.stage)) : IsParsed staging w' sel? := by
  cases sel? with
  | none => exact hfile.trans h
  | some sel =>
    obtain ⟨config, stamp, revision, hparsed⟩ := h
    exact ⟨config, stamp, revision, hfile.trans hparsed⟩

theorem IsEnriched.same (h : IsEnriched staging w sel?)
    (hfile : w'.disk.fileAt w'.cwd (artifactPath staging Enriching.stage) =
      w.disk.fileAt w.cwd (artifactPath staging Enriching.stage)) : IsEnriched staging w' sel? := by
  cases sel? with
  | none => exact hfile.trans h
  | some sel =>
    obtain ⟨config, stamp, revision, output, houtput, henriched⟩ := h
    exact ⟨config, stamp, revision, output, houtput, hfile.trans henriched⟩

/-- A marker that can be read is the base of the next incremental build. -/
theorem IsMarked.isKept (h : IsMarked staging w marker) {outside : Outside}
    (hreadable : ∀ events, outside.refuses events (.disk (.read (markerPath staging))) = none) :
    Revision.IsKept outside staging w marker := by
  cases marker with
  | none =>
    intro content hread
    rw [IsMarked, Disk.fileAt_of_read hread] at h
    cases h
  | some revision =>
    obtain ⟨hne, hreached, stamp, hfile⟩ := h
    exact ⟨hne, hreadable, _, _, (Revision.marker revision stamp).asRead,
      (Disk.read_join_iff hreached Revision.isName_marker).2 hfile, read_pretty _,
      Json.read_pretty_of_isShort rfl, rfl⟩

/-- Where an output is held, its file stands at its place. -/
theorem fileAt_of_heldOutput {α : Type} {entity : Json → Except RecordFault α} {stage : String}
    {output : Output α} (hheld : heldOutput entity staging stage w.disk w.cwd = some output) :
    ∃ content, w.disk.fileAt w.cwd (artifactPath staging stage) = some content := by
  rw [heldOutput] at hheld
  obtain ⟨object, hobject, -⟩ := Option.bind_eq_some_iff.1 hheld
  obtain ⟨content, text, hread, -, -⟩ := held_eq_some_iff.1 hobject
  exact ⟨content, Disk.fileAt_of_read hread⟩

/-- What is read as the first artifact is what was found in the selection. -/
theorem IsParsed.of_heldOutput (h : IsParsed staging w sel?) {input : ParseOutput}
    (hheld : heldOutput Entity.ofJson staging Reading.stage w.disk w.cwd = some input) :
    ∃ sel, sel? = some sel ∧ ∃ config stamp revision,
      input = (sel.output config stamp revision).asRead Entity.asRead := by
  cases sel? with
  | none =>
    obtain ⟨content, hfile⟩ := fileAt_of_heldOutput hheld
    rw [show _ = none from h] at hfile
    cases hfile
  | some sel =>
    obtain ⟨config, stamp, revision, hfile⟩ := h
    exact ⟨sel, rfl, config, stamp, revision,
      eq_asRead_of_heldOutput Entity.ofJson_asRead hfile hheld⟩

/-- What is read as the second artifact comes of what was found in the selection. -/
theorem IsEnriched.of_heldOutput (h : IsEnriched staging w sel?) {held : EnrichOutput}
    (hheld : heldOutput Enriched.ofJson staging Enriching.stage w.disk w.cwd = some held) :
    ∃ sel, sel? = some sel ∧ ∃ config,
      IsHanded (fun e x => x.entity = e) config sel.tree sel.paths sel.gone held := by
  cases sel? with
  | none =>
    obtain ⟨content, hfile⟩ := fileAt_of_heldOutput hheld
    rw [show _ = none from h] at hfile
    cases hfile
  | some sel =>
    obtain ⟨config, stamp, revision, output, houtput, hfile⟩ := h
    exact ⟨sel, rfl, config, stamp, revision, output, houtput,
      eq_asRead_of_heldOutput Enriched.ofJson_asRead hfile hheld⟩

/-! ### Places -/

/-- The files of different stages are different files. -/
theorem stagePath_ne (cwd : Place) (staging : String) {stage stage' name name' : String}
    (hstage : Path.IsName stage) (hstage' : Path.IsName stage') (hne : stage ≠ stage')
    (hname : Path.IsName name) (hname' : Path.IsName name') :
    Disk.absolute cwd (Path.join (Path.join staging stage) name) ≠
      Disk.absolute cwd (Path.join (Path.join staging stage') name') := by
  rw [Disk.absolute_join _ _ hname, Disk.absolute_join _ _ hname', Disk.home_join _ _ hstage,
    Disk.home_join _ _ hstage']
  intro h
  exact hne (List.singleton_inj.1 (List.append_inj_right' (List.append_inj_left' h rfl) rfl))

/-- The output of a stage lies apart from those of others. -/
theorem artifactPath_not_mem (cwd : Place) (staging : String) {stage stage' : String}
    (hstage : Path.IsName stage) (hstage' : Path.IsName stage') (hne : stage ≠ stage') :
    Disk.absolute cwd (artifactPath staging stage) ∉ outputPlaces cwd staging stage' := by
  rw [outputPlaces, temporaryPath_artifactPath, artifactPath, artifactPath]
  simp only [List.mem_cons, List.not_mem_nil, or_false, not_or]
  exact ⟨stagePath_ne _ _ hstage hstage' hne isName_output isName_temporary,
    stagePath_ne _ _ hstage hstage' hne isName_output isName_output⟩

/-- The marker lies apart from the outputs. -/
theorem markerPath_not_mem (cwd : Place) (staging stage : String) :
    Disk.absolute cwd (markerPath staging) ∉ outputPlaces cwd staging stage := by
  rw [outputPlaces, temporaryPath_artifactPath, artifactPath, markerPath,
    Disk.absolute_join _ _ Revision.isName_marker, Disk.absolute_join _ _ isName_temporary,
    Disk.absolute_join _ _ isName_output]
  simp only [List.mem_cons, List.not_mem_nil, or_false, not_or]
  refine ⟨fun h => ?_, fun h => ?_⟩
  · exact absurd (List.append_inj_right' h rfl) (by decide)
  · exact absurd (List.append_inj_right' h rfl) (by decide)

end Staging

/-! ### Tasks -/

/-- Whether the staging area is at a standing. -/
structure Staged (staging : String) (st : Standing) (w : World) : Prop where
  marked : Staging.IsMarked staging w st.marker
  parsed : Staging.IsParsed staging w st.parsed
  enriched : Staging.IsEnriched staging w st.enriched

namespace Staged

variable {s : Settings} {config : BuildConfig} {r : Request} {staging : String} {st : Standing}
  {outside : Outside} {w w' : World} {places : List Place}

/-- Changes of other files keep the staging area at its standing. -/
theorem changes (h : Staged staging st w) (hcwd : w'.cwd = w.cwd)
    (hchanges : Disk.Changes places w.disk w'.disk)
    (hmarker : Disk.absolute w.cwd (Staging.markerPath staging) ∉ places)
    (hparsed : Disk.absolute w.cwd (Staging.artifactPath staging Reading.stage) ∉ places)
    (henriched : Disk.absolute w.cwd (Staging.artifactPath staging Enriching.stage) ∉ places) :
    Staged staging st w' := by
  have hfile {path : String} (hpath : Disk.absolute w.cwd path ∉ places) :
      w'.disk.fileAt w'.cwd path = w.disk.fileAt w.cwd path := by
    rw [hcwd]
    exact hchanges.fileAt_eq hpath
  exact ⟨h.marked.same (hfile hmarker) (hcwd ▸ fun hr => hr.keeps hchanges.keeps),
    h.parsed.same (hfile hparsed), h.enriched.same (hfile henriched)⟩

/-- The graph's file is none of those that make up the standing. -/
theorem changes_graph (h : Staged staging st w) (hcwd : w'.cwd = w.cwd)
    (hchanges : Disk.Changes [Disk.absolute w.cwd (Staging.graphPath staging)] w.disk w'.disk) :
    Staged staging st w' := by
  have hplace := Staging.graphPath_not_mem w.cwd staging
  refine h.changes hcwd hchanges (fun hmem => ?_) (fun hmem => ?_) fun hmem => ?_
  · exact (hplace "").2 (List.mem_singleton.1 hmem).symm
  · refine (hplace Reading.stage).1 ?_
    rw [← List.mem_singleton.1 hmem]
    exact List.mem_cons_of_mem _ (List.mem_singleton_self _)
  · refine (hplace Enriching.stage).1 ?_
    rw [← List.mem_singleton.1 hmem]
    exact List.mem_cons_of_mem _ (List.mem_singleton_self _)

theorem noted (h : Staged staging st w) (hw : Notes w w') : Staged staging st w' := by
  obtain ⟨events, rfl⟩ := hw
  exact h.changes rfl (Disk.changes_refl [] w.disk) List.not_mem_nil List.not_mem_nil
    List.not_mem_nil

end Staged

/-- The files of a revision; before the first one there are none. -/
def Source.treeOf (revisions : String → Tree) : Option String → Tree
  | none => fun _ => none
  | some revision => revisions revision

/-- Whether a build that reads a checkout of a revision selects what it should, and finds something
in every file that it has selected: in a full build all files that take part; in an incremental one
the targets of the diff that version control tells, from the base that is given or else from the
revision that the marker keeps. -/
structure Settings.Sees (s : Settings) (outside : Outside) (config : BuildConfig)
    (revisions : String → Tree) (marker : Option String) (present : String) (sel : Selection)
    (disk : Disk) (cwd : Place) : Prop where
  readable : Reading.IsReadable outside s.repoPath
  marker_readable : ∀ events,
    outside.refuses events (.disk (.read (Staging.markerPath s.stagingPath))) = none
  present_ne : present ≠ ""
  isPresent : Revision.IsPresent outside s.repoPath present
  checkout_eq : Source.checkout disk cwd s.repoPath = revisions present
  full : config.mode = Request.full →
    sel = ⟨revisions present, Source.discover disk cwd s.repoPath, []⟩
  incremental : config.mode ≠ Request.full → ∃ base ds,
    base = (if config.baseCommit.getD "" = "" then marker else config.baseCommit) ∧
      Revision.Tells outside s.repoPath present base ds ∧
      IsDiff (Source.treeOf revisions base) (revisions present) ds ∧
      sel = ⟨revisions present, (Source.targets ds).filter Source.isIncluded, Source.removed ds⟩
  found : ∀ path ∈ sel.paths, Source.findingsAt (revisions present) path ≠ none
  plain : HasPlainNames (revisions present)

namespace Settings.Sees

variable {s : Settings} {outside : Outside} {config : BuildConfig} {revisions : String → Tree}
  {marker : Option String} {present : String} {sel : Selection} {disk : Disk} {cwd : Place}

theorem tree_eq (h : s.Sees outside config revisions marker present sel disk cwd) :
    sel.tree = revisions present := by
  by_cases hmode : config.mode = Request.full
  · rw [h.full hmode]
  · obtain ⟨base, ds, -, -, -, hsel⟩ := h.incremental hmode
    rw [hsel]

theorem mem_filesBelow (h : s.Sees outside config revisions marker present sel disk cwd) :
    ∀ path ∈ sel.paths, path ∈ disk.filesBelow cwd s.repoPath := by
  intro path hpath
  by_cases hmode : config.mode = Request.full
  · rw [h.full hmode] at hpath
    exact (Source.mem_discover.1 hpath).1
  · obtain ⟨base, ds, -, -, hdiff, hsel⟩ := h.incremental hmode
    rw [hsel] at hpath
    refine Source.mem_filesBelow (h.checkout_eq ▸ ?_)
    exact hdiff.exists_of_target path (List.mem_filter.1 hpath).1

end Settings.Sees

namespace Selection

/-- Whether a graph comes of another one by filling the stores with what was found in a
selection. -/
def Renews (sel : Selection) (config : BuildConfig) (g h : Graph) : Prop :=
  ∃ given held merged removed,
    IsHanded (fun e x => x.entity = e) given sel.tree sel.paths sel.gone held ∧
      IsMerged config held g merged ∧ sweep config held merged = .ok (h, removed)

/-- Whether a graph is reached on the way from another one by filling the stores with what was found
in a selection. -/
def Reaches (sel : Selection) (config : BuildConfig) (g h : Graph) : Prop :=
  ∃ given held v outside c d,
    IsHanded (fun e x => x.entity = e) given sel.tree sel.paths sel.gone held ∧
      Populating.Reaches v config held outside g c h d

end Selection

/-- A stage is attempted, and then done. -/
theorem Stages.wp_timed {α : Type} {name : String} {config : BuildConfig}
    {stage : BuildConfig → Build α} {summary : Int → α → StageSummary}
    {outside : Outside} {w : World}
    {done failed : World → Prop} (hrefused : ∀ events, failed { w with events })
    (hstage : ∀ events, (stage config).wp (fun _ w' => done w') (fun _ w' => failed w') outside
      { w with events }) :
    (Stages.timed name config stage summary).wp (fun _ w' => done w')
      (fun _ w' => failed w') outside
      w := by
  simp only [Stages.timed, Build.wp_bind, Build.wp_now, Build.wp_attempt, Build.wp_pure]
  exact ⟨fun _ => hstage _, fun _ _ => hrefused _⟩

/-- Bringing a checkout up to date makes directories at most. -/
theorem Stages.wp_sync {s : Settings} {config : BuildConfig} {r : Request} {outside : Outside}
    {w : World} : (s.stages.perform config r .sync).wp (fun _ w' => Alters [] w w')
      (fun _ w' => Alters [] w w') outside w := by
  simp only [Stages.perform, Stages.runSync, Build.wp_bind, Build.wp_log, Build.wp_attempt,
    Build.wp_pure]
  have hnoted (events : List Event) : Alters [] w { w with events } := Notes.alters ⟨events, rfl⟩
  refine ⟨fun _ => ?_, fun _ _ => hnoted _⟩
  refine Build.wp_mono (Checkout.wp_sync _ _ _) (fun _ w' hw' => ?_) fun _ w' hw' => ?_
  · exact ((hnoted _).trans hw').trans (Notes.alters ⟨_, rfl⟩)
  · exact (hnoted _).trans hw'

namespace Staged

open Staging (graphAt)

variable {s : Settings} {r : Request} {st : Standing} {outside : Outside} {w : World}
  {revisions : String → Tree} {present : String} {sel : Selection}

/-- Bringing a checkout up to date leaves what is staged and the graph alone. -/
theorem wp_sync (h : Staged s.stagingPath st w) :
    (s.stages.perform (s.configOf r) r .sync).wp
      (fun _ w' => Staged s.stagingPath st w' ∧
        graphAt s.stagingPath w' = graphAt s.stagingPath w)
      (fun _ w' => Staged s.stagingPath st w' ∧
        graphAt s.stagingPath w' = graphAt s.stagingPath w) outside w := by
  have hkeeps {w' : World} (hw' : Alters [] w w') : Staged s.stagingPath st w' ∧
      graphAt s.stagingPath w' = graphAt s.stagingPath w :=
    ⟨h.changes hw'.cwd_eq hw'.changes List.not_mem_nil List.not_mem_nil List.not_mem_nil,
      Staging.graphAt_of_alters hw' List.not_mem_nil⟩
  exact Build.wp_mono Stages.wp_sync (fun _ _ => hkeeps) fun _ _ => hkeeps

section Selecting

variable (h : Staged s.stagingPath st w)
  (hsees : s.Sees outside (s.configOf r) revisions st.marker present sel w.disk w.cwd) {w' : World}
  (hw' : Notes w w')

include h hsees hw'

/-- The base of an incremental build and what version control tells of it. -/
theorem exists_base (hmode : (s.configOf r).mode ≠ Request.full) : ∃ base ds,
    Reading.IsBase outside (s.configOf r) w' base ∧
      Revision.Tells outside s.repoPath present base ds ∧
      IsDiff (Source.treeOf revisions base) (revisions present) ds ∧
      sel = ⟨revisions present, (Source.targets ds).filter Source.isIncluded,
        Source.removed ds⟩ := by
  obtain ⟨base, ds, hbase, hrest⟩ := hsees.incremental hmode
  refine ⟨base, ds, Reading.IsBase.noted ?_ hw', hrest⟩
  rw [Reading.IsBase]
  split
  · rename_i hgiven
    rw [if_pos hgiven] at hbase
    rw [hbase]
    exact h.marked.isKept hsees.marker_readable
  · rename_i hgiven
    rw [hbase, if_neg hgiven]

/-- A build selects what it should. -/
theorem wp_select : (Reading.select (s.configOf r)).wp
    (fun selected w'' => selected = (sel.paths, sel.gone) ∧ Notes w' w'') (fun _ _ => True) outside
      w' := by
  by_cases hmode : (s.configOf r).mode = Request.full
  · obtain ⟨events, rfl⟩ := hw'
    rw [hsees.full hmode]
    exact Reading.wp_select_full hmode
  · obtain ⟨base, ds, hbase, htells, hdiff, hsel⟩ := h.exists_base hsees hw' hmode
    rw [hsel]
    exact Reading.wp_select_incremental hmode hbase hdiff.isField hsees.isPresent htells

/-- Selecting ends well where nothing is refused and version control answers. -/
theorem succeeds_select (hcalm : outside.IsCalm) (hgit : outside.HasGit) :
    (Reading.select (s.configOf r)).wp
      (fun selected w'' => selected = (sel.paths, sel.gone) ∧ Notes w' w'')
        (fun _ _ => False) outside
        w' := by
  by_cases hmode : (s.configOf r).mode = Request.full
  · obtain ⟨events, rfl⟩ := hw'
    rw [hsees.full hmode]
    exact Reading.wp_select_full hmode
  · obtain ⟨base, ds, hbase, -⟩ := h.exists_base hsees hw' hmode
    exact (Reading.succeeds_select hcalm hgit hbase).wp (h.wp_select hsees hw')

end Selecting

/-- Reading the repository stages what was selected and keeps the revision. -/
theorem wp_parse (h : Staged s.stagingPath st w)
    (hsees : s.Sees outside (s.configOf r) revisions st.marker present sel w.disk w.cwd) :
    (s.stages.perform (s.configOf r) r .parse).wp
      (fun _ w' => Staged s.stagingPath (st.read present sel) w' ∧
        graphAt s.stagingPath w' = graphAt s.stagingPath w)
      (fun _ _ => True) outside w := by
  rw [Stages.perform]
  refine Stages.wp_timed (fun _ => trivial) fun events => ?_
  show (Reading.run (s.configOf r)).wp _ _ _ _
  have hw : Notes w { w with events } := ⟨events, rfl⟩
  refine Build.wp_mono (Reading.wp_run hsees.readable
    (fun w' hw' => h.wp_select hsees (hw.trans hw')) hsees.mem_filesBelow) (fun out w₁ hw₁ => ?_)
    fun _ _ _ => trivial
  obtain ⟨stamp, revision, hrevision, rfl, hleaves⟩ := hw₁
  obtain rfl := hrevision present hsees.isPresent
  have hsel : sel.tree = Source.checkout w.disk w.cwd s.repoPath :=
    hsees.tree_eq.trans hsees.checkout_eq.symm
  have hcwd₁ := hleaves.alters.cwd_eq
  -- what reading writes is its own output and the marker, not the other output
  have henriched : Disk.absolute w.cwd (Staging.artifactPath s.stagingPath Enriching.stage) ∉
      Reading.writtenPlaces w.cwd s.stagingPath := by
    intro hmem
    rcases List.mem_append.1 hmem with hmem | hmem
    · exact Staging.artifactPath_not_mem _ _ Populating.isName_enrich Reading.isName_parse
        (by decide)
        hmem
    · refine Staging.markerPath_not_mem w.cwd s.stagingPath Enriching.stage ?_
      rw [← List.mem_singleton.1 hmem]
      exact List.mem_cons_of_mem _ (List.mem_singleton_self _)
  refine ⟨⟨⟨hsees.present_ne, ?_, ?_⟩, ⟨s.configOf r, stamp, revision, ?_⟩,
    h.enriched.same (hleaves.alters.fileAt_eq henriched)⟩, ?_⟩
  · rw [hcwd₁]
    exact Disk.isReached_of_join Reading.isName_parse hleaves.reached
  · obtain ⟨stamp', hmarker⟩ := hleaves.marker
    rw [hcwd₁]
    exact ⟨stamp', hmarker⟩
  · rw [hcwd₁, Selection.output, hsel]
    exact hleaves.artifact
  · exact Staging.graphAt_of_alters hleaves.alters (Staging.graphPath_not_written _ _)

/-- Enriching stages what was staged first; the graph is left alone, also by a failure. -/
theorem wp_enrich (h : Staged s.stagingPath st w) :
    (s.stages.perform (s.configOf r) r .enrich).wp
      (fun _ w' => Staged s.stagingPath st.enrich w' ∧
        graphAt s.stagingPath w' = graphAt s.stagingPath w)
      (fun _ w' => Staged s.stagingPath st w' ∧
        graphAt s.stagingPath w' = graphAt s.stagingPath w) outside w := by
  rw [Stages.perform]
  refine Stages.wp_timed (fun events => ⟨h.noted ⟨events, rfl⟩, rfl⟩) fun events => ?_
  have hw : Notes w { w with events } := ⟨events, rfl⟩
  show (s.enriching (s.configOf r)).wp _ _ _ _
  refine Build.wp_mono Settings.wp_enriching_entity
    (fun output w₁ hw₁ => ?_) fun _ w₁ hw₁ => ?_
  · obtain ⟨input, hinput, houtput, hleaves⟩ := hw₁
    obtain ⟨sel', hsel, config, stamp, revision, rfl⟩ := (h.noted hw).parsed.of_heldOutput hinput
    have hmarker := Staging.markerPath_not_mem w.cwd s.stagingPath Enriching.stage
    have hparsed := Staging.artifactPath_not_mem w.cwd s.stagingPath Reading.isName_parse
      Populating.isName_enrich (by decide)
    have hcwd₁ := hleaves.alters.cwd_eq
    refine ⟨⟨h.marked.same (hleaves.alters.fileAt_eq hmarker) ?_,
      h.parsed.same (hleaves.alters.fileAt_eq hparsed), ?_⟩, ?_⟩
    · rw [hcwd₁]
      exact fun hr => hr.keeps hleaves.alters.changes.keeps
    · show Staging.IsEnriched s.stagingPath w₁ st.parsed
      rw [hsel, Staging.IsEnriched, hcwd₁]
      exact ⟨config, stamp, revision, output, houtput, hleaves.artifact⟩
    · exact Staging.graphAt_of_alters hleaves.alters (Staging.graphPath_not_mem _ _ _).1
  · -- a failure leaves nothing but a temporary file
    have htemporary : [Disk.absolute w.cwd
        (Staging.temporaryPath (Staging.artifactPath s.stagingPath Enriching.stage))] ⊆
          Staging.outputPlaces w.cwd s.stagingPath Enriching.stage :=
      List.cons_subset_cons _ (List.nil_subset _)
    have halters := hw.alters.trans hw₁
    refine ⟨h.changes halters.cwd_eq halters.changes (fun hmem => ?_)
      (fun hmem => ?_) fun hmem => ?_,
      Staging.graphAt_of_alters hw₁ fun hmem =>
        (Staging.graphPath_not_mem _ _ _).1 (htemporary hmem)⟩
    · exact Staging.markerPath_not_mem _ _ _ (htemporary hmem)
    · exact Staging.artifactPath_not_mem _ _ Reading.isName_parse Populating.isName_enrich
        (by decide)
        (htemporary hmem)
    · exact Staging.temporary_ne_artifact _ _ _ (List.mem_singleton.1 hmem).symm

/-- Filling the stores renews the graph, or stops on the way; the staging area stays as it is. -/
theorem wp_populate (hbackend : s.graphBackend = "networkx") (h : Staged s.stagingPath st w) :
    (s.stages.perform (s.configOf r) r .populate).wp
      (fun _ w' => Staged s.stagingPath st w' ∧ ∃ sel, st.enriched = some sel ∧
        sel.Renews (s.configOf r) (graphAt s.stagingPath w) (graphAt s.stagingPath w'))
      (fun _ w' => Staged s.stagingPath st w' ∧
        (graphAt s.stagingPath w' = graphAt s.stagingPath w ∨ ∃ sel, st.enriched = some sel ∧
          sel.Reaches (s.configOf r) (graphAt s.stagingPath w) (graphAt s.stagingPath w')))
      outside w := by
  rw [Stages.perform]
  refine Stages.wp_timed (fun events => ⟨h.noted ⟨events, rfl⟩, .inl rfl⟩) fun events => ?_
  show (s.populating (s.configOf r)).wp _ _ _ _
  -- the stage works on the graph of the staging area
  have hopened {held : EnrichOutput} (hheld : Staging.heldOutput Enriched.ofJson s.stagingPath
      Enriching.stage w.disk w.cwd = some held) :
      GraphStore.held (Staging.graphPath s.stagingPath) { w with events } =
        graphAt s.stagingPath w :=
    Staging.held_eq_graphAt (Staging.home_of_heldOutput Populating.isName_enrich hheld)
  rw [Settings.populating, Populating.graphStore_of_file hbackend]
  refine Build.wp_mono (Populating.wp_run (Populating.graphPath_ne_empty _))
    (fun result w₁ hw₁ => ?_) fun _ w₁ hw₁ => ?_
  · obtain ⟨held, hheld, g, d, removed, disk, hcompletes, -, hsaves, hfills⟩ := hw₁
    obtain ⟨sel', hsel, given, hhanded⟩ := h.enriched.of_heldOutput hheld
    obtain ⟨merged, hm, hsweep⟩ := hcompletes.swept
    rw [hopened hheld] at hm
    obtain ⟨collections, client, events, hw₁, -, -⟩ := hfills
    have hgraph : graphAt s.stagingPath w₁ = g :=
      Staging.graphAt_of_saves (by rw [hw₁]) (by rw [hw₁]) hsaves
    rw [hgraph]
    refine ⟨h.changes_graph (by rw [hw₁]) ?_, sel', hsel, given, held, merged, removed,
      hhanded, hm, hsweep⟩
    rw [hw₁]
    exact hsaves.changes
  · obtain ⟨opened, disk, d, ⟨collections, client, events, hw₁, -, -⟩, hstores⟩ := hw₁
    have hcwd : w₁.cwd = w.cwd := by rw [hw₁]
    have hdisk : w₁.disk = disk := by rw [hw₁]
    -- it has failed before the first write, after the graph was saved, or at making directories
    rcases hstores with ⟨-, hsame⟩ | ⟨held, g, hheld, hreaches, hsaves | hexpands⟩
    · have hfile : w₁.disk = w.disk := hdisk.trans hsame
      refine ⟨h.changes_graph hcwd (hfile ▸ Disk.changes_refl _ _), .inl ?_⟩
      rw [graphAt, graphAt, hcwd, hfile]
    · obtain ⟨sel', hsel, given, hhanded⟩ := h.enriched.of_heldOutput hheld
      rw [hopened hheld] at hreaches
      have hgraph : graphAt s.stagingPath w₁ = g := Staging.graphAt_of_saves hcwd hdisk hsaves
      rw [hgraph]
      exact ⟨h.changes_graph hcwd (hdisk ▸ hsaves.changes),
        .inr ⟨sel', hsel, given, held, _, _, _, _, hhanded,
        hreaches⟩⟩
    · refine ⟨h.changes_graph hcwd (hdisk ▸ hexpands.changes), .inl ?_⟩
      have hchanges : Disk.Changes [] w.disk disk := hexpands.changes
      rw [graphAt, graphAt, hcwd, hdisk, hchanges.fileAt_eq List.not_mem_nil]

end Staged

end RepoGraph
