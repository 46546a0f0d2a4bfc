import RepoGraph.Proofs.Reading.Files

/-!
# What reading the repository leaves

The first stage finds in every selected file what the file's path and content alone say, leaves out
the files in which nothing can be found, stages what was found and keeps the revision.  It changes
the files of the staging area only.

Main statements: `Reading.wp_select_full`, `Reading.wp_select_incremental`,
`Reading.isQuiet_select`, `Reading.wp_run`.
-/

namespace RepoGraph

open Staging (Notes Alters)
open Source (Tree)

/-! ### What version control tells -/

namespace Revision

variable {outside : Outside} {w : World} {repo present : String}

/-- Asking version control changes nothing. -/
theorem wp_git {arguments : List String} {directory : Option String} {done : String → World → Prop}
    (hdone : ∀ output errors events,
      outside.git w.events arguments directory = .finished 0 output errors →
        done output { w with events }) :
    (git arguments directory).wp done (fun _ _ => True) outside w := by
  simp only [git, Build.wp_bind, Build.wp_get, Build.wp_attempt, Build.wp_read]
  refine ⟨fun _ => ?_, fun _ _ => trivial⟩
  cases hreply : outside.git w.events arguments directory with
  | notStarted reason => exact trivial
  | finished status output errors =>
    rw [Build.wp_ite]
    split
    · exact trivial
    · rename_i hstatus
      have hzero : status = 0 := by simpa using hstatus
      exact hdone output errors _ (hzero ▸ hreply)

/-- Asking version control changes nothing, also if it gives no answer. -/
theorem isQuiet_git (arguments : List String) (directory : Option String) :
    (git arguments directory).IsQuiet outside := by
  intro w
  simp only [git, Build.wp_bind, Build.wp_get, Build.wp_attempt, Build.wp_read]
  refine ⟨fun _ => ?_, fun _ _ => ⟨_, rfl⟩⟩
  cases outside.git w.events arguments directory with
  | notStarted reason => exact ⟨_, rfl⟩
  | finished status output errors =>
    rw [Build.wp_ite]
    split
    · exact ⟨_, rfl⟩
    · exact ⟨_, rfl⟩

theorem isQuiet_current (repo : String) : (current repo).IsQuiet outside :=
  (isQuiet_git _ _).bind fun _ => .pure _

/-- Whether version control tells a revision as the present one of a checkout, at some time. -/
def IsTold (outside : Outside) (repo revision : String) : Prop :=
  ∃ past output errors,
    outside.git past ["log", "-1", "--format=%H"] (some repo) = .finished 0 output errors ∧
      revision = Text.strip output

theorem wp_current_told (repo : String) :
    (current repo).wp (fun revision w' => IsTold outside repo revision ∧ Notes w w')
      (fun _ w' => Notes w w') outside w := by
  have htold : (current repo).wp (fun revision _ => IsTold outside repo revision) (fun _ _ => True)
      outside w := by
    rw [current, Build.wp_bind]
    exact wp_git fun output errors events hreply => ⟨_, output, errors, hreply, rfl⟩
  exact Build.wp_mono (Build.wp_and htold (isQuiet_current repo w))
    (fun _ _ h => h) fun _ _ h => h.2

/-- Whether a revision is the present one of a checkout, as far as version control tells. -/
def IsPresent (outside : Outside) (repo present : String) : Prop :=
  ∀ events output errors,
    outside.git events ["log", "-1", "--format=%H"] (some repo) = .finished 0 output errors →
      Text.strip output = present

theorem wp_current :
    (current repo).wp
      (fun revision w' => (∀ present, IsPresent outside repo present → revision = present) ∧
        Notes w w')
      (fun _ _ => True) outside w := by
  refine Build.wp_mono (wp_current_told repo) (fun revision w' htold => ?_) fun _ _ _ => trivial
  obtain ⟨⟨past, output, errors, hreply, rfl⟩, hw'⟩ := htold
  exact ⟨fun present h => h past output errors hreply, hw'⟩

/-- Whether version control tells these differences between a base and the present revision; without
a base, it lists the files. -/
def Tells (outside : Outside) (repo present : String) (base : Option String)
    (ds : List Source.Difference) : Prop :=
  match base with
  | none => ∃ paths, ds = paths.map .added ∧ ∀ events output errors,
      outside.git events ["ls-files", "-z"] (some repo) = .finished 0 output errors →
        output = Change.terminated paths
  | some base => base ≠ "" ∧ ∀ events output errors,
      outside.git events ["diff", "--name-status", "-z", base, present] (some repo) =
        .finished 0 output errors → output = Source.diffText ds

theorem wp_changes {base : Option String} {ds : List Source.Difference}
    (hfield : ∀ d ∈ ds, ∀ field ∈ d.fields, Change.IsField field)
    (hpresent : IsPresent outside repo present) (htells : Tells outside repo present base ds) :
    (changes repo base).wp
      (fun found w' => found = ds.map Source.Difference.change ∧ Notes w w')
      (fun _ _ => True) outside w := by
  cases base with
  | none =>
    obtain ⟨paths, rfl, hlist⟩ := htells
    have hpaths : ∀ path ∈ paths, Change.IsField path := fun path hpath =>
      hfield _ (List.mem_map_of_mem hpath) path (by simp [Source.Difference.fields])
    rw [changes, Build.wp_bind]
    refine wp_git fun output errors events hreply => ⟨?_, events, rfl⟩
    rw [hlist _ output errors hreply, Change.fieldsOf_terminated hpaths, List.map_map]
    rfl
  | some base =>
    obtain ⟨hbase, hdiff⟩ := htells
    have hchanges : changes repo (some base) = (do
        let present ← current repo
        let output ← git ["diff", "--name-status", "-z", base, present] (some repo)
        let found := Change.ofDiff output
        Build.log .info channel ["Found " ++ toString found.length ++ " changed files since " ++
          Text.take shownLength base]
        return found) := by
      unfold changes
      split
      · exact absurd ‹_› (by simp)
      · exact absurd (Option.some.inj ‹_›) hbase
      · rename_i h
        cases h
        rfl
    rw [hchanges, Build.wp_bind]
    refine Build.wp_mono wp_current (fun revision w₁ hw₁ => ?_) fun _ _ h => h
    obtain ⟨hrevision, hw₁⟩ := hw₁
    rw [hrevision present hpresent, Build.wp_bind]
    refine wp_git fun output errors events hreply => ?_
    rw [hdiff _ output errors hreply, Source.ofDiff_diffText hfield]
    exact ⟨rfl, hw₁.trans ⟨_, rfl⟩⟩

theorem isQuiet_changes (repo : String) (base : Option String) :
    (changes repo base).IsQuiet outside := by
  unfold changes
  split
  · exact (isQuiet_git _ _).bind fun _ => .pure _
  · exact (isQuiet_git _ _).bind fun _ => .pure _
  · exact (isQuiet_current repo).bind fun _ => (isQuiet_git _ _).bind fun _ =>
      (Build.IsQuiet.log _ _ _).bind fun _ => .pure _

/-- Whether the marker of the last build names a revision, or there is none. -/
def IsKept (outside : Outside) (staging : String) (w : World) : Option String → Prop
  | none => ∀ content, w.disk.read w.cwd (Staging.markerPath staging) ≠ .ok content
  | some base => base ≠ "" ∧
      (∀ events, outside.refuses events (.disk (.read (Staging.markerPath staging))) = none) ∧
      ∃ content text data, w.disk.read w.cwd (Staging.markerPath staging) = .ok content ∧
        content.read = .ok text ∧ Json.read text = .ok data ∧
        data.get? "commit" = some (.str base)

theorem wp_last {staging : String} {base : Option String} (h : IsKept outside staging w base) :
    (last staging).wp (fun kept w' => kept = base.map .str ∧ Notes w w') (fun _ _ => True)
      outside w := by
  simp only [last, markerData, Build.readText, Build.wp_bind, Build.wp_outcome,
    Build.wp_readContent, Build.wp_take]
  cases base with
  | none => exact ⟨fun _ => ⟨fun content hcontent => absurd hcontent (h content),
      fun _ _ => ⟨rfl, _, rfl⟩⟩, fun _ _ => ⟨rfl, _, rfl⟩⟩
  | some base =>
    obtain ⟨hbase, hreadable, content, text, data, hread, htext, hdata, hcommit⟩ := h
    refine ⟨fun _ => ⟨fun content' hcontent' => ?_, fun fault hfault => ?_⟩, fun f hf => ?_⟩
    · rw [hread] at hcontent'
      cases hcontent'
      refine ⟨fun text' htext' => ?_, fun fault hfault => ?_⟩
      · rw [htext] at htext'
        cases htext'
        have hfilled : (Json.str base).isFilled = true := by simpa [Json.isFilled] using hbase
        simp [hdata, Except.toOption, hcommit, hfilled, Notes]
      · rw [htext] at hfault
        cases hfault
    · rw [hread] at hfault
      cases hfault
    · rw [hreadable] at hf
      cases hf

theorem isQuiet_last (staging : String) : (last staging).IsQuiet outside := by
  rw [last, markerData]
  refine Build.IsQuiet.bind (Build.IsQuiet.bind (Build.IsQuiet.readText _).outcome fun answer => ?_)
    fun data => ?_
  · cases answer with
    | ok text => exact .pure _
    | error f => exact .pure _
  · cases data with
    | some data => exact .pure _
    | none => exact .pure _

theorem isName_marker : Path.IsName "last-build.json" := by
  refine ⟨?_, ?_, ?_, ?_⟩ <;> decide

/-- Keeping a revision writes the marker; a failure may leave anything in it. -/
theorem wp_save (staging revision : String) :
    (save staging revision).wp
      (fun _ w' => Alters [Disk.absolute w.cwd (Staging.markerPath staging)] w w' ∧
        ∃ stamp, w'.disk.fileAt w.cwd (Staging.markerPath staging) =
          some (.text (marker revision stamp).pretty))
      (fun _ w' => Alters [Disk.absolute w.cwd (Staging.markerPath staging)] w w') outside w := by
  simp only [save, Build.wp_bind, Build.wp_stamp]
  refine Build.wp_mono (Staging.wp_makeDirectories _) (fun _ w₁ hw₁ => ?_) fun _ _ hw₁ =>
    hw₁.mono (List.nil_subset _)
  refine Build.wp_mono (Staging.wp_writeText _ _) (fun _ w₂ hw₂ => ?_) fun _ w₂ hw₂ => ?_
  · obtain ⟨hw₂, hread⟩ := hw₂
    rw [hw₁.cwd_eq] at hw₂ hread
    exact ⟨(hw₁.mono (List.nil_subset _)).trans hw₂, _, Disk.fileAt_of_read hread⟩
  · have halters := hw₂.1
    rw [hw₁.cwd_eq] at halters
    exact (hw₁.mono (List.nil_subset _)).trans halters

end Revision

namespace Checkout

/-- Bringing a checkout up to date makes directories at most. -/
theorem wp_sync {outside : Outside} {w : World} (repo url branch : String) :
    (sync repo url branch).wp (fun _ w' => Alters [] w w') (fun _ w' => Alters [] w w') outside
      w := by
  have hgit {w' : World} (hw' : Alters [] w w') (arguments : List String)
      (directory : Option String) : (Revision.git arguments directory).wp
        (fun _ w'' => Alters [] w w'') (fun _ w'' => Alters [] w w'') outside w' :=
    Build.wp_mono (Revision.isQuiet_git _ _ _) (fun _ _ h => hw'.trans h.alters)
      fun _ _ h => hw'.trans h.alters
  have hnoted {w' : World} {events : List Event} (hw' : Alters [] w w') :
      Alters [] w { w' with events } := hw'.trans (Notes.alters ⟨events, rfl⟩)
  have hsame : Alters [] w w := Notes.alters ⟨w.events, rfl⟩
  simp only [sync, Build.wp_bind, Build.wp_askDisk, Build.wp_ite, Build.wp_log]
  split
  · refine Build.wp_mono (hgit (hnoted hsame) _ _) (fun _ w₁ hw₁ => ?_) fun _ _ h => h
    refine Build.wp_mono (hgit hw₁ _ _) (fun _ w₂ hw₂ => ?_) fun _ _ h => h
    exact Build.wp_mono (hgit hw₂ _ _) (fun _ _ hw₃ => hnoted hw₃) fun _ _ h => h
  · refine Build.wp_mono (Staging.wp_makeDirectories _) (fun _ w₁ hw₁ => ?_) fun _ _ h => h
    exact Build.wp_mono (hgit (hnoted hw₁) _ _) (fun _ _ hw₂ => hnoted hw₂) fun _ _ h => h

end Checkout

namespace Reading

open Source (Difference targets removed)

variable {outside : Outside} {w : World} {config : BuildConfig}

/-! ### Selecting files -/

/-- Whether an incremental build goes by a base: one that is given, or else that of the last
build. -/
def IsBase (outside : Outside) (config : BuildConfig) (w : World) (base : Option String) : Prop :=
  if config.baseCommit.getD "" = "" then Revision.IsKept outside config.stagingPath w base
  else base = config.baseCommit

theorem IsBase.noted {base : Option String} {w' : World} (h : IsBase outside config w base)
    (hw' : Notes w w') : IsBase outside config w' base := by
  obtain ⟨events, rfl⟩ := hw'
  cases base <;> exact h

/-- A full build reads all files that take part. -/
theorem wp_select_full (hmode : config.mode = Request.full) {failed} :
    (select config).wp
      (fun selected w' => selected = (Source.discover w.disk w.cwd config.repoPath, []) ∧
        Notes w w')
      failed outside w := by
  simp only [select, hmode, beq_self_eq_true, if_true, Build.wp_bind, Build.wp_askDisk,
    Build.wp_log, Build.wp_pure]
  exact ⟨trivial, _, rfl⟩

/-- What an incremental build selects once its base is known. -/
def selectSince (config : BuildConfig) (base : Option String) :
    Build (List String × List String) := do
  let (toRead, removed) := Change.selection (← Revision.changes config.repoPath base)
  Build.log .info channel
    ["Incremental build: processing " ++ toString toRead.length ++
      " changed files (base commit: " ++
      Text.take Revision.shownLength (base.getD "initial") ++ ")"]
  return (toRead, removed)

/-- An incremental build reads the targets of a diff that take part. -/
theorem wp_select_incremental (hmode : config.mode ≠ Request.full) {base : Option String}
    {present : String} {ds : List Difference} (hbase : IsBase outside config w base)
    (hfield : ∀ d ∈ ds, ∀ field ∈ d.fields, Change.IsField field)
    (hpresent : Revision.IsPresent outside config.repoPath present)
    (htells : Revision.Tells outside config.repoPath present base ds) :
    (select config).wp
      (fun selected w' =>
        selected = ((targets ds).filter Source.isIncluded, removed ds) ∧ Notes w w')
      (fun _ _ => True) outside w := by
  -- without a base of its own, a build takes the revision that the last one left
  have hlast (h : Revision.IsKept outside config.stagingPath w base) :
      (select.lastRevision config).wp (fun given w' => given = base ∧ Notes w w')
        (fun _ _ => True) outside w := by
    rw [select.lastRevision, Build.wp_bind]
    refine Build.wp_mono (Revision.wp_last h) (fun kept w₁ hw₁ => ?_) fun _ _ h => h
    obtain ⟨rfl, hw₁⟩ := hw₁
    cases base with
    | none => exact ⟨rfl, hw₁⟩
    | some base => exact ⟨rfl, hw₁⟩
  -- the same comes after each way to find the base
  have hrest (given : Option String) (w₁ : World) (hgiven : given = base ∧ Notes w w₁) :
      (selectSince config given).wp
        (fun selected w' =>
          selected = ((targets ds).filter Source.isIncluded, removed ds) ∧ Notes w w')
        (fun _ _ => True) outside w₁ := by
    obtain ⟨rfl, hw₁⟩ := hgiven
    rw [selectSince, Build.wp_bind]
    refine Build.wp_mono (Revision.wp_changes hfield hpresent htells) (fun found w₂ hw₂ => ?_)
      fun _ _ h => h
    obtain ⟨rfl, hw₂⟩ := hw₂
    rw [Source.selection_changes hfield, Build.wp_bind, Build.wp_log, Build.wp_pure]
    exact ⟨rfl, (hw₁.trans hw₂).trans ⟨_, rfl⟩⟩
  have hnot : (config.mode == Request.full) = false := beq_false_of_ne hmode
  rw [IsBase] at hbase
  rw [select, hnot, if_neg Bool.false_ne_true]
  cases hcommit : config.baseCommit with
  | none =>
    rw [hcommit] at hbase
    refine (Build.wp_bind _ _).2 (Build.wp_mono (hlast hbase) hrest fun _ _ h => h)
  | some given =>
    rw [hcommit, Option.getD_some] at hbase
    by_cases hempty : given = ""
    · rw [if_pos hempty] at hbase
      simp only [hempty, beq_self_eq_true, if_true]
      exact (Build.wp_bind _ _).2 (Build.wp_mono (hlast hbase) hrest fun _ _ h => h)
    · rw [if_neg hempty] at hbase
      simp only [beq_iff_eq, hempty, if_false]
      exact hrest (some given) w ⟨hbase.symm, w.events, rfl⟩

theorem isQuiet_select : (select config).IsQuiet outside := by
  -- the same comes after each way to find the base
  have hrest (base : Option String) : (selectSince config base).IsQuiet outside :=
    (Revision.isQuiet_changes _ _).bind fun _ => (Build.IsQuiet.log _ _ _).bind fun _ => .pure _
  have hlast : (select.lastRevision config).IsQuiet outside := by
    rw [select.lastRevision]
    refine (Revision.isQuiet_last _).bind fun kept => ?_
    split
    · exact .pure _
    · exact .pure _
    · exact .fail _
  rw [select]
  refine .ite ?_ ?_
  · exact (Build.IsQuiet.askDisk _).bind fun _ => (Build.IsQuiet.log _ _ _).bind fun _ => .pure _
  · cases config.baseCommit with
    | none => exact hlast.bind hrest
    | some given => exact .ite (hlast.bind hrest) (hrest _)

/-! ### The stage -/

theorem isName_parse : Path.IsName "parse" := by
  refine ⟨?_, ?_, ?_, ?_⟩ <;> decide

/-- The places that the stage writes to. -/
def writtenPlaces (cwd : Place) (staging : String) : List Place :=
  Staging.outputPlaces cwd staging stage ++ [Disk.absolute cwd (Staging.markerPath staging)]

/-- What the stage leaves when it ends well. -/
structure Leaves (config : BuildConfig) (present : String) (out : ParseOutput) (w w' : World) :
    Prop where
  alters : Alters (writtenPlaces w.cwd config.stagingPath) w w'
  artifact : w'.disk.fileAt w.cwd (Staging.artifactPath config.stagingPath stage) =
    some (.text (ParseOutput.toJson out).pretty)
  reached : w'.disk.IsReached w.cwd (Path.join config.stagingPath stage)
  marker : ∃ stamp, w'.disk.fileAt w.cwd (Staging.markerPath config.stagingPath) =
    some (.text (Revision.marker present stamp).pretty)

theorem Leaves.noted {present : String} {out : ParseOutput} {w' : World}
    (h : Leaves config present out w w') (events : List Event) :
    Leaves config present out w { w' with events } :=
  ⟨h.alters.trans (Notes.alters ⟨events, rfl⟩), h.artifact, h.reached, h.marker⟩

/-- Whether the output of the stage and the marker are as they were. -/
def IsUntouched (config : BuildConfig) (w w' : World) : Prop :=
  w'.disk.fileAt w.cwd (Staging.artifactPath config.stagingPath stage) =
      w.disk.fileAt w.cwd (Staging.artifactPath config.stagingPath stage) ∧
    w'.disk.fileAt w.cwd (Staging.markerPath config.stagingPath) =
      w.disk.fileAt w.cwd (Staging.markerPath config.stagingPath)

/-- What the stage leaves when it cannot keep what was found: output and marker as they were, or the
whole output in its place and anything in the marker. -/
structure Breaks (config : BuildConfig) (out : ParseOutput) (w w' : World) : Prop where
  alters : Alters (writtenPlaces w.cwd config.stagingPath) w w'
  kept : IsUntouched config w w' ∨
    w'.disk.fileAt w.cwd (Staging.artifactPath config.stagingPath stage) =
      some (.text (ParseOutput.toJson out).pretty)

/-- A change elsewhere leaves output and marker as they were. -/
theorem isUntouched_of_alters {places : List Place} {w' : World} (h : Alters places w w')
    (hartifact : Disk.absolute w.cwd (Staging.artifactPath config.stagingPath stage) ∉ places)
    (hmarker : Disk.absolute w.cwd (Staging.markerPath config.stagingPath) ∉ places) :
    IsUntouched config w w' :=
  ⟨h.changes.fileAt_eq hartifact, h.changes.fileAt_eq hmarker⟩

/-- The marker is no output, and no file beside one. -/
theorem absolute_marker_not_mem (cwd : Place) (staging : String) :
    Disk.absolute cwd (Staging.markerPath staging) ∉ Staging.outputPlaces cwd staging stage := by
  rw [Staging.outputPlaces, List.mem_cons, List.mem_singleton, Staging.temporaryPath_artifactPath,
    Staging.artifactPath, Staging.markerPath, Disk.absolute_join _ _ Staging.isName_temporary,
    Disk.absolute_join _ _ Staging.isName_output, Disk.absolute_join _ _ Revision.isName_marker]
  rintro (h | h)
  · exact absurd (List.append_inj_right' h rfl) (by decide)
  · exact absurd (List.append_inj_right' h rfl) (by decide)

/-- What was found is staged, then the revision is kept. -/
theorem wp_keep (present : String) (out : ParseOutput) {w' : World} (hw : Notes w w') :
    (Staging.write config.stagingPath stage (ParseOutput.toJson out)).wp
      (fun _ w₁ => (Revision.save config.stagingPath present).wp
        (fun _ w₂ => Leaves config present out w w₂)
          (fun _ w₂ => Breaks config out w w₂) outside w₁)
      (fun _ w₁ => Breaks config out w w₁) outside w' := by
  obtain ⟨events, rfl⟩ := hw
  have hnoted (places : List Place) : Alters places w { w with events } :=
    Notes.alters ⟨events, rfl⟩
  have hmarker := absolute_marker_not_mem w.cwd config.stagingPath
  refine Build.wp_mono (Staging.wp_write _ _ _) (fun _ w₁ hw₁ => ?_) fun _ w₁ hw₁ => ?_
  · obtain ⟨hw₁, hfile, hreached⟩ := hw₁
    have hwritten : Alters (writtenPlaces w.cwd config.stagingPath) w w₁ :=
      (hnoted _).trans (hw₁.mono (List.subset_append_left _ _))
    -- the marker is no output
    have hstill {w₂ : World}
        (hw₂ : Alters [Disk.absolute w.cwd (Staging.markerPath config.stagingPath)] w₁ w₂) :
        w₂.disk.fileAt w.cwd (Staging.artifactPath config.stagingPath stage) =
          some (.text (ParseOutput.toJson out).pretty) := by
      rw [hw₂.changes.fileAt_eq fun hmem => hmarker ?_]
      · exact hfile
      · rw [← List.mem_singleton.1 hmem]
        exact List.mem_cons_of_mem _ List.mem_cons_self
    refine Build.wp_mono (Revision.wp_save _ _) (fun _ w₂ hw₂ => ?_) fun _ w₂ hw₂ => ?_
    · obtain ⟨hw₂, hkept⟩ := hw₂
      rw [hw₁.cwd_eq] at hw₂ hkept
      exact ⟨hwritten.trans (hw₂.mono (List.subset_append_right _ _)), hstill hw₂,
        hreached.keeps hw₂.changes.keeps, hkept⟩
    · rw [hw₁.cwd_eq] at hw₂
      exact ⟨hwritten.trans (hw₂.mono (List.subset_append_right _ _)), .inr (hstill hw₂)⟩
  · have htemporary := (hnoted _).trans hw₁
    refine ⟨htemporary.mono fun place hplace => ?_, .inl (isUntouched_of_alters htemporary ?_ ?_)⟩
    · exact List.mem_append_left _ (List.mem_singleton.1 hplace ▸ List.mem_cons_self)
    · exact fun hmem => Staging.temporary_ne_artifact _ _ _ (List.mem_singleton.1 hmem).symm
    · exact fun hmem => hmarker (List.mem_singleton.1 hmem ▸ List.mem_cons_self)

/-- What the stage puts out for the files it has selected. -/
def outputOf (config : BuildConfig) (stamp present : String) (t : Tree)
    (selected : List String × List String) : ParseOutput :=
  output config stamp present (foundIn t selected.1) selected.2

/-- The stage stages what the tree of the checkout says of the selected files. -/
theorem wp_run {selected : List String × List String}
    (hreadable : IsReadable outside config.repoPath)
    (hselect : ∀ w', Notes w w' → (select config).wp
      (fun selected' w'' => selected' = selected ∧ Notes w' w'') (fun _ _ => True) outside w')
    (hpaths : ∀ path ∈ selected.1, path ∈ w.disk.filesBelow w.cwd config.repoPath) :
    (run config).wp
      (fun out w' => ∃ stamp revision,
        (∀ present, Revision.IsPresent outside config.repoPath present → revision = present) ∧
          out = outputOf config stamp revision (Source.checkout w.disk w.cwd config.repoPath)
            selected ∧
          Leaves config revision out w w')
      (fun _ _ => True) outside w := by
  simp only [run, Build.wp_bind, Build.wp_log, Build.wp_now]
  refine Build.wp_mono Revision.wp_current (fun revision w₁ hw₁ => ?_) fun _ _ h => h
  obtain ⟨hrevision, hw₁⟩ := hw₁
  have hnotes₁ : Notes w w₁ := .trans ⟨_, rfl⟩ hw₁
  refine Build.wp_mono (hselect w₁ hnotes₁) (fun chosen w₂ hw₂ => ?_) fun _ _ h => h
  obtain ⟨rfl, hw₂⟩ := hw₂
  obtain ⟨paths, gone⟩ := chosen
  simp only [Build.wp_bind, Build.wp_stamp, Build.wp_ite, Build.wp_log, Build.wp_pure, Build.wp_now]
  have hnotes₂ := hnotes₁.trans hw₂
  split
  all_goals
    refine Build.wp_mono (wp_files hreadable paths.length hpaths 0 (hnotes₂.trans ⟨_, rfl⟩))
      (fun found w₃ hw₃ => ?_) fun _ _ h => h
    obtain ⟨rfl, hw₃⟩ := hw₃
    refine Build.wp_mono (wp_keep revision _ hw₃) (fun _ w₄ hw₄ => ?_) fun _ _ _ => trivial
    refine Build.wp_mono hw₄ (fun _ w₅ hw₅ => ?_) fun _ _ _ => trivial
    exact ⟨_, revision, hrevision, rfl, hw₅.noted _⟩

end Reading

end RepoGraph
