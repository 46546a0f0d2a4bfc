import RepoGraph.Proofs.Reading.Isolation
import RepoGraph.Proofs.Twin.Staging

/-!
# Two runs that read a checkout

Two runs of the first stage that find the same checkout, and the same marker of the last build if
they look for one, find the same and stage the same, whatever else the staging areas hold.

Main statements: `Reading.keeps_select`, `Reading.twin_gather`, `Reading.twin_run`.
-/

namespace RepoGraph

open Build (Twin Keeps)
open Staging (Alters Notes SharesOutput)

/-! ### What version control names -/

/-- The file of a change is a field of the diff. -/
theorem Change.file_mem_of_mem_ofFields {c : Change} {fields : List String}
    (h : c ∈ Change.ofFields fields) : c.file ∈ fields := by
  induction fields using Change.ofFields.induct with
  | case1 word first second rest hpair ih =>
    rw [ofFields, if_pos hpair, List.mem_cons] at h
    obtain rfl | h := h
    · simp [ofPair]
    · simp [ih h]
  | case2 word first second rest hpair ih =>
    rw [ofFields, if_neg hpair, List.mem_cons] at h
    obtain rfl | h := h
    · simp
    · exact List.mem_cons_of_mem _ (List.mem_cons_of_mem _ (ih h))
  | case3 word path =>
    rw [ofFields, List.mem_singleton] at h
    simp [h]
  | case4 fields hlong hshort =>
    rw [ofFields] at h
    · cases h
    · exact hlong
    · exact hshort

namespace Revision

variable {related : List Event → List Event → Prop} {state : World → World → Prop}
  {outside outside' : Outside} {w : World} {repo : String}

/-- Whether version control may name a file of a checkout in one of its answers. -/
def Names (outside : Outside) (repo path : String) : Prop :=
  ∃ past arguments output errors,
    outside.git past arguments (some repo) = .finished 0 output errors ∧
      path ∈ Change.fieldsOf output

/-- The files of the changes are named by version control. -/
theorem wp_changes_names (repo : String) (base : Option String) :
    (changes repo base).wp (fun found _ => ∀ c ∈ found, Names outside repo c.file) (fun _ _ => True)
      outside w := by
  have hlisted : (do
      let output ← git ["ls-files", "-z"] (some repo)
      return (Change.fieldsOf output).map fun path => ⟨path, .added⟩ : Build (List Change)).wp
        (fun found _ => ∀ c ∈ found, Names outside repo c.file) (fun _ _ => True) outside w := by
    rw [Build.wp_bind]
    refine wp_git fun output errors events hreply => ?_
    intro c hc
    obtain ⟨path, hpath, rfl⟩ := List.mem_map.1 hc
    exact ⟨_, _, _, _, hreply, hpath⟩
  unfold changes
  split
  · exact hlisted
  · exact hlisted
  · rw [Build.wp_bind]
    refine Build.wp_mono wp_current (fun present w₁ _ => ?_) fun _ _ h => h
    rw [Build.wp_bind]
    refine wp_git fun output errors events hreply => ?_
    intro c hc
    exact ⟨_, _, _, _, hreply, Change.file_mem_of_mem_ofFields hc⟩

/-- Keeping a revision changes nothing but the disk, and fails only there. -/
theorem wp_save_disk (hwrites : outside.Writes) (staging revision : String) (w : World) :
    (save staging revision).wp (fun _ w' => Build.DiskOnly w w' ∧
      Alters [Disk.absolute w.cwd (Staging.markerPath staging)] w w') (fun f _ => f.IsDisk)
      outside w := by
  refine Build.wp_and_done ?_ (Build.wp_mono (wp_save staging revision) (fun _ _ h => h.1)
    fun _ _ h => h)
  rw [save, Build.wp_bind]
  refine Build.wp_mono (Build.wp_makeDirectories_disk hwrites _) (fun _ w₁ hw₁ => ?_) fun _ _ h => h
  rw [Build.wp_bind, Build.wp_stamp]
  exact Build.wp_mono (Build.wp_writeText_disk hwrites _ _) (fun _ _ hw₂ => hw₁.trans hw₂)
    fun _ _ h => h

section Alike

variable (halike : Outside.Alike related outside outside')

include halike

theorem keeps_git (arguments : List String) (directory : Option String) :
    Keeps (Tied related state) outside outside' (git arguments directory) := by
  intro w w' hw
  rw [git]
  refine Build.twin_get (Build.twin_bind ((Build.keeps_attempt halike _).twin hw
    (fun _ v v' hv => ?_) fun _ _ hv => hv))
  refine Build.twin_read ?_
  rw [halike.git _ _ arguments directory hw.1]
  cases outside.git w.events arguments directory with
  | notStarted reason => exact Build.twin_fail hv
  | finished status output errors =>
    dsimp only
    split
    · exact Build.twin_fail hv
    · exact Build.twin_pure hv

theorem keeps_current (repo : String) :
    Keeps (Tied related state) outside outside' (current repo) :=
  (keeps_git halike _ _).bind fun _ => .pure _

theorem keeps_changes (repo : String) (base : Option String) :
    Keeps (Tied related state) outside outside' (changes repo base) := by
  unfold changes
  split
  · exact (keeps_git halike _ _).bind fun _ => .pure _
  · exact (keeps_git halike _ _).bind fun _ => .pure _
  · refine (keeps_current halike repo).bind fun present => ?_
    refine (keeps_git halike _ _).bind fun output => ?_
    exact (Build.keeps_log halike _ _ _).bind fun _ => .pure _

/-- The revision of the last build is the same if the marker reads the same. -/
theorem keeps_last {staging : String}
    (h : ∀ v v', state v v' → v'.disk.read v'.cwd (Staging.markerPath staging) =
      v.disk.read v.cwd (Staging.markerPath staging)) :
    Keeps (Tied related state) outside outside' (last staging) := by
  rw [last, markerData]
  refine Keeps.bind (Keeps.bind (Build.keeps_readText halike h).outcome fun answer => ?_)
    fun data => ?_
  · cases answer with
    | ok text => exact .pure _
    | error f => exact .pure _
  · cases data with
    | some data => exact .pure _
    | none => exact .pure _

/-- Two runs that keep the same revision still share an output, unless the disk of one of them is at
fault. -/
theorem twin_save {staging project stage : String} {failed : World → World → Prop} {w w' : World}
    (hw : Tied related (SharesOutput staging project stage) w w') (revision : String) :
    Twin (save staging revision) (save staging revision) Failure.IsDisk
      (fun _ => Tied related (SharesOutput staging project stage)) failed outside
        outside' w w' := by
  obtain ⟨hpast, hshares⟩ := hw
  rw [SharesOutput.still_iff] at hshares
  refine Build.twin_of_wp (wp_save_disk halike.writes staging revision w)
    (wp_save_disk halike.writes' staging revision w') ?_
  rintro ⟨⟩ ⟨⟩ v v' ⟨honly, halters⟩ ⟨honly', halters'⟩
  exact ⟨rfl, halike.diskOnly hpast honly honly',
    SharesOutput.still_iff.2 (hshares.marks halters halters')⟩

end Alike

end Revision

/-! ### The stage -/

/-- Two worlds have a checkout, which may differ. -/
def Checkout.AreThere (repo : String) (w w' : World) : Prop :=
  w.disk.doesExist w.cwd repo = true ∧ w'.disk.doesExist w'.cwd repo = true

/-- Two worlds have the same in a checkout: the files in it that take part in a build and those that
version control names read the same. -/
structure Checkout.Same (outside : Outside) (repo : String) (w w' : World) : Prop where
  discover_eq : Source.discover w'.disk w'.cwd repo = Source.discover w.disk w.cwd repo
  read_eq : ∀ path, path ∈ Source.discover w.disk w.cwd repo ∨
    Source.isIncluded path = true ∧ Revision.Names outside repo path →
      w'.disk.read w'.cwd (Path.join repo path) = w.disk.read w.cwd (Path.join repo path)

/-- Two runs that bring a checkout up to date do the same where it is there. -/
theorem Checkout.keeps_sync {related : List Event → List Event → Prop}
    {state : World → World → Prop}
    {outside outside' : Outside} {repo : String} (halike : Outside.Alike related outside outside')
    (h : ∀ v v', state v v' → AreThere repo v v') (url branch : String) :
    Keeps (Tied related state) outside outside' (sync repo url branch) := by
  intro w w' hw
  obtain ⟨hthere, hthere'⟩ := h _ _ hw.2
  have hask : Twin (Build.askDisk fun d cwd => d.doesExist cwd repo)
      (Build.askDisk fun d cwd => d.doesExist cwd repo) (fun _ => False)
      (fun there v v' => there = true ∧ Tied related state v v')
        (Tied related state) outside outside'
      w w' :=
    ⟨hthere'.trans hthere.symm, hthere, hw⟩
  have hgit (arguments : List String) : Keeps (Tied related state) outside outside'
      (Revision.git arguments (some repo)) := Revision.keeps_git halike _ _
  rw [sync]
  refine Build.twin_bind (hask.mono (fun _ h => h) (fun there v v' hv => ?_) fun _ _ h => h)
  obtain ⟨rfl, hv⟩ := hv
  exact ((Build.keeps_log halike _ _ _).bind fun _ => (hgit _).bind fun _ => (hgit _).bind fun _ =>
    (hgit _).bind fun _ => Build.keeps_log halike _ _ _) v v' hv

namespace Reading

/-- Whether a build goes by the marker of the last build. -/
def UsesMarker (config : BuildConfig) : Prop :=
  config.mode ≠ Request.full ∧ config.baseCommit.getD "" = ""

/-- What the first stage reads is the same in two worlds. -/
structure ReadsAlike (outside : Outside) (config : BuildConfig) (w w' : World) : Prop where
  checkout : Checkout.Same outside config.repoPath w w'
  marker : UsesMarker config → w'.disk.read w'.cwd (Staging.markerPath config.stagingPath) =
    w.disk.read w.cwd (Staging.markerPath config.stagingPath)

/-- Two worlds have a project in common and what the first stage reads, the files that are found
among it. -/
structure Alike (outside : Outside) (config : BuildConfig) (found : List String) (w w' : World) :
    Prop extends ReadsAlike outside config w w' where
  project : SameProject config.stagingPath config.project w w'
  found_eq : Source.discover w.disk w.cwd config.repoPath = found

variable {related : List Event → List Event → Prop} {state : World → World → Prop}
  {outside outside' : Outside} {w w' : World} {config : BuildConfig}

/-- The files that are selected take part in a build, and they are found in the checkout or named by
version control. -/
theorem wp_select_paths : (select config).wp
    (fun selected _ => ∀ path ∈ selected.1,
      path ∈ Source.discover w.disk w.cwd config.repoPath ∨
        Source.isIncluded path = true ∧ Revision.Names outside config.repoPath path)
    (fun _ _ => True) outside w := by
  -- the same comes after each way to find the base
  have hrest (base : Option String) (w₁ : World) : (selectSince config base).wp
      (fun selected _ => ∀ path ∈ selected.1,
        path ∈ Source.discover w.disk w.cwd config.repoPath ∨
          Source.isIncluded path = true ∧ Revision.Names outside config.repoPath path)
      (fun _ _ => True) outside w₁ := by
    rw [selectSince, Build.wp_bind]
    refine Build.wp_mono (Revision.wp_changes_names _ _) (fun found w₂ hfound => ?_) fun _ _ h => h
    intro path hpath
    obtain ⟨c, hc, rfl⟩ := List.mem_map.1 hpath
    obtain ⟨hmem, hread⟩ := List.mem_filter.1 hc
    rw [Change.isToRead, Bool.and_eq_true] at hread
    exact .inr ⟨hread.2, hfound c hmem⟩
  have hlast : (select.lastRevision config >>= selectSince config).wp
      (fun selected _ => ∀ path ∈ selected.1,
        path ∈ Source.discover w.disk w.cwd config.repoPath ∨
          Source.isIncluded path = true ∧ Revision.Names outside config.repoPath path)
      (fun _ _ => True) outside w := by
    rw [Build.wp_bind]
    exact Build.wp_mono (Build.wp_true _) (fun base w₁ _ => hrest base w₁) fun _ _ h => h
  rw [select]
  split
  · simp only [Build.wp_bind, Build.wp_askDisk, Build.wp_log, Build.wp_pure]
    exact fun path hpath => .inl hpath
  · cases config.baseCommit with
    | none => exact hlast
    | some given =>
      dsimp only
      split
      · exact hlast
      · exact hrest _ _

section Alike

variable (halike : Outside.Alike related outside outside')

include halike

/-- The same is selected if the checkout is the same, and the marker of the last build if it is
used. -/
theorem keeps_select (hdiscover : ∀ v v', state v v' →
      Source.discover v'.disk v'.cwd config.repoPath = Source.discover v.disk v.cwd config.repoPath)
    (hmarker : UsesMarker config → ∀ v v', state v v' →
      v'.disk.read v'.cwd (Staging.markerPath config.stagingPath) =
        v.disk.read v.cwd (Staging.markerPath config.stagingPath)) :
    Keeps (Tied related state) outside outside' (select config) := by
  -- the same comes after each way to find the base
  have hrest (base : Option String) :
      Keeps (Tied related state) outside outside' (selectSince config base) :=
    (Revision.keeps_changes halike _ _).bind fun _ =>
      (Build.keeps_log halike _ _ _).bind fun _ => .pure _
  have hlast (h : UsesMarker config) :
      Keeps (Tied related state) outside outside' (select.lastRevision config) := by
    rw [select.lastRevision]
    refine (Revision.keeps_last halike (hmarker h)).bind fun kept => ?_
    split
    · exact .pure _
    · exact .pure _
    · exact .fail _
  rw [select]
  refine .ite (fun _ => ?_) fun hmode => ?_
  · exact (Build.keeps_askDisk hdiscover).bind fun _ =>
      (Build.keeps_log halike _ _ _).bind fun _ => .pure _
  · have hnotFull : config.mode ≠ Request.full := by simpa using hmode
    cases hcommit : config.baseCommit with
    | none => exact (hlast ⟨hnotFull, by rw [hcommit]; rfl⟩).bind hrest
    | some given =>
      dsimp only
      refine .ite (fun hempty => ?_) fun _ => hrest _
      have hgiven : given = "" := by simpa using hempty
      exact (hlast ⟨hnotFull, by rw [hcommit]; exact hgiven⟩).bind hrest

/-- The same comes of files that read the same. -/
theorem keeps_outcomes (repo : String) (total : Nat) {paths : List String}
    (h : ∀ path ∈ paths, ∀ v v', state v v' →
      v'.disk.read v'.cwd (Path.join repo path) = v.disk.read v.cwd (Path.join repo path))
    (count : Nat) :
    Keeps (Tied related state) outside outside' (outcomes repo total count paths) := by
  induction paths generalizing count with
  | nil => exact .pure _
  | cons path rest ih =>
    have hfile : Keeps (Tied related state) outside outside' (file repo path) :=
      (Build.keeps_readText halike (h path List.mem_cons_self)).bind fun _ => .take _ _
    have hreport (answer : Except Failure Findings) :
        Keeps (Tied related state) outside outside' (report path answer) := by
      cases answer with
      | ok found => exact .pure _
      | error f => exact Build.keeps_log halike _ _ _
    have htell (n : Nat) : Keeps (Tied related state) outside outside' (tell total n) :=
      .ite (fun _ => Build.keeps_log halike _ _ _) fun _ => .pure _
    rw [outcomes]
    exact hfile.outcome.bind fun answer => (hreport answer).bind fun _ => (htell _).bind fun _ =>
      (ih (fun other hother => h other (List.mem_cons_of_mem _ hother)) _).bind fun _ => .pure _

/-- Two runs that read the same checkout gather the same. -/
theorem twin_gather {found : List String} (hw : Tied related (Alike outside config found) w w') :
    Twin (gather config) (gather config) Failure.IsDisk
      (fun _ => Tied related (Alike outside config found))
      (Tied related (SameProject config.stagingPath config.project)) outside outside' w w' := by
  have hfailed (v v' : World) (hv : Tied related (Alike outside config found) v v') :
      Tied related (SameProject config.stagingPath config.project) v v' := ⟨hv.1, hv.2.project⟩
  have hselect : Keeps (Tied related (Alike outside config found)) outside outside'
      (select config) :=
    keeps_select halike (fun _ _ hv => hv.checkout.discover_eq) fun huses _ _ hv => hv.marker huses
  rw [gather]
  refine Build.twin_bind ((Build.keeps_log halike _ _ _).twin hw (fun _ w₁ w₁' hw₁ => ?_) hfailed)
  refine Build.twin_bind ((Build.keeps_now halike).twin hw₁ (fun start w₂ w₂' hw₂ => ?_) hfailed)
  refine Build.twin_bind ((Revision.keeps_current halike _).twin hw₂
    (fun revision w₃ w₃' hw₃ => ?_) hfailed)
  refine Build.twin_bind (((hselect.twin hw₃ (fun _ _ _ hv => hv) hfailed).and_wp
    wp_select_paths).mono (fun _ h => h) (fun selected w₄ w₄' hw₄ => ?_) fun _ _ h => h)
  obtain ⟨hpaths, hw₄⟩ := hw₄
  -- what was selected is in the checkout or named by version control, so it reads the same
  have hread (path : String) (hpath : path ∈ selected.1) (v v' : World)
      (hv : Alike outside config found v v') :
      v'.disk.read v'.cwd (Path.join config.repoPath path) =
        v.disk.read v.cwd (Path.join config.repoPath path) := by
    refine hv.checkout.read_eq path ((hpaths path hpath).imp_left fun hmem => ?_)
    rw [hv.found_eq, ← hw₃.2.found_eq]
    exact hmem
  obtain ⟨paths, removed⟩ := selected
  refine ((Build.keeps_stamp halike).bind fun stamp => ?_).twin hw₄ (fun _ _ _ h => h) hfailed
  -- what follows is the same with files to read and without
  have hrest := keeps_outcomes halike config.repoPath paths.length hread 0
  exact .ite (fun _ => (Build.keeps_log halike _ _ _).bind fun _ => hrest.bind fun _ => .pure _)
    fun _ => hrest.bind fun _ => .pure _

/-- Two runs that have gathered the same stage the same, unless the disk of one of them is at
fault. -/
theorem twin_finish (g : Gathered)
    (hw : Tied related (SameProject config.stagingPath config.project) w w') :
    Twin (finish config g) (finish config g) Failure.IsDisk
      (fun _ => Tied related (SharesOutput config.stagingPath config.project stage))
      (Tied related (SameProject config.stagingPath config.project)) outside outside' w w' := by
  rw [finish]
  refine Build.twin_bind ((Staging.twin_write halike hw _).mono (fun _ h => h)
    (fun _ w₁ w₁' hw₁ => ?_) fun _ _ h => h)
  refine Build.twin_bind ((Revision.twin_save halike hw₁ g.revision).mono (fun _ h => h)
    (fun _ w₂ w₂' hw₂ => ?_) fun _ _ h => h)
  exact (Keeps.bind (Build.keeps_now halike) fun finish =>
    (Build.keeps_log halike _ _ _).bind fun _ => .pure _).twin hw₂ (fun _ _ _ h => h)
      fun _ _ h => ⟨h.1, h.2.project⟩

/-- Two runs that read the same checkout stage the same, unless the disk of one of them is at
fault. -/
theorem twin_run {found : List String} (hw : Tied related (Alike outside config found) w w') :
    Twin (run config) (run config) Failure.IsDisk
      (fun _ => Tied related (SharesOutput config.stagingPath config.project stage))
      (Tied related (SameProject config.stagingPath config.project)) outside outside' w w' := by
  rw [run_eq]
  exact Build.twin_bind ((twin_gather halike hw).mono (fun _ h => h)
    (fun g _ _ hv => twin_finish halike g ⟨hv.1, hv.2.project⟩) fun _ _ h => h)

end Alike

end Reading

end RepoGraph
