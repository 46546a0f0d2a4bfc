import RepoGraph.Proofs.Reading

/-!
# Files that cannot be read, and steps that fail

The first stage reads the selected files one after the other.  What comes of a file, be it what is
found in it or a failure, is of no consequence for the others: the stage puts out what was found in
the files that could be read, as if no other had been selected.  Then it stages the output, and only
then it keeps the revision.  So wherever a run is stopped, the marker of the last build is as it was
unless the whole output of the run is in its place, and this output names the revision that version
control told.

`Reading.gather` is the stage up to where all files are read, `Reading.finish` what comes after it.

Main statements: `Reading.run_eq`, `Reading.wp_run_gathered`, `Reading.foundAmong_eq_of_leavesOut`,
`Reading.isIsolated_of_run`.
-/

namespace RepoGraph

open Staging (Notes Alters)
namespace Reading

variable {outside outside' : Outside} {w w' : World} {config config' : BuildConfig} {repo : String}

/-! ### The stage in two parts -/

/-- What a run has gathered once all files are read. -/
structure Gathered where
  start : Instant
  revision : String
  removed : List String
  stamp : String
  /-- What came of the selected files. -/
  told : List (String × Except Failure Findings)

/-- The stage up to where all files are read. -/
def gather (config : BuildConfig) : Build Gathered := do
  Build.log .info channel ["Starting parse stage (" ++ config.mode ++ " mode)"]
  let start ← Build.now
  let revision ← Revision.current config.repoPath
  let (paths, removed) ← select config
  let stamp ← Build.stamp
  if paths.isEmpty then Build.log .info channel ["Parse stage: no files to process"]
  let told ← outcomes config.repoPath paths.length 0 paths
  return ⟨start, revision, removed, stamp, told⟩

/-- The output of what was gathered. -/
def Gathered.output (config : BuildConfig) (g : Gathered) : ParseOutput :=
  Reading.output config g.stamp g.revision (foundAmong g.told) g.removed

/-- The stage from where all files are read. -/
def finish (config : BuildConfig) (g : Gathered) : Build ParseOutput := do
  let out := g.output config
  let _ ← Staging.write config.stagingPath stage (ParseOutput.toJson out)
  Revision.save config.stagingPath g.revision
  let finish ← Build.now
  Build.log .info channel
    ["Parse stage complete: " ++ toString out.entities.length ++ " entities, " ++
      toString out.relationships.length ++ " relationships in " ++
      toString (Build.elapsed g.start finish) ++ "ms"]
  return out

theorem run_eq (config : BuildConfig) : run config = gather config >>= finish config := by
  simp only [run, gather, bind_assoc, files_eq, bind_map_left]
  refine bind_congr fun _ => bind_congr fun start => bind_congr fun revision =>
    bind_congr fun selected => bind_congr fun stamp => ?_
  split <;> simp only [bind_assoc, pure_bind] <;> rfl

/-- Whether something may be gathered: the revision is one that version control tells, and for each
file that is selected there is what comes of it. -/
structure IsGathered (outside : Outside) (config : BuildConfig) (w : World)
    (g : Gathered) : Prop where
  revision : Revision.IsTold outside config.repoPath g.revision
  selected : ∃ w', Notes w w' ∧
    ((select config).run outside w').1 = .ok (g.told.map Prod.fst, g.removed)
  answered : ∀ came ∈ g.told, IsAnswered outside config.repoPath w came

/-- Whether a run gathers something. -/
structure Gathers (outside : Outside) (config : BuildConfig) (w : World) (g : Gathered) : Prop
    extends IsGathered outside config w g where
  answer : ((gather config).run outside w).1 = .ok g

theorem wp_gather_isGathered : (gather config).wp
    (fun g w' => IsGathered outside config w g ∧ Notes w w')
      (fun _ w' => Notes w w') outside w := by
  simp only [gather, Build.wp_bind, Build.wp_log, Build.wp_now, Build.wp_stamp]
  refine Build.wp_mono (Revision.wp_current_told _) (fun revision w₁ hw₁ => ?_) fun _ _ hw₁ =>
    .trans ⟨_, rfl⟩ hw₁
  obtain ⟨hrevision, hw₁⟩ := hw₁
  have hw₁ : Notes w w₁ := .trans ⟨_, rfl⟩ hw₁
  refine Build.wp_mono (isQuiet_select.wp_answer w₁) (fun selected w₂ hw₂ => ?_) fun _ _ hw₂ =>
    hw₁.trans hw₂.2
  obtain ⟨paths, removed⟩ := selected
  obtain ⟨hselected, hw₂⟩ := hw₂
  -- with or without a note that there is nothing to read
  have hread (start : Instant) (stamp : String) (w₃ : World) (hw₃ : Notes w₂ w₃) :
      (outcomes config.repoPath paths.length 0 paths).wp
        (fun told w' => IsGathered outside config w ⟨start, revision, removed, stamp, told⟩ ∧
          Notes w w')
        (fun _ w' => Notes w w') outside w₃ := by
    refine Build.wp_mono (wp_outcomes _ _ _ _ ((hw₁.trans hw₂).trans hw₃)) (fun told w₄ hw₄ => ?_)
      fun _ _ h => h
    obtain ⟨rfl, hall, hw₄⟩ := hw₄
    exact ⟨⟨hrevision, ⟨w₁, hw₁, hselected⟩, hall⟩, hw₄⟩
  split
  · rw [Build.wp_bind, Build.wp_log, Build.wp_bind]
    exact hread _ _ _ ⟨_, rfl⟩
  · rw [Build.wp_bind]
    exact hread _ _ w₂ ⟨w₂.events, rfl⟩

/-- What is gathered comes of the surroundings, and nothing is changed. -/
theorem wp_gather : (gather config).wp (fun g w' => Gathers outside config w g ∧ Notes w w')
    (fun _ w' => Notes w w') outside w :=
  Build.wp_mono (Build.wp_and (Build.wp_eq_iff.2 rfl) wp_gather_isGathered)
    (fun _ _ h => ⟨⟨h.2.1, h.1.symm⟩, h.2.2⟩) fun _ _ h => h.2

/-! ### What is put out -/

/-- What the stage puts out of what was gathered: what was found in the files that could be read,
one after the other. -/
structure IsPutOut (g : Gathered) (out : ParseOutput) : Prop where
  entities_eq : out.entities = (foundAmong g.told).flatMap fun came => came.2.entities
  relationships_eq : out.relationships = (foundAmong g.told).flatMap fun came =>
    came.2.relationships
  parsedFiles_eq : out.metadata.get? "parsedFiles" =
    some (.arr ((foundAmong g.told).map fun came => .str came.1))
  filesProcessed_eq : out.metadata.get? "filesProcessed" = some (.int (foundAmong g.told).length)
  commit_eq : out.metadata.get? "commit" = some (.str g.revision)

theorem isPutOut_output (config : BuildConfig) (g : Gathered) : IsPutOut g (g.output config) :=
  ⟨rfl, rfl, rfl, rfl, rfl⟩

/-! ### Leaving out the files that cannot be read -/

/-- Whether a second run leaves out the files in which a first one has found nothing: it selects the
others only, they read the same, and no reading of them is refused. -/
structure LeavesOut (outside' : Outside) (repo repo' : String) (w w' : World) (g g' : Gathered) :
    Prop where
  paths_eq : g'.told.map Prod.fst = (foundAmong g.told).map Prod.fst
  reads : ∀ path ∈ (foundAmong g.told).map Prod.fst, ∀ events,
    outside'.refuses events (.disk (.read (Path.join repo' path))) = none
  read_eq : ∀ path ∈ (foundAmong g.told).map Prod.fst,
    w'.disk.read w'.cwd (Path.join repo' path) = w.disk.read w.cwd (Path.join repo path)

/-- A run that leaves out the files that cannot be read finds the same. -/
theorem foundAmong_eq_of_leavesOut {repo' : String} {g g' : Gathered}
    (h : ∀ came ∈ g.told, IsAnswered outside repo w came)
    (h' : ∀ came ∈ g'.told, IsAnswered outside' repo' w' came)
    (hleaves : LeavesOut outside' repo repo' w w' g g') :
    foundAmong g'.told = foundAmong g.told := by
  have hpath {came : String × Except Failure Findings} (hcame : came ∈ g'.told) :
      came.1 ∈ (foundAmong g.told).map Prod.fst := hleaves.paths_eq ▸ List.mem_map_of_mem hcame
  rw [foundAmong_eq_foundIn h' fun came hcame => hleaves.reads _ (hpath hcame), hleaves.paths_eq]
  refine Eq.trans (List.filterMap_congr fun path hmem => ?_) (foundIn_foundAmong h)
  have hsays : readings repo' w' path = readings repo w path := by
    rw [readings, readings, hleaves.read_eq path hmem]
  rw [Source.findingsAt_congr hsays]

/-- Whether two outputs have the same of files. -/
structure SharesFiles (out out' : ParseOutput) : Prop where
  entities_eq : out'.entities = out.entities
  relationships_eq : out'.relationships = out.relationships
  parsedFiles_eq : out'.metadata.get? "parsedFiles" = out.metadata.get? "parsedFiles"
  filesProcessed_eq : out'.metadata.get? "filesProcessed" = out.metadata.get? "filesProcessed"

theorem IsPutOut.sharesFiles {g g' : Gathered} {out out' : ParseOutput} (h : IsPutOut g out)
    (h' : IsPutOut g' out') (hfound : foundAmong g'.told = foundAmong g.told) :
    SharesFiles out out' where
  entities_eq := by rw [h.entities_eq, h'.entities_eq, hfound]
  relationships_eq := by rw [h.relationships_eq, h'.relationships_eq, hfound]
  parsedFiles_eq := by rw [h.parsedFiles_eq, h'.parsedFiles_eq, hfound]
  filesProcessed_eq := by rw [h.filesProcessed_eq, h'.filesProcessed_eq, hfound]

/-! ### The output and the marker -/

theorem isUntouched_of_notes (h : Notes w w') : IsUntouched config w w' := by
  obtain ⟨events, rfl⟩ := h
  exact ⟨rfl, rfl⟩

/-- What was gathered is put out, or the stage breaks. -/
theorem wp_finish (g : Gathered) (hw : Notes w w') :
    (finish config g).wp
      (fun out w'' => out = g.output config ∧ Leaves config g.revision out w w'')
      (fun _ w'' => Breaks config (g.output config) w w'') outside w' := by
  simp only [finish, Build.wp_bind]
  refine Build.wp_mono (wp_keep g.revision _ hw) (fun _ w₁ hw₁ => ?_) fun _ _ h => h
  refine Build.wp_mono hw₁ (fun _ w₂ hw₂ => ?_) fun _ _ h => h
  rw [Build.wp_now, Build.wp_log, Build.wp_pure]
  exact ⟨rfl, hw₂.noted _⟩

/-- A run puts out what it has gathered, breaks when it has, or changes nothing. -/
theorem wp_run_gathered : (run config).wp
    (fun out w' => ∃ g, Gathers outside config w g ∧ out = g.output config ∧
      Leaves config g.revision out w w')
    (fun _ w' => Notes w w' ∨ ∃ g, Gathers outside config w g ∧
      Breaks config (g.output config) w w')
    outside w := by
  rw [run_eq, Build.wp_bind]
  refine Build.wp_mono wp_gather (fun g w₁ hg => ?_) fun _ _ hw₁ => .inl hw₁
  exact Build.wp_mono (wp_finish g hg.2) (fun out w₂ hw₂ => ⟨g, hg.1, hw₂⟩)
    fun _ _ hw₂ => .inr ⟨g, hg.1, hw₂⟩

/-- Whatever happens, the stage changes the files of its output and the marker at most. -/
theorem wp_run_alters : (run config).wp
    (fun _ w' => Alters (writtenPlaces w.cwd config.stagingPath) w w')
    (fun _ w' => Alters (writtenPlaces w.cwd config.stagingPath) w w') outside w := by
  refine Build.wp_mono wp_run_gathered ?_ ?_
  · rintro out w' ⟨g, -, -, hleaves⟩
    exact hleaves.alters
  · rintro f w' (hw' | ⟨g, -, hbreaks⟩)
    · exact hw'.alters
    · exact hbreaks.alters

/-- When the stage ends well, its output is what was found in the files that could be read, and so
is that of any run that leaves out the others.  Wherever it is stopped, output and marker are as
they were, or the whole output is in its place and names the revision that version control told. -/
theorem isIsolated_of_run (outside : Outside) (config : BuildConfig) (w : World) :
    (∀ out after, (run config).run outside w = (.ok out, after) →
      ∃ g, Gathers outside config w g ∧ IsPutOut g out ∧ Leaves config g.revision out w after ∧
        ∀ (outside' : Outside) (config' : BuildConfig) (w' : World) (g' : Gathered)
          (out' : ParseOutput) (after' : World),
          (run config').run outside' w' = (.ok out', after') → Gathers outside' config' w' g' →
          LeavesOut outside' config.repoPath config'.repoPath w w' g g' → SharesFiles out out') ∧
    ∀ answer after, (run config).run outside w = (answer, after) →
      IsUntouched config w after ∨
        ∃ g out, Gathers outside config w g ∧ IsPutOut g out ∧
          after.disk.fileAt w.cwd (Staging.artifactPath config.stagingPath stage) =
            some (.text (ParseOutput.toJson out).pretty) := by
  refine ⟨fun out after hrun => ?_, fun answer after hrun => ?_⟩
  · obtain ⟨g, hg, rfl, hleaves⟩ := Build.of_wp_of_ok wp_run_gathered hrun
    refine ⟨g, hg, isPutOut_output config g, hleaves,
      fun outside' config' w' g' out' after' hrun' hg'
      hleavesOut => ?_⟩
    obtain ⟨g'', hg'', rfl, -⟩ := Build.of_wp_of_ok wp_run_gathered hrun'
    obtain rfl : g'' = g' := Except.ok.inj (hg''.answer.symm.trans hg'.answer)
    exact (isPutOut_output config g).sharesFiles (isPutOut_output config' g'')
      (foundAmong_eq_of_leavesOut hg.answered hg''.answered hleavesOut)
  · cases answer with
    | ok out =>
      obtain ⟨g, hg, rfl, hleaves⟩ := Build.of_wp_of_ok wp_run_gathered hrun
      exact .inr ⟨g, _, hg, isPutOut_output config g, hleaves.artifact⟩
    | error f =>
      obtain hw' | ⟨g, hg, hbreaks⟩ := Build.of_wp_of_error wp_run_gathered hrun
      · exact .inl (isUntouched_of_notes hw')
      · exact hbreaks.kept.imp id fun hartifact =>
          ⟨g, _, hg, isPutOut_output config g, hartifact⟩

/-! ### A file that cannot be read -/

/-- Surroundings in which version control lists some files, and the readings of some files are
refused. -/
def listing (files : String) (refused : List String) : Outside where
  clock _ := ⟨2024, 1, 1, 0, 0, 0, 0⟩
  refuses _ event :=
    match event with
    | .disk (.read path) => if refused.contains path then
        some (.disk ⟨.missing, path, none⟩) else none
    | _ => none
  arrived _ := 0
  git _ arguments _ := .finished 0 (if arguments.head? = some "log" then "r1\n" else files) ""
  embed _ _ := .ok .null
  chat _ _ := .ok none
  statement _ _ := .error .notProvided
  ping _ := .ok ()
  fetch _ _ := .ok ()

/-- A checkout with two documents. -/
def documentsWorld : World :=
  World.ofDisk ((Disk.empty.provide [] "repo/a.md" (.text "x")).provide [] "repo/b.md" (.text "y"))
    []

/-- An incremental build of it. -/
def documentsConfig : BuildConfig := ⟨"repo", "s", Request.incremental, "p", none⟩

/-- A run in which the first document cannot be read, and one in which it is not listed. -/
theorem isIsolated_of_run_refusedFile : ∃ out after out' after',
    (run documentsConfig).run (listing "a.md\x00b.md\x00" ["repo/a.md"]) documentsWorld =
        (.ok out, after) ∧
      (run documentsConfig).run (listing "b.md\x00" []) documentsWorld = (.ok out', after') ∧
      out.entities.map Entity.id = ["doc:b.md"] ∧ SharesFiles out out' ∧
      ∃ stamp, after.disk.fileAt [] (Staging.markerPath "s") =
        some (.text (Revision.marker "r1" stamp).pretty) := by
  -- both runs are computed as far as the files they tell of
  have hrun : ((run documentsConfig).run (listing "a.md\x00b.md\x00" ["repo/a.md"])
      documentsWorld).1.toOption.map (fun out => out.entities.map Entity.id) =
        some ["doc:b.md"] := by decide +kernel
  have hrun' : ((run documentsConfig).run
      (listing "b.md\x00" []) documentsWorld).1.toOption.isSome =
      true := by decide +kernel
  have hgather : ((gather documentsConfig).run (listing "a.md\x00b.md\x00" ["repo/a.md"])
      documentsWorld).1.toOption.map (fun g => (g.revision, (foundAmong g.told).map Prod.fst)) =
        some ("r1", ["b.md"]) := by decide +kernel
  have hgather' : ((gather documentsConfig).run
      (listing "b.md\x00" []) documentsWorld).1.toOption.map
      (fun g => g.told.map Prod.fst) = some ["b.md"] := by decide +kernel
  cases hcase : (run documentsConfig).run (listing "a.md\x00b.md\x00" ["repo/a.md"])
    documentsWorld with
  | mk answer after =>
  cases hcase' : (run documentsConfig).run (listing "b.md\x00" []) documentsWorld with
  | mk answer' after' =>
  rw [hcase] at hrun
  rw [hcase'] at hrun'
  cases answer with
  | error f => cases hrun
  | ok out =>
  cases answer' with
  | error f => cases hrun'
  | ok out' =>
  -- the files they share are those of which the second one tells
  obtain ⟨g, hg, -, hleaves, hsame⟩ :=
    (isIsolated_of_run (listing "a.md\x00b.md\x00" ["repo/a.md"]) documentsConfig documentsWorld).1
      out after hcase
  obtain ⟨g', hg', -⟩ :=
    (isIsolated_of_run (listing "b.md\x00" []) documentsConfig documentsWorld).1
    out' after' hcase'
  rw [hg.answer] at hgather
  rw [hg'.answer] at hgather'
  obtain ⟨hrevision, hfound⟩ := Prod.mk.inj (Option.some.inj hgather)
  refine ⟨out, after, out', after', rfl, rfl, Option.some.inj hrun, ?_, hrevision ▸ hleaves.marker⟩
  refine hsame _ documentsConfig documentsWorld g' out' after' hcase' hg' ⟨?_, fun _ _ _ => rfl,
    fun _ _ => rfl⟩
  exact (Option.some.inj hgather').trans hfound.symm

end Reading

end RepoGraph
