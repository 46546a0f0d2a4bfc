import RepoGraph.Proofs.Handover
import RepoGraph.Proofs.Populate.Success

/-!
# When a build ends well

Where nothing is refused and version control answers, a build ends well on a staging area that is
laid out: its directories are there, and where its files are to be put there is no directory.  No
stage makes or removes a directory of such a staging area, so each finds it laid out, too, and reads
what the stage before has staged, unless that holds an integer with too many digits.

Main statements: `Staging.succeeds_write`, `Reading.succeeds_run`, `Settings.succeeds_enriching`,
`Settings.succeeds_populating`, `Settings.succeeds_build`.
-/

namespace RepoGraph

open Disk (SameDirectories)
open Staging (Notes)

variable {outside : Outside} {w w' w'' : World}

/-! ### The staging area -/

namespace Staging

/-- A world is another one except for the files on its disk and what was done. -/
def KeepsRoom (w w' : World) : Prop :=
  ∃ disk events, SameDirectories w.disk disk ∧ w' = { w with disk, events }

theorem Notes.keepsRoom (h : Notes w w') : KeepsRoom w w' := by
  obtain ⟨events, rfl⟩ := h
  exact ⟨w.disk, events, SameDirectories.refl _, rfl⟩

theorem KeepsRoom.trans (h : KeepsRoom w w') (h' : KeepsRoom w' w'') : KeepsRoom w w'' := by
  obtain ⟨disk, events, hsame, rfl⟩ := h
  obtain ⟨disk', events', hsame', rfl⟩ := h'
  exact ⟨disk', events', hsame.trans hsame', rfl⟩

theorem KeepsRoom.collections_eq (h : KeepsRoom w w') : w'.collections = w.collections := by
  obtain ⟨disk, events, -, rfl⟩ := h
  rfl

theorem KeepsRoom.service_eq (h : KeepsRoom w w') : w'.service = w.service := by
  obtain ⟨disk, events, -, rfl⟩ := h
  rfl

theorem KeepsRoom.hasRoom (h : KeepsRoom w w') {directory path : String}
    (hroom : w.disk.HasRoom w.cwd directory path) : w'.disk.HasRoom w'.cwd directory path := by
  obtain ⟨disk, events, hsame, rfl⟩ := h
  exact hroom.same hsame

/-- Whether a staging area is laid out: there is room for the outputs, for the texts beside them,
for the marker and for the graph. -/
structure IsLaidOut (staging : String) (disk : Disk) (cwd : Place) : Prop where
  output : ∀ stage ∈ [Reading.stage, Enriching.stage],
    disk.HasRoom cwd (Path.parent (artifactPath staging stage)) (artifactPath staging stage)
  temporary : ∀ stage ∈ [Reading.stage, Enriching.stage],
    disk.HasRoom cwd (Path.parent (artifactPath staging stage))
      (temporaryPath (artifactPath staging stage))
  marker : disk.HasRoom cwd staging (markerPath staging)
  graph : disk.HasRoom cwd (GraphStore.directoryOf (graphPath staging) cwd) (graphPath staging)

instance (staging : String) (disk : Disk) (cwd : Place) : Decidable (IsLaidOut staging disk cwd) :=
  decidable_of_iff
    ((∀ stage ∈ [Reading.stage, Enriching.stage],
        disk.HasRoom cwd (Path.parent (artifactPath staging stage)) (artifactPath staging stage) ∧
          disk.HasRoom cwd (Path.parent (artifactPath staging stage))
            (temporaryPath (artifactPath staging stage))) ∧
      disk.HasRoom cwd staging (markerPath staging) ∧
      disk.HasRoom cwd (GraphStore.directoryOf (graphPath staging) cwd) (graphPath staging))
    ⟨fun h => ⟨fun stage hstage => (h.1 stage hstage).1, fun stage hstage => (h.1 stage hstage).2,
        h.2.1, h.2.2⟩,
      fun h => ⟨fun stage hstage => ⟨h.output stage hstage, h.temporary stage hstage⟩, h.marker,
        h.graph⟩⟩

theorem IsLaidOut.same {staging : String} {disk disk' : Disk} {cwd : Place}
    (h : IsLaidOut staging disk cwd) (hsame : SameDirectories disk disk') :
    IsLaidOut staging disk' cwd where
  output stage hstage := (h.output stage hstage).same hsame
  temporary stage hstage := (h.temporary stage hstage).same hsame
  marker := h.marker.same hsame
  graph := h.graph.same hsame

theorem IsLaidOut.keeps {staging : String} (h : IsLaidOut staging w.disk w.cwd)
    (hkeeps : KeepsRoom w w') : IsLaidOut staging w'.disk w'.cwd := by
  obtain ⟨disk, events, hsame, rfl⟩ := hkeeps
  exact h.same hsame

/-- Where there is room for a file its directory need not be made. -/
theorem succeeds_makeDirectories (hcalm : outside.IsCalm) {directory path : String}
    (hroom : w.disk.HasRoom w.cwd directory path) :
    (Build.makeDirectories directory).wp (fun _ w' => KeepsRoom w w')
      (fun _ _ => False) outside w :=
  Build.wp_mono (Build.succeeds_changeDisk hcalm _ hroom.makeDirectories_eq)
    (fun _ _ hw₁ => ⟨w.disk, _, SameDirectories.refl _, hw₁⟩) fun _ _ => id

/-- Where there is room for a file a text is written. -/
theorem succeeds_writeText (hcalm : outside.IsCalm) {directory path : String}
    (hroom : w.disk.HasRoom w.cwd directory path) (text : String) :
    (Build.writeText path text).wp
      (fun _ w' => KeepsRoom w w' ∧ w'.disk.read w'.cwd path = .ok (.text text)) (fun _ _ => False)
      outside w := by
  obtain ⟨created, hcreated⟩ := hroom.exists_write (.text "")
  obtain ⟨disk, hdisk⟩ := Disk.write_again hcreated (.text text)
  simp only [Build.writeText, Build.wp_bind]
  refine Build.wp_mono (Build.succeeds_changeDisk hcalm _ hcreated)
    (fun _ w₁ hw₁ => ?_) fun _ _ => id
  subst hw₁
  rw [Build.wp_outcome]
  refine Build.wp_mono (Build.wp_attempt_of_isCalm hcalm _)
    (fun _ w₂ hw₂ => ?_) fun _ _ => False.elim
  subst hw₂
  simp only [Build.wp_bind, Build.wp_get, Build.wp_set, hdisk, Except.toOption, Option.getD_some]
  exact ⟨⟨disk, _, (Disk.sameDirectories_write hcreated).trans (Disk.sameDirectories_write hdisk),
    rfl⟩,
    Disk.read_write hdisk⟩

/-- Whether a staging area takes the output of a stage: the stage's directory can be made, and then
there is room for the output and for the text beside it. -/
structure Takes (staging stage : String) (disk made : Disk) (cwd : Place) : Prop where
  makes : disk.makeDirectories cwd (Path.parent (artifactPath staging stage)) = .ok made
  output : made.HasRoom cwd (Path.parent (artifactPath staging stage)) (artifactPath staging stage)
  temporary : made.HasRoom cwd (Path.parent (artifactPath staging stage))
    (temporaryPath (artifactPath staging stage))

theorem IsLaidOut.takes {staging stage : String} {disk : Disk} {cwd : Place}
    (h : IsLaidOut staging disk cwd) (hstage : stage ∈ [Reading.stage, Enriching.stage]) :
    Takes staging stage disk disk cwd :=
  ⟨(h.output stage hstage).makeDirectories_eq, h.output stage hstage, h.temporary stage hstage⟩

/-- An output is staged where it is taken. -/
theorem succeeds_write (hcalm : outside.IsCalm) {staging stage : String} {made : Disk}
    (htakes : Takes staging stage w.disk made w.cwd) (output : Json) :
    (write staging stage output).wp (fun _ w' => KeepsRoom { w with disk := made } w')
      (fun _ _ => False) outside w := by
  simp only [write, writeImage, Build.wp_bind, Build.wp_ensuring, Build.makeDirectories]
  refine Build.wp_mono (Build.succeeds_changeDisk hcalm _ htakes.makes) (fun _ w₁ hw₁ => ?_)
    fun _ _ => id
  subst hw₁
  refine Build.wp_mono (succeeds_writeText hcalm htakes.temporary _) (fun _ w₂ hw₂ => ?_)
    fun _ _ => False.elim
  obtain ⟨hw₂, hread⟩ := hw₂
  have hkeeps₂ : KeepsRoom { w with disk := made } w₂ := (Notes.keepsRoom ⟨_, rfl⟩).trans hw₂
  obtain ⟨disk, hreplace, hsame⟩ := (hkeeps₂.hasRoom htakes.output).exists_replace hread
  refine Build.wp_mono (Build.succeeds_changeDisk hcalm _ hreplace) (fun _ w₃ hw₃ => ?_)
    fun _ _ => False.elim
  subst hw₃
  -- nothing is left beside the output
  have hnone := (Disk.replace_eq_ok hreplace (temporary_ne_artifact _ _ _)).2.2
  simp only [removeIfThere, Build.wp_bind, Build.wp_askDisk, Build.wp_ite,
    Disk.doesExist_eq_false hnone, Bool.false_eq_true, if_false, Build.wp_pure]
  exact hkeeps₂.trans ⟨disk, _, hsame, rfl⟩

end Staging

open Staging (KeepsRoom IsLaidOut)

/-! ### Version control -/

/-- Whether version control ends well whatever it is asked. -/
def Outside.HasGit (outside : Outside) : Prop :=
  ∀ past arguments directory, ∃ output errors,
    outside.git past arguments directory = .finished 0 output errors

namespace Revision

theorem succeeds_git (hcalm : outside.IsCalm) (hgit : outside.HasGit) (arguments : List String)
    (directory : Option String) : (git arguments directory).Succeeds outside w := by
  rw [Build.Succeeds]
  simp only [git, Build.wp_bind, Build.wp_get, Build.wp_attempt, Build.wp_read]
  refine ⟨fun _ => ?_, fun f hf => ?_⟩
  · obtain ⟨output, errors, hreply⟩ := hgit w.events arguments directory
    rw [hreply]
    exact trivial
  · rw [hcalm] at hf
    cases hf

theorem succeeds_current (hcalm : outside.IsCalm) (hgit : outside.HasGit) (repo : String) :
    (current repo).Succeeds outside w := by
  rw [Build.Succeeds]
  rw [current, Build.wp_bind]
  exact succeeds_git hcalm hgit _ _

theorem succeeds_changes (hcalm : outside.IsCalm) (hgit : outside.HasGit) (repo : String)
    (base : Option String) : (changes repo base).Succeeds outside w := by
  rw [Build.Succeeds]
  unfold changes
  split
  · rw [Build.wp_bind]
    exact succeeds_git hcalm hgit _ _
  · rw [Build.wp_bind]
    exact succeeds_git hcalm hgit _ _
  · rw [Build.wp_bind]
    refine Build.wp_mono (succeeds_current hcalm hgit repo) (fun present w₁ _ => ?_) fun _ _ => id
    rw [Build.wp_bind]
    exact Build.wp_mono (succeeds_git hcalm hgit _ _) (fun _ _ _ => trivial) fun _ _ => id

/-- The marker of the last build is read as far as it can be. -/
theorem succeeds_last (staging : String) : (last staging).Succeeds outside w := by
  rw [Build.Succeeds]
  simp only [last, markerData, Build.wp_bind, Build.wp_outcome]
  refine Staging.wp_readText (fun content text events _ _ => ?_) fun f events => trivial
  rw [Build.wp_pure]
  cases (Json.read text).toOption <;> exact trivial

theorem succeeds_save (hcalm : outside.IsCalm) {staging : String}
    (hroom : w.disk.HasRoom w.cwd staging (Staging.markerPath staging)) (revision : String) :
    (save staging revision).wp (fun _ w' => KeepsRoom w w') (fun _ _ => False) outside w := by
  simp only [save, Build.wp_bind, Build.wp_stamp]
  refine Build.wp_mono (Staging.succeeds_makeDirectories hcalm hroom) (fun _ w₁ hw₁ => ?_)
    fun _ _ => id
  exact Build.wp_mono (Staging.succeeds_writeText hcalm (hw₁.hasRoom hroom) _)
    (fun _ _ hw₂ => hw₁.trans hw₂.1) fun _ _ => id

end Revision

/-! ### Reading -/

namespace Reading

variable {config : BuildConfig}

/-- Selecting ends well by any base. -/
theorem succeeds_select (hcalm : outside.IsCalm) (hgit : outside.HasGit) {base : Option String}
    (hbase : IsBase outside config w base) : (select config).Succeeds outside w := by
  rw [Build.Succeeds]
  have hlast (h : Revision.IsKept outside config.stagingPath w base) :
      (select.lastRevision config).Succeeds outside w := by
    rw [Build.Succeeds]
    rw [select.lastRevision, Build.wp_bind]
    refine Build.wp_mono ((Revision.succeeds_last _).wp (Revision.wp_last h))
      (fun kept w₁ hw₁ => ?_)
      fun _ _ => id
    rw [hw₁.1]
    cases base <;> exact trivial
  rw [select, Build.wp_ite]
  split
  · exact trivial
  -- the same comes after each way to find the base
  · have hrest (given : Option String) (w₁ : World) :
        (selectSince config given).wp (fun _ _ => True) (fun _ _ => False) outside w₁ := by
      rw [selectSince, Build.wp_bind]
      exact Build.wp_mono (Revision.succeeds_changes hcalm hgit _ _) (fun _ _ _ => trivial)
        fun _ _ => id
    rw [IsBase] at hbase
    cases hcommit : config.baseCommit with
    | none =>
      rw [hcommit] at hbase
      exact (Build.wp_bind _ _).2 (Build.wp_mono (hlast hbase) (fun given w₁ _ => hrest given w₁)
        fun _ _ => id)
    | some given =>
      rw [hcommit, Option.getD_some] at hbase
      by_cases hempty : given = ""
      · rw [if_pos hempty] at hbase
        simp only [hempty, beq_self_eq_true, if_true]
        exact (Build.wp_bind _ _).2 (Build.wp_mono (hlast hbase) (fun given w₁ _ => hrest given w₁)
          fun _ _ => id)
      · simp only [beq_iff_eq, hempty, if_false]
        exact hrest (some given) w

/-- The first stage ends well. -/
theorem succeeds_run (hcalm : outside.IsCalm) (hgit : outside.HasGit)
    {selected : List String × List String}
    (hselect : ∀ w', Notes w w' → (select config).wp
      (fun selected' w'' => selected' = selected ∧ Notes w' w'') (fun _ _ => False) outside w')
    (hpaths : ∀ path ∈ selected.1, path ∈ w.disk.filesBelow w.cwd config.repoPath)
    (hroom : IsLaidOut config.stagingPath w.disk w.cwd) :
    (run config).wp (fun _ w' => KeepsRoom w w') (fun _ _ => False) outside w := by
  have hreadable : IsReadable outside config.repoPath := fun _ _ => hcalm _ _
  simp only [run, Build.wp_bind, Build.wp_log, Build.wp_now]
  refine Build.wp_mono ((Revision.succeeds_current hcalm hgit _).wp Revision.wp_current)
    (fun revision w₁ hw₁ => ?_) fun _ _ => id
  have hnotes₁ : Notes w w₁ := .trans ⟨_, rfl⟩ hw₁.2
  refine Build.wp_mono (hselect w₁ hnotes₁) (fun chosen w₂ hw₂ => ?_) fun _ _ => id
  obtain ⟨rfl, hw₂⟩ := hw₂
  obtain ⟨paths, gone⟩ := chosen
  simp only [Build.wp_bind, Build.wp_stamp, Build.wp_ite, Build.wp_log, Build.wp_pure, Build.wp_now]
  have hnotes₂ := hnotes₁.trans hw₂
  split
  all_goals
    refine Build.wp_mono (wp_files hreadable paths.length hpaths 0 (hnotes₂.trans ⟨_, rfl⟩))
      (fun found w₃ hw₃ => ?_) fun _ _ => id
    obtain ⟨-, hw₃⟩ := hw₃
    have hroom₃ : IsLaidOut config.stagingPath w₃.disk w₃.cwd := hroom.keeps hw₃.keepsRoom
    refine Build.wp_mono (Staging.succeeds_write hcalm (hroom₃.takes List.mem_cons_self) _)
      (fun _ w₄ hw₄ => ?_) fun _ _ => id
    refine Build.wp_mono (Revision.succeeds_save hcalm (hroom₃.keeps hw₄).marker _)
      (fun _ w₅ hw₅ => ?_) fun _ _ => id
    exact ((hw₃.keepsRoom.trans hw₄).trans hw₅).trans (Notes.keepsRoom ⟨_, rfl⟩)

end Reading

/-! ### Enriching -/

/-- What was staged is held, if it has no long integers. -/
theorem Staging.heldOutput_of_fileAt {α : Type} {toJson : α → Json}
    {ofJson : Json → Except RecordFault α} {entity : α → α}
    (hentity : ∀ a, ofJson (toJson a).asRead = .ok (entity a))
    {staging stage : String} {disk : Disk}
    {cwd : Place} {output : Output α} (hreached : disk.IsReached cwd (Path.join staging stage))
    (hfile : disk.fileAt cwd (artifactPath staging stage) =
      some (.text (Output.toJson toJson output).pretty))
    (hshort : (Output.toJson toJson output).isShort = true) :
    heldOutput ofJson staging stage disk cwd = some (output.asRead entity) := by
  have hread : disk.read cwd (artifactPath staging stage) =
      .ok (.text (Output.toJson toJson output).pretty) :=
    (Disk.read_join_iff hreached isName_output).2 hfile
  have hobject : objectOf (Output.toJson toJson output).pretty =
      some (Output.toJson toJson output).asRead := by
    rw [objectOf, Json.read_pretty_of_isShort hshort, Output.toJson, Json.asRead]
  rw [heldOutput, held_eq_some_iff.2 ⟨_, _, hread, read_pretty _, hobject⟩]
  show (Output.ofJson ofJson (Output.toJson toJson output).asRead).toOption = _
  rw [Output.ofJson_asRead hentity]
  rfl

namespace Settings

variable {s : Settings} {config : BuildConfig}

/-- Whether the settings name an embedding provider that can be had. -/
def HasProvider (s : Settings) : Prop :=
  s.embeddingProvider = "tei" ∨ s.embeddingProvider = "openai" ∧ s.chatKey.isFilled = true

theorem succeeds_connectModel (hcalm : outside.IsCalm) (hkey : s.chatKey.isFilled = true) :
    s.connectModel.Succeeds outside w := by
  rw [connectModel, if_pos hkey]
  exact Build.succeeds_attempt hcalm _

theorem succeeds_embedder (hcalm : outside.IsCalm) (hprovider : s.HasProvider) :
    s.embedder.Succeeds outside w := by
  rw [Build.Succeeds]
  rw [embedder]
  rcases hprovider with htei | ⟨hopenai, hkey⟩
  · rw [htei]
    exact trivial
  · rw [hopenai, beq_self_eq_true, if_pos rfl, Build.wp_bind]
    exact Build.wp_mono (succeeds_connectModel hcalm hkey) (fun _ _ _ => trivial) fun _ _ => id

theorem succeeds_chat (hcalm : outside.IsCalm) : s.chat.Succeeds outside w := by
  rw [Build.Succeeds]
  rw [chat, Build.wp_ite]
  split
  · rename_i hkey
    rw [Build.wp_bind]
    exact Build.wp_mono (succeeds_connectModel hcalm hkey) (fun _ _ _ => trivial) fun _ _ => id
  · exact trivial

/-- The second stage ends well on what the first one has staged. -/
theorem succeeds_enriching (hcalm : outside.IsCalm) (hprovider : s.HasProvider)
    {input : ParseOutput} (hheld : Staging.heldOutput Entity.ofJson config.stagingPath "parse"
      w.disk w.cwd = some input) (hroom : IsLaidOut config.stagingPath w.disk w.cwd) :
    (s.enriching config).wp (fun _ w' => KeepsRoom w w') (fun _ _ => False) outside w := by
  rw [Staging.heldOutput] at hheld
  obtain ⟨object, hobject, hinput⟩ := Option.bind_eq_some_iff.1 hheld
  rw [enriching, Build.wp_bind]
  refine Build.wp_mono ((succeeds_embedder hcalm hprovider).wp wp_embedder) (fun e w₁ hw₁ => ?_)
    fun _ _ => id
  obtain ⟨rfl, hw₁⟩ := hw₁
  rw [Build.wp_bind]
  refine Build.wp_mono ((succeeds_chat hcalm).wp wp_chat) (fun hasChat w₂ hw₂ => ?_) fun _ _ => id
  obtain ⟨rfl, hw₂⟩ := hw₂
  obtain ⟨events, rfl⟩ := hw₁.trans hw₂
  simp only [Enriching.run, Build.wp_bind, Build.wp_log, Build.wp_now]
  refine Build.wp_mono ((Staging.succeeds_read hcalm ?_).wp (Staging.wp_read _ _))
    (fun staged w₃ hw₃ => ?_) fun _ _ => id
  · exact Option.isSome_iff_exists.2 ⟨object, hobject⟩
  obtain ⟨hstaged, hw₃⟩ := hw₃
  obtain rfl : object = staged := Option.some.inj (hobject.symm.trans hstaged)
  rw [Build.wp_take]
  refine ⟨fun input' _ => ?_, fun fault hfault => ?_⟩
  · -- the enrichers do not fail, so only the room on the disk is left to see to
    have hembed (text : String) (w : World) : (s.namedEmbedder.embed text).wp
        (fun _ w' => Notes w w') (fun _ w' => Notes w w') outside w := Embedder.wp_embed _ _
    refine Build.wp_mono (CodeEnricher.wp_enrichAll fun e _ w' => CodeEnricher.wp_enrich hembed e)
      (fun cs w₄ hw₄ => ?_) fun _ _ => id
    refine Build.wp_mono
      (DocumentEnricher.wp_enrichAll fun e _ w' => DocumentEnricher.wp_enrich hembed e)
      (fun ds w₅ hw₅ => ?_) fun _ _ => id
    have hkeeps : KeepsRoom w w₅ :=
      (Notes.trans ⟨_, rfl⟩ ((hw₃.trans hw₄.2).trans hw₅.2)).keepsRoom
    have hroom₅ : IsLaidOut config.stagingPath w₅.disk w₅.cwd := hroom.keeps hkeeps
    have hstage : Enriching.stage ∈ [Reading.stage, Enriching.stage] := by simp
    simp only [Build.wp_stamp]
    exact Build.wp_mono (Staging.succeeds_write hcalm (hroom₅.takes hstage) _)
      (fun _ _ hw₆ => (hkeeps.trans hw₆).trans (Notes.keepsRoom ⟨_, rfl⟩)) fun _ _ => id
  · rw [show Output.ofJson Entity.ofJson object = .error fault from hfault] at hinput
    cases hinput

end Settings

/-! ### Filling the stores -/

/-- What was handed on has a scope. -/
theorem Handover.IsHanded.hasScope {R : Entity → Enriched → Prop} {config : BuildConfig}
    {t : Source.Tree} {paths gone : List String} {held : EnrichOutput}
    (h : IsHanded R config t paths gone held) : Populating.HasScope config held := by
  intro _
  obtain ⟨hparsed, hgone⟩ := h.told_eq
  refine ⟨some (Text.distinct (parsed t paths ++ gone)), ?_⟩
  rw [Populating.told] at hparsed hgone
  simp only [Populating.scope, hparsed, hgone]
  show (do return some (Text.distinct ((← Populating.pathsOf (listed (parsed t paths))) ++
    (← Populating.pathsOf (listed gone)))) : Except RecordFault _) = _
  rw [pathsOf_listed, pathsOf_listed]
  rfl

/-- A graph can be opened where there is room for it and no other file. -/
theorem GraphStore.canOpen_of_hasRoom {directory path : String}
    (hroom : w.disk.HasRoom w.cwd directory path)
    (hfile : ∀ content, w.disk.fileAt w.cwd path = some content → ∃ g, content = .graph g) :
    CanOpen path w := by
  intro hexists
  obtain ⟨place, hplace, hnot⟩ := hroom.free
  rw [Disk.doesExist, Disk.entry?, hplace] at hexists
  cases hentry : w.disk.get? place with
  | none =>
    simp only [hentry] at hexists
    cases hexists
  | some entry =>
    cases entry with
    | directory =>
      rw [Disk.get?_eq_directory_iff, hnot] at hentry
      cases hentry
    | file content =>
      have hread : w.disk.read w.cwd path = .ok content :=
        Disk.read_eq_ok_iff.2 ⟨place, hplace, hentry⟩
      obtain ⟨g, rfl⟩ := hfile content (Disk.fileAt_of_read hread)
      exact ⟨g, hread⟩

/-- An output is short if its parts are. -/
theorem Output.isShort_toJson {α : Type} (toJson : α → Json) (o : Output α) :
    (Output.toJson toJson o).isShort = (Json.areShort (o.entities.map toJson) &&
      (Json.areShort (o.relationships.map Relationship.toJson) &&
        Json.areShortFields o.metadata)) := by
  simp only [Output.toJson, Json.isShort, Json.areShortFields, Bool.and_true]

/-- The graph's file lies apart from the outputs and the marker. -/
theorem Staging.graphPath_not_mem (cwd : Place) (staging stage : String) :
    Disk.absolute cwd (graphPath staging) ∉ outputPlaces cwd staging stage ∧
      Disk.absolute cwd (graphPath staging) ≠ Disk.absolute cwd (markerPath staging) := by
  rw [outputPlaces, temporaryPath_artifactPath, artifactPath, graphPath, markerPath,
    Disk.absolute_join _ _ Populating.isName_graphFile, Disk.absolute_join _ _ isName_temporary,
    Disk.absolute_join _ _ isName_output, Disk.absolute_join _ _ Revision.isName_marker]
  simp only [List.mem_cons, List.not_mem_nil, or_false, not_or]
  refine ⟨⟨fun h => ?_, fun h => ?_⟩, fun h => ?_⟩
  · exact absurd (List.append_inj_right' h rfl) (by decide)
  · exact absurd (List.append_inj_right' h rfl) (by decide)
  · exact absurd (List.append_inj_right' h rfl) (by decide)

/-- The first stage does not write to the graph's file. -/
theorem Staging.graphPath_not_written (cwd : Place) (staging : String) :
    Disk.absolute cwd (graphPath staging) ∉ Reading.writtenPlaces cwd staging := by
  intro hmem
  rcases List.mem_append.1 hmem with hmem | hmem
  · exact (graphPath_not_mem cwd staging _).1 hmem
  · exact (graphPath_not_mem cwd staging "").2 (List.mem_singleton.1 hmem)

namespace Settings

open Reading (outputOf)
open Enriching (IsOutputOf)

variable {s : Settings} {mode project : String} {base : Option String} {paths gone : List String}
  {said : Entity → Enrichment}

/-- A build of all stages. -/
def build (s : Settings) (config : BuildConfig) : Build Population := do
  let _ ← Reading.run config
  let _ ← s.enriching config
  s.populating config

/-- Whether a build by the settings can begin: the staging area is laid out, the file of its graph
holds a graph if anything, and the collection has the size of the settings if there is one. -/
structure IsReady (s : Settings) (project : String) (w : World) : Prop where
  room : IsLaidOut s.stagingPath w.disk w.cwd
  graph : ∀ content, w.disk.fileAt w.cwd (Staging.graphPath s.stagingPath) = some content →
    ∃ g, content = .graph g
  size : ((s.vectorStore project).prior w).size = s.vectorSize

/-- Whether what a build stages for some files has no long integers. -/
structure IsShort (config : BuildConfig) (t : Source.Tree) (paths gone : List String)
    (said : Entity → Enrichment) : Prop where
  parsed : ∀ stamp revision,
    (ParseOutput.toJson (outputOf config stamp revision t (paths, gone))).isShort = true
  enriched : ∀ stamp revision output, IsOutputOf (fun e x => x = ⟨e, said e⟩)
    ((outputOf config stamp revision t (paths, gone)).asRead Entity.asRead) output →
      (EnrichOutput.toJson output).isShort = true

theorem IsReady.keeps (h : s.IsReady project w) (hkeeps : KeepsRoom w w')
    (hgraph : w'.disk.fileAt w'.cwd (Staging.graphPath s.stagingPath) =
      w.disk.fileAt w.cwd (Staging.graphPath s.stagingPath)) : s.IsReady project w' where
  room := h.room.keeps hkeeps
  graph := hgraph ▸ h.graph
  size := by
    rw [VectorStore.prior, hkeeps.collections_eq]
    exact h.size

/-- Whether a build can go on with what was found in some files of a tree. -/
structure HasFound (s : Settings) (config : BuildConfig) (t : Source.Tree)
    (paths gone : List String)
    (w : World) : Prop where
  ready : s.IsReady config.project w
  held : ∃ stamp revision,
    Staging.heldOutput Entity.ofJson config.stagingPath "parse" w.disk w.cwd =
    some ((outputOf config stamp revision t (paths, gone)).asRead Entity.asRead)

/-- Whether a build can go on with what was said about entities in some files of a tree. -/
structure HasSaid (s : Settings) (config : BuildConfig) (t : Source.Tree) (paths gone : List String)
    (w : World) : Prop where
  ready : s.IsReady config.project w
  held : ∃ R held, Handover.IsHanded R config t paths gone held ∧
    Staging.heldOutput Enriched.ofJson config.stagingPath "enrich" w.disk w.cwd = some held

/-- Reading the repository ends well, and the build can go on with what was found. -/
theorem succeeds_reading (hcalm : outside.IsCalm) (hgit : outside.HasGit)
    (hready : s.IsReady project w)
    (hselect : ∀ w', Notes w w' → (Reading.select (s.buildConfig mode project base)).wp
      (fun selected w'' => selected = (paths, gone) ∧ Notes w' w'') (fun _ _ => False) outside w')
    (hpaths : ∀ path ∈ paths, path ∈ w.disk.filesBelow w.cwd s.repoPath)
    (hshort : ∀ stamp revision,
      (ParseOutput.toJson (outputOf (s.buildConfig mode project base) stamp
      revision (Source.checkout w.disk w.cwd s.repoPath) (paths, gone))).isShort = true) :
    (Reading.run (s.buildConfig mode project base)).wp
      (fun _ w' => KeepsRoom w w' ∧ s.HasFound (s.buildConfig mode project base)
        (Source.checkout w.disk w.cwd s.repoPath) paths gone w')
      (fun _ _ => False) outside w := by
  have hreadable : Reading.IsReadable outside s.repoPath := fun _ _ => hcalm _ _
  have hselect' (w' : World) (hw' : Notes w w') :=
    Build.wp_mono (hselect w' hw') (fun _ _ h => h) fun _ _ => False.elim (C := True)
  refine Build.wp_mono (Build.wp_and
      (Reading.succeeds_run hcalm hgit hselect hpaths hready.room)
      (Reading.wp_run hreadable hselect' hpaths)) (fun out w₁ hw₁ => ?_) fun _ _ hw₁ => hw₁.1
  obtain ⟨hkeeps, stamp, revision, -, rfl, hw₁⟩ := hw₁
  refine ⟨hkeeps, hready.keeps hkeeps ?_, stamp, revision, ?_⟩
  · exact hw₁.alters.fileAt_eq (Staging.graphPath_not_written _ _)
  · rw [hw₁.alters.cwd_eq]
    exact Staging.heldOutput_of_fileAt Entity.ofJson_asRead hw₁.reached hw₁.artifact
      (hshort stamp revision)

/-- Enriching what was found ends well, and the build can go on with it. -/
theorem succeeds_enriching_found (hcalm : outside.IsCalm) (hprovider : s.HasProvider)
    (hsaid : s.Enriches outside said) {t : Source.Tree}
    (hfound : s.HasFound (s.buildConfig mode project base) t paths gone w)
    (hshort : IsShort (s.buildConfig mode project base) t paths gone said) :
    (s.enriching (s.buildConfig mode project base)).wp
      (fun _ w' => KeepsRoom w w' ∧ s.HasSaid (s.buildConfig mode project base) t paths gone w')
      (fun _ _ => False) outside w := by
  obtain ⟨hready, stamp, revision, hheld⟩ := hfound
  refine Build.wp_mono (Build.wp_and (succeeds_enriching hcalm hprovider hheld hready.room)
      hsaid.wp_enriching) (fun output w₁ hw₁ => ?_) fun _ _ hw₁ => hw₁.1
  obtain ⟨hkeeps, input, hinput, houtput, hw₁⟩ := hw₁
  obtain rfl := Option.some.inj (hheld.symm.trans hinput)
  refine ⟨hkeeps, hready.keeps hkeeps ?_, _, _, ⟨stamp, revision, output, houtput, rfl⟩, ?_⟩
  · exact hw₁.alters.fileAt_eq (Staging.graphPath_not_mem _ _ _).1
  · rw [hw₁.alters.cwd_eq]
    exact Staging.heldOutput_of_fileAt Enriched.ofJson_asRead hw₁.reached hw₁.artifact
      (hshort.enriched stamp revision output houtput)

/-- Filling the stores with an output that is held ends well. -/
theorem succeeds_populating_held (hbackend : s.graphBackend = "networkx") (hcalm : outside.IsCalm)
    (hready : s.IsReady project w) {held : EnrichOutput}
    (hheld : Staging.heldOutput Enriched.ofJson s.stagingPath "enrich" w.disk w.cwd = some held)
    (hscope : Populating.HasScope (s.buildConfig mode project base) held) :
    (s.populating (s.buildConfig mode project base)).Succeeds outside w := by
  rw [populating, Populating.graphStore_of_file hbackend]
  refine Populating.succeeds_run (Populating.graphPath_ne_empty _) hcalm hheld hscope
    (GraphStore.canOpen_of_hasRoom hready.room.graph hready.graph) hready.size fun h => ?_
  obtain ⟨disk, hdisk⟩ := hready.room.graph.exists_write (.graph h)
  exact ⟨disk, w.disk, hready.room.graph.makeDirectories_eq, hdisk⟩

/-- Filling the stores with what was handed on ends well. -/
theorem succeeds_populating (hbackend : s.graphBackend = "networkx") (hcalm : outside.IsCalm)
    {t : Source.Tree} (hsaid : s.HasSaid (s.buildConfig mode project base) t paths gone w) :
    (s.populating (s.buildConfig mode project base)).Succeeds outside w := by
  obtain ⟨hready, R, held, hhanded, hheld⟩ := hsaid
  exact succeeds_populating_held hbackend hcalm hready hheld hhanded.hasScope

/-- A build of all stages ends well. -/
theorem succeeds_build (hbackend : s.graphBackend = "networkx") (hcalm : outside.IsCalm)
    (hgit : outside.HasGit) (hprovider : s.HasProvider) (hsaid : s.Enriches outside said)
    (hready : s.IsReady project w)
    (hselect : ∀ w', Notes w w' → (Reading.select (s.buildConfig mode project base)).wp
      (fun selected w'' => selected = (paths, gone) ∧ Notes w' w'') (fun _ _ => False) outside w')
    (hpaths : ∀ path ∈ paths, path ∈ w.disk.filesBelow w.cwd s.repoPath)
    (hshort : IsShort (s.buildConfig mode project base)
      (Source.checkout w.disk w.cwd s.repoPath) paths gone said) :
    (s.build (s.buildConfig mode project base)).Succeeds outside w := by
  rw [Build.Succeeds, build, Build.wp_bind]
  refine Build.wp_mono (succeeds_reading hcalm hgit hready hselect hpaths hshort.parsed)
    (fun out w₁ hw₁ => ?_) fun _ _ => id
  rw [Build.wp_bind]
  refine Build.wp_mono (succeeds_enriching_found hcalm hprovider hsaid hw₁.2 hshort)
    (fun output w₂ hw₂ => ?_) fun _ _ => id
  exact succeeds_populating hbackend hcalm hw₂.2

/-! ### A document that links to itself, and no longer does -/

open Populating (fileSettings quiet)

/-- A document that links to itself. -/
def linkedText : String := "[x](a.md)"

/-- A document without links. -/
def plainText : String := "x"

/-- The tree of one file. -/
def singleTree (name text : String) : Source.Tree := fun path =>
  if path = name then some (.text text) else none

/-- The tree of one document. -/
def documentTree (text : String) : Source.Tree := fun path =>
  if path = "a.md" then some (.text text) else none

/-- The entity of the document. -/
def documentOf (text : String) : Entity :=
  ⟨Entity.documentId "a.md", Entity.documentKind, Extract.documentName "a.md", "a.md", some text,
    [("frontmatter", .obj []), ("wordCount", .int (Text.words text).length)], none⟩

/-- The link of the document to itself. -/
def selfLink : Relationship :=
  .create (Entity.documentId "a.md") Relationship.linksTo (Entity.documentId "a.md")
    [("text", .str "x")]

theorem findingsAt_plain :
    Source.findingsAt (documentTree plainText) "a.md" = some ⟨[documentOf plainText], []⟩ := rfl

theorem findingsAt_linked :
    Source.findingsAt (documentTree linkedText) "a.md" =
      some ⟨[documentOf linkedText], [selfLink]⟩ := by
  have hkind : FileKind.ofPath? "a.md" = some .document := rfl
  have hread : FrontMatter.read linkedText = .ok ([], linkedText) := rfl
  have hlinks : Extract.links linkedText.toList.length linkedText.toList = [("x", "a.md")] := rfl
  have hspans : Extract.spanNames linkedText.toList.length linkedText.toList = [] := rfl
  have hends : "a.md".endsWith ".md" = true := by decide +kernel
  have hdocument : Extract.document linkedText "a.md" =
      .ok ⟨[documentOf linkedText], [selfLink]⟩ := by
    rw [Extract.document, hread]
    simp only [bind, Except.bind, hlinks, hspans, List.filter, hends]
    rfl
  have hfile : Extract.file "a.md" linkedText = .ok ⟨[documentOf linkedText], [selfLink]⟩ := by
    unfold Extract.file
    rw [hkind]
    show (Extract.document linkedText "a.md").mapError _ = _
    rw [hdocument]
    rfl
  have htext : (Content.text linkedText).read = .ok linkedText := rfl
  show ((Content.text linkedText).read.toOption.bind fun text =>
    (Extract.file "a.md" text).toOption) = _
  rw [htext]
  show (Extract.file "a.md" linkedText).toOption = _
  rw [hfile]
  rfl

/-- Surroundings in which version control tells that the document was modified. -/
def modifying : Outside :=
  { quiet with
    git := fun _ arguments _ =>
      .finished 0 (if arguments.head? = some "log" then "r2"
        else Source.diffText [.modified "a.md"])
        "" }

/-- Directories for a checkout and for a staging area. -/
def emptyDisk : Disk :=
  ((((Disk.empty.put ["repo"] .directory).put ["s"] .directory).put ["s", "parse"] .directory).put
    ["s", "enrich"] .directory).put ["s", "graph"] .directory

/-- A checkout of the document beside a staging area with a graph. -/
def documentWorld (text : String) (g : Graph) : World :=
  World.ofDisk ((emptyDisk.put ["repo", "a.md"] (.file (.text text))).put
    ["s", "graph", "graph.pkl"] (.file (.graph g))) []

variable {text : String} {g : Graph} {relationships : List Relationship}

theorem isLaidOut_emptyDisk : Staging.IsLaidOut "s" emptyDisk [] := by decide +kernel

theorem isFree_document : emptyDisk.isFree ["repo", "a.md"] = true := rfl

theorem isFree_graph : (emptyDisk.put ["repo", "a.md"] (.file (.text text))).isFree
    ["s", "graph", "graph.pkl"] = true := rfl

theorem sameDirectories_documentWorld :
    Disk.SameDirectories emptyDisk (documentWorld text g).disk :=
  (Disk.sameDirectories_put isFree_document).trans (Disk.sameDirectories_put isFree_graph)

theorem isName_checkout : Path.IsName "repo" := by
  refine ⟨?_, ?_, ?_, ?_⟩ <;> decide

theorem isName_staging : Path.IsName "s" := by
  refine ⟨?_, ?_, ?_, ?_⟩ <;> decide

variable {d : Disk} {name : String}

/-- The files below the checkout's directory. -/
theorem filesBelow_of_below (hsame : Disk.SameDirectories emptyDisk d)
    (hbelow : d.below ["repo"] = [([name], .file (.text text))]) :
    d.filesBelow [] "repo" = [name] := by
  have hrepo : emptyDisk.locate [] "repo" = .ok ["repo"] :=
    Disk.locate_eq_ok_iff.2 ⟨isName_checkout.1, by rw [Disk.start_of_isName isName_checkout]; rfl⟩
  rw [Disk.filesBelow, Disk.locate_of_keeps hsame.keeps hrepo]
  show (if d.isDirectoryAt ["repo"] then _ else _) = _
  rw [hbelow, if_pos (hsame.keeps _ rfl)]
  rfl

/-- A checkout with one file only. -/
theorem checkout_of_single (hname : Path.IsName name) (hsame : Disk.SameDirectories emptyDisk d)
    (hbelow : d.below ["repo"] = [([name], .file (.text text))])
    (hget : d.get? ["repo", name] = some (.file (.text text))) :
    Source.checkout d [] "repo" = singleTree name text := by
  have hfile : emptyDisk.locate [] (Path.join "repo" name) = .ok ["repo", name] := by
    refine (Disk.locate_join "repo" hname).2 ⟨["repo"], ?_, rfl, rfl⟩
    rw [Disk.start_of_isName isName_checkout, Path.lead_of_isName isName_checkout]
    rfl
  have hread : d.read [] (Path.join "repo" name) = .ok (.text text) :=
    Disk.read_eq_ok_iff.2 ⟨_, Disk.locate_of_keeps hsame.keeps hfile, hget⟩
  funext path
  rw [Source.checkout, filesBelow_of_below hsame hbelow, singleTree]
  simp only [List.mem_singleton]
  split
  · rename_i hpath
    rw [hpath, hread]
    rfl
  · rfl

/-- A checkout with the document only. -/
theorem checkout_of_below (hsame : Disk.SameDirectories emptyDisk d)
    (hbelow : d.below ["repo"] = [(["a.md"], .file (.text text))])
    (hget : d.get? ["repo", "a.md"] = some (.file (.text text))) :
    Source.checkout d [] "repo" = documentTree text :=
  checkout_of_single (by refine ⟨?_, ?_, ?_, ?_⟩ <;> decide) hsame hbelow hget

/-- The one file is what takes part in a build. -/
theorem discover_of_files (hnames : d.HasNames) (hfiles : d.filesBelow [] "repo" = [name])
    (hincluded : Source.isIncluded name = true) : Source.discover d [] "repo" = [name] := by
  refine List.Perm.eq_singleton ((List.perm_ext_iff_of_nodup
    (Source.nodup_discover hnames) (List.nodup_singleton _)).2 fun path => ?_)
  rw [Source.mem_discover, hfiles]
  refine ⟨And.left, fun hpath => ⟨hpath, ?_⟩⟩
  rw [List.mem_singleton.1 hpath]
  exact hincluded

theorem filesBelow_documentWorld :
    (documentWorld text g).disk.filesBelow [] "repo" = ["a.md"] :=
  filesBelow_of_below sameDirectories_documentWorld rfl

theorem hasNames_documentWorld : (documentWorld text g).disk.HasNames := by
  unfold Disk.HasNames Path.IsName
  show ∀ place ∈ [["repo"], ["s"], ["s", "parse"], ["s", "enrich"], ["s", "graph"],
    ["repo", "a.md"], ["s", "graph", "graph.pkl"]], _
  decide

theorem discover_documentWorld :
    Source.discover (documentWorld text g).disk [] "repo" = ["a.md"] :=
  discover_of_files hasNames_documentWorld filesBelow_documentWorld rfl

/-- The files of the checkout. -/
theorem checkout_documentWorld :
    Source.checkout (documentWorld text g).disk (documentWorld text g).cwd fileSettings.repoPath =
      documentTree text :=
  checkout_of_below sameDirectories_documentWorld rfl rfl

/-- The place of the staging area. -/
theorem home_staging : Disk.home [] "s" = ["s"] := by
  rw [Disk.home, Disk.start_of_isName isName_staging, Path.lead_of_isName isName_staging]
  rfl

theorem absolute_artifactPath {stage : String} (hstage : Path.IsName stage) :
    Disk.absolute [] (Staging.artifactPath "s" stage) = ["s", stage, "output.json"] := by
  rw [Staging.artifactPath, Disk.absolute_join _ _ Staging.isName_output,
    Disk.home_join _ _ hstage, home_staging]
  rfl

theorem absolute_graphPath :
    Disk.absolute [] (Staging.graphPath "s") = ["s", "graph", "graph.pkl"] := by
  rw [Staging.graphPath, Disk.absolute_join _ _ Populating.isName_graphFile,
    Disk.home_join _ _ Populating.isName_graph, home_staging]
  rfl

theorem fileAt_documentWorld :
    (documentWorld text g).disk.fileAt [] (Staging.graphPath "s") = some (.graph g) := by
  rw [Disk.fileAt_eq_some_iff, absolute_graphPath]
  rfl

theorem isReady_documentWorld : fileSettings.IsReady "p" (documentWorld text g) := by
  refine ⟨isLaidOut_emptyDisk.same sameDirectories_documentWorld, fun content hcontent => ?_, rfl⟩
  exact ⟨g, Option.some.inj (hcontent.symm.trans fileAt_documentWorld)⟩

theorem isCalm_modifying : modifying.IsCalm := fun _ _ => rfl

theorem hasGit_modifying : modifying.HasGit := fun _ _ _ => ⟨_, _, rfl⟩

theorem isSteady_modifying : modifying.IsSteady :=
  ⟨fun _ _ _ => rfl, fun _ _ _ => rfl, fun _ _ _ => rfl, fun _ _ _ => rfl⟩

/-- What is said about entities there. -/
def modifyingSaid : Entity → Enrichment := fileSettings.saidBy modifying

theorem isPresent_modifying : Revision.IsPresent modifying fileSettings.repoPath "r2" := by
  intro events output errors hreply
  obtain rfl : "r2" = output := by cases hreply; rfl
  rfl

theorem tells_modifying :
    Revision.Tells modifying fileSettings.repoPath "r2" (some "r1") [.modified "a.md"] := by
  refine ⟨by decide, fun events output errors hreply => ?_⟩
  cases hreply
  rfl

theorem isDiff_documentTree (old new : String) :
    Source.IsDiff (documentTree old) (documentTree new) [.modified "a.md"] := by
  refine Source.isDiff_modified ⟨by decide, by decide⟩ (by simp [documentTree])
    fun other hother => ?_
  rw [documentTree, documentTree, if_neg hother, if_neg hother]

theorem isBase_modifying (w : World) :
    Reading.IsBase modifying (fileSettings.buildConfig Request.incremental "p" (some "r1")) w
      (some "r1") := rfl

/-- What is said about the entities in a file, as the second stage puts it out. -/
def saidOf (said : Entity → Enrichment) (found : Findings) : List Enriched :=
  Enriching.collect (found.entities.map Entity.asRead)
    ((Enriching.ofKinds Entity.codeKinds (found.entities.map Entity.asRead)).map
      (fun e => ⟨e, said e⟩) ++
      (Enriching.ofKinds Entity.documentKinds (found.entities.map Entity.asRead)).map
        fun e => ⟨e, said e⟩)

/-- How many of the entities in a file something is said about. -/
def saidCount (found : Findings) : Nat :=
  (Enriching.ofKinds Entity.codeKinds (found.entities.map Entity.asRead)).length +
    (Enriching.ofKinds Entity.documentKinds (found.entities.map Entity.asRead)).length

/-- What builds stage of one file is short if the entities, the relationships and their number
are. -/
theorem isShort_of_found {t : Source.Tree} {found : Findings}
    (hfound : Source.findingsAt t name = some found)
    (hentities : Json.areShort (found.entities.map Entity.toJson) = true)
    (hrelationships : Json.areShort (found.relationships.map Relationship.toJson) = true)
    (hsaid : Json.areShort ((saidOf said found).map Enriched.toJson) = true)
    (hasRead : Json.areShort
      ((found.relationships.map Relationship.asRead).map Relationship.toJson) =
      true)
    (hcount : (Json.int (saidCount found)).isShort = true) :
    IsShort (fileSettings.buildConfig mode "p" base) t [name] [] said := by
  have houtput (stamp revision : String) :
      Reading.outputOf (fileSettings.buildConfig mode "p" base) stamp revision t ([name], []) =
        ⟨found.entities, found.relationships,
          [("timestamp", .str stamp), ("commit", .str revision), ("filesProcessed", .int 1),
            ("mode", .str mode), ("parsedFiles", .arr [.str name]),
            ("deletedFiles", .arr [])]⟩ := by
    simp only [Reading.outputOf, Reading.foundIn, List.filterMap_cons, hfound, Reading.output]
    simp only [List.filterMap_nil, Option.map_some, List.flatMap_cons, List.flatMap_nil,
      List.append_nil]
    rfl
  refine ⟨fun stamp revision => ?_, fun stamp revision output h => ?_⟩
  · rw [houtput, ParseOutput.toJson, Output.isShort_toJson, hentities, hrelationships]
    rfl
  · obtain ⟨stamp', hmetadata⟩ := h.metadata_eq
    have hentities' := h.entities_eq_collect
    have hrelationships' := h.relationships_eq
    rw [houtput] at hmetadata hentities' hrelationships'
    rw [EnrichOutput.toJson, Output.isShort_toJson, hentities', hmetadata, hrelationships']
    refine Bool.and_eq_true_iff.2 ⟨hsaid, Bool.and_eq_true_iff.2 ⟨hasRead, ?_⟩⟩
    -- what the metadata say besides the number has no integers but the number of files
    exact Bool.and_eq_true_iff.2 ⟨rfl, Bool.and_eq_true_iff.2 ⟨hcount, rfl⟩⟩

/-- What builds stage of the document is short if the entity and the relationships are. -/
theorem isShort_documentTree
    (hfound : Source.findingsAt (documentTree text) "a.md" =
      some ⟨[documentOf text], relationships⟩)
    (hentity : (documentOf text).toJson.isShort = true)
    (hrelationships : Json.areShort (relationships.map Relationship.toJson) = true)
    (hsaid : (Enriched.toJson ⟨(documentOf text).asRead, said (documentOf text).asRead⟩).isShort =
      true)
    (hasRead : Json.areShort ((relationships.map Relationship.asRead).map Relationship.toJson) =
      true) :
    IsShort (fileSettings.buildConfig mode "p" base) (documentTree text) ["a.md"] [] said := by
  have hcount : saidCount ⟨[documentOf text], relationships⟩ = 1 := rfl
  refine isShort_of_found hfound (Bool.and_eq_true_iff.2 ⟨hentity, rfl⟩) hrelationships
    (Bool.and_eq_true_iff.2 ⟨hsaid, rfl⟩) hasRead ?_
  rw [hcount]
  rfl

/-- Builds of the document end well. -/
theorem succeeds_documentWorld
    (hmode : mode = Request.full ∨ mode ≠ Request.full ∧ base = some "r1")
    (hshort : IsShort (fileSettings.buildConfig mode "p" base) (documentTree text) ["a.md"] []
      modifyingSaid) :
    (fileSettings.build (fileSettings.buildConfig mode "p" base)).Succeeds modifying
      (documentWorld text g) := by
  have hincluded : Source.isIncluded "a.md" = true := rfl
  rw [← checkout_documentWorld (g := g)] at hshort
  refine succeeds_build rfl isCalm_modifying hasGit_modifying (.inl rfl)
    (enriches_of_isSteady fileSettings isSteady_modifying) isReady_documentWorld ?_
    (fun path hpath => ?_) hshort
  · intro w' hw'
    -- the one file is found by a walk, or told of as modified
    rcases hmode with rfl | ⟨hne, rfl⟩
    · refine Build.wp_mono (Reading.wp_select_full rfl) (fun selected w'' hw'' => ?_) fun _ _ => id
      obtain ⟨rfl, hnotes⟩ := hw''
      obtain ⟨events, rfl⟩ := hw'
      refine ⟨?_, hnotes⟩
      exact congrArg (·, []) discover_documentWorld
    · have hbase : Reading.IsBase modifying (fileSettings.buildConfig mode "p" (some "r1")) w'
          (some "r1") := rfl
      have hfield := (isDiff_documentTree "" "").isField
      refine Build.wp_mono ((Reading.succeeds_select isCalm_modifying hasGit_modifying hbase).wp
        (Reading.wp_select_incremental hne hbase hfield isPresent_modifying tells_modifying))
        (fun selected w'' hw'' => ?_) fun _ _ => id
      · refine ⟨hw''.1.trans ?_, hw''.2⟩
        show (List.filter Source.isIncluded ["a.md"], []) = _
        rw [List.filter_cons_of_pos hincluded]
        rfl
  · rw [List.mem_singleton.1 hpath]
    show "a.md" ∈ (documentWorld text g).disk.filesBelow [] "repo"
    rw [filesBelow_documentWorld]
    exact List.mem_singleton_self _

theorem hasPlainNames_documentTree
    (hfound : Source.findingsAt (documentTree text) "a.md" =
      some ⟨[documentOf text], relationships⟩) : Source.HasPlainNames (documentTree text) := by
  intro path e he
  obtain ⟨-, hexists, found, hfound', hmem⟩ := Source.of_mem_entitiesAt he
  have hpath : path = "a.md" := by
    by_contra hne
    exact hexists (if_neg hne)
  subst hpath
  rw [hfound, Option.some.injEq] at hfound'
  rw [← hfound', List.mem_singleton] at hmem
  rw [hmem]
  have hkind : Entity.documentKind ≠ Entity.classKind ∧
      Entity.documentKind ≠ Entity.functionKind := by decide
  exact fun h => h.elim (absurd · hkind.1) (absurd · hkind.2)

theorem isShort_linked : IsShort (fileSettings.buildConfig mode "p" base) (documentTree linkedText)
    ["a.md"] [] modifyingSaid :=
  isShort_documentTree findingsAt_linked rfl rfl rfl rfl

theorem isShort_plain : IsShort (fileSettings.buildConfig mode "p" base) (documentTree plainText)
    ["a.md"] [] modifyingSaid :=
  isShort_documentTree findingsAt_plain rfl rfl rfl rfl

end Settings

end RepoGraph
