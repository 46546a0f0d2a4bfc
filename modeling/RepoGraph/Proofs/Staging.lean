import RepoGraph.Proofs.Build
import RepoGraph.Proofs.Disk.Changes
import RepoGraph.Proofs.Disk.Room
import RepoGraph.Proofs.Record
import RepoGraph.Staging

/-!
# What the staging area holds

`Staging.held` is the output of a stage that a staging area holds: an object, decoded from the text
of the stage's file.  Reading the staging area answers this output and changes nothing.  Writing an
output changes its file only, and the file beside it for a while; a failure leaves the output as it
was.

Main statements: `Staging.wp_read`, `Staging.run_read`, `Staging.wp_writeImage`, `Staging.wp_write`.
-/

namespace RepoGraph

namespace Staging

variable {outside : Outside} {w : World}

/-- A world is another one except for what was done. -/
def Notes (w w' : World) : Prop := ∃ events, w' = { w with events }

theorem Notes.service_eq {w' : World} (h : Notes w w') : w'.service = w.service := by
  obtain ⟨events, rfl⟩ := h
  rfl

theorem Notes.trans {w' w'' : World} (h : Notes w w') (h' : Notes w' w'') : Notes w w'' := by
  obtain ⟨events, rfl⟩ := h
  obtain ⟨events', rfl⟩ := h'
  exact ⟨events', rfl⟩

/-- The object that a text is, if it is one. -/
def objectOf (text : String) : Option Json :=
  match Json.read text with
  | .ok (.obj fields) => some (.obj fields)
  | _ => none

/-- The output of a stage in a staging area. -/
def held (staging stage : String) (disk : Disk) (cwd : Place) : Option Json := do
  let content ← (disk.read cwd (artifactPath staging stage)).toOption
  objectOf (← content.read.toOption)

/-- What a stage put out, as the staging area holds it. -/
def heldOutput {α : Type} (entity : Json → Except RecordFault α) (staging stage : String)
    (disk : Disk) (cwd : Place) : Option (Output α) := do
  (Output.ofJson entity (← held staging stage disk cwd)).toOption

theorem isName_output : Path.IsName "output.json" := by
  refine ⟨?_, ?_, ?_, ?_⟩ <;> decide

theorem held_eq_some_iff {staging stage : String} {disk : Disk} {cwd : Place} {output : Json} :
    held staging stage disk cwd = some output ↔
      ∃ content text, disk.read cwd (artifactPath staging stage) = .ok content ∧
        content.read = .ok text ∧ objectOf text = some output := by
  rw [held]
  cases disk.read cwd (artifactPath staging stage) with
  | error fault => simp [Except.toOption]
  | ok content =>
    cases htext : content.read with
    | error fault => simp [Except.toOption, htext]
    | ok text => simp [Except.toOption, htext]

/-- An output is held as long as its file can be read. -/
theorem heldOutput_of_reads {α : Type} {entity : Json → Except RecordFault α}
    {staging stage : String} {disk disk' : Disk} {cwd : Place} {output : Output α}
    (hreads : ∀ content, disk.read cwd (artifactPath staging stage) = .ok content →
      disk'.read cwd (artifactPath staging stage) = .ok content)
    (hheld : heldOutput entity staging stage disk cwd = some output) :
    heldOutput entity staging stage disk' cwd = some output := by
  rw [heldOutput] at hheld
  obtain ⟨object, hobject, houtput⟩ := Option.bind_eq_some_iff.1 hheld
  obtain ⟨content, text, hread, htext, hvalue⟩ := held_eq_some_iff.1 hobject
  have hobject' := held_eq_some_iff.2 ⟨content, text, hreads content hread, htext, hvalue⟩
  rw [heldOutput, hobject']
  exact houtput

/-- Where an output is held, the staging area is reached. -/
theorem home_of_held {staging stage : String} {disk : Disk} {cwd : Place} {object : Json}
    (hstage : Path.IsName stage) (hheld : held staging stage disk cwd = some object) :
    ∃ home, disk.follow (Disk.start cwd staging) (Path.lead staging) = .ok home := by
  obtain ⟨content, text, hread, -, -⟩ := held_eq_some_iff.1 hheld
  obtain ⟨place, hplace, -⟩ := Disk.read_eq_ok_iff.1 hread
  obtain ⟨between, hbetween, -, -⟩ := (Disk.locate_join _ isName_output).1 hplace
  rw [Path.lead_join staging hstage, Disk.follow_append, Disk.start,
    Path.startsWith_join staging hstage] at hbetween
  obtain ⟨home, hhome, -⟩ := hbetween
  exact ⟨home, hhome⟩

theorem home_of_heldOutput {α : Type} {entity : Json → Except RecordFault α}
    {staging stage : String} {disk : Disk} {cwd : Place} {output : Output α}
    (hstage : Path.IsName stage) (hheld : heldOutput entity staging stage disk cwd = some output) :
    ∃ home, disk.follow (Disk.start cwd staging) (Path.lead staging) = .ok home := by
  rw [heldOutput] at hheld
  obtain ⟨object, hobject, -⟩ := Option.bind_eq_some_iff.1 hheld
  exact home_of_held hstage hobject

/-- Reading a file as text answers its text; it changes nothing. -/
theorem wp_readText {done : String → World → Prop} {failed : Failure → World → Prop} {path : String}
    (hdone : ∀ content text events, w.disk.read w.cwd path = .ok content → content.read = .ok text →
      done text { w with events })
    (hfailed : ∀ f events, failed f { w with events }) :
    (Build.readText path).wp done failed outside w := by
  simp only [Build.readText, Build.wp_bind, Build.wp_readContent, Build.wp_take]
  refine ⟨fun _ => ⟨fun content hcontent => ⟨fun text htext => ?_, fun _ _ => ?_⟩, fun _ _ => ?_⟩,
    fun _ _ => ?_⟩
  · exact hdone content text _ hcontent htext
  · exact hfailed _ _
  · exact hfailed _ _
  · exact hfailed _ _

/-- Reading answers the output that the staging area holds; it changes nothing. -/
theorem wp_read (staging stage : String) :
    (read staging stage).wp
      (fun output w' => held staging stage w.disk w.cwd = some output ∧ Notes w w')
      (fun _ w' => Notes w w') outside w := by
  simp only [read, Build.wp_bind, Build.wp_outcome]
  refine wp_readText (fun content text events hcontent htext => ?_) fun f events => ⟨events, rfl⟩
  rw [Build.wp_pure]
  have hheld : held staging stage w.disk w.cwd = objectOf text := by
    rw [held, hcontent]
    show content.read.toOption.bind objectOf = _
    rw [htext]
    rfl
  rw [hheld, objectOf]
  cases Json.read text with
  | error fault => exact ⟨events, rfl⟩
  | ok value =>
    cases value with
    | obj fields => exact ⟨rfl, events, rfl⟩
    | _ => exact ⟨events, rfl⟩

/-- An output that is held is read, if reading it is not refused. -/
theorem run_read {output : Json} (hheld : held staging stage w.disk w.cwd = some output)
    (hallowed : outside.refuses w.events (.disk (.read (artifactPath staging stage))) = none) :
    ((read staging stage).run outside w).1 = .ok output := by
  obtain ⟨content, text, hread, htext, hobject⟩ := held_eq_some_iff.1 hheld
  rw [← Build.wp_eq_iff]
  simp only [read, Build.wp_bind, Build.wp_outcome, Build.readText, Build.wp_readContent,
    Build.wp_take, hread, hallowed]
  refine ⟨fun _ => ⟨?_, fun _ h => by cases h⟩, fun _ h => by cases h⟩
  rintro content' ⟨rfl⟩
  rw [htext]
  refine ⟨?_, fun _ h => by cases h⟩
  rintro text' ⟨rfl⟩
  rw [Build.wp_pure]
  rw [objectOf] at hobject
  split at hobject
  · rename_i fields hfields
    rw [hfields]
    cases hobject
    rfl
  · cases hobject

/-! ### Writing -/

/-- A world is another one except for files at some places, new directories and what was done. -/
def Alters (places : List Place) (w w' : World) : Prop :=
  ∃ disk events, Disk.Changes places w.disk disk ∧ w' = { w with disk, events }

variable {places : List Place} {w' w'' : World}

theorem Notes.alters (h : Notes w w') : Alters places w w' := by
  obtain ⟨events, rfl⟩ := h
  exact ⟨w.disk, events, Disk.changes_refl _ _, rfl⟩

theorem Alters.trans (h : Alters places w w') (h' : Alters places w' w'') :
    Alters places w w'' := by
  obtain ⟨disk, events, hdisk, rfl⟩ := h
  obtain ⟨disk', events', hdisk', rfl⟩ := h'
  exact ⟨disk', events', hdisk.trans hdisk', rfl⟩

theorem Alters.mono {places' : List Place} (h : Alters places w w') (hsub : places ⊆ places') :
    Alters places' w w' := by
  obtain ⟨disk, events, hdisk, rfl⟩ := h
  exact ⟨disk, events, hdisk.mono hsub, rfl⟩

theorem Alters.cwd_eq (h : Alters places w w') : w'.cwd = w.cwd := by
  obtain ⟨disk, events, -, rfl⟩ := h
  rfl

theorem Alters.service_eq (h : Alters places w w') : w'.service = w.service := by
  obtain ⟨disk, events, -, rfl⟩ := h
  rfl

theorem Alters.changes (h : Alters places w w') : Disk.Changes places w.disk w'.disk := by
  obtain ⟨disk, events, hdisk, rfl⟩ := h
  exact hdisk

/-- A file that is not among the altered ones is what it was. -/
theorem Alters.fileAt_eq {path : String} (h : Alters places w w')
    (hpath : Disk.absolute w.cwd path ∉ places) :
    w'.disk.fileAt w'.cwd path = w.disk.fileAt w.cwd path := by
  rw [h.cwd_eq]
  exact h.changes.fileAt_eq hpath

theorem wp_makeDirectories (path : String) :
    (Build.makeDirectories path).wp (fun _ w' => Alters [] w w') (fun _ w' => Alters [] w w')
      outside w := by
  rw [Build.makeDirectories, Build.wp_changeDisk]
  refine ⟨fun _ => ⟨fun disk hdisk => ?_, fun _ _ => ?_⟩, fun _ _ => ?_⟩
  · exact ⟨disk, _, (Disk.expands_makeDirectories hdisk).changes, rfl⟩
  · exact Notes.alters ⟨_, rfl⟩
  · exact Notes.alters ⟨_, rfl⟩

/-- Writing a text puts it into the file, whose path then leads somewhere; a failure may leave
anything in the file, but then its path leads there, too. -/
theorem wp_writeText (path text : String) :
    (Build.writeText path text).wp
      (fun _ w' => Alters [Disk.absolute w.cwd path] w w' ∧
        w'.disk.read w.cwd path = .ok (.text text))
      (fun _ w' => Alters [Disk.absolute w.cwd path] w w' ∧
        (w'.disk = w.disk ∨ ∃ content, w'.disk.read w.cwd path = .ok content)) outside w := by
  simp only [Build.writeText, Build.wp_bind, Build.wp_changeDisk]
  refine ⟨fun _ => ⟨fun disk hdisk => ?_, fun _ _ => ?_⟩, fun _ _ => ?_⟩
  · -- the file was created, so it can be written
    have halters (s : String) (disk' : Disk) (hdisk' : disk.write w.cwd path (.text s) = .ok disk')
        (events : List Event) :
        Alters [Disk.absolute w.cwd path] w { w with disk := disk', events } :=
      ⟨disk', events, (Disk.changes_write hdisk).trans (Disk.changes_write hdisk'), rfl⟩
    rw [Build.wp_outcome, Build.wp_attempt]
    refine ⟨fun _ => ?_, fun f _ => ?_⟩
    · obtain ⟨disk', hdisk'⟩ := Disk.write_again hdisk (.text text)
      simp only [Build.wp_bind, Build.wp_get, Build.wp_set, hdisk', Except.toOption,
        Option.getD_some]
      exact ⟨halters text disk' hdisk' _, Disk.read_write hdisk'⟩
    · simp only [Build.wp_bind, Build.wp_get, Build.wp_read, Build.wp_set, Build.wp_throw]
      obtain ⟨disk', hdisk'⟩ := Disk.write_again hdisk (.text (Text.take (outside.arrived
        (.disk (.write path) :: .disk (.create path) :: w.events)) text))
      rw [hdisk']
      exact ⟨halters _ disk' hdisk' _, .inr ⟨_, Disk.read_write hdisk'⟩⟩
  · exact ⟨Notes.alters ⟨_, rfl⟩, .inl trivial⟩
  · exact ⟨Notes.alters ⟨_, rfl⟩, .inl trivial⟩

/-- Removing a file that may be there. -/
theorem wp_removeIfThere (path : String) :
    (removeIfThere path).wp (fun _ w' => Alters [Disk.absolute w.cwd path] w w')
      (fun _ w' => w.disk.get? (Disk.absolute w.cwd path) ≠ none ∧
        Alters [Disk.absolute w.cwd path] w w') outside w := by
  simp only [removeIfThere, Build.wp_bind, Build.wp_askDisk, Build.wp_ite, Build.wp_changeDisk,
    Build.wp_pure]
  split
  · rename_i hexists
    have hthere : w.disk.get? (Disk.absolute w.cwd path) ≠ none := by
      intro hnone
      rw [Disk.doesExist_eq_false hnone] at hexists
      cases hexists
    refine ⟨fun _ => ⟨fun disk hdisk => ?_, fun _ _ => ⟨hthere, ?_⟩⟩, fun _ _ => ⟨hthere, ?_⟩⟩
    · exact ⟨disk, _, Disk.changes_remove hdisk, rfl⟩
    · exact Notes.alters ⟨_, rfl⟩
    · exact Notes.alters ⟨_, rfl⟩
  · exact Notes.alters ⟨_, rfl⟩

theorem isName_temporary : Path.IsName "output.json.tmp" := by
  refine ⟨?_, ?_, ?_, ?_⟩ <;> decide

/-- An output is first written beside its file. -/
theorem temporaryPath_artifactPath (staging stage : String) :
    temporaryPath (artifactPath staging stage) =
      Path.join (Path.join staging stage) "output.json.tmp" := by
  have hname : "output.json.tmp" = "output.json" ++ ".tmp" := by decide
  rw [temporaryPath, artifactPath]
  generalize Path.join staging stage = dir
  rw [Path.join, Path.join, Path.startsWith_of_isName isName_output,
    Path.startsWith_of_isName isName_temporary, hname]
  simp only [Bool.false_eq_true, if_false]
  split
  · rw [String.append_assoc]
  · rw [String.append_assoc]

/-- The places of a stage's output and of the file beside it. -/
def outputPlaces (cwd : Place) (staging stage : String) : List Place :=
  [Disk.absolute cwd (temporaryPath (artifactPath staging stage)),
    Disk.absolute cwd (artifactPath staging stage)]

theorem temporary_ne_artifact (cwd : Place) (staging stage : String) :
    Disk.absolute cwd (temporaryPath (artifactPath staging stage)) ≠
      Disk.absolute cwd (artifactPath staging stage) := by
  rw [temporaryPath_artifactPath, artifactPath, Disk.absolute_join _ _ isName_temporary,
    Disk.absolute_join _ _ isName_output]
  intro h
  exact absurd (List.append_inj_right' h rfl) (by decide)

/-- Writing a text puts it into the stage's file if it does not stop; a failure leaves that file as
it was. -/
theorem wp_writeImage (staging stage text : String) (stop : Option Failure) :
    (writeImage staging stage text stop).wp
      (fun path w' => path = artifactPath staging stage ∧ stop = none ∧
        Alters (outputPlaces w.cwd staging stage) w w' ∧
        w'.disk.fileAt w.cwd (artifactPath staging stage) = some (.text text) ∧
        w'.disk.IsReached w.cwd (Path.join staging stage))
      (fun _ w' => Alters [Disk.absolute w.cwd (temporaryPath (artifactPath staging stage))] w w')
      outside w := by
  simp only [writeImage, Build.wp_bind, Build.wp_ensuring, Build.wp_pure]
  refine Build.wp_mono (wp_makeDirectories _) (fun _ w₁ hw₁ => ?_) fun _ _ hw₁ =>
    hw₁.mono (List.nil_subset _)
  have hcwd₁ := hw₁.cwd_eq
  have hsome (places : List Place) : Alters places w w₁ := hw₁.mono (List.nil_subset _)
  -- a failure after the directory was made: the file beside the output is removed
  have hfailed (w₂ : World)
      (hw₂ : Alters [Disk.absolute w.cwd (temporaryPath (artifactPath staging stage))] w w₂) :
      (removeIfThere (temporaryPath (artifactPath staging stage))).wp
        (fun _ w' => Alters [Disk.absolute w.cwd (temporaryPath (artifactPath staging stage))] w w')
        (fun _ w' => Alters [Disk.absolute w.cwd (temporaryPath (artifactPath staging stage))] w w')
        outside w₂ := by
    rw [← hw₂.cwd_eq] at hw₂ ⊢
    exact Build.wp_mono (wp_removeIfThere _) (fun _ _ hw₃ => hw₂.trans hw₃)
      fun _ _ hw₃ => hw₂.trans hw₃.2
  refine Build.wp_mono (wp_writeText _ _) (fun _ w₂ hw₂ => ?_) fun _ w₂ hw₂ => ?_
  · obtain ⟨hw₂, htemporary⟩ := hw₂
    rw [hcwd₁] at hw₂ htemporary
    have hcwd₂ : w₂.cwd = w.cwd := hw₂.cwd_eq.trans hcwd₁
    have hnoted (events : List Event) := (hsome _).trans hw₂ |>.trans (Notes.alters ⟨events, rfl⟩)
    cases stop with
    | some f => exact hfailed _ ((hsome _).trans hw₂)
    | none =>
      rw [Build.wp_changeDisk]
      refine ⟨fun _ => ⟨fun disk hdisk => ?_, fun _ _ => hfailed _ (hnoted _)⟩,
        fun _ _ => hfailed _ (hnoted _)⟩
      -- the output was moved to its place, and nothing is left beside it
      rw [hcwd₂] at hdisk
      obtain ⟨hchanges, hfile, hnone⟩ := Disk.replace_eq_ok hdisk (temporary_ne_artifact _ _ _)
      have hmoved : Alters (outputPlaces w.cwd staging stage) w₂
          { w₂ with disk, events := .disk (.replace (temporaryPath (artifactPath staging stage))
            (artifactPath staging stage)) :: w₂.events } := ⟨disk, _, hchanges, rfl⟩
      have halters := (hsome _).trans
        ((hw₂.mono (List.cons_subset_cons _ (List.nil_subset _))).trans hmoved)
      have hremoved := Disk.doesExist_eq_false hnone
      simp only [removeIfThere, Build.wp_bind, Build.wp_askDisk, Build.wp_ite, hcwd₂, hremoved,
        Bool.false_eq_true, if_false, Build.wp_pure]
      rw [hcwd₂] at halters
      refine ⟨trivial, trivial, halters, ?_, ?_⟩
      · rw [hfile]
        exact Disk.fileAt_of_read htemporary
      · obtain ⟨place, hplace, -⟩ := Disk.read_eq_ok_iff.1 htemporary
        rw [temporaryPath_artifactPath] at hplace
        exact (Disk.isReached_of_locate isName_temporary hplace).keeps hchanges.keeps
  · have halters := hw₂.1
    rw [hcwd₁] at halters
    exact hfailed _ ((hsome _).trans halters)

/-- Writing an output puts its text into the stage's file; a failure leaves that file as it was. -/
theorem wp_write (staging stage : String) (output : Json) :
    (write staging stage output).wp
      (fun _ w' => Alters (outputPlaces w.cwd staging stage) w w' ∧
        w'.disk.fileAt w.cwd (artifactPath staging stage) = some (.text output.pretty) ∧
        w'.disk.IsReached w.cwd (Path.join staging stage))
      (fun _ w' => Alters [Disk.absolute w.cwd (temporaryPath (artifactPath staging stage))] w w')
      outside w :=
  Build.wp_mono (wp_writeImage staging stage output.pretty none) (fun _ _ h => h.2.2) fun _ _ h => h

/-! ### Reading what was written -/

theorem read_pretty (v : Json) : (Content.text v.pretty).read = .ok v.pretty := by
  rw [Content.read, Text.unifyNewlines_of_noReturn]
  exact fun h => Json.noReturn_prettyAt 0 v _ h rfl

theorem eq_asRead_of_objectOf {v v' : Json} (h : objectOf v.pretty = some v') : v' = v.asRead := by
  rw [objectOf] at h
  obtain hread | ⟨count, hread⟩ := Json.read_pretty v
  · rw [hread] at h
    revert h
    cases v.asRead <;> simp [eq_comm]
  · rw [hread] at h
    cases h

/-- What is held of a value that was written is the value as its text is read. -/
theorem eq_asRead_of_held {staging stage : String} {disk : Disk} {cwd : Place} {v v' : Json}
    (hfile : disk.fileAt cwd (artifactPath staging stage) = some (.text v.pretty))
    (hheld : held staging stage disk cwd = some v') : v' = v.asRead := by
  obtain ⟨content, text, hread, htext, hobject⟩ := held_eq_some_iff.1 hheld
  rw [Disk.fileAt_of_read hread, Option.some.injEq] at hfile
  subst hfile
  rw [read_pretty, Except.ok.injEq] at htext
  subst htext
  exact eq_asRead_of_objectOf hobject

/-- What is held of an output that was written is the output as its text is read. -/
theorem eq_asRead_of_heldOutput {α : Type} {toJson : α → Json}
    {ofJson : Json → Except RecordFault α} {entity : α → α}
    (hentity : ∀ a, ofJson (toJson a).asRead = .ok (entity a))
    {staging stage : String} {disk : Disk}
    {cwd : Place} {output output' : Output α}
    (hfile : disk.fileAt cwd (artifactPath staging stage) =
      some (.text (Output.toJson toJson output).pretty))
    (hheld : heldOutput ofJson staging stage disk cwd = some output') :
    output' = output.asRead entity := by
  rw [heldOutput] at hheld
  obtain ⟨v, hv, houtput⟩ := Option.bind_eq_some_iff.1 hheld
  rw [eq_asRead_of_held hfile hv, Output.ofJson_asRead hentity] at houtput
  exact (Option.some.inj houtput).symm

end Staging

end RepoGraph
