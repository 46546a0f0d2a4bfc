import RepoGraph.Proofs.Populate.Effect
import RepoGraph.Proofs.Staging
import RepoGraph.Proofs.Yaml.Emission

/-!
# Outputs are written whole or not at all

Many things can come in the way of an output that is written: its directory cannot be made, the file
beside its place cannot be created or takes a part of the text only, the value turns out to have no
JSON form when some of it has been put out, the file cannot be moved.  Whichever of them it is, the
stage's output is afterwards the new one as a whole or the old one as it was, and the file beside it
is gone.

Main statements: `Staging.isAtomic_writeValue`, `Staging.write_eq_writeValue`.
-/

namespace RepoGraph

namespace Staging

open Populating (quiet)
open Yaml (Value)

variable {outside : Outside} {w w' : World} {path staging stage text : String}
  {stop : Option Failure}

/-! ### The file beside the output -/

/-- Whether no file stands at the place of a path. -/
def IsClear (path : String) (w : World) : Prop := w.disk.fileAt w.cwd path = none

/-- Whether a path leads to a file. -/
def IsFound (path : String) (w : World) : Prop := ∃ content, w.disk.read w.cwd path = .ok content

theorem IsClear.alters {places : List Place} (h : IsClear path w) (halters : Alters places w w')
    (hpath : Disk.absolute w.cwd path ∉ places) : IsClear path w' := by
  rw [IsClear, halters.fileAt_eq hpath]
  exact h

/-- A text is written into no file or into one that its path leads to. -/
theorem wp_writeText_found (h : IsClear path w) :
    (Build.writeText path text).wp (fun _ w' => IsFound path w')
      (fun _ w' => IsClear path w' ∨ IsFound path w') outside w := by
  refine Build.wp_mono (wp_writeText path text) (fun _ w' hw' => ?_) fun _ w' hw' => ?_
  · rw [IsFound, hw'.1.cwd_eq]
    exact ⟨_, hw'.2⟩
  · rw [IsClear, IsFound, hw'.1.cwd_eq]
    obtain ⟨-, hsame | hfound⟩ := hw'
    · exact .inl (hsame ▸ h)
    · exact .inr hfound

/-- Removing a file, unless it is refused, leaves none. -/
theorem wp_removeIfThere_clear
    (hremove : ∀ past, outside.refuses past (.disk (.remove path)) = none)
    (h : IsClear path w ∨ IsFound path w) :
    (removeIfThere path).wp (fun _ w' => IsClear path w')
      (fun _ w' => IsClear path w') outside w := by
  simp only [removeIfThere, Build.wp_bind, Build.wp_askDisk, Build.wp_ite, Build.wp_changeDisk,
    Build.wp_pure]
  split
  · refine ⟨fun _ => ⟨fun disk hdisk => Disk.fileAt_remove hdisk, fun fault hfault => ?_⟩,
      fun f hf => ?_⟩
    · rcases h with hclear | ⟨content, hread⟩
      · exact hclear
      · obtain ⟨disk, hdisk⟩ := Disk.exists_remove hread
        rw [hdisk] at hfault
        cases hfault
    · rw [hremove] at hf
      cases hf
  · rename_i hexists
    rcases h with hclear | ⟨content, hread⟩
    · exact hclear
    · exact absurd (Disk.doesExist_of_read hread) hexists

/-- However writing ends, no file is left beside the output if there was none before. -/
theorem wp_writeImage_clear (hremove : ∀ past, outside.refuses past
      (.disk (.remove (temporaryPath (artifactPath staging stage)))) = none)
    (h : IsClear (temporaryPath (artifactPath staging stage)) w) :
    (writeImage staging stage text stop).wp
      (fun _ w' => IsClear (temporaryPath (artifactPath staging stage)) w')
      (fun _ w' => IsClear (temporaryPath (artifactPath staging stage)) w') outside w := by
  simp only [writeImage, Build.wp_bind, Build.wp_ensuring, Build.wp_pure]
  have hmade (w₁ : World) (hw₁ : Alters [] w w₁) :
      IsClear (temporaryPath (artifactPath staging stage)) w₁ := h.alters hw₁ List.not_mem_nil
  refine Build.wp_mono (wp_makeDirectories _) (fun _ w₁ hw₁ => ?_) fun _ w₁ hw₁ => hmade w₁ hw₁
  refine Build.wp_mono (wp_writeText_found (hmade w₁ hw₁)) (fun _ w₂ hw₂ => ?_) fun _ w₂ hw₂ =>
    wp_removeIfThere_clear hremove hw₂
  cases stop with
  | some f => exact wp_removeIfThere_clear hremove (.inr hw₂)
  | none =>
    -- the text was written, so it stands beside the output until it is moved
    rw [Build.wp_changeDisk]
    refine ⟨fun _ => ⟨fun disk hdisk => ?_, fun _ _ => wp_removeIfThere_clear hremove (.inr hw₂)⟩,
      fun _ _ => wp_removeIfThere_clear hremove (.inr hw₂)⟩
    obtain ⟨-, -, hnone⟩ := Disk.replace_eq_ok hdisk (temporary_ne_artifact _ _ _)
    refine wp_removeIfThere_clear hremove (.inl ?_)
    rw [IsClear, Disk.fileAt, hnone]

/-! ### Reading what was written -/

/-- Whether reading a stage's output answers a value, wherever it is not refused. -/
def Answers (staging stage : String) (w : World) (output : Json) : Prop :=
  ∀ outside : Outside, outside.refuses w.events (.disk (.read (artifactPath staging stage))) =
    none →
    ((read staging stage).run outside w).1 = .ok output

/-- An object that was written is answered. -/
theorem answers_of_fileAt {raw : Json} {fields : Fields} (hshort : raw.isShort = true)
    (hfields : raw.asRead = .obj fields)
    (hreached : w.disk.IsReached w.cwd (Path.join staging stage))
    (hfile : w.disk.fileAt w.cwd (artifactPath staging stage) = some (.text raw.pretty)) :
    Answers staging stage w raw.asRead := by
  have hread := (Disk.read_join_iff hreached isName_output).2 hfile
  have hobject : objectOf raw.pretty = some raw.asRead := by
    rw [objectOf, Json.read_pretty_of_isShort hshort, hfields]
  exact fun outside => run_read (held_eq_some_iff.2 ⟨_, _, hread, read_pretty raw, hobject⟩)

/-! ### Writing a value -/

/-- What writing a value as a stage's output comes to: its answer, and the world after it. -/
structure IsAtomic (staging stage : String) (v : Value) (w : World) (answer : Except Failure String)
    (w' : World) : Prop where
  /-- If a path is answered, it is that of the output; the output is a text that is read as the JSON
  form of the value, and this form is what reading the output of a mapping answers. -/
  written : ∀ path, answer = .ok path → path = artifactPath staging stage ∧ ∃ image text,
    v.toJson = .ok image ∧ w'.disk.fileAt w.cwd path = some (.text text) ∧
    Json.read text = .ok image ∧
      ∀ entries, v = .map entries → Answers staging stage w' image
  /-- If writing fails, the output is as it was, or there is none as before. -/
  kept : ∀ f, answer = .error f →
    w'.disk.fileAt w.cwd (artifactPath staging stage) =
      w.disk.fileAt w.cwd (artifactPath staging stage)
  /-- In any case nothing is left beside the output, -/
  clear : w'.disk.fileAt w.cwd (temporaryPath (artifactPath staging stage)) = none
  /-- and every other file is as it was, -/
  elsewhere : ∀ path, Disk.absolute w.cwd path ∉ outputPlaces w.cwd staging stage →
    w'.disk.fileAt w.cwd path = w.disk.fileAt w.cwd path
  /-- so the outputs of the other stages are. -/
  others : ∀ other, Path.IsName stage → Path.IsName other → other ≠ stage →
    w'.disk.fileAt w.cwd (artifactPath staging other) =
      w.disk.fileAt w.cwd (artifactPath staging other)

/-- The output of another stage has another place. -/
theorem artifact_not_mem {other : String} (cwd : Place) (staging : String)
    (hstage : Path.IsName stage)
    (hother : Path.IsName other) (hne : other ≠ stage) :
    Disk.absolute cwd (artifactPath staging other) ∉ outputPlaces cwd staging stage := by
  rw [outputPlaces, temporaryPath_artifactPath, artifactPath, artifactPath,
    Disk.absolute_join _ _ isName_output, Disk.absolute_join _ _ isName_output,
    Disk.absolute_join _ _ isName_temporary, Disk.home_join _ _ hother, Disk.home_join _ _ hstage,
    List.mem_cons, List.mem_singleton, not_or]
  refine ⟨fun h => ?_, fun h => ?_⟩
  · exact absurd (List.append_inj_right' h rfl) (by decide)
  · have hnames := List.append_inj_right' (List.append_inj_left' h rfl) rfl
    exact hne (List.singleton_inj.1 hnames)

/-- Whatever value is written as the output of whatever stage, and whatever comes in the way but for
the removal of the file beside the output: the output is written whole or not at all. -/
theorem isAtomic_writeValue (staging stage : String) (v : Value) (outside : Outside) (w : World)
    (hremove : ∀ past, outside.refuses past
      (.disk (.remove (temporaryPath (artifactPath staging stage)))) = none)
    (hclear : w.disk.fileAt w.cwd (temporaryPath (artifactPath staging stage)) = none) :
    IsAtomic staging stage v w ((writeValue staging stage v).run outside w).1
      ((writeValue staging stage v).run outside w).2 := by
  have hwrite : (writeValue staging stage v).wp _ _ outside w :=
    Build.wp_and (wp_writeImage staging stage _ _) (wp_writeImage_clear hremove hclear)
  unfold Build.wp at hwrite
  generalize (writeValue staging stage v).run outside w = ending at hwrite ⊢
  obtain ⟨f | path, w'⟩ := ending
  · obtain ⟨halters, hclear'⟩ := hwrite
    rw [IsClear, halters.cwd_eq] at hclear'
    have helsewhere (path : String)
        (hpath : Disk.absolute w.cwd path ∉ outputPlaces w.cwd staging stage) :
        w'.disk.fileAt w.cwd path = w.disk.fileAt w.cwd path :=
      halters.changes.fileAt_eq fun hmem =>
        hpath (List.mem_cons.2 (.inl (List.mem_singleton.1 hmem)))
    exact {
      written := fun _ h => by cases h
      kept := fun _ _ => halters.changes.fileAt_eq fun hmem =>
        temporary_ne_artifact _ _ _ (List.mem_singleton.1 hmem).symm
      clear := hclear'
      elsewhere := helsewhere
      others := fun other hstage hother hne =>
        helsewhere _ (artifact_not_mem _ _ hstage hother hne) }
  · obtain ⟨⟨rfl, hstop, halters, hfile, hreached⟩, hclear'⟩ := hwrite
    rw [IsClear, halters.cwd_eq] at hclear'
    have helsewhere (path : String)
        (hpath : Disk.absolute w.cwd path ∉ outputPlaces w.cwd staging stage) :
        w'.disk.fileAt w.cwd path = w.disk.fileAt w.cwd path := halters.changes.fileAt_eq hpath
    -- the text did not stop, so the value has a form
    obtain ⟨raw, hshort, hform, htext⟩ := v.exists_of_emit (Option.map_eq_none_iff.1 hstop)
    rw [htext] at hfile
    have hanswers (entries : List (Yaml.Scalar × Value)) (hv : v = .map entries) :
        Answers staging stage w' raw.asRead := by
      rw [hv, Value.toJson] at hform
      obtain ⟨fields, -, hfields⟩ := exists_of_map hform
      rw [← halters.cwd_eq] at hreached hfile
      exact answers_of_fileAt hshort hfields.symm hreached hfile
    exact {
      written := by
        rintro path ⟨rfl⟩
        exact ⟨rfl, raw.asRead, raw.pretty, hform, hfile,
          Json.read_pretty_of_isShort hshort, hanswers⟩
      kept := fun _ h => by cases h
      clear := hclear'
      elsewhere := helsewhere
      others := fun other hstage hother hne =>
        helsewhere _ (artifact_not_mem _ _ hstage hother hne) }

/-- A staging area with an output of the first stage. -/
def oldWorld : World :=
  World.ofDisk (Disk.empty.provide [] "s/parse/output.json"
    (.text "\x7b\"entities\": [\"old\"]\x7d")) []

/-- A mapping that contains itself behind its first entry. -/
def selfContaining : Value := .map [(.text "entities", .list []), (.text "self", .loop true)]

theorem isAtomic_writeValue_selfContaining :
    (∀ past, quiet.refuses past
        (.disk (.remove (temporaryPath (artifactPath "s" "parse")))) = none) ∧
      oldWorld.disk.fileAt oldWorld.cwd (temporaryPath (artifactPath "s" "parse")) = none ∧
      IsAtomic "s" "parse" selfContaining oldWorld
        ((writeValue "s" "parse" selfContaining).run quiet oldWorld).1
        ((writeValue "s" "parse" selfContaining).run quiet oldWorld).2 ∧
      ((writeValue "s" "parse" selfContaining).run quiet oldWorld).1.toOption = none ∧
      oldWorld.disk.fileAt oldWorld.cwd (artifactPath "s" "parse") ≠ none := by
  have hclear : oldWorld.disk.fileAt oldWorld.cwd (temporaryPath (artifactPath "s" "parse")) =
      none :=
    Option.isNone_iff_eq_none.1 (by decide +kernel)
  have hheld : (oldWorld.disk.fileAt oldWorld.cwd (artifactPath "s" "parse")).isSome = true := by
    decide +kernel
  have hfailed : ((writeValue "s" "parse" selfContaining).run quiet oldWorld).1.toOption =
      none := by
    decide +kernel
  exact ⟨fun _ => rfl, hclear,
    isAtomic_writeValue "s" "parse" selfContaining quiet oldWorld (fun _ => rfl) hclear, hfailed,
    Option.isSome_iff_ne_none.1 hheld⟩

/-- An output that comes back is written as the value that it is. -/
theorem write_eq_writeValue (staging stage : String) {output : Json} (h : output.IsKept) :
    write staging stage output = writeValue staging stage (.ofJson output) := by
  rw [write, writeValue, Value.emit_ofJson h, String.empty_append]
  rfl

end Staging

end RepoGraph
