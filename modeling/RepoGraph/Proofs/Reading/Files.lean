import RepoGraph.Build.Reading
import RepoGraph.Proofs.Spans
import RepoGraph.Proofs.Source.Diff

/-!
# What comes of files

Files are read one after the other, and each of them whatever came of those before it: something is
found in it, or there is a failure.  Where no reading is refused, what is found is what the file's
path and content alone say.

Main statements: `Reading.files_eq`, `Reading.wp_outcomes`, `Reading.foundAmong_eq_foundIn`,
`Reading.wp_files`.
-/

namespace RepoGraph

open Staging (Notes)
open Source (Tree)

/-! ### What a tree says -/

namespace Source

/-- What is found in a file of a tree, if it can be read. -/
def findingsAt (t : Tree) (path : String) : Option Findings := do
  let content ← t path
  let text ← content.read.toOption
  (Extract.file path text).toOption

/-- The entities that a file of a tree has in a build. -/
def entitiesAt (t : Tree) (path : String) : List Entity :=
  if isIncluded path then ((findingsAt t path).map Findings.entities).getD [] else []

theorem findingsAt_congr {t t' : Tree} {path : String} (h : t path = t' path) :
    findingsAt t path = findingsAt t' path := by
  rw [findingsAt, findingsAt, h]

theorem entitiesAt_congr {t t' : Tree} {path : String} (h : t path = t' path) :
    entitiesAt t path = entitiesAt t' path := by
  rw [entitiesAt, entitiesAt, findingsAt_congr h]

/-- The file of an entity. -/
theorem of_mem_entitiesAt {t : Tree} {path : String} {e : Entity} (h : e ∈ entitiesAt t path) :
    isIncluded path = true ∧ t path ≠ none ∧
      ∃ found, findingsAt t path = some found ∧ e ∈ found.entities := by
  rw [entitiesAt] at h
  split at h
  · rename_i hincluded
    cases hfound : findingsAt t path with
    | none =>
      rw [hfound] at h
      cases h
    | some found =>
      rw [hfound] at h
      refine ⟨hincluded, fun hnone => ?_, found, rfl, h⟩
      rw [findingsAt, hnone] at hfound
      cases hfound
  · cases h

end Source

namespace Reading

variable {outside : Outside} {w w' : World} {repo : String}

/-! ### One file -/

/-- Whether no reading of a file of a checkout is refused. -/
def IsReadable (outside : Outside) (repo : String) : Prop :=
  ∀ events path, outside.refuses events (.disk (.read (Path.join repo path))) = none

/-- What the disk says, whatever it is asked for. -/
def readings (repo : String) (w : World) : Tree := fun path =>
  (w.disk.read w.cwd (Path.join repo path)).toOption

/-- What is found in a file is what the disk says; nothing may be found though if the reading is
refused. -/
theorem wp_file (path : String) :
    (file repo path).wp
      (fun found w' => Source.findingsAt (readings repo w) path = some found ∧ Notes w w')
      (fun _ w' => ((∀ events,
        outside.refuses events (.disk (.read (Path.join repo path))) = none) →
        Source.findingsAt (readings repo w) path = none) ∧ Notes w w')
      outside w := by
  simp only [file, Build.readText, Build.wp_bind, Build.wp_readContent, Build.wp_take,
    Source.findingsAt, readings]
  refine ⟨fun _ => ⟨fun content hcontent => ⟨fun text htext => ⟨fun found hfound => ?_,
    fun f hf => ?_⟩, fun f hf => ?_⟩, fun fault hfault => ?_⟩,
      fun f hf => ⟨fun hnone => ?_, _, rfl⟩⟩
  · simp [hcontent, htext, hfound, Except.toOption, Notes]
  · simp [hcontent, htext, hf, Except.toOption, Notes]
  · simp [hcontent, hf, Except.toOption, Notes]
  · simp [hfault, Except.toOption, Notes]
  · rw [hnone] at hf
    cases hf

theorem isQuiet_file (repo path : String) : (file repo path).IsQuiet outside :=
  (Build.IsQuiet.readText _).bind fun _ => .take _ _

/-- Telling of a file leaves a note at most. -/
theorem wp_told {path : String} {answer : Except Failure Findings} {total count : Nat} {failed} :
    (do report path answer; tell total count : Build Unit).wp (fun _ w' => Notes w w') failed
      outside w := by
  have htell (w₁ : World) (hw₁ : Notes w w₁) :
      (tell total count).wp (fun _ w' => Notes w w') failed outside w₁ := by
    rw [tell, Build.wp_ite]
    split
    · exact hw₁.trans ⟨_, rfl⟩
    · exact hw₁
  rw [Build.wp_bind]
  cases answer with
  | ok found => exact htell w ⟨_, rfl⟩
  | error f => exact htell _ ⟨_, rfl⟩

/-! ### Files, one after the other -/

/-- What comes of files that are read one after the other, each with its path. -/
def outcomes (repo : String) (total : Nat) :
    Nat → List String → Build (List (String × Except Failure Findings))
  | _, [] => pure []
  | done, path :: rest => do
    let answer ← Build.outcome (file repo path)
    report path answer
    tell total (done + 1)
    let more ← outcomes repo total (done + 1) rest
    return (path, answer) :: more

/-- What was found in the files that could be read. -/
def foundAmong (told : List (String × Except Failure Findings)) : List (String × Findings) :=
  told.filterMap fun came => came.2.toOption.map fun found => (came.1, found)

theorem files_eq (repo : String) (total count : Nat) (paths : List String) :
    files repo total count paths = foundAmong <$> outcomes repo total count paths := by
  induction paths generalizing count with
  | nil => rfl
  | cons path rest ih =>
    simp only [files, outcomes, ih, map_bind, map_pure, bind_map_left]
    refine bind_congr fun answer => bind_congr fun _ => bind_congr fun _ =>
      bind_congr fun more => ?_
    cases answer <;> rfl

/-- Whether something is what comes of reading a file, at some time of a run. -/
def IsAnswered (outside : Outside) (repo : String) (w : World)
    (came : String × Except Failure Findings) : Prop :=
  ∃ w', Notes w w' ∧ ((file repo came.1).run outside w').1 = came.2

/-- Every file is read, whatever comes of the others. -/
theorem wp_outcomes (repo : String) (total : Nat) (paths : List String) (count : Nat)
    (hw : Notes w w') {failed} :
    (outcomes repo total count paths).wp
      (fun told w'' => told.map Prod.fst = paths ∧
        (∀ came ∈ told, IsAnswered outside repo w came) ∧ Notes w w'') failed outside w' := by
  induction paths generalizing count w' with
  | nil => exact ⟨rfl, fun _ hcame => (nomatch hcame), hw⟩
  | cons path rest ih =>
    -- whatever comes of the file, the others are read after it
    have hmore (answer : Except Failure Findings) (w₁ : World) (hw₁ : Notes w w₁)
        (hanswer : IsAnswered outside repo w (path, answer)) :
        (do
          report path answer
          tell total (count + 1)
          let more ← outcomes repo total (count + 1) rest
          return (path, answer) :: more : Build _).wp
          (fun told w'' => told.map Prod.fst = path :: rest ∧
            (∀ came ∈ told, IsAnswered outside repo w came) ∧ Notes w w'') failed outside w₁ := by
      have htold : (do report path answer; tell total (count + 1) : Build Unit).wp
          (fun _ w' => Notes w₁ w') failed outside w₁ := wp_told
      rw [Build.wp_bind] at htold ⊢
      refine Build.wp_mono htold (fun _ w₂ hw₂ => ?_) fun _ _ h => h
      rw [Build.wp_bind]
      refine Build.wp_mono hw₂ (fun _ w₃ hw₃ => ?_) fun _ _ h => h
      rw [Build.wp_bind]
      refine Build.wp_mono (ih (count + 1) (hw₁.trans hw₃)) (fun more w₄ hw₄ => ?_) fun _ _ h => h
      obtain ⟨rfl, hall, hw₄⟩ := hw₄
      exact ⟨rfl, List.forall_mem_cons.2 ⟨hanswer, hall⟩, hw₄⟩
    rw [outcomes, Build.wp_bind, Build.wp_outcome]
    refine Build.wp_mono ((isQuiet_file repo path).wp_answer w') (fun found w₁ hw₁ => ?_)
      fun f w₁ hw₁ => ?_
    · exact hmore (.ok found) w₁ (hw.trans hw₁.2) ⟨w', hw, hw₁.1⟩
    · exact hmore (.error f) w₁ (hw.trans hw₁.2) ⟨w', hw, hw₁.1⟩

/-! ### What the disk says of files -/

/-- What is found in some files of a tree, each with its path. -/
def foundIn (t : Tree) (paths : List String) : List (String × Findings) :=
  paths.filterMap fun path => (Source.findingsAt t path).map fun found => (path, found)

theorem foundIn_cons (t : Tree) (path : String) (rest : List String) :
    foundIn t (path :: rest) =
      ((Source.findingsAt t path).map fun found => (path, found)).toList ++ foundIn t rest := by
  rw [foundIn, List.filterMap_cons]
  cases Source.findingsAt t path <;> rfl

/-- What comes of reading a file, by what the disk says. -/
theorem IsAnswered.findingsAt_eq {came : String × Except Failure Findings}
    (h : IsAnswered outside repo w came) :
    (∀ found, came.2 = .ok found → Source.findingsAt (readings repo w) came.1 = some found) ∧
      ((∀ events, outside.refuses events (.disk (.read (Path.join repo came.1))) = none) →
        came.2.toOption = Source.findingsAt (readings repo w) came.1) := by
  obtain ⟨w', ⟨events, rfl⟩, hanswer⟩ := h
  have hfile : Build.Ends _ _ ((file repo came.1).run outside { w with events }) := wp_file came.1
  rw [← hanswer]
  generalize (file repo came.1).run outside { w with events } = ending at hfile ⊢
  obtain ⟨f | found, after⟩ := ending
  · exact ⟨fun _ h => (nomatch h), fun hnone => (hfile.1 hnone).symm⟩
  · refine ⟨fun other hother => ?_, fun _ => hfile.1.symm⟩
    cases hother
    exact hfile.1

/-- What was found is what the disk says of the files. -/
theorem foundIn_foundAmong {told : List (String × Except Failure Findings)}
    (h : ∀ came ∈ told, IsAnswered outside repo w came) :
    foundIn (readings repo w) ((foundAmong told).map Prod.fst) = foundAmong told := by
  rw [foundIn, List.filterMap_map]
  refine (List.filterMap_congr fun came hcame => ?_).trans List.filterMap_some
  obtain ⟨⟨path, answer⟩, hmem, heq⟩ := List.mem_filterMap.1 hcame
  obtain ⟨found, hfound, rfl⟩ := Option.map_eq_some_iff.1 heq
  cases answer with
  | error f => cases hfound
  | ok other =>
    cases hfound
    simp only [Function.comp_apply, (h _ hmem).findingsAt_eq.1 found rfl, Option.map_some]

/-- Where no reading is refused, all that the disk says is found. -/
theorem foundAmong_eq_foundIn {told : List (String × Except Failure Findings)}
    (h : ∀ came ∈ told, IsAnswered outside repo w came)
    (hreads : ∀ came ∈ told, ∀ events,
      outside.refuses events (.disk (.read (Path.join repo came.1))) = none) :
    foundAmong told = foundIn (readings repo w) (told.map Prod.fst) := by
  rw [foundIn, List.filterMap_map]
  refine List.filterMap_congr fun came hcame => ?_
  rw [Function.comp_apply, (h came hcame).findingsAt_eq.2 (hreads came hcame)]

/-- What is found in files of the checkout, one after the other, is what its tree says. -/
theorem wp_files (hreadable : IsReadable outside repo) (total : Nat) {paths : List String}
    (hpaths : ∀ path ∈ paths, path ∈ w.disk.filesBelow w.cwd repo) (count : Nat)
    (hw : Notes w w') {failed} :
    (files repo total count paths).wp
      (fun found w'' => found = foundIn (Source.checkout w.disk w.cwd repo) paths ∧ Notes w w'')
      failed outside w' := by
  rw [files_eq, Build.wp_map]
  refine Build.wp_mono (wp_outcomes repo total paths count hw)
    (fun told w₁ htold => ?_) fun _ _ h => h
  obtain ⟨rfl, hanswered, hw₁⟩ := htold
  refine ⟨?_, hw₁⟩
  rw [foundAmong_eq_foundIn hanswered fun came _ past => hreadable past came.1]
  refine List.filterMap_congr fun path hpath => ?_
  have hcheckout : readings repo w path = Source.checkout w.disk w.cwd repo path :=
    (if_pos (hpaths path hpath)).symm
  rw [Source.findingsAt_congr hcheckout]

end Reading

end RepoGraph
