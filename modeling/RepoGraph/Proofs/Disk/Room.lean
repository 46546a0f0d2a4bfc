import RepoGraph.Proofs.Disk

/-!
# Doing things on a disk again

Directories that were made are found when they are to be made again, and where a file was written
another one can be written.  Both hold as long as the disk has only grown: what was there is there,
and directories are directories.

Where the directories around a path are there, nothing has to be made at all: a disk then has room
for a file, `Disk.HasRoom`, and keeps it as long as its directories are the same ones.

Main statements: `Disk.makeDirectories_again`, `Disk.write_again`, `Disk.HasRoom.same`.
-/

namespace RepoGraph

namespace Disk

variable {d d' made : Disk} {cwd : Place} {path : String}

/-- A disk has grown: what was there is there, and directories are directories. -/
structure Grows (d d' : Disk) : Prop where
  keeps : KeepsDirectories d d'
  isSome : ∀ place, (d.get? place).isSome = true → (d'.get? place).isSome = true

theorem Grows.refl (d : Disk) : Grows d d := ⟨fun _ h => h, fun _ h => h⟩

theorem Expands.grows (h : Expands d d') : Grows d d' := by
  refine ⟨h.keeps, fun place hsome => ?_⟩
  obtain ⟨entry, hentry⟩ := Option.isSome_iff_exists.1 hsome
  rw [h.get?_eq_some hentry]
  rfl

theorem grows_write {content : Content} (h : d.write cwd path content = .ok d') : Grows d d' := by
  refine ⟨keeps_write h, fun other hother => ?_⟩
  obtain ⟨place, hplace, -, -⟩ := write_eq_ok_iff.1 h
  rw [get?_write h hplace]
  split
  · rfl
  · exact hother

theorem KeepsDirectories.isDirectory (h : KeepsDirectories d d')
    (hdirectory : d.isDirectory cwd path = true) : d'.isDirectory cwd path = true := by
  unfold Disk.isDirectory entry? at hdirectory ⊢
  cases hplace : d.locate cwd path with
  | error cause =>
    rw [hplace] at hdirectory
    cases hdirectory
  | ok place =>
    rw [hplace] at hdirectory
    rw [locate_of_keeps h hplace]
    exact h place hdirectory

theorem Grows.doesExist (h : Grows d d') (hexists : d.doesExist cwd path = true) :
    d'.doesExist cwd path = true := by
  unfold Disk.doesExist entry? at hexists ⊢
  cases hplace : d.locate cwd path with
  | error cause =>
    rw [hplace] at hexists
    cases hexists
  | ok place =>
    rw [hplace] at hexists
    rw [locate_of_keeps h.keeps hplace]
    exact h.isSome place hexists

/-! ### Directories -/

/-- Whether none of some directories has to be made. -/
def isMade (d : Disk) (cwd : Place) : List String → Bool
  | [] => true
  | path :: rest =>
    (d.isDirectory cwd path || (!rest.isEmpty && d.doesExist cwd path)) && isMade d cwd rest

theorem makeEach_of_isMade {paths : List String} (h : d.isMade cwd paths = true) :
    makeEach cwd d paths = .ok d := by
  induction paths with
  | nil => rfl
  | cons path rest ih =>
    rw [isMade, Bool.and_eq_true] at h
    rw [makeEach, if_pos h.1, ih h.2]

theorem Grows.isMade (h : Grows d d') {paths : List String} (hmade : d.isMade cwd paths = true) :
    d'.isMade cwd paths = true := by
  induction paths with
  | nil => rfl
  | cons path rest ih =>
    rw [Disk.isMade, Bool.and_eq_true, Bool.or_eq_true, Bool.and_eq_true] at hmade ⊢
    exact ⟨hmade.1.imp h.keeps.isDirectory (And.imp_right h.doesExist), ih hmade.2⟩

theorem isDirectory_makeDirectory (h : d.makeDirectory cwd path = .ok d') :
    d'.isDirectory cwd path = true := by
  have hexpands := expands_makeDirectory h
  simp only [makeDirectory, bind, Except.bind] at h
  split at h
  · cases h
  · rename_i place hplace
    split at h
    · cases h
    · rename_i hnone
      cases h
      rw [resolve_eq_ok_iff] at hplace
      have hnot : d.isDirectoryAt place = false := by
        rw [isDirectoryAt]
        split
        · rename_i hdirectory
          rw [hdirectory] at hnone
          exact absurd rfl hnone
        · rfl
      rw [isDirectory, entry?, locate_of_keeps hexpands.keeps hplace]
      simp only [get?_put (isFree_of_locate hplace hnot), if_true]

/-- Directories that were made are there. -/
theorem isMade_of_makeEach {paths : List String} (h : makeEach cwd d paths = .ok d') :
    d'.isMade cwd paths = true := by
  induction paths generalizing d with
  | nil => rfl
  | cons path rest ih =>
    rw [makeEach] at h
    rw [isMade, Bool.and_eq_true]
    split at h
    · rename_i hthere
      rw [Bool.or_eq_true, Bool.and_eq_true] at hthere
      have hgrows := (expands_makeEach h).grows
      refine ⟨?_, ih h⟩
      rw [Bool.or_eq_true, Bool.and_eq_true]
      exact hthere.imp hgrows.keeps.isDirectory (And.imp_right hgrows.doesExist)
    · split at h
      · rename_i made hmade
        refine ⟨?_, ih h⟩
        rw [(expands_makeEach h).keeps.isDirectory (isDirectory_makeDirectory hmade), Bool.true_or]
      · cases h

/-- Directories that were made need not be made again. -/
theorem makeDirectories_again (h : d.makeDirectories cwd path = .ok made) (hgrows : Grows made d') :
    d'.makeDirectories cwd path = .ok d' := by
  rw [makeDirectories] at h ⊢
  split at h
  · cases h
  · rename_i hempty
    rw [if_neg hempty]
    exact makeEach_of_isMade (hgrows.isMade (isMade_of_makeEach h))

/-! ### Files -/

/-- Where a file was written another one can be written. -/
theorem write_again {content : Content} (h : d.write cwd path content = .ok d')
    (other : Content) : ∃ d'', d'.write cwd path other = .ok d'' := by
  obtain ⟨place, hplace, hnot, -⟩ := write_eq_ok_iff.1 h
  refine ⟨_, write_eq_ok_iff.2 ⟨place, locate_of_keeps (keeps_write h) hplace, ?_, rfl⟩⟩
  rw [isDirectoryAt, get?_write h hplace, if_pos rfl]

/-! ### Room for a file -/

/-- Whether the directories of two disks are the same ones. -/
def SameDirectories (d d' : Disk) : Prop :=
  ∀ place, d'.isDirectoryAt place = d.isDirectoryAt place

theorem SameDirectories.refl (d : Disk) : SameDirectories d d := fun _ => rfl

theorem SameDirectories.trans {d'' : Disk} (h : SameDirectories d d')
    (h' : SameDirectories d' d'') : SameDirectories d d'' :=
  fun place => (h' place).trans (h place)

theorem SameDirectories.keeps (h : SameDirectories d d') : KeepsDirectories d d' :=
  fun place hplace => (h place).trans hplace

theorem sameDirectories_put {place : Place} {content : Content} (h : d.isFree place = true) :
    SameDirectories d (d.put place (.file content)) := by
  intro other
  rw [isDirectoryAt, get?_put h]
  split
  · rename_i heq
    split at heq
    · cases heq
    · exact (get?_eq_directory_iff.1 heq).symm
  · rename_i hnot
    by_cases hother : other = place
    · simp only [isFree, Bool.and_eq_true, Bool.not_eq_true'] at h
      rw [hother, h.2]
    · rw [if_neg hother] at hnot
      exact (Bool.eq_false_iff.2 fun hdirectory => hnot (get?_eq_directory_iff.2 hdirectory)).symm

theorem sameDirectories_erase {place : Place} (h : d.isDirectoryAt place = false) :
    SameDirectories d (d.erase place) := by
  intro other
  by_cases hother : other = place
  · rw [hother, h, isDirectoryAt, get?_erase h, if_pos rfl]
  · rw [isDirectoryAt, get?_erase h, if_neg hother]
    rfl

theorem sameDirectories_write {content : Content} (h : d.write cwd path content = .ok d') :
    SameDirectories d d' := by
  obtain ⟨place, hplace, hnot, rfl⟩ := write_eq_ok_iff.1 h
  exact sameDirectories_put (isFree_of_locate hplace hnot)

/-- Whether a disk has room for a file once a directory is made: the directory is there already, and
the path of the file leads into a directory and not to one. -/
structure HasRoom (d : Disk) (cwd : Place) (directory path : String) : Prop where
  ne_empty : directory ≠ ""
  made : ∀ lead ∈ leading directory, d.isDirectory cwd lead = true
  free : ∃ place, d.locate cwd path = .ok place ∧ d.isDirectoryAt place = false

/-- Whether there is room, as it is found out. -/
def hasRoom (d : Disk) (cwd : Place) (directory path : String) : Bool :=
  directory != "" && (leading directory).all (fun lead => d.isDirectory cwd lead) &&
    (d.locate cwd path).toOption.any fun place => !d.isDirectoryAt place

theorem hasRoom_iff {directory : String} :
    d.hasRoom cwd directory path = true ↔ d.HasRoom cwd directory path := by
  rw [hasRoom, Bool.and_eq_true, Bool.and_eq_true, bne_iff_ne, List.all_eq_true,
    Option.any_eq_true]
  constructor
  · rintro ⟨⟨hne, hmade⟩, place, hplace, hnot⟩
    refine ⟨hne, hmade, place, ?_, by simpa using hnot⟩
    cases hlocate : d.locate cwd path with
    | error cause =>
      rw [hlocate] at hplace
      cases hplace
    | ok place' =>
      rw [hlocate] at hplace
      cases hplace
      rfl
  · rintro ⟨hne, hmade, place, hplace, hnot⟩
    exact ⟨⟨hne, hmade⟩, place, by rw [hplace]; rfl, by simpa using hnot⟩

instance (directory : String) : Decidable (d.HasRoom cwd directory path) :=
  decidable_of_iff _ hasRoom_iff

namespace HasRoom

variable {directory : String}

theorem same (h : d.HasRoom cwd directory path) (hsame : SameDirectories d d') :
    d'.HasRoom cwd directory path := by
  obtain ⟨place, hplace, hnot⟩ := h.free
  refine ⟨h.ne_empty, fun lead hlead => hsame.keeps.isDirectory (h.made lead hlead), place,
    locate_of_keeps hsame.keeps hplace, ?_⟩
  rw [hsame place, hnot]

theorem makeDirectories_eq (h : d.HasRoom cwd directory path) :
    d.makeDirectories cwd directory = .ok d := by
  have hmade (paths : List String) (hpaths : ∀ lead ∈ paths, d.isDirectory cwd lead = true) :
      makeEach cwd d paths = .ok d := by
    induction paths with
    | nil => rfl
    | cons lead rest ih =>
      rw [makeEach, hpaths lead List.mem_cons_self, Bool.true_or, if_pos rfl]
      exact ih fun other hother => hpaths other (List.mem_cons_of_mem lead hother)
  have hne : (directory == "") = false := by simpa using h.ne_empty
  rw [makeDirectories, hne, if_neg Bool.false_ne_true]
  exact hmade _ h.made

theorem exists_write (h : d.HasRoom cwd directory path) (content : Content) :
    ∃ d', d.write cwd path content = .ok d' := by
  obtain ⟨place, hplace, hnot⟩ := h.free
  exact ⟨_, write_eq_ok_iff.2 ⟨place, hplace, hnot, rfl⟩⟩

/-- A file is moved to where there is room. -/
theorem exists_replace {source : String} {content : Content}
    (h : d.HasRoom cwd directory path) (hread : d.read cwd source = .ok content) :
    ∃ d', d.replace cwd source path = .ok d' ∧ SameDirectories d d' := by
  obtain ⟨place, hplace, hnot⟩ := h.free
  obtain ⟨here, hhere, hfile⟩ := read_eq_ok_iff.1 hread
  rw [replace, hhere, hplace]
  simp only [hfile, hnot, Bool.false_eq_true, if_false]
  have hput : SameDirectories d (d.put place (.file content)) :=
    sameDirectories_put (isFree_of_locate hplace hnot)
  split
  · exact ⟨d, rfl, SameDirectories.refl d⟩
  · refine ⟨_, rfl, hput.trans (sameDirectories_erase ?_)⟩
    rw [hput, isDirectoryAt, hfile]

end HasRoom

end Disk

end RepoGraph
