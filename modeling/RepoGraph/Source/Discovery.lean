import RepoGraph.Disk
import RepoGraph.Source.Kind
import RepoGraph.Text.Order

/-!
# The files of a checkout

A checkout is walked from its root: the files of a directory come first, then what the directories
in it hold.  A directory that is left out is not entered, and of the files that are met those are
listed that take part in a build, by their paths from the root and in order.
-/

namespace RepoGraph

namespace Disk

/-- What stands directly in a place, by name. -/
def inside (d : Disk) (place : Place) : List (String × Entry) :=
  (d.below place).filterMap fun (names, entry) =>
    match names with
    | [name] => some (name, entry)
    | _ => none

/-- The names of the files in a place. -/
def fileNames (d : Disk) (place : Place) : List String :=
  (d.inside place).filterMap fun (name, entry) =>
    match entry with
    | .file _ => some name
    | .directory => none

/-- The names of the directories in a place. -/
def directoryNames (d : Disk) (place : Place) : List String :=
  (d.inside place).filterMap fun (name, entry) =>
    match entry with
    | .file _ => none
    | .directory => some name

theorem mem_below {d : Disk} {place names : Place} {entry : Entry} :
    (names, entry) ∈ d.below place ↔ names ≠ [] ∧ (place ++ names, entry) ∈ d.entries := by
  simp only [below, List.mem_filterMap, Prod.exists]
  constructor
  · rintro ⟨l, e, hmem, h⟩
    split at h
    · rename_i hbelow
      rw [Bool.and_eq_true, List.isPrefixOf_iff_prefix, decide_eq_true_eq] at hbelow
      obtain ⟨⟨rest, rfl⟩, hne⟩ := hbelow
      rw [List.drop_left] at h
      cases h
      exact ⟨fun hnil => hne (by rw [hnil, List.append_nil]), hmem⟩
    · cases h
  · rintro ⟨hne, hmem⟩
    refine ⟨_, _, hmem, ?_⟩
    simp [hne]

theorem mem_inside {d : Disk} {place : Place} {name : String} {entry : Entry} :
    (name, entry) ∈ d.inside place ↔ (place ++ [name], entry) ∈ d.entries := by
  simp only [inside, List.mem_filterMap, Prod.exists]
  constructor
  · rintro ⟨names, e, hmem, h⟩
    split at h
    · cases h
      exact (mem_below.1 hmem).2
    · cases h
  · exact fun hmem => ⟨[name], entry, mem_below.2 ⟨List.cons_ne_nil _ _, hmem⟩, rfl⟩

theorem mem_directoryNames {d : Disk} {place : Place} {name : String} :
    name ∈ d.directoryNames place ↔ (place ++ [name], Entry.directory) ∈ d.entries := by
  simp only [directoryNames, List.mem_filterMap, Prod.exists, mem_inside]
  constructor
  · rintro ⟨n, entry, hmem, h⟩
    split at h
    · cases h
    · cases h
      exact hmem
  · exact fun hmem => ⟨name, _, hmem, rfl⟩

theorem mem_fileNames {d : Disk} {place : Place} {name : String} :
    name ∈ d.fileNames place ↔ ∃ content, (place ++ [name], Entry.file content) ∈ d.entries := by
  simp only [fileNames, List.mem_filterMap, Prod.exists, mem_inside]
  constructor
  · rintro ⟨n, entry, hmem, h⟩
    split at h
    · rename_i content
      cases h
      exact ⟨content, hmem⟩
    · cases h
  · rintro ⟨content, hmem⟩
    exact ⟨name, _, hmem, rfl⟩

theorem length_below (d : Disk) (place : Place) :
    (d.below place).length =
      (d.entries.filter fun e => place.isPrefixOf e.1 && e.1 ≠ place).length := by
  rw [below]
  induction d.entries with
  | nil => rfl
  | cons e rest ih =>
    obtain ⟨l, entry⟩ := e
    by_cases hbelow : (place.isPrefixOf l && decide (l ≠ place)) = true
    · simp only [List.filterMap_cons, List.filter_cons, hbelow, if_true, List.length_cons, ih]
    · simp only [List.filterMap_cons, List.filter_cons, hbelow, Bool.false_eq_true, if_false, ih]

/-- Below a directory there is less than around it. -/
theorem length_below_lt {d : Disk} {place : Place} {name : String}
    (h : name ∈ d.directoryNames place) :
    (d.below (place ++ [name])).length < (d.below place).length := by
  rw [length_below, length_below]
  have hsub :
      (d.entries.filter fun e => (place ++ [name]).isPrefixOf e.1 && e.1 ≠ place ++ [name]) =
      (d.entries.filter fun e => place.isPrefixOf e.1 && e.1 ≠ place).filter fun e =>
        (place ++ [name]).isPrefixOf e.1 && e.1 ≠ place ++ [name] := by
    rw [List.filter_filter]
    refine List.filter_congr fun e _ => ?_
    rw [Bool.eq_iff_iff]
    simp only [Bool.and_eq_true, List.isPrefixOf_iff_prefix, decide_eq_true_eq]
    refine ⟨fun he => ⟨he, (List.prefix_append _ _).trans he.1, ?_⟩, fun he => he.1⟩
    rintro rfl
    have hlength := he.1.length_le
    rw [List.length_append, List.length_singleton] at hlength
    omega
  rw [hsub, List.length_filter_lt_length_iff_exists]
  refine ⟨(place ++ [name], .directory), List.mem_filter.2 ⟨mem_directoryNames.1 h, ?_⟩, ?_⟩
  · simp
  · simp

end Disk

namespace Source

/-- The files that are met on the way from a directory of a checkout, as far as they take part in a
build.  The directory is given by the names that lead to it from the root. -/
def walk (disk : Disk) (root : Place) (names : List String) : List String :=
  ((disk.fileNames (root ++ names)).map fun name => "/".intercalate (names ++ [name])).filter
      isIncluded ++
    (Text.inOrder
        ((disk.directoryNames (root ++ names)).filter fun name => !isSkipped name)).attach.flatMap
      fun ⟨name, h⟩ =>
        have : (disk.below (root ++ names ++ [name])).length <
            (disk.below (root ++ names)).length :=
          Disk.length_below_lt (List.mem_filter.1 ((Text.perm_inOrder _).mem_iff.1 h)).1
        walk disk root (names ++ [name])
termination_by (disk.below (root ++ names)).length
decreasing_by rwa [← List.append_assoc]

/-- The files of a checkout that take part in a build, in order. -/
def discover (disk : Disk) (cwd : Place) (repo : String) : List String :=
  match disk.locate cwd repo with
  | .error _ => []
  | .ok root => if disk.isDirectoryAt root then Text.inOrder (walk disk root []) else []

end Source

end RepoGraph
