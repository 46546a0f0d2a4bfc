import Mathlib.Data.List.Basic
import RepoGraph.Proofs.Disk

/-!
# Paths and the names they are made of

A path is what `/` joins its parts to, and the parts of joined paths are those of each in turn.  So
a name without a slash that stands somewhere in a path is one of its parts, whatever the names
around it are: `Path.mem_directories_iff`.

A pattern is read from the left: its letters are the name's, a `*` is any text.

Main statements: `Path.intercalate_parts`, `Path.parts_intercalate`, `Path.mem_directories_iff`,
`Path.matchesGlobChars_star`, `Path.matchesGlobChars_append`.
-/

namespace RepoGraph

namespace Text

theorem splitAt_eq_splitOnP (p : Char → Bool) (cs : List Char) : splitAt p cs = cs.splitOnP p := by
  induction cs with
  | nil => rfl
  | cons c rest ih =>
    rw [splitAt, ih, List.splitOnP_cons_eq_if_modifyHead]
    cases hrest : rest.splitOnP p with
    | nil => exact absurd hrest (List.splitOnP_ne_nil p rest)
    | cons piece more => rfl

/-- No piece holds a separator. -/
theorem not_of_mem_splitAt {p : Char → Bool} {cs piece : List Char} (h : piece ∈ splitAt p cs) :
    ∀ c ∈ piece, p c = false := by
  induction cs generalizing piece with
  | nil =>
    rw [splitAt, List.mem_singleton] at h
    simp [h]
  | cons c rest ih =>
    rw [splitAt] at h
    cases hrest : splitAt p rest with
    | nil => exact absurd hrest (splitAt_ne_nil p rest)
    | cons first more =>
      rw [hrest] at h ih
      have hfirst := ih List.mem_cons_self
      have hmore (other : List Char) (hother : other ∈ more) :=
        ih (List.mem_cons_of_mem first hother)
      -- a separator begins a new piece, any other character goes on with the first one
      by_cases hc : p c = true
      · simp only [hc, if_true, List.mem_cons] at h
        obtain rfl | rfl | h := h
        · simp
        · exact hfirst
        · exact hmore piece h
      · simp only [hc, Bool.false_eq_true, if_false, List.mem_cons] at h
        obtain rfl | h := h
        · exact List.forall_mem_cons.2 ⟨by simpa using hc, hfirst⟩
        · exact hmore piece h

end Text

namespace Path

/-! ### Parts -/

/-- No part holds a slash. -/
theorem not_mem_of_mem_parts {path part : String} (h : part ∈ parts path) : '/' ∉ part.toList := by
  rw [parts, Text.splitOnChar, List.mem_map] at h
  obtain ⟨piece, hpiece, rfl⟩ := h
  rw [String.toList_ofList]
  intro hmem
  exact absurd (Text.not_of_mem_splitAt hpiece '/' hmem) (by simp)

/-- A path is made of its parts. -/
theorem intercalate_parts (path : String) : "/".intercalate (parts path) = path := by
  rw [← String.toList_inj, String.toList_intercalate, parts, Text.splitOnChar, List.map_map,
    Text.splitAt_eq_splitOnP]
  have hmap : String.toList ∘ String.ofList = id := funext fun _ => String.toList_ofList
  rw [hmap, List.map_id]
  exact List.intercalate_splitOn '/'

theorem parts_append (before after : String) :
    parts (before ++ "/" ++ after) = parts before ++ parts after := by
  have hlist : (before ++ "/" ++ after).toList = before.toList ++ '/' :: after.toList := by simp
  rw [parts, Text.splitOnChar, hlist, Text.splitAt_append_cons (by rfl), List.map_append]
  rfl

/-- The parts of joined paths are those of each in turn. -/
theorem parts_intercalate {paths : List String} (h : paths ≠ []) :
    parts ("/".intercalate paths) = paths.flatMap parts := by
  induction paths with
  | nil => exact absurd rfl h
  | cons path rest ih =>
    by_cases hrest : rest = []
    · subst hrest
      simp
    · rw [String.intercalate_cons_of_ne_nil hrest, parts_append, ih hrest, List.flatMap_cons]

/-- Joined names are the parts of the path. -/
theorem parts_intercalate_of_isName {names : List String} (hne : names ≠ [])
    (h : ∀ name ∈ names, IsName name) : parts ("/".intercalate names) = names := by
  rw [parts_intercalate hne]
  clear hne
  induction names with
  | nil => rfl
  | cons name rest ih =>
    rw [List.flatMap_cons, parts_of_isName (h name List.mem_cons_self),
      ih fun other hother => h other (List.mem_cons_of_mem _ hother), List.singleton_append]

/-- A name without a slash is that of a directory on a path if it stands before something in it. -/
theorem mem_directories_iff {directory path : String} (h : '/' ∉ directory.toList) :
    directory ∈ directories path ↔
      ∃ before after, after ≠ [] ∧ path = "/".intercalate (before ++ directory :: after) := by
  constructor
  · intro hmem
    obtain ⟨before, after, hsplit⟩ := List.append_of_mem hmem
    have hlast := List.dropLast_append_getLast (parts_ne_nil path)
    refine ⟨before, after ++ [(parts path).getLast (parts_ne_nil path)],
      List.append_ne_nil_of_right_ne_nil _ (List.cons_ne_nil _ _), ?_⟩
    rw [← List.cons_append, ← List.append_assoc, ← hsplit, directories, hlast, intercalate_parts]
  · rintro ⟨before, after, hafter, rfl⟩
    have hmore : after.flatMap parts ≠ [] := by
      obtain ⟨name, rest, rfl⟩ := List.exists_cons_of_ne_nil hafter
      rw [List.flatMap_cons]
      exact List.append_ne_nil_of_left_ne_nil (parts_ne_nil name) _
    rw [directories, parts_intercalate (by simp), List.flatMap_append, List.flatMap_cons,
      parts_of_not_mem h, List.dropLast_append_of_ne_nil (by simp),
      List.dropLast_append_of_ne_nil hmore]
    simp

/-! ### Patterns -/

theorem matchesGlobChars_nil {name : List Char} : matchesGlobChars [] name = true ↔ name = [] := by
  rw [matchesGlobChars, List.isEmpty_iff]

/-- A star is any text. -/
theorem matchesGlobChars_star {pattern name : List Char} :
    matchesGlobChars ('*' :: pattern) name = true ↔
      ∃ before after, name = before ++ after ∧ matchesGlobChars pattern after = true := by
  rw [matchesGlobChars, List.any_eq_true]
  constructor
  · rintro ⟨n, -, h⟩
    exact ⟨name.take n, name.drop n, (List.take_append_drop n name).symm, h⟩
  · rintro ⟨before, after, rfl, h⟩
    refine ⟨before.length, List.mem_range.2 ?_, by rwa [List.drop_left]⟩
    rw [List.length_append]
    omega

/-- Letters are themselves. -/
theorem matchesGlobChars_append {letters pattern name : List Char} (h : '*' ∉ letters) :
    matchesGlobChars (letters ++ pattern) name = true ↔
      ∃ after, name = letters ++ after ∧ matchesGlobChars pattern after = true := by
  induction letters generalizing name with
  | nil => simp
  | cons c rest ih =>
    have hc : c ≠ '*' := fun he => h (he ▸ List.mem_cons_self)
    have hrest : '*' ∉ rest := fun hmem => h (List.mem_cons_of_mem _ hmem)
    rw [List.cons_append]
    cases name with
    | nil => simp [matchesGlobChars]
    | cons d name =>
      rw [matchesGlobChars.eq_4 _ _ _ _ hc, Bool.and_eq_true, beq_iff_eq, ih hrest]
      constructor
      · rintro ⟨rfl, after, rfl, hmatch⟩
        exact ⟨after, rfl, hmatch⟩
      · rintro ⟨after, heq, hmatch⟩
        obtain ⟨rfl, rfl⟩ := List.cons.inj heq
        exact ⟨rfl, after, rfl, hmatch⟩

end Path

end RepoGraph
