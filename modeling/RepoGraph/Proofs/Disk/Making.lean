import RepoGraph.Proofs.Disk.Changes
import RepoGraph.Proofs.Path

/-!
# Directories that are made for a file

The directories of a file are made by names, from the root to the place of the file.  A path may go
through directories that are on no such way, and up again, so it may lead somewhere only once they
are made.  This does not happen to a path at whose place something stands already: what is made then
is no directory that the path goes through.

Main statements: `Disk.exists_of_get?_makeDirectories`, `Disk.locate_of_makeDirectories`.
-/

namespace RepoGraph

namespace Disk

variable {d made : Disk} {cwd place : Place} {path : String}

/-! ### What is made -/

theorem get?_makeDirectory (h : d.makeDirectory cwd path = .ok made) {other : Place}
    (hother : other ≠ absolute cwd path) : made.get? other = d.get? other := by
  have hexpands := expands_makeDirectory h
  simp only [makeDirectory, bind, Except.bind] at h
  split at h
  · cases h
  · rename_i place hplace
    rw [resolve_eq_ok_iff] at hplace
    rw [← absolute_of_locate hplace] at hother
    split at h
    · cases h
    · rename_i hnone
      cases h
      have hnot : d.isDirectoryAt place = false := by
        refine Bool.eq_false_iff.2 fun hdirectory => hnone ?_
        rw [get?_eq_directory_iff.2 hdirectory]
        rfl
      rw [get?_put (isFree_of_locate hplace hnot), if_neg hother]

theorem get?_makeEach {paths : List String} (h : makeEach cwd d paths = .ok made) {other : Place}
    (hother : ∀ path ∈ paths, other ≠ absolute cwd path) : made.get? other = d.get? other := by
  induction paths generalizing d with
  | nil =>
    rw [makeEach, Except.ok.injEq] at h
    rw [h]
  | cons path rest ih =>
    have hrest : ∀ path ∈ rest, other ≠ absolute cwd path := fun p hp =>
      hother p (List.mem_cons_of_mem path hp)
    rw [makeEach] at h
    split at h
    · exact ih h hrest
    · split at h
      · rename_i between hbetween
        rw [ih h hrest, get?_makeDirectory hbetween (hother path List.mem_cons_self)]
      · cases h

/-- The parts of a path that leads to another one are the first parts of that one. -/
theorem parts_of_mem_leading {lead : String} (h : lead ∈ leading path) :
    Path.parts lead <+: Path.parts path := by
  -- the parts so far are those of the text so far, with its slash at the end
  have hgo (names : List String) (before : String) (done : List String)
      (hbefore : ∀ name, '/' ∉ name.toList → Path.parts (before ++ name) = done ++ [name])
      (hnames : ∀ name ∈ names, '/' ∉ name.toList) (hlead : lead ∈ leading.go before names) :
      Path.parts lead <+: done ++ names := by
    induction names generalizing before done with
    | nil => cases hlead
    | cons name rest ih =>
      have hname := hbefore name (hnames name List.mem_cons_self)
      have hrest : ∀ n ∈ rest, '/' ∉ n.toList := fun n hn => hnames n (List.mem_cons_of_mem _ hn)
      rw [List.append_cons]
      rw [leading.go, List.mem_cons] at hlead
      obtain rfl | hlead := hlead
      · rw [hname]
        exact List.prefix_append _ _
      · refine ih _ _ (fun next hnext => ?_) hrest hlead
        rw [Path.parts_append, hname, Path.parts_of_not_mem hnext]
  refine hgo _ "" [] (fun name hname => ?_) (fun _ => Path.not_mem_of_mem_parts)
    (List.mem_filter.1 h).1
  rw [String.empty_append, Path.parts_of_not_mem hname, List.nil_append]

/-- A path whose first part is empty begins at the root. -/
theorem start_eq_nil {names : List String} (hparts : Path.parts path = "" :: names)
    (hne : path ≠ "") : start cwd path = [] := by
  have hpath := Path.intercalate_parts path
  rw [hparts] at hpath
  have hstarts : path.startsWith "/" = true := by
    rw [Path.startsWith_slash_iff, ← hpath]
    cases names with
    | nil =>
      rw [String.intercalate_singleton] at hpath
      exact absurd hpath.symm hne
    | cons name rest =>
      rw [String.intercalate_cons_cons]
      exact ⟨("/".intercalate (name :: rest)).toList, by simp⟩
  rw [start, if_pos hstarts]

/-- What is made below the root is reached by first parts of the path. -/
theorem exists_of_get?_makeDirectories {rest : List String}
    (h : d.makeDirectories cwd path = .ok made) (hparts : Path.parts path = "" :: rest)
    (hmade : made.get? place ≠ d.get? place) :
    ∃ names, names <+: rest ∧ place = names.foldl advance [] := by
  rw [makeDirectories] at h
  split at h
  · cases h
  · obtain ⟨lead, hlead, rfl⟩ : ∃ lead ∈ leading path, place = absolute cwd lead := by
      by_contra hnone
      exact hmade (get?_makeEach h fun lead hlead hplace => hnone ⟨lead, hlead, hplace⟩)
    have hprefix := parts_of_mem_leading hlead
    have hne : lead ≠ "" := by
      rintro rfl
      simpa using (List.mem_filter.1 hlead).2
    obtain ⟨name, names, hlead⟩ := List.exists_cons_of_ne_nil (Path.parts_ne_nil lead)
    rw [hparts, hlead, List.cons_prefix_cons] at hprefix
    obtain ⟨rfl, hprefix⟩ := hprefix
    exact ⟨names, hprefix, by rw [absolute_eq, start_eq_nil hlead hne, hlead]; rfl⟩

/-! ### The directories of a file -/

/-- Going on from names that stand in a directory, names of paths lead to such names. -/
theorem isName_foldl_advance {names : List String} (hnames : ∀ name ∈ names, '/' ∉ name.toList)
    {here : Place} (hhere : ∀ name ∈ here, Path.IsName name) :
    ∀ name ∈ names.foldl advance here, Path.IsName name := by
  induction names generalizing here with
  | nil => exact hhere
  | cons next rest ih =>
    have hrest : ∀ name ∈ rest, '/' ∉ name.toList :=
      fun n hn => hnames n (List.mem_cons_of_mem _ hn)
    refine ih hrest fun name hname => ?_
    rw [advance] at hname
    split at hname
    · exact hhere name hname
    · split at hname
      · exact hhere name (List.dropLast_subset here hname)
      · rename_i hsame hup
        obtain hname | hname := List.mem_append.1 hname
        · exact hhere name hname
        · rw [List.mem_singleton] at hname
          subst hname
          simp only [Bool.or_eq_true, beq_iff_eq, not_or] at hsame hup
          exact ⟨hsame.1, hsame.2, hup, hnames _ List.mem_cons_self⟩

/-- Names that stand in a directory lead down to it. -/
theorem foldl_advance_of_isName {names : List String} (hnames : ∀ name ∈ names, Path.IsName name)
    (here : Place) : names.foldl advance here = here ++ names := by
  induction names generalizing here with
  | nil => rw [List.foldl_nil, List.append_nil]
  | cons name rest ih =>
    rw [List.foldl_cons, advance_of_isName (hnames name List.mem_cons_self),
      ih fun other hother => hnames other (List.mem_cons_of_mem _ hother), List.append_assoc]
    rfl

/-- The parts of the directory around a place. -/
theorem parts_directory (target : Place) :
    Path.parts ("/" ++ "/".intercalate target) = "" :: Path.parts ("/".intercalate target) := by
  have hempty : Path.parts "" = [""] := Path.parts_of_not_mem (by simp)
  rw [← String.empty_append (s := "/"), Path.parts_append, hempty]
  rfl

/-- Where the directories of a file are made at whose place something stands, no directory is made
that the path of the file goes through. -/
theorem isDirectoryAt_of_makeDirectories {target here : Place} {names : List String}
    (h : d.makeDirectories cwd ("/" ++ "/".intercalate target.dropLast) = .ok made)
    (hthere : (d.get? target).isSome = true) (htarget : target = names.foldl advance here)
    (hnames : ∀ name ∈ names, '/' ∉ name.toList) (hmade : made.isDirectoryAt here = true) :
    d.isDirectoryAt here = true := by
  by_cases hsame : made.get? here = d.get? here
  · rw [isDirectoryAt, ← hsame]
    exact hmade
  · -- a directory that is made is one of names, so the target is one of names below it
    obtain ⟨firsts, hfirsts, hhere⟩ :=
      exists_of_get?_makeDirectories h (parts_directory _) hsame
    have hfirst : ∀ name ∈ firsts, '/' ∉ name.toList := fun name hname =>
      Path.not_mem_of_mem_parts (hfirsts.subset hname)
    have hnamed : ∀ name ∈ target, Path.IsName name := by
      rw [htarget]
      refine isName_foldl_advance hnames ?_
      rw [hhere]
      exact isName_foldl_advance hfirst (by simp)
    by_cases hroot : target.dropLast = []
    · have hempty : here = [] := by
        rw [hroot, String.intercalate_nil, Path.parts_of_not_mem (by simp)] at hfirsts
        obtain rfl | ⟨rest, rfl, hrest⟩ := List.prefix_cons_iff.1 hfirsts
        · exact hhere
        · rw [List.prefix_nil.1 hrest] at hhere
          exact hhere
      rw [hempty]
      exact isDirectoryAt_iff.2 (.inl rfl)
    · have hparts : Path.parts ("/".intercalate target.dropLast) = target.dropLast :=
        Path.parts_intercalate_of_isName hroot fun name hname =>
          hnamed name (List.dropLast_subset target hname)
      rw [hparts] at hfirsts
      have hfirstNamed : ∀ name ∈ firsts, Path.IsName name := fun name hname =>
        hnamed name (List.dropLast_subset target (hfirsts.subset hname))
      rw [foldl_advance_of_isName hfirstNamed, List.nil_append] at hhere
      obtain ⟨between, hbetween⟩ := hfirsts
      have hne : target ≠ [] := by
        rintro rfl
        exact hroot rfl
      have hsplit : here ++ (between ++ [target.getLast hne]) = target := by
        rw [hhere, ← List.append_assoc, hbetween, List.dropLast_append_getLast]
      exact isDirectoryAt_of_append (List.append_ne_nil_of_right_ne_nil _ (List.cons_ne_nil _ _))
        (hsplit.symm ▸ hthere)

/-- At the end of a path stands something already if it does once the directories of its place are
made. -/
theorem locate_of_makeDirectories
    (h : d.makeDirectories cwd ("/" ++ "/".intercalate (absolute cwd path).dropLast) = .ok made)
    (hthere : (d.get? (absolute cwd path)).isSome = true)
    (hplace : made.locate cwd path = .ok place) :
    d.locate cwd path = .ok place := by
  rw [locate_eq_ok_iff] at hplace ⊢
  refine ⟨hplace.1, ?_⟩
  have hfollow (names : List String) (here : Place) (hnames : ∀ name ∈ names, '/' ∉ name.toList)
      (htarget : absolute cwd path = names.foldl advance here)
      (hplace : made.follow here names = .ok place) : d.follow here names = .ok place := by
    induction names generalizing here with
    | nil => exact hplace
    | cons name rest ih =>
      rw [follow_cons_eq_ok_iff] at hplace ⊢
      refine ⟨isDirectoryAt_of_makeDirectories h hthere htarget hnames hplace.1,
        ih _ (fun n hn => hnames n (List.mem_cons_of_mem _ hn)) ?_ hplace.2⟩
      rw [htarget, List.foldl_cons, advance]
      simp
  exact hfollow _ _ (fun _ => Path.not_mem_of_mem_parts) (absolute_eq cwd path) hplace.2

end Disk

end RepoGraph
