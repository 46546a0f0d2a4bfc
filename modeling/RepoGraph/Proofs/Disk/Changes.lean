import RepoGraph.Proofs.Disk

/-!
# Files by the place of their path

A path has a place by name alone: `Disk.absolute`.  It leads to no other place, but it leads there
only if the directories on its way exist.  `Disk.fileAt` is the file at the place of a path, found
or not; it is what a change of the disk elsewhere leaves alone.

Main statements: `Disk.absolute_of_locate`, `Disk.read_join_iff`, `Disk.Changes.fileAt_eq`.
-/

namespace RepoGraph

namespace Disk

/-! ### Places by name -/

/-- Where a name leads, by name alone. -/
def advance (here : Place) (name : String) : Place :=
  if name == "" || name == "." then here
  else if name == ".." then here.dropLast
  else here ++ [name]

theorem absolute_eq (cwd : Place) (path : String) :
    absolute cwd path = (Path.parts path).foldl advance (start cwd path) := rfl

theorem eq_of_follow {d : Disk} {here place : Place} {names : List String}
    (h : d.follow here names = .ok place) : place = names.foldl advance here := by
  induction names generalizing here with
  | nil =>
    rw [follow, Except.ok.injEq] at h
    exact h.symm
  | cons name rest ih =>
    rw [follow_cons_eq_ok_iff] at h
    rw [List.foldl_cons, ih h.2, advance]
    simp

/-- A path leads to no other place than its own. -/
theorem absolute_of_locate {d : Disk} {cwd place : Place} {path : String}
    (h : d.locate cwd path = .ok place) : place = absolute cwd path :=
  eq_of_follow (locate_eq_ok_iff.1 h).2

theorem advance_of_isName {name : String} (h : Path.IsName name) (here : Place) :
    advance here name = here ++ [name] := by
  rw [advance]
  simp [h.1, h.2.1, h.2.2.1]

/-- The place of a directory. -/
def home (cwd : Place) (dir : String) : Place := (Path.lead dir).foldl advance (start cwd dir)

theorem home_join (cwd : Place) (dir : String) {name : String} (h : Path.IsName name) :
    home cwd (Path.join dir name) = home cwd dir ++ [name] := by
  rw [home, start, Path.startsWith_join dir h, Path.lead_join dir h, List.foldl_append,
    List.foldl_cons, List.foldl_nil, advance_of_isName h]
  rfl

theorem absolute_join (cwd : Place) (dir : String) {name : String} (h : Path.IsName name) :
    absolute cwd (Path.join dir name) = home cwd dir ++ [name] := by
  rw [absolute_eq, start, Path.startsWith_join dir h, Path.parts_join dir h, List.foldl_append,
    List.foldl_cons, List.foldl_nil, advance_of_isName h]
  rfl

/-! ### Files -/

/-- What the file at the place of a path holds. -/
def fileAt (d : Disk) (cwd : Place) (path : String) : Option Content :=
  match d.get? (absolute cwd path) with
  | some (.file content) => some content
  | _ => none

theorem fileAt_eq_some_iff {d : Disk} {cwd : Place} {path : String} {content : Content} :
    d.fileAt cwd path = some content ↔ d.get? (absolute cwd path) = some (.file content) := by
  rw [fileAt]
  split <;> simp_all

/-- What is read stands at the place of the path. -/
theorem fileAt_of_read {d : Disk} {cwd : Place} {path : String} {content : Content}
    (h : d.read cwd path = .ok content) : d.fileAt cwd path = some content := by
  obtain ⟨place, hplace, hfile⟩ := read_eq_ok_iff.1 h
  rw [fileAt_eq_some_iff, ← absolute_of_locate hplace]
  exact hfile

/-- Whether a path leads to a directory. -/
def IsReached (d : Disk) (cwd : Place) (dir : String) : Prop :=
  ∃ place, d.follow (start cwd dir) (Path.lead dir) = .ok place

theorem IsReached.keeps {d d' : Disk} (hkeeps : KeepsDirectories d d') {cwd : Place} {dir : String}
    (h : d.IsReached cwd dir) : d'.IsReached cwd dir := by
  obtain ⟨place, hplace⟩ := h
  exact ⟨place, follow_of_keeps hkeeps hplace⟩

/-- A directory is reached if a file in it is. -/
theorem isReached_of_locate {d : Disk} {cwd place : Place} {dir name : String}
    (hname : Path.IsName name) (h : d.locate cwd (Path.join dir name) = .ok place) :
    d.IsReached cwd dir := by
  obtain ⟨between, hbetween, -, -⟩ := (locate_join dir hname).1 h
  exact ⟨between, hbetween⟩

theorem isReached_of_join {d : Disk} {cwd : Place} {dir name : String} (hname : Path.IsName name)
    (h : d.IsReached cwd (Path.join dir name)) : d.IsReached cwd dir := by
  obtain ⟨place, hplace⟩ := h
  rw [start, Path.startsWith_join dir hname, Path.lead_join dir hname, follow_append] at hplace
  obtain ⟨between, hbetween, -⟩ := hplace
  exact ⟨between, hbetween⟩

/-- Below a directory that is reached the file at the place of a path is the one that is read. -/
theorem read_join_iff {d : Disk} {cwd : Place} {dir name : String} {content : Content}
    (h : d.IsReached cwd dir) (hname : Path.IsName name) :
    d.read cwd (Path.join dir name) = .ok content ↔
      d.fileAt cwd (Path.join dir name) = some content := by
  refine ⟨fileAt_of_read, fun hfile => ?_⟩
  obtain ⟨place, hplace⟩ := h
  have hhome : place = home cwd dir := eq_of_follow hplace
  rw [fileAt_eq_some_iff, absolute_join cwd dir hname, ← hhome] at hfile
  refine read_eq_ok_iff.2 ⟨place ++ [name], (locate_join dir hname).2 ⟨place, hplace, ?_, rfl⟩,
    hfile⟩
  refine isDirectoryAt_of_append (List.cons_ne_nil name []) ?_
  rw [hfile]
  rfl

/-- A directory below one that is reached is reached too if a file stands in it. -/
theorem isReached_join {d : Disk} {cwd : Place} {dir outer name : String} {content : Content}
    (h : d.IsReached cwd dir) (houter : Path.IsName outer) (hname : Path.IsName name)
    (hfile : d.fileAt cwd (Path.join (Path.join dir outer) name) = some content) :
    d.IsReached cwd (Path.join dir outer) := by
  obtain ⟨place, hplace⟩ := h
  have hhome : place = home cwd dir := eq_of_follow hplace
  rw [fileAt_eq_some_iff, absolute_join cwd _ hname, home_join cwd dir houter, ← hhome,
    List.append_assoc] at hfile
  have hdirectory : d.isDirectoryAt place = true := by
    refine isDirectoryAt_of_append (List.cons_ne_nil outer [name]) ?_
    rw [← List.singleton_append, hfile]
    rfl
  refine ⟨place ++ [outer], ?_⟩
  rw [start, Path.startsWith_join dir houter, Path.lead_join dir houter, follow_append]
  exact ⟨place, hplace, (follow_name houter).2 ⟨hdirectory, rfl⟩⟩

/-- A file two names below a directory that is reached is read as it stands at its place. -/
theorem read_join_join_iff {d : Disk} {cwd : Place} {dir outer name : String} {content : Content}
    (h : d.IsReached cwd dir) (houter : Path.IsName outer) (hname : Path.IsName name) :
    d.read cwd (Path.join (Path.join dir outer) name) = .ok content ↔
      d.fileAt cwd (Path.join (Path.join dir outer) name) = some content :=
  ⟨fileAt_of_read, fun hfile => (read_join_iff (isReached_join h houter hname hfile) hname).2 hfile⟩

/-! ### Changes -/

/-- A disk is another one with more directories, and other files at some places. -/
structure Changes (places : List Place) (d d' : Disk) : Prop where
  keeps : KeepsDirectories d d'
  elsewhere : ∀ place, place ∉ places →
    d'.get? place = d.get? place ∨ d.get? place = none ∧ d'.get? place = some .directory

variable {places : List Place} {d d' d'' : Disk} {cwd : Place}

theorem Expands.changes (h : Expands d d') : Changes places d d' :=
  ⟨h.keeps, fun place _ => h place⟩

theorem changes_refl (places : List Place) (d : Disk) : Changes places d d :=
  (Expands.refl d).changes

theorem Changes.trans (h : Changes places d d') (h' : Changes places d' d'') :
    Changes places d d'' := by
  refine ⟨fun place hplace => h'.keeps place (h.keeps place hplace), fun place hplace => ?_⟩
  rcases h'.elsewhere place hplace with hsame | ⟨hnone, hdirectory⟩
  · rw [hsame]
    exact h.elsewhere place hplace
  · rcases h.elsewhere place hplace with hsame | ⟨-, hdirectory'⟩
    · exact .inr ⟨hsame ▸ hnone, hdirectory⟩
    · rw [hdirectory'] at hnone
      cases hnone

theorem Changes.mono {places' : List Place} (h : Changes places d d') (hsub : places ⊆ places') :
    Changes places' d d' :=
  ⟨h.keeps, fun place hplace => h.elsewhere place fun hmem => hplace (hsub hmem)⟩

/-- Elsewhere the files are the same. -/
theorem Changes.fileAt_eq (h : Changes places d d') {path : String}
    (hpath : absolute cwd path ∉ places) : d'.fileAt cwd path = d.fileAt cwd path := by
  rw [fileAt, fileAt]
  rcases h.elsewhere _ hpath with hsame | ⟨hnone, hdirectory⟩
  · rw [hsame]
  · rw [hnone, hdirectory]

theorem changes_write {path : String} {content : Content} (h : d.write cwd path content = .ok d') :
    Changes [absolute cwd path] d d' := by
  obtain ⟨place, hplace, -, -⟩ := write_eq_ok_iff.1 h
  refine ⟨keeps_write h, fun other hother => .inl ?_⟩
  rw [List.mem_singleton, ← absolute_of_locate hplace] at hother
  rw [get?_write h hplace, if_neg hother]

theorem fileAt_write {path : String} {content : Content} (h : d.write cwd path content = .ok d') :
    d'.fileAt cwd path = some content :=
  fileAt_of_read (read_write h)

/-- A file that is moved stands at its new place and no longer at the old one. -/
theorem replace_eq_ok {source target : String} (h : d.replace cwd source target = .ok d')
    (hne : absolute cwd source ≠ absolute cwd target) :
    Changes [absolute cwd source, absolute cwd target] d d' ∧
      d'.fileAt cwd target = d.fileAt cwd source ∧ d'.get? (absolute cwd source) = none := by
  simp only [replace] at h
  split at h
  · cases h
  · cases h
  · rename_i here there hsource htarget
    rw [← absolute_of_locate hsource, ← absolute_of_locate htarget] at hne
    split at h
    · cases h
    · cases h
    · rename_i entry hnot hentry
      split at h
      · cases h
      · rename_i hdirectory
        cases h
        have hthere := Bool.eq_false_iff.2 hdirectory
        have hhere : d.isDirectoryAt here = false := by
          rw [isDirectoryAt, hentry]
          cases entry with
          | directory => exact absurd rfl hnot
          | file content => rfl
        have hfree := isFree_of_locate htarget hthere
        have hput : (d.put there entry).isDirectoryAt here = false := by
          rw [isDirectoryAt, get?_put hfree, if_neg hne]
          exact hhere
        -- the disk is known at every place, and all that is asked follows from this
        have hget (other : Place) : ((d.put there entry).erase here).get? other =
            if other = here then none else if other = there then some entry else d.get? other := by
          rw [get?_erase hput, get?_put hfree]
        rw [fileAt, fileAt, ← absolute_of_locate hsource, ← absolute_of_locate htarget]
        refine ⟨⟨fun place hplace => ?_, fun place hplace => .inl ?_⟩, ?_, ?_⟩
        · have hne' {other : Place} (hother : d.isDirectoryAt other = false) : place ≠ other := by
            rintro rfl
            rw [hplace] at hother
            cases hother
          rw [isDirectoryAt, hget, if_neg (hne' hhere), if_neg (hne' hthere)]
          exact hplace
        · simp only [List.mem_cons, List.not_mem_nil, or_false, not_or] at hplace
          rw [hget, if_neg hplace.1, if_neg hplace.2]
        · rw [hget, if_neg (Ne.symm hne), if_pos rfl, hentry]
        · rw [hget, if_pos rfl]

/-- A file is removed from the place that its path leads to. -/
theorem remove_eq_ok_iff {path : String} : d.remove cwd path = .ok d' ↔
    ∃ place content, d.locate cwd path = .ok place ∧ d.get? place = some (.file content) ∧
      d' = d.erase place := by
  simp only [remove, bind, Except.bind]
  constructor
  · intro h
    split at h
    · cases h
    · rename_i place hplace
      split at h
      · cases h
      · cases h
      · rename_i content hfile
        exact ⟨place, content, resolve_eq_ok_iff.1 hplace, hfile, (Except.ok.inj h).symm⟩
  · rintro ⟨place, content, hplace, hfile, rfl⟩
    rw [resolve_eq_ok_iff.2 hplace]
    simp only [hfile]
    rfl

theorem get?_remove {path : String} (h : d.remove cwd path = .ok d') (other : Place) :
    d'.get? other = if other = absolute cwd path then none else d.get? other := by
  obtain ⟨place, content, hplace, hfile, rfl⟩ := remove_eq_ok_iff.1 h
  have hnot : d.isDirectoryAt place = false := by rw [isDirectoryAt, hfile]
  rw [get?_erase hnot, absolute_of_locate hplace]

theorem changes_remove {path : String} (h : d.remove cwd path = .ok d') :
    Changes [absolute cwd path] d d' := by
  obtain ⟨place, content, hplace, hfile, -⟩ := remove_eq_ok_iff.1 h
  have hnot : d.isDirectoryAt (absolute cwd path) = false := by
    rw [← absolute_of_locate hplace, isDirectoryAt, hfile]
  have hget (other : Place) (hother : other ≠ absolute cwd path) :
      d'.get? other = d.get? other := by
    rw [get?_remove h, if_neg hother]
  exact ⟨keeps_of_get? hnot hget, fun other hother =>
    .inl (hget other fun he => hother (List.mem_singleton.2 he))⟩

/-- Where a file was removed nothing is left. -/
theorem fileAt_remove {path : String} (h : d.remove cwd path = .ok d') :
    d'.fileAt cwd path = none := by
  rw [fileAt, get?_remove h, if_pos rfl]

/-- A file that can be read can be removed. -/
theorem exists_remove {path : String} {content : Content} (h : d.read cwd path = .ok content) :
    ∃ d', d.remove cwd path = .ok d' := by
  obtain ⟨place, hplace, hfile⟩ := read_eq_ok_iff.1 h
  exact ⟨_, remove_eq_ok_iff.2 ⟨place, content, hplace, hfile, rfl⟩⟩

/-- Nothing is found at the end of a path at whose place nothing stands. -/
theorem doesExist_eq_false {path : String} (h : d.get? (absolute cwd path) = none) :
    d.doesExist cwd path = false := by
  rw [doesExist, entry?]
  cases hplace : d.locate cwd path with
  | error cause => rfl
  | ok place =>
    show (d.get? place).isSome = false
    rw [absolute_of_locate hplace, h]
    rfl

end Disk

end RepoGraph
