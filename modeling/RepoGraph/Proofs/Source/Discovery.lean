import Mathlib.Data.List.Nodup
import RepoGraph.Proofs.Path
import RepoGraph.Source.Change
import RepoGraph.Source.Discovery

/-!
# The files of a checkout and those of a listing

A walk over a checkout meets a file unless a directory on the way to it is left out, and such a
directory is left out of every path below it as well: so not entering it loses nothing, and a walk
lists the files that `Change.selection` keeps of a listing that tells every file.

Main statements: `Source.mem_walk`, `Source.mem_discover`, `Source.nodup_walk`,
`Source.isOneSelection_discover`.
-/

namespace RepoGraph

/-! ### Sorted lists -/

theorem Text.pairwise_inOrder {xs : List String} (h : xs.Nodup) :
    (Text.inOrder xs).Pairwise (· < ·) := by
  have hle : (Text.inOrder xs).Pairwise fun a b => (!decide (b < a)) = true :=
    List.pairwise_mergeSort (fun a b c hab hbc => by
      simp only [Bool.not_eq_true', decide_eq_false_iff_not, String.not_lt] at hab hbc ⊢
      exact String.le_trans hab hbc) (fun a b => by
      simp only [Bool.or_eq_true, Bool.not_eq_true', decide_eq_false_iff_not, String.not_lt]
      exact String.le_total a b) xs
  have hnodup : (Text.inOrder xs).Nodup := (Text.perm_inOrder xs).nodup_iff.2 h
  refine (hle.and hnodup).imp fun {a b} hab => ?_
  simp only [Bool.not_eq_true', decide_eq_false_iff_not, String.not_lt] at hab
  exact String.not_le.1 fun hba => hab.2 (String.le_antisymm hab.1 hba)

/-! ### What stands below a place -/

namespace Disk

variable {d : Disk} {place names : Place} {content : Content}

theorem mem_of_lookup {entries : List (Place × Entry)} {entry : Entry}
    (h : lookup entries place = some entry) : (place, entry) ∈ entries := by
  induction entries with
  | nil => cases h
  | cons e rest ih =>
    rw [lookup] at h
    split at h
    · rename_i hplace
      cases h
      exact List.mem_cons.2 (.inl (Prod.ext hplace.symm rfl))
    · exact List.mem_cons_of_mem _ (ih h)

theorem isSome_lookup_of_mem {entries : List (Place × Entry)}
    (h : place ∈ entries.map Prod.fst) : (lookup entries place).isSome := by
  induction entries with
  | nil => cases h
  | cons e rest ih =>
    rw [lookup]
    split
    · rfl
    · rename_i hplace
      exact ih ((List.mem_cons.1 h).resolve_left fun he => hplace he.symm)

/-- What stands below a name in a place stands in a directory of that name. -/
theorem mem_directoryNames_of_mem {name : String} {entry : Entry} (hne : names ≠ [])
    (h : (place ++ name :: names, entry) ∈ d.entries) : name ∈ d.directoryNames place := by
  have hplace : place ++ name :: names ∈ d.entries.map Prod.fst := List.mem_map_of_mem h
  have hsome : (d.get? (place ++ [name] ++ names)).isSome := by
    rw [List.append_assoc, List.singleton_append, get?, if_neg (d.isTree _ hplace).1]
    exact isSome_lookup_of_mem hplace
  have hdirectory := isDirectoryAt_iff.1 (isDirectoryAt_of_append hne hsome)
  exact mem_directoryNames.2 (mem_of_lookup (hdirectory.resolve_left (by simp)))

/-- What is taken from different places differs if it tells the place. -/
theorem nodup_filterMap {α β γ δ : Type} {l : List α} {f : α → Option β} {g : α → γ} {k : β → δ}
    (hl : (l.map g).Nodup)
    (h : ∀ a a' b b', f a = some b → f a' = some b' → k b = k b' → g a = g a') :
    ((l.filterMap f).map k).Nodup := by
  rw [List.Nodup, List.pairwise_map] at hl ⊢
  rw [List.pairwise_filterMap]
  exact hl.imp fun {a a'} hne b hb b' hb' hk => hne (h a a' b b' hb hb' hk)

theorem nodup_inside (d : Disk) (place : Place) : ((d.inside place).map Prod.fst).Nodup := by
  have hbelow : ((d.below place).map Prod.fst).Nodup := by
    refine nodup_filterMap d.nodup_places ?_
    rintro ⟨l, e⟩ ⟨l', e'⟩ b b' hb hb' hk
    dsimp only at hb hb'
    split at hb <;> cases hb
    split at hb' <;> cases hb'
    rename_i hprefix hprefix'
    rw [Bool.and_eq_true, List.isPrefixOf_iff_prefix] at hprefix hprefix'
    obtain ⟨⟨rest, rfl⟩, -⟩ := hprefix
    obtain ⟨⟨rest', rfl⟩, -⟩ := hprefix'
    simpa using hk
  refine nodup_filterMap hbelow ?_
  rintro ⟨l, e⟩ ⟨l', e'⟩ b b' hb hb' hk
  dsimp only at hb hb'
  split at hb <;> cases hb
  split at hb' <;> cases hb'
  exact congrArg (fun name => [name]) hk

theorem nodup_fileNames (d : Disk) (place : Place) : (d.fileNames place).Nodup := by
  rw [← List.map_id (d.fileNames place)]
  refine nodup_filterMap (d.nodup_inside place) ?_
  rintro ⟨name, e⟩ ⟨name', e'⟩ b b' hb hb' hk
  dsimp only at hb hb'
  split at hb <;> cases hb
  split at hb' <;> cases hb'
  exact hk

theorem nodup_directoryNames (d : Disk) (place : Place) : (d.directoryNames place).Nodup := by
  rw [← List.map_id (d.directoryNames place)]
  refine nodup_filterMap (d.nodup_inside place) ?_
  rintro ⟨name, e⟩ ⟨name', e'⟩ b b' hb hb' hk
  dsimp only at hb hb'
  split at hb <;> cases hb
  split at hb' <;> cases hb'
  exact hk

/-- Whether everything on a disk has a name that a directory can hold. -/
def HasNames (d : Disk) : Prop :=
  ∀ place ∈ d.entries.map Prod.fst, ∀ name ∈ place, Path.IsName name

end Disk

namespace Source

variable {disk : Disk} {cwd root : Place} {repo path : String} {names : List String}

/-! ### What is left out -/

/-- Whether a path leads below a directory that is left out. -/
def IsBelowSkipped (path : String) : Prop :=
  ∃ before directory after, directory ∈ skippedDirectories ∧ after ≠ [] ∧
    path = "/".intercalate (before ++ directory :: after)

/-- Whether a file is a test by its name. -/
def IsTestName (name : String) : Prop :=
  (∃ before after, name = before ++ ".test." ++ after) ∨
    (∃ before after, name = before ++ ".spec." ++ after) ∨
    (∃ middle, name = "test_" ++ middle ++ ".py") ∨
    ∃ before, name = before ++ "_test.py"

theorem slash_not_mem_of_isSkipped {directory : String} (h : isSkipped directory = true) :
    '/' ∉ directory.toList := by
  have hall : ∀ name ∈ skippedDirectories, '/' ∉ name.toList := by decide
  exact hall directory (List.contains_iff_mem.1 h)

theorem isBelowSkipped_iff :
    IsBelowSkipped path ↔ (Path.directories path).any isSkipped = true := by
  rw [List.any_eq_true]
  constructor
  · rintro ⟨before, directory, after, hmem, hafter, hpath⟩
    have hskipped : isSkipped directory = true := List.contains_iff_mem.2 hmem
    exact ⟨directory, (Path.mem_directories_iff (slash_not_mem_of_isSkipped hskipped)).2
      ⟨before, after, hafter, hpath⟩, hskipped⟩
  · rintro ⟨directory, hmem, hskipped⟩
    obtain ⟨before, after, hafter, hpath⟩ :=
      (Path.mem_directories_iff (slash_not_mem_of_isSkipped hskipped)).1 hmem
    exact ⟨before, directory, after, List.contains_iff_mem.1 hskipped, hafter, hpath⟩

/-- A word between two stars stands anywhere in a name. -/
theorem matchesGlob_within (word : String) {pattern name : String} (hword : '*' ∉ word.toList)
    (hpattern : pattern.toList = '*' :: (word.toList ++ ['*'])) :
    Path.matchesGlob pattern name = true ↔ ∃ before after, name = before ++ word ++ after := by
  rw [Path.matchesGlob, hpattern, Path.matchesGlobChars_star]
  simp only [Path.matchesGlobChars_append hword, Path.matchesGlobChars_star,
    Path.matchesGlobChars_nil]
  constructor
  · rintro ⟨before, _, hname, after, rfl, -⟩
    refine ⟨String.ofList before, String.ofList after, ?_⟩
    rw [← String.toList_inj, hname]
    simp
  · rintro ⟨before, after, rfl⟩
    exact ⟨before.toList, _, by simp, after.toList, rfl, after.toList, [], by simp, rfl⟩

/-- A word before and a word after a star begin and end a name. -/
theorem matchesGlob_around (first last : String) {pattern name : String}
    (hfirst : '*' ∉ first.toList)
    (hlast : '*' ∉ last.toList) (hpattern : pattern.toList = first.toList ++ '*' :: last.toList) :
    Path.matchesGlob pattern name = true ↔ ∃ middle, name = first ++ middle ++ last := by
  rw [Path.matchesGlob, hpattern, Path.matchesGlobChars_append hfirst]
  rw [← List.append_nil last.toList]
  simp only [Path.matchesGlobChars_star, Path.matchesGlobChars_append hlast,
    Path.matchesGlobChars_nil]
  constructor
  · rintro ⟨_, hname, middle, _, rfl, _, rfl, rfl⟩
    refine ⟨String.ofList middle, ?_⟩
    rw [← String.toList_inj, hname]
    simp
  · rintro ⟨middle, rfl⟩
    exact ⟨_, by rw [String.append_assoc, String.toList_append], middle.toList, _,
      String.toList_append, [], by simp, rfl⟩

theorem isTestName_iff {name : String} :
    IsTestName name ↔ (testPatterns.any fun pattern => Path.matchesGlob pattern name) = true := by
  have hlast : Path.matchesGlob "*_test.py" name = true ↔
      ∃ before, name = before ++ "_test.py" := by
    simpa using matchesGlob_around "" "_test.py" (by decide) (by decide) (by decide)
  simp only [testPatterns, List.any_cons, List.any_nil, Bool.or_false, Bool.or_eq_true]
  rw [matchesGlob_within ".test." (by decide) (by decide),
    matchesGlob_within ".spec." (by decide) (by decide),
    matchesGlob_around "test_" ".py" (by decide) (by decide) (by decide), hlast]
  rfl

theorem isIncluded_iff : isIncluded path = true ↔
    (FileKind.ofPath? path).isSome ∧ ¬ IsBelowSkipped path ∧ ¬ IsTestName (Path.fileName path) := by
  rw [isIncluded, isSupported, isExcluded, Bool.and_eq_true, Bool.not_eq_true',
    Bool.or_eq_false_iff,
    isBelowSkipped_iff, isTestName_iff, Bool.not_eq_true, Bool.not_eq_true]

/-! ### What a walk meets -/

theorem walk_eq (disk : Disk) (root : Place) (names : List String) :
    walk disk root names =
      ((disk.fileNames (root ++ names)).map fun name => "/".intercalate (names ++ [name])).filter
          isIncluded ++
        (Text.inOrder
            ((disk.directoryNames (root ++ names)).filter fun name => !isSkipped name)).flatMap
          fun name => walk disk root (names ++ [name]) := by
  rw [walk]
  simp

theorem mem_directories {name : String} :
    name ∈ Text.inOrder
        ((disk.directoryNames (root ++ names)).filter fun name => !isSkipped name) ↔
      name ∈ disk.directoryNames (root ++ names) ∧ isSkipped name = false := by
  rw [(Text.perm_inOrder _).mem_iff, List.mem_filter, Bool.not_eq_true']

/-- A walk meets the files that no directory which is left out stands before. -/
theorem mem_walk : path ∈ walk disk root names ↔
    ∃ rest content, rest ≠ [] ∧ (root ++ names ++ rest, Entry.file content) ∈ disk.entries ∧
      (∀ name ∈ rest.dropLast, isSkipped name = false) ∧ path = "/".intercalate (names ++ rest) ∧
      isIncluded path = true := by
  induction names using walk.induct disk root with
  | case1 names ih =>
    rw [walk_eq, List.mem_append, List.mem_filter, List.mem_map, List.mem_flatMap]
    constructor
    · -- a file stands in the directory itself, or in one of those below it that are gone into
      rintro (⟨⟨name, hname, rfl⟩, hincluded⟩ | ⟨name, hname, hpath⟩)
      · obtain ⟨content, hentry⟩ := Disk.mem_fileNames.1 hname
        have hnone : ∀ other ∈ [name].dropLast, isSkipped other = false := by simp
        exact ⟨[name], content, List.cons_ne_nil _ _, hentry, hnone, rfl, hincluded⟩
      · obtain ⟨rest, content, hne, hentry, hskipped, hpath, hincluded⟩ :=
          (ih name hname).1 hpath
        refine ⟨name :: rest, content, List.cons_ne_nil _ _, ?_, ?_, ?_, hincluded⟩
        · simpa using hentry
        · rw [List.dropLast_cons_of_ne_nil hne]
          exact List.forall_mem_cons.2 ⟨(mem_directories.1 hname).2, hskipped⟩
        · simpa using hpath
    · rintro ⟨rest, content, hne, hentry, hskipped, hpath, hincluded⟩
      obtain ⟨name, rest, rfl⟩ := List.exists_cons_of_ne_nil hne
      by_cases hrest : rest = []
      · subst hrest
        exact .inl ⟨⟨name, Disk.mem_fileNames.2 ⟨content, hentry⟩, hpath.symm⟩, hincluded⟩
      · rw [List.dropLast_cons_of_ne_nil hrest] at hskipped
        have hname := mem_directories.2
          ⟨Disk.mem_directoryNames_of_mem hrest hentry, hskipped name List.mem_cons_self⟩
        refine .inr ⟨name, hname, (ih name hname).2 ⟨rest, content, hrest, ?_,
          fun other hother => hskipped other (List.mem_cons_of_mem _ hother), ?_, hincluded⟩⟩
        · simpa using hentry
        · simpa using hpath

theorem mem_filesBelow_iff (hroot : disk.locate cwd repo = .ok root)
    (hdirectory : disk.isDirectoryAt root = true) : path ∈ disk.filesBelow cwd repo ↔
      ∃ rest content, rest ≠ [] ∧ (root ++ rest, Entry.file content) ∈ disk.entries ∧
        path = "/".intercalate rest := by
  simp only [Disk.filesBelow, hroot, hdirectory, if_true, List.mem_filterMap, Prod.exists,
    Disk.mem_below]
  constructor
  · rintro ⟨rest, entry, ⟨hne, hentry⟩, h⟩
    split at h <;> cases h
    exact ⟨rest, _, hne, hentry, rfl⟩
  · rintro ⟨rest, content, hne, hentry, rfl⟩
    exact ⟨rest, .file content, ⟨hne, hentry⟩, rfl⟩

/-- On the way to a file that takes part, no directory is left out. -/
theorem isSkipped_of_isIncluded (hincluded : isIncluded ("/".intercalate names) = true) :
    ∀ name ∈ names.dropLast, isSkipped name = false := by
  intro name hname
  rw [← Bool.not_eq_true]
  intro hskipped
  obtain ⟨before, after, hsplit⟩ := List.append_of_mem hname
  have hne : names ≠ [] := fun hnil => by rw [hnil] at hname; cases hname
  refine (isIncluded_iff.1 hincluded).2.1 ⟨before, name, after ++ [names.getLast hne],
    List.contains_iff_mem.1 hskipped, by simp, ?_⟩
  rw [← List.cons_append, ← List.append_assoc, ← hsplit, List.dropLast_append_getLast]

/-- The files of a checkout that take part. -/
theorem mem_discover :
    path ∈ discover disk cwd repo ↔ path ∈ disk.filesBelow cwd repo ∧ isIncluded path = true := by
  rw [discover]
  cases hroot : disk.locate cwd repo with
  | error cause => simp [Disk.filesBelow, hroot]
  | ok root =>
    by_cases hdirectory : disk.isDirectoryAt root = true
    · simp only [hdirectory, if_true]
      rw [(Text.perm_inOrder _).mem_iff, mem_walk, mem_filesBelow_iff hroot hdirectory]
      simp only [List.append_nil, List.nil_append]
      constructor
      · rintro ⟨rest, content, hne, hentry, -, hpath, hincluded⟩
        exact ⟨⟨rest, content, hne, hentry, hpath⟩, hincluded⟩
      · rintro ⟨⟨rest, content, hne, hentry, rfl⟩, hincluded⟩
        exact ⟨rest, content, hne, hentry, isSkipped_of_isIncluded hincluded, rfl, hincluded⟩
    · simp [Disk.filesBelow, hroot, hdirectory]

/-! ### No file is met twice -/

theorem isName_of_mem (hnames : disk.HasNames) {entry : Entry}
    (h : (root ++ names, entry) ∈ disk.entries) : ∀ name ∈ names, Path.IsName name :=
  fun name hname => hnames _ (List.mem_map_of_mem h) name (List.mem_append_right _ hname)

theorem isName_append (hbefore : ∀ name ∈ names, Path.IsName name) {rest : List String}
    (hrest : ∀ name ∈ rest, Path.IsName name) : ∀ name ∈ names ++ rest, Path.IsName name :=
  fun name hname => (List.mem_append.1 hname).elim (hbefore name) (hrest name)

/-- The parts of a path that a walk lists go on where the walk began. -/
theorem parts_of_mem_walk (hnames : disk.HasNames) (hbefore : ∀ name ∈ names, Path.IsName name)
    (h : path ∈ walk disk root names) :
    ∃ rest, rest ≠ [] ∧ Path.parts path = names ++ rest := by
  obtain ⟨rest, content, hne, hentry, -, rfl, -⟩ := mem_walk.1 h
  exact ⟨rest, hne, Path.parts_intercalate_of_isName (List.append_ne_nil_of_right_ne_nil _ hne)
    (isName_append hbefore (isName_of_mem hnames hentry))⟩

theorem parts_of_mem_fileNames (hnames : disk.HasNames)
    (hbefore : ∀ name ∈ names, Path.IsName name) {name : String}
    (h : name ∈ disk.fileNames (root ++ names)) :
    Path.parts ("/".intercalate (names ++ [name])) = names ++ [name] := by
  obtain ⟨content, hentry⟩ := Disk.mem_fileNames.1 h
  exact Path.parts_intercalate_of_isName
    (List.append_ne_nil_of_right_ne_nil _ (List.cons_ne_nil _ _))
    (isName_append hbefore (isName_of_mem hnames hentry))

/-- A walk lists no file twice: the parts of a path tell where it was met. -/
theorem nodup_walk (hnames : disk.HasNames) (hbefore : ∀ name ∈ names, Path.IsName name) :
    (walk disk root names).Nodup := by
  induction names using walk.induct disk root with
  | case1 names ih =>
    have hdirectory : ∀ name ∈ Text.inOrder
        ((disk.directoryNames (root ++ names)).filter fun name => !isSkipped name),
        ∀ other ∈ names ++ [name], Path.IsName other := fun name hname =>
      isName_append hbefore (isName_of_mem hnames
        (Disk.mem_directoryNames.1 (mem_directories.1 hname).1))
    rw [walk_eq, List.nodup_append]
    refine ⟨(List.Nodup.map_on ?_ (disk.nodup_fileNames _)).filter _,
      List.nodup_flatMap.2 ⟨fun name hname => ih name hname (hdirectory name hname), ?_⟩, ?_⟩
    · -- two files of one directory differ in the last part of their paths
      intro name hname other hother heq
      have hparts := congrArg Path.parts heq
      rw [parts_of_mem_fileNames hnames hbefore hname,
        parts_of_mem_fileNames hnames hbefore hother] at hparts
      exact (List.cons.inj (List.append_cancel_left hparts)).1
    · -- two directories differ in the part behind the names so far
      have hnodup : (Text.inOrder
          ((disk.directoryNames (root ++ names)).filter fun name => !isSkipped name)).Nodup :=
        (Text.perm_inOrder _).nodup_iff.2 ((disk.nodup_directoryNames _).filter _)
      refine hnodup.imp_of_mem fun {name other} hname hother hne path hpath hpath' => hne ?_
      obtain ⟨rest, -, hparts⟩ := parts_of_mem_walk hnames (hdirectory name hname) hpath
      obtain ⟨rest', -, hparts'⟩ := parts_of_mem_walk hnames (hdirectory other hother) hpath'
      rw [hparts, List.append_assoc, List.append_assoc] at hparts'
      exact (List.cons.inj (List.append_cancel_left hparts')).1
    · -- a file of the directory has no further part, one below it has
      intro path hfile path' hbelow heq
      subst heq
      obtain ⟨name, hname, rfl⟩ := List.mem_map.1 (List.mem_filter.1 hfile).1
      obtain ⟨directory, hmem, hpath⟩ := List.mem_flatMap.1 hbelow
      obtain ⟨rest, hne, hparts⟩ := parts_of_mem_walk hnames (hdirectory directory hmem) hpath
      rw [parts_of_mem_fileNames hnames hbefore hname, List.append_assoc] at hparts
      exact hne (List.cons.inj (List.append_cancel_left hparts)).2.symm

theorem pairwise_discover (hnames : disk.HasNames) :
    (discover disk cwd repo).Pairwise (· < ·) := by
  rw [discover]
  split
  · exact .nil
  · split
    · exact Text.pairwise_inOrder (nodup_walk hnames fun _ h => nomatch h)
    · exact .nil

theorem nodup_discover (hnames : disk.HasNames) : (discover disk cwd repo).Nodup := by
  refine (pairwise_discover hnames).imp ?_
  rintro path other hlt rfl
  exact String.lt_irrefl path hlt

/-! ### One selection -/

/-- Whether the files a walk found and the files kept of a listing are one selection from a
checkout. -/
structure IsOneSelection (disk : Disk) (cwd : Place) (repo : String) (found kept : List String) :
    Prop where
  /-- The files that were found are in order, each once. -/
  increasing : found.Pairwise (· < ·)
  /-- What was found was kept, and nothing else. -/
  mem_iff : ∀ path, path ∈ found ↔ path ∈ kept
  /-- Each of the files is read as something. -/
  isRead : ∀ path ∈ found, ∃ kind, FileKind.ofPath? path = some kind
  /-- None of the files is below a directory that is left out, or a test. -/
  not_mem : ∀ path, IsBelowSkipped path ∨ IsTestName (Path.fileName path) →
    path ∉ found ∧ path ∉ kept
  /-- No other file of the checkout is missing. -/
  complete : ∀ path ∈ disk.filesBelow cwd repo, (FileKind.ofPath? path).isSome →
    ¬ IsBelowSkipped path → ¬ IsTestName (Path.fileName path) → path ∈ found

theorem mem_selection {listed : List String} :
    path ∈ (Change.selection (listed.map fun file => ⟨file, .added⟩)).1 ↔
      path ∈ listed ∧ isIncluded path = true := by
  simp [Change.selection, Change.isToRead, and_comm]

/-- A walk over a checkout finds what is kept of a listing of all its files. -/
theorem isOneSelection_discover (hnames : disk.HasNames) {listed : List String}
    (hlisted : ∀ path, path ∈ listed ↔ path ∈ disk.filesBelow cwd repo) :
    IsOneSelection disk cwd repo (discover disk cwd repo)
      (Change.selection (listed.map fun file => ⟨file, .added⟩)).1 := by
  have hsame (path : String) : path ∈ discover disk cwd repo ↔
      path ∈ (Change.selection (listed.map fun file => ⟨file, .added⟩)).1 := by
    rw [mem_discover, mem_selection, hlisted]
  have hnot (path : String) (hout : IsBelowSkipped path ∨ IsTestName (Path.fileName path)) :
      path ∉ discover disk cwd repo := fun hmem =>
    have hincluded := isIncluded_iff.1 (mem_discover.1 hmem).2
    hout.elim hincluded.2.1 hincluded.2.2
  refine ⟨pairwise_discover hnames, hsame, ?_,
    fun path hout => ⟨hnot path hout, (hsame path).not.1 (hnot path hout)⟩, ?_⟩
  · intro path hmem
    exact Option.isSome_iff_exists.1 (isIncluded_iff.1 (mem_discover.1 hmem).2).1
  · intro path hbelow hread hskipped htest
    exact mem_discover.2 ⟨hbelow, isIncluded_iff.2 ⟨hread, hskipped, htest⟩⟩

/-- A checkout with a test beside a source, and with a dependency. -/
def mixedDisk : Disk :=
  (((((((Disk.empty.put ["repo"] .directory).put ["repo", "src"] .directory).put
    ["repo", "vendor"] .directory).put ["repo", "src", "b.py"] (.file (.text ""))).put
    ["repo", "src", "test_b.py"] (.file (.text ""))).put
    ["repo", "vendor", "c.js"] (.file (.text ""))).put ["repo", "a.js"] (.file (.text "")))

theorem isOneSelection_mixedDisk :
    mixedDisk.filesBelow [] "repo" = ["src/b.py", "src/test_b.py", "vendor/c.js", "a.js"] ∧
      IsOneSelection mixedDisk [] "repo" (discover mixedDisk [] "repo")
        (Change.selection (["src/b.py", "src/test_b.py", "vendor/c.js", "a.js"].map
          fun file => ⟨file, .added⟩)).1 ∧
      (Change.selection (["src/b.py", "src/test_b.py", "vendor/c.js", "a.js"].map
        fun file => ⟨file, .added⟩)).1 = ["src/b.py", "a.js"] := by
  have hfiles : mixedDisk.filesBelow [] "repo" =
      ["src/b.py", "src/test_b.py", "vendor/c.js", "a.js"] := by decide +kernel
  refine ⟨hfiles, isOneSelection_discover ?_ fun path => by rw [hfiles], by decide⟩
  unfold Disk.HasNames Path.IsName
  decide

end Source

end RepoGraph
