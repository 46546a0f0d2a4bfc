import RepoGraph.Proofs.Disk
import RepoGraph.Source.Change

/-!
# Diffs between revisions

A revision is a tree of files, `Source.Tree`.  `Source.IsDiff` says what a diff tells of two trees:
every path whose file is new or another one is a target, every path whose file is gone is removed, a
target has a file, and a removed path has none unless it is a target, too.  The text of a diff is
read as the changes it was written from, and selecting from them yields the targets that take part
in a build and the removed paths.

A diff is written as entries, one after another: a status word and a path, or, if the word begins
with `R` or `C`, the path that the file came from and then its own.  Every field ends with a zero
character, and nothing else says where an entry ends: a path may look like a status word.  Read from
the front, the fields of each entry are used up exactly, so the diff is read as one change for each
entry.

Main statements: `Source.ofDiff_diffText`, `Source.selection_changes`, `Source.isDiff_listing`,
`Source.DiffEntry.ofFields_append`, `Source.ofDiff_entriesText`.
-/

namespace RepoGraph

namespace Change

/-- Fields as a text in which each ends with a zero character. -/
def terminated (fields : List String) : String :=
  String.ofList (fields.flatMap fun field => field.toList ++ ['\x00'])

/-- Whether a text can be a field: it has characters, none of them zero. -/
def IsField (field : String) : Prop := field ≠ "" ∧ '\x00' ∉ field.toList

/-- Fields are read as they were written. -/
theorem fieldsOf_terminated {fields : List String} (h : ∀ field ∈ fields, IsField field) :
    fieldsOf (terminated fields) = fields := by
  rw [fieldsOf, Text.splitOnChar, terminated, String.toList_ofList]
  induction fields with
  | nil => rfl
  | cons field rest ih =>
    have hfield := h field List.mem_cons_self
    have hpieces : Text.splitAt (fun c => c == '\x00') field.toList = [field.toList] :=
      Text.splitAt_of_forall_not fun c hc => beq_false_of_ne fun he => hfield.2 (he ▸ hc)
    rw [List.flatMap_cons, List.append_assoc, List.singleton_append,
      @Text.splitAt_append_cons (fun c => c == '\x00') '\x00' rfl, hpieces, List.map_append,
      List.filter_append, ih fun other hother => h other (List.mem_cons_of_mem _ hother)]
    simp [hfield.1]

/-! ### Fields of one change -/

/-- A word for one path takes the field behind it. -/
theorem ofFields_of_single {word : String} (h : isPairWord word = false) (path : String)
    (rest : List String) :
    ofFields (word :: path :: rest) = ⟨path, statusOf word⟩ :: ofFields rest := by
  cases rest with
  | nil => simp [ofFields]
  | cons next more => rw [ofFields, if_neg (Bool.eq_false_iff.1 h)]

/-- A word for two paths takes both fields behind it. -/
theorem ofFields_of_pair {word : String} (h : isPairWord word = true) (source target : String)
    (rest : List String) :
    ofFields (word :: source :: target :: rest) = ofPair word source target :: ofFields rest := by
  rw [ofFields, if_pos h]

/-- What is selected of changes, given what each of them is read for and what it removes. -/
theorem selection_map {α : Type} {change : α → Change} {target? removed? : α → Option String}
    {xs : List α} (hread : ∀ x ∈ xs, isToRead (change x) = (target? x).any Source.isIncluded)
    (htarget : ∀ x ∈ xs, ∀ path, target? x = some path → (change x).file = path)
    (hremoved : ∀ x ∈ xs, removedPaths (change x) = (removed? x).toList) :
    selection (xs.map change) =
      ((xs.filterMap target?).filter Source.isIncluded, xs.filterMap removed?) := by
  rw [selection, List.flatMap_map, Prod.mk.injEq]
  constructor
  · -- the two components are read off the changes one by one
    clear hremoved
    induction xs with
    | nil => rfl
    | cons x rest ih =>
      have hrest := ih (fun y hy => hread y (List.mem_cons_of_mem _ hy))
        fun y hy => htarget y (List.mem_cons_of_mem _ hy)
      rw [List.map_cons, List.filter_cons, hread x List.mem_cons_self, List.filterMap_cons]
      cases hx : target? x with
      | none => exact hrest
      | some path =>
        rw [List.filter_cons, ← hrest, Option.any_some]
        split
        · rw [List.map_cons, htarget x List.mem_cons_self path hx]
        · rfl
  · clear hread htarget
    induction xs with
    | nil => rfl
    | cons x rest ih =>
      rw [List.flatMap_cons, hremoved x List.mem_cons_self, List.filterMap_cons,
        ih fun y hy => hremoved y (List.mem_cons_of_mem _ hy)]
      cases removed? x <;> rfl

end Change

namespace Source

open Change (IsField terminated)

/-! ### Trees -/

/-- The files of a revision, by their paths. -/
abbrev Tree := String → Option Content

/-- The files of a checkout. -/
def checkout (disk : Disk) (cwd : Place) (repo : String) : Tree := fun path =>
  if path ∈ disk.filesBelow cwd repo then (disk.read cwd (Path.join repo path)).toOption else none

/-! ### Differences -/

/-- A way in which two revisions differ.  A rename or a copy comes with a score. -/
inductive Difference where
  | added (path : String)
  | modified (path : String)
  | retyped (path : String)
  | deleted (path : String)
  | renamed (score source target : String)
  | copied (score source target : String)
deriving DecidableEq, Repr

namespace Difference

/-- The fields of a difference in a diff. -/
def fields : Difference → List String
  | added path => ["A", path]
  | modified path => ["M", path]
  | retyped path => ["T", path]
  | deleted path => ["D", path]
  | renamed score source target => ["R" ++ score, source, target]
  | copied score source target => ["C" ++ score, source, target]

/-- What a difference is read as. -/
def change : Difference → Change
  | added path => ⟨path, .added⟩
  | modified path => ⟨path, .modified⟩
  | retyped path => ⟨path, .modified⟩
  | deleted path => ⟨path, .deleted⟩
  | renamed _ source target => ⟨target, .renamed source⟩
  | copied _ _ target => ⟨target, .added⟩

/-- The path whose file is another one afterwards. -/
def target? : Difference → Option String
  | added path | modified path | retyped path => some path
  | deleted _ => none
  | renamed _ _ target | copied _ _ target => some target

/-- The path whose file is gone afterwards. -/
def removed? : Difference → Option String
  | deleted path => some path
  | renamed _ source _ => some source
  | _ => none

/-- The fields of a difference are read first. -/
theorem ofFields_append (d : Difference) (rest : List String) :
    Change.ofFields (d.fields ++ rest) = d.change :: Change.ofFields rest := by
  have hword (c : Char) (score : String) (hc : c = 'R' ∨ c = 'C') :
      Change.isPairWord (String.ofList [c] ++ score) = true := by
    rw [Change.isPairWord, String.toList_append, String.toList_ofList, List.singleton_append]
    rcases hc with rfl | rfl <;> rfl
  cases d with
  | added path => exact Change.ofFields_of_single (by decide) path rest
  | modified path => exact Change.ofFields_of_single (by decide) path rest
  | retyped path => exact Change.ofFields_of_single (by decide) path rest
  | deleted path => exact Change.ofFields_of_single (by decide) path rest
  | renamed score source target =>
    refine (Change.ofFields_of_pair (hword 'R' score (.inl rfl)) source target rest).trans ?_
    simp [Change.ofPair, change]
  | copied score source target =>
    refine (Change.ofFields_of_pair (hword 'C' score (.inr rfl)) source target rest).trans ?_
    simp [Change.ofPair, change]

end Difference

/-! ### Diffs -/

/-- The text of a diff. -/
def diffText (ds : List Difference) : String := terminated (ds.flatMap Difference.fields)

/-- The paths whose files are other ones afterwards. -/
def targets (ds : List Difference) : List String := ds.filterMap Difference.target?

/-- The paths whose files are gone afterwards. -/
def removed (ds : List Difference) : List String := ds.filterMap Difference.removed?

/-- What a diff tells of an old tree and a new one. -/
structure IsDiff (old new : Tree) (ds : List Difference) : Prop where
  isField : ∀ d ∈ ds, ∀ field ∈ d.fields, IsField field
  /-- A target has a file. -/
  exists_of_target : ∀ path ∈ targets ds, new path ≠ none
  /-- A removed path has no file unless it is a target, too. -/
  of_removed : ∀ path ∈ removed ds, new path = none ∨ path ∈ targets ds
  /-- A file that is new or another one is that of a target. -/
  mem_targets : ∀ path, new path ≠ none → new path ≠ old path → path ∈ targets ds
  /-- A path whose file is gone is removed. -/
  mem_removed : ∀ path, old path ≠ none → new path = none → path ∈ removed ds

/-- The text of a diff is read as its changes. -/
theorem ofDiff_diffText {ds : List Difference} (h : ∀ d ∈ ds, ∀ field ∈ d.fields, IsField field) :
    Change.ofDiff (diffText ds) = ds.map Difference.change := by
  rw [Change.ofDiff, diffText, Change.fieldsOf_terminated fun field hfield => by
    obtain ⟨d, hd, hmem⟩ := List.mem_flatMap.1 hfield
    exact h d hd field hmem]
  clear h
  induction ds with
  | nil => simp [Change.ofFields]
  | cons d rest ih => rw [List.flatMap_cons, Difference.ofFields_append, ih, List.map_cons]

/-- What is selected of a diff: the targets that take part in a build, and the removed paths. -/
theorem selection_changes {ds : List Difference}
    (h : ∀ d ∈ ds, ∀ field ∈ d.fields, IsField field) :
    Change.selection (ds.map Difference.change) = ((targets ds).filter isIncluded, removed ds) := by
  refine Change.selection_map (fun d _ => ?_) (fun d _ => ?_) fun d hd => ?_
  · cases d <;> simp [Change.isToRead, Difference.change, Difference.target?]
  · cases d <;> simp [Difference.change, Difference.target?]
  · cases d with
    | renamed score source target =>
      have hsource : source ≠ "" := (h _ hd source (by simp [Difference.fields])).1
      simp [Change.removedPaths, Difference.change, Difference.removed?, hsource]
    | _ => rfl

theorem targets_map_added (paths : List String) :
    targets (paths.map Difference.added) = paths := by
  rw [targets, List.filterMap_map]
  exact List.filterMap_some

theorem removed_map_added (paths : List String) : removed (paths.map Difference.added) = [] := by
  rw [removed, List.filterMap_map]
  exact List.filterMap_none paths

/-- A list of all files is a diff from the tree without files. -/
theorem isDiff_listing {new : Tree} {paths : List String} (hfield : ∀ path ∈ paths, IsField path)
    (h : ∀ path, path ∈ paths ↔ new path ≠ none) :
    IsDiff (fun _ => none) new (paths.map .added) where
  isField d hd := by
    obtain ⟨path, hpath, rfl⟩ := List.mem_map.1 hd
    simp only [Difference.fields, List.forall_mem_cons]
    exact ⟨⟨by decide, by decide⟩, hfield path hpath, List.forall_mem_nil _⟩
  exists_of_target path := by
    rw [targets_map_added]
    exact (h path).1
  of_removed path := by simp [removed_map_added]
  mem_targets path hnew _ := by
    rw [targets_map_added]
    exact (h path).2 hnew
  mem_removed _ hold := absurd rfl hold

/-- Nothing differs between a tree and itself. -/
theorem isDiff_nil (t : Tree) : IsDiff t t [] where
  isField _ hd := absurd hd List.not_mem_nil
  exists_of_target _ hpath := absurd hpath List.not_mem_nil
  of_removed _ hpath := absurd hpath List.not_mem_nil
  mem_targets _ _ hne := absurd rfl hne
  mem_removed _ hold hnone := absurd hnone hold

/-- A file that was modified is what two trees differ in. -/
theorem isDiff_modified {old new : Tree} {path : String} (hfield : Change.IsField path)
    (hnew : new path ≠ none) (hsame : ∀ other, other ≠ path → new other = old other) :
    IsDiff old new [.modified path] where
  isField d hd := by
    obtain rfl := List.mem_singleton.1 hd
    simp only [Difference.fields, List.forall_mem_cons]
    exact ⟨⟨by decide, by decide⟩, hfield, List.forall_mem_nil _⟩
  exists_of_target other hother := by
    obtain rfl := List.mem_singleton.1 hother
    exact hnew
  of_removed other hother := absurd hother List.not_mem_nil
  mem_targets other _ hne := by
    by_contra hnot
    exact hne (hsame other fun he => hnot (List.mem_singleton.2 he))
  mem_removed other hold hnone := by
    by_cases he : other = path
    · rw [he] at hnone
      exact absurd hnone hnew
    · rw [hsame other he] at hnone
      exact absurd hnone hold

/-! ### Entries -/

/-- An entry of a diff.  Its status word begins with a letter, behind which a score may stand. -/
structure DiffEntry where
  letter : Char
  score : String
  /-- The path that the file came from. -/
  source : Option String
  path : String
  letter_ne : letter ≠ '\x00'
  not_mem_score : '\x00' ∉ score.toList
  /-- Renames and copies have a source, and nothing else has. -/
  isSome_source : source.isSome = (letter == 'R' || letter == 'C')
  isField_source : ∀ path ∈ source, IsField path
  isField_path : IsField path

namespace DiffEntry

variable (e : DiffEntry)

/-- The status word of an entry. -/
def word : String := String.ofList (e.letter :: e.score.toList)

/-- The fields of an entry. -/
def fields : List String := e.word :: (e.source.toList ++ [e.path])

/-- What an entry says that happened to its file. -/
def status : ChangeStatus :=
  match e.letter, e.source with
  | 'R', some old => .renamed old
  | 'C', _ => .added
  | 'A', _ => .added
  | 'M', _ => .modified
  | 'D', _ => .deleted
  | _, _ => .modified

/-- What an entry is read as. -/
def change : Change := ⟨e.path, e.status⟩

/-- The path whose file an entry says is there. -/
def target? : Option String := if e.letter = 'D' then none else some e.path

/-- The path whose file an entry says is gone: a deleted one, or the one that a renamed file had. -/
def removed? : Option String :=
  if e.letter = 'D' then some e.path
  else if e.letter = 'R' then e.source
  else none

variable {e}

theorem toList_word : e.word.toList = e.letter :: e.score.toList := String.toList_ofList

theorem isField_word : IsField e.word := by
  refine ⟨fun hempty => ?_, ?_⟩
  · have hlist := toList_word (e := e)
    rw [hempty] at hlist
    cases hlist
  · rw [toList_word, List.mem_cons, not_or]
    exact ⟨e.letter_ne.symm, e.not_mem_score⟩

theorem isField_of_mem_fields {field : String} (h : field ∈ e.fields) : IsField field := by
  rw [fields, List.mem_cons, List.mem_append, Option.mem_toList, List.mem_singleton] at h
  obtain rfl | hsource | rfl := h
  · exact isField_word
  · exact e.isField_source field hsource
  · exact e.isField_path

/-- Without a source the word announces no rename and no copy. -/
theorem letter_ne_of_source (h : e.source = none) : e.letter ≠ 'R' ∧ e.letter ≠ 'C' := by
  have hsome := e.isSome_source
  rw [h, Option.isSome_none, eq_comm, Bool.or_eq_false_iff] at hsome
  exact ⟨beq_eq_false_iff_ne.1 hsome.1, beq_eq_false_iff_ne.1 hsome.2⟩

/-- With a source it announces one of them. -/
theorem letter_eq_of_source {old : String} (h : e.source = some old) :
    e.letter = 'R' ∨ e.letter = 'C' := by
  have hsome := e.isSome_source
  rwa [h, Option.isSome_some, eq_comm, Bool.or_eq_true, beq_iff_eq, beq_iff_eq] at hsome

/-- A word announces two paths exactly if its entry has a source. -/
theorem isPairWord_word : Change.isPairWord e.word = e.source.isSome := by
  rw [Change.isPairWord, toList_word, e.isSome_source]

/-- A word for one path is read by its letter. -/
theorem statusOf_word (h : e.source = none) : Change.statusOf e.word = e.status := by
  obtain ⟨hrename, hcopy⟩ := letter_ne_of_source h
  rw [Change.statusOf, toList_word, status, h]
  split <;> split <;> simp_all

/-- A word for two paths tells renames from copies. -/
theorem ofPair_word {old : String} (h : e.source = some old) :
    Change.ofPair e.word old e.path = e.change := by
  rw [Change.ofPair, toList_word, List.head?_cons, change, status, h]
  obtain hletter | hletter := letter_eq_of_source h <;> rw [hletter] <;> rfl

/-- The fields of an entry are read first, whatever stands behind them. -/
theorem ofFields_append (e : DiffEntry) (rest : List String) :
    Change.ofFields (e.fields ++ rest) = e.change :: Change.ofFields rest := by
  -- the word tells how many paths follow, so what they look like does not matter
  have hpair := isPairWord_word (e := e)
  cases hsource : e.source with
  | none =>
    rw [hsource] at hpair
    have hfields : e.fields ++ rest = e.word :: e.path :: rest := by rw [fields, hsource]; rfl
    rw [hfields, Change.ofFields_of_single hpair, statusOf_word hsource]
    rfl
  | some old =>
    rw [hsource] at hpair
    have hfields : e.fields ++ rest = e.word :: old :: e.path :: rest := by
      rw [fields, hsource]; rfl
    rw [hfields, Change.ofFields_of_pair hpair, ofPair_word hsource]

/-! ### What an entry is read for -/

theorem status_eq_deleted_iff : e.status = .deleted ↔ e.letter = 'D' := by
  unfold status
  split <;> simp_all

theorem status_ne_renamed (h : e.source = none) (old : String) : e.status ≠ .renamed old := by
  rw [status, h]
  split <;> simp_all

theorem isToRead_change : Change.isToRead e.change = e.target?.any isIncluded := by
  rw [Change.isToRead, target?]
  by_cases hletter : e.letter = 'D'
  · rw [if_pos hletter]
    simp [change, status_eq_deleted_iff.2 hletter]
  · have hstatus : e.change.status ≠ .deleted := fun h => hletter (status_eq_deleted_iff.1 h)
    rw [if_neg hletter, bne_iff_ne.2 hstatus]
    rfl

theorem removedPaths_change : Change.removedPaths e.change = e.removed?.toList := by
  cases hsource : e.source with
  | none =>
    obtain ⟨hrename, -⟩ := letter_ne_of_source hsource
    rw [removed?, if_neg hrename]
    by_cases hletter : e.letter = 'D'
    · rw [if_pos hletter, Change.removedPaths, change, status_eq_deleted_iff.2 hletter]
      rfl
    · have hstatus : e.change.status ≠ .deleted := fun h => hletter (status_eq_deleted_iff.1 h)
      rw [if_neg hletter, Change.removedPaths]
      split
      · contradiction
      · exact absurd ‹_› (status_ne_renamed hsource _)
      · rfl
  | some old =>
    have hold : old ≠ "" := (e.isField_source old hsource).1
    rw [Change.removedPaths, change, status, removed?, hsource]
    obtain hletter | hletter := letter_eq_of_source hsource <;> simp [hletter, hold]

end DiffEntry

/-! ### Diffs in entries -/

/-- The text of a diff in entries. -/
def entriesText (entries : List DiffEntry) : String := terminated (entries.flatMap DiffEntry.fields)

/-- The fields of entries are read as one change for each. -/
theorem ofFields_entries (entries : List DiffEntry) :
    Change.ofFields (entries.flatMap DiffEntry.fields) = entries.map DiffEntry.change := by
  induction entries with
  | nil => simp [Change.ofFields]
  | cons e rest ih => rw [List.flatMap_cons, DiffEntry.ofFields_append, ih, List.map_cons]

/-- The text of a diff is read as one change for each entry, in order.  To be read are the files
that take part in a build, deleted ones aside; gone are the deleted paths and the sources of
renames. -/
theorem ofDiff_entriesText (entries : List DiffEntry) :
    Change.ofDiff (entriesText entries) = entries.map DiffEntry.change ∧
      Change.selection (Change.ofDiff (entriesText entries)) =
        ((entries.filterMap DiffEntry.target?).filter isIncluded,
          entries.filterMap DiffEntry.removed?) := by
  have hread : Change.ofDiff (entriesText entries) = entries.map DiffEntry.change := by
    rw [Change.ofDiff, entriesText, Change.fieldsOf_terminated, ofFields_entries]
    intro field hfield
    obtain ⟨e, -, hmem⟩ := List.mem_flatMap.1 hfield
    exact DiffEntry.isField_of_mem_fields hmem
  refine ⟨hread, ?_⟩
  rw [hread]
  refine Change.selection_map (fun e _ => DiffEntry.isToRead_change) (fun e _ path hpath => ?_)
    fun e _ => DiffEntry.removedPaths_change
  rw [DiffEntry.target?] at hpath
  split at hpath
  · cases hpath
  · exact Option.some.inj hpath

/-- Paths that look like status words are paths. -/
example : Change.ofDiff "R087\x00M\x00D\x00T\x00R\x00" =
    [⟨"D", .renamed "M"⟩, ⟨"R", .modified⟩] := by cbv

end Source

end RepoGraph
