import Mathlib.Data.List.Basic
import Mathlib.Data.List.Induction
import RepoGraph.Disk

/-!
# Where paths lead on a disk that changes

A path that leads somewhere leads there by its names alone, so it leads to the same place as long as
the directories on its way stay: `Disk.KeepsDirectories`.  Making directories adds directories and
nothing else, `Disk.Expands`; a file that is written, moved or removed changes what stands at one
place, or at two.

The files of a directory are told apart by their names: `Path.parts_join` cuts a path below a
directory into the names that lead to the directory and the name in it.

Main statements: `Disk.follow_of_keeps`, `Disk.get?_write`, `Disk.read_write`,
`Disk.expands_makeDirectories`, `Disk.locate_join`, `Disk.read_of_expands`.
-/

namespace RepoGraph

/-! ### Paths below a directory -/

namespace Text

theorem splitAt_ne_nil (p : Char → Bool) (cs : List Char) : splitAt p cs ≠ [] := by
  cases cs with
  | nil => simp [splitAt]
  | cons c rest =>
    rw [splitAt]
    split
    · simp
    · split <;> simp

theorem splitAt_of_forall_not {p : Char → Bool} {cs : List Char} (h : ∀ c ∈ cs, p c = false) :
    splitAt p cs = [cs] := by
  induction cs with
  | nil => rfl
  | cons c rest ih =>
    have hc := h c List.mem_cons_self
    rw [splitAt, ih fun d hd => h d (List.mem_cons_of_mem _ hd)]
    simp [hc]

/-- A separator cuts what stands before it from what comes after. -/
theorem splitAt_append_cons {p : Char → Bool} {sep : Char} (hsep : p sep = true)
    (before after : List Char) :
    splitAt p (before ++ sep :: after) = splitAt p before ++ splitAt p after := by
  induction before with
  | nil =>
    rw [List.nil_append]
    cases hafter : splitAt p after with
    | nil => exact absurd hafter (splitAt_ne_nil p after)
    | cons piece more => simp [splitAt, hafter, hsep]
  | cons c rest ih =>
    rw [List.cons_append, splitAt, ih, splitAt]
    cases hrest : splitAt p rest with
    | nil => exact absurd hrest (splitAt_ne_nil p rest)
    | cons piece more =>
      rw [List.cons_append]
      by_cases hc : p c = true <;> simp [hc]

end Text

namespace Path

/-- Whether a text is the name of something in a directory, and not of the directory or the one
around it. -/
def IsName (name : String) : Prop :=
  name ≠ "" ∧ name ≠ "." ∧ name ≠ ".." ∧ '/' ∉ name.toList

/-- The names that lead to the directory with a path. -/
def lead (dir : String) : List String :=
  if dir = "" then [] else if dir.endsWith "/" then (parts dir).dropLast else parts dir

theorem parts_ne_nil (path : String) : parts path ≠ [] := by
  simp [parts, Text.splitOnChar, Text.splitAt_ne_nil]

/-- A name without a slash is a path of one part. -/
theorem parts_of_not_mem {name : String} (h : '/' ∉ name.toList) : parts name = [name] := by
  have hsplit : Text.splitAt (fun c => c == '/') name.toList = [name.toList] :=
    Text.splitAt_of_forall_not fun c hc => beq_false_of_ne fun he => h (he ▸ hc)
  rw [parts, Text.splitOnChar, hsplit]
  simp

theorem parts_of_isName {name : String} (h : IsName name) : parts name = [name] :=
  parts_of_not_mem h.2.2.2

theorem startsWith_slash_iff {path : String} :
    path.startsWith "/" = true ↔ ∃ rest, path.toList = '/' :: rest := by
  rw [String.startsWith_string_iff]
  exact ⟨fun ⟨rest, h⟩ => ⟨rest, h.symm⟩, fun ⟨rest, h⟩ => ⟨rest, h.symm⟩⟩

theorem endsWith_slash_iff {path : String} :
    path.endsWith "/" = true ↔ ∃ before, path.toList = before ++ ['/'] := by
  have h : path.toSlice.endsWith "/" ↔ "/".toList <:+ path.toSlice.copy.toList :=
    String.Slice.endsWith_string_iff
  rw [String.copy_toSlice] at h
  refine h.trans ⟨fun ⟨before, h⟩ => ⟨before, h.symm⟩, fun ⟨before, h⟩ => ⟨before, h.symm⟩⟩

theorem startsWith_of_isName {name : String} (h : IsName name) : name.startsWith "/" = false := by
  refine Bool.eq_false_iff.2 fun hs => ?_
  obtain ⟨rest, hrest⟩ := startsWith_slash_iff.1 hs
  exact h.2.2.2 (hrest ▸ List.mem_cons_self)

/-- The characters of a path below a directory. -/
theorem toList_join (dir : String) {name : String} (h : IsName name) :
    (join dir name).toList =
      if dir = "" then name.toList
      else if dir.endsWith "/" then dir.toList ++ name.toList
      else dir.toList ++ '/' :: name.toList := by
  rw [join, startsWith_of_isName h, if_neg Bool.false_ne_true]
  by_cases hdir : dir = ""
  · simp [hdir]
  · by_cases hends : dir.endsWith "/" = true
    · simp [hdir, hends]
    · simp [hdir, hends]

/-- A path below a directory leads to the directory and then to the name. -/
theorem parts_join (dir : String) {name : String} (h : IsName name) :
    parts (join dir name) = lead dir ++ [name] := by
  have hname : Text.splitAt (fun c => c == '/') name.toList = [name.toList] :=
    Text.splitAt_of_forall_not fun c hc => beq_false_of_ne fun he => h.2.2.2 (he ▸ hc)
  rw [parts, Text.splitOnChar, toList_join dir h, lead]
  by_cases hdir : dir = ""
  · simp [hdir, hname]
  · by_cases hends : dir.endsWith "/" = true
    · -- the slash at the end is the one before the name, so no second one is put
      obtain ⟨before, hbefore⟩ := endsWith_slash_iff.1 hends
      have hslash : Text.splitAt (fun c => c == '/') ('/' :: name.toList) = [[], name.toList] := by
        rw [Text.splitAt, hname]
        simp
      have hdirectory : parts dir =
          (Text.splitAt (fun c => c == '/') before).map String.ofList ++ [""] := by
        rw [parts, Text.splitOnChar, hbefore, Text.splitAt_append_cons (by rfl)]
        simp [Text.splitAt]
      simp only [hdir, if_false, hends, if_true, hdirectory, List.dropLast_concat]
      rw [hbefore, List.append_assoc, List.singleton_append,
        Text.splitAt_append_cons (by rfl), hname]
      simp
    · simp only [hdir, if_false, hends, Bool.false_eq_true]
      rw [Text.splitAt_append_cons (by rfl), hname]
      simp [parts, Text.splitOnChar]

theorem join_ne_empty (dir : String) {name : String} (h : IsName name) : join dir name ≠ "" := by
  intro hempty
  have hlist := congrArg String.toList hempty
  rw [toList_join dir h] at hlist
  have hname : name.toList ≠ [] := fun he => h.1 (String.toList_eq_nil_iff.1 he)
  split at hlist
  · exact hname hlist
  · split at hlist <;> simp_all

/-- The names that lead to a directory inside another one. -/
theorem lead_join (dir : String) {name : String} (h : IsName name) :
    lead (join dir name) = lead dir ++ [name] := by
  have hends : (join dir name).endsWith "/" = false := by
    refine Bool.eq_false_iff.2 fun hends => ?_
    obtain ⟨before, hbefore⟩ := endsWith_slash_iff.1 hends
    have hname : name.toList ≠ [] := fun he => h.1 (String.toList_eq_nil_iff.1 he)
    have happend (cs : List Char) : (cs ++ name.toList).getLast? = name.toList.getLast? := by
      rw [List.getLast?_append, List.getLast?_eq_some_getLast hname]
      rfl
    -- the path ends as the name does, and a name has no slash
    have hlast : (join dir name).toList.getLast? = name.toList.getLast? := by
      rw [toList_join dir h]
      split
      · rfl
      · split
        · exact happend dir.toList
        · rw [← List.singleton_append, ← List.append_assoc]
          exact happend (dir.toList ++ ['/'])
    rw [hbefore, List.getLast?_concat] at hlast
    exact h.2.2.2 (List.mem_of_getLast? hlast.symm)
  rw [lead, if_neg (join_ne_empty dir h), hends, if_neg Bool.false_ne_true, parts_join dir h]

/-- A name leads to what it names. -/
theorem lead_of_isName {name : String} (h : IsName name) : lead name = [name] := by
  have hends : ¬ name.endsWith "/" = true := by
    rw [endsWith_slash_iff]
    rintro ⟨before, hbefore⟩
    exact h.2.2.2 (hbefore ▸ List.mem_append_right before List.mem_cons_self)
  rw [lead, if_neg h.1, if_neg hends, parts_of_isName h]

/-- A path below a directory begins where the directory's path begins. -/
theorem startsWith_join (dir : String) {name : String} (h : IsName name) :
    (join dir name).startsWith "/" = dir.startsWith "/" := by
  rw [Bool.eq_iff_iff, startsWith_slash_iff, startsWith_slash_iff, toList_join dir h]
  by_cases hdir : dir = ""
  · subst hdir
    have hstart := startsWith_of_isName h
    simp only [if_true, String.toList_empty, List.nil_eq, reduceCtorEq, exists_false, iff_false]
    intro hrest
    rw [startsWith_slash_iff.2 hrest] at hstart
    exact Bool.noConfusion hstart
  · have hne : dir.toList ≠ [] := fun he => hdir (String.toList_eq_nil_iff.1 he)
    obtain ⟨c, rest, hrest⟩ := List.exists_cons_of_ne_nil hne
    simp only [hdir, if_false, hrest]
    split <;> simp

end Path

namespace Disk

/-! ### Following names -/

/-- A disk keeps the directories of another one. -/
def KeepsDirectories (d d' : Disk) : Prop :=
  ∀ place, d.isDirectoryAt place = true → d'.isDirectoryAt place = true

theorem get?_eq_directory_iff {d : Disk} {place : Place} :
    d.get? place = some .directory ↔ d.isDirectoryAt place = true := by
  unfold isDirectoryAt
  split <;> simp_all

/-- Following a name from a directory, which is all that names can be followed from. -/
theorem follow_cons_eq_ok_iff {d : Disk} {here place : Place} {name : String} {rest : List String} :
    d.follow here (name :: rest) = .ok place ↔
      d.isDirectoryAt here = true ∧
        d.follow (if name = "" ∨ name = "." then here
          else if name = ".." then here.dropLast else here ++ [name]) rest = .ok place := by
  rw [follow, ← get?_eq_directory_iff]
  by_cases hsame : name = "" ∨ name = "."
  · cases h : d.get? here with
    | none => simp
    | some entry => cases entry <;> simp [hsame]
  · have hsame' : (name == "" || name == ".") = false := by simpa using hsame
    by_cases hup : name = ".."
    · cases h : d.get? here with
      | none => simp
      | some entry => cases entry <;> simp [hup]
    · cases h : d.get? here with
      | none => simp
      | some entry => cases entry <;> simp [hsame, hsame', hup]

/-- Names lead to the same place as long as the directories stay. -/
theorem follow_of_keeps {d d' : Disk} (hkeeps : KeepsDirectories d d') {here place : Place}
    {names : List String} (h : d.follow here names = .ok place) :
    d'.follow here names = .ok place := by
  induction names generalizing here with
  | nil => exact h
  | cons name rest ih =>
    rw [follow_cons_eq_ok_iff] at h ⊢
    exact ⟨hkeeps here h.1, ih h.2⟩

theorem follow_append {d : Disk} {here place : Place} {names more : List String} :
    d.follow here (names ++ more) = .ok place ↔
      ∃ between, d.follow here names = .ok between ∧ d.follow between more = .ok place := by
  induction names generalizing here with
  | nil => simp [follow]
  | cons name rest ih =>
    simp only [List.cons_append, follow_cons_eq_ok_iff, ih]
    constructor
    · rintro ⟨hdirectory, between, h, hmore⟩
      exact ⟨between, ⟨hdirectory, h⟩, hmore⟩
    · rintro ⟨between, ⟨hdirectory, h⟩, hmore⟩
      exact ⟨hdirectory, between, h, hmore⟩

/-- A name of something in a directory leads into the directory. -/
theorem follow_name {d : Disk} {here place : Place} {name : String} (hname : Path.IsName name) :
    d.follow here [name] = .ok place ↔ d.isDirectoryAt here = true ∧ place = here ++ [name] := by
  have hsame : ¬ (name = "" ∨ name = ".") := fun h => h.elim hname.1 hname.2.1
  rw [follow_cons_eq_ok_iff, if_neg hsame, if_neg hname.2.2.1, follow, Except.ok.injEq]
  exact and_congr_right fun _ => eq_comm

theorem mem_of_isSome_lookup {entries : List (Place × Entry)} {place : Place}
    (h : (lookup entries place).isSome) : place ∈ entries.map Prod.fst := by
  induction entries with
  | nil => exact Bool.noConfusion h
  | cons e rest ih =>
    rw [lookup] at h
    split at h
    · rename_i he
      exact List.mem_cons.2 (.inl he.symm)
    · exact List.mem_cons.2 (.inr (ih h))

/-- Whatever stands at a place, a directory stands around it. -/
theorem isDirectoryAt_dropLast {d : Disk} {place : Place} (h : (d.get? place).isSome) :
    d.isDirectoryAt place.dropLast = true := by
  rw [isDirectoryAt_iff]
  by_cases hroot : place = []
  · exact .inl (by rw [hroot]; rfl)
  · rw [get?, if_neg hroot] at h
    exact (d.isTree place (mem_of_isSome_lookup h)).2

/-- Whatever stands below a place, a directory stands at the place. -/
theorem isDirectoryAt_of_append {d : Disk} {place : Place} {more : List String} (hmore : more ≠ [])
    (h : (d.get? (place ++ more)).isSome) : d.isDirectoryAt place = true := by
  induction more using List.reverseRecOn with
  | nil => exact absurd rfl hmore
  | append_singleton more name ih =>
    rw [← List.append_assoc] at h
    have hparent := isDirectoryAt_dropLast h
    rw [List.dropLast_concat] at hparent
    by_cases hnil : more = []
    · rw [hnil, List.append_nil] at hparent
      exact hparent
    · refine ih hnil ?_
      rw [get?_eq_directory_iff.2 hparent]
      rfl

/-- Where names lead there is a directory, or the place lies in one. -/
theorem inside_of_follow {d : Disk} {here place : Place} {names : List String} (hne : names ≠ [])
    (h : d.follow here names = .ok place) :
    d.isDirectoryAt place = true ∨ place ≠ [] ∧ d.isDirectoryAt place.dropLast = true := by
  obtain ⟨names, name, rfl⟩ : ∃ before last, names = before ++ [last] :=
    ⟨_, _, (List.dropLast_append_getLast hne).symm⟩
  obtain ⟨between, -, hlast⟩ := follow_append.1 h
  rw [follow_cons_eq_ok_iff] at hlast
  obtain ⟨hdirectory, hplace⟩ := hlast
  rw [follow, Except.ok.injEq] at hplace
  subst hplace
  split
  · exact .inl hdirectory
  · split
    · exact .inl (isDirectoryAt_dropLast (by rw [get?_eq_directory_iff.2 hdirectory]; rfl))
    · exact .inr ⟨by simp, by simpa using hdirectory⟩

/-! ### Locating paths -/

/-- Where a path begins: at the root or in the working directory. -/
def start (cwd : Place) (path : String) : Place := if path.startsWith "/" then [] else cwd

/-- A name begins at the working directory. -/
theorem start_of_isName {name : String} (h : Path.IsName name) (cwd : Place) :
    start cwd name = cwd := by
  rw [start, Path.startsWith_of_isName h, if_neg Bool.false_ne_true]

theorem locate_eq_ok_iff {d : Disk} {cwd place : Place} {path : String} :
    d.locate cwd path = .ok place ↔
      path ≠ "" ∧ d.follow (start cwd path) (Path.parts path) = .ok place := by
  rw [locate]
  by_cases h : path = "" <;> simp [h, start]

/-- A path below a directory leads through the directory. -/
theorem locate_join {d : Disk} {cwd place : Place} (dir : String) {name : String}
    (hname : Path.IsName name) :
    d.locate cwd (Path.join dir name) = .ok place ↔
      ∃ between, d.follow (start cwd dir) (Path.lead dir) = .ok between ∧
        d.isDirectoryAt between = true ∧ place = between ++ [name] := by
  rw [locate_eq_ok_iff, start, Path.startsWith_join dir hname, Path.parts_join dir hname,
    follow_append]
  simp only [follow_name hname, start]
  exact and_iff_right (Path.join_ne_empty dir hname)

theorem locate_of_keeps {d d' : Disk} (hkeeps : KeepsDirectories d d') {cwd place : Place}
    {path : String} (h : d.locate cwd path = .ok place) : d'.locate cwd path = .ok place := by
  rw [locate_eq_ok_iff] at h ⊢
  exact ⟨h.1, follow_of_keeps hkeeps h.2⟩

theorem inside_of_locate {d : Disk} {cwd place : Place} {path : String}
    (h : d.locate cwd path = .ok place) :
    d.isDirectoryAt place = true ∨ place ≠ [] ∧ d.isDirectoryAt place.dropLast = true :=
  inside_of_follow (Path.parts_ne_nil path) (locate_eq_ok_iff.1 h).2

theorem resolve_eq_ok_iff {d : Disk} {cwd place : Place} {path : String} :
    d.resolve cwd path = .ok place ↔ d.locate cwd path = .ok place := by
  rw [resolve]
  cases d.locate cwd path <;> simp [Except.mapError]

/-! ### Single changes -/

theorem get?_put {d : Disk} {place : Place} (h : d.isFree place = true) (entry : Entry)
    (other : Place) :
    (d.put place entry).get? other = if other = place then some entry else d.get? other := by
  have hne : place ≠ [] := by
    simp only [isFree, Bool.and_eq_true, decide_eq_true_eq] at h
    exact h.1.1
  simp only [put, h, dif_pos, get?]
  by_cases hother : other = place
  · subst hother
    simp [hne]
  · rw [if_neg hother, lookup_putEntry_of_ne fun he => hother he.symm]

theorem get?_erase {d : Disk} {place : Place} (h : d.isDirectoryAt place = false) (other : Place) :
    (d.erase place).get? other = if other = place then none else d.get? other := by
  have hne : place ≠ [] := by
    rintro rfl
    rw [isDirectoryAt_iff.2 (.inl rfl)] at h
    exact Bool.noConfusion h
  simp only [erase, h, Bool.false_eq_true, dif_neg, not_false_eq_true, get?, restrict]
  have hfilter := lookup_filter (fun l => decide (l ≠ place)) d.entries other
  rw [hfilter]
  by_cases hother : other = place
  · simp [hother, hne]
  · simp [hother]

/-- Reading answers what the file at the end of the path holds. -/
theorem read_eq_ok_iff {d : Disk} {cwd : Place} {path : String} {content : Content} :
    d.read cwd path = .ok content ↔
      ∃ place, d.locate cwd path = .ok place ∧ d.get? place = some (.file content) := by
  simp only [read, bind, Except.bind]
  constructor
  · intro h
    split at h
    · cases h
    · rename_i place hplace
      refine ⟨place, resolve_eq_ok_iff.1 hplace, ?_⟩
      split at h
      · cases h
      · cases h
      · rename_i content' hcontent
        cases h
        exact hcontent
  · rintro ⟨place, hplace, hcontent⟩
    rw [resolve_eq_ok_iff.2 hplace]
    simp only [hcontent]
    rfl

theorem doesExist_of_read {d : Disk} {cwd : Place} {path : String} {content : Content}
    (h : d.read cwd path = .ok content) : d.doesExist cwd path = true := by
  obtain ⟨place, hplace, hcontent⟩ := read_eq_ok_iff.1 h
  rw [doesExist, entry?, hplace]
  simp [hcontent]

theorem isFree_of_locate {d : Disk} {cwd place : Place} {path : String}
    (h : d.locate cwd path = .ok place) (hnot : d.isDirectoryAt place = false) :
    d.isFree place = true := by
  rcases inside_of_locate h with hdirectory | ⟨hne, hparent⟩
  · rw [hdirectory] at hnot
    exact Bool.noConfusion hnot
  · simp [isFree, hne, hparent, hnot]

/-- Writing puts a file at the end of the path, where no directory is. -/
theorem write_eq_ok_iff {d d' : Disk} {cwd : Place} {path : String} {content : Content} :
    d.write cwd path content = .ok d' ↔
      ∃ place, d.locate cwd path = .ok place ∧ d.isDirectoryAt place = false ∧
        d' = d.put place (.file content) := by
  simp only [write, bind, Except.bind]
  constructor
  · intro h
    split at h
    · cases h
    · rename_i place hplace
      split at h
      · cases h
      · rename_i hnot
        cases h
        exact ⟨place, resolve_eq_ok_iff.1 hplace, by simpa using hnot, rfl⟩
  · rintro ⟨place, hplace, hnot, rfl⟩
    rw [resolve_eq_ok_iff.2 hplace]
    simp only [hnot, Bool.false_eq_true, if_false]
    rfl

/-- Writing changes what stands at one place. -/
theorem get?_write {d d' : Disk} {cwd place : Place} {path : String} {content : Content}
    (h : d.write cwd path content = .ok d') (hplace : d.locate cwd path = .ok place)
    (other : Place) :
    d'.get? other = if other = place then some (.file content) else d.get? other := by
  obtain ⟨found, hfound, hnot, rfl⟩ := write_eq_ok_iff.1 h
  rw [hplace, Except.ok.injEq] at hfound
  subst hfound
  exact get?_put (isFree_of_locate hplace hnot) _ other

theorem keeps_of_get? {d d' : Disk} {place : Place} (hnot : d.isDirectoryAt place = false)
    (h : ∀ other, other ≠ place → d'.get? other = d.get? other) : KeepsDirectories d d' := by
  intro other hother
  have hne : other ≠ place := by
    rintro rfl
    rw [hother] at hnot
    exact Bool.noConfusion hnot
  rw [← get?_eq_directory_iff, h other hne, get?_eq_directory_iff]
  exact hother

theorem keeps_write {d d' : Disk} {cwd : Place} {path : String} {content : Content}
    (h : d.write cwd path content = .ok d') : KeepsDirectories d d' := by
  obtain ⟨place, hplace, hnot, -⟩ := write_eq_ok_iff.1 h
  refine keeps_of_get? hnot fun other hother => ?_
  rw [get?_write h hplace, if_neg hother]

/-- What was written is what is read. -/
theorem read_write {d d' : Disk} {cwd : Place} {path : String} {content : Content}
    (h : d.write cwd path content = .ok d') : d'.read cwd path = .ok content := by
  obtain ⟨place, hplace, -, -⟩ := write_eq_ok_iff.1 h
  refine read_eq_ok_iff.2 ⟨place, locate_of_keeps (keeps_write h) hplace, ?_⟩
  rw [get?_write h hplace, if_pos rfl]

/-- Files of different names are different files. -/
theorem ne_of_locate_join {d : Disk} {cwd place place' : Place} {dir dir' name name' : String}
    (hname : Path.IsName name) (hname' : Path.IsName name') (hne : name ≠ name')
    (h : d.locate cwd (Path.join dir name) = .ok place)
    (h' : d.locate cwd (Path.join dir' name') = .ok place') : place ≠ place' := by
  obtain ⟨between, -, -, rfl⟩ := (locate_join dir hname).1 h
  obtain ⟨between', -, -, rfl⟩ := (locate_join dir' hname').1 h'
  intro he
  exact hne (by simpa using congrArg List.getLast? he)

/-- Writing leaves the files of other names as they are. -/
theorem read_join_of_write {d d' : Disk} {cwd : Place} {dir dir' name name' : String}
    {content other : Content} (hname : Path.IsName name) (hname' : Path.IsName name')
    (hne : name ≠ name') (h : d.write cwd (Path.join dir' name') content = .ok d')
    (hread : d.read cwd (Path.join dir name) = .ok other) :
    d'.read cwd (Path.join dir name) = .ok other := by
  obtain ⟨place, hplace, hfile⟩ := read_eq_ok_iff.1 hread
  obtain ⟨place', hplace', -, -⟩ := write_eq_ok_iff.1 h
  refine read_eq_ok_iff.2 ⟨place, locate_of_keeps (keeps_write h) hplace, ?_⟩
  rw [get?_write h hplace', if_neg (ne_of_locate_join hname hname' hne hplace hplace'), hfile]

/-! ### Making directories -/

/-- A disk is another one with more directories, where nothing was before. -/
def Expands (d d' : Disk) : Prop :=
  ∀ place, d'.get? place = d.get? place ∨
    d.get? place = none ∧ d'.get? place = some .directory

theorem Expands.refl (d : Disk) : Expands d d := fun _ => .inl rfl

theorem Expands.trans {d d' d'' : Disk} (h : Expands d d') (h' : Expands d' d'') :
    Expands d d'' := by
  intro place
  rcases h' place with hsame | ⟨hnone, hdirectory⟩
  · rw [hsame]
    exact h place
  · rcases h place with hsame | ⟨-, hdirectory'⟩
    · exact .inr ⟨hsame ▸ hnone, hdirectory⟩
    · rw [hdirectory'] at hnone
      cases hnone

theorem Expands.get?_eq_some {d d' : Disk} (h : Expands d d') {place : Place} {entry : Entry}
    (hentry : d.get? place = some entry) : d'.get? place = some entry := by
  rcases h place with hsame | ⟨hnone, -⟩
  · rw [hsame, hentry]
  · rw [hentry] at hnone
    cases hnone

theorem Expands.file_iff {d d' : Disk} (h : Expands d d') {place : Place} {content : Content} :
    d'.get? place = some (.file content) ↔ d.get? place = some (.file content) := by
  refine ⟨fun hfile => ?_, h.get?_eq_some⟩
  rcases h place with hsame | ⟨-, hdirectory⟩
  · rw [← hsame, hfile]
  · rw [hdirectory] at hfile
    cases hfile

theorem Expands.keeps {d d' : Disk} (h : Expands d d') : KeepsDirectories d d' := by
  intro place hplace
  rw [← get?_eq_directory_iff] at hplace ⊢
  exact h.get?_eq_some hplace

theorem expands_makeDirectory {d d' : Disk} {cwd : Place} {path : String}
    (h : d.makeDirectory cwd path = .ok d') : Expands d d' := by
  simp only [makeDirectory, bind, Except.bind] at h
  split at h
  · cases h
  · rename_i place hplace
    split at h
    · cases h
    · rename_i hnone
      cases h
      have hget : d.get? place = none := by simpa using hnone
      have hnot : d.isDirectoryAt place = false := by
        refine Bool.eq_false_iff.2 fun hdirectory => ?_
        rw [get?_eq_directory_iff.2 hdirectory] at hget
        cases hget
      have hfree := isFree_of_locate (resolve_eq_ok_iff.1 hplace) hnot
      intro other
      rw [get?_put hfree]
      by_cases hother : other = place
      · rw [if_pos hother, hother]
        exact .inr ⟨hget, rfl⟩
      · rw [if_neg hother]
        exact .inl rfl

theorem expands_makeEach {cwd : Place} {paths : List String} {d d' : Disk}
    (h : makeEach cwd d paths = .ok d') : Expands d d' := by
  induction paths generalizing d with
  | nil =>
    rw [makeEach, Except.ok.injEq] at h
    rw [h]
    exact Expands.refl d'
  | cons path rest ih =>
    rw [makeEach] at h
    split at h
    · exact ih h
    · split at h
      · rename_i made hmade
        exact (expands_makeDirectory hmade).trans (ih h)
      · cases h

/-- Making directories adds directories and nothing else. -/
theorem expands_makeDirectories {d d' : Disk} {cwd : Place} {path : String}
    (h : d.makeDirectories cwd path = .ok d') : Expands d d' := by
  rw [makeDirectories] at h
  split at h
  · cases h
  · exact expands_makeEach h

/-- A file two names below a place that is reached is not affected by new directories. -/
theorem read_of_expands {d d' : Disk} (h : Expands d d') {cwd home : Place} {dir : String}
    (hhome : d.follow (start cwd dir) (Path.lead dir) = .ok home) {outer name : String}
    (houter : Path.IsName outer) (hname : Path.IsName name) {content : Content} :
    d'.read cwd (Path.join (Path.join dir outer) name) = .ok content ↔
      d.read cwd (Path.join (Path.join dir outer) name) = .ok content := by
  have hstart : start cwd (Path.join dir outer) = start cwd dir := by
    rw [start, Path.startsWith_join dir houter, start]
  -- where the way begins alike, what is read is the file two names below
  have hfollow (e : Disk) (he : e.follow (start cwd dir) (Path.lead dir) = .ok home) :
      e.read cwd (Path.join (Path.join dir outer) name) = .ok content ↔
        e.isDirectoryAt home = true ∧ e.get? (home ++ [outer, name]) = some (.file content) := by
    rw [read_eq_ok_iff]
    simp only [locate_join _ hname, hstart, Path.lead_join dir houter, follow_append, he,
      Except.ok.injEq, exists_eq_left', follow_name houter]
    constructor
    · rintro ⟨place, ⟨between, ⟨hdirectory, rfl⟩, -, rfl⟩, hfile⟩
      exact ⟨hdirectory, by simpa using hfile⟩
    · rintro ⟨hdirectory, hfile⟩
      refine ⟨home ++ [outer, name], ⟨home ++ [outer], ⟨hdirectory, rfl⟩, ?_, by simp⟩, hfile⟩
      have hsplit : home ++ [outer, name] = (home ++ [outer]) ++ [name] := by simp
      refine isDirectoryAt_of_append (List.cons_ne_nil name []) ?_
      rw [← hsplit, hfile]
      rfl
  rw [hfollow d hhome, hfollow d' (follow_of_keeps h.keeps hhome), h.file_iff]
  refine and_congr_left fun hfile => ?_
  have hdirectory : d.isDirectoryAt home = true := by
    refine isDirectoryAt_of_append (List.cons_ne_nil outer [name]) ?_
    rw [hfile]
    rfl
  exact iff_of_true (h.keeps home hdirectory) hdirectory

end Disk

end RepoGraph
