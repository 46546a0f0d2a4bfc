import RepoGraph.Graph.Basic
import RepoGraph.Path
import RepoGraph.Text.Quoted
import RepoGraph.Text.Utf8

/-!
# Directories and files

A `Disk` lists what stands at which place; a place is the list of names that lead to it from
the root.  A path is followed name by name from the working directory or the root, so that what is
missing or is no directory on the way is found, and every operation answers the changed disk or a
fault that names the path.

A file holds text, bytes that may be no text, or the image of a graph.
-/

namespace RepoGraph

/-- What a file holds. -/
inductive Content where
  | text (s : String)
  | bytes (bs : List UInt8)
  | graph (g : Graph)

/-- What stands at a place. -/
inductive Entry where
  | directory
  | file (content : Content)

/-- A place: the names that lead to it from the root. -/
abbrev Place := List String

namespace Disk

/-- What stands at a place in a list of entries. -/
def lookup : List (Place × Entry) → Place → Option Entry
  | [], _ => none
  | (l, entry) :: rest, place => if l = place then some entry else lookup rest place

/-- Whether a place lies in a directory of a list of entries. -/
def IsInside (entries : List (Place × Entry)) (place : Place) : Prop :=
  place ≠ [] ∧ (place.dropLast = [] ∨ lookup entries place.dropLast = some .directory)

end Disk

/-- What stands where; the root is always a directory.  At each place stands one thing, and in a
directory. -/
structure Disk where
  entries : List (Place × Entry)
  nodup_places : (entries.map Prod.fst).Nodup
  isTree : ∀ place ∈ entries.map Prod.fst, Disk.IsInside entries place

/-! ### Faults -/

/-- Why an operation on a path fails. -/
inductive DiskCause where
  | missing
  | alreadyThere
  | notADirectory
  | isADirectory
deriving DecidableEq, Repr

/-- A failed operation: the cause, the path, and the second path where there are two. -/
structure DiskFault where
  cause : DiskCause
  path : String
  second : Option String
deriving DecidableEq, Repr

/-- The number of a cause and its words. -/
def DiskCause.text : DiskCause → String
  | missing => "[Errno 2] No such file or directory"
  | alreadyThere => "[Errno 17] File exists"
  | notADirectory => "[Errno 20] Not a directory"
  | isADirectory => "[Errno 21] Is a directory"

/-- The fault as text. -/
def DiskFault.message (f : DiskFault) : String :=
  f.cause.text ++ ": " ++ Text.quoted f.path ++
    (f.second.elim "" fun path => " -> " ++ Text.quoted path)

namespace Disk

/-- The disk without entries. -/
def empty : Disk := ⟨[], List.nodup_nil, fun _ h => nomatch h⟩

/-! ### Locations -/

/-- What stands at a place. -/
def get? (d : Disk) (place : Place) : Option Entry :=
  if place = [] then some .directory else lookup d.entries place

/-- Whether a directory stands at a place. -/
def isDirectoryAt (d : Disk) (place : Place) : Bool :=
  match d.get? place with
  | some .directory => true
  | _ => false

/-- Puts an entry into a list: in place of the one at its place, or at the end. -/
def putEntry (place : Place) (entry : Entry) :
    List (Place × Entry) → List (Place × Entry)
  | [] => [(place, entry)]
  | (l, old) :: rest =>
    if l = place then (l, entry) :: rest else (l, old) :: putEntry place entry rest

@[simp]
theorem lookup_putEntry_self (place : Place) (entry : Entry)
    (entries : List (Place × Entry)) :
    lookup (putEntry place entry entries) place = some entry := by
  induction entries with
  | nil => simp [putEntry, lookup]
  | cons e rest ih =>
    obtain ⟨l, old⟩ := e
    by_cases h : l = place <;> simp [putEntry, lookup, h, ih]

theorem lookup_putEntry_of_ne {place other : Place} (h : place ≠ other) (entry : Entry)
    (entries : List (Place × Entry)) :
    lookup (putEntry place entry entries) other = lookup entries other := by
  induction entries with
  | nil => simp [putEntry, lookup, h]
  | cons e rest ih =>
    obtain ⟨l, old⟩ := e
    by_cases hl : l = place
    · subst hl; simp [putEntry, lookup, h]
    · by_cases ho : l = other
      · subst ho; simp [putEntry, lookup, hl]
      · simp [putEntry, lookup, hl, ho, ih]

theorem map_fst_putEntry (place : Place) (entry : Entry) (entries : List (Place × Entry)) :
    (putEntry place entry entries).map Prod.fst =
      if place ∈ entries.map Prod.fst then entries.map Prod.fst
      else entries.map Prod.fst ++ [place] := by
  induction entries with
  | nil => simp [putEntry]
  | cons e rest ih =>
    obtain ⟨l, old⟩ := e
    by_cases h : l = place
    · simp [putEntry, h]
    · have h' : ¬ place = l := fun e => h e.symm
      simp only [putEntry, h, if_false, List.map_cons, ih, List.mem_cons, h', false_or]
      split <;> simp

/-- What is found among the entries at some places. -/
theorem lookup_filter (keeps : Place → Bool) (entries : List (Place × Entry)) (place : Place) :
    lookup (entries.filter fun e => keeps e.1) place =
      if keeps place then lookup entries place else none := by
  induction entries with
  | nil => simp [lookup]
  | cons e rest ih =>
    obtain ⟨l, entry⟩ := e
    by_cases hkeeps : keeps l = true
    · by_cases hl : l = place
      · subst hl; simp [lookup, hkeeps]
      · simp [lookup, hkeeps, hl, ih]
    · by_cases hl : l = place
      · subst hl; simp [hkeeps, ih]
      · simp [lookup, hkeeps, hl, ih]

theorem isDirectoryAt_iff {d : Disk} {place : Place} :
    d.isDirectoryAt place = true ↔ place = [] ∨ lookup d.entries place = some .directory := by
  unfold isDirectoryAt get?
  by_cases h : place = []
  · simp [h]
  · simp only [h, if_false, false_or]
    split <;> simp_all

/-- Whether a file or a directory may be put at a place: the place lies in a directory and holds
none itself. -/
def isFree (d : Disk) (place : Place) : Bool :=
  place ≠ [] && d.isDirectoryAt place.dropLast && !d.isDirectoryAt place

theorem isTree_putEntry {d : Disk} {place : Place} (h : d.isFree place = true) (entry : Entry) :
    ∀ other ∈ (putEntry place entry d.entries).map Prod.fst,
      IsInside (putEntry place entry d.entries) other := by
  simp only [isFree, Bool.and_eq_true, decide_eq_true_eq, Bool.not_eq_true'] at h
  obtain ⟨⟨hne, hparent⟩, hnone⟩ := h
  have hkeep : ∀ other, IsInside d.entries other →
      IsInside (putEntry place entry d.entries) other := by
    rintro other ⟨hother, hinside⟩
    refine ⟨hother, hinside.imp_right fun hdirectory => ?_⟩
    have hplace : place ≠ other.dropLast := by
      intro he
      rw [← he] at hdirectory
      rw [isDirectoryAt_iff.2 (.inr hdirectory)] at hnone
      exact Bool.noConfusion hnone
    rw [lookup_putEntry_of_ne hplace]
    exact hdirectory
  intro other hother
  rw [map_fst_putEntry] at hother
  have hcases : other ∈ d.entries.map Prod.fst ∨ other = place := by
    split at hother
    · exact .inl hother
    · simpa using hother
  rcases hcases with hmem | rfl
  · exact hkeep other (d.isTree other hmem)
  · exact hkeep other ⟨hne, isDirectoryAt_iff.1 hparent⟩

/-- Puts an entry at a place that is free. -/
def put (d : Disk) (place : Place) (entry : Entry) : Disk :=
  if h : d.isFree place = true then
    ⟨putEntry place entry d.entries, by
      rw [map_fst_putEntry]
      split
      · exact d.nodup_places
      · rename_i hplace
        exact Graph.nodup_snoc d.nodup_places hplace, isTree_putEntry h entry⟩
  else d

/-- Keeps the entries at some places, with the directories they lie in. -/
def restrict (d : Disk) (keeps : Place → Bool)
    (h : ∀ place ∈ d.entries.map Prod.fst, keeps place = true →
      place.dropLast = [] ∨ keeps place.dropLast = true) : Disk where
  entries := d.entries.filter fun e => keeps e.1
  nodup_places := d.nodup_places.sublist (List.filter_sublist.map _)
  isTree := by
    intro place hplace
    obtain ⟨e, he, rfl⟩ := List.mem_map.1 hplace
    obtain ⟨hmem, hkeeps⟩ := List.mem_filter.1 he
    have hplaces : e.1 ∈ d.entries.map Prod.fst := List.mem_map.2 ⟨e, hmem, rfl⟩
    obtain ⟨hne, hinside⟩ := d.isTree e.1 hplaces
    refine ⟨hne, ?_⟩
    rcases hinside with hroot | hdirectory
    · exact .inl hroot
    · refine (h e.1 hplaces hkeeps).imp_right fun hparent => ?_
      rw [lookup_filter, if_pos hparent]
      exact hdirectory

/-- Takes the file at a place away. -/
def erase (d : Disk) (place : Place) : Disk :=
  if h : d.isDirectoryAt place = true then d
  else
    d.restrict (fun l => l ≠ place) fun l hl _ => by
      refine (d.isTree l hl).2.imp_right fun hdirectory => ?_
      have hne : l.dropLast ≠ place := by
        rintro rfl
        exact h (isDirectoryAt_iff.2 (.inr hdirectory))
      simpa using hne

/-- Takes a place and all below it away. -/
def eraseBelow (d : Disk) (place : Place) : Disk :=
  d.restrict (fun l => !place.isPrefixOf l) fun l _ hl => by
    right
    simp only [Bool.not_eq_true', Bool.eq_false_iff, ne_eq, List.isPrefixOf_iff_prefix] at hl ⊢
    exact fun hbelow => hl (hbelow.trans (List.dropLast_prefix l))

/-! ### Paths -/

/-- Where a list of names leads from a place.  Each name is looked up in a directory; the last
one need not be there. -/
def follow (d : Disk) : Place → List String → Except DiskCause Place
  | here, [] => .ok here
  | here, name :: rest =>
    match d.get? here with
    | none => .error .missing
    | some (.file _) => .error .notADirectory
    | some .directory =>
      if name == "" || name == "." then follow d here rest
      else if name == ".." then follow d here.dropLast rest
      else follow d (here ++ [name]) rest

/-- Where a path leads, from the working directory or the root. -/
def locate (d : Disk) (cwd : Place) (path : String) : Except DiskCause Place :=
  if path == "" then .error .missing
  else d.follow (if path.startsWith "/" then [] else cwd) (Path.parts path)

/-- A path that leads somewhere, or a fault that names it. -/
def resolve (d : Disk) (cwd : Place) (path : String) : Except DiskFault Place :=
  (d.locate cwd path).mapError fun cause => ⟨cause, path, none⟩

/-- What stands at the end of a path. -/
def entry? (d : Disk) (cwd : Place) (path : String) : Option Entry :=
  match d.locate cwd path with
  | .ok place => d.get? place
  | .error _ => none

/-- Whether anything stands at the end of a path. -/
def doesExist (d : Disk) (cwd : Place) (path : String) : Bool := (d.entry? cwd path).isSome

/-- Whether a file stands at the end of a path. -/
def isFile (d : Disk) (cwd : Place) (path : String) : Bool :=
  match d.entry? cwd path with
  | some (.file _) => true
  | _ => false

/-- Whether a directory stands at the end of a path. -/
def isDirectory (d : Disk) (cwd : Place) (path : String) : Bool :=
  match d.entry? cwd path with
  | some .directory => true
  | _ => false

/-- Where a path leads that is made absolute, dots being taken by name alone. -/
def absolute (cwd : Place) (path : String) : Place :=
  (Path.parts path).foldl
    (fun here name =>
      if name == "" || name == "." then here
      else if name == ".." then here.dropLast
      else here ++ [name])
    (if path.startsWith "/" then [] else cwd)

/-! ### Reading -/

/-- What a file holds. -/
def read (d : Disk) (cwd : Place) (path : String) : Except DiskFault Content := do
  let place ← d.resolve cwd path
  match d.get? place with
  | none => throw ⟨.missing, path, none⟩
  | some .directory => throw ⟨.isADirectory, path, none⟩
  | some (.file content) => return content

/-! ### Changing -/

/-- Puts a file, in place of the one that is there. -/
def write (d : Disk) (cwd : Place) (path : String) (content : Content) :
    Except DiskFault Disk := do
  let place ← d.resolve cwd path
  if d.isDirectoryAt place then throw ⟨.isADirectory, path, none⟩
  else return d.put place (.file content)

/-- Makes one directory. -/
def makeDirectory (d : Disk) (cwd : Place) (path : String) : Except DiskFault Disk := do
  let place ← d.resolve cwd path
  if (d.get? place).isSome then throw ⟨.alreadyThere, path, none⟩
  else return d.put place .directory

/-- The paths that lead to a path, the shortest first. -/
def leading (path : String) : List String :=
  (go "" (Path.parts path)).filter fun p => p != "" && p != "/"
where
  /-- The paths from the text of a directory on. -/
  go (before : String) : List String → List String
    | [] => []
    | name :: rest => (before ++ name) :: go (before ++ name ++ "/") rest

/-- Makes the directories of a list of paths that are missing.  A file in place of the last one is
a fault, in place of another one it is found when the next one is made. -/
def makeEach (cwd : Place) : Disk → List String → Except DiskFault Disk
  | d, [] => .ok d
  | d, path :: rest =>
    if d.isDirectory cwd path || (!rest.isEmpty && d.doesExist cwd path) then makeEach cwd d rest
    else
      match d.makeDirectory cwd path with
      | .ok made => makeEach cwd made rest
      | .error fault => .error fault

/-- Makes a directory and those that lead to it, as far as they are missing. -/
def makeDirectories (d : Disk) (cwd : Place) (path : String) : Except DiskFault Disk :=
  if path == "" then .error ⟨.missing, path, none⟩ else makeEach cwd d (leading path)

/-- Moves a file over another one. -/
def replace (d : Disk) (cwd : Place) (source target : String) : Except DiskFault Disk :=
  let fault (cause : DiskCause) : DiskFault := ⟨cause, source, some target⟩
  match d.locate cwd source, d.locate cwd target with
  | .error cause, _ => .error (fault cause)
  | _, .error cause => .error (fault cause)
  | .ok here, .ok there =>
    match d.get? here with
    | none => .error (fault .missing)
    | some .directory => .error (fault .notADirectory)
    | some entry =>
      if d.isDirectoryAt there then .error (fault .isADirectory)
      else if here = there then .ok d
      else .ok ((d.put there entry).erase here)

/-- Removes a file. -/
def remove (d : Disk) (cwd : Place) (path : String) : Except DiskFault Disk := do
  let place ← d.resolve cwd path
  match d.get? place with
  | none => throw ⟨.missing, path, none⟩
  | some .directory => throw ⟨.isADirectory, path, none⟩
  | some (.file _) => return d.erase place

/-- Removes a directory with all below it; what is no directory stays. -/
def removeTree (d : Disk) (cwd : Place) (path : String) : Disk :=
  match d.locate cwd path with
  | .ok place => if d.isDirectoryAt place then d.eraseBelow place else d
  | .error _ => d

/-- Puts a file and makes the directories that lead to it, as far as that can be done. -/
def provide (d : Disk) (cwd : Place) (path : String) (content : Content) : Disk :=
  let made := (d.makeDirectories cwd (Path.parent path)).toOption.getD d
  (made.write cwd path content).toOption.getD made

/-- Removes a file, or a directory with all below it. -/
def discard (d : Disk) (cwd : Place) (path : String) : Disk :=
  (d.remove cwd path).toOption.getD (d.removeTree cwd path)

/-! ### Listing -/

/-- The places below a place, without it, each with what stands there. -/
def below (d : Disk) (place : Place) : List (Place × Entry) :=
  d.entries.filterMap fun (l, entry) =>
    if place.isPrefixOf l && l ≠ place then some (l.drop place.length, entry) else none

/-- The paths below a place; that of a directory ends with a slash. -/
def tree (d : Disk) (place : Place) : List String :=
  (d.below place).map fun (l, entry) =>
    match entry with
    | .directory => "/".intercalate l ++ "/"
    | .file _ => "/".intercalate l

/-- The files below a path, by their paths from there. -/
def filesBelow (d : Disk) (cwd : Place) (path : String) : List String :=
  match d.locate cwd path with
  | .error _ => []
  | .ok place =>
    if d.isDirectoryAt place then
      (d.below place).filterMap fun (l, entry) =>
        match entry with
        | .file _ => some ("/".intercalate l)
        | .directory => none
    else []

end Disk

/-- The text of what a file holds, its line ends unified; bytes that are no text are refused. -/
def Content.read : Content → Except Text.Utf8.Fault String
  | .text s => .ok (Text.unifyNewlines s)
  | .bytes bs => (Text.Utf8.decode bs).map Text.unifyNewlines
  | .graph _ => .error ⟨0x80, 0, 1, .invalidStart⟩

end RepoGraph
