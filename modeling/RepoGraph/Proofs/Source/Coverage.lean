import RepoGraph.Proofs.Extract
import RepoGraph.Proofs.Reading
import RepoGraph.Proofs.Source.Discovery

/-!
# Which files a build has to look at

The entities of different files have different ids, as long as no declared name has a colon.  So
what an id stands for depends on one file alone, and `Source.Covers` says which files a build must
read again and which it must take for gone to go from one tree to another: those that a diff tells,
or all.

Main statements: `Source.path_eq_of_id_eq`, `Source.IsDiff.covers`, `Source.covers_discover`.
-/

namespace RepoGraph

open Entity (lastOf?)

namespace Source

variable {old new t t' : Tree} {p q path id : String}

/-! ### Ids of files -/

/-- Whether no name that is declared in a tree has a colon. -/
def HasPlainNames (t : Tree) : Prop := ∀ path, ∀ e ∈ entitiesAt t path, e.HasPlainName

theorem isIn_of_mem_entitiesAt {e : Entity} (h : e ∈ entitiesAt t path) : e.IsIn path := by
  obtain ⟨-, -, found, hfound, hmem⟩ := of_mem_entitiesAt h
  rw [findingsAt] at hfound
  obtain ⟨content, -, hfound⟩ := Option.bind_eq_some_iff.1 hfound
  obtain ⟨text, -, hfound⟩ := Option.bind_eq_some_iff.1 hfound
  cases hfile : Extract.file path text with
  | error f =>
    rw [hfile] at hfound
    cases hfound
  | ok found' =>
    rw [hfile] at hfound
    cases hfound
    exact Extract.areIn_file hfile e hmem

/-- Entities with the same id are of the same file and the same kind. -/
theorem eq_of_id_eq (ht : HasPlainNames t) (ht' : HasPlainNames t') {e e' : Entity}
    (he : e ∈ entitiesAt t p) (he' : e' ∈ entitiesAt t' q) (hid : e.id = e'.id) :
    p = q ∧ e.kind = e'.kind :=
  (isIn_of_mem_entitiesAt he).eq (isIn_of_mem_entitiesAt he') (ht p e he) (ht' q e' he') hid

/-- Whether an entity is the last one of its id in a file of a tree. -/
def IsLast (t : Tree) (path id : String) (e : Entity) : Prop :=
  lastOf? (entitiesAt t path) id = some e

theorem IsLast.mem {e : Entity} (h : IsLast t path id e) : e ∈ entitiesAt t path :=
  Entity.mem_of_lastOf? h

theorem IsLast.id_eq {e : Entity} (h : IsLast t path id e) : e.id = id := Entity.id_of_lastOf? h

theorem IsLast.path_eq {e : Entity} (h : IsLast t path id e) : e.path = path :=
  (isIn_of_mem_entitiesAt h.mem).1

/-- An id is of one file. -/
theorem IsLast.unique (ht : HasPlainNames t) (ht' : HasPlainNames t') {e e' : Entity}
    (h : IsLast t p id e) (h' : IsLast t' q id e') : p = q :=
  (eq_of_id_eq ht ht' h.mem h'.mem (h.id_eq.trans h'.id_eq.symm)).1

theorem IsLast.congr {e : Entity} (h : IsLast t path id e) (heq : t path = t' path) :
    IsLast t' path id e := by
  rw [IsLast, ← entitiesAt_congr heq]
  exact h

theorem exists_isLast {e : Entity} (h : e ∈ entitiesAt t path) : ∃ e', IsLast t path e.id e' := by
  cases hlast : lastOf? (entitiesAt t path) e.id with
  | none => exact absurd (List.mem_map_of_mem h) (Entity.lastOf?_eq_none_iff.1 hlast)
  | some e' => exact ⟨e', hlast⟩

/-- In some files, the last entity of an id is that of the file of the id. -/
theorem lastOf?_flatMap (ht : HasPlainNames t) {paths : List String} {e : Entity}
    (h : IsLast t path id e) (hpath : path ∈ paths) :
    lastOf? (paths.flatMap (entitiesAt t)) id = some e := by
  induction paths with
  | nil => cases hpath
  | cons p rest ih =>
    rw [List.flatMap_cons, Entity.lastOf?_append]
    by_cases hrest : path ∈ rest
    · rw [ih hrest, Option.some_or]
    · have hp : path = p := (List.mem_cons.1 hpath).resolve_right hrest
      have hnone : lastOf? (rest.flatMap (entitiesAt t)) id = none := by
        rw [Entity.lastOf?_eq_none_iff]
        intro hid
        obtain ⟨e', he', hid'⟩ := List.mem_map.1 hid
        obtain ⟨q, hq, he'⟩ := List.mem_flatMap.1 he'
        have heq := (eq_of_id_eq ht ht h.mem he' (h.id_eq.trans hid'.symm)).1
        exact hrest (heq ▸ hq)
      rw [hnone, Option.none_or, ← hp]
      exact h

/-! ### Coverage -/

/-- Whether reading some files again and taking others for gone leads from one tree to another. -/
structure Covers (old new : Tree) (paths gone : List String) : Prop where
  /-- A file that is read takes part. -/
  included : ∀ path ∈ paths, isIncluded path = true
  /-- A file that is new or another one is read. -/
  mem_paths : ∀ path, isIncluded path = true → new path ≠ none → new path ≠ old path → path ∈ paths
  /-- A file that vanished is taken for gone. -/
  mem_gone : ∀ path, isIncluded path = true → old path ≠ none → new path = none → path ∈ gone
  /-- A file that is taken for gone does not exist unless it is read. -/
  of_gone : ∀ path ∈ gone, isIncluded path = true → new path = none ∨ path ∈ paths

/-- A diff covers what is between its trees. -/
theorem IsDiff.covers {ds : List Difference} (h : IsDiff old new ds) :
    Covers old new ((targets ds).filter isIncluded) (removed ds) where
  included _ hpath := (List.mem_filter.1 hpath).2
  mem_paths path hincluded hnew hne :=
    List.mem_filter.2 ⟨h.mem_targets path hnew hne, hincluded⟩
  mem_gone path _ hold hnew := h.mem_removed path hold hnew
  of_gone path hgone hincluded :=
    (h.of_removed path hgone).imp_right fun htarget => List.mem_filter.2 ⟨htarget, hincluded⟩

/-- What covers the way from a base also covers the way from a tree in which no other files
differ. -/
theorem Covers.of_base {base : Tree} {paths gone : List String} (h : Covers base new paths gone)
    (hbase : ∀ path, isIncluded path = true → new path ≠ old path → new path ≠ base path) :
    Covers old new paths gone where
  included := h.included
  mem_paths path hincluded hnew hne :=
    h.mem_paths path hincluded hnew (hbase path hincluded hne)
  mem_gone path hincluded hold hnew := by
    refine h.mem_gone path hincluded (fun hnone => ?_) hnew
    refine hbase path hincluded (fun he => hold ?_) (hnew.trans hnone.symm)
    rw [← he, hnew]
  of_gone := h.of_gone

/-- A file of the new tree that is not read is as it was. -/
theorem Covers.eq_of_isLast {paths gone : List String} (h : Covers old new paths gone) {e : Entity}
    (he : IsLast new path id e) (hpath : path ∉ paths) : new path = old path := by
  obtain ⟨hincluded, hexists, -⟩ := of_mem_entitiesAt he.mem
  by_contra hne
  exact hpath (h.mem_paths path hincluded hexists hne)

theorem mem_filesBelow {disk : Disk} {cwd : Place} {repo : String}
    (h : checkout disk cwd repo path ≠ none) : path ∈ disk.filesBelow cwd repo := by
  by_contra hnot
  exact h (if_neg hnot)

/-- All files of a checkout cover what is between a tree and the checkout if no file vanished. -/
theorem covers_discover {disk : Disk} {cwd : Place} {repo : String}
    (h : ∀ path, isIncluded path = true → old path ≠ none → checkout disk cwd repo path ≠ none) :
    Covers old (checkout disk cwd repo) (discover disk cwd repo) [] where
  included _ hpath := (mem_discover.1 hpath).2
  mem_paths _ hincluded hnew _ := mem_discover.2 ⟨mem_filesBelow hnew, hincluded⟩
  mem_gone path hincluded hold hnew := absurd hnew (h path hincluded hold)
  of_gone _ hpath := absurd hpath List.not_mem_nil

end Source

end RepoGraph
