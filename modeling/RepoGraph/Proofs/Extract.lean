import Mathlib.Data.List.Basic
import Mathlib.Data.List.Induction
import RepoGraph.Build.Reading
import RepoGraph.Proofs.Record

/-!
# What is found in a file belongs to it

Every entity that is found in a file has the file's path, and an id made of its kind, the path and,
for what is declared in the file, its name.  As long as no declared name has a colon, the ids of
different files are different.  Entities of one file may share an id; then the last of them counts.

Main statements: `Extract.areIn_file`, `Entity.IsIn.eq`, `Entity.lastOf?_filter`.
-/

namespace RepoGraph

/-- A sign cuts a text at its first place in one way. -/
theorem Text.eq_of_append_cons {sign : Char} {a b c d : List Char} (ha : sign ∉ a) (hc : sign ∉ c)
    (h : a ++ sign :: b = c ++ sign :: d) : a = c ∧ b = d := by
  induction a generalizing c with
  | nil =>
    cases c with
    | nil => exact ⟨rfl, (List.cons.inj h).2⟩
    | cons x c => exact absurd ((List.cons.inj h).1 ▸ List.mem_cons_self) hc
  | cons x a ih =>
    cases c with
    | nil => exact absurd ((List.cons.inj h).1 ▸ List.mem_cons_self) ha
    | cons y c =>
      obtain ⟨hhead, htail⟩ := List.cons.inj h
      obtain ⟨heq, hrest⟩ := ih (fun hx => ha (List.mem_cons_of_mem _ hx))
        (fun hy => hc (List.mem_cons_of_mem _ hy)) htail
      exact ⟨congrArg₂ List.cons hhead heq, hrest⟩

namespace Entity

/-- Whether an entity was found in the file with a path, by its path and its id. -/
def IsIn (path : String) (e : Entity) : Prop :=
  e.path = path ∧
    (e.kind = fileKind ∧ e.id = fileId path ∨
      e.kind = documentKind ∧ e.id = documentId path ∨
      e.kind = assetKind ∧ e.id = assetId path ∨
      e.kind = classKind ∧ e.id = classId path e.name ∨
      e.kind = functionKind ∧ e.id = functionId path e.name)

/-- Whether the name of a declared entity has no colon. -/
def HasPlainName (e : Entity) : Prop :=
  e.kind = classKind ∨ e.kind = functionKind → ':' ∉ e.name.toList

/-! ### Ids of different files -/

/-- Texts with a colon and no further one behind it are the same before it. -/
theorem eq_of_append_colon {a b c d : List Char} (hb : ':' ∉ b) (hd : ':' ∉ d)
    (h : a ++ ':' :: b = c ++ ':' :: d) : a = c := by
  have hreverse := congrArg List.reverse h
  simp only [List.reverse_append, List.reverse_cons, List.append_assoc, List.singleton_append]
    at hreverse
  exact List.reverse_injective (Text.eq_of_append_cons (mt List.mem_reverse.1 hb)
    (mt List.mem_reverse.1 hd) hreverse).2

/-- The characters of an id. -/
theorem IsIn.toList_id {path : String} {e : Entity} (h : e.IsIn path) :
    e.id.toList = "file:".toList ++ path.toList ∧ e.kind = fileKind ∨
      e.id.toList = "doc:".toList ++ path.toList ∧ e.kind = documentKind ∨
      e.id.toList = "asset:".toList ++ path.toList ∧ e.kind = assetKind ∨
      e.id.toList = "class:".toList ++ (path.toList ++ ':' :: e.name.toList) ∧ e.kind = classKind ∨
      e.id.toList = "function:".toList ++ (path.toList ++ ':' :: e.name.toList) ∧
        e.kind = functionKind := by
  have hdeclared (a b : String) : (a ++ path ++ ":" ++ b).toList =
      a.toList ++ (path.toList ++ ':' :: b.toList) := by
    simp only [String.toList_append, List.append_assoc]
    rfl
  obtain ⟨-, ⟨hkind, hid⟩ | ⟨hkind, hid⟩ | ⟨hkind, hid⟩ | ⟨hkind, hid⟩ | ⟨hkind, hid⟩⟩ := h
  · exact .inl ⟨by rw [hid, fileId, String.toList_append], hkind⟩
  · exact .inr (.inl ⟨by rw [hid, documentId, String.toList_append], hkind⟩)
  · exact .inr (.inr (.inl ⟨by rw [hid, assetId, String.toList_append], hkind⟩))
  · exact .inr (.inr (.inr (.inl ⟨by rw [hid, classId, hdeclared], hkind⟩)))
  · exact .inr (.inr (.inr (.inr ⟨by rw [hid, functionId, hdeclared], hkind⟩)))

/-- An id tells the file and the kind. -/
theorem IsIn.eq {p q : String} {e e' : Entity} (h : e.IsIn p) (h' : e'.IsIn q)
    (hname : e.HasPlainName) (hname' : e'.HasPlainName) (hid : e.id = e'.id) :
    p = q ∧ e.kind = e'.kind := by
  have hlist := congrArg String.toList hid
  have hcolon (hkind : e.kind = classKind ∨ e.kind = functionKind)
      (hkind' : e'.kind = classKind ∨ e'.kind = functionKind)
      (heq : p.toList ++ ':' :: e.name.toList = q.toList ++ ':' :: e'.name.toList) : p = q :=
    String.toList_inj.1 (eq_of_append_colon (hname hkind) (hname' hkind') heq)
  obtain ⟨hl, hk⟩ | ⟨hl, hk⟩ | ⟨hl, hk⟩ | ⟨hl, hk⟩ | ⟨hl, hk⟩ := h.toList_id <;>
    obtain ⟨hl', hk'⟩ | ⟨hl', hk'⟩ | ⟨hl', hk'⟩ | ⟨hl', hk'⟩ | ⟨hl', hk'⟩ := h'.toList_id <;>
      rw [hl, hl'] at hlist <;>
        first
          | exact ⟨String.toList_inj.1 (List.append_cancel_left hlist), hk.trans hk'.symm⟩
          | exact ⟨hcolon (.inl hk) (.inl hk') (List.append_cancel_left hlist), hk.trans hk'.symm⟩
          | exact ⟨hcolon (.inr hk) (.inr hk') (List.append_cancel_left hlist), hk.trans hk'.symm⟩
          | exact absurd hlist (by simp)

end Entity

namespace Findings

/-- Whether all entities of some findings belong to a file. -/
def AreIn (path : String) (found : Findings) : Prop := ∀ e ∈ found.entities, e.IsIn path

variable {path : String} {found : Findings}

theorem entities_relate (found : Findings) (source type target : String) (properties : Fields) :
    (found.relate source type target properties).entities = found.entities := by
  rw [relate, addRelationship]
  split <;> rfl

theorem AreIn.relate (h : found.AreIn path) (source type target : String) (properties : Fields) :
    (found.relate source type target properties).AreIn path := by
  rw [AreIn, entities_relate]
  exact h

theorem AreIn.addEntity (h : found.AreIn path) {e : Entity} (he : e.IsIn path) :
    (found.addEntity e).AreIn path := by
  intro e' he'
  rw [Findings.addEntity, List.mem_append, List.mem_singleton] at he'
  obtain he' | rfl := he'
  · exact h e' he'
  · exact he

/-- What outlives each step of a fold outlives the fold. -/
theorem foldl_of_step {α : Type} {P : Findings → Prop}
    {step : Findings → α → Findings} {as : List α}
    (hstep : ∀ found, ∀ a ∈ as, P found → P (step found a)) (h : P found) :
    P (as.foldl step found) := by
  induction as generalizing found with
  | nil => exact h
  | cons a rest ih =>
    exact ih (fun found b hb => hstep found b (List.mem_cons_of_mem _ hb))
      (hstep found a List.mem_cons_self h)

end Findings

namespace Extract

open Syntax (File Node)

variable {file : File} {found : Findings}

theorem areIn_define (h : found.AreIn file.path) (n : Node) {id kind name : String}
    (hid : kind = Entity.classKind ∧ id = Entity.classId file.path name ∨
      kind = Entity.functionKind ∧ id = Entity.functionId file.path name) (metadata : Fields) :
    (define file n id kind name metadata found).AreIn file.path :=
  (h.addEntity ⟨rfl, .inr (.inr (.inr hid))⟩).relate _ _ _ _

theorem areIn_addClass (h : found.AreIn file.path) (n : Node) (name : String)
    (methods properties : List String) (superclass : Option String) :
    (addClass file n name methods properties superclass found).AreIn file.path := by
  have hdefine : (define file n (Entity.classId file.path name) Entity.classKind name
      [("methods", nameList methods), ("properties", nameList properties)] found).AreIn file.path :=
    areIn_define h n (.inl ⟨rfl, rfl⟩) _
  unfold addClass
  cases superclass with
  | none => exact hdefine
  | some base =>
    simp only
    split
    · exact hdefine
    · exact hdefine.relate _ _ _ _

theorem areIn_addFunction (h : found.AreIn file.path) (n : Node) (name : String)
    (params : List String) : (addFunction file n name params found).AreIn file.path :=
  areIn_define h n (.inr ⟨rfl, rfl⟩) _

theorem areIn_addEvent (h : found.AreIn file.path) (method : String) (arguments : Option Node) :
    (addEvent file method arguments found).AreIn file.path := by
  rw [addEvent]
  split
  · split
    · exact h.relate _ _ _ _
    · exact h
  · exact h

theorem areIn_addImport (h : found.AreIn file.path) (module : String) (specifiers : List String) :
    (addImport file module specifiers found).AreIn file.path := h.relate _ _ _ _

/-! ### Trees -/

/-- Whether a property of findings outlives what declarations, imports and events of a file add. -/
structure IsInvariant (file : File) (P : Findings → Prop) : Prop where
  addClass : ∀ {found} n name methods properties superclass, P found →
    P (addClass file n name methods properties superclass found)
  addFunction : ∀ {found} n name params, P found → P (addFunction file n name params found)
  addImport : ∀ {found} module specifiers, P found → P (addImport file module specifiers found)
  addEvent : ∀ {found} method arguments, P found → P (addEvent file method arguments found)

namespace IsInvariant

variable {P : Findings → Prop}

theorem visitScript (hP : IsInvariant file P) (n : Node) (h : P found) :
    P (Script.visit file found n) := by
  rw [Script.visit]
  split
  · rw [Script.visitImport]
    split
    · exact hP.addImport _ _ h
    · exact h
  · rw [Script.visitClass]
    split
    · exact h
    · exact hP.addClass _ _ _ _ _ h
  · rw [Script.visitFunction]
    split
    · exact h
    · exact hP.addFunction _ _ _ h
  · rw [Script.visitCall]
    repeat' split
    all_goals first | exact hP.addEvent _ _ h | exact h
  · exact h

theorem visitOutline (hP : IsInvariant file P) {s : Outline.State} (n : Node) (h : P s.found) :
    P (Outline.visit file s n).found := by
  rw [Outline.visit]
  split
  · exact Findings.foldl_of_step (fun _ _ _ hfound => hP.addImport _ _ hfound) h
  · rw [Outline.visitImportFrom]
    split
    · exact h
    · exact hP.addImport _ _ h
  · rw [Outline.visitClass]
    split
    · exact h
    · exact hP.addClass _ _ _ _ _ h
  · rw [Outline.visitFunction]
    split
    · exact h
    · split
      · exact h
      · exact hP.addFunction _ _ _ h
  · rw [Outline.visitCall]
    split
    · split
      · exact hP.addEvent _ _ h
      · exact h
    · exact h
  · exact h

theorem walkScript (hP : IsInvariant file P) (root : Node) (h : P found) :
    P (Script.walk file root found) := by
  rw [Script.walk, Node.worklist_eq_preorder]
  exact Findings.foldl_of_step (fun _ n _ hfound => hP.visitScript n hfound) h

theorem walkOutline (hP : IsInvariant file P) (root : Node) (h : P found) :
    P (Outline.walk file root found) := by
  rw [Outline.walk, Node.worklist_eq_preorder]
  suffices hwalk : ∀ (ns : List Node) (s : Outline.State), P s.found →
      P (ns.foldl (Outline.visit file) s).found from hwalk _ _ h
  intro ns
  induction ns with
  | nil => exact fun s hs => hs
  | cons n rest ih => exact fun s hs => ih _ (hP.visitOutline n hs)

/-- What outlives each declaration, import and event holds of what a whole tree yields. -/
theorem walkCode (hP : IsInvariant file P) (language : Language) (h : P found) :
    P (walkCode language file found) := by
  cases language with
  | python => exact hP.walkOutline _ h
  | javascript | typescript | tsx => exact hP.walkScript _ h

end IsInvariant

theorem isInvariant_areIn (file : File) : IsInvariant file fun found => found.AreIn file.path where
  addClass _ _ _ _ _ h := areIn_addClass h _ _ _ _ _
  addFunction _ _ _ h := areIn_addFunction h _ _ _
  addImport _ _ h := areIn_addImport h _ _
  addEvent _ _ h := areIn_addEvent h _ _

/-! ### Files -/

theorem areIn_addPatterns {path : String} {found : Findings} (h : found.AreIn path)
    (text : String) : (addPatterns path text found).AreIn path :=
  Findings.foldl_of_step (P := fun found => found.AreIn path)
    (fun _ _ _ hfound => hfound.relate _ _ _ _) h

theorem areIn_single {path : String} {e : Entity} (h : e.IsIn path) (rs : List Relationship) :
    (Findings.mk [e] rs).AreIn path := fun _ he => List.mem_singleton.1 he ▸ h

/-- What a code file yields comes of the tree of its text. -/
theorem exists_of_code {text path : String} {named : Option String} {found : Findings}
    (h : code text path named = .ok found) :
    ∃ language, found = addPatterns path text (walkCode language (File.ofText path text)
      ⟨[fileEntity path text language.name], []⟩) := by
  rw [code] at h
  obtain ⟨language, -, rfl⟩ := exists_of_map h
  exact ⟨language, rfl⟩

theorem areIn_code {text path : String} {named : Option String} {found : Findings}
    (h : code text path named = .ok found) : found.AreIn path := by
  obtain ⟨language, rfl⟩ := exists_of_code h
  exact areIn_addPatterns ((isInvariant_areIn (File.ofText path text)).walkCode language
    (areIn_single ⟨rfl, .inl ⟨rfl, rfl⟩⟩ [])) text

theorem areIn_document {text path : String} {found : Findings}
    (h : document text path = .ok found) : found.AreIn path := by
  rw [document] at h
  obtain ⟨parts, -, rfl⟩ := exists_of_map h
  exact Findings.foldl_of_step (P := fun found => found.AreIn path)
    (fun _ _ _ hfound => hfound.relate _ _ _ _)
    (areIn_single ⟨rfl, .inr (.inl ⟨rfl, rfl⟩)⟩ _)

theorem areIn_asset {text path : String} {found : Findings}
    (h : asset text path = .ok found) : found.AreIn path := by
  have hsingle (format : String) (keys : List String) (more : Fields) (rs : List Relationship) :
      (Findings.mk [assetEntity text path format keys more] rs).AreIn path :=
    areIn_single ⟨rfl, .inr (.inr (.inl ⟨rfl, rfl⟩))⟩ rs
  simp only [asset, bind, Except.bind] at h
  split at h
  · split at h
    · cases h
    · split at h
      · cases h
        exact hsingle _ _ _ _
      · cases h
        exact hsingle _ _ _ _
  · split at h
    · split at h
      · cases h
      · cases h
        exact hsingle _ _ _ _
    · cases h

/-- What is found in a file belongs to it. -/
theorem areIn_file {text path : String} {found : Findings}
    (h : Extract.file path text = .ok found) :
    found.AreIn path := by
  unfold Extract.file at h
  split at h
  · exact areIn_code (eq_ok_of_mapError h)
  · exact areIn_document (eq_ok_of_mapError h)
  · exact areIn_asset (eq_ok_of_mapError h)
  · cases h

end Extract

/-! ### The last entity of an id -/

/-- The last of some entities with an id. -/
def Entity.lastOf? (entities : List Entity) (id : String) : Option Entity :=
  entities.reverse.find? fun e => e.id == id

namespace Entity

theorem lastOf?_append (entities more : List Entity) (id : String) :
    lastOf? (entities ++ more) id = (lastOf? more id).or (lastOf? entities id) := by
  rw [lastOf?, List.reverse_append, List.find?_append]
  rfl

theorem lastOf?_eq_none_iff {entities : List Entity} {id : String} :
    lastOf? entities id = none ↔ id ∉ entities.map Entity.id := by
  simp only [lastOf?, List.find?_eq_none, List.mem_reverse, beq_iff_eq, List.mem_map, not_exists,
    not_and]

theorem id_of_lastOf? {entities : List Entity} {id : String} {e : Entity}
    (h : lastOf? entities id = some e) : e.id = id := by
  simpa using List.find?_some h

theorem mem_of_lastOf? {entities : List Entity} {id : String} {e : Entity}
    (h : lastOf? entities id = some e) : e ∈ entities :=
  List.mem_reverse.1 (List.mem_of_find?_eq_some h)

/-- What keeps the ids keeps the last entity of an id. -/
theorem lastOf?_map {change : Entity → Entity} (h : ∀ e, (change e).id = e.id)
    (entities : List Entity) (id : String) :
    lastOf? (entities.map change) id = (lastOf? entities id).map change := by
  rw [lastOf?, ← List.map_reverse, List.find?_map, lastOf?]
  congr 2
  funext e
  rw [Function.comp_apply, h]

/-- The last entity of an id is that of those it is among. -/
theorem lastOf?_filter {keep : Entity → Bool} {entities : List Entity} {id : String}
    (h : ∀ e ∈ entities, e.id = id → keep e = true) :
    lastOf? (entities.filter keep) id = lastOf? entities id := by
  induction entities using List.reverseRecOn with
  | nil => rfl
  | append_singleton entities e ih =>
    rw [List.filter_append, lastOf?_append, lastOf?_append,
      ih fun e' he' => h e' (List.mem_append_left _ he')]
    by_cases hid : e.id = id
    · rw [List.filter_cons_of_pos (h e (by simp) hid), List.filter_nil]
    · have hnone (keep : Entity → Bool) : lastOf? ([e].filter keep) id = none := by
        rw [lastOf?_eq_none_iff]
        simp [hid]
      rw [hnone, ← List.filter_true [e], hnone]

end Entity

end RepoGraph
