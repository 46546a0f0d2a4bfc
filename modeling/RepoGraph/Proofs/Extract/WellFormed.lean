import RepoGraph.Proofs.Extract.Account
import RepoGraph.Proofs.Extract.Kept

/-!
# What is found in a file is well formed

The id of a relationship joins its source, its type and its target by hyphens, and a path or a
target may have hyphens of its own.  Still two relationships that one file offers never clash: a
type has none, and the sources of a file are its own entity and its classes, which begin alike, with
the path, and end in names without one.  So what is left out of what was offered is there already.

Main statements: `Relationship.isSame_of_idOf`, `Findings.isWellFormed_take`,
`Extract.isWellFormed_findings`.
-/

namespace RepoGraph

/-! ### Ids of relationships -/

namespace Relationship

/-- Whether two relationships are the same edge. -/
structure IsSame (r r' : Relationship) : Prop where
  source : r.source = r'.source
  type : r.type = r'.type
  target : r.target = r'.target

variable {source type type' target target' : String}

theorem toList_idOf (source type target : String) : (idOf source type target).toList =
    source.toList ++ '-' :: ((Text.lower type).toList ++ '-' :: target.toList) := by
  simp [idOf]

theorem hyphen_not_mem_lower (h : isKnownType type = true) : '-' ∉ (Text.lower type).toList := by
  have hall : ∀ type ∈ vocabulary, '-' ∉ (Text.lower type).toList := by decide +kernel
  exact hall type (List.contains_iff_mem.1 h)

theorem eq_of_lower_eq (h : isKnownType type = true) (h' : isKnownType type' = true)
    (hlower : Text.lower type = Text.lower type') : type = type' := by
  have hall : ∀ type ∈ vocabulary, ∀ type' ∈ vocabulary,
      Text.lower type = Text.lower type' → type = type' := by decide
  exact hall type (List.contains_iff_mem.1 h) type' (List.contains_iff_mem.1 h') hlower

/-- From one source, an id tells the type and the target. -/
theorem eq_of_idOf_eq (h : isKnownType type = true) (h' : isKnownType type' = true)
    (hid : idOf source type target = idOf source type' target') :
    type = type' ∧ target = target' := by
  have hlist := congrArg String.toList hid
  rw [toList_idOf, toList_idOf] at hlist
  obtain ⟨hlower, htarget⟩ := Text.eq_of_append_cons (hyphen_not_mem_lower h)
    (hyphen_not_mem_lower h') (List.cons.inj (List.append_cancel_left hlist)).2
  exact ⟨eq_of_lower_eq h h' (String.toList_inj.1 hlower), String.toList_inj.1 htarget⟩

variable {path name name' : String}

/-- From classes of one file, an id tells the class: what it is made of begins with the path. -/
theorem eq_of_idOf_class_eq (hname : '-' ∉ name.toList) (hname' : '-' ∉ name'.toList)
    (hid : idOf (Entity.classId path name) type target =
      idOf (Entity.classId path name') type' target') : name = name' := by
  have hlist := congrArg String.toList hid
  simp only [toList_idOf, Entity.classId, String.toList_append, List.append_assoc,
    List.append_cancel_left_eq] at hlist
  exact String.toList_inj.1 (Text.eq_of_append_cons hname hname' hlist).1

theorem idOf_file_ne_class :
    idOf (Entity.fileId path) type target ≠ idOf (Entity.classId path name) type' target' := by
  intro hid
  have hlist := congrArg String.toList hid
  simp [toList_idOf, Entity.fileId, Entity.classId] at hlist

end Relationship

/-! ### Well-formed findings -/

namespace Findings

/-- Whether what was found in a file is well formed, where some relationships were offered. -/
structure IsWellFormed (path : String) (offered : List Relationship) (found : Findings) : Prop where
  /-- The entities are of the file. -/
  path_eq : ∀ e ∈ found.entities, e.path = path
  /-- A relationship begins at one of them. -/
  source_mem : ∀ r ∈ found.relationships, ∃ e ∈ found.entities, e.id = r.source
  /-- The stores know its type. -/
  isKnownType : ∀ r ∈ found.relationships, Relationship.isKnownType r.type = true
  nodup_ids : found.relationshipIds.Nodup
  mem_offered : ∀ r ∈ found.relationships, r ∈ offered
  /-- What is left out is there already. -/
  exists_isSame : ∀ r ∈ offered, ∃ r' ∈ found.relationships, r'.id = r.id ∧ r'.IsSame r
  /-- An id stands for one edge. -/
  isSame_of_id : ∀ r ∈ offered, ∀ r' ∈ offered, r.id = r'.id → r.IsSame r'
  /-- What a file defines are its classes and functions. -/
  defines_iff : ∀ id,
    (∃ r ∈ found.relationships, r.source = Entity.fileId path ∧ r.type = Relationship.defines ∧
      r.target = id) ↔
    ∃ e ∈ found.entities, (e.kind = Entity.classKind ∨ e.kind = Entity.functionKind) ∧ e.id = id

variable {path : String} {entities : List Entity} {a : Account}

/-- Whether what is offered fits the entities of a file. -/
structure Fits (path : String) (entities : List Entity) (offered : List Relationship) : Prop where
  source_mem : ∀ r ∈ offered, ∃ e ∈ entities, e.id = r.source
  isKnownType : ∀ r ∈ offered, Relationship.isKnownType r.type = true
  isSame_of_id : ∀ r ∈ offered, ∀ r' ∈ offered, r.id = r'.id → r.IsSame r'
  exists_of_defines : ∀ r ∈ offered, r.source = Entity.fileId path → r.type = Relationship.defines →
    ∃ e ∈ entities, (e.kind = Entity.classKind ∨ e.kind = Entity.functionKind) ∧ e.id = r.target
  isDefined : ∀ e ∈ entities, e.kind = Entity.classKind ∨ e.kind = Entity.functionKind →
    ∃ r ∈ offered, r.source = Entity.fileId path ∧ r.type = Relationship.defines ∧ r.target = e.id

/-- What fits is well formed once it is taken. -/
theorem isWellFormed_take (hpath : ∀ e ∈ entities ++ a.entities, e.path = path)
    (h : Fits path (entities ++ a.entities) a.offered) :
    (take ⟨entities, []⟩ a).IsWellFormed path a.offered := by
  have hmem : ∀ r ∈ (take ⟨entities, []⟩ a).relationships, r ∈ a.offered := fun r hr =>
    (Relationship.mem_or_mem_of_mem_gather hr).resolve_left List.not_mem_nil
  have hsame : ∀ r ∈ a.offered, ∃ r' ∈ (take ⟨entities, []⟩ a).relationships,
      r'.id = r.id ∧ r'.IsSame r := by
    intro r hr
    obtain ⟨r', hr', hid⟩ : ∃ r' ∈ (take ⟨entities, []⟩ a).relationships, r'.id = r.id :=
      Relationship.exists_mem_gather hr
    exact ⟨r', hr', hid, h.isSame_of_id r' (hmem r' hr') r hr hid⟩
  refine ⟨hpath, fun r hr => h.source_mem r (hmem r hr), fun r hr => h.isKnownType r (hmem r hr),
    Relationship.nodup_gather List.nodup_nil, hmem, hsame, h.isSame_of_id, fun id => ⟨?_, ?_⟩⟩
  · rintro ⟨r, hr, hsource, htype, rfl⟩
    exact h.exists_of_defines r (hmem r hr) hsource htype
  · rintro ⟨e, he, hkind, rfl⟩
    obtain ⟨r, hr, hsource, htype, htarget⟩ := h.isDefined e he hkind
    obtain ⟨r', hr', -, hedge⟩ := hsame r hr
    exact ⟨r', hr', hedge.source.trans hsource, hedge.type.trans htype, hedge.target.trans htarget⟩

end Findings

/-! ### Code -/

namespace Account

/-- Whether an account is one of classes, functions and edges of a code file. -/
structure IsOfCode (path : String) (a : Account) : Prop where
  /-- The entities are classes and functions of the file. -/
  declared : ∀ e ∈ a.entities, e.path = path ∧
    (e.kind = Entity.classKind ∧ e.id = Entity.classId path e.name ∨
      e.kind = Entity.functionKind ∧ e.id = Entity.functionId path e.name)
  isKnownType : ∀ r ∈ a.offered, Relationship.isKnownType r.type = true
  id_eq : ∀ r ∈ a.offered, r.id = Relationship.idOf r.source r.type r.target
  /-- Edges begin at the file or at one of the classes. -/
  source : ∀ r ∈ a.offered, r.source = Entity.fileId path ∨
    ∃ e ∈ a.entities, e.kind = Entity.classKind ∧ r.source = e.id
  exists_of_defines : ∀ r ∈ a.offered, r.type = Relationship.defines →
    ∃ e ∈ a.entities, e.id = r.target
  isDefined : ∀ e ∈ a.entities, ∃ r ∈ a.offered, r.source = Entity.fileId path ∧
    r.type = Relationship.defines ∧ r.target = e.id

variable {path : String} {a b : Account}

theorem isOfCode_nothing : IsOfCode path nothing := by
  constructor <;> exact fun _ h => nomatch h

theorem IsOfCode.append (ha : IsOfCode path a) (hb : IsOfCode path b) : IsOfCode path (a ++ b) where
  declared e he := (List.mem_append.1 he).elim (ha.declared e) (hb.declared e)
  isKnownType r hr := (List.mem_append.1 hr).elim (ha.isKnownType r) (hb.isKnownType r)
  id_eq r hr := (List.mem_append.1 hr).elim (ha.id_eq r) (hb.id_eq r)
  source r hr := by
    obtain hr | hr := List.mem_append.1 hr
    · exact (ha.source r hr).imp_right fun ⟨e, he, h⟩ => ⟨e, List.mem_append_left _ he, h⟩
    · exact (hb.source r hr).imp_right fun ⟨e, he, h⟩ => ⟨e, List.mem_append_right _ he, h⟩
  exists_of_defines r hr htype := by
    obtain hr | hr := List.mem_append.1 hr
    · obtain ⟨e, he, h⟩ := ha.exists_of_defines r hr htype
      exact ⟨e, List.mem_append_left _ he, h⟩
    · obtain ⟨e, he, h⟩ := hb.exists_of_defines r hr htype
      exact ⟨e, List.mem_append_right _ he, h⟩
  isDefined e he := by
    obtain he | he := List.mem_append.1 he
    · obtain ⟨r, hr, h⟩ := ha.isDefined e he
      exact ⟨r, List.mem_append_left _ hr, h⟩
    · obtain ⟨r, hr, h⟩ := hb.isDefined e he
      exact ⟨r, List.mem_append_right _ hr, h⟩

theorem isOfCode_all {α : Type} {account : α → Account} (h : ∀ x, IsOfCode path (account x))
    (xs : List α) : IsOfCode path (all (xs.map account)) := by
  induction xs with
  | nil => exact isOfCode_nothing
  | cons x rest ih => exact (h x).append ih

/-- An edge that defines nothing, from the file or from one of the classes. -/
theorem IsOfCode.edge (ha : IsOfCode path a) {source type : String}
    (hsource : source = Entity.fileId path ∨ ∃ e ∈ a.entities, e.kind = Entity.classKind ∧
      source = e.id)
    (hknown : Relationship.isKnownType type = true) (hne : type ≠ Relationship.defines)
    (target : String) (properties : Fields) :
    IsOfCode path (a ++ .edge source type target properties) := by
  have hentities : (a ++ Account.edge source type target properties).entities = a.entities :=
    List.append_nil _
  have hoffered : ∀ r ∈ (a ++ Account.edge source type target properties).offered,
      r ∈ a.offered ∨ r = Relationship.create source type target properties := fun r hr =>
    (List.mem_append.1 hr).imp_right List.mem_singleton.1
  constructor
  · rw [hentities]
    exact ha.declared
  · intro r hr
    obtain hr | rfl := hoffered r hr
    · exact ha.isKnownType r hr
    · exact hknown
  · intro r hr
    obtain hr | rfl := hoffered r hr
    · exact ha.id_eq r hr
    · rfl
  · intro r hr
    rw [hentities]
    obtain hr | rfl := hoffered r hr
    · exact ha.source r hr
    · exact hsource
  · intro r hr htype
    rw [hentities]
    obtain hr | rfl := hoffered r hr
    · exact ha.exists_of_defines r hr htype
    · exact absurd htype hne
  · intro e he
    rw [hentities] at he
    obtain ⟨r, hr, h⟩ := ha.isDefined e he
    exact ⟨r, List.mem_append_left _ hr, h⟩

theorem isOfCode_edge {type : String} (hknown : Relationship.isKnownType type = true)
    (hne : type ≠ Relationship.defines) (target : String) (properties : Fields) :
    IsOfCode path (edge (Entity.fileId path) type target properties) :=
  isOfCode_nothing.edge (.inl rfl) hknown hne target properties

end Account

namespace Extract

open Syntax (File Node Span)
open Account (IsOfCode isOfCode_nothing isOfCode_edge isOfCode_all)

variable {file : File} {path text : String}

theorem isOfCode_definition (n : Node) {id kind name : String}
    (hid : kind = Entity.classKind ∧ id = Entity.classId file.path name ∨
      kind = Entity.functionKind ∧ id = Entity.functionId file.path name) (metadata : Fields) :
    IsOfCode file.path (definition file n id kind name metadata) := by
  have hknown : Relationship.isKnownType Relationship.defines = true := by decide
  constructor
  all_goals
    intro x hx
    obtain rfl := List.mem_singleton.1 hx
  · exact ⟨rfl, hid⟩
  · exact hknown
  · rfl
  · exact .inl rfl
  · exact fun _ => ⟨_, List.mem_singleton_self _, rfl⟩
  · exact ⟨_, List.mem_singleton_self _, rfl, rfl, rfl⟩

theorem isOfCode_classAccount (n : Node) (name : String) (methods properties : List String)
    (superclass : Option String) :
    IsOfCode file.path (classAccount file n name methods properties superclass) := by
  have hdefinition : IsOfCode file.path (definition file n (Entity.classId file.path name)
      Entity.classKind name [("methods", nameList methods), ("properties", nameList properties)]) :=
    isOfCode_definition n (.inl ⟨rfl, rfl⟩) _
  unfold classAccount
  cases superclass with
  | none => exact hdefinition.append isOfCode_nothing
  | some base =>
    dsimp only
    split
    · exact hdefinition.append isOfCode_nothing
    · exact hdefinition.edge (.inr ⟨_, List.mem_singleton_self _, rfl, rfl⟩) (by decide)
        (by decide) _ _

theorem isOfCode_functionAccount (n : Node) (name : String) (params : List String) :
    IsOfCode file.path (functionAccount file n name params) :=
  isOfCode_definition n (.inr ⟨rfl, rfl⟩) _

theorem isOfCode_importAccount (module : String) (specifiers : List String) :
    IsOfCode file.path (importAccount file module specifiers) :=
  isOfCode_edge (by decide) (by decide) _ _

theorem isOfCode_eventAccount (method : String) (arguments : Option Node) :
    IsOfCode file.path (eventAccount file method arguments) := by
  unfold eventAccount
  split
  · rename_i type event hevent
    rw [event?] at hevent
    obtain ⟨found, htype, hevent⟩ := Option.bind_eq_some_iff.1 hevent
    obtain ⟨first, -, hevent⟩ := Option.bind_eq_some_iff.1 hevent
    obtain ⟨value, -, hvalue⟩ := Option.map_eq_some_iff.1 hevent
    obtain ⟨rfl, rfl⟩ := Prod.mk.inj hvalue
    rw [eventType?] at htype
    split at htype
    · cases htype
      exact isOfCode_edge (by decide) (by decide) _ _
    · split at htype <;> cases htype
      exact isOfCode_edge (by decide) (by decide) _ _
  · exact isOfCode_nothing

theorem Script.isOfCode_account (n : Node) : IsOfCode file.path (account file n) := by
  unfold account
  repeat' split
  all_goals first
    | exact isOfCode_nothing
    | exact isOfCode_importAccount _ _
    | exact isOfCode_classAccount _ _ _ _ _
    | exact isOfCode_functionAccount _ _ _
    | exact isOfCode_eventAccount _ _

theorem Outline.isOfCode_account (methodSpans : List Span) (n : Node) :
    IsOfCode file.path (account file methodSpans n) := by
  unfold account
  repeat' split
  all_goals first
    | exact isOfCode_nothing
    | exact isOfCode_all (fun _ => isOfCode_importAccount _ _) _
    | exact isOfCode_importAccount _ _
    | exact isOfCode_classAccount _ _ _ _ _
    | exact isOfCode_functionAccount _ _ _
    | exact isOfCode_eventAccount _ _

theorem Outline.isOfCode_accounts (methodSpans : List Span) (ns : List Node) :
    IsOfCode file.path (accounts file methodSpans ns) := by
  induction ns generalizing methodSpans with
  | nil => exact isOfCode_nothing
  | cons n rest ih => exact (isOfCode_account methodSpans n).append (ih _)

/-- What a code file tells besides itself is of its classes, its functions and its edges. -/
theorem isOfCode_codeAccount (language : Language) (path text : String) (root : Node) :
    IsOfCode path (codeAccount language path text root) := by
  have htree : IsOfCode (File.ofText path text).path
      (treeAccount language (File.ofText path text) root) := by
    cases language with
    | python => exact Outline.isOfCode_accounts [] root.preorder
    | javascript | typescript | tsx => exact isOfCode_all Script.isOfCode_account _
  exact htree.append (isOfCode_all (fun _ => isOfCode_edge (by decide) (by decide) _ _) _)

/-- What one code file offers does not clash, as long as the names of its classes have no hyphen. -/
theorem isSame_of_isOfCode {a : Account} (h : a.IsOfCode path)
    (hnames : ∀ e ∈ a.entities, e.kind = Entity.classKind → '-' ∉ e.name.toList) :
    ∀ r ∈ a.offered, ∀ r' ∈ a.offered, r.id = r'.id → r.IsSame r' := by
  have hclass : ∀ r : Relationship, (∃ e ∈ a.entities, e.kind = Entity.classKind ∧
      r.source = e.id) →
      ∃ name, '-' ∉ name.toList ∧ r.source = Entity.classId path name := by
    rintro r ⟨e, he, hkind, hsource⟩
    refine ⟨e.name, hnames e he hkind, hsource.trans ?_⟩
    obtain ⟨-, ⟨-, hid⟩ | ⟨hfunction, -⟩⟩ := h.declared e he
    · exact hid
    · exact absurd (hkind.symm.trans hfunction) (by decide)
  intro r hr r' hr' hid
  rw [h.id_eq r hr, h.id_eq r' hr'] at hid
  -- equal ids come from equal sources: a file and a class never give one id
  have hsource : r.source = r'.source := by
    obtain hfile | hof := h.source r hr <;> obtain hfile' | hof' := h.source r' hr'
    · exact hfile.trans hfile'.symm
    · obtain ⟨name', -, hclass'⟩ := hclass r' hof'
      rw [hfile, hclass'] at hid
      exact absurd hid Relationship.idOf_file_ne_class
    · obtain ⟨name, -, hclass⟩ := hclass r hof
      rw [hfile', hclass] at hid
      exact absurd hid.symm Relationship.idOf_file_ne_class
    · obtain ⟨name, hname, heq⟩ := hclass r hof
      obtain ⟨name', hname', heq'⟩ := hclass r' hof'
      rw [heq, heq'] at hid ⊢
      rw [Relationship.eq_of_idOf_class_eq hname hname' hid]
  rw [hsource] at hid
  obtain ⟨htype, htarget⟩ :=
    Relationship.eq_of_idOf_eq (h.isKnownType r hr) (h.isKnownType r' hr') hid
  exact ⟨hsource, htype, htarget⟩

theorem fits_of_isOfCode {a : Account} {e : Entity} (he : e.kind = Entity.fileKind)
    (hid : e.id = Entity.fileId path) (h : a.IsOfCode path)
    (hnames : ∀ e ∈ a.entities, e.kind = Entity.classKind → '-' ∉ e.name.toList) :
    Findings.Fits path ([e] ++ a.entities) a.offered where
  source_mem r hr := by
    obtain hfile | ⟨e', he', -, hsource⟩ := h.source r hr
    · exact ⟨e, List.mem_cons_self, hid.trans hfile.symm⟩
    · exact ⟨e', List.mem_append_right _ he', hsource.symm⟩
  isKnownType := h.isKnownType
  isSame_of_id := isSame_of_isOfCode h hnames
  exists_of_defines r hr _ htype := by
    obtain ⟨e', he', htarget⟩ := h.exists_of_defines r hr htype
    exact ⟨e', List.mem_append_right _ he', (h.declared e' he').2.imp And.left And.left, htarget⟩
  isDefined e' he' hkind := by
    obtain he' | he' := List.mem_append.1 he'
    · rw [List.mem_singleton.1 he', he] at hkind
      exact absurd hkind (by decide)
    · exact h.isDefined e' he'

/-! ### Documents and assets -/

/-- The edges that a document offers, by type and target. -/
def documentEdges (fields : Fields) (body : String) : List (String × String × Fields) :=
  let cs := body.toList
  ((spanNames cs.length cs).map fun name => (Relationship.documents, Entity.fileId name, [])) ++
    (((links cs.length cs).filter fun l => l.2.endsWith ".md").map fun (label, target) =>
      (Relationship.linksTo, Entity.documentId target, [("text", Json.str label)])) ++
    ((listed fields "relates_to").map fun v => (Relationship.relatesTo, v.display, [])) ++
    ((listed fields "documents").map fun v => (Relationship.documents, v.display, []))

/-- Edges that all begin at one entity. -/
def edgesFrom (source : String) (edges : List (String × String × Fields)) : Account :=
  ⟨[], edges.map fun (type, target, properties) =>
    Relationship.create source type target properties⟩

theorem foldl_relate (source : String) (edges : List (String × String × Fields))
    (found : Findings) :
    edges.foldl (fun acc (type, target, properties) => acc.relate source type target properties)
      found = found.take (edgesFrom source edges) := by
  induction edges generalizing found with
  | nil => exact found.take_nothing.symm
  | cons edge rest ih =>
    obtain ⟨type, target, properties⟩ := edge
    rw [List.foldl_cons, ih]
    dsimp only
    rw [Findings.relate_eq, ← Findings.take_append]
    rfl

/-- What one entity offers that is no file, class or function fits it, if it defines nothing. -/
theorem fits_edgesFrom {e : Entity} {edges : List (String × String × Fields)}
    (hkind : ¬ (e.kind = Entity.classKind ∨ e.kind = Entity.functionKind))
    (hknown : ∀ edge ∈ edges, Relationship.isKnownType edge.1 = true ∧
      edge.1 ≠ Relationship.defines) :
    Findings.Fits path ([e] ++ (edgesFrom e.id edges).entities) (edgesFrom e.id edges).offered := by
  have hoffered : ∀ r ∈ (edgesFrom e.id edges).offered, r.source = e.id ∧
      r.id = Relationship.idOf e.id r.type r.target ∧ Relationship.isKnownType r.type = true ∧
      r.type ≠ Relationship.defines := by
    intro r hr
    obtain ⟨edge, hedge, rfl⟩ := List.mem_map.1 hr
    exact ⟨rfl, rfl, hknown edge hedge⟩
  refine ⟨fun r hr => ⟨e, List.mem_cons_self, (hoffered r hr).1.symm⟩,
    fun r hr => (hoffered r hr).2.2.1, fun r hr r' hr' hid => ?_,
    fun r hr _ htype => absurd htype (hoffered r hr).2.2.2, fun e' he' hkind' => ?_⟩
  · obtain ⟨hsource, hr, hknown, -⟩ := hoffered r hr
    obtain ⟨hsource', hr', hknown', -⟩ := hoffered r' hr'
    rw [hr, hr'] at hid
    obtain ⟨htype, htarget⟩ := Relationship.eq_of_idOf_eq hknown hknown' hid
    exact ⟨hsource.trans hsource'.symm, htype, htarget⟩
  · rw [List.mem_singleton.1 (he' : e' ∈ [e] ++ [])] at hkind'
    exact absurd hkind' hkind

variable {found : Findings}

theorem exists_of_document (h : document text path = .ok found) : ∃ fields body entity,
    FrontMatter.read text = .ok (fields, body) ∧ entity.kind = Entity.documentKind ∧
      entity.path = path ∧
      found = Findings.take ⟨[entity], []⟩ (edgesFrom entity.id (documentEdges fields body)) := by
  rw [document] at h
  obtain ⟨⟨fields, body⟩, hread, h⟩ := exists_of_bind h
  cases h
  exact ⟨fields, body, _, hread, rfl, rfl, foldl_relate _ (documentEdges fields body) _⟩

theorem isKnownType_documentEdges (fields : Fields) (body : String) :
    ∀ edge ∈ documentEdges fields body, Relationship.isKnownType edge.1 = true ∧
      edge.1 ≠ Relationship.defines := by
  have hall : ∀ type ∈ [Relationship.documents, Relationship.linksTo, Relationship.relatesTo],
      Relationship.isKnownType type = true ∧ type ≠ Relationship.defines := by decide
  intro edge hedge
  refine hall edge.1 ?_
  simp only [documentEdges, List.mem_append, List.mem_map] at hedge
  obtain ((⟨_, _, rfl⟩ | ⟨_, _, rfl⟩) | ⟨_, _, rfl⟩) | ⟨_, _, rfl⟩ := hedge <;> simp

/-- The edges that a manifest offers, by type and target. -/
def packageEdges (packages : Fields) : List (String × String × Fields) :=
  packages.map fun (name, version) =>
    (Relationship.dependsOnPackage, "package:" ++ name, [("version", version)])

theorem isKnownType_packageEdges (packages : Fields) :
    ∀ edge ∈ packageEdges packages, Relationship.isKnownType edge.1 = true ∧
      edge.1 ≠ Relationship.defines := by
  have htype : Relationship.isKnownType Relationship.dependsOnPackage = true ∧
      Relationship.dependsOnPackage ≠ Relationship.defines := by decide
  intro edge hedge
  obtain ⟨package, -, rfl⟩ := List.mem_map.1 hedge
  exact htype

/-- Packages of different names are different edges. -/
theorem gather_packageEdges {packages : Fields} (h : packages.names.Nodup) (source : String) :
    Relationship.gather [] (edgesFrom source (packageEdges packages)).offered =
      (edgesFrom source (packageEdges packages)).offered := by
  refine Relationship.gather_of_nodup ?_
  have hids : ([] ++ (edgesFrom source (packageEdges packages)).offered).map Relationship.id =
      packages.names.map fun name =>
        Relationship.idOf source Relationship.dependsOnPackage ("package:" ++ name) := by
    simp [edgesFrom, packageEdges, Fields.names, Relationship.create]
  rw [hids]
  refine h.map fun name other heq => ?_
  exact (String.append_right_inj _).1 (Relationship.eq_of_idOf_eq (by decide) (by decide) heq).2

theorem exists_of_asset (h : asset text path = .ok found) : ∃ entity packages,
    entity.kind = Entity.assetKind ∧ entity.path = path ∧ found.entities = [entity] ∧
      found.relationships = (edgesFrom entity.id (packageEdges packages)).offered ∧
      packages.names.Nodup := by
  rw [asset] at h
  simp only at h
  split at h
  · obtain ⟨v, hread, h⟩ := exists_of_bind h
    split at h
    · -- the fields of an object that was read have different names
      have hfields : (Json.obj (v.obj?.getD [])).IsKept := by
        have hv := Json.isKept_of_read (eq_ok_of_mapError hread)
        cases v with
        | obj fields => exact hv
        | _ => exact .noFields
      have hnames : (dependencies (v.obj?.getD [])).names.Nodup := by
        cases isKept_dependencies hfields with
        | obj hnames _ => exact hnames
      cases h
      refine ⟨_, _, by rfl, by rfl, rfl, ?_, hnames⟩
      simp [edgesFrom, packageEdges, assetEntity]
    · cases h
      exact ⟨_, [], by rfl, by rfl, rfl, by rfl, List.nodup_nil⟩
  · split at h
    · obtain ⟨keys, -, h⟩ := exists_of_bind h
      cases h
      exact ⟨_, [], by rfl, by rfl, rfl, by rfl, List.nodup_nil⟩
    · cases h

/-! ### All files -/

/-- What is found in a code file, whatever its tree is, in a document and in an asset is well
formed. -/
theorem isWellFormed_findings (path text : String) :
    (∀ named found, code text path named = .ok found → ∃ language,
      languageOf path named = .ok language ∧
        found = codeOfTree language path text (treeOf language (File.ofText path text).chars)) ∧
    (∀ language root,
      (∀ e ∈ (codeOfTree language path text root).entities, e.kind = Entity.classKind →
        '-' ∉ e.name.toList) →
      (∃ declared, (codeOfTree language path text root).entities =
          fileEntity path text language.name :: declared ∧
        ∀ e ∈ declared, e.kind = Entity.classKind ∨ e.kind = Entity.functionKind) ∧
      (codeOfTree language path text root).IsWellFormed path
        (codeAccount language path text root).offered) ∧
    (∀ found, document text path = .ok found → ∃ fields body entity,
      FrontMatter.read text = .ok (fields, body) ∧ found.entities = [entity] ∧
        entity.kind = Entity.documentKind ∧ found.IsWellFormed path
          (edgesFrom entity.id (documentEdges fields body)).offered) ∧
    ∀ found, asset text path = .ok found → ∃ entity, found.entities = [entity] ∧
      entity.kind = Entity.assetKind ∧ found.IsWellFormed path found.relationships := by
  refine ⟨fun named found h => exists_codeOfTree h, fun language root hnames => ?_,
    fun found h => ?_, fun found h => ?_⟩
  · -- the account of a code file, of a document and of an asset in turn
    have hcode := isOfCode_codeAccount language path text root
    rw [codeOfTree_eq] at hnames ⊢
    refine ⟨⟨_, rfl, fun e he => (hcode.declared e he).2.imp And.left And.left⟩,
      Findings.isWellFormed_take ?_ (fits_of_isOfCode rfl rfl hcode fun e he =>
        hnames e (List.mem_append_right _ he))⟩
    intro e he
    obtain he | he := List.mem_append.1 he
    · rw [List.mem_singleton.1 he]
      rfl
    · exact (hcode.declared e he).1
  · obtain ⟨fields, body, entity, hread, hkind, hpath, rfl⟩ := exists_of_document h
    refine ⟨fields, body, entity, hread, rfl, hkind, Findings.isWellFormed_take
      (List.forall_mem_singleton.2 hpath)
        (fits_edgesFrom ?_ (isKnownType_documentEdges fields body))⟩
    rw [hkind]
    decide
  · obtain ⟨entity, packages, hkind, hpath, hentities, hrelationships, hnames⟩ := exists_of_asset h
    have hfound : found = Findings.take ⟨[entity], []⟩
        (edgesFrom entity.id (packageEdges packages)) := by
      rw [Findings.take, gather_packageEdges hnames, ← hrelationships]
      exact congrArg (Findings.mk · found.relationships) hentities
    refine ⟨entity, hentities, hkind, ?_⟩
    rw [hrelationships, hfound]
    refine Findings.isWellFormed_take (List.forall_mem_singleton.2 hpath)
      (fits_edgesFrom ?_ (isKnownType_packageEdges packages))
    rw [hkind]
    decide

/-- A class, in a file whose path has hyphens. -/
def hyphenSource : String := "class A extends B {}\n"

@[inherit_doc hyphenSource]
def hyphenPath : String := "a-extends-b.js"

/-- A manifest with a package whose name has a hyphen. -/
def hyphenManifest : String := "\x7b\"dependencies\": \x7b\"a-b\": \"1\"\x7d\x7d"

theorem isWellFormed_findings_hyphens :
    (∃ found, code hyphenSource hyphenPath none = .ok found ∧
      found.IsWellFormed hyphenPath (codeAccount .javascript hyphenPath hyphenSource
        (treeOf .javascript (File.ofText hyphenPath hyphenSource).chars)).offered) ∧
    ∃ found, asset hyphenManifest "package.json" = .ok found ∧
      found.relationshipIds = ["asset:package.json-depends_on_package-package:a-b"] ∧
      found.IsWellFormed "package.json" found.relationships := by
  constructor
  · refine ⟨_, rfl, ((isWellFormed_findings hyphenPath hyphenSource).2.1 .javascript
      (treeOf .javascript (File.ofText hyphenPath hyphenSource).chars) ?_).2⟩
    decide +kernel
  · have hids : (asset hyphenManifest "package.json").toOption.map Findings.relationshipIds =
        some ["asset:package.json-depends_on_package-package:a-b"] := by decide +kernel
    cases hasset : asset hyphenManifest "package.json" with
    | error fault =>
      rw [hasset] at hids
      cases hids
    | ok found =>
      rw [hasset] at hids
      obtain ⟨_, -, -, h⟩ :=
        (isWellFormed_findings "package.json" hyphenManifest).2.2.2 found hasset
      exact ⟨found, rfl, Option.some.inj hids, h⟩

end Extract

end RepoGraph
