import RepoGraph.Proofs.Extract.WellFormed
import RepoGraph.Proofs.Syntax.Tree

/-!
# What is offered of one type

A walk offers edges of several types; a question about one type of them needs only the steps that
offer some.  Of the edges of one id the first that is offered is kept.

Main statements: `Relationship.find?_gather`, `Account.ofType_all`,
`Extract.Outline.ofType_accounts`.
-/

namespace RepoGraph

namespace Relationship

/-- Of the relationships with an id, the first one that is offered is kept. -/
theorem find?_gather (kept offered : List Relationship) (id : String) :
    (gather kept offered).find? (fun r => r.id == id) =
      (kept ++ offered).find? fun r => r.id == id := by
  induction offered generalizing kept with
  | nil => rw [List.append_nil]; rfl
  | cons first rest ih =>
    have hstep : gather kept (first :: rest) = gather (add kept first) rest := rfl
    rw [hstep, ih, add]
    split
    · rename_i hmem
      obtain ⟨r, hr, hid⟩ := List.mem_map.1 (List.contains_iff_mem.1 hmem)
      rw [List.find?_append, List.find?_append, List.find?_cons]
      split
      · -- one of this id is kept already, so neither list is searched any further
        rename_i hfirst
        have hsome : (kept.find? fun r => r.id == id).isSome := by
          rw [List.find?_isSome]
          exact ⟨r, hr, by rw [hid]; exact hfirst⟩
        obtain ⟨r', hr'⟩ := Option.isSome_iff_exists.1 hsome
        rw [hr', Option.some_or, Option.some_or]
      · rfl
    · rw [List.append_assoc]
      rfl

/-- Adding and then keeping some is keeping some and then adding, if ids tell what is kept. -/
theorem filter_add {keep : Relationship → Bool} {kept : List Relationship} {r : Relationship}
    (h : ∀ r' ∈ kept, r'.id = r.id → keep r' = keep r) :
    (add kept r).filter keep = if keep r then add (kept.filter keep) r else kept.filter keep := by
  unfold add
  by_cases hmem : r.id ∈ kept.map Relationship.id
  · obtain ⟨r', hr', hid⟩ := List.mem_map.1 hmem
    rw [if_pos (List.contains_iff_mem.2 hmem)]
    split
    · rename_i hkeep
      have hkept : r.id ∈ (kept.filter keep).map Relationship.id :=
        List.mem_map.2 ⟨r', List.mem_filter.2 ⟨hr', (h r' hr' hid).trans hkeep⟩, hid⟩
      rw [if_pos (List.contains_iff_mem.2 hkept)]
    · rfl
  · have hkept : r.id ∉ (kept.filter keep).map Relationship.id := fun hr =>
      hmem ((List.filter_sublist.map _).subset hr)
    rw [if_neg (mt List.contains_iff_mem.1 hmem), List.filter_append]
    split
    · rename_i hkeep
      rw [if_neg (mt List.contains_iff_mem.1 hkept), List.filter_cons_of_pos hkeep, List.filter_nil]
    · rename_i hkeep
      rw [List.filter_cons_of_neg hkeep, List.filter_nil, List.append_nil]

/-- Of what is offered, some may be kept before or after, if ids tell what is kept. -/
theorem filter_gather {keep : Relationship → Bool} {kept offered : List Relationship}
    (h : ∀ r ∈ kept ++ offered, ∀ r' ∈ kept ++ offered, r'.id = r.id → keep r' = keep r) :
    (gather kept offered).filter keep = gather (kept.filter keep) (offered.filter keep) := by
  induction offered generalizing kept with
  | nil => rfl
  | cons first rest ih =>
    have hfirst : first ∈ kept ++ first :: rest := List.mem_append_right _ List.mem_cons_self
    have hmem : ∀ r ∈ add kept first ++ rest, r ∈ kept ++ first :: rest := by
      intro r hr
      obtain hr | hr := List.mem_append.1 hr
      · obtain hr | rfl := mem_add hr
        · exact List.mem_append_left _ hr
        · exact hfirst
      · exact List.mem_append_right _ (List.mem_cons_of_mem _ hr)
    have hstep : gather kept (first :: rest) = gather (add kept first) rest := rfl
    rw [hstep, ih fun r hr r' hr' => h r (hmem r hr) r' (hmem r' hr'),
      filter_add fun r' hr' => h first hfirst r' (List.mem_append_left _ hr'), List.filter_cons]
    split <;> rfl

end Relationship

namespace Account

/-- The relationships of a type that an account offers. -/
def ofType (type : String) (a : Account) : List Relationship :=
  a.offered.filter fun r => r.type == type

variable {type : String}

@[simp]
theorem ofType_nothing : nothing.ofType type = [] := rfl

@[simp]
theorem ofType_append (a b : Account) : (a ++ b).ofType type = a.ofType type ++ b.ofType type :=
  List.filter_append ..

theorem ofType_all {α : Type} (account : α → Account) (xs : List α) :
    (all (xs.map account)).ofType type = xs.flatMap fun x => (account x).ofType type := by
  induction xs with
  | nil => rfl
  | cons x rest ih =>
    have hall : all ((x :: rest).map account) = account x ++ all (rest.map account) := rfl
    rw [hall, ofType_append, ih, List.flatMap_cons]

theorem entities_all {α : Type} (account : α → Account) (xs : List α) :
    (all (xs.map account)).entities = xs.flatMap fun x => (account x).entities := by
  induction xs with
  | nil => rfl
  | cons x rest ih =>
    have hall : all ((x :: rest).map account) = account x ++ all (rest.map account) := rfl
    rw [hall, entities_append, ih, List.flatMap_cons]

theorem ofType_edge_self (source target : String) (properties : Fields) :
    (edge source type target properties).ofType type =
      [Relationship.create source type target properties] :=
  List.filter_cons_of_pos (beq_self_eq_true type)

theorem ofType_edge_of_ne {other : String} (h : other ≠ type) (source target : String)
    (properties : Fields) : (edge source other target properties).ofType type = [] :=
  List.filter_cons_of_neg fun heq => h (beq_iff_eq.1 heq)

end Account

namespace Extract

open Syntax (File Node Span)
open Account (ofType ofType_append ofType_all ofType_edge_of_ne)

variable {file : File} {type : String}

theorem ofType_definition (h : Relationship.defines ≠ type) (n : Node) (id kind name : String)
    (metadata : Fields) : ofType type (definition file n id kind name metadata) = [] :=
  ofType_edge_of_ne h _ _ _

theorem ofType_importAccount (h : Relationship.imports ≠ type) (module : String)
    (specifiers : List String) : ofType type (importAccount file module specifiers) = [] :=
  ofType_edge_of_ne h _ _ _

theorem ofType_classAccount (hdefines : Relationship.defines ≠ type)
    (hextends : Relationship.extendsType ≠ type) (n : Node) (name : String)
    (methods properties : List String) (superclass : Option String) :
    ofType type (classAccount file n name methods properties superclass) = [] := by
  unfold classAccount
  rw [ofType_append, ofType_definition hdefines]
  cases superclass with
  | none => rfl
  | some base =>
    dsimp only
    split
    · rfl
    · exact ofType_edge_of_ne hextends (Entity.classId file.path name) ("class:" ++ base) []

/-- A call subscribes or raises. -/
theorem type_of_event? {method event other : String} {arguments : Option Node}
    (h : event? file method arguments = some (other, event)) :
    other = Relationship.subscribesTo ∨ other = Relationship.emits := by
  obtain ⟨found, htype, hevent⟩ := Option.bind_eq_some_iff.1 h
  obtain ⟨first, -, hevent⟩ := Option.bind_eq_some_iff.1 hevent
  obtain ⟨value, -, hvalue⟩ := Option.map_eq_some_iff.1 hevent
  obtain ⟨rfl, -⟩ := Prod.mk.inj hvalue
  unfold eventType? at htype
  split at htype
  · exact .inl (Option.some.inj htype).symm
  · split at htype <;> cases htype
    exact .inr rfl

theorem ofType_eventAccount (hsubscribes : Relationship.subscribesTo ≠ type)
    (hemits : Relationship.emits ≠ type) (method : String) (arguments : Option Node) :
    ofType type (eventAccount file method arguments) = [] := by
  unfold eventAccount
  split
  · rename_i other event hevent
    obtain rfl | rfl := type_of_event? hevent
    · exact ofType_edge_of_ne hsubscribes _ _ _
    · exact ofType_edge_of_ne hemits _ _ _
  · rfl

theorem entities_eventAccount (method : String) (arguments : Option Node) :
    (eventAccount file method arguments).entities = [] := by
  unfold eventAccount
  split <;> rfl

/-- Marks claim patterns, and tell nothing else. -/
theorem ofType_marks (h : Relationship.implementsPattern ≠ type) (path : String)
    (names : List String) : ofType type (.all (names.map (markAccount path))) = [] := by
  rw [ofType_all, List.flatMap_eq_nil_iff]
  exact fun name _ => ofType_edge_of_ne h _ _ _

/-- Nodes of a script offer an edge of another type than events and definitions only where
they import or are classes. -/
theorem Script.ofType_account_eq_nil (hdefines : Relationship.defines ≠ type)
    (hsubscribes : Relationship.subscribesTo ≠ type) (hemits : Relationship.emits ≠ type) {n : Node}
    (himports : n.kind = .importStatement → Relationship.imports ≠ type)
    (hextends : n.kind = .classDefinition → Relationship.extendsType ≠ type) :
    ofType type (account file n) = [] := by
  unfold account
  cases hkind : n.kind with
  | importStatement =>
    dsimp only
    split
    · exact ofType_importAccount (himports hkind) _ _
    · rfl
  | classDefinition =>
    dsimp only
    split
    · exact ofType_classAccount hdefines (hextends hkind) _ _ _ _ _
    · rfl
  | functionDefinition =>
    dsimp only
    split
    · exact ofType_definition hdefines _ _ _ _ _
    · rfl
  | call =>
    dsimp only
    split
    · split
      · exact ofType_eventAccount hsubscribes hemits _ _
      · rfl
    · rfl
  | _ => rfl

@[inherit_doc Script.ofType_account_eq_nil]
theorem Outline.ofType_account_eq_nil (hdefines : Relationship.defines ≠ type)
    (hsubscribes : Relationship.subscribesTo ≠ type) (hemits : Relationship.emits ≠ type)
    {spans : List Span} {n : Node}
    (himports : n.kind = .importStatement ∨ n.kind = .importFrom → Relationship.imports ≠ type)
    (hextends : n.kind = .classDefinition → Relationship.extendsType ≠ type) :
    ofType type (account file spans n) = [] := by
  unfold account
  cases hkind : n.kind with
  | importStatement =>
    dsimp only
    rw [ofType_all, List.flatMap_eq_nil_iff]
    exact fun child _ => ofType_importAccount (himports (.inl hkind)) _ _
  | importFrom =>
    dsimp only
    split
    · exact ofType_importAccount (himports (.inr hkind)) _ _
    · rfl
  | classDefinition =>
    dsimp only
    split
    · exact ofType_classAccount hdefines (hextends hkind) _ _ _ _ _
    · rfl
  | functionDefinition =>
    dsimp only
    split
    · rfl
    · split
      · exact ofType_definition hdefines _ _ _ _ _
      · rfl
  | call =>
    dsimp only
    split
    · exact ofType_eventAccount hsubscribes hemits _ _
    · rfl
  | _ => rfl

/-- If what a node offers of a type does not depend on the methods announced, a walk offers what its
nodes offer. -/
theorem Outline.ofType_accounts {offers : Node → List Relationship}
    (h : ∀ spans n, ofType type (account file spans n) = offers n) (spans : List Span)
    (ns : List Node) : ofType type (accounts file spans ns) = ns.flatMap offers := by
  induction ns generalizing spans with
  | nil => rfl
  | cons n rest ih => rw [accounts, ofType_append, h, ih, List.flatMap_cons]

theorem ofType_codeAccount (h : Relationship.implementsPattern ≠ type) (language : Language)
    (path text : String) (root : Node) : ofType type (codeAccount language path text root) =
      ofType type (treeAccount language (File.ofText path text) root) := by
  rw [codeAccount, ofType_append, ofType_marks h, List.append_nil]

/-! ### Where edges begin -/

/-- Whether the edges of an account begin at the file, but for those that say what a class extends,
which lead from the class to a bare name. -/
def BeginsAtFile (path : String) (a : Account) : Prop :=
  ∀ r ∈ a.offered, r.type ≠ Relationship.extendsType ∧ r.source = Entity.fileId path ∨
    r.type = Relationship.extendsType ∧ ∃ name base, r.source = Entity.classId path name ∧
      r.target = "class:" ++ base

theorem beginsAtFile_nothing (path : String) : BeginsAtFile path .nothing := fun _ h => nomatch h

theorem BeginsAtFile.append {path : String} {a b : Account} (ha : BeginsAtFile path a)
    (hb : BeginsAtFile path b) : BeginsAtFile path (a ++ b) := fun r hr =>
  (List.mem_append.1 hr).elim (ha r) (hb r)

theorem BeginsAtFile.all {path : String} {α : Type} {account : α → Account}
    (h : ∀ x, BeginsAtFile path (account x)) (xs : List α) :
    BeginsAtFile path (.all (xs.map account)) := by
  induction xs with
  | nil => exact beginsAtFile_nothing path
  | cons x rest ih => exact (h x).append ih

theorem beginsAtFile_edge (path : String) {other : String} (hne : other ≠ Relationship.extendsType)
    (target : String) (properties : Fields) :
    BeginsAtFile path (.edge (Entity.fileId path) other target properties) := by
  intro r hr
  obtain rfl := List.mem_singleton.1 hr
  exact .inl ⟨hne, rfl⟩

theorem beginsAtFile_definition (n : Node) (id kind name : String) (metadata : Fields) :
    BeginsAtFile file.path (definition file n id kind name metadata) := fun r hr =>
  beginsAtFile_edge file.path
    (show Relationship.defines ≠ Relationship.extendsType by decide) _ _ r hr

theorem beginsAtFile_classAccount (n : Node) (name : String) (methods properties : List String)
    (superclass : Option String) :
    BeginsAtFile file.path (classAccount file n name methods properties superclass) := by
  unfold classAccount
  refine (beginsAtFile_definition n _ _ _ _).append ?_
  split
  · split
    · exact beginsAtFile_nothing _
    · intro r hr
      obtain rfl := List.mem_singleton.1 hr
      exact .inr ⟨rfl, name, _, rfl, rfl⟩
  · exact beginsAtFile_nothing _

theorem beginsAtFile_eventAccount (method : String) (arguments : Option Node) :
    BeginsAtFile file.path (eventAccount file method arguments) := by
  unfold eventAccount
  split
  · rename_i other event hevent
    obtain rfl | rfl := type_of_event? hevent
    · exact beginsAtFile_edge file.path (by decide) _ _
    · exact beginsAtFile_edge file.path (by decide) _ _
  · exact beginsAtFile_nothing _

theorem Script.beginsAtFile_account (n : Node) : BeginsAtFile file.path (account file n) := by
  have himports := show Relationship.imports ≠ Relationship.extendsType by decide
  unfold account
  cases n.kind with
  | importStatement =>
    dsimp only
    split
    · exact beginsAtFile_edge file.path himports _ _
    · exact beginsAtFile_nothing _
  | classDefinition =>
    dsimp only
    split
    · exact beginsAtFile_classAccount _ _ _ _ _
    · exact beginsAtFile_nothing _
  | functionDefinition =>
    dsimp only
    split
    · exact beginsAtFile_definition _ _ _ _ _
    · exact beginsAtFile_nothing _
  | call =>
    dsimp only
    split
    · split
      · exact beginsAtFile_eventAccount _ _
      · exact beginsAtFile_nothing _
    · exact beginsAtFile_nothing _
  | _ => exact beginsAtFile_nothing _

theorem Outline.beginsAtFile_account (spans : List Span) (n : Node) :
    BeginsAtFile file.path (account file spans n) := by
  have himports := show Relationship.imports ≠ Relationship.extendsType by decide
  unfold account
  cases n.kind with
  | importStatement => exact .all (fun child => beginsAtFile_edge file.path himports _ _) _
  | importFrom =>
    dsimp only
    split
    · exact beginsAtFile_edge file.path himports _ _
    · exact beginsAtFile_nothing _
  | classDefinition =>
    dsimp only
    split
    · exact beginsAtFile_classAccount _ _ _ _ _
    · exact beginsAtFile_nothing _
  | functionDefinition =>
    dsimp only
    split
    · exact beginsAtFile_nothing _
    · split
      · exact beginsAtFile_definition _ _ _ _ _
      · exact beginsAtFile_nothing _
  | call =>
    dsimp only
    split
    · exact beginsAtFile_eventAccount _ _
    · exact beginsAtFile_nothing _
  | _ => exact beginsAtFile_nothing _

theorem Outline.beginsAtFile_accounts (spans : List Span) (ns : List Node) :
    BeginsAtFile file.path (accounts file spans ns) := by
  induction ns generalizing spans with
  | nil => exact beginsAtFile_nothing _
  | cons n rest ih => exact (Outline.beginsAtFile_account spans n).append (ih _)

/-- Only the edges that say what a class extends begin at classes. -/
theorem beginsAtFile_codeAccount (language : Language) (path text : String) (root : Node) :
    BeginsAtFile path (codeAccount language path text root) := by
  refine BeginsAtFile.append ?_ (.all (fun name => beginsAtFile_edge path (by decide) _ _) _)
  cases language with
  | python => exact Outline.beginsAtFile_accounts [] root.preorder
  | javascript | typescript | tsx => exact .all Script.beginsAtFile_account _

/-- Of what a code file offers, ids tell what classes extend from everything else. -/
theorem isExtends_eq_of_id {language : Language} {path text : String} {root : Node}
    {r r' : Relationship}
    (hr : r ∈ (codeAccount language path text root).offered)
    (hr' : r' ∈ (codeAccount language path text root).offered) (hid : r'.id = r.id) :
    (r'.type != Relationship.extendsType) = (r.type != Relationship.extendsType) := by
  have hcode := isOfCode_codeAccount language path text root
  have hbegins := beginsAtFile_codeAccount language path text root
  rw [hcode.id_eq r hr, hcode.id_eq r' hr'] at hid
  obtain ⟨hne, hsource⟩ | ⟨htype, name, base, hsource, -⟩ := hbegins r hr <;>
    obtain ⟨hne', hsource'⟩ | ⟨htype', name', base', hsource', -⟩ := hbegins r' hr'
  · rw [bne_iff_ne.2 hne, bne_iff_ne.2 hne']
  · rw [hsource, hsource'] at hid
    exact absurd hid.symm Relationship.idOf_file_ne_class
  · rw [hsource, hsource'] at hid
    exact absurd hid Relationship.idOf_file_ne_class
  · rw [htype, htype']

/-- What a code file says beside what its classes extend. -/
theorem filter_relationships_codeOfTree (language : Language) (path text : String) (root : Node) :
    (codeOfTree language path text root).relationships.filter
        (fun r => r.type != Relationship.extendsType) =
      Relationship.gather [] ((codeAccount language path text root).offered.filter
        fun r => r.type != Relationship.extendsType) := by
  rw [codeOfTree_eq]
  exact Relationship.filter_gather fun r hr r' hr' hid => isExtends_eq_of_id hr hr' hid

end Extract

end RepoGraph
