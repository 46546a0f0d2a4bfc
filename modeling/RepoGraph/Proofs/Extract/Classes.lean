import RepoGraph.Proofs.Extract.Offered

/-!
# Classes of a file

A class that is declared in a file is an entity of it, wherever in the file it stands, and the class
that it extends is stated by an edge.  Both are found under names: the class under the path of its
file and its own name, the class that it extends under its bare name, as the file has it.

Main statements: `Extract.exists_entity_of_declares`, `Extract.exists_relationship_of_extends`.
-/

namespace RepoGraph

namespace Account

/-- Whether what an account tells is part of what another one tells. -/
structure IsPart (a b : Account) : Prop where
  entities : a.entities ⊆ b.entities
  offered : a.offered ⊆ b.offered

variable {a b c : Account}

theorem isPart_append_left (a b : Account) : a.IsPart (a ++ b) :=
  ⟨List.subset_append_left _ _, List.subset_append_left _ _⟩

theorem IsPart.append_right (h : a.IsPart c) (b : Account) : a.IsPart (b ++ c) :=
  ⟨List.subset_append_of_subset_right _ h.entities, List.subset_append_of_subset_right _ h.offered⟩

theorem IsPart.append_left (h : a.IsPart b) (c : Account) : a.IsPart (b ++ c) :=
  ⟨List.subset_append_of_subset_left _ h.entities, List.subset_append_of_subset_left _ h.offered⟩

theorem isPart_all {α : Type} {account : α → Account} {xs : List α} {x : α} (h : x ∈ xs) :
    (account x).IsPart (all (xs.map account)) := by
  induction xs with
  | nil => cases h
  | cons y rest ih =>
    obtain rfl | h := List.mem_cons.1 h
    · exact isPart_append_left _ _
    · exact (ih h).append_right _

end Account

namespace Relationship

/-- Between classes of one file and bare names, an id tells both ends, as names have no colon. -/
theorem eq_of_idOf_extends_eq {path name name' type base base' : String} (hname : ':' ∉ name.toList)
    (hname' : ':' ∉ name'.toList) (htype : ':' ∉ (Text.lower type).toList)
    (hid : idOf (Entity.classId path name) type ("class:" ++ base) =
      idOf (Entity.classId path name') type ("class:" ++ base')) : name = name' ∧ base = base' := by
  have hlist := congrArg String.toList hid
  simp only [toList_idOf, Entity.classId, String.toList_append, List.append_assoc,
    List.append_cancel_left_eq] at hlist
  -- the first colon is that of the bare name
  have hcut (name base : String) : name.toList ++ '-' :: ((Text.lower type).toList ++ '-' ::
      ("class:".toList ++ base.toList)) =
        (name.toList ++ '-' :: ((Text.lower type).toList ++ "-class".toList)) ++
          ':' :: base.toList := by
    simp
  have hcolon {name : String} (hname : ':' ∉ name.toList) :
      ':' ∉ name.toList ++ '-' :: ((Text.lower type).toList ++ "-class".toList) := by
    simp [hname, htype]
  rw [hcut, hcut] at hlist
  obtain ⟨hfront, hbase⟩ := Text.eq_of_append_cons (hcolon hname) (hcolon hname') hlist
  exact ⟨String.toList_inj.1 (List.append_cancel_right hfront), String.toList_inj.1 hbase⟩

end Relationship

namespace Extract

open Syntax (File Node Span)
open Account (IsPart isPart_all isPart_append_left)

variable {language : Language} {file : File} {path text name base : String} {root n : Node}

/-! ### What a class tells -/

/-- Whether a node declares a class of a name. -/
def declares (file : File) (name : String) (n : Node) : Bool :=
  n.kind == .classDefinition && (n.child? .name).map file.nodeText == some name

/-- The superclass that a class names. -/
def superclassOf (language : Language) (file : File) (n : Node) : Option String :=
  match language with
  | .python => Outline.superclass file n
  | _ => Script.superclass file n

theorem exists_name_of_declares (h : declares file name n = true) :
    n.kind = .classDefinition ∧ ∃ child, n.child? .name = some child ∧
      file.nodeText child = name := by
  obtain ⟨hkind, hname⟩ := Bool.and_eq_true_iff.1 h
  exact ⟨beq_iff_eq.1 hkind, Option.map_eq_some_iff.1 (beq_iff_eq.1 hname)⟩

theorem Script.exists_account_eq (h : declares file name n = true) : ∃ methods properties,
    account file n = classAccount file n name methods properties (superclass file n) := by
  obtain ⟨hkind, child, hchild, rfl⟩ := exists_name_of_declares h
  unfold account
  rw [hkind, hchild]
  exact ⟨_, _, rfl⟩

theorem Outline.exists_account_eq (h : declares file name n = true) (announced : List Span) :
    ∃ methods properties, account file announced n =
      classAccount file n name methods properties (superclass file n) := by
  obtain ⟨hkind, child, hchild, rfl⟩ := exists_name_of_declares h
  unfold account
  rw [hkind, hchild]
  exact ⟨_, _, rfl⟩

/-- What a node tells, a walk that comes to it tells, by the methods that are announced then. -/
theorem Outline.exists_isPart_accounts (file : File) {ns : List Node} (h : n ∈ ns)
    (spans : List Span) :
    ∃ announced, (account file announced n).IsPart (accounts file spans ns) := by
  induction ns generalizing spans with
  | nil => cases h
  | cons first rest ih =>
    rw [accounts]
    obtain rfl | h := List.mem_cons.1 h
    · exact ⟨spans, isPart_append_left _ _⟩
    · obtain ⟨announced, hpart⟩ := ih h (spans ++ Outline.announced first)
      exact ⟨announced, hpart.append_right _⟩

/-- A class that is declared anywhere in a file is told of. -/
theorem exists_isPart_codeAccount (language : Language) (hn : n ∈ root.preorder)
    (h : declares (File.ofText path text) name n = true) : ∃ methods properties,
      (classAccount (File.ofText path text) n name methods properties
        (superclassOf language (File.ofText path text) n)).IsPart
          (codeAccount language path text root) := by
  have hscript : ∃ methods properties,
      (classAccount (File.ofText path text) n name methods properties
      (Script.superclass (File.ofText path text) n)).IsPart
        (.all (root.preorder.map (Script.account (File.ofText path text)))) := by
    obtain ⟨methods, properties, heq⟩ := Script.exists_account_eq h
    exact ⟨methods, properties, heq ▸ isPart_all hn⟩
  cases language with
  | python =>
    obtain ⟨announced, hpart⟩ := Outline.exists_isPart_accounts (File.ofText path text) hn []
    obtain ⟨methods, properties, heq⟩ := Outline.exists_account_eq h announced
    exact ⟨methods, properties, (heq ▸ hpart).append_left _⟩
  | javascript | typescript | tsx =>
    obtain ⟨methods, properties, hpart⟩ := hscript
    exact ⟨methods, properties, hpart.append_left _⟩

/-! ### What is found of it -/

/-- A class that is declared in a file is an entity of it, under the file's path and its name. -/
theorem exists_entity_of_declares (language : Language) (hn : n ∈ root.preorder)
    (h : declares (File.ofText path text) name n = true) :
    ∃ e ∈ (codeOfTree language path text root).entities, e.id = Entity.classId path name := by
  obtain ⟨methods, properties, hpart⟩ := exists_isPart_codeAccount language hn h
  rw [codeOfTree_eq]
  refine ⟨_, List.mem_append_right _ (hpart.entities List.mem_cons_self), rfl⟩

theorem mem_offered_of_extends (hn : n ∈ root.preorder)
    (h : declares (File.ofText path text) name n = true)
    (hextends : superclassOf language (File.ofText path text) n = some base) (hbase : base ≠ "") :
    Relationship.create (Entity.classId path name) Relationship.extendsType ("class:" ++ base) [] ∈
      (codeAccount language path text root).offered := by
  obtain ⟨methods, properties, hpart⟩ := exists_isPart_codeAccount language hn h
  refine hpart.offered ?_
  unfold classAccount
  rw [hextends]
  dsimp only
  rw [if_neg (by simpa using hbase)]
  exact List.mem_append_right _ (List.mem_singleton_self _)

/-- An edge that begins at a class begins at a plain name. -/
theorem colon_not_mem_of_source
    (hplain : ∀ e ∈ (codeOfTree language path text root).entities, e.HasPlainName)
    {r : Relationship}
    (hr : r ∈ (codeAccount language path text root).offered)
    (hsource : r.source = Entity.classId path name) : ':' ∉ name.toList := by
  have hcode := isOfCode_codeAccount language path text root
  obtain hfile | ⟨e, he, hkind, hid⟩ := hcode.source r hr
  · have hlist := congrArg String.toList (hfile.symm.trans hsource)
    simp [Entity.fileId, Entity.classId] at hlist
  · have hclass : e.id = Entity.classId path e.name := by
      obtain ⟨-, ⟨-, hclass⟩ | ⟨hfunction, -⟩⟩ := hcode.declared e he
      · exact hclass
      · exact absurd (hkind.symm.trans hfunction) (by decide)
    have hname : e.name = name := by
      have hlist := congrArg String.toList (hclass.symm.trans (hid.symm.trans hsource))
      simpa [Entity.classId, String.toList_inj] using hlist
    rw [codeOfTree_eq] at hplain
    exact hname ▸ hplain e (List.mem_append_right _ he) (.inl hkind)

/-- What a class extends is stated by an edge from the class to the bare name, as names of classes
have no colon. -/
theorem exists_relationship_of_extends
    (hplain : ∀ e ∈ (codeOfTree language path text root).entities, e.HasPlainName)
    (hn : n ∈ root.preorder) (h : declares (File.ofText path text) name n = true)
    (hextends : superclassOf language (File.ofText path text) n = some base) (hbase : base ≠ "") :
    ∃ r ∈ (codeOfTree language path text root).relationships,
      r.source = Entity.classId path name ∧ r.type = Relationship.extendsType ∧
        r.target = "class:" ++ base := by
  have hcode := isOfCode_codeAccount language path text root
  have hoffered := mem_offered_of_extends hn h hextends hbase
  -- the edge that is kept need not be this one, but it has the same id
  obtain ⟨r, hr, hid⟩ : ∃ r ∈ Relationship.gather [] (codeAccount language path text root).offered,
      r.id = Relationship.idOf (Entity.classId path name) Relationship.extendsType
        ("class:" ++ base) :=
    Relationship.exists_mem_gather hoffered
  rw [codeOfTree_eq]
  refine ⟨r, hr, ?_⟩
  have hr : r ∈ (codeAccount language path text root).offered :=
    (Relationship.mem_or_mem_of_mem_gather hr).resolve_left List.not_mem_nil
  rw [hcode.id_eq r hr] at hid
  obtain ⟨-, hfile⟩ | ⟨htype, name', base', hsource, htarget⟩ :=
    beginsAtFile_codeAccount language path text root r hr
  · rw [hfile] at hid
    exact absurd hid Relationship.idOf_file_ne_class
  · have hplain' : ':' ∉ name.toList ∧ ':' ∉ name'.toList :=
      ⟨colon_not_mem_of_source hplain hoffered rfl, colon_not_mem_of_source hplain hr hsource⟩
    rw [hsource, htype, htarget] at hid
    obtain ⟨rfl, rfl⟩ :=
      Relationship.eq_of_idOf_extends_eq hplain'.2 hplain'.1 (by decide) hid
    exact ⟨hsource, htype, htarget⟩

end Extract

end RepoGraph
