import RepoGraph.Proofs.Extract.Classes
import RepoGraph.Proofs.Extract.OutlineLikeness
import RepoGraph.Proofs.Extract.ScriptLikeness

/-!
# Comments do not change what is found

Two code files whose trees are the same but for comments, and that carry the same marks, yield the
same entities, content and positions aside, and the same relationships, except for the superclasses
that comments hide in scripts.

Main statements: `Extract.isLike_treeAccount`, `Extract.areSame_codeOfTree`.
-/

namespace RepoGraph

namespace Extract

open Syntax (File Node Spot Match)
open Account (IsLike)

variable {language : Language} {file file' : File} {n n' : Node} {keep : Relationship → Bool}

/-! ### Trees -/

/-- Whether a tree is built as one of the language. -/
def IsBuilt (language : Language) (root : Node) : Prop :=
  match language with
  | .python => Outline.IsBuilt root
  | _ => Script.IsBuilt root

instance : (language : Language) → (root : Node) → Decidable (IsBuilt language root)
  | .python, root => inferInstanceAs (Decidable (Outline.IsBuilt root))
  | .javascript, root | .typescript, root | .tsx, root =>
    inferInstanceAs (Decidable (Script.IsBuilt root))

/-- Whether a comment hides the superclass of a class. -/
def hidesBase (language : Language) (n : Node) : Bool :=
  match language with
  | .python => false
  | _ => Script.hidesBase n

/-- A class whose superclass a comment hides is taken for one without. -/
theorem superclassOf_eq_none_of_hidesBase (h : hidesBase language n = true) (file : File) :
    superclassOf language file n = none := by
  cases language with
  | python => cases h
  | javascript | typescript | tsx => exact Script.superclass_eq_none_of_hidesBase h file

/-- Whether two trees are the same but for comments, by what names and literals say. -/
def AreAlike (language : Language) (file file' : File) (root root' : Node) : Prop :=
  Node.alike (agrees language file file') root root' = true

instance (language : Language) (file file' : File) (root root' : Node) :
    Decidable (AreAlike language file file' root root') :=
  inferInstanceAs (Decidable (Node.alike (agrees language file file') root root' = true))

theorem IsBuilt.hasBareComments {root : Node} (h : IsBuilt language root) :
    root.HasBareComments := by
  intro n hn hkind
  cases language with
  | python => exact ⟨(h.1 n hn).role_eq_none (.inr hkind),
      (h.1 n hn).children_eq_nil (.inr (.inr hkind))⟩
  | javascript | typescript | tsx => exact (h n hn).1 hkind

/-- What a script's tree tells is what its spots tell, comments left out. -/
theorem Script.accounts_eq_all (file : File) (root : Node) :
    Account.all (root.preorder.map (account file)) =
      .all (((root.spots []).filter fun p => !Match.isComment p).map
        fun p => account file p.node) := by
  have hcomment : ∀ p ∈ root.spots [], (!Match.isComment p) = false →
      account file p.node = .nothing := by
    intro p _ hcomment
    have hkind : p.node.kind = .comment := by simpa [Match.isComment] using hcomment
    rw [account, hkind]
  rw [Account.all_filter hcomment, ← Node.map_spots root [], List.map_map]
  rfl

/-- What a tree of an indented source tells is what its spots tell, comments left out. -/
theorem Outline.accounts_eq_all_filter {root : Node} (h : IsLaidOut root) (file : File) :
    accounts file [] root.preorder =
      .all (((root.spots []).filter fun p => !Match.isComment p).map (spotAccount file)) := by
  rw [accounts_eq_all h, Account.all_filter]
  exact fun p _ hcomment => spotAccount_of_comment (by simpa using hcomment)

theorem IsBuilt.of_mem {root : Node} (h : IsBuilt language root) {d : Node}
    (hd : d ∈ root.preorder) :
    IsBuilt language d := by
  have hmem : ∀ c ∈ d.preorder, c ∈ root.preorder := fun c hc => Node.mem_preorder_trans hd hc
  cases language with
  | python => exact ⟨fun c hc => h.1 c (hmem c hc), fun c hc => h.2 c (hmem c hc)⟩
  | javascript | typescript | tsx => exact fun c hc => h c (hmem c hc)

/-- Trees that are the same but for comments tell the same, the superclasses aside that comments
hide. -/
theorem isLike_treeAccount {root root' : Node} (hpath : file.path = file'.path)
    (hbuilt : IsBuilt language root) (hbuilt' : IsBuilt language root')
    (h : AreAlike language file file' root root')
    (hkeep : (∀ n ∈ root.preorder ++ root'.preorder, hidesBase language n = false) ∨
      ∀ r, r.type = Relationship.extendsType → keep r = false) :
    (treeAccount language file root).IsLike keep (treeAccount language file' root') := by
  have hmatch : Match (agrees language file file') root root' :=
    ⟨h, hbuilt.hasBareComments, hbuilt'.hasBareComments⟩
  have hspots := rel_mem (hmatch.spots List.Forall₂.nil)
  have hnode : ∀ {root : Node} {p : Spot}, p ∈ (root.spots []).filter
      (fun p => !Match.isComment p) →
      p.node ∈ root.preorder := fun hp => Node.node_mem_preorder (List.mem_filter.1 hp).1
  -- the script languages differ in nothing that is asked here
  have hscript : language ≠ .python → (treeAccount language file root).IsLike keep
      (treeAccount language file' root') := by
    intro hlanguage
    have htree : ∀ (file : File) (root : Node), treeAccount language file root =
        .all (((root.spots []).filter fun p => !Match.isComment p).map fun p =>
          Script.account file p.node) := by
      intro file root
      rw [← Script.accounts_eq_all]
      cases language <;> first | rfl | contradiction
    rw [htree, htree]
    refine Account.isLike_all hspots fun p p' hp => ?_
    obtain ⟨hp, hmem, hmem'⟩ := hp
    have hnamed : Script.IsBuilt p.node := by
      have hbuilt := hbuilt.of_mem (hnode hmem)
      cases language <;> first | exact hbuilt | contradiction
    refine Script.isLike_account hpath hlanguage hnamed hp.node (hkeep.imp_left fun hhides => ?_)
    have hfirst := hhides _ (List.mem_append_left _ (hnode hmem))
    have hsecond := hhides _ (List.mem_append_right _ (hnode hmem'))
    cases language <;> first | exact ⟨hfirst, hsecond⟩ | contradiction
  cases language with
  | python =>
    rw [treeAccount, treeAccount, Outline.accounts_eq_all_filter hbuilt.1,
      Outline.accounts_eq_all_filter hbuilt'.1]
    refine Account.isLike_all hspots fun p p' hp => ?_
    obtain ⟨hp, hmem, hmem'⟩ := hp
    exact Outline.isLike_spotAccount hpath (hbuilt.of_mem (hnode hmem))
      (hbuilt'.of_mem (hnode hmem')) hp
  | javascript | typescript | tsx => exact hscript (by decide)

/-! ### What comments change -/

/-- Whether two findings are the same but for the contents and positions of entities, for what the
entities of the files themselves say, and for superclasses that comments hide. -/
structure AreSame (language : Language) (root root' : Node) (found found' : Findings) : Prop where
  /-- The entities that are declared in the files. -/
  entities : found.entities.tail.map Entity.sketch = found'.entities.tail.map Entity.sketch
  /-- Only what classes extend can differ. -/
  relationships_of_ne : found.relationships.filter (fun r => r.type != Relationship.extendsType) =
    found'.relationships.filter fun r => r.type != Relationship.extendsType
  /-- It does not if no comment hides a superclass. -/
  relationships : (∀ n ∈ root.preorder ++ root'.preorder, hidesBase language n = false) →
    found.relationships = found'.relationships

/-- Comments do not change what a code file yields, the superclasses aside that they hide. -/
theorem areSame_codeOfTree (path text text' : String) :
    (∀ named found, code text path named = .ok found → ∃ language,
      languageOf path named = .ok language ∧
        found = codeOfTree language path text (treeOf language (File.ofText path text).chars)) ∧
    (∀ language root root', IsBuilt language root → IsBuilt language root' →
      AreAlike language (File.ofText path text) (File.ofText path text') root root' →
      markNames text.toList = markNames text'.toList →
      AreSame language root root' (codeOfTree language path text root)
        (codeOfTree language path text' root')) ∧
    ∀ language n, hidesBase language n = true → superclassOf language (File.ofText path text) n = none := by
  refine ⟨fun named found h => exists_codeOfTree h, ?_,
    fun language n h => superclassOf_eq_none_of_hidesBase h _⟩
  intro language root root' hbuilt hbuilt' h hmarks
  -- the accounts are alike but for the edges to superclasses, which a comment may hide
  have hlike : ∀ keep : Relationship → Bool,
      ((∀ n ∈ root.preorder ++ root'.preorder, hidesBase language n = false) ∨
        ∀ r, r.type = Relationship.extendsType → keep r = false) →
      (codeAccount language path text root).IsLike keep
        (codeAccount language path text' root') := by
    intro keep hkeep
    have hpath : (File.ofText path text).path = (File.ofText path text').path := rfl
    rw [codeAccount, codeAccount, hmarks]
    exact (isLike_treeAccount hpath hbuilt hbuilt' h hkeep).append (.refl keep _)
  have hdrop : ∀ r : Relationship, r.type = Relationship.extendsType →
      (r.type != Relationship.extendsType) = false := fun r hr => by rw [hr, bne_self_eq_false]
  refine ⟨?_, ?_, fun hhides => ?_⟩
  · rw [codeOfTree_eq, codeOfTree_eq]
    exact (hlike _ (.inr hdrop)).entities
  · rw [filter_relationships_codeOfTree, filter_relationships_codeOfTree,
      (hlike _ (.inr hdrop)).offered]
  · have hoffered := (hlike (fun _ => true) (.inl hhides)).offered
    rw [List.filter_eq_self.2 fun _ _ => rfl, List.filter_eq_self.2 fun _ _ => rfl] at hoffered
    rw [codeOfTree_eq, codeOfTree_eq, Findings.take, Findings.take, hoffered]

/-- A class with a superclass and a method. -/
def plainClass : String := "class A extends B \x7b m(x) \x7b\x7d \x7d\n"

/-- The same class with comments. -/
def commentedClass : String := "class A /* a */ extends B \x7b m(x /* b */) \x7b\x7d \x7d // c\n"

/-- The same class with a comment before its superclass. -/
def hiddenBase : String := "class A extends /* c */ B \x7b m(x) \x7b\x7d \x7d\n"

/-- The tree of a script. -/
def scriptTree (text : String) : Node := treeOf .javascript (File.ofText "a.js" text).chars

theorem areSame_codeOfTree_commentedClass :
    IsBuilt .javascript (scriptTree plainClass) ∧ IsBuilt .javascript (scriptTree commentedClass) ∧
      AreAlike .javascript (File.ofText "a.js" plainClass) (File.ofText "a.js" commentedClass)
        (scriptTree plainClass) (scriptTree commentedClass) ∧
      markNames plainClass.toList = markNames commentedClass.toList ∧
      ∃ found found', code plainClass "a.js" none = .ok found ∧
        code commentedClass "a.js" none = .ok found' ∧ found.relationships = found'.relationships := by
  have hbuilt : IsBuilt .javascript (scriptTree plainClass) := by decide +kernel
  have hbuilt' : IsBuilt .javascript (scriptTree commentedClass) := by decide +kernel
  have halike : AreAlike .javascript (File.ofText "a.js" plainClass)
      (File.ofText "a.js" commentedClass)
      (scriptTree plainClass) (scriptTree commentedClass) := by decide +kernel
  have hmarks : markNames plainClass.toList = markNames commentedClass.toList := by decide +kernel
  have hhides : ∀ n ∈ (scriptTree plainClass).preorder ++ (scriptTree commentedClass).preorder,
      hidesBase .javascript n = false := by decide +kernel
  exact ⟨hbuilt, hbuilt', halike, hmarks, _, _, rfl, rfl,
    ((areSame_codeOfTree "a.js" plainClass commentedClass).2.1 .javascript _ _ hbuilt hbuilt' halike
      hmarks).relationships hhides⟩

/-- The comment before its superclass costs the class the edge to it. -/
theorem relationships_ne_of_hiddenBase :
    IsBuilt .javascript (scriptTree plainClass) ∧ IsBuilt .javascript (scriptTree hiddenBase) ∧
      AreAlike .javascript (File.ofText "a.js" plainClass) (File.ofText "a.js" hiddenBase)
        (scriptTree plainClass) (scriptTree hiddenBase) ∧
      markNames hiddenBase.toList = [] ∧
      ∃ found found', code plainClass "a.js" none = .ok found ∧ code hiddenBase "a.js" none = .ok found' ∧
        found.relationships.map Relationship.id =
          ["file:a.js-defines-class:a.js:A", "class:a.js:A-extends-class:B"] ∧
        found'.relationships.map Relationship.id = ["file:a.js-defines-class:a.js:A"] := by
  refine ⟨?_, ?_, ?_, ?_, _, _, rfl, rfl, ?_, ?_⟩
  · decide +kernel
  · decide +kernel
  · decide +kernel
  · decide +kernel
  · decide +kernel
  · decide +kernel

end Extract

end RepoGraph
