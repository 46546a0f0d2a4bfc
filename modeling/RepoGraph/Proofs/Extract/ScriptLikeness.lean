import RepoGraph.Proofs.Extract.Likeness

/-!
# Scripts with comments

Nodes of two scripts that are the same but for comments tell alike, except where a comment stands
before the superclass of a class: the parts of a class's heritage are read with their comments, and
the first part decides, so a class with a comment there is taken for one without a superclass.

Main statements: `Extract.Script.superclass_eq`, `Extract.Script.superclass_eq_none_of_hidesBase`,
`Extract.Script.isLike_account`.
-/

namespace RepoGraph

namespace Extract

open Syntax (File Node Match)
open Account (IsLike)

namespace Script

variable {language : Language} {file file' : File} {n n' : Node} {keep : Relationship → Bool}

/-- Whether classes, functions and imported things are named by a word or a literal, and comments
are bare. -/
def IsBuilt (root : Node) : Prop :=
  ∀ n ∈ root.preorder, (n.kind = .comment → n.role = none ∧ n.children = []) ∧
    (n.kind = .classDefinition ∨ n.kind = .functionDefinition ∨ n.kind = .importSpecifier →
      ∀ name ∈ n.child? .name, name.kind = .identifier ∨ name.kind = .string)

instance (root : Node) : Decidable (IsBuilt root) :=
  inferInstanceAs (Decidable (∀ n ∈ root.preorder, _))

/-- Whether a comment stands before the superclass of a class: the first part of its heritage
decides, clauses of implemented interfaces aside. -/
def hidesBase (n : Node) : Bool :=
  n.kind == .classDefinition &&
    ((n.children.find? fun c => c.kind == .classHeritage).bind fun heritage =>
      heritage.namedChildren.find? fun part => part.kind != .implementsClause).any
        fun part => part.kind == .comment

/-- The superclass that a part of a heritage clause names. -/
def baseOf (file : File) (part : Node) : Option String :=
  (if part.kind == .extendsClause then part.child? .value else some part).bind (identifierText file)

theorem heritageName_eq (file : File) (parts : List Node) : heritageName file parts =
    (parts.find? fun part => part.kind != .implementsClause).bind (baseOf file) := by
  induction parts with
  | nil => rfl
  | cons part rest ih =>
    rw [heritageName]
    by_cases hkind : part.kind = .implementsClause
    · rw [if_pos (beq_iff_eq.2 hkind), ih, List.find?_cons_of_neg (by simp [hkind])]
    · rw [if_neg (by simpa using hkind), List.find?_cons_of_pos (by simpa using hkind)]
      rfl

/-- A class with a comment before its superclass is taken for one without. -/
theorem superclass_eq_none_of_hidesBase (h : hidesBase n = true) (file : File) :
    superclass file n = none := by
  obtain ⟨-, hany⟩ := Bool.and_eq_true_iff.1 h
  obtain ⟨part, hpart, hcomment⟩ := (Option.any_eq_true _ _).1 hany
  obtain ⟨heritage, hheritage, hpart⟩ := Option.bind_eq_some_iff.1 hpart
  have hkind := beq_iff_eq.1 hcomment
  rw [superclass, hheritage, Option.bind_some, heritageName_eq, hpart, Option.bind_some,
    baseOf, hkind]
  simp [identifierText, hkind]

theorem baseOf_eq (h : Match (agrees language file file') n n') :
    baseOf file n = baseOf file' n' := by
  unfold baseOf
  rw [← h.kind_eq]
  split
  · exact bind_eq_of_rel (h.child? .value) fun _ _ hc => identifierText_eq hc
  · exact identifierText_eq h

/-- Where no comment hides it, the superclass is the same. -/
theorem superclass_eq (h : Match (agrees language file file') n n')
    (hkind : n.kind = .classDefinition)
    (hhides : hidesBase n = false) (hhides' : hidesBase n' = false) :
    superclass file n = superclass file' n' := by
  -- the part that decides is the first one of those that are no comments
  have hdecides : ∀ {file : File} {n heritage : Node}, n.kind = .classDefinition →
      hidesBase n = false → (n.children.find? fun c => c.kind == .classHeritage) = some heritage →
      superclass file n =
        (heritage.constructs.find? fun part => part.kind != .implementsClause).bind
          (baseOf file) := by
    intro file n heritage hkind hhides hheritage
    have hfirst : heritage.constructs.find? (fun part => part.kind != .implementsClause) =
        heritage.namedChildren.find? fun part => part.kind != .implementsClause := by
      refine find?_filter_of_find? fun part hpart => ?_
      have hfound : heritage.namedChildren.find? (fun part => part.kind != .implementsClause) =
        some part := hpart
      simpa [hidesBase, hkind, hheritage, hfound] using hhides
    rw [superclass, hheritage, Option.bind_some, heritageName_eq, hfirst]
  obtain ⟨hheritage, hheritage'⟩ | ⟨heritage, heritage', hheritage, hheritage', hmatch⟩ :=
    cases_of_rel (h.find?_kind (show Syntax.Kind.classHeritage ≠ .comment by decide))
  · rw [superclass, superclass, hheritage, hheritage']
    rfl
  · rw [hdecides hkind hhides hheritage, hdecides (h.kind_eq ▸ hkind) hhides' hheritage']
    have hpart : Option.Rel (Match (agrees language file file'))
        (heritage.constructs.find? fun part => part.kind != .implementsClause)
        (heritage'.constructs.find? fun part => part.kind != .implementsClause) :=
      rel_find? hmatch.constructs fun c c' hc => by rw [hc.kind_eq]
    exact bind_eq_of_rel hpart fun _ _ hc => baseOf_eq hc

/-- What names a parameter, if it is a plain word. -/
def parameterWord (n : Node) : Option Node :=
  match n.kind with
  | .identifier => some n
  | .parameter => n.child? .pattern
  | .defaultParameter => n.child? .left
  | _ => none

theorem parameterWord_rel (h : Match (agrees language file file') n n') :
    Option.Rel (Match (agrees language file file')) (parameterWord n) (parameterWord n') := by
  unfold parameterWord
  rw [← h.kind_eq]
  split
  · exact .some h
  · exact h.child? .pattern
  · exact h.child? .left
  · exact .none

theorem parameterName_eq (h : Match (agrees language file file') n n') :
    parameterName file n = parameterName file' n' := by
  have hword : (parameterWord n).bind (identifierText file) =
      (parameterWord n').bind (identifierText file') :=
    bind_eq_of_rel (parameterWord_rel h) fun _ _ hc => identifierText_eq hc
  exact congrArg (Option.getD · unknown) hword

theorem parameterNames_eq (h : Match (agrees language file file') n n') :
    parameterNames file n = parameterNames file' n' := by
  unfold parameterNames
  obtain ⟨hps, hps'⟩ | ⟨ps, ps', hps, hps', hmatch⟩ := cases_of_rel (h.child? .parameters)
  · rw [hps, hps']
  · rw [hps, hps']
    exact map_eq_of_rel hmatch.constructs fun c c' hc => parameterName_eq hc

theorem memberNameText_eq {key key' : Option Node}
    (h : Option.Rel (Match (agrees language file file')) key key') :
    memberNameText file key = memberNameText file' key' := by
  cases h with
  | none => rfl
  | some hmatch =>
    unfold memberNameText
    dsimp only
    rw [← hmatch.kind_eq]
    split
    · rename_i hkind
      refine text_eq_of_isName hmatch ?_
      rw [Bool.or_eq_true] at hkind
      rw [isName, Bool.or_eq_true, Bool.or_eq_true]
      exact .inl hkind.symm
    · rfl

theorem memberNames_eq (h : Match (agrees language file file') n n') {kind : Syntax.Kind}
    (hkind : kind ≠ .comment) : memberNames file kind n = memberNames file' kind n' :=
  map_eq_of_rel (h.ofKind hkind) fun _ _ hc => memberNameText_eq (hc.child? .name)

theorem IsBuilt.child {c : Node} (h : IsBuilt n) (hc : c ∈ n.children) : IsBuilt c := fun d hd =>
  h d (Node.mem_preorder_of_child hc hd)

/-- A class, a function or an imported thing has the same name. -/
theorem name_rel (h : Match (agrees language file file') n n') (hlanguage : language ≠ .python)
    (hbuilt : IsBuilt n)
    (hkind : n.kind = .classDefinition ∨ n.kind = .functionDefinition ∨ n.kind = .importSpecifier) :
    Option.Rel (fun c c' => file.nodeText c = file'.nodeText c') (n.child? .name)
      (n'.child? .name) := by
  have hword := (hbuilt n (Node.mem_preorder_self n)).2 hkind
  obtain ⟨hname, hname'⟩ | ⟨name, name', hname, hname', hmatch⟩ := cases_of_rel (h.child? .name)
  · rw [hname, hname']
    exact .none
  · rw [hname, hname']
    refine .some ?_
    obtain hidentifier | hstring := hword name hname
    · exact text_eq_of_isName hmatch (by simp [isName, hidentifier])
    · exact text_eq_of_string hmatch hstring hlanguage

theorem clauseNames_eq (h : Match (agrees language file file') n n')
    (hlanguage : language ≠ .python)
    (hbuilt : IsBuilt n) : clauseNames file n = clauseNames file' n' := by
  unfold clauseNames
  rw [← h.kind_eq]
  split
  · rfl
  · rfl
  · refine map_eq_of_rel (rel_mem (h.ofKind (by decide))) fun s s' hs => ?_
    obtain ⟨hmatch, hs, -⟩ := hs
    obtain ⟨hmem, hkind⟩ := List.mem_filter.1 hs
    obtain ⟨hname, hname'⟩ | ⟨name, name', hname, hname', htext⟩ :=
      cases_of_rel (name_rel hmatch hlanguage (hbuilt.child (Node.mem_namedChildren.1 hmem).1)
        (.inr (.inr (beq_iff_eq.1 hkind))))
    · rw [hname, hname']
    · rw [hname, hname']
      exact htext
  · rfl

theorem importedNames_eq (h : Match (agrees language file file') n n')
    (hlanguage : language ≠ .python)
    (hbuilt : IsBuilt n) : importedNames file n = importedNames file' n' := by
  refine flatMap_eq_of_rel (rel_mem (h.ofKind (by decide))) fun clause clause' hclause => ?_
  obtain ⟨hmatch, hclause, -⟩ := hclause
  have hclausebuilt := hbuilt.child (Node.mem_namedChildren.1 (List.mem_filter.1 hclause).1).1
  -- a part that is a comment takes no names
  have hparts : ∀ (file : File) (clause : Node), clause.namedChildren.flatMap (clauseNames file) =
      clause.constructs.flatMap (clauseNames file) := by
    intro file clause
    refine (flatMap_filter fun part _ hcomment => ?_).symm
    have hkind : part.kind = .comment := by simpa using hcomment
    rw [clauseNames, hkind]
  rw [hparts, hparts]
  exact flatMap_eq_of_rel (rel_mem hmatch.constructs) fun part part' hpart =>
    clauseNames_eq hpart.1 hlanguage (hclausebuilt.child (Node.mem_constructs.1 hpart.2.1).1)

theorem isLike_account_of_class (hpath : file.path = file'.path) (hlanguage : language ≠ .python)
    (hbuilt : IsBuilt n) (h : Match (agrees language file file') n n')
    (hkind : n.kind = .classDefinition)
    (hkeep : hidesBase n = false ∧ hidesBase n' = false ∨
      ∀ r, r.type = Relationship.extendsType → keep r = false) :
    (account file n).IsLike keep (account file' n') := by
  rw [account, account, ← h.kind_eq, hkind]
  obtain ⟨hname, hname'⟩ | ⟨name, name', hname, hname', htext⟩ :=
    cases_of_rel (name_rel h hlanguage hbuilt (.inl hkind))
  · rw [hname, hname']
    exact .refl keep _
  · have hclass (methods properties : List String) :=
      isLike_classAccount hpath n n' (file'.nodeText name') methods properties
        (hkeep.imp_left fun hhides => superclass_eq h hkind hhides.1 hhides.2)
    rw [hname, hname']
    dsimp only
    rw [htext]
    obtain ⟨hbody, hbody'⟩ | ⟨body, body', hbody, hbody', hmatch⟩ := cases_of_rel (h.child? .body)
    · rw [hbody, hbody']
      exact hclass _ _
    · rw [hbody, hbody']
      dsimp only
      rw [memberNames_eq hmatch (by decide), memberNames_eq hmatch (by decide)]
      exact hclass _ _

theorem isLike_account_of_call (hpath : file.path = file'.path)
    (h : Match (agrees language file file') n n') (hkind : n.kind = .call) :
    (account file n).IsLike keep (account file' n') := by
  rw [account, account, ← h.kind_eq, hkind]
  dsimp only
  obtain ⟨hcallee, hcallee'⟩ | ⟨callee, callee', hcallee, hcallee', hmatch, -⟩ :=
    cases_of_rel (rel_callee h)
  · rw [hcallee, hcallee']
    exact .refl keep _
  · rw [hcallee, hcallee']
    dsimp only
    obtain ⟨hproperty, hproperty'⟩ | ⟨property, property', hproperty, hproperty', hmember⟩ :=
      cases_of_rel (rel_option_filter (p := fun c => c.kind == .memberName)
        (hmatch.child? .property)
        fun c c' hc => by rw [hc.kind_eq])
    · rw [hproperty, hproperty']
      exact .refl keep _
    · rw [hproperty, hproperty']
      dsimp only
      rw [text_eq_of_isName hmember.1 (by simp [isName, beq_iff_eq.1 hmember.2])]
      exact isLike_eventAccount hpath _ (h.child? .arguments)

/-- Nodes that match tell the same, the superclasses aside that comments hide. -/
theorem isLike_account (hpath : file.path = file'.path) (hlanguage : language ≠ .python)
    (hbuilt : IsBuilt n) (h : Match (agrees language file file') n n')
    (hkeep : hidesBase n = false ∧ hidesBase n' = false ∨
      ∀ r, r.type = Relationship.extendsType → keep r = false) :
    (account file n).IsLike keep (account file' n') := by
  cases hkind : n.kind with
  | importStatement =>
    have hsource : (n.child? .source).bind (stringValue file) =
        (n'.child? .source).bind (stringValue file') :=
      bind_eq_of_rel (h.child? .source) fun _ _ hc => stringValue_eq hc
    rw [account, account, ← h.kind_eq, hkind]
    dsimp only
    rw [hsource, importedNames_eq h hlanguage hbuilt]
    split
    · exact isLike_importAccount hpath _ _
    · exact .refl keep _
  | classDefinition => exact isLike_account_of_class hpath hlanguage hbuilt h hkind hkeep
  | functionDefinition =>
    rw [account, account, ← h.kind_eq, hkind]
    obtain ⟨hname, hname'⟩ | ⟨name, name', hname, hname', htext⟩ :=
      cases_of_rel (name_rel h hlanguage hbuilt (.inr (.inl hkind)))
    · rw [hname, hname']
      exact .refl keep _
    · rw [hname, hname']
      dsimp only
      rw [htext, parameterNames_eq h]
      exact isLike_functionAccount hpath h _ _
  | call => exact isLike_account_of_call hpath h hkind
  | _ =>
    -- constructs of other kinds tell nothing
    rw [account, account, ← h.kind_eq, hkind]
    exact .refl keep _

end Script

end Extract

end RepoGraph
