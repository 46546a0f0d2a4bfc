import RepoGraph.Proofs.Extract.Likeness
import RepoGraph.Proofs.Extract.Methods

/-!
# Indented sources with comments

Nodes of two indented sources that are the same but for comments tell alike, by the methods that are
known: the statements of a class body are told apart by their kinds, and a comment is neither a
method nor an attribute.

Main statements: `Extract.Outline.isMethod_eq`, `Extract.Outline.isLike_spotAccount`.
-/

namespace RepoGraph

namespace Extract

open Syntax (File Node Spot Match)
open Account (IsLike)

namespace Outline

variable {file file' : File} {n n' : Node} {keep : Relationship → Bool}

/-- Whether a tree is laid out on its text and no statement begins with a comment: a comment before
a statement stands beside it. -/
def IsBuilt (root : Node) : Prop :=
  IsLaidOut root ∧ ∀ n ∈ root.preorder, n.kind = .expressionStatement →
    ∀ first ∈ n.namedChildren.head?, first.kind ≠ .comment

instance (root : Node) : Decidable (IsBuilt root) :=
  inferInstanceAs (Decidable (_ ∧ ∀ n ∈ root.preorder, _))

theorem IsBuilt.child {c : Node} (h : IsBuilt n) (hc : c ∈ n.children) : IsBuilt c :=
  ⟨h.1.child hc, fun d hd => h.2 d (Node.mem_preorder_of_child hc hd)⟩

variable (h : Match (agrees .python file file') n n')

include h

theorem text_eq_of_role (hrole : n.role ∈ nameRoles .python) :
    file.nodeText n = file'.nodeText n' := by
  refine text_eq_of_isName h ?_
  rw [isName, Bool.or_eq_true]
  exact .inr (List.contains_iff_mem.2 hrole)

/-- What stands in the role of a name has the same text. -/
theorem child?_rel {role : Syntax.Role} (hrole : some role ∈ nameRoles .python) :
    Option.Rel (fun c c' => file.nodeText c = file'.nodeText c') (n.child? role)
      (n'.child? role) := by
  obtain ⟨hchild, hchild'⟩ | ⟨child, child', hchild, hchild', hmatch⟩ :=
    cases_of_rel (h.child? role)
  · rw [hchild, hchild']
    exact .none
  · rw [hchild, hchild']
    refine .some (text_eq_of_role hmatch ?_)
    rw [(Node.mem_of_child? hchild).2]
    exact hrole

@[inherit_doc child?_rel]
theorem childText_eq {role : Syntax.Role} (hrole : some role ∈ nameRoles .python) :
    (n.child? role).map file.nodeText = (n'.child? role).map file'.nodeText :=
  map_eq_of_option_rel (child?_rel h hrole) fun _ _ htext => htext

theorem nameOf_eq : nameOf file n = nameOf file' n' := by
  rw [nameOf, nameOf, childText_eq h (by decide)]

theorem importedName_eq (hrole : n.role = some .name) :
    importedName file n = importedName file' n' := by
  unfold importedName
  rw [← h.kind_eq, childText_eq h (by decide), text_eq_of_role h (by rw [hrole]; decide)]

/-- The first word among the children has the same text. -/
theorem firstWord_eq : ((n.namedChildren.find? fun c => c.kind == .identifier).map file.nodeText) =
    (n'.namedChildren.find? fun c => c.kind == .identifier).map file'.nodeText := by
  have hfirst : Option.Rel (Match (agrees .python file file'))
      (n.namedChildren.find? fun c => c.kind == .identifier)
      (n'.namedChildren.find? fun c => c.kind == .identifier) := by
    rw [← List.head?_filter, ← List.head?_filter]
    exact rel_head? (h.ofKind (by decide))
  obtain ⟨hword, hword'⟩ | ⟨word, word', hword, hword', hmatch⟩ := cases_of_rel hfirst
  · rw [hword, hword']
    rfl
  · have hkind := List.find?_some hword
    rw [hword, hword']
    refine congrArg some (text_eq_of_isName hmatch ?_)
    rw [isName, Bool.or_assoc, Bool.or_eq_true]
    exact .inl hkind

theorem parameterName_eq : parameterName file n = parameterName file' n' := by
  unfold parameterName
  rw [← h.kind_eq]
  split
  · rename_i hkind
    exact congrArg some (text_eq_of_isName h (by simp [isName, hkind]))
  · exact childText_eq h (by decide)
  · exact firstWord_eq h
  · exact firstWord_eq h
  · rfl

theorem parameterNames_eq : parameterNames file n = parameterNames file' n' := by
  unfold parameterNames
  obtain ⟨hps, hps'⟩ | ⟨ps, ps', hps, hps', hmatch⟩ := cases_of_rel (h.child? .parameters)
  · rw [hps, hps']
  · rw [hps, hps']
    exact congrArg (List.filter _)
      (filterMap_eq_of_rel hmatch.constructs fun c c' hc => parameterName_eq hc)

theorem superclass_eq : superclass file n = superclass file' n' := by
  have hfirst : Option.Rel (Match (agrees .python file file'))
      ((n.child? .superclasses).bind fun bases => bases.constructs.head?)
      ((n'.child? .superclasses).bind fun bases => bases.constructs.head?) :=
    rel_bind (h.child? .superclasses) fun _ _ hbases => rel_head? hbases.constructs
  exact bind_eq_of_rel hfirst fun _ _ hc => Script.identifierText_eq hc

/-! ### Statements of class bodies -/

theorem definitionOf_rel :
    Option.Rel (Match (agrees .python file file')) (definitionOf n) (definitionOf n') := by
  unfold definitionOf
  rw [← h.kind_eq]
  split
  · exact h.child? .definition
  · exact .some h

theorem methodOf_rel : Option.Rel (fun m m' => Match (agrees .python file file') m m' ∧
    (m.kind == .functionDefinition) = true) (methodOf n) (methodOf n') :=
  rel_option_filter (definitionOf_rel h) fun c c' hc => by rw [hc.kind_eq]

theorem isNone_methodOf : (methodOf n).isNone = (methodOf n').isNone := by
  obtain ⟨hmethod, hmethod'⟩ | ⟨m, m', hmethod, hmethod', -⟩ := cases_of_rel (methodOf_rel h)
  · rw [hmethod, hmethod']
  · rw [hmethod, hmethod']
    rfl

theorem attributeOf_eq (hbuilt : IsBuilt n) (hbuilt' : IsBuilt n') :
    attributeOf file n = attributeOf file' n' := by
  unfold attributeOf
  rw [← h.kind_eq]
  split
  · rfl
  · rename_i hkind
    have hkind : n.kind = .expressionStatement := by simpa using hkind
    obtain ⟨hexpr, hexpr'⟩ | ⟨expr, expr', hexpr, hexpr', hmatch⟩ := cases_of_rel
      (h.head?_namedChildren (hbuilt.2 n (Node.mem_preorder_self n) hkind)
        (hbuilt'.2 n' (Node.mem_preorder_self n') (h.kind_eq ▸ hkind)))
    · rw [hexpr, hexpr']
    · rw [hexpr, hexpr']
      dsimp only
      rw [← hmatch.kind_eq]
      split
      · rfl
      · exact bind_eq_of_rel (hmatch.child? .left) fun _ _ hc => Script.identifierText_eq hc

omit h

/-- The statements of a class body that are no comments. -/
def statementsOf (n : Node) : List Node := (bodyOf n).filter fun stmt => stmt.kind != .comment

theorem methodOf_of_comment (hkind : n.kind = .comment) : methodOf n = none := by
  simp [methodOf, definitionOf, hkind]

theorem attributeOf_of_comment (hkind : n.kind = .comment) : attributeOf file n = none := by
  simp [attributeOf, hkind]

theorem methodsOf_eq (n : Node) : methodsOf n = (statementsOf n).filterMap methodOf := by
  rw [methodsOf, statementsOf, List.filterMap_filter]
  refine List.filterMap_congr fun stmt _ => ?_
  by_cases hkind : stmt.kind = .comment
  · rw [methodOf_of_comment hkind, if_neg (by simp [hkind])]
  · rw [if_pos (by simpa using hkind)]

/-- The names that a class body assigns. -/
def attributesOf (file : File) (n : Node) : List String :=
  ((bodyOf n).filter fun stmt => (methodOf stmt).isNone).filterMap (attributeOf file)

theorem attributesOf_eq (file : File) (n : Node) : attributesOf file n =
    ((statementsOf n).filter fun stmt => (methodOf stmt).isNone).filterMap (attributeOf file) := by
  rw [attributesOf, statementsOf, List.filterMap_filter, List.filterMap_filter,
    List.filterMap_filter]
  refine List.filterMap_congr fun stmt _ => ?_
  by_cases hkind : stmt.kind = .comment
  · simp [attributeOf_of_comment hkind]
  · simp [hkind]

theorem IsBuilt.of_mem_statementsOf {stmt : Node} (hbuilt : IsBuilt n)
    (hstmt : stmt ∈ statementsOf n) :
    IsBuilt stmt := by
  obtain ⟨hmem, -⟩ := List.mem_filter.1 hstmt
  unfold bodyOf at hmem
  split at hmem
  · rename_i body hbody
    exact (hbuilt.child (Node.mem_of_child? hbody).1).child (Node.mem_namedChildren.1 hmem).1
  · cases hmem

include h

theorem statementsOf_rel :
    List.Forall₂ (Match (agrees .python file file')) (statementsOf n) (statementsOf n') := by
  unfold statementsOf bodyOf
  obtain ⟨hbody, hbody'⟩ | ⟨body, body', hbody, hbody', hmatch⟩ := cases_of_rel (h.child? .body)
  · rw [hbody, hbody']
    exact .nil
  · rw [hbody, hbody']
    exact hmatch.constructs

theorem methodNames_eq : (methodsOf n).map (nameOf file) = (methodsOf n').map (nameOf file') := by
  rw [methodsOf_eq, methodsOf_eq, List.map_filterMap, List.map_filterMap]
  refine filterMap_eq_of_rel (statementsOf_rel h) fun stmt stmt' hstmt => ?_
  exact map_eq_of_option_rel (methodOf_rel hstmt) fun _ _ hmethod => nameOf_eq hmethod.1

theorem attributes_eq (hbuilt : IsBuilt n) (hbuilt' : IsBuilt n') :
    attributesOf file n = attributesOf file' n' := by
  have hstatements := rel_filter (rel_mem (statementsOf_rel h))
    (p := fun stmt => (methodOf stmt).isNone)
    fun stmt stmt' hstmt => isNone_methodOf hstmt.1
  rw [attributesOf_eq, attributesOf_eq]
  refine filterMap_eq_of_rel hstatements fun stmt stmt' hstmt => ?_
  obtain ⟨hmatch, hmem, hmem'⟩ := hstmt
  exact attributeOf_eq hmatch (hbuilt.of_mem_statementsOf hmem) (hbuilt'.of_mem_statementsOf hmem')

omit h

variable {p p' : Spot}

theorem isSome_classOfBody {above above' : List Node}
    (h : List.Forall₂ (Match (agrees .python file file')) above above') :
    (classOfBody above).isSome = (classOfBody above').isSome := by
  cases h with
  | nil => rfl
  | cons hbody hrest =>
    cases hrest with
    | nil => rfl
    | cons hclass _ =>
      unfold classOfBody
      dsimp only
      rw [hbody.role_eq, hclass.kind_eq]
      split <;> rfl

theorem isMethod_eq (h : Match.OfSpots (agrees .python file file') p p') :
    isMethod p = isMethod p' := by
  unfold isMethod classOf
  rw [h.node.kind_eq]
  split
  · rfl
  · rw [Option.isSome_or, Option.isSome_or, isSome_classOfBody h.above, h.node.role_eq]
    refine congrArg _ ?_
    have habove := h.above
    generalize p.above = above at habove ⊢
    generalize p'.above = above' at habove ⊢
    cases habove with
    | nil => rfl
    | cons hstmt hrest =>
      dsimp only
      rw [hstmt.kind_eq]
      split
      · exact isSome_classOfBody hrest
      · rfl

theorem isLike_account_of_importFrom (hpath : file.path = file'.path)
    (h : Match (agrees .python file file') n n') (hkind : n.kind = .importFrom) :
    (account file [] n).IsLike keep (account file' [] n') := by
  rw [account, account, ← h.kind_eq, hkind]
  obtain ⟨hmodule, hmodule'⟩ | ⟨module, module', hmodule, hmodule', htext⟩ :=
    cases_of_rel (child?_rel h (by decide : some Syntax.Role.moduleName ∈ _))
  · rw [hmodule, hmodule']
    exact .refl keep _
  · have hnames : (n.childrenIn .name).map (importedName file) =
        (n'.childrenIn .name).map (importedName file') :=
      map_eq_of_rel (rel_mem (h.childrenIn .name)) fun child child' hchild =>
        importedName_eq hchild.1 (Node.mem_childrenIn.1 hchild.2.1).2
    rw [hmodule, hmodule']
    dsimp only
    rw [hnames, htext, h.any_namedChildren (by decide)]
    exact isLike_importAccount hpath _ _

theorem isLike_account_of_class (hpath : file.path = file'.path) (hbuilt : IsBuilt n)
    (hbuilt' : IsBuilt n') (h : Match (agrees .python file file') n n')
    (hkind : n.kind = .classDefinition) :
    (account file [] n).IsLike keep (account file' [] n') := by
  rw [account, account, ← h.kind_eq, hkind]
  obtain ⟨hname, hname'⟩ | ⟨name, name', hname, hname', htext⟩ :=
    cases_of_rel (child?_rel h (by decide : some Syntax.Role.name ∈ _))
  · rw [hname, hname']
    exact .refl keep _
  · rw [hname, hname']
    dsimp only
    have hmethods : (((bodyOf n).filterMap methodOf).map fun m =>
          ((m.child? .name).map file.nodeText).getD "") =
        ((bodyOf n').filterMap methodOf).map fun m =>
          ((m.child? .name).map file'.nodeText).getD "" :=
      methodNames_eq h
    have hattributes : ((bodyOf n).filter fun stmt => (methodOf stmt).isNone).filterMap
          (attributeOf file) =
        ((bodyOf n').filter fun stmt => (methodOf stmt).isNone).filterMap (attributeOf file') :=
      attributes_eq h hbuilt hbuilt'
    rw [hmethods, hattributes, htext]
    exact isLike_classAccount hpath n n' _ _ _ (.inl (superclass_eq h))

/-- Nodes that match tell the same. -/
theorem isLike_account (hpath : file.path = file'.path) (hbuilt : IsBuilt n) (hbuilt' : IsBuilt n')
    (h : Match (agrees .python file file') n n') :
    (account file [] n).IsLike keep (account file' [] n') := by
  cases hkind : n.kind with
  | importStatement =>
    rw [account, account, ← h.kind_eq, hkind]
    refine Account.isLike_all (rel_mem (h.childrenIn .name)) fun child child' hchild => ?_
    obtain ⟨hmatch, hmem, -⟩ := hchild
    rw [importedName_eq hmatch (Node.mem_childrenIn.1 hmem).2]
    exact isLike_importAccount hpath _ _
  | importFrom => exact isLike_account_of_importFrom hpath h hkind
  | classDefinition => exact isLike_account_of_class hpath hbuilt hbuilt' h hkind
  | functionDefinition =>
    rw [account, account, ← h.kind_eq, hkind]
    obtain ⟨hname, hname'⟩ | ⟨name, name', hname, hname', htext⟩ :=
      cases_of_rel (child?_rel h (by decide : some Syntax.Role.name ∈ _))
    · rw [hname, hname']
      exact .refl keep _
    · rw [hname, hname']
      dsimp only
      rw [htext, parameterNames_eq h]
      exact isLike_functionAccount hpath h _ _
  | call =>
    rw [account, account, ← h.kind_eq, hkind]
    dsimp only
    obtain ⟨hcallee, hcallee'⟩ | ⟨callee, callee', hcallee, hcallee', hmatch, -⟩ :=
      cases_of_rel (rel_callee h)
    · rw [hcallee, hcallee']
      exact .refl keep _
    · rw [hcallee, hcallee']
      dsimp only
      rw [childText_eq hmatch (by decide)]
      exact isLike_eventAccount hpath _ (h.child? .arguments)
  | _ =>
    -- constructs of other kinds tell nothing
    rw [account, account, ← h.kind_eq, hkind]
    exact .refl keep _

/-- Spots that correspond tell the same. -/
theorem isLike_spotAccount (hpath : file.path = file'.path) (hbuilt : IsBuilt p.node)
    (hbuilt' : IsBuilt p'.node) (h : Match.OfSpots (agrees .python file file') p p') :
    (spotAccount file p).IsLike keep (spotAccount file' p') := by
  unfold spotAccount
  rw [isMethod_eq h]
  split
  · exact .refl keep _
  · exact isLike_account hpath hbuilt hbuilt' h.node

theorem spotAccount_of_comment (hcomment : Match.isComment p = true) :
    spotAccount file p = .nothing := by
  have hkind : p.node.kind = .comment := beq_iff_eq.1 hcomment
  unfold spotAccount
  split
  · rfl
  · rw [account, hkind]

end Outline

end Extract

end RepoGraph
