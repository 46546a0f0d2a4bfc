import RepoGraph.Proofs.Corresponding
import RepoGraph.Proofs.Syntax.Tree

/-!
# Trees that are the same but for comments

Comments may stand among the children of any node.  Two trees are alike if their nodes correspond,
of the same kinds and in the same roles, once the comments among the children are left out; what
else two nodes have to agree on is a parameter.  A comment is bare: it plays no role and has nothing
below it.  Of trees that are alike and have bare comments, the children that are looked up by role
or by kind correspond, and so do the spots that are no comments, in order.

A comment is put below a node among its children, or below one of them.  Children that are looked up
by their role or by a kind other than that of comments are the same as before, but for the comment
below one of them; and every node of the tree that is no comment was there before.

Main statements: `Node.alike_iff`, `Match.child?`, `Match.childrenIn`, `Match.constructs`,
`Match.ofKind`, `Match.spots`, `Comment.childrenIn_insert`, `Comment.constructs_insert`,
`Comment.mem_preorder_insert`.
-/

namespace RepoGraph

namespace Syntax

namespace Node

/-! ### Trees that are alike -/

mutual

/-- Whether two trees are the same but for comments, where corresponding nodes agree. -/
def alike (agree : Node → Node → Bool) : Node → Node → Bool
  | ⟨kind, role, span, children⟩, n' =>
    kind == n'.kind && role == n'.role && agree ⟨kind, role, span, children⟩ n' &&
      alikeList agree children n'.parts

/-- Whether some trees, comments among them left out, are the same as others but for comments. -/
def alikeList (agree : Node → Node → Bool) : List Node → List Node → Bool
  | [], ns' => ns'.isEmpty
  | n :: rest, ns' =>
    if n.kind == .comment then alikeList agree rest ns'
    else
      match ns' with
      | [] => false
      | n' :: rest' => alike agree n n' && alikeList agree rest rest'

end

variable {agree : Node → Node → Bool} {n n' c c' : Node} {ns ns' : List Node}

theorem alikeList_iff : alikeList agree ns ns' = true ↔
    List.Forall₂ (fun c c' => alike agree c c' = true)
      (ns.filter fun c => c.kind != .comment) ns' := by
  induction ns generalizing ns' with
  | nil => rw [alikeList.eq_def, List.isEmpty_iff, List.filter_nil, List.forall₂_nil_left_iff]
  | cons n rest ih =>
    rw [alikeList.eq_def]
    dsimp only
    by_cases hcomment : n.kind = .comment
    · rw [if_pos (beq_iff_eq.2 hcomment), ih, List.filter_cons_of_neg (by simp [hcomment])]
    · rw [if_neg (by simpa using hcomment), List.filter_cons_of_pos (by simpa using hcomment)]
      cases ns' with
      | nil => simp
      | cons n' rest' => rw [Bool.and_eq_true, ih, List.forall₂_cons]

theorem alike_iff : alike agree n n' = true ↔ n.kind = n'.kind ∧ n.role = n'.role ∧
    agree n n' = true ∧ List.Forall₂ (fun c c' => alike agree c c' = true) n.parts n'.parts := by
  obtain ⟨kind, role, span, children⟩ := n
  rw [alike, Bool.and_eq_true, Bool.and_eq_true, Bool.and_eq_true, beq_iff_eq, beq_iff_eq,
    alikeList_iff, and_assoc, and_assoc]
  rfl

/-- Whether the comments of a tree play no role and have nothing below them. -/
def HasBareComments (root : Node) : Prop :=
  ∀ n ∈ root.preorder, n.kind = .comment → n.role = none ∧ n.children = []

theorem HasBareComments.child (h : n.HasBareComments) (hc : c ∈ n.children) : c.HasBareComments :=
  fun d hd => h d (mem_preorder_of_child hc hd)

end Node

/-- Whether two trees with bare comments are alike. -/
structure Match (agree : Node → Node → Bool) (n n' : Node) : Prop where
  alike : Node.alike agree n n' = true
  bare : n.HasBareComments
  bare' : n'.HasBareComments

namespace Match

variable {agree : Node → Node → Bool} {n n' : Node}

theorem kind_eq (h : Match agree n n') : n.kind = n'.kind := (Node.alike_iff.1 h.alike).1

theorem role_eq (h : Match agree n n') : n.role = n'.role := (Node.alike_iff.1 h.alike).2.1

theorem agrees (h : Match agree n n') : agree n n' = true := (Node.alike_iff.1 h.alike).2.2.1

/-- A kind that is not that of comments leaves them out. -/
theorem isKind_and {kind : Kind} (hkind : kind ≠ .comment) (c : Node) :
    (c.kind == kind && c.kind != .comment) = (c.kind == kind) := by
  by_cases hc : c.kind = kind
  · simp [hc, hkind]
  · simp [hc]

theorem parts (h : Match agree n n') : List.Forall₂ (Match agree) n.parts n'.parts := by
  refine (rel_mem (Node.alike_iff.1 h.alike).2.2.2).imp fun c c' hc => ?_
  obtain ⟨halike, hmem, hmem'⟩ := hc
  exact ⟨halike, h.bare.child (Node.mem_parts.1 hmem).1, h.bare'.child (Node.mem_parts.1 hmem').1⟩

/-! ### Children that correspond -/

/-- No comment plays a role. -/
theorem find?_parts {role : Role} (h : n.HasBareComments) :
    n.parts.find? (fun c => c.role == some role) = n.child? role := by
  refine find?_filter_of_imp fun c hc hrole => bne_iff_ne.2 fun hcomment => ?_
  have hnone := (h c (Node.mem_preorder_of_child hc (Node.mem_preorder_self c)) hcomment).1
  simp [hnone] at hrole

theorem child? (h : Match agree n n') (role : Role) :
    Option.Rel (Match agree) (n.child? role) (n'.child? role) := by
  rw [← find?_parts h.bare, ← find?_parts h.bare']
  exact rel_find? h.parts fun c c' hc => by rw [hc.role_eq]

theorem childrenIn (h : Match agree n n') (role : Role) :
    List.Forall₂ (Match agree) (n.childrenIn role) (n'.childrenIn role) := by
  have hfilter {n : Node} (h : n.HasBareComments) :
      n.childrenIn role = n.parts.filter fun c => c.role == some role := by
    rw [Node.childrenIn, Node.parts, List.filter_filter]
    refine List.filter_congr fun c hc => ?_
    by_cases hcomment : c.kind = .comment
    · have hnone := (h c (Node.mem_preorder_of_child hc (Node.mem_preorder_self c)) hcomment).1
      simp [hnone]
    · simp [hcomment]
  rw [hfilter h.bare, hfilter h.bare']
  exact rel_filter h.parts fun c c' hc => by rw [hc.role_eq]

theorem constructs (h : Match agree n n') :
    List.Forall₂ (Match agree) n.constructs n'.constructs := by
  have hfilter (n : Node) : n.constructs = n.parts.filter fun c => !c.isUnnamed := by
    rw [Node.constructs, Node.namedChildren, Node.parts, List.filter_filter, List.filter_filter]
    exact List.filter_congr fun c _ => Bool.and_comm _ _
  rw [hfilter, hfilter]
  exact rel_filter h.parts fun c c' hc => by rw [Node.isUnnamed, Node.isUnnamed, hc.kind_eq]

/-- The children of a kind correspond, as long as it is not that of comments. -/
theorem ofKind (h : Match agree n n') {kind : Kind} (hkind : kind ≠ .comment) :
    List.Forall₂ (Match agree) (n.namedChildren.filter fun c => c.kind == kind)
      (n'.namedChildren.filter fun c => c.kind == kind) := by
  have hfilter (n : Node) : n.namedChildren.filter (fun c => c.kind == kind) =
      n.constructs.filter fun c => c.kind == kind := by
    rw [Node.constructs, List.filter_filter]
    exact List.filter_congr fun c _ => (isKind_and hkind c).symm
  rw [hfilter, hfilter]
  exact rel_filter h.constructs fun c c' hc => by rw [hc.kind_eq]

theorem find?_kind (h : Match agree n n') {kind : Kind} (hkind : kind ≠ .comment) :
    Option.Rel (Match agree) (n.children.find? fun c => c.kind == kind)
      (n'.children.find? fun c => c.kind == kind) := by
  have hparts (n : Node) : n.parts.find? (fun c => c.kind == kind) =
      n.children.find? fun c => c.kind == kind :=
    find?_filter_of_imp fun c _ hc => bne_iff_ne.2 (beq_iff_eq.1 hc ▸ hkind)
  rw [← hparts, ← hparts]
  exact rel_find? h.parts fun c c' hc => by rw [hc.kind_eq]

/-- Whether there is a child of a kind does not depend on comments. -/
theorem any_kind (h : Match agree n n') {kind : Kind} (hkind : kind ≠ .comment) :
    (n.children.any fun c => c.kind == kind) = n'.children.any fun c => c.kind == kind := by
  have hparts (n : Node) : (n.children.any fun c => c.kind == kind) =
      n.parts.any fun c => c.kind == kind := by
    rw [Node.parts, List.any_filter]
    refine congrArg (List.any _) (funext fun c => ?_)
    rw [Bool.and_comm, isKind_and hkind]
  rw [hparts, hparts]
  exact any_eq_of_rel h.parts fun c c' hc => by rw [hc.kind_eq]

/-- Whether there is a construct of a kind does not depend on comments. -/
theorem any_namedChildren (h : Match agree n n') {kind : Kind} (hkind : kind ≠ .comment) :
    (n.namedChildren.any fun c => c.kind == kind) = n'.namedChildren.any fun c =>
      c.kind == kind := by
  have hconstructs (n : Node) : (n.namedChildren.any fun c => c.kind == kind) =
      n.constructs.any fun c => c.kind == kind := by
    rw [Node.constructs, List.any_filter]
    refine congrArg (List.any _) (funext fun c => ?_)
    rw [Bool.and_comm, isKind_and hkind]
  rw [hconstructs, hconstructs]
  exact any_eq_of_rel h.constructs fun c c' hc => by rw [hc.kind_eq]

/-- What stands first corresponds if it is no comment. -/
theorem head?_namedChildren (h : Match agree n n')
    (hfirst : ∀ first ∈ n.namedChildren.head?, first.kind ≠ .comment)
    (hfirst' : ∀ first ∈ n'.namedChildren.head?, first.kind ≠ .comment) :
    Option.Rel (Match agree) n.namedChildren.head? n'.namedChildren.head? := by
  have hconstructs : ∀ {n : Node}, (∀ first ∈ n.namedChildren.head?, first.kind ≠ .comment) →
      n.constructs.head? = n.namedChildren.head? := by
    intro n hfirst
    rw [Node.constructs]
    cases hchildren : n.namedChildren with
    | nil => rfl
    | cons c rest =>
      have hc : c.kind ≠ .comment := hfirst c (by rw [hchildren]; rfl)
      rw [List.filter_cons_of_pos (by simpa using hc), List.head?_cons, List.head?_cons]
  rw [← hconstructs hfirst, ← hconstructs hfirst']
  exact rel_head? h.constructs

/-! ### Spots that correspond -/

/-- Whether two spots correspond, with what stands above them. -/
structure OfSpots (agree : Node → Node → Bool) (p p' : Spot) : Prop where
  node : Match agree p.node p'.node
  above : List.Forall₂ (Match agree) p.above p'.above

/-- Whether a spot is one of a comment. -/
def isComment (p : Spot) : Bool := p.node.kind == .comment

theorem spots_of_comment (h : n.HasBareComments) (hkind : n.kind = .comment) (above : List Node) :
    (n.spots above).filter (fun p => !isComment p) = [] := by
  have hleaf := (h n (Node.mem_preorder_self n) hkind).2
  rw [Node.spots_eq, hleaf]
  simp [isComment, hkind]

/-- The spots of trees that match correspond, those of comments left out. -/
theorem spots (h : Match agree n n') {above above' : List Node}
    (habove : List.Forall₂ (Match agree) above above') :
    List.Forall₂ (OfSpots agree) ((n.spots above).filter fun p => !isComment p)
      ((n'.spots above').filter fun p => !isComment p) := by
  induction n using Node.induct generalizing n' above above' with
  | h n ih =>
    by_cases hcomment : n.kind = .comment
    · rw [spots_of_comment h.bare hcomment, spots_of_comment h.bare' (h.kind_eq ▸ hcomment)]
      exact .nil
    · -- the comments among the children tell of no spot
      have hnode : ∀ {n : Node} (above : List Node), n.HasBareComments → n.kind ≠ .comment →
          (n.spots above).filter (fun p => !isComment p) = ⟨n, above⟩ ::
            n.parts.flatMap fun c => (c.spots (n :: above)).filter fun p => !isComment p := by
        intro n above hbare hkind
        rw [Node.spots_eq, List.filter_cons_of_pos (by simpa [isComment] using hkind),
          List.filter_flatMap, Node.parts, flatMap_filter fun c hc hcomment => ?_]
        exact spots_of_comment (hbare.child hc) (by simpa using hcomment) _
      rw [hnode above h.bare hcomment, hnode above' h.bare' (h.kind_eq ▸ hcomment)]
      refine .cons ⟨h, habove⟩ (rel_flatMap (rel_mem h.parts) fun c c' hc => ?_)
      exact ih c (Node.mem_parts.1 hc.2.1).1 hc.1 (.cons h habove)

end Match

/-! ### A comment more -/

namespace Comment

variable {span : Span} {n c c' m : Node} {cs : List Node}

theorem insert_eq (span : Span) (n : Node) :
    insert span n = { n with children := insertAmong span n.children } := by
  obtain ⟨kind, role, range, children⟩ := n
  rw [insert]

@[simp] theorem kind_insert (span : Span) (n : Node) : (insert span n).kind = n.kind := by
  rw [insert_eq]

@[simp] theorem role_insert (span : Span) (n : Node) : (insert span n).role = n.role := by
  rw [insert_eq]

theorem children_insert (span : Span) (n : Node) :
    (insert span n).children = insertAmong span n.children := by
  rw [insert_eq]

/-- Whether a node is another one, perhaps with a comment below. -/
def IsWith (span : Span) (c c' : Node) : Prop := c' = c ∨ c' = insert span c

theorem IsWith.kind_eq (h : IsWith span c c') : c'.kind = c.kind := by
  obtain rfl | rfl := h
  · rfl
  · rw [kind_insert]

/-- A condition that does not hold of a comment, and does not depend on one, leaves the comment
out. -/
theorem filter_insertAmong {q : Node → Bool} (hcomment : q (node span) = false)
    (hinsert : ∀ c, q (insert span c) = q c) (cs : List Node) :
    List.Forall₂ (IsWith span) (cs.filter q) ((insertAmong span cs).filter q) := by
  have hsame (cs : List Node) : List.Forall₂ (IsWith span) cs cs :=
    List.forall₂_same.2 fun c _ => .inl rfl
  induction cs with
  | nil =>
    rw [insertAmong, List.filter_cons_of_neg (by simp [hcomment])]
    exact .nil
  | cons c rest ih =>
    rw [insertAmong]
    -- the comment goes below the child, or before it, or further behind
    split
    · by_cases hq : q c = true
      · rw [List.filter_cons_of_pos hq, List.filter_cons_of_pos (by rw [hinsert, hq])]
        exact .cons (.inr rfl) (hsame _)
      · rw [List.filter_cons_of_neg hq, List.filter_cons_of_neg (by rwa [hinsert])]
        exact hsame _
    · split
      · rw [List.filter_cons_of_neg (a := node span) (by simp [hcomment])]
        exact hsame _
      · by_cases hq : q c = true
        · rw [List.filter_cons_of_pos hq, List.filter_cons_of_pos hq]
          exact .cons (.inl rfl) ih
        · rw [List.filter_cons_of_neg hq, List.filter_cons_of_neg hq]
          exact ih

theorem childrenIn_insert (span : Span) (n : Node) (role : Role) :
    List.Forall₂ (IsWith span) (n.childrenIn role) ((insert span n).childrenIn role) := by
  rw [Node.childrenIn, Node.childrenIn, children_insert]
  exact filter_insertAmong rfl (fun c => by rw [role_insert]) n.children

theorem child?_insert (span : Span) (n : Node) (role : Role) :
    Option.Rel (IsWith span) (n.child? role) ((insert span n).child? role) := by
  have hhead (n : Node) : n.child? role = (n.childrenIn role).head? := List.head?_filter.symm
  rw [hhead, hhead]
  exact rel_head? (childrenIn_insert span n role)

theorem constructs_insert (span : Span) (n : Node) :
    List.Forall₂ (IsWith span) n.constructs (insert span n).constructs := by
  have hfilter (n : Node) : n.constructs =
      n.children.filter fun c => c.kind != .comment && !c.isUnnamed := List.filter_filter ..
  rw [hfilter, hfilter, children_insert]
  exact filter_insertAmong rfl
    (fun c => by rw [Node.isUnnamed, kind_insert, Node.isUnnamed]) n.children

theorem mem_insertAmong (h : c' ∈ insertAmong span cs) :
    c' = node span ∨ ∃ c ∈ cs, IsWith span c c' := by
  induction cs with
  | nil => exact .inl (List.mem_singleton.1 h)
  | cons c rest ih =>
    have hsame : ∀ {c'}, c' ∈ rest → ∃ d ∈ c :: rest, IsWith span d c' := fun hc' =>
      ⟨_, List.mem_cons_of_mem _ hc', .inl rfl⟩
    rw [insertAmong] at h
    split at h
    · obtain rfl | h := List.mem_cons.1 h
      · exact .inr ⟨c, List.mem_cons_self, .inr rfl⟩
      · exact .inr (hsame h)
    · split at h
      · obtain rfl | h := List.mem_cons.1 h
        · exact .inl rfl
        · exact .inr ⟨_, h, .inl rfl⟩
      · obtain rfl | h := List.mem_cons.1 h
        · exact .inr ⟨_, List.mem_cons_self, .inl rfl⟩
        · obtain rfl | ⟨d, hd, hwith⟩ := ih h
          · exact .inl rfl
          · exact .inr ⟨d, List.mem_cons_of_mem _ hd, hwith⟩

/-- A node that is no comment was in the tree before, perhaps without the comment below. -/
theorem mem_preorder_insert (hm : m ∈ (insert span n).preorder) (hkind : m.kind ≠ .comment) :
    ∃ m' ∈ n.preorder, IsWith span m' m := by
  induction n using Node.induct with
  | h n ih =>
    obtain rfl | ⟨c', hc', hm⟩ := Node.mem_preorder_iff.1 hm
    · exact ⟨n, Node.mem_preorder_self n, .inr rfl⟩
    · rw [children_insert] at hc'
      obtain rfl | ⟨c, hc, rfl | rfl⟩ := mem_insertAmong hc'
      · -- below a new comment there is nothing
        obtain rfl | ⟨_, hnone, -⟩ := Node.mem_preorder_iff.1 hm
        · exact absurd rfl hkind
        · cases hnone
      · exact ⟨m, Node.mem_preorder_of_child hc hm, .inl rfl⟩
      · obtain ⟨m', hm', hwith⟩ := ih c hc hm
        exact ⟨m', Node.mem_preorder_of_child hc hm', hwith⟩

end Comment

end Syntax

end RepoGraph
