import Mathlib.Data.List.Basic
import RepoGraph.Syntax.Node

/-!
# Constructs and where they stand

Which nodes are among the named children of a construct, among its parts without comments and among
those in a role.  A spot is a node with the nodes above it, the nearest first; `spots` lists the
spots of a tree in the order in which `preorder` lists its nodes, so what stands above a node has
been visited before it.

Main statements: `Node.mem_namedChildren`, `Node.map_spots`, `Node.above_of_spots`,
`Node.mem_spots_child`.
-/

namespace RepoGraph

/-- A search may be narrowed if that keeps what it finds. -/
theorem find?_filter_of_find? {α : Type} {p q : α → Bool} {xs : List α}
    (h : ∀ x ∈ xs.find? p, q x = true) : (xs.filter q).find? p = xs.find? p := by
  induction xs with
  | nil => rfl
  | cons x rest ih =>
    by_cases hp : p x = true
    · have hq : q x = true := h x (List.find?_cons_of_pos hp)
      rw [List.filter_cons_of_pos hq, List.find?_cons_of_pos hp, List.find?_cons_of_pos hp]
    · rw [List.find?_cons_of_neg hp] at h ⊢
      by_cases hq : q x = true
      · rw [List.filter_cons_of_pos hq, List.find?_cons_of_neg hp, ih h]
      · rw [List.filter_cons_of_neg hq, ih h]

/-- A search may be narrowed to what all that is looked for satisfies. -/
theorem find?_filter_of_imp {α : Type} {p q : α → Bool} {xs : List α}
    (h : ∀ x ∈ xs, p x = true → q x = true) : (xs.filter q).find? p = xs.find? p :=
  find?_filter_of_find? fun x hx =>
    h x (List.mem_of_find?_eq_some hx) (List.find?_some hx)

namespace Syntax.Node

variable {n c : Node} {role : Role} {kind : Kind}

/-! ### Children -/

/-- The children that are no comments. -/
def parts (n : Node) : List Node := n.children.filter fun c => c.kind != .comment

theorem mem_parts : c ∈ n.parts ↔ c ∈ n.children ∧ c.kind ≠ .comment := by
  rw [parts, List.mem_filter, bne_iff_ne]

/-- Only marks have no name. -/
theorem mem_namedChildren : c ∈ n.namedChildren ↔ c ∈ n.children ∧ c.kind ≠ .asyncMark := by
  simp [namedChildren, isUnnamed]

theorem mem_constructs :
    c ∈ n.constructs ↔ c ∈ n.children ∧ c.kind ≠ .asyncMark ∧ c.kind ≠ .comment := by
  simp [constructs, mem_namedChildren, and_assoc]

theorem mem_childrenIn : c ∈ n.childrenIn role ↔ c ∈ n.children ∧ c.role = some role := by
  rw [childrenIn, List.mem_filter, beq_iff_eq]

theorem mem_of_child? (h : n.child? role = some c) : c ∈ n.children ∧ c.role = some role := by
  unfold child? at h
  have hrole := List.find?_some h
  exact ⟨List.mem_of_find?_eq_some h, by simpa using hrole⟩

/-- The first child in a role is the only one, where there is one at most. -/
theorem child?_eq_of_single (hsingle : (n.childrenIn role).length ≤ 1) (hc : c ∈ n.children)
    (hrole : c.role = some role) : n.child? role = some c := by
  have hfirst : n.child? role = (n.childrenIn role).head? := (List.head?_filter).symm
  have hmem := mem_childrenIn.2 ⟨hc, hrole⟩
  rw [hfirst]
  match hchildren : n.childrenIn role with
  | [] => simp [hchildren] at hmem
  | [_] =>
    rw [hchildren, List.mem_singleton] at hmem
    rw [hmem, List.head?_cons]
  | _ :: _ :: _ => simp [hchildren] at hsingle

/-- To be of a kind that no mark is of is enough to be named. -/
theorem mem_namedChildren_of_kind (hc : c ∈ n.children) (hkind : c.kind = kind)
    (hne : kind ≠ .asyncMark) : c ∈ n.namedChildren :=
  mem_namedChildren.2 ⟨hc, hkind ▸ hne⟩

/-! ### Trees -/

/-- What is passed on from the children to their construct holds of all trees. -/
theorem induct {P : Node → Prop} (h : ∀ n : Node, (∀ c ∈ n.children, P c) → P n) (n : Node) : P n :=
  h n fun c _ => induct h c
termination_by n
decreasing_by
  rename_i hc
  obtain ⟨kind, role, span, children⟩ := n
  have hsize := List.sizeOf_lt_of_mem hc
  simp only [Node.mk.sizeOf_spec]
  exact Nat.lt_of_lt_of_le hsize (Nat.le_add_left _ _)

theorem preorderList_eq_flatMap (ns : List Node) : preorderList ns = ns.flatMap preorder := by
  induction ns with
  | nil => rfl
  | cons n rest ih => rw [preorderList, ih, List.flatMap_cons]

theorem preorder_eq (n : Node) : n.preorder = n :: n.children.flatMap preorder := by
  rw [← preorderList_eq_flatMap]
  obtain ⟨kind, role, span, children⟩ := n
  rw [preorder]

theorem mem_preorder_iff : c ∈ n.preorder ↔ c = n ∨ ∃ child ∈ n.children, c ∈ child.preorder := by
  rw [preorder_eq, List.mem_cons, List.mem_flatMap]

theorem mem_preorder_self (n : Node) : n ∈ n.preorder := mem_preorder_iff.2 (.inl rfl)

theorem mem_preorder_of_child {d : Node} (hc : c ∈ n.children) (hd : d ∈ c.preorder) :
    d ∈ n.preorder := mem_preorder_iff.2 (.inr ⟨c, hc, hd⟩)

/-- Whatever holds of all nodes of a tree holds of those below each of its nodes. -/
theorem mem_preorder_trans {d : Node} : c ∈ n.preorder → d ∈ c.preorder → d ∈ n.preorder := by
  induction n using induct with
  | h n ih =>
    intro hc hd
    obtain rfl | ⟨child, hchild, hc⟩ := mem_preorder_iff.1 hc
    · exact hd
    · exact mem_preorder_of_child hchild (ih child hchild hc hd)

end Node

/-! ### Spots -/

/-- A node of a tree with the nodes above it, the nearest first. -/
structure Spot where
  node : Node
  above : List Node

namespace Node

mutual

/-- The spots of a tree below some nodes, a node before its children. -/
def spots (above : List Node) : Node → List Spot
  | ⟨kind, role, span, children⟩ =>
    ⟨⟨kind, role, span, children⟩, above⟩ :: spotsList
      (⟨kind, role, span, children⟩ :: above) children

/-- The spots of several trees below some nodes, in order. -/
def spotsList (above : List Node) : List Node → List Spot
  | [] => []
  | n :: rest => spots above n ++ spotsList above rest

end

variable {n c : Node} {above : List Node} {p : Spot}

theorem spotsList_eq_flatMap (above ns : List Node) :
    spotsList above ns = ns.flatMap (spots above) := by
  induction ns with
  | nil => rfl
  | cons n rest ih => rw [spotsList, ih, List.flatMap_cons]

theorem spots_eq (above : List Node) (n : Node) :
    n.spots above = ⟨n, above⟩ :: n.children.flatMap (spots (n :: above)) := by
  rw [← spotsList_eq_flatMap]
  obtain ⟨kind, role, span, children⟩ := n
  rw [spots]

theorem mem_spots_iff :
    p ∈ n.spots above ↔ p = ⟨n, above⟩ ∨ ∃ child ∈ n.children, p ∈ child.spots (n :: above) := by
  rw [spots_eq, List.mem_cons, List.mem_flatMap]

/-- The nodes of the spots are those of the tree, in its order. -/
theorem map_spots (n : Node) (above : List Node) : (n.spots above).map Spot.node = n.preorder := by
  induction n using induct generalizing above with
  | h n ih =>
    rw [spots_eq, preorder_eq, List.map_cons, List.map_flatMap]
    exact congrArg (n :: ·) (List.flatMap_congr fun c hc => ih c hc (n :: above))

theorem node_mem_preorder (hp : p ∈ n.spots above) : p.node ∈ n.preorder := by
  rw [← map_spots n above]
  exact List.mem_map_of_mem hp

theorem exists_spot_of_mem (hc : c ∈ n.preorder) (above : List Node) :
    ∃ p ∈ n.spots above, p.node = c := by
  rw [← map_spots n above] at hc
  exact List.mem_map.1 hc

/-- The children of a spot are spots. -/
theorem mem_spots_child (hp : p ∈ n.spots above) (hc : c ∈ p.node.children) :
    ⟨c, p.node :: p.above⟩ ∈ n.spots above := by
  induction n using induct generalizing above with
  | h n ih =>
    obtain rfl | ⟨child, hchild, hp⟩ := mem_spots_iff.1 hp
    · exact mem_spots_iff.2 (.inr ⟨c, hc, mem_spots_iff.2 (.inl rfl)⟩)
    · exact mem_spots_iff.2 (.inr ⟨child, hchild, ih child hchild hp⟩)

/-- What stands directly above a spot has a spot, and the spot is one of its children. -/
theorem mem_spots_parent {parent : Node} {rest : List Node} (hp : p ∈ n.spots [])
    (habove : p.above = parent :: rest) :
    p.node ∈ parent.children ∧ ⟨parent, rest⟩ ∈ n.spots [] := by
  suffices hgeneral : ∀ n above, p ∈ n.spots above → (p.above = above ∧ p.node = n) ∨
      (p.node ∈ parent.children ∧ ⟨parent, rest⟩ ∈ n.spots above) by
    obtain ⟨hroot, -⟩ | hparent := hgeneral n [] hp
    · rw [habove] at hroot
      cases hroot
    · exact hparent
  intro n
  induction n using induct with
  | h n ih =>
    intro above hp
    obtain rfl | ⟨child, hchild, hp⟩ := mem_spots_iff.1 hp
    · exact .inl ⟨rfl, rfl⟩
    · obtain ⟨hroot, rfl⟩ | ⟨hmem, hparent⟩ := ih child hchild (n :: above) hp
      · rw [habove] at hroot
        obtain ⟨rfl, rfl⟩ := List.cons.inj hroot
        exact .inr ⟨hchild, mem_spots_iff.2 (.inl rfl)⟩
      · exact .inr ⟨hmem, mem_spots_iff.2 (.inr ⟨child, hchild, hparent⟩)⟩

/-- What stands above a spot comes before it. -/
theorem above_of_spots {before after : List Spot} (h : n.spots above = before ++ p :: after) :
    ∀ a ∈ p.above, a ∈ above ∨ a ∈ before.map Spot.node := by
  induction n using induct generalizing above before after with
  | h n ih =>
    -- of several trees, the spot is in one, and whole trees may come before that one
    have hlist : ∀ ns : List Node, (∀ c ∈ ns, c ∈ n.children) → ∀ before after,
        ns.flatMap (spots (n :: above)) = before ++ p :: after →
        ∀ a ∈ p.above, a ∈ n :: above ∨ a ∈ before.map Spot.node := by
      intro ns
      induction ns with
      | nil => exact fun _ before after h => absurd h.symm (by simp)
      | cons c rest ihrest =>
        intro hchildren before after h a ha
        rw [List.flatMap_cons] at h
        obtain ⟨more, rfl, hrest⟩ | ⟨more, hc, hrest⟩ := List.append_eq_append_iff.1 h
        · have hmem := ihrest
            (fun d hd => hchildren d (List.mem_cons_of_mem _ hd)) more after hrest a ha
          rw [List.map_append, List.mem_append]
          exact hmem.imp_right .inr
        · obtain ⟨rfl, hafter⟩ | ⟨more, rfl, hafter⟩ := List.cons_eq_append_iff.1 hrest
          · have hmem := ihrest (fun d hd => hchildren d (List.mem_cons_of_mem _ hd)) [] after
              hafter a ha
            exact hmem.imp_right fun h => absurd h List.not_mem_nil
          · exact ih c (hchildren c List.mem_cons_self) hc a ha
    rw [spots_eq] at h
    intro a ha
    obtain ⟨rfl, hp⟩ | ⟨more, rfl, hrest⟩ := List.cons_eq_append_iff.1 h
    · obtain ⟨rfl, -⟩ := List.cons.inj hp
      exact .inl ha
    · obtain hmem | hmem := hlist n.children (fun c hc => hc) more after hrest a ha
      · obtain rfl | hmem := List.mem_cons.1 hmem
        · exact .inr (by simp)
        · exact .inl hmem
      · exact .inr (List.mem_cons_of_mem _ hmem)

theorem mem_preorder_of_above (hp : p ∈ n.spots []) {a : Node} (ha : a ∈ p.above) :
    a ∈ n.preorder := by
  obtain ⟨before, after, h⟩ := List.append_of_mem hp
  have hbefore := (above_of_spots h a ha).resolve_left List.not_mem_nil
  rw [← map_spots n [], h, List.map_append]
  exact List.mem_append_left _ hbefore

end Node

end Syntax

end RepoGraph
