import RepoGraph.Extract.Outline
import RepoGraph.Proofs.Syntax.Tree

/-!
# How the tree of an indented source lies on its text

The parts of a construct lie in it, one after another; comments may lie anywhere.  A definition
begins with its name, behind the word that introduces it.  So the functions of a tree begin at
places of their own, in the order in which they are visited, and no two of them cover the same
stretch.

Main statements: `Extract.Outline.pairwise_functions`, `Extract.Outline.nodup_functionSpans`.
-/

namespace RepoGraph

namespace Extract.Outline

open Syntax (Node Span)

/-- Whether the parts of a construct lie in it, one after another. -/
structure IsOrdered (n : Node) : Prop where
  start_le : ∀ c ∈ n.parts, n.span.start ≤ c.span.start
  stop_le : ∀ c ∈ n.parts, c.span.stop ≤ n.span.stop
  pairwise : n.parts.Pairwise fun a b => a.span.stop ≤ b.span.start

/-- Whether a definition begins with its name, behind the word that introduces it. -/
def BeginsWithName (n : Node) : Prop :=
  ∃ name ∈ n.constructs.head?, name.kind = .identifier ∧ name.role = some .name ∧
    n.span.start < name.span.start ∧ name.span.start < name.span.stop

/-- Whether a construct is built and lies on the text as one of an indented source does. -/
structure IsLaid (n : Node) : Prop where
  ordered : IsOrdered n
  /-- Words, marks and comments have no parts. -/
  children_eq_nil : n.kind = .identifier ∨ n.kind = .asyncMark ∨ n.kind = .comment → n.children = []
  /-- Marks and comments play no role. -/
  role_eq_none : n.kind = .asyncMark ∨ n.kind = .comment → n.role = none
  named : n.kind = .functionDefinition ∨ n.kind = .classDefinition → BeginsWithName n
  /-- A class has one body. -/
  body : n.kind = .classDefinition → (n.childrenIn .body).length ≤ 1
  /-- A body is no definition itself. -/
  block : n.role = some .body → n.kind ≠ .functionDefinition ∧ n.kind ≠ .classDefinition
  /-- Decorators stand before one definition. -/
  definition : n.kind = .decoratedDefinition → (n.childrenIn .definition).length ≤ 1

/-- Whether all constructs of a tree are laid out. -/
def IsLaidOut (root : Node) : Prop := ∀ n ∈ root.preorder, IsLaid n

instance (n : Node) : Decidable (IsOrdered n) :=
  decidable_of_iff ((∀ c ∈ n.parts, n.span.start ≤ c.span.start) ∧
      (∀ c ∈ n.parts, c.span.stop ≤ n.span.stop) ∧
      n.parts.Pairwise fun a b => a.span.stop ≤ b.span.start)
    ⟨fun ⟨h, h', h''⟩ => ⟨h, h', h''⟩, fun ⟨h, h', h''⟩ => ⟨h, h', h''⟩⟩

instance (n : Node) : Decidable (BeginsWithName n) :=
  inferInstanceAs (Decidable (∃ name ∈ n.constructs.head?, _))

instance (n : Node) : Decidable (IsLaid n) :=
  decidable_of_iff (IsOrdered n ∧
      (n.kind = .identifier ∨ n.kind = .asyncMark ∨ n.kind = .comment → n.children = []) ∧
      (n.kind = .asyncMark ∨ n.kind = .comment → n.role = none) ∧
      (n.kind = .functionDefinition ∨ n.kind = .classDefinition → BeginsWithName n) ∧
      (n.kind = .classDefinition → (n.childrenIn .body).length ≤ 1) ∧
      (n.role = some .body → n.kind ≠ .functionDefinition ∧ n.kind ≠ .classDefinition) ∧
      (n.kind = .decoratedDefinition → (n.childrenIn .definition).length ≤ 1))
    ⟨fun ⟨h₁, h₂, h₃, h₄, h₅, h₆, h₇⟩ => ⟨h₁, h₂, h₃, h₄, h₅, h₆, h₇⟩,
      fun ⟨h₁, h₂, h₃, h₄, h₅, h₆, h₇⟩ => ⟨h₁, h₂, h₃, h₄, h₅, h₆, h₇⟩⟩

instance (root : Node) : Decidable (IsLaidOut root) :=
  inferInstanceAs (Decidable (∀ n ∈ root.preorder, IsLaid n))

variable {n c f : Node} {root : Node}

theorem IsLaidOut.child (h : IsLaidOut n) (hc : c ∈ n.children) : IsLaidOut c := fun d hd =>
  h d (Node.mem_preorder_of_child hc hd)

theorem IsLaidOut.self (h : IsLaidOut n) : IsLaid n := h n (Node.mem_preorder_self n)

/-! ### Names -/

/-- What begins a definition is what is found in the role of its name. -/
theorem IsLaidOut.exists_name (h : IsLaidOut n)
    (hkind : n.kind = .functionDefinition ∨ n.kind = .classDefinition) :
    ∃ name, n.child? .name = some name ∧ name.kind = .identifier ∧ n.span.start < name.span.start ∧
      name.span.start < name.span.stop ∧
      ∀ c ∈ n.parts, c.kind = .asyncMark ∨ c = name ∨ name.span.stop ≤ c.span.start := by
  obtain ⟨name, hname, hidentifier, hrole, hstart, hstop⟩ := h.self.named hkind
  obtain ⟨rest, hrest⟩ : ∃ rest, n.constructs = name :: rest := List.head?_eq_some_iff.1 hname
  have hconstructs : n.constructs = n.children.filter fun c => c.kind != .comment && !c.isUnnamed :=
    List.filter_filter ..
  have hparts : n.constructs = n.parts.filter fun c => !c.isUnnamed := by
    rw [hconstructs, Node.parts, List.filter_filter]
    exact List.filter_congr fun c _ => Bool.and_comm _ _
  refine ⟨name, ?_, hidentifier, hstart, hstop, fun c hc => ?_⟩
  · -- marks and comments have no role, so the first child in a role is the first construct in it
    have hfind : n.constructs.find? (fun c => c.role == some .name) =
        n.children.find? fun c => c.role == some .name := by
      rw [hconstructs]
      refine find?_filter_of_imp fun c hc hname => ?_
      by_contra hkind
      have hnone := (h.child hc).self.role_eq_none (by simp_all [Node.isUnnamed]; tauto)
      simp [hnone] at hname
    rw [Node.child?, ← hfind, hrest, List.find?_cons_of_pos]
    exact beq_iff_eq.2 hrole
  · by_cases hmark : c.kind = .asyncMark
    · exact .inl hmark
    · have hmem : c ∈ n.constructs := by
        rw [hparts, List.mem_filter]
        exact ⟨hc, by simpa [Node.isUnnamed] using hmark⟩
      have hpairwise : n.constructs.Pairwise fun a b => a.span.stop ≤ b.span.start := by
        rw [hparts]
        exact h.self.ordered.pairwise.filter _
      rw [hrest] at hmem hpairwise
      obtain rfl | hmem := List.mem_cons.1 hmem
      · exact .inr (.inl rfl)
      · exact .inr (.inr ((List.pairwise_cons.1 hpairwise).1 c hmem))

/-! ### Functions -/

/-- Whether a node defines a function. -/
def isFunction (n : Node) : Bool := n.kind == .functionDefinition

theorem isFunction_iff : isFunction n = true ↔ n.kind = .functionDefinition := beq_iff_eq

/-- A word, a mark or a comment has no function below it, and is none. -/
theorem IsLaidOut.not_isFunction (h : IsLaidOut n)
    (hkind : n.kind = .identifier ∨ n.kind = .asyncMark ∨ n.kind = .comment) (hf : f ∈ n.preorder) :
    f.kind ≠ .functionDefinition := by
  rw [Node.preorder_eq, h.self.children_eq_nil hkind] at hf
  obtain rfl := List.mem_singleton.1 hf
  obtain hkind | hkind | hkind := hkind <;> rw [hkind] <;> exact nofun

/-- A function lies in the construct that it is below, and is not empty. -/
theorem IsLaidOut.within (h : IsLaidOut n) (hf : f ∈ n.preorder)
    (hkind : f.kind = .functionDefinition) :
    n.span.start ≤ f.span.start ∧ f.span.start < f.span.stop ∧ f.span.stop ≤ n.span.stop := by
  induction n using Node.induct with
  | h n ih =>
    obtain rfl | ⟨c, hc, hf⟩ := Node.mem_preorder_iff.1 hf
    · -- it holds its name, which is not empty
      obtain ⟨name, hname, hidentifier, hstart, hstop, -⟩ := h.exists_name (.inl hkind)
      have hmem : name ∈ f.parts :=
        Node.mem_parts.2 ⟨(Node.mem_of_child? hname).1, by rw [hidentifier]; exact nofun⟩
      have hle := h.self.ordered.stop_le name hmem
      omega
    · obtain ⟨hle, hlt, hle'⟩ := ih c hc (h.child hc) hf
      have hpart : c ∈ n.parts := Node.mem_parts.2
        ⟨hc, fun hcomment => (h.child hc).not_isFunction (.inr (.inr hcomment)) hf hkind⟩
      have hstart := h.self.ordered.start_le c hpart
      have hstop := h.self.ordered.stop_le c hpart
      omega

/-- A function begins before those below it. -/
theorem IsLaidOut.start_lt (h : IsLaidOut n) (hkind : n.kind = .functionDefinition)
    (hc : c ∈ n.children) (hf : f ∈ c.preorder) (hfunction : f.kind = .functionDefinition) :
    n.span.start < f.span.start := by
  have hwithin := (h.child hc).within hf hfunction
  have hpart : c ∈ n.parts := Node.mem_parts.2
    ⟨hc, fun hcomment => (h.child hc).not_isFunction (.inr (.inr hcomment)) hf hfunction⟩
  obtain ⟨name, -, hidentifier, hstart, hstop, hrest⟩ := h.exists_name (.inl hkind)
  obtain hmark | rfl | hbehind := hrest c hpart
  · exact absurd hfunction ((h.child hc).not_isFunction (.inr (.inl hmark)) hf)
  · exact absurd hfunction ((h.child hc).not_isFunction (.inl hidentifier) hf)
  · omega

/-- The functions of a tree begin one after another. -/
theorem pairwise_functions (h : IsLaidOut root) :
    (root.preorder.filter isFunction).Pairwise fun f g => f.span.start < g.span.start := by
  rw [List.pairwise_filter]
  induction root using Node.induct with
  | h n ih =>
    rw [Node.preorder_eq, List.pairwise_cons, List.pairwise_flatMap]
    refine ⟨fun f hf hn hfunction => ?_, fun c hc => ih c hc (h.child hc), ?_⟩
    · obtain ⟨c, hc, hf⟩ := List.mem_flatMap.1 hf
      exact h.start_lt (isFunction_iff.1 hn) hc hf (isFunction_iff.1 hfunction)
    · -- comments are out of order, but no function is below one
      have hordered : n.children.Pairwise fun a b =>
          (a.kind != .comment) = true → (b.kind != .comment) = true → a.span.stop ≤ b.span.start :=
        List.pairwise_filter.1 h.self.ordered.pairwise
      refine hordered.imp_of_mem fun {a b} ha hb hle f hf g hg hfunction hfunction' => ?_
      rw [isFunction_iff] at hfunction hfunction'
      have hcomment : ∀ {c f : Node}, c ∈ n.children → f ∈ c.preorder →
          f.kind = .functionDefinition →
          (c.kind != .comment) = true := fun hc hf hfunction => bne_iff_ne.2 fun hcomment =>
        (h.child hc).not_isFunction (.inr (.inr hcomment)) hf hfunction
      have hstop := hle (hcomment ha hf hfunction) (hcomment hb hg hfunction')
      have hfirst := (h.child ha).within hf hfunction
      have hsecond := (h.child hb).within hg hfunction'
      omega

/-- No two functions of a tree cover the same stretch. -/
theorem nodup_functionSpans (h : IsLaidOut root) :
    ((root.preorder.filter isFunction).map Node.span).Nodup := by
  refine (pairwise_functions h).map _ ?_
  intro f g hlt heq
  rw [heq] at hlt
  exact Nat.lt_irrefl _ hlt

end Extract.Outline

end RepoGraph
