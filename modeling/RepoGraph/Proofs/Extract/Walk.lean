import RepoGraph.Extract.Outline
import RepoGraph.Extract.Script
import RepoGraph.Proofs.Syntax.Tree

/-!
# The order of a walk

A tree is walked with a stack of its own instead of recursion.  Here the two are compared.  The
address of a node says which child is taken at each turn on the way from the root, so the addresses
in the order of a dictionary are the nodes in preorder: a node before what is below it, and what is
below a child before what is below the next one.  A walk visits the nodes at all addresses of its
tree, each once and in this order, and then its stack is empty; what it yields is what the recursion
yields.

Main statement: `Extract.walksInOrder_preorder`.
-/

namespace RepoGraph

namespace Syntax

namespace Node

variable {n c : Node} {ns : List Node} {address : List Nat}

/-! ### Addresses -/

/-- The node at an address, if there is one. -/
def at? (n : Node) : List Nat → Option Node
  | [] => some n
  | i :: address =>
    match n.children[i]? with
    | some c => c.at? address
    | none => none

mutual

/-- The addresses of a tree, in the order of a dictionary. -/
def addresses : Node → List (List Nat)
  | ⟨_, _, _, children⟩ => [] :: addressesFrom 0 children

/-- The addresses of some children, the first of which has the given number. -/
def addressesFrom (i : Nat) : List Node → List (List Nat)
  | [] => []
  | n :: rest => (addresses n).map (i :: ·) ++ addressesFrom (i + 1) rest

end

theorem addresses_eq (n : Node) : n.addresses = [] :: addressesFrom 0 n.children := by
  cases n
  rfl

theorem mem_addressesFrom {i : Nat} :
    address ∈ addressesFrom i ns ↔
      ∃ k c below, ns[k]? = some c ∧ below ∈ c.addresses ∧ address = (i + k) :: below := by
  induction ns generalizing i with
  | nil => simp [addressesFrom]
  | cons n rest ih =>
    rw [addressesFrom, List.mem_append, List.mem_map, ih]
    constructor
    · rintro (⟨below, hbelow, rfl⟩ | ⟨k, c, below, hc, hbelow, rfl⟩)
      · exact ⟨0, n, below, rfl, hbelow, rfl⟩
      · exact ⟨k + 1, c, below, hc, hbelow, by rw [Nat.add_right_comm, Nat.add_assoc]⟩
    · rintro ⟨k, c, below, hc, hbelow, rfl⟩
      cases k with
      | zero =>
        obtain rfl : n = c := Option.some.inj hc
        exact .inl ⟨below, hbelow, rfl⟩
      | succ k => exact .inr ⟨k, c, below, hc, hbelow, by rw [Nat.add_right_comm, Nat.add_assoc]⟩

/-- The addresses of a tree are those at which it has a node. -/
theorem mem_addresses_iff : address ∈ n.addresses ↔ (n.at? address).isSome = true := by
  induction address generalizing n with
  | nil => simp [addresses_eq, at?]
  | cons i address ih =>
    have hbelow : (∃ k c below, n.children[k]? = some c ∧ below ∈ c.addresses ∧
        i :: address = (0 + k) :: below) ↔ ∃ c, n.children[i]? = some c ∧
          address ∈ c.addresses := by
      constructor
      · rintro ⟨k, c, below, hc, hmem, heq⟩
        obtain ⟨rfl, rfl⟩ := List.cons.inj heq
        exact ⟨c, by rwa [Nat.zero_add], hmem⟩
      · rintro ⟨c, hc, hmem⟩
        exact ⟨i, c, address, hc, hmem, by rw [Nat.zero_add]⟩
    rw [addresses_eq, List.mem_cons, mem_addressesFrom, hbelow, at?]
    cases n.children[i]? with
    | none => simp
    | some c => simp [ih]

theorem pairwise_addressesFrom (h : ∀ c ∈ ns, c.addresses.Pairwise (· < ·)) (i : Nat) :
    (addressesFrom i ns).Pairwise (· < ·) := by
  induction ns generalizing i with
  | nil => exact .nil
  | cons n rest ih =>
    have hfirst : (n.addresses.map (i :: ·)).Pairwise (· < ·) :=
      (h n List.mem_cons_self).map _ fun a b hab => List.cons_lt_cons_self.2 hab
    have hrest := ih (fun c hc => h c (List.mem_cons_of_mem _ hc)) (i + 1)
    rw [addressesFrom, List.pairwise_append]
    refine ⟨hfirst, hrest, fun a ha b hb => ?_⟩
    obtain ⟨above, -, rfl⟩ := List.mem_map.1 ha
    obtain ⟨k, c, below, -, -, rfl⟩ := mem_addressesFrom.1 hb
    exact List.Lex.rel (by omega)

theorem pairwise_addresses (n : Node) : n.addresses.Pairwise (· < ·) := by
  induction n using induct with
  | h n ih =>
    rw [addresses_eq, List.pairwise_cons]
    refine ⟨fun a ha => ?_, pairwise_addressesFrom ih 0⟩
    obtain ⟨k, c, below, -, -, rfl⟩ := mem_addressesFrom.1 ha
    exact List.nil_lt_cons _ _

/-- The nodes at the addresses of a tree are those of its preorder. -/
theorem map_addresses (n : Node) : n.addresses.map n.at? = n.preorder.map some := by
  induction n using induct with
  | h n ih =>
    -- the children from some number on, with what is below them
    have hfrom : ∀ ns i, (∀ k, ns[k]? = n.children[i + k]?) →
        (addressesFrom i ns).map n.at? = (preorderList ns).map some := by
      intro ns
      induction ns with
      | nil => exact fun _ _ => rfl
      | cons c rest ihrest =>
        intro i hns
        have hc : n.children[i]? = some c := (hns 0).symm
        have hat : n.at? ∘ (i :: ·) = c.at? := by
          funext address
          rw [Function.comp_apply, at?, hc]
        have hrest : (addressesFrom (i + 1) rest).map n.at? = (preorderList rest).map some :=
          ihrest (i + 1) fun k => by rw [Nat.add_right_comm]; exact hns (k + 1)
        rw [addressesFrom, preorderList, List.map_append, List.map_append, List.map_map, hat,
          ih c (List.mem_of_getElem? hc), hrest]
    rw [addresses_eq, preorder_eq_cons, List.map_cons, List.map_cons, at?,
      hfrom n.children 0 fun k => by rw [Nat.zero_add]]

/-- Some nodes are those of a tree in preorder: the ones at its addresses, in the order of a
dictionary. -/
def IsInPreorder (root : Node) (nodes : List Node) : Prop :=
  ∃ addresses : List (List Nat), addresses.Pairwise (· < ·) ∧
    (∀ address, address ∈ addresses ↔ (root.at? address).isSome = true) ∧
    addresses.map root.at? = nodes.map some

theorem isInPreorder_preorder (n : Node) : n.IsInPreorder n.preorder :=
  ⟨n.addresses, pairwise_addresses n, fun _ => mem_addresses_iff, map_addresses n⟩

/-! ### Recursion -/

mutual

/-- What a visitor makes of a tree by recursion: of a node first and then of its children in
order. -/
def traverse {σ : Type} (visit : σ → Node → σ) (state : σ) : Node → σ
  | ⟨kind, role, span, children⟩ =>
    traverseList visit (visit state ⟨kind, role, span, children⟩) children

/-- What a visitor makes of several trees by recursion. -/
def traverseList {σ : Type} (visit : σ → Node → σ) (state : σ) : List Node → σ
  | [] => state
  | n :: rest => traverseList visit (traverse visit state n) rest

end

variable {σ : Type} {visit : σ → Node → σ}

theorem traverse_eq (visit : σ → Node → σ) (state : σ) (n : Node) :
    n.traverse visit state = traverseList visit (visit state n) n.children := by
  cases n
  rfl

theorem traverseList_eq_foldl
    (h : ∀ c ∈ ns, ∀ state, c.traverse visit state = c.preorder.foldl visit state) (state : σ) :
    traverseList visit state ns = (preorderList ns).foldl visit state := by
  induction ns generalizing state with
  | nil => rfl
  | cons n rest ih =>
    rw [traverseList, preorderList, List.foldl_append, h n List.mem_cons_self,
      ih fun c hc => h c (List.mem_cons_of_mem _ hc)]

/-- The recursion goes through the nodes in preorder. -/
theorem traverse_eq_foldl (visit : σ → Node → σ) (state : σ) (n : Node) :
    n.traverse visit state = n.preorder.foldl visit state := by
  induction n using induct generalizing state with
  | h n ih =>
    rw [traverse_eq, traverseList_eq_foldl ih, preorder_eq_cons, List.foldl_cons]

theorem worklist_eq_traverse (visit : σ → Node → σ) (state : σ) (n : Node) :
    n.worklist visit state = n.traverse visit state := by
  rw [worklist_eq_preorder, traverse_eq_foldl]

end Node

/-! ### The course of a walk -/

namespace Walk

variable {σ : Type}

/-- From one walk to another in single steps, each of which visits the node then on top of the
stack: all the nodes visited on the way, in order. -/
inductive Visits (visit : σ → Node → σ) : Walk σ → List Node → Walk σ → Prop
  | nil (w : Walk σ) : Visits visit w [] w
  | cons {w next last : Walk σ} {n : Node} {visited : List Node} (top : w.stack.back? = some n)
      (step : w.step? visit = some next) (rest : Visits visit next visited last) :
      Visits visit w (n :: visited) last

theorem back?_stack (w : Walk σ) : w.stack.back? = w.waiting.head? := by
  rw [waiting, List.head?_reverse, Array.getLast?_toList]

/-- A walk visits the nodes of the trees that wait, and then nothing waits. -/
theorem visits_waiting (visit : σ → Node → σ) (w : Walk σ) :
    Visits visit w (Node.preorderList w.waiting) ⟨w.run visit, #[]⟩ := by
  induction w using run.induct visit with
  | case1 w next h ih =>
    -- the first tree that waits gives its root now, and its children wait in its place
    obtain ⟨n, rest, hwaiting, hnext, -⟩ := waiting_of_step? h
    have htop : w.stack.back? = some n := by rw [back?_stack, hwaiting, List.head?_cons]
    have hnodes : Node.preorderList w.waiting = n :: Node.preorderList next.waiting := by
      rw [hwaiting, hnext, Node.preorderList, Node.preorder_eq_cons, List.cons_append,
        Node.preorderList_append]
    rw [hnodes, run_of_step? h]
    exact .cons htop h ih
  | case2 w h =>
    have hwaiting := waiting_of_step?_eq_none h
    have hempty : w.stack = #[] := by
      rw [waiting, List.reverse_eq_nil_iff, Array.toList_eq_nil_iff] at hwaiting
      exact hwaiting
    rw [hwaiting, Node.preorderList, run_of_step?_eq_none h, ← hempty]
    exact .nil w

end Walk

end Syntax

namespace Extract

open Syntax (File Node Walk)

/-- How a tree is walked: every visitor meets some nodes one after another, after which the stack is
empty; these are the nodes of the tree in preorder, and what is found is what the recursion
finds. -/
structure WalksInOrder (root : Node) (visited : List Node) : Prop where
  preorder : root.IsInPreorder visited
  visits : ∀ {σ : Type} (visit : σ → Node → σ) (state : σ),
    Walk.Visits visit ⟨state, #[root]⟩ visited ⟨root.traverse visit state, #[]⟩
  script : ∀ (file : File) (found : Findings),
    Script.walk file root found = root.traverse (Script.visit file) found
  outline : ∀ (file : File) (found : Findings),
    Outline.walk file root found = (root.traverse (Outline.visit file) ⟨found, []⟩).found

/-- Every tree is walked in preorder, like a recursion over it. -/
theorem walksInOrder_preorder (root : Node) : WalksInOrder root root.preorder where
  preorder := root.isInPreorder_preorder
  visits visit state := by
    have hnodes : Node.preorderList (Walk.mk state #[root]).waiting = root.preorder :=
      List.append_nil root.preorder
    rw [← hnodes, ← Node.worklist_eq_traverse]
    exact Walk.visits_waiting visit ⟨state, #[root]⟩
  script file found := root.worklist_eq_traverse (Script.visit file) found
  outline file found := by rw [Outline.walk, Node.worklist_eq_traverse]

end Extract

end RepoGraph
