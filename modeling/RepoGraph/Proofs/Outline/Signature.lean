import RepoGraph.Proofs.Outline.Statement
import RepoGraph.Proofs.Syntax.Comments

/-!
# How functions of an indented source are built

A function has a name and parameters.  A parameter with a type, but without a value, consists of
what it would be without the type, and of the type.  This holds of all functions in the tree of a
source, wherever comments stand in them.

Main statement: `Outline.hasSignatures_tree`.
-/

namespace RepoGraph

namespace Outline

open Syntax
open Syntax.Comment (IsWith insert)
open Syntax.Scan (Yields YieldsAll)

/-- The kinds of a parameter without a type and a value. -/
def bareKinds : List Kind := [.identifier, .spreadParameter, .other]

/-- Whether a parameter, if it has a type and no value, is what it would be without the type, and
the type. -/
def IsParameter (p : Node) : Prop :=
  p.kind = .annotatedParameter → ∃ bare type, p.constructs = [bare, type] ∧ bare.kind ∈ bareKinds ∧
    type.kind ≠ .identifier

/-- Whether a function has a name and parameters. -/
structure HasSignature (n : Node) : Prop where
  named : (n.child? .name).isSome = true
  parameters : ∃ ps, n.child? .parameters = some ps ∧ ∀ p ∈ ps.constructs, IsParameter p

/-- Whether all functions of a tree have a name and parameters. -/
def HasSignatures (root : Node) : Prop :=
  ∀ n ∈ root.preorder, n.kind = .functionDefinition → HasSignature n

/-! ### Rules -/

variable {P : Node → Prop} {g : Grammar} {n p : Node}

theorem kind_identifier : Yields (fun n => n.kind ∈ bareKinds) identifier := by
  refine .after fun start => .after fun text => .after fun _ => .after fun _ => .node fun span => ?_
  show (if constantWords.contains text then Kind.other else Kind.identifier) ∈ bareKinds
  split <;> decide

theorem kind_typeNode : Yields (fun n => n.kind = .other) (typeNode g) :=
  .after fun _ => .after fun _ => .node fun _ => rfl

theorem isParameter_make {bare type : Node} (hbare : bare.kind ∈ bareKinds)
    (htype : type.kind = .other)
    (span : Span) : IsParameter (Node.make .annotatedParameter span [bare, type]) := by
  refine fun _ => ⟨bare, type, ?_, hbare, by rw [htype]; decide⟩
  have hnamed : bare.kind ≠ .asyncMark ∧ bare.kind ≠ .comment := by
    constructor <;> intro heq <;> rw [heq] at hbare <;> revert hbare <;> decide
  simp [Node.make, Node.constructs, Node.namedChildren, Node.isUnnamed, hnamed, htype]

theorem isParameter_of_kind (h : p.kind ≠ .annotatedParameter) : IsParameter p :=
  fun hkind => absurd hkind h

theorem isParameter_spreadParameter : Yields IsParameter (spreadParameter g) := by
  refine .after fun start => .after fun _ => .after fun found => ?_
  split
  · exact .node fun span => isParameter_of_kind (by decide : Kind.other ≠ _)
  · refine .bind (P := fun n => n.kind = .spreadParameter) (.node fun _ => rfl) fun n hn => ?_
    refine .bind (.maybe (.after fun _ => kind_typeNode)) fun type htype => ?_
    split
    · exact .node (isParameter_make (by rw [hn]; decide) (htype _ rfl))
    · exact .pure (isParameter_of_kind (by rw [hn]; decide))

theorem isParameter_namedParameter : Yields IsParameter (namedParameter g) := by
  have hbracketed : Yields (fun n => n.kind ∈ bareKinds) (bracketed g .other "(" ")") :=
    .after fun _ => .after fun _ => .after fun _ => .after fun _ =>
      .node fun _ => (by decide : Kind.other ∈ bareKinds)
  refine .after fun start => .bind (.either kind_identifier hbracketed) fun name hname => ?_
  refine .bind (.maybe (.after fun _ => kind_typeNode)) fun type htype => .after fun value => ?_
  split
  · refine .pure (isParameter_of_kind fun heq => ?_)
    rw [heq] at hname
    revert hname
    decide
  · exact .node (isParameter_make hname (htype _ rfl))
  · exact .node fun span => isParameter_of_kind (by decide : Kind.defaultParameter ≠ _)

theorem isParameter_parameters :
    Yields (fun ps => ∀ p ∈ ps.constructs, IsParameter p) (parameters g) := by
  refine .after fun start => .after fun _ => ?_
  refine .bind (.separated (.either isParameter_spreadParameter isParameter_namedParameter))
    fun found hfound => .after fun _ => ?_
  exact .node fun _ p hp => hfound p (Node.mem_constructs.1 hp).1

/-! ### Trees -/

theorem hasSignatures_iff : HasSignatures n ↔ (n.kind = .functionDefinition → HasSignature n) ∧
    ∀ c ∈ n.children, HasSignatures c := by
  constructor
  · exact fun h => ⟨h n (Node.mem_preorder_self n),
      fun c hc m hm => h m (Node.mem_preorder_of_child hc hm)⟩
  · rintro ⟨hself, hchildren⟩ m hm
    obtain rfl | ⟨c, hc, hm⟩ := Node.mem_preorder_iff.1 hm
    · exact hself
    · exact hchildren c hc m hm

theorem isPassedOn_hasSignatures : IsPassedOn HasSignatures where
  make hkind hchildren span := hasSignatures_iff.2 ⟨fun heq => absurd heq hkind, hchildren⟩
  inRole h role := by
    obtain ⟨hself, hchildren⟩ := hasSignatures_iff.1 h
    exact hasSignatures_iff.2 ⟨fun hkind => ⟨(hself hkind).named, (hself hkind).parameters⟩,
      hchildren⟩

theorem role_typeParameters : YieldsAll (fun n => n.role = none) (typeParameters g) := by
  have hbracketed : Yields (fun n => n.role = none) (bracketed g .other "[" "]") :=
    .after fun _ => .after fun _ => .after fun _ => .after fun _ => .node fun _ => rfl
  refine .bind hbracketed.maybe fun found hfound => ?_
  split
  · exact .pure (List.forall_mem_singleton.2 (hfound _ rfl))
  · exact .none

/-- The rule for functions. -/
theorem hasSignatures_functionDefinition (h : g.Respects HasSignatures) (indent : Nat) :
    Yields HasSignatures (functionDefinition g indent) := by
  have hmark (start : Nat) : Yields (fun n => HasSignatures n ∧ n.role = none) (do
      word "async"
      Scan.node .asyncMark start []) :=
    .after fun _ => .and (h.leaf (by decide)) (.node fun _ => rfl)
  refine .after fun start => .bind (hmark start).maybe fun mark hmark => .after fun _ => ?_
  refine .bind h.identifier fun name hname => ?_
  refine .bind (h.typeParameters.and role_typeParameters) fun types htypes => ?_
  refine .bind (h.parameters.and isParameter_parameters) fun ps hps => ?_
  refine .bind (.maybe (.after fun _ => h.typeNode)) fun result hresult => ?_
  refine .bind (h.suite indent) fun body hbody => .node fun span => ?_
  refine hasSignatures_iff.2 ⟨fun _ => ⟨?_, ?_⟩, ?_⟩
  · rw [Node.child?, List.find?_isSome]
    exact ⟨name.inRole .name, by simp [Node.make], rfl⟩
  · -- nothing before the parameters plays their role
    have hbefore : (mark.toList ++ [name.inRole .name] ++ types).find?
        (fun c => c.role == some .parameters) = none := by
      rw [List.find?_eq_none]
      simp only [List.mem_append, List.mem_singleton, Option.mem_toList]
      rintro c ((hc | rfl) | hc)
      · simp [(hmark c hc).2]
      · simp [Node.inRole]
      · simp [htypes.2 c hc]
    refine ⟨ps.inRole .parameters, ?_, hps.2⟩
    rw [Node.child?, Node.make, List.find?_append, List.find?_append, List.find?_append, hbefore]
    rfl
  · simp only [Node.make, List.forall_mem_append, List.forall_mem_singleton]
    exact ⟨⟨⟨⟨⟨forall_mem_toList fun n hn => (hmark n hn).1, h.inRole hname _⟩, htypes.1⟩,
      h.inRole hps.1 _⟩, forall_mem_toList hresult⟩, h.inRole hbody _⟩

/-! ### Comments -/

theorem IsParameter.insert {span : Span} (h : IsParameter p) : IsParameter (insert span p) := by
  intro hkind
  obtain ⟨bare, type, hconstructs, hbare, htype⟩ := h (by rwa [Comment.kind_insert] at hkind)
  have hrel := Comment.constructs_insert span p
  rw [hconstructs] at hrel
  obtain ⟨bare', types, hbare', htypes, hconstructs'⟩ := List.forall₂_cons_left_iff.1 hrel
  obtain ⟨type', none, htype', hnone, rfl⟩ := List.forall₂_cons_left_iff.1 htypes
  obtain rfl := List.forall₂_nil_left_iff.1 hnone
  exact ⟨bare', type', hconstructs', by rwa [hbare'.kind_eq], by rwa [htype'.kind_eq]⟩

theorem HasSignature.insert {span : Span} (h : HasSignature n) : HasSignature (insert span n) := by
  obtain ⟨hnamed, ps, hps, hparameters⟩ := h
  have hname := Comment.child?_insert span n .name
  have hrel := Comment.child?_insert span n .parameters
  rw [hps] at hrel
  obtain ⟨hnone, -⟩ | ⟨_, ps', ⟨⟩, hps', hwith⟩ := cases_of_rel hrel
  · cases hnone
  refine ⟨?_, ps', hps', ?_⟩
  · obtain ⟨hnone, -⟩ | ⟨_, _, -, hname', -⟩ := cases_of_rel hname
    · rw [hnone] at hnamed
      cases hnamed
    · rw [hname', Option.isSome_some]
  · obtain rfl | rfl := hwith
    · exact hparameters
    · intro p' hp'
      obtain ⟨p, hp, hwith⟩ := exists_mem_of_rel (Comment.constructs_insert span ps) hp'
      obtain rfl | rfl := hwith
      · exact hparameters _ hp
      · exact (hparameters _ hp).insert

theorem HasSignatures.insert {span : Span} (h : HasSignatures n) :
    HasSignatures (insert span n) := by
  intro m hm hkind
  obtain ⟨m', hm', hwith⟩ := Comment.mem_preorder_insert hm (by rw [hkind]; decide)
  have hsignature := h m' hm' (by rwa [← hwith.kind_eq])
  obtain rfl | rfl := hwith
  · exact hsignature
  · exact hsignature.insert

theorem HasSignatures.insertAll (h : HasSignatures n) (spans : List Span) :
    HasSignatures (Comment.insertAll spans n) := by
  induction spans generalizing n with
  | nil => exact h
  | cons span rest ih => exact ih h.insert

theorem hasSignatures_tree (chars : Array Char) : HasSignatures (tree chars) := by
  unfold tree
  split
  · rename_i root c hread
    -- the rules build a tree without comments, and those are put into it afterwards
    have hroot : HasSignatures root := isPassedOn_hasSignatures.program
      (fun _ h indent => hasSignatures_functionDefinition h indent) _ _ _ _ hread
    exact hroot.insertAll _
  · have hnone : ∀ c ∈ ([] : List Node), HasSignatures c := fun _ hc => nomatch hc
    exact isPassedOn_hasSignatures.make (by decide) hnone _

end Outline

end RepoGraph
