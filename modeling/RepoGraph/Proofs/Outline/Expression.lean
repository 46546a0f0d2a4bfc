import RepoGraph.Outline.Tree
import RepoGraph.Proofs.Syntax.Scan

/-!
# What the rules for expressions build

A property of nodes that is passed on from children to their construct holds of every expression
that a rule reads, as long as it holds of all that the rule's own goals are answered with.
Functions are left out: a property may say more of them than of other constructs.

Main statements: `Outline.Grammar.Respects.expression`, `Outline.Grammar.Respects.operand`.
-/

namespace RepoGraph

namespace Outline

open Syntax
open Syntax.Scan (Yields YieldsAll)

/-- Whether a property of nodes is passed on from children to their construct, if it is no function,
and does not depend on the role of a node. -/
structure IsPassedOn (P : Node → Prop) : Prop where
  make : ∀ {kind : Kind} {children : List Node}, kind ≠ .functionDefinition →
    (∀ c ∈ children, P c) →
    ∀ span, P (Node.make kind span children)
  inRole : ∀ {n : Node}, P n → ∀ role, P (n.inRole role)

/-- Whether all that goals are answered with has a property that is passed on. -/
structure Grammar.Respects (g : Grammar) (P : Node → Prop) : Prop extends IsPassedOn P where
  answer : ∀ goal, Yields P (g.parse goal)

variable {P : Node → Prop} {g : Grammar}

namespace IsPassedOn

theorem node (h : IsPassedOn P) {kind : Kind} {start : Nat} {children : List Node}
    (hkind : kind ≠ .functionDefinition) (hchildren : ∀ c ∈ children, P c) :
    Yields P (Scan.node kind start children) := .node (h.make hkind hchildren)

theorem leaf (h : IsPassedOn P) {kind : Kind} {start : Nat} (hkind : kind ≠ .functionDefinition) :
    Yields P (Scan.node kind start []) := h.node hkind fun _ hc => nomatch hc

/-- A construct of a kind that is not told apart. -/
theorem other (h : IsPassedOn P) {start : Nat} {children : List Node}
    (hchildren : ∀ c ∈ children, P c) : Yields P (Scan.node .other start children) :=
  h.node (by decide) hchildren

theorem identifier (h : IsPassedOn P) : Yields P identifier := by
  refine .after fun start => .after fun text => .after fun _ => .after fun _ => h.leaf ?_
  split <;> decide

theorem number (h : IsPassedOn P) : Yields P number :=
  .after fun _ => .after fun _ => .after fun _ => .after fun _ => .after fun _ => .after fun _ =>
    h.leaf (by decide)

end IsPassedOn

namespace Grammar.Respects

variable (h : g.Respects P)
include h

theorem goal : Yields P g.expression := h.answer _

/-! ### Between brackets -/

theorem comprehensionPart : Yields P (comprehensionPart g) := by
  have hrest : Yields P (do
      mark ","
      let e ← g.expression
      Scan.check ((← seesWord "for") || (← seesWord "if") || (← seesMark "]") || (← seesMark ","))
      return e) :=
    .after fun _ => .bind h.goal fun _ he => .after fun _ => .after fun _ => .after fun _ =>
      .after fun _ => .after fun _ => .pure he
  refine .after fun start => .bind (.either ?_ ?_) fun parts hparts => h.other hparts
  · refine .after fun _ => .after fun _ => ?_
    refine .bind (.separated (.after fun _ => h.answer _)) fun targets htargets =>
      .after fun _ => ?_
    refine .bind h.goal fun first hfirst => .bind (.many hrest) fun rest hrest => .pure ?_
    exact List.forall_mem_append.2 ⟨htargets, List.forall_mem_cons.2 ⟨hfirst, hrest⟩⟩
  · exact .after fun _ => .single h.goal

theorem itemTail : Yields P (itemTail g) := .after fun _ => h.goal

theorem item : YieldsAll P (item g) := by
  refine .after fun start => .after fun starred => .after fun yields => .after fun gap =>
    .bind h.goal.maybe fun found hfound => ?_
  have hrest : ∀ value, P value → YieldsAll P (do
      let parts ← Scan.many (Outline.comprehensionPart g)
      return value :: parts) := fun value hvalue =>
    .bind (.many h.comprehensionPart) fun parts hparts =>
      .pure (List.forall_mem_cons.2 ⟨hvalue, hparts⟩)
  split
  · exact .after fun _ => .single (h.leaf (by decide))
  · rename_i e
    have he : P e := hfound e rfl
    refine .bind (.many h.itemTail) fun tail htail => .after fun _ => ?_
    dsimp only
    split
    · exact .bind (.pure he) hrest
    · exact .bind (h.other (List.forall_mem_cons.2 ⟨he, htail⟩)) hrest

theorem items : YieldsAll P (items g) := .flatten (.separated h.item)

theorem bracketed {kind : Kind} (hkind : kind ≠ .functionDefinition) (left right : String) :
    Yields P (bracketed g kind left right) :=
  .after fun _ => .after fun _ => .bind h.items fun _ hfound => .after fun _ => h.node hkind hfound

/-! ### String literals -/

omit h in
theorem formatRun : YieldsAll P formatRun := .after fun _ => .after fun _ => .after fun _ => .none

theorem substitutedValue : YieldsAll P (substitutedValue g) :=
  .after fun _ => .after fun _ => .after fun _ =>
    .bind (.separated (.after fun _ => .after fun _ => h.goal)) fun _ hvalues =>
      .after fun _ => .after fun _ => .pure hvalues

theorem innerSubstitution : YieldsAll P (innerSubstitution g) :=
  .bind h.substitutedValue fun _ hvalues => .after fun _ => .after fun _ => .pure hvalues

theorem substitution : Yields P (substitution g) := by
  have hpart : YieldsAll (fun ns => ∀ n ∈ ns, P n)
      (Scan.many (Scan.firstOf [Outline.formatRun, Outline.innerSubstitution g])) :=
    .many (.either formatRun h.innerSubstitution)
  refine .after fun start => .bind h.substitutedValue fun values hvalues => ?_
  refine .bind (.maybe (.after fun _ => .after fun _ => .after fun _ => hpart)) fun form hform => ?_
  refine .after fun _ => h.other ?_
  exact List.forall_mem_append.2 ⟨hvalues, List.forall_mem_flatten.2 (forall_mem_getD hform)⟩

theorem literalPart (quote : Array Char) (interpolated : Bool) :
    YieldsAll P (literalPart g quote interpolated) := by
  refine .after fun n => ?_
  split
  · exact .after fun _ => .none
  · exact .after fun _ => .single h.substitution

theorem string : Yields P (string g) :=
  .after fun _ => .after fun _ => .after fun _ => .after fun _ => .after fun _ =>
    .bind (.many (h.literalPart _ _)) fun _ hparts => .after fun _ => .after fun _ =>
      .after fun _ =>
      h.node (by decide) (List.forall_mem_flatten.2 hparts)

theorem strings : Yields P (strings g) := by
  refine .bind h.string fun first hfirst => .bind (.many h.string) fun rest hrest => ?_
  split
  · exact .pure hfirst
  · exact h.other (List.forall_mem_cons.2 ⟨hfirst, hrest⟩)

/-! ### Operands -/

theorem plainParameter : YieldsAll P (plainParameter g) :=
  .after fun _ => .after fun _ => .bind (.maybe (.after fun _ => h.goal)) fun _ hvalue =>
    .pure (forall_mem_toList hvalue)

theorem lambda (stopsAtIn : Bool) : Yields P (lambda g stopsAtIn) := by
  refine .after fun start => .after fun _ => .bind (.separated h.plainParameter)
    fun values hvalues => ?_
  refine .after fun _ => .bind (h.answer _) fun body hbody => h.other ?_
  exact forall_mem_concat (List.forall_mem_flatten.2 hvalues) hbody

theorem atom : Yields P (atom g) := by
  refine .after fun next => ?_
  split
  · exact .fail
  · have hbracketed : ∀ left right, Yields P (Outline.bracketed g .other left right) :=
      h.bracketed (by decide)
    have hdots : Yields P (do
        let start ← Scan.position
        Scan.firstOf [Outline.number, (do
          mark "..."
          Scan.node .other start [])]) :=
      .after fun _ => .either h.number (.after fun _ => h.leaf (by decide))
    have hword : Yields P (Scan.firstOf [Outline.strings g, Outline.identifier]) :=
      .either h.strings h.identifier
    repeat' split
    · exact hbracketed _ _
    · exact hbracketed _ _
    · exact hbracketed _ _
    · exact h.number
    · exact hdots
    · exact h.strings
    · exact hword

theorem callStep {n : Node} (hn : P n) : Yields P (callStep g n) := by
  refine .after fun next => ?_
  split
  · exact .bind (h.bracketed (by decide) _ _) fun arguments harguments =>
      h.node (by decide) (forall_mem_pair (h.inRole hn _) (h.inRole harguments _))
  · exact .bind (h.bracketed (by decide) _ _) fun part hpart => h.other (forall_mem_pair hn hpart)
  · refine .after fun _ => .after fun _ => .after fun _ => .after fun _ => .after fun _ => ?_
    exact .bind (h.leaf (by decide)) fun name hname =>
      h.node (by decide) (forall_mem_pair hn (h.inRole hname _))
  · exact .fail

theorem operand : Yields P (operand g) := by
  refine .after fun start =>
    .firstOf_cons ?_ (.firstOf_cons (h.lambda _) (.firstOf_cons ?_ .firstOf_nil))
  · exact .after fun _ => .bind (h.answer _) fun e he => h.other (List.forall_mem_singleton.2 he)
  · exact .bind h.atom fun n hn => .iterate (fun n hn => h.callStep hn) hn

/-! ### Operators -/

theorem operatorStep (stopsAtIn : Bool) : Yields P (operatorStep g stopsAtIn) :=
  .after fun _ => .after fun _ => .after fun _ => h.answer _

theorem otherChoice : YieldsAll P (otherChoice g) :=
  .after fun _ => .bind h.goal fun _ htest => .after fun _ => .bind h.goal fun _ hother =>
    .pure (forall_mem_pair htest hother)

theorem expression (stopsAtIn : Bool) : Yields P (Outline.expression g stopsAtIn) := by
  refine .bind (h.answer _) fun first hfirst =>
    .bind (.many (h.operatorStep _)) fun rest hrest => ?_
  refine .bind h.otherChoice.maybe fun choice hchoice => ?_
  dsimp only
  split
  · exact .pure hfirst
  · exact h.other (List.forall_mem_cons.2
      ⟨hfirst, List.forall_mem_append.2 ⟨hrest, forall_mem_getD hchoice⟩⟩)

theorem starredExpression (stopsAtIn : Bool) : Yields P (starredExpression g stopsAtIn) := by
  refine .after fun starred => ?_
  split
  · exact .after fun _ => .after fun _ => .bind (h.answer _) fun e he =>
      h.other (List.forall_mem_singleton.2 he)
  · exact h.answer _

theorem expressions (stopsAtIn : Bool) : YieldsAll P (expressions g stopsAtIn) :=
  .bind (.separated (h.starredExpression _)) fun _ hfound => .after fun _ => .pure hfound

end Grammar.Respects

end Outline

end RepoGraph
