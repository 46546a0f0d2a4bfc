import RepoGraph.Proofs.Outline.Expression

/-!
# What the rules for statements build

What is passed on from children to their construct holds of every statement that a rule reads, and
of every line of a source, as long as the rule for functions keeps it.

Main statements: `Outline.Grammar.Respects.suite`, `Outline.IsPassedOn.program`.
-/

namespace RepoGraph

namespace Outline

open Syntax
open Syntax.Scan (Yields YieldsAll)

variable {P : Node → Prop} {g : Grammar}

/-! ### Names of modules -/

namespace IsPassedOn

variable (h : IsPassedOn P)
include h

theorem dottedName : Yields P dottedName :=
  .after fun _ => .bind h.identifier fun _ hfirst => .after fun _ =>
    h.other (List.forall_mem_singleton.2 hfirst)

theorem importItem : Yields P importItem := by
  refine .after fun start => .bind h.dottedName fun name hname => ?_
  refine .bind (.maybe (.after fun _ => h.identifier)) fun other hother => ?_
  split
  · refine .bind (h.node (by decide) ?_) fun n hn => .pure (h.inRole hn _)
    exact forall_mem_pair (h.inRole hname _) (hother _ rfl)
  · exact .pure (h.inRole hname _)

theorem importStatement : Yields P importStatement :=
  .after fun _ => .after fun _ => .bind (.separated h.importItem) fun _ hnames =>
    h.node (by decide) hnames

theorem relativeModule : Yields P relativeModule :=
  .after fun _ => .after fun _ => .after fun _ => .bind h.dottedName.maybe fun _ hname =>
    h.other (forall_mem_toList hname)

theorem wildcardImport : YieldsAll P wildcardImport :=
  .after fun _ => .after fun _ => .single (h.leaf (by decide))

theorem importFrom : Yields P importFrom := by
  have hitems : YieldsAll P (Scan.separated Outline.importItem (mark ",")) :=
    .separated h.importItem
  have hnames : YieldsAll P (Scan.firstOf [Outline.wildcardImport, (do
      opening "("
      let names ← Scan.separated Outline.importItem (mark ",")
      closing ")"
      return names), Scan.separated Outline.importItem (mark ",")]) :=
    .firstOf_cons h.wildcardImport (.firstOf_cons
      (.after fun _ => .bind hitems fun _ hnames => .after fun _ => .pure hnames)
      (.firstOf_cons hitems .firstOf_nil))
  refine .after fun start => .after fun _ => .after fun isFuture => ?_
  refine .bind (.either h.relativeModule h.dottedName) fun module hmodule => .after fun _ => ?_
  refine .bind hnames fun names hnames => h.node ?_ ?_
  · split <;> decide
  · exact List.forall_mem_cons.2 ⟨h.inRole hmodule _, hnames⟩

end IsPassedOn

namespace Grammar.Respects

variable (h : g.Respects P)
include h

/-! ### Simple statements -/

theorem yielded : YieldsAll P (yielded g) :=
  .after fun _ => .after fun _ => .after fun _ => .bind (h.expressions false).maybe fun _ hvalues =>
    .single (h.other (forall_mem_getD hvalues))

theorem assignedValues : YieldsAll P (assignedValues g) :=
  .either h.yielded (h.expressions false)

theorem assignedPlace {places : List Node} (hplaces : ∀ n ∈ places, P n) :
    Yields P (assignedPlace places) := by
  unfold Outline.assignedPlace
  split
  · refine .after fun c => ?_
    split
    · exact h.other hplaces
    · exact .pure (hplaces _ List.mem_cons_self)
  · exact h.other hplaces

theorem assignStep : YieldsAll P (assignStep g) :=
  .after fun _ => .after fun _ => .after fun _ => h.assignedValues

theorem assignment (start : Nat) {places : List Node} (hplaces : ∀ n ∈ places, P n) :
    Yields P (assignment g start places) := by
  have htype : Yields P (do
      mark ":"
      let typeStart ← Scan.position
      let t ← g.expression
      Scan.node .other typeStart [t]) :=
    .after fun _ => .after fun _ => .bind h.goal fun _ ht =>
      h.other (List.forall_mem_singleton.2 ht)
  refine .bind (h.assignedPlace hplaces) fun place hplace => .bind htype.maybe fun type htype => ?_
  refine .bind (.many h.assignStep) fun values hvalues => .after fun _ => h.node (by decide) ?_
  exact List.forall_mem_cons.2 ⟨h.inRole hplace _, List.forall_mem_append.2
    ⟨forall_mem_toList htype, List.forall_mem_flatten.2 hvalues⟩⟩

theorem update (start : Nat) {places : List Node} (hplaces : ∀ n ∈ places, P n) :
    Yields P (update g start places) :=
  .after fun _ => .bind h.assignedValues fun _ hvalues =>
    h.other (List.forall_mem_append.2 ⟨hplaces, hvalues⟩)

theorem expressionStatement : Yields P (expressionStatement g) := by
  refine .after fun start => .bind h.yielded.maybe fun found hfound => ?_
  split
  · exact h.node (by decide) (hfound _ rfl)
  · refine .bind (h.expressions false) fun places hplaces => ?_
    refine .bind (.maybe (.either (h.update _ hplaces) (h.assignment _ hplaces)))
      fun found hfound => ?_
    split
    · exact h.node (by decide) (List.forall_mem_singleton.2 (hfound _ rfl))
    · refine .bind (.maybe (.after fun _ => h.goal)) fun named hnamed => h.node (by decide) ?_
      exact List.forall_mem_append.2 ⟨hplaces, forall_mem_toList hnamed⟩

theorem plainStatement : Yields P (plainStatement g) := by
  refine .after fun start => .after fun _ => ?_
  refine .bind (h.expressions false).maybe fun values hvalues => ?_
  refine .bind (.maybe (.after fun _ => h.goal)) fun cause hcause => h.other ?_
  exact List.forall_mem_append.2 ⟨forall_mem_getD hvalues, forall_mem_toList hcause⟩

theorem actionStatement : Yields P (actionStatement g) := by
  have htarget (isPrint : Bool) : Yields P (do
      Scan.check isPrint
      mark ">>"
      let e ← g.expression
      let _ ← Scan.maybe (mark ",")
      return e) :=
    .after fun _ => .after fun _ => .bind h.goal fun _ he => .after fun _ => .pure he
  refine .after fun start => .after fun w => .bind (htarget _).maybe fun target htarget => ?_
  refine .after fun c => .after fun next => .after fun _ => ?_
  refine .bind (h.expressions false).maybe fun values hvalues => h.other ?_
  exact List.forall_mem_append.2 ⟨forall_mem_toList htarget, forall_mem_getD hvalues⟩

theorem typeStatement : Yields P (typeStatement g) := by
  refine .after fun start => .after fun _ => .after fun c => .after fun next => .after fun _ => ?_
  refine .bind h.goal fun name hname => .after fun _ => .bind h.goal fun value hvalue => ?_
  exact h.other (forall_mem_pair hname hvalue)

theorem simpleStatement : Yields P (simpleStatement g) := by
  refine .after fun w => ?_
  repeat' split
  · exact h.importStatement
  · exact h.importFrom
  · exact h.plainStatement
  · exact .either h.actionStatement h.expressionStatement
  · exact .either h.typeStatement h.expressionStatement
  · exact h.expressionStatement

theorem simpleLine : YieldsAll P (simpleLine g) :=
  .bind (.separated h.simpleStatement) fun _ hfound => .after fun _ => .after fun _ => .pure hfound

/-! ### Blocks -/

theorem blockLine (indent : Nat) : YieldsAll P (blockLine g indent) :=
  .after fun _ => .after fun _ => .after fun _ => .after fun _ =>
    .firstOf_cons (.single (h.answer _)) (.firstOf_cons h.simpleLine
      (.firstOf_cons (.after fun _ => .after fun _ => .none) .firstOf_nil))

theorem blockLines (indent : Nat) : YieldsAll P (blockLines g indent) :=
  .bind (.many (h.blockLine indent)) fun _ hfound => .after fun _ =>
    .pure (List.forall_mem_flatten.2 hfound)

theorem suite (indent : Nat) : Yields P (suite g indent) := by
  refine .after fun _ => .after fun start => .bind h.simpleLine.maybe fun found hfound => ?_
  split
  · exact h.node (by decide) (hfound _ rfl)
  · refine .after fun _ => .after fun line => ?_
    split
    · exact .bind (h.blockLines _) fun found hfound => h.node (by decide) hfound
    · exact .after fun c => h.leaf (by decide)

omit h in
theorem onNextLine {α : Type} {Q : α → Prop} {p : Scan α} (hp : Yields Q p) (indent : Nat) :
    Yields Q (onNextLine indent p) := .after fun _ => .after fun _ => .after fun _ => hp

/-! ### Compound statements -/

theorem condition : YieldsAll P (condition g) :=
  .bind h.goal fun _ he => .bind (.maybe (.after fun _ => h.goal)) fun _ hnamed =>
    .pure (List.forall_mem_cons.2 ⟨he, forall_mem_toList hnamed⟩)

theorem elsePart (indent : Nat) : YieldsAll P (elsePart g indent) :=
  .after fun _ => .single (h.suite indent)

theorem ifStatement (indent : Nat) : Yields P (ifStatement g indent) := by
  have helif : YieldsAll P (do
      word "elif"
      let test ← Outline.condition g
      let body ← Outline.suite g indent
      return test ++ [body]) :=
    .after fun _ => .bind h.condition fun _ htest => .bind (h.suite indent) fun _ hbody =>
      .pure (forall_mem_concat htest hbody)
  refine .after fun start => .after fun _ => .bind h.condition fun test htest => ?_
  refine .bind (h.suite indent) fun body hbody => ?_
  refine .bind (.many (onNextLine helif indent)) fun others hothers => ?_
  refine .bind (onNextLine (h.elsePart indent) indent).maybe fun final hfinal => h.other ?_
  simp only [List.forall_mem_append, List.forall_mem_singleton]
  exact ⟨⟨⟨htest, hbody⟩, List.forall_mem_flatten.2 hothers⟩, forall_mem_getD hfinal⟩

theorem forStatement (indent : Nat) : Yields P (forStatement g indent) := by
  refine .after fun start => .after fun _ => .after fun _ => ?_
  refine .bind (h.expressions true) fun targets htargets => .after fun _ => ?_
  refine .bind (h.expressions false) fun values hvalues =>
    .bind (h.suite indent) fun body hbody => ?_
  refine .bind (onNextLine (h.elsePart indent) indent).maybe fun final hfinal => h.other ?_
  simp only [List.forall_mem_append, List.forall_mem_singleton]
  exact ⟨⟨⟨htargets, hvalues⟩, hbody⟩, forall_mem_getD hfinal⟩

theorem whileStatement (indent : Nat) : Yields P (whileStatement g indent) := by
  refine .after fun start => .after fun _ => .bind h.condition fun test htest => ?_
  refine .bind (h.suite indent) fun body hbody => ?_
  refine .bind (onNextLine (h.elsePart indent) indent).maybe fun final hfinal => h.other ?_
  simp only [List.forall_mem_append, List.forall_mem_singleton]
  exact ⟨⟨htest, hbody⟩, forall_mem_getD hfinal⟩

theorem handler (indent : Nat) : YieldsAll P (handler g indent) := by
  refine .after fun _ => .after fun _ => .bind (h.expressions false).maybe fun kinds hkinds => ?_
  refine .after fun _ => .bind (h.suite indent) fun body hbody => ?_
  exact .pure (forall_mem_concat (forall_mem_getD hkinds) hbody)

theorem tryStatement (indent : Nat) : Yields P (tryStatement g indent) := by
  have hlast : YieldsAll P (do
      word "finally"
      return [← Outline.suite g indent]) := .after fun _ => .single (h.suite indent)
  refine .after fun start => .after fun _ => .bind (h.suite indent) fun body hbody => ?_
  refine .bind (.many (onNextLine (h.handler indent) indent)) fun handlers hhandlers => ?_
  refine .bind (onNextLine (h.elsePart indent) indent).maybe fun other hother => ?_
  refine .bind (onNextLine hlast indent).maybe fun final hfinal => h.other ?_
  simp only [List.forall_mem_append, List.forall_mem_singleton]
  exact ⟨⟨⟨hbody, List.forall_mem_flatten.2 hhandlers⟩, forall_mem_getD hother⟩,
    forall_mem_getD hfinal⟩

theorem resource : Yields P (resource g) := by
  refine .after fun start => .bind h.goal fun e he => ?_
  refine .bind (.maybe (.after fun _ => h.starredExpression false)) fun name hname => ?_
  split
  · exact h.other (forall_mem_pair he (hname _ rfl))
  · exact .pure he

theorem withStatement (indent : Nat) : Yields P (withStatement g indent) := by
  refine .after fun start => .after fun _ => .after fun _ => ?_
  refine .bind (.separated h.resource) fun resources hresources => ?_
  exact .bind (h.suite indent) fun body hbody => h.other (forall_mem_concat hresources hbody)

theorem matchCase (indent : Nat) : YieldsAll P (matchCase g indent) := by
  refine .after fun _ => .after fun _ => .bind (.maybe (.after fun _ => h.condition))
    fun test htest => ?_
  exact .bind (h.suite indent) fun body hbody =>
    .pure (forall_mem_concat (forall_mem_getD htest) hbody)

theorem matchStatement : Yields P (matchStatement g) := by
  refine .after fun start => .after fun _ => .bind (h.expressions false) fun values hvalues => ?_
  refine .after fun _ => .after fun _ => .after fun line => ?_
  refine .bind (.many (onNextLine (h.matchCase line.indent) line.indent)) fun cases hcases => ?_
  refine .after fun _ => .after fun _ => h.other ?_
  exact List.forall_mem_append.2 ⟨hvalues, List.forall_mem_flatten.2 hcases⟩

/-! ### Definitions -/

theorem typeParameters : YieldsAll P (typeParameters g) := by
  refine .bind (h.bracketed (by decide) _ _).maybe fun found hfound => ?_
  split
  · exact .pure (List.forall_mem_singleton.2 (hfound _ rfl))
  · exact .none

theorem typeNode : Yields P (typeNode g) :=
  .after fun _ => .bind (h.starredExpression false) fun _ ht =>
    h.other (List.forall_mem_singleton.2 ht)

theorem spreadParameter : Yields P (spreadParameter g) := by
  refine .after fun start => .after fun _ => .bind h.identifier.maybe fun found hfound => ?_
  split
  · exact h.leaf (by decide)
  · refine .bind (h.node (by decide) (List.forall_mem_singleton.2 (hfound _ rfl))) fun n hn => ?_
    refine .bind (.maybe (.after fun _ => h.typeNode)) fun type htype => ?_
    split
    · exact h.node (by decide) (forall_mem_pair hn (htype _ rfl))
    · exact .pure hn

theorem namedParameter : Yields P (namedParameter g) := by
  refine .after fun start => ?_
  refine .bind (.either h.identifier (h.bracketed (by decide) _ _)) fun name hname => ?_
  refine .bind (.maybe (.after fun _ => h.typeNode)) fun type htype => ?_
  refine .bind (.maybe (.after fun _ => h.goal)) fun value hvalue => ?_
  split
  · exact .pure hname
  · exact h.node (by decide) (forall_mem_pair hname (htype _ rfl))
  · refine h.node (by decide) ?_
    simp only [List.forall_mem_append, List.forall_mem_singleton]
    exact ⟨⟨h.inRole hname _, forall_mem_toList htype⟩, h.inRole (hvalue _ rfl) _⟩

theorem parameters : Yields P (parameters g) :=
  .after fun _ => .after fun _ => .bind (.separated (.either h.spreadParameter h.namedParameter))
    fun _ hfound => .after fun _ => h.node (by decide) hfound

theorem classDefinition (indent : Nat) : Yields P (classDefinition g indent) := by
  refine .after fun start => .after fun _ => .bind h.identifier fun name hname => ?_
  refine .bind h.typeParameters fun types htypes => ?_
  refine .bind (h.bracketed (by decide) _ _).maybe fun bases hbases => ?_
  refine .bind (h.suite indent) fun body hbody => h.node (by decide) ?_
  simp only [List.forall_mem_append, List.forall_mem_singleton]
  refine ⟨⟨⟨h.inRole hname _, htypes⟩, forall_mem_toList fun base hbase => ?_⟩, h.inRole hbody _⟩
  obtain ⟨n, hn, rfl⟩ := Option.map_eq_some_iff.1 hbase
  exact h.inRole (hbases n hn) _

theorem decorator : Yields P (decorator g) :=
  .after fun _ => .after fun _ => .bind h.condition fun _ hnamed => .after fun _ => h.other hnamed

section Functions

variable (hfunction : ∀ indent, Yields P (functionDefinition g indent))
include hfunction

theorem definition (indent : Nat) : Yields P (definition g indent) :=
  .either (hfunction indent) (h.classDefinition indent)

theorem decoratedDefinition (indent : Nat) : Yields P (decoratedDefinition g indent) := by
  refine .after fun start => .bind h.decorator fun first hfirst => .after fun line => ?_
  refine .bind (.many (onNextLine h.decorator line.indent)) fun rest hrest => ?_
  refine .bind (onNextLine (h.definition hfunction indent) line.indent) fun inner hinner => ?_
  refine h.node (by decide) (List.forall_mem_cons.2 ⟨hfirst, ?_⟩)
  exact forall_mem_concat hrest (h.inRole hinner _)

theorem statement (indent : Nat) : Yields P (statement g indent) := by
  refine .after fun next => ?_
  split
  · exact h.decoratedDefinition hfunction indent
  · refine .after fun w => ?_
    repeat' split
    · exact h.ifStatement indent
    · exact h.forStatement indent
    · exact h.whileStatement indent
    · exact h.tryStatement indent
    · exact h.withStatement indent
    · exact h.matchStatement
    · exact .firstOf_cons (hfunction indent) (.firstOf_cons (h.forStatement indent)
        (.firstOf_cons (h.withStatement indent) .firstOf_nil))
    · exact h.definition hfunction indent

end Functions

end Grammar.Respects

/-! ### Sources -/

variable (h : IsPassedOn P)
  (hfunction : ∀ g : Grammar, g.Respects P → ∀ indent, Yields P (functionDefinition g indent))
include h hfunction

/-- Whatever the goals of a rule are answered with, the rules answer within a bound what they answer
within a smaller one, and nothing without any. -/
theorem IsPassedOn.respects_parse (bound : Nat) : Grammar.Respects ⟨parse bound⟩ P := by
  induction bound with
  | zero => exact ⟨h, fun _ => .fail⟩
  | succ bound ih =>
    refine ⟨h, fun goal => ?_⟩
    cases goal with
    | statement indent => exact ih.statement (hfunction _ ih) indent
    | expression stopsAtIn => exact ih.expression stopsAtIn
    | operand => exact ih.operand

theorem IsPassedOn.program (bound : Nat) : Yields P (program bound) :=
  .bind ((h.respects_parse hfunction bound).blockLines 0) fun _ hfound => h.other hfound

end Outline

end RepoGraph
