import RepoGraph.Syntax.Scan

/-!
# What scans read

Of a scan that may fail one can say what holds of everything that it reads.  `Scan.Yields` says so,
and there is one lemma for each way of putting scans together.

Main statements: `Scan.Yields.bind`, `Scan.Yields.many`, `Scan.Yields.separated`.
-/

namespace RepoGraph

/-! ### Lists of what was read -/

section Lists

variable {α : Type} {P : α → Prop}

theorem forall_mem_toList {found : Option α} (h : ∀ a ∈ found, P a) : ∀ a ∈ found.toList, P a :=
  fun a ha => h a (Option.mem_toList.1 ha)

theorem forall_mem_getD {found : Option (List α)} (h : ∀ as ∈ found, ∀ a ∈ as, P a) :
    ∀ a ∈ found.getD [], P a := by
  cases found with
  | none => exact fun _ ha => nomatch ha
  | some as => exact h as rfl

theorem forall_mem_pair {a b : α} (ha : P a) (hb : P b) : ∀ c ∈ [a, b], P c :=
  List.forall_mem_cons.2 ⟨ha, List.forall_mem_singleton.2 hb⟩

theorem forall_mem_concat {as : List α} {b : α} (has : ∀ a ∈ as, P a) (hb : P b) :
    ∀ a ∈ as ++ [b], P a :=
  List.forall_mem_append.2 ⟨has, List.forall_mem_singleton.2 hb⟩

end Lists

namespace Syntax

namespace Scan

variable {α β : Type} {P : α → Prop} {Q : β → Prop} {p : Scan α}

/-- Whether everything that a scan can read has a property. -/
def Yields (P : α → Prop) (p : Scan α) : Prop := ∀ c a d, p c = some (a, d) → P a

/-- Whether everything in the lists that a scan can read has a property. -/
abbrev YieldsAll (P : α → Prop) (p : Scan (List α)) : Prop :=
  Yields (fun found => ∀ a ∈ found, P a) p

namespace Yields

theorem pure {a : α} (h : P a) : Yields P (Pure.pure a) := by
  rintro c b d ⟨⟩
  exact h

theorem fail : Yields P Scan.fail := by
  intro c a d h
  cases h

theorem and {P' : α → Prop} (hp : Yields P p) (hp' : Yields P' p) :
    Yields (fun a => P a ∧ P' a) p :=
  fun c a d h => ⟨hp c a d h, hp' c a d h⟩

/-- What comes after a step may rely on what the step reads. -/
theorem bind {next : α → Scan β} (hp : Yields P p) (hnext : ∀ a, P a → Yields Q (next a)) :
    Yields Q (p >>= next) := by
  intro c b e h
  obtain ⟨⟨a, d⟩, hfirst, hrest⟩ := Option.bind_eq_some_iff.1 h
  exact hnext a (hp c a d hfirst) d b e hrest

/-- It need not. -/
theorem after {next : α → Scan β} (hnext : ∀ a, Yields Q (next a)) : Yields Q (p >>= next) := by
  have hp : Yields (fun _ => True) p := fun _ _ _ _ => trivial
  exact hp.bind fun a _ => hnext a

theorem maybe (hp : Yields P p) : Yields (fun found => ∀ a ∈ found, P a) (Scan.maybe p) := by
  intro c found d h
  rw [Scan.maybe] at h
  split at h
  · rename_i a d hfirst
    cases h
    rintro _ ⟨⟩
    exact hp c a d hfirst
  · cases h
    exact fun _ h => nomatch h

theorem firstOf_nil : Yields P (firstOf []) := fun _ _ _ h => nomatch h

theorem firstOf_cons {rest : List (Scan α)} (hp : Yields P p) (hrest : Yields P (firstOf rest)) :
    Yields P (firstOf (p :: rest)) := by
  intro c a d h
  simp only [firstOf] at h
  split at h
  · rename_i result hfirst
    cases h
    exact hp c a d hfirst
  · exact hrest c a d h

theorem either {q : Scan α} (hp : Yields P p) (hq : Yields P q) : Yields P (firstOf [p, q]) :=
  .firstOf_cons hp (.firstOf_cons hq .firstOf_nil)

/-- What outlives a step outlives its repetition. -/
theorem iterate {step : α → Scan α} (hstep : ∀ a, P a → Yields P (step a)) {a : α} (h : P a) :
    Yields P (Scan.iterate step a) := by
  -- by the number of rounds that are left
  have hfor : ∀ n a c, P a → P (iterateFor step n a c).1 := by
    intro n
    induction n with
    | zero => exact fun _ _ h => h
    | succ n ih =>
      intro a c h
      rw [iterateFor]
      split
      · rename_i b d hread
        have hb := hstep a h c b d hread
        split
        · exact ih b d hb
        · exact hb
      · exact h
  intro c b d hread
  rw [Scan.iterate, Option.some.injEq] at hread
  have hlast := hfor (c.chars.size + 1 - c.pos) a c h
  rwa [hread] at hlast

theorem many (hp : Yields P p) : YieldsAll P (Scan.many p) := by
  have hstep : ∀ found : List α, (∀ a ∈ found, P a) →
      YieldsAll P (do return (← p) :: found) := fun found hfound =>
    hp.bind fun a ha => .pure (List.forall_mem_cons.2 ⟨ha, hfound⟩)
  have hnone : ∀ a ∈ ([] : List α), P a := fun _ h => nomatch h
  exact (Yields.iterate hstep hnone).bind fun found hfound =>
    .pure fun a ha => hfound a (List.mem_reverse.1 ha)

theorem separated {separator : Scan Unit} (hp : Yields P p) :
    YieldsAll P (Scan.separated p separator) := by
  refine .bind hp.maybe fun first hfirst => ?_
  cases first with
  | none => exact .pure fun _ h => nomatch h
  | some a =>
    refine .bind (.many (.after fun _ => hp)) fun rest hrest => .after fun _ => .pure ?_
    exact List.forall_mem_cons.2 ⟨hfirst a rfl, hrest⟩

theorem none : YieldsAll P (Pure.pure []) := .pure fun _ h => nomatch h

theorem single (hp : Yields P p) : YieldsAll P (do return [← p]) :=
  hp.bind fun _ ha => .pure (List.forall_mem_singleton.2 ha)

theorem flatten {p : Scan (List (List α))} (hp : YieldsAll (fun found => ∀ a ∈ found, P a) p) :
    YieldsAll P (do return (← p).flatten) :=
  hp.bind fun _ hfound => .pure (List.forall_mem_flatten.2 hfound)

/-- A node that a scan makes is of its kind and has its children. -/
theorem node {kind : Kind} {start : Nat} {children : List Node} {P : Node → Prop}
    (h : ∀ span, P (Node.make kind span children)) : Yields P (Scan.node kind start children) :=
  .after fun span => .pure (h span)

end Yields

end Scan

end Syntax

end RepoGraph
