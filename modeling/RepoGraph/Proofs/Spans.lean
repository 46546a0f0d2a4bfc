import Mathlib.Order.Defs.Unbundled
import RepoGraph.Proofs.Build
import RepoGraph.Proofs.Staging

/-!
# Relations between the worlds before and after a step

A relation between worlds spans a step if it holds between the world before the step and the world
after it, whether the step fails or not.  A preorder spans what is made of steps that it spans, so
that only the basic steps have to be looked at.

`World.SendsOnly kind w w'` is such a preorder: of the statements that were sent to a graph server
between the two worlds all are of one kind.

A step is quiet if all that it leaves is a note of what was done, whether it fails or not; what is
made of quiet steps is quiet.

Main statements: `Build.Spans.bind`, `Build.Spans.forM`, `Build.IsQuiet.bind`,
`Build.IsQuiet.wp_answer`, `Build.IsQuiet.wp_bind`.
-/

namespace RepoGraph

namespace Build

variable {α β : Type} {R S : World → World → Prop} {outside : Outside} {w w' : World}
  {step step' : Build α}

/-- A relation holds between the worlds before and after a step, whether the step fails or not. -/
def Spans (R : World → World → Prop) (outside : Outside) (step : Build α) : Prop :=
  ∀ w, step.wp (fun _ w' => R w w') (fun _ w' => R w w') outside w

namespace Spans

theorem mono (h : Spans R outside step) (hsub : ∀ w w', R w w' → S w w') : Spans S outside step :=
  fun w => wp_mono (h w) (fun _ _ => hsub w _) fun _ _ => hsub w _

theorem modify {change : World → World} (h : ∀ w, R w (change w)) :
    Spans R outside (modify change : Build PUnit) := h

theorem note {event : Event} (h : ∀ w : World, R w { w with events := event :: w.events }) :
    Spans R outside (note event) := h

theorem attempt {event : Event} (h : ∀ w : World, R w { w with events := event :: w.events }) :
    Spans R outside (attempt event) :=
  fun w => (wp_attempt event).2 ⟨fun _ => h w, fun _ _ => h w⟩

theorem changeDisk {change : Disk → Place → Except DiskFault Disk} {step : DiskStep}
    (h : ∀ (w : World) (disk : Disk), R w { w with disk, events := .disk step :: w.events }) :
    Spans R outside (changeDisk step change) := fun w =>
  (wp_changeDisk step change).2
    ⟨fun _ => ⟨fun disk _ => h w disk, fun _ _ => h w w.disk⟩, fun _ _ => h w w.disk⟩

theorem ite {c : Prop} [Decidable c] (h : Spans R outside step) (h' : Spans R outside step') :
    Spans R outside (if c then step else step') := by
  split
  · exact h
  · exact h'

theorem outcome (h : Spans R outside step) : Spans R outside (outcome step) :=
  fun w => (wp_outcome step).2 (h w)

variable [IsPreorder World R]

/-- What holds before a step goes on to hold after it. -/
theorem wp (h : Spans R outside step) (hw : R w w') :
    step.wp (fun _ w'' => R w w'') (fun _ w'' => R w w'') outside w' :=
  wp_mono (h w') (fun _ _ => IsTrans.trans _ _ _ hw) fun _ _ => IsTrans.trans _ _ _ hw

theorem pure (a : α) : Spans R outside (Pure.pure a : Build α) := fun w => refl w

theorem fail (f : Failure) : Spans R outside (fail f : Build α) := fun w => refl w

theorem take {ε : Type} (reason : ε → Failure) (answer : Except ε α) :
    Spans R outside (take reason answer) := by
  cases answer with
  | ok a => exact pure a
  | error e => exact fail (reason e)

theorem get : Spans R outside (get : Build World) := fun w => refl w

theorem read : Spans R outside (read : Build Outside) := fun w => refl w

theorem now : Spans R outside now := fun w => refl w

theorem askDisk (question : Disk → Place → α) : Spans R outside (askDisk question) :=
  fun w => refl w

theorem bind {next : α → Build β} (h : Spans R outside step)
    (hnext : ∀ a, Spans R outside (next a)) : Spans R outside (step >>= next) := by
  intro w
  rw [wp_bind]
  exact wp_mono (h w) (fun a _ hw => (hnext a).wp hw) fun _ _ hw => hw

theorem readContent {path : String}
    (h : ∀ w : World, R w { w with events := .disk (.read path) :: w.events }) :
    Spans R outside (readContent path) :=
  (attempt h).bind fun _ => (askDisk _).bind fun _ => take _ _

theorem readText {path : String}
    (h : ∀ w : World, R w { w with events := .disk (.read path) :: w.events }) :
    Spans R outside (readText path) :=
  (readContent h).bind fun _ => take _ _

/-- A preorder spans a loop if it spans every round. -/
theorem forM {items : List α} {next : α → Build PUnit}
    (h : ∀ item ∈ items, Spans R outside (next item)) : Spans R outside (items.forM next) := by
  induction items with
  | nil => exact pure _
  | cons item rest ih =>
    exact (h item List.mem_cons_self).bind fun _ =>
      ih fun other hother => h other (List.mem_cons_of_mem _ hother)

end Spans

end Build

/-! ### Statements of one kind -/

/-- Of the statements that were sent between two worlds all are of one kind. -/
def World.SendsOnly (kind : Statement → Prop) (w w' : World) : Prop :=
  ∃ more, w'.events = more ++ w.events ∧ ∀ s, Event.statement s ∈ more → kind s

namespace World.SendsOnly

variable {kind : Statement → Prop} {w w' : World}

theorem of_events_eq (h : w'.events = w.events) : SendsOnly kind w w' := ⟨[], h, by simp⟩

theorem cons {event : Event} (h : ∀ s, event = .statement s → kind s) :
    SendsOnly kind w { w with events := event :: w.events } :=
  ⟨[event], rfl, by simpa [eq_comm] using h⟩

instance : IsPreorder World (SendsOnly kind) where
  refl w := of_events_eq rfl
  trans := by
    rintro w w' w'' ⟨more, hmore, hkind⟩ ⟨more', hmore', hkind'⟩
    refine ⟨more' ++ more, by rw [hmore', hmore, List.append_assoc], fun s hs => ?_⟩
    exact (List.mem_append.1 hs).elim (hkind' s) (hkind s)

end World.SendsOnly

/-! ### Steps that change nothing -/

open Staging (Notes)

variable {outside : Outside} {w w' : World}

namespace Build

variable {α β : Type} {step step' : Build α}

instance : IsPreorder World Notes where
  refl w := ⟨w.events, rfl⟩
  trans _ _ _ := Notes.trans

/-- Whether a step changes nothing, whether it fails or not: notes span it. -/
def IsQuiet (outside : Outside) (step : Build α) : Prop :=
  ∀ w, step.wp (fun _ w' => Notes w w') (fun _ w' => Notes w w') outside w

namespace IsQuiet

theorem pure (a : α) : (Pure.pure a : Build α).IsQuiet outside := Spans.pure a

theorem fail (f : Failure) : (fail f : Build α).IsQuiet outside := Spans.fail f

theorem take {ε : Type} (reason : ε → Failure) (answer : Except ε α) :
    (take reason answer).IsQuiet outside := Spans.take reason answer

theorem bind {next : α → Build β} (h : step.IsQuiet outside)
    (hnext : ∀ a, (next a).IsQuiet outside) : (step >>= next).IsQuiet outside := Spans.bind h hnext

theorem ite {c : Prop} [Decidable c] (h : step.IsQuiet outside) (h' : step'.IsQuiet outside) :
    (if c then step else step').IsQuiet outside := Spans.ite h h'

theorem outcome (h : step.IsQuiet outside) : (outcome step).IsQuiet outside := Spans.outcome h

theorem log (level : LogLevel) (channel : String) (parts : List LogPart) :
    (log level channel parts).IsQuiet outside := Spans.note fun _ => ⟨_, rfl⟩

theorem now : now.IsQuiet outside := Spans.now

theorem stamp : stamp.IsQuiet outside := Spans.now.bind fun _ => .pure _

theorem askDisk (question : Disk → Place → α) : (askDisk question).IsQuiet outside :=
  Spans.askDisk question

theorem readText (path : String) : (readText path).IsQuiet outside :=
  Spans.readText fun _ => ⟨_, rfl⟩

/-- A step that changes nothing establishes the answer that it gives. -/
theorem wp_answer (h : step.IsQuiet outside) (w : World) :
    step.wp (fun a w' => (step.run outside w).1 = .ok a ∧ Notes w w')
      (fun f w' => (step.run outside w).1 = .error f ∧ Notes w w') outside w :=
  wp_mono (wp_and (wp_eq_iff.2 rfl) (h w)) (fun _ _ h => ⟨h.1.symm, h.2⟩)
    fun _ _ h => ⟨h.1.symm, h.2⟩

/-- What comes after a step that changes nothing. -/
theorem wp_bind {next : α → Build β} {done : β → World → Prop} {failed : Failure → World → Prop}
    (h : step.IsQuiet outside) (hw : Notes w w') (hfailed : ∀ f w'', Notes w w'' → failed f w'')
    (hnext : ∀ a w'', Notes w w'' → (next a).wp done failed outside w'') :
    (step >>= next).wp done failed outside w' := by
  rw [Build.wp_bind]
  exact wp_mono (h w') (fun a w₁ hw₁ => hnext a w₁ (hw.trans hw₁)) fun f w₁ hw₁ =>
    hfailed f w₁ (hw.trans hw₁)

end IsQuiet

end Build

end RepoGraph
