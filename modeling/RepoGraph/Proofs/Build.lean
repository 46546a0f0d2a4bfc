import RepoGraph.Batch
import RepoGraph.Proofs.Corresponding
import RepoGraph.World

/-!
# What a step of a build establishes

`Build.wp step done failed` holds of the worlds from which a step ends well: with an answer and a
world in `done`, or with a failure and a world in `failed`.  Every way of making a step has one
equation, so a step is followed by rewriting with these equations, and a loop by an invariant of the
items it has gone through.

Main statements: `Build.wp_bind`, `Build.wp_ensuring`, `Build.wp_attempt`, `Build.wp_changeDisk`,
`Build.wp_forM`.

`Build.Succeeds` says that a step gives an answer; what it establishes, it then establishes without
failing.  `Outside.IsCalm` are the surroundings in which nothing is refused.
-/

namespace RepoGraph

/-! ### Batches -/

namespace Batch

variable {α : Type}

theorem map_fst_go (before : Nat) (batches : List (List α)) :
    (counted.go before batches).map Prod.fst = batches := by
  induction batches generalizing before with
  | nil => rfl
  | cons batch rest ih => rw [counted.go, List.map_cons, ih]

/-- The batches that are counted hold the items, in order. -/
theorem flatMap_counted (size : Nat) (items : List α) :
    (counted size items).flatMap Prod.fst = items := by
  rw [List.flatMap_def, counted, map_fst_go, flatten_split]

/-- Batches of what a list is turned into are what its batches are turned into. -/
theorem split_map {β : Type} (f : α → β) (size : Nat) (items : List α) :
    split size (items.map f) = (split size items).map (List.map f) := by
  fun_induction split size items with
  | case1 => rw [List.map_nil, split, List.map_nil]
  | case2 item rest ih =>
    rw [List.map_cons, split, ← List.map_take, ← List.map_drop, ih]
    rfl

end Batch

namespace Build

variable {α β : Type} {done : α → World → Prop} {failed : Failure → World → Prop}
  {outside : Outside} {w : World}

/-- An answer and a world are in `done`, or a failure and a world in `failed`. -/
def Ends (done : α → World → Prop) (failed : Failure → World → Prop) :
    Except Failure α × World → Prop
  | (.ok answer, after) => done answer after
  | (.error f, after) => failed f after

/-- A step ends with an answer and a world in `done`, or with a failure and a world in `failed`. -/
def wp (step : Build α) (done : α → World → Prop) (failed : Failure → World → Prop)
    (outside : Outside) (w : World) : Prop :=
  Ends done failed (step.run outside w)

/-- What a step establishes holds of the answer it gives. -/
theorem of_wp_of_ok {step : Build α} (h : step.wp done failed outside w) {answer : α}
    {after : World} (hrun : step.run outside w = (.ok answer, after)) : done answer after := by
  rw [wp, hrun] at h
  exact h

/-- What a step establishes holds of the answer it gives and of the world it leaves. -/
theorem of_wp_of_toOption {step : Build α} (h : step.wp done failed outside w) {answer : α}
    (hrun : (step.run outside w).1.toOption = some answer) :
    done answer (step.run outside w).2 := by
  unfold wp at h
  generalize step.run outside w = ending at h hrun ⊢
  obtain ⟨_ | a, after⟩ := ending
  · cases hrun
  · cases hrun
    exact h

/-- What a step establishes holds of the failure it ends with. -/
theorem of_wp_of_error {step : Build α} (h : step.wp done failed outside w) {f : Failure}
    {after : World} (hrun : step.run outside w = (.error f, after)) : failed f after := by
  rw [wp, hrun] at h
  exact h

/-- A step that does not fail gives an answer, as it establishes. -/
theorem exists_run_of_wp {step : Build α} (h : step.wp done (fun _ _ => False) outside w) :
    ∃ answer after, step.run outside w = (.ok answer, after) ∧ done answer after := by
  unfold wp at h
  generalize step.run outside w = ending at h ⊢
  obtain ⟨_ | answer, after⟩ := ending
  · exact h.elim
  · exact ⟨answer, after, rfl, h⟩

/-- What a step establishes whether it fails or not holds of the world it leaves. -/
theorem of_wp {P : World → Prop} {step : Build α}
    (h : step.wp (fun _ w' => P w') (fun _ w' => P w') outside w) : P (step.run outside w).2 := by
  unfold wp at h
  generalize step.run outside w = ending at h ⊢
  obtain ⟨_ | a, after⟩ := ending <;> exact h

theorem wp_mono {step : Build α} {done' : α → World → Prop} {failed' : Failure → World → Prop}
    (h : step.wp done failed outside w) (hdone : ∀ a w', done a w' → done' a w')
    (hfailed : ∀ f w', failed f w' → failed' f w') : step.wp done' failed' outside w := by
  unfold wp at h ⊢
  generalize step.run outside w = ending at h ⊢
  obtain ⟨_ | _, after⟩ := ending
  · exact hfailed _ _ h
  · exact hdone _ _ h

theorem wp_true (step : Build α) :
    step.wp (fun _ _ => True) (fun _ _ => True) outside w := by
  unfold wp
  generalize step.run outside w = ending
  obtain ⟨_ | _, after⟩ := ending <;> exact trivial

/-- A step establishes two things if it establishes each. -/
theorem wp_and {step : Build α} {done' : α → World → Prop} {failed' : Failure → World → Prop}
    (h : step.wp done failed outside w) (h' : step.wp done' failed' outside w) :
    step.wp (fun a w' => done a w' ∧ done' a w') (fun f w' => failed f w' ∧ failed' f w')
      outside w := by
  unfold wp at h h' ⊢
  generalize step.run outside w = ending at h h' ⊢
  obtain ⟨_ | _, after⟩ := ending <;> exact ⟨h, h'⟩

/-- What a step establishes besides, where only the first thing tells of its failures. -/
theorem wp_and_done {step : Build α} {done' : α → World → Prop} {failed' : Failure → World → Prop}
    (h : step.wp done failed outside w) (h' : step.wp done' failed' outside w) :
    step.wp (fun a w' => done a w' ∧ done' a w') failed outside w :=
  wp_mono (wp_and h h') (fun _ _ hboth => hboth) fun _ _ hboth => hboth.1

/-- A step that gives an answer establishes the rest with this answer. -/
theorem wp_of_answer {step : Build α} {a : α} (hanswer : (step.run outside w).1 = .ok a)
    (h : step.wp done (fun _ _ => True) outside w) :
    step.wp (fun b w' => b = a ∧ done b w') failed outside w := by
  unfold wp at h ⊢
  generalize step.run outside w = ending at h hanswer ⊢
  obtain ⟨answer, after⟩ := ending
  cases hanswer
  exact ⟨rfl, h⟩

/-- A step establishes its answer. -/
theorem wp_eq_iff {step : Build α} {answer : Except Failure α} :
    step.wp (fun a _ => .ok a = answer) (fun f _ => .error f = answer) outside w ↔
      (step.run outside w).1 = answer := by
  unfold wp
  generalize step.run outside w = ending
  obtain ⟨_ | _, after⟩ := ending <;> rfl

/-! ### Steps one after the other -/

@[simp]
theorem wp_pure (a : α) : (pure a : Build α).wp done failed outside w ↔ done a w := Iff.rfl

theorem run_bind (step : Build α) (next : α → Build β) :
    (step >>= next).run outside w =
      match step.run outside w with
      | (.ok a, w') => (next a).run outside w'
      | (.error f, w') => (.error f, w') := by
  show (ExceptT.bind (step outside) fun a => next a outside) w = _
  simp only [run, ExceptT.bind, ExceptT.mk, bind, StateT.bind]
  generalize step outside w = ending
  obtain ⟨_ | _, after⟩ := ending <;> rfl

@[simp]
theorem wp_bind (step : Build α) (next : α → Build β) {done : β → World → Prop} :
    (step >>= next).wp done failed outside w ↔
      step.wp (fun a w' => (next a).wp done failed outside w') failed outside w := by
  simp only [wp, run_bind]
  generalize step.run outside w = ending
  obtain ⟨_ | _, after⟩ := ending <;> rfl

@[simp]
theorem wp_map (step : Build α) (f : α → β) {done : β → World → Prop} :
    (f <$> step).wp done failed outside w ↔
      step.wp (fun a w' => done (f a) w') failed outside w := by
  rw [map_eq_pure_bind, wp_bind]
  rfl

@[simp]
theorem wp_ite {c : Prop} [Decidable c] (a b : Build α) :
    (if c then a else b).wp done failed outside w ↔
      if c then a.wp done failed outside w else b.wp done failed outside w := by
  split <;> rfl

@[simp]
theorem wp_get {done : World → World → Prop} :
    (get : Build World).wp done failed outside w ↔ done w w := Iff.rfl

@[simp]
theorem wp_set {done : PUnit → World → Prop} (w' : World) :
    (set w' : Build PUnit).wp done failed outside w ↔ done ⟨⟩ w' := Iff.rfl

@[simp]
theorem wp_modify {done : PUnit → World → Prop} (f : World → World) :
    (modify f : Build PUnit).wp done failed outside w ↔ done ⟨⟩ (f w) := Iff.rfl

@[simp]
theorem wp_read {done : Outside → World → Prop} :
    (read : Build Outside).wp done failed outside w ↔ done outside w := Iff.rfl

@[simp]
theorem wp_throw (f : Failure) : (throw f : Build α).wp done failed outside w ↔ failed f w :=
  Iff.rfl

@[simp]
theorem wp_fail (f : Failure) : (fail f : Build α).wp done failed outside w ↔ failed f w := Iff.rfl

theorem wp_take {ε : Type} (reason : ε → Failure) (answer : Except ε α) :
    (take reason answer).wp done failed outside w ↔
      (∀ a, answer = .ok a → done a w) ∧ ∀ e, answer = .error e → failed (reason e) w := by
  cases answer with
  | ok a => simp [take]
  | error e =>
    show (throw (reason e) : Build α).wp done failed outside w ↔ _
    simp

/-! ### Events -/

@[simp]
theorem wp_note {done : Unit → World → Prop} (event : Event) :
    (note event).wp done failed outside w ↔ done () { w with events := event :: w.events } :=
  Iff.rfl

@[simp]
theorem wp_log {done : Unit → World → Prop} (level : LogLevel) (channel : String)
    (parts : List LogPart) :
    (log level channel parts).wp done failed outside w ↔
      done () { w with events := .log ⟨level, channel, parts⟩ :: w.events } :=
  Iff.rfl

/-- An event that is attempted is noted, and fails the step exactly if it is refused. -/
theorem wp_attempt {done : Unit → World → Prop} (event : Event) :
    (attempt event).wp done failed outside w ↔
      (outside.refuses w.events event = none → done () { w with events := event :: w.events }) ∧
        ∀ f, outside.refuses w.events event = some f →
          failed f { w with events := event :: w.events } := by
  simp only [attempt, wp_bind, wp_get, wp_note, wp_read]
  cases outside.refuses w.events event <;> simp

@[simp]
theorem wp_now {done : Instant → World → Prop} :
    now.wp done failed outside w ↔ done (outside.clock w.events) w := Iff.rfl

@[simp]
theorem wp_stamp {done : String → World → Prop} :
    stamp.wp done failed outside w ↔ done (outside.clock w.events).stamp w := Iff.rfl

/-! ### Failures and what is done in any case -/

/-- A second step that is done in any case ends the first one's way, unless it fails. -/
theorem wp_ensuring (step : Build α) (after : Build Unit) :
    (ensuring step after).wp done failed outside w ↔
      step.wp (fun a w' => after.wp (fun _ w'' => done a w'') failed outside w')
        (fun f w' => after.wp (fun _ w'' => failed f w'') failed outside w') outside w := by
  simp only [wp, run, ensuring]
  generalize step outside w = ending
  obtain ⟨_ | _, between⟩ := ending
  all_goals
    simp only [Ends]
    generalize after outside between = last
    obtain ⟨_ | _, last⟩ := last <;> rfl

theorem wp_outcome {done : Except Failure α → World → Prop} (step : Build α) :
    (outcome step).wp done failed outside w ↔
      step.wp (fun a w' => done (.ok a) w') (fun f w' => done (.error f) w') outside w := by
  simp only [wp, run, outcome]
  generalize step outside w = ending
  obtain ⟨_ | _, after⟩ := ending <;> rfl

/-! ### The disk -/

@[simp]
theorem wp_askDisk (question : Disk → Place → α) :
    (askDisk question).wp done failed outside w ↔ done (question w.disk w.cwd) w := Iff.rfl

/-- A change of the disk fails if it is refused or has a fault, and then changes nothing. -/
theorem wp_changeDisk {done : Unit → World → Prop} (step : DiskStep)
    (change : Disk → Place → Except DiskFault Disk) :
    (changeDisk step change).wp done failed outside w ↔
      (outside.refuses w.events (.disk step) = none →
        (∀ disk, change w.disk w.cwd = .ok disk →
          done () { w with disk, events := .disk step :: w.events }) ∧
        ∀ fault, change w.disk w.cwd = .error fault →
          failed (.disk fault) { w with events := .disk step :: w.events }) ∧
      ∀ f, outside.refuses w.events (.disk step) = some f →
        failed f { w with events := .disk step :: w.events } := by
  simp only [changeDisk, wp_bind, wp_attempt, wp_get, wp_take, wp_set]

/-- Reading a file answers what it holds; it changes nothing. -/
theorem wp_readContent {done : Content → World → Prop} (path : String) :
    (readContent path).wp done failed outside w ↔
      (outside.refuses w.events (.disk (.read path)) = none →
        (∀ content, w.disk.read w.cwd path = .ok content →
          done content { w with events := .disk (.read path) :: w.events }) ∧
        ∀ fault, w.disk.read w.cwd path = .error fault →
          failed (.disk fault) { w with events := .disk (.read path) :: w.events }) ∧
      ∀ f, outside.refuses w.events (.disk (.read path)) = some f →
        failed f { w with events := .disk (.read path) :: w.events } := by
  simp only [readContent, wp_bind, wp_attempt, wp_askDisk, wp_take]

/-! ### Loops -/

/-- A loop keeps an invariant of the items it has gone through. -/
theorem wp_forM {step : α → Build Unit} {items : List α} (kept : List α → World → Prop)
    (hstep : ∀ before item after, items = before ++ item :: after → ∀ w', kept before w' →
      (step item).wp (fun _ w'' => kept (before ++ [item]) w'') failed outside w')
    (hstart : kept [] w) :
    (items.forM step).wp (fun _ w' => kept items w') failed outside w := by
  suffices h : ∀ rest before, items = before ++ rest → ∀ w', kept before w' →
      (rest.forM step).wp (fun _ w'' => kept items w'') failed outside w' from
    h items [] rfl w hstart
  intro rest
  induction rest with
  | nil =>
    intro before hitems w' hw
    rw [List.append_nil] at hitems
    rw [hitems]
    exact hw
  | cons item rest ih =>
    intro before hitems w' hw
    show (step item >>= fun _ => rest.forM step).wp _ _ _ _
    rw [wp_bind]
    refine wp_mono (hstep before item rest hitems w' hw) (fun _ w'' hw'' => ?_) fun _ _ h => h
    exact ih (before ++ [item]) (by rw [hitems, List.append_assoc]; rfl) w'' hw''

/-! ### Success -/

/-- A step gives an answer. -/
def Succeeds (step : Build α) (outside : Outside) (w : World) : Prop :=
  step.wp (fun _ _ => True) (fun _ _ => False) outside w

theorem succeeds_of_wp {step : Build α} (h : step.wp done (fun _ _ => False) outside w) :
    step.Succeeds outside w :=
  wp_mono h (fun _ _ _ => trivial) fun _ _ => id

/-- What a step establishes that gives an answer, it establishes without failing. -/
theorem Succeeds.wp {step : Build α} (h : step.Succeeds outside w)
    (hwp : step.wp done failed outside w) : step.wp done (fun _ _ => False) outside w :=
  wp_mono (wp_and h hwp) (fun _ _ h => h.2) fun _ _ h => h.1

theorem Succeeds.exists_answer {step : Build α} (h : step.Succeeds outside w) :
    ∃ answer, (step.run outside w).1.toOption = some answer := by
  unfold Succeeds Build.wp at h
  generalize step.run outside w = ending at h ⊢
  obtain ⟨_ | answer, after⟩ := ending
  · exact h.elim
  · exact ⟨answer, rfl⟩

end Build

/-- Whether nothing is refused. -/
def Outside.IsCalm (outside : Outside) : Prop := ∀ past event, outside.refuses past event = none

namespace Build

variable {outside : Outside} {w : World}

theorem wp_attempt_of_isCalm (hcalm : outside.IsCalm) (event : Event) :
    (attempt event).wp (fun _ w' => w' = { w with events := event :: w.events }) (fun _ _ => False)
      outside w := by
  refine (wp_attempt event).2 ⟨fun _ => rfl, fun f hf => ?_⟩
  rw [hcalm] at hf
  cases hf

theorem succeeds_attempt (hcalm : outside.IsCalm) (event : Event) :
    (attempt event).Succeeds outside w :=
  succeeds_of_wp (wp_attempt_of_isCalm hcalm event)

theorem succeeds_changeDisk (hcalm : outside.IsCalm) (step : DiskStep)
    {change : Disk → Place → Except DiskFault Disk} {disk : Disk}
    (hchange : change w.disk w.cwd = .ok disk) :
    (changeDisk step change).wp
      (fun _ w' => w' = { w with disk, events := .disk step :: w.events }) (fun _ _ => False)
      outside w := by
  rw [wp_changeDisk, hchange]
  refine ⟨fun _ => ⟨fun disk' hdisk' => ?_, fun fault hfault => ?_⟩, fun f hf => ?_⟩
  · rw [Except.ok.inj hdisk']
  · cases hfault
  · rw [hcalm] at hf
    cases hf

theorem succeeds_readContent (hcalm : outside.IsCalm) {path : String} {content : Content}
    (hread : w.disk.read w.cwd path = .ok content) :
    (readContent path).wp
      (fun c w' => c = content ∧ w' = { w with events := .disk (.read path) :: w.events })
      (fun _ _ => False) outside w := by
  rw [wp_readContent, hread]
  refine ⟨fun _ => ⟨fun content' hcontent' => ?_, fun fault hfault => ?_⟩, fun f hf => ?_⟩
  · exact ⟨(Except.ok.inj hcontent').symm, rfl⟩
  · cases hfault
  · rw [hcalm] at hf
    cases hf

end Build

end RepoGraph
