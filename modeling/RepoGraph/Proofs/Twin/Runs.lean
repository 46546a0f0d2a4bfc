import RepoGraph.Proofs.Build

/-!
# Two runs of a step

Two runs of a step, each in its own surroundings and its own world, are followed side by side.
`Build.Twin` says that both runs give the same answer or fail for the same reason, and how the
worlds that they leave are related.  It has a rule for every way of making a step, as `Build.wp`
has.  A failure may be excused: nothing is said about a run beyond it, so it must not be caught.
`Build.Keeps` is the frequent case in which nothing is excused and one relation of worlds is kept.

`Outside.Alike` relates the pasts of the runs: pasts stay related while the runs do the same, and
whatever either run does on its disk, where nothing is refused; and the two surroundings answer the
same after related pasts.  `Tied` worlds have related pasts and are otherwise related as a stage
needs it.

Main statements: `Build.twin_bind`, `Build.twin_ensuring`, `Build.twin_of_wp`, `Build.Keeps.forM`,
`Build.keeps_attempt`.
-/

namespace RepoGraph

namespace Build

variable {α β : Type} {outside outside' : Outside} {w w' : World}

/-! ### Following two runs -/

/-- Two runs end with the same answer and worlds in `done`, or with the same failure and worlds in
`failed`, or one of them with an excused failure. -/
def Matches (excused : Failure → Prop) (done : α → World → World → Prop)
    (failed : World → World → Prop) :
    Except Failure α × World → Except Failure α × World → Prop
  | (.ok a, v), (.ok a', v') => a' = a ∧ done a v v'
  | (.error f, v), (.error f', v') => f' = f ∧ failed v v' ∨ excused f ∨ excused f'
  | (.error f, _), (.ok _, _) => excused f
  | (.ok _, _), (.error f, _) => excused f

/-- A step in one world and a step in another one end alike. -/
def Twin (step step' : Build α) (excused : Failure → Prop) (done : α → World → World → Prop)
    (failed : World → World → Prop) (outside outside' : Outside) (w w' : World) : Prop :=
  Matches excused done failed (step.run outside w) (step'.run outside' w')

variable {step step' : Build α} {excused : Failure → Prop} {done : α → World → World → Prop}
  {failed : World → World → Prop}

theorem Twin.mono {excused' : Failure → Prop} {done' : α → World → World → Prop}
    {failed' : World → World → Prop} (h : Twin step step' excused done failed outside outside' w w')
    (hexcused : ∀ f, excused f → excused' f) (hdone : ∀ a v v', done a v v' → done' a v v')
    (hfailed : ∀ v v', failed v v' → failed' v v') :
    Twin step step' excused' done' failed' outside outside' w w' := by
  unfold Twin at h ⊢
  generalize step.run outside w = ending at h ⊢
  generalize step'.run outside' w' = ending' at h ⊢
  obtain ⟨f | a, v⟩ := ending <;> obtain ⟨f' | a', v'⟩ := ending'
  · exact h.imp (fun hsame => ⟨hsame.1, hfailed v v' hsame.2⟩)
      (Or.imp (hexcused f) (hexcused f'))
  · exact hexcused f h
  · exact hexcused f' h
  · exact ⟨h.1, hdone a v v' h.2⟩

/-- What the first of two runs establishes by itself holds as well. -/
theorem Twin.and_wp {answer : α → World → Prop}
    (h : Twin step step' excused done failed outside outside' w w')
    (hwp : step.wp answer (fun _ _ => True) outside w) :
    Twin step step' excused (fun a v v' => answer a v ∧ done a v v') failed outside outside' w
      w' := by
  unfold wp at hwp
  unfold Twin at h ⊢
  generalize step.run outside w = ending at h hwp ⊢
  generalize step'.run outside' w' = ending' at h ⊢
  obtain ⟨f | a, v⟩ := ending <;> obtain ⟨f' | a', v'⟩ := ending'
  · exact h
  · exact h
  · exact h
  · exact ⟨h.1, hwp, h.2⟩

/-- What each of two runs establishes by itself, with excused failures only, the two establish
together. -/
theorem twin_of_wp {answer : α → World → Prop} {answer' : α → World → Prop}
    (h : step.wp answer (fun f _ => excused f) outside w)
    (h' : step'.wp answer' (fun f _ => excused f) outside' w')
    (hdone : ∀ a a' v v', answer a v → answer' a' v' → a' = a ∧ done a v v') :
    Twin step step' excused done failed outside outside' w w' := by
  unfold wp at h h'
  unfold Twin
  generalize step.run outside w = ending at h ⊢
  generalize step'.run outside' w' = ending' at h' ⊢
  obtain ⟨f | a, v⟩ := ending <;> obtain ⟨f' | a', v'⟩ := ending'
  · exact .inr (.inl h)
  · exact h
  · exact h'
  · exact hdone a a' v v' h h'

theorem twin_pure {a : α} (h : done a w w') :
    Twin (pure a) (pure a) excused done failed outside outside' w w' := ⟨rfl, h⟩

theorem twin_fail {f : Failure} (h : failed w w') :
    Twin (fail f : Build α) (fail f) excused done failed outside outside' w w' := .inl ⟨rfl, h⟩

theorem twin_bind {next next' : α → Build β} {done : β → World → World → Prop}
    (h : Twin step step' excused
      (fun a v v' => Twin (next a) (next' a) excused done failed outside outside' v v') failed
      outside outside' w w') :
    Twin (step >>= next) (step' >>= next') excused done failed outside outside' w w' := by
  unfold Twin at h ⊢
  rw [run_bind, run_bind]
  generalize step.run outside w = ending at h ⊢
  generalize step'.run outside' w' = ending' at h ⊢
  obtain ⟨f | a, v⟩ := ending <;> obtain ⟨f' | a', v'⟩ := ending'
  · exact h
  -- an excused failure of one run ends the comparison, whatever the other run goes on to do
  · show Matches excused done failed (.error f, v) ((next' a').run outside' v')
    generalize (next' a').run outside' v' = last'
    obtain ⟨f' | b, u⟩ := last'
    · exact .inr (.inl h)
    · exact h
  · show Matches excused done failed ((next a).run outside v) (.error f', v')
    generalize (next a).run outside v = last
    obtain ⟨f | b, u⟩ := last
    · exact .inr (.inr h)
    · exact h
  · obtain ⟨rfl, h⟩ := h
    exact h

theorem twin_get {next next' : World → Build α}
    (h : Twin (next w) (next' w') excused done failed outside outside' w w') :
    Twin (get >>= next) (get >>= next') excused done failed outside outside' w w' := h

theorem twin_read {next next' : Outside → Build α}
    (h : Twin (next outside) (next' outside') excused done failed outside outside' w w') :
    Twin (read >>= next) (read >>= next') excused done failed outside outside' w w' := h

theorem twin_set {done : PUnit → World → World → Prop} {v v' : World} (h : done ⟨⟩ v v') :
    Twin (set v : Build PUnit) (set v') excused done failed outside outside' w w' := ⟨rfl, h⟩

theorem twin_modify {done : PUnit → World → World → Prop} {f f' : World → World}
    (h : done ⟨⟩ (f w) (f' w')) :
    Twin (modify f : Build PUnit) (modify f') excused done failed outside outside' w w' := ⟨rfl, h⟩

/-- A step that is done in any case is done after the same answers and after the same failures. -/
theorem twin_ensuring {after after' : Build Unit}
    (h : Twin step step' (fun _ => False)
      (fun a v v' => Twin after after' excused (fun _ => done a) failed outside outside' v v')
      (fun v v' => Twin after after' excused (fun _ => failed) failed outside outside' v v')
      outside outside' w w') :
    Twin (ensuring step after) (ensuring step' after') excused done failed outside
      outside' w w' := by
  unfold Twin at h ⊢
  simp only [run, ensuring]
  change Matches _ _ _ (step outside w) (step' outside' w') at h
  generalize step outside w = ending at h ⊢
  generalize step' outside' w' = ending' at h ⊢
  obtain ⟨f | a, v⟩ := ending <;> obtain ⟨f' | a', v'⟩ := ending'
  · -- after equal failures the last steps run from matching worlds; their own failures come first
    obtain ⟨rfl, hafter⟩ := h.resolve_right fun hfalse => hfalse.elim id id
    change Matches _ _ _ (after outside v) (after' outside' v') at hafter
    simp only
    generalize after outside v = last at hafter ⊢
    generalize after' outside' v' = last' at hafter ⊢
    obtain ⟨g | b, u⟩ := last <;> obtain ⟨g' | b', u'⟩ := last'
    · exact hafter
    · exact .inr (.inl hafter)
    · exact .inr (.inr hafter)
    · exact .inl ⟨rfl, hafter.2⟩
  · exact h.elim
  · exact h.elim
  · obtain ⟨rfl, hafter⟩ := h
    change Matches _ _ _ (after outside v) (after' outside' v') at hafter
    simp only
    generalize after outside v = last at hafter ⊢
    generalize after' outside' v' = last' at hafter ⊢
    obtain ⟨g | b, u⟩ := last <;> obtain ⟨g' | b', u'⟩ := last'
    · exact hafter
    · exact hafter
    · exact hafter
    · exact ⟨rfl, hafter.2⟩

/-! ### Steps that keep a relation -/

/-- Two runs of a step end alike, and worlds that are related stay related. -/
def Keeps (related : World → World → Prop) (outside outside' : Outside) (step : Build α) : Prop :=
  ∀ w w', related w w' →
    Twin step step (fun _ => False) (fun _ => related) related outside outside' w w'

namespace Keeps

variable {related : World → World → Prop}

theorem twin (h : Keeps related outside outside' step) (hw : related w w')
    (hdone : ∀ a v v', related v v' → done a v v')
    (hfailed : ∀ v v', related v v' → failed v v') :
    Twin step step excused done failed outside outside' w w' :=
  (h w w' hw).mono (fun _ => False.elim) hdone hfailed

theorem pure (a : α) : Keeps related outside outside' (Pure.pure a : Build α) :=
  fun _ _ hw => twin_pure hw

theorem fail (f : Failure) : Keeps related outside outside' (fail f : Build α) :=
  fun _ _ hw => twin_fail hw

theorem take {ε : Type} (reason : ε → Failure) (answer : Except ε α) :
    Keeps related outside outside' (take reason answer) := by
  cases answer with
  | ok a => exact pure a
  | error e => exact fail (reason e)

theorem bind {next : α → Build β} (h : Keeps related outside outside' step)
    (hnext : ∀ a, Keeps related outside outside' (next a)) :
    Keeps related outside outside' (step >>= next) :=
  fun _ _ hw => twin_bind (h.twin hw (fun a v v' hv => hnext a v v' hv) fun _ _ hv => hv)

theorem ite {c : Prop} [Decidable c] (h : c → Keeps related outside outside' step)
    (h' : ¬ c → Keeps related outside outside' step') :
    Keeps related outside outside' (if c then step else step') := by
  split
  · rename_i hc
    exact h hc
  · rename_i hc
    exact h' hc

theorem outcome (h : Keeps related outside outside' step) :
    Keeps related outside outside' (outcome step) := by
  intro w w' hw
  have h := h w w' hw
  unfold Twin at h ⊢
  simp only [run, Build.outcome]
  change Matches _ _ _ (step outside w) (step outside' w') at h
  generalize step outside w = ending at h ⊢
  generalize step outside' w' = ending' at h ⊢
  obtain ⟨f | a, v⟩ := ending <;> obtain ⟨f' | a', v'⟩ := ending'
  · obtain ⟨rfl, hv⟩ := h.resolve_right fun hfalse => hfalse.elim id id
    exact ⟨rfl, hv⟩
  · exact h.elim
  · exact h.elim
  · obtain ⟨rfl, h⟩ := h
    exact ⟨rfl, h⟩

theorem forM {items : List α} {next : α → Build PUnit}
    (h : ∀ item ∈ items, Keeps related outside outside' (next item)) :
    Keeps related outside outside' (items.forM next) := by
  induction items with
  | nil => exact pure _
  | cons item rest ih =>
    exact (h item List.mem_cons_self).bind fun _ =>
      ih fun other hother => h other (List.mem_cons_of_mem _ hother)

theorem mapM {items : List α} {next : α → Build β}
    (h : ∀ item ∈ items, Keeps related outside outside' (next item)) :
    Keeps related outside outside' (items.mapM next) := by
  induction items with
  | nil => exact pure _
  | cons item rest ih =>
    rw [List.mapM_cons]
    exact (h item List.mem_cons_self).bind fun _ =>
      (ih fun other hother => h other (List.mem_cons_of_mem _ hother)).bind fun _ => pure _

end Keeps

end Build

/-! ### Surroundings that answer alike -/

/-- A world apart from what was done. -/
def World.still (w : World) : World := { w with events := [] }

/-- Two surroundings answer alike after related pasts.  Pasts stay related while two runs do the
same, and whatever either of them does on its disk, where nothing is refused. -/
structure Outside.Alike (related : List Event → List Event → Prop) (outside outside' : Outside) :
    Prop where
  both : ∀ past past' event, related past past' → related (event :: past) (event :: past')
  left : ∀ past past' step, related past past' → related (.disk step :: past) past'
  right : ∀ past past' step, related past past' → related past (.disk step :: past')
  refuses : ∀ past past' event, related past past' →
    outside'.refuses past' event = outside.refuses past event
  writes : ∀ past step, outside.refuses past (.disk step) = none
  writes' : ∀ past step, outside'.refuses past (.disk step) = none
  clock : ∀ past past', related past past' → outside'.clock past' = outside.clock past
  git : ∀ past past' arguments directory, related past past' →
    outside'.git past' arguments directory = outside.git past arguments directory
  embed : ∀ past past' request, related past past' →
    outside'.embed past' request = outside.embed past request
  chat : ∀ past past' request, related past past' →
    outside'.chat past' request = outside.chat past request

/-- Two worlds have related pasts and are otherwise related as well. -/
def Tied (related : List Event → List Event → Prop) (state : World → World → Prop) (w w' : World) :
    Prop :=
  related w.events w'.events ∧ state w.still w'.still

namespace Build

variable {related : List Event → List Event → Prop} {outside outside' : Outside}
  {state : World → World → Prop}

theorem keeps_note (halike : Outside.Alike related outside outside') (event : Event) :
    Keeps (Tied related state) outside outside' (note event) :=
  fun _ _ hw => ⟨rfl, halike.both _ _ event hw.1, hw.2⟩

theorem keeps_log (halike : Outside.Alike related outside outside') (level : LogLevel)
    (channel : String)
    (parts : List LogPart) :
    Keeps (Tied related state) outside outside' (log level channel parts) :=
  keeps_note halike _

theorem keeps_now (halike : Outside.Alike related outside outside') :
    Keeps (Tied related state) outside outside' now :=
  fun _ _ hw => ⟨halike.clock _ _ hw.1, hw⟩

theorem keeps_stamp (halike : Outside.Alike related outside outside') :
    Keeps (Tied related state) outside outside' stamp :=
  (keeps_now halike).bind fun _ => .pure _

/-- A change of the worlds apart from what was done. -/
theorem keeps_modify {change : World → World} (hevents : ∀ w, (change w).events = w.events)
    (hstill : ∀ w, (change w).still = change w.still)
    (h : ∀ v v', state v v' → state (change v) (change v')) :
    Keeps (Tied related state) outside outside' (modify change) := by
  intro w w' hw
  refine twin_modify ⟨?_, ?_⟩
  · rw [hevents, hevents]
    exact hw.1
  · rw [hstill, hstill]
    exact h _ _ hw.2

/-- An event that is attempted is refused in both runs or in none. -/
theorem keeps_attempt (halike : Outside.Alike related outside outside') (event : Event) :
    Keeps (Tied related state) outside outside' (attempt event) := by
  intro w w' hw
  rw [attempt]
  refine twin_get (twin_bind ((keeps_note halike event).twin hw (fun _ v v' hv => ?_)
    fun _ _ hv => hv))
  refine twin_read ?_
  rw [halike.refuses _ _ event hw.1]
  cases outside.refuses w.events event with
  | none => exact twin_pure hv
  | some f => exact twin_fail hv

/-- A question about the disks has one answer if it is the same for related worlds. -/
theorem keeps_askDisk {α : Type} {question : Disk → Place → α}
    (h : ∀ v v', state v v' → question v'.disk v'.cwd = question v.disk v.cwd) :
    Keeps (Tied related state) outside outside' (askDisk question) :=
  fun w w' hw => ⟨h w.still w'.still hw.2, hw⟩

/-- A file is read alike if it can be read on both disks or on none, and holds the same. -/
theorem keeps_readText (halike : Outside.Alike related outside outside') {path : String}
    (h : ∀ v v', state v v' → v'.disk.read v'.cwd path = v.disk.read v.cwd path) :
    Keeps (Tied related state) outside outside' (readText path) := by
  rw [readText, readContent]
  refine Keeps.bind (Keeps.bind (keeps_attempt halike _) fun _ => ?_) fun _ => .take _ _
  exact (keeps_askDisk h).bind fun _ => .take _ _

end Build

end RepoGraph
