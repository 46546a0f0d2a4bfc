import RepoGraph.Proofs.Service.SingleFlight

/-!
# Builds that cannot be started

A start fails because its request is not acceptable, because another build runs, or because no
worker can be started.  In the first two cases the service is as it was.  The run state is set
before a worker is asked for, so in the last case it tells of a build that nobody does: the service
refuses every build from then on, and no step of a worker makes it idle again.

Main statement: `Service.isFailedStart_startBuild`.
-/

namespace RepoGraph

namespace Service

variable {settings : Settings} {request accepted : Request} {outside : Outside} {w w' : World}
  {f reason : Failure}

/-- Whether a start comes as far as its worker, which cannot be started for a reason. -/
structure LacksWorker (settings : Settings) (request : Request) (outside : Outside) (w : World)
    (accepted : Request) (reason : Failure) : Prop where
  complete : settings.complete request = .ok accepted
  idle : w.service.state = .idle
  refused : outside.refuses w.events .worker = some reason

/-- What the service is after a start that failed. -/
structure IsFailedStart (settings : Settings) (request : Request) (outside : Outside) (w : World)
    (f : Failure) (w' : World) : Prop where
  lastRun_eq : w'.service.lastRun = w.service.lastRun
  /-- Whatever the reason but for want of a worker, the service is as it was, -/
  kept : (∀ accepted reason, ¬ LacksWorker settings request outside w accepted reason) →
    w'.service = w.service
  /-- so it accepts the next valid request if it was idle. -/
  accepts : (∀ accepted reason, ¬ LacksWorker settings request outside w accepted reason) →
    w.service.state = .idle → ∀ next accepted outside', settings.complete next = .ok accepted →
      outside'.refuses w'.events .worker = none →
        ∃ w'', (startBuild settings next).run outside' w' = (.ok accepted, w'')
  /-- For want of a worker it runs a build that no worker has, -/
  strands : ∀ accepted reason, LacksWorker settings request outside w accepted reason → f = reason ∧
    w'.service.state = .running accepted (outside.clock w.events).stamp ∧
      ∀ worker, w'.service.job? worker = w.service.job? worker
  /-- refuses the next valid request, -/
  refuses : ∀ accepted reason, LacksWorker settings request outside w accepted reason →
    ∀ next nextAccepted outside', settings.complete next = .ok nextAccepted →
      ∃ w'', (startBuild settings next).run outside' w' = (.error .inProgress, w'')
  /-- and stays so. -/
  stays : ∀ accepted reason, LacksWorker settings request outside w accepted reason →
    (∀ worker, w.service.job? worker = none) → ∀ stages worker outside',
      (step settings stages worker).run outside' w' = (.ok (), w')

/-- A worker that is absent has no job. -/
theorem job?_start_of_obstacle {s : Service} (hidle : s.state = .idle) (request : Request)
    (now : String)
    (obstacle : Failure) (worker : Nat) :
    (s.start request now (some obstacle)).2.job? worker = s.job? worker := by
  simp only [start, hidle, job?]
  rcases Nat.lt_trichotomy worker s.workers.length with hlt | rfl | hgt
  · rw [List.getElem?_append_left hlt]
  · rw [List.getElem?_concat_length, List.getElem?_eq_none (Nat.le_refl _)]
  · rw [List.getElem?_eq_none (by rw [List.length_append, List.length_singleton]; omega),
      List.getElem?_eq_none hgt.le]

/-- A start that fails leaves the service with a worker that is absent, or as it was. -/
theorem wp_startBuild_of_error (settings : Settings) (request : Request) :
    (startBuild settings request).wp (fun _ _ => True)
      (fun f w' =>
        (∃ accepted, LacksWorker settings request outside w accepted f ∧
          w'.service = (w.service.start accepted (outside.clock w.events).stamp (some f)).2) ∨
        (∀ accepted reason, ¬ LacksWorker settings request outside w accepted reason) ∧
          w'.service = w.service)
      outside w := by
  simp only [startBuild, Build.wp_bind, Build.wp_take, Build.wp_stamp, Build.wp_get, Build.wp_read,
    change, Build.wp_modify, Build.wp_note, Build.wp_log, Build.wp_pure]
  refine ⟨fun accepted hcomplete => ⟨fun _ _ => trivial, fun f hf => ?_⟩, fun fault hfault => ?_⟩
  · cases hstate : w.service.state with
    | running current since =>
      -- a build is in flight, so no worker is asked for
      rw [start_running hstate]
      refine .inr ⟨fun _ _ hlacks => ?_, rfl⟩
      rw [hlacks.idle] at hstate
      cases hstate
    | idle =>
      cases hworker : outside.refuses w.events .worker with
      | none =>
        simp only [start, hstate, hworker] at hf
        cases hf
      | some reason =>
        simp only [start, hstate, hworker, Except.error.injEq] at hf
        exact .inl ⟨accepted,
          ⟨hcomplete, hstate, hworker.trans (congrArg some hf)⟩, by rw [hf]; rfl⟩
  · refine .inr ⟨fun _ _ hlacks => ?_, trivial⟩
    rw [hlacks.complete] at hfault
    cases hfault

/-- A service without jobs is left alone by workers. -/
theorem run_step_of_no_job {stages : Stages} {worker : Nat} (h : w.service.job? worker = none) :
    (step settings stages worker).run outside w = (.ok (), w) := by
  have hwp : (step settings stages worker).wp (fun _ w' => w' = w)
      (fun _ _ => False) outside w := by
    simp only [step, Build.wp_bind, Build.wp_get, h, Build.wp_pure]
  obtain ⟨⟨⟩, w', hrun, rfl⟩ := Build.exists_run_of_wp hwp
  exact hrun

theorem LacksWorker.unique {other : Request} {otherReason : Failure}
    (h : LacksWorker settings request outside w accepted reason)
    (h' : LacksWorker settings request outside w other otherReason) :
    other = accepted ∧ otherReason = reason := by
  have haccepted := h.complete.symm.trans h'.complete
  have hreason := h.refused.symm.trans h'.refused
  exact ⟨(Except.ok.inj haccepted).symm, (Option.some.inj hreason).symm⟩

/-- Whatever the service does, whatever the request is and whatever comes in the way: a start that
fails changes the service only for want of a worker, and then leaves it running a build that no
worker has. -/
theorem isFailedStart_startBuild (settings : Settings) (request : Request) (outside : Outside)
    (w w' : World) (f : Failure)
    (hrun : (startBuild settings request).run outside w = (.error f, w')) :
    IsFailedStart settings request outside w f w' := by
  rcases Build.of_wp_of_error (wp_startBuild_of_error settings request) hrun with
    ⟨accepted, hlacks, hservice⟩ | ⟨hnot, hservice⟩
  · -- no worker was to be had: the service already stands as if a build ran
    have hstate : w'.service.state = .running accepted (outside.clock w.events).stamp := by
      rw [hservice]
      exact start_idle hlacks.idle _ _ _
    have hjobs (worker : Nat) : w'.service.job? worker = w.service.job? worker := by
      rw [hservice]
      exact job?_start_of_obstacle hlacks.idle _ _ _ worker
    exact {
      lastRun_eq := by simp only [hservice, start, hlacks.idle]
      kept := fun hnot => absurd hlacks (hnot accepted f)
      accepts := fun hnot => absurd hlacks (hnot accepted f)
      strands := by
        intro other reason hother
        obtain ⟨rfl, rfl⟩ := hlacks.unique hother
        exact ⟨rfl, hstate, hjobs⟩
      refuses := fun _ _ _ _ _ _ hnext => run_startBuild_of_running hnext hstate
      stays := fun _ _ _ hnone _ worker _ =>
        run_step_of_no_job ((hjobs worker).trans (hnone worker)) }
  · exact {
      lastRun_eq := by rw [hservice]
      kept := fun _ => hservice
      accepts := by
        intro _ hidle next accepted outside' hnext hworker
        rw [← hservice] at hidle
        exact run_startBuild hnext hidle hworker
      strands := fun accepted reason hlacks => absurd hlacks (hnot accepted reason)
      refuses := fun accepted reason hlacks => absurd hlacks (hnot accepted reason)
      stays := fun accepted reason hlacks => absurd hlacks (hnot accepted reason) }

/-! ### A build whose worker cannot be started -/

/-- Why no worker can be started here. -/
def noThread : Failure := .outside "RuntimeError" "no thread can be started"

/-- Surroundings in which no worker can be started. -/
def withoutThreads : Outside :=
  { Populating.quiet with
    refuses := fun _ event => match event with
      | .worker => some noThread
      | _ => none }

/-- The service is idle before the start, and runs after it. -/
theorem isFailedStart_withoutThreads : ∃ w',
    (startBuild Populating.fileSettings readingRequest).run withoutThreads (worldOf .initial) =
      (.error noThread, w') ∧
    IsFailedStart Populating.fileSettings readingRequest withoutThreads (worldOf .initial) noThread w' ∧
    (worldOf .initial).service.state = .idle ∧
    w'.service.state = .running readingRequest beginning := by
  have hrun : (startBuild Populating.fileSettings readingRequest).run withoutThreads
      (worldOf .initial) = (.error noThread, _) := rfl
  have hfailed := isFailedStart_startBuild _ _ _ _ _ _ hrun
  exact ⟨_, hrun, hfailed, rfl, (hfailed.strands readingRequest noThread ⟨rfl, rfl, rfl⟩).2.1⟩

/-- A start that fails may change the service. -/
theorem exists_changes_of_error : ¬ ∀ (settings : Settings) (request : Request) (outside : Outside)
    (w w' : World) (f : Failure), (startBuild settings request).run outside w = (.error f, w') →
      w'.service.state = w.service.state ∧ w'.service.lastRun = w.service.lastRun := by
  intro h
  have hkept := (h Populating.fileSettings readingRequest withoutThreads
    (worldOf .initial) _ _ rfl).1
  cases hkept

end Service

end RepoGraph
