import RepoGraph.Proofs.Populate.Effect
import RepoGraph.Proofs.Service.Standing

/-!
# One build at a time

However clients and workers are interleaved, and whatever comes of the tasks, no more than one build
is in flight.  While it is, the run state tells of it; when it ends, its summary becomes the last
run and the service is idle, at once and only then.  A client that waits without a time limit after
its build was accepted is told of that build or of a later one.

Main statement: `Service.isSingleFlight_of_reached`.
-/

namespace RepoGraph

namespace Service

variable {acts : List Act} {act : Act} {client worker k n : Nat} {request : Request}
  {startedAt : String} {task : Task} {outcome : Task.Outcome} {summary : RunSummary}
  {settings : Settings} {a b : Scene}

/-! ### What summaries tell -/

/-- Whether a summary tells of the build of a worker: of its request and its start, of the stages
that were completed, and in words of the failure if these are not all the stages that it was to
do. -/
structure Tells (acts : List Act) (worker : Nat) (summary : RunSummary) : Prop where
  accepted : ∃ client, Act.accepted client worker summary.request summary.startedAt ∈ acts
  stages_eq : summary.stages = Job.completed (stepsOf worker acts)
  stages_prefix : summary.stages.map StageSummary.stage <+: summary.request.selected
  success_iff :
    summary.success = true ↔ summary.stages.map StageSummary.stage = summary.request.selected
  error_eq_none_iff : summary.error = none ↔ summary.success = true
  error_ne_empty : ∀ text, summary.error = some text → text ≠ "" ∧
    ∃ task f, Act.performed worker task (.error f) ∈ acts ∧ text = f.summary

theorem Stands.tells {s : Service} (h : Stands acts s n)
    (hwrote : Act.wrote worker summary ∈ acts) :
    Tells acts worker summary := by
  have hmem := mem_writesOf.2 hwrote
  have hlt : worker < n := by
    by_contra hge
    rw [h.unwritten worker (Nat.not_lt.1 hge)] at hmem
    cases hmem
  obtain ⟨job, now, hbuild, hfollows, hnext, hwrites⟩ := h.written worker hlt
  rw [hwrites, List.mem_singleton] at hmem
  subst hmem
  refine ⟨(h.numbered _ _ _).1 hbuild, hfollows.done_eq, hfollows.prefix_selected, ?_, ?_,
    fun text htext => ?_⟩
  · show job.failure.isNone = true ↔ job.done.map StageSummary.stage = job.request.selected
    rw [Option.isNone_iff_eq_none, hfollows.success_iff hnext]
  · show job.failure.map Failure.summary = none ↔ job.failure.isNone = true
    rw [Option.map_eq_none_iff, Option.isNone_iff_eq_none]
  · obtain ⟨f, hfailure, rfl⟩ := Option.map_eq_some_iff.1 htext
    obtain ⟨task, rest, -, hstep⟩ := hfollows.of_failure hfailure
    exact ⟨f.summary_ne_empty, task, f, mem_stepsOf.1 hstep, rfl⟩

/-! ### One build at a time -/

/-- Whether an act is a step of a worker. -/
def Act.IsStepOf (worker : Nat) : Act → Prop
  | .performed k _ _ => k = worker
  | .wrote k _ => k = worker
  | _ => False

/-- What holds of a scene however it was reached: there is one build at a time, and everyone is told
of the right one.  Builds are numbered in the order in which they were accepted. -/
structure IsSingleFlight (settings : Settings) (acts : List Act) (a : Scene) : Prop where
  numbered : ∀ {client k r t after before}, acts = after ++ .accepted client k r t :: before →
    k = (builds before).length
  /-- At most one accepted build is between its start and its end. -/
  inFlight : ∀ {i j job job'}, a.service.job? i = some job → a.service.job? j = some job' → i = j
  /-- The run state tells of the build in flight, if there is one. -/
  running_iff : ∀ {r t}, a.service.state = .running r t ↔
    ∃ worker job, a.service.job? worker = some job ∧ job.request = r ∧ job.startedAt = t
  accepted : ∀ {worker job}, a.service.job? worker = some job →
    ∃ client, Act.accepted client worker job.request job.startedAt ∈ acts
  /-- A build is accepted only while none is in flight. -/
  started : ∀ {client k r t b}, Happens settings a (.accepted client k r t) b →
    a.service.state = .idle ∧ b.service.state = .running r t
  /-- A start that is refused changes nothing. -/
  refused : ∀ {client failure b}, Happens settings a (.refused client failure) b → b = a
  /-- The end of a build writes the last run and makes the service idle. -/
  wrote : ∀ {worker summary b}, Happens settings a (.wrote worker summary) b →
    a.service.state = .running summary.request summary.startedAt ∧ b.service.state = .idle ∧
      b.service.lastRun = some summary
  /-- Nothing else does either. -/
  quiet : ∀ {act b}, Happens settings a act b → (∀ worker summary, act ≠ .wrote worker summary) →
    b.service.lastRun = a.service.lastRun ∧
      (a.service.state ≠ .idle → b.service.state = a.service.state)
  /-- Every build that is no longer in flight has written the last run exactly once. -/
  once : ∀ {client worker r t}, Act.accepted client worker r t ∈ acts →
    (writesOf worker acts).length = if (a.service.job? worker).isSome then 0 else 1
  tells : ∀ {worker summary}, Act.wrote worker summary ∈ acts → Tells acts worker summary
  /-- A build in flight goes on whatever comes of its next task, and has no more tasks than it
  has. -/
  goesOn : ∀ {worker job}, a.service.job? worker = some job →
    (stepsOf worker acts).length ≤ job.request.tasks.length ∧
      ∀ {stages : Stages} {outside w}, stages.IsApart → w.service = a.service →
        ∃ act, act.IsStepOf worker ∧ Happens settings a act
          { a with service := ((step settings stages worker).run outside w).2.service }
  /-- Who waits without a time limit after a build was accepted is told of it or of a later one. -/
  answered : ∀ {client lastRun b}, Happens settings a (.answered client lastRun) b →
    ∀ {after before k r t}, acts = after ++ .waits client false :: before →
      (∀ lastRun, Act.answered client lastRun ∉ after) → Act.accepted client k r t ∈ before →
      ∃ m summary, k ≤ m ∧ Act.wrote m summary ∈ acts ∧ lastRun = some summary
  /-- Who waits can be answered, unless a thread has to end first, which it can after its build. -/
  unblocked : ∀ {client wait}, a.waiting client = some wait →
    (∃ lastRun b, Happens settings a (.answered client lastRun) b) ∨
      ∃ worker, wait.worker = some worker ∧
        ((∃ b, Happens settings a (.ended worker) b) ∨ (a.service.job? worker).isSome = true)

theorem Reached.of_append {after before : List Act}
    (h : Reached settings (after ++ act :: before) a) :
    ∃ b c, Reached settings before b ∧ Happens settings b act c := by
  generalize hacts : after ++ act :: before = acts at h
  induction h generalizing after with
  | start => simp at hacts
  | next h hact ih =>
    cases after with
    | nil =>
      rw [List.nil_append, List.cons.injEq] at hacts
      obtain ⟨rfl, rfl⟩ := hacts
      exact ⟨_, _, h, hact⟩
    | cons first after =>
      rw [List.cons_append, List.cons.injEq] at hacts
      exact ih hacts.2

/-- Only the end of a build writes the last run or makes the service idle. -/
theorem Happens.quiet (h : Happens settings a act b)
    (hact : ∀ worker summary, act ≠ .wrote worker summary) :
    b.service.lastRun = a.service.lastRun ∧
      (a.service.state ≠ .idle → b.service.state = a.service.state) := by
  cases h with
  | accepted hfree hw hworker hrun =>
    obtain ⟨hidle, hservice⟩ := Build.of_wp_of_ok (wp_startBuild hworker) hrun
    rw [hw] at hidle hservice
    simp [hservice, start, hidle]
  | refused hfree hw hworker hrun =>
    have hservice := Build.of_wp_of_error (wp_startBuild hworker) hrun
    rw [hw] at hservice
    exact ⟨by rw [hservice], fun _ => by rw [hservice]⟩
  | performed hapart hw hjob hnext =>
    simp only [service_step_of_next? hapart (hw ▸ hjob) hnext, hw, advance, hjob]
    exact ⟨trivial, fun _ => trivial⟩
  | wrote => exact absurd rfl (hact _ _)
  | told | waits | answered | ended => exact ⟨rfl, fun _ => rfl⟩

/-- The end of a build writes its summary and makes the service idle. -/
theorem Happens.of_wrote (h : Happens settings a (.wrote worker summary) b) :
    ∃ job now, a.service.job? worker = some job ∧ summary = job.summary now ∧
      b.service.state = .idle ∧ b.service.lastRun = some summary := by
  cases h with
  | wrote hw hjob hnext hlast =>
    obtain ⟨now, hservice⟩ := service_step_of_end (hw ▸ hjob) hnext
    rw [hservice, hw, finish, hjob] at hlast
    refine ⟨_, now, hjob, (Option.some.inj hlast).symm, ?_, ?_⟩
    · simp only [hservice, hw, state_finish hjob]
    · simp only [hservice, hw, finish, hjob]
      exact hlast

/-- The worker of a build at its end can end it. -/
theorem Happens.exists_wrote {job : Job} {w : World} (stages : Stages) (outside : Outside)
    (hw : w.service = a.service) (hjob : a.service.job? worker = some job)
    (hnext : job.next? = none) :
    ∃ now, ((step settings stages worker).run outside w).2.service = a.service.finish worker now ∧
      Happens settings a (.wrote worker (job.summary now))
        { a with service := ((step settings stages worker).run outside w).2.service } := by
  obtain ⟨now, hservice⟩ : ∃ now, ((step settings stages worker).run outside w).2.service =
    w.service.finish worker now := service_step_of_end (hw ▸ hjob) hnext
  rw [hw] at hservice
  refine ⟨now, hservice, .wrote hw hjob hnext ?_⟩
  rw [hservice, finish, hjob]

/-- The worker of a build in flight can always take its next step. -/
theorem Happens.exists_of_job? {job : Job} {stages : Stages} {outside : Outside} {w : World}
    (hapart : stages.IsApart) (hw : w.service = a.service)
    (hjob : a.service.job? worker = some job) :
    ∃ act, act.IsStepOf worker ∧ Happens settings a act
      { a with service := ((step settings stages worker).run outside w).2.service } := by
  cases hnext : job.next? with
  | some task => exact ⟨.performed worker task _, rfl, .performed hapart hw hjob hnext⟩
  | none =>
    obtain ⟨now, -, hact⟩ := Happens.exists_wrote stages outside hw hjob hnext
    exact ⟨.wrote worker (job.summary now), rfl, hact⟩

/-- Who waits without a time limit is told of the build that was accepted last before, or of a later
one. -/
theorem Happens.exists_wrote_of_answered {lastRun : Option RunSummary} {after before : List Act}
    (h : Happens settings a (.answered client lastRun) b)
    (hreached : Reached settings (after ++ .waits client false :: before) a)
    (hnot : ∀ lastRun, Act.answered client lastRun ∉ after)
    (hmem : Act.accepted client k request startedAt ∈ before) :
    ∃ m summary, k ≤ m ∧ Act.wrote m summary ∈ after ++ .waits client false :: before ∧
      lastRun = some summary := by
  obtain ⟨n, hstands⟩ := hreached.exists_stands
  obtain ⟨before', c, hbefore, -⟩ := hreached.of_append
  obtain ⟨m, hb⟩ := hbefore.exists_stands
  have hlt := hb.service.lt_of_accepted hmem
  have hwaiting := hstands.awaits client false after before rfl hnot
  -- the wait is for the worker of the build that was accepted last, which has ended
  obtain ⟨last, hlast⟩ : ∃ last, (builds before).length = last + 1 :=
    ⟨(builds before).length - 1, by omega⟩
  rw [hlast, Nat.ppred_succ] at hwaiting
  cases h with
  | answered hwait hended =>
    cases hwaiting.symm.trans hwait
    have hend := hstands.ended last (hended.resolve_left Bool.false_ne_true last rfl)
    obtain ⟨m, summary, hle, hwrote, hrun⟩ := hstands.service.lastRun_of_lt hend
    exact ⟨m, summary, by omega, hwrote, hrun⟩

/-- Who waits can be answered unless the worker that is waited for has still to end. -/
theorem Scene.Stands.answered_or_ends (h : a.Stands acts n) {wait : Wait}
    (hwait : a.waiting client = some wait) :
    (∃ lastRun b, Happens settings a (.answered client lastRun) b) ∨
      ∃ worker, wait.worker = some worker ∧
        ((∃ b, Happens settings a (.ended worker) b) ∨ (a.service.job? worker).isSome = true) := by
  cases hworker : wait.worker with
  | none =>
    exact .inl ⟨_, _, .answered hwait (.inr fun worker h => by rw [hworker] at h; cases h)⟩
  | some worker =>
    by_cases hended : worker ∈ a.ended
    · refine .inl ⟨_, _, .answered hwait (.inr fun worker' h => ?_)⟩
      rw [hworker] at h
      exact Option.some.inj h ▸ hended
    · refine .inr ⟨worker, rfl, ?_⟩
      -- its build is done and the thread can end, or it is the one in flight
      by_cases hlt : worker < n
      · exact .inl ⟨_, .ended (h.service.finished_iff.2 hlt) hended⟩
      · exact .inr (h.service.isSome_job?_iff.2
          ⟨Nat.le_of_not_lt hlt, h.awaited client wait worker hwait hworker⟩)

/-- However clients and workers are interleaved, there is one build at a time. -/
theorem isSingleFlight_of_reached (h : Reached settings acts a) : IsSingleFlight settings acts a := by
  -- all but the answers to waiting clients is read off how a reached scene stands; for those the
  -- run up to the answer is needed
  obtain ⟨n, hstands⟩ := h.exists_stands
  constructor
  case numbered =>
    rintro client k r t after before rfl
    obtain ⟨b, c, hbefore, hact⟩ := h.of_append
    obtain ⟨m, hb⟩ := hbefore.exists_stands
    cases hact with
    | accepted => exact hb.service.length_workers
  case inFlight =>
    intro i j job job' hjob hjob'
    exact (hstands.service.of_job? hjob).1.trans (hstands.service.of_job? hjob').1.symm
  case running_iff => exact hstands.service.running_iff
  case accepted =>
    intro worker job hjob
    exact (hstands.service.of_job? hjob).2.1
  case started =>
    intro client k r t b hact
    cases hact with
    | accepted hfree hw hworker hrun =>
      obtain ⟨hidle, hservice⟩ := Build.of_wp_of_ok (wp_startBuild hworker) hrun
      exact ⟨hw ▸ hidle, by rw [hservice]; exact start_idle hidle _ _ _⟩
  case refused =>
    intro client failure b hact
    cases hact with
    | refused hfree hw hworker hrun =>
      rw [(Build.of_wp_of_error (wp_startBuild hworker) hrun).trans hw]
  case wrote =>
    intro worker summary b hact
    obtain ⟨job, now, hjob, rfl, hidle, hlast⟩ := hact.of_wrote
    exact ⟨hstands.service.running_iff.2 ⟨worker, job, hjob, rfl, rfl⟩, hidle, hlast⟩
  case quiet =>
    intro act b hact hne
    exact hact.quiet hne
  case once =>
    intro client worker r t hmem
    exact hstands.service.length_writesOf hmem
  case tells =>
    intro worker summary hmem
    exact hstands.service.tells hmem
  case goesOn =>
    intro worker job hjob
    refine ⟨(hstands.service.of_job? hjob).2.2.length_le, ?_⟩
    intro stages outside w hapart hw
    exact Happens.exists_of_job? hapart hw hjob
  case answered =>
    intro client lastRun b hact after before k r t hacts hnot hmem
    subst hacts
    exact hact.exists_wrote_of_answered h hnot hmem
  case unblocked =>
    intro client wait hwait
    exact hstands.answered_or_ends hwait

/-! ### What can happen -/

/-- The world of a service. -/
def worldOf (s : Service) : World := { World.ofDisk .empty [] with service := s }

/-- A client whose build is accepted, while none is in flight. -/
theorem Happens.accepted_of_idle {accepted : Request} (outside : Outside)
    (hfree : a.waiting client = none) (hcomplete : settings.complete request = .ok accepted)
    (hidle : a.service.state = .idle) (hworker : outside.refuses [] .worker = none) :
    Happens settings a (.accepted client a.service.workers.length accepted (outside.clock []).stamp)
      { a with service := (a.service.start accepted (outside.clock []).stamp none).2 } := by
  obtain ⟨w', hrun⟩ := run_startBuild (w := worldOf a.service) hcomplete hidle hworker
  have hact := Happens.accepted hfree rfl hworker hrun
  rwa [(Build.of_wp_of_ok (wp_startBuild hworker) hrun).2] at hact

/-- A client whose build is refused, while another one is in flight. -/
theorem Happens.refused_of_running {accepted current : Request} {since : String} (outside : Outside)
    (hfree : a.waiting client = none) (hcomplete : settings.complete request = .ok accepted)
    (hrunning : a.service.state = .running current since)
    (hworker : outside.refuses [] .worker = none) :
    Happens settings a (.refused client .inProgress) a := by
  obtain ⟨w', hrun⟩ := run_startBuild_of_running (w := worldOf a.service) hcomplete hrunning
  have hact := Happens.refused hfree rfl hworker hrun
  rwa [Build.of_wp_of_error (wp_startBuild hworker) hrun] at hact

/-- The worker of a build that does its next task. -/
theorem Happens.performed_of_next? {job : Job} {stages : Stages} (outside : Outside)
    (hapart : stages.IsApart) (hjob : a.service.job? worker = some job)
    (hnext : job.next? = some task)
    (houtcome : ((stages.perform (settings.configOf job.request) job.request task).run outside
      (worldOf a.service)).1 = outcome) :
    Happens settings a (.performed worker task outcome)
      { a with service := a.service.advance worker outcome } := by
  subst houtcome
  have hact : Happens settings a (.performed worker task ((stages.perform
      (settings.configOf job.request) job.request task).run outside (worldOf a.service)).1) _ :=
    .performed hapart rfl hjob hnext
  rwa [service_step_of_next? hapart hjob hnext] at hact

/-! ### A build that is accepted before the thread of the last one has ended -/

/-- A request to read the repository, as it is accepted. -/
def readingRequest : Request :=
  ⟨some Request.full, some Reading.stage, none, some "", some "main", some "p"⟩

/-- The time at which every build begins here. -/
def beginning : String := (Populating.quiet.clock []).stamp

/-- The job of that request as it begins. -/
def readingJob : Job := .ofRequest readingRequest beginning

/-- Reading fails here: there is no version control. -/
def noVersionControl : Failure := .noGit "log" ""

/-- That job once it has failed. -/
def failedJob : Job := readingJob.after (.error noVersionControl)

/-- A client waits for its build, which fails; another client's build is refused at first, and
accepted before the thread of the first worker has ended. -/
def twoBuilds (now : String) : List Act :=
  [.answered 0 (some (failedJob.summary now)), .ended 0, .accepted 1 1 readingRequest beginning,
    .wrote 0 (failedJob.summary now), .performed 0 .parse (.error noVersionControl), .waits 0 false,
    .refused 1 .inProgress, .accepted 0 0 readingRequest beginning]

/-- The first client waits for the first worker. -/
def firstWaits : Nat → Option Wait := Function.update (fun _ => none) 0 (some ⟨some 0, false⟩)

/-- The first build is in flight. -/
def firstBuild (job : Job) (waiting : Nat → Option Wait) : Scene :=
  ⟨⟨.running readingRequest beginning, none, [.busy job]⟩, [], waiting⟩

/-- The second build is in flight. -/
def secondBuild (now : String) (ended : List Nat) : Scene :=
  ⟨⟨.running readingRequest beginning, some (failedJob.summary now), [.finished, .busy readingJob]⟩,
    ended, firstWaits⟩

theorem reached_twoBuilds : ∃ now a, Reached Populating.fileSettings (twoBuilds now) a := by
  have hcomplete : Populating.fileSettings.complete readingRequest = .ok readingRequest := rfl
  have haccepted : Reached Populating.fileSettings [.accepted 0 0 readingRequest beginning]
      (firstBuild readingJob fun _ => none) :=
    Reached.start.next (.accepted_of_idle Populating.quiet rfl hcomplete rfl rfl)
  -- a second client is refused while the first build runs, and then waits for it
  have hrefused : Happens Populating.fileSettings (firstBuild readingJob fun _ => none)
      (.refused 1 .inProgress) (firstBuild readingJob fun _ => none) :=
    .refused_of_running Populating.quiet rfl hcomplete rfl rfl
  have hwaits : Happens Populating.fileSettings (firstBuild readingJob fun _ => none)
      (.waits 0 false) (firstBuild readingJob firstWaits) := .waits rfl
  have hperformed : Happens Populating.fileSettings (firstBuild readingJob firstWaits)
      (.performed 0 .parse (.error noVersionControl)) (firstBuild failedJob firstWaits) :=
    .performed_of_next? Populating.quiet Populating.fileSettings.isApart_stages rfl rfl rfl
  obtain ⟨now, hservice, hwrote⟩ : ∃ now, _ ∧ Happens Populating.fileSettings
      (firstBuild failedJob firstWaits) (.wrote 0 (failedJob.summary now)) _ :=
    Happens.exists_wrote (w := worldOf (firstBuild failedJob firstWaits).service)
      Populating.fileSettings.stages Populating.quiet rfl rfl rfl
  rw [hservice] at hwrote
  -- the next build begins before the waiting client is answered
  have hagain : Happens Populating.fileSettings
      ⟨⟨.idle, some (failedJob.summary now), [.finished]⟩, [], firstWaits⟩
      (.accepted 1 1 readingRequest beginning) (secondBuild now []) :=
    .accepted_of_idle Populating.quiet rfl hcomplete rfl rfl
  have hended : Happens Populating.fileSettings (secondBuild now []) (.ended 0)
      (secondBuild now [0]) := .ended rfl List.not_mem_nil
  have hanswered : Happens Populating.fileSettings (secondBuild now [0])
      (.answered 0 (some (failedJob.summary now)))
      { secondBuild now [0] with waiting := Function.update firstWaits 0 none } := by
    refine .answered rfl (.inr fun worker hworker => ?_)
    cases hworker
    exact List.mem_singleton_self 0
  have hwritten := (((haccepted.next hrefused).next hwaits).next hperformed).next hwrote
  exact ⟨now, _, ((hwritten.next hagain).next hended).next hanswered⟩

/-- There is one build at a time in this run. -/
theorem isSingleFlight_of_reached_twoBuilds : ∃ now a,
    Reached Populating.fileSettings (twoBuilds now) a ∧
      IsSingleFlight Populating.fileSettings (twoBuilds now) a := by
  obtain ⟨now, a, hreached⟩ := reached_twoBuilds
  exact ⟨now, a, hreached, isSingleFlight_of_reached hreached⟩

end Service

end RepoGraph
