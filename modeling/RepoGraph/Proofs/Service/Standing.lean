import RepoGraph.Proofs.Service.Interleaving

/-!
# What every act preserves

However clients and workers are interleaved, workers before the last one have ended their jobs, and
the last one may be at its job, which is where its tasks have led it; builds that were done have
written their summaries once, the last one last.  `Service.Stands` says so of the service after some
acts, and `Service.Scene.Stands` adds who waits for what.

Main statements: `Service.Scene.Stands.next`, `Service.Reached.exists_stands`.
-/

namespace RepoGraph

namespace Service

/-! ### Idle and building -/

section

variable {s : Service} {n k : Nat} {job job' : Job}

/-- Whether so many builds were done and none is in flight. -/
structure IsResting (s : Service) (n : Nat) : Prop where
  state_eq : s.state = .idle
  workers_eq : s.workers = List.replicate n .finished

/-- Whether so many builds were done and the next one is in flight. -/
structure IsBuilding (s : Service) (n : Nat) (job : Job) : Prop where
  state_eq : s.state = .running job.request job.startedAt
  workers_eq : s.workers = List.replicate n .finished ++ [.busy job]

theorem IsResting.job?_eq (h : s.IsResting n) (k : Nat) : s.job? k = none := by
  rw [job?, h.workers_eq, List.getElem?_replicate]
  split
  · rename_i heq
    split at heq <;> cases heq
  · rfl

theorem IsBuilding.job?_eq (h : s.IsBuilding n job) (k : Nat) :
    s.job? k = if k = n then some job else none := by
  rw [job?, h.workers_eq]
  obtain hlt | rfl | hgt := Nat.lt_trichotomy k n
  · rw [List.getElem?_append_left (by simpa using hlt), List.getElem?_replicate, if_pos hlt,
      if_neg hlt.ne]
  · simp
  · rw [List.getElem?_eq_none (by simpa using Nat.succ_le_of_lt hgt), if_neg hgt.ne']

theorem IsBuilding.eq_of_job? (h : s.IsBuilding n job) (hjob : s.job? k = some job') :
    k = n ∧ job' = job := by
  rw [h.job?_eq] at hjob
  split at hjob
  · rename_i hk
    exact ⟨hk, (Option.some.inj hjob).symm⟩
  · cases hjob

theorem IsResting.start (h : s.IsResting n) (request : Request) (now : String) :
    (s.start request now none).2.IsBuilding n (.ofRequest request now) ∧
      (s.start request now none).2.lastRun = s.lastRun := by
  simp only [Service.start, h.state_eq]
  exact ⟨⟨rfl, by rw [h.workers_eq]⟩, trivial⟩

theorem IsBuilding.advance (h : s.IsBuilding n job) (outcome : Task.Outcome) :
    (s.advance n outcome).IsBuilding n (job.after outcome) ∧
      (s.advance n outcome).lastRun = s.lastRun := by
  rw [Service.advance, h.job?_eq, if_pos rfl]
  refine ⟨⟨?_, ?_⟩, rfl⟩
  · rw [Job.request_after, Job.startedAt_after]
    exact h.state_eq
  · simp [h.workers_eq]

theorem IsBuilding.finish (h : s.IsBuilding n job) (now : String) :
    (s.finish n now).IsResting (n + 1) ∧ (s.finish n now).lastRun = some (job.summary now) := by
  rw [Service.finish, h.job?_eq, if_pos rfl]
  refine ⟨⟨rfl, ?_⟩, rfl⟩
  simp [h.workers_eq, List.replicate_succ']

end

/-! ### What was done, act by act -/

variable {acts : List Act} {act : Act} {client worker k n : Nat} {request : Request}
  {startedAt : String} {task : Task} {outcome : Task.Outcome} {summary : RunSummary}

/-- Whether an act is neither the start nor a step of a build. -/
def Act.IsIdle : Act → Prop
  | .accepted .. | .performed .. | .wrote .. => False
  | _ => True

theorem builds_accepted :
    builds (.accepted client worker request startedAt :: acts) =
      builds acts ++ [(request, startedAt)] := by
  simp [builds]

theorem builds_performed : builds (.performed worker task outcome :: acts) = builds acts := rfl

theorem builds_idle (h : act.IsIdle) : builds (act :: acts) = builds acts := by
  cases act <;> first | rfl | exact h.elim

theorem stepsOf_accepted :
    stepsOf k (.accepted client worker request startedAt :: acts) = stepsOf k acts := rfl

theorem stepsOf_performed : stepsOf k (.performed worker task outcome :: acts) =
    stepsOf k acts ++ if worker = k then [(task, outcome)] else [] := by
  by_cases h : worker = k <;> simp [stepsOf, h]

theorem stepsOf_idle (h : act.IsIdle) : stepsOf k (act :: acts) = stepsOf k acts := by
  cases act <;> first | rfl | exact h.elim

theorem writesOf_performed :
    writesOf k (.performed worker task outcome :: acts) = writesOf k acts := rfl

theorem writesOf_wrote : writesOf k (.wrote worker summary :: acts) =
    (if worker = k then [summary] else []) ++ writesOf k acts := by
  by_cases h : worker = k <;> simp [writesOf, h]

theorem writesOf_idle (h : act.IsIdle) : writesOf k (act :: acts) = writesOf k acts := by
  cases act <;> first | rfl | exact h.elim

theorem mem_accepted_cons (hact : ∀ client k r t, act ≠ .accepted client k r t) {r : Request}
    {t : String} : (∃ client, Act.accepted client k r t ∈ act :: acts) ↔
      ∃ client, Act.accepted client k r t ∈ acts := by
  refine exists_congr fun client => ⟨fun hmem => ?_, List.mem_cons_of_mem _⟩
  rcases List.mem_cons.1 hmem with rfl | hmem
  · exact absurd rfl (hact _ _ _ _)
  · exact hmem

/-! ### What every act preserves -/

/-- What the service is after some acts, when so many builds were done. -/
structure Stands (acts : List Act) (s : Service) (n : Nat) : Prop where
  /-- Either no build is in flight, or the next one, which is where its tasks have led it. -/
  service : s.IsResting n ∧ (builds acts).length = n ∨
    ∃ job, s.IsBuilding n job ∧ (builds acts).length = n + 1 ∧
      (builds acts)[n]? = some (job.request, job.startedAt) ∧
      job.Follows job.request job.startedAt (stepsOf n acts)
  numbered : ∀ k r t, (builds acts)[k]? = some (r, t) ↔ ∃ client, Act.accepted client k r t ∈ acts
  unstarted : ∀ k, (builds acts).length ≤ k → stepsOf k acts = []
  /-- A build that was done has ended where its tasks have led it, and has written its summary
  once. -/
  written : ∀ k < n, ∃ (job : Job) (now : String),
    (builds acts)[k]? = some (job.request, job.startedAt) ∧
    job.Follows job.request job.startedAt (stepsOf k acts) ∧ job.next? = none ∧
    writesOf k acts = [job.summary now]
  unwritten : ∀ k, n ≤ k → writesOf k acts = []
  lastRun : s.lastRun = n.ppred.bind fun m => (writesOf m acts).head?

namespace Stands

variable {s s' : Service}

theorem initial : Stands [] .initial 0 where
  service := .inl ⟨⟨rfl, rfl⟩, rfl⟩
  numbered k r t := by simp [builds]
  unstarted _ _ := rfl
  written _ h := absurd h (Nat.not_lt_zero _)
  unwritten _ _ := rfl
  lastRun := rfl

theorem idle (h : Stands acts s n) (hact : act.IsIdle) : Stands (act :: acts) s n where
  service := by simpa only [builds_idle hact, stepsOf_idle hact] using h.service
  numbered k r t := by
    rw [builds_idle hact, h.numbered, mem_accepted_cons]
    rintro _ _ _ _ rfl
    exact hact
  unstarted k hk := by
    rw [builds_idle hact] at hk
    rw [stepsOf_idle hact, h.unstarted k hk]
  written k hk := by
    simpa only [builds_idle hact, stepsOf_idle hact, writesOf_idle hact] using h.written k hk
  unwritten k hk := by rw [writesOf_idle hact, h.unwritten k hk]
  lastRun := by simpa only [writesOf_idle hact] using h.lastRun

theorem length_workers (h : Stands acts s n) : s.workers.length = (builds acts).length := by
  obtain ⟨hresting, hlength⟩ | ⟨job, hbuilding, hlength, -⟩ := h.service
  · rw [hresting.workers_eq, hlength, List.length_replicate]
  · rw [hbuilding.workers_eq, hlength, List.length_append, List.length_replicate,
      List.length_singleton]

/-- The workers that have ended their jobs are those of the builds that were done. -/
theorem finished_iff (h : Stands acts s n) : s.workers[k]? = some .finished ↔ k < n := by
  obtain ⟨hresting, -⟩ | ⟨job, hbuilding, -⟩ := h.service
  · rw [hresting.workers_eq, List.getElem?_replicate]
    simp
  · rw [hbuilding.workers_eq, List.getElem?_append, List.length_replicate, List.getElem?_replicate]
    split
    · simp [*]
    · rename_i hk
      simp only [hk, iff_false]
      cases hk' : k - n <;> simp

/-- A build is accepted when none is in flight, and is in flight then. -/
theorem accepted (h : Stands acts s n) (hidle : s.state = .idle) (client : Nat) (request : Request)
    (startedAt : String) :
    Stands (.accepted client s.workers.length request startedAt :: acts)
      (s.start request startedAt none).2 n := by
  obtain ⟨hresting, hlength⟩ | ⟨job, hbuilding, -⟩ := h.service
  · obtain ⟨hbuilding, hlast⟩ := hresting.start request startedAt
    have hworkers : s.workers.length = n := by rw [hresting.workers_eq, List.length_replicate]
    have hnew : (builds acts ++ [(request, startedAt)])[n]? = some (request, startedAt) := by
      rw [← hlength, List.getElem?_concat_length]
    refine ⟨.inr ⟨_, hbuilding, ?_, ?_, ?_⟩, fun k r t => ?_, fun k hk => ?_, fun k hk => ?_,
      h.unwritten, hlast.trans h.lastRun⟩
    · rw [builds_accepted, List.length_append, hlength, List.length_singleton]
    · rw [builds_accepted]
      exact hnew
    · rw [stepsOf_accepted, h.unstarted n hlength.le]
      exact .start
    · rw [builds_accepted, hworkers]
      constructor
      · intro hget
        -- builds of before keep their numbers, and the new one has the next
        obtain hlt | rfl | hgt := Nat.lt_trichotomy k n
        · rw [List.getElem?_append_left (by omega), h.numbered] at hget
          exact hget.imp fun _ => List.mem_cons_of_mem _
        · cases hnew.symm.trans hget
          exact ⟨client, List.mem_cons_self⟩
        · rw [List.getElem?_eq_none (by simp; omega)] at hget
          cases hget
      · rintro ⟨client', hmem⟩
        rcases List.mem_cons.1 hmem with heq | hmem
        · cases heq
          exact hnew
        · have hget := (h.numbered k r t).2 ⟨client', hmem⟩
          rw [List.getElem?_append_left (List.getElem?_eq_some_iff.1 hget).1, hget]
    · rw [builds_accepted, List.length_append] at hk
      rw [stepsOf_accepted, h.unstarted k (by omega)]
    · obtain ⟨job, now, hbuild, hrest⟩ := h.written k hk
      refine ⟨job, now, ?_, hrest⟩
      rw [builds_accepted, List.getElem?_append_left (by omega), hbuild]
  · rw [hbuilding.state_eq] at hidle
    cases hidle

/-- The worker of the build in flight has done a task. -/
theorem performed (h : Stands acts s n) {job : Job} (hjob : s.job? worker = some job)
    (hnext : job.next? = some task) (houtcome : task.Allows outcome) :
    Stands (.performed worker task outcome :: acts) (s.advance worker outcome) n := by
  obtain ⟨hresting, -⟩ | ⟨job', hbuilding, hlength, hbuild, hfollows⟩ := h.service
  · rw [hresting.job?_eq] at hjob
    cases hjob
  · obtain ⟨rfl, rfl⟩ := hbuilding.eq_of_job? hjob
    obtain ⟨hbuilding', hlast⟩ := hbuilding.advance outcome
    -- the steps of other workers are those before
    have hothers {k : Nat} (hk : k ≠ worker) :
        stepsOf k (.performed worker task outcome :: acts) = stepsOf k acts := by
      rw [stepsOf_performed, if_neg (Ne.symm hk), List.append_nil]
    refine ⟨.inr ⟨_, hbuilding', hlength, ?_, ?_⟩, fun k r t => ?_, fun k hk => ?_, fun k hk => ?_,
      h.unwritten, hlast.trans h.lastRun⟩
    · rw [Job.request_after, Job.startedAt_after]
      exact hbuild
    · rw [Job.request_after, Job.startedAt_after, stepsOf_performed, if_pos rfl]
      exact hfollows.next hnext houtcome
    · rw [mem_accepted_cons fun _ _ _ _ => Act.noConfusion]
      exact h.numbered k r t
    · rw [builds_performed, hlength] at hk
      rw [hothers (by omega), h.unstarted k (by omega)]
    · rw [builds_performed, hothers hk.ne, writesOf_performed]
      exact h.written k hk

/-- The build in flight is at its end, and is done then. -/
theorem wrote (h : Stands acts s n) {job : Job} (hjob : s.job? worker = some job)
    (hnext : job.next? = none) (now : String) :
    Stands (.wrote worker (job.summary now) :: acts) (s.finish worker now) (n + 1) := by
  obtain ⟨hresting, -⟩ | ⟨job', hbuilding, hlength, hbuild, hfollows⟩ := h.service
  · rw [hresting.job?_eq] at hjob
    cases hjob
  · obtain ⟨rfl, rfl⟩ := hbuilding.eq_of_job? hjob
    obtain ⟨hresting, hlast⟩ := hbuilding.finish now
    have hothers {k : Nat} (hk : k ≠ worker) :
        writesOf k (.wrote worker (job.summary now) :: acts) = writesOf k acts := by
      rw [writesOf_wrote, if_neg (Ne.symm hk), List.nil_append]
    have hown : writesOf worker (.wrote worker (job.summary now) :: acts) = [job.summary now] := by
      rw [writesOf_wrote, if_pos rfl, h.unwritten worker le_rfl, List.append_nil]
    refine ⟨.inl ⟨hresting, hlength⟩, fun k r t => ?_, h.unstarted, fun k hk => ?_,
      fun k hk => ?_, ?_⟩
    · rw [mem_accepted_cons fun _ _ _ _ => Act.noConfusion]
      exact h.numbered k r t
    · rcases Nat.lt_succ_iff_lt_or_eq.1 hk with hk | rfl
      · rw [hothers hk.ne]
        exact h.written k hk
      · exact ⟨job, now, hbuild, hfollows, hnext, hown⟩
    · rw [hothers (by omega), h.unwritten k (by omega)]
    · rw [hlast, Nat.ppred_succ, Option.bind_some, hown]
      rfl

/-- The run state tells of the build in flight, if there is one. -/
theorem running_iff (h : Stands acts s n) {r : Request} {t : String} :
    s.state = .running r t ↔
      ∃ worker job, s.job? worker = some job ∧ job.request = r ∧ job.startedAt = t := by
  obtain ⟨hresting, -⟩ | ⟨job, hbuilding, -⟩ := h.service
  · simp [hresting.state_eq, hresting.job?_eq]
  · rw [hbuilding.state_eq, RunState.running.injEq]
    constructor
    · rintro ⟨rfl, rfl⟩
      exact ⟨n, job, by rw [hbuilding.job?_eq, if_pos rfl], rfl, rfl⟩
    · rintro ⟨worker, job', hjob, rfl, rfl⟩
      obtain ⟨-, rfl⟩ := hbuilding.eq_of_job? hjob
      exact ⟨rfl, rfl⟩

/-- The build in flight is the one that was accepted and is not done. -/
theorem isSome_job?_iff (h : Stands acts s n) :
    (s.job? k).isSome = true ↔ n ≤ k ∧ k < (builds acts).length := by
  obtain ⟨hresting, hlength⟩ | ⟨job, hbuilding, hlength, -⟩ := h.service
  · rw [hresting.job?_eq, hlength]
    simp
  · rw [hbuilding.job?_eq, hlength]
    split
    · simp; omega
    · simp; omega

/-- The build in flight was accepted, and is where its tasks have led it. -/
theorem of_job? (h : Stands acts s n) {job : Job} (hjob : s.job? worker = some job) :
    worker = n ∧ (∃ client, Act.accepted client worker job.request job.startedAt ∈ acts) ∧
      job.Follows job.request job.startedAt (stepsOf worker acts) := by
  obtain ⟨hresting, -⟩ | ⟨job', hbuilding, -, hbuild, hfollows⟩ := h.service
  · rw [hresting.job?_eq] at hjob
    cases hjob
  · obtain ⟨rfl, rfl⟩ := hbuilding.eq_of_job? hjob
    exact ⟨rfl, (h.numbered _ _ _).1 hbuild, hfollows⟩

theorem lt_of_accepted (h : Stands acts s n)
    (hmem : Act.accepted client k request startedAt ∈ acts) :
    k < (builds acts).length :=
  (List.getElem?_eq_some_iff.1 ((h.numbered _ _ _).2 ⟨client, hmem⟩)).1

/-- A build that was accepted has written its summary if it is no longer in flight. -/
theorem length_writesOf (h : Stands acts s n)
    (hmem : Act.accepted client k request startedAt ∈ acts) :
    (writesOf k acts).length = if (s.job? k).isSome then 0 else 1 := by
  have hlt := h.lt_of_accepted hmem
  by_cases hk : n ≤ k
  · rw [if_pos (h.isSome_job?_iff.2 ⟨hk, hlt⟩), h.unwritten k hk, List.length_nil]
  · obtain ⟨job, now, -, -, -, hwrites⟩ := h.written k (Nat.lt_of_not_le hk)
    rw [if_neg fun hjob => hk (h.isSome_job?_iff.1 hjob).1, hwrites, List.length_singleton]

/-- After a build was done, the last run is that of the build that was done last. -/
theorem lastRun_of_lt (h : Stands acts s n) (hk : k < n) :
    ∃ m summary, k ≤ m ∧ Act.wrote m summary ∈ acts ∧ s.lastRun = some summary := by
  obtain ⟨m, rfl⟩ : ∃ m, n = m + 1 := ⟨n - 1, by omega⟩
  obtain ⟨job, now, -, -, -, hwrites⟩ := h.written m (Nat.lt_succ_self m)
  refine ⟨m, job.summary now, Nat.le_of_lt_succ hk, mem_writesOf.1 ?_, ?_⟩
  · rw [hwrites]
    exact List.mem_singleton_self _
  · rw [h.lastRun, Nat.ppred_succ, Option.bind_some, hwrites]
    rfl

end Stands

/-- Whether a client that began to wait and was not answered waits for the build that was accepted
last before it did. -/
def Awaits (acts : List Act) (waiting : Nat → Option Wait) : Prop :=
  ∀ client timed after before, acts = after ++ .waits client timed :: before →
    (∀ lastRun, Act.answered client lastRun ∉ after) →
    waiting client = some ⟨(builds before).length.ppred, timed⟩

theorem awaits_nil (waiting : Nat → Option Wait) : Awaits [] waiting := by
  intro client timed after before heq
  simp at heq

theorem Awaits.cons {waiting waiting' : Nat → Option Wait} (h : Awaits acts waiting)
    (hact : ∀ client timed, act ≠ .waits client timed)
    (hsame : ∀ client, (∀ lastRun, act ≠ .answered client lastRun) →
      waiting' client = waiting client) :
    Awaits (act :: acts) waiting' := by
  intro client timed after before heq hnot
  cases after with
  | nil =>
    rw [List.nil_append, List.cons.injEq] at heq
    exact absurd heq.1 (hact client timed)
  | cons first after =>
    rw [List.cons_append, List.cons.injEq] at heq
    obtain ⟨rfl, hacts⟩ := heq
    rw [hsame client fun lastRun hfirst => hnot lastRun (hfirst ▸ List.mem_cons_self)]
    exact h client timed after before hacts fun lastRun hmem =>
      hnot lastRun (List.mem_cons_of_mem _ hmem)

/-- Who does not begin to wait leaves everyone waiting. -/
theorem Awaits.keep {waiting : Nat → Option Wait} (h : Awaits acts waiting)
    (hact : ∀ client timed, act ≠ .waits client timed) : Awaits (act :: acts) waiting :=
  h.cons hact fun _ _ => rfl

theorem Awaits.waits {waiting : Nat → Option Wait} (h : Awaits acts waiting) {timed : Bool}
    (hfree : waiting client = none) :
    Awaits (.waits client timed :: acts)
      (Function.update waiting client (some ⟨(builds acts).length.ppred, timed⟩)) := by
  intro client' timed' after before heq hnot
  cases after with
  | nil =>
    rw [List.nil_append, List.cons.injEq] at heq
    obtain ⟨hwaits, rfl⟩ := heq
    cases hwaits
    exact Function.update_self _ _ _
  | cons first after =>
    rw [List.cons_append, List.cons.injEq] at heq
    have hwaiting := h client' timed' after before heq.2 fun lastRun hmem =>
      hnot lastRun (List.mem_cons_of_mem _ hmem)
    rw [Function.update_of_ne, hwaiting]
    rintro rfl
    rw [hfree] at hwaiting
    cases hwaiting

/-- What a scene is after some acts, when so many builds were done. -/
structure Scene.Stands (acts : List Act) (a : Scene) (n : Nat) : Prop where
  service : Service.Stands acts a.service n
  ended : ∀ k ∈ a.ended, k < n
  awaits : Awaits acts a.waiting
  awaited : ∀ client wait k, a.waiting client = some wait → wait.worker = some k →
    k < (builds acts).length

variable {settings : Settings} {a b : Scene}

/-- Acts that are no part of a build. -/
theorem Scene.Stands.idle (h : a.Stands acts n) (hact : act.IsIdle)
    (hservice : b.service = a.service)
    (hended : ∀ k ∈ b.ended, k < n) (hawaits : Awaits (act :: acts) b.waiting)
    (hawaited : ∀ client wait k, b.waiting client = some wait → wait.worker = some k →
      k < (builds acts).length) : b.Stands (act :: acts) n :=
  ⟨hservice ▸ h.service.idle hact, hended, hawaits, by rwa [builds_idle hact]⟩

/-- Every act leads to a scene of the same kind. -/
theorem Scene.Stands.next (h : a.Stands acts n) (hact : Happens settings a act b) :
    ∃ m, b.Stands (act :: acts) m := by
  cases hact with
  | accepted hfree hw hworker hrun =>
    obtain ⟨hidle, hservice⟩ := Build.of_wp_of_ok (wp_startBuild hworker) hrun
    rw [hw] at hidle hservice
    refine ⟨n, ?_, h.ended, h.awaits.keep fun _ _ => Act.noConfusion, ?_⟩
    · rw [hservice]
      exact h.service.accepted hidle _ _ _
    · intro client wait k hwait hk
      rw [builds_accepted, List.length_append]
      exact Nat.lt_add_right _ (h.awaited client wait k hwait hk)
  | refused hfree hw hworker hrun =>
    have hservice := Build.of_wp_of_error (wp_startBuild hworker) hrun
    exact ⟨n, h.idle trivial (hservice.trans hw) h.ended
      (h.awaits.keep fun _ _ => Act.noConfusion) h.awaited⟩
  | told hfree =>
    exact ⟨n, h.idle trivial rfl h.ended (h.awaits.keep fun _ _ => Act.noConfusion)
      h.awaited⟩
  | @waits client timed hfree =>
    -- the worker that is waited for is that of the build that was accepted last
    have hlatest : a.service.latest? = (builds acts).length.ppred := by
      rw [latest?, h.service.length_workers]
    refine ⟨n, h.idle trivial rfl h.ended ?_ fun client' wait k hwait hk => ?_⟩
    · rw [hlatest]
      exact h.awaits.waits hfree
    · by_cases hclient : client' = client
      · rw [hclient, hlatest] at hwait
        simp only [Function.update_self, Option.some.injEq] at hwait
        rw [← hwait, Nat.ppred_eq_some] at hk
        omega
      · simp only [Function.update_of_ne hclient] at hwait
        exact h.awaited client' wait k hwait hk
  | @answered client wait hwait hended =>
    refine ⟨n, h.idle trivial rfl h.ended (h.awaits.cons (fun _ _ => Act.noConfusion)
      fun client' hne => ?_) fun client' wait' k hwait' hk => ?_⟩
    · refine Function.update_of_ne ?_ _ _
      rintro rfl
      exact hne _ rfl
    · by_cases hclient : client' = client
      · rw [hclient] at hwait'
        simp only [Function.update_self] at hwait'
        cases hwait'
      · simp only [Function.update_of_ne hclient] at hwait'
        exact h.awaited client' wait' k hwait' hk
  | performed hapart hw hjob hnext =>
    refine ⟨n, ?_, h.ended, h.awaits.keep fun _ _ => Act.noConfusion, h.awaited⟩
    rw [service_step_of_next? hapart (hw ▸ hjob) hnext, hw]
    exact h.service.performed hjob hnext (Stages.allows_perform _ _ _ _)
  | wrote hw hjob hnext hlast =>
    obtain ⟨now, hservice⟩ := service_step_of_end (hw ▸ hjob) hnext
    rw [hservice, hw, finish, hjob] at hlast
    cases hlast
    refine ⟨n + 1, ?_, fun k hk => (h.ended k hk).trans (Nat.lt_succ_self n),
      h.awaits.keep fun _ _ => Act.noConfusion, h.awaited⟩
    rw [hservice, hw]
    exact h.service.wrote hjob hnext now
  | @ended worker hfinished hnot =>
    refine ⟨n, h.idle trivial rfl (fun k hk => ?_)
      (h.awaits.keep fun _ _ => Act.noConfusion) h.awaited⟩
    rcases List.mem_cons.1 hk with rfl | hk
    · exact h.service.finished_iff.1 hfinished
    · exact h.ended k hk

theorem Reached.exists_stands (h : Reached settings acts a) : ∃ n, a.Stands acts n := by
  induction h with
  | start =>
    exact ⟨0, .initial, fun _ h => (nomatch h), awaits_nil _, fun _ _ _ h => (nomatch h)⟩
  | next _ hact ih =>
    obtain ⟨n, hn⟩ := ih
    exact hn.next hact

end Service

end RepoGraph
