import RepoGraph.Proofs.Build
import RepoGraph.Service.Working

/-!
# What a job tells at its end

A worker does the tasks of its job in order until one of them fails.  `Job.Follows` says of a job
which tasks were done so far and how they ended.  Its summary then lists the stages that were
completed, which are the first of those the request asks for; it tells of success if these are all
of them, and else of the failure that stopped it, in words.

Main statements: `Stages.allows_perform`, `Job.Follows.tasks_eq`, `Job.Follows.success_iff`.
-/

namespace RepoGraph

/-! ### Tasks and stages -/

/-- The name of the stage that a task is, if it is one. -/
def Task.stage? : Task → Option String
  | .sync => none
  | .parse => some Reading.stage
  | .enrich => some Enriching.stage
  | .populate => some Populating.stage

namespace Request

/-- The stages that a request asks for, in order. -/
def selected (r : Request) : List String :=
  [Reading.stage, Enriching.stage, Populating.stage].filter r.asksFor

theorem filterMap_stage?_tasks (r : Request) : r.tasks.filterMap Task.stage? = r.selected := by
  rw [tasks, selected, Reading.stage, Enriching.stage, Populating.stage]
  cases hparse : r.asksFor "parse" <;> cases henrich : r.asksFor "enrich" <;>
    cases hpopulate : r.asksFor "populate" <;> cases r.repoUrl.any (· != "") <;>
      simp [List.filterMap_cons, Task.stage?, Reading.stage, Enriching.stage,
        Populating.stage, hparse,
        henrich, hpopulate]

/-- A checkout is brought up to date only if the repository is then read. -/
theorem getLast?_tasks_ne_sync (r : Request) : r.tasks.getLast? ≠ some .sync := by
  rw [tasks]
  cases r.asksFor "parse" <;> cases r.asksFor "enrich" <;> cases r.asksFor "populate" <;>
    cases r.repoUrl.any (· != "") <;> simp

/-- Tasks that are left always have a stage among them. -/
theorem stages_left_ne_nil {r : Request} {done left : List Task} (h : done ++ left = r.tasks)
    (hleft : left ≠ []) : left.filterMap Task.stage? ≠ [] := by
  have hlast := r.getLast?_tasks_ne_sync
  rw [← h, List.getLast?_append_of_ne_nil _ hleft, List.getLast?_eq_some_getLast hleft] at hlast
  intro hnone
  have hsync := List.filterMap_eq_nil_iff.1 hnone _ (List.getLast_mem hleft)
  revert hlast hsync
  cases left.getLast hleft <;> simp [Task.stage?]

end Request

/-- What comes of a task: a summary if it is a stage, or a failure. -/
abbrev Task.Outcome : Type := Except Failure (Option StageSummary)

/-- Whether this may come of a task: a summary names the stage that the task is. -/
def Task.Allows (task : Task) (outcome : Task.Outcome) : Prop :=
  ∀ summary, outcome = .ok summary → summary.map StageSummary.stage = task.stage?

namespace Stages

variable {outside : Outside} {w : World}

theorem wp_timed_stage {α : Type} {name : String} {config : BuildConfig}
    {stage : BuildConfig → Build α} {summary : Int → α → StageSummary}
    (h : ∀ ms output, (summary ms output).stage = name) :
    (timed name config stage summary).wp (fun done _ => done.map StageSummary.stage = some name)
      (fun _ _ => True) outside w := by
  simp only [timed, Build.wp_bind, Build.wp_now, Build.wp_attempt, Build.wp_pure,
    Option.map_some, h]
  refine ⟨fun _ => ?_, fun _ _ => trivial⟩
  exact Build.wp_mono (Build.wp_true _) (fun _ _ _ => trivial) fun _ _ => id

/-- What the parts of a build answer is what may come of their tasks. -/
theorem allows_perform (stages : Stages) (config : BuildConfig) (r : Request) (task : Task) :
    task.Allows ((stages.perform config r task).run outside w).1 := by
  have hwp : (stages.perform config r task).wp
      (fun summary _ => summary.map StageSummary.stage = task.stage?)
        (fun _ _ => True) outside w := by
    cases task with
    | sync =>
      simp only [perform, runSync, Build.wp_bind, Build.wp_log, Build.wp_attempt, Build.wp_pure]
      exact ⟨fun _ => Build.wp_mono (Build.wp_true _) (fun _ _ _ => rfl) fun _ _ => id,
        fun _ _ => trivial⟩
    | parse | enrich | populate =>
      rw [perform]
      exact wp_timed_stage fun _ _ => rfl
  intro summary hsummary
  have hrun : (stages.perform config r task).run outside w =
      (.ok summary, ((stages.perform config r task).run outside w).2) := Prod.ext hsummary rfl
  exact Build.of_wp_of_ok hwp hrun

end Stages

/-! ### Failures -/

/-- What a summary tells of a failure is never empty. -/
theorem Failure.summary_ne_empty (f : Failure) : f.summary ≠ "" := by
  have hkind : f.kind ≠ "" := by
    rw [kind.eq_def]
    split
    · decide
    · decide
    · assumption
    · decide
  rw [summary]
  split
  · exact hkind
  · rename_i hne
    simpa using hne

/-! ### Jobs -/

namespace Job

variable {r : Request} {startedAt : String} {steps : List (Task × Task.Outcome)} {job : Job}

/-- Whether a job stands where these tasks, with what came of them, have led it. -/
inductive Follows (r : Request) (startedAt : String) : List (Task × Task.Outcome) → Job → Prop
  | start : Follows r startedAt [] (ofRequest r startedAt)
  | next {steps : List (Task × Task.Outcome)} {job : Job} {task : Task} {outcome : Task.Outcome}
      (h : Follows r startedAt steps job) (hnext : job.next? = some task)
      (houtcome : task.Allows outcome) :
      Follows r startedAt (steps ++ [(task, outcome)]) (job.after outcome)

/-- The summaries of the stages that were completed. -/
def completed (steps : List (Task × Task.Outcome)) : List StageSummary :=
  steps.filterMap fun step => step.2.toOption.join

/-- The tasks that were completed. -/
def finished (steps : List (Task × Task.Outcome)) : List Task :=
  steps.filterMap fun step => step.2.toOption.map fun _ => step.1

theorem of_next? {task : Task} (h : job.next? = some task) :
    job.failure = none ∧ ∃ rest, job.left = task :: rest := by
  rw [next?] at h
  cases hfailure : job.failure with
  | some f =>
    rw [hfailure] at h
    cases h
  | none =>
    rw [hfailure] at h
    exact ⟨rfl, List.head?_eq_some_iff.1 h⟩

@[simp]
theorem request_after (job : Job) (outcome : Task.Outcome) :
    (job.after outcome).request = job.request := by
  cases outcome <;> rfl

@[simp]
theorem startedAt_after (job : Job) (outcome : Task.Outcome) :
    (job.after outcome).startedAt = job.startedAt := by
  cases outcome <;> rfl

namespace Follows

theorem done_eq (h : Follows r startedAt steps job) : job.done = completed steps := by
  induction h with
  | start => rfl
  | @next steps job task outcome _ _ _ ih =>
    rw [completed, List.filterMap_append, ← completed, ← ih]
    cases outcome with
    | ok summary => cases summary <;> simp [after, Except.toOption]
    | error f => simp [after, Except.toOption]

/-- The tasks that were completed and those that are left are those of the request. -/
theorem tasks_eq (h : Follows r startedAt steps job) : finished steps ++ job.left = r.tasks := by
  induction h with
  | start => rfl
  | @next steps job task outcome _ hnext _ ih =>
    obtain ⟨-, rest, hleft⟩ := of_next? hnext
    rw [finished, List.filterMap_append, ← finished, List.append_assoc, ← ih]
    cases outcome with
    | ok summary => simp [after, hleft, Except.toOption]
    | error f => simp [after, Except.toOption]

/-- The stages that were completed are those among the tasks. -/
theorem map_stage_completed (h : Follows r startedAt steps job) :
    (completed steps).map StageSummary.stage = (finished steps).filterMap Task.stage? := by
  induction h with
  | start => rfl
  | @next steps job task outcome _ _ houtcome ih =>
    rw [completed, finished, List.filterMap_append, List.filterMap_append, List.map_append,
      List.filterMap_append, ← completed, ← finished, ih, List.append_cancel_left_eq]
    cases outcome with
    | ok summary =>
      have hstage := houtcome summary rfl
      cases summary <;> simp [Except.toOption, ← hstage]
    | error f => rfl

/-- A job that is stopped has a task left: the one that failed. -/
theorem of_failure (h : Follows r startedAt steps job) {f : Failure}
    (hfailure : job.failure = some f) :
    ∃ task rest, job.left = task :: rest ∧ (task, .error f) ∈ steps := by
  cases h with
  | start => cases hfailure
  | @next steps job task outcome _ hnext _ =>
    obtain ⟨hnone, rest, hleft⟩ := of_next? hnext
    cases outcome with
    | ok summary =>
      rw [after, hnone] at hfailure
      cases hfailure
    | error f' =>
      cases hfailure
      exact ⟨task, rest, hleft, by simp⟩

theorem prefix_selected (h : Follows r startedAt steps job) :
    job.done.map StageSummary.stage <+: r.selected := by
  rw [h.done_eq, h.map_stage_completed, ← r.filterMap_stage?_tasks, ← h.tasks_eq,
    List.filterMap_append]
  exact List.prefix_append _ _

/-- At its end a job was not stopped exactly if all stages that the request asks for were
completed. -/
theorem success_iff (h : Follows r startedAt steps job) (hend : job.next? = none) :
    job.failure = none ↔ job.done.map StageSummary.stage = r.selected := by
  have htasks := h.tasks_eq
  rw [h.done_eq, h.map_stage_completed, ← r.filterMap_stage?_tasks, ← htasks, List.filterMap_append,
    List.self_eq_append_right]
  constructor
  · intro hnone
    rw [next?, hnone] at hend
    rw [List.head?_eq_none_iff.1 hend]
    rfl
  · intro hnil
    by_contra hsome
    obtain ⟨f, hfailure⟩ := Option.ne_none_iff_exists'.1 hsome
    obtain ⟨task, rest, hleft, -⟩ := h.of_failure hfailure
    exact Request.stages_left_ne_nil htasks (by rw [hleft]; exact List.cons_ne_nil _ _) hnil

/-- No more was done than the request has tasks. -/
theorem length_le (h : Follows r startedAt steps job) : steps.length ≤ r.tasks.length := by
  suffices hcount : steps.length +
      (if job.failure.isNone then job.left.length else job.left.length - 1) =
        r.tasks.length by omega
  induction h with
  | start => simp [ofRequest]
  | @next steps job task outcome _ hnext _ ih =>
    obtain ⟨hnone, rest, hleft⟩ := of_next? hnext
    rw [hnone, hleft] at ih
    cases outcome with
    | ok summary => simp_all [after]; omega
    | error f => simp_all [after]; omega

end Follows

end Job

end RepoGraph
