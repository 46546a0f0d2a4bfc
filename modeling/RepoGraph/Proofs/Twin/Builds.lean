import RepoGraph.Proofs.Twin.Apart
import RepoGraph.Proofs.Twin.Enriching
import RepoGraph.Proofs.Twin.Populating
import RepoGraph.Proofs.Twin.Reading

/-!
# Two builds of a project

A build does its tasks one after the other, and each of them reads what the one before it has
staged.  So two builds of a project do the same if they begin with the same of the project, and if
what the first of their tasks reads of the staging area is the same file: `Stages.Common` says so.
They leave the same of the project, unless one of them is stopped by a fault of the disk.

Main statements: `Settings.twin_perform`, `Service.same_of_steps`, `Service.same_of_runBuild`,
`Service.confined_of_runBuild`.
-/

namespace RepoGraph

open Build (Twin Keeps)
open Staging (SharesOutput graphAt)

/-! ### Tasks -/

/-- Whether a task comes right before another one in a build. -/
def Task.Precedes : Task → Task → Prop
  | .sync, .parse => True
  | .parse, .enrich => True
  | .enrich, .populate => True
  | _, _ => False

/-- The tasks of a request follow each other. -/
theorem Request.isChain_tasks (r : Request) : r.tasks.IsChain Task.Precedes := by
  -- all stages, or just the one that is asked for, behind a sync if there is a repository
  by_cases hall : r.stage = some "all"
  · have hasks (stage : String) : r.asksFor stage = true := by simp [asksFor, hall]
    cases hurl : r.repoUrl.any (· != "") <;> simp [tasks, hasks, hurl, Task.Precedes]
  · have hasks (stage : String) : r.asksFor stage = (r.stage == some stage) := by
      simp [asksFor, hall]
    by_cases hparse : r.stage = some "parse"
    · cases hurl : r.repoUrl.any (· != "") <;> simp [tasks, hasks, hparse, hurl, Task.Precedes]
    · by_cases henrich : r.stage = some "enrich"
      · simp [tasks, hasks, henrich]
      · simp [tasks, hasks, hparse, henrich]
        split <;> simp

namespace Stages

variable {outside : Outside} {config : BuildConfig} {w w' : World} {task : Task}
  {tasks rest : List Task}

/-- What a build reads to begin with is the same in two worlds: the checkout, and the marker if the
build goes by it; or the file that its first stage goes on from. -/
def ReadsAlike (outside : Outside) (config : BuildConfig) (w w' : World) : List Task → Prop
  | .sync :: _ => Checkout.AreThere config.repoPath w w' ∧ Reading.ReadsAlike outside config w w'
  | .parse :: _ => Reading.ReadsAlike outside config w w'
  | .enrich :: _ => w'.disk.read w'.cwd (Staging.artifactPath config.stagingPath Reading.stage) =
      w.disk.read w.cwd (Staging.artifactPath config.stagingPath Reading.stage)
  | .populate :: _ => w'.disk.read w'.cwd
      (Staging.artifactPath config.stagingPath Enriching.stage) =
      w.disk.read w.cwd (Staging.artifactPath config.stagingPath Enriching.stage)
  | [] => True

/-- Two worlds have a project in common, and what the first of some tasks reads. -/
structure Common (outside : Outside) (config : BuildConfig) (tasks : List Task) (w w' : World) :
    Prop where
  project : SameProject config.stagingPath config.project w w'
  reads : ReadsAlike outside config w w' tasks

/-- What is in common after a task is what the next one reads, if there is one. -/
theorem common_of_precedes (hchain : (task :: rest).IsChain Task.Precedes)
    (hproject : SameProject config.stagingPath config.project w w')
    (hnext : ∀ next after, task.Precedes next → ReadsAlike outside config w w' (next :: after)) :
    Common outside config rest w w' := by
  refine ⟨hproject, ?_⟩
  cases rest with
  | nil => exact trivial
  | cons next after => exact hnext next after (List.isChain_cons_cons.1 hchain).1

/-- Whatever becomes of the services and was done besides. -/
theorem Common.serviced (h : Common outside config tasks w w') (service service' : Service)
    (events events' : List Event) : Common outside config tasks { w with service, events }
      { w' with service := service', events := events' } := by
  obtain ⟨⟨hcwd, hgraph, hpoints, hholds, hholds'⟩, hreads⟩ := h
  refine ⟨⟨hcwd, hgraph, hpoints, hholds, hholds'⟩, ?_⟩
  have hreading (h : Reading.ReadsAlike outside config w w') : Reading.ReadsAlike outside config
      { w with service, events } { w' with service := service', events := events' } :=
    ⟨⟨h.checkout.discover_eq, h.checkout.read_eq⟩, h.marker⟩
  cases tasks with
  | nil => exact trivial
  | cons task rest =>
    cases task with
    | sync => exact ⟨hreads.1, hreading hreads.2⟩
    | parse => exact hreading hreads
    | enrich | populate => exact hreads

end Stages

namespace Settings

variable {related : List Event → List Event → Prop} {outside outside' : Outside} {w w' : World}
  {s : Settings} {r : Request} {task : Task} {rest : List Task}

/-- Two runs of a task have in common what the tasks after it need if they have the project in
common, and what whichever task comes next reads. -/
theorem twin_common {α : Type} {step step' : Build α} {excused : Failure → Prop}
    {config : BuildConfig} {state failed : World → World → Prop}
    (hchain : (task :: rest).IsChain Task.Precedes)
    (hsteps : Twin step step' excused (fun _ => Tied related state) failed outside outside' w w')
    (hproject : ∀ v v', state v v' → SameProject config.stagingPath config.project v v')
    (hnext : ∀ v v', state v v' → ∀ next after, task.Precedes next →
      Stages.ReadsAlike outside config v v' (next :: after)) :
    Twin step step' excused (fun _ => Tied related (Stages.Common outside config rest)) failed
      outside outside' w w' :=
  hsteps.mono (fun _ h => h)
    (fun _ _ _ hv => ⟨hv.1, Stages.common_of_precedes hchain (hproject _ _ hv.2)
      (hnext _ _ hv.2)⟩) fun _ _ h => h

section Alike

variable (halike : Outside.Alike related outside outside')

include halike

/-- A stage that is timed ends alike in two runs if the stage does. -/
theorem twin_timed {α : Type} {name : String} {config : BuildConfig} {stage : BuildConfig → Build α}
    {summary : Int → α → StageSummary} {state done failed : World → World → Prop}
    {excused : Failure → Prop} (hfailed : ∀ v v', state v v' → failed v v')
    (hstage : ∀ v v', Tied related state v v' → Twin (stage config) (stage config) excused
      (fun _ => Tied related done) (Tied related failed) outside outside' v v')
    (hdone : ∀ v v', done v v' → failed v v') (hw : Tied related state w w') :
    Twin (Stages.timed name config stage summary) (Stages.timed name config stage summary) excused
      (fun _ => Tied related done) (Tied related failed) outside outside' w w' := by
  rw [Stages.timed]
  refine Build.twin_bind ((Build.keeps_now halike).twin hw (fun start w₁ w₁' hw₁ => ?_)
    fun _ _ h => ⟨h.1, hfailed _ _ h.2⟩)
  refine Build.twin_bind ((Build.keeps_attempt halike _).twin hw₁ (fun _ w₂ w₂' hw₂ => ?_)
    fun _ _ h => ⟨h.1, hfailed _ _ h.2⟩)
  refine Build.twin_bind ((hstage w₂ w₂' hw₂).mono (fun _ h => h) (fun output w₃ w₃' hw₃ => ?_)
    fun _ _ h => h)
  exact ((Build.keeps_now halike).bind fun finish => .pure _).twin hw₃ (fun _ _ _ h => h)
    fun _ _ h => ⟨h.1, hdone _ _ h.2⟩

theorem twin_perform_sync (hchain : (.sync :: rest).IsChain Task.Precedes)
    (hw : Tied related (Stages.Common outside (s.configOf r) (.sync :: rest)) w w') :
    Twin (s.stages.perform (s.configOf r) r .sync) (s.stages.perform (s.configOf r) r .sync)
      Failure.IsDisk
      (fun _ => Tied related (Stages.Common outside (s.configOf r) rest))
      (Tied related (SameProject s.stagingPath (s.configOf r).project)) outside outside' w w' := by
  have hsync (url branch : String) :
      Keeps (Tied related (Stages.Common outside (s.configOf r) (.sync :: rest))) outside outside'
        (Checkout.sync (s.configOf r).repoPath url branch) :=
    Checkout.keeps_sync halike (fun _ _ h => h.reads.1) url branch
  rw [Stages.perform, Stages.runSync]
  refine twin_common hchain (Keeps.twin ((Build.keeps_log halike _ _ _).bind fun _ =>
    (Build.keeps_attempt halike _).bind fun _ => (hsync _ _).bind fun _ =>
      (Build.keeps_log halike _ _ _).bind fun _ => .pure _) hw (fun _ _ _ h => h)
      fun _ _ hv => ⟨hv.1, hv.2.project⟩) (fun _ _ h => h.project) fun v v' hv next after hnext => ?_
  cases next with
  | parse => exact hv.reads.2
  | sync | enrich | populate => exact hnext.elim

/-- A task ends alike in two runs that have in common what it reads, and leaves in common what the
next one reads, unless the disk of one of them is at fault. -/
theorem twin_perform (hbackend : s.graphBackend = "networkx")
    (hchain : (task :: rest).IsChain Task.Precedes)
    (hw : Tied related (Stages.Common outside (s.configOf r) (task :: rest)) w w') :
    Twin (s.stages.perform (s.configOf r) r task) (s.stages.perform (s.configOf r) r task)
      Failure.IsDisk
      (fun _ => Tied related (Stages.Common outside (s.configOf r) rest))
      (Tied related (SameProject s.stagingPath (s.configOf r).project)) outside outside' w w' := by
  -- each task needs what it reads, and leaves what the next one reads: one case for each task
  cases task with
  | sync => exact twin_perform_sync halike hchain hw
  | parse =>
    obtain ⟨hpast, hproject, hreads⟩ := hw
    have hstage (v v' : World) (hv : Tied related (Reading.Alike outside (s.configOf r)
        (Source.discover w.disk w.cwd s.repoPath)) v v') :
        Twin (s.stages.parse (s.configOf r)) (s.stages.parse (s.configOf r)) Failure.IsDisk
          (fun _ => Tied related (SharesOutput s.stagingPath (s.configOf r).project Reading.stage))
          (Tied related (SameProject s.stagingPath (s.configOf r).project)) outside outside' v v' :=
      Reading.twin_run halike hv
    rw [Stages.perform]
    refine twin_common hchain (twin_timed halike (fun _ _ h => h.project) hstage
      (fun _ _ h => h.project) ⟨hpast, hreads, hproject, rfl⟩) (fun _ _ h => h.project)
      fun v v' hv next after hnext => ?_
    cases next with
    | enrich => exact hv.output.read_eq
    | sync | parse | populate => exact hnext.elim
  | enrich =>
    have hstage (v v' : World) (hv : Tied related (Enriching.Alike (s.configOf r)) v v') :
        Twin (s.stages.enrich (s.configOf r)) (s.stages.enrich (s.configOf r)) Failure.IsDisk
          (fun _ => Tied related
            (SharesOutput s.stagingPath (s.configOf r).project Enriching.stage))
          (Tied related (SameProject s.stagingPath (s.configOf r).project)) outside outside' v v' :=
      s.twin_enriching halike hv
    rw [Stages.perform]
    refine twin_common hchain (twin_timed halike (fun _ _ h => h.project) hstage
      (fun _ _ h => h.project) ⟨hw.1, hw.2.project, hw.2.reads⟩) (fun _ _ h => h.project)
      fun v v' hv next after hnext => ?_
    cases next with
    | populate => exact hv.output.read_eq
    | sync | parse | enrich => exact hnext.elim
  | populate =>
    have hstage (v v' : World) (hv : Tied related (Populating.Alike (s.configOf r)) v v') :
        Twin (s.stages.populate (s.configOf r)) (s.stages.populate (s.configOf r)) Failure.IsDisk
          (fun _ => Tied related (SameProject s.stagingPath (s.configOf r).project))
          (Tied related (SameProject s.stagingPath (s.configOf r).project)) outside outside' v v' :=
      twin_populating hbackend halike rfl hv
    rw [Stages.perform]
    exact twin_common hchain (twin_timed halike (fun _ _ h => h.project) hstage (fun _ _ h => h)
      ⟨hw.1, hw.2.project, hw.2.reads⟩) (fun _ _ h => h) fun _ _ _ next after hnext => hnext.elim

end Alike

end Settings

/-! ### The steps of a worker -/

theorem Job.next?_eq_some_iff {job : Job} {task : Task} :
    job.next? = some task ↔ job.failure = none ∧ ∃ rest, job.left = task :: rest := by
  rw [Job.next?]
  cases job.failure with
  | some f => simp
  | none => cases job.left <;> simp

namespace Service

variable {s : Settings} {stages : Stages} {outside : Outside} {w : World} {worker : Nat} {job : Job}
  {n : Nat}

/-- A worker without a job does nothing. -/
theorem run_step_of_job?_none (hjob : w.service.job? worker = none) :
    (step s stages worker).run outside w = (.ok (), w) := by
  have hget : (get : Build World).run outside w = (.ok w, w) := rfl
  rw [step, Build.run_bind, hget]
  simp only [hjob]
  rfl

/-- The end of a job is told to the service; nothing else changes but what was done. -/
theorem wp_close : (close worker job).wp
    (fun _ w' => ∃ events now, w' = { w with service := w.service.finish worker now, events })
    (fun _ _ => False) outside w := by
  cases hfailure : job.failure with
  | some f =>
    simp only [close, hfailure, change, Build.wp_bind, Build.wp_log, Build.wp_stamp,
      Build.wp_modify, Build.wp_pure]
    exact ⟨_, _, rfl⟩
  | none =>
    simp only [close, hfailure, change, Build.wp_bind, Build.wp_stamp, Build.wp_modify]
    cases millisecondsBetween job.startedAt (outside.clock w.events).stamp with
    | ok ms => exact ⟨_, _, rfl⟩
    | error f => exact ⟨_, _, rfl⟩

/-- A worker without a next task ends its job. -/
theorem run_step_of_next?_none (hjob : w.service.job? worker = some job)
    (hnext : job.next? = none) :
    ∃ events now, (step s stages worker).run outside w =
      (.ok (), { w with service := w.service.finish worker now, events }) := by
  have hget : (get : Build World).run outside w = (.ok w, w) := rfl
  obtain ⟨answer, after, hclose, events, now, rfl⟩ := Build.exists_run_of_wp wp_close
  refine ⟨events, now, ?_⟩
  rw [step, Build.run_bind, hget]
  simp only [hjob, hnext]
  exact hclose

/-- A worker with no task left ends its job. -/
theorem exists_stepped_of_hasLeft_nil {r : Request} (h : Settings.HasLeft worker r [] w) :
    ∃ service events, s.stepped outside worker w = { w with service, events } := by
  obtain ⟨job, hjob, -, hfailure, hleft⟩ := h
  have hnext : job.next? = none := by rw [Job.next?, hfailure, hleft]; rfl
  obtain ⟨events, now, hrun⟩ : ∃ events now, (step s s.stages worker).run outside w = _ :=
    run_step_of_next?_none hjob hnext
  exact ⟨_, events, by rw [Settings.stepped, hrun]⟩

/-- A step of a worker does not fail: what happens in a task is kept as its outcome. -/
theorem fst_run_step : ((step s stages worker).run outside w).1 = .ok () := by
  have hget : (get : Build World).run outside w = (.ok w, w) := rfl
  cases hjob : w.service.job? worker with
  | none => rw [run_step_of_job?_none hjob]
  | some job =>
    cases hnext : job.next? with
    | none =>
      obtain ⟨events, now, hrun⟩ := run_step_of_next?_none hjob hnext
      rw [hrun]
    | some task =>
      rw [step, Build.run_bind, hget]
      simp only [hjob, hnext, Build.run_bind]
      rfl

theorem run_steps_succ : (steps s stages worker (n + 1)).run outside w =
    (steps s stages worker n).run outside ((step s stages worker).run outside w).2 := by
  have hok : (step s stages worker).run outside w =
      (.ok (), ((step s stages worker).run outside w).2) :=
    Prod.ext fst_run_step rfl
  rw [steps, Build.run_bind, hok]

theorem run_steps_of_job?_none (hjob : w.service.job? worker = none) :
    (steps s stages worker n).run outside w = (.ok (), w) := by
  induction n with
  | zero => rfl
  | succ n ih => rw [run_steps_succ, run_step_of_job?_none hjob, ih]

/-- A worker without a next task ends its job, and does nothing afterwards. -/
theorem run_steps_of_next?_none (hjob : w.service.job? worker = some job)
    (hnext : job.next? = none) :
    ∃ events now, ((steps s stages worker (n + 1)).run outside w).2 =
      { w with service := ⟨.idle, some (job.summary now), w.service.workers.set worker .finished⟩,
               events } := by
  obtain ⟨events, now, hrun⟩ := run_step_of_next?_none hjob hnext
  refine ⟨events, now, ?_⟩
  rw [run_steps_succ, hrun, finish, hjob]
  have hfinished : (Service.mk .idle (some (job.summary now))
      (w.service.workers.set worker .finished)).job? worker = none := by
    rw [job?]
    split
    · rename_i other hother
      rw [List.getElem?_set, if_pos rfl] at hother
      split at hother <;> cases hother
    · rfl
  rw [run_steps_of_job?_none hfinished]

/-- A task of a worker's job ended with an answer in a world, confined to the job's project. -/
structure Does (s : Settings) (outside : Outside) (worker : Nat) (job : Job) (task : Task)
    (w : World) (answer : Except Failure (Option StageSummary)) (v : World) : Prop where
  run_eq : (s.stages.perform (s.configOf job.request) job.request task).run outside w = (answer, v)
  confined : Confined s.stagingPath (s.configOf job.request).project w
    { v with service := v.service.advance worker answer }
  job?_eq : (v.service.advance worker answer).job? worker = some (job.after answer)

theorem exists_does (outside : Outside) (hbackend : s.graphBackend = "networkx")
    (hsound : Staging.HoldsSound s.stagingPath w) (hjob : w.service.job? worker = some job)
    (task : Task) : ∃ answer v, Does s outside worker job task w answer v := by
  have hperform := Build.of_wp (Settings.wp_perform_confined hbackend hsound task :
    (s.stages.perform (s.configOf job.request) job.request task).wp _ _ outside w)
  generalize hrun : (s.stages.perform (s.configOf job.request) job.request task).run outside w =
    ending at hperform
  obtain ⟨answer, v⟩ := ending
  obtain ⟨hv, hservice⟩ := hperform
  exact ⟨answer, v, hrun, hv.serviced _, job?_advance (hservice ▸ hjob) answer⟩

/-- The world after a task that a worker has done. -/
theorem Does.run_steps {task : Task} {answer : Except Failure (Option StageSummary)} {v : World}
    (h : Does s outside worker job task w answer v) (hjob : w.service.job? worker = some job)
    (hnext : job.next? = some task) :
    (steps s s.stages worker (n + 1)).run outside w =
      (steps s s.stages worker n).run outside
        { v with service := v.service.advance worker answer } := by
  rw [run_steps_succ, run_step s s.stages outside hjob hnext, h.run_eq]

/-- A worker without a next task ends its job, which is confined to any project, and makes the
service idle. -/
theorem confined_of_next?_none {project : String} (hsound : Staging.HoldsSound s.stagingPath w)
    (hjob : w.service.job? worker = some job) (hnext : job.next? = none) :
    Confined s.stagingPath project w ((steps s s.stages worker (n + 1)).run outside w).2 ∧
      ((steps s s.stages worker (n + 1)).run outside w).2.service.state = .idle := by
  obtain ⟨events, now, hrun⟩ :
      ∃ events now, ((steps s s.stages worker (n + 1)).run outside w).2 = _ :=
    run_steps_of_next?_none hjob hnext
  rw [hrun]
  exact ⟨.of_fileAt_eq hsound rfl rfl fun _ _ => rfl, rfl⟩

/-- A worker does its tasks until they are done or one of them fails; all of it is confined to the
project, and the service is idle at the end. -/
theorem confined_of_steps (hbackend : s.graphBackend = "networkx") {r : Request}
    (hsound : Staging.HoldsSound s.stagingPath w) (hjob : w.service.job? worker = some job)
    (hrequest : job.request = r) (hn : job.next? = none ∨ job.left.length ≤ n) :
    Confined s.stagingPath (s.configOf r).project w
        ((steps s s.stages worker (n + 1)).run outside w).2 ∧
      ((steps s s.stages worker (n + 1)).run outside w).2.service.state = .idle := by
  -- a step does the next task or ends the job, so the steps outnumber the tasks that are left
  induction n generalizing w job with
  | zero =>
    refine confined_of_next?_none hsound hjob (hn.elim id fun hleft => ?_)
    rw [Job.next?]
    cases job.failure with
    | some f => rfl
    | none => rw [List.length_eq_zero_iff.1 (Nat.le_zero.1 hleft)]; rfl
  | succ n ih =>
    cases hnext : job.next? with
    | none => exact confined_of_next?_none hsound hjob hnext
    | some task =>
      obtain ⟨hfailure, rest, hleft⟩ := Job.next?_eq_some_iff.1 hnext
      subst hrequest
      obtain ⟨answer, v, hdoes⟩ := exists_does outside hbackend hsound hjob task
      rw [hdoes.run_steps hjob hnext]
      obtain ⟨hrest, hidle⟩ := ih hdoes.confined.sound hdoes.job?_eq (by cases answer <;> rfl) (by
        cases answer with
        | error f => exact .inl rfl
        | ok summary =>
          right
          rw [hnext, hleft] at hn
          rw [Job.after, hleft]
          exact Nat.le_of_succ_le_succ (hn.resolve_left (by simp)))
      exact ⟨hdoes.confined.trans hrest, hidle⟩

/-- Whether the last run was stopped by a fault of the disk, as its summary tells. -/
def StoppedByDisk (service : Service) : Prop :=
  ∃ run fault, service.lastRun = some run ∧ run.error = some (Failure.disk fault).summary

/-- A worker whose job has failed at the disk ends it with this failure. -/
theorem stoppedByDisk_of_steps {f : Failure} (hjob : w.service.job? worker = some job)
    (hfailure : job.failure = some f) (hdisk : f.IsDisk) :
    ((steps s stages worker (n + 1)).run outside w).2.service.StoppedByDisk := by
  have hnext : job.next? = none := by rw [Job.next?, hfailure]
  obtain ⟨events, now, hrun⟩ :
      ∃ events now, ((steps s stages worker (n + 1)).run outside w).2 = _ :=
    run_steps_of_next?_none hjob hnext
  obtain ⟨fault, rfl⟩ := hdisk
  rw [hrun]
  refine ⟨job.summary now, fault, rfl, ?_⟩
  rw [Job.summary, hfailure]
  rfl

section Alike

variable {related : List Event → List Event → Prop} {outside' : Outside} {w' : World}
  {worker' : Nat} {job' : Job} {r : Request} {left : List Task}

/-- Two workers without a next task leave the same of a project. -/
theorem same_of_next?_none {project : String} (hw : SameProject s.stagingPath project w w')
    (hjob : w.service.job? worker = some job) (hnext : job.next? = none)
    (hjob' : w'.service.job? worker' = some job') (hnext' : job'.next? = none) :
    SameProject s.stagingPath project ((steps s stages worker (n + 1)).run outside w).2
      ((steps s stages worker' (n + 1)).run outside' w').2 := by
  obtain ⟨events, now, hrun⟩ :
      ∃ events now, ((steps s stages worker (n + 1)).run outside w).2 = _ :=
    run_steps_of_next?_none hjob hnext
  obtain ⟨events', now', hrun'⟩ : ∃ events now,
      ((steps s stages worker' (n + 1)).run outside' w').2 = _ :=
        run_steps_of_next?_none hjob' hnext'
  rw [hrun, hrun']
  exact ⟨hw.cwd_eq, hw.graph, hw.points, hw.holds, hw.holds'⟩

/-- Two workers with the same tasks of a request leave the same of the project if they begin with
what the tasks read in common, unless one of them is stopped by a fault of the disk. -/
theorem same_of_steps (hbackend : s.graphBackend = "networkx")
    (halike : Outside.Alike related outside outside') (hchain : left.IsChain Task.Precedes)
    (hsound : Staging.HoldsSound s.stagingPath w) (hsound' : Staging.HoldsSound s.stagingPath w')
    (hleft : Settings.HasLeft worker r left w) (hleft' : Settings.HasLeft worker' r left w')
    (hw : Tied related (Stages.Common outside (s.configOf r) left) w w') :
    ((steps s s.stages worker (left.length + 1)).run outside w).2.service.StoppedByDisk ∨
      ((steps s s.stages worker' (left.length + 1)).run outside' w').2.service.StoppedByDisk ∨
      SameProject s.stagingPath (s.configOf r).project
        ((steps s s.stages worker (left.length + 1)).run outside w).2
        ((steps s s.stages worker' (left.length + 1)).run outside' w').2 := by
  -- the induction is on the tasks that are left, and what the two runs have in common carries it
  induction left generalizing w w' with
  | nil =>
    obtain ⟨job, hjob, -, hfailure, hnil⟩ := hleft
    obtain ⟨job', hjob', -, hfailure', hnil'⟩ := hleft'
    have hnext : job.next? = none := by rw [Job.next?, hfailure, hnil]; rfl
    have hnext' : job'.next? = none := by rw [Job.next?, hfailure', hnil']; rfl
    exact .inr (.inr (same_of_next?_none (SameProject.still_iff.1 hw.2.project) hjob hnext hjob'
      hnext'))
  | cons task rest ih =>
    obtain ⟨job, hjob, rfl, hnext, hafter⟩ := hleft.exists_job
    obtain ⟨job', hjob', hrequest, hnext', hafter'⟩ := hleft'.exists_job
    have htwin := Settings.twin_perform halike hbackend hchain hw
    obtain ⟨answer, v, hdoes⟩ := exists_does outside hbackend hsound hjob task
    obtain ⟨answer', v', hdoes'⟩ := exists_does outside' hbackend hsound' hjob' task
    have hrun' := hdoes'.run_eq
    rw [hrequest] at hrun'
    rw [Build.Twin, hdoes.run_eq, hrun'] at htwin
    rw [List.length_cons, hdoes.run_steps hjob hnext, hdoes'.run_steps hjob' hnext']
    -- a task that fails at the disk stops its build, and one that fails elsewhere fails in both
    cases answer with
    | error f =>
      cases answer' with
      | error f' =>
        obtain ⟨-, -, hsame⟩ | hdisk | hdisk := htwin
        · refine .inr (.inr (same_of_next?_none ?_ hdoes.job?_eq rfl hdoes'.job?_eq rfl))
          exact ⟨hsame.cwd_eq, hsame.graph, hsame.points, hsame.holds, hsame.holds'⟩
        · exact .inl (stoppedByDisk_of_steps hdoes.job?_eq rfl hdisk)
        · exact .inr (.inl (stoppedByDisk_of_steps hdoes'.job?_eq rfl hdisk))
      | ok summary' => exact .inl (stoppedByDisk_of_steps hdoes.job?_eq rfl htwin)
    | ok summary =>
      cases answer' with
      | error f' => exact .inr (.inl (stoppedByDisk_of_steps hdoes'.job?_eq rfl htwin))
      | ok summary' =>
        obtain ⟨rfl, hpast, hcommon⟩ := htwin
        refine ih hchain.of_cons hdoes.confined.sound hdoes'.confined.sound ?_ ?_ ⟨hpast, ?_⟩
        · exact ⟨_, hdoes.job?_eq, rfl, hafter _⟩
        · exact ⟨_, hdoes'.job?_eq, hrequest, hafter' _⟩
        · exact hcommon.serviced _ _ [] []

end Alike

/-! ### Whole builds -/

/-- The service with one more worker, who has a request to do. -/
def accept (accepted : Request) (now : String) (service : Service) : Service :=
  ⟨.running accepted now, service.lastRun,
    service.workers ++ [.busy (Job.ofRequest accepted now)]⟩

/-- What is noted of a request that is accepted. -/
def queued (accepted : Request) : Event :=
  .log ⟨.info, Stages.channel, ["Build queued: mode=" ++ accepted.mode.getD "" ++ ", stage=" ++
    accepted.stage.getD "" ++ ", project=" ++ accepted.project.getD "" ++ ", repo=" ++
    (match accepted.repoUrl with | none | some "" => "-" | some url => url) ++
    ", branch=" ++ accepted.branch.getD ""]⟩

/-- The world in which a new worker begins with a request. -/
def begun (accepted : Request) (now : String) (w : World) : World :=
  { w with
    service := w.service.accept accepted now, events := queued accepted :: .worker :: w.events }

theorem stays_begun (staging : String) (accepted : Request) (now : String) (w : World) :
    Staging.Stays staging w (begun accepted now w) := Staging.stays_serviced staging w _ _

theorem job?_begun (accepted : Request) (now : String) (w : World) :
    (begun accepted now w).service.job? w.service.workers.length =
      some (Job.ofRequest accepted now) := by
  have hworker : (begun accepted now w).service.workers[w.service.workers.length]? =
      some (.busy (Job.ofRequest accepted now)) := List.getElem?_concat_length
  rw [job?, hworker]

/-- A build of an idle service is done by a new worker. -/
theorem run_runBuild {request accepted : Request} (hcomplete : s.complete request = .ok accepted)
    (hidle : w.service.state = .idle) (hworker : outside.refuses w.events .worker = none) :
    ∃ now, ((runBuild s s.stages request).run outside w).2 =
      ((steps s s.stages w.service.workers.length (accepted.tasks.length + 1)).run outside
        (begun accepted now w)).2 := by
  refine ⟨(outside.clock w.events).stamp, ?_⟩
  have hstart : (startBuild s request).wp
      (fun a w' => a = accepted ∧ w' = begun accepted (outside.clock w.events).stamp w)
      (fun _ _ => False) outside w := by
    simp only [startBuild, hcomplete, Build.wp_bind, Build.wp_take, Build.wp_stamp, Build.wp_get,
      Build.wp_read, hworker, start, hidle, change, Build.wp_modify, Build.wp_note, Build.wp_log,
      Build.wp_pure]
    refine ⟨fun a ha => ?_, fun _ h => by cases h⟩
    cases ha
    exact ⟨fun _ _ => ⟨rfl, rfl⟩, fun _ h => by cases h⟩
  obtain ⟨a, v, hrun, rfl, rfl⟩ := Build.exists_run_of_wp hstart
  -- the clock is closed off, lest it is computed
  generalize (outside.clock w.events).stamp = now at hrun ⊢
  have hget (v : World) : (get : Build World).run outside v = (.ok v, v) := rfl
  have hlatest : (begun a now w).service.latest = w.service.workers.length := by
    show (w.service.workers ++ [_]).length - 1 = _
    rw [List.length_append, List.length_singleton, Nat.add_sub_cancel]
  have hsteps : (begun a now w).service.stepsLeft w.service.workers.length =
      a.tasks.length + 1 := by
    rw [stepsLeft, job?_begun]
    rfl
  rw [runBuild, Build.run_bind, hrun]
  simp only [Build.run_bind, hget, runJob, hlatest, hsteps]
  generalize (steps s s.stages w.service.workers.length (a.tasks.length + 1)).run outside
    (begun a now w) = ending
  obtain ⟨f | _, v⟩ := ending <;> rfl

/-- A request that is refused changes nothing. -/
theorem run_runBuild_of_refused {request : Request} {f : Failure}
    (hcomplete : s.complete request = .error f) :
    ((runBuild s stages request).run outside w).2 = w := by
  have hstart : (startBuild s request).run outside w = (.error f, w) := by
    rw [startBuild, Build.run_bind, hcomplete]
    rfl
  rw [runBuild, Build.run_bind, hstart]

section Building

variable {request accepted : Request} (hbackend : s.graphBackend = "networkx")
  (hcomplete : s.complete request = .ok accepted) (hidle : w.service.state = .idle)
  (hworker : outside.refuses w.events .worker = none)
  (hsound : Staging.HoldsSound s.stagingPath w)

include hbackend hcomplete hidle hworker hsound

/-- A build is confined to its project, and the service is idle afterwards. -/
theorem confined_of_runBuild :
    Confined s.stagingPath (s.configOf accepted).project w
        ((runBuild s s.stages request).run outside w).2 ∧
      ((runBuild s s.stages request).run outside w).2.service.state = .idle := by
  obtain ⟨now, hrun⟩ := run_runBuild hcomplete hidle hworker
  have hbegun : Confined s.stagingPath (s.configOf accepted).project w (begun accepted now w) :=
    .of_fileAt_eq hsound rfl rfl fun _ _ => rfl
  obtain ⟨hconfined, hafter⟩ :=
    confined_of_steps hbackend hbegun.sound (job?_begun accepted now w) rfl
    (.inr (Nat.le_refl (Job.ofRequest accepted now).left.length))
  rw [hrun]
  exact ⟨hbegun.trans hconfined, hafter⟩

/-- Two builds of a project leave the same of it if they begin with what their tasks read in common,
unless one of them is stopped by a fault of the disk. -/
theorem same_of_runBuild {related : List Event → List Event → Prop} {outside' : Outside}
    {w' : World}
    (halike : Outside.Alike related outside outside') (hidle' : w'.service.state = .idle)
    (hworker' : outside'.refuses w'.events .worker = none)
    (hsound' : Staging.HoldsSound s.stagingPath w') (hpast : related w.events w'.events)
    (hcommon : Stages.Common outside (s.configOf accepted) accepted.tasks w w') :
    ((runBuild s s.stages request).run outside w).2.service.StoppedByDisk ∨
      ((runBuild s s.stages request).run outside' w').2.service.StoppedByDisk ∨
      SameProject s.stagingPath (s.configOf accepted).project
        ((runBuild s s.stages request).run outside w).2
        ((runBuild s s.stages request).run outside' w').2 := by
  obtain ⟨now, hrun⟩ := run_runBuild hcomplete hidle hworker
  obtain ⟨now', hrun'⟩ := run_runBuild hcomplete hidle' hworker'
  rw [hrun, hrun']
  refine same_of_steps hbackend halike accepted.isChain_tasks ⟨hsound.holds, hsound.isSound⟩
    ⟨hsound'.holds, hsound'.isSound⟩ ⟨_, job?_begun accepted now w, rfl, rfl, rfl⟩
    ⟨_, job?_begun accepted now' w', rfl, rfl, rfl⟩ ⟨?_, ?_⟩
  · exact halike.both _ _ _ (halike.both _ _ _ hpast)
  · exact hcommon.serviced _ _ [] []

end Building

end Service

end RepoGraph
