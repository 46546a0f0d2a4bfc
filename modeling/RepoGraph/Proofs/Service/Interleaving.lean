import Mathlib.Data.Nat.PSub
import Mathlib.Logic.Function.Basic
import RepoGraph.Proofs.Service.Apart
import RepoGraph.Proofs.Service.Jobs
import RepoGraph.Proofs.Twin.Builds

/-!
# Clients and workers, interleaved

Clients start builds, ask for the status and wait, each of them one call after the other; the
workers of accepted builds do their tasks, end their jobs, and then their threads end.
`Service.Happens` is one such act, done at once: what it does is what `startBuild` and `step` do in
any world with the service and in any surroundings.  `Service.Reached` are the scenes that acts in
any order lead to.  Whether a worker can be started at all is left aside: here it can.

A waiting client has taken note of the worker that was started last.  Without a time limit it is
answered once the thread of that worker has ended, which is some time after the worker has ended its
job.

Main statements: `Service.wp_startBuild`, `Service.service_step_of_next?`,
`Service.service_step_of_end`.
-/

namespace RepoGraph

namespace Service

/-! ### Acts -/

/-- What a client or a worker does at once. -/
inductive Act where
  /-- A client's build is accepted, and gets a worker. -/
  | accepted (client worker : Nat) (request : Request) (startedAt : String)
  /-- A client's build is refused. -/
  | refused (client : Nat) (failure : Failure)
  /-- A client is told the status. -/
  | told (client : Nat) (status : ServiceStatus)
  /-- A client begins to wait, perhaps not longer than some time. -/
  | waits (client : Nat) (timed : Bool)
  /-- A client has waited, and is told the last run. -/
  | answered (client : Nat) (lastRun : Option RunSummary)
  /-- A worker has done a task. -/
  | performed (worker : Nat) (task : Task) (outcome : Task.Outcome)
  /-- A worker ends its job and writes the last run. -/
  | wrote (worker : Nat) (summary : RunSummary)
  /-- The thread of a worker ends. -/
  | ended (worker : Nat)

/-- What a client waits for: the worker that was started last, if there was one. -/
structure Wait where
  worker : Option Nat
  timed : Bool

/-- The service, the workers whose threads have ended, and the clients that wait. -/
structure Scene where
  service : Service
  ended : List Nat
  waiting : Nat → Option Wait

/-- The scene before the first act. -/
def Scene.initial : Scene := ⟨.initial, [], fun _ => none⟩

/-- The worker that was started last, if there is one. -/
def latest? (s : Service) : Option Nat := s.workers.length.ppred

/-- One act, done at once.  What startBuild and step do is taken in any world with the service and
in any surroundings; the parts of the build are any that know nothing of the service. -/
inductive Happens (settings : Settings) : Scene → Act → Scene → Prop
  | accepted {a : Scene} {client : Nat} {request accepted : Request} {outside : Outside}
      {w w' : World}
      (hfree : a.waiting client = none) (hw : w.service = a.service)
      (hworker : outside.refuses w.events .worker = none)
      (hrun : (startBuild settings request).run outside w = (.ok accepted, w')) :
      Happens settings a
        (.accepted client a.service.workers.length accepted (outside.clock w.events).stamp)
        { a with service := w'.service }
  | refused {a : Scene} {client : Nat} {request : Request} {failure : Failure} {outside : Outside}
      {w w' : World} (hfree : a.waiting client = none) (hw : w.service = a.service)
      (hworker : outside.refuses w.events .worker = none)
      (hrun : (startBuild settings request).run outside w = (.error failure, w')) :
      Happens settings a (.refused client failure) { a with service := w'.service }
  | told {a : Scene} {client : Nat} (hfree : a.waiting client = none) :
      Happens settings a (.told client a.service.status) a
  | waits {a : Scene} {client : Nat} {timed : Bool} (hfree : a.waiting client = none) :
      Happens settings a (.waits client timed)
        { a with waiting := Function.update a.waiting client (some ⟨a.service.latest?, timed⟩) }
  | answered {a : Scene} {client : Nat} {wait : Wait} (hwait : a.waiting client = some wait)
      (hended : wait.timed = true ∨ ∀ worker, wait.worker = some worker → worker ∈ a.ended) :
      Happens settings a (.answered client a.service.lastRun)
        { a with waiting := Function.update a.waiting client none }
  | performed {a : Scene} {worker : Nat} {job : Job} {task : Task} {stages : Stages}
      {outside : Outside}
      {w : World} (hapart : stages.IsApart) (hw : w.service = a.service)
      (hjob : a.service.job? worker = some job) (hnext : job.next? = some task) :
      Happens settings a
        (.performed worker task
          ((stages.perform (settings.configOf job.request) job.request task).run outside w).1)
        { a with service := ((step settings stages worker).run outside w).2.service }
  | wrote {a : Scene} {worker : Nat} {job : Job} {summary : RunSummary} {stages : Stages}
      {outside : Outside} {w : World} (hw : w.service = a.service)
      (hjob : a.service.job? worker = some job) (hnext : job.next? = none)
      (hlast : ((step settings stages worker).run outside w).2.service.lastRun = some summary) :
      Happens settings a (.wrote worker summary)
        { a with service := ((step settings stages worker).run outside w).2.service }
  | ended {a : Scene} {worker : Nat} (hfinished : a.service.workers[worker]? = some .finished)
      (hnot : worker ∉ a.ended) :
      Happens settings a (.ended worker) { a with ended := worker :: a.ended }

/-- The scenes that acts lead to; the latest act comes first. -/
inductive Reached (settings : Settings) : List Act → Scene → Prop
  | start : Reached settings [] .initial
  | next {acts : List Act} {a b : Scene} {act : Act} (h : Reached settings acts a)
      (hact : Happens settings a act b) : Reached settings (act :: acts) b

/-! ### What was done so far -/

/-- The builds that were accepted, in order. -/
def builds (acts : List Act) : List (Request × String) :=
  (acts.filterMap fun act => match act with
    | .accepted _ _ request startedAt => some (request, startedAt)
    | _ => none).reverse

/-- The tasks that a worker has done, with what came of them, in order. -/
def stepsOf (worker : Nat) (acts : List Act) : List (Task × Task.Outcome) :=
  (acts.filterMap fun act => match act with
    | .performed k task outcome => if k = worker then some (task, outcome) else none
    | _ => none).reverse

/-- The summaries that a worker has written. -/
def writesOf (worker : Nat) (acts : List Act) : List RunSummary :=
  acts.filterMap fun act => match act with
    | .wrote k summary => if k = worker then some summary else none
    | _ => none

variable {settings : Settings} {stages : Stages} {outside : Outside} {w w' : World} {worker : Nat}
  {request : Request} {job : Job} {task : Task}

theorem mem_writesOf {acts : List Act} {summary : RunSummary} :
    summary ∈ writesOf worker acts ↔ Act.wrote worker summary ∈ acts := by
  simp only [writesOf, List.mem_filterMap]
  constructor
  · rintro ⟨act, hact, h⟩
    split at h
    · split at h
      · rename_i hworker
        rw [← hworker, ← Option.some.inj h]
        exact hact
      · cases h
    · cases h
  · exact fun hact => ⟨_, hact, if_pos rfl⟩

theorem mem_stepsOf {acts : List Act} {outcome : Task.Outcome} :
    (task, outcome) ∈ stepsOf worker acts ↔ Act.performed worker task outcome ∈ acts := by
  simp only [stepsOf, List.mem_reverse, List.mem_filterMap]
  constructor
  · rintro ⟨act, hact, h⟩
    split at h
    · split at h
      · rename_i hworker
        obtain ⟨rfl, rfl⟩ := Prod.mk.inj (Option.some.inj h)
        rw [← hworker]
        exact hact
      · cases h
    · cases h
  · exact fun hact => ⟨_, hact, if_pos rfl⟩

/-! ### What the service does -/

/-- Starting a build changes the service only if the build is accepted, which it is only while no
other one runs. -/
theorem wp_startBuild (hworker : outside.refuses w.events .worker = none) :
    (startBuild settings request).wp
      (fun accepted w' => w.service.state = .idle ∧
        w'.service = (w.service.start accepted (outside.clock w.events).stamp none).2)
      (fun _ w' => w'.service = w.service) outside w := by
  simp only [startBuild, Build.wp_bind, Build.wp_take, Build.wp_stamp, Build.wp_get, Build.wp_read,
    hworker, change, Build.wp_modify, Build.wp_note, Build.wp_log, Build.wp_pure]
  refine ⟨fun accepted _ => ?_, fun _ _ => trivial⟩
  cases hstate : w.service.state with
  | idle => simp [start, hstate]
  | running current since => simp [start_running hstate]

/-- A client whose build is accepted. -/
theorem run_startBuild {accepted : Request} (hcomplete : settings.complete request = .ok accepted)
    (hidle : w.service.state = .idle) (hworker : outside.refuses w.events .worker = none) :
    ∃ w', (startBuild settings request).run outside w = (.ok accepted, w') := by
  have hwp : (startBuild settings request).wp (fun a _ => a = accepted)
      (fun _ _ => False) outside w := by
    simp only [startBuild, hcomplete, Build.wp_bind, Build.wp_take, Build.wp_stamp, Build.wp_get,
      Build.wp_read, hworker, start, hidle, change, Build.wp_modify, Build.wp_note, Build.wp_log,
      Build.wp_pure]
    refine ⟨fun a ha => ?_, fun _ h => by cases h⟩
    cases ha
    exact ⟨fun _ _ => rfl, fun _ h => by cases h⟩
  obtain ⟨_, w', hrun, rfl⟩ := Build.exists_run_of_wp hwp
  exact ⟨w', hrun⟩

/-- A client whose build is refused because another one runs. -/
theorem run_startBuild_of_running {accepted current : Request} {since : String}
    (hcomplete : settings.complete request = .ok accepted)
    (hrunning : w.service.state = .running current since) :
    ∃ w', (startBuild settings request).run outside w = (.error .inProgress, w') := by
  have hwp : (startBuild settings request).wp (fun _ _ => False)
      (fun f _ => f = .inProgress) outside
      w := by
    simp only [startBuild, hcomplete, Build.wp_bind, Build.wp_take, Build.wp_stamp, Build.wp_get,
      Build.wp_read, start_running hrunning, change, Build.wp_modify]
    simp
  rw [Build.wp] at hwp
  generalize (startBuild settings request).run outside w = ending at hwp ⊢
  obtain ⟨f | a, w'⟩ := ending
  · exact ⟨w', by rw [show f = .inProgress from hwp]⟩
  · exact hwp.elim

theorem service_step_of_next? (hapart : stages.IsApart) (hjob : w.service.job? worker = some job)
    (hnext : job.next? = some task) :
    ((step settings stages worker).run outside w).2.service = w.service.advance worker
      ((stages.perform (settings.configOf job.request) job.request task).run outside w).1 := by
  rw [run_step settings stages outside hjob hnext]
  simp only
  rw [hapart.perform]

theorem service_step_of_end (hjob : w.service.job? worker = some job) (hnext : job.next? = none) :
    ∃ now, ((step settings stages worker).run outside w).2.service =
      w.service.finish worker now := by
  obtain ⟨events, now, hrun⟩ : ∃ events now, (step settings stages worker).run outside w = _ :=
    run_step_of_next?_none hjob hnext
  exact ⟨now, by rw [hrun]⟩

end Service

end RepoGraph
