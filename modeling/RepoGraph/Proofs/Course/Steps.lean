import RepoGraph.Proofs.Incremental
import RepoGraph.Service.Working

/-!
# Steps of a worker

A step of a worker does the next task of its job and keeps the outcome; nothing else of what the
task leaves is changed by it.  `Settings.Takes` is such a step.  Where a build ends well, its tasks
do one after the other.

Main statements: `Service.run_step`, `Settings.Takes.of_wp_ok`, `Settings.exists_takes_build`.
-/

namespace RepoGraph

open Staging (KeepsRoom Notes)

/-- Whether what is staged and the graph stay as they are, whatever else changes. -/
structure Staging.Stays (staging : String) (w w' : World) : Prop where
  fileAt_eq : ∀ path ∈ [markerPath staging, artifactPath staging Reading.stage,
    artifactPath staging Enriching.stage], w'.disk.fileAt w'.cwd path = w.disk.fileAt w.cwd path
  reached : w.disk.IsReached w.cwd staging → w'.disk.IsReached w'.cwd staging
  graphAt_eq : graphAt staging w' = graphAt staging w

/-- They do so whatever becomes of the service and was done besides. -/
theorem Staging.stays_serviced (staging : String) (w : World) (service : Service)
    (events : List Event) : Stays staging w { w with service, events } := ⟨fun _ _ => rfl, id, rfl⟩

namespace Service

variable {w : World} {worker : Nat} {job : Job} {task : Task}

/-- A step of a worker does the next task of its job, whose outcome it keeps. -/
theorem run_step (s : Settings) (stages : Stages) (outside : Outside)
    (hjob : w.service.job? worker = some job) (hnext : job.next? = some task) :
    ((step s stages worker).run outside w).2 =
      let ending := (stages.perform (s.configOf job.request) job.request task).run outside w
      { ending.2 with service := ending.2.service.advance worker ending.1 } := by
  have hget : (get : Build World).run outside w = (.ok w, w) := rfl
  rw [step, Build.run_bind, hget]
  simp only [hjob, hnext, Build.run_bind]
  rfl

/-- The job after a task of it. -/
theorem job?_advance {service : Service} (hjob : service.job? worker = some job)
    (outcome : Except Failure (Option StageSummary)) :
    (service.advance worker outcome).job? worker = some (job.after outcome) := by
  have hworker : service.workers[worker]? = some (.busy job) := by
    rw [job?] at hjob
    split at hjob
    · rw [← Option.some.inj hjob]
      assumption
    · cases hjob
  obtain ⟨hlt, -⟩ := List.getElem?_eq_some_iff.1 hworker
  rw [advance, hjob, job?]
  simp only [List.getElem?_set_self hlt]

end Service

/-- Whether a worker does its next step, in which a task of a request has an outcome. -/
def Settings.Takes (s : Settings) (outside : Outside) (r : Request) (task : Task)
    (outcome : Except Failure (Option StageSummary)) (w w' : World) : Prop :=
  ∃ worker job, w.service.job? worker = some job ∧ job.request = r ∧ job.next? = some task ∧
    ((s.stages.perform (s.configOf r) r task).run outside w).1 = outcome ∧
    w' = ((Service.step s s.stages worker).run outside w).2

namespace Settings

variable {s : Settings} {outside : Outside} {r : Request} {task : Task} {w w' : World}
  {summary : Option StageSummary} {f : Failure} {done : Option StageSummary → World → Prop}
  {failed : Failure → World → Prop}

theorem Takes.of_wp_ok (h : s.Takes outside r task (.ok summary) w w')
    (hwp : (s.stages.perform (s.configOf r) r task).wp done failed outside w) :
    ∃ w₁, done summary w₁ ∧ ∀ staging, Staging.Stays staging w₁ w' := by
  obtain ⟨worker, job, hjob, rfl, hnext, houtcome, rfl⟩ := h
  rw [Service.run_step s s.stages outside hjob hnext]
  refine ⟨_, ?_, fun staging => Staging.stays_serviced staging _ _ _⟩
  exact Build.of_wp_of_toOption hwp (by rw [houtcome]; rfl)

theorem Takes.of_wp_error (h : s.Takes outside r task (.error f) w w')
    (hwp : (s.stages.perform (s.configOf r) r task).wp done failed outside w) :
    ∃ w₁, failed f w₁ ∧ ∀ staging, Staging.Stays staging w₁ w' := by
  obtain ⟨worker, job, hjob, rfl, hnext, houtcome, rfl⟩ := h
  rw [Service.run_step s s.stages outside hjob hnext]
  refine ⟨_, ?_, fun staging => Staging.stays_serviced staging _ _ _⟩
  exact Build.of_wp_of_error hwp (Prod.ext houtcome rfl)

end Settings

/-! ### Builds that end well -/

/-- A stage that ends well ends well when it is timed. -/
theorem Stages.succeeds_timed {α : Type} {name : String} {config : BuildConfig}
    {stage : BuildConfig → Build α} {summary : Int → α → StageSummary}
    {outside : Outside} {w : World}
    {done : World → Prop} (hcalm : outside.IsCalm)
    (hstage : ∀ events, (stage config).wp (fun _ w' => done w') (fun _ _ => False) outside
      { w with events }) :
    (Stages.timed name config stage summary).wp (fun _ w' => done w') (fun _ _ => False) outside
      w := by
  simp only [Stages.timed, Build.wp_bind, Build.wp_now, Build.wp_attempt, Build.wp_pure]
  refine ⟨fun _ => hstage _, fun f hf => ?_⟩
  rw [hcalm] at hf
  cases hf

namespace Settings

variable {s : Settings} {outside : Outside} {r : Request} {task : Task} {w w' : World}
  {worker : Nat} {paths gone : List String} {said : Entity → Enrichment}

/-- Whether a worker has a request to do with some tasks left. -/
def HasLeft (worker : Nat) (r : Request) (left : List Task) (w : World) : Prop :=
  ∃ job, w.service.job? worker = some job ∧ job.request = r ∧ job.failure = none ∧ job.left = left

theorem HasLeft.exists_job {left : List Task} (h : HasLeft worker r (task :: left) w) :
    ∃ job, w.service.job? worker = some job ∧ job.request = r ∧ job.next? = some task ∧
      ∀ summary, (job.after (.ok summary)).failure = none ∧
        (job.after (.ok summary)).left = left := by
  obtain ⟨job, hjob, hrequest, hfailure, hleft⟩ := h
  refine ⟨job, hjob, hrequest, ?_, fun summary => ⟨hfailure, ?_⟩⟩
  · rw [Job.next?, hfailure, hleft]
    rfl
  · rw [Job.after, hleft]
    rfl

/-- The world after a step of a worker. -/
def stepped (s : Settings) (outside : Outside) (worker : Nat) (w : World) : World :=
  ((Service.step s s.stages worker).run outside w).2

/-- A task that ends well is done in a step of a worker, which then has the rest of its job left. -/
theorem exists_takes {Q : World → Prop} {left : List Task}
    (hleft : HasLeft worker r (task :: left) w)
    (hservice : ∀ w₁ service, Q w₁ → Q { w₁ with service })
    (hwp : (s.stages.perform (s.configOf r) r task).wp (fun _ w' => w'.service = w.service ∧ Q w')
      (fun _ _ => False) outside w) :
    ∃ summary, s.Takes outside r task (.ok summary) w (s.stepped outside worker w) ∧
      Q (s.stepped outside worker w) ∧ HasLeft worker r left (s.stepped outside worker w) := by
  obtain ⟨job, hjob, rfl, hnext, hafter⟩ := hleft.exists_job
  have hrun := Service.run_step s s.stages outside hjob hnext
  have htakes {outcome} (h : ((s.stages.perform (s.configOf job.request) job.request task).run
      outside w).1 = outcome) : s.Takes outside job.request task outcome w
        (s.stepped outside worker w) := ⟨worker, job, hjob, rfl, hnext, h, rfl⟩
  rw [Build.wp] at hwp
  generalize (s.stages.perform (s.configOf job.request) job.request task).run outside w = ending
    at hwp hrun htakes
  obtain ⟨f | summary, w₁⟩ := ending
  · exact hwp.elim
  · obtain ⟨hw₁, hQ⟩ := hwp
    refine ⟨summary, htakes rfl, ?_, job.after (.ok summary), ?_, rfl, hafter summary⟩
    · rw [stepped, hrun]
      exact hservice w₁ _ hQ
    · rw [← hw₁] at hjob
      rw [stepped, hrun]
      exact Service.job?_advance hjob _

section Building

variable (hcalm : outside.IsCalm) {left : List Task} {t : Source.Tree}

include hcalm

/-- Reading the repository is done in a step, after which the build can go on. -/
theorem exists_takes_parse (hgit : outside.HasGit) (hleft : HasLeft worker r (.parse :: left) w)
    (hready : s.IsReady (r.project.getD "") w)
    (hselect : ∀ w', Notes w w' → (Reading.select (s.configOf r)).wp
      (fun selected w'' => selected = (paths, gone) ∧ Notes w' w'') (fun _ _ => False) outside w')
    (hpaths : ∀ path ∈ paths, path ∈ w.disk.filesBelow w.cwd s.repoPath)
    (hshort : ∀ stamp revision, (ParseOutput.toJson (Reading.outputOf (s.configOf r) stamp revision
      (Source.checkout w.disk w.cwd s.repoPath) (paths, gone))).isShort = true) :
    ∃ summary, s.Takes outside r .parse (.ok summary) w (s.stepped outside worker w) ∧
      Disk.SameDirectories w.disk (s.stepped outside worker w).disk ∧
      s.HasFound (s.configOf r) (Source.checkout w.disk w.cwd s.repoPath) paths gone
        (s.stepped outside worker w) ∧
      HasLeft worker r left (s.stepped outside worker w) := by
  have hparse : (s.stages.perform (s.configOf r) r .parse).wp
      (fun _ w' => w'.service = w.service ∧ Disk.SameDirectories w.disk w'.disk ∧
        s.HasFound (s.configOf r) (Source.checkout w.disk w.cwd s.repoPath) paths gone w')
      (fun _ _ => False) outside w := by
    rw [Stages.perform]
    refine Stages.succeeds_timed hcalm fun events => ?_
    show (Reading.run (s.configOf r)).wp _ _ _ _
    have hready' : s.IsReady (r.project.getD "") { w with events } :=
      ⟨hready.room, hready.graph, hready.size⟩
    have hnotes : Notes w { w with events } := ⟨events, rfl⟩
    refine Build.wp_mono (succeeds_reading hcalm hgit hready' (fun w' hw' => hselect w'
      (hnotes.trans hw')) hpaths hshort) (fun _ w₁ hw₁ => ?_) fun _ _ => id
    obtain ⟨⟨disk, events₁, hsame, rfl⟩, hfound⟩ := hw₁
    exact ⟨rfl, hsame, hfound⟩
  obtain ⟨summary, htakes, ⟨hsame, hfound⟩, hleft⟩ := exists_takes hleft (fun w₁ service hw₁ =>
    ⟨hw₁.1, ⟨hw₁.2.ready.room, hw₁.2.ready.graph, hw₁.2.ready.size⟩, hw₁.2.held⟩) hparse
  exact ⟨summary, htakes, hsame, hfound, hleft⟩

/-- Enriching what was found is done in a step, after which the build can go on. -/
theorem exists_takes_enrich (hprovider : s.HasProvider) (hsaid : s.Enriches outside said)
    (hleft : HasLeft worker r (.enrich :: left) w)
    (hfound : s.HasFound (s.configOf r) t paths gone w)
    (hshort : IsShort (s.configOf r) t paths gone said) :
    ∃ summary, s.Takes outside r .enrich (.ok summary) w (s.stepped outside worker w) ∧
      s.HasSaid (s.configOf r) t paths gone (s.stepped outside worker w) ∧
      HasLeft worker r left (s.stepped outside worker w) := by
  refine exists_takes hleft
    (fun w₁ service hw₁ => ⟨⟨hw₁.ready.room, hw₁.ready.graph, hw₁.ready.size⟩,
    hw₁.held⟩) ?_
  rw [Stages.perform]
  refine Stages.succeeds_timed hcalm fun events => ?_
  show (s.enriching (s.configOf r)).wp _ _ _ _
  have hfound' : s.HasFound (s.configOf r) t paths gone { w with events } :=
    ⟨⟨hfound.ready.room, hfound.ready.graph, hfound.ready.size⟩, hfound.held⟩
  have hnotes : Notes w { w with events } := ⟨events, rfl⟩
  exact Build.wp_mono (succeeds_enriching_found hcalm hprovider hsaid hfound' hshort)
    (fun _ w₁ hw₁ => ⟨hw₁.1.service_eq, hw₁.2⟩) fun _ _ => id

/-- Filling the stores with what was said is done in a step, which is the last of the build. -/
theorem exists_takes_populate (hbackend : s.graphBackend = "networkx")
    (hleft : HasLeft worker r (.populate :: left) w)
    (hsaid : s.HasSaid (s.configOf r) t paths gone w) :
    ∃ summary, s.Takes outside r .populate (.ok summary) w (s.stepped outside worker w) ∧
      HasLeft worker r left (s.stepped outside worker w) := by
  obtain ⟨summary, htakes, -, hleft⟩ := exists_takes (Q := fun _ => True) hleft
      (fun _ _ h => h) <| by
    rw [Stages.perform]
    refine Stages.succeeds_timed hcalm fun events => ?_
    have hsucceeds := succeeds_populating hbackend hcalm (w := { w with events })
      ⟨⟨hsaid.ready.room, hsaid.ready.graph, hsaid.ready.size⟩, hsaid.held⟩
    have hservice : (s.populating (s.configOf r)).wp (fun _ w' => w'.service = w.service)
        (fun _ _ => True) outside { w with events } := by
      rw [populating, Populating.graphStore_of_file hbackend]
      refine Build.wp_mono (Populating.wp_run (Populating.graphPath_ne_empty _))
        (fun _ w₁ hw₁ => ?_)
        fun _ _ _ => trivial
      obtain ⟨output, -, g, d, gone, disk, -, -, -, collections, client, events, rfl, -⟩ := hw₁
      rfl
    exact Build.wp_mono (Build.wp_and hsucceeds hservice) (fun _ _ h => ⟨h.2, trivial⟩)
      fun _ _ h => h.1
  exact ⟨summary, htakes, hleft⟩

end Building

/-- Where a build of all stages ends well, a worker does its tasks one after the other. -/
theorem exists_takes_build (hbackend : s.graphBackend = "networkx") (hcalm : outside.IsCalm)
    (hgit : outside.HasGit) (hprovider : s.HasProvider) (hsaid : s.Enriches outside said)
    (hready : s.IsReady (r.project.getD "") w)
    (hselect : ∀ w', Notes w w' → (Reading.select (s.configOf r)).wp
      (fun selected w'' => selected = (paths, gone) ∧ Notes w' w'') (fun _ _ => False) outside w')
    (hpaths : ∀ path ∈ paths, path ∈ w.disk.filesBelow w.cwd s.repoPath)
    (hshort : IsShort (s.configOf r) (Source.checkout w.disk w.cwd s.repoPath) paths gone said)
    (hleft : HasLeft worker r [.parse, .enrich, .populate] w) :
    ∃ parsed enriched populated w₁ w₂ w₃, s.Takes outside r .parse (.ok parsed) w w₁ ∧
      s.Takes outside r .enrich (.ok enriched) w₁ w₂ ∧
      s.Takes outside r .populate (.ok populated) w₂ w₃ := by
  obtain ⟨parsed, hparse, -, hfound, hleft₁⟩ :=
    exists_takes_parse hcalm hgit hleft hready hselect hpaths hshort.parsed
  obtain ⟨enriched, henrich, hsaid, hleft₂⟩ :=
    exists_takes_enrich hcalm hprovider hsaid hleft₁ hfound hshort
  obtain ⟨populated, hpopulate, -⟩ := exists_takes_populate hcalm hbackend hleft₂ hsaid
  exact ⟨parsed, enriched, populated, _, _, _, hparse, henrich, hpopulate⟩

end Settings

end RepoGraph
