import RepoGraph.Proofs.Course.Nodes
import RepoGraph.Proofs.Twin.Builds

/-!
# Builds of several projects

A `History` is what one service builds on one staging area, one build after the other, whatever the
projects.  Between two builds the checkout and the staged files may change, but not the graph, the
points and the service.

The graph and the points are kept for each project; the marker of the last build and the staged
artifacts are not.  So two histories with the same builds of a project leave the same of the project
if each of these builds finds the same where it begins: `Settings.same_of_histories`.  Without that
they need not: a build of another project moves the marker, and the next build by the marker selects
nothing (`Settings.hasNode_after_other`).

Main statements: `Settings.History.atRest`, `Settings.same_of_histories`,
`Settings.hasNode_after_other`.
-/

namespace RepoGraph

open Staging (graphAt)

/-! ### Parts of a world that are the same -/

variable {staging project : String} {w w' w'' : World}

theorem Graph.SameIn.symm {g h : Graph} (hsame : Graph.SameIn project g h) :
    Graph.SameIn project h g :=
  ⟨hsame.1.symm, hsame.2.symm⟩

namespace SameProject

theorem refl (h : Staging.HoldsGraph staging w) : SameProject staging project w w :=
  ⟨rfl, .refl project _, fun _ _ => rfl, h, h⟩

theorem symm (h : SameProject staging project w w') : SameProject staging project w' w :=
  ⟨h.cwd_eq.symm, h.graph.symm, fun v hv => (h.points v hv).symm, h.holds', h.holds⟩

theorem trans (h : SameProject staging project w w') (h' : SameProject staging project w' w'') :
    SameProject staging project w w'' :=
  ⟨h'.cwd_eq.trans h.cwd_eq, h.graph.trans h'.graph,
    fun v hv => (h'.points v hv).trans (h.points v hv), h.holds, h'.holds'⟩

end SameProject

/-- What is confined to one project leaves any other one the same. -/
theorem Confined.sameProject {other : String} (h : Confined staging other w w')
    (hne : project ≠ other)
    (hholds : Staging.HoldsGraph staging w) : SameProject staging project w w' :=
  ⟨h.cwd_eq, h.graph project hne, fun v hv => h.points v (hv ▸ hne), hholds, h.sound.holds⟩

/-- From the end of one build to the beginning of the next one, the graph, the points and the
service stay as they are. -/
structure Staging.Between (staging : String) (w w' : World) : Prop where
  cwd_eq : w'.cwd = w.cwd
  service_eq : w'.service = w.service
  collections_eq : w'.collections = w.collections
  fileAt_eq : w'.disk.fileAt w'.cwd (graphPath staging) = w.disk.fileAt w.cwd (graphPath staging)

namespace Staging.Between

theorem refl (staging : String) (w : World) : Between staging w w := ⟨rfl, rfl, rfl, rfl⟩

theorem graphAt_eq (h : Between staging w w') : graphAt staging w' = graphAt staging w := by
  rw [graphAt, graphAt, h.fileAt_eq]

theorem holdsSound (h : Between staging w w') (hsound : HoldsSound staging w) :
    HoldsSound staging w' :=
  ⟨fun content hcontent => hsound.holds content (h.fileAt_eq ▸ hcontent),
    h.graphAt_eq ▸ hsound.isSound⟩

theorem sameProject (h : Between staging w w') (hsound : HoldsSound staging w) :
    SameProject staging project w w' :=
  ⟨h.cwd_eq, h.graphAt_eq ▸ .refl project _, fun _ _ => by rw [h.collections_eq], hsound.holds,
    (h.holdsSound hsound).holds⟩

end Staging.Between

/-! ### Histories -/

namespace Service

/-- Whether no build is under way and the staging area holds a sound graph, if it holds one. -/
structure IsAtRest (staging : String) (w : World) : Prop where
  idle : w.service.state = .idle
  sound : Staging.HoldsSound staging w

/-- A build that a client asks for: in which surroundings, for what, and in which world. -/
structure Call where
  outside : Outside
  request : Request
  before : World

namespace Call

variable {s : Settings} {c c' : Call}

/-- The world at the end of the build. -/
def after (s : Settings) (c : Call) : World :=
  ((runBuild s s.stages c.request).run c.outside c.before).2

/-- Whether the build is one of a project. -/
def isOf (s : Settings) (project : String) (c : Call) : Bool :=
  match s.complete c.request with
  | .ok accepted => (s.configOf accepted).project == project
  | .error _ => false

/-- Two calls ask for the same build in surroundings that answer alike, and the build finds the same
where it begins to read.  Neither of them is stopped by a fault of the disk. -/
structure Alike (s : Settings) (c c' : Call) : Prop where
  request_eq : c'.request = c.request
  outside : ∃ related, Outside.Alike related c.outside c'.outside ∧
    related c.before.events c'.before.events
  reads : ∀ accepted, s.complete c.request = .ok accepted →
    Stages.ReadsAlike c.outside (s.configOf accepted) c.before c'.before accepted.tasks
  notStopped : ¬ (c.after s).service.StoppedByDisk
  notStopped' : ¬ (c'.after s).service.StoppedByDisk

section AtRest

variable (hbackend : s.graphBackend = "networkx") (hrest : IsAtRest s.stagingPath c.before)
  (hworker : c.outside.refuses c.before.events .worker = none)

include hbackend hrest hworker

/-- A build of a service at rest leaves it at rest. -/
theorem isAtRest_after : IsAtRest s.stagingPath (c.after s) := by
  cases hcomplete : s.complete c.request with
  | error f =>
    rw [after, run_runBuild_of_refused hcomplete]
    exact hrest
  | ok accepted =>
    obtain ⟨hconfined, hidle⟩ :=
      confined_of_runBuild hbackend hcomplete hrest.idle hworker hrest.sound
    exact ⟨hidle, hconfined.sound⟩

/-- A build of one project leaves any other one the same. -/
theorem sameProject_after (hother : c.isOf s project = false) :
    SameProject s.stagingPath project c.before (c.after s) := by
  rw [isOf] at hother
  cases hcomplete : s.complete c.request with
  | error f =>
    rw [after, run_runBuild_of_refused hcomplete]
    exact .refl hrest.sound.holds
  | ok accepted =>
    simp only [hcomplete, beq_eq_false_iff_ne] at hother
    exact (confined_of_runBuild hbackend hcomplete hrest.idle hworker hrest.sound).1.sameProject
      hother.symm hrest.sound.holds

/-- Two calls that are alike leave the same of their project if they begin with the same of it. -/
theorem Alike.sameProject_after (halike : Alike s c c') (hof : c.isOf s project = true)
    (hrest' : IsAtRest s.stagingPath c'.before)
    (hworker' : c'.outside.refuses c'.before.events .worker = none)
    (hsame : SameProject s.stagingPath project c.before c'.before) :
    SameProject s.stagingPath project (c.after s) (c'.after s) := by
  obtain ⟨hrequest, ⟨related, houtside, hpast⟩, hreads, hstopped, hstopped'⟩ := halike
  rw [isOf] at hof
  cases hcomplete : s.complete c.request with
  | error f =>
    rw [hcomplete] at hof
    cases hof
  | ok accepted =>
    simp only [hcomplete, beq_iff_eq] at hof
    subst hof
    rw [after, hrequest] at hstopped'
    rw [after, after, hrequest]
    exact ((same_of_runBuild hbackend hcomplete hrest.idle hworker hrest.sound houtside hrest'.idle
      hworker' hrest'.sound hpast ⟨hsame, hreads accepted hcomplete⟩).resolve_left
        hstopped).resolve_left hstopped'

end AtRest

end Call

end Service

open Service (Call)

/-- What a service builds from one world to another, latest first. -/
inductive Settings.History (s : Settings) (start : World) : List Call → World → Prop
  | start : History s start [] start
  | build {calls w c} : History s start calls w → Staging.Between s.stagingPath w c.before →
      c.outside.refuses c.before.events .worker = none → History s start (c :: calls) (c.after s)

namespace Settings

namespace History

variable {s : Settings} {start w : World} {calls rest : List Call} {c : Call}
  (hbackend : s.graphBackend = "networkx") (hrest : Service.IsAtRest s.stagingPath start)

include hbackend hrest

/-- After each build the service is at rest again. -/
theorem isAtRest (h : s.History start calls w) : Service.IsAtRest s.stagingPath w := by
  induction h with
  | start => exact hrest
  | build _ hbetween hworker ih =>
    exact Call.isAtRest_after hbackend
      ⟨hbetween.service_eq ▸ ih.idle, hbetween.holdsSound ih.sound⟩ hworker

/-- A call is made of a service at rest. -/
theorem isAtRest_before (h : s.History start calls w)
    (hbetween : Staging.Between s.stagingPath w c.before) :
    Service.IsAtRest s.stagingPath c.before :=
  have hw := h.isAtRest hbackend hrest
  ⟨hbetween.service_eq ▸ hw.idle, hbetween.holdsSound hw.sound⟩

/-- A build of another project, and what happens before it, leave a project the same. -/
theorem sameProject_of_other (h : s.History start calls w)
    (hbetween : Staging.Between s.stagingPath w c.before)
    (hworker : c.outside.refuses c.before.events .worker = none)
    (hother : c.isOf s project = false) :
    SameProject s.stagingPath project w (c.after s) :=
  (hbetween.sameProject (h.isAtRest hbackend hrest).sound).trans
    (Call.sameProject_after hbackend (h.isAtRest_before hbackend hrest hbetween) hworker hother)

/-- Builds of other projects leave a project the same. -/
theorem sameProject_of_others (h : s.History start calls w)
    (hothers : calls.filter (Call.isOf s project) = []) :
    SameProject s.stagingPath project start w := by
  induction h with
  | start => exact .refl hrest.sound.holds
  | @build calls w c h hbetween hworker ih =>
    have hother : c.isOf s project = false := by
      simpa using List.filter_eq_nil_iff.1 hothers c List.mem_cons_self
    rw [List.filter_cons_of_neg (by simp [hother])] at hothers
    exact (ih hothers).trans (h.sameProject_of_other hbackend hrest hbetween hworker hother)

/-- The latest build of a project, and the history before it. -/
theorem exists_latest (h : s.History start calls w)
    (hlatest : calls.filter (Call.isOf s project) = c :: rest) :
    ∃ calls' w', s.History start calls' w' ∧ Staging.Between s.stagingPath w' c.before ∧
      c.outside.refuses c.before.events .worker = none ∧
      calls'.filter (Call.isOf s project) = rest ∧
      SameProject s.stagingPath project (c.after s) w := by
  induction h with
  | start => cases hlatest
  | @build calls w last h hbetween hworker ih =>
    by_cases hof : last.isOf s project = true
    · rw [List.filter_cons_of_pos hof] at hlatest
      obtain ⟨rfl, hfilter⟩ := List.cons.inj hlatest
      have hafter := Call.isAtRest_after hbackend
        (h.isAtRest_before hbackend hrest hbetween) hworker
      exact ⟨calls, w, h, hbetween, hworker, hfilter, .refl hafter.sound.holds⟩
    · rw [List.filter_cons_of_neg hof] at hlatest
      obtain ⟨calls', w', h', hbetween', hworker', hfilter, hsame⟩ := ih hlatest
      exact ⟨calls', w', h', hbetween', hworker', hfilter,
        hsame.trans (h.sameProject_of_other hbackend hrest hbetween hworker (by simpa using hof))⟩

end History

/-- Two histories of one service on one staging area leave the same nodes, edges and points of a
project if their builds of it are pairwise alike, whatever other projects are built in between.  The
builds have to find the same checkout, the same marker if they go by it, and the same artifact if
they do not begin with reading: these are kept for the staging area and not for each project. -/
theorem same_of_histories (s : Settings) (project : String) (start w w' : World)
    (calls calls' : List Call) (hbackend : s.graphBackend = "networkx")
    (hidle : start.service.state = .idle) (hsound : Staging.HoldsSound s.stagingPath start)
    (h : s.History start calls w) (h' : s.History start calls' w')
    (halike : List.Forall₂ (Call.Alike s) (calls.filter (Call.isOf s project))
      (calls'.filter (Call.isOf s project))) :
    Graph.SameIn project (graphAt s.stagingPath w) (graphAt s.stagingPath w') ∧
      ∀ v : VectorStore, v.project = project →
        w'.collections.get? v.collection = w.collections.get? v.collection := by
  have hrest : Service.IsAtRest s.stagingPath start := ⟨hidle, hsound⟩
  suffices hsame : SameProject s.stagingPath project w w' from ⟨hsame.graph, hsame.points⟩
  -- the induction is on one history; the other one is cut at its latest build of the project
  induction h generalizing calls' w' with
  | start => exact h'.sameProject_of_others hbackend hrest (List.forall₂_nil_left_iff.1 halike)
  | @build calls w c h hbetween hworker ih =>
    by_cases hof : c.isOf s project = true
    · -- the latest builds of the project are alike, and so are the histories before them
      rw [List.filter_cons_of_pos hof, List.forall₂_cons_left_iff] at halike
      obtain ⟨c', rest', hc, halike, hlatest⟩ := halike
      obtain ⟨earlier, v', hearlier, hbetween', hworker', hfilter, hlater⟩ :=
        h'.exists_latest hbackend hrest hlatest
      have hbefore := ih v' earlier hearlier (hfilter ▸ halike)
      have hsame := (hbetween.sameProject (h.isAtRest hbackend hrest).sound).symm.trans
        (hbefore.trans (hbetween'.sameProject (hearlier.isAtRest hbackend hrest).sound))
      exact (hc.sameProject_after hbackend (h.isAtRest_before hbackend hrest hbetween) hworker hof
        (hearlier.isAtRest_before hbackend hrest hbetween') hworker' hsame).trans hlater
    · rw [List.filter_cons_of_neg hof] at halike
      exact (h.sameProject_of_other hbackend hrest hbetween hworker (by simpa using hof)).symm.trans
        (ih w' calls' h' halike)

/-! ### Two projects on one staging area -/

open Populating (fileSettings functionGone)

/-- Settings for two projects. -/
def sharedSettings : Settings := { fileSettings with projects := ["p", "q"] }

/-- An incremental build of a stage for one of the projects. -/
def requestOf (project stage : String) : Request :=
  { documentRequest stage with project := some project }

/-- The request with what it leaves open filled in. -/
def acceptedOf (project stage : String) : Request :=
  { requestOf project stage with repoUrl := some "", branch := some "main" }

theorem complete_requestOf {project stage : String} (hproject : project ∈ sharedSettings.projects)
    (hstage : stage ∈ Request.stages) :
    sharedSettings.complete (requestOf project stage) = .ok (acceptedOf project stage) := by
  simp only [sharedSettings, Request.stages, List.mem_cons, List.not_mem_nil, or_false]
    at hproject hstage
  rcases hproject with rfl | rfl <;> rcases hstage with rfl | rfl | rfl | rfl <;> rfl

/-- A build in a world in which version control tells of one revision. -/
def buildCall (project stage : String) (before : World) : Call :=
  ⟨tracking, requestOf project stage, before⟩

theorem alike_tracking : Outside.Alike (fun _ _ => True) tracking tracking where
  both _ _ _ := id
  left _ _ _ := id
  right _ _ _ := id
  refuses _ _ _ _ := rfl
  writes _ _ := rfl
  writes' _ _ := rfl
  clock _ _ _ := rfl
  git _ _ _ _ _ := rfl
  embed _ _ _ _ := rfl
  chat _ _ _ _ := rfl

/-- A staging area with the second stage's output of the file `b`, and no graph. -/
def handedWorld : World :=
  World.ofDisk (Disk.empty.provide [] "s/enrich/output.json" (.text functionGone)) []

/-- The world after the output was filled in for the other project. -/
def otherWorld : World := (buildCall "p" "populate" handedWorld).after sharedSettings

/-- Whether a text can be read in a world. -/
def readsText (w : World) (path text : String) : Bool :=
  match w.disk.read w.cwd path with
  | .ok (.text found) => found == text
  | _ => false

theorem read_of_readsText {w : World} {path text : String} (h : readsText w path text = true) :
    w.disk.read w.cwd path = .ok (.text text) := by
  rw [readsText] at h
  split at h
  · rename_i hread
    rw [hread, beq_iff_eq.1 h]
  · cases h

theorem notStopped_of_error {c : Call}
    (h : (c.after sharedSettings).service.lastRun.bind RunSummary.error = none) :
    ¬ (c.after sharedSettings).service.StoppedByDisk := by
  rintro ⟨run, fault, hrun, herror⟩
  rw [hrun] at h
  cases herror.symm.trans h

theorem same_of_histories_handedWorld :
    sharedSettings.History handedWorld [buildCall "q" "populate" handedWorld]
        ((buildCall "q" "populate" handedWorld).after sharedSettings) ∧
      sharedSettings.History handedWorld
        [buildCall "q" "populate" otherWorld, buildCall "p" "populate" handedWorld]
        ((buildCall "q" "populate" otherWorld).after sharedSettings) ∧
      (graphAt "s" otherWorld).hasNode ⟨"p", "file:b"⟩ = true ∧
      (graphAt "s" ((buildCall "q" "populate" handedWorld).after sharedSettings)).hasNode
        ⟨"q", "file:b"⟩ = true ∧
      Graph.SameIn "q" (graphAt "s" ((buildCall "q" "populate" handedWorld).after sharedSettings))
        (graphAt "s" ((buildCall "q" "populate" otherWorld).after sharedSettings)) := by
  have h : sharedSettings.History handedWorld [buildCall "q" "populate" handedWorld]
      ((buildCall "q" "populate" handedWorld).after sharedSettings) :=
    .build .start (.refl "s" handedWorld) rfl
  have h' : sharedSettings.History handedWorld
      [buildCall "q" "populate" otherWorld, buildCall "p" "populate" handedWorld]
      ((buildCall "q" "populate" otherWorld).after sharedSettings) :=
    .build (.build .start (.refl "s" handedWorld) rfl) (.refl "s" otherWorld) rfl
  -- what the builds find and leave is computed
  obtain ⟨hfile, hread, hread', hended, hended', hother, hnode⟩ :
      (handedWorld.disk.fileAt handedWorld.cwd (Staging.graphPath "s")).isNone = true ∧
        readsText handedWorld (Staging.artifactPath "s" Enriching.stage) functionGone = true ∧
        readsText otherWorld (Staging.artifactPath "s" Enriching.stage) functionGone = true ∧
        ((buildCall "q" "populate" handedWorld).after sharedSettings).service.lastRun.bind
          RunSummary.error = none ∧
        ((buildCall "q" "populate" otherWorld).after sharedSettings).service.lastRun.bind
          RunSummary.error = none ∧
        (graphAt "s" otherWorld).hasNode ⟨"p", "file:b"⟩ = true ∧
        (graphAt "s" ((buildCall "q" "populate" handedWorld).after sharedSettings)).hasNode
          ⟨"q", "file:b"⟩ = true := by decide +kernel
  -- the last builds of the two histories hear the same and read the same output
  have hcalls : Call.Alike sharedSettings (buildCall "q" "populate" handedWorld)
      (buildCall "q" "populate" otherWorld) := by
    refine ⟨rfl, ⟨_, alike_tracking, trivial⟩, fun accepted haccepted => ?_,
      notStopped_of_error hended, notStopped_of_error hended'⟩
    have hcomplete : sharedSettings.complete (requestOf "q" "populate") =
        .ok (acceptedOf "q" "populate") :=
      complete_requestOf (by decide) (by decide)
    obtain rfl := Except.ok.inj (hcomplete.symm.trans haccepted)
    exact (read_of_readsText hread').trans (read_of_readsText hread).symm
  rw [Option.isNone_iff_eq_none] at hfile
  have hsound : Staging.HoldsSound "s" handedWorld := by
    refine ⟨fun content hcontent => ?_, ?_⟩
    · cases hfile.symm.trans hcontent
    · rw [graphAt, hfile]
      exact Graph.isSound_empty
  refine ⟨h, h', hother, hnode, ?_⟩
  exact (same_of_histories sharedSettings "q" handedWorld _ _ _ _ rfl rfl hsound h h'
    (.cons hcalls .nil)).1

/-! ### A marker of another project -/

/-- The document, with nothing built yet. -/
def unbuiltWorld : World := documentWorld plainText .empty

/-- The document after the other project was read. -/
def readWorld : World := (buildCall "q" "parse" unbuiltWorld).after sharedSettings

variable {st : Standing} {sel : Selection} {before : World} {marker : Option String}
  {stage : String}

/-- What a build of the document sees. -/
theorem sees_shared {ds : List Source.Difference}
    (hcheckout : Source.checkout before.disk before.cwd sharedSettings.repoPath =
      documentTree plainText)
    (htells : Revision.Tells tracking fileSettings.repoPath "r1" marker ds)
    (hdiff : Source.IsDiff (Source.treeOf (fun _ => documentTree plainText) marker)
      (documentTree plainText) ds) (project : String) :
    sharedSettings.Sees tracking (sharedSettings.configOf (acceptedOf project stage))
      (fun _ => documentTree plainText) marker "r1"
      ⟨documentTree plainText, (Source.targets ds).filter Source.isIncluded, Source.removed ds⟩
      before.disk before.cwd :=
  have h : fileSettings.Sees tracking (fileSettings.configOf (documentRequest stage)) _ _ _ _ _ _ :=
    sees_tracking hcheckout htells hdiff
  ⟨h.readable, h.marker_readable, h.present_ne, h.isPresent, h.checkout_eq, h.full, h.incremental,
    h.found, h.plain⟩

/-- A build that begins with reading does so in a course of the first project, whichever project it
is of. -/
theorem exists_course_read {project : String} {rest : List Task}
    (hproject : project ∈ sharedSettings.projects) (hstage : stage ∈ Request.stages)
    (htasks : (acceptedOf project stage).tasks = .parse :: rest)
    (hcourse : sharedSettings.Course "p" (fun _ => documentTree plainText) st before)
    (hidle : before.service.state = .idle) (hready : sharedSettings.IsReady project before)
    (hsees : sharedSettings.Sees tracking (sharedSettings.configOf (acceptedOf project stage))
      (fun _ => documentTree plainText) st.marker "r1" sel before.disk before.cwd)
    (hshort : ∀ stamp revision, (ParseOutput.toJson (Reading.outputOf
      (sharedSettings.configOf (acceptedOf project stage)) stamp revision (documentTree plainText)
      (sel.paths, sel.gone))).isShort = true) :
    ∃ worker v, sharedSettings.Course "p" (fun _ => documentTree plainText) (st.read "r1" sel) v ∧
      Disk.SameDirectories before.disk v.disk ∧
      sharedSettings.HasFound (sharedSettings.configOf (acceptedOf project stage))
        (documentTree plainText) sel.paths sel.gone v ∧
      HasLeft worker (acceptedOf project stage) rest v ∧
      (buildCall project stage before).after sharedSettings = ((Service.steps sharedSettings
        sharedSettings.stages worker (rest.length + 1)).run tracking v).2 := by
  obtain ⟨now, hafter⟩ : ∃ now, (buildCall project stage before).after sharedSettings = _ :=
    Service.run_runBuild (complete_requestOf hproject hstage) hidle rfl
  have hcourse := hcourse.elsewhere
    (Service.stays_begun "s" (acceptedOf project stage) now before)
  have hready : sharedSettings.IsReady ((acceptedOf project stage).project.getD "")
      (Service.begun (acceptedOf project stage) now before) :=
    ⟨hready.room, hready.graph, hready.size⟩
  have hcheckout : Source.checkout before.disk before.cwd sharedSettings.repoPath =
      documentTree plainText := hsees.checkout_eq
  obtain ⟨parsed, hparse, hsame, hfound, hleft⟩ :=
    exists_takes_parse isCalm_tracking hasGit_tracking
    ⟨_, Service.job?_begun (acceptedOf project stage) now before, rfl, rfl, htasks⟩ hready
    (fun w' hw' => (hcourse.stands rfl).staged.succeeds_select hsees hw' isCalm_tracking
      hasGit_tracking) hsees.mem_filesBelow (hcheckout.symm ▸ hshort)
  refine ⟨_, _, hcourse.parse hsees hparse, hsame, hcheckout ▸ hfound, hleft, ?_⟩
  rw [hafter, htasks, List.length_cons, Service.run_steps_succ]
  rfl

/-- A build of all stages of the first project takes its course to where it fills the stores. -/
theorem exists_course_filled
    (hcourse : sharedSettings.Course "p" (fun _ => documentTree plainText) st before)
    (hidle : before.service.state = .idle) (hready : sharedSettings.IsReady "p" before)
    (hsees : sharedSettings.Sees tracking (sharedSettings.configOf (acceptedOf "p" "all"))
      (fun _ => documentTree plainText) st.marker "r1" sel before.disk before.cwd)
    (hshort : IsShort (sharedSettings.configOf (acceptedOf "p" "all")) (documentTree plainText)
      sel.paths sel.gone (sharedSettings.saidBy tracking)) :
    ∃ v v' populated, sharedSettings.Course "p" (fun _ => documentTree plainText)
        (st.read "r1" sel).enrich v ∧
      sharedSettings.Takes tracking (acceptedOf "p" "all") .populate (.ok populated) v v' ∧
      Staging.Stays "s" v' ((buildCall "p" "all" before).after sharedSettings) := by
  have htasks : (acceptedOf "p" "all").tasks = [.parse, .enrich, .populate] := rfl
  obtain ⟨worker, v, hcourse, -, hfound, hleft, hafter⟩ :=
    exists_course_read (by decide) (by decide)
    htasks hcourse hidle hready hsees hshort.parsed
  obtain ⟨enriched, henrich, hsaid, hleft⟩ := exists_takes_enrich isCalm_tracking (.inl rfl)
    (enriches_of_isSteady sharedSettings isSteady_tracking) hleft hfound hshort
  obtain ⟨populated, hpopulate, hleft⟩ := exists_takes_populate isCalm_tracking rfl hleft hsaid
  refine ⟨_, _, populated, hcourse.enrich henrich, hpopulate, ?_⟩
  obtain ⟨service, events, hend⟩ : ∃ service events, sharedSettings.stepped tracking worker _ = _ :=
    Service.exists_stepped_of_hasLeft_nil hleft
  rw [stepped] at hend
  rw [hafter]
  simp only [List.length_cons, List.length_nil, Service.run_steps_succ]
  exact hend ▸ Staging.stays_serviced "s" _ service events

/-- Whether the checkout is a directory with the document and nothing else. -/
def holdsDocument (d : Disk) : Bool :=
  match d.below ["repo"], d.get? ["repo", "a.md"] with
  | [(["a.md"], .file (.text listed))], some (.file (.text text)) =>
    listed == plainText && text == plainText
  | _, _ => false

theorem checkout_of_holdsDocument {d : Disk} (hsame : Disk.SameDirectories emptyDisk d)
    (h : holdsDocument d = true) : Source.checkout d [] "repo" = documentTree plainText := by
  rw [holdsDocument] at h
  split at h
  · rename_i hbelow hget
    simp only [Bool.and_eq_true, beq_iff_eq] at h
    obtain ⟨rfl, rfl⟩ := h
    exact checkout_of_below hsame hbelow hget
  · cases h

theorem course_unbuiltWorld :
    sharedSettings.Course "p" (fun _ => documentTree plainText) .initial unbuiltWorld :=
  have h : Staging.IsFresh "s" "p" { unbuiltWorld with service := .initial } :=
    isFresh_documentWorld
  .fresh h

theorem isReady_unbuiltWorld (project : String) : sharedSettings.IsReady project unbuiltWorld :=
  ⟨isReady_documentWorld.room, isReady_documentWorld.graph, rfl⟩

/-- The first build sees the document. -/
theorem sees_unbuiltWorld {project stage : String} :
    sharedSettings.Sees tracking (sharedSettings.configOf (acceptedOf project stage))
      (fun _ => documentTree plainText) none "r1" ⟨documentTree plainText, ["a.md"], []⟩
      unbuiltWorld.disk unbuiltWorld.cwd :=
  sees_shared checkout_documentWorld tells_tracking_files isDiff_document project

/-- What builds stage of the document is short. -/
theorem isShort_document (stage : String) :
    IsShort (sharedSettings.configOf (acceptedOf "p" stage)) (documentTree plainText) ["a.md"] []
      (sharedSettings.saidBy tracking) := isShort_documentTree findingsAt_plain rfl rfl rfl rfl

/-- What the builds stand at when the document was read. -/
def readStanding : Standing := Standing.initial.read "r1" ⟨documentTree plainText, ["a.md"], []⟩

/-- After the other project was read, its revision is kept, and the checkout is as it was. -/
theorem stands_readWorld :
    sharedSettings.Course "p" (fun _ => documentTree plainText) readStanding readWorld ∧
      sharedSettings.IsReady "p" readWorld ∧ readWorld.service.state = .idle ∧
      Source.checkout readWorld.disk readWorld.cwd "repo" = documentTree plainText := by
  obtain ⟨hdocument, hcwd, hidle, hsize⟩ : holdsDocument readWorld.disk = true ∧
      readWorld.cwd = [] ∧ readWorld.service.state = .idle ∧
      ((sharedSettings.vectorStore "p").prior readWorld).size = sharedSettings.vectorSize := by
    decide +kernel
  have htasks : (acceptedOf "q" "parse").tasks = [.parse] := rfl
  obtain ⟨worker, v, hcourse, hsame, hfound, hleft, hafter⟩ :=
    exists_course_read (by decide) (by decide)
    htasks course_unbuiltWorld rfl (isReady_unbuiltWorld "q") sees_unbuiltWorld
    (isShort_document "parse").parsed
  obtain ⟨service, events, hend⟩ : ∃ service events, sharedSettings.stepped tracking worker _ = _ :=
    Service.exists_stepped_of_hasLeft_nil hleft
  have hread : readWorld = { v with service, events } := by
    rw [readWorld, hafter, List.length_nil, Service.run_steps_succ]
    exact hend
  have hdirectories : Disk.SameDirectories emptyDisk readWorld.disk := by
    rw [hread]
    exact sameDirectories_documentWorld.trans hsame
  refine ⟨hread ▸ hcourse.elsewhere (Staging.stays_serviced "s" v service events), ?_, hidle, ?_⟩
  · exact ⟨hread ▸ hfound.ready.room, hread ▸ hfound.ready.graph, hsize⟩
  · rw [hcwd]
    exact checkout_of_holdsDocument hdirectories hdocument

/-- Without the build of the other project the first build reads the document. -/
theorem hasNode_after_first :
    (graphAt "s" ((buildCall "p" "all" unbuiltWorld).after sharedSettings)).hasNode
      ⟨"p", (documentOf plainText).id⟩ = true := by
  obtain ⟨v, v', populated, hcourse, hpopulate, hstays⟩ :=
    exists_course_filled course_unbuiltWorld rfl (isReady_unbuiltWorld "p") sees_unbuiltWorld
      (isShort_document "all")
  have hheld : (readStanding.enrich.fill Request.incremental).held =
      (· = documentTree plainText) := by
    have henriched : readStanding.enrich.enriched =
        some ⟨documentTree plainText, ["a.md"], []⟩ := rfl
    refine Standing.held_fill_of_catchesUp henriched ⟨?_, .inl rfl⟩
    rintro _ rfl
    exact isDiff_document.covers
  have hnodes : Populating.Among "p" Handover.NamesFile _ (graphAt "s" v') :=
    hheld ▸ ((hcourse.populate rfl hpopulate).stands rfl).nodes
  rw [hstays.graphAt_eq]
  refine (hnodes.mirrors_self.hasNode_iff _).2 ⟨"a.md", documentOf plainText, ?_, rfl⟩
  have hincluded : Source.isIncluded "a.md" = true := rfl
  rw [Source.entitiesAt, if_pos hincluded, findingsAt_plain]
  exact List.mem_singleton_self _

/-- Behind the marker of the other project there is nothing to read. -/
theorem not_hasNode_behind_marker :
    (graphAt "s" ((buildCall "p" "all" readWorld).after sharedSettings)).hasNode
      ⟨"p", (documentOf plainText).id⟩ = false := by
  obtain ⟨hcourse, hready, hidle, hcheckout⟩ := stands_readWorld
  have hsees : sharedSettings.Sees tracking (sharedSettings.configOf (acceptedOf "p" "all"))
      (fun _ => documentTree plainText) (some "r1") "r1" ⟨documentTree plainText, [], []⟩
      readWorld.disk readWorld.cwd :=
    sees_shared hcheckout tells_tracking_nothing (Source.isDiff_nil _) "p"
  have hshort : IsShort (fileSettings.configOf (documentRequest "all"))
      (documentTree plainText) [] [] (sharedSettings.saidBy tracking) := isShort_nothing
  obtain ⟨v, v', populated, hcourse, hpopulate, hstays⟩ :=
    exists_course_filled hcourse hidle hready hsees hshort
  rw [hstays.graphAt_eq]
  refine Bool.eq_false_iff.2 fun hnode => ?_
  rcases hcourse.of_hasNode rfl rfl rfl hpopulate hnode with hnode | ⟨path, hpath, -⟩
  · rw [← Graph.isSome_nodeFacts] at hnode
    obtain ⟨node, hnode⟩ := Option.isSome_iff_exists.1 hnode
    obtain ⟨_, rfl, path, e, he, -⟩ := (hcourse.stands rfl).nodes.of_node _ _ hnode
    exact (Source.of_mem_entitiesAt he.mem).2.1 rfl
  · cases hpath

/-- A build of another project that only reads the document keeps its revision for all projects of
the staging area.  The next build of all stages goes by it and selects nothing, and the document has
no node; without the build of the other project it has one. -/
theorem hasNode_after_other :
    sharedSettings.History unbuiltWorld [buildCall "p" "all" unbuiltWorld]
        ((buildCall "p" "all" unbuiltWorld).after sharedSettings) ∧
      sharedSettings.History unbuiltWorld
        [buildCall "p" "all" readWorld, buildCall "q" "parse" unbuiltWorld]
        ((buildCall "p" "all" readWorld).after sharedSettings) ∧
      (buildCall "q" "parse" unbuiltWorld).isOf sharedSettings "p" = false ∧
      Source.checkout readWorld.disk readWorld.cwd "repo" =
        Source.checkout unbuiltWorld.disk unbuiltWorld.cwd "repo" ∧
      (graphAt "s" ((buildCall "p" "all" unbuiltWorld).after sharedSettings)).hasNode
        ⟨"p", (documentOf plainText).id⟩ = true ∧
      (graphAt "s" ((buildCall "p" "all" readWorld).after sharedSettings)).hasNode
        ⟨"p", (documentOf plainText).id⟩ = false := by
  have hfirst {c : Call} (hbefore : c.before = unbuiltWorld) (hc : c.outside = tracking) :
      sharedSettings.History unbuiltWorld [c] (c.after sharedSettings) :=
    .build .start (hbefore ▸ .refl "s" unbuiltWorld) (hc ▸ rfl)
  have hsecond := History.build (hfirst (c := buildCall "q" "parse" unbuiltWorld) rfl rfl)
    (c := buildCall "p" "all" readWorld) (.refl "s" readWorld) rfl
  exact ⟨hfirst rfl rfl, hsecond, rfl, stands_readWorld.2.2.2.trans checkout_documentWorld.symm,
    hasNode_after_first, not_hasNode_behind_marker⟩

end Settings

end RepoGraph
