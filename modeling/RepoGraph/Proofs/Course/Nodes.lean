import RepoGraph.Proofs.Course.Standing
import RepoGraph.Proofs.Course.Steps

/-!
# The nodes after any course of builds

The service has the tasks of builds done step by step.  A `Course` is any sequence of such steps on
one staging area, from empty stores on: revisions advance in between, a build may ask for any
stages, and enriching and filling the stores may fail anywhere.  Whatever the course, the nodes of
the project are among those of the trees that were brought into the graph and are not caught up
with.

Reading keeps the revision whether or not the later stages are done.  So a build that goes on from
the kept revision sees only what has changed since then, and it leads to the nodes of its own
revision exactly as far as nothing else is still to come: as far as every file in which the revision
differs from what the graph may hold was changed since the kept revision.

Main statements: `Settings.Course.stands`, `Settings.hasNode_iff_of_course`,
`Settings.not_hasNode_of_course`.
-/

namespace RepoGraph

open Source (Tree HasPlainNames IsLast entitiesAt)
open Populating (Among Carries Mirrors)
open Handover (NamesFile)
open Staging (graphAt)

/-! ### Selections -/

namespace Selection

/-- Whether something was found in all files that were selected, and files that are gone are not
there unless they were selected, too. -/
structure IsSound (sel : Selection) : Prop where
  plain : HasPlainNames sel.tree
  included : ∀ path ∈ sel.paths, Source.isIncluded path = true
  of_gone : ∀ path ∈ sel.gone, Source.isIncluded path = true →
    sel.tree path = none ∨ path ∈ sel.paths
  found : ∀ path ∈ sel.paths, Source.findingsAt sel.tree path ≠ none

variable {sel : Selection} {config : BuildConfig} {trees : Tree → Prop} {g h : Graph}

/-- Filling the stores to the end leaves the nodes of the tree if it catches up with it, and
otherwise nodes of the tree and of those before. -/
theorem Renews.among (hrenews : sel.Renews config g h) (hsel : sel.IsSound)
    (hplain : ∀ t, trees t → HasPlainNames t) (hg : Among config.project NamesFile trees g) :
    Among config.project NamesFile
      (fun t => t = sel.tree ∨ trees t ∧ ¬ sel.CatchesUp config.mode trees) h := by
  obtain ⟨given, held, merged, removed, hheld, hm, hsweep⟩ := hrenews
  have hparsed := Handover.parsed_eq hsel.found
  by_cases hcatches : sel.CatchesUp config.mode trees
  · have hcarries : Carries config.project NamesFile sel.tree _ sel.gone held :=
      Handover.carries_path hsel.plain hsel.included hheld
    rw [hparsed] at hcarries
    exact (hg.mirrors hplain hsel.plain (fun _ _ h => h) hcatches.1 hsel.of_gone hcarries hcatches.2
      hm hsweep).among.mono fun t ht => .inl ht
  · have hg' : Among config.project NamesFile (fun t => t = sel.tree ∨ trees t) g :=
      hg.mono fun t ht => .inr ht
    refine (hg'.swept (fun t ht => ht.elim (fun he => he ▸ hsel.plain) (hplain t)) (.inl rfl)
      hsel.included (hparsed.symm ▸ hsel.of_gone) hheld hm hsweep).mono fun t ht => ?_
    exact ht.imp_right fun ht => ⟨ht, hcatches⟩

/-- Wherever filling the stores stops, it leaves nodes of the tree and of those before. -/
theorem Reaches.among (hreaches : sel.Reaches config g h) (hsel : sel.IsSound)
    (hplain : ∀ t, trees t → HasPlainNames t) (hg : Among config.project NamesFile trees g) :
    Among config.project NamesFile (fun t => t = sel.tree ∨ trees t) h := by
  obtain ⟨given, held, v, outside, c, d, hheld, hreaches⟩ := hreaches
  have hg' : Among config.project NamesFile (fun t => t = sel.tree ∨ trees t) g :=
    hg.mono fun t ht => .inr ht
  exact hg'.of_reaches (fun t ht => ht.elim (fun he => he ▸ hsel.plain) (hplain t)) (.inl rfl)
    hsel.included ((Handover.parsed_eq hsel.found).symm ▸ hsel.of_gone) hheld hreaches

end Selection

/-- What a build selects that sees what it should is sound. -/
theorem Settings.Sees.isSound {s : Settings} {outside : Outside} {config : BuildConfig}
    {revisions : String → Tree} {marker : Option String} {present : String} {sel : Selection}
    {disk : Disk} {cwd : Place}
    (h : s.Sees outside config revisions marker present sel disk cwd) : sel.IsSound := by
  have htree : sel.tree = revisions present := h.tree_eq
  refine ⟨htree ▸ h.plain, fun path hpath => ?_, fun path hpath hincluded => ?_, htree ▸ h.found⟩
  · by_cases hmode : config.mode = Request.full
    · rw [h.full hmode] at hpath
      exact (Source.mem_discover.1 hpath).2
    · obtain ⟨base, ds, -, -, hdiff, hsel⟩ := h.incremental hmode
      rw [hsel] at hpath
      exact hdiff.covers.included path hpath
  · by_cases hmode : config.mode = Request.full
    · rw [h.full hmode] at hpath
      cases hpath
    · obtain ⟨base, ds, -, -, hdiff, hsel⟩ := h.incremental hmode
      rw [hsel] at hpath ⊢
      exact hdiff.covers.of_gone path hpath hincluded

/-! ### Standings -/

/-- Whether the staging area and the graph are at a standing. -/
structure Stands (staging project : String) (st : Standing) (w : World) : Prop where
  staged : Staged staging st w
  nodes : Among project NamesFile st.held (graphAt staging w)
  plain : ∀ t, st.held t → HasPlainNames t
  parsed : ∀ sel, st.parsed = some sel → sel.IsSound
  enriched : ∀ sel, st.enriched = some sel → sel.IsSound

namespace Standing

variable {st : Standing} {sel : Selection}

theorem fill_eq (h : st.enriched = some sel) (mode : String) : st.fill mode =
    { st with held := fun t => t = sel.tree ∨ st.held t ∧ ¬ sel.CatchesUp mode st.held } := by
  rw [fill, h]

theorem fillPartly_eq (h : st.enriched = some sel) :
    st.fillPartly = { st with held := fun t => t = sel.tree ∨ st.held t } := by
  rw [fillPartly, h]

/-- Filling the stores to the end, the graph is caught up with the tree. -/
theorem held_fill_of_catchesUp {mode : String} (h : st.enriched = some sel)
    (hcatches : sel.CatchesUp mode st.held) : (st.fill mode).held = (· = sel.tree) := by
  rw [fill_eq h]
  funext t
  simp only [hcatches, not_true_eq_false, and_false, or_false]

end Standing

namespace Stands

variable {staging project : String} {st : Standing} {w w' : World} {sel : Selection}

/-- A task that leaves the graph alone. -/
theorem of_graphAt_eq {st' : Standing} (h : Stands staging project st w)
    (hstaged : Staged staging st' w') (hgraph : graphAt staging w' = graphAt staging w)
    (hheld : st'.held = st.held) (hparsed : ∀ sel, st'.parsed = some sel → sel.IsSound)
    (henriched : ∀ sel, st'.enriched = some sel → sel.IsSound) : Stands staging project st' w' where
  staged := hstaged
  nodes := by
    rw [hgraph, hheld]
    exact h.nodes
  plain := hheld ▸ h.plain
  parsed := hparsed
  enriched := henriched

/-- A task that brings what was enriched into the graph. -/
theorem of_among {trees : Tree → Prop} (h : Stands staging project st w)
    (henriched : st.enriched = some sel) (hstaged : Staged staging st w')
    (htrees : ∀ t, trees t → t = sel.tree ∨ st.held t)
    (hnodes : Among project NamesFile trees (graphAt staging w')) :
    Stands staging project { st with held := trees } w' where
  staged := ⟨hstaged.marked, hstaged.parsed, hstaged.enriched⟩
  nodes := hnodes
  plain t ht := (htrees t ht).elim (fun he => he ▸ (h.enriched sel henriched).plain) (h.plain t)
  parsed := h.parsed
  enriched := h.enriched

theorem stays (h : Stands staging project st w) (hstays : Staging.Stays staging w w') :
    Stands staging project st w' := by
  have hfile {path : String} := hstays.fileAt_eq path
  exact h.of_graphAt_eq ⟨h.staged.marked.same (hfile (by simp)) hstays.reached,
    h.staged.parsed.same (hfile (by simp)), h.staged.enriched.same (hfile (by simp))⟩
    hstays.graphAt_eq rfl h.parsed h.enriched

end Stands

/-! ### Courses -/

namespace Staging

/-- Whether nothing is staged and the graph has no nodes of a project. -/
structure IsFresh (staging project : String) (w : World) : Prop where
  marker : w.disk.fileAt w.cwd (markerPath staging) = none
  parsed : w.disk.fileAt w.cwd (artifactPath staging Reading.stage) = none
  enriched : w.disk.fileAt w.cwd (artifactPath staging Enriching.stage) = none
  graph : ∀ id, (graphAt staging w).nodeFacts ⟨project, id⟩ = none

end Staging

/-- The courses that the builds of a project may take on a staging area, with what they stand at. -/
inductive Settings.Course (s : Settings) (project : String) (revisions : String → Tree) :
    Standing → World → Prop
  | fresh {w} : Staging.IsFresh s.stagingPath project w → Course s project revisions .initial w
  /-- A revision advances, a build begins or ends, or anything else happens elsewhere. -/
  | elsewhere {st w w'} : Course s project revisions st w → Staging.Stays s.stagingPath w w' →
      Course s project revisions st w'
  | sync {st w w' outside r outcome} : Course s project revisions st w →
      s.Takes outside r .sync outcome w w' → Course s project revisions st w'
  | parse {st w w' outside r present sel summary} : Course s project revisions st w →
      s.Sees outside (s.configOf r) revisions st.marker present sel w.disk w.cwd →
      s.Takes outside r .parse (.ok summary) w w' →
        Course s project revisions (st.read present sel) w'
  | enrich {st w w' outside r summary} : Course s project revisions st w →
      s.Takes outside r .enrich (.ok summary) w w' → Course s project revisions st.enrich w'
  | enrichFails {st w w' outside r f} : Course s project revisions st w →
      s.Takes outside r .enrich (.error f) w w' → Course s project revisions st w'
  | populate {st w w' outside r summary} : Course s project revisions st w →
      r.project = some project → s.Takes outside r .populate (.ok summary) w w' →
      Course s project revisions (st.fill (s.configOf r).mode) w'
  | populateFails {st w w' outside r f} : Course s project revisions st w →
      r.project = some project → s.Takes outside r .populate (.error f) w w' →
      Course s project revisions st.fillPartly w'

section Courses

variable {s : Settings} {project present : String} {revisions : String → Tree} {st : Standing}
  {w w' : World} {outside : Outside} {r : Request} {sel : Selection} {summary : Option StageSummary}
  {f : Failure}

theorem Staging.IsFresh.stands {staging : String} (h : IsFresh staging project w) :
    Stands staging project .initial w where
  staged := ⟨h.marker, h.parsed, h.enriched⟩
  nodes :=
    { of_node := fun id node hnode => by
        rw [h.graph] at hnode
        cases hnode
      node_of := fun path id hid => by
        obtain ⟨e, he⟩ := hid _ rfl
        exact absurd rfl (Source.of_mem_entitiesAt he.mem).2.1 }
  plain := by
    rintro t rfl path e he
    exact absurd rfl (Source.of_mem_entitiesAt he).2.1
  parsed := fun _ h => nomatch h
  enriched := fun _ h => nomatch h

theorem Stands.sync {outcome : Except Failure (Option StageSummary)}
    (h : Stands s.stagingPath project st w) (htakes : s.Takes outside r .sync outcome w w') :
    Stands s.stagingPath project st w' := by
  cases outcome with
  | ok summary =>
    obtain ⟨w₁, ⟨hstaged, hgraph⟩, hstays⟩ := htakes.of_wp_ok h.staged.wp_sync
    exact (h.of_graphAt_eq hstaged hgraph rfl h.parsed h.enriched).stays (hstays _)
  | error f =>
    obtain ⟨w₁, ⟨hstaged, hgraph⟩, hstays⟩ := htakes.of_wp_error h.staged.wp_sync
    exact (h.of_graphAt_eq hstaged hgraph rfl h.parsed h.enriched).stays (hstays _)

theorem Stands.parse (h : Stands s.stagingPath project st w)
    (hsees : s.Sees outside (s.configOf r) revisions st.marker present sel w.disk w.cwd)
    (htakes : s.Takes outside r .parse (.ok summary) w w') :
    Stands s.stagingPath project (st.read present sel) w' := by
  obtain ⟨w₁, ⟨hstaged, hgraph⟩, hstays⟩ := htakes.of_wp_ok (h.staged.wp_parse hsees)
  refine (h.of_graphAt_eq hstaged hgraph rfl (fun sel' hsel' => ?_) h.enriched).stays (hstays _)
  obtain rfl : sel = sel' := Option.some.inj hsel'
  exact hsees.isSound

theorem Stands.enrich (h : Stands s.stagingPath project st w)
    (htakes : s.Takes outside r .enrich (.ok summary) w w') :
    Stands s.stagingPath project st.enrich w' := by
  obtain ⟨w₁, ⟨hstaged, hgraph⟩, hstays⟩ := htakes.of_wp_ok h.staged.wp_enrich
  exact (h.of_graphAt_eq hstaged hgraph rfl h.parsed h.parsed).stays (hstays _)

theorem Stands.enrichFails (h : Stands s.stagingPath project st w)
    (htakes : s.Takes outside r .enrich (.error f) w w') : Stands s.stagingPath project st w' := by
  obtain ⟨w₁, ⟨hstaged, hgraph⟩, hstays⟩ := htakes.of_wp_error h.staged.wp_enrich
  exact (h.of_graphAt_eq hstaged hgraph rfl h.parsed h.enriched).stays (hstays _)

theorem Stands.populate (hbackend : s.graphBackend = "networkx")
    (h : Stands s.stagingPath project st w) (hproject : (s.configOf r).project = project)
    (htakes : s.Takes outside r .populate (.ok summary) w w') :
    Stands s.stagingPath project (st.fill (s.configOf r).mode) w' := by
  obtain ⟨w₁, ⟨hstaged, sel, henriched, hrenews⟩, hstays⟩ :=
    htakes.of_wp_ok (h.staged.wp_populate hbackend)
  have hfill := Standing.fill_eq henriched (s.configOf r).mode
  have hnodes := hrenews.among (h.enriched sel henriched) h.plain (hproject ▸ h.nodes)
  rw [hproject] at hnodes
  rw [hfill]
  exact (h.of_among henriched hstaged (fun t ht => Or.imp_right And.left ht) hnodes).stays
    (hstays _)

theorem Stands.populateFails (hbackend : s.graphBackend = "networkx")
    (h : Stands s.stagingPath project st w) (hproject : (s.configOf r).project = project)
    (htakes : s.Takes outside r .populate (.error f) w w') :
    Stands s.stagingPath project st.fillPartly w' := by
  obtain ⟨w₁, ⟨hstaged, hgraph⟩, hstays⟩ := htakes.of_wp_error (h.staged.wp_populate hbackend)
  cases henriched : st.enriched with
  | none =>
    rw [Standing.fillPartly, henriched]
    have hsame := hgraph.resolve_right fun ⟨sel, hsel, _⟩ => nomatch henriched.symm.trans hsel
    exact (h.of_graphAt_eq hstaged hsame rfl h.parsed h.enriched).stays (hstays _)
  | some sel =>
    have hnodes : Among project NamesFile (fun t => t = sel.tree ∨ st.held t)
        (graphAt s.stagingPath w₁) := by
      rcases hgraph with hsame | ⟨sel', hsel', hreaches⟩
      · rw [hsame]
        exact h.nodes.mono fun t ht => .inr ht
      · obtain rfl : sel = sel' := Option.some.inj (henriched.symm.trans hsel')
        have hreached := hreaches.among (h.enriched sel henriched) h.plain (hproject ▸ h.nodes)
        rwa [hproject] at hreached
    rw [Standing.fillPartly_eq henriched]
    exact (h.of_among henriched hstaged (fun _ ht => ht) hnodes).stays (hstays _)

theorem Settings.project_configOf (hproject : r.project = some project) :
    (s.configOf r).project = project := by
  rw [configOf, hproject]
  rfl

/-- Whatever the course, the staging area and the graph are at its standing. -/
theorem Settings.Course.stands (hbackend : s.graphBackend = "networkx")
    (h : s.Course project revisions st w) : Stands s.stagingPath project st w := by
  induction h with
  | fresh hfresh => exact hfresh.stands
  | elsewhere _ hstays ih => exact ih.stays hstays
  | sync _ htakes ih => exact ih.sync htakes
  | parse _ hsees htakes ih => exact ih.parse hsees htakes
  | enrich _ htakes ih => exact ih.enrich htakes
  | enrichFails _ htakes ih => exact ih.enrichFails htakes
  | populate _ hproject htakes ih => exact ih.populate hbackend (project_configOf hproject) htakes
  | populateFails _ hproject htakes ih =>
    exact ih.populateFails hbackend (project_configOf hproject) htakes

end Courses

/-! ### Caught up -/

namespace Settings

/-- After any course of builds, an incremental build of all stages that goes on from the kept
revision leads to the nodes of its revision, if every file in which the revision differs from a tree
that the graph may hold was changed since the kept revision.  The graph is then caught up with the
revision that is kept. -/
theorem hasNode_iff_of_course (s : Settings) (project present : String)
    (revisions : String → Tree) (st : Standing) (r : Request) (sel : Selection)
    (outside outside' outside'' : Outside) (w w₁ w₂ w₃ : World)
    (parsed enriched populated : Option StageSummary)
    (hbackend : s.graphBackend = "networkx") (hcourse : s.Course project revisions st w)
    (hproject : r.project = some project) (hmode : r.mode = some Request.incremental)
    (hbase : r.baseCommit.getD "" = "")
    (hsees : s.Sees outside (s.configOf r) revisions st.marker present sel w.disk w.cwd)
    (hkept : ∀ t, st.held t → ∀ path, Source.isIncluded path = true →
      revisions present path ≠ t path →
        revisions present path ≠ Source.treeOf revisions st.marker path)
    (hparse : s.Takes outside r .parse (.ok parsed) w w₁)
    (henrich : s.Takes outside' r .enrich (.ok enriched) w₁ w₂)
    (hpopulate : s.Takes outside'' r .populate (.ok populated) w₂ w₃) :
    (∃ st', s.Course project revisions st' w₃ ∧ st'.marker = some present ∧
      st'.held = (· = revisions present)) ∧
    ∀ id, (graphAt s.stagingPath w₃).hasNode ⟨project, id⟩ = true ↔
      ∃ path, ∃ e ∈ entitiesAt (revisions present) path, e.id = id := by
  have hlast := ((hcourse.parse hsees hparse).enrich henrich).populate hproject hpopulate
  have hconfig : (s.configOf r).mode = Request.incremental := by
    rw [configOf, hmode]
    rfl
  have hnotfull : (s.configOf r).mode ≠ Request.full := by
    rw [hconfig]
    decide
  obtain ⟨base, ds, hbase', -, hdiff, hsel⟩ := hsees.incremental hnotfull
  have hmarker : base = st.marker := hbase'.trans (if_pos hbase)
  -- whatever tree the graph holds, the files in which it is behind are read
  have hcatches : sel.CatchesUp (s.configOf r).mode st.held := by
    refine ⟨fun t ht => ?_, .inl hconfig⟩
    rw [hsel]
    exact (hmarker ▸ hdiff.covers).of_base (hkept t ht)
  have hheld : ((st.read present sel).enrich.fill (s.configOf r).mode).held = (· = sel.tree) :=
    Standing.held_fill_of_catchesUp rfl hcatches
  rw [hsees.tree_eq] at hheld
  have hnodes := (hlast.stands hbackend).nodes
  rw [hheld] at hnodes
  exact ⟨⟨_, hlast, rfl, hheld⟩, hnodes.mirrors_self.hasNode_iff⟩

end Settings

/-! ### Changes that are not selected -/

/-- Filling the stores brings in the ids of the selected files only. -/
theorem Selection.Renews.of_hasNode {sel : Selection} {config : BuildConfig} {g h : Graph}
    (hrenews : sel.Renews config g h)
    (hincluded : ∀ path ∈ sel.paths, Source.isIncluded path = true) {id : String}
    (hnode : h.hasNode ⟨config.project, id⟩ = true) :
    g.hasNode ⟨config.project, id⟩ = true ∨
      ∃ path ∈ sel.paths, ∃ e ∈ entitiesAt sel.tree path, e.id = id := by
  obtain ⟨given, held, merged, removed, hheld, hm, hsweep⟩ := hrenews
  rw [← Graph.isSome_nodeFacts, Populating.nodeFacts_of_sweep hm hsweep] at hnode
  split at hnode
  · cases hnode
  · rw [Enriched.nodeAfter] at hnode
    cases hlast : Enriching.lastOf? held.entities id with
    | none =>
      rw [hlast, Graph.isSome_nodeFacts] at hnode
      exact .inl hnode
    | some x =>
      obtain ⟨path, hpath, -, e, he⟩ :=
        hheld.exists_isLast hincluded (Enriching.mem_of_lastOf? hlast)
      rw [Enriching.id_of_lastOf? hlast] at he
      exact .inr ⟨path, (Handover.mem_parsed.1 hpath).1, e, he.mem, he.id_eq⟩

namespace Settings

/-- After a build has filled the stores, there are no other nodes than before and those of the files
that it has selected. -/
theorem Course.of_hasNode {s : Settings} {project : String} {revisions : String → Tree}
    {st : Standing} {outside : Outside} {r : Request} {sel : Selection}
    {summary : Option StageSummary} {w w' : World} (hbackend : s.graphBackend = "networkx")
    (hcourse : s.Course project revisions st w) (henriched : st.enriched = some sel)
    (hproject : r.project = some project) (htakes : s.Takes outside r .populate (.ok summary) w w')
    {id : String} (hnode : (graphAt s.stagingPath w').hasNode ⟨project, id⟩ = true) :
    (graphAt s.stagingPath w).hasNode ⟨project, id⟩ = true ∨
      ∃ path ∈ sel.paths, ∃ e ∈ entitiesAt sel.tree path, e.id = id := by
  have hstands := hcourse.stands hbackend
  obtain ⟨w₁, ⟨-, sel', hsel', hrenews⟩, hstays⟩ :=
    htakes.of_wp_ok (hstands.staged.wp_populate hbackend)
  obtain rfl : sel = sel' := Option.some.inj (henriched.symm.trans hsel')
  rw [(hstays _).graphAt_eq] at hnode
  have hincluded := (hstands.enriched sel henriched).included
  rw [← project_configOf (s := s) hproject] at hnode ⊢
  exact hrenews.of_hasNode hincluded hnode

/-! ### A document that is read before the build -/

open Populating (fileSettings quiet)

/-- Surroundings in which version control tells of a single revision with the document. -/
def tracking : Outside :=
  { quiet with
    git := fun _ arguments _ =>
      .finished 0 (if arguments.head? = some "log" then "r1"
        else if arguments.head? = some "ls-files" then Change.terminated ["a.md"] else "") "" }

/-- An incremental build of a stage. -/
def documentRequest (stage : String) : Request :=
  ⟨some Request.incremental, some stage, none, none, none, some "p"⟩

/-- The service when a worker begins with a request. -/
def beginning (r : Request) : Service := ⟨.running r "", none, [.busy (.ofRequest r "")]⟩

theorem hasLeft_beginning (r : Request) (w : World) :
    HasLeft 0 r r.tasks { w with service := beginning r } := ⟨_, rfl, rfl, rfl, rfl⟩

theorem isCalm_tracking : tracking.IsCalm := fun _ _ => rfl

theorem hasGit_tracking : tracking.HasGit := fun _ _ _ => ⟨_, _, rfl⟩

theorem isSteady_tracking : tracking.IsSteady :=
  ⟨fun _ _ _ => rfl, fun _ _ _ => rfl, fun _ _ _ => rfl, fun _ _ _ => rfl⟩

theorem isPresent_tracking : Revision.IsPresent tracking fileSettings.repoPath "r1" := by
  intro events output errors hreply
  obtain rfl : "r1" = output := by cases hreply; rfl
  rfl

theorem tells_tracking_files :
    Revision.Tells tracking fileSettings.repoPath "r1" none [.added "a.md"] := by
  refine ⟨["a.md"], rfl, fun events output errors hreply => ?_⟩
  cases hreply
  rfl

theorem tells_tracking_nothing :
    Revision.Tells tracking fileSettings.repoPath "r1" (some "r1") [] := by
  refine ⟨by decide, fun events output errors hreply => ?_⟩
  cases hreply
  rfl

/-- What a build of the document sees. -/
theorem sees_tracking {stage : String} {marker : Option String} {ds : List Source.Difference}
    {w : World}
    (hcheckout : Source.checkout w.disk w.cwd fileSettings.repoPath = documentTree plainText)
    (htells : Revision.Tells tracking fileSettings.repoPath "r1" marker ds)
    (hdiff : Source.IsDiff (Source.treeOf (fun _ => documentTree plainText) marker)
      (documentTree plainText) ds) :
    fileSettings.Sees tracking (fileSettings.configOf (documentRequest stage))
      (fun _ => documentTree plainText) marker "r1"
      ⟨documentTree plainText, (Source.targets ds).filter Source.isIncluded,
        Source.removed ds⟩ w.disk
      w.cwd where
  readable := fun _ _ => rfl
  marker_readable := fun _ => rfl
  present_ne := by decide
  isPresent := isPresent_tracking
  checkout_eq := hcheckout
  full hmode := absurd hmode (show Request.incremental ≠ Request.full by decide)
  incremental _ := ⟨marker, ds, rfl, htells, hdiff, rfl⟩
  found path hpath := by
    have hpath : path = "a.md" := by
      by_contra hne
      exact hdiff.exists_of_target path (List.mem_filter.1 hpath).1 (if_neg hne)
    rw [hpath, findingsAt_plain]
    exact fun h => nomatch h
  plain := hasPlainNames_documentTree findingsAt_plain

theorem isDiff_document :
    Source.IsDiff (fun _ => none) (documentTree plainText) [.added "a.md"] := by
  show Source.IsDiff _ _ (["a.md"].map .added)
  refine Source.isDiff_listing (fun path hpath => ?_) fun path => ?_
  · rw [List.mem_singleton.1 hpath]
    exact ⟨by decide, by decide⟩
  · rw [documentTree, List.mem_singleton]
    split
    · simp_all
    · simp_all

/-- The world of the document after it was read. -/
def stagedWorld (artifact marker : Content) (g : Graph) : World :=
  World.ofDisk (((documentWorld plainText g).disk.put ["s", "parse", "output.json"]
    (.file artifact)).put ["s", "last-build.json"] (.file marker)) []

variable {artifact marker : Content} {g : Graph}

theorem sameDirectories_stagedWorld :
    Disk.SameDirectories emptyDisk (stagedWorld artifact marker g).disk :=
  (sameDirectories_documentWorld.trans (Disk.sameDirectories_put rfl)).trans
    (Disk.sameDirectories_put rfl)

theorem checkout_stagedWorld :
    Source.checkout (stagedWorld artifact marker g).disk (stagedWorld artifact marker g).cwd
      fileSettings.repoPath = documentTree plainText :=
  checkout_of_below sameDirectories_stagedWorld rfl rfl

theorem absolute_markerPath :
    Disk.absolute [] (Staging.markerPath "s") = ["s", "last-build.json"] := by
  rw [Staging.markerPath, Disk.absolute_join _ _ Revision.isName_marker, home_staging]
  rfl

theorem isFresh_documentWorld {service : Service} :
    Staging.IsFresh fileSettings.stagingPath "p"
      { documentWorld plainText .empty with service } where
  marker := by
    show (documentWorld plainText .empty).disk.fileAt [] (Staging.markerPath "s") = none
    rw [Disk.fileAt, absolute_markerPath]
    rfl
  parsed := by
    show (documentWorld plainText .empty).disk.fileAt [] (Staging.artifactPath "s" "parse") = none
    rw [Disk.fileAt, absolute_artifactPath Reading.isName_parse]
    rfl
  enriched := by
    show (documentWorld plainText .empty).disk.fileAt [] (Staging.artifactPath "s" "enrich") = none
    rw [Disk.fileAt, absolute_artifactPath Populating.isName_enrich]
    rfl
  graph id := by
    show (graphAt fileSettings.stagingPath (documentWorld plainText .empty)).nodeFacts
        ⟨"p", id⟩ = none
    rw [graphAt_documentWorld]
    rfl

/-- The document, before a build of a stage begins. -/
def freshWorld (stage : String) : World :=
  { documentWorld plainText .empty with service := beginning (documentRequest stage) }

theorem course_freshWorld (stage : String) :
    fileSettings.Course "p" (fun _ => documentTree plainText) .initial (freshWorld stage) :=
  .fresh isFresh_documentWorld

theorem isReady_freshWorld (stage : String) : fileSettings.IsReady "p" (freshWorld stage) :=
  ⟨isReady_documentWorld.room, isReady_documentWorld.graph, rfl⟩

/-- The first build sees the document. -/
theorem sees_freshWorld (stage : String) :
    fileSettings.Sees tracking (fileSettings.configOf (documentRequest stage))
      (fun _ => documentTree plainText) none "r1" ⟨documentTree plainText, ["a.md"], []⟩
      (freshWorld stage).disk (freshWorld stage).cwd :=
  sees_tracking checkout_documentWorld tells_tracking_files isDiff_document

theorem hasNode_iff_of_course_freshWorld :
    ∃ parsed enriched populated w₁ w₂ w₃,
      fileSettings.Takes tracking (documentRequest "all") .parse (.ok parsed) (freshWorld "all") w₁ ∧
      fileSettings.Takes tracking (documentRequest "all") .enrich (.ok enriched) w₁ w₂ ∧
      fileSettings.Takes tracking (documentRequest "all") .populate (.ok populated) w₂ w₃ ∧
      ∀ id, (graphAt "s" w₃).hasNode ⟨"p", id⟩ = true ↔
        ∃ path, ∃ e ∈ entitiesAt (documentTree plainText) path, e.id = id := by
  have hcourse := course_freshWorld "all"
  have hsees := sees_freshWorld "all"
  have hshort : IsShort (fileSettings.configOf (documentRequest "all")) (documentTree plainText)
      ["a.md"] [] (fileSettings.saidBy tracking) :=
    isShort_documentTree findingsAt_plain rfl rfl rfl rfl
  rw [← hsees.checkout_eq] at hshort
  obtain ⟨parsed, enriched, populated, w₁, w₂, w₃, hparse, henrich, hpopulate⟩ :=
    exists_takes_build (s := fileSettings) (r := documentRequest "all") (w := freshWorld "all") rfl
      isCalm_tracking hasGit_tracking (.inl rfl)
      (enriches_of_isSteady fileSettings isSteady_tracking) (isReady_freshWorld "all")
      (fun w' hw' => (hcourse.stands rfl).staged.succeeds_select hsees hw' isCalm_tracking
        hasGit_tracking) hsees.mem_filesBelow hshort
      (hasLeft_beginning (documentRequest "all") (documentWorld plainText .empty))
  refine ⟨parsed, enriched, populated, w₁, w₂, w₃, hparse, henrich, hpopulate, ?_⟩
  refine (hasNode_iff_of_course fileSettings "p" "r1" (fun _ => documentTree plainText) .initial
    (documentRequest "all") _ tracking tracking tracking (freshWorld "all") w₁ w₂ w₃ parsed enriched
    populated rfl hcourse rfl rfl rfl hsees ?_ hparse henrich hpopulate).2
  rintro t rfl path - hne
  exact hne

/-- What a build stages that selects nothing is short. -/
theorem isShort_nothing {stage : String} {t : Tree} {said : Entity → Enrichment} :
    IsShort (fileSettings.configOf (documentRequest stage)) t [] [] said := by
  have houtput (stamp revision : String) :
      Reading.outputOf (fileSettings.configOf (documentRequest stage)) stamp revision t ([], []) =
        ⟨[], [], [("timestamp", .str stamp), ("commit", .str revision), ("filesProcessed", .int 0),
          ("mode", .str Request.incremental), ("parsedFiles", .arr []),
          ("deletedFiles", .arr [])]⟩ :=
    rfl
  refine ⟨fun stamp revision => ?_, fun stamp revision output h => ?_⟩
  · rw [houtput, ParseOutput.toJson, Output.isShort_toJson]
    rfl
  · obtain ⟨stamp', hmetadata⟩ := h.metadata_eq
    have hentities := h.entities_eq_collect
    have hrelationships := h.relationships_eq
    rw [houtput] at hmetadata hentities hrelationships
    rw [EnrichOutput.toJson, Output.isShort_toJson, hentities, hmetadata, hrelationships]
    refine Bool.and_eq_true_iff.2 ⟨rfl, Bool.and_eq_true_iff.2 ⟨rfl, ?_⟩⟩
    change Json.areShortFields (Enriching.metadata stamp' (0 : Nat) _) = true
    rfl

theorem isReached_emptyDisk : emptyDisk.IsReached [] "s" := by
  refine ⟨["s"], ?_⟩
  rw [Disk.start_of_isName isName_staging, Path.lead_of_isName isName_staging]
  rfl

theorem fileAt_stagedWorld :
    (stagedWorld artifact marker g).disk.fileAt [] (Staging.graphPath "s") = some (.graph g) := by
  rw [Disk.fileAt_eq_some_iff, absolute_graphPath]
  rfl

theorem graphAt_stagedWorld : graphAt "s" (stagedWorld artifact marker g) = g := by
  have hfile : (stagedWorld artifact marker g).disk.fileAt (stagedWorld artifact marker g).cwd
      (Staging.graphPath "s") = some (.graph g) := fileAt_stagedWorld
  rw [graphAt, hfile]

/-- The world of the document stands for any world with the same files that are staged. -/
theorem stays_stagedWorld {w : World} {service : Service}
    (hmarker : w.disk.fileAt w.cwd (Staging.markerPath "s") = some marker)
    (hparsed : w.disk.fileAt w.cwd (Staging.artifactPath "s" "parse") = some artifact)
    (henriched : w.disk.fileAt w.cwd (Staging.artifactPath "s" "enrich") = none) :
    Staging.Stays "s" w { stagedWorld artifact marker (graphAt "s" w) with service } where
  fileAt_eq path hpath := by
    show (stagedWorld artifact marker (graphAt "s" w)).disk.fileAt [] path = _
    simp only [List.mem_cons, List.not_mem_nil, or_false] at hpath
    rcases hpath with rfl | rfl | rfl
    · rw [hmarker, Disk.fileAt, absolute_markerPath]
      rfl
    · rw [Reading.stage, hparsed, Disk.fileAt, absolute_artifactPath Reading.isName_parse]
      rfl
    · rw [Enriching.stage, henriched, Disk.fileAt, absolute_artifactPath Populating.isName_enrich]
      rfl
  reached _ := isReached_emptyDisk.keeps sameDirectories_stagedWorld.keeps
  graphAt_eq := graphAt_stagedWorld

/-- A build has read the document and done nothing else, and another one begins. -/
theorem exists_course_stagedWorld : ∃ artifact marker g,
    fileSettings.Course "p" (fun _ => documentTree plainText)
      (Standing.initial.read "r1" ⟨documentTree plainText, ["a.md"], []⟩)
      { stagedWorld artifact marker g with service := beginning (documentRequest "all") } := by
  have hsees := sees_freshWorld "parse"
  have hshort : IsShort (fileSettings.configOf (documentRequest "parse")) (documentTree plainText)
      ["a.md"] [] (fileSettings.saidBy tracking) :=
    isShort_documentTree findingsAt_plain rfl rfl rfl rfl
  rw [← hsees.checkout_eq] at hshort
  have hfresh := course_freshWorld "parse"
  obtain ⟨summary, htakes, -, -, -⟩ :=
    exists_takes_parse (s := fileSettings) (r := documentRequest "parse") (w := freshWorld "parse")
      isCalm_tracking hasGit_tracking
      (hasLeft_beginning (documentRequest "parse") (documentWorld plainText .empty))
      (isReady_freshWorld "parse")
      (fun w' hw' => (hfresh.stands rfl).staged.succeeds_select hsees hw' isCalm_tracking
        hasGit_tracking) hsees.mem_filesBelow hshort.parsed
  have hread := hfresh.parse hsees htakes
  have hstaged := (hread.stands rfl).staged
  obtain ⟨-, -, stamp, hmarker⟩ := hstaged.marked
  obtain ⟨config, stamp', revision, hparsed⟩ := hstaged.parsed
  exact ⟨_, _, _, hread.elsewhere (stays_stagedWorld hmarker hparsed hstaged.enriched)⟩

/-- A build that has only read the document keeps its revision; the next build of all stages ends
well at the same revision, and the document has no node. -/
theorem hasNode_eq_false_of_course :
    ∃ st w sel parsed enriched populated w₁ w₂ w₃,
      fileSettings.Course "p" (fun _ => documentTree plainText) st w ∧
      fileSettings.Sees tracking (fileSettings.configOf (documentRequest "all"))
        (fun _ => documentTree plainText) st.marker "r1" sel w.disk w.cwd ∧
      fileSettings.Takes tracking (documentRequest "all") .parse (.ok parsed) w w₁ ∧
      fileSettings.Takes tracking (documentRequest "all") .enrich (.ok enriched) w₁ w₂ ∧
      fileSettings.Takes tracking (documentRequest "all") .populate (.ok populated) w₂ w₃ ∧
      documentOf plainText ∈ entitiesAt (documentTree plainText) "a.md" ∧
      (graphAt "s" w₃).hasNode ⟨"p", (documentOf plainText).id⟩ = false := by
  obtain ⟨artifact, marker, g, hcourse⟩ := exists_course_stagedWorld
  have hsees : fileSettings.Sees tracking (fileSettings.configOf (documentRequest "all"))
      (fun _ => documentTree plainText) (some "r1") "r1" ⟨documentTree plainText, [], []⟩
      (stagedWorld artifact marker g).disk (stagedWorld artifact marker g).cwd :=
    sees_tracking checkout_stagedWorld tells_tracking_nothing (Source.isDiff_nil _)
  have hready : fileSettings.IsReady "p"
      { stagedWorld artifact marker g with service := beginning (documentRequest "all") } := by
    refine ⟨isLaidOut_emptyDisk.same sameDirectories_stagedWorld, fun content hcontent => ?_, rfl⟩
    exact ⟨_, Option.some.inj (hcontent.symm.trans fileAt_stagedWorld)⟩
  obtain ⟨parsed, enriched, populated, w₁, w₂, w₃, hparse, henrich, hpopulate⟩ :=
    exists_takes_build (s := fileSettings) (r := documentRequest "all")
      (w := { stagedWorld artifact marker g with service := beginning (documentRequest "all") }) rfl
      isCalm_tracking hasGit_tracking (.inl rfl)
      (enriches_of_isSteady fileSettings isSteady_tracking) hready
      (fun w' hw' => (hcourse.stands rfl).staged.succeeds_select hsees hw' isCalm_tracking
        hasGit_tracking) hsees.mem_filesBelow isShort_nothing
      (hasLeft_beginning (documentRequest "all") _)
  refine ⟨_, _, _, parsed, enriched, populated, w₁, w₂, w₃, hcourse, hsees, hparse, henrich,
    hpopulate, ?_, ?_⟩
  · have hincluded : Source.isIncluded "a.md" = true := rfl
    rw [entitiesAt, if_pos hincluded, findingsAt_plain]
    exact List.mem_singleton_self _
  · -- before the stores are filled there are no nodes, and nothing was selected
    have hbefore := (hcourse.parse hsees hparse).enrich henrich
    refine Bool.eq_false_iff.2 fun hnode => ?_
    rcases hbefore.of_hasNode rfl rfl rfl hpopulate hnode with hnode | ⟨path, hpath, -⟩
    · rw [← Graph.isSome_nodeFacts] at hnode
      obtain ⟨node, hnode⟩ := Option.isSome_iff_exists.1 hnode
      obtain ⟨_, rfl, path, e, he, -⟩ := (hbefore.stands rfl).nodes.of_node _ _ hnode
      exact (Source.of_mem_entitiesAt he.mem).2.1 rfl
    · cases hpath

end Settings

end RepoGraph
