import RepoGraph.Proofs.Incremental

/-!
# Edges after an incremental build

An edge is of no file: relationships are merged where both ends are nodes, and an edge goes when one
of its ends does.  So after a build a project has an edge between two of its nodes if a file that
was read states it or if the edge was there before.  Compared with a full build of the same files an
incremental one has edges too many, which no file states any more, and edges too few, which a file
that was not read states about a node that is new.

Main statements: `Populating.isEdge_of_sweep`, `Settings.Renews.isEdge_iff`,
`Settings.comparesEdges_of_incremental`.
-/

namespace RepoGraph

open Source (Tree HasPlainNames Covers IsDiff findingsAt)
open Populating (Mirrors IsMerged sweep)
open Handover (IsHanded NamesFile)

/-! ### Edges of a project -/

namespace Graph

/-- Whether a project has an edge at a place, which is two ids and a type. -/
def IsEdge (g : Graph) (project : String) (at_ : String × String × String) : Prop :=
  (g.edgeFacts ⟨project, at_.1⟩ ⟨project, at_.2.1⟩ at_.2.2).isSome

/-- Whether both ids of a place have a node in a project. -/
def Spans (g : Graph) (project : String) (at_ : String × String × String) : Prop :=
  g.hasNode ⟨project, at_.1⟩ = true ∧ g.hasNode ⟨project, at_.2.1⟩ = true

end Graph

/-- What an edge says after relationships were merged: it is there if one of them has its place. -/
theorem Relationship.isSome_edgeAfter (project : String) (relationships : List Relationship)
    (at_ : String × String × String) (before : Option Facts) :
    (edgeAfter project relationships at_ before).isSome ↔
      (∃ r ∈ relationships, r.place = at_) ∨ before.isSome := by
  have hlast : (∃ r ∈ relationships, r.place = at_) ↔ lastAt? relationships at_ ≠ none := by
    simp only [lastAt?, ne_eq, List.find?_eq_none, List.mem_reverse, beq_iff_eq,
      not_forall, not_not,
      exists_prop]
  rw [edgeAfter, hlast]
  cases lastAt? relationships at_ with
  | none => simp
  | some r => simp [laidOn]

namespace Populating

variable {config : BuildConfig} {output : EnrichOutput} {g merged h : Graph} {removed : List String}

theorem hasNode_of_sweep (hm : IsMerged config output g merged)
    (hsweep : sweep config output merged = .ok (h, removed)) (id : String) :
    h.hasNode ⟨config.project, id⟩ = true ↔ id ∉ removed ∧ isNode config output g id = true := by
  rw [← Graph.isSome_nodeFacts, nodeFacts_of_sweep hm hsweep, isNode_eq]
  split <;> simp [*]

/-- Where edges join nodes, they do so afterwards, and there is one if a relationship is merged or
if it was there before. -/
theorem isEdge_of_sweep (hm : IsMerged config output g merged)
    (hsweep : sweep config output merged = .ok (h, removed)) {at_ : String × String × String}
    (hspans : g.IsEdge config.project at_ → g.Spans config.project at_) :
    h.IsEdge config.project at_ ↔ h.Spans config.project at_ ∧
      ((∃ r ∈ GraphStore.knownOf output.relationships, r.place = at_) ∨
        g.IsEdge config.project at_) := by
  obtain ⟨source, target, label⟩ := at_
  rw [Graph.Spans, hasNode_of_sweep hm hsweep, hasNode_of_sweep hm hsweep, Graph.IsEdge,
    edgeFacts_of_sweep hm hsweep]
  by_cases hremoved : source ∈ removed ∨ target ∈ removed
  · rw [if_pos hremoved]
    refine iff_of_false Bool.false_ne_true fun hends => ?_
    exact not_or.2 ⟨hends.1.1.1, hends.1.2.1⟩ hremoved
  · rw [if_neg hremoved, edgeAfter]
    obtain ⟨hsource, htarget⟩ := not_or.1 hremoved
    by_cases hnodes : isNode config output g source = true ∧ isNode config output g target = true
    · rw [if_pos hnodes, Relationship.isSome_edgeAfter]
      exact (and_iff_right ⟨⟨hsource, hnodes.1⟩, htarget, hnodes.2⟩).symm
    · rw [if_neg hnodes]
      refine iff_of_false ?_ fun hends => hnodes ⟨hends.1.1.2, hends.1.2.2⟩
      -- an edge of before has ends, which are nodes for good
      intro hedge
      obtain ⟨hs, ht⟩ := hspans hedge
      exact hnodes ⟨Bool.or_eq_true_iff.2 (.inr hs), Bool.or_eq_true_iff.2 (.inr ht)⟩

end Populating

/-! ### What files state -/

namespace Source

/-- Whether a file of a tree that takes part states an edge at a place. -/
def Relates (t : Tree) (path : String) (at_ : String × String × String) : Prop :=
  isIncluded path = true ∧ ∃ found, findingsAt t path = some found ∧
    ∃ r ∈ found.relationships, Relationship.isKnownType r.type = true ∧ r.place = at_

variable {t t' : Tree} {path : String} {at_ : String × String × String}

theorem Relates.congr (h : Relates t path at_) (heq : t path = t' path) : Relates t' path at_ := by
  rw [Relates, ← findingsAt_congr heq]
  exact h

/-- What does not exist states nothing. -/
theorem Relates.exists (h : Relates t path at_) : t path ≠ none := by
  obtain ⟨-, found, hfound, -⟩ := h
  intro hnone
  rw [findingsAt, hnone] at hfound
  cases hfound

theorem Relates.mem_discover {disk : Disk} {cwd : Place} {repo : String}
    (h : Relates (checkout disk cwd repo) path at_) : path ∈ discover disk cwd repo :=
  Source.mem_discover.2 ⟨mem_filesBelow h.exists, h.1⟩

end Source

/-- The relationships of known type that are handed on are those that the files state. -/
theorem Handover.IsHanded.exists_known {R : Entity → Enriched → Prop} {config : BuildConfig}
    {t : Tree} {paths gone : List String} {held : EnrichOutput}
    (h : IsHanded R config t paths gone held)
    (hincluded : ∀ path ∈ paths, Source.isIncluded path = true) (at_ : String × String × String) :
    (∃ r ∈ GraphStore.knownOf held.relationships, r.place = at_) ↔
      ∃ path ∈ paths, Source.Relates t path at_ := by
  obtain ⟨stamp, revision, output, houtput, rfl⟩ := h
  have hrelationships : (output.asRead Enriched.asRead).relationships =
      (((Reading.foundIn t paths).flatMap fun f => f.2.relationships).map Relationship.asRead).map
        Relationship.asRead := by
    rw [Output.asRead, houtput.relationships_eq]
    rfl
  rw [hrelationships]
  simp only [GraphStore.knownOf, List.mem_filter, List.mem_map, List.mem_flatMap, Reading.foundIn,
    List.mem_filterMap, Option.map_eq_some_iff]
  constructor
  · rintro ⟨_, ⟨⟨_, ⟨r, ⟨f, ⟨path, hpath, found, hfound, rfl⟩, hr⟩, rfl⟩, rfl⟩, hknown⟩, hplace⟩
    exact ⟨path, hpath, hincluded path hpath, found, hfound, r, hr, hknown, hplace⟩
  · rintro ⟨path, hpath, -, found, hfound, r, hr, hknown, hplace⟩
    exact ⟨_, ⟨⟨_, ⟨r, ⟨(path, found), ⟨path, hpath, found, hfound, rfl⟩, hr⟩, rfl⟩, rfl⟩, hknown⟩,
      hplace⟩

/-! ### Builds -/

namespace Settings

variable {s : Settings} {outside : Outside} {w : World} {project : String}
  {R : Entity → Enriched → Prop} {config : BuildConfig} {old t : Tree} {paths gone : List String}
  {g h : Graph}

/-- After a build there is an edge between two nodes if a file that was read states it or if it was
there before. -/
theorem Renews.isEdge_iff (hrenews : Renews R config t paths gone g h)
    (hincluded : ∀ path ∈ paths, Source.isIncluded path = true) {at_ : String × String × String}
    (hspans : g.IsEdge config.project at_ → g.Spans config.project at_) :
    h.IsEdge config.project at_ ↔ h.Spans config.project at_ ∧
      ((∃ path ∈ paths, Source.Relates t path at_) ∨ g.IsEdge config.project at_) := by
  obtain ⟨held, merged, removed, hheld, hm, hsweep⟩ := hrenews
  rw [Populating.isEdge_of_sweep hm hsweep hspans, hheld.exists_known hincluded]

/-- Whether a full build of the files of a tree leaves a graph in a store that had nothing of the
project. -/
def IsBuilt (project : String) (t : Tree) (g : Graph) : Prop :=
  ∃ (s : Settings) (outside : Outside) (w : World) (commit : Option String) (result : Population),
    s.graphBackend = "networkx" ∧ Reading.IsReadable outside s.repoPath ∧
      Source.checkout w.disk w.cwd s.repoPath = t ∧
      (∀ id, (Staging.graphAt s.stagingPath w).nodeFacts ⟨project, id⟩ = none) ∧
      (∀ at_, ¬ (Staging.graphAt s.stagingPath w).IsEdge project at_) ∧
      ((s.build (s.buildConfig Request.full project commit)).run outside w).1.toOption =
        some result ∧
      g = Staging.graphAt s.stagingPath
        ((s.build (s.buildConfig Request.full project commit)).run outside w).2

/-- A full build has the edges between its nodes that files state. -/
theorem IsBuilt.isEdge_iff (hbuilt : IsBuilt project t g) {at_ : String × String × String} :
    g.IsEdge project at_ ↔ g.Spans project at_ ∧ ∃ path, Source.Relates t path at_ := by
  obtain ⟨s, outside, w, commit, result, hbackend, hreadable, rfl, -, hedges, hrun, rfl⟩ := hbuilt
  refine ((renews_of_full hbackend hreadable (enrichesAs_entity s outside) hrun).isEdge_iff
    (fun path hpath => (Source.mem_discover.1 hpath).2) fun hedge =>
      absurd hedge (hedges at_)).trans
    (and_congr_right fun _ => ⟨fun hstated => ?_, fun ⟨path, hpath⟩ => .inl ⟨path, ?_, hpath⟩⟩)
  · obtain ⟨path, -, hpath⟩ := hstated.resolve_right (hedges at_)
    exact ⟨path, hpath⟩
  · exact hpath.mem_discover

/-- A full build has the nodes of the tree. -/
theorem IsBuilt.mirrors (hbuilt : IsBuilt project t g) (hplain : HasPlainNames t) :
    Mirrors project NamesFile t g := by
  obtain ⟨s, outside, w, commit, result, hbackend, hreadable, rfl, hempty, -, hrun, rfl⟩ := hbuilt
  exact (renews_of_full hbackend hreadable (enrichesAs_entity s outside) hrun).mirrors_discover
    (show Request.full ≠ Request.incremental by decide)
    (fun held => Handover.carries_path hplain fun path hpath => (Source.mem_discover.1 hpath).2)
    hempty

/-- How the graph after an incremental build, which has read some files of a tree, compares with the
one before and with that of a full build. -/
structure ComparesEdges (project : String) (t : Tree) (paths : List String)
    (before after full : Graph) : Prop where
  spans_after : ∀ at_, after.IsEdge project at_ → after.Spans project at_
  spans_full : ∀ at_, full.IsEdge project at_ → full.Spans project at_
  /-- The edges too many are those of before that no file states any more. -/
  surplus : ∀ at_, after.Spans project at_ → full.Spans project at_ →
    (after.IsEdge project at_ ∧ ¬ full.IsEdge project at_ ↔
      before.IsEdge project at_ ∧ ∀ path, ¬ Source.Relates t path at_)
  /-- The edges that are missing are stated by files that were not read, about an end that had no
  node. -/
  missing : ∀ at_, after.Spans project at_ → full.Spans project at_ →
    (full.IsEdge project at_ ∧ ¬ after.IsEdge project at_ ↔
      (∃ path, Source.Relates t path at_) ∧ (∀ path ∈ paths, ¬ Source.Relates t path at_) ∧
        ¬ before.Spans project at_)

/-- Edges compare in this way after a build that covers the way from a tree that was built. -/
theorem comparesEdges_of_renews {before after full built : Graph}
    (hrenews : Renews R config t paths gone before after) (hcovers : Covers old t paths gone)
    (hbuilt : IsBuilt config.project old built)
    (hnodes : ∀ id, before.nodeFacts ⟨config.project, id⟩ = built.nodeFacts ⟨config.project, id⟩)
    (hedges : ∀ at_, before.IsEdge config.project at_ ↔ built.IsEdge config.project at_)
    (hfull : IsBuilt config.project t full) :
    ComparesEdges config.project t paths before after full := by
  have hspans (at_) : before.Spans config.project at_ ↔ built.Spans config.project at_ := by
    simp only [Graph.Spans, ← Graph.isSome_nodeFacts, hnodes]
  have hbefore (at_) : before.IsEdge config.project at_ ↔
      before.Spans config.project at_ ∧ ∃ path, Source.Relates old path at_ := by
    rw [hedges, hspans, hbuilt.isEdge_iff]
  have hafter (at_) : after.IsEdge config.project at_ ↔ after.Spans config.project at_ ∧
      ((∃ path ∈ paths, Source.Relates t path at_) ∨ before.IsEdge config.project at_) :=
    hrenews.isEdge_iff hcovers.included fun h => ((hbefore at_).1 h).1
  -- what a file that is not read states, it stated in the old tree already
  have hread {path at_} (hpath : Source.Relates t path at_)
      (hnot : ∀ path ∈ paths, ¬ Source.Relates t path at_) : Source.Relates old path at_ := by
    refine hpath.congr ?_
    by_contra hne
    exact hnot path (hcovers.mem_paths path hpath.1 hpath.exists hne) hpath
  refine ⟨fun at_ hedge => ((hafter at_).1 hedge).1, fun at_ hedge => (hfull.isEdge_iff.1 hedge).1,
    fun at_ hends hends' => ?_, fun at_ hends hends' => ?_⟩
  · rw [hafter, hfull.isEdge_iff]
    simp only [hends, hends', true_and, not_exists]
    refine and_congr_left fun hnone => ⟨fun h => h.resolve_left ?_, .inr⟩
    rintro ⟨path, -, hpath⟩
    exact hnone path hpath
  · -- a stated edge is missing only if no file that is read states it and an end was missing before
    rw [hafter, hfull.isEdge_iff, hbefore]
    simp only [hends, hends', true_and, not_or, not_exists, not_and]
    refine and_congr_right fun ⟨path, hpath⟩ => and_congr_right fun hnot => ⟨fun h hspans => ?_,
      fun h hspans => absurd hspans h⟩
    exact h hspans path (hread hpath hnot)

/-! ### A link that is no longer there -/

open Populating (fileSettings)

theorem isBuilt_documentWorld {text : String}
    (hshort : IsShort (fileSettings.buildConfig Request.full "p" none) (documentTree text) ["a.md"]
      [] modifyingSaid) : IsBuilt "p" (documentTree text) (builtGraph text) := by
  obtain ⟨result, hrun⟩ := exists_full_documentWorld hshort
  refine ⟨fileSettings, modifying, documentWorld text .empty, none, result, rfl, fun _ _ => rfl,
    checkout_documentWorld, fun id => ?_, fun at_ => ?_, hrun, rfl⟩
  · rw [graphAt_documentWorld]
    rfl
  · rw [graphAt_documentWorld]
    exact Bool.false_ne_true

/-- The document is a node of its tree. -/
theorem spans_selfLink {text : String} {relationships : List Relationship}
    (hfound : findingsAt (documentTree text) "a.md" = some ⟨[documentOf text], relationships⟩)
    (hg : Mirrors "p" NamesFile (documentTree text) g) : g.Spans "p" selfLink.place := by
  have hlast : Source.IsLast (documentTree text) "a.md" (Entity.documentId "a.md")
      (documentOf text) := by
    have hincluded : Source.isIncluded "a.md" = true := rfl
    rw [Source.IsLast, Source.entitiesAt, if_pos hincluded, hfound]
    exact List.find?_cons_of_pos (beq_self_eq_true _)
  have hnode := hg.node_of _ _ _ hlast
  rw [Graph.isSome_nodeFacts] at hnode
  exact ⟨hnode, hnode⟩

/-! ### Incremental or anew -/

/-- After an incremental build by a diff of a tree that was built, edges compare in this way with
those of a full build; the nodes are those of the full build if no declared name has a colon. -/
theorem comparesEdges_of_incremental (s : Settings) (outside : Outside) (w : World)
    (project present : String) (commit base : Option String) (ds : List Source.Difference)
    (old : Tree) (built full : Graph) (result : Population)
    (hbackend : s.graphBackend = "networkx") (hreadable : Reading.IsReadable outside s.repoPath)
    (hbase : Reading.IsBase outside (s.buildConfig Request.incremental project commit) w base)
    (hpresent : Revision.IsPresent outside s.repoPath present)
    (htells : Revision.Tells outside s.repoPath present base ds)
    (hdiff : IsDiff old (Source.checkout w.disk w.cwd s.repoPath) ds)
    (hfound : ∀ path ∈ Source.targets ds, Source.isIncluded path = true →
      Source.findingsAt (Source.checkout w.disk w.cwd s.repoPath) path ≠ none)
    (hbuilt : IsBuilt project old built)
    (hnodes : ∀ id, (Staging.graphAt s.stagingPath w).nodeFacts ⟨project, id⟩ =
      built.nodeFacts ⟨project, id⟩)
    (hedges : ∀ at_, (Staging.graphAt s.stagingPath w).IsEdge project at_ ↔
      built.IsEdge project at_)
    (hfull : IsBuilt project (Source.checkout w.disk w.cwd s.repoPath) full)
    (hrun : ((s.build (s.buildConfig Request.incremental project commit)).run outside
      w).1.toOption = some result) :
    ComparesEdges project (Source.checkout w.disk w.cwd s.repoPath)
        ((Source.targets ds).filter Source.isIncluded) (Staging.graphAt s.stagingPath w)
        (Staging.graphAt s.stagingPath
          ((s.build (s.buildConfig Request.incremental project commit)).run outside w).2) full ∧
      (HasPlainNames old → HasPlainNames (Source.checkout w.disk w.cwd s.repoPath) → ∀ id,
        (Staging.graphAt s.stagingPath
            ((s.build (s.buildConfig Request.incremental project commit)).run outside w).2).hasNode
            ⟨project, id⟩ = full.hasNode ⟨project, id⟩) := by
  have hrenews := renews_of_incremental hbackend hreadable (enrichesAs_entity s outside) hbase
    hpresent htells hdiff hrun
  have hcovers := hdiff.covers
  refine ⟨comparesEdges_of_renews hrenews hcovers hbuilt hnodes hedges hfull,
    fun hold hnew id => ?_⟩
  have hprior := (hbuilt.mirrors hold).congr hnodes
  have hafter : Mirrors project NamesFile _ _ := hrenews.mirrors rfl
    (fun held => Handover.carries_path hnew hcovers.included) (fun _ _ h => h) hcovers
    (fun path hpath => hfound path (List.mem_filter.1 hpath).1 (List.mem_filter.1 hpath).2)
    hold hnew hprior
  exact hafter.hasNode_eq (hfull.mirrors hnew) id

theorem comparesEdges_of_incremental_documentWorld :
    ∃ result,
      ((fileSettings.build (fileSettings.buildConfig Request.incremental "p" (some "r1"))).run
          modifying (documentWorld plainText (builtGraph linkedText))).1.toOption = some result ∧
      ComparesEdges "p" (documentTree plainText) ["a.md"] (builtGraph linkedText)
        (Staging.graphAt "s"
          ((fileSettings.build (fileSettings.buildConfig Request.incremental "p" (some "r1"))).run
            modifying (documentWorld plainText (builtGraph linkedText))).2) (builtGraph plainText) ∧
      ∀ id, (Staging.graphAt "s"
          ((fileSettings.build (fileSettings.buildConfig Request.incremental "p" (some "r1"))).run
            modifying (documentWorld plainText (builtGraph linkedText))).2).hasNode ⟨"p", id⟩ =
        (builtGraph plainText).hasNode ⟨"p", id⟩ := by
  have hcheckout : Source.checkout (documentWorld plainText (builtGraph linkedText)).disk
      (documentWorld plainText (builtGraph linkedText)).cwd fileSettings.repoPath =
        documentTree plainText := checkout_documentWorld
  have hgraph : Staging.graphAt fileSettings.stagingPath
      (documentWorld plainText (builtGraph linkedText)) = builtGraph linkedText :=
    graphAt_documentWorld
  have hread : (Source.targets [.modified "a.md"]).filter Source.isIncluded = ["a.md"] := rfl
  obtain ⟨result, hrun⟩ := exists_incremental_documentWorld (builtGraph linkedText)
  have hcompares := comparesEdges_of_incremental fileSettings modifying
    (documentWorld plainText (builtGraph linkedText)) "p" "r2" (some "r1") (some "r1")
    [.modified "a.md"] (documentTree linkedText) (builtGraph linkedText) (builtGraph plainText)
    result rfl (fun _ _ => rfl) rfl isPresent_modifying tells_modifying
    (by rw [hcheckout]; exact isDiff_documentTree linkedText plainText)
    (by
      rw [hcheckout]
      intro path hpath _
      rw [List.mem_singleton.1 hpath, findingsAt_plain]
      exact fun h => nomatch h)
    (isBuilt_documentWorld isShort_linked) (by rw [hgraph]; exact fun _ => rfl)
    (by rw [hgraph]; exact fun _ => Iff.rfl)
    (by rw [hcheckout]; exact isBuilt_documentWorld isShort_plain) hrun
  rw [hcheckout, hgraph, hread] at hcompares
  exact ⟨result, hrun, hcompares.1, hcompares.2 (hasPlainNames_documentTree findingsAt_linked)
    (hasPlainNames_documentTree findingsAt_plain)⟩

/-- The document no longer links to itself, but the edge is still there after an incremental
build. -/
theorem isEdge_selfLink_of_incremental :
    ∃ w result,
      IsBuilt "p" (documentTree linkedText) (Staging.graphAt fileSettings.stagingPath w) ∧
      Source.checkout w.disk w.cwd fileSettings.repoPath = documentTree plainText ∧
      findingsAt (documentTree plainText) "a.md" ≠ none ∧
      IsDiff (documentTree linkedText) (documentTree plainText) [.modified "a.md"] ∧
      Revision.IsPresent modifying fileSettings.repoPath "r2" ∧
      Revision.Tells modifying fileSettings.repoPath "r2" (some "r1") [.modified "a.md"] ∧
      ((fileSettings.build (fileSettings.buildConfig Request.incremental "p" (some "r1"))).run
          modifying w).1.toOption = some result ∧
      IsBuilt "p" (documentTree plainText) (builtGraph plainText) ∧
      (Staging.graphAt fileSettings.stagingPath
          ((fileSettings.build (fileSettings.buildConfig Request.incremental "p" (some "r1"))).run
            modifying w).2).IsEdge "p" selfLink.place ∧
      ¬ (builtGraph plainText).IsEdge "p" selfLink.place := by
  have hlinked := isBuilt_documentWorld isShort_linked
  have hplain := isBuilt_documentWorld isShort_plain
  have hold := hasPlainNames_documentTree findingsAt_linked
  have hnew := hasPlainNames_documentTree findingsAt_plain
  have hdiff := isDiff_documentTree linkedText plainText
  have hcovers := hdiff.covers
  -- the incremental build of the changed document ends well
  obtain ⟨result, hrun⟩ := exists_incremental_documentWorld (builtGraph linkedText)
  have hcheckout : IsDiff (documentTree linkedText) (Source.checkout
      (documentWorld plainText (builtGraph linkedText)).disk
      (documentWorld plainText (builtGraph linkedText)).cwd fileSettings.repoPath)
      [.modified "a.md"] := by
    rw [checkout_documentWorld]
    exact hdiff
  have hrenews := renews_of_incremental rfl (fun _ _ => rfl) (enrichesAs_entity _ _)
    (isBase_modifying _) isPresent_modifying tells_modifying hcheckout hrun
  rw [checkout_documentWorld, graphAt_documentWorld] at hrenews
  refine ⟨documentWorld plainText (builtGraph linkedText), result,
    graphAt_documentWorld ▸ hlinked, checkout_documentWorld, fun h => ?_, hdiff,
    isPresent_modifying, tells_modifying, hrun, hplain, ?_, fun hedge => ?_⟩
  · rw [findingsAt_plain] at h
    cases h
  · -- the edge was there before, and the document is a node before and after
    have hbefore : (builtGraph linkedText).IsEdge "p" selfLink.place :=
      hlinked.isEdge_iff.2 ⟨spans_selfLink findingsAt_linked (hlinked.mirrors hold), "a.md", rfl, _,
        findingsAt_linked, _, List.mem_singleton_self _, rfl, rfl⟩
    have hafter : Mirrors "p" NamesFile (documentTree plainText) _ := hrenews.mirrors rfl
      (fun held => Handover.carries_path hnew hcovers.included) (fun _ _ h => h) hcovers
      (fun path hpath h => ?_) hold hnew (hlinked.mirrors hold)
    · exact (hrenews.isEdge_iff hcovers.included fun hedge => (hlinked.isEdge_iff.1 hedge).1).2
        ⟨spans_selfLink findingsAt_plain hafter, .inr hbefore⟩
    · rw [List.mem_singleton.1 (List.mem_filter.1 hpath).1, findingsAt_plain] at h
      cases h
  · -- the only document states nothing
    obtain ⟨-, path, hrelates⟩ := hplain.isEdge_iff.1 hedge
    have hpath : path = "a.md" := by
      by_contra hne
      exact hrelates.exists (if_neg hne)
    obtain ⟨-, found, hfound, r, hr, -⟩ := hrelates
    rw [hpath, findingsAt_plain, Option.some.injEq] at hfound
    rw [← hfound] at hr
    cases hr

end Settings

end RepoGraph
