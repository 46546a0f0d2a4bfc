import RepoGraph.Proofs.Success

/-!
# Incremental builds and full ones

A build reads the repository, enriches what it finds and fills the stores.  Whatever files it
selects, it ends with the graph that comes of the one before by merging what these files say and
removing what is stale.  If the files are those of a diff, the nodes of the old tree become those of
the new one, attribute by attribute, and so they are those that a full build leaves in an empty
store.

Main statements: `Settings.wp_build`, `Settings.mirrors_of_incremental`, `Settings.mirrors_of_full`,
`Settings.nodeFacts_incremental_eq_full`.
-/

namespace RepoGraph

open Staging (Notes Alters)
open Source (Tree IsLast HasPlainNames Covers IsDiff)
open Populating (Mirrors Carries IsMerged sweep)
open Handover (IsHanded stored parsed)

/-! ### The graph of a staging area -/

namespace Staging

/-- The graph that a staging area holds; the empty one if it holds none. -/
def graphAt (staging : String) (w : World) : Graph :=
  match w.disk.fileAt w.cwd (graphPath staging) with
  | some (.graph g) => g
  | _ => .empty

variable {staging : String} {w w' : World}

/-- What changes other files keeps the graph. -/
theorem graphAt_of_alters {places : List Place} (h : Alters places w w')
    (hplace : Disk.absolute w.cwd (graphPath staging) ∉ places) :
    graphAt staging w' = graphAt staging w := by
  rw [graphAt, graphAt, h.fileAt_eq hplace]

/-- A graph that was saved is the one that the staging area holds. -/
theorem graphAt_of_saves {g : Graph} {disk disk' : Disk} {cwd : Place} (hcwd : w.cwd = cwd)
    (hdisk : w.disk = disk') (h : GraphStore.Saves (graphPath staging) g cwd disk disk') :
    graphAt staging w = g := by
  obtain ⟨made, -, hwrite⟩ := h
  rw [graphAt, hcwd, hdisk, Disk.fileAt_write hwrite]

/-- In a staging area that is reached, the graph is the one that the store opens. -/
theorem held_eq_graphAt (h : w.disk.IsReached w.cwd staging) :
    GraphStore.held (graphPath staging) w = graphAt staging w := by
  have hread (content : Content) :
      w.disk.read w.cwd (Path.join (Path.join staging "graph") "graph.pkl") = .ok content ↔
        w.disk.fileAt w.cwd (Path.join (Path.join staging "graph") "graph.pkl") = some content :=
    Disk.read_join_join_iff h Populating.isName_graph Populating.isName_graphFile
  rw [GraphStore.held, GraphStore.onDisk, graphAt, graphPath]
  cases hfile : w.disk.fileAt w.cwd (Path.join (Path.join staging "graph") "graph.pkl") with
  | some content =>
    rw [(hread content).2 hfile]
    cases content <;> rfl
  | none =>
    cases hcontent : w.disk.read w.cwd (Path.join (Path.join staging "graph") "graph.pkl") with
    | ok content =>
      rw [(hread content).1 hcontent] at hfile
      cases hfile
    | error fault => rfl

end Staging

namespace Settings

variable {s : Settings} {outside : Outside} {w : World} {mode project : String}
  {base : Option String} {paths gone : List String} {said : Entity → Enrichment}
  {R : Entity → Enriched → Prop} {Says : Entity → Facts → Prop} {config : BuildConfig}
  {old t : Tree} {g h : Graph}

/-! ### Builds as a whole -/

/-- Whether what is said about entities is always as a relation allows. -/
def EnrichesAs (s : Settings) (outside : Outside) (R : Entity → Enriched → Prop) : Prop :=
  ∀ config w, (s.enriching config).wp
    (fun output w' => ∃ input,
      Staging.heldOutput Entity.ofJson config.stagingPath "parse" w.disk w.cwd = some input ∧
        Enriching.IsOutputOf R input output ∧ Enriching.Leaves config output w w')
    (fun _ _ => True) outside w

theorem Enriches.enrichesAs (hsaid : s.Enriches outside said) :
    s.EnrichesAs outside (fun e x => x = ⟨e, said e⟩) := fun _ _ =>
  Build.wp_mono hsaid.wp_enriching (fun _ _ h => h) fun _ _ _ => trivial

/-- Whatever is said, it is said about the entity. -/
theorem enrichesAs_entity (s : Settings) (outside : Outside) :
    s.EnrichesAs outside (fun e x => x.entity = e) := fun _ _ =>
  Build.wp_mono wp_enriching_entity (fun _ _ h => h) fun _ _ _ => trivial

/-- Whether a graph comes of another one by merging what was found in some files of a tree and
removing what is stale. -/
def Renews (R : Entity → Enriched → Prop) (config : BuildConfig) (t : Tree)
    (paths gone : List String) (g h : Graph) : Prop :=
  ∃ held merged removed, IsHanded R config t paths gone held ∧ IsMerged config held g merged ∧
    sweep config held merged = .ok (h, removed)

/-- A build renews the graph from the files that it selects. -/
theorem wp_build (hbackend : s.graphBackend = "networkx")
    (hreadable : Reading.IsReadable outside s.repoPath) (hsaid : s.EnrichesAs outside R)
    (hselect : ∀ w', Notes w w' → (Reading.select (s.buildConfig mode project base)).wp
      (fun selected w'' => selected = (paths, gone) ∧ Notes w' w'') (fun _ _ => True) outside w')
    (hpaths : ∀ path ∈ paths, path ∈ w.disk.filesBelow w.cwd s.repoPath) :
    (s.build (s.buildConfig mode project base)).wp
      (fun _ w' => Renews R (s.buildConfig mode project base)
        (Source.checkout w.disk w.cwd s.repoPath) paths gone (Staging.graphAt s.stagingPath w)
        (Staging.graphAt s.stagingPath w'))
      (fun _ _ => True) outside w := by
  rw [build, Build.wp_bind]
  refine Build.wp_mono (Reading.wp_run hreadable hselect hpaths) (fun out w₁ hw₁ => ?_)
    fun _ _ h => h
  obtain ⟨stamp, revision, -, rfl, hw₁⟩ := hw₁
  have hcwd₁ := hw₁.alters.cwd_eq
  rw [Build.wp_bind]
  refine Build.wp_mono (hsaid _ _) (fun output w₂ hw₂ => ?_) fun _ _ _ => trivial
  obtain ⟨input, hinput, houtput, hw₂⟩ := hw₂
  have hcwd₂ := hw₂.alters.cwd_eq
  rw [hcwd₁] at hinput
  obtain rfl := Staging.eq_asRead_of_heldOutput Entity.ofJson_asRead hw₁.artifact hinput
  -- neither of the first two stages touches the graph
  have hgraph₂ : GraphStore.held (Staging.graphPath s.stagingPath) w₂ =
      Staging.graphAt s.stagingPath w := by
    have hreached : w₂.disk.IsReached w₂.cwd s.stagingPath := by
      rw [hcwd₂]
      exact Disk.isReached_of_join Populating.isName_enrich hw₂.reached
    exact (Staging.held_eq_graphAt hreached).trans ((Staging.graphAt_of_alters hw₂.alters
      (Staging.graphPath_not_mem _ _ _).1).trans
        (Staging.graphAt_of_alters hw₁.alters (Staging.graphPath_not_written _ _)))
  rw [populating, Populating.graphStore_of_file hbackend]
  refine Build.wp_mono (Populating.wp_run (Populating.graphPath_ne_empty _))
    (fun result w₃ hw₃ => ?_) fun _ _ _ => trivial
  obtain ⟨held, hheld, h, d, removed, disk, hcompletes, -, hsaves, hfills⟩ := hw₃
  rw [hcwd₂] at hheld
  obtain rfl := Staging.eq_asRead_of_heldOutput Enriched.ofJson_asRead hw₂.artifact hheld
  obtain ⟨merged, hm, hsweep⟩ := hcompletes.swept
  rw [hgraph₂] at hm
  have hgraph₃ : Staging.graphAt s.stagingPath w₃ = h := by
    obtain ⟨collections, client, events, rfl, -, -⟩ := hfills
    exact Staging.graphAt_of_saves rfl rfl hsaves
  rw [hgraph₃]
  exact ⟨_, merged, removed, ⟨stamp, revision, output, houtput, rfl⟩, hm, hsweep⟩

/-- An incremental build renews the graph from the targets of a diff that take part. -/
theorem renews_of_incremental (hbackend : s.graphBackend = "networkx")
    (hreadable : Reading.IsReadable outside s.repoPath) (hsaid : s.EnrichesAs outside R)
    {commit : Option String} {present : String} {ds : List Source.Difference}
    (hbase : Reading.IsBase outside (s.buildConfig Request.incremental project commit) w base)
    (hpresent : Revision.IsPresent outside s.repoPath present)
    (htells : Revision.Tells outside s.repoPath present base ds)
    (hdiff : IsDiff old (Source.checkout w.disk w.cwd s.repoPath) ds) {result : Population}
    (hrun : ((s.build (s.buildConfig Request.incremental project commit)).run outside
      w).1.toOption = some result) :
    Renews R (s.buildConfig Request.incremental project commit)
      (Source.checkout w.disk w.cwd s.repoPath) ((Source.targets ds).filter Source.isIncluded)
      (Source.removed ds) (Staging.graphAt s.stagingPath w)
      (Staging.graphAt s.stagingPath
        ((s.build (s.buildConfig Request.incremental project commit)).run outside w).2) := by
  have hselect (w' : World) (hw' : Notes w w') :
      (Reading.select (s.buildConfig Request.incremental project commit)).wp
        (fun selected w'' => selected =
          ((Source.targets ds).filter Source.isIncluded, Source.removed ds) ∧ Notes w' w'')
        (fun _ _ => True) outside w' :=
    Reading.wp_select_incremental (show Request.incremental ≠ Request.full by decide)
      (hbase.noted hw') hdiff.isField hpresent htells
  have hpaths : ∀ path ∈ (Source.targets ds).filter Source.isIncluded,
      path ∈ w.disk.filesBelow w.cwd s.repoPath := fun path hpath =>
    Source.mem_filesBelow (hdiff.exists_of_target path (List.mem_filter.1 hpath).1)
  exact Build.of_wp_of_toOption (wp_build hbackend hreadable hsaid hselect hpaths) hrun

/-- A full build renews the graph from all files that take part. -/
theorem renews_of_full (hbackend : s.graphBackend = "networkx")
    (hreadable : Reading.IsReadable outside s.repoPath) (hsaid : s.EnrichesAs outside R)
    {commit : Option String} {result : Population}
    (hrun : ((s.build (s.buildConfig Request.full project commit)).run outside
      w).1.toOption = some result) :
    Renews R (s.buildConfig Request.full project commit)
      (Source.checkout w.disk w.cwd s.repoPath) (Source.discover w.disk w.cwd s.repoPath) []
      (Staging.graphAt s.stagingPath w)
      (Staging.graphAt s.stagingPath
        ((s.build (s.buildConfig Request.full project commit)).run outside w).2) := by
  have hselect (w' : World) (hw' : Notes w w') :
      (Reading.select (s.buildConfig Request.full project commit)).wp
        (fun selected w'' => selected = (Source.discover w.disk w.cwd s.repoPath, []) ∧
          Notes w' w'')
        (fun _ _ => True) outside w' := by
    obtain ⟨events, rfl⟩ := hw'
    exact Reading.wp_select_full
      (show (s.buildConfig Request.full project commit).mode = Request.full from rfl)
  exact Build.of_wp_of_toOption (wp_build hbackend hreadable hsaid hselect fun path hpath =>
    (Source.mem_discover.1 hpath).1) hrun

/-! ### Nodes -/

/-- Renewing a graph incrementally leads from the nodes of one tree to those of another, if
something is found in every file that is read. -/
theorem Renews.mirrors (hrenews : Renews R config t paths gone g h)
    (hmode : config.mode = Request.incremental)
    (hcarries : ∀ held, IsHanded R config t paths gone held →
      Carries config.project Says t (parsed t paths) gone held)
    (hpath : ∀ e facts, Says e facts → facts "path" = some (.str e.path))
    (hcovers : Covers old t paths gone) (hfound : ∀ path ∈ paths, Source.findingsAt t path ≠ none)
    (hold : HasPlainNames old) (hnew : HasPlainNames t)
    (hprior : Mirrors config.project Says old g) : Mirrors config.project Says t h := by
  obtain ⟨held, merged, removed, hheld, hm, hsweep⟩ := hrenews
  have hcarries := hcarries held hheld
  rw [Handover.parsed_eq hfound] at hcarries
  refine hprior.among.mirrors ?_ hnew hpath ?_ hcovers.of_gone hcarries (.inl hmode) hm hsweep
  · rintro _ rfl
    exact hold
  · rintro _ rfl
    exact hcovers

/-- Renewing an empty graph from all files of a checkout that take part leads to its nodes. -/
theorem Renews.mirrors_discover {disk : Disk} {cwd : Place} {repo : String}
    (hrenews : Renews R config (Source.checkout disk cwd repo) (Source.discover disk cwd repo) []
      g h)
    (hmode : config.mode ≠ Request.incremental)
    (hcarries : ∀ held,
      IsHanded R config (Source.checkout disk cwd repo) (Source.discover disk cwd repo) [] held →
        Carries config.project Says (Source.checkout disk cwd repo)
          (parsed (Source.checkout disk cwd repo) (Source.discover disk cwd repo)) [] held)
    (hempty : ∀ id, g.nodeFacts ⟨config.project, id⟩ = none) :
    Mirrors config.project Says (Source.checkout disk cwd repo) h := by
  obtain ⟨held, merged, removed, hheld, hm, hsweep⟩ := hrenews
  refine Populating.mirrors_of_full (hcarries held hheld) (fun path id e he => ?_) hmode hempty hm
    hsweep
  obtain ⟨hincluded, hexists, found, hfound, -⟩ := Source.of_mem_entitiesAt he.mem
  rw [Handover.mem_parsed]
  exact ⟨Source.mem_discover.2 ⟨Source.mem_filesBelow hexists, hincluded⟩, by rw [hfound]; rfl⟩

/-- An incremental build leads from the nodes of the old tree to those of the checkout: by the
differences that version control tells, if something is found in every target that takes part. -/
theorem mirrors_of_incremental (hbackend : s.graphBackend = "networkx")
    (hreadable : Reading.IsReadable outside s.repoPath) (hsaid : s.Enriches outside said)
    {commit : Option String} {present : String} {ds : List Source.Difference}
    (hbase : Reading.IsBase outside (s.buildConfig Request.incremental project commit) w base)
    (hpresent : Revision.IsPresent outside s.repoPath present)
    (htells : Revision.Tells outside s.repoPath present base ds)
    (hdiff : IsDiff old (Source.checkout w.disk w.cwd s.repoPath) ds)
    (hfound : ∀ path ∈ Source.targets ds, Source.isIncluded path = true →
      Source.findingsAt (Source.checkout w.disk w.cwd s.repoPath) path ≠ none)
    (hold : HasPlainNames old) (hnew : HasPlainNames (Source.checkout w.disk w.cwd s.repoPath))
    (hprior : Mirrors project (fun e facts => facts = stored said project e) old
      (Staging.graphAt s.stagingPath w))
    {result : Population}
    (hrun : ((s.build (s.buildConfig Request.incremental project commit)).run outside
      w).1.toOption = some result) :
    Mirrors project (fun e facts => facts = stored said project e)
      (Source.checkout w.disk w.cwd s.repoPath)
      (Staging.graphAt s.stagingPath
        ((s.build (s.buildConfig Request.incremental project commit)).run outside w).2) := by
  have hcovers := hdiff.covers
  refine (renews_of_incremental hbackend hreadable hsaid.enrichesAs hbase hpresent htells hdiff
    hrun).mirrors rfl (fun held => Handover.carries_said hnew hcovers.included) ?_ hcovers
    (fun path hpath => hfound path (List.mem_filter.1 hpath).1 (List.mem_filter.1 hpath).2)
    hold hnew hprior
  rintro e facts rfl
  exact Handover.path_stored said project e

/-- A full build of an empty store ends with the nodes of the checkout. -/
theorem mirrors_of_full (hbackend : s.graphBackend = "networkx")
    (hreadable : Reading.IsReadable outside s.repoPath) (hsaid : s.Enriches outside said)
    {commit : Option String} (hplain : HasPlainNames (Source.checkout w.disk w.cwd s.repoPath))
    (hempty : ∀ id, (Staging.graphAt s.stagingPath w).nodeFacts ⟨project, id⟩ = none)
    {result : Population}
    (hrun : ((s.build (s.buildConfig Request.full project commit)).run outside
      w).1.toOption = some result) :
    Mirrors project (fun e facts => facts = stored said project e)
      (Source.checkout w.disk w.cwd s.repoPath)
      (Staging.graphAt s.stagingPath
        ((s.build (s.buildConfig Request.full project commit)).run outside w).2) :=
  (renews_of_full hbackend hreadable hsaid.enrichesAs hrun).mirrors_discover
    (show Request.full ≠ Request.incremental by decide)
    (fun held => Handover.carries_said hplain fun path hpath => (Source.mem_discover.1 hpath).2)
    hempty

/-! ### A document that was built

The document of `documentWorld` beside the graph that an earlier build of it has left. -/

open Populating (fileSettings)

theorem graphAt_documentWorld {text : String} :
    Staging.graphAt fileSettings.stagingPath (documentWorld text g) = g := by
  rw [Staging.graphAt]
  show (match (documentWorld text g).disk.fileAt [] (Staging.graphPath "s") with
    | some (.graph g) => g
    | _ => .empty) = g
  rw [fileAt_documentWorld]

/-- The graph that a full build of the document leaves in an empty store. -/
def builtGraph (text : String) : Graph :=
  Staging.graphAt "s" ((fileSettings.build (fileSettings.buildConfig Request.full "p" none)).run
    modifying (documentWorld text .empty)).2

theorem exists_full_documentWorld {text : String}
    (hshort : IsShort (fileSettings.buildConfig Request.full "p" none) (documentTree text) ["a.md"]
      [] modifyingSaid) :
    ∃ result, ((fileSettings.build (fileSettings.buildConfig Request.full "p" none)).run modifying
      (documentWorld text .empty)).1.toOption = some result :=
  Build.Succeeds.exists_answer (succeeds_documentWorld (.inl rfl) hshort)

theorem exists_incremental_documentWorld (g : Graph) :
    ∃ result, ((fileSettings.build
      (fileSettings.buildConfig Request.incremental "p" (some "r1"))).run modifying
        (documentWorld plainText g)).1.toOption = some result :=
  Build.Succeeds.exists_answer (succeeds_documentWorld
    (.inr ⟨show Request.incremental ≠ Request.full by decide, rfl⟩) isShort_plain)

/-! ### Incremental or anew -/

/-- After an incremental build by a diff, the nodes of a project and what they say are those that a
full build of the same files leaves in an empty store. -/
theorem nodeFacts_incremental_eq_full (s s' : Settings) (outside outside' : Outside) (w w' : World)
    (project present : String) (commit commit' base : Option String)
    (ds : List Source.Difference) (old : Tree) (said : Entity → Enrichment)
    (result result' : Population)
    (hbackend : s.graphBackend = "networkx") (hbackend' : s'.graphBackend = "networkx")
    (hreadable : Reading.IsReadable outside s.repoPath)
    (hreadable' : Reading.IsReadable outside' s'.repoPath)
    (hsaid : s.Enriches outside said) (hsaid' : s'.Enriches outside' said)
    (hbase : Reading.IsBase outside (s.buildConfig Request.incremental project commit) w base)
    (hpresent : Revision.IsPresent outside s.repoPath present)
    (htells : Revision.Tells outside s.repoPath present base ds)
    (hdiff : IsDiff old (Source.checkout w.disk w.cwd s.repoPath) ds)
    (hfound : ∀ path ∈ Source.targets ds, Source.isIncluded path = true →
      Source.findingsAt (Source.checkout w.disk w.cwd s.repoPath) path ≠ none)
    (hold : HasPlainNames old) (hnew : HasPlainNames (Source.checkout w.disk w.cwd s.repoPath))
    (hprior : Mirrors project (fun e facts => facts = stored said project e) old
      (Staging.graphAt s.stagingPath w))
    (hsame : Source.checkout w'.disk w'.cwd s'.repoPath = Source.checkout w.disk w.cwd s.repoPath)
    (hempty : ∀ id, (Staging.graphAt s'.stagingPath w').nodeFacts ⟨project, id⟩ = none)
    (hrun : ((s.build (s.buildConfig Request.incremental project commit)).run outside
      w).1.toOption = some result)
    (hrun' : ((s'.build (s'.buildConfig Request.full project commit')).run outside'
      w').1.toOption = some result') (id : String) :
    (Staging.graphAt s.stagingPath
        ((s.build (s.buildConfig Request.incremental project commit)).run outside w).2).nodeFacts
        ⟨project, id⟩ =
      (Staging.graphAt s'.stagingPath
        ((s'.build (s'.buildConfig Request.full project commit')).run outside' w').2).nodeFacts
        ⟨project, id⟩ := by
  have hincremental := mirrors_of_incremental hbackend hreadable hsaid hbase hpresent htells hdiff
    hfound hold hnew hprior hrun
  have hfull := mirrors_of_full hbackend' hreadable' hsaid' (hsame ▸ hnew) hempty hrun'
  rw [hsame] at hfull
  exact hincremental.nodeFacts_eq hnew hfull id

theorem nodeFacts_incremental_eq_full_documentWorld :
    ∃ result result',
      ((fileSettings.build (fileSettings.buildConfig Request.incremental "p" (some "r1"))).run
          modifying (documentWorld plainText (builtGraph linkedText))).1.toOption = some result ∧
      ((fileSettings.build (fileSettings.buildConfig Request.full "p" none)).run
          modifying (documentWorld plainText .empty)).1.toOption = some result' ∧
      ∀ id, (Staging.graphAt "s"
          ((fileSettings.build (fileSettings.buildConfig Request.incremental "p" (some "r1"))).run
            modifying (documentWorld plainText (builtGraph linkedText))).2).nodeFacts ⟨"p", id⟩ =
        (Staging.graphAt "s"
          ((fileSettings.build (fileSettings.buildConfig Request.full "p" none)).run
            modifying (documentWorld plainText .empty)).2).nodeFacts ⟨"p", id⟩ := by
  have hold := hasPlainNames_documentTree findingsAt_linked
  have hnew := hasPlainNames_documentTree findingsAt_plain
  have hsaid := enriches_of_isSteady fileSettings isSteady_modifying
  have hreadable : Reading.IsReadable modifying fileSettings.repoPath := fun _ _ => rfl
  have hempty (text id : String) : (Staging.graphAt fileSettings.stagingPath
      (documentWorld text .empty)).nodeFacts ⟨"p", id⟩ = none := by
    rw [graphAt_documentWorld]
    rfl
  -- the three builds end well: of the linked document, of what changed since, and anew
  obtain ⟨result₀, hrun₀⟩ := exists_full_documentWorld isShort_linked
  obtain ⟨result, hrun⟩ := exists_incremental_documentWorld (builtGraph linkedText)
  obtain ⟨result', hrun'⟩ := exists_full_documentWorld isShort_plain
  have hprior := mirrors_of_full (s := fileSettings) rfl hreadable hsaid
    (checkout_documentWorld ▸ hold) (hempty linkedText) hrun₀
  rw [checkout_documentWorld] at hprior
  refine ⟨result, result', hrun, hrun', fun id => ?_⟩
  refine nodeFacts_incremental_eq_full fileSettings fileSettings modifying modifying
    (documentWorld plainText (builtGraph linkedText)) (documentWorld plainText .empty) "p" "r2"
    (some "r1") none (some "r1") [.modified "a.md"] (documentTree linkedText) modifyingSaid result
    result' rfl rfl hreadable hreadable hsaid hsaid rfl isPresent_modifying tells_modifying ?_ ?_
    hold ?_ ?_ ?_ (hempty plainText) hrun hrun' id
  · rw [checkout_documentWorld]
    exact isDiff_documentTree linkedText plainText
  · rw [checkout_documentWorld]
    intro path hpath _
    rw [List.mem_singleton.1 hpath, findingsAt_plain]
    exact fun h => nomatch h
  · rw [checkout_documentWorld]
    exact hnew
  · rw [graphAt_documentWorld]
    exact hprior
  · rw [checkout_documentWorld, checkout_documentWorld]

end Settings

end RepoGraph
