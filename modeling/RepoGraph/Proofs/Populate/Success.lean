import RepoGraph.Proofs.Populate.Repair

/-!
# When filling the stores ends well

Where nothing is refused, the third stage ends well as soon as an output is staged, the graph's file
holds a graph or is not there, the collection has the size of the settings, the scope of the output
can be read in an incremental build, and the graph can be saved.  A run that ended well leaves all
of this to the next one, so the stage can be run again; and then nothing is stale and nothing
changes.

Main statements: `Populating.succeeds_run`, `Populating.rerun_of_run`.
-/

namespace RepoGraph

variable {outside : Outside} {w : World}

/-! ### The graph store -/

namespace GraphStore

variable {path : String}

/-- Whether the file of a store holds a graph, or is not there. -/
def CanOpen (path : String) (w : World) : Prop :=
  w.disk.doesExist w.cwd path = true → ∃ g, w.disk.read w.cwd path = .ok (.graph g)

theorem succeeds_openStore (hcalm : outside.IsCalm) (hpath : path ≠ "") (hopen : CanOpen path w) :
    (file (some path)).openStore.Succeeds outside w := by
  have hne : (path != "") = true := by simpa using hpath
  rw [Build.Succeeds]
  simp only [openStore, Build.wp_bind, Build.wp_askDisk, Build.wp_ite, hne, Bool.true_and,
    Build.wp_modify]
  split
  · rename_i hexists
    obtain ⟨g, hread⟩ := hopen hexists
    refine Build.wp_mono (Build.succeeds_readContent hcalm hread) (fun content w₁ hw₁ => ?_)
      fun _ _ => id
    rw [hw₁.1]
    exact trivial
  · exact trivial

theorem succeeds_upsertEntities (hcalm : outside.IsCalm) (file? : Option String) (project : String)
    (entities : List Enriched) :
    (upsertEntities (file file?) project entities).Succeeds outside w := by
  rw [Build.Succeeds]
  simp only [upsertEntities, Build.wp_bind, Build.wp_pure]
  refine Build.wp_forM (fun _ _ => True) (fun _ item _ _ w' _ => ?_) trivial
  simp only [mergeBatch, Build.wp_bind, Build.wp_stamp, Build.wp_modify, Build.wp_log]
  exact Build.succeeds_attempt hcalm _

theorem succeeds_upsertRelationships (hcalm : outside.IsCalm) (file? : Option String)
    (project : String) (relationships : List Relationship) :
    (upsertRelationships (file file?) project relationships).Succeeds outside w := by
  rw [Build.Succeeds]
  simp only [upsertRelationships, Build.wp_bind, Build.wp_pure]
  refine wp_knownOnly fun events => ?_
  simp only [mergeOpen, Build.wp_bind, Build.wp_stamp, Build.wp_get, Build.wp_set, Build.wp_pure]
  exact Build.succeeds_attempt hcalm _

theorem succeeds_prune (hcalm : outside.IsCalm) (file? : Option String) (project : String)
    (current : List String) (scope : Option (List String)) :
    (prune (file file?) project current scope).Succeeds outside w := by
  rw [Build.Succeeds]
  simp only [prune, Build.wp_bind, Build.wp_get, Build.wp_set, Build.wp_log, Build.wp_pure]
  exact Build.succeeds_attempt hcalm _

theorem succeeds_save (hcalm : outside.IsCalm) {disk : Disk}
    (hsaves : Saves path w.openGraph w.cwd w.disk disk) : (save path).Succeeds outside w := by
  obtain ⟨made, hmade, hwrite⟩ := hsaves
  rw [Build.Succeeds]
  simp only [save, Build.makeDirectories, Build.wp_bind, Build.wp_askDisk, Build.wp_get]
  refine Build.wp_mono (Build.succeeds_changeDisk hcalm _ hmade) (fun _ w₁ hw₁ => ?_) fun _ _ => id
  subst hw₁
  exact Build.wp_mono (Build.succeeds_changeDisk hcalm _ hwrite) (fun _ _ _ => trivial)
    fun _ _ => id

end GraphStore

/-! ### The vector store -/

namespace VectorStore

variable {v : VectorStore}

theorem leaves_self {c : Collection} (hc : w.collections.get? v.collection = some c) :
    v.Leaves c w w := ⟨_, _, _, rfl, hc, fun _ _ => rfl⟩

theorem Leaves.get?_eq {c : Collection} {w' : World} (h : v.Leaves c w w') :
    w'.collections.get? v.collection = some c := by
  obtain ⟨collections, client, events, rfl, hc, -⟩ := h
  exact hc

theorem succeeds_connect (hcalm : outside.IsCalm) : v.connect.Succeeds outside w := by
  rw [Build.Succeeds]
  simp only [connect, Build.wp_bind, Build.wp_get, Build.wp_ite, Build.wp_modify, Build.wp_pure]
  split
  · exact Build.succeeds_attempt hcalm _
  · exact trivial

theorem succeeds_ensure (hcalm : outside.IsCalm) (hsize : (v.prior w).size = v.size) :
    v.ensure.Succeeds outside w := by
  rw [Build.Succeeds]
  rw [ensure, Build.wp_bind]
  refine Build.wp_mono ((succeeds_connect hcalm).wp wp_connect) (fun _ w₁ hw₁ => ?_) fun _ _ => id
  obtain ⟨⟨client, events, rfl⟩, -⟩ := hw₁
  simp only [Build.wp_bind, Build.wp_get]
  cases hc : w.collections.get? v.collection with
  | none =>
    simp only [Build.wp_bind, Build.wp_modify, Build.wp_log]
    exact Build.succeeds_attempt hcalm _
  | some c =>
    rw [prior, hc] at hsize
    have heq : (c.size != v.size) = false := by simpa using hsize
    simp only [heq, Bool.false_eq_true, if_false, Build.wp_pure]

/-- Putting points ends well: it fails only where a client or a batch is refused. -/
theorem succeeds_upsertEntities (hcalm : outside.IsCalm) {c : Collection}
    (hc : w.collections.get? v.collection = some c) (entities : List Enriched) :
    (v.upsertEntities entities).Succeeds outside w := by
  rw [Build.Succeeds]
  rw [upsertEntities, Build.wp_bind]
  refine wp_pointsOf fun events => ?_
  rw [Build.wp_ite]
  split
  · exact trivial
  · rw [Build.wp_bind]
    refine Build.wp_mono ((succeeds_connect hcalm).wp wp_connect) (fun _ w₁ hw₁ => ?_) fun _ _ => id
    obtain ⟨⟨client, events₁, rfl⟩, -⟩ := hw₁
    rw [Build.wp_bind]
    refine Build.wp_mono (Build.wp_forM
      (fun before w₂ => v.Leaves (c.putAll (before.flatMap Prod.fst)) w w₂)
      (fun before item after _ w₂ hw₂ => ?_) ⟨_, _, _, rfl, hc, fun _ _ => rfl⟩)
      (fun _ _ _ => trivial) fun _ _ => id
    rw [Build.wp_bind]
    refine Build.wp_mono (wp_change hw₂ _ _) (fun _ w₃ hw₃ => ?_) fun _ w₃ hw₃ => ?_
    · rw [Build.wp_log, List.flatMap_append, Collection.putAll_append, List.flatMap_singleton]
      exact hw₃.noted _
    · obtain ⟨-, past, reason, hreason⟩ := hw₃
      rw [hcalm] at hreason
      cases hreason

theorem not_refusesDelete (hcalm : outside.IsCalm) : ¬ v.RefusesDelete outside := by
  rintro ⟨past, ids, reason, hreason⟩
  rw [hcalm] at hreason
  cases hreason

end VectorStore

/-! ### The staging area -/

/-- An output that is held is read. -/
theorem Staging.succeeds_read (hcalm : outside.IsCalm) {staging stage : String}
    (hheld : (Staging.held staging stage w.disk w.cwd).isSome = true) :
    (Staging.read staging stage).Succeeds outside w := by
  obtain ⟨object, hobject⟩ := Option.isSome_iff_exists.1 hheld
  have hrun := Staging.run_read hobject (hcalm _ _)
  exact Build.wp_mono (Build.wp_of_answer hrun (Build.wp_true _))
    (fun _ _ _ => trivial) fun _ _ h => h

namespace Populating

variable {v : VectorStore} {config : BuildConfig} {output : EnrichOutput} {file? : Option String}

/-! ### The stage -/

/-- Whether the scope of an output can be read, if it is asked for. -/
def HasScope (config : BuildConfig) (output : EnrichOutput) : Prop :=
  config.mode = Request.incremental → ∃ paths, scope output.metadata = .ok paths

theorem succeeds_prune (hcalm : outside.IsCalm) (hscope : HasScope config output) {c : Collection}
    (hc : w.collections.get? v.collection = some c) (hclient : v.HasClient w) :
    (prune (.file file?) v config output).Succeeds outside w := by
  rw [Build.Succeeds]
  rw [prune, Build.wp_ite]
  split
  · rename_i hmode
    obtain ⟨paths, hpaths⟩ := hscope (eq_of_beq hmode)
    rw [hpaths, Build.wp_bind]
    show Build.wp (pure paths) _ _ _ _
    rw [Build.wp_pure, Build.wp_bind]
    refine Build.wp_mono ((GraphStore.succeeds_prune hcalm file? _ _ paths).wp
      (GraphStore.wp_prune rfl file? _ paths)) (fun gone w₁ hw₁ => ?_) fun _ _ => id
    obtain ⟨-, events, rfl⟩ := hw₁
    simp only [Build.wp_ite, Build.wp_bind, Build.wp_pure]
    split
    · refine Build.wp_mono
        (VectorStore.wp_deleteEntities (c := c) (VectorStore.leaves_self ?_) ?_ gone)
        (fun _ _ _ => trivial) fun _ _ hw₂ => VectorStore.not_refusesDelete hcalm hw₂.1
      · exact hc
      · exact hclient
    · exact trivial
  · exact trivial

/-- Filling the stores ends well where nothing is refused. -/
theorem succeeds_fill (hcalm : outside.IsCalm) (hscope : HasScope config output)
    (hsize : (v.prior w).size = v.size) :
    (fill (.file file?) v config output).Succeeds outside w := by
  rw [Build.Succeeds]
  simp only [fill, GraphStore.prepare, Build.wp_bind, Build.wp_pure]
  refine Build.wp_mono ((VectorStore.succeeds_ensure hcalm hsize).wp VectorStore.wp_ensure)
    (fun _ w₁ hw₁ => ?_) fun _ _ => id
  obtain ⟨hw₁, -, hclient⟩ := hw₁
  have hfills₁ : Fills v w.openGraph (v.prior w) w w₁ := hw₁
  refine Build.wp_mono ((GraphStore.succeeds_upsertEntities hcalm file? _ _).wp
    (GraphStore.wp_upsertEntities hfills₁.openGraph_eq file? output.entities))
    (fun _ w₂ hw₂ => ?_) fun _ _ => id
  obtain ⟨h, hm, hw₂⟩ := hw₂
  have hfills₂ := hfills₁.opens hw₂
  refine Build.wp_mono ((GraphStore.succeeds_upsertRelationships hcalm file? _ _).wp
    (GraphStore.wp_upsertRelationships hfills₂.openGraph_eq file? output.relationships))
    (fun _ w₃ hw₃ => ?_) fun _ _ => id
  obtain ⟨stamp, hw₃⟩ := hw₃
  have hmerged : IsMerged config output w.openGraph _ := ⟨h, stamp, hm, rfl⟩
  have hfills₃ := hfills₂.opens hw₃
  have hc₃ : w₃.collections.get? v.collection = some (v.prior w) := hfills₃.get?_eq
  have hclient₃ := (hclient.opens hw₂).opens hw₃
  refine Build.wp_mono ((succeeds_prune hcalm hscope hc₃ hclient₃).wp
    (wp_prune hmerged hfills₃ rfl hclient₃)) (fun n w₄ hw₄ => ?_) fun _ _ => id
  obtain ⟨h', gone, hsweep, -, hfills₄⟩ := hw₄
  exact VectorStore.succeeds_upsertEntities hcalm hfills₄.get?_eq output.entities

/-- The stage ends well where nothing is refused. -/
theorem succeeds_run {path : String} (hpath : path ≠ "") (hcalm : outside.IsCalm)
    (hread : Staging.heldOutput Enriched.ofJson config.stagingPath "enrich" w.disk w.cwd =
      some output) (hscope : HasScope config output) (hopen : GraphStore.CanOpen path w)
    (hsize : (v.prior w).size = v.size)
    (hsaves : ∀ h, ∃ disk, GraphStore.Saves path h w.cwd w.disk disk) :
    (run (.ok (.file (some path))) v config).Succeeds outside w := by
  rw [Build.Succeeds]
  rw [Staging.heldOutput] at hread
  obtain ⟨object, hobject, houtput⟩ := Option.bind_eq_some_iff.1 hread
  simp only [run, Build.wp_bind, Build.wp_log, Build.wp_now]
  refine Build.wp_mono (Build.Succeeds.wp (Staging.succeeds_read hcalm ?_) (Staging.wp_read _ _))
    (fun staged w₁ hw₁ => ?_) fun _ _ => id
  · exact Option.isSome_iff_exists.2 ⟨object, hobject⟩
  obtain ⟨hstaged, events₁, rfl⟩ := hw₁
  obtain rfl : object = staged := Option.some.inj (hobject.symm.trans hstaged)
  rw [Build.wp_take]
  refine ⟨fun output' houtput' => ?_, fun fault hfault => ?_⟩
  · have heq : output' = output := by
      rw [show Output.ofJson Enriched.ofJson object = .ok output' from houtput'] at houtput
      exact Option.some.inj houtput
    subst heq
    rw [Build.wp_take]
    refine ⟨fun store hstore => ?_, fun e he => by cases he⟩
    cases hstore
    refine Build.wp_mono (Build.Succeeds.wp (GraphStore.succeeds_openStore hcalm hpath ?_)
      (GraphStore.wp_openStore hpath)) (fun _ w₂ hw₂ => ?_) fun _ _ => id
    · exact hopen
    obtain ⟨events₂, rfl⟩ := hw₂
    refine Build.wp_mono VectorStore.wp_openStore (fun _ w₂ hw₂ => ?_) fun _ _ => id
    obtain ⟨client₂, rfl⟩ := hw₂
    rw [Build.wp_ensuring]
    refine Build.wp_mono (Build.Succeeds.wp (succeeds_fill hcalm hscope ?_) wp_fill)
      (fun result w₃ hw₃ => ?_) fun _ _ => False.elim
    · exact hsize
    obtain ⟨h, d, gone, -, rfl, collections, client, events₃, rfl, -⟩ := hw₃
    rw [Build.wp_bind, GraphStore.close_file hpath]
    -- closing saves the graph, for which there is room
    obtain ⟨disk, hdisk⟩ := hsaves h
    refine Build.wp_mono (GraphStore.succeeds_save hcalm hdisk) (fun _ w₄ _ => ?_) fun _ _ => id
    exact Build.wp_mono VectorStore.wp_close (fun _ _ _ => trivial) fun _ _ => id
  · rw [show Output.ofJson Enriched.ofJson object = .error fault from hfault] at houtput
    cases houtput

/-! ### Running the stage again -/

variable {g h again : Graph} {c d e : Collection} {gone gone' : List String}

/-- What a run has swept away is not stale any more, and nothing else has become stale. -/
theorem Completes.gone_eq_nil (hc : Completes v config output g c h d gone)
    (hagain : Completes v config output h d again e gone') : gone' = [] := by
  obtain ⟨merged, hm, hsweep⟩ := hc.swept
  refine List.eq_nil_iff_forall_not_mem.2 fun id hid => ?_
  have hstale := (hagain.effect.mem_gone_iff id).1 hid
  obtain ⟨hstale, hthere⟩ := ((halfway_of_sweep hm hsweep).isStale_iff id).1 hstale
  refine hthere ?_
  rw [nodeFacts_of_sweep hm hsweep, if_pos ((mem_gone_of_sweep hm hsweep id).2 hstale)]

/-- The second of two runs leaves the points of the first one. -/
theorem Completes.find?_again (hc : Completes v config output g c h d gone)
    (hagain : Completes v config output h d again e gone') (number : Nat) :
    e.find? number = d.find? number := by
  rw [hagain.effect.find?_eq, hc.gone_eq_nil hagain]
  cases hlast : Enriched.lastNumbered? v.size output.entities number with
  | some x => rw [hc.effect.find?_eq, hlast]
  | none => rfl

/-- An output whose scope was swept has a scope. -/
theorem Completes.hasScope (hc : Completes v config output g c h d gone) :
    HasScope config output := by
  intro hmode
  obtain ⟨merged, -, hsweep⟩ := hc.swept
  rw [sweep, hmode, beq_self_eq_true, if_pos rfl] at hsweep
  cases hscope : scope output.metadata with
  | ok paths => exact ⟨paths, rfl⟩
  | error fault =>
    rw [hscope] at hsweep
    cases hsweep

/-- Where nothing is refused, the stage ends well on what a run of it has left. -/
theorem Ended.succeeds_again {staging : String} {w' : World} {result : Population}
    (hcalm : outside.IsCalm)
    (he : Ended (Staging.graphPath staging) v config result w w' output) :
    (run (.ok (.file (some (Staging.graphPath staging)))) v config).Succeeds outside w' := by
  have hleft : Left staging v config output outside w w' := he.left
  have hread' := hleft.heldOutput
  obtain ⟨hread, h, d, gone, disk, hcompletes, -, hsaves, hfills⟩ := he
  have hprior : v.prior w' = d := by
    rw [VectorStore.prior, hfills.get?_eq]
    rfl
  obtain ⟨collections, client, events, rfl, -, -⟩ := hfills
  refine succeeds_run (graphPath_ne_empty _) hcalm hread' hcompletes.hasScope (fun _ => ?_) ?_
    fun other => hsaves.again other
  · obtain ⟨made, -, hwrite⟩ := hsaves
    exact ⟨h, Disk.read_write hwrite⟩
  · rw [hprior]
    exact hcompletes.size_collection

/-- The third stage is run and ends well, and is run again on what it has left.  The second run ends
well where nothing is refused; and whenever it ends well, it reports the same numbers of entities,
relationships and points and no node that is gone, and leaves the project's nodes, edges and points
as they are. -/
theorem rerun_of_run (s : Settings) (hbackend : s.graphBackend = "networkx") (config : BuildConfig)
    (first second : Outside) (w : World) (result : Population)
    (hrun : ((s.populating config).run first w).1.toOption = some result) :
    let once := ((s.populating config).run first w).2
    let again := ((s.populating config).run second once).2
    (second.IsCalm → ∃ result',
        ((s.populating config).run second once).1.toOption = some result') ∧
      ∀ result', ((s.populating config).run second once).1.toOption = some result' →
        result' = { result with pruned := 0 } ∧
          SameGraph s.stagingPath config.project again once ∧
            SamePoints (s.vectorStore config.project) again once := by
  intro once again
  obtain ⟨output, hended⟩ := exists_ended_of_run hbackend hrun
  have hleft : Left s.stagingPath (s.vectorStore config.project) config output first w once :=
    hended.left
  refine ⟨fun hcalm => ?_, fun result' hrun' => ?_⟩
  · rw [Settings.populating, graphStore_of_file hbackend]
    exact (hended.succeeds_again hcalm).exists_answer
  · obtain ⟨gone, d, hcompletes, rfl, hd, -⟩ := hended.stores
    obtain ⟨gone', d', hcompletes', rfl, hd', -⟩ :=
      (ended_of_run hbackend hleft.heldOutput hrun').stores
    rw [VectorStore.prior, hd] at hcompletes'
    obtain ⟨merged, hm, hsweep⟩ := hcompletes.swept
    -- what the first run has left is halfway to what it led to, so running again leads there
    have hhalfway := halfway_of_sweep hm hsweep
    refine ⟨?_, ⟨hhalfway.nodeFacts_eq hcompletes'.effect hcompletes.effect,
      hhalfway.edgeFacts_eq hcompletes'.effect hcompletes.effect⟩, fun number => ?_⟩
    · rw [hcompletes.gone_eq_nil hcompletes']
      rfl
    · rw [VectorStore.prior, hd', VectorStore.prior, hd]
      exact hcompletes.find?_again hcompletes' number

theorem rerun_of_run_functionWorld :
    (functionStage.run quiet functionWorld).1.toOption = some ⟨0, 0, 0, 1⟩ ∧
      let once := (functionStage.run quiet functionWorld).2
      let again := (functionStage.run quiet once).2
      (functionStage.run quiet once).1.toOption = some ⟨0, 0, 0, 0⟩ ∧
        SameGraph "s" "p" again once ∧ SamePoints (fileSettings.vectorStore "p") again once := by
  obtain ⟨hends, hsame⟩ := rerun_of_run fileSettings rfl incrementalConfig quiet quiet functionWorld
    _ run_functionWorld
  obtain ⟨result, hresult⟩ := hends fun _ _ => rfl
  obtain ⟨rfl, hgraph, hpoints⟩ := hsame result hresult
  exact ⟨run_functionWorld, hresult, hgraph, hpoints⟩

end Populating

end RepoGraph
