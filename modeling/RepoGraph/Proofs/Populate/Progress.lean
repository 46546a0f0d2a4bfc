import RepoGraph.Build.Populating
import RepoGraph.Proofs.Graph.Store
import RepoGraph.Proofs.Staging
import RepoGraph.Proofs.Vector.Points

/-!
# How far the stores are filled

The third stage merges entities, merges relationships, removes what is stale and puts points, in
this order.  `Populating.Reaches` lists the pairs of a graph and a collection that it may be at when
something stops it, and `Populating.Completes` those it ends with.  The graph is saved in any case,
unless the saving itself fails.

Main statements: `Populating.wp_fill`, `Populating.wp_run`.
-/

namespace RepoGraph

theorem VectorStore.HasClient.opens {v : VectorStore} {w w' : World} {h : Graph}
    (hw : v.HasClient w) (hw' : GraphStore.Opens h w w') : v.HasClient w' := by
  obtain ⟨events, rfl⟩ := hw'
  exact hw

namespace Populating

/-! ### What is looked at -/

/-- What the metadata of an output tell under a name, null if nothing. -/
def told (metadata : Fields) (name : String) : Json := (metadata.get? name).getD .null

/-- Whether a value lists a path. -/
def Lists (value : Json) (path : String) : Prop := ∃ paths, pathsOf value = .ok paths ∧ path ∈ paths

/-- Whether a node is one of a file that was read again or is gone; where neither is told, every
node is. -/
def IsTouched (metadata : Fields) (node : Facts) : Prop :=
  told metadata "parsedFiles" = .null ∧ told metadata "deletedFiles" = .null ∨
    ∃ path, node "path" = some (.str path) ∧
      (Lists (told metadata "parsedFiles") path ∨ Lists (told metadata "deletedFiles") path)

/-- The scope of an output is made of the nodes it touches. -/
theorem isInScope_iff_isTouched {metadata : Fields} {paths : Option (List String)}
    (h : scope metadata = .ok paths) (node : Facts) :
    Graph.IsInScope paths node ↔ IsTouched metadata node := by
  have hread : (metadata.get? "parsedFiles").getD .null = told metadata "parsedFiles" := rfl
  have hgone : (metadata.get? "deletedFiles").getD .null = told metadata "deletedFiles" := rfl
  simp only [scope, hread, hgone] at h
  unfold IsTouched
  generalize told metadata "parsedFiles" = read at h ⊢
  generalize told metadata "deletedFiles" = gone at h ⊢
  by_cases hnull : read = .null ∧ gone = .null
  · obtain ⟨rfl, rfl⟩ := hnull
    cases h
    simp [Graph.IsInScope]
  · -- one of the lists is told, so both were read as lists of paths
    have hsome : ∃ a b, pathsOf read = .ok a ∧ pathsOf gone = .ok b ∧
        paths = some (Text.distinct (a ++ b)) := by
      split at h
      · exact absurd ⟨rfl, rfl⟩ hnull
      · simp only [bind, Except.bind] at h
        split at h
        · cases h
        · rename_i a ha
          split at h
          · cases h
          · rename_i b hb
            cases h
            exact ⟨a, b, ha, hb, rfl⟩
    obtain ⟨a, b, ha, hb, rfl⟩ := hsome
    have hlists (path : String) : path ∈ Text.distinct (a ++ b) ↔
        Lists read path ∨ Lists gone path := by
      simp [Text.mem_distinct, Lists, ha, hb]
    simp only [Graph.IsInScope, Option.some.injEq, forall_eq', hnull, false_or, hlists]
    exact exists_congr fun path => and_comm

/-! ### Stages of filling -/

/-- The ids of the entities of an output. -/
def currentIds (output : EnrichOutput) : List String := output.entities.map Enriched.id

/-- A graph after what is stale was removed, and the ids that are gone: in an incremental build the
stale nodes in scope, otherwise none. -/
def sweep (config : BuildConfig) (output : EnrichOutput) (g : Graph) :
    Except RecordFault (Graph × List String) :=
  if config.mode == Request.incremental then
    (scope output.metadata).map fun paths => g.prune config.project (currentIds output) paths
  else .ok (g, [])

/-- The graph with all entities and relationships of an output. -/
def IsMerged (config : BuildConfig) (output : EnrichOutput) (g merged : Graph) : Prop :=
  ∃ h stamp, Graph.Merges config.project g output.entities h ∧
    merged = (h.mergeRelationships stamp config.project (GraphStore.knownOf output.relationships)).1

/-- The graph and the collection that filling the stores may be at when it is stopped, from a graph
and a collection.  Points of what is gone are left over only if a deletion is refused. -/
inductive Reaches (v : VectorStore) (config : BuildConfig) (output : EnrichOutput)
    (outside : Outside) (g : Graph) (c : Collection) : Graph → Collection → Prop where
  /-- Some of the entities are merged. -/
  | entities {merged : List Enriched} {h : Graph} (hpart : merged <+: output.entities)
      (hm : Graph.Merges config.project g merged h) : Reaches v config output outside g c h c
  /-- Entities and relationships are merged. -/
  | relationships {h : Graph} (hm : IsMerged config output g h) :
      Reaches v config output outside g c h c
  /-- What is stale is removed, and some of its points are deleted. -/
  | stale {merged h : Graph} {gone : List String} {numbers : List Nat}
      (hm : IsMerged config output g merged) (hsweep : sweep config output merged = .ok (h, gone))
      (hpart : numbers <+: VectorStore.pointIds gone) (hrefused : v.RefusesDelete outside) :
      Reaches v config output outside g c h (c.delete numbers)
  /-- What is stale is deleted, and some of the points are put. -/
  | points {merged h : Graph} {gone : List String} {put : List Point}
      (hm : IsMerged config output g merged) (hsweep : sweep config output merged = .ok (h, gone))
      (hpart : put <+: Point.ofEntities v.size output.entities) :
      Reaches v config output outside g c h ((c.delete (VectorStore.pointIds gone)).putAll put)

/-- The graph and the collection that filling the stores ends with, and the ids that are gone. -/
structure Completes (v : VectorStore) (config : BuildConfig) (output : EnrichOutput) (g : Graph)
    (c : Collection) (h : Graph) (d : Collection) (gone : List String) : Prop where
  size_eq : c.size = v.size
  swept : ∃ merged, IsMerged config output g merged ∧ sweep config output merged = .ok (h, gone)
  collection_eq : d = (c.delete (VectorStore.pointIds gone)).putAll
    (Point.ofEntities v.size output.entities)

/-! ### Following the stage -/

variable {outside : Outside} {v : VectorStore} {config : BuildConfig} {output : EnrichOutput}
  {w : World} {file? : Option String}

/-- A world is another one except for the open graph `h`, the project's collection `c`, the client
and what was done. -/
abbrev Fills (v : VectorStore) (h : Graph) (c : Collection) (w w' : World) : Prop :=
  v.Leaves c { w with openGraph := h } w'

theorem Fills.opens {w' w'' : World} {h h' : Graph} {c : Collection} (hw : Fills v h c w w')
    (hw' : GraphStore.Opens h' w' w'') : Fills v h' c w w'' := by
  obtain ⟨collections, client, events, rfl, hc, hother⟩ := hw
  obtain ⟨events', rfl⟩ := hw'
  exact ⟨collections, client, events', rfl, hc, hother⟩

theorem Fills.openGraph_eq {w' : World} {h : Graph} {c : Collection} (hw : Fills v h c w w') :
    w'.openGraph = h := by
  obtain ⟨collections, client, events, rfl, -, -⟩ := hw
  rfl

/-- What filling the stores may leave when it is stopped. -/
def Stops (v : VectorStore) (config : BuildConfig) (output : EnrichOutput) (outside : Outside)
    (w w' : World) : Prop :=
  ∃ h d, Reaches v config output outside w.openGraph (v.prior w) h d ∧
    v.Ends d { w with openGraph := h } w'

/-- Removing what is stale. -/
theorem wp_prune {merged : Graph} {c : Collection} {w' : World}
    (hm : IsMerged config output w.openGraph merged) (hw : Fills v merged c w w')
    (hc : c = v.prior w) (hclient : v.HasClient w') :
    (prune (.file file?) v config output).wp
      (fun n w'' => ∃ h gone, sweep config output merged = .ok (h, gone) ∧ n = gone.length ∧
        Fills v h (c.delete (VectorStore.pointIds gone)) w w'')
      (fun _ w'' => Stops v config output outside w w'') outside w' := by
  subst hc
  rw [prune, Build.wp_ite]
  split
  · rename_i hmode
    rw [Build.wp_bind, Build.wp_take]
    refine ⟨fun paths hpaths => ?_, fun _ _ => ⟨merged, _, .relationships hm, hw.ends⟩⟩
    rw [Build.wp_bind]
    refine Build.wp_mono (GraphStore.wp_prune hw.openGraph_eq file? _ paths) (fun gone w₁ hw₁ => ?_)
      fun _ w₁ hw₁ => ⟨merged, _, .relationships hm, (hw.opens hw₁).ends⟩
    obtain ⟨hgone, hw₁⟩ := hw₁
    have hsweep : sweep config output merged =
        .ok ((merged.prune config.project (currentIds output) paths).1, gone) := by
      rw [sweep, if_pos hmode, hpaths, hgone]
      rfl
    have hfills := hw.opens hw₁
    simp only [Build.wp_ite, Build.wp_bind, Build.wp_pure]
    split
    · refine Build.wp_mono (VectorStore.wp_deleteEntities hfills (hclient.opens hw₁) gone)
        (fun _ w₂ hw₂ => ?_) fun _ w₂ hw₂ => ?_
      · exact ⟨_, gone, hsweep, rfl, hw₂⟩
      · obtain ⟨hrefused, numbers, hpart, hw₂⟩ := hw₂
        exact ⟨_, _, .stale hm hsweep hpart hrefused, hw₂.ends⟩
    · -- nothing is removed, and no deletion is asked for
      rename_i hempty
      have hnil : gone = [] := by simpa using hempty
      refine ⟨_, gone, hsweep, rfl, ?_⟩
      subst hnil
      rw [VectorStore.pointIds_nil, Collection.delete_nil]
      exact hfills
  · rename_i hmode
    refine ⟨merged, [], ?_, rfl, ?_⟩
    · rw [sweep, if_neg hmode]
    · rw [VectorStore.pointIds_nil, Collection.delete_nil]
      exact hw

/-- Filling the stores ends with everything merged, removed and put, or stops on the way. -/
theorem wp_fill :
    (fill (.file file?) v config output).wp
      (fun result w' => ∃ h d gone,
        Completes v config output w.openGraph (v.prior w) h d gone ∧
          result = (gone.length, (Point.ofEntities v.size output.entities).length) ∧
          Fills v h d w w')
      (fun _ w' => Stops v config output outside w w') outside w := by
  -- step after step: the collection, the entities, the relationships, what is stale, the points;
  -- a step that fails leaves what the steps before it have done
  simp only [fill, GraphStore.prepare, Build.wp_bind, Build.wp_pure]
  refine Build.wp_mono VectorStore.wp_ensure (fun _ w₁ hw₁ => ?_) fun _ w₁ hw₁ =>
    ⟨w.openGraph, _, .entities List.nil_prefix .nil, hw₁.ends⟩
  obtain ⟨hw₁, hsize, hclient⟩ := hw₁
  have hfills₁ : Fills v w.openGraph (v.prior w) w w₁ := hw₁
  refine Build.wp_mono (GraphStore.wp_upsertEntities hfills₁.openGraph_eq file? output.entities)
    (fun _ w₂ hw₂ => ?_) fun _ w₂ hw₂ => ?_
  · obtain ⟨h, hm, hw₂⟩ := hw₂
    have hfills₂ := hfills₁.opens hw₂
    refine Build.wp_mono
      (GraphStore.wp_upsertRelationships hfills₂.openGraph_eq file? output.relationships)
      (fun _ w₃ hw₃ => ?_) fun _ w₃ hw₃ => ?_
    · obtain ⟨stamp, hw₃⟩ := hw₃
      have hmerged : IsMerged config output w.openGraph _ := ⟨h, stamp, hm, rfl⟩
      have hfills₃ := hfills₂.opens hw₃
      refine Build.wp_mono (wp_prune hmerged hfills₃ rfl ((hclient.opens hw₂).opens hw₃))
        (fun n w₄ hw₄ => ?_) fun _ _ hstops => hstops
      obtain ⟨h', gone, hsweep, rfl, hfills₄⟩ := hw₄
      refine Build.wp_mono (VectorStore.wp_upsertEntities hfills₄ output.entities)
        (fun points w₅ hw₅ => ?_) fun _ w₅ hw₅ => ?_
      · obtain ⟨rfl, hfills₅⟩ := hw₅
        exact ⟨h', _, gone, ⟨hsize, ⟨_, hmerged, hsweep⟩, rfl⟩, rfl, hfills₅⟩
      · obtain ⟨put, hpart, hfills₅⟩ := hw₅
        exact ⟨h', _, .points hmerged hsweep hpart, hfills₅.ends⟩
    · exact ⟨h, _, .entities (List.prefix_refl _) hm, (hfills₂.opens hw₃).ends⟩
  · obtain ⟨merged, h, hpart, hm, hw₂⟩ := hw₂
    exact ⟨h, _, .entities hpart hm, (hfills₁.opens hw₂).ends⟩

theorem Completes.reaches {g h : Graph} {c d : Collection} {gone : List String}
    (hc : Completes v config output g c h d gone) : Reaches v config output outside g c h d := by
  obtain ⟨merged, hm, hsweep⟩ := hc.swept
  rw [hc.collection_eq]
  exact .points hm hsweep (List.prefix_refl _)

/-! ### The whole stage -/

/-- What the stage leaves when it ends well, with the output it has read. -/
structure Ended (path : String) (v : VectorStore) (config : BuildConfig) (result : Population)
    (w w' : World) (output : EnrichOutput) : Prop where
  read : Staging.heldOutput Enriched.ofJson config.stagingPath "enrich" w.disk w.cwd = some output
  filled : ∃ h d gone disk,
    Completes v config output (GraphStore.held path w) (v.prior w) h d gone ∧
      result = ⟨output.entities.length, output.relationships.length,
        (Point.ofEntities v.size output.entities).length, gone.length⟩ ∧
      GraphStore.Saves path h w.cwd w.disk disk ∧ Fills v h d { w with disk } w'

/-- What the stage leaves when it fails: the stores as they were, or a graph and a collection that
are reached.  The graph is saved, or at most some directories are new on the disk. -/
def Failed (path : String) (v : VectorStore) (config : BuildConfig) (outside : Outside)
    (w w' : World) : Prop :=
  ∃ g disk d, v.Ends d { w with openGraph := g, disk } w' ∧
    (d = v.prior w ∧ disk = w.disk ∨
      ∃ output h,
        Staging.heldOutput Enriched.ofJson config.stagingPath "enrich" w.disk w.cwd = some output ∧
          Reaches v config output outside (GraphStore.held path w) (v.prior w) h d ∧
          (GraphStore.Saves path h w.cwd w.disk disk ∨ w.disk.Expands disk))

theorem failed_of_notes {path : String} {w' : World} (h : Staging.Notes w w') :
    Failed path v config outside w w' := by
  obtain ⟨events, rfl⟩ := h
  exact ⟨w.openGraph, w.disk, v.prior w, ⟨_, _, _, rfl, rfl, fun _ _ => rfl⟩, .inl ⟨rfl, rfl⟩⟩

/-- Closing the stores saves the graph, or adds at most some directories. -/
theorem wp_closing {path : String} (hpath : path ≠ "") :
    (do (GraphStore.file (some path)).close; v.close : Build Unit).wp
      (fun _ w' => ∃ disk, GraphStore.Saves path w.openGraph w.cwd w.disk disk ∧
        VectorStore.LeavesAll { w with disk } w')
      (fun _ w' => ∃ disk, w.disk.Expands disk ∧ VectorStore.LeavesAll { w with disk } w')
      outside w := by
  rw [GraphStore.close_file hpath, Build.wp_bind]
  refine Build.wp_mono GraphStore.wp_save (fun _ w₁ hw₁ => ?_) fun _ w₁ hw₁ => ?_
  · obtain ⟨disk, events, hsaves, rfl⟩ := hw₁
    refine Build.wp_mono VectorStore.wp_close (fun _ w₂ hw₂ => ⟨disk, hsaves, ?_⟩)
      fun _ _ h => h
    obtain ⟨client, events', rfl⟩ := hw₂
    exact ⟨client, events', rfl⟩
  · obtain ⟨disk, events, hdisk, rfl⟩ := hw₁
    exact ⟨disk, hdisk, _, _, rfl⟩

/-- The stage, with the graph in a file, ends with the stores filled, or fails on the way. -/
theorem wp_run {path : String} (hpath : path ≠ "") :
    (run (.ok (.file (some path))) v config).wp
      (fun result w' => ∃ output, Ended path v config result w w' output)
      (fun _ w' => Failed path v config outside w w') outside w := by
  simp only [run, Build.wp_bind, Build.wp_log, Build.wp_now]
  refine Build.wp_mono (Staging.wp_read _ _) (fun staged w₁ hw₁ => ?_) fun _ w₁ hw₁ =>
    failed_of_notes (.trans ⟨_, rfl⟩ hw₁)
  obtain ⟨hstaged, hw₁⟩ := hw₁
  have hnotes : Staging.Notes w w₁ := .trans ⟨_, rfl⟩ hw₁
  rw [Build.wp_take]
  refine ⟨fun output houtput => ?_, fun _ _ => failed_of_notes hnotes⟩
  have hread : Staging.heldOutput Enriched.ofJson config.stagingPath "enrich" w.disk w.cwd =
      some output := by
    rw [Staging.heldOutput, hstaged]
    show (EnrichOutput.ofJson staged).toOption = _
    rw [houtput]
    rfl
  obtain ⟨events₁, rfl⟩ := hnotes
  rw [Build.wp_take]
  refine ⟨fun store hstore => ?_, fun e he => by cases he⟩
  cases hstore
  refine Build.wp_mono (GraphStore.wp_openStore hpath) (fun _ w₂ hw₂ => ?_) fun _ w₂ hw₂ =>
    failed_of_notes (by obtain ⟨events₂, rfl⟩ := hw₂; exact ⟨events₂, rfl⟩)
  obtain ⟨events₂, rfl⟩ := hw₂
  refine Build.wp_mono VectorStore.wp_openStore (fun _ w₂ hw₂ => ?_) fun _ _ => False.elim
  obtain ⟨client₂, rfl⟩ := hw₂
  rw [Build.wp_ensuring]
  -- the stores are closed whether they were filled or not, and closing may fail too
  refine Build.wp_mono wp_fill (fun result w₃ hw₃ => ?_) fun f w₃ hw₃ => ?_
  · obtain ⟨h, d, gone, hcompletes, rfl, collections, client, events, rfl, hd, hother⟩ := hw₃
    refine Build.wp_mono (wp_closing hpath) (fun _ w₄ hw₄ => ?_) fun f w₄ hw₄ => ?_
    · obtain ⟨disk, hsaves, client', events', rfl⟩ := hw₄
      exact ⟨output, hread, h, d, gone, disk, hcompletes, rfl, hsaves,
        collections, client', _, rfl, hd, hother⟩
    · obtain ⟨disk, hexpands, client', events', rfl⟩ := hw₄
      refine ⟨h, disk, d, ⟨collections, client', events', rfl, by rw [hd]; rfl, hother⟩, .inr ?_⟩
      exact ⟨output, h, hread, hcompletes.reaches, .inr hexpands⟩
  · obtain ⟨h, d, hreaches, collections, client, events, rfl, hd, hother⟩ := hw₃
    refine Build.wp_mono (wp_closing hpath) (fun _ w₄ hw₄ => ?_) fun f w₄ hw₄ => ?_
    · obtain ⟨disk, hsaves, client', events', rfl⟩ := hw₄
      exact ⟨h, disk, d, ⟨collections, client', events', rfl, hd, hother⟩,
        .inr ⟨output, h, hread, hreaches, .inl hsaves⟩⟩
    · obtain ⟨disk, hexpands, client', events', rfl⟩ := hw₄
      exact ⟨h, disk, d, ⟨collections, client', events', rfl, hd, hother⟩,
        .inr ⟨output, h, hread, hreaches, .inr hexpands⟩⟩

end Populating

end RepoGraph
