import RepoGraph.Proofs.Populate.Progress

/-!
# What filling the stores does

`Populating.Effect` says, node by node, edge by edge and point by point, what a project has after
the third stage ended well, from what it had before and what was staged: later entities and
relationships win over earlier ones and over what was there, nothing stale is left in an incremental
build, and other projects are as they were.

Main statement: `Populating.effect_of_run`.
-/

namespace RepoGraph

namespace Populating

variable {v : VectorStore} {config : BuildConfig} {output : EnrichOutput} {g merged h : Graph}
  {c d : Collection} {gone : List String}

/-! ### Merging and removing -/

theorem nodeFacts_of_isMerged (hm : IsMerged config output g merged) (id : String) :
    merged.nodeFacts ⟨config.project, id⟩ =
      Enriched.nodeAfter config.project output.entities id
        (g.nodeFacts ⟨config.project, id⟩) := by
  obtain ⟨h, stamp, hm, rfl⟩ := hm
  rw [← Graph.nodeFacts_of_merges hm, Graph.nodeFacts, Graph.attributes?,
    Graph.nodes_mergeRelationships]
  rfl

theorem attributes?_of_isMerged (hm : IsMerged config output g merged) {key : NodeKey}
    (hkey : key.project ≠ config.project ∨ key.id ∉ currentIds output) :
    merged.attributes? key = g.attributes? key := by
  obtain ⟨h, stamp, hm, rfl⟩ := hm
  rw [← Graph.attributes?_of_merges hm hkey, Graph.attributes?, Graph.nodes_mergeRelationships]
  rfl

/-- Whether an id has a node once the entities are merged. -/
def isNode (config : BuildConfig) (output : EnrichOutput) (g : Graph) (id : String) : Bool :=
  (currentIds output).contains id || g.hasNode ⟨config.project, id⟩

theorem isNode_eq (config : BuildConfig) (output : EnrichOutput) (g : Graph) (id : String) :
    isNode config output g id =
      (Enriched.nodeAfter config.project output.entities id
        (g.nodeFacts ⟨config.project, id⟩)).isSome := by
  rw [isNode, Enriched.nodeAfter]
  cases hlast : Enriching.lastOf? output.entities id with
  | none =>
    have hnot : id ∉ currentIds output := Enriching.lastOf?_eq_none_iff.1 hlast
    rw [Graph.isSome_nodeFacts]
    simp [hnot]
  | some e =>
    have hmem : id ∈ currentIds output := by
      rw [← Enriching.id_of_lastOf? hlast]
      exact List.mem_map_of_mem (Enriching.mem_of_lastOf? hlast)
    simp [hmem, Enriched.laidOn]

/-- What an edge says once everything is merged: between nodes, what the last relationship of known
type says over what the edge said before; an edge that lacks an end is not changed. -/
def edgeAfter (config : BuildConfig) (output : EnrichOutput) (g : Graph)
    (source target label : String) : Option Facts :=
  let before := g.edgeFacts ⟨config.project, source⟩ ⟨config.project, target⟩ label
  if isNode config output g source = true ∧ isNode config output g target = true then
    Relationship.edgeAfter config.project (GraphStore.knownOf output.relationships)
      (source, target, label) before
  else before

theorem edgeFacts_of_isMerged (hm : IsMerged config output g merged)
    (source target label : String) :
    merged.edgeFacts ⟨config.project, source⟩ ⟨config.project, target⟩ label =
      edgeAfter config output g source target label := by
  obtain ⟨h, stamp, hm, rfl⟩ := hm
  have hedges : h.edgeFacts ⟨config.project, source⟩ ⟨config.project, target⟩ label =
      g.edgeFacts ⟨config.project, source⟩ ⟨config.project, target⟩ label := by
    rw [Graph.edgeFacts, Graph.edge?, Graph.edges_of_merges hm]
    rfl
  have hnode (id : String) : h.hasNode ⟨config.project, id⟩ = isNode config output g id := by
    rw [isNode_eq, ← Graph.nodeFacts_of_merges hm, Graph.isSome_nodeFacts]
  refine (Graph.edgeFacts_mergeRelationships stamp h _ (source, target, label)).trans ?_
  rw [hnode, hnode, hedges]
  rfl

theorem edge?_of_isMerged (hm : IsMerged config output g merged) {source target : NodeKey}
    (hother : source.project ≠ config.project ∨ target.project ≠ config.project) (label : String) :
    merged.edge? source target label = g.edge? source target label := by
  obtain ⟨h, stamp, hm, rfl⟩ := hm
  rw [Graph.edge?_mergeRelationships stamp h _ hother, Graph.edge?, Graph.edges_of_merges hm]
  rfl

/-- Whether the node of an id is stale: in an incremental build, its entity was not staged, and its
file was read again or is gone. -/
def IsStale (config : BuildConfig) (output : EnrichOutput) (g : Graph) (id : String) : Prop :=
  config.mode = Request.incremental ∧ id ∉ currentIds output ∧
    ∃ node, g.nodeFacts ⟨config.project, id⟩ = some node ∧ IsTouched output.metadata node

/-- What is stale is removed, and nothing else. -/
theorem sweep_eq (hsweep : sweep config output merged = .ok (h, gone)) :
    h = merged.remove (gone.map (NodeKey.mk config.project)) ∧ gone.Nodup ∧
      ∀ id, id ∈ gone ↔ IsStale config output merged id := by
  simp only [IsStale]
  rw [sweep] at hsweep
  split at hsweep
  · rename_i hmode
    cases hscope : scope output.metadata with
    | error fault =>
      rw [hscope] at hsweep
      cases hsweep
    | ok paths =>
      rw [hscope] at hsweep
      cases hsweep
      refine ⟨?_, Graph.nodup_gone _ _ _, fun id => ?_⟩
      · -- the ids that are answered tell the keys, as these are all of the project
        have hkeys : ((merged.stale config.project (currentIds output) paths).map NodeKey.id).map
            (NodeKey.mk config.project) =
              merged.stale config.project (currentIds output) paths := by
          rw [List.map_map]
          refine (List.map_congr_left fun key hkey => ?_).trans (List.map_id _)
          rw [Function.comp_apply, ← (Graph.mem_stale_iff.1 hkey).1]
          rfl
        change merged.remove (merged.stale config.project (currentIds output) paths) =
          merged.remove (((merged.stale config.project (currentIds output) paths).map
            NodeKey.id).map (NodeKey.mk config.project))
        rw [hkeys]
      · change id ∈ (merged.prune config.project (currentIds output) paths).2 ↔ _
        rw [Graph.mem_gone_iff, eq_of_beq hmode]
        simp only [true_and]
        refine and_congr_right fun _ => exists_congr fun node => and_congr_right fun _ => ?_
        exact isInScope_iff_isTouched hscope node
  · rename_i hmode
    cases hsweep
    have hmode' : config.mode ≠ Request.incremental := by simpa using hmode
    refine ⟨?_, List.nodup_nil, fun id => ?_⟩
    · obtain ⟨nodes, edges, hnodes, hedges⟩ := merged
      simp [Graph.remove, Edge.touches]
    · simp [hmode']

/-- A node that is not current says in the merged graph what it said before. -/
theorem nodeFacts_of_not_mem (hm : IsMerged config output g merged) {id : String}
    (hid : id ∉ currentIds output) :
    merged.nodeFacts ⟨config.project, id⟩ = g.nodeFacts ⟨config.project, id⟩ := by
  rw [Graph.nodeFacts, attributes?_of_isMerged hm (.inr hid)]
  rfl

/-- What is stale among the merged nodes was stale before. -/
theorem isStale_of_isMerged (hm : IsMerged config output g merged) (id : String) :
    IsStale config output merged id ↔ IsStale config output g id := by
  refine and_congr_right fun _ => and_congr_right fun hid => ?_
  rw [nodeFacts_of_not_mem hm hid]

/-! ### The effect -/

/-- What filling the stores does to a project: the graph and the collection that come of others, and
the ids of the entities that are gone. -/
structure Effect (v : VectorStore) (config : BuildConfig) (output : EnrichOutput) (g : Graph)
    (c : Collection) (h : Graph) (d : Collection) (gone : List String) : Prop where
  /-- An id is gone once. -/
  nodup_gone : gone.Nodup
  /-- Gone is what was stale. -/
  mem_gone_iff : ∀ id, id ∈ gone ↔ IsStale config output g id
  /-- A node says what the last entity with its id says over what it said before. -/
  nodeFacts_eq : ∀ id, h.nodeFacts ⟨config.project, id⟩ =
    if id ∈ gone then none
    else Enriched.nodeAfter config.project output.entities id (g.nodeFacts ⟨config.project, id⟩)
  /-- An edge between nodes says what the last relationship of known type between them says over
  what it said before. -/
  edgeFacts_eq : ∀ source target label,
    h.edgeFacts ⟨config.project, source⟩ ⟨config.project, target⟩ label =
      if source ∈ gone ∨ target ∈ gone then none
      else edgeAfter config output g source target label
  /-- Under a number is the point of the last entity that has it, else what was there unless it is
  the number of what is gone. -/
  find?_eq : ∀ number, d.find? number =
    match Enriched.lastNumbered? v.size output.entities number with
    | some e => some (Point.ofEntity e)
    | none => if number ∈ gone.map PointId.ofEntityId then none else c.find? number
  /-- The nodes of other projects, and those that are neither staged nor gone, are untouched. -/
  attributes?_eq : ∀ key : NodeKey,
    key.project ≠ config.project ∨ key.id ∉ currentIds output ∧ key.id ∉ gone →
      h.attributes? key = g.attributes? key
  /-- Edges that are not between nodes of the project stay, unless they touch a node that is
  gone. -/
  edge?_eq : ∀ (source target : NodeKey) (label : String),
    source.project ≠ config.project ∨ target.project ≠ config.project →
      h.edge? source target label =
        if source ∈ gone.map (NodeKey.mk config.project) ∨
            target ∈ gone.map (NodeKey.mk config.project) then none
        else g.edge? source target label

theorem mem_map_mk {project id : String} {ids : List String} :
    (⟨project, id⟩ : NodeKey) ∈ ids.map (NodeKey.mk project) ↔ id ∈ ids := by
  simp

/-- A node that is not swept away says what the last entity with its id says over what it said. -/
theorem nodeFacts_of_sweep (hm : IsMerged config output g merged)
    (hsweep : sweep config output merged = .ok (h, gone)) (id : String) :
    h.nodeFacts ⟨config.project, id⟩ =
      if id ∈ gone then none
      else Enriched.nodeAfter config.project output.entities id
        (g.nodeFacts ⟨config.project, id⟩) := by
  rw [(sweep_eq hsweep).1, Graph.nodeFacts_remove, nodeFacts_of_isMerged hm]
  simp only [mem_map_mk]

theorem edgeFacts_of_sweep (hm : IsMerged config output g merged)
    (hsweep : sweep config output merged = .ok (h, gone)) (source target label : String) :
    h.edgeFacts ⟨config.project, source⟩ ⟨config.project, target⟩ label =
      if source ∈ gone ∨ target ∈ gone then none
      else edgeAfter config output g source target label := by
  rw [(sweep_eq hsweep).1, Graph.edgeFacts_remove, edgeFacts_of_isMerged hm]
  simp only [mem_map_mk]

theorem mem_gone_of_sweep (hm : IsMerged config output g merged)
    (hsweep : sweep config output merged = .ok (h, gone)) (id : String) :
    id ∈ gone ↔ IsStale config output g id :=
  ((sweep_eq hsweep).2.2 id).trans (isStale_of_isMerged hm id)

/-- Filling the stores to the end has this effect. -/
theorem Completes.effect (hc : Completes v config output g c h d gone) :
    Effect v config output g c h d gone := by
  obtain ⟨merged, hm, hsweep⟩ := hc.swept
  refine ⟨(sweep_eq hsweep).2.1, mem_gone_of_sweep hm hsweep, nodeFacts_of_sweep hm hsweep,
    edgeFacts_of_sweep hm hsweep, fun number => ?_, fun key hkey => ?_,
    fun source target label hother => ?_⟩
  · rw [hc.collection_eq, Collection.find?_putAll, Collection.lastOf?_ofEntities,
      Collection.find?_delete]
    have hnumbers : number ∈ VectorStore.pointIds gone ↔ number ∈ gone.map PointId.ofEntityId := by
      rw [VectorStore.mem_pointIds, List.mem_map]
    cases Enriched.lastNumbered? v.size output.entities number with
    | none => simp only [Option.map_none, Option.none_or, hnumbers]
    | some e => rfl
  · rw [(sweep_eq hsweep).1, Graph.attributes?_remove, if_neg]
    · exact attributes?_of_isMerged hm (hkey.imp_right And.left)
    · obtain ⟨project, id⟩ := key
      rintro hgone
      rw [List.mem_map] at hgone
      obtain ⟨other, hother, heq⟩ := hgone
      cases heq
      exact hkey.elim (fun hne => hne rfl) fun hid => hid.2 hother
  · rw [(sweep_eq hsweep).1, Graph.edge?_remove, edge?_of_isMerged hm hother]

theorem Completes.size_collection (hc : Completes v config output g c h d gone) :
    d.size = v.size := by
  rw [hc.collection_eq, Collection.size_putAll]
  exact hc.size_eq

/-! ### Through the settings -/

/-- The file of the graph that the settings name. -/
theorem graphStore_of_file {s : Settings} (hbackend : s.graphBackend = "networkx") :
    s.graphStore = .ok (.file (some (Staging.graphPath s.stagingPath))) := by
  rw [Settings.graphStore, hbackend]
  rfl

theorem isName_graph : Path.IsName "graph" := by
  refine ⟨?_, ?_, ?_, ?_⟩ <;> decide

theorem isName_graphFile : Path.IsName "graph.pkl" := by
  refine ⟨?_, ?_, ?_, ?_⟩ <;> decide

theorem graphPath_ne_empty (staging : String) : Staging.graphPath staging ≠ "" :=
  Path.join_ne_empty _ isName_graphFile

/-- What a successful run leaves: the graph of the file and the project's collection. -/
theorem Ended.stores {path : String} {result : Population} {w w' : World}
    (he : Ended path v config result w w' output) :
    ∃ gone d,
      Completes v config output (GraphStore.held path w) (v.prior w) (GraphStore.held path w') d
          gone ∧
        result = ⟨output.entities.length, output.relationships.length,
          (Point.ofEntities v.size output.entities).length, gone.length⟩ ∧
        w'.collections.get? v.collection = some d ∧
        ∀ name, name ≠ v.collection → w'.collections.get? name = w.collections.get? name := by
  obtain ⟨-, h, d, gone, disk, hcompletes, hresult, hsaves, collections, client, events, rfl, hd,
    hother⟩ := he
  refine ⟨gone, d, ?_, hresult, hd, hother⟩
  have hheld : GraphStore.onDisk path disk w.cwd = h := hsaves.onDisk_eq
  change Completes v config output (GraphStore.held path w) (v.prior w)
    (GraphStore.onDisk path disk w.cwd) d gone
  rw [hheld]
  exact hcompletes

/-- A run that ends well has read an output and ends with it in the stores. -/
theorem exists_ended_of_run {s : Settings} {outside : Outside} {w : World} {result : Population}
    (hbackend : s.graphBackend = "networkx")
    (hrun : ((s.populating config).run outside w).1.toOption = some result) :
    ∃ output, Ended (Staging.graphPath s.stagingPath) (s.vectorStore config.project) config result w
      ((s.populating config).run outside w).2 output := by
  rw [Settings.populating, graphStore_of_file hbackend] at hrun ⊢
  exact Build.of_wp_of_toOption (wp_run (graphPath_ne_empty _)) hrun

/-- A run that ends well ends with what was staged in the stores. -/
theorem ended_of_run {s : Settings} {outside : Outside} {w : World} {result : Population}
    (hbackend : s.graphBackend = "networkx")
    (hread : Staging.heldOutput Enriched.ofJson config.stagingPath "enrich" w.disk w.cwd =
      some output)
    (hrun : ((s.populating config).run outside w).1.toOption = some result) :
    Ended (Staging.graphPath s.stagingPath) (s.vectorStore config.project) config result w
      ((s.populating config).run outside w).2 output := by
  obtain ⟨output', hended⟩ := exists_ended_of_run hbackend hrun
  obtain rfl : output' = output := Option.some.inj (hended.read.symm.trans hread)
  exact hended

/-- The third stage, with the graph in a file and an output staged, has its effect on the project
whenever it ends well, and reports the number of nodes that are gone; no other project's collection
changes. -/
theorem effect_of_run (s : Settings) (config : BuildConfig) (outside : Outside) (w : World)
    (output : EnrichOutput) (result : Population) (hbackend : s.graphBackend = "networkx")
    (hread : Staging.heldOutput Enriched.ofJson config.stagingPath "enrich" w.disk w.cwd =
      some output)
    (hrun : ((s.populating config).run outside w).1.toOption = some result) :
    ∃ gone d,
      Effect (s.vectorStore config.project) config output
          (GraphStore.held (Staging.graphPath s.stagingPath) w)
          ((s.vectorStore config.project).prior w)
          (GraphStore.held (Staging.graphPath s.stagingPath)
            ((s.populating config).run outside w).2) d gone ∧
        result.pruned = gone.length ∧ result.entities = output.entities.length ∧
        result.relationships = output.relationships.length ∧
        result.points = (Point.ofEntities s.vectorSize output.entities).length ∧
        ((s.populating config).run outside w).2.collections.get?
          (s.vectorStore config.project).collection = some d ∧
        d.size = s.vectorSize ∧
        ∀ name, name ≠ (s.vectorStore config.project).collection →
          ((s.populating config).run outside w).2.collections.get? name =
            w.collections.get? name := by
  obtain ⟨gone, d, hcompletes, rfl, hd, hother⟩ := (ended_of_run hbackend hread hrun).stores
  exact ⟨gone, d, hcompletes.effect, rfl, rfl, rfl, rfl, hd, hcompletes.size_collection, hother⟩

/-! ### A build in which a function is gone -/

/-- Surroundings that refuse nothing and hold nothing. -/
def quiet : Outside where
  clock _ := ⟨2024, 1, 1, 0, 0, 0, 0⟩
  refuses _ _ := none
  arrived _ := 0
  git _ _ _ := .notStarted ""
  embed _ _ := .ok .null
  chat _ _ := .ok none
  statement _ _ := .error .notProvided
  ping _ := .ok ()
  fetch _ _ := .ok ()

/-- Settings that keep the graph in a file, and vectors of two numbers. -/
def fileSettings : Settings where
  repoPath := "repo"
  stagingPath := "s"
  repoUrl := ""
  branch := "main"
  graphBackend := "networkx"
  graphUrl := ""
  graphUser := ""
  graphPassword := ""
  vectorUrl := ""
  vectorSize := 2
  embeddingProvider := "tei"
  embeddingUrl := ""
  embeddingModel := ""
  chatKey := .scalar .null
  chatModel := .scalar .null
  chatUrl := .scalar .null
  batchSize := 5
  batchDelay := Binary64.ofInt 1
  logLevel := "INFO"
  defaultProject := "p"
  projects := ["p"]

/-- An incremental build of the default project. -/
def incrementalConfig : BuildConfig := fileSettings.buildConfig Request.incremental "p" none

/-- A graph with one function of the file `b`. -/
def functionGraph : Graph := Graph.empty.putNode ⟨"p", "function:b:f"⟩ [("path", .str "b")]

/-- The file `b` is read again and has no function. -/
def functionGone : String :=
  "\x7b\"entities\":[\x7b\"id\":\"file:b\",\"type\":\"file\",\"path\":\"b\"\x7d]," ++
    "\"metadata\":\x7b\"parsedFiles\":[\"b\"]\x7d\x7d"

/-- A staging area with a text in place of the output of the second stage, and that graph. -/
def stagedWorld (text : String) : World :=
  World.ofDisk ((Disk.empty.provide [] "s/enrich/output.json" (.text text)).provide []
    "s/graph/graph.pkl" (.graph functionGraph)) []

theorem effect_of_run_functionGone :
    ∃ output gone d,
      Staging.heldOutput Enriched.ofJson "s" "enrich" (stagedWorld functionGone).disk [] = some output ∧
        Effect (fileSettings.vectorStore "p") incrementalConfig output
          (GraphStore.held (Staging.graphPath "s") (stagedWorld functionGone))
          ((fileSettings.vectorStore "p").prior (stagedWorld functionGone))
          (GraphStore.held (Staging.graphPath "s")
            ((fileSettings.populating incrementalConfig).run quiet (stagedWorld functionGone)).2) d gone ∧
        1 = gone.length := by
  have hrun : ((fileSettings.populating incrementalConfig).run quiet
      (stagedWorld functionGone)).1.toOption = some ⟨1, 0, 0, 1⟩ := by decide +kernel
  obtain ⟨output, hended⟩ := Build.of_wp_of_toOption
    (wp_run (v := fileSettings.vectorStore "p") (graphPath_ne_empty "s")) hrun
  obtain ⟨gone, d, heffect, hpruned, -⟩ :=
    effect_of_run fileSettings incrementalConfig quiet
      (stagedWorld functionGone) output _ rfl hended.read
      hrun
  exact ⟨output, gone, d, hended.read, heffect, hpruned⟩

end Populating

end RepoGraph
