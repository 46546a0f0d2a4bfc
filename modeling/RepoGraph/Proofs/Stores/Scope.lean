import RepoGraph.Proofs.Stores.Sound

/-!
# Requests for one project leave the others alone

All projects share one graph and one client of the vector store.  `Graph.SameIn q g h` says that two
graphs have the same nodes and edges of the project `q`, an edge being one of `q` if either of its
ends is.  Merging puts nodes and edges of the request's own project only.  Removing a node takes
every edge that touches it away, so that a removal leaves other projects alone needs that edges do
not go from one project to another: this holds of every sound graph.

Main statements: `Graph.SameIn.remove`, `VectorStore.collection_inj`,
`GraphStore.isUnchanged_after`.
-/

namespace RepoGraph

/-! ### A project's part of a graph -/

/-- Whether an edge has an end in a project. -/
def Edge.isOf (project : String) (e : Edge) : Bool :=
  e.source.project == project || e.target.project == project

namespace Graph

/-- The nodes of a project with their attributes. -/
def nodesOf (project : String) (g : Graph) : List (NodeKey × Fields) :=
  g.nodes.filter fun node => node.1.project == project

/-- The edges of a project with their attributes. -/
def edgesOf (project : String) (g : Graph) : List Edge := g.edges.filter fun e => e.isOf project

/-- Two graphs have the same nodes and edges of a project. -/
structure SameIn (project : String) (g h : Graph) : Prop where
  nodes : h.nodesOf project = g.nodesOf project
  edges : h.edgesOf project = g.edgesOf project

variable {q project stamp : String} {g h : Graph}

theorem SameIn.refl (q : String) (g : Graph) : SameIn q g g := ⟨rfl, rfl⟩

theorem SameIn.trans {k : Graph} (hgh : SameIn q g h) (hhk : SameIn q h k) : SameIn q g k :=
  ⟨hhk.nodes.trans hgh.nodes, hhk.edges.trans hgh.edges⟩

theorem nodeIds_eq (q : String) (g : Graph) :
    g.nodeIds q = (g.nodesOf q).map fun node => node.1.id := by
  rw [nodeIds, nodesOf, List.filter_map, List.map_map]
  rfl

/-- The project's edges that are listed are those that begin in it. -/
theorem triples_eq (q : String) (g : Graph) :
    g.triples q = ((g.edgesOf q).filter fun e => e.source.project == q).map fun e =>
      (e.source.id, e.label, e.target.id) := by
  rw [triples, edgesOf, List.filter_filter]
  congr 2
  funext e
  rw [Edge.isOf]
  cases e.source.project == q <;> rfl

theorem SameIn.nodeIds_eq (hsame : SameIn q g h) : h.nodeIds q = g.nodeIds q := by
  rw [Graph.nodeIds_eq, Graph.nodeIds_eq, hsame.nodes]

theorem SameIn.triples_eq (hsame : SameIn q g h) : h.triples q = g.triples q := by
  rw [Graph.triples_eq, Graph.triples_eq, hsame.edges]

theorem SameIn.counts_eq (hsame : SameIn q g h) : h.counts q = g.counts q := by
  rw [counts, counts, hsame.nodeIds_eq, hsame.triples_eq]

/-! ### Putting -/

theorem filter_putAttributes {keeps : NodeKey × Fields → Bool} {key : NodeKey}
    (hkey : ∀ attributes, keeps (key, attributes) = false) (attributes : Fields)
    (nodes : List (NodeKey × Fields)) :
    (putAttributes key attributes nodes).filter keeps = nodes.filter keeps := by
  induction nodes with
  | nil => simp [putAttributes, hkey]
  | cons node rest ih =>
    obtain ⟨k, old⟩ := node
    rw [putAttributes]
    split
    · rename_i hk
      subst hk
      rw [List.filter_cons_of_neg (by simp [hkey]), List.filter_cons_of_neg (by simp [hkey])]
    · rw [List.filter_cons, List.filter_cons, ih]

theorem filter_putEdgeAttributes {keeps : Edge → Bool} {edge : Edge}
    (hkey : ∀ e : Edge, e.key = edge.key → keeps e = false) (edges : List Edge) :
    (putEdgeAttributes edge edges).filter keeps = edges.filter keeps := by
  induction edges with
  | nil => simp [putEdgeAttributes, hkey edge rfl]
  | cons e rest ih =>
    rw [putEdgeAttributes]
    split
    · rename_i hat
      have hkey' : e.key = edge.key := Edge.isAt_iff.1 hat
      have hold : keeps e = false := hkey e hkey'
      have hnew : keeps { e with attributes := e.attributes.update edge.attributes } = false :=
        hkey _ hkey'
      rw [List.filter_cons_of_neg (by simp [hnew]), List.filter_cons_of_neg (by simp [hold])]
    · rw [List.filter_cons, List.filter_cons, ih]

/-- Merging an entity of a project leaves the other projects alone. -/
theorem SameIn.mergeEntity (hq : project ≠ q) (g : Graph) (e : Enriched) :
    SameIn q g (g.mergeEntity stamp project e) := by
  refine ⟨filter_putAttributes (fun _ => ?_) _ _, rfl⟩
  exact beq_false_of_ne hq

theorem SameIn.of_merges (hq : project ≠ q) {entities : List Enriched}
    (hm : Merges project g entities h) : SameIn q g h := by
  induction hm with
  | nil => exact SameIn.refl q g
  | snoc stamp e before ih => exact ih.trans (SameIn.mergeEntity hq _ e)

/-- Merging a relationship of a project leaves the other projects alone. -/
theorem SameIn.mergeRelationship (hq : project ≠ q) (g : Graph) (r : Relationship) :
    SameIn q g (g.mergeRelationship stamp project r) := by
  have hnodes : (g.mergeRelationship stamp project r).nodes = g.nodes :=
    nodes_mergeRelationship stamp g r
  refine ⟨by rw [nodesOf, nodesOf, hnodes], ?_⟩
  rw [Graph.mergeRelationship]
  split
  · rename_i hends
    rw [hasEnds, Bool.and_eq_true] at hends
    rw [edgesOf, edgesOf]
    simp only [putEdge, ensureNode, hends.1, hends.2, if_true]
    refine filter_putEdgeAttributes (fun e he => ?_) _
    simp only [Edge.key, Prod.mk.injEq] at he
    simp [Edge.isOf, he.1, he.2.1, hq]
  · rfl

theorem SameIn.mergeRelationships (hq : project ≠ q) (g : Graph)
    (relationships : List Relationship) :
    SameIn q g (g.mergeRelationships stamp project relationships).1 := by
  induction relationships generalizing g with
  | nil => exact SameIn.refl q g
  | cons r rest ih =>
    rw [Graph.mergeRelationships]
    exact (SameIn.mergeRelationship hq g r).trans (ih _)

/-! ### Removing -/

/-- Removing nodes of a project from a sound graph leaves the other projects alone: an edge of
another project has no end among them. -/
theorem SameIn.remove (hsound : g.IsSound) (hq : project ≠ q) {keys : List NodeKey}
    (hkeys : ∀ key ∈ keys, key.project = project) : SameIn q g (g.remove keys) := by
  have hout : ∀ key : NodeKey, key.project = q → key ∉ keys := by
    intro key hkey hmem
    exact hq ((hkeys key hmem).symm.trans hkey)
  constructor
  · rw [nodesOf, nodesOf, Graph.remove, List.filter_filter]
    refine List.filter_congr fun node _ => ?_
    by_cases hnode : node.1.project = q
    · simp [hnode, hout node.1 hnode]
    · simp [hnode]
  · rw [edgesOf, edgesOf, Graph.remove, List.filter_filter]
    refine List.filter_congr fun e he => ?_
    have hwithin : e.target.project = e.source.project := (hsound.edges e he).within
    by_cases hsource : e.source.project = q
    · have htarget : e.target.project = q := hwithin.trans hsource
      simp [Edge.touches, hout e.source hsource, hout e.target htarget]
    · have htarget : e.target.project ≠ q := fun h => hsource (hwithin.symm.trans h)
      simp [Edge.isOf, hsource, htarget]

end Graph

/-! ### A project's part of the vector store -/

namespace VectorStore

variable {v : VectorStore} {outside : Outside} {w : World}

/-- Two projects do not share a collection. -/
theorem collection_inj {v v' : VectorStore} (h : v.collection = v'.collection) :
    v.project = v'.project := by
  have hlists := congrArg String.toList h
  simp only [collection, Project.collection, String.toList_append] at hlists
  exact String.toList_inj.1 (List.append_cancel_right (List.append_cancel_right hlists))

/-- What a search answers is a matter of the collection. -/
theorem answer_search (hshared : v.isShared = true) (query : List Number) (limit : Int)
    (asked : Fields) :
    ((v.search query limit asked).run outside w).1 =
      match w.collections.get? v.collection with
      | some c => .ok (c.search query limit asked)
      | none => .error (.noCollection v.collection) := by
  rw [← Build.wp_eq_iff]
  simp only [search, connect, present, hshared, Bool.not_true, Bool.false_and, Bool.false_eq_true,
    if_false, Build.wp_bind, Build.wp_get, Build.wp_pure]
  cases w.collections.get? v.collection <;> rfl

/-- What counting answers is a matter of the collection. -/
theorem answer_count (hshared : v.isShared = true) :
    (v.count.run outside w).1 =
      match w.collections.get? v.collection with
      | some c => .ok c.points.length
      | none => .error (.noCollection v.collection) := by
  rw [← Build.wp_eq_iff]
  simp only [count, connect, present, hshared, Bool.not_true, Bool.false_and, Bool.false_eq_true,
    if_false, Build.wp_bind, Build.wp_get, Build.wp_pure]
  cases w.collections.get? v.collection <;> rfl

end VectorStore

/-! ### Requests for other projects -/

namespace GraphStore

open Graph

variable {path? : Option String} {q : String} {outside : Outside} {w w' w'' : World}

/-- Two worlds have the same nodes, edges and collection of a project. -/
structure SameFor (q : String) (w w' : World) : Prop where
  graph : SameIn q w.openGraph w'.openGraph
  points : ∀ v : VectorStore, v.project = q →
    w'.collections.get? v.collection = w.collections.get? v.collection

theorem SameFor.refl (q : String) (w : World) : SameFor q w w :=
  ⟨SameIn.refl q w.openGraph, fun _ _ => rfl⟩

theorem SameFor.opens {g : Graph} (h : SameFor q w w') (hg : SameIn q w'.openGraph g)
    (hopens : Opens g w' w'') : SameFor q w w'' := by
  obtain ⟨events, rfl⟩ := hopens
  exact ⟨h.graph.trans hg, h.points⟩

theorem SameFor.touches {v : VectorStore} (h : SameFor q w w') (hv : v.project ≠ q)
    (htouches : v.Touches w' w'') : SameFor q w w'' := by
  obtain ⟨collections, client, events, rfl, hother⟩ := htouches
  refine ⟨h.graph, fun v' hv' => ?_⟩
  have hne : v'.collection ≠ v.collection := by
    intro heq
    exact hv ((VectorStore.collection_inj heq).symm.trans hv')
  exact (hother _ hne).trans (h.points v' hv')

/-- What a request for one project makes of a sound graph is the same for the others. -/
theorem Makes.sameIn {g h : Graph} {request : GraphRequest}
    (hmakes : Makes g request h) (hsound : g.IsSound) (hq : request.project ≠ q) :
    SameIn q g h := by
  cases hmakes with
  | entities _ hm => exact SameIn.of_merges hq hm
  | relationships => exact SameIn.mergeRelationships hq _ _
  | prune =>
    -- what is stale is of the request's project, and no edge of a sound graph leaves its project
    exact SameIn.remove hsound hq fun key hkey => (mem_stale_iff.1 hkey).1
  | nothing => exact SameIn.refl q g

/-- A request for one project leaves the others alone, whether it fails or not. -/
theorem wp_answer_sameFor (hsound : w'.openGraph.IsSound) (h : SameFor q w w')
    (request : GraphRequest) (hq : request.project ≠ q) :
    ((file path?).answer request).wp (fun _ => SameFor q w) (fun _ => SameFor q w) outside w' := by
  have hsame (w'' : World)
      (hw'' : ∃ g, Makes w'.openGraph request g ∧ Opens g w' w'') : SameFor q w w'' := by
    obtain ⟨g, hmakes, hopens⟩ := hw''
    exact h.opens (hmakes.sameIn hsound hq) hopens
  exact Build.wp_mono (wp_answer_makes request) (fun _ => hsame) fun _ => hsame

/-- A step for one project leaves the others alone, whether it fails or not. -/
theorem wp_takeStep_sameFor (hsound : w'.openGraph.IsSound) (h : SameFor q w w') (step : StoreStep)
    {project : String} (hproject : step.project? = some project) (hq : project ≠ q) :
    ((file path?).takeStep step).wp (fun _ => SameFor q w) (fun _ => SameFor q w) outside w' := by
  cases step with
  | ask request =>
    obtain rfl := Option.some.inj hproject
    exact (wp_discard _).2 (wp_answer_sameFor hsound h request hq)
  | close => cases hproject
  | reopen => cases hproject
  | ensure v =>
    obtain rfl := Option.some.inj hproject
    exact Build.wp_mono VectorStore.wp_ensure_touches (fun _ _ => h.touches hq)
      fun _ _ => h.touches hq
  | points v entities =>
    obtain rfl := Option.some.inj hproject
    rw [takeStep, wp_discard]
    exact Build.wp_mono (VectorStore.wp_upsertEntities_touches entities) (fun _ _ => h.touches hq)
      fun _ _ => h.touches hq
  | unpoint v ids =>
    obtain rfl := Option.some.inj hproject
    rw [takeStep, wp_discard]
    exact Build.wp_mono (VectorStore.wp_deleteEntities_touches ids) (fun _ _ => h.touches hq)
      fun _ _ => h.touches hq

/-- What a project has, and what is answered about it, is the same in two worlds. -/
structure IsUnchanged (path? : Option String) (q : String) (w w' : World) : Prop where
  same : SameFor q w w'
  nodeIds : w'.openGraph.nodeIds q = w.openGraph.nodeIds q
  triples : w'.openGraph.triples q = w.openGraph.triples q
  counts : ∀ outside,
    (((file path?).counts q).run outside w').1 = (((file path?).counts q).run outside w).1
  count : ∀ (v : VectorStore) outside, v.project = q → v.isShared = true →
    (v.count.run outside w').1 = (v.count.run outside w).1
  search : ∀ (v : VectorStore) outside query limit asked, v.project = q → v.isShared = true →
    ((v.search query limit asked).run outside w').1 = ((v.search query limit asked).run outside w).1

theorem SameFor.isUnchanged (h : SameFor q w w') : IsUnchanged path? q w w' := by
  refine ⟨h, h.graph.nodeIds_eq, h.graph.triples_eq, fun outside => ?_,
    fun v outside hv hshared => ?_, fun v outside query limit asked hv hshared => ?_⟩
  · have hcounts : w'.openGraph.counts q = w.openGraph.counts q := h.graph.counts_eq
    show Except.ok (w'.openGraph.counts q) = Except.ok (w.openGraph.counts q)
    rw [hcounts]
  · rw [VectorStore.answer_count hshared, VectorStore.answer_count hshared, h.points v hv]
  · rw [VectorStore.answer_search hshared, VectorStore.answer_search hshared, h.points v hv]

/-- **Store operations are scoped by project.**  Of a store that started without a graph and has
taken any steps, steps that are issued for other projects change nothing that a project has, and
nothing that is answered about it, whichever of the steps fail. -/
theorem isUnchanged_after (path? : Option String) (outside outside' : Outside) (w : World)
    (hstart : StartsEmpty path? w) (earlier steps : List StoreStep) (q : String)
    (hother : ∀ step ∈ steps, ∃ p, step.project? = some p ∧ p ≠ q) :
    IsUnchanged path? q ((file path?).after earlier outside w)
      ((file path?).after steps outside' ((file path?).after earlier outside w)) := by
  generalize hreached : (file path?).after earlier outside w = start
  have hsound : HoldsSound path? start := hreached ▸ holdsSound_after hstart.holdsSound earlier
  -- what each step needs is that the graph is sound before it, and this every step keeps
  have hkept : HoldsSound path? ((file path?).after steps outside' start) ∧
      SameFor q start ((file path?).after steps outside' start) := by
    refine @kept_after _ _ (fun w' => HoldsSound path? w' ∧ SameFor q start w') _ _
      (fun step hstep w' hw' => ?_) ⟨hsound, SameFor.refl q start⟩
    obtain ⟨project, hproject, hq⟩ := hother step hstep
    exact Build.wp_and (wp_takeStep_sound hw'.1 step)
      (wp_takeStep_sameFor hw'.1.isOpen hw'.2 step hproject hq)
  exact hkept.2.isUnchanged

/-- The steps of another project that has entities with the same ids, and prunes one of them. -/
def pruningSteps (project : String) : List StoreStep :=
  [.ask (.entities project [bareEntity "a", bareEntity "b"]), .ask (.prune project ["b"] .none),
    .ensure ⟨"", project, 2, true⟩, .unpoint ⟨"", project, 2, true⟩ ["a"]]

theorem isUnchanged_after_pruningSteps :
    StartsEmpty (some "graph.pkl") (World.ofDisk .empty []) ∧
      (∀ step ∈ pruningSteps "p", ∃ p, step.project? = some p ∧ p ≠ "q") ∧
      IsUnchanged (some "graph.pkl") "q"
        ((file (some "graph.pkl")).after (importSteps "q") Populating.quiet (World.ofDisk .empty []))
        ((file (some "graph.pkl")).after (pruningSteps "p") Populating.quiet
          ((file (some "graph.pkl")).after (importSteps "q") Populating.quiet
            (World.ofDisk .empty []))) ∧
      ((file (some "graph.pkl")).after (importSteps "q") Populating.quiet
        (World.ofDisk .empty [])).openGraph.nodeIds "q" = ["a", "b"] := by
  have hstart := startsEmpty_ofDisk (some "graph.pkl") []
  have hother : ∀ step ∈ pruningSteps "p", ∃ p, step.project? = some p ∧ p ≠ "q" := by
    simp [pruningSteps, StoreStep.project?, GraphRequest.project]
  refine ⟨hstart, hother, ?_, by decide +kernel⟩
  exact isUnchanged_after (some "graph.pkl") Populating.quiet Populating.quiet _ hstart
    (importSteps "q") (pruningSteps "p") "q" hother

end GraphStore

end RepoGraph
