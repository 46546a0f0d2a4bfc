import RepoGraph.Proofs.Populate.Effect
import RepoGraph.Proofs.Stores.Requests

/-!
# What every graph of a store is like

A graph is sound, `Graph.IsSound`, if its nodes carry the attributes of an entity, in the project
and with the id they are kept under, and if each of its edges joins two nodes of one project,
carries its label and that project as attributes, and has a label of the vocabulary.

Putting an edge makes nodes without attributes of the ends that are missing.  So what keeps a graph
sound is that a relationship is merged only where both of its ends are nodes of the project, and
that relationships of unknown type are left out before.

Main statements: `Graph.IsSound.mergeEntity`, `Graph.IsSound.mergeRelationship`,
`Graph.IsSound.remove`, `GraphStore.wp_answer_makes`, `GraphStore.isSound_after`.
-/

namespace RepoGraph

/-! ### Updating attributes of the same names -/

namespace Fields

/-- An update whose names are all there keeps the names and their order. -/
theorem names_update_of_subset {fields new : Fields} (h : ∀ name ∈ new.names, name ∈ fields.names) :
    (fields.update new).names = fields.names := by
  induction new generalizing fields with
  | nil => rfl
  | cons field rest ih =>
    obtain ⟨name, value⟩ := field
    have hset : (fields.set name value).names = fields.names := by
      rw [names_set, if_pos (h name List.mem_cons_self)]
    have hstep : fields.update ((name, value) :: rest) = (fields.set name value).update rest := rfl
    have hrest : ∀ other ∈ names rest, other ∈ (fields.set name value).names := by
      intro other hother
      rw [hset]
      exact h other (List.mem_cons_of_mem _ hother)
    rw [hstep, ih hrest, hset]

/-- A name of an update has its new value. -/
theorem get?_update_of_some {fields new : Fields} (hnew : new.names.Nodup) {name : String}
    {value : Json} (h : new.get? name = some value) :
    (fields.update new).get? name = some value := by
  rw [get?_update hnew, h, Option.some_or]

end Fields

/-! ### Sound graphs -/

/-- The names of a node's attributes: the properties of an entity, the project and the time of the
merge. -/
def Graph.nodeNames : List String :=
  ["id", "type", "name", "path", "semanticDescription", "purpose", "patterns", "architecturalRole",
    "complexity", "metadata", "project", mergedAt]

/-- The names of an edge's attributes. -/
def Graph.edgeNames : List String := ["type", "properties", "project", mergedAt]

/-- Attributes that a node under a key may carry. -/
structure NodeKey.Describes (key : NodeKey) (attributes : Fields) : Prop where
  names : attributes.names = Graph.nodeNames
  id : attributes.get? "id" = some (.str key.id)
  project : attributes.get? "project" = some (.str key.project)

/-- An edge inside one project whose attributes say its label and the project. -/
structure Edge.IsProper (e : Edge) : Prop where
  names : e.attributes.names = Graph.edgeNames
  isKnown : Relationship.isKnownType e.label = true
  type : e.attributes.get? "type" = some (.str e.label)
  within : e.target.project = e.source.project
  project : e.attributes.get? "project" = some (.str e.source.project)

/-- Attributes of a key stay such attributes when others of the key are laid over them. -/
theorem NodeKey.Describes.update {key : NodeKey} {old new : Fields} (hold : key.Describes old)
    (hnew : key.Describes new) : key.Describes (old.update new) := by
  have hnodup : new.names.Nodup := by
    rw [hnew.names]
    decide
  have hsubset : ∀ name ∈ new.names, name ∈ old.names := by
    rw [hnew.names, hold.names]
    exact fun _ h => h
  constructor
  · rw [Fields.names_update_of_subset hsubset, hold.names]
  · exact Fields.get?_update_of_some hnodup hnew.id
  · exact Fields.get?_update_of_some hnodup hnew.project

/-- An edge stays proper when the attributes of a proper edge at its place are laid over its own. -/
theorem Edge.IsProper.update {e new : Edge} (he : e.IsProper) (hnew : new.IsProper)
    (hkey : e.key = new.key) :
    Edge.IsProper { e with attributes := e.attributes.update new.attributes } := by
  simp only [Edge.key, Prod.mk.injEq] at hkey
  have hnodup : new.attributes.names.Nodup := by
    rw [hnew.names]
    decide
  have hsubset : ∀ name ∈ new.attributes.names, name ∈ e.attributes.names := by
    rw [hnew.names, he.names]
    exact fun _ h => h
  refine ⟨?_, he.isKnown, ?_, he.within, ?_⟩
  · show (e.attributes.update new.attributes).names = Graph.edgeNames
    rw [Fields.names_update_of_subset hsubset, he.names]
  · show (e.attributes.update new.attributes).get? "type" = some (.str e.label)
    rw [hkey.2.2]
    exact Fields.get?_update_of_some hnodup hnew.type
  · show (e.attributes.update new.attributes).get? "project" = some (.str e.source.project)
    rw [hkey.1]
    exact Fields.get?_update_of_some hnodup hnew.project

namespace Graph

/-- Nodes carry the attributes of an entity under their key, and edges join nodes of one project,
under a type of the vocabulary; between two nodes a type has at most one edge. -/
structure IsSound (g : Graph) : Prop where
  nodes : ∀ node ∈ g.nodes, node.1.Describes node.2
  edges : ∀ e ∈ g.edges, e.IsProper
  ends : ∀ e ∈ g.edges, g.hasNode e.source = true ∧ g.hasNode e.target = true
  atMostOne : ∀ e ∈ g.edges, ∀ e' ∈ g.edges, e.source = e'.source → e.target = e'.target →
    e.attributes.get? "type" = e'.attributes.get? "type" → e = e'

variable {g : Graph}

/-- As the keys of edges are distinct, so are the edges' ends with the type they say. -/
theorem IsSound.of_parts (hnodes : ∀ node ∈ g.nodes, node.1.Describes node.2)
    (hedges : ∀ e ∈ g.edges, e.IsProper)
    (hends : ∀ e ∈ g.edges, g.hasNode e.source = true ∧ g.hasNode e.target = true) : g.IsSound := by
  refine ⟨hnodes, hedges, hends, fun e he e' he' hsource htarget htype => ?_⟩
  have hlabel : e.label = e'.label := by
    rw [(hedges e he).type, (hedges e' he').type, Option.some.injEq, Json.str.injEq] at htype
    exact htype
  have hkey : e.key = e'.key := by rw [Edge.key, Edge.key, hsource, htarget, hlabel]
  exact List.inj_on_of_nodup_map g.nodup_edges he he' hkey

theorem isSound_empty : Graph.empty.IsSound :=
  .of_parts (fun _ h => nomatch h) (fun _ h => nomatch h) fun _ h => nomatch h

/-! ### Merging an entity -/

/-- The nodes after one was put: those that were there, and the one with its new attributes. -/
theorem mem_putAttributes {key : NodeKey} {attributes : Fields} {nodes : List (NodeKey × Fields)}
    {node : NodeKey × Fields} (h : node ∈ putAttributes key attributes nodes) :
    node ∈ nodes ∨ node = (key, attributes) ∨
      ∃ old, (key, old) ∈ nodes ∧ node = (key, old.update attributes) := by
  induction nodes with
  | nil => exact .inr (.inl (List.mem_singleton.1 h))
  | cons first rest ih =>
    obtain ⟨k, old⟩ := first
    rw [putAttributes] at h
    split at h
    · rename_i hk
      subst hk
      rcases List.mem_cons.1 h with rfl | hrest
      · exact .inr (.inr ⟨old, List.mem_cons_self, rfl⟩)
      · exact .inl (List.mem_cons_of_mem _ hrest)
    · rcases List.mem_cons.1 h with rfl | hrest
      · exact .inl List.mem_cons_self
      · rcases ih hrest with hmem | hnew | ⟨old', hold, hnode⟩
        · exact .inl (List.mem_cons_of_mem _ hmem)
        · exact .inr (.inl hnew)
        · exact .inr (.inr ⟨old', List.mem_cons_of_mem _ hold, hnode⟩)

theorem hasNode_putNode (g : Graph) (key : NodeKey) (attributes : Fields) {other : NodeKey}
    (h : g.hasNode other = true) : (g.putNode key attributes).hasNode other = true := by
  by_cases hkey : key = other
  · subst hkey
    rw [hasNode, attributes?_putNode_self]
    rfl
  · rw [hasNode, attributes?_putNode_of_ne g hkey]
    exact h

variable {stamp project : String}

/-- The node of an entity carries its id and the project. -/
theorem describes_nodeAttributes (e : Enriched) :
    (⟨project, e.id⟩ : NodeKey).Describes (nodeAttributes stamp project e) :=
  ⟨rfl, rfl, rfl⟩

/-- Merging an entity keeps a graph sound. -/
theorem IsSound.mergeEntity (h : g.IsSound) (e : Enriched) :
    (g.mergeEntity stamp project e).IsSound := by
  refine .of_parts (fun node hnode => ?_) h.edges fun edge hedge => ?_
  · rcases mem_putAttributes hnode with hmem | rfl | ⟨old, hold, rfl⟩
    · exact h.nodes node hmem
    · exact describes_nodeAttributes e
    · -- without its projections, the goal is compared before the attributes are laid over each
      -- other
      dsimp only
      exact (h.nodes _ hold).update (describes_nodeAttributes e)
  · -- the edges are those of before, and no node is lost
    obtain ⟨hsource, htarget⟩ := h.ends edge hedge
    exact ⟨hasNode_putNode g _ _ hsource, hasNode_putNode g _ _ htarget⟩

theorem IsSound.of_merges {entities : List Enriched} {h : Graph} (hg : g.IsSound)
    (hm : Merges project g entities h) : h.IsSound := by
  induction hm with
  | nil => exact hg
  | snoc stamp e before ih => exact ih.mergeEntity e

/-! ### Merging a relationship -/

/-- The edges after one was put: those that were there, and the one with its new attributes. -/
theorem mem_putEdgeAttributes {edge e : Edge} {edges : List Edge}
    (h : e ∈ putEdgeAttributes edge edges) :
    e ∈ edges ∨ e = edge ∨ ∃ old ∈ edges, old.key = edge.key ∧
      e = { old with attributes := old.attributes.update edge.attributes } := by
  induction edges with
  | nil => exact .inr (.inl (List.mem_singleton.1 h))
  | cons first rest ih =>
    rw [putEdgeAttributes] at h
    split at h
    · rename_i hat
      rcases List.mem_cons.1 h with rfl | hrest
      · exact .inr (.inr ⟨first, List.mem_cons_self, Edge.isAt_iff.1 hat, rfl⟩)
      · exact .inl (List.mem_cons_of_mem _ hrest)
    · rcases List.mem_cons.1 h with rfl | hrest
      · exact .inl List.mem_cons_self
      · rcases ih hrest with hmem | hnew | ⟨old, hold, hkey, he⟩
        · exact .inl (List.mem_cons_of_mem _ hmem)
        · exact .inr (.inl hnew)
        · exact .inr (.inr ⟨old, List.mem_cons_of_mem _ hold, hkey, he⟩)

/-- Putting a proper edge between two nodes keeps a graph sound. -/
theorem IsSound.putEdge (h : g.IsSound) {edge : Edge} (hedge : edge.IsProper)
    (hsource : g.hasNode edge.source = true) (htarget : g.hasNode edge.target = true) :
    (g.putEdge edge).IsSound := by
  have hnodes : (g.putEdge edge).nodes = g.nodes := nodes_putEdge g edge hsource htarget
  have hedges := edges_putEdge g edge hsource htarget
  have hcases : ∀ e ∈ (g.putEdge edge).edges, e.IsProper ∧
      g.hasNode e.source = true ∧ g.hasNode e.target = true := by
    intro e he
    rw [hedges] at he
    rcases mem_putEdgeAttributes he with hmem | rfl | ⟨old, hold, hkey, rfl⟩
    · exact ⟨h.edges e hmem, h.ends e hmem⟩
    · exact ⟨hedge, hsource, htarget⟩
    · exact ⟨(h.edges old hold).update hedge hkey, h.ends old hold⟩
  refine .of_parts (fun node hnode => ?_) (fun e he => (hcases e he).1) fun e he => ?_
  · rw [hnodes] at hnode
    exact h.nodes node hnode
  · rw [hasNode_congr hnodes, hasNode_congr hnodes]
    exact (hcases e he).2

/-- The edge of a relationship of known type is proper. -/
theorem isProper_edgeAttributes {r : Relationship}
    (hknown : Relationship.isKnownType r.type = true) :
    Edge.IsProper ⟨⟨project, r.source⟩, ⟨project, r.target⟩, r.type,
      edgeAttributes stamp project r⟩ :=
  ⟨rfl, hknown, rfl, rfl, rfl⟩

/-- Merging a relationship of known type keeps a graph sound: one that lacks an end is left out. -/
theorem IsSound.mergeRelationship (h : g.IsSound) {r : Relationship}
    (hknown : Relationship.isKnownType r.type = true) :
    (g.mergeRelationship stamp project r).IsSound := by
  rw [Graph.mergeRelationship]
  split
  · rename_i hends
    rw [hasEnds, Bool.and_eq_true] at hends
    exact h.putEdge (isProper_edgeAttributes hknown) hends.1 hends.2
  · exact h

theorem IsSound.mergeRelationships (h : g.IsSound) {relationships : List Relationship}
    (hknown : ∀ r ∈ relationships, Relationship.isKnownType r.type = true) :
    (g.mergeRelationships stamp project relationships).1.IsSound := by
  induction relationships generalizing g with
  | nil => exact h
  | cons r rest ih =>
    rw [Graph.mergeRelationships]
    have hr : Relationship.isKnownType r.type = true := hknown r List.mem_cons_self
    exact ih (h.mergeRelationship hr) fun r' hr' => hknown r' (List.mem_cons_of_mem _ hr')

/-! ### Removing nodes -/

theorem hasNode_remove (g : Graph) {keys : List NodeKey} {key : NodeKey} (hkey : key ∉ keys) :
    (g.remove keys).hasNode key = g.hasNode key := by
  rw [hasNode, attributes?_remove, if_neg hkey]
  rfl

/-- Removing nodes keeps a graph sound: their edges go with them. -/
theorem IsSound.remove (h : g.IsSound) (keys : List NodeKey) : (g.remove keys).IsSound := by
  refine .of_parts (fun node hnode => h.nodes node (List.mem_filter.1 hnode).1)
    (fun e he => h.edges e (List.mem_filter.1 he).1) fun e he => ?_
  obtain ⟨hmem, htouches⟩ := List.mem_filter.1 he
  simp only [Edge.touches, List.contains_eq_mem, Bool.not_eq_true', Bool.or_eq_false_iff,
    decide_eq_false_iff_not] at htouches
  rw [hasNode_remove g htouches.1, hasNode_remove g htouches.2]
  exact h.ends e hmem

end Graph

/-! ### Stores -/

namespace GraphStore

open Graph

/-- The open graph is sound, and so is a graph that stands in the store's file. -/
structure HoldsSound (path? : Option String) (w : World) : Prop where
  isOpen : w.openGraph.IsSound
  onFile : ∀ path g, path? = some path → w.disk.fileAt w.cwd path = some (.graph g) → g.IsSound

variable {path? : Option String} {outside : Outside} {w w' : World}

theorem HoldsSound.opens {g : Graph} (h : HoldsSound path? w) (hg : g.IsSound)
    (hopens : Opens g w w') : HoldsSound path? w' := by
  obtain ⟨events, rfl⟩ := hopens
  exact ⟨hg, h.onFile⟩

/-- The graph that the file holds is sound; where it holds none, it is the empty one. -/
theorem HoldsSound.held {path : String} (h : HoldsSound (some path) w) : (held path w).IsSound := by
  rw [GraphStore.held, onDisk]
  split
  · rename_i g hread
    exact h.onFile path g rfl (Disk.fileAt_of_read hread)
  · exact isSound_empty

theorem isKnownType_of_mem_knownOf {relationships : List Relationship} :
    ∀ r ∈ knownOf relationships, Relationship.isKnownType r.type = true :=
  fun _ hr => (List.mem_filter.1 hr).2

/-- What a request makes of a graph: what it asks for, that for a first part of its entities, or
nothing. -/
inductive Makes (g : Graph) : GraphRequest → Graph → Prop
  | entities {project : String} {merged entities : List Enriched} {h : Graph}
      (hpart : merged <+: entities) (hm : Merges project g merged h) :
      Makes g (.entities project entities) h
  | relationships {project : String} (relationships : List Relationship) (stamp : String) :
      Makes g (.relationships project relationships)
        (g.mergeRelationships stamp project (knownOf relationships)).1
  | prune {project : String} (current : List String) (scope : Option (List String)) :
      Makes g (.prune project current scope) (g.remove (g.stale project current scope))
  | nothing (request : GraphRequest) : Makes g request g

/-- A request makes something of the open graph and changes nothing else, whether it fails or
not. -/
theorem wp_answer_makes (request : GraphRequest) :
    ((file path?).answer request).wp
      (fun _ w' => ∃ g, Makes w.openGraph request g ∧ Opens g w w')
      (fun _ w' => ∃ g, Makes w.openGraph request g ∧ Opens g w w') outside w := by
  cases request with
  | entities project entities =>
    simp only [answer, Build.wp_bind, Build.wp_pure]
    refine Build.wp_mono (wp_upsertEntities rfl path? entities) ?_ ?_
    · rintro n w' ⟨g, hm, hopens⟩
      exact ⟨g, .entities List.prefix_rfl hm, hopens⟩
    · rintro f w' ⟨merged, g, hpart, hm, hopens⟩
      exact ⟨g, .entities hpart hm, hopens⟩
  | relationships project relationships =>
    simp only [answer, Build.wp_bind, Build.wp_pure]
    refine Build.wp_mono (wp_upsertRelationships rfl path? relationships) ?_ ?_
    · rintro n w' ⟨stamp, hopens⟩
      exact ⟨_, .relationships relationships stamp, hopens⟩
    · rintro f w' hopens
      exact ⟨_, .nothing _, hopens⟩
  | prune project current scope =>
    simp only [answer, Build.wp_bind, Build.wp_pure]
    refine Build.wp_mono (wp_prune rfl path? current scope) ?_ ?_
    · rintro gone w' ⟨-, hopens⟩
      exact ⟨_, .prune current scope, hopens⟩
    · rintro f w' hopens
      exact ⟨_, .nothing _, hopens⟩
  | counts project =>
    simp only [answer, counts, Build.wp_bind, Build.wp_get, Build.wp_pure]
    exact ⟨_, .nothing _, w.events, rfl⟩

/-- A request makes a sound graph of a sound one. -/
theorem Makes.isSound {g h : Graph} {request : GraphRequest}
    (hmakes : Makes g request h) (hg : g.IsSound) : h.IsSound := by
  cases hmakes with
  | entities _ hm => exact hg.of_merges hm
  | relationships => exact hg.mergeRelationships isKnownType_of_mem_knownOf
  | prune => exact hg.remove _
  | nothing => exact hg

/-- A request keeps the open graph sound, whether it fails or not. -/
theorem wp_answer_sound (h : HoldsSound path? w) (request : GraphRequest) :
    ((file path?).answer request).wp (fun _ => HoldsSound path?) (fun _ => HoldsSound path?)
      outside w := by
  have hsound (w' : World)
      (hw' : ∃ g, Makes w.openGraph request g ∧ Opens g w w') : HoldsSound path? w' := by
    obtain ⟨g, hmakes, hopens⟩ := hw'
    exact h.opens (hmakes.isSound h.isOpen) hopens
  exact Build.wp_mono (wp_answer_makes request) (fun _ => hsound) fun _ => hsound

/-- Closing puts the open graph into the file, or leaves the file as it was. -/
theorem wp_close_sound (h : HoldsSound path? w) :
    (file path?).close.wp (fun _ => HoldsSound path?) (fun _ => HoldsSound path?) outside w := by
  cases path? with
  | none => exact h
  | some path =>
    by_cases hpath : path = ""
    · subst hpath
      exact h
    rw [close_file hpath]
    refine Build.wp_mono wp_save ?_ ?_
    · rintro - w' ⟨disk, events, ⟨made, -, hwrite⟩, rfl⟩
      refine ⟨h.isOpen, fun path' g hsome hfile => ?_⟩
      obtain rfl : path = path' := Option.some.inj hsome
      have hsaved : some (Content.graph g) = some (.graph w.openGraph) :=
        hfile.symm.trans (Disk.fileAt_write hwrite)
      rw [Option.some.injEq, Content.graph.injEq] at hsaved
      rw [hsaved]
      exact h.isOpen
    · rintro f w' ⟨disk, events, hexpands, rfl⟩
      refine ⟨h.isOpen, fun path' g hsome hfile => h.onFile path' g hsome ?_⟩
      rw [← hfile]
      exact (Disk.Changes.fileAt_eq (hexpands.changes : Disk.Changes [] _ _) List.not_mem_nil).symm

/-- Opening opens the graph of the file, or the empty one, or fails and leaves the open graph. -/
theorem wp_openStore_sound (h : HoldsSound path? w) :
    (file path?).openStore.wp (fun _ => HoldsSound path?) (fun _ => HoldsSound path?)
      outside w := by
  have hempty : HoldsSound path? { w with openGraph := .empty } := ⟨isSound_empty, h.onFile⟩
  cases path? with
  | none => exact hempty
  | some path =>
    by_cases hpath : path = ""
    · subst hpath
      exact hempty
    refine Build.wp_mono (wp_openStore hpath) ?_ ?_
    · rintro - w' hopens
      exact h.opens h.held hopens
    · rintro f w' hopens
      exact h.opens h.isOpen hopens

/-- Calls of the vector store have nothing to do with graphs. -/
theorem HoldsSound.touches {v : VectorStore} (h : HoldsSound path? w) (htouches : v.Touches w w') :
    HoldsSound path? w' := by
  obtain ⟨collections, client, events, rfl, -⟩ := htouches
  exact ⟨h.isOpen, h.onFile⟩

/-- Every step keeps the open graph and that of the file sound. -/
theorem wp_takeStep_sound (h : HoldsSound path? w) (step : StoreStep) :
    ((file path?).takeStep step).wp (fun _ => HoldsSound path?) (fun _ => HoldsSound path?)
      outside w := by
  cases step with
  | ask request => exact (wp_discard _).2 (wp_answer_sound h request)
  | close => exact wp_close_sound h
  | reopen => exact wp_openStore_sound h
  | ensure v =>
    exact Build.wp_mono VectorStore.wp_ensure_touches (fun _ _ => h.touches) fun _ _ => h.touches
  | points v entities =>
    rw [takeStep, wp_discard]
    exact Build.wp_mono (VectorStore.wp_upsertEntities_touches entities) (fun _ _ => h.touches)
      fun _ _ => h.touches
  | unpoint v ids =>
    rw [takeStep, wp_discard]
    exact Build.wp_mono (VectorStore.wp_deleteEntities_touches ids) (fun _ _ => h.touches)
      fun _ _ => h.touches

/-- A store that was opened without a graph in its file. -/
structure StartsEmpty (path? : Option String) (w : World) : Prop where
  isOpen : w.openGraph = .empty
  noFile : ∀ path, path? = some path → w.disk.fileAt w.cwd path = .none

theorem StartsEmpty.holdsSound (h : StartsEmpty path? w) : HoldsSound path? w := by
  refine ⟨?_, fun path g hsome hfile => ?_⟩
  · rw [h.isOpen]
    exact isSound_empty
  · rw [h.noFile path hsome] at hfile
    cases hfile

/-- On a disk without entries no store has a graph. -/
theorem startsEmpty_ofDisk (path? : Option String) (cwd : Place) :
    StartsEmpty path? (World.ofDisk .empty cwd) := by
  refine ⟨rfl, fun path _ => ?_⟩
  rw [Option.eq_none_iff_forall_ne_some]
  intro content hfile
  have hget : Disk.empty.get? (Disk.absolute cwd path) = some (.file content) :=
    Disk.fileAt_eq_some_iff.1 hfile
  rw [Disk.get?] at hget
  split at hget
  · cases hget
  · cases hget

/-- Steps keep the open graph and that of the file sound, whichever of them fail. -/
theorem holdsSound_after (h : HoldsSound path? w) (steps : List StoreStep) :
    HoldsSound path? ((file path?).after steps outside w) :=
  kept_after (fun step _ _ hw => wp_takeStep_sound hw step) h

/-- **The representation invariant.**  A store that starts without a graph has a sound one after any
steps, in any surroundings, and so has its file: its nodes carry the attributes of an entity under
their key, its edges join nodes of one project under a type of the vocabulary and say both, and
between two nodes a type has at most one edge. -/
theorem isSound_after (path? : Option String) (outside : Outside) (w : World)
    (hstart : StartsEmpty path? w) (steps : List StoreStep) :
    ((file path?).after steps outside w).openGraph.IsSound ∧
      ∀ path, path? = some path → (held path ((file path?).after steps outside w)).IsSound := by
  have hafter : HoldsSound path? ((file path?).after steps outside w) :=
    holdsSound_after hstart.holdsSound steps
  refine ⟨hafter.isOpen, ?_⟩
  rintro path rfl
  exact hafter.held

/-- An entity with an id about which nothing is known. -/
def bareEntity (id : String) : Enriched := .plain ⟨id, Entity.fileKind, id, id, .none, [], .none⟩

/-- Two files of which the first imports the second one and one that is not there; the store is
closed and opened again. -/
def importSteps (project : String) : List StoreStep :=
  [.ask (.entities project [bareEntity "a", bareEntity "b"]),
    .ask (.relationships project
      [⟨"1", Relationship.imports, "a", "b", []⟩, ⟨"2", Relationship.imports, "a", "c", []⟩,
        ⟨"3", "KNOWS", "a", "b", []⟩]),
    .close, .reopen]

theorem isSound_after_importSteps :
    StartsEmpty (some "graph.pkl") (World.ofDisk .empty []) ∧
      ((file (some "graph.pkl")).after (importSteps "p") Populating.quiet
        (World.ofDisk .empty [])).openGraph.IsSound ∧
      ((file (some "graph.pkl")).after (importSteps "p") Populating.quiet
        (World.ofDisk .empty [])).openGraph.counts "p" = ⟨2, 1⟩ := by
  have hstart := startsEmpty_ofDisk (some "graph.pkl") []
  refine ⟨hstart, ?_, by decide +kernel⟩
  exact (isSound_after (some "graph.pkl") Populating.quiet _ hstart (importSteps "p")).1

end GraphStore

end RepoGraph
