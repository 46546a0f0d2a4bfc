import RepoGraph.Proofs.Stores.Scope
import RepoGraph.Proofs.Twin.Runs

/-!
# Two runs that change a project's part of the stores

Whether other projects have nodes in the same graph makes no difference to a request for a project:
from two worlds with the same nodes, edges and points of the project, the request gives the same
answer, or fails for the same reason, and leaves the same of the project.

Main statements: `Graph.SameIn.after_mergeEntities`, `Graph.SameIn.after_mergeRelationships`,
`Graph.SameIn.after_remove`, `GraphStore.keeps_upsertEntities`,
`GraphStore.keeps_upsertRelationships`, `GraphStore.keeps_prune`,
`VectorStore.keeps_upsertEntities`, `VectorStore.keeps_deleteEntities`.
-/

namespace RepoGraph

open Build (Twin Keeps)

/-! ### The same change of two graphs -/

namespace Graph

variable {q stamp : String} {g h : Graph}

/-- Putting a node among those that are kept, and keeping some of the nodes, can be done in either
order. -/
theorem filter_putAttributes_of_keeps (keeps : NodeKey → Bool) {key : NodeKey}
    (hkey : keeps key = true)
    (attributes : Fields) (nodes : List (NodeKey × Fields)) :
    (putAttributes key attributes nodes).filter (fun node => keeps node.1) =
      putAttributes key attributes (nodes.filter fun node => keeps node.1) := by
  induction nodes with
  | nil => simp [putAttributes, hkey]
  | cons node rest ih =>
    obtain ⟨k, old⟩ := node
    by_cases hk : k = key
    · subst hk
      simp [putAttributes, hkey]
    · by_cases hkeeps : keeps k = true
      · simp [putAttributes, hk, hkeeps, ih]
      · simp [putAttributes, hk, hkeeps, ih]

/-- The same holds of edges that are kept for their ends. -/
theorem filter_putEdgeAttributes_of_keeps (keeps : NodeKey → NodeKey → Bool) {edge : Edge}
    (hedge : keeps edge.source edge.target = true) (edges : List Edge) :
    (putEdgeAttributes edge edges).filter (fun e => keeps e.source e.target) =
      putEdgeAttributes edge (edges.filter fun e => keeps e.source e.target) := by
  induction edges with
  | nil => simp [putEdgeAttributes, hedge]
  | cons e rest ih =>
    by_cases hat : e.isAt edge.source edge.target edge.label = true
    · have hkey : e.source = edge.source ∧ e.target = edge.target := by
        have heq := Edge.isAt_iff.1 hat
        simp only [Edge.key, Prod.mk.injEq] at heq
        exact ⟨heq.1, heq.2.1⟩
      simp [putEdgeAttributes, hat, hkey, hedge]
    · by_cases hkeeps : keeps e.source e.target = true
      · simp [putEdgeAttributes, hat, hkeeps, ih]
      · simp [putEdgeAttributes, hat, hkeeps, ih]

theorem lookup_nodesOf (g : Graph) (id : String) :
    lookup (g.nodesOf q) ⟨q, id⟩ = g.attributes? ⟨q, id⟩ := by
  rw [nodesOf, attributes?]
  induction g.nodes with
  | nil => rfl
  | cons node rest ih =>
    obtain ⟨k, old⟩ := node
    by_cases hk : k = ⟨q, id⟩
    · subst hk
      simp [lookup]
    · by_cases hproject : k.project = q
      · simp [lookup, hk, hproject, ih]
      · simp [lookup, hk, hproject, ih]

namespace SameIn

theorem hasNode_eq (hsame : SameIn q g h) (id : String) :
    h.hasNode ⟨q, id⟩ = g.hasNode ⟨q, id⟩ := by
  rw [hasNode, hasNode, ← lookup_nodesOf, ← lookup_nodesOf, hsame.nodes]

theorem hasEnds_eq (hsame : SameIn q g h) (r : Relationship) : h.hasEnds q r = g.hasEnds q r := by
  rw [hasEnds, hasEnds, hsame.hasNode_eq, hsame.hasNode_eq]

theorem after_mergeEntity (hsame : SameIn q g h) (e : Enriched) :
    SameIn q (g.mergeEntity stamp q e) (h.mergeEntity stamp q e) := by
  have hnodes (g : Graph) : (g.mergeEntity stamp q e).nodesOf q =
      putAttributes ⟨q, e.id⟩ (nodeAttributes stamp q e) (g.nodesOf q) := by
    exact filter_putAttributes_of_keeps (fun key => key.project == q) (beq_self_eq_true q) _ _
  refine ⟨?_, hsame.edges⟩
  rw [hnodes, hnodes, hsame.nodes]

/-- Merging the same entities of a project. -/
theorem after_mergeEntities (hsame : SameIn q g h) (entities : List Enriched) :
    SameIn q (g.mergeEntities stamp q entities) (h.mergeEntities stamp q entities) := by
  induction entities generalizing g h with
  | nil => exact hsame
  | cons e rest ih => exact ih (hsame.after_mergeEntity e)

theorem after_mergeRelationship (hsame : SameIn q g h) (r : Relationship) :
    SameIn q (g.mergeRelationship stamp q r) (h.mergeRelationship stamp q r) := by
  have hnodes (g : Graph) : (g.mergeRelationship stamp q r).nodesOf q = g.nodesOf q := by
    rw [nodesOf, nodesOf, nodes_mergeRelationship stamp g r]
  refine ⟨by rw [hnodes, hnodes, hsame.nodes], ?_⟩
  rw [Graph.mergeRelationship, Graph.mergeRelationship, hsame.hasEnds_eq]
  split
  · rename_i hends
    have hends' := (hsame.hasEnds_eq r).trans hends
    rw [hasEnds, Bool.and_eq_true] at hends hends'
    have hsame' := hsame.edges
    rw [edgesOf, edgesOf] at hsame' ⊢
    simp only [putEdge, ensureNode, hends.1, hends.2, hends'.1, hends'.2, if_true]
    have hput (edges : List Edge) :
        (putEdgeAttributes ⟨⟨q, r.source⟩, ⟨q, r.target⟩, r.type, edgeAttributes stamp q r⟩
          edges).filter (fun e => e.isOf q) =
        putEdgeAttributes ⟨⟨q, r.source⟩, ⟨q, r.target⟩, r.type, edgeAttributes stamp q r⟩
          (edges.filter fun e => e.isOf q) :=
      filter_putEdgeAttributes_of_keeps
        (fun source target => source.project == q || target.project == q) (by simp) edges
    rw [hput, hput, hsame']
  · exact hsame.edges

/-- Merging the same relationships of a project puts as many edges. -/
theorem after_mergeRelationships (hsame : SameIn q g h) (stamp : String)
    (relationships : List Relationship) :
    SameIn q (g.mergeRelationships stamp q relationships).1
        (h.mergeRelationships stamp q relationships).1 ∧
      (h.mergeRelationships stamp q relationships).2 =
        (g.mergeRelationships stamp q relationships).2 := by
  induction relationships generalizing g h with
  | nil => exact ⟨hsame, rfl⟩
  | cons r rest ih =>
    have hfirst : SameIn q (g.mergeRelationship stamp q r) (h.mergeRelationship stamp q r) :=
      hsame.after_mergeRelationship r
    obtain ⟨hmerged, hcount⟩ := ih hfirst
    rw [Graph.mergeRelationships, Graph.mergeRelationships]
    refine ⟨hmerged, ?_⟩
    dsimp only
    rw [hcount, hsame.hasEnds_eq]

theorem stale_eq (hsame : SameIn q g h) (current : List String) (scope : Option (List String)) :
    h.stale q current scope = g.stale q current scope := by
  have hstale (g : Graph) : g.stale q current scope = ((g.nodesOf q).filter fun node =>
      !current.contains node.1.id && isInScope scope node.2).map Prod.fst := by
    rw [stale, nodesOf, List.filter_filter]
    refine congrArg _ (List.filter_congr fun node _ => ?_)
    show (node.1.project == q && !current.contains node.1.id && isInScope scope node.2) = _
    rw [Bool.and_assoc, Bool.and_comm]
  rw [hstale, hstale, hsame.nodes]

/-- Removing the same nodes. -/
theorem after_remove (hsame : SameIn q g h) (keys : List NodeKey) :
    SameIn q (g.remove keys) (h.remove keys) := by
  have hnodes (g : Graph) : (g.remove keys).nodesOf q =
      (g.nodesOf q).filter fun node => !keys.contains node.1 := by
    simp only [nodesOf, Graph.remove, List.filter_filter, Bool.and_comm]
  have hedges (g : Graph) : (g.remove keys).edgesOf q =
      (g.edgesOf q).filter fun e => !e.touches keys := by
    simp only [edgesOf, Graph.remove, List.filter_filter, Bool.and_comm]
  exact ⟨by rw [hnodes, hnodes, hsame.nodes], by rw [hedges, hedges, hsame.edges]⟩

end SameIn

end Graph

/-! ### Requests -/

/-- Two worlds have the same nodes and edges of a project in their open graphs, the same points of
it, and both have a client or none. -/
structure OpenStores (project : String) (w w' : World) : Prop where
  cwd_eq : w'.cwd = w.cwd
  same : GraphStore.SameFor project w w'
  client_eq : w'.hasVectorClient = w.hasVectorClient

theorem OpenStores.still_iff {project : String} {w w' : World} :
    OpenStores project w.still w'.still ↔ OpenStores project w w' :=
  ⟨fun ⟨hcwd, ⟨hgraph, hpoints⟩, hclient⟩ => ⟨hcwd, ⟨hgraph, hpoints⟩, hclient⟩,
    fun ⟨hcwd, ⟨hgraph, hpoints⟩, hclient⟩ => ⟨hcwd, ⟨hgraph, hpoints⟩, hclient⟩⟩

theorem OpenStores.opened {project : String} {w w' : World} {g h : Graph}
    (hw : OpenStores project w w') (hgraph : Graph.SameIn project g h) :
    OpenStores project { w with openGraph := g } { w' with openGraph := h } :=
  ⟨hw.cwd_eq, ⟨hgraph, hw.same.points⟩, hw.client_eq⟩

variable {related : List Event → List Event → Prop} {outside outside' : Outside} {project : String}

section Alike

variable (halike : Outside.Alike related outside outside')

include halike

namespace GraphStore

theorem keeps_mergeBatch (batch : List Enriched) :
    Keeps (Tied related (OpenStores project)) outside outside' (mergeBatch project batch) := by
  rw [mergeBatch]
  refine (Build.keeps_attempt halike _).bind fun _ =>
    (Build.keeps_stamp halike).bind fun stamp => ?_
  refine Build.keeps_modify (fun _ => rfl) (fun _ => rfl) fun v v' hv => ?_
  exact hv.opened (hv.same.graph.after_mergeEntities batch)

theorem keeps_upsertEntities (file? : Option String) (entities : List Enriched) :
    Keeps (Tied related (OpenStores project)) outside outside'
      ((file file?).upsertEntities project entities) := by
  rw [upsertEntities]
  refine Keeps.bind (Keeps.forM fun item _ => ?_) fun _ => .pure _
  exact (keeps_mergeBatch halike _).bind fun _ => Build.keeps_log halike _ _ _

theorem keeps_knownOnly {state : World → World → Prop} (relationships : List Relationship) :
    Keeps (Tied related state) outside outside' (knownOnly relationships) := by
  induction relationships with
  | nil => exact .pure _
  | cons r rest ih =>
    rw [knownOnly]
    refine .ite (fun _ => ih.bind fun _ => .pure _) fun _ => ?_
    exact (Build.keeps_log halike _ _ _).bind fun _ => ih

theorem keeps_mergeOpen (relationships : List Relationship) :
    Keeps (Tied related (OpenStores project)) outside outside'
      (mergeOpen project relationships) := by
  rw [mergeOpen]
  refine (Build.keeps_attempt halike _).bind fun _ =>
    (Build.keeps_stamp halike).bind fun stamp => ?_
  intro w w' hw
  obtain ⟨hpast, hopen⟩ := hw
  rw [OpenStores.still_iff] at hopen
  obtain ⟨hmerged, hcount⟩ := hopen.same.graph.after_mergeRelationships stamp relationships
  refine Build.twin_get (Build.twin_bind (Build.twin_set ?_))
  rw [hcount]
  exact Build.twin_pure ⟨hpast, OpenStores.still_iff.2 (hopen.opened hmerged)⟩

theorem keeps_upsertRelationships (file? : Option String) (relationships : List Relationship) :
    Keeps (Tied related (OpenStores project)) outside outside'
      ((file file?).upsertRelationships project relationships) := by
  rw [upsertRelationships]
  refine (keeps_knownOnly halike relationships).bind fun known => ?_
  exact (keeps_mergeOpen halike known).bind fun _ => .pure _

theorem keeps_prune (file? : Option String) (current : List String) (scope : Option (List String)) :
    Keeps (Tied related (OpenStores project)) outside outside'
      ((file file?).prune project current scope) := by
  rw [prune]
  refine (Build.keeps_attempt halike _).bind fun _ w w' hw => ?_
  obtain ⟨hpast, hopen⟩ := hw
  rw [OpenStores.still_iff] at hopen
  have hkept := hopen.same.graph.after_remove (w.openGraph.stale project current scope)
  refine Build.twin_get (Build.twin_bind (Build.twin_set ?_))
  rw [hopen.same.graph.stale_eq]
  exact ((Build.keeps_log halike _ _ _).bind fun _ => .pure _) _ _
    ⟨hpast, OpenStores.still_iff.2 (hopen.opened hkept)⟩

end GraphStore

namespace VectorStore

variable {v : VectorStore} (hv : v.project = project)

theorem keeps_connect (v : VectorStore) :
    Keeps (Tied related (OpenStores project)) outside outside' v.connect := by
  have hmake : Keeps (Tied related (OpenStores project)) outside outside' (do
      Build.attempt (.connect (.vector v.url))
      modify fun w => { w with hasVectorClient := true }) := by
    refine (Build.keeps_attempt halike _).bind fun _ => ?_
    refine Build.keeps_modify (fun _ => rfl) (fun _ => rfl) fun w w' hw => ?_
    exact ⟨hw.cwd_eq, ⟨hw.same.graph, hw.same.points⟩, rfl⟩
  intro w w' hw
  have hclient : w'.hasVectorClient = w.hasVectorClient := hw.2.client_eq
  rw [connect]
  refine Build.twin_get ?_
  rw [hclient]
  exact Keeps.ite (fun _ => hmake) (fun _ => .pure _) w w' hw

/-- Closing the vector store, where both runs have a client or none. -/
theorem keeps_close {state : World → World → Prop} (v : VectorStore)
    (hclient : ∀ w w', state w w' → w'.hasVectorClient = w.hasVectorClient)
    (hleave : ∀ w w', state w w' →
      state { w with hasVectorClient := false } { w' with hasVectorClient := false }) :
    Keeps (Tied related state) outside outside' v.close := by
  have hleft : Keeps (Tied related state) outside outside' (do
      Build.note (.disconnect (.vector v.url))
      modify fun w => { w with hasVectorClient := false }) :=
    (Build.keeps_note halike _).bind fun _ => Build.keeps_modify (fun _ => rfl)
      (fun _ => rfl) hleave
  intro w w' hw
  have hsame : w'.hasVectorClient = w.hasVectorClient := hclient w.still w'.still hw.2
  rw [close]
  refine Build.twin_get ?_
  rw [hsame]
  exact Keeps.ite (fun _ => hleft) (fun _ => .pure _) w w' hw

include hv

omit halike in
/-- The project's collection is the same. -/
theorem get?_eq {w w' : World} (hw : Tied related (OpenStores project) w w') :
    w'.collections.get? v.collection = w.collections.get? v.collection := hw.2.same.points v hv

omit halike in
/-- Putting the same collection of the project. -/
theorem keeps_put (c : Collection) : Keeps (Tied related (OpenStores project)) outside outside'
    (modify fun w => { w with collections := w.collections.set v.collection c }) := by
  refine Build.keeps_modify (fun _ => rfl) (fun _ => rfl) fun w w' hw => ?_
  refine ⟨hw.cwd_eq, ⟨hw.same.graph, fun u hu => ?_⟩, hw.client_eq⟩
  have hcollection : u.collection = v.collection := by rw [collection, collection, hu, hv]
  rw [hcollection]
  exact (Collections.get?_set_self _ _ c).trans (Collections.get?_set_self _ _ c).symm

theorem keeps_change (call : VectorCall) (f : Collection → Collection) :
    Keeps (Tied related (OpenStores project)) outside outside' (v.change call f) := by
  have hpresent : Keeps (Tied related (OpenStores project)) outside outside' v.present := by
    intro w w' hw
    rw [present]
    refine Build.twin_get ?_
    rw [get?_eq hv hw]
    cases w.collections.get? v.collection with
    | some c => exact Build.twin_pure hw
    | none => exact Build.twin_fail hw
  rw [change]
  exact (Build.keeps_attempt halike _).bind fun _ => hpresent.bind fun c => keeps_put hv (f c)

theorem keeps_ensure : Keeps (Tied related (OpenStores project)) outside outside' v.ensure := by
  rw [ensure]
  refine (keeps_connect halike v).bind fun _ w w' hw => ?_
  refine Build.twin_get ?_
  rw [get?_eq hv hw]
  cases w.collections.get? v.collection with
  | none =>
    exact ((Build.keeps_attempt halike _).bind fun _ => (keeps_put hv _).bind fun _ =>
      Build.keeps_log halike _ _ _) w w' hw
  | some c =>
    exact Keeps.ite (fun _ => (Build.keeps_log halike _ _ _).bind fun _ => .fail _)
      (fun _ => .pure _) w w' hw

omit hv in
theorem keeps_pointsOf (v : VectorStore) (entities : List Enriched) :
    Keeps (Tied related (OpenStores project)) outside outside' (v.pointsOf entities) := by
  induction entities with
  | nil => exact .pure _
  | cons e rest ih =>
    rw [pointsOf]
    refine .ite (fun _ => ih) fun _ => .ite (fun _ => ?_) fun _ => ih.bind fun _ => .pure _
    exact (Build.keeps_log halike _ _ _).bind fun _ => ih

theorem keeps_upsertEntities (entities : List Enriched) :
    Keeps (Tied related (OpenStores project)) outside outside' (v.upsertEntities entities) := by
  rw [upsertEntities]
  refine (keeps_pointsOf halike v entities).bind fun points => ?_
  refine .ite (fun _ => (Build.keeps_log halike _ _ _).bind fun _ => .pure _) fun _ => ?_
  refine (keeps_connect halike v).bind fun _ =>
    Keeps.bind (Keeps.forM fun item _ => ?_) fun _ => .pure _
  exact (keeps_change halike hv _ _).bind fun _ => Build.keeps_log halike _ _ _

theorem keeps_deleteEntities (ids : List String) :
    Keeps (Tied related (OpenStores project)) outside outside' (v.deleteEntities ids) := by
  rw [deleteEntities]
  refine .ite (fun _ => .pure _) fun _ => ?_
  refine (keeps_connect halike v).bind fun _ =>
    Keeps.bind (Keeps.forM fun batch _ => ?_) fun _ => .pure _
  exact keeps_change halike hv _ _

end VectorStore

end Alike

end RepoGraph
