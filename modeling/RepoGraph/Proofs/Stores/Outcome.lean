import RepoGraph.Proofs.Populate.Success
import RepoGraph.Proofs.Stores.Sound

/-!
# What a graph store makes of requests

`GraphRequest.Outcome g request answer h` says that a store with the graph `g` may answer a request
with `answer` and have the graph `h` then.  When something is merged is left open, and so is the
order of relationships of different types: only those of one type are taken in their order.

Neither shows, as long as one looks at nodes and edges by their keys and leaves the time of the
merge out (`Graph.Agrees`): whatever two stores make of the same requests, their graphs agree in the
end, and their answers agree up to the order of ids.  The graph of a file has such outcomes.

Main statements: `Graph.Agrees.mergeRelationships`, `GraphRequest.Outcome.agrees`,
`GraphRequest.Outcomes.agrees`, `GraphStore.wp_answer_file`.
-/

namespace RepoGraph

/-! ### Graphs that agree -/

namespace Graph

variable {g h g' h' : Graph} {project : String}

/-- Two graphs say the same of every node and edge, but for when it was merged. -/
structure Agrees (g h : Graph) : Prop where
  nodes : ∀ key, h.nodeFacts key = g.nodeFacts key
  edges : ∀ source target label,
    h.edgeFacts source target label = g.edgeFacts source target label

theorem Agrees.refl (g : Graph) : g.Agrees g := ⟨fun _ => rfl, fun _ _ _ => rfl⟩

theorem Agrees.hasNode_eq (hagrees : g.Agrees h) (key : NodeKey) :
    h.hasNode key = g.hasNode key := by
  rw [← isSome_nodeFacts, ← isSome_nodeFacts, hagrees.nodes]

/-- The nodes of a graph and what they say. -/
def nodesSaid (g : Graph) : List (NodeKey × Facts) :=
  g.nodes.map fun node => (node.1, Fields.facts node.2)

/-- The edges of a graph and what they say. -/
def edgesSaid (g : Graph) : List ((NodeKey × NodeKey × String) × Facts) :=
  g.edges.map fun e => (e.key, Fields.facts e.attributes)

theorem mem_nodesSaid {key : NodeKey} {f : Facts} :
    (key, f) ∈ g.nodesSaid ↔ g.nodeFacts key = some f := by
  rw [nodesSaid, nodeFacts, List.mem_map, Option.map_eq_some_iff]
  constructor
  · rintro ⟨⟨k, attributes⟩, hmem, heq⟩
    obtain ⟨rfl, rfl⟩ := Prod.mk.inj heq
    exact ⟨attributes, attributes?_eq_some_iff.2 hmem, rfl⟩
  · rintro ⟨attributes, hattributes, rfl⟩
    exact ⟨(key, attributes), attributes?_eq_some_iff.1 hattributes, rfl⟩

theorem mem_edgesSaid {source target : NodeKey} {label : String} {f : Facts} :
    ((source, target, label), f) ∈ g.edgesSaid ↔ g.edgeFacts source target label = some f := by
  rw [edgesSaid, edgeFacts, edge?, Option.map_map, List.mem_map, Option.map_eq_some_iff]
  constructor
  · rintro ⟨e, he, heq⟩
    obtain ⟨hkey, rfl⟩ := Prod.mk.inj heq
    obtain ⟨e', hfind⟩ := Option.isSome_iff_exists.1
      (List.find?_isSome (p := fun e => e.isAt source target label).2 ⟨e, he, Edge.isAt_iff.2 hkey⟩)
    have hat : e'.isAt source target label = true := by simpa using List.find?_some hfind
    have hsame : e' = e := List.inj_on_of_nodup_map g.nodup_edges
      (List.mem_of_find?_eq_some hfind) he ((Edge.isAt_iff.1 hat).trans hkey.symm)
    exact ⟨e, hsame ▸ hfind, rfl⟩
  · rintro ⟨e, hfind, rfl⟩
    have hat : e.isAt source target label = true := by simpa using List.find?_some hfind
    exact ⟨e, List.mem_of_find?_eq_some hfind, congrArg₂ Prod.mk (Edge.isAt_iff.1 hat) rfl⟩

theorem Agrees.nodesSaid_perm (hagrees : g.Agrees h) : h.nodesSaid.Perm g.nodesSaid := by
  have hnodup (k : Graph) : k.nodesSaid.Nodup := by
    refine List.Nodup.of_map Prod.fst ?_
    rw [nodesSaid, List.map_map]
    exact k.nodup_nodes
  refine (List.perm_ext_iff_of_nodup (hnodup h) (hnodup g)).2 fun ⟨key, f⟩ => ?_
  rw [mem_nodesSaid, mem_nodesSaid, hagrees.nodes]

theorem Agrees.edgesSaid_perm (hagrees : g.Agrees h) : h.edgesSaid.Perm g.edgesSaid := by
  have hnodup (k : Graph) : k.edgesSaid.Nodup := by
    refine List.Nodup.of_map Prod.fst ?_
    rw [edgesSaid, List.map_map]
    exact k.nodup_edges
  refine (List.perm_ext_iff_of_nodup (hnodup h) (hnodup g)).2 fun ⟨⟨source, target, label⟩, f⟩ => ?_
  rw [mem_edgesSaid, mem_edgesSaid, hagrees.edges]

/-- Graphs that agree have as many nodes and edges of a project. -/
theorem Agrees.counts_eq (hagrees : g.Agrees h) (project : String) :
    h.counts project = g.counts project := by
  have hnodes : (h.nodeIds project).Perm (g.nodeIds project) := by
    have hkeys : (h.nodes.map Prod.fst).Perm (g.nodes.map Prod.fst) := by
      have hperm := hagrees.nodesSaid_perm.map Prod.fst
      rw [nodesSaid, nodesSaid, List.map_map, List.map_map] at hperm
      exact hperm
    exact (hkeys.filter _).map _
  have htriples : (h.triples project).Perm (g.triples project) := by
    have hkeys : (h.edges.map Edge.key).Perm (g.edges.map Edge.key) := by
      have hperm := hagrees.edgesSaid_perm.map Prod.fst
      rw [edgesSaid, edgesSaid, List.map_map, List.map_map] at hperm
      exact hperm
    have htriple (k : Graph) : k.triples project =
        ((k.edges.map Edge.key).filter fun key => key.1.project == project).map
          fun key => (key.1.id, key.2.2, key.2.1.id) := by
      rw [triples, List.filter_map, List.map_map]
      rfl
    rw [htriple, htriple]
    exact (hkeys.filter _).map _
  rw [counts, counts, hnodes.length_eq, htriples.length_eq]

/-! ### Merging and pruning in graphs that agree -/

/-- Merging the same entities, whenever, makes graphs that agree. -/
theorem Agrees.of_merges (hagrees : g.Agrees h) {entities : List Enriched}
    (hg : Merges project g entities g') (hh : Merges project h entities h') : g'.Agrees h' := by
  constructor
  · intro key
    by_cases hkey : key.project = project
    · obtain ⟨p, id⟩ := key
      subst hkey
      rw [nodeFacts_of_merges hh, nodeFacts_of_merges hg, hagrees.nodes]
    · rw [nodeFacts, nodeFacts, attributes?_of_merges hh (.inl hkey),
        attributes?_of_merges hg (.inl hkey)]
      exact hagrees.nodes key
  · intro source target label
    rw [edgeFacts, edgeFacts, edge?, edge?, edges_of_merges hh, edges_of_merges hg]
    exact hagrees.edges source target label

end Graph

/-- Two lists have the same relationships of each type, in the same order. -/
def Relationship.SameByType (relationships others : List Relationship) : Prop :=
  ∀ type, others.filter (fun r => r.type == type) = relationships.filter fun r => r.type == type

namespace Relationship

variable {relationships others : List Relationship}

theorem SameByType.refl (relationships : List Relationship) :
    SameByType relationships relationships := fun _ => rfl

theorem SameByType.append {more moreOthers : List Relationship}
    (h : SameByType relationships others) (h' : SameByType more moreOthers) :
    SameByType (relationships ++ more) (others ++ moreOthers) := by
  intro type
  rw [List.filter_append, List.filter_append, h type, h' type]

/-- The last relationship at a place is the last of its type there. -/
theorem SameByType.lastAt?_eq (h : SameByType relationships others)
    (at_ : String × String × String) : lastAt? others at_ = lastAt? relationships at_ := by
  have hplace (rs : List Relationship) : lastAt? rs at_ =
      (((rs.filter fun r => r.type == at_.2.2).filter fun r => r.place == at_).reverse).head? := by
    rw [lastAt?, List.filter_filter, ← List.filter_reverse, List.head?_filter]
    congr 1
    funext r
    rw [Bool.eq_iff_iff, Bool.and_eq_true]
    refine ⟨fun hr => ⟨hr, ?_⟩, And.left⟩
    rw [← beq_iff_eq.1 hr]
    exact BEq.rfl
  rw [hplace, hplace, h]

/-- Lists with the same relationships of each type have the same relationships. -/
theorem SameByType.perm (h : SameByType relationships others) : others.Perm relationships := by
  classical
  refine List.perm_iff_count.2 fun r => ?_
  have hcount (rs : List Relationship) :
      (rs.filter fun r' => r'.type == r.type).count r = rs.count r := List.count_filter BEq.rfl
  rw [← hcount, h, hcount]

theorem SameByType.isKnownType (h : SameByType relationships others)
    (hknown : ∀ r ∈ relationships, isKnownType r.type = true) :
    ∀ r ∈ others, Relationship.isKnownType r.type = true :=
  fun r hr => hknown r (h.perm.mem_iff.1 hr)

end Relationship

namespace Graph

variable {g h g' h' : Graph} {project : String}

theorem hasEnds_mergeRelationship (stamp project : String) (g : Graph) (r : Relationship) :
    (g.mergeRelationship stamp project r).hasEnds project = g.hasEnds project := by
  have hnodes : (g.mergeRelationship stamp project r).nodes = g.nodes :=
    nodes_mergeRelationship stamp g r
  funext r'
  rw [hasEnds, hasEnds, hasNode_congr hnodes, hasNode_congr hnodes]

/-- The relationships that are counted are those with both ends. -/
theorem count_mergeRelationships (stamp project : String) (g : Graph)
    (relationships : List Relationship) :
    (g.mergeRelationships stamp project relationships).2 =
      (relationships.filter (g.hasEnds project)).length := by
  induction relationships generalizing g with
  | nil => rfl
  | cons r rest ih =>
    rw [mergeRelationships]
    simp only [ih, hasEnds_mergeRelationship]
    cases hends : g.hasEnds project r with
    | true => rw [List.filter_cons_of_pos hends, if_pos rfl, List.length_cons]
    | false => rw [List.filter_cons_of_neg (by simp [hends]), if_neg (by decide)]

open Relationship in
/-- Merging relationships, of each type in the same order, makes graphs that agree, and merges as
many. -/
theorem Agrees.mergeRelationships (hagrees : g.Agrees h) {relationships others : List Relationship}
    (hsame : SameByType relationships others) (stamp stamp' : String) :
    (g.mergeRelationships stamp project relationships).1.Agrees
        (h.mergeRelationships stamp' project others).1 ∧
      (h.mergeRelationships stamp' project others).2 =
        (g.mergeRelationships stamp project relationships).2 := by
  refine ⟨⟨fun key => ?_, fun source target label => ?_⟩, ?_⟩
  · rw [nodeFacts, nodeFacts, attributes?, attributes?, nodes_mergeRelationships,
      nodes_mergeRelationships]
    exact hagrees.nodes key
  · -- edges of other projects stay; one of the project is as its last relationship says
    by_cases hother : source.project ≠ project ∨ target.project ≠ project
    · rw [edgeFacts, edgeFacts, edge?_mergeRelationships _ _ _ hother,
        edge?_mergeRelationships _ _ _ hother]
      exact hagrees.edges source target label
    · rw [not_or, not_not, not_not] at hother
      obtain ⟨hsource, htarget⟩ := hother
      have hg : (g.mergeRelationships stamp project relationships).1.edgeFacts _ _ _ = _ :=
        edgeFacts_mergeRelationships stamp g relationships (source.id, target.id, label)
      have hh : (h.mergeRelationships stamp' project others).1.edgeFacts _ _ _ = _ :=
        edgeFacts_mergeRelationships stamp' h others (source.id, target.id, label)
      have hsourceKey : source = ⟨project, source.id⟩ := by rw [← hsource]
      have htargetKey : target = ⟨project, target.id⟩ := by rw [← htarget]
      rw [hagrees.hasNode_eq, hagrees.hasNode_eq, hagrees.edges, edgeAfter, hsame.lastAt?_eq] at hh
      rw [hsourceKey, htargetKey]
      exact hh.trans hg.symm
  · have hends : h.hasEnds project = g.hasEnds project := by
      funext r
      rw [hasEnds, hasEnds, hagrees.hasNode_eq, hagrees.hasNode_eq]
    rw [count_mergeRelationships, count_mergeRelationships, hends]
    exact (hsame.perm.filter _).length_eq

/-- Pruning removes the same nodes of graphs that agree. -/
theorem Agrees.prune (hagrees : g.Agrees h) (current : List String)
    (scope : Option (List String)) :
    (g.prune project current scope).1.Agrees (h.prune project current scope).1 ∧
      (h.prune project current scope).2.Perm (g.prune project current scope).2 := by
  have hstale (key : NodeKey) :
      key ∈ h.stale project current scope ↔ key ∈ g.stale project current scope := by
    rw [mem_stale_iff, mem_stale_iff, hagrees.nodes]
  refine ⟨⟨fun key => ?_, fun source target label => ?_⟩, ?_⟩
  · rw [Graph.prune, Graph.prune, nodeFacts_remove, nodeFacts_remove, hagrees.nodes]
    simp only [hstale]
  · rw [Graph.prune, Graph.prune, edgeFacts_remove, edgeFacts_remove, hagrees.edges]
    simp only [hstale]
  · refine (List.perm_ext_iff_of_nodup (nodup_gone h current scope)
      (nodup_gone g current scope)).2 fun id => ?_
    rw [mem_gone_iff, mem_gone_iff, hagrees.nodes]

end Graph

/-! ### Outcomes -/

/-- Two answers are the same, up to the order of ids. -/
inductive GraphAnswer.Agrees : GraphAnswer → GraphAnswer → Prop where
  | merged (n : Int) : Agrees (.merged n) (.merged n)
  | gone {ids others : List String} (h : others.Perm ids) : Agrees (.gone ids) (.gone others)
  | counted (c : GraphCounts) : Agrees (.counted c) (.counted c)

/-- A store with a graph may give an answer to a request and have another graph then. -/
inductive GraphRequest.Outcome (g : Graph) : GraphRequest → GraphAnswer → Graph → Prop where
  | entities {project : String} {entities : List Enriched} {h : Graph}
      (hm : Graph.Merges project g entities h) :
      Outcome g (.entities project entities) (.merged entities.length) h
  | relationships {project : String} {relationships others : List Relationship} (stamp : String)
      (hsame : Relationship.SameByType (GraphStore.knownOf relationships) others) :
      Outcome g (.relationships project relationships)
        (.merged (g.mergeRelationships stamp project others).2)
        (g.mergeRelationships stamp project others).1
  | prune {project : String} {current : List String} {scope : Option (List String)} :
      Outcome g (.prune project current scope) (.gone (g.prune project current scope).2)
        (g.prune project current scope).1
  | counts {project : String} : Outcome g (.counts project) (.counted (g.counts project)) g

/-- Outcomes of requests, one after the other. -/
inductive GraphRequest.Outcomes : Graph → List GraphRequest → List GraphAnswer → Graph → Prop where
  | nil {g : Graph} : Outcomes g [] [] g
  | cons {g h k : Graph} {request : GraphRequest} {rest : List GraphRequest} {answer : GraphAnswer}
      {answers : List GraphAnswer} (first : request.Outcome g answer h)
      (others : Outcomes h rest answers k) : Outcomes g (request :: rest) (answer :: answers) k

namespace GraphRequest

variable {g h g' h' : Graph} {request : GraphRequest} {answer answer' : GraphAnswer}

/-- Graphs that agree have outcomes that agree. -/
theorem Outcome.agrees (hg : request.Outcome g answer g') (hh : request.Outcome h answer' h')
    (hagrees : g.Agrees h) : g'.Agrees h' ∧ answer.Agrees answer' := by
  cases hg with
  | entities hm =>
    cases hh with
    | entities hm' => exact ⟨hagrees.of_merges hm hm', .merged _⟩
  | @relationships project relationships others stamp hsame =>
    cases hh with
    | @relationships _ _ others' stamp' hsame' =>
      -- each took the relationships in its own order, but those of one type in the given one
      have hboth : Relationship.SameByType others others' := fun type =>
        (hsame' type).trans (hsame type).symm
      obtain ⟨hgraphs, hcount⟩ : (g.mergeRelationships stamp project others).1.Agrees
          (h.mergeRelationships stamp' project others').1 ∧ _ :=
        hagrees.mergeRelationships hboth stamp stamp'
      rw [hcount]
      exact ⟨hgraphs, .merged _⟩
  | prune =>
    cases hh with
    | prune =>
      obtain ⟨hgraphs, hgone⟩ := hagrees.prune _ _
      exact ⟨hgraphs, .gone hgone⟩
  | counts =>
    cases hh with
    | counts =>
      rw [hagrees.counts_eq]
      exact ⟨hagrees, .counted _⟩

/-- What is made of the same requests agrees, however it is made. -/
theorem Outcomes.agrees {requests : List GraphRequest} {answers answers' : List GraphAnswer}
    (hg : Outcomes g requests answers g') (hh : Outcomes h requests answers' h')
    (hagrees : g.Agrees h) :
    g'.Agrees h' ∧ List.Forall₂ GraphAnswer.Agrees answers answers' := by
  induction hg generalizing h answers' with
  | nil =>
    cases hh with
    | nil => exact ⟨hagrees, .nil⟩
  | cons first others ih =>
    cases hh with
    | cons first' others' =>
      obtain ⟨hgraphs, hanswer⟩ := first.agrees first' hagrees
      obtain ⟨hlast, hanswers⟩ := ih others' hgraphs
      exact ⟨hlast, .cons hanswer hanswers⟩

/-- An outcome keeps a graph sound. -/
theorem Outcome.isSound (hg : request.Outcome g answer g') (hsound : g.IsSound) : g'.IsSound := by
  cases hg with
  | entities hm => exact hsound.of_merges hm
  | relationships stamp hsame =>
    exact hsound.mergeRelationships (hsame.isKnownType GraphStore.isKnownType_of_mem_knownOf)
  | prune => exact hsound.remove _
  | counts => exact hsound

end GraphRequest

/-! ### Answers -/

namespace GraphStore

/-- What a store answers to requests, one after the other. -/
def answers (store : GraphStore) : List GraphRequest → Build (List GraphAnswer)
  | [] => pure []
  | request :: rest => do
    let answer ← store.answer request
    return answer :: (← answers store rest)

variable {outside : Outside} {w : World}

/-- A store that has an outcome of each request has outcomes of all of them. -/
theorem wp_answers {store : GraphStore} (has : Graph → World → Prop)
    (hstep : ∀ g w request, has g w → (store.answer request).wp
      (fun answer w' => ∃ h, request.Outcome g answer h ∧ has h w') (fun _ _ => False) outside w)
    (requests : List GraphRequest) {g : Graph} (hg : has g w) :
    (store.answers requests).wp
      (fun answers w' => ∃ h, GraphRequest.Outcomes g requests answers h ∧ has h w')
      (fun _ _ => False) outside w := by
  induction requests generalizing g w with
  | nil => exact ⟨g, .nil, hg⟩
  | cons request rest ih =>
    rw [answers, Build.wp_bind]
    refine Build.wp_mono (hstep g w request hg) (fun answer w₁ ⟨h, hfirst, hw₁⟩ => ?_) fun _ _ => id
    rw [Build.wp_bind]
    refine Build.wp_mono (ih hw₁) (fun others w₂ ⟨k, hrest, hw₂⟩ => ?_) fun _ _ => id
    exact ⟨k, .cons hfirst hrest, hw₂⟩

/-- The graph of a file has an outcome of every request. -/
theorem wp_answer_file (hcalm : outside.IsCalm) (file? : Option String) (request : GraphRequest) :
    ((file file?).answer request).wp
      (fun answer w' => request.Outcome w.openGraph answer w'.openGraph) (fun _ _ => False)
      outside w := by
  cases request with
  | entities project entities =>
    -- all entities are counted, those that were nodes before too
    have hlength : (upsertEntities (file file?) project entities).wp
        (fun n _ => n = entities.length) (fun _ _ => True) outside w := by
      simp only [upsertEntities, Build.wp_bind, Build.wp_pure]
      exact Build.wp_forM (fun _ _ => True) (fun _ _ _ _ _ _ => Build.wp_true _) trivial
    simp only [answer, Build.wp_bind, Build.wp_pure]
    refine Build.wp_mono ((succeeds_upsertEntities hcalm file? project entities).wp
      (Build.wp_and (wp_upsertEntities rfl file? entities) hlength)) ?_ fun _ _ => id
    rintro n w' ⟨⟨h, hm, events, rfl⟩, rfl⟩
    exact .entities hm
  | relationships project relationships =>
    simp only [answer, upsertRelationships, Build.wp_bind, Build.wp_pure]
    refine wp_knownOnly fun events => ?_
    simp only [mergeOpen, Build.wp_bind, Build.wp_stamp, Build.wp_get, Build.wp_set, Build.wp_pure]
    refine Build.wp_mono (Build.wp_attempt_of_isCalm hcalm _) ?_ fun _ _ => id
    rintro _ w' rfl
    exact .relationships _ (.refl _)
  | prune project current scope =>
    simp only [answer, Build.wp_bind, Build.wp_pure]
    refine Build.wp_mono ((succeeds_prune hcalm file? project current scope).wp
      (wp_prune rfl file? current scope)) ?_ fun _ _ => id
    rintro gone w' ⟨rfl, events, rfl⟩
    exact .prune
  | counts project => exact .counts

end GraphStore

end RepoGraph
