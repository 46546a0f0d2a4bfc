import RepoGraph.Proofs.Graph.Facts

/-!
# Merging and removing, seen by what nodes and edges say

`Graph.Merges project g entities h`: the graph `h` comes of `g` by merging entities one after the
other, each at a time of its own.  Whatever the times are, a node of the project then says what the
last of the entities with its id says, over what it said before; edges are as they were.  Merging
relationships leaves the nodes as they are, and removing nodes takes the edges that touch them away.

Main statements: `Graph.nodeFacts_of_merges`, `Graph.edgeFacts_mergeRelationships`,
`Graph.mem_gone_iff`, `Graph.edgeFacts_remove`.
-/

namespace RepoGraph

open Enriching (lastOf?)

namespace Enriching

@[simp]
theorem lastOf?_nil (id : String) : lastOf? [] id = none := rfl

theorem lastOf?_snoc (entities : List Enriched) (e : Enriched) (id : String) :
    lastOf? (entities ++ [e]) id = if e.id = id then some e else lastOf? entities id := by
  simp only [lastOf?, List.reverse_append, List.reverse_cons, List.reverse_nil, List.nil_append,
    List.singleton_append, List.find?_cons]
  by_cases h : e.id = id
  · simp [h]
  · simp [h, beq_false_of_ne h]

theorem lastOf?_eq_none_iff {entities : List Enriched} {id : String} :
    lastOf? entities id = none ↔ id ∉ entities.map Enriched.id := by
  simp only [lastOf?, List.find?_eq_none, List.mem_reverse, beq_iff_eq, List.mem_map, not_exists,
    not_and]

theorem id_of_lastOf? {entities : List Enriched} {id : String} {e : Enriched}
    (h : lastOf? entities id = some e) : e.id = id := by
  simpa using List.find?_some h

theorem mem_of_lastOf? {entities : List Enriched} {id : String} {e : Enriched}
    (h : lastOf? entities id = some e) : e ∈ entities :=
  List.mem_reverse.1 (List.mem_of_find?_eq_some h)

end Enriching

/-- What the node of an id says after entities of its project were merged. -/
def Enriched.nodeAfter (project : String) (entities : List Enriched) (id : String)
    (before : Option Facts) : Option Facts :=
  match lastOf? entities id with
  | some e => e.laidOn project before
  | none => before

/-- What an edge between two nodes says after relationships were merged. -/
def Relationship.edgeAfter (project : String) (relationships : List Relationship)
    (at_ : String × String × String) (before : Option Facts) : Option Facts :=
  match Relationship.lastAt? relationships at_ with
  | some r => r.laidOn project before
  | none => before

namespace Graph

variable {project : String} {g h : Graph}

/-! ### Entities -/

/-- A graph comes of another one by merging entities, one after the other. -/
inductive Merges (project : String) (g : Graph) : List Enriched → Graph → Prop where
  | nil : Merges project g [] g
  | snoc {entities : List Enriched} {h : Graph} (stamp : String) (e : Enriched)
      (before : Merges project g entities h) :
      Merges project g (entities ++ [e]) (h.mergeEntity stamp project e)

theorem Merges.mergeEntities {entities : List Enriched} (hm : Merges project g entities h)
    (stamp : String) (batch : List Enriched) :
    Merges project g (entities ++ batch) (h.mergeEntities stamp project batch) := by
  induction batch generalizing entities h with
  | nil =>
    rw [List.append_nil]
    exact hm
  | cons e rest ih =>
    rw [← List.singleton_append, ← List.append_assoc]
    exact ih (hm.snoc stamp e)

/-- Merging an entity changes what its node says, and no other one. -/
theorem nodeFacts_mergeEntity (stamp : String) (g : Graph) (e : Enriched) (id : String) :
    (g.mergeEntity stamp project e).nodeFacts ⟨project, id⟩ =
      if e.id = id then e.laidOn project (g.nodeFacts ⟨project, id⟩)
      else g.nodeFacts ⟨project, id⟩ := by
  split
  · rename_i hid
    subst hid
    simp only [nodeFacts, mergeEntity, attributes?_putNode_self, Option.map_some]
    rw [Enriched.laidOn]
    cases g.attributes? ⟨project, e.id⟩ with
    | none =>
      simp only [Enriched.facts_nodeAttributes, Option.map_none, Option.getD_none, Facts.over_none]
    | some old =>
      simp only [Option.map_some, Option.getD_some]
      rw [Fields.facts_update (Enriched.nodup_nodeAttributes stamp project e),
        Enriched.facts_nodeAttributes]
  · rename_i hid
    have hkey : (⟨project, e.id⟩ : NodeKey) ≠ ⟨project, id⟩ := by simpa using hid
    simp only [nodeFacts, mergeEntity, attributes?_putNode_of_ne g hkey]

/-- The node of an id says what the last entity with the id says. -/
theorem nodeFacts_of_merges {entities : List Enriched} (hm : Merges project g entities h)
    (id : String) :
    h.nodeFacts ⟨project, id⟩ =
      Enriched.nodeAfter project entities id (g.nodeFacts ⟨project, id⟩) := by
  induction hm with
  | nil => rfl
  | @snoc entities h stamp e before ih =>
    rw [nodeFacts_mergeEntity, ih]
    simp only [Enriched.nodeAfter, Enriching.lastOf?_snoc]
    split
    · cases lastOf? entities id with
      | none => rfl
      | some e' => exact Enriched.laidOn_laidOn project e' e _
    · rfl

/-- Nodes of which no entity is merged are as they were. -/
theorem attributes?_of_merges {entities : List Enriched} (hm : Merges project g entities h)
    {key : NodeKey} (hkey : key.project ≠ project ∨ key.id ∉ entities.map Enriched.id) :
    h.attributes? key = g.attributes? key := by
  induction hm with
  | nil => rfl
  | @snoc entities h stamp e before ih =>
    rw [List.map_append, List.mem_append, not_or] at hkey
    rw [← ih (hkey.imp_right And.left)]
    refine attributes?_putNode_of_ne h ?_ _
    rintro rfl
    exact hkey.elim (fun h => h rfl) fun h => h.2 (List.mem_singleton.2 rfl)

/-- Merging entities leaves the edges as they are. -/
theorem edges_of_merges {entities : List Enriched} (hm : Merges project g entities h) :
    h.edges = g.edges := by
  induction hm with
  | nil => rfl
  | snoc stamp e before ih => exact ih

/-! ### Relationships -/

/-- The attributes of an edge that was put; it was there before with its attributes, or not. -/
theorem edge?_putEdge (g : Graph) (edge : Edge)
    (hsource : g.hasNode edge.source = true) (htarget : g.hasNode edge.target = true)
    (source target : NodeKey) (label : String) :
    (g.putEdge edge).edge? source target label =
      if edge.key = (source, target, label) then
        some (match g.edge? source target label with
          | some old => old.update edge.attributes
          | none => edge.attributes)
      else g.edge? source target label := by
  have hnodes : (g.ensureNode edge.source).ensureNode edge.target = g := by
    simp [ensureNode, hsource, htarget]
  simp only [edge?, putEdge, hnodes]
  induction g.edges with
  | nil =>
    by_cases h : edge.key = (source, target, label)
    · simp [putEdgeAttributes, Edge.isAt_iff.2 h, h]
    · have h' : edge.isAt source target label = false :=
        Bool.eq_false_iff.2 fun hat => h (Edge.isAt_iff.1 hat)
      simp [putEdgeAttributes, h, h']
  | cons e rest ih =>
    -- the first edge at the place is updated where it stands; the search finds the same one
    by_cases hput : e.isAt edge.source edge.target edge.label = true
    · have hkey : e.key = edge.key := Edge.isAt_iff.1 hput
      simp only [putEdgeAttributes, hput, if_true]
      by_cases h : edge.key = (source, target, label)
      · have hat : e.isAt source target label = true := Edge.isAt_iff.2 (hkey.trans h)
        have hat' : Edge.isAt { e with attributes := e.attributes.update edge.attributes }
            source target label = true := hat
        simp [h, hat, hat']
      · have hat : e.isAt source target label = false :=
          Bool.eq_false_iff.2 fun hat => h (hkey.symm.trans (Edge.isAt_iff.1 hat))
        have hat' : Edge.isAt { e with attributes := e.attributes.update edge.attributes }
            source target label = false := hat
        simp [h, hat, hat']
    · simp only [putEdgeAttributes, hput, Bool.false_eq_true, if_false]
      by_cases hat : e.isAt source target label = true
      · have h : ¬ edge.key = (source, target, label) := fun hk =>
          hput (Edge.isAt_iff.2 ((Edge.isAt_iff.1 hat).trans hk.symm))
        simp [hat, h]
      · simp only [List.find?_cons, hat]
        exact ih

theorem nodes_putEdge (g : Graph) (edge : Edge)
    (hsource : g.hasNode edge.source = true) (htarget : g.hasNode edge.target = true) :
    (g.putEdge edge).nodes = g.nodes := by
  simp [putEdge, ensureNode, hsource, htarget]

theorem edges_putEdge (g : Graph) (edge : Edge)
    (hsource : g.hasNode edge.source = true) (htarget : g.hasNode edge.target = true) :
    (g.putEdge edge).edges = putEdgeAttributes edge g.edges := by
  simp [putEdge, ensureNode, hsource, htarget]

theorem nodes_mergeRelationship (stamp : String) (g : Graph) (r : Relationship) :
    (g.mergeRelationship stamp project r).nodes = g.nodes := by
  rw [mergeRelationship]
  split
  · rename_i hends
    rw [hasEnds, Bool.and_eq_true] at hends
    exact nodes_putEdge g _ hends.1 hends.2
  · rfl

/-- Merging relationships leaves the nodes as they are. -/
theorem nodes_mergeRelationships (stamp : String) (g : Graph) (relationships : List Relationship) :
    (g.mergeRelationships stamp project relationships).1.nodes = g.nodes := by
  induction relationships generalizing g with
  | nil => rfl
  | cons r rest ih =>
    rw [mergeRelationships]
    exact (ih _).trans (nodes_mergeRelationship stamp g r)

theorem hasNode_congr {g h : Graph} (hnodes : h.nodes = g.nodes) (key : NodeKey) :
    h.hasNode key = g.hasNode key := by
  rw [hasNode, attributes?, hnodes]
  rfl

/-- The ends of a relationship, as keys of a project's nodes. -/
theorem key_mergeRelationship (stamp : String) (r : Relationship)
    (at_ : String × String × String) :
    Edge.key ⟨⟨project, r.source⟩, ⟨project, r.target⟩, r.type, edgeAttributes stamp project r⟩ =
        (⟨project, at_.1⟩, ⟨project, at_.2.1⟩, at_.2.2) ↔ r.place = at_ := by
  obtain ⟨source, target, label⟩ := at_
  simp [Edge.key, Relationship.place]

/-- Merging a relationship changes what its edge says, if both ends are there. -/
theorem edgeFacts_mergeRelationship (stamp : String) (g : Graph) (r : Relationship)
    (at_ : String × String × String) :
    (g.mergeRelationship stamp project r).edgeFacts ⟨project, at_.1⟩ ⟨project, at_.2.1⟩ at_.2.2 =
      if g.hasEnds project r = true ∧ r.place = at_ then
        r.laidOn project (g.edgeFacts ⟨project, at_.1⟩ ⟨project, at_.2.1⟩ at_.2.2)
      else g.edgeFacts ⟨project, at_.1⟩ ⟨project, at_.2.1⟩ at_.2.2 := by
  rw [mergeRelationship]
  by_cases hends : g.hasEnds project r = true
  · have hboth := hends
    rw [hasEnds, Bool.and_eq_true] at hboth
    have hput := edge?_putEdge g
      ⟨⟨project, r.source⟩, ⟨project, r.target⟩, r.type, edgeAttributes stamp project r⟩
      hboth.1 hboth.2 ⟨project, at_.1⟩ ⟨project, at_.2.1⟩ at_.2.2
    simp only [hends, if_true, true_and, edgeFacts, hput, key_mergeRelationship]
    split
    · simp only [Option.map_some, Relationship.laidOn]
      cases g.edge? ⟨project, at_.1⟩ ⟨project, at_.2.1⟩ at_.2.2 with
      | none => simp [Relationship.facts_edgeAttributes, Facts.over_none]
      | some old =>
        simp only [Option.map_some, Option.getD_some]
        rw [Fields.facts_update (Relationship.nodup_edgeAttributes stamp project r),
          Relationship.facts_edgeAttributes]
    · rfl
  · simp [hends]

end Graph

namespace Relationship

theorem lastAt?_cons (r : Relationship) (rest : List Relationship)
    (at_ : String × String × String) :
    lastAt? (r :: rest) at_ = (lastAt? rest at_).or (if r.place = at_ then some r else none) := by
  simp only [lastAt?, List.reverse_cons, List.find?_append, List.find?_singleton, beq_iff_eq]

theorem edgeAfter_cons (project : String) (r : Relationship) (rest : List Relationship)
    (at_ : String × String × String) (before : Option Facts) :
    edgeAfter project (r :: rest) at_ before =
      edgeAfter project rest at_ (if r.place = at_ then r.laidOn project before else before) := by
  simp only [edgeAfter, lastAt?_cons]
  cases lastAt? rest at_ with
  | none => by_cases h : r.place = at_ <;> simp [h]
  | some r' =>
    by_cases h : r.place = at_
    · simp only [Option.some_or, h, if_true]
      exact (laidOn_laidOn project r r' before).symm
    · simp [h]

end Relationship

namespace Graph

variable {project : String}

/-- An edge between nodes of the project says what the last relationship between them says; an edge
that lacks an end says what it said. -/
theorem edgeFacts_mergeRelationships (stamp : String) (g : Graph)
    (relationships : List Relationship) (at_ : String × String × String) :
    (g.mergeRelationships stamp project relationships).1.edgeFacts
        ⟨project, at_.1⟩ ⟨project, at_.2.1⟩ at_.2.2 =
      if g.hasNode ⟨project, at_.1⟩ = true ∧ g.hasNode ⟨project, at_.2.1⟩ = true then
        Relationship.edgeAfter project relationships at_
          (g.edgeFacts ⟨project, at_.1⟩ ⟨project, at_.2.1⟩ at_.2.2)
      else g.edgeFacts ⟨project, at_.1⟩ ⟨project, at_.2.1⟩ at_.2.2 := by
  induction relationships generalizing g with
  | nil =>
    split <;> rfl
  | cons r rest ih =>
    have hnodes : (g.mergeRelationship stamp project r).nodes = g.nodes :=
      nodes_mergeRelationship stamp g r
    rw [mergeRelationships]
    rw [ih, edgeFacts_mergeRelationship, hasNode_congr hnodes, hasNode_congr hnodes]
    by_cases hplace : r.place = at_
    · subst hplace
      have hends : g.hasEnds project r = true ↔
          g.hasNode ⟨project, r.place.1⟩ = true ∧ g.hasNode ⟨project, r.place.2.1⟩ = true := by
        rw [hasEnds, Bool.and_eq_true]
        rfl
      simp only [hends, and_true, Relationship.edgeAfter_cons, if_true]
      split <;> rfl
    · simp only [hplace, and_false, if_false, Relationship.edgeAfter_cons]

/-- Edges that are not between nodes of the project are as they were. -/
theorem edge?_mergeRelationships (stamp : String) (g : Graph) (relationships : List Relationship)
    {source target : NodeKey} (hother : source.project ≠ project ∨ target.project ≠ project)
    (label : String) :
    (g.mergeRelationships stamp project relationships).1.edge? source target label =
      g.edge? source target label := by
  induction relationships generalizing g with
  | nil => rfl
  | cons r rest ih =>
    rw [mergeRelationships]
    refine (ih _).trans ?_
    rw [mergeRelationship]
    split
    · rename_i hends
      rw [hasEnds, Bool.and_eq_true] at hends
      rw [edge?_putEdge g _ hends.1 hends.2, if_neg]
      rintro hkey
      simp only [Edge.key, Prod.mk.injEq] at hkey
      rcases hother with hs | ht
      · exact hs (by rw [← hkey.1])
      · exact ht (by rw [← hkey.2.1])
    · rfl

/-! ### Stale nodes -/

/-- A list of nodes with distinct keys holds a node exactly if it is found under its key. -/
theorem lookup_eq_some_iff {nodes : List (NodeKey × Fields)} (hnodup : (nodes.map Prod.fst).Nodup)
    {key : NodeKey} {attributes : Fields} :
    lookup nodes key = some attributes ↔ (key, attributes) ∈ nodes := by
  induction nodes with
  | nil => simp [lookup]
  | cons node rest ih =>
    obtain ⟨k, old⟩ := node
    simp only [List.map_cons, List.nodup_cons] at hnodup
    by_cases h : k = key
    · subst h
      have hnot : (k, attributes) ∉ rest := fun hmem =>
        hnodup.1 (List.mem_map.2 ⟨_, hmem, rfl⟩)
      simp [lookup, hnot, eq_comm]
    · have h' : ¬ key = k := fun e => h e.symm
      simp [lookup, h, h', ih hnodup.2]

theorem attributes?_eq_some_iff {g : Graph} {key : NodeKey} {attributes : Fields} :
    g.attributes? key = some attributes ↔ (key, attributes) ∈ g.nodes :=
  lookup_eq_some_iff g.nodup_nodes

/-- Whether what a node says puts it in scope: its path is one of those looked at. -/
def IsInScope (scope : Option (List String)) (node : Facts) : Prop :=
  ∀ paths, scope = some paths → ∃ path ∈ paths, node "path" = some (.str path)

theorem isInScope_iff {scope : Option (List String)} {attributes : Fields} :
    isInScope scope attributes = true ↔ IsInScope scope attributes.facts := by
  have hpath : attributes.facts "path" = attributes.get? "path" := if_neg (by decide)
  cases scope with
  | none => simp [isInScope, IsInScope]
  | some paths =>
    simp only [isInScope, IsInScope, hpath, Option.some.injEq, forall_eq']
    cases attributes.get? "path" with
    | none => simp
    | some value => cases value <;> simp

theorem mem_stale_iff {g : Graph} {current : List String} {scope : Option (List String)}
    {key : NodeKey} :
    key ∈ g.stale project current scope ↔
      key.project = project ∧ key.id ∉ current ∧
        ∃ node, g.nodeFacts key = some node ∧ IsInScope scope node := by
  simp only [stale, List.mem_map, List.mem_filter, Bool.and_eq_true, beq_iff_eq, Bool.not_eq_true',
    nodeFacts, Option.map_eq_some_iff]
  constructor
  · rintro ⟨⟨k, attributes⟩, ⟨hmem, ⟨hproject, hcurrent⟩, hscope⟩, rfl⟩
    refine ⟨hproject, by simpa using hcurrent, attributes.facts, ?_, isInScope_iff.1 hscope⟩
    exact ⟨attributes, attributes?_eq_some_iff.2 hmem, rfl⟩
  · rintro ⟨hproject, hcurrent, node, ⟨attributes, hattributes, rfl⟩, hscope⟩
    refine ⟨(key, attributes), ⟨attributes?_eq_some_iff.1 hattributes, ⟨hproject, ?_⟩, ?_⟩, rfl⟩
    · simpa using hcurrent
    · exact isInScope_iff.2 hscope

/-- Which ids pruning answers: those of the nodes in scope that are not current. -/
theorem mem_gone_iff {g : Graph} {current : List String} {scope : Option (List String)}
    {id : String} :
    id ∈ (g.prune project current scope).2 ↔
      id ∉ current ∧ ∃ node, g.nodeFacts ⟨project, id⟩ = some node ∧ IsInScope scope node := by
  simp only [prune, List.mem_map]
  constructor
  · rintro ⟨key, hkey, rfl⟩
    obtain ⟨hproject, hrest⟩ := mem_stale_iff.1 hkey
    rw [← hproject]
    exact hrest
  · intro h
    exact ⟨⟨project, id⟩, mem_stale_iff.2 ⟨rfl, h⟩, rfl⟩

/-- Pruning answers each id once. -/
theorem nodup_gone (g : Graph) (current : List String) (scope : Option (List String)) :
    (g.prune project current scope).2.Nodup := by
  have hkeys : (g.stale project current scope).Nodup :=
    g.nodup_nodes.sublist (List.filter_sublist.map _)
  refine hkeys.map_on fun a ha b hb hid => ?_
  have hproject := (mem_stale_iff.1 ha).1.trans (mem_stale_iff.1 hb).1.symm
  cases a
  cases b
  simp_all

/-! ### Removal -/

/-- Removing nodes takes the edges that touch one of them away, and no other one. -/
theorem edge?_remove (g : Graph) (keys : List NodeKey) (source target : NodeKey) (label : String) :
    (g.remove keys).edge? source target label =
      if source ∈ keys ∨ target ∈ keys then none else g.edge? source target label := by
  simp only [edge?, remove, List.find?_filter]
  split
  · rename_i htouch
    -- an edge that is kept touches no removed node, so none stands at the place
    rw [Option.map_eq_none_iff, List.find?_eq_none]
    intro e _
    rw [decide_eq_true_eq]
    rintro ⟨hkept, hat⟩
    have hkey := Edge.isAt_iff.1 hat
    simp only [Edge.key, Prod.mk.injEq] at hkey
    simp only [Edge.touches, hkey.1, hkey.2.1, List.contains_eq_mem, Bool.not_eq_true',
      Bool.or_eq_false_iff, decide_eq_false_iff_not] at hkept
    exact htouch.elim hkept.1 hkept.2
  · rename_i htouch
    congr 2
    funext e
    cases hat : e.isAt source target label with
    | false => simp
    | true =>
      have hkey := Edge.isAt_iff.1 hat
      simp only [Edge.key, Prod.mk.injEq] at hkey
      simp only [not_or] at htouch
      simp [Edge.touches, hkey.1, hkey.2.1, htouch.1, htouch.2]

theorem nodeFacts_remove (g : Graph) (keys : List NodeKey) (key : NodeKey) :
    (g.remove keys).nodeFacts key = if key ∈ keys then none else g.nodeFacts key := by
  rw [nodeFacts, attributes?_remove]
  split <;> rfl

theorem edgeFacts_remove (g : Graph) (keys : List NodeKey) (source target : NodeKey)
    (label : String) :
    (g.remove keys).edgeFacts source target label =
      if source ∈ keys ∨ target ∈ keys then none else g.edgeFacts source target label := by
  rw [edgeFacts, edge?_remove]
  split <;> rfl

end Graph

end RepoGraph
