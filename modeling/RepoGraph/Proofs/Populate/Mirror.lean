import RepoGraph.Proofs.Populate.Effect
import RepoGraph.Proofs.Source.Coverage

/-!
# From the nodes of one tree to those of another

`Populating.Mirrors` says that the nodes of a project are those of a tree: there is one for every id
of an entity, and it says what it should about the last entity of the id.  What it should say is
left open, except that it names the entity's file.  Where the stores were not filled to the end, the
nodes are `Populating.Among` several trees: each is of one of them, and ids that all of them have
are there.  Filling the stores with an output that carries the files that cover the way from each of
these trees ends with the nodes of the new tree.

Main statements: `Populating.Mirrors.among`, `Populating.Among.mirrors`.
-/

namespace RepoGraph

open Source (Tree Covers IsLast HasPlainNames)

namespace Populating

open Enriching (lastOf?)

/-! ### Nodes of trees -/

/-- Whether the nodes of a project are those of a tree. -/
structure Mirrors (project : String) (Says : Entity → Facts → Prop) (t : Tree) (g : Graph) :
    Prop where
  of_node : ∀ id node, g.nodeFacts ⟨project, id⟩ = some node →
    ∃ path e, IsLast t path id e ∧ Says e node
  node_of : ∀ path id e, IsLast t path id e → (g.nodeFacts ⟨project, id⟩).isSome

/-- Whether the nodes of a project are among those of some trees: each is of one of them, and those
of ids that all have are there. -/
structure Among (project : String) (Says : Entity → Facts → Prop)
    (trees : Tree → Prop) (g : Graph) :
    Prop where
  of_node : ∀ id node, g.nodeFacts ⟨project, id⟩ = some node →
    ∃ t, trees t ∧ ∃ path e, IsLast t path id e ∧ Says e node
  node_of : ∀ path id, (∀ t, trees t → ∃ e, IsLast t path id e) →
    (g.nodeFacts ⟨project, id⟩).isSome

/-- Whether an output carries what some files of a tree say, and touches these files and others. -/
structure Carries (project : String) (Says : Entity → Facts → Prop) (t : Tree)
    (paths gone : List String) (output : EnrichOutput) : Prop where
  /-- The last entity of an id says what it should, over whatever was said before. -/
  says_last : ∀ path ∈ paths, ∀ id e, IsLast t path id e → ∃ x,
    lastOf? output.entities id = some x ∧ ∀ node,
      (∀ facts, node = some facts → ∃ e', Says e' facts) →
      ∃ facts, x.laidOn project node = some facts ∧ Says e facts
  /-- Every id is one of the files. -/
  of_mem : ∀ id ∈ currentIds output, ∃ path ∈ paths, ∃ e, IsLast t path id e
  touches : ∀ node, IsTouched output.metadata node ↔
    ∃ path, node "path" = some (.str path) ∧ (path ∈ paths ∨ path ∈ gone)

variable {config : BuildConfig} {Says : Entity → Facts → Prop} {old new t : Tree}
  {trees : Tree → Prop}
  {paths gone removed : List String} {output : EnrichOutput} {g merged h : Graph}

theorem Mirrors.among {project : String} (hg : Mirrors project Says t g) :
    Among project Says (· = t) g where
  of_node id node hnode := by
    obtain ⟨path, e, he, hsays⟩ := hg.of_node id node hnode
    exact ⟨t, rfl, path, e, he, hsays⟩
  node_of path id h := by
    obtain ⟨e, he⟩ := h t rfl
    exact hg.node_of path id e he

theorem Among.mirrors_self {project : String} (hg : Among project Says (· = t) g) :
    Mirrors project Says t g where
  of_node id node hnode := by
    obtain ⟨_, rfl, path, e, he, hsays⟩ := hg.of_node id node hnode
    exact ⟨path, e, he, hsays⟩
  node_of path id e he := hg.node_of path id fun _ ht => ⟨e, ht ▸ he⟩

/-! ### Filling the stores -/

/-- A file that exists unread is not touched by an output that carries the way to its tree. -/
theorem Carries.not_isTouched (hcarries : Carries config.project Says new paths gone output)
    (hgone : ∀ path ∈ gone, Source.isIncluded path = true → new path = none ∨ path ∈ paths)
    {path id : String} {e : Entity} (he : IsLast new path id e) (hpath : path ∉ paths)
    {node : Facts}
    (hnode : node "path" = some (.str path)) : ¬ IsTouched output.metadata node := by
  intro htouched
  obtain ⟨path', hpath', hlisted⟩ := (hcarries.touches node).1 htouched
  rw [hnode, Option.some.injEq, Json.str.injEq] at hpath'
  subst hpath'
  rcases hlisted with hread | hlisted
  · exact hpath hread
  · obtain ⟨hincluded, hexists, -⟩ := Source.of_mem_entitiesAt he.mem
    exact (hgone path hlisted hincluded).elim hexists hpath

/-- The ids of the files that are read again are those of the output. -/
theorem Carries.mem_currentIds (hcarries : Carries config.project Says new paths gone output)
    {path id : String} {e : Entity} (hpath : path ∈ paths) (he : IsLast new path id e) :
    id ∈ currentIds output := by
  obtain ⟨x, hx, -⟩ := hcarries.says_last path hpath id e he
  rw [← Enriching.id_of_lastOf? hx]
  exact List.mem_map_of_mem (Enriching.mem_of_lastOf? hx)

/-- The node of an id of the output is of an entity of a file that was read, whatever was said
before. -/
theorem Carries.exists_of_lastOf? (hcarries : Carries config.project Says new paths gone output)
    {id : String} {x : Enriched} (hlast : lastOf? output.entities id = some x)
    {before : Option Facts}
    (hbefore : ∀ facts, before = some facts → ∃ e', Says e' facts) {node : Facts}
    (hnode : Enriched.nodeAfter config.project output.entities id before = some node) :
    ∃ path e, IsLast new path id e ∧ Says e node := by
  have hmem : id ∈ currentIds output := by
    rw [← Enriching.id_of_lastOf? hlast]
    exact List.mem_map_of_mem (Enriching.mem_of_lastOf? hlast)
  obtain ⟨path, hread, e, he⟩ := hcarries.of_mem id hmem
  obtain ⟨x', hx', hsays⟩ := hcarries.says_last path hread id e he
  obtain rfl := Option.some.inj (hlast.symm.trans hx')
  obtain ⟨facts, hfacts, hsays⟩ := hsays before hbefore
  rw [Enriched.nodeAfter, hlast] at hnode
  simp only [hfacts, Option.some.injEq] at hnode
  exact ⟨path, e, he, hnode ▸ hsays⟩

/-- An id of the new tree keeps its node: its file is read again, or its node is there already. -/
theorem Among.isSome_of_sweep (hplain : ∀ t, trees t → HasPlainNames t) (hnew : HasPlainNames new)
    (hpath : ∀ e facts, Says e facts → facts "path" = some (.str e.path))
    (hgone : ∀ path ∈ gone, Source.isIncluded path = true → new path = none ∨ path ∈ paths)
    (hcarries : Carries config.project Says new paths gone output)
    (hg : Among config.project Says trees g) (hm : IsMerged config output g merged)
    (hsweep : sweep config output merged = .ok (h, removed)) {path id : String} {e : Entity}
    (he : IsLast new path id e)
    (hthere : path ∉ paths → ∀ t, trees t → ∃ e, IsLast t path id e) :
    (h.nodeFacts ⟨config.project, id⟩).isSome := by
  rw [nodeFacts_of_sweep hm hsweep]
  by_cases hread : path ∈ paths
  · have hmem := hcarries.mem_currentIds hread he
    obtain ⟨x, hx, -⟩ := hcarries.says_last path hread id e he
    rw [if_neg fun hgone => ((mem_gone_of_sweep hm hsweep id).1 hgone).2.1 hmem,
      Enriched.nodeAfter, hx]
    rfl
  · have hsome := hg.node_of path id (hthere hread)
    obtain ⟨node, hnode⟩ := Option.isSome_iff_exists.1 hsome
    obtain ⟨t, ht, path', e', he', hsays⟩ := hg.of_node id node hnode
    -- no declared name has a colon, so an id belongs to one file in both trees
    have hsame : path = path' := he.unique hnew (hplain t ht) he'
    have hnodePath : node "path" = some (.str path) := by
      rw [hpath e' node hsays, he'.path_eq, hsame]
    rw [if_neg fun hremoved => ?_, Enriched.nodeAfter]
    · cases lastOf? output.entities id with
      | none => exact hsome
      | some x => rfl
    · obtain ⟨-, -, node', hnode', htouched⟩ := (mem_gone_of_sweep hm hsweep id).1 hremoved
      rw [hnode, Option.some.injEq] at hnode'
      subst hnode'
      exact hcarries.not_isTouched hgone he hread hnodePath htouched

/-- Filling the stores to the end leads to the nodes of the new tree: an incremental build does, and
a full one if no entity has vanished. -/
theorem Among.mirrors (hplain : ∀ t, trees t → HasPlainNames t) (hnew : HasPlainNames new)
    (hpath : ∀ e facts, Says e facts → facts "path" = some (.str e.path))
    (hc : ∀ t, trees t → Covers t new paths gone)
    (hgone : ∀ path ∈ gone, Source.isIncluded path = true → new path = none ∨ path ∈ paths)
    (hcarries : Carries config.project Says new paths gone output)
    (hmode : config.mode = Request.incremental ∨
      ∀ t, trees t → ∀ path id e, IsLast t path id e → ∃ path' e', IsLast new path' id e')
    (hg : Among config.project Says trees g) (hm : IsMerged config output g merged)
    (hsweep : sweep config output merged = .ok (h, removed)) :
    Mirrors config.project Says new h := by
  refine ⟨fun id node hnode => ?_, fun path id e he => hg.isSome_of_sweep hplain hnew hpath hgone
    hcarries hm hsweep he fun hread t ht => ⟨e, he.congr ((hc t ht).eq_of_isLast he hread)⟩⟩
  rw [nodeFacts_of_sweep hm hsweep] at hnode
  by_cases hremoved : id ∈ removed
  · rw [if_pos hremoved] at hnode
    cases hnode
  rw [if_neg hremoved] at hnode
  have hbefore (facts : Facts) (hfacts : g.nodeFacts ⟨config.project, id⟩ = some facts) :
      ∃ e', Says e' facts := by
    obtain ⟨-, -, -, e', -, hsays⟩ := hg.of_node id facts hfacts
    exact ⟨e', hsays⟩
  cases hlast : lastOf? output.entities id with
  | some x => exact hcarries.exists_of_lastOf? hlast hbefore hnode
  | none =>
    rw [Enriched.nodeAfter, hlast] at hnode
    have hnot : id ∉ currentIds output := Enriching.lastOf?_eq_none_iff.1 hlast
    obtain ⟨t, ht, path, e, he, hsays⟩ := hg.of_node id node hnode
    -- a node that is left over is of a file that did not change
    refine ⟨path, e, he.congr ?_, hsays⟩
    rcases hmode with hmode | hvanished
    · have hnodePath : node "path" = some (.str path) := by
        rw [hpath e node hsays, he.path_eq]
      have hout : ¬ (path ∈ paths ∨ path ∈ gone) := fun hlisted =>
        hremoved ((mem_gone_of_sweep hm hsweep id).2 ⟨hmode, hnot, node, hnode,
          (hcarries.touches node).2 ⟨path, hnodePath, hlisted⟩⟩)
      obtain ⟨hincluded, hexists, -⟩ := Source.of_mem_entitiesAt he.mem
      by_contra hne
      by_cases hnone : new path = none
      · exact hout (.inr ((hc t ht).mem_gone path hincluded hexists hnone))
      · exact hout (.inl ((hc t ht).mem_paths path hincluded hnone (Ne.symm hne)))
    · -- a full build removes nothing, but the entity is still one of the new tree
      obtain ⟨path', e', he'⟩ := hvanished t ht path id e he
      obtain rfl : path = path' := he.unique (hplain t ht) hnew he'
      exact ((hc t ht).eq_of_isLast he' fun hread => hnot (hcarries.mem_currentIds hread he')).symm

/-- A full build of an empty store ends with the nodes of the files that it has read. -/
theorem mirrors_of_full (hcarries : Carries config.project Says t paths gone output)
    (hpaths : ∀ path id e, IsLast t path id e → path ∈ paths)
    (hmode : config.mode ≠ Request.incremental)
    (hempty : ∀ id, g.nodeFacts ⟨config.project, id⟩ = none) (hm : IsMerged config output g merged)
    (hsweep : sweep config output merged = .ok (h, removed)) :
    Mirrors config.project Says t h := by
  have hnodes (id : String) : h.nodeFacts ⟨config.project, id⟩ =
      Enriched.nodeAfter config.project output.entities id none := by
    rw [nodeFacts_of_sweep hm hsweep, hempty,
      if_neg fun hgone => hmode ((mem_gone_of_sweep hm hsweep id).1 hgone).1]
  refine ⟨fun id node hnode => ?_, fun path id e he => ?_⟩
  · rw [hnodes] at hnode
    cases hlast : lastOf? output.entities id with
    | none =>
      rw [Enriched.nodeAfter, hlast] at hnode
      cases hnode
    | some x => exact hcarries.exists_of_lastOf? hlast (fun _ h => by cases h) hnode
  · obtain ⟨x, hx, -⟩ := hcarries.says_last path (hpaths path id e he) id e he
    rw [hnodes, Enriched.nodeAfter, hx]
    rfl

/-! ### Comparing -/

/-- Graphs in which nodes say the same have the nodes of the same trees. -/
theorem Mirrors.congr {project : String} (hg : Mirrors project Says t g)
    (heq : ∀ id, h.nodeFacts ⟨project, id⟩ = g.nodeFacts ⟨project, id⟩) :
    Mirrors project Says t h where
  of_node id node hnode := hg.of_node id node ((heq id).symm.trans hnode)
  node_of path id e he := by
    rw [heq]
    exact hg.node_of path id e he

/-- A graph with the nodes of a tree has nodes for the ids of its entities. -/
theorem Mirrors.hasNode_iff {project : String} (hg : Mirrors project Says t g) (id : String) :
    g.hasNode ⟨project, id⟩ = true ↔ ∃ path, ∃ e ∈ Source.entitiesAt t path, e.id = id := by
  rw [← Graph.isSome_nodeFacts]
  constructor
  · intro hnode
    obtain ⟨node, hnode⟩ := Option.isSome_iff_exists.1 hnode
    obtain ⟨path, e, he, -⟩ := hg.of_node id node hnode
    exact ⟨path, e, he.mem, he.id_eq⟩
  · rintro ⟨path, e, he, rfl⟩
    obtain ⟨e', he'⟩ := Source.exists_isLast he
    exact hg.node_of path e.id e' he'

/-- Two graphs with the nodes of one tree have nodes for the same ids. -/
theorem Mirrors.hasNode_eq {project : String} {Says' : Entity → Facts → Prop}
    (hg : Mirrors project Says t g) (hh : Mirrors project Says' t h) (id : String) :
    g.hasNode ⟨project, id⟩ = h.hasNode ⟨project, id⟩ := by
  rw [Bool.eq_iff_iff, hg.hasNode_iff, hh.hasNode_iff]

/-- Where nodes say a function of the entity, two graphs with the nodes of one tree have the same
nodes. -/
theorem Mirrors.nodeFacts_eq {project : String} {factsOf : Entity → Facts} (ht : HasPlainNames t)
    (hg : Mirrors project (fun e facts => facts = factsOf e) t g)
    (hh : Mirrors project (fun e facts => facts = factsOf e) t h) (id : String) :
    g.nodeFacts ⟨project, id⟩ = h.nodeFacts ⟨project, id⟩ := by
  cases hnode : g.nodeFacts ⟨project, id⟩ with
  | some facts =>
    obtain ⟨path, e, he, rfl⟩ := hg.of_node id facts hnode
    obtain ⟨facts', hfacts'⟩ := Option.isSome_iff_exists.1 (hh.node_of path id e he)
    obtain ⟨path', e', he', rfl⟩ := hh.of_node id facts' hfacts'
    obtain rfl : path = path' := he.unique ht ht he'
    obtain rfl : e = e' := Option.some.inj (he.symm.trans he')
    exact hfacts'.symm
  | none =>
    cases hnode' : h.nodeFacts ⟨project, id⟩ with
    | none => rfl
    | some facts =>
      obtain ⟨path, e, he, -⟩ := hh.of_node id facts hnode'
      have hsome := hg.node_of path id e he
      rw [hnode] at hsome
      cases hsome

end Populating

end RepoGraph
