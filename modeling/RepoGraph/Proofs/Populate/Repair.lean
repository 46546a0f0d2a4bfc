import RepoGraph.Proofs.Populate.Effect

/-!
# Filling the stores again after a failure

The third stage has no way back: where it is stopped, the graph and the collection stay half filled.
`Populating.Halfway` says of such a graph that merging everything once more and sweeping it gives
what one run gives, so the nodes and the edges are always repaired.  The points are not: what was
swept from the graph by the run that failed is not stale for the next one, which does not delete its
points.  `Populating.IsStranded` are the numbers whose points are left over in this way; there are
none unless a deletion was refused.

Main statements: `Populating.Reaches.halfway`, `Populating.repair_of_rerun`.
-/

namespace RepoGraph

/-- Entities that are merged once more, after a part of them was, leave what merging them once
leaves. -/
theorem Enriched.nodeAfter_nodeAfter {project : String} {part entities : List Enriched}
    (hpart : part <+: entities) (id : String) (before : Option Facts) :
    nodeAfter project entities id (nodeAfter project part id before) =
      nodeAfter project entities id before := by
  cases hlast : Enriching.lastOf? entities id with
  | some e =>
    simp only [nodeAfter, hlast]
    cases Enriching.lastOf? part id with
    | some e' => exact laidOn_laidOn project e' e before
    | none => rfl
  | none =>
    have hnone : Enriching.lastOf? part id = none := by
      rw [Enriching.lastOf?_eq_none_iff] at hlast ⊢
      exact fun hmem => hlast ((hpart.map Enriched.id).subset hmem)
    simp only [nodeAfter, hnone]

theorem Relationship.edgeAfter_edgeAfter (project : String) (relationships : List Relationship)
    (at_ : String × String × String) (before : Option Facts) :
    edgeAfter project relationships at_ (edgeAfter project relationships at_ before) =
      edgeAfter project relationships at_ before := by
  cases hlast : lastAt? relationships at_ with
  | some r =>
    simp only [edgeAfter, hlast]
    exact laidOn_laidOn project r r before
  | none => simp only [edgeAfter, hlast]

namespace Populating

variable {v : VectorStore} {config : BuildConfig} {output : EnrichOutput} {outside : Outside}
  {g merged h : Graph} {c d : Collection} {gone : List String}

/-! ### Graphs that are half filled -/

/-- A graph `h` is on the way from `g` to what one run makes of it: what is not stale says after
merging what it would have said, and what is stale is all there, or all swept. -/
structure Halfway (config : BuildConfig) (output : EnrichOutput) (g h : Graph) : Prop where
  nodeAfter_eq : ∀ id, ¬ IsStale config output g id →
    Enriched.nodeAfter config.project output.entities id (h.nodeFacts ⟨config.project, id⟩) =
      Enriched.nodeAfter config.project output.entities id (g.nodeFacts ⟨config.project, id⟩)
  edgeAfter_eq : ∀ source target label, ¬ IsStale config output g source →
    ¬ IsStale config output g target →
      edgeAfter config output h source target label =
        edgeAfter config output g source target label
  swept : (∀ id, IsStale config output g id →
      h.nodeFacts ⟨config.project, id⟩ = g.nodeFacts ⟨config.project, id⟩) ∨
    (∀ id, IsStale config output g id → h.nodeFacts ⟨config.project, id⟩ = none) ∧
      ∀ source target label, IsStale config output g source ∨ IsStale config output g target →
        h.edgeFacts ⟨config.project, source⟩ ⟨config.project, target⟩ label = none

theorem Halfway.refl (config : BuildConfig) (output : EnrichOutput) (g : Graph) :
    Halfway config output g g :=
  ⟨fun _ _ => rfl, fun _ _ _ _ _ => rfl, .inl fun _ _ => rfl⟩

theorem nodeAfter_of_not_mem {id : String} (hid : id ∉ currentIds output) (before : Option Facts) :
    Enriched.nodeAfter config.project output.entities id before = before := by
  rw [Enriched.nodeAfter, Enriching.lastOf?_eq_none_iff.2 hid]

/-- A node is there after merging if it is there after merging once more. -/
theorem isNode_congr {id : String}
    (hnode : Enriched.nodeAfter config.project output.entities id
        (h.nodeFacts ⟨config.project, id⟩) =
      Enriched.nodeAfter config.project output.entities id (g.nodeFacts ⟨config.project, id⟩)) :
    isNode config output h id = isNode config output g id := by
  rw [isNode_eq, isNode_eq, hnode]

/-- Stale halfway is what was stale and is still there. -/
theorem Halfway.isStale_iff (hh : Halfway config output g h) (id : String) :
    IsStale config output h id ↔
      IsStale config output g id ∧ h.nodeFacts ⟨config.project, id⟩ ≠ none := by
  by_cases hs : IsStale config output g id
  · rw [and_iff_right hs]
    obtain ⟨hmode, hid, node, hnode, htouched⟩ := hs
    constructor
    · rintro ⟨-, -, node', hnode', -⟩ hnone
      rw [hnode'] at hnone
      cases hnone
    · intro hne
      rcases hh.swept with hkept | ⟨hnone, -⟩
      · exact ⟨hmode, hid, node, by rw [hkept id ⟨hmode, hid, node, hnode, htouched⟩, hnode],
          htouched⟩
      · exact absurd (hnone id ⟨hmode, hid, node, hnode, htouched⟩) hne
  · refine iff_of_false (fun hs' => hs ?_) fun hboth => hs hboth.1
    obtain ⟨hmode, hid, hnode⟩ := hs'
    have hsame := hh.nodeAfter_eq id hs
    rw [nodeAfter_of_not_mem hid, nodeAfter_of_not_mem hid] at hsame
    rw [hsame] at hnode
    exact ⟨hmode, hid, hnode⟩

/-- A node that is stale and not any more there is no node after merging either. -/
theorem isNode_of_swept {id : String} (hs : IsStale config output g id)
    (hnone : h.nodeFacts ⟨config.project, id⟩ = none) : isNode config output h id = false := by
  rw [isNode_eq, nodeAfter_of_not_mem hs.2.1, hnone]
  rfl

theorem Halfway.not_mem_gone (hh : Halfway config output g h) {again : Graph}
    (hagain : Effect v config output h c again d gone) {id : String}
    (hs : ¬ IsStale config output g id) : id ∉ gone :=
  fun hmem => hs ((hh.isStale_iff id).1 ((hagain.mem_gone_iff id).1 hmem)).1

/-- From halfway the nodes come to what they come to at once. -/
theorem Halfway.nodeFacts_eq (hh : Halfway config output g h) {c c' d d' : Collection}
    {again once : Graph} {gone gone' : List String}
    (hagain : Effect v config output h c again d gone)
    (honce : Effect v config output g c' once d' gone') (id : String) :
    again.nodeFacts ⟨config.project, id⟩ = once.nodeFacts ⟨config.project, id⟩ := by
  rw [hagain.nodeFacts_eq, honce.nodeFacts_eq]
  by_cases hs : IsStale config output g id
  · rw [if_pos ((honce.mem_gone_iff id).2 hs), nodeAfter_of_not_mem hs.2.1]
    by_cases hnone : h.nodeFacts ⟨config.project, id⟩ = none
    · rw [hnone, ite_self]
    · rw [if_pos ((hagain.mem_gone_iff id).2 ((hh.isStale_iff id).2 ⟨hs, hnone⟩))]
  · rw [if_neg (mt (honce.mem_gone_iff id).1 hs), if_neg (hh.not_mem_gone hagain hs)]
    exact hh.nodeAfter_eq id hs

/-- From halfway the edges come to what they come to at once. -/
theorem Halfway.edgeFacts_eq (hh : Halfway config output g h) {c c' d d' : Collection}
    {again once : Graph} {gone gone' : List String}
    (hagain : Effect v config output h c again d gone)
    (honce : Effect v config output g c' once d' gone') (source target label : String) :
    again.edgeFacts ⟨config.project, source⟩ ⟨config.project, target⟩ label =
      once.edgeFacts ⟨config.project, source⟩ ⟨config.project, target⟩ label := by
  rw [hagain.edgeFacts_eq, honce.edgeFacts_eq]
  by_cases hs : IsStale config output g source ∨ IsStale config output g target
  · rw [if_pos (hs.imp (honce.mem_gone_iff _).2 (honce.mem_gone_iff _).2)]
    rcases hh.swept with hkept | ⟨hnone, hedge⟩
    · -- what is stale is still there, so it is swept now, with its edges
      have hmem (id : String) (hs : IsStale config output g id) : id ∈ gone := by
        refine (hagain.mem_gone_iff id).2 ((hh.isStale_iff id).2 ⟨hs, ?_⟩)
        have ⟨_, _, node, hnode, _⟩ := hs
        rw [hkept id hs, hnode]
        exact Option.some_ne_none node
      rw [if_pos (hs.imp (hmem source) (hmem target))]
    · -- it was swept before, so the edge lacks an end and stays away
      have hlacks :
          ¬ (isNode config output h source = true ∧ isNode config output h target = true) := by
        rintro ⟨hsource, htarget⟩
        rcases hs with hs | hs
        · rw [isNode_of_swept hs (hnone _ hs)] at hsource
          exact Bool.noConfusion hsource
        · rw [isNode_of_swept hs (hnone _ hs)] at htarget
          exact Bool.noConfusion htarget
      rw [edgeAfter, if_neg hlacks, hedge source target label hs, ite_self]
  · rw [not_or] at hs
    have hagain' : ¬ (source ∈ gone ∨ target ∈ gone) := fun hmem =>
      hmem.elim (hh.not_mem_gone hagain hs.1) (hh.not_mem_gone hagain hs.2)
    have honce' : ¬ (source ∈ gone' ∨ target ∈ gone') := fun hmem =>
      hmem.elim (mt (honce.mem_gone_iff _).1 hs.1) (mt (honce.mem_gone_iff _).1 hs.2)
    rw [if_neg hagain', if_neg honce']
    exact hh.edgeAfter_eq source target label hs.1 hs.2

/-! ### Every way of being stopped -/

theorem halfway_of_merges {part : List Enriched} (hpart : part <+: output.entities)
    (hm : Graph.Merges config.project g part h) : Halfway config output g h := by
  have hnode (id : String) :
      Enriched.nodeAfter config.project output.entities id (h.nodeFacts ⟨config.project, id⟩) =
        Enriched.nodeAfter config.project output.entities id
          (g.nodeFacts ⟨config.project, id⟩) := by
    rw [Graph.nodeFacts_of_merges hm, Enriched.nodeAfter_nodeAfter hpart]
  refine ⟨fun id _ => hnode id, fun source target label _ _ => ?_, .inl fun id hs => ?_⟩
  · have hedge : h.edgeFacts ⟨config.project, source⟩ ⟨config.project, target⟩ label =
        g.edgeFacts ⟨config.project, source⟩ ⟨config.project, target⟩ label := by
      rw [Graph.edgeFacts, Graph.edge?, Graph.edges_of_merges hm]
      rfl
    rw [edgeAfter, edgeAfter, hedge, isNode_congr (hnode source), isNode_congr (hnode target)]
  · have hid : id ∉ part.map Enriched.id := fun hmem => hs.2.1 ((hpart.map Enriched.id).subset hmem)
    rw [Graph.nodeFacts, Graph.attributes?_of_merges hm (.inr hid)]
    rfl

/-- An edge says the same after merging once more, if its ends are nodes as before. -/
theorem edgeAfter_of_edgeFacts {source target label : String}
    (hedge : h.edgeFacts ⟨config.project, source⟩ ⟨config.project, target⟩ label =
      edgeAfter config output g source target label)
    (hsource : isNode config output h source = isNode config output g source)
    (htarget : isNode config output h target = isNode config output g target) :
    edgeAfter config output h source target label =
      edgeAfter config output g source target label := by
  rw [edgeAfter, hedge, hsource, htarget, edgeAfter]
  split
  · exact Relationship.edgeAfter_edgeAfter _ _ _ _
  · rfl

theorem halfway_of_isMerged (hm : IsMerged config output g merged) :
    Halfway config output g merged := by
  have hnode (id : String) :
      Enriched.nodeAfter config.project output.entities id
          (merged.nodeFacts ⟨config.project, id⟩) =
        Enriched.nodeAfter config.project output.entities id
          (g.nodeFacts ⟨config.project, id⟩) := by
    rw [nodeFacts_of_isMerged hm, Enriched.nodeAfter_nodeAfter (List.prefix_refl _)]
  exact ⟨fun id _ => hnode id,
    fun source target label _ _ => edgeAfter_of_edgeFacts
      (edgeFacts_of_isMerged hm source target label) (isNode_congr (hnode source))
      (isNode_congr (hnode target)),
    .inl fun id hs => nodeFacts_of_not_mem hm hs.2.1⟩

theorem halfway_of_sweep (hm : IsMerged config output g merged)
    (hsweep : sweep config output merged = .ok (h, gone)) : Halfway config output g h := by
  have hgone := mem_gone_of_sweep hm hsweep
  have hnode (id : String) (hs : ¬ IsStale config output g id) :
      Enriched.nodeAfter config.project output.entities id (h.nodeFacts ⟨config.project, id⟩) =
        Enriched.nodeAfter config.project output.entities id
          (g.nodeFacts ⟨config.project, id⟩) := by
    rw [nodeFacts_of_sweep hm hsweep, if_neg (mt (hgone id).1 hs),
      Enriched.nodeAfter_nodeAfter (List.prefix_refl _)]
  refine ⟨hnode, fun source target label hsource htarget => ?_,
    .inr ⟨fun id hs => ?_, fun source target label hs => ?_⟩⟩
  · refine edgeAfter_of_edgeFacts ?_ (isNode_congr (hnode source hsource))
      (isNode_congr (hnode target htarget))
    rw [edgeFacts_of_sweep hm hsweep, if_neg]
    exact fun hmem => hmem.elim (mt (hgone source).1 hsource) (mt (hgone target).1 htarget)
  · rw [nodeFacts_of_sweep hm hsweep, if_pos ((hgone id).2 hs)]
  · rw [edgeFacts_of_sweep hm hsweep, if_pos (hs.imp (hgone source).2 (hgone target).2)]

/-- Wherever the stage is stopped, the graph is halfway. -/
theorem Reaches.halfway (hr : Reaches v config output outside g c h d) :
    Halfway config output g h := by
  cases hr with
  | entities hpart hm => exact halfway_of_merges hpart hm
  | relationships hm => exact halfway_of_isMerged hm
  | stale hm hsweep _ _ => exact halfway_of_sweep hm hsweep
  | points hm hsweep _ => exact halfway_of_sweep hm hsweep

/-! ### Points that are half put -/

/-- Whether a number is that of an entity that is stale. -/
def IsStaleNumber (config : BuildConfig) (output : EnrichOutput) (g : Graph)
    (number : Nat) : Prop :=
  ∃ id, IsStale config output g id ∧ PointId.ofEntityId id = number

theorem mem_numbers_iff {ids : List String} (hids : ∀ id, id ∈ ids ↔ IsStale config output g id)
    (number : Nat) : number ∈ ids.map PointId.ofEntityId ↔
      IsStaleNumber config output g number := by
  rw [List.mem_map]
  simp only [hids]
  rfl

theorem mem_pointIds_iff {ids : List String} (hids : ∀ id, id ∈ ids ↔ IsStale config output g id)
    (number : Nat) : number ∈ VectorStore.pointIds ids ↔ IsStaleNumber config output g number := by
  rw [VectorStore.mem_pointIds, ← List.mem_map, mem_numbers_iff hids]

/-- Points that are put have numbers of entities that are put. -/
theorem lastOf?_eq_none {put : List Point} (hpart : put <+: Point.ofEntities v.size output.entities)
    {number : Nat} (hnone : Enriched.lastNumbered? v.size output.entities number = none) :
    Collection.lastOf? put number = none := by
  have hall := Collection.lastOf?_ofEntities v.size output.entities number
  rw [hnone, Option.map_none] at hall
  simp only [Collection.lastOf?, List.find?_eq_none, List.mem_reverse] at hall ⊢
  exact fun p hp => hall p (hpart.subset hp)

/-- Wherever the stage is stopped, points that are neither put nor stale are as they were. -/
theorem Reaches.find?_eq (hr : Reaches v config output outside g c h d) {number : Nat}
    (hnone : Enriched.lastNumbered? v.size output.entities number = none)
    (hfresh : ¬ IsStaleNumber config output g number) : d.find? number = c.find? number := by
  cases hr with
  | entities hpart hm => rfl
  | relationships hm => rfl
  | stale hm hsweep hpart hrefused =>
    have hnumbers := mem_pointIds_iff (mem_gone_of_sweep hm hsweep) number
    rw [Collection.find?_delete, if_neg fun hmem => hfresh (hnumbers.1 (hpart.subset hmem))]
  | points hm hsweep hpart =>
    have hnumbers := mem_pointIds_iff (mem_gone_of_sweep hm hsweep) number
    rw [Collection.find?_putAll, lastOf?_eq_none hpart hnone, Option.none_or,
      Collection.find?_delete, if_neg (mt hnumbers.1 hfresh)]

/-- Where no deletion is refused, what is swept from the graph has no points left. -/
theorem Reaches.find?_of_isStaleNumber (hr : Reaches v config output outside g c h d)
    (hrefused : ¬ v.RefusesDelete outside) {number : Nat}
    (hnone : Enriched.lastNumbered? v.size output.entities number = none)
    (hstale : IsStaleNumber config output g number) :
    IsStaleNumber config output h number ∨ d.find? number = none := by
  have hkept (hsame : ∀ id, IsStale config output g id →
      h.nodeFacts ⟨config.project, id⟩ = g.nodeFacts ⟨config.project, id⟩) :
      IsStaleNumber config output h number := by
    obtain ⟨id, hs, hnumber⟩ := hstale
    refine ⟨id, (hr.halfway.isStale_iff id).2 ⟨hs, ?_⟩, hnumber⟩
    have ⟨_, _, node, hnode, _⟩ := hs
    rw [hsame id hs, hnode]
    exact Option.some_ne_none node
  -- the run was stopped before the sweep, at the deletion of points, or after it
  cases hr with
  | entities hpart hm =>
    refine .inl (hkept fun id hs => ?_)
    have hid : id ∉ List.map Enriched.id _ := fun hmem =>
      hs.2.1 ((hpart.map Enriched.id).subset hmem)
    rw [Graph.nodeFacts, Graph.attributes?_of_merges hm (.inr hid)]
    rfl
  | relationships hm => exact .inl (hkept fun id hs => nodeFacts_of_not_mem hm hs.2.1)
  | stale hm hsweep hpart hrefuses => exact absurd hrefuses hrefused
  | points hm hsweep hpart =>
    have hnumbers := mem_pointIds_iff (mem_gone_of_sweep hm hsweep) number
    rw [Collection.find?_putAll, lastOf?_eq_none hpart hnone, Option.none_or,
      Collection.find?_delete, if_pos (hnumbers.2 hstale)]
    exact .inr rfl

/-- A number is stranded: it is that of an entity that was stale in `g` and of none that is stale in
`h`, no entity that is put has it, and there is a point under it all the same. -/
def IsStranded (v : VectorStore) (config : BuildConfig) (output : EnrichOutput) (g h : Graph)
    (d : Collection) (number : Nat) : Prop :=
  IsStaleNumber config output g number ∧ ¬ IsStaleNumber config output h number ∧
    Enriched.lastNumbered? v.size output.entities number = none ∧ d.find? number ≠ none

/-- What the stage leaves wherever it is stopped, in the stores as the next run finds them: the
graph is saved, or it is as it was. -/
def Leaves (v : VectorStore) (config : BuildConfig) (output : EnrichOutput) (outside : Outside)
    (g : Graph) (c : Collection) (h : Graph) (d : Collection) : Prop :=
  ∃ reached, Reaches v config output outside g c reached d ∧ (h = reached ∨ h = g)

theorem Leaves.halfway (hl : Leaves v config output outside g c h d) :
    Halfway config output g h := by
  obtain ⟨reached, hr, rfl | rfl⟩ := hl
  · exact hr.halfway
  · exact Halfway.refl config output h

theorem Leaves.find?_eq (hl : Leaves v config output outside g c h d) {number : Nat}
    (hnone : Enriched.lastNumbered? v.size output.entities number = none)
    (hfresh : ¬ IsStaleNumber config output g number) : d.find? number = c.find? number := by
  obtain ⟨reached, hr, -⟩ := hl
  exact hr.find?_eq hnone hfresh

/-- Nothing is stranded where no deletion is refused. -/
theorem Leaves.not_isStranded (hl : Leaves v config output outside g c h d)
    (hrefused : ¬ v.RefusesDelete outside) (number : Nat) :
    ¬ IsStranded v config output g h d number := by
  rintro ⟨hstale, hswept, hnone, hthere⟩
  obtain ⟨reached, hr, rfl | rfl⟩ := hl
  · exact (hr.find?_of_isStaleNumber hrefused hnone hstale).elim hswept hthere
  · exact hswept hstale

/-- A run after one that was stopped puts the points that one run puts at once, except for those
that are stranded. -/
theorem Leaves.find?_eq_iff (hl : Leaves v config output outside g c h d) {again once : Graph}
    {c' d' : Collection} {gone gone' : List String}
    (hagain : Effect v config output h d again d' gone)
    (honce : Effect v config output g c once c' gone') (number : Nat) :
    d'.find? number = c'.find? number ↔ ¬ IsStranded v config output g h d number := by
  rw [hagain.find?_eq, honce.find?_eq]
  cases hnone : Enriched.lastNumbered? v.size output.entities number with
  | some e =>
    refine iff_of_true rfl fun hstranded => ?_
    rw [hstranded.2.2.1] at hnone
    cases hnone
  | none =>
    have hnow := mem_numbers_iff hagain.mem_gone_iff number
    have hthen := mem_numbers_iff honce.mem_gone_iff number
    -- without an entity to put, it is left to see whether the points of the number are deleted
    by_cases hstale : IsStaleNumber config output g number
    · rw [if_pos (hthen.2 hstale)]
      by_cases hstill : IsStaleNumber config output h number
      · rw [if_pos (hnow.2 hstill)]
        exact iff_of_true rfl fun hstranded => hstranded.2.1 hstill
      · rw [if_neg (mt hnow.1 hstill)]
        refine ⟨fun hgone hstranded => hstranded.2.2.2 hgone, fun hnot => ?_⟩
        by_contra hthere
        exact hnot ⟨hstale, hstill, hnone, hthere⟩
    · have hstill : ¬ IsStaleNumber config output h number := by
        rintro ⟨id, hs, hnumber⟩
        exact hstale ⟨id, ((hl.halfway.isStale_iff id).1 hs).1, hnumber⟩
      rw [if_neg (mt hthen.1 hstale), if_neg (mt hnow.1 hstill), hl.find?_eq hnone hstale]
      exact iff_of_true rfl fun hstranded => hstale hstranded.1

/-! ### Runs -/

theorem isName_enrich : Path.IsName "enrich" := by
  refine ⟨?_, ?_, ?_, ?_⟩ <;> decide

theorem output_ne_graphFile : "output.json" ≠ "graph.pkl" := by decide

/-- What the stage leaves in a world, whether it ends well or not. -/
structure Left (staging : String) (v : VectorStore) (config : BuildConfig) (output : EnrichOutput)
    (outside : Outside) (w w' : World) : Prop where
  leaves : Leaves v config output outside
    (GraphStore.held (Staging.graphPath staging) w) (v.prior w)
    (GraphStore.held (Staging.graphPath staging) w') (v.prior w')
  /-- The output is still staged. -/
  heldOutput : Staging.heldOutput Enriched.ofJson config.stagingPath "enrich" w'.disk w'.cwd =
    some output

/-- The output stays as it is while the graph is saved. -/
theorem heldOutput_of_saves {staging graphStaging : String} {h : Graph} {cwd : Place}
    {disk disk' : Disk}
    (hsaves : GraphStore.Saves (Staging.graphPath graphStaging) h cwd disk disk')
    (hheld : Staging.heldOutput Enriched.ofJson staging "enrich" disk cwd = some output) :
    Staging.heldOutput Enriched.ofJson staging "enrich" disk' cwd = some output := by
  obtain ⟨made, hmade, hwrite⟩ := hsaves
  obtain ⟨home, hhome⟩ := Staging.home_of_heldOutput isName_enrich hheld
  refine Staging.heldOutput_of_reads (fun content hcontent => ?_) hheld
  refine Disk.read_join_of_write Staging.isName_output isName_graphFile
    output_ne_graphFile hwrite ?_
  exact (Disk.read_of_expands (Disk.expands_makeDirectories hmade) hhome isName_enrich
    Staging.isName_output).2 hcontent

/-- New directories change neither the graph nor the output that is staged beside it. -/
theorem held_of_expands {staging : String} {cwd : Place} {disk disk' : Disk}
    (hexpands : disk.Expands disk')
    (hheld : Staging.heldOutput Enriched.ofJson staging "enrich" disk cwd = some output) :
    GraphStore.onDisk (Staging.graphPath staging) disk' cwd =
        GraphStore.onDisk (Staging.graphPath staging) disk cwd ∧
      Staging.heldOutput Enriched.ofJson staging "enrich" disk' cwd = some output := by
  obtain ⟨home, hhome⟩ := Staging.home_of_heldOutput isName_enrich hheld
  constructor
  · exact GraphStore.onDisk_congr fun content =>
      Disk.read_of_expands hexpands hhome isName_graph isName_graphFile
  · exact Staging.heldOutput_of_reads (fun content hcontent =>
      (Disk.read_of_expands hexpands hhome isName_enrich Staging.isName_output).2 hcontent) hheld

theorem Ended.left {staging : String} {w w' : World} {result : Population}
    (he : Ended (Staging.graphPath staging) v config result w w' output) :
    Left staging v config output outside w w' := by
  obtain ⟨hread, h, d, gone, disk, hcompletes, -, hsaves, hfills⟩ := he
  obtain ⟨collections, client, events, rfl, hd, -⟩ := hfills
  refine ⟨⟨h, ?_, .inl (hsaves.onDisk_eq)⟩, heldOutput_of_saves hsaves hread⟩
  have hprior : (collections.get? v.collection).getD (Collection.ofSize v.size) = d := by
    rw [hd]
    rfl
  change Reaches v config output outside _ _ h
    ((collections.get? v.collection).getD (Collection.ofSize v.size))
  rw [hprior]
  exact hcompletes.reaches

theorem Failed.left {w w' : World}
    (hread : Staging.heldOutput Enriched.ofJson config.stagingPath "enrich" w.disk w.cwd =
      some output)
    (hf : Failed (Staging.graphPath config.stagingPath) v config outside w w') :
    Left config.stagingPath v config output outside w w' := by
  obtain ⟨opened, disk, d, ⟨collections, client, events, rfl, hd, -⟩, hcases⟩ := hf
  rcases hcases with ⟨rfl, rfl⟩ | ⟨output', h, hread', hreaches, hdisk⟩
  · -- nothing was done, so what is left is what a run is stopped at before its first entity
    refine ⟨⟨GraphStore.held (Staging.graphPath config.stagingPath) w, ?_, .inr rfl⟩, hread⟩
    change Reaches v config output outside _ _ _
      ((collections.get? v.collection).getD (Collection.ofSize v.size))
    rw [hd]
    exact .entities List.nil_prefix .nil
  · obtain rfl : output' = output := Option.some.inj (hread'.symm.trans hread)
    have hleft : Reaches v config output' outside
        (GraphStore.held (Staging.graphPath config.stagingPath) w) (v.prior w) h
        ((collections.get? v.collection).getD (Collection.ofSize v.size)) := by
      rw [hd]
      exact hreaches
    rcases hdisk with hsaves | hexpands
    · exact ⟨⟨h, hleft, .inl (hsaves.onDisk_eq)⟩, heldOutput_of_saves hsaves hread⟩
    · obtain ⟨hgraph, houtput⟩ := held_of_expands hexpands hread
      exact ⟨⟨h, hleft, .inr hgraph⟩, houtput⟩

/-- However the stage ends, it leaves the stores on the way that one run takes. -/
theorem left_of_run {s : Settings} (hbackend : s.graphBackend = "networkx")
    (hstaging : config.stagingPath = s.stagingPath) {w : World} (outside : Outside)
    (hread : Staging.heldOutput Enriched.ofJson config.stagingPath "enrich" w.disk w.cwd =
      some output) :
    Left config.stagingPath (s.vectorStore config.project) config output outside w
      ((s.populating config).run outside w).2 := by
  rw [Settings.populating, graphStore_of_file hbackend, ← hstaging]
  have hrun : (run (.ok (.file (some (Staging.graphPath config.stagingPath))))
      (s.vectorStore config.project) config).wp _ _ outside w :=
    wp_run (graphPath_ne_empty config.stagingPath)
  rw [Build.wp] at hrun
  revert hrun
  generalize Build.run _ outside w = ended
  obtain ⟨answer, after⟩ := ended
  cases answer with
  | ok result =>
    rintro ⟨output', he⟩
    obtain rfl : output' = output := Option.some.inj (he.read.symm.trans hread)
    exact he.left
  | error f => exact fun hf => Failed.left hread hf

/-- Two worlds hold the same of a project: its nodes and its edges say the same. -/
def SameGraph (staging project : String) (w w' : World) : Prop :=
  let graph := GraphStore.held (Staging.graphPath staging)
  (∀ id, (graph w).nodeFacts ⟨project, id⟩ = (graph w').nodeFacts ⟨project, id⟩) ∧
    ∀ source target label, (graph w).edgeFacts ⟨project, source⟩ ⟨project, target⟩ label =
      (graph w').edgeFacts ⟨project, source⟩ ⟨project, target⟩ label

/-- Two worlds hold the same points of a project. -/
def SamePoints (v : VectorStore) (w w' : World) : Prop :=
  ∀ number, (v.prior w).find? number = (v.prior w').find? number

/-- A run that ends well after one that left the stores on the way comes to what one run comes to,
except for the points that are stranded. -/
theorem Left.repaired {staging : String} {w halfway again once : World}
    {result result' : Population} (hleft : Left staging v config output outside w halfway)
    (hagain : Ended (Staging.graphPath staging) v config result halfway again output)
    (honce : Ended (Staging.graphPath staging) v config result' w once output) :
    SameGraph staging config.project again once ∧
      (SamePoints v again once ↔ ∀ number, ¬ IsStranded v config output
        (GraphStore.held (Staging.graphPath staging) w)
        (GraphStore.held (Staging.graphPath staging) halfway) (v.prior halfway) number) := by
  obtain ⟨gone, d, hcompletes, -, hd, -⟩ := hagain.stores
  obtain ⟨gone', d', hcompletes', -, hd', -⟩ := honce.stores
  refine ⟨⟨hleft.leaves.halfway.nodeFacts_eq hcompletes.effect hcompletes'.effect,
    hleft.leaves.halfway.edgeFacts_eq hcompletes.effect hcompletes'.effect⟩,
    forall_congr' fun number => ?_⟩
  rw [VectorStore.prior, hd, VectorStore.prior, hd']
  exact hleft.leaves.find?_eq_iff hcompletes.effect hcompletes'.effect number

/-- The third stage is run, and run again on the same output.  When the second run ends well, the
project's nodes and edges are those that one run makes that ends well.  Its points are those that
one run puts if and only if none is stranded; and none is unless the first run was refused a
deletion. -/
theorem repair_of_rerun (s : Settings) (hbackend : s.graphBackend = "networkx")
    (config : BuildConfig) (hstaging : config.stagingPath = s.stagingPath)
    (first second other : Outside) (w : World) (output : EnrichOutput) (result result' : Population)
    (hread : Staging.heldOutput Enriched.ofJson config.stagingPath "enrich" w.disk w.cwd =
      some output)
    (hagain : ((s.populating config).run second
      ((s.populating config).run first w).2).1.toOption = some result)
    (honce : ((s.populating config).run other w).1.toOption = some result') :
    let v := s.vectorStore config.project
    let graph := GraphStore.held (Staging.graphPath s.stagingPath)
    let halfway := ((s.populating config).run first w).2
    let again := ((s.populating config).run second halfway).2
    let once := ((s.populating config).run other w).2
    SameGraph s.stagingPath config.project again once ∧
      (SamePoints v again once ↔
        ∀ number, ¬ IsStranded v config output (graph w) (graph halfway) (v.prior halfway) number) ∧
      (¬ v.RefusesDelete first → SamePoints v again once) := by
  intro v graph halfway again once
  have hleft : Left config.stagingPath v config output first w halfway :=
    left_of_run hbackend hstaging first hread
  rw [hstaging] at hleft
  obtain ⟨hgraph, hpoints⟩ := hleft.repaired (ended_of_run hbackend hleft.heldOutput hagain)
    (ended_of_run hbackend hread honce)
  exact ⟨hgraph, hpoints, fun hrefused => hpoints.2 (hleft.leaves.not_isStranded hrefused)⟩

/-! ### A deletion that is refused -/

/-- Surroundings in which no points can be deleted. -/
def keepsPoints : Outside :=
  { quiet with
    refuses := fun _ event => match event with
      | .vector (.delete ..) => some (.outside "ResponseHandlingException" "timed out")
      | _ => none }

/-- The point of the function of `b`. -/
def functionPoint : Point := ⟨PointId.ofEntityId "function:b:f", [.int 1, .int 2], []⟩

/-- The stores with the function of `b`, and an output that holds nothing. -/
def functionWorld : World :=
  { stagedWorld "\x7b\x7d" with collections := [("p__code_graph", ⟨2, [functionPoint]⟩)] }

/-- The build of the default project. -/
def functionStage : Build Population := fileSettings.populating incrementalConfig

/-- What is left where the points of the function could not be deleted. -/
def halfwayWorld : World := (functionStage.run keepsPoints functionWorld).2

theorem rerun_halfwayWorld :
    (functionStage.run quiet halfwayWorld).1.toOption = some ⟨0, 0, 0, 0⟩ := by decide +kernel

theorem run_functionWorld :
    (functionStage.run quiet functionWorld).1.toOption = some ⟨0, 0, 0, 1⟩ := by decide +kernel

theorem repair_of_rerun_halfwayWorld :
    ∃ output,
      Staging.heldOutput Enriched.ofJson "s" "enrich" functionWorld.disk [] = some output ∧
        SameGraph "s" "p" (functionStage.run quiet halfwayWorld).2
          (functionStage.run quiet functionWorld).2 ∧
        (SamePoints (fileSettings.vectorStore "p") (functionStage.run quiet halfwayWorld).2
            (functionStage.run quiet functionWorld).2 ↔
          ∀ number, ¬ IsStranded (fileSettings.vectorStore "p") incrementalConfig output
            (GraphStore.held (Staging.graphPath "s") functionWorld)
            (GraphStore.held (Staging.graphPath "s") halfwayWorld)
            ((fileSettings.vectorStore "p").prior halfwayWorld) number) := by
  obtain ⟨output, hended⟩ := Build.of_wp_of_toOption
    (wp_run (v := fileSettings.vectorStore "p") (graphPath_ne_empty "s")) run_functionWorld
  obtain ⟨hgraph, hpoints, -⟩ :=
    repair_of_rerun fileSettings rfl incrementalConfig rfl keepsPoints quiet quiet functionWorld
      output _ _ hended.read rerun_halfwayWorld run_functionWorld
  exact ⟨output, hended.read, hgraph, hpoints⟩

/-- Every point is that of a node.  The deletion of one is refused, and the next run, which ends
well, leaves it where one run deletes it. -/
theorem rerun_keeps_point :
    (∀ p ∈ ((fileSettings.vectorStore "p").prior functionWorld).points, ∃ id,
        p.id = PointId.ofEntityId id ∧
          (GraphStore.held (Staging.graphPath "s") functionWorld).hasNode ⟨"p", id⟩ = true) ∧
      (functionStage.run keepsPoints functionWorld).1.toOption = none ∧
      (functionStage.run quiet halfwayWorld).1.toOption = some ⟨0, 0, 0, 0⟩ ∧
      (functionStage.run quiet functionWorld).1.toOption = some ⟨0, 0, 0, 1⟩ ∧
      ¬ SamePoints (fileSettings.vectorStore "p") (functionStage.run quiet halfwayWorld).2
        (functionStage.run quiet functionWorld).2 := by
  refine ⟨fun p hp => ⟨"function:b:f", ?_, ?_⟩, ?_, rerun_halfwayWorld, run_functionWorld,
    fun hsame => ?_⟩
  · rw [List.mem_singleton.1 hp]
    rfl
  · decide +kernel
  · decide +kernel
  · have hkept : (((fileSettings.vectorStore "p").prior
        (functionStage.run quiet halfwayWorld).2).find? functionPoint.id).isSome = true := by
      decide +kernel
    have hgone : (((fileSettings.vectorStore "p").prior
        (functionStage.run quiet functionWorld).2).find? functionPoint.id).isSome = false := by
      decide +kernel
    rw [hsame, hgone] at hkept
    exact Bool.noConfusion hkept

end Populating

end RepoGraph
