import RepoGraph.Proofs.Populate.Repair

/-!
# Whose points a project has

A point is that of an entity if its payload names the entity and its number is the number of the
entity's id.  `Populating.Owned` says that the points of a collection are those of nodes of the
project, with vectors of the collection's size.  Every run of the third stage that ends well keeps
this, whatever it has read and whichever ids share a number, so it holds of all worlds that such
runs come to from stores without points: these are `Populating.Filled`.

Where no other id shares the number of an entity, the point of the entity is as fresh as the output
if the entity has a vector of the right size; if it has none, the point it had before is left.

Main statements: `Populating.Completes.owned`, `Populating.points_of_filled`,
`Populating.isFresh_iff_of_run`.
-/

namespace RepoGraph

/-! ### The points of a collection -/

namespace Collection

theorem mem_putPoint {p q : Point} {points : List Point} (h : q ∈ putPoint p points) :
    q = p ∨ q ∈ points := by
  induction points with
  | nil => exact .inl (List.mem_singleton.1 h)
  | cons r rest ih =>
    rw [putPoint] at h
    split at h
    · exact (List.mem_cons.1 h).imp_right (List.mem_cons_of_mem r)
    · rcases List.mem_cons.1 h with rfl | hrest
      · exact .inr List.mem_cons_self
      · exact (ih hrest).imp_right (List.mem_cons_of_mem r)

theorem map_id_putPoint (p : Point) (points : List Point) :
    (putPoint p points).map Point.id =
      if p.id ∈ points.map Point.id then points.map Point.id
      else points.map Point.id ++ [p.id] := by
  induction points with
  | nil => rfl
  | cons q rest ih =>
    by_cases h : q.id = p.id
    · simp [putPoint, h]
    · have h' : ¬ p.id = q.id := fun e => h e.symm
      simp only [putPoint, h, if_false, List.map_cons, ih, List.mem_cons, h', false_or]
      split <;> rfl

/-- Whether no number is used twice. -/
def HasDistinctNumbers (c : Collection) : Prop := (c.points.map Point.id).Nodup

theorem HasDistinctNumbers.put {c : Collection} (h : c.HasDistinctNumbers) (p : Point) :
    (c.put p).HasDistinctNumbers := by
  rw [HasDistinctNumbers, Collection.put, map_id_putPoint]
  split
  · exact h
  · rename_i hnew
    exact Graph.nodup_snoc h hnew

theorem HasDistinctNumbers.putAll {c : Collection} (h : c.HasDistinctNumbers)
    (points : List Point) : (c.putAll points).HasDistinctNumbers := by
  induction points generalizing c with
  | nil => exact h
  | cons p rest ih => exact ih (h.put p)

theorem HasDistinctNumbers.delete {c : Collection} (h : c.HasDistinctNumbers) (ids : List Nat) :
    (c.delete ids).HasDistinctNumbers :=
  List.Nodup.sublist (List.filter_sublist.map Point.id) h

theorem lookup_eq_some_iff {points : List Point} (h : (points.map Point.id).Nodup) {id : Nat}
    {p : Point} : lookup points id = some p ↔ p ∈ points ∧ p.id = id := by
  induction points with
  | nil => simp [lookup]
  | cons q rest ih =>
    rw [List.map_cons, List.nodup_cons] at h
    by_cases hq : q.id = id
    · have hnot (hp : p ∈ rest) : p.id ≠ id := fun hid =>
        h.1 (List.mem_map.2 ⟨p, hp, hid.trans hq.symm⟩)
      simp only [lookup, hq, if_true, Option.some.injEq, List.mem_cons]
      constructor
      · rintro rfl
        exact ⟨.inl rfl, hq⟩
      · rintro ⟨rfl | hp, hid⟩
        · rfl
        · exact absurd hid (hnot hp)
    · have hne (hid : p.id = id) : p ≠ q := fun h => hq (h ▸ hid)
      simp only [lookup, hq, if_false, ih h.2, List.mem_cons]
      exact and_congr_left fun hid => (or_iff_right (hne hid)).symm

/-- The points are those that are found under their numbers. -/
theorem find?_eq_some_iff {c : Collection} (h : c.HasDistinctNumbers) {id : Nat} {p : Point} :
    c.find? id = some p ↔ p ∈ c.points ∧ p.id = id :=
  lookup_eq_some_iff h

theorem mem_points_putAll {c : Collection} {points : List Point} {p : Point}
    (h : p ∈ (c.putAll points).points) : p ∈ points ∨ p ∈ c.points := by
  induction points generalizing c with
  | nil => exact .inr h
  | cons q rest ih =>
    rcases ih h with hrest | hput
    · exact .inl (List.mem_cons_of_mem q hrest)
    · rcases mem_putPoint hput with rfl | hmem
      · exact .inl List.mem_cons_self
      · exact .inr hmem

theorem mem_points_delete {c : Collection} {ids : List Nat} {p : Point} :
    p ∈ (c.delete ids).points ↔ p ∈ c.points ∧ p.id ∉ ids := by
  simp [delete]

end Collection

/-- A point is that of the entity with an id: its payload names the entity, and its number is the
number of the id. -/
structure Point.IsOf (p : Point) (id : String) : Prop where
  entityId_eq : p.payload.get? "entityId" = some (.str id)
  id_eq : p.id = PointId.ofEntityId id

theorem Point.IsOf.unique {p : Point} {id other : String} (h : p.IsOf id) (h' : p.IsOf other) :
    id = other := by
  have := h.entityId_eq.symm.trans h'.entityId_eq
  injection this with this
  injection this

theorem Point.isOf_ofEntity (e : Enriched) : (Point.ofEntity e).IsOf e.id := ⟨rfl, rfl⟩

namespace Populating

variable {v : VectorStore} {config : BuildConfig} {output : EnrichOutput} {g h : Graph}
  {c d : Collection} {gone : List String} {s : Settings} {project : String} {w w' : World}

/-! ### Points of nodes -/

/-- A collection holds points of nodes of a project, each with a vector of the collection's size and
under a number of its own. -/
structure Owned (project : String) (g : Graph) (c : Collection) : Prop where
  distinct : c.HasDistinctNumbers
  owner : ∀ p ∈ c.points, ∃ id, p.IsOf id ∧ g.hasNode ⟨project, id⟩ = true
  length_eq : ∀ p ∈ c.points, (p.vector.length : Int) = c.size

theorem owned_of_empty (hempty : c.points = []) : Owned project g c := by
  refine ⟨?_, ?_, ?_⟩
  · rw [Collection.HasDistinctNumbers, hempty]
    exact List.nodup_nil
  · rw [hempty]
    exact fun p hp => nomatch hp
  · rw [hempty]
    exact fun p hp => nomatch hp

theorem Owned.congr (ho : Owned project g c)
    (hnodes : ∀ id, g.nodeFacts ⟨project, id⟩ = h.nodeFacts ⟨project, id⟩) :
    Owned project h c := by
  refine ⟨ho.distinct, fun p hp => ?_, ho.length_eq⟩
  obtain ⟨id, hof, hnode⟩ := ho.owner p hp
  refine ⟨id, hof, ?_⟩
  rw [← Graph.isSome_nodeFacts, ← hnodes, Graph.isSome_nodeFacts]
  exact hnode

/-- What is staged is a node when the stage has ended. -/
theorem Effect.hasNode_of_mem (he : Effect v config output g c h d gone) {e : Enriched}
    (hmem : e ∈ output.entities) : h.hasNode ⟨config.project, e.id⟩ = true := by
  have hcurrent : e.id ∈ currentIds output := List.mem_map_of_mem hmem
  have hkept : e.id ∉ gone := fun hgone => ((he.mem_gone_iff e.id).1 hgone).2.1 hcurrent
  rw [← Graph.isSome_nodeFacts, he.nodeFacts_eq, if_neg hkept, ← isNode_eq, isNode]
  simp [hcurrent]

/-- A node that is not gone is still a node. -/
theorem Effect.hasNode_of_hasNode (he : Effect v config output g c h d gone) {id : String}
    (hnode : g.hasNode ⟨config.project, id⟩ = true) (hkept : id ∉ gone) :
    h.hasNode ⟨config.project, id⟩ = true := by
  rw [← Graph.isSome_nodeFacts, he.nodeFacts_eq, if_neg hkept, ← isNode_eq, isNode, hnode,
    Bool.or_true]

/-- A run that ends well leaves no point without a node: a point that is put is that of an entity
that is staged, and a point that was there is deleted if its node is. -/
theorem Completes.owned (hc : Completes v config output g c h d gone)
    (ho : Owned config.project g c) : Owned config.project h d := by
  have he := hc.effect
  have hsize : d.size = v.size := hc.size_collection
  have hpoint (p : Point) (hp : p ∈ d.points) :
      (∃ e ∈ output.entities, e.hasPoint v.size = true ∧ p = Point.ofEntity e) ∨
        p ∈ c.points ∧ p.id ∉ VectorStore.pointIds gone := by
    rw [hc.collection_eq] at hp
    refine (Collection.mem_points_putAll hp).imp (fun hput => ?_) Collection.mem_points_delete.1
    obtain ⟨e, he, rfl⟩ := List.mem_map.1 hput
    exact ⟨e, (List.mem_filter.1 he).1, (List.mem_filter.1 he).2, rfl⟩
  refine ⟨?_, fun p hp => ?_, fun p hp => ?_⟩
  · rw [hc.collection_eq]
    exact (ho.distinct.delete _).putAll _
  · rcases hpoint p hp with ⟨e, hmem, -, rfl⟩ | ⟨hbefore, hkept⟩
    · exact ⟨e.id, Point.isOf_ofEntity e, he.hasNode_of_mem hmem⟩
    · obtain ⟨id, hof, hnode⟩ := ho.owner p hbefore
      refine ⟨id, hof, he.hasNode_of_hasNode hnode fun hgone => hkept ?_⟩
      exact VectorStore.mem_pointIds.2 ⟨id, hgone, hof.id_eq.symm⟩
  · rw [hsize]
    rcases hpoint p hp with ⟨e, -, hfits, rfl⟩ | ⟨hbefore, -⟩
    · simp only [Enriched.hasPoint, Bool.and_eq_true, beq_iff_eq] at hfits
      exact hfits.2
    · rw [ho.length_eq p hbefore, hc.size_eq]

/-! ### Runs from empty stores -/

/-- The worlds that runs of the third stage for a project come to, each of which ends well, from
stores without points of the project.  Between two runs anything may happen that leaves the
project's nodes and points. -/
inductive Filled (s : Settings) (project : String) : World → Prop where
  | start {w : World} (hempty : ((s.vectorStore project).prior w).points = []) : Filled s project w
  | run {w : World} (hw : Filled s project w) {config : BuildConfig}
      (hproject : config.project = project) {outside : Outside} {result : Population}
      (hrun : ((s.populating config).run outside w).1.toOption = some result) :
      Filled s project ((s.populating config).run outside w).2
  | between {w w' : World} (hw : Filled s project w) (hgraph : SameGraph s.stagingPath project w w')
      (hpoints : (s.vectorStore project).prior w' = (s.vectorStore project).prior w) :
      Filled s project w'

/-- After every run the points of the project are those of its nodes. -/
theorem Filled.owned (hbackend : s.graphBackend = "networkx") (hw : Filled s project w) :
    Owned project (GraphStore.held (Staging.graphPath s.stagingPath) w)
      ((s.vectorStore project).prior w) := by
  induction hw with
  | start hempty => exact owned_of_empty hempty
  | @run w hw config hproject outside result hrun ih =>
    subst hproject
    obtain ⟨output, hended⟩ := exists_ended_of_run hbackend hrun
    obtain ⟨gone, d, hcompletes, -, hd, -⟩ := hended.stores
    rw [VectorStore.prior, hd]
    exact hcompletes.owned ih
  | between hw hgraph hpoints ih =>
    rw [hpoints]
    exact ih.congr hgraph.1

/-- However often the third stage was run for a project, each time ending well, from stores without
points of the project: every point of its collection has the number of the id that its payload
names, this id is that of a node of the project, and its vector has the collection's size. -/
theorem points_of_filled (s : Settings) (hbackend : s.graphBackend = "networkx") (project : String)
    (w : World) (hw : Filled s project w) (c : Collection)
    (hc : w.collections.get? (s.vectorStore project).collection = some c) (p : Point)
    (hp : p ∈ c.points) :
    (∃ id, p.payload.get? "entityId" = some (.str id) ∧ p.id = PointId.ofEntityId id ∧
        (GraphStore.held (Staging.graphPath s.stagingPath) w).hasNode ⟨project, id⟩ = true) ∧
      (p.vector.length : Int) = c.size := by
  have ho := hw.owned hbackend
  rw [VectorStore.prior, hc] at ho
  obtain ⟨id, hof, hnode⟩ := ho.owner p hp
  exact ⟨⟨id, hof.entityId_eq, hof.id_eq, hnode⟩, ho.length_eq p hp⟩

/-! ### An entity with a vector -/

/-- An entity `b` with a vector. -/
def embeddedText : String :=
  "\x7b\"entities\":[\x7b\"id\":\"b\",\"type\":\"f\",\"embedding\":[1,2]\x7d]\x7d"

/-- What a run leaves that puts the point of the entity. -/
def embeddedWorld : World := (functionStage.run quiet (stagedWorld embeddedText)).2

theorem run_embeddedText :
    (functionStage.run quiet (stagedWorld embeddedText)).1.toOption = some ⟨1, 0, 1, 1⟩ ∧
      (embeddedWorld.collections.get? "p__code_graph").map (fun c => c.points.length) = some 1 := by
  decide +kernel

theorem filled_embeddedWorld : Filled fileSettings "p" embeddedWorld :=
  .run (.start rfl) rfl run_embeddedText.1

theorem points_of_filled_embeddedWorld :
    ∃ c p, embeddedWorld.collections.get? "p__code_graph" = some c ∧ p ∈ c.points ∧
      (∃ id, p.payload.get? "entityId" = some (.str id) ∧ p.id = PointId.ofEntityId id ∧
        (GraphStore.held (Staging.graphPath "s") embeddedWorld).hasNode ⟨"p", id⟩ = true) ∧
      (p.vector.length : Int) = c.size := by
  obtain ⟨c, hc, hlength⟩ := Option.map_eq_some_iff.1 run_embeddedText.2
  obtain ⟨p, hp⟩ := List.length_eq_one_iff.1 hlength
  have hmem : p ∈ c.points := hp ▸ List.mem_singleton_self p
  exact ⟨c, p, hc, hmem, points_of_filled fileSettings rfl "p" embeddedWorld filled_embeddedWorld c
    hc p hmem⟩

/-! ### How fresh points are -/

/-- A collection is as fresh about an entity as the output that holds it: there is a point of the
entity if and only if the entity has a vector of the right size, and the point says what the entity
says. -/
def IsFresh (size : Int) (c : Collection) (e : Enriched) : Prop :=
  ((∃ p ∈ c.points, p.IsOf e.id) ↔ e.hasPoint size = true) ∧
    ∀ p ∈ c.points, p.IsOf e.id → p.payload = e.payload

/-- Whether no other id of an output or of a graph has the number of an entity. -/
def HasOwnNumber (project : String) (output : EnrichOutput) (g : Graph) (e : Enriched) : Prop :=
  ∀ id, id ∈ currentIds output ∨ g.hasNode ⟨project, id⟩ = true →
    PointId.ofEntityId id = PointId.ofEntityId e.id → id = e.id

/-- Of the entities that are put, only the entity itself has its number. -/
theorem lastNumbered?_eq {size : Int} {e : Enriched} (hids : (currentIds output).Nodup)
    (hmem : e ∈ output.entities) (hown : HasOwnNumber project output g e) :
    Enriched.lastNumbered? size output.entities (PointId.ofEntityId e.id) =
      if e.hasPoint size = true then some e else none := by
  have hself {other : Enriched} (hother : other ∈ output.entities)
      (hnumber : PointId.ofEntityId other.id = PointId.ofEntityId e.id) : other = e :=
    List.inj_on_of_nodup_map hids hother hmem
      (hown other.id (.inl (List.mem_map_of_mem hother)) hnumber)
  cases hlast : Enriched.lastNumbered? size output.entities (PointId.ofEntityId e.id) with
  | some other =>
    have hfits := List.find?_some hlast
    have hother : other ∈ output.entities := List.mem_reverse.1 (List.mem_of_find?_eq_some hlast)
    simp only [Bool.and_eq_true, beq_iff_eq] at hfits
    obtain rfl := hself hother hfits.2
    rw [if_pos hfits.1]
  | none =>
    rw [Enriched.lastNumbered?, List.find?_eq_none] at hlast
    have hnot := hlast e (List.mem_reverse.2 hmem)
    simp only [beq_self_eq_true, Bool.and_true] at hnot
    rw [if_neg hnot]

/-- The number of an entity that is staged is not that of a node that is gone. -/
theorem Effect.number_not_mem (he : Effect v config output g c h d gone) {e : Enriched}
    (hmem : e ∈ output.entities) (hown : HasOwnNumber config.project output g e) :
    PointId.ofEntityId e.id ∉ gone.map PointId.ofEntityId := by
  rintro hgone
  obtain ⟨id, hid, hnumber⟩ := List.mem_map.1 hgone
  obtain ⟨-, hcurrent, node, hnode, -⟩ := (he.mem_gone_iff id).1 hid
  have hthere : g.hasNode ⟨config.project, id⟩ = true := by
    rw [← Graph.isSome_nodeFacts, hnode]
    rfl
  rw [hown id (.inr hthere) hnumber] at hcurrent
  exact hcurrent (List.mem_map_of_mem hmem)

/-- Under the number of an entity that has it alone is the entity's point, or what was there. -/
theorem Effect.find?_of_mem (he : Effect v config output g c h d gone)
    (hids : (currentIds output).Nodup) {e : Enriched} (hmem : e ∈ output.entities)
    (hown : HasOwnNumber config.project output g e) :
    d.find? (PointId.ofEntityId e.id) =
      if e.hasPoint v.size = true then some (Point.ofEntity e)
      else c.find? (PointId.ofEntityId e.id) := by
  rw [he.find?_eq, lastNumbered?_eq hids hmem hown]
  by_cases hfits : e.hasPoint v.size = true
  · rw [if_pos hfits, if_pos hfits]
  · rw [if_neg hfits, if_neg hfits]
    exact if_neg (he.number_not_mem hmem hown)

theorem points_of_isOf (hdistinct : c.HasDistinctNumbers) {p : Point} {id : String}
    (hof : p.IsOf id) : p ∈ c.points ↔ c.find? (PointId.ofEntityId id) = some p := by
  rw [Collection.find?_eq_some_iff hdistinct, and_iff_left hof.id_eq]

/-- An entity that has its number alone and a vector of the right size has its point and no other
one; without such a vector it has the points it had. -/
theorem Completes.points_of_mem (hc : Completes v config output g c h d gone)
    (ho : Owned config.project g c) (hids : (currentIds output).Nodup) {e : Enriched}
    (hmem : e ∈ output.entities) (hown : HasOwnNumber config.project output g e) (p : Point)
    (hof : p.IsOf e.id) :
    p ∈ d.points ↔
      if e.hasPoint v.size = true then p = Point.ofEntity e else p ∈ c.points := by
  rw [points_of_isOf (hc.owned ho).distinct hof, hc.effect.find?_of_mem hids hmem hown]
  split
  · rw [Option.some.injEq, eq_comm]
  · exact (points_of_isOf ho.distinct hof).symm

/-- A run of the third stage that ends well, after any number of them, on an output whose ids are
distinct and share no number with one another or with the nodes before: every entity with a vector
of the right size has its point and no other one, and every other entity has the points it had
before.  So the collection is as fresh about an entity as the output, unless the entity has no such
vector and had a point. -/
theorem isFresh_iff_of_run (s : Settings) (hbackend : s.graphBackend = "networkx")
    (config : BuildConfig) (outside : Outside) (w : World) (hw : Filled s config.project w)
    (output : EnrichOutput) (result : Population)
    (hread : Staging.heldOutput Enriched.ofJson config.stagingPath "enrich" w.disk w.cwd =
      some output)
    (hids : (currentIds output).Nodup)
    (hown : ∀ e ∈ output.entities, HasOwnNumber config.project output
      (GraphStore.held (Staging.graphPath s.stagingPath) w) e)
    (hrun : ((s.populating config).run outside w).1.toOption = some result) (e : Enriched)
    (hmem : e ∈ output.entities) :
    let before := (s.vectorStore config.project).prior w
    let after := (s.vectorStore config.project).prior ((s.populating config).run outside w).2
    (∀ p, p.IsOf e.id → (p ∈ after.points ↔
        if e.hasPoint s.vectorSize = true then p = Point.ofEntity e else p ∈ before.points)) ∧
      (IsFresh s.vectorSize after e ↔
        e.hasPoint s.vectorSize = true ∨ ∀ p ∈ before.points, ¬ p.IsOf e.id) := by
  intro before after
  obtain ⟨gone, d, hcompletes, -, hd, -⟩ := (ended_of_run hbackend hread hrun).stores
  have hafter : after = d := by
    show VectorStore.prior _ _ = d
    rw [VectorStore.prior, hd]
    rfl
  have hpoints (p : Point) (hof : p.IsOf e.id) : p ∈ after.points ↔
      if e.hasPoint s.vectorSize = true then p = Point.ofEntity e else p ∈ before.points := by
    rw [hafter]
    exact hcompletes.points_of_mem (hw.owned hbackend) hids hmem (hown e hmem) p hof
  refine ⟨hpoints, ?_⟩
  -- with a vector the entity has its own point; without one its old points stay
  by_cases hfits : e.hasPoint s.vectorSize = true
  · simp only [hfits, if_true] at hpoints
    simp only [IsFresh, hfits, iff_true, true_or]
    refine ⟨⟨_, (hpoints _ (Point.isOf_ofEntity e)).2 rfl, Point.isOf_ofEntity e⟩,
      fun p hp hof => ?_⟩
    rw [(hpoints p hof).1 hp]
    rfl
  · simp only [if_neg hfits] at hpoints
    rw [or_iff_right hfits, IsFresh, iff_false_right hfits]
    simp only [not_exists, not_and]
    constructor
    · exact fun hfresh p hp hof => hfresh.1 p ((hpoints p hof).2 hp) hof
    · exact fun hnone => ⟨fun p hp hof => hnone p ((hpoints p hof).1 hp) hof,
        fun p hp hof => absurd hof (hnone p ((hpoints p hof).1 hp))⟩

/-! ### An entity that loses its vector -/

theorem hasNode_iff_mem {key : NodeKey} : g.hasNode key = true ↔ key ∈ g.nodes.map Prod.fst := by
  rw [Graph.hasNode, Option.isSome_iff_exists, List.mem_map]
  constructor
  · rintro ⟨attributes, hattributes⟩
    exact ⟨_, Graph.attributes?_eq_some_iff.1 hattributes, rfl⟩
  · rintro ⟨⟨k, attributes⟩, hmem, rfl⟩
    exact ⟨attributes, Graph.attributes?_eq_some_iff.2 hmem⟩

/-- Another output that is staged after a run that ended well leaves the graph. -/
theorem Ended.sameGraph_of_write {staging stage text : String} {result : Population} {disk : Disk}
    (he : Ended (Staging.graphPath staging) v config result w w' output)
    (hwrite : w'.disk.write w.cwd (Staging.artifactPath staging stage) (.text text) = .ok disk) :
    SameGraph staging project w' { w' with disk } := by
  obtain ⟨-, h, d, gone, saved, -, -, ⟨made, -, hsaved⟩, collections, client, events, rfl, -, -⟩ :=
    he
  have hread : saved.read w.cwd (Staging.graphPath staging) = .ok (.graph h) :=
    Disk.read_write hsaved
  have hread' : disk.read w.cwd (Staging.graphPath staging) = .ok (.graph h) :=
    Disk.read_join_of_write isName_graphFile Staging.isName_output output_ne_graphFile.symm hwrite
      hread
  simp only [SameGraph, GraphStore.held, GraphStore.onDisk_of_read hread,
    GraphStore.onDisk_of_read hread', implies_true, and_self]

/-- An entity `b` without a vector. -/
def plainText : String :=
  "\x7b\"entities\":[\x7b\"id\":\"b\",\"type\":\"f\"\x7d]\x7d"

/-- The stores with the point of the entity, and the entity without a vector staged. -/
def restagedWorld : World :=
  { embeddedWorld with
    disk := (embeddedWorld.disk.write [] (Staging.artifactPath "s" "enrich")
      (.text plainText)).toOption.getD embeddedWorld.disk }

theorem write_restagedWorld :
    embeddedWorld.disk.write [] (Staging.artifactPath "s" "enrich") (.text plainText) =
      .ok restagedWorld.disk := by
  have hsome : (embeddedWorld.disk.write [] (Staging.artifactPath "s" "enrich")
      (.text plainText)).toOption.isSome = true := by decide +kernel
  show _ = Except.ok (Option.getD _ _)
  generalize embeddedWorld.disk.write [] (Staging.artifactPath "s" "enrich") (.text plainText) =
    written at hsome ⊢
  cases written with
  | ok disk => rfl
  | error fault => exact Bool.noConfusion hsome

/-- The point of the entity is there after the next run, which ends well. -/
theorem run_restagedWorld :
    (functionStage.run quiet restagedWorld).1.toOption = some ⟨1, 0, 0, 0⟩ ∧
      (((fileSettings.vectorStore "p").prior
        (functionStage.run quiet restagedWorld).2).points.any fun p =>
          match p.payload.get? "entityId" with
          | some (.str id) => id == "b" && p.id == PointId.ofEntityId "b"
          | _ => false) = true := by decide +kernel

theorem filled_restagedWorld : Filled fileSettings "p" restagedWorld := by
  obtain ⟨output, hended⟩ := exists_ended_of_run rfl run_embeddedText.1
  exact .between filled_embeddedWorld (hended.sameGraph_of_write write_restagedWorld) rfl

/-- The output that is staged is the entity without a vector; its number is that of no other id. -/
theorem output_restagedWorld :
    ∃ output, Staging.heldOutput Enriched.ofJson "s" "enrich" restagedWorld.disk
      restagedWorld.cwd = some output ∧
      (currentIds output).Nodup ∧
        (∀ e ∈ output.entities, HasOwnNumber "p" output
          (GraphStore.held (Staging.graphPath "s") restagedWorld) e) ∧
          ∃ e ∈ output.entities, e.id = "b" ∧ e.hasPoint 2 = false := by
  have hstaged : (Staging.heldOutput Enriched.ofJson "s" "enrich" restagedWorld.disk
        restagedWorld.cwd).map (fun output => output.entities.map fun e => (e.id, e.hasPoint 2)) =
          some [("b", false)] ∧
      (GraphStore.held (Staging.graphPath "s") restagedWorld).nodes.map Prod.fst =
        [⟨"p", "b"⟩] := by
    decide +kernel
  obtain ⟨hids, hnodes⟩ := hstaged
  obtain ⟨output, houtput, hentities⟩ := Option.map_eq_some_iff.1 hids
  obtain ⟨e, he, hfile⟩ := List.map_eq_singleton_iff.1 hentities
  rw [Prod.mk.injEq] at hfile
  have hcurrent : currentIds output = ["b"] := by rw [currentIds, he, List.map_singleton, hfile.1]
  refine ⟨output, houtput, ?_, fun other hother id hid _ => ?_, e, ?_, hfile⟩
  · rw [hcurrent]
    exact List.nodup_singleton _
  · rw [he, List.mem_singleton] at hother
    rw [hother, hfile.1]
    rw [hcurrent, hasNode_iff_mem, hnodes] at hid
    simpa using hid
  · rw [he]
    exact List.mem_singleton_self e

theorem isFresh_iff_restagedWorld :
    ∃ output, ∃ e ∈ output.entities,
      Staging.heldOutput Enriched.ofJson "s" "enrich" restagedWorld.disk
      restagedWorld.cwd = some output ∧
        let before := (fileSettings.vectorStore "p").prior restagedWorld
        let after := (fileSettings.vectorStore "p").prior (functionStage.run quiet restagedWorld).2
        (∀ p, p.IsOf e.id → (p ∈ after.points ↔
            if e.hasPoint 2 = true then p = Point.ofEntity e else p ∈ before.points)) ∧
          (IsFresh 2 after e ↔ e.hasPoint 2 = true ∨ ∀ p ∈ before.points, ¬ p.IsOf e.id) := by
  obtain ⟨output, hread, hids, hown, e, hmem, -⟩ := output_restagedWorld
  exact ⟨output, e, hmem, hread, isFresh_iff_of_run fileSettings rfl incrementalConfig quiet
    restagedWorld filled_restagedWorld output _ hread hids hown run_restagedWorld.1 e hmem⟩

/-- The entity is staged without a vector, after a run that put its point; the next run ends well
and leaves the point. -/
theorem not_isFresh_restagedWorld :
    Filled fileSettings "p" restagedWorld ∧
      (functionStage.run quiet restagedWorld).1.toOption = some ⟨1, 0, 0, 0⟩ ∧
      ∃ output, ∃ e ∈ output.entities,
        Staging.heldOutput Enriched.ofJson "s" "enrich" restagedWorld.disk
      restagedWorld.cwd = some output ∧
          (currentIds output).Nodup ∧
          (∀ e ∈ output.entities, HasOwnNumber "p" output
            (GraphStore.held (Staging.graphPath "s") restagedWorld) e) ∧
          ¬ IsFresh 2 ((fileSettings.vectorStore "p").prior
            (functionStage.run quiet restagedWorld).2) e := by
  obtain ⟨output, hread, hids, hown, e, hmem, hfile⟩ := output_restagedWorld
  refine ⟨filled_restagedWorld, run_restagedWorld.1, output, e, hmem, hread, hids, hown,
    fun hfresh => ?_⟩
  obtain ⟨p, hp, hpoint⟩ := List.any_eq_true.1 run_restagedWorld.2
  -- the point that is left is one of the entity
  have hof : p.IsOf e.id := by
    rw [hfile.1]
    split at hpoint
    · rename_i id hid
      rw [Bool.and_eq_true, beq_iff_eq, beq_iff_eq] at hpoint
      exact ⟨hpoint.1 ▸ hid, hpoint.2⟩
    · exact Bool.noConfusion hpoint
  have hfits := hfresh.1.1 ⟨p, hp, hof⟩
  rw [hfile.2] at hfits
  exact Bool.noConfusion hfits

end Populating

end RepoGraph
