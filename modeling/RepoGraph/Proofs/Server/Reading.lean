import RepoGraph.Proofs.Server.Relationships

/-!
# Pruning and counting on a server

What a statement finds among the vertices and arcs of a server that stores a graph is what is found
among the nodes and edges of the graph: the stale nodes, whose vertices are deleted with their arcs,
and the nodes and edges of a project, which are counted.  A path that is null is in no list, as a
node without a path is in no scope.

Main statements: `Cypher.Mirrors.serve_prune`, `Cypher.Mirrors.serve_countNodes`,
`Cypher.Mirrors.serve_countEdges`.
-/

namespace RepoGraph

namespace Cypher

/-! ### Conditions -/

section Conditions

variable {given : Given} {db : Database} {row : Row}

theorem eval_and_iff {c d : Condition} :
    (c.and d).eval given db row = some true ↔
      c.eval given db row = some true ∧ d.eval given db row = some true := by
  rw [Condition.eval]
  rcases c.eval given db row with _ | _ | _ <;> rcases d.eval given db row with _ | _ | _ <;> simp

theorem eval_not_iff {c : Condition} :
    c.not.eval given db row = some true ↔ c.eval given db row = some false := by
  rw [Condition.eval]
  rcases c.eval given db row with _ | _ | _ <;> simp

end Conditions

/-- A text is in a list of texts, or it is known not to be. -/
theorem isAmong_str (s : String) (texts : List String) :
    isAmong (.str s) (.arr (texts.map .str)) = some (texts.contains s) := by
  have hany : (texts.map Json.str).any (fun b => equals (.str s) b == some true) =
      texts.contains s := by
    rw [List.any_map, Bool.eq_iff_iff, List.any_eq_true, List.contains_iff_mem]
    constructor
    · rintro ⟨t, ht, heq⟩
      have hstr : Json.str s = Json.str t := (equals_str _ _).1 (beq_iff_eq.1 heq)
      rw [Json.str.inj hstr]
      exact ht
    · intro hs
      exact ⟨s, hs, beq_iff_eq.2 ((equals_str _ _).2 rfl)⟩
  have hnone : (texts.map Json.str).any (fun b => equals (.str s) b == none) = false := by
    rw [List.any_map, List.any_eq_false]
    intro t _
    show ¬ (some (Json.str s == Json.str t) == none) = true
    simp
  rw [isAmong, hany, hnone]
  cases texts.contains s <;> rfl

/-- A value is in a list of texts if it is one of them. -/
theorem isAmong_strs_iff (a : Json) (texts : List String) :
    isAmong a (.arr (texts.map .str)) = some true ↔ ∃ s ∈ texts, a = .str s := by
  have hany : (texts.map Json.str).any (fun b => equals a b == some true) = true ↔
      ∃ s ∈ texts, a = .str s := by
    rw [List.any_map, List.any_eq_true]
    exact exists_congr fun s => and_congr_right fun _ => beq_iff_eq.trans (equals_str a s)
  rw [isAmong, ← hany]
  split
  · rename_i h
    simp [h]
  · rename_i h
    split <;> simp [h]

namespace Mirrors

variable {number : NodeKey → Nat} {g : Graph} {db : Database}

/-! ### Deleting -/

/-- Deleting the vertices of nodes removes the nodes. -/
theorem delete (h : Mirrors number g db) (hsound : g.IsSound) {keys : List NodeKey}
    (hkeys : ∀ key ∈ keys, g.hasNode key = true) :
    Mirrors number (g.remove keys) (db.delete (keys.map number)) := by
  have hcontains : ∀ key, g.hasNode key = true →
      (keys.map number).contains (number key) = keys.contains key := by
    intro key hkey
    rw [Bool.eq_iff_iff, List.contains_iff_mem, List.contains_iff_mem, List.mem_map]
    constructor
    · rintro ⟨other, hother, heq⟩
      rw [← h.number_inj (hkeys other hother) hkey heq]
      exact hother
    · exact fun hmem => ⟨key, hmem, rfl⟩
  refine ⟨?_, ?_, ?_, ?_, fun v hv => h.old v (List.mem_filter.1 hv).1,
    fun a ha => h.oldArcs a (List.mem_filter.1 ha).1⟩
  · refine rel_filter_of_mem h.vertices fun node hnode v _ hv => ?_
    have hmem : g.hasNode node.1 = true :=
      Graph.hasNode_iff_mem.2 (List.mem_map.2 ⟨node, hnode, rfl⟩)
    rw [hv.number, hcontains _ hmem]
  · refine rel_filter_of_mem h.arcs fun e he a _ ha => ?_
    obtain ⟨hsource, htarget⟩ := hsound.ends e he
    rw [ha.source, ha.target, hcontains _ hsource, hcontains _ htarget]
    rfl
  · exact h.nodup.sublist (List.filter_sublist.map _)
  · exact h.nodupArcs.sublist (List.filter_sublist.map _)

/-! ### Stale vertices -/

/-- A property of a vertex that a row stands for. -/
theorem eval_property (h : Mirrors number g db) {v : Vertex} (hv : v ∈ db.vertices) (given : Given)
    (name : String) :
    (Term.property "e" name).eval given db (Row.start.bind "e" (.vertex v.number)) =
      valueOf v.properties name := by
  rw [Term.eval]
  exact congrArg (valueOf · name) (h.propertiesOf_vertex hv)

/-- A node is in a scope if its path is one of those given. -/
theorem isAmong_paths_iff (attributes : Fields) (paths : List String) :
    isAmong (valueOf attributes "path") (.arr (paths.map .str)) = some true ↔
      Graph.isInScope (some paths) attributes = true := by
  rw [isAmong_strs_iff, Graph.isInScope, valueOf]
  cases attributes.get? "path" with
  | none => simp
  | some value => cases value <;> simp

/-- The condition finds the vertices of the stale nodes. -/
theorem eval_staleCondition (h : Mirrors number g db) (hsound : g.IsSound) (project : String)
    (current : List String) (scope : Option (List String)) (time : Json) {node : NodeKey × Fields}
    (hnode : node ∈ g.nodes) {v : Vertex} (hv : v ∈ db.vertices) (hnv : IsVertexOf number node v) :
    (node.1.project == project && !current.contains node.1.id && Graph.isInScope scope node.2) =
      ((Statement.staleCondition scope.isSome).eval
        ((Statement.prune project current scope).given time) db
        (Row.start.bind "e" (.vertex v.number)) == some true) := by
  generalize hgiven : (Statement.prune project current scope).given time = given
  -- the terms of the condition are read off the vertex and the parameters
  have hproject := (h.eval_property hv given "project").trans (valueOf_project hsound hnode hnv)
  have hid := (h.eval_property hv given "id").trans (valueOf_id hsound hnode hnv)
  have hpath := (h.eval_property hv given "path").trans (valueOf_eq hnv (by decide))
  have hparameter (name : String) : (Term.parameter name).eval given db
      (Row.start.bind "e" (.vertex v.number)) =
        valueOf ((Statement.prune project current scope).given time).parameters name := by
    rw [hgiven]
    rfl
  have hcurrent : valueOf ((Statement.prune project current scope).given time).parameters
      "currentIds" = .arr (current.map .str) := by
    cases scope <;> rfl
  have hprojectId : valueOf ((Statement.prune project current scope).given time).parameters
      "projectId" = .str project := by
    cases scope <;> rfl
  -- the part without the scope
  have hstale : (Condition.and (.equal (.property "e" "project") (.parameter "projectId"))
        (.not (.isIn (.property "e" "id") (.parameter "currentIds")))).eval given db
          (Row.start.bind "e" (.vertex v.number)) = some true ↔
      node.1.project = project ∧ node.1.id ∉ current := by
    rw [eval_and_iff, eval_not_iff, Condition.eval, Condition.eval, hproject, hid, hparameter,
      hparameter, hprojectId, hcurrent, equals_str, isAmong_str, Json.str.injEq, Option.some.injEq,
      List.contains_eq_mem, decide_eq_false_iff_not]
  rw [Bool.eq_iff_iff, beq_iff_eq]
  cases scope with
  | none =>
    rw [show Statement.staleCondition (none : Option (List String)).isSome =
      Condition.and _ _ from rfl,
      hstale]
    simp [Graph.isInScope]
  | some paths =>
    have hpaths : valueOf ((Statement.prune project current (some paths)).given time).parameters
        "paths" = .arr (paths.map .str) := rfl
    have hscope : (Condition.isIn (.property "e" "path") (.parameter "paths")).eval given db
        (Row.start.bind "e" (.vertex v.number)) = some true ↔
          Graph.isInScope (some paths) node.2 = true := by
      rw [Condition.eval, hpath, hparameter, hpaths, isAmong_paths_iff]
    rw [show Statement.staleCondition (some paths).isSome =
      Condition.and _ _ from rfl, eval_and_iff,
      hstale, hscope]
    simp [and_assoc]

/-- The rows of the vertices that a pattern without values fits are those of all vertices. -/
theorem rows_all (h : Mirrors number g db) (given : Given) :
    (Clause.matchVertex ⟨"e", some Statement.entityLabel, []⟩).apply given db [Row.start] =
      (db, db.vertices.map fun v => Row.start.bind "e" (.vertex v.number)) := by
  have hall : VertexPattern.found given db Row.start ⟨"e", some Statement.entityLabel, []⟩ =
      db.vertices := by
    refine List.filter_eq_self.2 fun v hv => ?_
    obtain ⟨node, -, hnv⟩ := exists_mem_of_rel h.vertices hv
    simp [hnv.labels, admits]
  rw [Clause.apply, List.flatMap_singleton, hall]

/-- The statement that prunes deletes the vertices of the stale nodes and answers the stale ids. -/
theorem serve_prune (h : Mirrors number g db) (hsound : g.IsSound) (project : String)
    (current : List String) (scope : Option (List String)) (time : Json) :
    Mirrors number (g.prune project current scope).1
        ((Statement.prune project current scope).serve time db).1 ∧
      ((Statement.prune project current scope).serve time db).2 =
        .ids (g.prune project current scope).2 := by
  -- what is found are the vertices of the stale nodes
  have hfound := rel_filter_of_mem h.vertices fun node hnode v hv hnv =>
    h.eval_staleCondition hsound project current scope time hnode hv hnv
  generalize hgiven : (Statement.prune project current scope).given time = given at hfound
  generalize hstaleVertices : db.vertices.filter (fun v =>
    (Statement.staleCondition scope.isSome).eval given db
      (Row.start.bind "e" (.vertex v.number)) == some true) = found at hfound
  have hmem : ∀ v ∈ found, v ∈ db.vertices := by
    intro v hv
    rw [← hstaleVertices] at hv
    exact (List.mem_filter.1 hv).1
  have hnumbers : found.map Vertex.number = (g.stale project current scope).map number := by
    rw [Graph.stale, List.map_map]
    exact map_eq_of_rel_mem hfound fun _ _ _ _ hv => hv.number
  have hids : found.map (fun v => valueOf (db.propertiesOf (some (.vertex v.number))) "id") =
      ((g.prune project current scope).2).map Json.str := by
    rw [Graph.prune, Graph.stale, List.map_map, List.map_map]
    refine map_eq_of_rel_mem hfound fun node hnode v hv hnv => ?_
    rw [h.propertiesOf_vertex (hmem v hv), valueOf_id hsound (List.mem_filter.1 hnode).1 hnv]
    rfl
  have hrun : (Statement.pruneQuery scope.isSome).run given db =
      (db.delete (found.map Vertex.number), found.map fun v =>
        [("id", valueOf (db.propertiesOf (some (.vertex v.number))) "id")]) := by
    rw [Statement.pruneQuery, Query.run, applyAll, h.rows_all]
    simp only [applyAll, Clause.apply, List.filter_map, Function.comp_def, hstaleVertices]
    rw [Return.records, List.map_map, List.map_map, List.filterMap_map]
    exact congrArg₂ Prod.mk (congrArg (db.delete ·) (congrFun List.filterMap_eq_map found)) rfl
  have hserve : (Statement.prune project current scope).serve time db =
      (db.delete (found.map Vertex.number), .ids (g.prune project current scope).2) := by
    rw [Statement.serve, hgiven]
    show (((Statement.pruneQuery scope.isSome).run given db).1, Reply.ids
      (((Statement.pruneQuery scope.isSome).run given db).2.filterMap _)) = _
    rw [hrun, List.filterMap_map]
    refine congrArg (db.delete (found.map Vertex.number), Reply.ids ·) ?_
    calc found.filterMap _ = (found.map fun v =>
          valueOf (db.propertiesOf (some (.vertex v.number))) "id").filterMap Json.str? := by
            rw [List.filterMap_map]
            rfl
      _ = ((g.prune project current scope).2.map Json.str).filterMap Json.str? := by rw [hids]
      _ = (g.prune project current scope).2 := by
            rw [List.filterMap_map]
            exact List.filterMap_some
  rw [hserve, hnumbers]
  refine ⟨h.delete hsound fun key hkey => ?_, rfl⟩
  obtain ⟨node, hnode, rfl⟩ := List.mem_map.1 hkey
  exact Graph.hasNode_iff_mem.2 (List.mem_map_of_mem (List.mem_filter.1 hnode).1)

/-! ### Counting -/

/-- The pattern of a project fits the vertices of its nodes. -/
theorem found_project (h : Mirrors number g db) (hsound : g.IsSound) {given : Given}
    {project : String}
    (hproject : valueOf given.parameters "projectId" = .str project) (row : Row) (var : String) :
    List.Forall₂ (IsVertexOf number) (g.nodes.filter fun node => node.1.project == project)
      (VertexPattern.found given db row
        ⟨var, some Statement.entityLabel, [("project", .parameter "projectId")]⟩) := by
  refine rel_filter_of_mem h.vertices fun node hnode v _ hv => ?_
  have hparameter : (Term.parameter "projectId").eval given db row = .str project := hproject
  rw [Bool.eq_iff_iff]
  simp only [admits, List.all_cons, List.all_nil, Bool.and_true, Option.all_some, hv.labels,
    hparameter, Bool.and_eq_true, equals_str, valueOf_project hsound hnode hv, Json.str.injEq,
    beq_iff_eq, List.contains_cons, BEq.rfl, Bool.true_or, true_and]

theorem length_nodeIds (g : Graph) (project : String) :
    (g.nodeIds project).length = (g.nodes.filter fun node => node.1.project == project).length := by
  rw [Graph.nodeIds, List.length_map, List.filter_map, List.length_map]
  rfl

/-- The statement that counts nodes answers how many the project has. -/
theorem serve_countNodes (h : Mirrors number g db) (hsound : g.IsSound) (project : String)
    (time : Json) :
    (Statement.countNodes project).serve time db = (db, .count (g.nodeIds project).length) := by
  have hproject : valueOf ((Statement.countNodes project).given time).parameters "projectId" =
      .str project := rfl
  have hlength := (h.found_project hsound hproject Row.start "e").length_eq
  generalize hfound : VertexPattern.found ((Statement.countNodes project).given time) db Row.start
    ⟨"e", some Statement.entityLabel, [("project", .parameter "projectId")]⟩ = found at hlength
  have hrows : (Clause.matchVertex
      ⟨"e", some Statement.entityLabel, [("project", .parameter "projectId")]⟩).apply
        ((Statement.countNodes project).given time) db [Row.start] =
      (db, found.map fun v => Row.start.bind "e" (.vertex v.number)) := by
    rw [Clause.apply, List.flatMap_singleton, hfound]
  have hcount : (found.map fun v => Row.start.bind "e" (.vertex v.number)).countP
      (fun row => (row "e").isSome) = found.length := by
    rw [List.countP_map]
    exact List.countP_eq_length.2 fun _ _ => rfl
  rw [length_nodeIds, hlength, ← hcount, Statement.serve, Statement.query, Query.run, applyAll,
    hrows]
  rfl

/-- A number of vertices that do not share numbers is that of one of them. -/
theorem exists_filter_number {vertices : List Vertex} (hnodup : (vertices.map Vertex.number).Nodup)
    {n : Nat} (hn : n ∈ vertices.map Vertex.number) :
    ∃ v, (vertices.filter fun v => v.number == n) = [v] := by
  rw [← List.length_eq_one_iff, ← List.countP_eq_length_filter,
    ← List.count_eq_one_of_mem hnodup hn, List.count, List.countP_map]
  rfl

/-- The arcs that say a project are those of the edges that begin in it. -/
theorem arcs_project (h : Mirrors number g db) (hsound : g.IsSound) {given : Given}
    {project : String}
    (hproject : valueOf given.parameters "projectId" = .str project) (row : Row) :
    List.Forall₂ (IsArcOf number) (g.edges.filter fun e => e.source.project == project)
      (db.arcs.filter fun a => admits given db row [("project", .parameter "projectId")]
        a.properties) := by
  refine rel_filter_of_mem h.arcs fun e he a _ ha => ?_
  have hparameter : (Term.parameter "projectId").eval given db row = .str project := hproject
  have hsaid : valueOf a.properties "project" = .str e.source.project := by
    have hfact : Fields.facts a.properties "project" =
        (Fields.facts e.attributes).known "project" :=
      congrFun ha.facts "project"
    have hedge : Fields.facts e.attributes "project" = some (.str e.source.project) :=
      (hsound.edges e he).project
    rw [Facts.known, hedge] at hfact
    exact congrArg (Option.getD · Json.null) hfact
  rw [Bool.eq_iff_iff]
  simp only [admits, List.all_cons, List.all_nil, Bool.and_true, hparameter, hsaid, equals_str,
    Json.str.injEq, beq_iff_eq]

/-- Both ends of an arc of the project are vertices, and its source is one of a node of the
project. -/
theorem ends_of_isArcOf (h : Mirrors number g db) (hsound : g.IsSound) {e : Edge} (he : e ∈ g.edges)
    {project : String} (hin : e.source.project = project) {a : Arc} (ha : IsArcOf number e a) :
    a.source ∈ ((g.nodes.filter fun node => node.1.project == project).map fun node =>
        number node.1) ∧
      a.target ∈ db.vertices.map Vertex.number := by
  obtain ⟨hsource, htarget⟩ := hsound.ends e he
  obtain ⟨node, hnode, hkey⟩ := List.mem_map.1 (Graph.hasNode_iff_mem.1 hsource)
  obtain ⟨node', hnode', hkey'⟩ := List.mem_map.1 (Graph.hasNode_iff_mem.1 htarget)
  rw [h.map_number, ha.source, ha.target, ← hkey, ← hkey']
  refine ⟨List.mem_map.2 ⟨node, List.mem_filter.2 ⟨hnode, ?_⟩, rfl⟩,
    List.mem_map.2 ⟨node', hnode', rfl⟩⟩
  rw [hkey, beq_iff_eq]
  exact hin

/-- The row of an arc between two vertices. -/
def arcRow (a : Arc) (v v' : Vertex) : Row :=
  ((Row.start.bind "" (.vertex v.number)).bind "" (.vertex v'.number)).bind "r" (.arc a.number)

/-- The statement that counts edges answers how many the project has. -/
theorem serve_countEdges (h : Mirrors number g db) (hsound : g.IsSound) (project : String)
    (time : Json) :
    (Statement.countEdges project).serve time db = (db, .count (g.triples project).length) := by
  generalize hgiven : (Statement.countEdges project).given time = given
  have hproject : valueOf given.parameters "projectId" = .str project := by
    rw [← hgiven]
    rfl
  have harcs := h.arcs_project hsound hproject Row.start
  generalize hfoundArcs : db.arcs.filter (fun a => admits given db Row.start
    [("project", .parameter "projectId")] a.properties) = arcs at harcs
  have hsources := h.found_project hsound hproject Row.start ""
  generalize hfound : VertexPattern.found given db Row.start
    ⟨"", some Statement.entityLabel, [("project", .parameter "projectId")]⟩ = sources at hsources
  have htargets : VertexPattern.found given db Row.start ⟨"", none, []⟩ = db.vertices :=
    List.filter_eq_self.2 fun _ _ => rfl
  have hnumbers : sources.map Vertex.number =
      (g.nodes.filter fun node => node.1.project == project).map fun node => number node.1 :=
    map_eq_of_rel_mem hsources fun _ _ _ _ hv => hv.number
  have hnodup : (sources.map Vertex.number).Nodup := by
    rw [hnumbers]
    exact h.nodup.sublist (List.filter_sublist.map _)
  -- every arc of the project has one source in the project and one target, so it is in one row
  have hone : ∀ a ∈ arcs, ((sources.filter fun v => v.number == a.source).flatMap fun v =>
      (db.vertices.filter fun v' => v'.number == a.target).map (arcRow a v)).countP
        (fun row => (row "r").isSome) = 1 := by
    intro a ha
    obtain ⟨e, he, hea⟩ := exists_mem_of_rel harcs ha
    obtain ⟨hedge, hin⟩ := List.mem_filter.1 he
    obtain ⟨hsource, htarget⟩ := h.ends_of_isArcOf hsound hedge (eq_of_beq hin) hea
    obtain ⟨v, hv⟩ := exists_filter_number hnodup (hnumbers ▸ hsource)
    obtain ⟨v', hv'⟩ := exists_filter_number h.nodupVertices htarget
    rw [hv, hv']
    rfl
  have hcount : (arcs.flatMap fun a => (sources.filter fun v => v.number == a.source).flatMap
      fun v => (db.vertices.filter fun v' => v'.number == a.target).map (arcRow a v)).countP
        (fun row => (row "r").isSome) = arcs.length := by
    rw [List.countP_flatMap]
    refine (congrArg List.sum (List.map_congr_left (g := fun _ => 1) hone)).trans ?_
    rw [List.map_const', List.sum_replicate_nat, Nat.mul_one]
  have hlength : (g.triples project).length =
      (g.edges.filter fun e => e.source.project == project).length := List.length_map _
  have hrows : (Clause.matchArc
      ⟨"", some Statement.entityLabel, [("project", .parameter "projectId")]⟩
      ⟨"r", [("project", .parameter "projectId")]⟩ ⟨"", none, []⟩).apply given db [Row.start] =
      (db, arcs.flatMap fun a => (sources.filter fun v => v.number == a.source).flatMap
        fun v => (db.vertices.filter fun v' => v'.number == a.target).map (arcRow a v)) := by
    rw [Clause.apply, List.flatMap_singleton, hfoundArcs, hfound, htargets]
    rfl
  rw [hlength, harcs.length_eq, ← hcount, Statement.serve, hgiven, Statement.query, Query.run,
    applyAll, hrows]
  rfl

end Mirrors

end Cypher

end RepoGraph
