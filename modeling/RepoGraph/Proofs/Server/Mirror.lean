import RepoGraph.Proofs.Server.Database
import RepoGraph.Proofs.Stores.Sound

/-!
# A server that stores a graph

`Cypher.Mirrors number g db` says that the server `db` stores the graph `g`: it has a vertex for
each node and an arc for each edge, in their order, that say what node and edge say.  `number` is
the numbering of the vertices.  What is null in the graph is not there on the server, and the label
of an edge is the type of its arc.

This module has what is needed to read such a server: the vertices that a pattern fits are those of
the nodes it means, and what is assigned to a vertex or an arc is what is laid over the attributes
of a node or an edge.

Main statements: `Cypher.Mirrors.map_number_found`, `Cypher.Mirrors.assign_vertex`,
`Cypher.Mirrors.merge_arc`.
-/

namespace RepoGraph

/-! ### What is known -/

/-- What is said, where null counts as nothing. -/
def Facts.known (f : Facts) : Facts := fun name =>
  match f name with
  | some .null => none
  | value => value

namespace Cypher

theorem valueOf_known {fields other : Fields} (h : fields.facts = (other.facts).known)
    {name : String}
    (hname : name ≠ mergedAt) : valueOf fields name = valueOf other name := by
  have hfacts := congrFun h name
  simp only [Fields.facts, Facts.known, hname, if_false] at hfacts
  rw [valueOf, valueOf, hfacts]
  cases other.get? name with
  | none => rfl
  | some value => cases value <;> rfl

theorem equals_str (value : Json) (s : String) :
    equals value (.str s) = some true ↔ value = .str s := by
  cases value with
  | null => simp [equals]
  | str a =>
    show some (a == s) = some true ↔ _
    simp
  | bool b | int b | float b | arr b | obj b =>
    show some false = some true ↔ _
    simp

/-! ### Assigning -/

/-- Gives properties values, one after the other. -/
def assignFields (properties values : Fields) : Fields :=
  values.foldl (fun acc field => assign acc field.1 field.2) properties

theorem get?_filter_ne (properties : Fields) (name other : String) :
    Fields.get? (properties.filter fun field => field.1 != name) other =
      if name = other then none else properties.get? other := by
  induction properties with
  | nil => simp [Fields.get?]
  | cons field rest ih =>
    obtain ⟨n, value⟩ := field
    by_cases hn : n = name
    · subst hn
      by_cases ho : n = other
      · subst ho
        simp [ih]
      · simp [Fields.get?, ho, ih]
    · by_cases ho : n = other
      · subst ho
        have hne : ¬ name = n := fun h => hn h.symm
        simp [Fields.get?, hn, hne]
      · simp [Fields.get?, hn, ho, ih]

theorem get?_assign (properties : Fields) (name : String) (value : Json) (other : String) :
    (assign properties name value).get? other =
      if name = other then (match value with
        | .null => none
        | value => some value)
      else properties.get? other := by
  have hset (v : Json) : (properties.set name v).get? other =
      if name = other then some v else properties.get? other := by
    split
    · rename_i h
      rw [h, Fields.get?_set_self]
    · rename_i h
      exact Fields.get?_set_of_ne _ h _
  cases value <;> first | exact get?_filter_ne properties name other | exact hset _

/-- What properties say after values were assigned: the values, except for null, over what they
said. -/
theorem get?_assignFields {values : Fields} (hvalues : values.names.Nodup) (properties : Fields)
    (name : String) :
    (assignFields properties values).get? name =
      match values.get? name with
      | some .null => none
      | some value => some value
      | none => properties.get? name := by
  induction values generalizing properties with
  | nil => rfl
  | cons field rest ih =>
    obtain ⟨n, value⟩ := field
    have hn : n ∉ Fields.names rest := (List.nodup_cons.1 hvalues).1
    have hstep : assignFields properties ((n, value) :: rest) =
        assignFields (assign properties n value) rest := rfl
    rw [hstep, ih (List.nodup_cons.1 hvalues).2, get?_assign]
    by_cases h : n = name
    · subst h
      rw [Fields.get?_eq_none_iff.2 hn]
      cases value <;> simp [Fields.get?]
    · simp [Fields.get?, h]

/-- Assigning values lays what is said over what was known of a name, if the values are what is said
and nothing else is said that was not known. -/
theorem facts_assignFields {values properties : Fields} {said old : Facts}
    (hvalues : values.names.Nodup) {name : String}
    (hold : Fields.facts properties name = old.known name) (hmerged : said.over old mergedAt = none)
    (hset : ∀ value, name ≠ mergedAt → values.get? name = some value → said name = some value)
    (hkept : name ∉ values.names → said.over old name = old name) :
    Fields.facts (assignFields properties values) name = (said.over old).known name := by
  by_cases hname : name = mergedAt
  · rw [hname]
    simp only [Fields.facts, Facts.known, if_true, hmerged]
  · have hread : Fields.facts (assignFields properties values) name =
        (assignFields properties values).get? name := if_neg hname
    have hproperties : properties.get? name = old.known name := (if_neg hname).symm.trans hold
    rw [hread, get?_assignFields hvalues, hproperties]
    cases hvalue : values.get? name with
    | some value =>
      have hsaid : said.over old name = some value := by
        rw [Facts.over, hset value hname hvalue, Option.some_or]
      simp only [Facts.known, hsaid]
      cases value <;> rfl
    | none => simp only [Facts.known, hkept (Fields.get?_eq_none_iff.1 hvalue)]

namespace Database

/-- Gives what a variable stands for values, one after the other. -/
def assignAll (db : Database) (b : Binding) (values : Fields) : Database :=
  values.foldl (fun db field => db.assign b field.1 field.2) db

theorem assignAll_vertex (db : Database) (n : Nat) (values : Fields) :
    db.assignAll (.vertex n) values =
      { db with vertices := db.vertices.map fun v =>
          if v.number = n then { v with properties := assignFields v.properties values }
            else v } := by
  induction values generalizing db with
  | nil =>
    obtain ⟨vertices, arcs, next⟩ := db
    simp [assignAll, assignFields]
  | cons field rest ih =>
    have hstep : db.assignAll (.vertex n) (field :: rest) =
        (db.assign (.vertex n) field.1 field.2).assignAll (.vertex n) rest := rfl
    rw [hstep, ih]
    simp only [Database.assign, List.map_map]
    congr 2
    funext v
    by_cases hv : v.number = n <;> simp [hv, assignFields]

theorem assignAll_arc (db : Database) (n : Nat) (values : Fields) :
    db.assignAll (.arc n) values =
      { db with arcs := db.arcs.map fun a =>
          if a.number = n then { a with properties := assignFields a.properties values }
            else a } := by
  induction values generalizing db with
  | nil =>
    obtain ⟨vertices, arcs, next⟩ := db
    simp [assignAll, assignFields]
  | cons field rest ih =>
    have hstep : db.assignAll (.arc n) (field :: rest) =
        (db.assign (.arc n) field.1 field.2).assignAll (.arc n) rest := rfl
    rw [hstep, ih]
    simp only [Database.assign, List.map_map]
    congr 2
    funext a
    by_cases ha : a.number = n <;> simp [ha, assignFields]

end Database

/-! ### Servers and graphs -/

/-- What the properties of a vertex say. -/
def Vertex.facts (v : Vertex) : Facts := Fields.facts v.properties

/-- What an arc says: its type, and what its properties say. -/
def Arc.facts (a : Arc) : Facts :=
  fun name => if name = "type" then some (.str a.type) else Fields.facts a.properties name

/-- A vertex says what a node says. -/
structure IsVertexOf (number : NodeKey → Nat) (node : NodeKey × Fields) (v : Vertex) : Prop where
  number : v.number = number node.1
  labels : v.labels = [Statement.entityLabel]
  facts : v.facts = (Fields.facts node.2).known

/-- An arc says what an edge says. -/
structure IsArcOf (number : NodeKey → Nat) (e : Edge) (a : Arc) : Prop where
  source : a.source = number e.source
  target : a.target = number e.target
  type : a.type = e.label
  facts : a.facts = (Fields.facts e.attributes).known

/-- A server stores a graph: its vertices and arcs are the nodes and the edges, in order. -/
structure Mirrors (number : NodeKey → Nat) (g : Graph) (db : Database) : Prop where
  vertices : List.Forall₂ (IsVertexOf number) g.nodes db.vertices
  arcs : List.Forall₂ (IsArcOf number) g.edges db.arcs
  nodup : (g.nodes.map fun node => number node.1).Nodup
  nodupArcs : (db.arcs.map Arc.number).Nodup
  old : ∀ v ∈ db.vertices, v.number < db.next
  oldArcs : ∀ a ∈ db.arcs, a.number < db.next

theorem mirrors_empty (number : NodeKey → Nat) : Mirrors number .empty .empty :=
  ⟨.nil, .nil, List.nodup_nil, List.nodup_nil, fun _ h => (nomatch h), fun _ h => nomatch h⟩

/-! ### Putting where something is, and where nothing is -/

end Cypher

namespace Graph

theorem putAttributes_of_mem {nodes : List (NodeKey × Fields)} {key : NodeKey}
    (hnodup : (nodes.map Prod.fst).Nodup) (hkey : key ∈ nodes.map Prod.fst) (attributes : Fields) :
    putAttributes key attributes nodes =
      nodes.map fun node => if node.1 = key then (node.1, node.2.update attributes) else node := by
  induction nodes with
  | nil => cases hkey
  | cons node rest ih =>
    obtain ⟨k, old⟩ := node
    obtain ⟨hk, hrest⟩ := List.nodup_cons.1 hnodup
    rw [putAttributes]
    split
    · rename_i h
      subst h
      -- the key does not occur again
      have hsame : rest.map (fun node : NodeKey × Fields =>
          if node.1 = k then (node.1, node.2.update attributes) else node) = rest := by
        refine (List.map_congr_left fun node hnode => if_neg fun heq => hk ?_).trans (List.map_id _)
        exact List.mem_map.2 ⟨node, hnode, heq⟩
      simp [hsame]
    · rename_i h
      have hmem : key ∈ rest.map Prod.fst :=
        (List.mem_cons.1 hkey).resolve_left fun heq => h heq.symm
      simp [h, ih hrest hmem]

theorem putAttributes_of_not_mem {nodes : List (NodeKey × Fields)} {key : NodeKey}
    (hkey : key ∉ nodes.map Prod.fst) (attributes : Fields) :
    putAttributes key attributes nodes = nodes ++ [(key, attributes)] := by
  induction nodes with
  | nil => rfl
  | cons node rest ih =>
    obtain ⟨k, old⟩ := node
    rw [List.map_cons, List.mem_cons, not_or] at hkey
    have hne : ¬ k = key := fun h => hkey.1 h.symm
    rw [putAttributes, if_neg hne, ih hkey.2]
    rfl

theorem putEdgeAttributes_of_mem {edges : List Edge} {edge : Edge}
    (hnodup : (edges.map Edge.key).Nodup) (hkey : edge.key ∈ edges.map Edge.key) :
    putEdgeAttributes edge edges =
      edges.map fun e => if e.isAt edge.source edge.target edge.label then
        { e with attributes := e.attributes.update edge.attributes } else e := by
  induction edges with
  | nil => cases hkey
  | cons e rest ih =>
    obtain ⟨he, hrest⟩ := List.nodup_cons.1 hnodup
    rw [putEdgeAttributes]
    split
    · rename_i hat
      have hsame : rest.map (fun e' : Edge =>
          if e'.isAt edge.source edge.target edge.label then
            { e' with attributes := e'.attributes.update edge.attributes } else e') = rest := by
        refine (List.map_congr_left fun e' he' => if_neg fun hat' => he ?_).trans (List.map_id _)
        have hkeys : e'.key = e.key := (Edge.isAt_iff.1 hat').trans (Edge.isAt_iff.1 hat).symm
        exact hkeys ▸ List.mem_map_of_mem he'
      simp [hat, hsame]
    · rename_i hat
      have hmem : edge.key ∈ rest.map Edge.key := by
        refine (List.mem_cons.1 hkey).resolve_left fun heq => hat ?_
        exact Edge.isAt_iff.2 heq.symm
      simp [hat, ih hrest hmem]

theorem putEdgeAttributes_of_not_mem {edges : List Edge} {edge : Edge}
    (hkey : edge.key ∉ edges.map Edge.key) : putEdgeAttributes edge edges = edges ++ [edge] := by
  induction edges with
  | nil => rfl
  | cons e rest ih =>
    rw [List.map_cons, List.mem_cons, not_or] at hkey
    have hat : ¬ e.isAt edge.source edge.target edge.label = true :=
      fun h => hkey.1 (Edge.isAt_iff.1 h).symm
    rw [putEdgeAttributes, if_neg hat, ih hkey.2]
    rfl

theorem hasNode_iff_mem {g : Graph} {key : NodeKey} :
    g.hasNode key = true ↔ key ∈ g.nodes.map Prod.fst := by
  rw [hasNode, Option.isSome_iff_exists, List.mem_map]
  constructor
  · rintro ⟨attributes, hattributes⟩
    exact ⟨(key, attributes), attributes?_eq_some_iff.1 hattributes, rfl⟩
  · rintro ⟨⟨k, attributes⟩, hmem, rfl⟩
    exact ⟨attributes, attributes?_eq_some_iff.2 hmem⟩

end Graph

namespace Cypher

namespace Mirrors

variable {number : NodeKey → Nat} {g : Graph} {db : Database}

/-! ### Numbers -/

theorem map_number (h : Mirrors number g db) :
    db.vertices.map Vertex.number = g.nodes.map fun node => number node.1 :=
  map_eq_of_rel_mem h.vertices fun _ _ _ _ hv => hv.number

theorem nodupVertices (h : Mirrors number g db) : (db.vertices.map Vertex.number).Nodup := by
  rw [h.map_number]
  exact h.nodup

/-- Two nodes do not share a number. -/
theorem number_inj (h : Mirrors number g db) {key key' : NodeKey} (hkey : g.hasNode key = true)
    (hkey' : g.hasNode key' = true) (heq : number key = number key') : key = key' := by
  obtain ⟨node, hnode, rfl⟩ := List.mem_map.1 (Graph.hasNode_iff_mem.1 hkey)
  obtain ⟨node', hnode', rfl⟩ := List.mem_map.1 (Graph.hasNode_iff_mem.1 hkey')
  rw [List.inj_on_of_nodup_map h.nodup hnode hnode' heq]

/-- A number leads to its vertex. -/
theorem find?_vertex (h : Mirrors number g db) {v : Vertex} (hv : v ∈ db.vertices) :
    db.vertices.find? (fun v' => v'.number == v.number) = some v := by
  rw [List.find?_eq_some_iff_getElem]
  obtain ⟨i, hi, hget⟩ := List.getElem_of_mem hv
  refine ⟨by simp, i, hi, hget, fun j hj => ?_⟩
  have hne : (db.vertices.map Vertex.number).get ⟨j, by simpa using hj.trans hi⟩ ≠
      (db.vertices.map Vertex.number).get ⟨i, by simpa using hi⟩ := by
    intro heq
    have hji := Fin.mk.inj (h.nodupVertices.get_inj_iff.1 heq)
    omega
  simpa [hget] using hne

/-- The properties of what a number stands for. -/
theorem propertiesOf_vertex (h : Mirrors number g db) {v : Vertex} (hv : v ∈ db.vertices) :
    db.propertiesOf (some (.vertex v.number)) = v.properties := by
  simp [Database.propertiesOf, h.find?_vertex hv]

/-! ### Patterns -/

/-- What a described node says by name, its vertex says too. -/
theorem valueOf_eq {node : NodeKey × Fields} {v : Vertex} (hv : IsVertexOf number node v)
    {name : String} (hname : name ≠ mergedAt) : valueOf v.properties name = valueOf node.2 name :=
  valueOf_known hv.facts hname

theorem valueOf_project (hsound : g.IsSound) {node : NodeKey × Fields} (hnode : node ∈ g.nodes)
    {v : Vertex} (hv : IsVertexOf number node v) :
    valueOf v.properties "project" = .str node.1.project := by
  rw [valueOf_eq hv (by decide), valueOf, (hsound.nodes node hnode).project]
  rfl

theorem valueOf_id (hsound : g.IsSound) {node : NodeKey × Fields} (hnode : node ∈ g.nodes)
    {v : Vertex} (hv : IsVertexOf number node v) :
    valueOf v.properties "id" = .str node.1.id := by
  rw [valueOf_eq hv (by decide), valueOf, (hsound.nodes node hnode).id]
  rfl

variable {given : Given} {row : Row} {project : String}

/-- The pattern of an id fits the vertex of the node with the id in the project, if there is one. -/
theorem map_number_found (h : Mirrors number g db) (hsound : g.IsSound)
    (hproject : valueOf given.parameters "projectId" = .str project) {t : Term} {id : String}
    (hid : t.eval given db row = .str id) (var : String) :
    ((Statement.entityPattern var t).found given db row).map Vertex.number =
      if g.hasNode ⟨project, id⟩ = true then [number ⟨project, id⟩] else [] := by
  have hfound : List.Forall₂ (IsVertexOf number)
      (g.nodes.filter fun node => node.1 == ⟨project, id⟩)
      ((Statement.entityPattern var t).found given db row) := by
    refine rel_filter_of_mem h.vertices fun node hnode v _ hv => ?_
    have hparameter : (Term.parameter "projectId").eval given db row = .str project := hproject
    rw [Bool.eq_iff_iff]
    simp only [Statement.entityPattern, admits, List.all_cons, List.all_nil, Bool.and_true,
      Option.all_some, hv.labels, hid, hparameter, Bool.and_eq_true, equals_str,
      valueOf_id hsound hnode hv, valueOf_project hsound hnode hv, Json.str.injEq, beq_iff_eq,
      List.contains_cons, BEq.rfl, Bool.true_or, true_and]
    constructor
    · intro heq
      rw [heq]
      exact ⟨rfl, rfl⟩
    · rintro ⟨hi, hp⟩
      exact congrArg₂ NodeKey.mk hp hi
  rw [map_eq_of_rel_mem hfound (f := fun node => number node.1) fun _ _ _ _ hv => hv.number]
  have hkeys : (g.nodes.filter fun node => node.1 == ⟨project, id⟩).map
      (fun node => number node.1) =
      ((g.nodes.map Prod.fst).filter (· == ⟨project, id⟩)).map number := by
    rw [List.filter_map, List.map_map]
    rfl
  -- keys do not repeat, so it is one vertex or none
  rw [hkeys, List.filter_beq]
  split
  · rename_i hnode
    rw [List.count_eq_one_of_mem g.nodup_nodes (Graph.hasNode_iff_mem.1 hnode)]
    rfl
  · rename_i hnode
    rw [List.count_eq_zero_of_not_mem fun hmem => hnode (Graph.hasNode_iff_mem.2 hmem)]
    rfl

/-- Whether an edge is between two nodes can be told of its arc. -/
theorem isAt_eq (h : Mirrors number g db) (hsound : g.IsSound) {source target : NodeKey}
    (hsource : g.hasNode source = true) (htarget : g.hasNode target = true) (label : String)
    {e : Edge} (he : e ∈ g.edges) {a : Arc} (ha : IsArcOf number e a) :
    e.isAt source target label =
      (a.type == label && a.source == number source && a.target == number target) := by
  obtain ⟨hesource, hetarget⟩ := hsound.ends e he
  have hs : number e.source = number source ↔ e.source = source :=
    ⟨h.number_inj hesource hsource, congrArg number⟩
  have ht : number e.target = number target ↔ e.target = target :=
    ⟨h.number_inj hetarget htarget, congrArg number⟩
  rw [Bool.eq_iff_iff, Edge.isAt]
  simp only [ha.type, ha.source, ha.target, Bool.and_eq_true, beq_iff_eq, hs, ht]
  tauto

/-- The arcs of a type between the vertices of two nodes are those of the edges between them. -/
theorem arcs_between (h : Mirrors number g db) (hsound : g.IsSound) {source target : NodeKey}
    (hsource : g.hasNode source = true) (htarget : g.hasNode target = true) (label : String) :
    List.Forall₂ (IsArcOf number) (g.edges.filter fun e => e.isAt source target label)
      (db.arcs.filter fun a =>
        a.type == label && a.source == number source && a.target == number target) :=
  rel_filter_of_mem h.arcs fun _ he _ _ ha => h.isAt_eq hsound hsource htarget label he ha

/-! ### Assigning and creating -/

/-- Assigning values to the vertex of a node lays attributes over those of the node, if the values
say what the attributes say. -/
theorem assign_vertex (h : Mirrors number g db) {key : NodeKey} (hkey : g.hasNode key = true)
    {attributes values : Fields}
    (hvalues : ∀ old properties, (key, old) ∈ g.nodes →
      Fields.facts properties = (Fields.facts old).known →
        Fields.facts (assignFields properties values) =
          (Fields.facts (old.update attributes)).known) :
    Mirrors number (g.putNode key attributes) (db.assignAll (.vertex (number key)) values) := by
  have hnodes : (g.putNode key attributes).nodes = g.nodes.map fun node =>
      if node.1 = key then (node.1, node.2.update attributes) else node :=
    Graph.putAttributes_of_mem g.nodup_nodes (Graph.hasNode_iff_mem.1 hkey) attributes
  have hkeys : (g.putNode key attributes).nodes.map (fun node => number node.1) =
      g.nodes.map fun node => number node.1 := by
    rw [hnodes, List.map_map]
    refine List.map_congr_left fun node _ => ?_
    simp only [Function.comp_apply]
    split <;> rfl
  rw [Database.assignAll_vertex]
  refine ⟨?_, h.arcs, ?_, h.nodupArcs, fun v hv => ?_, h.oldArcs⟩
  · rw [hnodes, List.forall₂_map_left_iff, List.forall₂_map_right_iff]
    refine (rel_mem h.vertices).imp ?_
    rintro node v ⟨hv, hnode, -⟩
    have hmem : g.hasNode node.1 = true :=
      Graph.hasNode_iff_mem.2 (List.mem_map.2 ⟨node, hnode, rfl⟩)
    -- the number belongs to this node only
    by_cases hat : node.1 = key
    · have hnumber : v.number = number key := by rw [hv.number, hat]
      rw [if_pos hat, if_pos hnumber]
      refine ⟨hv.number, hv.labels, hvalues node.2 v.properties ?_ hv.facts⟩
      rw [← hat]
      exact hnode
    · have hnumber : ¬ v.number = number key := by
        rw [hv.number]
        exact fun heq => hat (h.number_inj hmem hkey heq)
      rw [if_neg hat, if_neg hnumber]
      exact hv
  · rw [hkeys]
    exact h.nodup
  · obtain ⟨v', hv', rfl⟩ := List.mem_map.1 hv
    have hold : v'.number < db.next := h.old v' hv'
    dsimp only
    split <;> exact hold

/-- A new vertex is that of a new node, under the next number. -/
theorem create_vertex (h : Mirrors number g db) (hsound : g.IsSound) {key : NodeKey}
    (hkey : g.hasNode key = false) {attributes properties : Fields}
    (hfacts : Fields.facts properties = (Fields.facts attributes).known) :
    Mirrors (Function.update number key db.next) (g.putNode key attributes)
      { db with
        vertices := db.vertices ++ [⟨db.next, [Statement.entityLabel], properties⟩]
        next := db.next + 1 } := by
  have hmem : key ∉ g.nodes.map Prod.fst := by
    intro hmem
    rw [Graph.hasNode_iff_mem.2 hmem] at hkey
    cases hkey
  have hnodes : (g.putNode key attributes).nodes = g.nodes ++ [(key, attributes)] :=
    Graph.putAttributes_of_not_mem hmem attributes
  -- nodes that were there keep their numbers
  have hkept : ∀ other, g.hasNode other = true →
      Function.update number key db.next other = number other := by
    intro other hother
    refine Function.update_of_ne ?_ _ _
    rintro rfl
    exact hmem (Graph.hasNode_iff_mem.1 hother)
  have hkeptNode : ∀ node ∈ g.nodes, Function.update number key db.next node.1 = number node.1 :=
    fun node hnode => hkept _ (Graph.hasNode_iff_mem.2 (List.mem_map.2 ⟨node, hnode, rfl⟩))
  refine ⟨?_, ?_, ?_, h.nodupArcs, fun v hv => ?_, fun a ha => ?_⟩
  · rw [hnodes]
    refine List.rel_append ?_ (.cons ⟨?_, rfl, hfacts⟩ .nil)
    · refine (rel_mem h.vertices).imp ?_
      rintro node v ⟨hv, hnode, -⟩
      exact ⟨hv.number.trans (hkeptNode node hnode).symm, hv.labels, hv.facts⟩
    · exact (Function.update_self key db.next number).symm
  · refine (rel_mem h.arcs).imp ?_
    rintro e a ⟨ha, he, -⟩
    obtain ⟨hsource, htarget⟩ := hsound.ends e he
    exact ⟨ha.source.trans (hkept _ hsource).symm, ha.target.trans (hkept _ htarget).symm, ha.type,
      ha.facts⟩
  · rw [hnodes, List.map_append, List.map_congr_left hkeptNode]
    refine Graph.nodup_snoc h.nodup ?_
    -- the next number is greater than all that were given
    show Function.update number key db.next key ∉ _
    rw [Function.update_self, ← h.map_number]
    intro hmem
    obtain ⟨v, hv, hnumber⟩ := List.mem_map.1 hmem
    have hlt := h.old v hv
    omega
  · rcases List.mem_append.1 hv with hv | hv
    · have hlt := h.old v hv
      show v.number < db.next + 1
      omega
    · rw [List.mem_singleton.1 hv]
      exact Nat.lt_succ_self db.next
  · have hlt := h.oldArcs a ha
    show a.number < db.next + 1
    omega

/-- Values that are assigned to a new vertex are laid over its properties, and no other vertex has
them. -/
theorem assignAll_createdVertex (h : Mirrors number g db) (labels : List String)
    (properties values : Fields) :
    Database.assignAll { db with
        vertices := db.vertices ++ [⟨db.next, labels, properties⟩]
        next := db.next + 1 } (.vertex db.next) values =
      { db with
        vertices := db.vertices ++ [⟨db.next, labels, assignFields properties values⟩]
        next := db.next + 1 } := by
  rw [Database.assignAll_vertex, List.map_append, List.map_singleton, if_pos rfl]
  have hothers : db.vertices.map (fun v => if v.number = db.next then
      { v with properties := assignFields v.properties values } else v) = db.vertices :=
    (List.map_congr_left fun v hv => if_neg (h.old v hv).ne).trans (List.map_id _)
  rw [hothers]

/-- Between two nodes a label has one edge or none. -/
theorem edges_between (g : Graph) (source target : NodeKey) (label : String) :
    (g.edges.filter fun e => e.isAt source target label) = [] ∨
      ∃ e, (g.edges.filter fun e => e.isAt source target label) = [e] := by
  have hkeys : (g.edges.filter fun e => e.isAt source target label).map Edge.key =
      (g.edges.map Edge.key).filter (· == (source, target, label)) := by
    rw [List.filter_map]
    congr 1
    refine List.filter_congr fun e _ => ?_
    rw [Bool.eq_iff_iff, Edge.isAt_iff, Function.comp_apply, beq_iff_eq]
  have hlength : (g.edges.filter fun e => e.isAt source target label).length ≤ 1 := by
    rw [← List.length_map Edge.key, hkeys, List.filter_beq, List.length_replicate]
    exact List.nodup_iff_count_le_one.1 g.nodup_edges _
  generalize (g.edges.filter fun e => e.isAt source target label) = found at hlength
  match found, hlength with
  | [], _ => exact .inl rfl
  | [e], _ => exact .inr ⟨e, rfl⟩

/-- A new arc is that of a new edge, under the next number. -/
theorem create_arc (h : Mirrors number g db) {edge : Edge} (hsource : g.hasNode edge.source = true)
    (htarget : g.hasNode edge.target = true) (hnew : edge.key ∉ g.edges.map Edge.key)
    {properties : Fields}
    (hfacts : Arc.facts ⟨db.next, edge.label, number edge.source, number edge.target, properties⟩ =
      (Fields.facts edge.attributes).known) :
    Mirrors number (g.putEdge edge)
      { db with
        arcs := db.arcs ++
          [⟨db.next, edge.label, number edge.source, number edge.target, properties⟩]
        next := db.next + 1 } := by
  have hnodes : (g.putEdge edge).nodes = g.nodes := Graph.nodes_putEdge g edge hsource htarget
  have hedges : (g.putEdge edge).edges = g.edges ++ [edge] :=
    (Graph.edges_putEdge g edge hsource htarget).trans (Graph.putEdgeAttributes_of_not_mem hnew)
  refine ⟨?_, ?_, ?_, ?_, fun v hv => ?_, fun a ha => ?_⟩
  · rw [hnodes]
    exact h.vertices
  · rw [hedges]
    exact List.rel_append h.arcs (.cons ⟨rfl, rfl, rfl, hfacts⟩ .nil)
  · rw [hnodes]
    exact h.nodup
  · rw [List.map_append]
    refine Graph.nodup_snoc h.nodupArcs ?_
    intro hnumber
    obtain ⟨a, ha, heq⟩ := List.mem_map.1 hnumber
    exact (h.oldArcs a ha).ne heq
  · exact (h.old v hv).trans (Nat.lt_succ_self _)
  · rcases List.mem_append.1 ha with ha | ha
    · exact (h.oldArcs a ha).trans (Nat.lt_succ_self _)
    · rw [List.mem_singleton.1 ha]
      exact Nat.lt_succ_self db.next

/-- Assigning values to the arc of an edge lays attributes over those of the edge, if the values say
what the attributes say. -/
theorem assign_arc (h : Mirrors number g db) (hsound : g.IsSound) {edge : Edge}
    (hsource : g.hasNode edge.source = true) (htarget : g.hasNode edge.target = true)
    (hold : edge.key ∈ g.edges.map Edge.key) {a₀ : Arc}
    (hfound : (db.arcs.filter fun a => a.type == edge.label && a.source == number edge.source &&
      a.target == number edge.target) = [a₀]) {values : Fields}
    (hvalues : ∀ e a, e.label = edge.label → IsArcOf number e a →
      Arc.facts { a with properties := assignFields a.properties values } =
        (Fields.facts (e.attributes.update edge.attributes)).known) :
    Mirrors number (g.putEdge edge) (db.assignAll (.arc a₀.number) values) := by
  have hnodes : (g.putEdge edge).nodes = g.nodes := Graph.nodes_putEdge g edge hsource htarget
  have hedges := (Graph.edges_putEdge g edge hsource htarget).trans
    (Graph.putEdgeAttributes_of_mem g.nodup_edges hold)
  -- the number belongs to the arc of the edge only
  have hnumbers : ∀ e a, IsArcOf number e a → e ∈ g.edges → a ∈ db.arcs →
      (a.number = a₀.number ↔ e.isAt edge.source edge.target edge.label = true) := by
    intro e a hea he ha
    have hmem₀ := List.mem_filter.1 (hfound ▸ List.mem_singleton_self a₀)
    rw [h.isAt_eq hsound hsource htarget edge.label he hea]
    constructor
    · intro hnumber
      rw [List.inj_on_of_nodup_map h.nodupArcs ha hmem₀.1 hnumber]
      exact hmem₀.2
    · intro hat
      have hmem' : a ∈ [a₀] := hfound ▸ List.mem_filter.2 ⟨ha, hat⟩
      rw [List.mem_singleton.1 hmem']
  rw [Database.assignAll_arc]
  refine ⟨?_, ?_, ?_, ?_, h.old, fun a ha => ?_⟩
  · rw [hnodes]
    exact h.vertices
  · rw [hedges, List.forall₂_map_left_iff, List.forall₂_map_right_iff]
    refine (rel_mem h.arcs).imp ?_
    rintro e a ⟨hea, he, ha⟩
    have hiff := hnumbers e a hea he ha
    by_cases hat : e.isAt edge.source edge.target edge.label = true
    · rw [if_pos hat, if_pos (hiff.2 hat)]
      have hlabel : e.label = edge.label := by
        have hkey := Edge.isAt_iff.1 hat
        simp only [Edge.key, Prod.mk.injEq] at hkey
        exact hkey.2.2
      exact ⟨hea.source, hea.target, hea.type, hvalues e a hlabel hea⟩
    · rw [if_neg hat, if_neg fun hnumber => hat (hiff.1 hnumber)]
      exact hea
  · rw [hnodes]
    exact h.nodup
  · rw [List.map_map]
    refine (List.map_congr_left fun a _ => ?_) ▸ h.nodupArcs
    simp only [Function.comp_apply]
    split <;> rfl
  · obtain ⟨a', ha', rfl⟩ := List.mem_map.1 ha
    have hold' : a'.number < db.next := h.oldArcs a' ha'
    dsimp only
    split <;> exact hold'

/-- Values that are assigned to a new arc are its only properties. -/
theorem assignAll_createdArc (h : Mirrors number g db) (type : String) (source target : Nat)
    (values : Fields) :
    Database.assignAll { db with
        arcs := db.arcs ++ [⟨db.next, type, source, target, []⟩]
        next := db.next + 1 } (.arc db.next) values =
      { db with
        arcs := db.arcs ++ [⟨db.next, type, source, target, assignFields [] values⟩]
        next := db.next + 1 } := by
  rw [Database.assignAll_arc, List.map_append, List.map_singleton, if_pos rfl]
  -- the arcs of before have other numbers
  have hothers : db.arcs.map (fun a => if a.number = db.next then
      { a with properties := assignFields a.properties values } else a) = db.arcs :=
    (List.map_congr_left fun a ha => if_neg (h.oldArcs a ha).ne).trans (List.map_id _)
  rw [hothers]

/-- Merging an arc between the vertices of two nodes and assigning values to it puts the edge, if
the values say what the edge's attributes say. -/
theorem merge_arc (h : Mirrors number g db) (hsound : g.IsSound) (edge : Edge)
    (hsource : g.hasNode edge.source = true) (htarget : g.hasNode edge.target = true)
    (hnames : edge.attributes.names.Nodup) (values : Fields)
    (hvalues : ∀ (a : Arc) (old : Facts), a.type = edge.label → old mergedAt = none →
      (∀ name, name ≠ "type" → Fields.facts a.properties name = old.known name) →
        Arc.facts { a with properties := assignFields a.properties values } =
          ((Fields.facts edge.attributes).over old).known) :
    ∃ n, (db.mergeArc edge.label (number edge.source) (number edge.target)).2 = [n] ∧
      Mirrors number (g.putEdge edge)
        ((db.mergeArc edge.label (number edge.source) (number edge.target)).1.assignAll (.arc n)
          values) := by
  have hbetween := h.arcs_between hsound hsource htarget edge.label
  have hmem : edge.key ∈ g.edges.map Edge.key ↔
      (g.edges.filter fun e => e.isAt edge.source edge.target edge.label) ≠ [] := by
    rw [List.mem_map, ne_eq, List.filter_eq_nil_iff]
    simp only [Edge.isAt_iff, not_forall, not_not, exists_prop]
    rfl
  rw [Database.mergeArc]
  rcases edges_between g edge.source edge.target edge.label with hnone | ⟨e₀, hone⟩
  · -- there is no such edge, so there is no such arc, and a new one is the last
    rw [hnone, List.forall₂_nil_left_iff] at hbetween
    rw [hbetween]
    refine ⟨db.next, rfl, ?_⟩
    show Mirrors number (g.putEdge edge) (Database.assignAll _ (.arc db.next) values)
    rw [h.assignAll_createdArc]
    refine h.create_arc hsource htarget (fun hkey => hmem.1 hkey hnone) ?_
    have hsaid := hvalues ⟨db.next, edge.label, number edge.source, number edge.target, []⟩
      (fun _ => none) rfl rfl fun name _ => congrFun Fields.facts_nil name
    rwa [Facts.over_none] at hsaid
  · -- there is one such edge, so there is one such arc, and it keeps its place
    rw [hone] at hbetween
    obtain ⟨a₀, rest, -, hnil, hfound⟩ := List.forall₂_cons_left_iff.1 hbetween
    rw [List.forall₂_nil_left_iff] at hnil
    rw [hnil] at hfound
    rw [hfound]
    refine ⟨a₀.number, rfl, ?_⟩
    have hold : edge.key ∈ g.edges.map Edge.key :=
      hmem.2 (by rw [hone]; exact List.cons_ne_nil _ _)
    refine h.assign_arc hsound hsource htarget hold hfound fun e a hlabel hea => ?_
    rw [Fields.facts_update hnames]
    refine hvalues a (Fields.facts e.attributes) (hea.type.trans hlabel) (if_pos rfl)
      fun name hname => ?_
    rw [← hea.facts, Arc.facts, if_neg hname]

end Mirrors

end Cypher

end RepoGraph
