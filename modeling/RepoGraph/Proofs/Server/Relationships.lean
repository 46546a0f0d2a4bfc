import RepoGraph.Proofs.Server.Entities
import RepoGraph.Proofs.Stores.Outcome

/-!
# Merging the edges of relationships on a server

A statement that merges edges finds both ends of each row first, and leaves the rows out that lack
one.  Merging arcs adds no vertex, so what is found does not change on the way, and the rows may be
taken one at a time.  A row that is left is what merging its relationship does to the graph, and the
rows that are left are counted.

Main statement: `Cypher.Mirrors.serve_mergeEdges`.
-/

namespace RepoGraph

namespace Cypher

/-! ### Merging arcs -/

/-- Whether between two vertices a type has at most one arc. -/
def Database.IsSimple (db : Database) : Prop :=
  (db.arcs.map fun a => (a.type, a.source, a.target)).Nodup

theorem Mirrors.isSimple {number : NodeKey → Nat} {g : Graph} {db : Database}
    (h : Mirrors number g db) (hsound : g.IsSound) : db.IsSimple := by
  have hmap : (db.arcs.map fun a => (a.type, a.source, a.target)) =
      g.edges.map fun e => (e.label, number e.source, number e.target) :=
    map_eq_of_rel_mem h.arcs fun e _ a _ ha => by rw [ha.type, ha.source, ha.target]
  rw [Database.IsSimple, hmap]
  refine List.Nodup.map_on (fun e he e' he' heq => ?_) (List.Nodup.of_map _ g.nodup_edges)
  simp only [Prod.mk.injEq] at heq
  have hsource := h.number_inj (hsound.ends e he).1 (hsound.ends e' he').1 heq.2.1
  have htarget := h.number_inj (hsound.ends e he).2 (hsound.ends e' he').2 heq.2.2
  have hkey : e.key = e'.key := by rw [Edge.key, Edge.key, hsource, htarget, heq.1]
  exact List.inj_on_of_nodup_map g.nodup_edges he he' hkey

theorem next_le_mergeArc {db : Database} {type : String} {n m : Nat} :
    db.next ≤ (db.mergeArc type n m).1.next := by
  rw [Database.mergeArc]
  split
  · exact Nat.le_succ _
  · exact le_rfl

/-- Merging an arc uses numbers up to the next one. -/
theorem mergeArc_isNumbered {db : Database} (h : db.IsNumbered) (type : String) (n m : Nat) :
    (db.mergeArc type n m).1.IsNumbered ∧
      ∀ k ∈ (db.mergeArc type n m).2, k < (db.mergeArc type n m).1.next := by
  rw [Database.mergeArc]
  split
  · refine ⟨⟨fun v hv => ?_, fun a ha => ?_⟩, fun k hk => ?_⟩
    · exact (h.vertices v hv).trans (Nat.lt_succ_self _)
    · rcases List.mem_append.1 ha with ha | ha
      · exact (h.arcs a ha).trans (Nat.lt_succ_self _)
      · rw [List.mem_singleton.1 ha]
        exact Nat.lt_succ_self db.next
    · rw [List.mem_singleton.1 hk]
      exact Nat.lt_succ_self db.next
  · refine ⟨h, fun k hk => ?_⟩
    obtain ⟨a, ha, rfl⟩ := List.mem_map.1 hk
    exact h.arcs a (List.mem_filter.1 ha).1

/-- Merging an arc answers one arc, and keeps arcs apart. -/
theorem mergeArc_isSimple {db : Database} (h : db.IsSimple) (type : String) (n m : Nat) :
    (db.mergeArc type n m).1.IsSimple ∧ (db.mergeArc type n m).2.length = 1 := by
  -- arcs are told apart by type and ends, so at most one is found
  have hlength : (db.arcs.filter fun a => a.type == type && a.source == n && a.target == m).length ≤
      1 := by
    have hmap : (db.arcs.filter fun a => a.type == type && a.source == n && a.target == m).map
        (fun a => (a.type, a.source, a.target)) =
        (db.arcs.map fun a => (a.type, a.source, a.target)).filter (· == (type, n, m)) := by
      rw [List.filter_map]
      congr 1
      refine List.filter_congr fun a _ => ?_
      rw [Bool.eq_iff_iff]
      simp [and_assoc]
    rw [← List.length_map fun a : Arc => (a.type, a.source, a.target), hmap, List.filter_beq,
      List.length_replicate]
    exact List.nodup_iff_count_le_one.1 h _
  rw [Database.mergeArc]
  split
  · rename_i hfound
    refine ⟨?_, rfl⟩
    rw [Database.IsSimple, List.map_append]
    refine Graph.nodup_snoc h fun hmem => ?_
    obtain ⟨a, ha, heq⟩ := List.mem_map.1 hmem
    simp only [Prod.mk.injEq] at heq
    have hnot := List.filter_eq_nil_iff.1 hfound a ha
    simp [heq.1, heq.2.1, heq.2.2] at hnot
  · rename_i hfound
    refine ⟨h, ?_⟩
    rw [List.length_map]
    have hpos := List.length_pos_iff.2 hfound
    omega

/-- An arc is merged in the same way before and after values were assigned to another one. -/
theorem mergeArc_assignAll {db : Database} (values : Fields) {k : Nat} (hk : k < db.next)
    (type : String) (n m : Nat) :
    (db.assignAll (.arc k) values).mergeArc type n m =
      ((db.mergeArc type n m).1.assignAll (.arc k) values, (db.mergeArc type n m).2) := by
  have hfound : ((db.assignAll (.arc k) values).arcs.filter fun a =>
        a.type == type && a.source == n && a.target == m) =
      (db.arcs.filter fun a => a.type == type && a.source == n && a.target == m).map fun a =>
        if a.number = k then { a with properties := assignFields a.properties values } else a := by
    rw [Database.assignAll_arc, List.filter_map]
    congr 1
    refine List.filter_congr fun a _ => ?_
    simp only [Function.comp_apply]
    split <;> rfl
  rw [Database.mergeArc, Database.mergeArc, hfound]
  cases db.arcs.filter fun a => a.type == type && a.source == n && a.target == m with
  | nil =>
    simp only [List.map_nil, Database.assignAll_arc, List.map_append, List.map_singleton,
      if_neg hk.ne']
  | cons a rest =>
    simp only [List.map_cons, List.map_map]
    refine Prod.ext rfl ?_
    refine List.cons_eq_cons.2 ⟨?_, List.map_congr_left fun a' _ => ?_⟩
    · split <;> rfl
    · simp only [Function.comp_apply]
      split <;> rfl

/-! ### What is assigned -/

/-- The fields of the row of a relationship. -/
def relationshipFields (r : Relationship) : Fields :=
  [("sourceId", .str r.source), ("targetId", .str r.target), ("properties", .str r.propertiesText)]

/-- The values that are assigned to the arc of a relationship. -/
def relationshipValues (given : Given) (r : Relationship) : Fields :=
  itemValues given (relationshipFields r) Statement.relationshipItems

/-- The names of the values of a relationship's items. -/
def relationshipItemNames : List String := ["properties", "project", mergedAt]

theorem names_relationshipItems (given : Given) (fields : Fields) :
    Fields.names (itemValues given fields Statement.relationshipItems) = relationshipItemNames :=
  rfl

theorem nodup_relationshipItems (given : Given) (fields : Fields) :
    (Fields.names (itemValues given fields Statement.relationshipItems)).Nodup := by
  rw [names_relationshipItems]
  decide

/-- Assigning the values of a relationship to an arc of its type lays what the relationship says
over what the arc says. -/
theorem facts_assigned {given : Given} {project : String}
    (hproject : valueOf given.parameters "projectId" = .str project) (r : Relationship) {a : Arc}
    {old : Facts} (htype : a.type = r.type) (hmerged : old mergedAt = none)
    (hother : ∀ name, name ≠ "type" → Fields.facts a.properties name = old.known name) :
    Arc.facts { a with properties := assignFields a.properties (relationshipValues given r) } =
      ((r.facts project).over old).known := by
  -- the values are closed off, and only what is needed of them is kept
  generalize hvalues : relationshipValues given r = values
  have hnames : values.names = relationshipItemNames := by
    rw [← hvalues]
    rfl
  have hnodup : values.names.Nodup := hvalues ▸ nodup_relationshipItems given _
  have hproperties : values.get? "properties" = some (.str r.propertiesText) := by
    rw [← hvalues]
    rfl
  have hprojectValue : values.get? "project" = some (.str project) := by
    rw [← hvalues, ← hproject]
    rfl
  funext name
  by_cases htypeName : name = "type"
  · subst htypeName
    show some (Json.str a.type) = _
    rw [htype]
    rfl
  have hleft : Arc.facts { a with properties := assignFields a.properties values } name =
      Fields.facts (assignFields a.properties values) name := if_neg htypeName
  rw [hleft]
  refine facts_assignFields hnodup (hother name htypeName)
    (show (none : Option Json).or (old mergedAt) = none by rw [hmerged]; rfl)
    (fun value hname hvalue => ?_) fun hmem => ?_
  · -- what is set is what the relationship says
    have hmem := Fields.mem_names_of_get? hvalue
    rw [hnames] at hmem
    simp only [relationshipItemNames, List.mem_cons, List.not_mem_nil, or_false, hname] at hmem
    rcases hmem with rfl | rfl
    · rw [← hvalue, hproperties]
      rfl
    · rw [← hvalue, hprojectValue]
      rfl
  · -- of other names the relationship says nothing
    have hnone : r.facts project name = none := by
      rw [← Option.not_isSome_iff_eq_none, Relationship.facts, Fields.isSome_facts_iff,
        Relationship.names_edgeAttributes]
      rw [hnames] at hmem
      simp only [relationshipItemNames, List.mem_cons, List.not_mem_nil, or_false, not_or]
        at hmem ⊢
      tauto
    rw [Facts.over, hnone, Option.none_or]

/-! ### Rows -/

/-- The row of a relationship whose ends are found. -/
def endsRow (number : NodeKey → Nat) (project : String) (r : Relationship) : Row :=
  ((Row.start.bind "row" (.value (.obj (relationshipFields r)))).bind "source"
    (.vertex (number ⟨project, r.source⟩))).bind "target" (.vertex (number ⟨project, r.target⟩))

/-- What merging an arc between two variables does for a row. -/
def mergeArcRow (source var type target : String) (row : Row) (db : Database) :
    Database × List Row :=
  match vertexNumber? (row source), vertexNumber? (row target) with
  | some n, some m =>
    let (changed, numbers) := db.mergeArc type n m
    (changed, numbers.map fun k => row.bind var (.arc k))
  | _, _ => (db, [])

/-- What the two clauses do for the row of a relationship: its arc is merged, and values are
assigned to it. -/
def mergeRelationshipRow (given : Given) (label : String) (number : NodeKey → Nat)
    (project : String)
    (r : Relationship) (db : Database) : Database :=
  let merged := db.mergeArc label (number ⟨project, r.source⟩) (number ⟨project, r.target⟩)
  merged.2.foldl (fun db k => db.assignAll (.arc k) (relationshipValues given r)) merged.1

namespace Mirrors

variable {number : NodeKey → Nat} {g : Graph} {db : Database} {project : String} {given : Given}

/-- Merging the row of a relationship puts its edge. -/
theorem mergeRelationshipRow (h : Mirrors number g db) (hsound : g.IsSound)
    (hproject : valueOf given.parameters "projectId" = .str project) (stamp : String)
    {r : Relationship} {label : String} (hlabel : r.type = label)
    (hends : g.hasEnds project r = true) :
    Mirrors number (g.mergeRelationship stamp project r)
      (mergeRelationshipRow given label number project r db) := by
  have hboth := hends
  rw [Graph.hasEnds, Bool.and_eq_true] at hboth
  obtain ⟨n, hn, hmirrors⟩ := h.merge_arc hsound
    ⟨⟨project, r.source⟩, ⟨project, r.target⟩, r.type, Graph.edgeAttributes stamp project r⟩
    hboth.1 hboth.2 (Relationship.nodup_edgeAttributes stamp project r)
    (relationshipValues given r) (by
      intro a old htype hmerged hother
      rw [Relationship.facts_edgeAttributes]
      exact facts_assigned hproject r htype hmerged hother)
  subst hlabel
  rw [Graph.mergeRelationship, if_pos hends, Cypher.mergeRelationshipRow]
  simp only [hn, List.foldl_cons, List.foldl_nil]
  exact hmirrors

end Mirrors

/-! ### All rows -/

/-- A variable of a row stands for an arc, beside a record that the row stands for. -/
def RefersToArc (row : Row) (db : Database) : Prop :=
  ∃ k fields, row "r" = some (.arc k) ∧ k < db.next ∧ row "row" = some (.value (.obj fields))

theorem mergeArcRow_endsRow (number : NodeKey → Nat) (project label : String) (r : Relationship)
    (db : Database) :
    mergeArcRow "source" "r" label "target" (endsRow number project r) db =
      ((db.mergeArc label (number ⟨project, r.source⟩) (number ⟨project, r.target⟩)).1,
        (db.mergeArc label (number ⟨project, r.source⟩) (number ⟨project, r.target⟩)).2.map fun k =>
          (endsRow number project r).bind "r" (.arc k)) :=
  rfl

theorem setRow_arc {given : Given} {row : Row} {k : Nat} {fields : Fields}
    (hr : row "r" = some (.arc k)) (hrow : row "row" = some (.value (.obj fields)))
    (db : Database) :
    setRow given "r" Statement.relationshipItems row db =
      db.assignAll (.arc k) (itemValues given fields Statement.relationshipItems) :=
  foldl_items hrow (by simp [Statement.relationshipItems, Term.IsPlain]) hr db

/-- The row of a relationship may be merged before or after items of another row are set, which are
none that tell arcs apart. -/
theorem commutes_endsRow (given : Given) (label : String) (number : NodeKey → Nat)
    (project : String)
    (r : Relationship) :
    Commutes Database.IsNumbered RefersToArc (mergeArcRow "source" "r" label "target")
      (setRow given "r" Statement.relationshipItems) (endsRow number project r) where
  keeps db hdb := by
    rw [mergeArcRow_endsRow]
    exact (mergeArc_isNumbered hdb _ _ _).1
  made db hdb row hrow := by
    rw [mergeArcRow_endsRow] at hrow ⊢
    obtain ⟨k, hk, rfl⟩ := List.mem_map.1 hrow
    exact ⟨k, relationshipFields r, rfl, (mergeArc_isNumbered hdb _ _ _).2 k hk, rfl⟩
  kept := by
    rintro db row ⟨k, fields, hvar, hk, hfields⟩
    rw [mergeArcRow_endsRow]
    exact ⟨k, fields, hvar, hk.trans_le next_le_mergeArc, hfields⟩
  comm := by
    rintro db row ⟨k, fields, hvar, hk, hfields⟩
    rw [setRow_arc hvar hfields, mergeArcRow_endsRow, mergeArcRow_endsRow, mergeArc_assignAll _ hk]
    refine Prod.ext ?_ rfl
    exact (setRow_arc hvar hfields _).symm

/-- Merging all rows and then assigning to all of them is to take one row after the other. -/
theorem foldl_endsRows {db : Database} (hdb : db.IsNumbered) (given : Given) (label : String)
    (number : NodeKey → Nat) (project : String) (relationships : List Relationship) :
    (eachRow (mergeArcRow "source" "r" label "target")
        (relationships.map (endsRow number project)) db).2.foldl
      (fun db row => setRow given "r" Statement.relationshipItems row db)
      (eachRow (mergeArcRow "source" "r" label "target")
        (relationships.map (endsRow number project)) db).1 =
      relationships.foldl (fun db r => mergeRelationshipRow given label number project r db)
        db := by
  have hcommutes : ∀ row ∈ relationships.map (endsRow number project),
      Commutes Database.IsNumbered RefersToArc (mergeArcRow "source" "r" label "target")
        (setRow given "r" Statement.relationshipItems) row :=
    List.forall_mem_map.2 fun r _ => commutes_endsRow given label number project r
  have hkept (row row' : Row) (db : Database) (h : RefersToArc row db) :
      RefersToArc row (setRow given "r" Statement.relationshipItems row' db) := by
    obtain ⟨k, fields, hvar, hk, hrow⟩ := h
    refine ⟨k, fields, hvar, ?_, hrow⟩
    rw [next_setRow]
    exact hk
  rw [foldl_eachRow hcommutes (fun r db h => h.setRow given "r" _ r)
    (fun r' db r h => hkept r r' db h) hdb, List.foldl_map]
  congr 1
  funext db r
  rw [mergeArcRow_endsRow, List.foldl_map, mergeRelationshipRow]
  rfl

/-- Every row that is left is counted once. -/
theorem countP_endsRows {db : Database} (hdb : db.IsSimple) (label : String)
    (number : NodeKey → Nat) (project : String) (relationships : List Relationship) :
    (eachRow (mergeArcRow "source" "r" label "target")
      (relationships.map (endsRow number project)) db).2.countP (fun row => (row "r").isSome) =
      relationships.length := by
  induction relationships generalizing db with
  | nil => rfl
  | cons r rest ih =>
    obtain ⟨hnext, hone⟩ :=
      mergeArc_isSimple hdb label (number ⟨project, r.source⟩) (number ⟨project, r.target⟩)
    obtain ⟨k, hk⟩ := List.length_eq_one_iff.1 hone
    rw [List.map_cons, eachRow_cons, mergeArcRow_endsRow, List.countP_append, ih hnext, hk,
      List.length_cons, Nat.add_comm]
    rfl

namespace Mirrors

variable {number : NodeKey → Nat} {g : Graph} {db : Database} {project : String} {given : Given}

/-- Looking for the node of an id keeps a row if there is one, and leaves it out if not. -/
theorem rows_found (h : Mirrors number g db) (hsound : g.IsSound)
    (hproject : valueOf given.parameters "projectId" = .str project) (var : String) (row : Row)
    (t : Term) (id : String) (hid : t.eval given db row = .str id) :
    ((Statement.entityPattern var t).found given db row).map
        (fun v => row.bind var (.vertex v.number)) =
      if g.hasNode ⟨project, id⟩ = true then [row.bind var (.vertex (number ⟨project, id⟩))]
      else [] := by
  have hfound := congrArg (List.map fun n => row.bind var (.vertex n))
    (h.map_number_found hsound hproject hid var)
  rw [List.map_map] at hfound
  refine hfound.trans ?_
  split <;> rfl

/-- The rows that are left are those of the relationships with both ends. -/
theorem rows_ends (h : Mirrors number g db) (hsound : g.IsSound)
    (hproject : valueOf given.parameters "projectId" = .str project)
    (relationships : List Relationship) :
    (((relationships.map fun r => Row.start.bind "row"
      (.value (.obj (relationshipFields r)))).flatMap
        fun row => ((Statement.entityPattern "source" (.property "row" "sourceId")).found given db
          row).map fun v => row.bind "source" (.vertex v.number)).flatMap
        fun row => ((Statement.entityPattern "target" (.property "row" "targetId")).found given db
          row).map fun v => row.bind "target" (.vertex v.number)) =
      (relationships.filter (g.hasEnds project)).map (endsRow number project) := by
  induction relationships with
  | nil => rfl
  | cons r rest ih =>
    have hsource := h.rows_found hsound hproject "source"
      (Row.start.bind "row" (.value (.obj (relationshipFields r)))) (.property "row" "sourceId")
      r.source rfl
    have htarget := h.rows_found hsound hproject "target"
      ((Row.start.bind "row" (.value (.obj (relationshipFields r)))).bind "source"
        (.vertex (number ⟨project, r.source⟩))) (.property "row" "targetId") r.target rfl
    rw [List.map_cons, List.flatMap_cons, List.flatMap_append, ih, hsource, List.filter_cons,
      Graph.hasEnds]
    -- a row is left if both ends are found
    cases g.hasNode ⟨project, r.source⟩ with
    | false => rfl
    | true =>
      rw [if_pos rfl, List.flatMap_singleton, htarget]
      cases g.hasNode ⟨project, r.target⟩ <;> rfl

/-- Merging the rows that are left merges the relationships. -/
theorem mergeRelationshipRows (h : Mirrors number g db) (hsound : g.IsSound)
    (hproject : valueOf given.parameters "projectId" = .str project) (stamp : String)
    {label : String}
    (hknown : Relationship.isKnownType label = true) {relationships : List Relationship}
    (hlabel : ∀ r ∈ relationships, r.type = label) :
    Mirrors number (g.mergeRelationships stamp project relationships).1
      ((relationships.filter (g.hasEnds project)).foldl
        (fun db r => Cypher.mergeRelationshipRow given label number project r db) db) := by
  induction relationships generalizing g db with
  | nil => exact h
  | cons r rest ih =>
    have hr : r.type = label := hlabel r List.mem_cons_self
    have hrest : ∀ r' ∈ rest, r'.type = label :=
      fun r' hr' => hlabel r' (List.mem_cons_of_mem _ hr')
    have hnext : (g.mergeRelationship stamp project r).IsSound :=
      hsound.mergeRelationship (hr ▸ hknown)
    rw [Graph.mergeRelationships]
    -- what lacks an end is merged by neither of the two
    cases hends : g.hasEnds project r with
    | true =>
      rw [List.filter_cons_of_pos hends, List.foldl_cons]
      have hmerged := ih (h.mergeRelationshipRow hsound hproject stamp hr hends) hnext hrest
      rw [Graph.hasEnds_mergeRelationship] at hmerged
      exact hmerged
    | false =>
      have hsame : g.mergeRelationship stamp project r = g := by
        rw [Graph.mergeRelationship, if_neg (by simp [hends])]
      rw [List.filter_cons_of_neg (by simp [hends]), hsame]
      exact ih h hsound hrest

/-- A statement that merges edges merges the relationships of its rows, and answers how many have
both ends. -/
theorem serve_mergeEdges (h : Mirrors number g db) (hsound : g.IsSound) (project stamp : String)
    (time : Json) {label : String} (hknown : Relationship.isKnownType label = true)
    {relationships : List Relationship} (hlabel : ∀ r ∈ relationships, r.type = label) :
    Mirrors number (g.mergeRelationships stamp project relationships).1
        ((Statement.mergeEdges project label
          (relationships.map EdgeRow.ofRelationship)).serve time db).1 ∧
      ((Statement.mergeEdges project label
          (relationships.map EdgeRow.ofRelationship)).serve time db).2 =
        .count (g.mergeRelationships stamp project relationships).2 := by
  generalize hgiven : (Statement.mergeEdges project label
    (relationships.map EdgeRow.ofRelationship)).given time = given
  have hproject : valueOf given.parameters "projectId" = .str project := by
    rw [← hgiven]
    rfl
  have hunwound : ([Row.start].flatMap fun row =>
      (elements ((Term.parameter "rows").eval given db row)).map fun item =>
        row.bind "row" (.value item)) =
      relationships.map fun r => Row.start.bind "row" (.value (.obj (relationshipFields r))) := by
    rw [← hgiven]
    show (((relationships.map EdgeRow.ofRelationship).map EdgeRow.toJson).map _) ++ [] = _
    rw [List.append_nil, List.map_map, List.map_map]
    rfl
  have hrows := h.rows_ends hsound hproject relationships
  rw [← hunwound] at hrows
  have hserve : (Statement.mergeEdges project label
        (relationships.map EdgeRow.ofRelationship)).serve time db =
      ((eachRow (mergeArcRow "source" "r" label "target")
          ((relationships.filter (g.hasEnds project)).map (endsRow number project)) db).2.foldl
        (fun db row => setRow given "r" Statement.relationshipItems row db)
        (eachRow (mergeArcRow "source" "r" label "target")
          ((relationships.filter (g.hasEnds project)).map (endsRow number project)) db).1,
        .count ((eachRow (mergeArcRow "source" "r" label "target")
          ((relationships.filter (g.hasEnds project)).map (endsRow number project)) db).2.countP
            fun row => (row "r").isSome)) := by
    rw [← hrows, ← hgiven, Statement.serve]
    show (((Clause.set "r" Statement.relationshipItems).apply _ _ _).1,
      Reply.count (List.countP _ ((Clause.set "r" Statement.relationshipItems).apply _ _ _).2)) = _
    rw [apply_set]
    rfl
  -- so each row is merged and set before the next one, as the graph merges relationships
  rw [hserve, foldl_endsRows h.isNumbered, countP_endsRows (h.isSimple hsound),
    Graph.count_mergeRelationships]
  exact ⟨h.mergeRelationshipRows hsound hproject stamp hknown hlabel, rfl⟩

end Mirrors

end Cypher

end RepoGraph
