import RepoGraph.Proofs.Server.Mirror

/-!
# Merging the nodes of entities on a server

A statement takes its rows through clause after clause: first all of them are merged, then values
are assigned for all of them.  `Cypher.foldl_eachRow` says that the rows may as well be taken one at
a time, each through both clauses, as the values that are assigned are none that merging asks for.
What happens for the row of an entity is then what merging the entity does to the graph.

Main statements: `Cypher.foldl_eachRow`, `Enriched.facts_assigned`,
`Cypher.Mirrors.serve_mergeNodes`.
-/

namespace RepoGraph

namespace Cypher

/-! ### One row at a time -/

theorem eachRow_cons (step : Row → Database → Database × List Row) (row : Row) (rest : List Row)
    (db : Database) :
    eachRow step (row :: rest) db =
      ((eachRow step rest (step row db).1).1,
        (step row db).2 ++ (eachRow step rest (step row db).1).2) :=
  rfl

/-- A clause that keeps its rows changes what is stored, row by row. -/
theorem eachRow_same (s : Row → Database → Database) (rows : List Row) (db : Database) :
    eachRow (fun row db => (s row db, [row])) rows db =
      (rows.foldl (fun db row => s row db) db, rows) := by
  induction rows generalizing db with
  | nil => rfl
  | cons row rest ih =>
    rw [eachRow_cons, ih]
    rfl

section Fusing

variable {m : Row → Database → Database × List Row} {s : Row → Database → Database}
  {rows : List Row} {holds : Database → Prop} {refers : Row → Database → Prop}

/-- A clause may merge a row before or after another row of the past is changed. -/
structure Commutes (holds : Database → Prop) (refers : Row → Database → Prop)
    (m : Row → Database → Database × List Row) (s : Row → Database → Database) (row : Row) :
    Prop where
  /-- Merging keeps what holds of what is stored. -/
  keeps : ∀ db, holds db → holds (m row db).1
  /-- A row that is made refers to something stored. -/
  made : ∀ db, holds db → ∀ r ∈ (m row db).2, refers r (m row db).1
  /-- What rows refer to stays. -/
  kept : ∀ db r, refers r db → refers r (m row db).1
  comm : ∀ db r, refers r db → m row (s r db) = (s r (m row db).1, (m row db).2)

/-- A change that a row of the past makes may be made after the rows to come are merged. -/
theorem eachRow_after (hrows : ∀ row ∈ rows, Commutes holds refers m s row)
    {db : Database} {r : Row}
    (hr : refers r db) :
    eachRow m rows (s r db) = (s r (eachRow m rows db).1, (eachRow m rows db).2) := by
  induction rows generalizing db with
  | nil => rfl
  | cons row rest ih =>
    have hrow := hrows row List.mem_cons_self
    have htail := ih (fun row' hrow' => hrows row' (List.mem_cons_of_mem _ hrow'))
      (hrow.kept db r hr)
    rw [eachRow_cons, eachRow_cons, hrow.comm db r hr, htail]

/-- Changes that rows of the past make may be made after the rows to come are merged. -/
theorem eachRow_foldl (hrows : ∀ row ∈ rows, Commutes holds refers m s row)
    (hrefers : ∀ r' db r, refers r db → refers r (s r' db)) (made : List Row) {db : Database}
    (hmade : ∀ r ∈ made, refers r db) :
    eachRow m rows (made.foldl (fun db r => s r db) db) =
      (made.foldl (fun db r => s r db) (eachRow m rows db).1, (eachRow m rows db).2) := by
  induction made generalizing db with
  | nil => rfl
  | cons r others ih =>
    have hothers : ∀ r' ∈ others, refers r' (s r db) :=
      fun r' hr' => hrefers r db r' (hmade r' (List.mem_cons_of_mem _ hr'))
    rw [List.foldl_cons, ih hothers, eachRow_after hrows (hmade r List.mem_cons_self)]
    rfl

/-- Rows may be taken one at a time, each being merged and then changed. -/
theorem foldl_eachRow (hrows : ∀ row ∈ rows, Commutes holds refers m s row)
    (hholds : ∀ r db, holds db → holds (s r db))
    (hrefers : ∀ r' db r, refers r db → refers r (s r' db)) {db : Database} (hdb : holds db) :
    (eachRow m rows db).2.foldl (fun db r => s r db) (eachRow m rows db).1 =
      rows.foldl (fun db row => (m row db).2.foldl (fun db r => s r db) (m row db).1) db := by
  induction rows generalizing db with
  | nil => rfl
  | cons row rest ih =>
    have hrow := hrows row List.mem_cons_self
    have hrest : ∀ row' ∈ rest, Commutes holds refers m s row' :=
      fun row' hrow' => hrows row' (List.mem_cons_of_mem _ hrow')
    have hchanged (made : List Row) (d : Database) (hd : holds d) :
        holds (made.foldl (fun db r => s r db) d) := by
      induction made generalizing d with
      | nil => exact hd
      | cons r others ihmade => exact ihmade _ (hholds r d hd)
    -- the rows that are made first may be changed before the others are merged
    have hmade := eachRow_foldl hrest hrefers (m row db).2 (hrow.made db hdb)
    rw [List.foldl_cons, ← ih hrest (hchanged _ _ (hrow.keeps db hdb)), hmade, eachRow_cons]
    exact List.foldl_append

end Fusing

/-! ### Assigning in a row -/

section Assigning

variable {given : Given} {row : Row}

/-- The values of items in a row that stands for a record. -/
def itemValues (given : Given) (fields : Fields) (items : List (String × Term)) : Fields :=
  items.map fun item => (item.1, item.2.eval given .empty
    (Row.start.bind "row" (.value (.obj fields))))

/-- A term that is read off a record, the parameters or the clock. -/
def Term.IsPlain : Term → Prop
  | parameter _ => True
  | property var _ => var = "row"
  | now => True

theorem eval_of_isPlain {fields : Fields}
    (hrow : row "row" = some (.value (.obj fields))) {t : Term}
    (ht : t.IsPlain) (db : Database) :
    t.eval given db row = t.eval given .empty (Row.start.bind "row" (.value (.obj fields))) := by
  cases t with
  | parameter name => rfl
  | property var name =>
    obtain rfl : var = "row" := ht
    rw [Term.eval, Term.eval, hrow]
    rfl
  | now => rfl

/-- What setting items does in a row is to assign their values. -/
theorem foldl_items {fields : Fields} (hrow : row "row" = some (.value (.obj fields)))
    {items : List (String × Term)} (hitems : ∀ item ∈ items, item.2.IsPlain) {var : String}
    {b : Binding} (hvar : row var = some b) (db : Database) :
    items.foldl (fun db (name, t) =>
        match row var with
        | some b => db.assign b name (t.eval given db row)
        | none => db) db = db.assignAll b (itemValues given fields items) := by
  induction items generalizing db with
  | nil => rfl
  | cons item rest ih =>
    obtain ⟨name, t⟩ := item
    have ht : t.eval given db row = _ := eval_of_isPlain hrow (hitems _ List.mem_cons_self) db
    rw [List.foldl_cons, ih fun item hitem => hitems item (List.mem_cons_of_mem _ hitem)]
    simp only [hvar]
    rw [ht]
    rfl

end Assigning

/-! ### Merging vertices -/

section Vertices

variable {given : Given} {row : Row}

theorem get?_assignFields_of_not_mem {values : Fields} (hvalues : values.names.Nodup)
    (properties : Fields) {name : String} (hname : name ∉ values.names) :
    (assignFields properties values).get? name = properties.get? name := by
  rw [get?_assignFields hvalues, Fields.get?_eq_none_iff.2 hname]

/-- What a pattern asks of properties is told by the values of the names that it asks for, whatever
else is stored. -/
theorem admits_congr {items : List (String × Term)} {fields properties properties' : Fields}
    (hrow : row "row" = some (.value (.obj fields))) (hplain : ∀ item ∈ items, item.2.IsPlain)
    (hsame : ∀ item ∈ items, properties.get? item.1 = properties'.get? item.1) (db db' : Database) :
    admits given db row items properties = admits given db' row items properties' := by
  refine Bool.eq_iff_iff.2 ?_
  simp only [admits, List.all_eq_true]
  refine forall₂_congr fun item hitem => ?_
  rw [valueOf, valueOf, hsame item hitem, eval_of_isPlain hrow (hplain item hitem) db,
    eval_of_isPlain hrow (hplain item hitem) db']

/-- A pattern is merged in the same way before and after values were assigned to a vertex, if they
are none that it asks for. -/
theorem merge_assignAll {p : VertexPattern} {fields : Fields}
    (hrow : row "row" = some (.value (.obj fields)))
    (hplain : ∀ item ∈ p.properties, item.2.IsPlain) {values : Fields}
    (hvalues : values.names.Nodup) (hasked : ∀ item ∈ p.properties, item.1 ∉ values.names)
    {db : Database} {n : Nat} (hn : n < db.next) :
    p.merge given row (db.assignAll (.vertex n) values) =
      ((p.merge given row db).1.assignAll (.vertex n) values, (p.merge given row db).2) := by
  have hadmits (properties : Fields) (d : Database) :
      admits given d row p.properties (assignFields properties values) =
        admits given db row p.properties properties :=
    admits_congr hrow hplain
      (fun item hitem => get?_assignFields_of_not_mem hvalues properties (hasked item hitem)) d db
  have hfound : p.found given (db.assignAll (.vertex n) values) row =
      (p.found given db row).map fun v => if v.number = n then
        { v with properties := assignFields v.properties values } else v := by
    rw [VertexPattern.found, VertexPattern.found, Database.assignAll_vertex, List.filter_map]
    congr 1
    refine List.filter_congr fun v _ => ?_
    simp only [Function.comp_apply]
    split
    · rw [hadmits]
    · rw [admits_congr hrow hplain (fun _ _ => rfl) _ db]
  have hwanted (d : Database) : p.properties.map (fun item => (item.1, item.2.eval given d row)) =
      p.properties.map fun item => (item.1, item.2.eval given db row) := by
    refine List.map_congr_left fun item hitem => ?_
    rw [eval_of_isPlain hrow (hplain item hitem), eval_of_isPlain hrow (hplain item hitem)]
  rw [VertexPattern.merge, VertexPattern.merge, hfound]
  cases p.found given db row with
  | nil =>
    -- the vertex that is new has another number
    simp only [List.map_nil, hwanted, Database.assignAll_vertex, List.map_append,
      List.map_singleton, if_neg hn.ne']
  | cons v rest =>
    simp only [List.map_cons, List.map_map]
    refine Prod.ext rfl ?_
    refine List.cons_eq_cons.2 ⟨?_, List.map_congr_left fun v' _ => ?_⟩
    · split <;> rfl
    · simp only [Function.comp_apply]
      split <;> rfl

/-- The names of the values of an entity's items. -/
def entityItemNames : List String :=
  ["type", "name", "path", "semanticDescription", "purpose", "patterns", "architecturalRole",
    "complexity", "metadata", mergedAt]

theorem names_entityItems (given : Given) (fields : Fields) :
    Fields.names (itemValues given fields Statement.entityItems) = entityItemNames :=
  rfl

theorem nodup_entityItems (given : Given) (fields : Fields) :
    (Fields.names (itemValues given fields Statement.entityItems)).Nodup := by
  rw [names_entityItems]
  decide

end Vertices

end Cypher

namespace Enriched

open Cypher

/-- The values that are assigned to the vertex of an entity. -/
def assigned (given : Given) (e : Enriched) : Fields :=
  itemValues given e.properties Statement.entityItems

/-- Assigning the values of an entity to what says its id and project lays what the entity says over
it. -/
theorem facts_assigned (given : Given) {project : String} (e : Enriched) {properties : Fields}
    {old : Facts} (hfacts : Fields.facts properties = old.known)
    (hid : old "id" = some (.str e.id)) (hproject : old "project" = some (.str project))
    (hmerged : old mergedAt = none) :
    Fields.facts (assignFields properties (e.assigned given)) =
      ((e.facts project).over old).known := by
  funext name
  refine facts_assignFields (nodup_entityItems given e.properties) (congrFun hfacts name)
    (show (none : Option Json).or (old mergedAt) = none by rw [hmerged]; rfl)
    (fun value hname hvalue => ?_) fun hmem => ?_
  · -- a name that is assigned has the value that the entity says
    have hmem : name ∈ entityItemNames := Fields.mem_names_of_get? hvalue
    simp only [entityItemNames, List.mem_cons, List.not_mem_nil, or_false, hname] at hmem
    rcases hmem with rfl | rfl | rfl | rfl | rfl | rfl | rfl | rfl | rfl <;> exact hvalue
  · -- id and project are as they were, and of other names the entity says nothing
    by_cases hkey : name = "id" ∨ name = "project"
    · rcases hkey with rfl | rfl
      · rw [hid]
        rfl
      · rw [hproject]
        rfl
    · have hnone : e.facts project name = none := by
        rw [← Option.not_isSome_iff_eq_none, facts, Fields.isSome_facts_iff,
          names_nodeAttributes]
        rw [names_entityItems] at hmem
        simp only [entityItemNames, List.mem_cons, List.not_mem_nil, or_false,
          not_or] at hmem hkey ⊢
        tauto
      rw [Facts.over, hnone, Option.none_or]

/-- What id and project say, the entity says. -/
theorem facts_over_keyFields (project : String) (e : Enriched) :
    (e.facts project).over (Fields.facts [("id", .str e.id), ("project", .str project)]) =
      e.facts project := by
  funext name
  by_cases hkey : name = "id" ∨ name = "project"
  · rcases hkey with rfl | rfl <;> rfl
  · rw [not_or] at hkey
    have hnone : Fields.facts [("id", .str e.id), ("project", .str project)] name = none := by
      rw [← Option.not_isSome_iff_eq_none, Fields.isSome_facts_iff]
      simp [Fields.names, hkey.1, hkey.2]
    rw [Facts.over, hnone, Option.or_none]

end Enriched

namespace Cypher

/-- Nothing that id and project say is null. -/
theorem known_keyFields (id project : String) :
    (Fields.facts [("id", .str id), ("project", .str project)]).known =
      Fields.facts [("id", .str id), ("project", .str project)] := by
  funext name
  by_cases hkey : name = "id" ∨ name = "project"
  · rcases hkey with rfl | rfl <;> rfl
  · rw [not_or] at hkey
    have hnone : Fields.facts [("id", .str id), ("project", .str project)] name = none := by
      rw [← Option.not_isSome_iff_eq_none, Fields.isSome_facts_iff]
      simp [Fields.names, hkey.1, hkey.2]
    rw [Facts.known, hnone]

theorem merge_of_found {given : Given} {p : VertexPattern} {row : Row} {db : Database} {n : Nat}
    (h : (p.found given db row).map Vertex.number = [n]) : p.merge given row db = (db, [n]) := by
  rw [VertexPattern.merge]
  cases hfound : p.found given db row with
  | nil =>
    rw [hfound] at h
    cases h
  | cons v rest =>
    rw [hfound] at h
    simp only [h]

theorem merge_of_not_found {given : Given} {p : VertexPattern} {row : Row} {db : Database}
    (h : (p.found given db row).map Vertex.number = []) :
    p.merge given row db =
      ({ db with
          vertices := db.vertices ++ [⟨db.next, p.label.toList,
            p.properties.map fun item => (item.1, item.2.eval given db row)⟩]
          next := db.next + 1 }, [db.next]) := by
  rw [VertexPattern.merge, List.map_eq_nil_iff.1 h]

/-! ### Entities -/

/-- The row of an entity. -/
def entityRow (e : Enriched) : Row := Row.start.bind "row" (.value (.obj e.properties))

/-- The pattern of the entity of a row. -/
def rowPattern : VertexPattern := Statement.entityPattern "e" (.property "row" "id")

/-- What the two clauses do for the row of an entity: its vertex is merged, and values are assigned
to it. -/
def mergeEntityRow (given : Given) (e : Enriched) (db : Database) : Database :=
  (rowPattern.merge given (entityRow e) db).2.foldl
    (fun db n => db.assignAll (.vertex n) (e.assigned given))
    (rowPattern.merge given (entityRow e) db).1

namespace Mirrors

variable {number : NodeKey → Nat} {g : Graph} {db : Database} {project : String} {given : Given}

/-- Merging the row of an entity puts its node. -/
theorem mergeEntityRow (h : Mirrors number g db) (hsound : g.IsSound)
    (hproject : valueOf given.parameters "projectId" = .str project) (stamp : String)
    (e : Enriched) :
    ∃ number', Mirrors number' (g.mergeEntity stamp project e) (mergeEntityRow given e db) := by
  have hid : (Term.property "row" "id").eval given db (entityRow e) = .str e.id := rfl
  have hfound : (rowPattern.found given db (entityRow e)).map Vertex.number =
      if g.hasNode ⟨project, e.id⟩ = true then [number ⟨project, e.id⟩] else [] :=
    h.map_number_found hsound hproject hid "e"
  have hnodup := Enriched.nodup_nodeAttributes stamp project e
  cases hnode : g.hasNode ⟨project, e.id⟩ with
  | true =>
    rw [hnode, if_pos rfl] at hfound
    rw [Cypher.mergeEntityRow, merge_of_found hfound]
    refine ⟨number, h.assign_vertex hnode fun old properties hold hfacts => ?_⟩
    have hdescribes := hsound.nodes _ hold
    rw [Fields.facts_update hnodup, Enriched.facts_nodeAttributes]
    exact e.facts_assigned given hfacts hdescribes.id hdescribes.project rfl
  | false =>
    rw [hnode, if_neg (by decide)] at hfound
    have hwanted : rowPattern.properties.map
        (fun item => (item.1, item.2.eval given db (entityRow e))) =
        [("id", .str e.id), ("project", .str project)] := by
      have hparameter : (Term.parameter "projectId").eval given db (entityRow e) = .str project :=
        hproject
      show [("id", _), ("project", (Term.parameter "projectId").eval given db (entityRow e))] = _
      rw [hparameter]
      rfl
    have hfacts := e.facts_assigned given (known_keyFields e.id project).symm rfl rfl rfl
    rw [e.facts_over_keyFields] at hfacts
    refine ⟨Function.update number ⟨project, e.id⟩ db.next, ?_⟩
    have hlabel : rowPattern.label.toList = [Statement.entityLabel] := rfl
    rw [Cypher.mergeEntityRow, merge_of_not_found hfound]
    simp only [List.foldl_cons, List.foldl_nil, hwanted, hlabel, h.assignAll_createdVertex]
    refine h.create_vertex hsound hnode ?_
    rw [hfacts, Enriched.facts_nodeAttributes]

end Mirrors

/-- Whether numbers that are used are below the next one. -/
structure Database.IsNumbered (db : Database) : Prop where
  vertices : ∀ v ∈ db.vertices, v.number < db.next
  arcs : ∀ a ∈ db.arcs, a.number < db.next

/-- A variable of a row stands for a vertex, beside a record that the row stands for. -/
def RefersToVertex (var : String) (row : Row) (db : Database) : Prop :=
  ∃ n fields, row var = some (.vertex n) ∧ n < db.next ∧ row "row" = some (.value (.obj fields))

theorem Mirrors.isNumbered {number : NodeKey → Nat} {g : Graph} {db : Database}
    (h : Mirrors number g db) : db.IsNumbered :=
  ⟨h.old, h.oldArcs⟩

theorem next_assign (db : Database) (b : Binding) (name : String) (value : Json) :
    (db.assign b name value).next = db.next := by
  cases b <;> rfl

theorem Database.IsNumbered.assign {db : Database} (h : db.IsNumbered) (b : Binding) (name : String)
    (value : Json) : (db.assign b name value).IsNumbered := by
  cases b with
  | value v => exact h
  | vertex n =>
    refine ⟨fun v hv => ?_, h.arcs⟩
    obtain ⟨v', hv', rfl⟩ := List.mem_map.1 hv
    have hlt := h.vertices v' hv'
    split <;> exact hlt
  | arc n =>
    refine ⟨h.vertices, fun a ha => ?_⟩
    obtain ⟨a', ha', rfl⟩ := List.mem_map.1 ha
    have hlt := h.arcs a' ha'
    split <;> exact hlt

/-- What merging the pattern of a vertex does for a row. -/
def VertexPattern.mergeRow (given : Given) (p : VertexPattern) (row : Row) (db : Database) :
    Database × List Row :=
  ((p.merge given row db).1, (p.merge given row db).2.map fun n => row.bind p.var (.vertex n))

/-- What setting items does for a row. -/
def setRow (given : Given) (var : String) (items : List (String × Term)) (row : Row)
    (db : Database) : Database :=
  items.foldl (fun db (name, t) =>
    match row var with
    | some b => db.assign b name (t.eval given db row)
    | none => db) db

theorem next_setRow (given : Given) (var : String) (items : List (String × Term)) (row : Row)
    (db : Database) : (setRow given var items row db).next = db.next := by
  induction items generalizing db with
  | nil => rfl
  | cons item rest ih =>
    refine (ih _).trans ?_
    dsimp only
    split
    · exact next_assign db _ _ _
    · rfl

theorem Database.IsNumbered.setRow {db : Database} (h : db.IsNumbered) (given : Given)
    (var : String)
    (items : List (String × Term)) (row : Row) : (setRow given var items row db).IsNumbered := by
  induction items generalizing db with
  | nil => exact h
  | cons item rest ih =>
    refine ih ?_
    dsimp only
    split
    · exact h.assign _ _ _
    · exact h

/-- What rows refer to stays when items are set. -/
theorem RefersToVertex.setRow {var : String} {r : Row} {db : Database} (h : RefersToVertex var r db)
    (given : Given) (var' : String) (items : List (String × Term)) (row : Row) :
    RefersToVertex var r (setRow given var' items row db) := by
  obtain ⟨n, fields, hvar, hn, hrow⟩ := h
  refine ⟨n, fields, hvar, ?_, hrow⟩
  rw [next_setRow]
  exact hn

theorem next_le_merge {given : Given} {p : VertexPattern} {row : Row} {db : Database} :
    db.next ≤ (p.merge given row db).1.next := by
  rw [VertexPattern.merge]
  split
  · exact Nat.le_succ _
  · exact le_rfl

/-- Merging the pattern of a vertex uses numbers up to the next one. -/
theorem merge_isNumbered {given : Given} {p : VertexPattern} {row : Row} {db : Database}
    (h : db.IsNumbered) :
    (p.merge given row db).1.IsNumbered ∧
      ∀ n ∈ (p.merge given row db).2, n < (p.merge given row db).1.next := by
  rw [VertexPattern.merge]
  cases hfound : p.found given db row with
  | nil =>
    refine ⟨⟨fun v hv => ?_, fun a ha => ?_⟩, fun n hn => ?_⟩
    · rcases List.mem_append.1 hv with hv | hv
      · exact (h.vertices v hv).trans (Nat.lt_succ_self _)
      · rw [List.mem_singleton.1 hv]
        exact Nat.lt_succ_self db.next
    · exact (h.arcs a ha).trans (Nat.lt_succ_self _)
    · rw [List.mem_singleton.1 hn]
      exact Nat.lt_succ_self db.next
  | cons v rest =>
    refine ⟨h, fun n hn => ?_⟩
    obtain ⟨v', hv', rfl⟩ := List.mem_map.1 hn
    have hmem : v' ∈ p.found given db row := hfound ▸ hv'
    exact h.vertices v' (List.mem_filter.1 hmem).1

theorem apply_set (given : Given) (var : String) (items : List (String × Term)) (rows : List Row)
    (db : Database) :
    (Clause.set var items).apply given db rows =
      (rows.foldl (fun db row => setRow given var items row db) db, rows) :=
  eachRow_same (setRow given var items) rows db

/-- Setting the items of a row is to assign their values to its vertex. -/
theorem setRow_vertex {row : Row} {n : Nat} {fields : Fields} (he : row "e" = some (.vertex n))
    (hrow : row "row" = some (.value (.obj fields))) (given : Given) (db : Database) :
    setRow given "e" Statement.entityItems row db =
      db.assignAll (.vertex n) (itemValues given fields Statement.entityItems) :=
  foldl_items hrow (by simp [Statement.entityItems, Term.IsPlain]) he db

/-- The row of an entity may be merged before or after items of another row are set: id and project,
which merging asks for, are not set. -/
theorem commutes_entityRow (given : Given) (e : Enriched) :
    Commutes Database.IsNumbered (RefersToVertex "e") (rowPattern.mergeRow given)
      (setRow given "e" Statement.entityItems) (entityRow e) where
  keeps _ hdb := (merge_isNumbered hdb).1
  made db hdb r hr := by
    obtain ⟨n, hn, rfl⟩ := List.mem_map.1 hr
    exact ⟨n, e.properties, rfl, (merge_isNumbered hdb).2 n hn, rfl⟩
  kept := by
    rintro db r ⟨n, fields, hvar, hn, hfields⟩
    exact ⟨n, fields, hvar, hn.trans_le next_le_merge, hfields⟩
  comm := by
    rintro db r ⟨n, fields, hvar, hn, hfields⟩
    have hplain : ∀ item ∈ rowPattern.properties, item.2.IsPlain := by
      simp [rowPattern, Statement.entityPattern, Term.IsPlain]
    have hasked : ∀ item ∈ rowPattern.properties,
        item.1 ∉ Fields.names (itemValues given fields Statement.entityItems) := by
      simp [rowPattern, Statement.entityPattern, names_entityItems, entityItemNames, mergedAt]
    have hrow : entityRow e "row" = some (.value (.obj e.properties)) := rfl
    have hmerge : rowPattern.merge given (entityRow e) _ = _ :=
      merge_assignAll hrow hplain (nodup_entityItems given fields) hasked hn
    rw [setRow_vertex hvar hfields, VertexPattern.mergeRow, hmerge]
    refine Prod.ext ?_ rfl
    exact (setRow_vertex hvar hfields given _).symm

theorem serve_mergeNodes_eq {db : Database} (hdb : db.IsNumbered) (project : String) (time : Json)
    (batch : List Enriched) :
    ((Statement.mergeNodes project (batch.map Enriched.properties)).serve time db).1 =
      batch.foldl (fun db e => mergeEntityRow
        ((Statement.mergeNodes project (batch.map Enriched.properties)).given time) e db) db := by
  generalize hgiven :
    (Statement.mergeNodes project (batch.map Enriched.properties)).given time = given
  -- all rows are merged first and set then; as setting one row leaves the others' merging alone,
  -- this is the same as to do both row by row
  have hrows : ([Row.start].flatMap fun row =>
      (elements ((Term.parameter "rows").eval given db row)).map fun item =>
        row.bind "row" (.value item)) = batch.map entityRow := by
    rw [← hgiven]
    show (((batch.map Enriched.properties).map Json.obj).map _) ++ [] = _
    rw [List.append_nil, List.map_map, List.map_map]
    rfl
  have hserve : ((Statement.mergeNodes project (batch.map Enriched.properties)).serve time db).1 =
      (eachRow (rowPattern.mergeRow given) (batch.map entityRow) db).2.foldl
        (fun db row => setRow given "e" Statement.entityItems row db)
        (eachRow (rowPattern.mergeRow given) (batch.map entityRow) db).1 := by
    rw [← hrows, ← hgiven]
    show ((Clause.set "e" Statement.entityItems).apply _ _ _).1 = _
    rw [apply_set]
    rfl
  have hcommutes : ∀ row ∈ batch.map entityRow, Commutes Database.IsNumbered (RefersToVertex "e")
      (rowPattern.mergeRow given) (setRow given "e" Statement.entityItems) row :=
    List.forall_mem_map.2 fun e _ => commutes_entityRow given e
  rw [hserve, foldl_eachRow hcommutes (fun r db h => h.setRow given "e" _ r)
    (fun r' db r h => h.setRow given "e" _ r') hdb, List.foldl_map]
  congr 1
  funext db e
  rw [VertexPattern.mergeRow, List.foldl_map, mergeEntityRow]
  rfl

/-- A statement that merges nodes merges the entities of its rows. -/
theorem Mirrors.serve_mergeNodes {number : NodeKey → Nat} {g : Graph} {db : Database}
    (h : Mirrors number g db) (hsound : g.IsSound) (project stamp : String) (time : Json)
    (batch : List Enriched) :
    ∃ number', Mirrors number' (g.mergeEntities stamp project batch)
      ((Statement.mergeNodes project (batch.map Enriched.properties)).serve time db).1 := by
  rw [serve_mergeNodes_eq h.isNumbered]
  have hproject : valueOf ((Statement.mergeNodes project (batch.map Enriched.properties)).given
      time).parameters "projectId" = .str project := rfl
  generalize (Statement.mergeNodes project (batch.map Enriched.properties)).given time = given
    at hproject ⊢
  induction batch generalizing number g db with
  | nil => exact ⟨number, h⟩
  | cons e rest ih =>
    obtain ⟨number', h'⟩ := h.mergeEntityRow hsound hproject stamp e
    exact ih h' (hsound.mergeEntity e)

end Cypher

end RepoGraph
