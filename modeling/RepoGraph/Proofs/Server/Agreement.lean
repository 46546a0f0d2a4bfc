import RepoGraph.Proofs.Server.Reading
import RepoGraph.Proofs.Stores.Outcome

/-!
# The stores agree

A store on a server sends relationships in batches and, in each batch, those of one type together.
What is left of their order is that of each type (`EdgeRow.grouped_eq`), so a request has one of the
outcomes that it may have (`GraphStore.wp_answer_server`).  The graph of a file has such an outcome
too, and outcomes agree: after the same requests the two stores hold the same nodes and edges, and
they have answered the same.

Main statements: `EdgeRow.grouped_eq`, `GraphStore.wp_answer_server`,
`GraphStore.holds_after_answers`.
-/

namespace RepoGraph

/-! ### Groups -/

namespace EdgeRow

/-- The rows of the relationships of a group. -/
def ofGroup (group : String × List Relationship) : String × List EdgeRow :=
  (group.1, group.2.map ofRelationship)

/-- The rows of the relationships of a type. -/
def ofType (relationships : List Relationship) (label : String) : String × List EdgeRow :=
  (label, (relationships.filter fun r => r.type == label).map ofRelationship)

theorem ofType_append_self (relationships : List Relationship) (r : Relationship) :
    ofType (relationships ++ [r]) r.type =
      (r.type, (ofType relationships r.type).2 ++ [ofRelationship r]) := by
  have hself : [r].filter (fun r' => r'.type == r.type) = [r] := List.filter_eq_self.2 (by simp)
  rw [ofType, List.filter_append, hself, List.map_append]
  rfl

theorem ofType_append_of_ne (relationships : List Relationship) {r : Relationship} {label : String}
    (hne : r.type ≠ label) : ofType (relationships ++ [r]) label = ofType relationships label := by
  have hother : [r].filter (fun r' => r'.type == label) = [] :=
    List.filter_eq_nil_iff.2 (by simpa using hne)
  rw [ofType, List.filter_append, hother, List.append_nil]
  rfl

/-- Adding a row to the groups of some types puts it in the group of its type, or in a new one if
there is none of its type yet. -/
theorem addTo_ofType (relationships : List Relationship) (r : Relationship) {labels : List String}
    (hnodup : labels.Nodup)
    (hold : r.type ∈ labels ∨ relationships.filter (fun r' => r'.type == r.type) = []) :
    addTo r.type (ofRelationship r) (labels.map (ofType relationships)) =
      (if r.type ∈ labels then labels else labels ++ [r.type]).map
        (ofType (relationships ++ [r])) := by
  induction labels with
  | nil =>
    have hnone := hold.resolve_left List.not_mem_nil
    rw [if_neg List.not_mem_nil, List.nil_append, List.map_singleton, ofType_append_self,
      ofType, hnone]
    rfl
  | cons label rest ih =>
    obtain ⟨hlabel, hrest⟩ := List.nodup_cons.1 hnodup
    by_cases heq : label = r.type
    · subst heq
      -- a type stands only once, so no later group gets the row
      have hsame : rest.map (ofType (relationships ++ [r])) = rest.map (ofType relationships) :=
        List.map_congr_left fun other hother =>
          ofType_append_of_ne relationships fun h => hlabel (h ▸ hother)
      rw [if_pos List.mem_cons_self, List.map_cons, List.map_cons, ofType_append_self,
        hsame, ofType,
        addTo, if_pos BEq.rfl]
    · have hne : ¬ r.type = label := fun h => heq h.symm
      have hiff : r.type ∈ label :: rest ↔ r.type ∈ rest := by simp [hne]
      have hsplit : (if r.type ∈ label :: rest then label :: rest else label :: rest ++ [r.type]) =
          label :: (if r.type ∈ rest then rest else rest ++ [r.type]) := by
        simp only [hiff]
        split <;> rfl
      rw [hsplit, List.map_cons, List.map_cons, ofType_append_of_ne relationships hne,
        ← ih hrest (hold.imp_left hiff.1), ofType, addTo, if_neg (by simpa using heq)]

/-- The groups of relationships have different types, and each has all the relationships of its
type, in order. -/
theorem grouped_eq (relationships : List Relationship) :
    ∃ labels : List String, labels.Nodup ∧
      (∀ label, label ∈ labels ↔ ∃ r ∈ relationships, r.type = label) ∧
        grouped relationships = labels.map (ofType relationships) := by
  -- the induction is on the end of the list, as groups are made from its beginning on
  induction relationships using List.reverseRecOn with
  | nil => exact ⟨[], List.nodup_nil, by simp, rfl⟩
  | append_singleton before r ih =>
    obtain ⟨labels, hnodup, hlabels, hgrouped⟩ := ih
    have hold : r.type ∈ labels ∨ before.filter (fun r' => r'.type == r.type) = [] := by
      rw [or_iff_not_imp_left, hlabels, List.filter_eq_nil_iff]
      intro hnone r' hr' heq
      exact hnone ⟨r', hr', beq_iff_eq.1 heq⟩
    refine ⟨if r.type ∈ labels then labels else labels ++ [r.type], ?_, fun label => ?_, ?_⟩
    · split
      · exact hnodup
      · rename_i hnew
        exact Graph.nodup_snoc hnodup hnew
    · have hmem : label ∈ (if r.type ∈ labels then labels else labels ++ [r.type]) ↔
          label ∈ labels ∨ label = r.type := by
        split
        · rename_i hin
          exact ⟨.inl, fun h => h.elim id fun heq => heq ▸ hin⟩
        · simp
      rw [hmem, hlabels]
      simp only [List.mem_append, List.mem_singleton, or_and_right, exists_or, exists_eq_left]
      rw [eq_comm (a := label)]
    · rw [← addTo_ofType before r hnodup hold, ← hgrouped, grouped, List.foldl_append]
      rfl

end EdgeRow

namespace Relationship

/-- Taking one type after the other keeps the order of each type. -/
theorem sameByType_flatMap {relationships : List Relationship} {labels : List String}
    (hnodup : labels.Nodup) (hlabels : ∀ r ∈ relationships, r.type ∈ labels) :
    SameByType relationships
      (labels.flatMap fun label => relationships.filter fun r => r.type == label) := by
  intro type
  have hother (label : String) : (relationships.filter fun r => r.type == label).filter
      (fun r => r.type == type) =
        if label = type then relationships.filter fun r => r.type == type else [] := by
    rw [List.filter_filter]
    split
    · rename_i heq
      simp only [heq, Bool.and_self]
    · rename_i hne
      refine List.filter_eq_nil_iff.2 fun r _ hr => hne ?_
      rw [Bool.and_eq_true, beq_iff_eq, beq_iff_eq] at hr
      exact hr.2.symm.trans hr.1
  -- as the labels differ, only one of them contributes
  have hone (found : List Relationship) :
      (labels.flatMap fun label => if label = type then found else []) =
        if type ∈ labels then found else [] := by
    clear hlabels
    induction labels with
    | nil => rfl
    | cons label rest ih =>
      obtain ⟨hlabel, hrest⟩ := List.nodup_cons.1 hnodup
      rw [List.flatMap_cons, ih hrest]
      by_cases heq : label = type
      · subst heq
        simp [hlabel]
      · have hne : ¬ type = label := fun h => heq h.symm
        simp [heq, hne]
  rw [List.filter_flatMap, List.flatMap_congr fun label _ => hother label, hone]
  split
  · rfl
  · rename_i hnone
    refine (List.filter_eq_nil_iff.2 fun r hr heq => hnone ?_).symm
    rw [← beq_iff_eq.1 heq]
    exact hlabels r hr

end Relationship

namespace Graph

/-- Relationships may be merged in parts. -/
theorem mergeRelationships_append (stamp project : String) (g : Graph)
    (relationships more : List Relationship) :
    g.mergeRelationships stamp project (relationships ++ more) =
      (((g.mergeRelationships stamp project relationships).1.mergeRelationships stamp
        project more).1,
        (g.mergeRelationships stamp project relationships).2 +
          ((g.mergeRelationships stamp project relationships).1.mergeRelationships stamp project
            more).2) := by
  induction relationships generalizing g with
  | nil => simp [mergeRelationships]
  | cons r rest ih =>
    rw [List.cons_append, mergeRelationships, ih]
    refine Prod.ext rfl ?_
    simp only [mergeRelationships]
    split <;> omega

end Graph

/-! ### Sending -/

/-- The statements that were sent, latest first. -/
def World.sent (w : World) : List Statement :=
  w.events.filterMap fun
    | .statement s => some s
    | _ => none

/-- A server to which no statement was sent stores nothing. -/
theorem Cypher.Database.after_of_sent_eq_nil (time : List Event → Json) {w : World}
    (hsent : w.sent = []) : Database.after time w.events = .empty := by
  rw [World.sent] at hsent
  generalize w.events = events at hsent
  induction events with
  | nil => rfl
  | cons event past ih =>
    cases event with
    | statement s => cases hsent
    | _ => exact ih hsent

namespace GraphStore

open Cypher

variable {time : List Event → Json} {outside : Outside} {w : World} {g : Graph}
  {url user password project : String}

/-- A server that began empty stores a graph after the events of a world, and the statements that
were sent to it are of the closed ones. -/
def Stores (time : List Event → Json) (g : Graph) (w : World) : Prop :=
  ∃ number, Mirrors number g (.after time w.events) ∧ ∀ s ∈ w.sent, s.isClosed = true

theorem wp_connect_server (hcalm : outside.IsCalm) (hstores : Stores time g w) :
    (connect url user password).wp (fun _ => Stores time g) (fun _ _ => False) outside w := by
  simp only [connect, Build.wp_bind, Build.wp_get, Build.wp_ite, Build.wp_pure, Build.wp_modify]
  split
  · refine Build.wp_mono (Build.wp_attempt_of_isCalm hcalm _) ?_ fun _ _ => id
    rintro _ w' rfl
    exact hstores
  · exact hstores

/-- A closed statement that is sent is served. -/
theorem wp_send (hcalm : outside.IsCalm) (hserves : outside.Serves time) {s : Statement}
    (hs : s.isClosed = true) (hsent : ∀ s' ∈ w.sent, s'.isClosed = true) :
    (send s).wp
      (fun reply w' => reply = (s.serve (time w.events) (.after time w.events)).2 ∧
        Database.after time w'.events = (s.serve (time w.events) (.after time w.events)).1 ∧
          ∀ s' ∈ w'.sent, s'.isClosed = true)
      (fun _ _ => False) outside w := by
  simp only [send, Build.wp_bind, Build.wp_get, Build.wp_read]
  refine Build.wp_mono (Build.wp_attempt_of_isCalm hcalm _) ?_ fun _ _ => id
  rintro _ w' rfl
  rw [hserves, Build.wp_take]
  refine ⟨fun reply hreply => ?_, fun f hf => by cases hf⟩
  rw [Except.ok.inj hreply]
  exact ⟨rfl, rfl, List.forall_mem_cons.2 ⟨hs, hsent⟩⟩

/-! ### Entities -/

/-- A server merges entities in batches, all of them. -/
theorem wp_upsertEntities_server (hcalm : outside.IsCalm) (hserves : outside.Serves time)
    (hsound : g.IsSound) (hstores : Stores time g w) (entities : List Enriched) :
    ((server url user password).upsertEntities project entities).wp
      (fun n w' => n = entities.length ∧ Stores time (g.mergeEntities "" project entities) w')
      (fun _ _ => False) outside w := by
  simp only [upsertEntities, Build.wp_bind, Build.wp_pure, Build.wp_log]
  refine Build.wp_mono (wp_connect_server hcalm hstores) (fun _ w₁ hw₁ => ?_) fun _ _ => id
  refine Build.wp_mono (Build.wp_forM
    (fun before w' => Stores time (g.mergeEntities "" project (before.flatMap Prod.fst)) w')
    (fun before item after _ w₂ hw₂ => ?_) hw₁) (fun _ w₂ hw₂ => ?_) fun _ _ => id
  · obtain ⟨number, hmirrors, hclosed⟩ := hw₂
    rw [Build.wp_bind]
    refine Build.wp_mono (wp_send hcalm hserves
      (s := .mergeNodes project (item.1.map Enriched.properties)) rfl hclosed)
      (fun reply w₃ hw₃ => ?_) fun _ _ => id
    obtain ⟨number', hmirrors'⟩ := hmirrors.serve_mergeNodes
      (hsound.of_merges (Graph.Merges.nil.mergeEntities "" _)) project "" (time w₂.events) item.1
    rw [Build.wp_log, List.flatMap_append, List.flatMap_singleton, Graph.mergeEntities,
      List.foldl_append]
    rw [← hw₃.2.1] at hmirrors'
    exact ⟨number', hmirrors', hw₃.2.2⟩
  · rw [Batch.flatMap_counted] at hw₂
    exact ⟨trivial, hw₂⟩

/-! ### Relationships -/

theorem wp_knownOnly_server {relationships : List Relationship} (hstores : Stores time g w) :
    (knownOnly relationships).wp
      (fun known w' => known = knownOf relationships ∧ Stores time g w') (fun _ _ => False)
      outside w := by
  induction relationships generalizing w with
  | nil => exact ⟨rfl, hstores⟩
  | cons r rest ih =>
    rw [knownOnly]
    by_cases hknown : Relationship.isKnownType r.type = true
    · have hcons : knownOf (r :: rest) = r :: knownOf rest := List.filter_cons_of_pos hknown
      simp only [hknown, if_true, Build.wp_bind, Build.wp_pure, hcons]
      exact Build.wp_mono (ih hstores) (fun _ _ h => ⟨congrArg _ h.1, h.2⟩) fun _ _ => id
    · have hcons : knownOf (r :: rest) = knownOf rest := List.filter_cons_of_neg hknown
      simp only [hknown, Bool.false_eq_true, if_false, Build.wp_bind, Build.wp_log, hcons]
      exact ih hstores

/-- A server merges the relationships of groups, each of one type, and answers how many. -/
theorem wp_sendGroups (hcalm : outside.IsCalm) (hserves : outside.Serves time)
    (groups : List (String × List Relationship))
    (hgroups : ∀ group ∈ groups, Relationship.isKnownType group.1 = true ∧
      ∀ r ∈ group.2, r.type = group.1)
    (hsound : g.IsSound) (made : Int) (hstores : Stores time g w) :
    ((groups.map EdgeRow.ofGroup).foldlM
      (fun made (label, rows) => do
        let reply ← send (.mergeEdges project label rows)
        return made + reply.number) made).wp
      (fun n w' =>
        n = made + (g.mergeRelationships "" project (groups.flatMap Prod.snd)).2 ∧
          Stores time (g.mergeRelationships "" project (groups.flatMap Prod.snd)).1 w')
      (fun _ _ => False) outside w := by
  induction groups generalizing g made w with
  | nil => exact ⟨(Int.add_zero made).symm, hstores⟩
  | cons group rest ih =>
    obtain ⟨number, hmirrors, hclosed⟩ := hstores
    obtain ⟨hknown, htypes⟩ := hgroups group List.mem_cons_self
    obtain ⟨hmirrors', hcount⟩ :=
      hmirrors.serve_mergeEdges hsound project "" (time w.events) hknown htypes
    have hnext : (g.mergeRelationships "" project group.2).1.IsSound :=
      hsound.mergeRelationships fun r hr => (htypes r hr).symm ▸ hknown
    have hsent := wp_send hcalm hserves
      (s := .mergeEdges project group.1 (group.2.map EdgeRow.ofRelationship)) hknown hclosed
    -- the answer of the server is how many were merged
    rw [hcount] at hsent
    rw [List.map_cons, List.foldlM_cons]
    simp only [Build.wp_bind, Build.wp_pure]
    refine Build.wp_mono hsent (fun reply w₁ hw₁ => ?_) fun _ _ => id
    rw [← hw₁.2.1] at hmirrors'
    refine Build.wp_mono (ih (fun group' hgroup' => hgroups group' (List.mem_cons_of_mem _ hgroup'))
      hnext (made + reply.number) ⟨number, hmirrors', hw₁.2.2⟩) (fun n w₂ hw₂ => ?_) fun _ _ => id
    rw [List.flatMap_cons, Graph.mergeRelationships_append]
    refine ⟨?_, hw₂.2⟩
    rw [hw₂.1, hw₁.1, Nat.cast_add, ← Int.add_assoc]
    rfl

/-- A server merges the relationships of a batch, those of one type together. -/
theorem wp_sendBatch (hcalm : outside.IsCalm) (hserves : outside.Serves time) (hsound : g.IsSound)
    (hstores : Stores time g w) {batch : List Relationship}
    (hknown : ∀ r ∈ batch, Relationship.isKnownType r.type = true) :
    (sendBatch project batch).wp
      (fun n w' => ∃ others, Relationship.SameByType batch others ∧
        n = (g.mergeRelationships "" project others).2 ∧
          Stores time (g.mergeRelationships "" project others).1 w')
      (fun _ _ => False) outside w := by
  obtain ⟨labels, hnodup, hlabels, hgrouped⟩ := EdgeRow.grouped_eq batch
  have hmem : ∀ r ∈ batch, r.type ∈ labels := fun r hr => (hlabels _).2 ⟨r, hr, rfl⟩
  have hrows : EdgeRow.grouped batch =
      (labels.map fun label => (label, batch.filter fun r => r.type == label)).map
        EdgeRow.ofGroup := by
    rw [hgrouped, List.map_map]
    rfl
  rw [sendBatch, hrows, Build.wp_bind]
  refine Build.wp_mono (Build.wp_attempt_of_isCalm hcalm _) ?_ fun _ _ => id
  rintro _ w₁ rfl
  refine Build.wp_mono (wp_sendGroups hcalm hserves _ ?_ hsound 0 hstores) (fun n w₂ hw₂ => ?_)
    fun _ _ => id
  · intro group hgroup
    obtain ⟨label, hlabel, rfl⟩ := List.mem_map.1 hgroup
    obtain ⟨r, hr, rfl⟩ := (hlabels label).1 hlabel
    exact ⟨hknown r hr, fun r' hr' => beq_iff_eq.1 (List.mem_filter.1 hr').2⟩
  · rw [List.flatMap_map, Int.zero_add] at hw₂
    exact ⟨_, Relationship.sameByType_flatMap hnodup hmem, hw₂⟩

/-- A server merges the relationships of batches, those of one type in order. -/
theorem wp_sendBatches (hcalm : outside.IsCalm) (hserves : outside.Serves time) (total : Nat)
    (batches : List (List Relationship × Nat))
    (hknown : ∀ batch ∈ batches, ∀ r ∈ batch.1, Relationship.isKnownType r.type = true)
    (hsound : g.IsSound) (made : Int) (hstores : Stores time g w) :
    (batches.foldlM
      (fun made (batch, done) => do
        let more ← sendBatch project batch
        Build.log .info channel ["Neo4j relationship load: " ++ progress done total]
        return made + more) made).wp
      (fun n w' => ∃ others, Relationship.SameByType (batches.flatMap Prod.fst) others ∧
        n = made + (g.mergeRelationships "" project others).2 ∧
          Stores time (g.mergeRelationships "" project others).1 w')
      (fun _ _ => False) outside w := by
  induction batches generalizing g made w with
  | nil => exact ⟨[], .refl [], (Int.add_zero made).symm, hstores⟩
  | cons batch rest ih =>
    have hbatch := hknown batch List.mem_cons_self
    rw [List.foldlM_cons]
    simp only [Build.wp_bind, Build.wp_pure, Build.wp_log]
    refine Build.wp_mono (wp_sendBatch hcalm hserves hsound hstores hbatch) (fun more w₁ hw₁ => ?_)
      fun _ _ => id
    obtain ⟨others, hsame, hmore, hstores'⟩ := hw₁
    have hnext : (g.mergeRelationships "" project others).1.IsSound :=
      hsound.mergeRelationships (hsame.isKnownType hbatch)
    refine Build.wp_mono (ih (fun b hb => hknown b (List.mem_cons_of_mem _ hb)) hnext (made + more)
      hstores') (fun n w₂ hw₂ => ?_) fun _ _ => id
    obtain ⟨others', hsame', hn, hlast⟩ := hw₂
    refine ⟨others ++ others', ?_, ?_⟩
    · rw [List.flatMap_cons]
      exact hsame.append hsame'
    · rw [Graph.mergeRelationships_append]
      refine ⟨?_, hlast⟩
      rw [hn, hmore, Nat.cast_add, ← Int.add_assoc]

/-- A server merges relationships of known type, those of one type in order, and answers how
many. -/
theorem wp_upsertRelationships_server (hcalm : outside.IsCalm) (hserves : outside.Serves time)
    (hsound : g.IsSound) (hstores : Stores time g w) (relationships : List Relationship) :
    ((server url user password).upsertRelationships project relationships).wp
      (fun n w' => ∃ others, Relationship.SameByType (knownOf relationships) others ∧
        n = (g.mergeRelationships "" project others).2 ∧
          Stores time (g.mergeRelationships "" project others).1 w')
      (fun _ _ => False) outside w := by
  have hknown : ∀ batch ∈ Batch.counted batchSize (knownOf relationships), ∀ r ∈ batch.1,
      Relationship.isKnownType r.type = true := by
    intro batch hbatch r hr
    have hall : ∀ r ∈ knownOf relationships, _ := isKnownType_of_mem_knownOf
    refine hall r ?_
    rw [← Batch.flatMap_counted batchSize (knownOf relationships), List.mem_flatMap]
    exact ⟨batch, hbatch, hr⟩
  simp only [upsertRelationships, Build.wp_bind, Build.wp_log]
  refine Build.wp_mono (wp_knownOnly_server hstores) (fun known w₁ hw₁ => ?_) fun _ _ => id
  obtain ⟨rfl, hstores₁⟩ := hw₁
  refine Build.wp_mono (wp_connect_server hcalm hstores₁) (fun _ w₂ hw₂ => ?_) fun _ _ => id
  refine Build.wp_mono (wp_sendBatches hcalm hserves _ _ hknown hsound 0 hw₂)
    (fun n w₃ hw₃ => ?_) fun _ _ => id
  rw [Batch.flatMap_counted] at hw₃
  obtain ⟨others, hsame, hn, hstores₃⟩ := hw₃
  exact ⟨others, hsame, hn.trans (Int.zero_add _), hstores₃⟩

/-! ### Stale nodes and counts -/

/-- A server deletes the stale nodes, and answers their ids. -/
theorem wp_prune_server (hcalm : outside.IsCalm) (hserves : outside.Serves time)
    (hsound : g.IsSound) (hstores : Stores time g w) (current : List String)
    (scope : Option (List String)) :
    ((server url user password).prune project current scope).wp
      (fun gone w' => gone = (g.prune project current scope).2 ∧
        Stores time (g.prune project current scope).1 w')
      (fun _ _ => False) outside w := by
  simp only [prune, Build.wp_bind, Build.wp_pure, Build.wp_log]
  refine Build.wp_mono (wp_connect_server hcalm hstores) (fun _ w₁ hw₁ => ?_) fun _ _ => id
  obtain ⟨number, hmirrors, hclosed⟩ := hw₁
  obtain ⟨hkept, hgone⟩ := hmirrors.serve_prune hsound project current scope (time w₁.events)
  refine Build.wp_mono (wp_send hcalm hserves rfl hclosed) (fun reply w₂ hw₂ => ?_) fun _ _ => id
  obtain ⟨hreply, hafter, hclosed₂⟩ := hw₂
  rw [hreply, hgone]
  rw [← hafter] at hkept
  exact ⟨rfl, number, hkept, hclosed₂⟩

/-- A server counts the nodes and the edges of a project, and keeps its graph. -/
theorem wp_counts_server (hcalm : outside.IsCalm) (hserves : outside.Serves time)
    (hsound : g.IsSound) (hstores : Stores time g w) :
    ((server url user password).counts project).wp
      (fun found w' => found = g.counts project ∧ Stores time g w')
        (fun _ _ => False) outside w := by
  simp only [counts, Build.wp_bind, Build.wp_pure]
  refine Build.wp_mono (wp_connect_server hcalm hstores) (fun _ w₁ hw₁ => ?_) fun _ _ => id
  obtain ⟨number, hmirrors, hclosed⟩ := hw₁
  refine Build.wp_mono (wp_send hcalm hserves rfl hclosed) (fun nodes w₂ hw₂ => ?_) fun _ _ => id
  rw [hmirrors.serve_countNodes hsound] at hw₂
  dsimp only at hw₂
  obtain ⟨hnodes, hsame, hclosed₂⟩ := hw₂
  -- counting changes nothing, so the second count is of the same graph
  rw [← hsame] at hmirrors
  refine Build.wp_mono (wp_send hcalm hserves rfl hclosed₂) (fun edges w₃ hw₃ => ?_) fun _ _ => id
  rw [hmirrors.serve_countEdges hsound] at hw₃
  dsimp only at hw₃
  obtain ⟨hedges, hsame', hclosed₃⟩ := hw₃
  rw [← hsame'] at hmirrors
  rw [hnodes, hedges]
  exact ⟨rfl, number, hmirrors, hclosed₃⟩

/-! ### Requests -/

/-- A server has an outcome of every request. -/
theorem wp_answer_server (hcalm : outside.IsCalm) (hserves : outside.Serves time)
    (request : GraphRequest) (hsound : g.IsSound) (hstores : Stores time g w) :
    ((server url user password).answer request).wp
      (fun answer w' => ∃ h, request.Outcome g answer h ∧ h.IsSound ∧ Stores time h w')
      (fun _ _ => False) outside w := by
  have hsuffices : ((server url user password).answer request).wp
      (fun answer w' => ∃ h, request.Outcome g answer h ∧ Stores time h w')
      (fun _ _ => False) outside w := by
    cases request with
    | entities project entities =>
      simp only [answer, Build.wp_bind, Build.wp_pure]
      refine Build.wp_mono (wp_upsertEntities_server hcalm hserves hsound hstores entities)
        (fun n w' hw' => ?_) fun _ _ => id
      obtain ⟨rfl, hstores'⟩ := hw'
      exact ⟨_, .entities (Graph.Merges.nil.mergeEntities "" entities), hstores'⟩
    | relationships project relationships =>
      simp only [answer, Build.wp_bind, Build.wp_pure]
      refine Build.wp_mono (wp_upsertRelationships_server hcalm hserves hsound hstores
        relationships)
        (fun n w' hw' => ?_) fun _ _ => id
      obtain ⟨others, hsame, rfl, hstores'⟩ := hw'
      exact ⟨_, .relationships "" hsame, hstores'⟩
    | prune project current scope =>
      simp only [answer, Build.wp_bind, Build.wp_pure]
      refine Build.wp_mono (wp_prune_server hcalm hserves hsound hstores current scope)
        (fun gone w' hw' => ?_) fun _ _ => id
      obtain ⟨rfl, hstores'⟩ := hw'
      exact ⟨_, .prune, hstores'⟩
    | counts project =>
      simp only [answer, Build.wp_bind, Build.wp_pure]
      refine Build.wp_mono (wp_counts_server hcalm hserves hsound hstores) (fun found w' hw' => ?_)
        fun _ _ => id
      obtain ⟨rfl, hstores'⟩ := hw'
      exact ⟨g, .counts, hstores'⟩
  refine Build.wp_mono hsuffices (fun answer w' hw' => ?_) fun _ _ => id
  obtain ⟨h, houtcome, hstores'⟩ := hw'
  exact ⟨h, houtcome, houtcome.isSound hsound, hstores'⟩

end GraphStore

/-! ### What two stores hold -/

namespace Cypher

/-- The key that the properties of a vertex say. -/
def Vertex.key? (v : Vertex) : Option NodeKey := do
  return ⟨← (valueOf v.properties "project").str?, ← (valueOf v.properties "id").str?⟩

namespace Database

/-- The key of the vertex with a number. -/
def keyAt? (db : Database) (number : Nat) : Option NodeKey :=
  (db.vertices.find? fun v => v.number == number).bind Vertex.key?

/-- A server holds the nodes and edges of a graph, with what they say. -/
structure Holds (db : Database) (g : Graph) : Prop where
  nodes : (db.vertices.map fun v => (v.key?, v.facts)).Perm
    (g.nodes.map fun node => (some node.1, (Fields.facts node.2).known))
  edges : (db.arcs.map fun a => (db.keyAt? a.source, db.keyAt? a.target, a.type, a.facts)).Perm
    (g.edges.map fun e => (some e.source, some e.target, e.label,
      (Fields.facts e.attributes).known))

end Database

namespace Mirrors

variable {number : NodeKey → Nat} {g h : Graph} {db : Database}

theorem key?_eq (hsound : g.IsSound) {node : NodeKey × Fields} (hnode : node ∈ g.nodes) {v : Vertex}
    (hv : IsVertexOf number node v) : v.key? = some node.1 := by
  rw [Vertex.key?, valueOf_project hsound hnode hv, valueOf_id hsound hnode hv]
  rfl

theorem keyAt?_eq (hmirrors : Mirrors number g db) (hsound : g.IsSound) {key : NodeKey}
    (hkey : g.hasNode key = true) : db.keyAt? (number key) = some key := by
  obtain ⟨node, hnode, rfl⟩ := List.mem_map.1 (Graph.hasNode_iff_mem.1 hkey)
  have hmem : number node.1 ∈ db.vertices.map Vertex.number := by
    rw [hmirrors.map_number]
    exact List.mem_map.2 ⟨node, hnode, rfl⟩
  obtain ⟨v, hv, hnumber⟩ := List.mem_map.1 hmem
  obtain ⟨node', hnode', hv'⟩ := exists_mem_of_rel hmirrors.vertices hv
  have hsame : node' = node :=
    List.inj_on_of_nodup_map hmirrors.nodup hnode' hnode (hv'.number.symm.trans hnumber)
  rw [← hnumber, Database.keyAt?, hmirrors.find?_vertex hv, Option.bind_some,
    key?_eq hsound hnode' hv', hsame]

/-- A server that stores a graph holds what it says, and what graphs say that agree with it. -/
theorem holds (hmirrors : Mirrors number g db) (hsound : g.IsSound) (hagrees : h.Agrees g) :
    db.Holds h := by
  constructor
  · have hnodes : db.vertices.map (fun v => (v.key?, v.facts)) =
        g.nodesSaid.map fun node => (some node.1, node.2.known) := by
      rw [Graph.nodesSaid, List.map_map]
      refine map_eq_of_rel_mem hmirrors.vertices fun node hnode v _ hv => ?_
      rw [key?_eq hsound hnode hv, hv.facts]
      rfl
    have hsaid := hagrees.nodesSaid_perm.map fun node => (some node.1, node.2.known)
    rw [← hnodes, Graph.nodesSaid, List.map_map] at hsaid
    exact hsaid
  · have hedges : db.arcs.map (fun a => (db.keyAt? a.source, db.keyAt? a.target, a.type, a.facts)) =
        g.edgesSaid.map fun e => (some e.1.1, some e.1.2.1, e.1.2.2, e.2.known) := by
      rw [Graph.edgesSaid, List.map_map]
      refine map_eq_of_rel_mem hmirrors.arcs fun e he a _ ha => ?_
      obtain ⟨hsource, htarget⟩ := hsound.ends e he
      rw [ha.source, ha.target, ha.type, ha.facts, hmirrors.keyAt?_eq hsound hsource,
        hmirrors.keyAt?_eq hsound htarget]
      rfl
    have hsaid := hagrees.edgesSaid_perm.map fun e => (some e.1.1, some e.1.2.1, e.1.2.2, e.2.known)
    rw [← hedges, Graph.edgesSaid, List.map_map] at hsaid
    exact hsaid

end Mirrors

end Cypher

namespace GraphStore

open Cypher

/-- The graph of a file and a server, both empty at first, agree after the same requests: they have
answered the same, up to the order of ids, and hold the same nodes and edges, up to when they were
merged.  What the server does is what the texts say that were sent to it. -/
theorem holds_after_answers (file? : Option String) (url user password : String)
    (requests : List GraphRequest) {time : List Event → Json} {outside outside' : Outside}
    (hcalm : outside.IsCalm) (hcalm' : outside'.IsCalm) (hserves : outside'.Serves time)
    {w w' : World} (hempty : w.openGraph = .empty)
    (hempty' : w'.sent = []) :
    ∃ given given' after after',
      ((file file?).answers requests).run outside w = (.ok given, after) ∧
        ((server url user password).answers requests).run outside' w' = (.ok given', after') ∧
          List.Forall₂ GraphAnswer.Agrees given given' ∧
            (Database.after time after'.events).Holds after.openGraph ∧
              ∀ s ∈ after'.sent, Text.words s.text = Text.words s.query.render := by
  have hfile : ((file file?).answers requests).wp
      (fun answers w' => ∃ h, GraphRequest.Outcomes .empty requests answers h ∧ w'.openGraph = h)
      (fun _ _ => False) outside w := by
    refine wp_answers (fun g w => w.openGraph = g) (fun g w request hg => ?_) requests hempty
    subst hg
    exact Build.wp_mono (wp_answer_file hcalm file? request)
      (fun answer w' h => ⟨w'.openGraph, h, rfl⟩) fun _ _ => id
  have hserver : ((server url user password).answers requests).wp
      (fun answers w' => ∃ h, GraphRequest.Outcomes .empty requests answers h ∧ h.IsSound ∧
        Stores time h w') (fun _ _ => False) outside' w' :=
    wp_answers (fun g w => g.IsSound ∧ Stores time g w)
      (fun g w request hg => wp_answer_server hcalm' hserves request hg.1 hg.2) requests
      ⟨Graph.isSound_empty, fun _ => 0, by
        rw [Database.after_of_sent_eq_nil time hempty']
        exact mirrors_empty _, by simp [hempty']⟩
  obtain ⟨given, after, hrun, g, hgiven, rfl⟩ := Build.exists_run_of_wp hfile
  obtain ⟨given', after', hrun', h, hgiven', hsound, number, hmirrors, hclosed⟩ :=
    Build.exists_run_of_wp hserver
  -- both have outcomes of the same requests, from the empty graph on
  obtain ⟨hagrees, hanswers⟩ := hgiven.agrees hgiven' (.refl _)
  exact ⟨given, given', after, after', hrun, hrun', hanswers, hmirrors.holds hsound hagrees,
    fun s hs => Statement.words_text (hclosed s hs)⟩

/-- Nothing is refused, and a server that began empty answers the statements. -/
def serving : Outside :=
  { Populating.quiet with
    statement := fun past s => .ok (s.serve .null (Database.after (fun _ => .null) past)).2 }

/-- Two files of which the first imports the second one, twice, and one that is not there, and links
to it; in another project is a file with the same path.  Then the second file is pruned. -/
def importRequests : List GraphRequest :=
  [.entities "p" [bareEntity "a", bareEntity "b", bareEntity "a"], .entities "q" [bareEntity "b"],
    .relationships "p"
      [⟨"1", Relationship.imports, "a", "b", []⟩, ⟨"2", Relationship.linksTo, "a", "b", []⟩,
        ⟨"3", "KNOWS", "a", "b", []⟩, ⟨"4", Relationship.imports, "a", "b", [("line", .int 1)]⟩,
        ⟨"5", Relationship.imports, "a", "c", []⟩],
    .counts "p", .prune "p" ["a"] (some ["b"]), .counts "p"]

theorem holds_after_importRequests :
    ∃ given given' after after',
      ((file .none).answers importRequests).run serving (World.ofDisk .empty []) = (.ok given, after) ∧
        ((server "bolt://localhost" "neo4j" "").answers importRequests).run serving
          (World.ofDisk .empty []) = (.ok given', after') ∧
          List.Forall₂ GraphAnswer.Agrees given given' ∧
            (Database.after (fun _ => .null) after'.events).Holds after.openGraph ∧
              ∀ s ∈ after'.sent, Text.words s.text = Text.words s.query.render :=
  holds_after_answers .none "bolt://localhost" "neo4j" "" importRequests (fun _ _ => rfl)
    (fun _ _ => rfl) (fun _ _ => rfl) rfl rfl

/-- On the server, two relationships with the same ends and type are one arc, though both count, and
its deleted end takes it away. -/
example :
    (((server "bolt://localhost" "neo4j" "").answers importRequests).run serving
        (World.ofDisk .empty [])).1.toOption.map (fun answers => answers.map fun
          | .merged n => [n]
          | .gone ids => [(ids.length : Int)]
          | .counted c => [c.nodes, c.relationships]) =
      some [[3], [1], [3], [2, 2], [1], [1, 0]] := by
  decide +kernel

end GraphStore

end RepoGraph
