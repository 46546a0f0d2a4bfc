import RepoGraph.Proofs.Server.Agreement

/-!
# What a server is sent

A call of a store on a server sends statements, and relationships in transactions.  What it sends is
planned: it is made of what the call is given and of nothing else, and a call that fails on the way
has sent a first part of it.  So the plans say what is true of every run.

Every statement of a plan has one of the fixed texts, and which texts these are depends on no string
but on the types of relationships of known type; all other strings go into parameters.  The
transactions for relationships hold at most a hundred rows each, and every relationship of known
type is one row of one of them, under its own type and in order.

Main statements: `GraphStore.sends_use`, `GraphUse.isClosed_of_mem_plan`,
`GraphUse.texts_eq_of_isLike`, `Event.carries_plan`, `GraphStore.isParameterized_server`.
-/

namespace RepoGraph

/-! ### Traffic -/

/-- Whether an event is a statement, or begins a transaction. -/
def Event.isTraffic : Event → Bool
  | statement _ => true
  | transaction _ => true
  | _ => false

/-- The statements that a server was sent and the beginnings of transactions, in order. -/
def World.traffic (w : World) : List Event := (w.events.filter Event.isTraffic).reverse

namespace Build

variable {α β : Type} {outside : Outside} {w : World} {step : Build α} {plan more : List Event}

/-- A step sends what is planned, or a first part of it if it fails. -/
def Sends (plan : List Event) (outside : Outside) (step : Build α) : Prop :=
  ∀ w, step.wp (fun _ w' => w'.traffic = w.traffic ++ plan)
    (fun _ w' => ∃ part, part <+: plan ∧ w'.traffic = w.traffic ++ part) outside w

namespace Sends

theorem pure (a : α) : Sends [] outside (Pure.pure a : Build α) := fun _ =>
  (List.append_nil _).symm

theorem fail (plan : List Event) (f : Failure) : Sends plan outside (fail f : Build α) :=
  fun _ => ⟨[], List.nil_prefix, (List.append_nil _).symm⟩

theorem take {ε : Type} (reason : ε → Failure) (answer : Except ε α) :
    Sends [] outside (take reason answer) := by
  cases answer with
  | ok a => exact pure a
  | error e => exact fail [] (reason e)

theorem get : Sends [] outside (get : Build World) := fun _ => (List.append_nil _).symm

theorem read : Sends [] outside (read : Build Outside) := fun _ => (List.append_nil _).symm

theorem modify {change : World → World} (h : ∀ w, (change w).events = w.events) :
    Sends [] outside (modify change : Build PUnit) := by
  intro w
  rw [wp_modify, World.traffic, h, List.append_nil]
  rfl

theorem note (event : Event) : Sends ([event].filter Event.isTraffic) outside (note event) := by
  intro w
  rw [wp_note, World.traffic, List.filter_cons]
  cases h : event.isTraffic with
  | true => simp [World.traffic, h]
  | false => simp [World.traffic, h]

theorem log (level : LogLevel) (channel : String) (parts : List LogPart) :
    Sends [] outside (log level channel parts) := note _

/-- An event that is attempted is sent, refused or not. -/
theorem attempt (event : Event) :
    Sends ([event].filter Event.isTraffic) outside (attempt event) := by
  have hsends : Sends ([event].filter Event.isTraffic) outside (Build.note event) := note event
  intro w
  have hnote := hsends w
  rw [wp_note] at hnote
  exact (wp_attempt event).2 ⟨fun _ => hnote, fun _ _ => ⟨_, List.prefix_refl _, hnote⟩⟩

/-- Steps that answer as is expected send what each of them sends. -/
theorem bind_of_answer {next : α → Build β} {expected : α → Prop} (h : Sends plan outside step)
    (hanswer : ∀ w, step.wp (fun a _ => expected a) (fun _ _ => True) outside w)
    (hnext : ∀ a, expected a → Sends more outside (next a)) :
    Sends (plan ++ more) outside (step >>= next) := by
  intro w
  rw [wp_bind]
  refine wp_mono (wp_and (h w) (hanswer w)) (fun a w₁ hw₁ => ?_) fun _ w₁ hw₁ => ?_
  · refine wp_mono (hnext a hw₁.2 w₁) (fun _ w₂ hw₂ => ?_) fun _ w₂ hw₂ => ?_
    · rw [hw₂, hw₁.1, List.append_assoc]
    · obtain ⟨part, hpart, hw₂⟩ := hw₂
      exact ⟨plan ++ part, (List.prefix_append_right_inj plan).2 hpart,
        by rw [hw₂, hw₁.1, List.append_assoc]⟩
  · obtain ⟨⟨part, hpart, hw₁⟩, -⟩ := hw₁
    exact ⟨part, hpart.trans (List.prefix_append plan more), hw₁⟩

theorem bind {next : α → Build β} (h : Sends plan outside step)
    (hnext : ∀ a, Sends more outside (next a)) : Sends (plan ++ more) outside (step >>= next) :=
  h.bind_of_answer (fun _ => wp_true step) fun a _ => hnext a

theorem bind_quiet {next : α → Build β} (h : Sends plan outside step)
    (hnext : ∀ a, Sends [] outside (next a)) : Sends plan outside (step >>= next) := by
  have hboth := h.bind hnext
  rwa [List.append_nil] at hboth

theorem quiet_bind_of_answer {next : α → Build β} {expected : α → Prop} (h : Sends [] outside step)
    (hanswer : ∀ w, step.wp (fun a _ => expected a) (fun _ _ => True) outside w)
    (hnext : ∀ a, expected a → Sends plan outside (next a)) : Sends plan outside (step >>= next) :=
  h.bind_of_answer hanswer hnext

theorem quiet_bind {next : α → Build β} (h : Sends [] outside step)
    (hnext : ∀ a, Sends plan outside (next a)) : Sends plan outside (step >>= next) :=
  h.bind hnext

theorem map (h : Sends plan outside step) (f : α → β) : Sends plan outside (f <$> step) :=
  fun w => (wp_map step f).2 (h w)

/-- A loop sends what its rounds send, in order. -/
theorem foldlM {items : List α} {next : β → α → Build β} {plans : α → List Event}
    (h : ∀ b, ∀ item ∈ items, Sends (plans item) outside (next b item)) (b : β) :
    Sends (items.flatMap plans) outside (items.foldlM next b) := by
  induction items generalizing b with
  | nil => exact pure b
  | cons item rest ih =>
    rw [List.foldlM_cons, List.flatMap_cons]
    exact (h b item List.mem_cons_self).bind fun b' =>
      ih (fun b other hother => h b other (List.mem_cons_of_mem _ hother)) b'

theorem forM {items : List α} {next : α → Build PUnit} {plans : α → List Event}
    (h : ∀ item ∈ items, Sends (plans item) outside (next item)) :
    Sends (items.flatMap plans) outside (items.forM next) := by
  induction items with
  | nil => exact pure _
  | cons item rest ih =>
    rw [List.flatMap_cons]
    exact (h item List.mem_cons_self).bind fun _ =>
      ih fun other hother => h other (List.mem_cons_of_mem _ hother)

end Sends

end Build

/-! ### Plans -/

/-- What a batch of relationships is sent as: a transaction with a statement for each type. -/
def Relationship.transaction (project : String) (batch : List Relationship) : List Event :=
  .transaction batch.length :: (EdgeRow.grouped batch).map fun group =>
    .statement (.mergeEdges project group.1 group.2)

/-- A call of a graph store: it is made ready for use, or it is asked something. -/
inductive GraphUse where
  /-- Index the nodes. -/
  | prepare
  /-- Answer a request. -/
  | ask (request : GraphRequest)

/-- What a store on a server sends. -/
def GraphUse.plan : GraphUse → List Event
  | prepare => Statement.indexedProperties.map fun property => .statement (.index property)
  | ask (.entities project entities) => (Batch.split GraphStore.batchSize entities).map fun batch =>
      .statement (.mergeNodes project (batch.map Enriched.properties))
  | ask (.relationships project relationships) =>
    (Batch.split GraphStore.batchSize (GraphStore.knownOf relationships)).flatMap
      (Relationship.transaction project)
  | ask (.prune project current scope) => [.statement (.prune project current scope)]
  | ask (.counts project) => [.statement (.countNodes project), .statement (.countEdges project)]

namespace GraphStore

variable {outside : Outside} {url user password project : String}

/-- What a call does. -/
def use (store : GraphStore) : GraphUse → Build Unit
  | .prepare => store.prepare
  | .ask request => discard (store.answer request)

/-! ### Sending as planned -/

theorem sends_connect : (connect url user password).Sends [] outside := by
  refine .quiet_bind .get fun w => ?_
  split
  · exact .quiet_bind (.attempt _) fun _ => .modify fun _ => rfl
  · exact .pure _

theorem sends_send (s : Statement) : (send s).Sends [.statement s] outside :=
  .quiet_bind .get fun _ => .bind_quiet (.attempt _) fun _ => .quiet_bind .read fun _ => .take _ _

theorem sends_knownOnly (relationships : List Relationship) :
    (knownOnly relationships).Sends [] outside := by
  induction relationships with
  | nil => exact .pure []
  | cons r rest ih =>
    rw [knownOnly]
    split
    · exact .quiet_bind ih fun _ => .pure _
    · exact .quiet_bind (.log _ _ _) fun _ => ih

/-- A batch of relationships is sent as planned. -/
theorem sends_sendBatch (batch : List Relationship) :
    (sendBatch project batch).Sends (Relationship.transaction project batch) outside := by
  have hrows : (EdgeRow.grouped batch).map (fun group => Event.statement
      (.mergeEdges project group.1 group.2)) = (EdgeRow.grouped batch).flatMap fun group =>
        [.statement (.mergeEdges project group.1 group.2)] := by
    rw [List.map_eq_flatMap]
  rw [Relationship.transaction, hrows]
  refine (Build.Sends.attempt (.transaction batch.length)).bind fun _ =>
    .foldlM (fun made group _ => ?_) 0
  exact .bind_quiet (sends_send _) fun _ => .pure _

/-- The batches that are counted are those that a list is split into. -/
theorem flatMap_counted {α β : Type} (size : Nat) (items : List α) (f : List α → List β) :
    (Batch.counted size items).flatMap (fun batch => f batch.1) =
      (Batch.split size items).flatMap f := by
  rw [← Batch.map_fst_go 0 (Batch.split size items), List.flatMap_map]
  rfl

/-- Merging relationships sends the batches of those of known type. -/
theorem sends_upsertRelationships (relationships : List Relationship) :
    ((server url user password).upsertRelationships project relationships).Sends
      ((Batch.split batchSize (knownOf relationships)).flatMap (Relationship.transaction project))
      outside := by
  have hknown (w : World) : (knownOnly relationships).wp
      (fun known _ => known = knownOf relationships)
      (fun _ _ => True) outside w := wp_knownOnly fun _ => rfl
  refine (sends_knownOnly relationships).quiet_bind_of_answer hknown ?_
  rintro known rfl
  rw [← flatMap_counted]
  refine .quiet_bind (.log _ _ _) fun _ => .quiet_bind sends_connect fun _ =>
    .foldlM (fun made batch _ => ?_) 0
  exact .bind_quiet (sends_sendBatch batch.1) fun more => .quiet_bind (.log _ _ _) fun _ => .pure _

/-- A store on a server sends what is planned for a call. -/
theorem sends_use (call : GraphUse) :
    ((server url user password).use call).Sends call.plan outside := by
  cases call with
  | prepare =>
    rw [GraphUse.plan, List.map_eq_flatMap]
    refine .quiet_bind sends_connect fun _ => .bind_quiet (.forM fun property _ => ?_) fun _ =>
      .log _ _ _
    exact .bind_quiet (sends_send _) fun _ => .pure _
  | ask request =>
    refine .map ?_ _
    cases request with
    | entities project entities =>
      rw [GraphUse.plan, List.map_eq_flatMap, ← flatMap_counted]
      refine .bind_quiet (.quiet_bind sends_connect fun _ => .quiet_bind (.log _ _ _) fun _ =>
        .bind_quiet (.forM fun batch _ => ?_) fun _ => .pure _) fun _ => .pure _
      exact .bind_quiet (sends_send _) fun _ => .log _ _ _
    | relationships project relationships =>
      exact .bind_quiet (sends_upsertRelationships relationships) fun _ => .pure _
    | prune project current scope =>
      exact .bind_quiet (.quiet_bind sends_connect fun _ => .bind_quiet (sends_send _) fun _ =>
        .quiet_bind (.log _ _ _) fun _ => .pure _) fun _ => .pure _
    | counts project =>
      exact .bind_quiet (.quiet_bind sends_connect fun _ => (sends_send _).bind fun _ =>
        .bind_quiet (sends_send _) fun _ => .pure _) fun _ => .pure _

end GraphStore

/-! ### Texts -/

/-- The statements among some events. -/
def Event.statements (events : List Event) : List Statement :=
  events.filterMap fun
    | .statement s => some s
    | _ => none

theorem Event.statements_append (events more : List Event) :
    statements (events ++ more) = statements events ++ statements more := List.filterMap_append

theorem Event.statements_flatMap {α : Type} (f : α → List Event) (as : List α) :
    statements (as.flatMap f) = as.flatMap fun a => statements (f a) := List.filterMap_flatMap

theorem Event.statements_map {α : Type} (f : α → Statement) (as : List α) :
    statements (as.map fun a => .statement (f a)) = as.map f := by
  rw [statements, List.filterMap_map]
  change List.filterMap (some ∘ f) as = _
  rw [List.filterMap_eq_map]

/-- The statements of a transaction have the types of the batch. -/
theorem EdgeRow.isKnownType_of_mem_grouped {batch : List Relationship}
    (hknown : ∀ r ∈ batch, Relationship.isKnownType r.type = true) {group : String × List EdgeRow}
    (hgroup : group ∈ grouped batch) : Relationship.isKnownType group.1 = true := by
  obtain ⟨labels, -, hlabels, hgrouped⟩ := grouped_eq batch
  rw [hgrouped, List.mem_map] at hgroup
  obtain ⟨label, hlabel, rfl⟩ := hgroup
  obtain ⟨r, hr, rfl⟩ := (hlabels label).1 hlabel
  exact hknown r hr

namespace GraphUse

/-- The batches of relationships of known type have known types. -/
theorem isKnownType_of_mem_split {relationships batch : List Relationship}
    (hbatch : batch ∈ Batch.split GraphStore.batchSize (GraphStore.knownOf relationships)) :
    ∀ r ∈ batch, Relationship.isKnownType r.type = true := by
  intro r hr
  have hknown : r ∈ GraphStore.knownOf relationships := by
    rw [← Batch.flatten_split GraphStore.batchSize (GraphStore.knownOf relationships)]
    exact List.mem_flatten.2 ⟨batch, hbatch, hr⟩
  exact GraphStore.isKnownType_of_mem_knownOf r hknown

/-- Every statement that is planned names only indexed properties and known types. -/
theorem isClosed_of_mem_plan {call : GraphUse} {s : Statement} (hs : .statement s ∈ call.plan) :
    s.isClosed = true := by
  cases call with
  | prepare =>
    obtain ⟨property, hproperty, heq⟩ := List.mem_map.1 hs
    cases heq
    simpa [Statement.isClosed] using hproperty
  | ask request =>
    cases request with
    | entities project entities =>
      obtain ⟨batch, -, heq⟩ := List.mem_map.1 hs
      cases heq
      rfl
    -- a type stands in the text of its statement, so only known types may be grouped
    | relationships project relationships =>
      obtain ⟨batch, hbatch, hs⟩ := List.mem_flatMap.1 hs
      rw [Relationship.transaction, List.mem_cons] at hs
      obtain hs | hs := hs
      · cases hs
      · obtain ⟨group, hgroup, heq⟩ := List.mem_map.1 hs
        cases heq
        exact EdgeRow.isKnownType_of_mem_grouped (isKnownType_of_mem_split hbatch) hgroup
    | prune project current scope =>
      cases List.mem_singleton.1 hs
      rfl
    | counts project =>
      obtain hs | hs := List.mem_cons.1 hs
      · cases hs
        rfl
      · cases List.mem_singleton.1 hs
        rfl

end GraphUse

/-! ### Texts do not depend on strings -/

/-- The different types in a list, in order. -/
def Relationship.labels (types : List String) : List String :=
  types.foldl (fun labels type => if type ∈ labels then labels else labels ++ [type]) []

namespace EdgeRow

theorem map_fst_addTo (label : String) (row : EdgeRow) (groups : List (String × List EdgeRow)) :
    (addTo label row groups).map Prod.fst =
      if label ∈ groups.map Prod.fst then groups.map Prod.fst
        else groups.map Prod.fst ++ [label] := by
  induction groups with
  | nil => rfl
  | cons group rest ih =>
    obtain ⟨l, rows⟩ := group
    rw [addTo]
    by_cases hl : l = label
    · simp [hl]
    · have hne : (l == label) = false := by simpa using hl
      have hne' : ¬ label = l := fun h => hl h.symm
      simp only [hne, Bool.false_eq_true, if_false, List.map_cons, ih, List.mem_cons,
        hne', false_or]
      split <;> rfl

/-- The labels of the groups depend on types only. -/
theorem map_fst_grouped (relationships : List Relationship) :
    (grouped relationships).map Prod.fst = Relationship.labels
      (relationships.map Relationship.type) := by
  rw [grouped, Relationship.labels, List.foldl_map]
  refine (List.foldl_hom (List.map Prod.fst) fun groups r => ?_).symm
  rw [map_fst_addTo]

end EdgeRow

/-- Whether two calls differ in their strings only, and in unknown types and what belongs to them:
they give as many entities, the same known types in the same order, or both a scope or none. -/
inductive GraphUse.IsLike : GraphUse → GraphUse → Prop where
  | prepare : IsLike prepare prepare
  | entities {project project' : String} {entities entities' : List Enriched}
      (h : entities.length = entities'.length) :
      IsLike (ask (.entities project entities)) (ask (.entities project' entities'))
  | relationships {project project' : String} {relationships relationships' : List Relationship}
      (h : (GraphStore.knownOf relationships).map Relationship.type =
        (GraphStore.knownOf relationships').map Relationship.type) :
      IsLike (ask (.relationships project relationships))
        (ask (.relationships project' relationships'))
  | prune {project project' : String} {current current' : List String}
      {scope scope' : Option (List String)} (h : scope.isSome = scope'.isSome) :
      IsLike (ask (.prune project current scope)) (ask (.prune project' current' scope'))
  | counts {project project' : String} : IsLike (ask (.counts project)) (ask (.counts project'))

namespace GraphUse

/-- The texts that are planned for a call. -/
def texts (call : GraphUse) : List String := (Event.statements call.plan).map Statement.text

theorem texts_entities (project : String) (entities : List Enriched) :
    texts (ask (.entities project entities)) =
      (Batch.split GraphStore.batchSize (entities.map fun _ => ())).map fun _ =>
        Statement.mergeNodesText := by
  rw [texts, plan, Event.statements_map, List.map_map, Batch.split_map, List.map_map]
  rfl

theorem texts_relationships (project : String) (relationships : List Relationship) :
    texts (ask (.relationships project relationships)) =
      (Batch.split GraphStore.batchSize
        ((GraphStore.knownOf relationships).map Relationship.type)).flatMap fun types =>
          (Relationship.labels types).map Statement.mergeEdgesText := by
  have htransaction (batch : List Relationship) :
      (Event.statements (Relationship.transaction project batch)).map Statement.text =
        (Relationship.labels (batch.map Relationship.type)).map Statement.mergeEdgesText := by
    have hstatements : Event.statements (Relationship.transaction project batch) =
        (EdgeRow.grouped batch).map fun group => .mergeEdges project group.1 group.2 :=
      Event.statements_map _ (EdgeRow.grouped batch)
    rw [← EdgeRow.map_fst_grouped, hstatements, List.map_map, List.map_map]
    rfl
  rw [texts, plan, Event.statements_flatMap, List.map_flatMap, Batch.split_map, List.flatMap_map]
  exact List.flatMap_congr fun batch _ => htransaction batch

/-- Calls that differ in their strings only send the same texts. -/
theorem texts_eq_of_isLike {call call' : GraphUse} (h : call.IsLike call') :
    call.texts = call'.texts := by
  cases h with
  | prepare => rfl
  | entities h =>
    rw [texts_entities, texts_entities]
    simp only [List.map_const', h]
  | relationships h => rw [texts_relationships, texts_relationships, h]
  | prune h => exact congrArg (fun isScoped => [Statement.pruneText isScoped]) h
  | counts => rfl

end GraphUse

/-! ### Rows -/

/-- The row of a relationship, with its type. -/
def Relationship.labelled (r : Relationship) : String × EdgeRow := (r.type, .ofRelationship r)

/-- The rows for relationships in a statement, each with the type that it is merged under. -/
def Statement.edgeRows : Statement → List (String × EdgeRow)
  | mergeEdges _ label rows => rows.map fun row => (label, row)
  | _ => []

/-- The statements that are sent before the first transaction, and those of each transaction. -/
def Event.inTransactions : List Event → List Statement × List (List Statement)
  | [] => ([], [])
  | .statement s :: rest => (s :: (inTransactions rest).1, (inTransactions rest).2)
  | .transaction _ :: rest => ([], (inTransactions rest).1 :: (inTransactions rest).2)
  | _ :: rest => inTransactions rest

/-- What is sent carries relationships: those of known type and no others, in transactions of a
limited size. -/
structure Event.Carries (relationships : List Relationship) (sent : List Event) : Prop where
  /-- Nothing is sent outside a transaction. -/
  inside : (inTransactions sent).1 = []
  /-- A transaction has at most a hundred rows. -/
  size_le : ∀ statements ∈ (inTransactions sent).2,
    (statements.flatMap Statement.edgeRows).length ≤ 100
  /-- Every relationship of known type is one row of one statement, under its type, and every row is
  one of them. -/
  rows_perm : ((statements sent).flatMap Statement.edgeRows).Perm
    ((GraphStore.knownOf relationships).map Relationship.labelled)
  /-- The rows under a type are in order. -/
  rows_eq : ∀ type, ((statements sent).flatMap Statement.edgeRows).filter
    (fun row => row.1 == type) =
    ((GraphStore.knownOf relationships).filter fun r => r.type == type).map Relationship.labelled

namespace Relationship

/-- The rows of a batch are its relationships, those of one type together. -/
theorem exists_edgeRows_transaction (project : String) (batch : List Relationship) :
    ∃ others, SameByType batch others ∧
      (Event.statements (transaction project batch)).flatMap Statement.edgeRows =
        others.map labelled := by
  obtain ⟨labels, hnodup, hlabels, hgrouped⟩ := EdgeRow.grouped_eq batch
  refine ⟨_, sameByType_flatMap hnodup fun r hr => (hlabels _).2 ⟨r, hr, rfl⟩, ?_⟩
  have hstatements : Event.statements (transaction project batch) =
      (EdgeRow.grouped batch).map fun group => .mergeEdges project group.1 group.2 :=
    Event.statements_map _ (EdgeRow.grouped batch)
  rw [hstatements, hgrouped, List.map_map, List.flatMap_map, List.map_flatMap]
  refine List.flatMap_congr fun label _ => ?_
  simp only [Function.comp_apply, EdgeRow.ofType, Statement.edgeRows, List.map_map]
  refine List.map_congr_left fun r hr => ?_
  rw [Function.comp_apply, labelled, ← beq_iff_eq.1 (List.mem_filter.1 hr).2]

theorem exists_edgeRows_transactions (project : String) (batches : List (List Relationship)) :
    ∃ others, SameByType batches.flatten others ∧
      (Event.statements (batches.flatMap (transaction project))).flatMap Statement.edgeRows =
        others.map labelled := by
  induction batches with
  | nil => exact ⟨[], .refl [], rfl⟩
  | cons batch rest ih =>
    obtain ⟨others, hsame, hrows⟩ := exists_edgeRows_transaction project batch
    obtain ⟨more, hmore, hrest⟩ := ih
    refine ⟨others ++ more, hsame.append hmore, ?_⟩
    rw [List.flatMap_cons, Event.statements_append, List.flatMap_append, hrows, hrest,
      List.map_append]

end Relationship

namespace Event

theorem inTransactions_map {α : Type} (f : α → Statement) (as : List α) (rest : List Event) :
    inTransactions ((as.map fun a => .statement (f a)) ++ rest) =
      (as.map f ++ (inTransactions rest).1, (inTransactions rest).2) := by
  induction as with
  | nil => rfl
  | cons a more ih => rw [List.map_cons, List.cons_append, inTransactions, ih]; rfl

/-- The statements of the transactions for some batches are those of each batch. -/
theorem inTransactions_flatMap (project : String) (batches : List (List Relationship)) :
    inTransactions (batches.flatMap (Relationship.transaction project)) =
      ([], batches.map fun batch => statements (Relationship.transaction project batch)) := by
  induction batches with
  | nil => rfl
  | cons batch rest ih =>
    have hstatements : statements (Relationship.transaction project batch) =
        (EdgeRow.grouped batch).map fun group => .mergeEdges project group.1 group.2 :=
      statements_map _ (EdgeRow.grouped batch)
    rw [List.flatMap_cons, Relationship.transaction, List.cons_append, inTransactions,
      inTransactions_map, ih, List.append_nil, List.map_cons, hstatements]

/-- What is planned for relationships carries them. -/
theorem carries_plan (project : String) (relationships : List Relationship) :
    Carries relationships (GraphUse.ask (.relationships project relationships)).plan := by
  rw [GraphUse.plan]
  obtain ⟨others, hsame, hrows⟩ := Relationship.exists_edgeRows_transactions project
    (Batch.split GraphStore.batchSize (GraphStore.knownOf relationships))
  rw [Batch.flatten_split] at hsame
  refine ⟨?_, fun sent hsent => ?_, ?_, fun type => ?_⟩
  · rw [inTransactions_flatMap]
  · rw [inTransactions_flatMap, List.mem_map] at hsent
    obtain ⟨batch, hbatch, rfl⟩ := hsent
    obtain ⟨others, hsame, hrows⟩ := Relationship.exists_edgeRows_transaction project batch
    rw [hrows, List.length_map, hsame.perm.length_eq]
    exact Batch.length_le_of_mem_split (by decide) hbatch
  · rw [hrows]
    exact hsame.perm.map _
  · rw [hrows, List.filter_map, ← hsame]
    rfl

end Event

/-! ### A store on a server -/

namespace GraphStore

/-- Calls one after the other, whether they fail or not. -/
def useAll (store : GraphStore) (calls : List GraphUse) : Build Unit :=
  calls.forM fun call => discard (Build.outcome (store.use call))

/-- A store sends fixed texts only: what comes from a repository goes into parameters. -/
structure IsParameterized (store : GraphStore) (outside : Outside) : Prop where
  /-- Of all statements that are sent in any calls, whether they fail or not, the text is one of the
  fixed ones. -/
  text_mem : ∀ (calls : List GraphUse) (w : World), ∃ sent,
    ((store.useAll calls).run outside w).2.traffic = w.traffic ++ sent ∧
      ∀ s, .statement s ∈ sent → s.text ∈ Statement.texts
  /-- What a call sends is planned from what it is given. -/
  sends : ∀ call : GraphUse, (store.use call).Sends call.plan outside
  /-- Calls that differ in their strings only send the same texts. -/
  texts_eq : ∀ call call' : GraphUse, call.IsLike call' → call.texts = call'.texts
  /-- Merging relationships to the end carries them. -/
  carries : ∀ (project : String) (relationships : List Relationship) (w : World) (merged : Int),
    ((store.upsertRelationships project relationships).run outside w).1.toOption = some merged →
      ∃ sent, ((store.upsertRelationships project relationships).run outside w).2.traffic =
          w.traffic ++ sent ∧ Event.Carries relationships sent

/-- Calls one after the other send statements with fixed texts. -/
theorem text_mem_of_useAll (calls : List GraphUse) (w : World) : ∃ sent,
    (((server url user password).useAll calls).run outside w).2.traffic = w.traffic ++ sent ∧
      ∀ s, .statement s ∈ sent → s.text ∈ Statement.texts := by
  refine Build.of_wp (Build.wp_forM (fun _ w' => ∃ sent, w'.traffic = w.traffic ++ sent ∧
    ∀ s, .statement s ∈ sent → s.text ∈ Statement.texts) (fun before call after _ w₁ hw₁ => ?_)
    ⟨[], (List.append_nil _).symm, fun s hs => by cases hs⟩)
  obtain ⟨sent, hsent, htexts⟩ := hw₁
  -- whether the call fails or not, what it sends is part of its plan
  have hpart (w₂ : World) (part : List Event) (hpart : part <+: call.plan)
      (hw₂ : w₂.traffic = w₁.traffic ++ part) : ∃ sent, w₂.traffic = w.traffic ++ sent ∧
        ∀ s, .statement s ∈ sent → s.text ∈ Statement.texts := by
    refine ⟨sent ++ part, by rw [hw₂, hsent, List.append_assoc], fun s hs => ?_⟩
    obtain hs | hs := List.mem_append.1 hs
    · exact htexts s hs
    · exact Statement.text_mem_texts (GraphUse.isClosed_of_mem_plan (hpart.subset hs))
  rw [wp_discard, Build.wp_outcome]
  refine Build.wp_mono (sends_use call w₁) (fun _ w₂ hw₂ => ?_) fun _ w₂ hw₂ => ?_
  · exact hpart w₂ _ (List.prefix_refl _) hw₂
  · obtain ⟨part, hprefix, hw₂⟩ := hw₂
    exact hpart w₂ part hprefix hw₂

/-- A store on a server sends fixed texts only, whatever it is asked and whatever comes in its way;
and the relationships of known type are sent, each once. -/
theorem isParameterized_server (url user password : String) (outside : Outside) :
    (server url user password).IsParameterized outside where
  text_mem := text_mem_of_useAll
  sends := sends_use
  texts_eq _ _ := GraphUse.texts_eq_of_isLike
  carries project relationships w _ hrun :=
    ⟨_, Build.of_wp_of_toOption (sends_upsertRelationships relationships w) hrun,
      Event.carries_plan project relationships⟩

end GraphStore

end RepoGraph
