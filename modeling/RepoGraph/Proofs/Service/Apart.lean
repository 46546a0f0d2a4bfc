import RepoGraph.Proofs.Twin.Apart

/-!
# Builds apart from the service

The parts of a build know nothing of the service that has them done.  `Build.IsApart` says that a
step leaves the service as it is, whatever else it does, whether it fails or not and whatever
happens outside.

Main statements: `Stages.IsApart.perform`, `Settings.isApart_stages`.
-/

namespace RepoGraph

/-! ### Steps -/

namespace Build

variable {α β : Type} {step step' : Build α}

/-- Whether a step leaves the service as it is. -/
def IsApart (step : Build α) : Prop := ∀ outside w, (step.run outside w).2.service = w.service

theorem isApart_of_wp (h : ∀ outside w, step.wp (fun _ w' => w'.service = w.service)
    (fun _ w' => w'.service = w.service) outside w) : step.IsApart :=
  fun outside w => of_wp (h outside w)

namespace IsApart

theorem wp (h : step.IsApart) {outside : Outside} {w : World} :
    step.wp (fun _ w' => w'.service = w.service)
      (fun _ w' => w'.service = w.service) outside w := by
  have hrun := h outside w
  unfold Build.wp
  generalize step.run outside w = ending at hrun ⊢
  obtain ⟨_ | _, after⟩ := ending <;> exact hrun

theorem pure (a : α) : (Pure.pure a : Build α).IsApart := fun _ _ => rfl

theorem fail (f : Failure) : (fail f : Build α).IsApart := fun _ _ => rfl

theorem take {ε : Type} (reason : ε → Failure) (answer : Except ε α) :
    (take reason answer).IsApart := by
  cases answer with
  | ok a => exact pure a
  | error e => exact fail (reason e)

theorem get : (get : Build World).IsApart := fun _ _ => rfl

theorem read : (read : Build Outside).IsApart := fun _ _ => rfl

theorem modify {f : World → World} (h : ∀ w, (f w).service = w.service) :
    (modify f : Build PUnit).IsApart :=
  fun _ w => h w

theorem bind {next : α → Build β} (h : step.IsApart) (hnext : ∀ a, (next a).IsApart) :
    (step >>= next).IsApart := by
  refine isApart_of_wp fun outside w => ?_
  rw [wp_bind]
  refine wp_mono h.wp (fun a w₁ hw₁ => ?_) fun _ _ h => h
  exact wp_mono (hnext a).wp (fun _ _ hw₂ => hw₂.trans hw₁) fun _ _ hw₂ => hw₂.trans hw₁

/-- What comes after the world was asked for. -/
theorem get_bind {next : World → Build α}
    (h : ∀ outside w, ((next w).run outside w).2.service = w.service) :
    (MonadState.get >>= next).IsApart := by
  intro outside w
  rw [run_bind]
  exact h outside w

theorem ite {c : Prop} [Decidable c] (h : step.IsApart) (h' : step'.IsApart) :
    (if c then step else step').IsApart := by
  split
  · exact h
  · exact h'

theorem note (event : Event) : (note event).IsApart := fun _ _ => rfl

theorem log (level : LogLevel) (channel : String) (parts : List LogPart) :
    (log level channel parts).IsApart := fun _ _ => rfl

theorem now : now.IsApart := fun _ _ => rfl

theorem stamp : stamp.IsApart := fun _ _ => rfl

theorem attempt (event : Event) : (attempt event).IsApart :=
  isApart_of_wp fun _ _ => (wp_attempt event).2 ⟨fun _ => rfl, fun _ _ => rfl⟩

theorem ensuring {after : Build Unit} (h : step.IsApart) (hafter : after.IsApart) :
    (ensuring step after).IsApart := by
  refine isApart_of_wp fun outside w => (wp_ensuring step after).2 ?_
  exact wp_mono h.wp
    (fun _ _ hw₁ => wp_mono hafter.wp (fun _ _ hw₂ => hw₂.trans hw₁) fun _ _ hw₂ => hw₂.trans hw₁)
    fun _ _ hw₁ => wp_mono hafter.wp (fun _ _ hw₂ => hw₂.trans hw₁) fun _ _ hw₂ => hw₂.trans hw₁

theorem forM {step : α → Build Unit} (h : ∀ a, (step a).IsApart) (items : List α) :
    (items.forM step).IsApart := by
  induction items with
  | nil => exact .pure _
  | cons item rest ih => exact (h item).bind fun _ => ih

theorem foldlM {step : β → α → Build β} (h : ∀ b a, (step b a).IsApart) (items : List α) (b : β) :
    (items.foldlM step b).IsApart := by
  induction items generalizing b with
  | nil => exact .pure _
  | cons item rest ih =>
    rw [List.foldlM_cons]
    exact (h b item).bind ih

end IsApart

end Build

/-! ### The stores -/

open Build (IsApart)

namespace GraphStore

variable {store : GraphStore} {project : String}

theorem isApart_connect (url user password : String) : (connect url user password).IsApart :=
  IsApart.get.bind fun _ =>
    .ite ((IsApart.attempt _).bind fun _ => .modify fun _ => rfl) (.pure _)

theorem isApart_send (s : Statement) : (send s).IsApart :=
  IsApart.get.bind fun _ => (IsApart.attempt _).bind fun _ => IsApart.read.bind fun _ => .take _ _

theorem isApart_openStore : store.openStore.IsApart := by
  cases store with
  | file path =>
    cases path with
    | none => exact .modify fun _ => rfl
    | some path =>
      refine Build.isApart_of_wp fun outside w => ?_
      by_cases hpath : path = ""
      · simp [openStore, hpath]
      · exact Build.wp_mono (wp_openStore hpath)
          (fun _ _ h => h.service_eq) fun _ _ h => h.service_eq
  | server url user password => exact .modify fun _ => rfl
  | none => exact .pure _

theorem isApart_close : store.close.IsApart := by
  cases store with
  | file path =>
    cases path with
    | none => exact .pure _
    | some path =>
      refine .ite (.pure _) (Build.isApart_of_wp fun _ _ => ?_)
      refine Build.wp_mono wp_save (fun _ _ h => ?_) fun _ _ h => ?_
      · obtain ⟨_, _, _, rfl⟩ := h
        rfl
      · obtain ⟨_, _, _, rfl⟩ := h
        rfl
  | server url user password =>
    exact IsApart.get.bind fun _ =>
      .ite ((IsApart.note _).bind fun _ => .modify fun _ => rfl) (.pure _)
  | none => exact .pure _

theorem isApart_prepare : store.prepare.IsApart := by
  cases store with
  | file path => exact .pure _
  | server url user password =>
    refine (isApart_connect _ _ _).bind fun _ => ?_
    exact (IsApart.forM (fun _ => (isApart_send _).bind fun _ => .pure _) _).bind
      fun _ => .log _ _ _
  | none => exact .fail _

theorem isApart_mergeBatch (batch : List Enriched) : (mergeBatch project batch).IsApart :=
  (IsApart.attempt _).bind fun _ => IsApart.stamp.bind fun _ => .modify fun _ => rfl

theorem isApart_upsertEntities (entities : List Enriched) :
    (store.upsertEntities project entities).IsApart := by
  cases store with
  | file path =>
    refine (IsApart.forM (fun batch => ?_) _).bind fun _ => .pure _
    exact (isApart_mergeBatch batch.1).bind fun _ => .log _ _ _
  | server url user password =>
    refine (isApart_connect _ _ _).bind fun _ => (IsApart.log _ _ _).bind fun _ => ?_
    refine (IsApart.forM (fun batch => ?_) _).bind fun _ => .pure _
    exact (isApart_send _).bind fun _ => .log _ _ _
  | none => exact .fail _

theorem isApart_knownOnly (relationships : List Relationship) : (knownOnly relationships).IsApart :=
  Build.isApart_of_wp fun _ _ => wp_knownOnly fun _ => rfl

theorem isApart_mergeOpen (relationships : List Relationship) :
    (mergeOpen project relationships).IsApart :=
  (IsApart.attempt _).bind fun _ => IsApart.stamp.bind fun _ => .get_bind fun _ _ => rfl

theorem isApart_sendBatch (batch : List Relationship) : (sendBatch project batch).IsApart :=
  (IsApart.attempt _).bind fun _ => .foldlM (fun _ _ => (isApart_send _).bind fun _ => .pure _) _ _

theorem isApart_upsertRelationships (relationships : List Relationship) :
    (store.upsertRelationships project relationships).IsApart := by
  cases store with
  | file path =>
    exact (isApart_knownOnly _).bind fun known => (isApart_mergeOpen known).bind fun _ => .pure _
  | server url user password =>
    refine (isApart_knownOnly _).bind fun known => (IsApart.log _ _ _).bind fun _ => ?_
    refine (isApart_connect _ _ _).bind fun _ => .foldlM (fun made batch => ?_) _ _
    exact (isApart_sendBatch batch.1).bind fun _ => (IsApart.log _ _ _).bind fun _ => .pure _
  | none => exact .fail _

theorem isApart_prune (current : List String) (scope : Option (List String)) :
    (store.prune project current scope).IsApart := by
  cases store with
  | file path => exact (IsApart.attempt _).bind fun _ => .get_bind fun _ _ => rfl
  | server url user password =>
    refine (isApart_connect _ _ _).bind fun _ => (isApart_send _).bind fun _ => ?_
    exact (IsApart.log _ _ _).bind fun _ => .pure _
  | none => exact .fail _

end GraphStore

namespace VectorStore

variable {v : VectorStore}

theorem isApart_openStore : v.openStore.IsApart := .ite (.modify fun _ => rfl) (.pure _)

theorem isApart_connect : v.connect.IsApart :=
  IsApart.get.bind fun _ =>
    .ite ((IsApart.attempt _).bind fun _ => .modify fun _ => rfl) (.pure _)

theorem isApart_close : v.close.IsApart :=
  IsApart.get.bind fun _ => .ite ((IsApart.note _).bind fun _ => .modify fun _ => rfl) (.pure _)

theorem isApart_present : v.present.IsApart :=
  IsApart.get.bind fun w => by
    cases w.collections.get? v.collection with
    | some c => exact .pure _
    | none => exact .fail _

theorem isApart_change (call : VectorCall) (f : Collection → Collection) :
    (v.change call f).IsApart :=
  (IsApart.attempt _).bind fun _ => isApart_present.bind fun _ => .modify fun _ => rfl

theorem isApart_ensure : v.ensure.IsApart := by
  refine isApart_connect.bind fun _ => IsApart.get.bind fun w => ?_
  cases w.collections.get? v.collection with
  | none =>
    refine (IsApart.attempt _).bind fun _ => IsApart.bind (.modify fun _ => rfl) fun _ => ?_
    exact .log _ _ _
  | some c => exact .ite ((IsApart.log _ _ _).bind fun _ => .fail _) (.pure _)

theorem isApart_pointsOf (entities : List Enriched) : (v.pointsOf entities).IsApart :=
  Build.isApart_of_wp fun _ _ => wp_pointsOf fun _ => rfl

theorem isApart_upsertEntities (entities : List Enriched) :
    (v.upsertEntities entities).IsApart := by
  refine (isApart_pointsOf _).bind fun points => .ite ((IsApart.log _ _ _).bind fun _ => .pure _) ?_
  refine isApart_connect.bind fun _ => (IsApart.forM (fun batch => ?_) _).bind fun _ => .pure _
  exact (isApart_change _ _).bind fun _ => .log _ _ _

theorem isApart_deleteEntities (ids : List String) : (v.deleteEntities ids).IsApart :=
  .ite (.pure _) <| isApart_connect.bind fun _ =>
    (IsApart.forM (fun _ => isApart_change _ _) _).bind fun _ => .pure _

end VectorStore

/-! ### The parts of a build -/

namespace Staging

/-- A step that changes files at most. -/
theorem Alters.isApart {α : Type} {step : Build α} {places : World → List Place}
    (h : ∀ outside w, step.wp (fun _ w' => Alters (places w) w w')
      (fun _ w' => Alters (places w) w w')
      outside w) : step.IsApart :=
  Build.isApart_of_wp fun outside w =>
    Build.wp_mono (h outside w) (fun _ _ hw => hw.service_eq) fun _ _ hw => hw.service_eq

end Staging

namespace Populating

variable {store : GraphStore} {v : VectorStore} {config : BuildConfig}

theorem isApart_prune (output : EnrichOutput) : (prune store v config output).IsApart := by
  refine .ite ?_ (.pure _)
  refine (IsApart.take _ _).bind fun _ => (store.isApart_prune _ _).bind fun gone => ?_
  exact .ite ((v.isApart_deleteEntities gone).bind fun _ => .pure _) (.pure _)

theorem isApart_fill (output : EnrichOutput) : (fill store v config output).IsApart :=
  GraphStore.isApart_prepare.bind fun _ => VectorStore.isApart_ensure.bind fun _ =>
    (GraphStore.isApart_upsertEntities _).bind fun _ =>
      (GraphStore.isApart_upsertRelationships _).bind fun _ => (isApart_prune _).bind fun _ =>
        (VectorStore.isApart_upsertEntities _).bind fun _ => .pure _

theorem isApart_run (graph : Except Failure GraphStore) : (run graph v config).IsApart := by
  refine (IsApart.log _ _ _).bind fun _ => IsApart.now.bind fun _ => ?_
  refine (Build.isApart_of_wp fun _ _ => ?_).bind fun _ => ?_
  · exact Build.wp_mono (Staging.wp_read _ _)
      (fun _ _ h => h.2.service_eq) fun _ _ h => h.service_eq
  refine (IsApart.take _ _).bind fun output => (IsApart.take _ _).bind fun store => ?_
  refine GraphStore.isApart_openStore.bind fun _ => VectorStore.isApart_openStore.bind fun _ => ?_
  refine IsApart.bind ((isApart_fill output).ensuring ?_) fun _ => ?_
  · exact GraphStore.isApart_close.bind fun _ => VectorStore.isApart_close
  · exact IsApart.now.bind fun _ => (IsApart.log _ _ _).bind fun _ => .pure _

end Populating

namespace Stages

/-- Whether the parts of a build know nothing of the service: whatever they do, it stays as it
is. -/
structure IsApart (stages : Stages) : Prop where
  sync : ∀ path url branch, (stages.sync path url branch).IsApart
  parse : ∀ config, (stages.parse config).IsApart
  enrich : ∀ config, (stages.enrich config).IsApart
  populate : ∀ config, (stages.populate config).IsApart

theorem isApart_timed {α : Type} {name : String} {config : BuildConfig}
    {stage : BuildConfig → Build α}
    {summary : Int → α → StageSummary} (h : ∀ config, (stage config).IsApart) :
    (timed name config stage summary).IsApart :=
  Build.IsApart.now.bind fun _ => (Build.IsApart.attempt _).bind fun _ => (h config).bind fun _ =>
    Build.IsApart.now.bind fun _ => .pure _

/-- Tasks leave the service as it is if the parts of a build do. -/
theorem IsApart.perform {stages : Stages} (h : stages.IsApart) (config : BuildConfig) (r : Request)
    (task : Task) : (stages.perform config r task).IsApart := by
  cases task with
  | sync =>
    rw [Stages.perform, runSync]
    refine (Build.IsApart.log _ _ _).bind fun _ => (Build.IsApart.attempt _).bind fun _ => ?_
    exact (h.sync _ _ _).bind fun _ => (Build.IsApart.log _ _ _).bind fun _ => .pure _
  | parse =>
    rw [Stages.perform]
    exact isApart_timed h.parse
  | enrich =>
    rw [Stages.perform]
    exact isApart_timed h.enrich
  | populate =>
    rw [Stages.perform]
    exact isApart_timed h.populate

end Stages

/-- The parts of a build as the settings set them up know nothing of the service. -/
theorem Settings.isApart_stages (s : Settings) : s.stages.IsApart where
  sync path url branch := Staging.Alters.isApart fun _ _ => Checkout.wp_sync path url branch
  parse _ := Staging.Alters.isApart fun _ _ => Reading.wp_run_alters
  enrich _ := by
    refine Build.isApart_of_wp fun _ _ => ?_
    refine Build.wp_mono wp_enriching_entity (fun _ _ h => ?_) fun _ _ hw => hw.service_eq
    obtain ⟨_, _, _, hleaves⟩ := h
    exact hleaves.alters.service_eq
  populate _ := Populating.isApart_run _

end RepoGraph
