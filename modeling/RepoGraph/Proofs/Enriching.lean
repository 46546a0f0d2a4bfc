import Mathlib.Data.List.Forall2
import RepoGraph.Build.Enriching
import RepoGraph.Proofs.Extract
import RepoGraph.Proofs.Graph.Merging
import RepoGraph.Proofs.Staging

/-!
# What enriching leaves

The second stage puts out every entity it reads, enriched or plain, under the entity's id.
Enriching an entity changes nothing but what was done, so the stage changes its own output only, and
a failure leaves even that as it was.  Where the services outside give the same answers at all
times, what is said about an entity is a function of the entity, and the last output of an id is the
last entity with that id, with what is said about it.

Main statements: `Settings.wp_enriching`, `Enriching.lastOf?_collect`,
`Settings.enriches_of_steady`.
-/

namespace RepoGraph

open Staging (Notes Alters)

variable {outside : Outside} {w : World}

/-! ### Embedding -/

namespace Embedder

theorem wp_sleep (seconds : Number) {failed} :
    (sleep seconds).wp (fun _ w' => Notes w w') failed outside w := by
  rw [sleep, Build.wp_ite]
  split
  · exact ⟨_, rfl⟩
  · exact ⟨_, rfl⟩

theorem wp_tryOnce (e : Embedder) (text : String) :
    (e.tryOnce text).wp (fun _ w' => Notes w w') (fun _ w' => Notes w w') outside w := by
  rw [tryOnce]
  cases e.request text with
  | none => exact ⟨_, rfl⟩
  | some request =>
    simp only [Build.wp_bind, Build.wp_get, Build.wp_attempt, Build.wp_read, Build.wp_take]
    exact ⟨fun _ => ⟨fun answer _ => ⟨fun _ _ => ⟨_, rfl⟩, fun _ _ => ⟨_, rfl⟩⟩,
      fun _ _ => ⟨_, rfl⟩⟩, fun _ _ => ⟨_, rfl⟩⟩

theorem wp_afterFailure (e : Embedder) (attempt left : Nat) (f : Failure) :
    (e.afterFailure attempt left f).wp (fun _ w' => Notes w w') (fun _ w' => Notes w w')
      outside w := by
  rw [afterFailure, Build.wp_ite]
  split
  · exact ⟨_, rfl⟩
  · rw [Build.wp_bind, Build.wp_take]
    refine ⟨fun pause _ => ?_, fun _ _ => ⟨w.events, rfl⟩⟩
    rw [Build.wp_bind, Build.wp_log]
    exact Build.wp_mono (wp_sleep pause) (fun _ _ hw => .trans ⟨_, rfl⟩ hw) fun _ _ h => h

theorem wp_embedFrom (e : Embedder) (text : String) (attempt left : Nat) :
    (e.embedFrom text attempt left).wp (fun _ w' => Notes w w') (fun _ w' => Notes w w')
      outside w := by
  induction left generalizing attempt w with
  | zero => exact ⟨_, rfl⟩
  | succ left ih =>
    rw [embedFrom, Build.wp_bind, Build.wp_outcome]
    refine Build.wp_mono (wp_tryOnce e text) (fun _ _ hw₁ => hw₁) fun f w₁ hw₁ => ?_
    rw [Build.wp_bind]
    refine Build.wp_mono (wp_afterFailure e attempt left f) (fun _ w₂ hw₂ => ?_) fun _ _ hw₂ =>
      hw₁.trans hw₂
    exact Build.wp_mono (ih (attempt + 1)) (fun _ _ hw₃ => (hw₁.trans hw₂).trans hw₃) fun _ _ hw₃ =>
      (hw₁.trans hw₂).trans hw₃

/-- Asking for a vector changes nothing. -/
theorem wp_embed (e : Embedder) (text : String) :
    (e.embed text).wp (fun _ w' => Notes w w') (fun _ w' => Notes w w') outside w := by
  rw [embed, Build.wp_ite]
  split
  · exact ⟨_, rfl⟩
  · exact wp_embedFrom e text 1 _

end Embedder

/-! ### Single entities -/

/-- Whether enriching may say this about an entity: a complexity is from one to ten, and the numbers
of an embedding are all of double precision. -/
structure Enrichment.IsSaid (x : Enrichment) : Prop where
  complexity : ∀ n, x.complexity = some n → 1 ≤ n ∧ n ≤ 10
  embedding : ∀ v, x.embedding = some v → ∃ vector : List Binary64, v = vector.map .float

namespace Enrichment

theorem isSaid_none : Enrichment.none.IsSaid := ⟨fun _ h => (nomatch h), fun _ h => (nomatch h)⟩

theorem IsSaid.withVector {x : Enrichment} (h : x.IsSaid) (vector : List Binary64) :
    { x with embedding := embeddingOf vector }.IsSaid := by
  refine ⟨h.complexity, fun v hv => ?_⟩
  dsimp only [embeddingOf] at hv
  split at hv
  · cases hv
  · exact ⟨vector, (Option.some.inj hv).symm⟩

theorem isSaid_read (answer : Fields) : (Semantic.read answer).IsSaid := by
  refine ⟨fun n hn => ?_, fun v hv => nomatch hv⟩
  have hrange {m : Int} (h : (if 1 ≤ m ∧ m ≤ 10 then some m else .none) = some n) :
      1 ≤ n ∧ n ≤ 10 := by
    split at h
    · rename_i hm
      exact Option.some.inj h ▸ hm
    · cases h
  rw [Semantic.read, Semantic.complexity] at hn
  split at hn
  · exact hrange hn
  · split at hn
    · exact hrange hn
    · cases hn
  · cases hn

end Enrichment

namespace CodeEnricher

theorem wp_describe (c : CodeEnricher) (e : Entity) {failed} :
    (c.describe e).wp (fun x w' => x.IsSaid ∧ Notes w w') failed outside w := by
  have hchat : (c.askChat e).wp (fun _ w' => Notes w w') (fun _ w' => Notes w w') outside w := by
    simp only [askChat, Build.wp_bind, Build.wp_get, Build.wp_attempt, Build.wp_read,
      Build.wp_take, Build.wp_pure]
    exact ⟨fun _ => ⟨fun _ _ => ⟨_, rfl⟩, fun _ _ => ⟨_, rfl⟩⟩, fun _ _ => ⟨_, rfl⟩⟩
  rw [describe, Build.wp_ite]
  split
  · exact ⟨Enrichment.isSaid_none, _, rfl⟩
  · rw [Build.wp_bind, Build.wp_outcome]
    refine Build.wp_mono hchat (fun text w₁ hw₁ => ?_) fun f w₁ hw₁ => ?_
    · simp only [Build.wp_ite, Build.wp_bind, Build.wp_log, Build.wp_pure]
      split
      · exact ⟨Enrichment.isSaid_none, hw₁.trans ⟨_, rfl⟩⟩
      · exact ⟨Enrichment.isSaid_read _, hw₁⟩
    · exact ⟨Enrichment.isSaid_none, hw₁.trans ⟨_, rfl⟩⟩

/-- Enriching an entity answers it with something said about it, and changes nothing. -/
theorem wp_enrich {c : CodeEnricher}
    (hembed : ∀ text w, (c.embed text).wp (fun _ w' => Notes w w')
      (fun _ w' => Notes w w') outside w)
    (e : Entity) {failed} :
    (c.enrich e).wp (fun x w' => (x.entity = e ∧ x.enrichment.IsSaid) ∧ Notes w w') failed
      outside w := by
  simp only [enrich, Build.wp_bind, Build.wp_outcome]
  refine Build.wp_mono (hembed _ w) (fun vector w₁ hw₁ => ?_) fun f w₁ hw₁ => ?_
  · refine Build.wp_mono (wp_describe c e) (fun description w₂ hw₂ => ?_) fun _ _ h => h
    exact ⟨⟨rfl, hw₂.1.withVector vector⟩, hw₁.trans hw₂.2⟩
  · exact ⟨⟨rfl, Enrichment.isSaid_none⟩, hw₁.trans ⟨_, rfl⟩⟩

end CodeEnricher

namespace DocumentEnricher

theorem wp_enrich {d : DocumentEnricher}
    (hembed : ∀ text w, (d.embed text).wp (fun _ w' => Notes w w')
      (fun _ w' => Notes w w') outside w)
    (e : Entity) {failed} :
    (d.enrich e).wp (fun x w' => (x.entity = e ∧ x.enrichment.IsSaid) ∧ Notes w w') failed
      outside w := by
  have hsaid (vector : List Binary64) (summary : String) : Enrichment.IsSaid
      { Enrichment.none with
        description := some summary
        purpose := some summary
        embedding := Enrichment.embeddingOf vector } :=
    Enrichment.IsSaid.withVector (x := { Enrichment.none with
      description := some summary
      purpose := some summary }) ⟨fun _ h => (nomatch h), fun _ h => (nomatch h)⟩ vector
  simp only [enrich, Build.wp_ite, Build.wp_bind, Build.wp_pure, Build.wp_outcome]
  split
  · exact ⟨⟨rfl, Enrichment.isSaid_none⟩, w.events, rfl⟩
  · refine Build.wp_mono (hembed _ w) (fun vector w₁ hw₁ => ⟨⟨trivial, hsaid vector _⟩, hw₁⟩)
      fun f w₁ hw₁ => ?_
    exact ⟨⟨trivial, hsaid [] _⟩, hw₁.trans ⟨_, rfl⟩⟩

end DocumentEnricher

/-! ### Several entities -/

/-- Steps that are done for items one after the other, and change nothing. -/
theorem Build.wp_mapM {α β : Type} {step : α → Build β} {R : α → β → Prop} {items : List α} {failed}
    (hstep : ∀ a ∈ items, ∀ w', (step a).wp (fun b w'' => R a b ∧ Notes w' w'') failed outside w') :
    (items.mapM step).wp (fun bs w' => List.Forall₂ R items bs ∧ Notes w w') failed outside w := by
  induction items generalizing w with
  | nil => exact ⟨.nil, w.events, rfl⟩
  | cons a rest ih =>
    rw [List.mapM_cons, wp_bind]
    refine wp_mono (hstep a List.mem_cons_self w) (fun b w₁ hw₁ => ?_) fun _ _ h => h
    rw [wp_bind]
    refine wp_mono (ih fun a' ha' => hstep a' (List.mem_cons_of_mem a ha')) (fun bs w₂ hw₂ => ?_)
      fun _ _ h => h
    exact ⟨.cons hw₁.1 hw₂.1, hw₁.2.trans hw₂.2⟩

variable {R : Entity → Enriched → Prop}

namespace CodeEnricher

variable {c : CodeEnricher}

theorem wp_enrichBatches {failed} (total : Nat) (batches : List (List Entity × Nat))
    (hone : ∀ e ∈ batches.flatMap Prod.fst, ∀ w',
      (c.enrich e).wp (fun x w'' => R e x ∧ Notes w' w'') failed outside w') :
    (c.enrichBatches total batches).wp
      (fun xs w' => List.Forall₂ R (batches.flatMap Prod.fst) xs ∧
        Notes w w') failed outside w := by
  induction batches generalizing w with
  | nil => exact ⟨.nil, w.events, rfl⟩
  | cons batch rest ih =>
    rw [List.flatMap_cons] at hone
    rw [enrichBatches, Build.wp_bind]
    refine Build.wp_mono (Build.wp_mapM fun e he => hone e (List.mem_append_left _ he))
      (fun xs w₁ hw₁ => ?_) fun _ _ h => h
    -- the same is done with what is left, whether the enricher waits before it or not
    have hmore (w₂ : World) (hw₂ : Notes w₁ w₂) :
        (do return xs ++ (← c.enrichBatches total rest) : Build (List Enriched)).wp
          (fun xs w' => List.Forall₂ R (batch.1 ++ rest.flatMap Prod.fst) xs ∧ Notes w w')
          failed outside w₂ := by
      rw [Build.wp_bind]
      refine Build.wp_mono (ih fun e he => hone e (List.mem_append_right _ he))
        (fun more w₃ hw₃ => ?_) fun _ _ h => h
      exact ⟨List.rel_append hw₁.1 hw₃.1, (hw₁.2.trans hw₂).trans hw₃.2⟩
    rw [Build.wp_bind, Build.wp_log, Build.wp_ite, List.flatMap_cons]
    split
    · rw [Build.wp_bind]
      exact Build.wp_mono (Embedder.wp_sleep _) (fun _ w₂ hw₂ => hmore w₂ (.trans ⟨_, rfl⟩ hw₂))
        fun _ _ h => h
    · exact hmore _ ⟨_, rfl⟩

theorem wp_enrichAll {entities : List Entity} {failed}
    (hone : ∀ e ∈ entities, ∀ w', (c.enrich e).wp (fun x w'' => R e x ∧ Notes w' w'') failed
      outside w') :
    (c.enrichAll entities).wp (fun xs w' => List.Forall₂ R entities xs ∧ Notes w w') failed
      outside w := by
  have hall := Batch.flatMap_counted c.batchCount entities
  refine Build.wp_mono (wp_enrichBatches _ _ fun e he => hone e (hall ▸ he)) (fun xs w' h => ?_)
    fun _ _ h => h
  rwa [hall] at h

end CodeEnricher

namespace DocumentEnricher

variable {d : DocumentEnricher}

theorem wp_enrichFrom {failed} (total count : Nat) (entities : List Entity)
    (hone : ∀ e ∈ entities, ∀ w',
      (d.enrich e).wp (fun x w'' => R e x ∧ Notes w' w'') failed outside w') :
    (d.enrichFrom total count entities).wp
      (fun xs w' => List.Forall₂ R entities xs ∧ Notes w w') failed outside w := by
  induction entities generalizing count w with
  | nil => exact ⟨.nil, w.events, rfl⟩
  | cons e rest ih =>
    rw [enrichFrom, Build.wp_bind]
    refine Build.wp_mono (hone e List.mem_cons_self w) (fun x w₁ hw₁ => ?_) fun _ _ h => h
    -- the same is done with what is left, whether a count is logged before it or not
    have hmore (w₂ : World) (hw₂ : Notes w₁ w₂) :
        (do return x :: (← d.enrichFrom total (count + 1) rest) : Build (List Enriched)).wp
          (fun xs w' => List.Forall₂ R (e :: rest) xs ∧ Notes w w') failed outside w₂ := by
      rw [Build.wp_bind]
      refine Build.wp_mono (ih (count + 1) fun e' he' => hone e' (List.mem_cons_of_mem e he'))
        (fun more w₃ hw₃ => ?_) fun _ _ h => h
      exact ⟨.cons hw₁.1 hw₃.1, (hw₁.2.trans hw₂).trans hw₃.2⟩
    rw [Build.wp_ite]
    split
    · exact hmore _ ⟨_, rfl⟩
    · exact hmore w₁ ⟨w₁.events, rfl⟩

theorem wp_enrichAll {entities : List Entity} {failed}
    (hone : ∀ e ∈ entities, ∀ w', (d.enrich e).wp (fun x w'' => R e x ∧ Notes w' w'') failed
      outside w') :
    (d.enrichAll entities).wp (fun xs w' => List.Forall₂ R entities xs ∧ Notes w w') failed
      outside w :=
  wp_enrichFrom entities.length 0 entities hone

end DocumentEnricher

namespace Enriching

/-! ### What the output says -/

/-- What the stage puts out for the last entity of an id, given what is said about entities: only
code and documents are enriched. -/
def settled (said : Entity → Enrichment) (e : Entity) : Enriched :=
  if Entity.codeKinds.contains e.kind || Entity.documentKinds.contains e.kind then ⟨e, said e⟩
  else Enriched.plain e

theorem entity_settled (said : Entity → Enrichment) (e : Entity) : (settled said e).entity = e := by
  rw [settled]
  split <;> rfl

/-- The entities of a list that have one of some kinds. -/
def ofKinds (kinds : List String) (entities : List Entity) : List Entity :=
  entities.filter fun e => kinds.contains e.kind

theorem lastOf?_append (enriched more : List Enriched) (id : String) :
    lastOf? (enriched ++ more) id = (lastOf? more id).or (lastOf? enriched id) := by
  rw [lastOf?, List.reverse_append, List.find?_append]
  rfl

theorem lastOf?_map {change : Entity → Enriched} (h : ∀ e, (change e).id = e.id)
    (entities : List Entity) (id : String) :
    lastOf? (entities.map change) id = (Entity.lastOf? entities id).map change := by
  rw [lastOf?, ← List.map_reverse, List.find?_map, Entity.lastOf?]
  congr 2
  funext e
  rw [Function.comp_apply, h]

/-- The output of an entity has its id. -/
theorem id_getD_lastOf? (enriched : List Enriched) (e : Entity) :
    ((lastOf? enriched e.id).getD (Enriched.plain e)).id = e.id := by
  cases h : lastOf? enriched e.id with
  | none => rfl
  | some x => exact id_of_lastOf? h

/-- The output of an id is what was said about its last entity. -/
theorem lastOf?_collect {said : Entity → Enrichment} {entities : List Entity}
    (hkind : ∀ a ∈ entities, ∀ b ∈ entities, a.id = b.id → a.kind = b.kind) (id : String) :
    lastOf? (collect entities
        ((ofKinds Entity.codeKinds entities).map (fun e => ⟨e, said e⟩) ++
          (ofKinds Entity.documentKinds entities).map fun e => ⟨e, said e⟩)) id =
      (Entity.lastOf? entities id).map (settled said) := by
  rw [collect, lastOf?_map fun e => id_getD_lastOf? _ e]
  cases hlast : Entity.lastOf? entities id with
  | none => rfl
  | some e =>
    have hid := Entity.id_of_lastOf? hlast
    have hmem := Entity.mem_of_lastOf? hlast
    rw [Option.map_some, Option.map_some, Option.some.injEq, hid, lastOf?_append,
      lastOf?_map fun _ => rfl, lastOf?_map fun _ => rfl, settled]
    -- all entities of the id have the kind of the last one, so they are enriched alike
    have hof {kinds : List String} (h : kinds.contains e.kind = true) :
        Entity.lastOf? (ofKinds kinds entities) id = some e := by
      rw [ofKinds, Entity.lastOf?_filter, hlast]
      intro a ha haid
      rw [hkind a ha e hmem (haid.trans hid.symm)]
      exact h
    have hnot {kinds : List String} (h : kinds.contains e.kind = false) :
        Entity.lastOf? (ofKinds kinds entities) id = none := by
      rw [Entity.lastOf?_eq_none_iff]
      intro hmap
      obtain ⟨a, ha, haid⟩ := List.mem_map.1 hmap
      obtain ⟨ha, hcontains⟩ := List.mem_filter.1 ha
      rw [hkind a ha e hmem (haid.trans hid.symm), h] at hcontains
      cases hcontains
    cases hdocument : Entity.documentKinds.contains e.kind with
    | true =>
      rw [hof hdocument, Bool.or_true]
      rfl
    | false =>
      rw [hnot hdocument, Bool.or_false]
      cases hcode : Entity.codeKinds.contains e.kind with
      | true =>
        rw [hof hcode]
        rfl
      | false =>
        rw [hnot hcode]
        rfl

/-! ### The stage -/

/-- What the stage leaves when it ends well. -/
structure Leaves (config : BuildConfig) (output : EnrichOutput) (w w' : World) : Prop where
  alters : Alters (Staging.outputPlaces w.cwd config.stagingPath stage) w w'
  artifact : w'.disk.fileAt w.cwd (Staging.artifactPath config.stagingPath stage) =
    some (.text (EnrichOutput.toJson output).pretty)
  reached : w'.disk.IsReached w.cwd (Path.join config.stagingPath stage)

/-- An output comes of the one the first stage put out. -/
structure IsOutputOf (R : Entity → Enriched → Prop) (input : ParseOutput) (output : EnrichOutput) :
    Prop where
  entities_eq : ∃ code documents,
    List.Forall₂ R (ofKinds Entity.codeKinds input.entities) code ∧
      List.Forall₂ R (ofKinds Entity.documentKinds input.entities) documents ∧
      output.entities = collect input.entities (code ++ documents)
  relationships_eq : output.relationships = input.relationships
  metadata_eq : ∃ stamp, output.metadata = metadata stamp
    ((ofKinds Entity.codeKinds input.entities).length +
      (ofKinds Entity.documentKinds input.entities).length) input.metadata

theorem IsOutputOf.mono {R' : Entity → Enriched → Prop} {input : ParseOutput}
    {output : EnrichOutput}
    (h : IsOutputOf R input output) (hR : ∀ e x, R e x → R' e x) : IsOutputOf R' input output := by
  obtain ⟨code, documents, hcode, hdocuments, heq⟩ := h.entities_eq
  exact ⟨⟨code, documents, hcode.imp hR, hdocuments.imp hR, heq⟩, h.relationships_eq, h.metadata_eq⟩

theorem IsOutputOf.entities_eq_collect {said : Entity → Enrichment} {input : ParseOutput}
    {output : EnrichOutput} (h : IsOutputOf (fun e x => x = ⟨e, said e⟩) input output) :
    output.entities = collect input.entities
      ((ofKinds Entity.codeKinds input.entities).map (fun e => ⟨e, said e⟩) ++
        (ofKinds Entity.documentKinds input.entities).map fun e => ⟨e, said e⟩) := by
  have hmap {entities : List Entity} {xs : List Enriched}
      (hxs : List.Forall₂ (fun e x => x = ⟨e, said e⟩) entities xs) :
      xs = entities.map fun e => ⟨e, said e⟩ := by
    induction hxs with
    | nil => rfl
    | cons hx _ ih => rw [hx, ih, List.map_cons]
  obtain ⟨code, documents, hcode, hdocuments, heq⟩ := h.entities_eq
  rw [heq, hmap hcode, hmap hdocuments]

/-- Every entity that is put out is one of the input, enriched or plain. -/
theorem IsOutputOf.exists_of_mem {input : ParseOutput} {output : EnrichOutput}
    (h : IsOutputOf R input output) {x : Enriched} (hx : x ∈ output.entities) :
    ∃ e ∈ input.entities, R e x ∨ x = Enriched.plain e := by
  obtain ⟨code, documents, hcode, hdocuments, heq⟩ := h.entities_eq
  have hmem {kinds : List String} {xs : List Enriched} {x : Enriched}
      (hxs : List.Forall₂ R (ofKinds kinds input.entities) xs) (hx : x ∈ xs) :
      ∃ e ∈ input.entities, R e x ∨ x = Enriched.plain e := by
    obtain ⟨e, he, hR⟩ := exists_mem_of_rel hxs hx
    exact ⟨e, (List.mem_filter.1 he).1, .inl hR⟩
  rw [heq, collect, List.mem_map] at hx
  obtain ⟨e, he, rfl⟩ := hx
  cases hlast : lastOf? (code ++ documents) e.id with
  | none => exact ⟨e, he, .inr rfl⟩
  | some x =>
    rcases List.mem_append.1 (mem_of_lastOf? hlast) with hx | hx
    · exact hmem hcode hx
    · exact hmem hdocuments hx

/-- The output has the ids of the input, in order, and no entities but those of the input. -/
theorem IsOutputOf.ids_eq {input : ParseOutput} {output : EnrichOutput}
    (h : IsOutputOf (fun e x => x.entity = e) input output) :
    output.entities.map Enriched.id = input.entities.map Entity.id ∧
      ∀ x ∈ output.entities, x.entity ∈ input.entities := by
  refine ⟨?_, fun x hx => ?_⟩
  · obtain ⟨code, documents, -, -, heq⟩ := h.entities_eq
    rw [heq, collect, List.map_map]
    exact List.map_congr_left fun e _ => id_getD_lastOf? _ e
  · obtain ⟨e, he, hx | rfl⟩ := h.exists_of_mem hx
    · exact hx ▸ he
    · exact he

/-- The stage puts out what it has read, enriched; a failure leaves its output as it was. -/
theorem wp_run {code : CodeEnricher} {documents : DocumentEnricher} {config : BuildConfig}
    (hcode : ∀ e w', Entity.codeKinds.contains e.kind = true →
      (code.enrich e).wp (fun x w'' => R e x ∧ Notes w' w'') (fun _ _ => False) outside w')
    (hdocuments : ∀ e w', Entity.documentKinds.contains e.kind = true →
      (documents.enrich e).wp (fun x w'' => R e x ∧ Notes w' w'') (fun _ _ => False) outside w') :
    (run code documents config).wp
      (fun output w' => ∃ input,
        Staging.heldOutput Entity.ofJson config.stagingPath "parse" w.disk w.cwd = some input ∧
          IsOutputOf R input output ∧ Leaves config output w w')
      (fun _ w' => Alters [Disk.absolute w.cwd
        (Staging.temporaryPath (Staging.artifactPath config.stagingPath stage))] w w')
      outside w := by
  simp only [run, Build.wp_bind, Build.wp_log, Build.wp_now]
  refine Build.wp_mono (Staging.wp_read _ _) (fun staged w₁ hw₁ => ?_) fun _ w₁ hw₁ =>
    (Notes.trans ⟨_, rfl⟩ hw₁).alters
  obtain ⟨hstaged, hw₁⟩ := hw₁
  have hnotes₁ : Notes w w₁ := .trans ⟨_, rfl⟩ hw₁
  rw [Build.wp_take]
  refine ⟨fun input hinput => ?_, fun _ _ => hnotes₁.alters⟩
  have hread : Staging.heldOutput Entity.ofJson config.stagingPath "parse" w.disk w.cwd =
      some input := by
    rw [Staging.heldOutput, hstaged]
    show (ParseOutput.ofJson staged).toOption = _
    rw [hinput]
    rfl
  -- no enricher fails, so nothing but the read and the write can end the stage
  refine Build.wp_mono (CodeEnricher.wp_enrichAll fun e he w' =>
    Build.wp_mono (hcode e w' (List.mem_filter.1 he).2) (fun _ _ h => h) fun _ _ => False.elim)
    (fun cs w₂ hw₂ => ?_) fun _ _ h => h
  refine Build.wp_mono (DocumentEnricher.wp_enrichAll fun e he w' =>
    Build.wp_mono (hdocuments e w' (List.mem_filter.1 he).2) (fun _ _ h => h) fun _ _ => False.elim)
    (fun ds w₃ hw₃ => ?_) fun _ _ h => h
  have hnotes₃ : Notes w w₃ := (hnotes₁.trans (.trans ⟨_, rfl⟩ hw₂.2)).trans hw₃.2
  obtain ⟨events₃, rfl⟩ := hnotes₃
  simp only [Build.wp_stamp]
  refine Build.wp_mono (Staging.wp_write _ _ _) (fun _ w₄ hw₄ => ?_) fun _ w₄ hw₄ =>
    (Notes.alters ⟨events₃, rfl⟩).trans hw₄
  obtain ⟨hw₄, hfile, hreached⟩ := hw₄
  have hcount : (cs ++ ds).length = (ofKinds Entity.codeKinds input.entities).length +
      (ofKinds Entity.documentKinds input.entities).length := by
    rw [List.length_append, ← hw₂.1.length_eq, ← hw₃.1.length_eq]
    rfl
  refine ⟨input, hread, ⟨⟨cs, ds, hw₂.1, hw₃.1, rfl⟩, rfl, _, by rw [hcount]⟩, ?_, hfile, hreached⟩
  exact ((Notes.alters ⟨events₃, rfl⟩).trans hw₄).trans (Notes.alters ⟨_, rfl⟩)

end Enriching

/-! ### Through the settings -/

namespace Settings

/-- The embedder that the settings name, if they name one. -/
def namedEmbedder (s : Settings) : Embedder :=
  if s.embeddingProvider == "openai" then
    ⟨.model s.embeddingModel (some s.vectorSize), Embedder.usualAttempts, Embedder.usualDelay⟩
  else Embedder.ofService s.embeddingUrl Embedder.usualAttempts Embedder.usualDelay

/-- What enriches code by the settings. -/
def codeEnricher (s : Settings) : CodeEnricher :=
  ⟨s.namedEmbedder.embed, s.chatKey.isFilled, s.chatModel, s.batchSize, .float s.batchDelay⟩

/-- What enriches documents by the settings. -/
def documentEnricher (s : Settings) : DocumentEnricher := ⟨s.namedEmbedder.embed⟩

variable {s : Settings} {R : Entity → Enriched → Prop} {config : BuildConfig}

theorem wp_connectModel :
    s.connectModel.wp (fun _ w' => Notes w w') (fun _ w' => Notes w w') outside w := by
  rw [connectModel, Build.wp_ite]
  split
  · exact (Build.wp_attempt _).2 ⟨fun _ => ⟨_, rfl⟩, fun _ _ => ⟨_, rfl⟩⟩
  · exact ⟨w.events, rfl⟩

theorem wp_embedder :
    s.embedder.wp (fun e w' => e = s.namedEmbedder ∧ Notes w w') (fun _ w' => Notes w w')
      outside w := by
  rw [embedder, Build.wp_ite, namedEmbedder]
  split
  · rw [Build.wp_bind]
    exact Build.wp_mono wp_connectModel (fun _ _ hw => ⟨rfl, hw⟩) fun _ _ h => h
  · rw [Build.wp_ite]
    split
    · exact ⟨rfl, w.events, rfl⟩
    · exact ⟨w.events, rfl⟩

theorem wp_chat :
    s.chat.wp (fun hasChat w' => hasChat = s.chatKey.isFilled ∧ Notes w w')
      (fun _ w' => Notes w w') outside w := by
  rw [chat, Build.wp_ite]
  split
  · rename_i hkey
    rw [Build.wp_bind, hkey]
    exact Build.wp_mono wp_connectModel (fun _ _ hw => ⟨rfl, hw⟩) fun _ _ h => h
  · rename_i hkey
    rw [Bool.eq_false_iff.2 hkey]
    exact ⟨rfl, _, rfl⟩

/-- The stage as the settings set it up. -/
theorem wp_enriching
    (hcode : ∀ e w', Entity.codeKinds.contains e.kind = true →
      (s.codeEnricher.enrich e).wp (fun x w'' => R e x ∧ Notes w' w'')
        (fun _ _ => False) outside w')
    (hdocuments : ∀ e w', Entity.documentKinds.contains e.kind = true →
      (s.documentEnricher.enrich e).wp (fun x w'' => R e x ∧ Notes w' w'') (fun _ _ => False)
        outside w') :
    (s.enriching config).wp
      (fun output w' => ∃ input,
        Staging.heldOutput Entity.ofJson config.stagingPath "parse" w.disk w.cwd = some input ∧
          Enriching.IsOutputOf R input output ∧ Enriching.Leaves config output w w')
      (fun _ w' => Alters [Disk.absolute w.cwd
        (Staging.temporaryPath (Staging.artifactPath config.stagingPath Enriching.stage))] w w')
      outside w := by
  rw [enriching, Build.wp_bind]
  refine Build.wp_mono wp_embedder (fun e w₁ hw₁ => ?_) fun _ _ hw₁ => hw₁.alters
  obtain ⟨rfl, hw₁⟩ := hw₁
  rw [Build.wp_bind]
  refine Build.wp_mono wp_chat (fun hasChat w₂ hw₂ => ?_) fun _ _ hw₂ => (hw₁.trans hw₂).alters
  obtain ⟨rfl, hw₂⟩ := hw₂
  obtain ⟨events, rfl⟩ := hw₁.trans hw₂
  refine Build.wp_mono (Enriching.wp_run hcode hdocuments) (fun output w₃ hw₃ => ?_) fun _ w₃ hw₃ =>
    (Notes.alters ⟨events, rfl⟩).trans hw₃
  obtain ⟨input, hread, houtput, hleaves⟩ := hw₃
  exact ⟨input, hread, houtput, (Notes.alters ⟨events, rfl⟩).trans hleaves.alters, hleaves.artifact,
    hleaves.reached⟩

/-- Every entity comes out of the stage with something said about it. -/
theorem wp_enriching_said :
    (s.enriching config).wp
      (fun output w' => ∃ input,
        Staging.heldOutput Entity.ofJson config.stagingPath "parse" w.disk w.cwd = some input ∧
          Enriching.IsOutputOf (fun e x => x.entity = e ∧ x.enrichment.IsSaid) input output ∧
          Enriching.Leaves config output w w')
      (fun _ w' => Alters [Disk.absolute w.cwd
        (Staging.temporaryPath (Staging.artifactPath config.stagingPath Enriching.stage))] w w')
      outside w :=
  wp_enriching (fun e _ _ => CodeEnricher.wp_enrich (fun _ _ => Embedder.wp_embed _ _) e)
    fun e _ _ => DocumentEnricher.wp_enrich (fun _ _ => Embedder.wp_embed _ _) e

theorem wp_enriching_entity :
    (s.enriching config).wp
      (fun output w' => ∃ input,
        Staging.heldOutput Entity.ofJson config.stagingPath "parse" w.disk w.cwd = some input ∧
          Enriching.IsOutputOf (fun e x => x.entity = e) input output ∧
          Enriching.Leaves config output w w')
      (fun _ w' => Alters [Disk.absolute w.cwd
        (Staging.temporaryPath (Staging.artifactPath config.stagingPath Enriching.stage))] w w')
      outside w :=
  Build.wp_mono wp_enriching_said
    (fun _ _ ⟨input, hinput, houtput, hleaves⟩ =>
      ⟨input, hinput, houtput.mono fun _ _ => And.left, hleaves⟩) fun _ _ => id

/-! ### Enriching as a function -/

/-- Whether what is said about an entity is a function of the entity. -/
structure Enriches (s : Settings) (outside : Outside) (said : Entity → Enrichment) : Prop where
  code : ∀ e w, Entity.codeKinds.contains e.kind = true →
    ((s.codeEnricher.enrich e).run outside w).1 = .ok ⟨e, said e⟩
  documents : ∀ e w, Entity.documentKinds.contains e.kind = true →
    ((s.documentEnricher.enrich e).run outside w).1 = .ok ⟨e, said e⟩

theorem Enriches.wp_enriching {said : Entity → Enrichment} (h : s.Enriches outside said) :
    (s.enriching config).wp
      (fun output w' => ∃ input,
        Staging.heldOutput Entity.ofJson config.stagingPath "parse" w.disk w.cwd = some input ∧
          Enriching.IsOutputOf (fun e x => x = ⟨e, said e⟩) input output ∧
          Enriching.Leaves config output w w')
      (fun _ w' => Alters [Disk.absolute w.cwd
        (Staging.temporaryPath (Staging.artifactPath config.stagingPath Enriching.stage))] w w')
      outside w := by
  have hembed (text : String) (w : World) : (s.namedEmbedder.embed text).wp
      (fun _ w' => Notes w w') (fun _ w' => Notes w w') outside w := Embedder.wp_embed _ _
  refine Settings.wp_enriching (fun e w' hkind => ?_) fun e w' hkind => ?_
  · exact Build.wp_mono (Build.wp_of_answer (h.code e w' hkind) (CodeEnricher.wp_enrich hembed e))
      (fun _ _ hx => ⟨hx.1, hx.2.2⟩) fun _ _ h => h
  · exact Build.wp_mono
      (Build.wp_of_answer (h.documents e w' hkind) (DocumentEnricher.wp_enrich hembed e))
      (fun _ _ hx => ⟨hx.1, hx.2.2⟩) fun _ _ h => h

end Settings

/-! ### Services that answer alike -/

/-- Whether the services that enriching asks give the same answers at all times. -/
structure Outside.IsSteady (outside : Outside) : Prop where
  embed : ∀ events events' request, outside.embed events request = outside.embed events' request
  chat : ∀ events events' request, outside.chat events request = outside.chat events' request
  refuses_embed : ∀ events events' request,
    outside.refuses events (.embed request) = outside.refuses events' (.embed request)
  refuses_chat : ∀ events events' request,
    outside.refuses events (.chat request) = outside.refuses events' (.chat request)

namespace Build

variable {α β : Type} {step : Build α}

/-- Whether a step gives the same answer in all worlds. -/
def IsSteady (step : Build α) (outside : Outside) : Prop :=
  ∃ answer, ∀ w, (step.run outside w).1 = answer

theorem isSteady_pure (a : α) : (pure a : Build α).IsSteady outside := ⟨.ok a, fun _ => rfl⟩

theorem IsSteady.bind {next : α → Build β} (h : step.IsSteady outside)
    (hnext : ∀ a, (next a).IsSteady outside) : (step >>= next).IsSteady outside := by
  obtain ⟨answer, h⟩ := h
  cases answer with
  | error f =>
    refine ⟨.error f, fun w => ?_⟩
    have hw := h w
    rw [run_bind]
    generalize step.run outside w = ending at hw ⊢
    obtain ⟨answer, after⟩ := ending
    cases hw
    rfl
  | ok a =>
    obtain ⟨answer, hanswer⟩ := hnext a
    refine ⟨answer, fun w => ?_⟩
    have hw := h w
    rw [run_bind]
    generalize step.run outside w = ending at hw ⊢
    obtain ⟨answer', after⟩ := ending
    cases hw
    exact hanswer after

theorem IsSteady.outcome (h : step.IsSteady outside) : (outcome step).IsSteady outside := by
  obtain ⟨answer, h⟩ := h
  refine ⟨.ok answer, fun w => ?_⟩
  rw [← h w]
  rfl

theorem isSteady_log (level : LogLevel) (channel : String) (parts : List LogPart) :
    (log level channel parts).IsSteady outside := ⟨.ok (), fun _ => rfl⟩

theorem isSteady_take {ε : Type} (reason : ε → Failure) (answer : Except ε α) :
    (take reason answer).IsSteady outside := by
  cases answer with
  | ok a => exact isSteady_pure a
  | error fault => exact ⟨.error (reason fault), fun _ => rfl⟩

end Build

namespace Embedder

theorem isSteady_sleep (seconds : Number) : (sleep seconds).IsSteady outside := by
  rw [sleep]
  split
  · exact ⟨.ok (), fun _ => rfl⟩
  · exact Build.isSteady_pure _

theorem isSteady_afterFailure (e : Embedder) (attempt left : Nat) (f : Failure) :
    (e.afterFailure attempt left f).IsSteady outside := by
  rw [afterFailure]
  split
  · exact ⟨.ok (), fun _ => rfl⟩
  · exact (Build.isSteady_take _ _).bind fun _ =>
      (Build.isSteady_log _ _ _).bind fun _ => isSteady_sleep _

/-- A request is answered as it is before anything has happened. -/
theorem isSteady_tryOnce (h : outside.IsSteady) (e : Embedder) (text : String) :
    (e.tryOnce text).IsSteady outside := by
  rw [tryOnce]
  cases e.request text with
  | none => exact ⟨_, fun _ => rfl⟩
  | some request =>
    refine ⟨(outside.refuses [] (.embed request)).elim (outside.embed [] request >>= e.vectorOf)
      .error, fun w => Build.wp_eq_iff.1 ?_⟩
    simp only [Build.wp_bind, Build.wp_get, Build.wp_attempt, Build.wp_read, Build.wp_take,
      h.refuses_embed w.events [], h.embed w.events []]
    cases outside.refuses [] (.embed request) with
    | some f => simp
    | none =>
      cases outside.embed [] request with
      | error f => simp [bind, Except.bind]
      | ok answer => cases hvector : e.vectorOf answer <;> simp [bind, Except.bind, hvector]

theorem isSteady_embedFrom (h : outside.IsSteady) (e : Embedder) (text : String)
    (attempt left : Nat) : (e.embedFrom text attempt left).IsSteady outside := by
  induction left generalizing attempt with
  | zero => exact Build.isSteady_pure _
  | succ left ih =>
    rw [embedFrom]
    refine (isSteady_tryOnce h e text).outcome.bind fun answer => ?_
    cases answer with
    | ok vector => exact Build.isSteady_pure _
    | error f => exact (isSteady_afterFailure e attempt left f).bind fun _ => ih _

theorem isSteady_embed (h : outside.IsSteady) (e : Embedder) (text : String) :
    (e.embed text).IsSteady outside := by
  rw [embed]
  split
  · exact Build.isSteady_pure _
  · exact isSteady_embedFrom h e text 1 _

end Embedder

namespace CodeEnricher

/-- The chat is answered as it is before anything has happened. -/
theorem isSteady_askChat (h : outside.IsSteady) (c : CodeEnricher) (e : Entity) :
    (c.askChat e).IsSteady outside := by
  let request : ChatRequest :=
    ⟨c.model, Semantic.instruction, Semantic.prompt e, tokenLimit, answerForm⟩
  refine ⟨(outside.refuses [] (.chat request)).elim
    ((outside.chat [] request).map fun answer => answer.getD "") .error,
    fun w => Build.wp_eq_iff.1 ?_⟩
  simp only [askChat, Build.wp_bind, Build.wp_get, Build.wp_attempt, Build.wp_read,
    Build.wp_take, Build.wp_pure, request, h.refuses_chat w.events [], h.chat w.events []]
  cases outside.refuses [] (.chat ⟨c.model, Semantic.instruction, Semantic.prompt e, tokenLimit,
      answerForm⟩) with
  | some f => simp
  | none =>
    cases outside.chat [] ⟨c.model, Semantic.instruction, Semantic.prompt e, tokenLimit,
      answerForm⟩ <;> simp [Except.map]

theorem isSteady_describe (h : outside.IsSteady) (c : CodeEnricher) (e : Entity) :
    (c.describe e).IsSteady outside := by
  rw [describe]
  split
  · exact Build.isSteady_pure _
  · refine (isSteady_askChat h c e).outcome.bind fun answer => ?_
    cases answer with
    | error f => exact (Build.isSteady_log _ _ _).bind fun _ => Build.isSteady_pure _
    | ok text =>
      dsimp only
      split
      · exact (Build.isSteady_log _ _ _).bind fun _ => Build.isSteady_pure _
      · exact Build.isSteady_pure _

theorem isSteady_enrich (h : outside.IsSteady) {c : CodeEnricher}
    (hembed : ∀ text, (c.embed text).IsSteady outside) (e : Entity) :
    (c.enrich e).IsSteady outside := by
  rw [enrich]
  refine Build.IsSteady.bind (Build.IsSteady.outcome ?_) fun answer => ?_
  · exact (hembed _).bind fun _ => (isSteady_describe h c e).bind fun _ => Build.isSteady_pure _
  · cases answer with
    | ok x => exact Build.isSteady_pure _
    | error f => exact (Build.isSteady_log _ _ _).bind fun _ => Build.isSteady_pure _

end CodeEnricher

theorem DocumentEnricher.isSteady_enrich {d : DocumentEnricher}
    (hembed : ∀ text, (d.embed text).IsSteady outside) (e : Entity) :
    (d.enrich e).IsSteady outside := by
  rw [enrich]
  split
  · exact Build.isSteady_pure _
  · refine (hembed _).outcome.bind fun answer => ?_
    cases answer with
    | ok vector => exact Build.isSteady_pure _
    | error f =>
      exact Build.IsSteady.bind ⟨.ok (), fun _ => rfl⟩ fun _ => Build.isSteady_pure _

namespace Settings

/-- What is said about an entity in a world with nothing in it. -/
def saidBy (s : Settings) (outside : Outside) (e : Entity) : Enrichment :=
  let step := if Entity.codeKinds.contains e.kind then s.codeEnricher.enrich e
    else s.documentEnricher.enrich e
  match (step.run outside (World.ofDisk .empty [])).1 with
  | .ok x => x.enrichment
  | .error _ => Enrichment.none

/-- What is said about an entity is a function of the entity if the services answer alike. -/
theorem enriches_of_isSteady (s : Settings) (h : outside.IsSteady) :
    s.Enriches outside (s.saidBy outside) := by
  have hembed (text : String) : (s.namedEmbedder.embed text).IsSteady outside :=
    Embedder.isSteady_embed h _ text
  -- what the enricher says in this world it says in the empty one
  have hanswer {step : Build Enriched} {e : Entity} (hsteady : step.IsSteady outside)
      (hentity : ∀ w, step.wp (fun x _ => x.entity = e) (fun _ _ => False) outside w)
      (hsaid : s.saidBy outside e = match (step.run outside (World.ofDisk .empty [])).1 with
        | .ok x => x.enrichment
        | .error _ => Enrichment.none) (w : World) :
      (step.run outside w).1 = .ok ⟨e, s.saidBy outside e⟩ := by
    obtain ⟨answer, hanswer⟩ := hsteady
    rw [hanswer] at hsaid ⊢
    have hw := hentity w
    have hw' := hanswer w
    unfold Build.wp at hw
    generalize step.run outside w = ending at hw hw'
    subst hw'
    obtain ⟨_ | x, after⟩ := ending
    · exact hw.elim
    · have hx : x.entity = e := hw
      rw [hsaid, ← hx]
  refine ⟨fun e w hkind => ?_, fun e w hkind => ?_⟩
  · refine hanswer (CodeEnricher.isSteady_enrich h hembed e) (fun w => ?_) ?_ w
    · exact Build.wp_mono (CodeEnricher.wp_enrich (fun _ _ => Embedder.wp_embed _ _) e)
        (fun _ _ hx => hx.1.1) fun _ _ h => h
    · rw [saidBy, if_pos hkind]
  · refine hanswer (DocumentEnricher.isSteady_enrich hembed e) (fun w => ?_) ?_ w
    · exact Build.wp_mono (DocumentEnricher.wp_enrich (fun _ _ => Embedder.wp_embed _ _) e)
        (fun _ _ hx => hx.1.1) fun _ _ h => h
    · have hcode : Entity.codeKinds.contains e.kind = false := by
        have hmem : e.kind ∈ Entity.documentKinds := by simpa using hkind
        simp only [Entity.documentKinds, List.mem_cons, List.not_mem_nil, or_false] at hmem
        rcases hmem with hmem | hmem <;> rw [hmem] <;> decide
      rw [saidBy, hcode, if_neg Bool.false_ne_true]

end Settings

end RepoGraph
