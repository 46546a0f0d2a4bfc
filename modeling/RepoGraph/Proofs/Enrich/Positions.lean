import RepoGraph.Proofs.Success

/-!
# What becomes of each entity

The second stage puts out one entity for each that it reads, in the same order, but it finds the
enriched ones again by their ids.  Where several entities have one id, each of their positions holds
the same one: `Enriching.standIn`, the last document or asset with the id, else the last code with
it.  An entity that has its id to itself is put out unchanged, whatever the services outside answer.

Main statements: `Enriching.entity_collect`, `Settings.carriesAll_of_enriching`.
-/

namespace RepoGraph

open Populating (fileSettings quiet)

variable {s : Settings} {config : BuildConfig} {outside : Outside} {w : World}

namespace Enriching

variable {entities : List Entity} {e : Entity} {input : ParseOutput} {output : EnrichOutput}

/-! ### Entities with one id -/

/-- The entity that is put out for one of some entities. -/
def standIn (entities : List Entity) (e : Entity) : Entity :=
  ((Entity.lastOf? (ofKinds Entity.documentKinds entities) e.id).or
    (Entity.lastOf? (ofKinds Entity.codeKinds entities) e.id)).getD e

theorem id_standIn (entities : List Entity) (e : Entity) : (standIn entities e).id = e.id := by
  rw [standIn]
  cases hdocument : Entity.lastOf? (ofKinds Entity.documentKinds entities) e.id with
  | some x => exact Entity.id_of_lastOf? hdocument
  | none =>
    rw [Option.none_or]
    cases hcode : Entity.lastOf? (ofKinds Entity.codeKinds entities) e.id with
    | some x => exact Entity.id_of_lastOf? hcode
    | none => rfl

/-- What is put out for an entity is one of the entities. -/
theorem standIn_mem (he : e ∈ entities) : standIn entities e ∈ entities := by
  have hmem {kinds : List String} {x : Entity}
      (h : Entity.lastOf? (ofKinds kinds entities) e.id = some x) : x ∈ entities :=
    (List.mem_filter.1 (Entity.mem_of_lastOf? h)).1
  rw [standIn]
  cases hdocument : Entity.lastOf? (ofKinds Entity.documentKinds entities) e.id with
  | some x => exact hmem hdocument
  | none =>
    rw [Option.none_or]
    cases hcode : Entity.lastOf? (ofKinds Entity.codeKinds entities) e.id with
    | some x => exact hmem hcode
    | none => exact he

/-- An entity that has its id to itself is put out. -/
theorem standIn_eq_self (he : e ∈ entities) (h : ∀ e' ∈ entities, e'.id = e.id → e' = e) :
    standIn entities e = e :=
  h _ (standIn_mem he) (id_standIn entities e)

theorem map_standIn_of_nodup (h : (entities.map Entity.id).Nodup) :
    entities.map (standIn entities) = entities := by
  have heq : entities.map (standIn entities) = entities.map id :=
    List.map_congr_left fun e he =>
      standIn_eq_self he fun e' he' hid => List.inj_on_of_nodup_map h he' he hid
  rwa [List.map_id] at heq

/-! ### The output -/

/-- The last enriched entity with an id is one of the last entity with the id. -/
theorem lastOf?_of_forall₂ {enriched : List Enriched}
    (h : List.Forall₂ (fun e x => x.entity = e) entities enriched) (id : String) :
    (lastOf? enriched id).map Enriched.entity = Entity.lastOf? entities id := by
  have hmap : entities = enriched.map Enriched.entity := by
    induction h with
    | nil => rfl
    | cons hx _ ih => rw [List.map_cons, hx, ← ih]
  rw [hmap, Entity.lastOf?, ← List.map_reverse, List.find?_map, lastOf?]
  rfl

/-- The entities that are put out. -/
theorem entity_collect {code documents : List Enriched}
    (hcode : List.Forall₂ (fun e x => x.entity = e) (ofKinds Entity.codeKinds entities) code)
    (hdocuments :
      List.Forall₂ (fun e x => x.entity = e) (ofKinds Entity.documentKinds entities) documents) :
    (collect entities (code ++ documents)).map Enriched.entity =
      entities.map (standIn entities) := by
  rw [collect, List.map_map]
  refine List.map_congr_left fun e _ => ?_
  rw [Function.comp_apply, standIn, ← lastOf?_of_forall₂ hdocuments, ← lastOf?_of_forall₂ hcode,
    lastOf?_append]
  cases lastOf? documents e.id with
  | some x => rfl
  | none => cases lastOf? code e.id <;> rfl

/-- The metadata that are handed on are those of the input. -/
theorem get?_metadata_of_mem (stamp : String) (count : Nat) (given : Fields) {key : String}
    (hkey : key ∈ forwarded) : (metadata stamp count given).get? key = given.get? key := by
  -- among the keys that are handed on the first one with the name is found, if it was given
  have hkept {keys : List String} (h : key ∈ keys) :
      Fields.get? (keys.filterMap fun k => (given.get? k).map fun value => (k, value)) key =
        given.get? key := by
    induction keys with
    | nil => cases h
    | cons k rest ih =>
      rw [List.filterMap_cons]
      by_cases hk : k = key
      · subst hk
        cases hvalue : given.get? k with
        | some value => simp [Fields.get?]
        | none =>
          refine Fields.get?_eq_none_iff.2 fun hmem => ?_
          obtain ⟨f, hf, rfl⟩ := List.mem_map.1 hmem
          obtain ⟨k', -, hk'⟩ := List.mem_filterMap.1 hf
          obtain ⟨value, hsome, rfl⟩ := Option.map_eq_some_iff.1 hk'
          rw [hvalue] at hsome
          cases hsome
      · have hrest := ih ((List.mem_cons.1 h).resolve_left (Ne.symm hk))
        cases given.get? k with
        | none => exact hrest
        | some value => simpa [Fields.get?, hk] using hrest
  have hnew : ∀ k ∈ forwarded, "timestamp" ≠ k ∧ "entitiesEnriched" ≠ k := by decide
  rw [metadata, Fields.get?_append, hkept hkey]
  simp [Fields.get?, hnew key hkey]

/-- An output holds every entity of an input at its position, or the one that stands in for it, and
the relationships and the metadata that are handed on. -/
structure CarriesAll (input : ParseOutput) (output : EnrichOutput) : Prop where
  entities_eq : output.entities.map Enriched.entity = input.entities.map (standIn input.entities)
  /-- Where no two entities have one id, nothing stands in for anything else. -/
  entities_eq_self : (input.entities.map Entity.id).Nodup →
    output.entities.map Enriched.entity = input.entities
  ids_eq : output.entities.map Enriched.id = input.entities.map Entity.id
  relationships_eq : output.relationships = input.relationships
  told_eq : ∀ key ∈ forwarded, output.metadata.get? key = input.metadata.get? key

theorem IsOutputOf.carriesAll (h : IsOutputOf (fun e x => x.entity = e) input output) :
    CarriesAll input output := by
  obtain ⟨code, documents, hcode, hdocuments, heq⟩ := h.entities_eq
  obtain ⟨stamp, hmetadata⟩ := h.metadata_eq
  have hentities : output.entities.map Enriched.entity =
      input.entities.map (standIn input.entities) := by
    rw [heq]
    exact entity_collect hcode hdocuments
  refine ⟨hentities, fun hnodup => ?_, h.ids_eq.1, h.relationships_eq, fun key hkey => ?_⟩
  · rw [hentities, map_standIn_of_nodup hnodup]
  · rw [hmetadata]
    exact get?_metadata_of_mem _ _ _ hkey

end Enriching

namespace Settings

open Staging (heldOutput IsLaidOut)

/-- Whatever the services outside answer, the second stage puts out each entity that was staged, or
the one that stands in for it; where nothing is refused and there is room it ends well. -/
theorem carriesAll_of_enriching (s : Settings) (config : BuildConfig) (outside : Outside) (w : World)
    (input : ParseOutput)
    (hheld : heldOutput Entity.ofJson config.stagingPath "parse" w.disk w.cwd = some input) :
    (∀ output w', (s.enriching config).run outside w = (.ok output, w') →
      Enriching.CarriesAll input output) ∧
    (outside.IsCalm → s.HasProvider → IsLaidOut config.stagingPath w.disk w.cwd →
      ∃ output w', (s.enriching config).run outside w = (.ok output, w')) := by
  refine ⟨fun output w' hrun => ?_, fun hcalm hprovider hroom => ?_⟩
  · obtain ⟨input', hheld', houtput, -⟩ := Build.of_wp_of_ok wp_enriching_entity hrun
    obtain rfl := Option.some.inj (hheld.symm.trans hheld')
    exact houtput.carriesAll
  · obtain ⟨output, w', hrun, -⟩ :=
      Build.exists_run_of_wp (succeeds_enriching hcalm hprovider hheld hroom)
    exact ⟨output, w', hrun⟩

/-! ### Two functions with one name -/

/-- The output of the first stage for a file in which a function is written twice. -/
def functionTwice : String :=
  "\x7b\"entities\":[" ++
    "\x7b\"id\":\"function:b:f\",\"type\":\"function\",\"path\":\"b\",\"content\":\"first\"\x7d," ++
    "\x7b\"id\":\"function:b:f\",\"type\":\"function\",\"path\":\"b\",\"content\":\"second\"\x7d]\x7d"

/-- A staging area with a text in place of the output of the first stage. -/
def parsedWorld (text : String) : World :=
  World.ofDisk (emptyDisk.put ["s", "parse", "output.json"] (.file (.text text))) []

/-- The contents of the entities that are staged and of those that are put out. -/
theorem contents_functionTwice :
    (heldOutput Entity.ofJson "s" "parse" (parsedWorld functionTwice).disk []).map
        (fun input => input.entities.map Entity.content) = some [some "first", some "second"] ∧
      ((fileSettings.enriching Populating.incrementalConfig).run quiet
        (parsedWorld functionTwice)).1.toOption.map
          (fun output => output.entities.map fun x => x.entity.content) =
        some [some "second", some "second"] := by
  refine ⟨?_, ?_⟩ <;> decide +kernel

theorem carriesAll_of_enriching_functionTwice :
    ∃ input output w',
      heldOutput Entity.ofJson "s" "parse" (parsedWorld functionTwice).disk [] = some input ∧
        (fileSettings.enriching Populating.incrementalConfig).run quiet (parsedWorld functionTwice) =
          (.ok output, w') ∧
        Enriching.CarriesAll input output := by
  obtain ⟨input, hheld, -⟩ := Option.map_eq_some_iff.1 contents_functionTwice.1
  have hroom : IsLaidOut "s" (parsedWorld functionTwice).disk [] := by decide +kernel
  have h := carriesAll_of_enriching fileSettings Populating.incrementalConfig quiet
    (parsedWorld functionTwice) input hheld
  obtain ⟨output, w', hrun⟩ := h.2 (fun _ _ => rfl) (.inl rfl) hroom
  exact ⟨input, output, w', hheld, hrun, h.1 output w' hrun⟩

/-- Both positions hold the second function; the first one is lost. -/
theorem entities_ne_of_enriching :
    ∃ input output w',
      heldOutput Entity.ofJson "s" "parse" (parsedWorld functionTwice).disk [] = some input ∧
        (fileSettings.enriching Populating.incrementalConfig).run quiet (parsedWorld functionTwice) =
          (.ok output, w') ∧
        output.entities.map Enriched.entity ≠ input.entities := by
  obtain ⟨hinput, houtput⟩ := contents_functionTwice
  obtain ⟨input, hheld, hcontents⟩ := Option.map_eq_some_iff.1 hinput
  obtain ⟨output, hok, hcontents'⟩ := Option.map_eq_some_iff.1 houtput
  refine ⟨input, output, _, hheld, Prod.ext ?_ rfl, fun heq => ?_⟩
  · revert hok
    cases ((fileSettings.enriching Populating.incrementalConfig).run quiet
      (parsedWorld functionTwice)).1 <;> simp [Except.toOption]
  · rw [← heq, List.map_map] at hcontents
    have hsame : [some "second", some "second"] = [some "first", some "second"] :=
      hcontents'.symm.trans hcontents
    exact absurd hsame (by decide)

end Settings

end RepoGraph
