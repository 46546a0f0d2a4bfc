import RepoGraph.Proofs.Extract.Kept
import RepoGraph.Proofs.Success

/-!
# What is staged comes back

Whatever files hold and whatever the services answer, the outputs of the first two stages are staged
without a loss: their texts can be written, and reading the staging area gives the output back,
entity by entity and field by field.  A part that is missing stays missing, and an empty one stays
empty.

Main statement: `Settings.isLossless_staged`.
-/

namespace RepoGraph

/-! ### Records that come back -/

namespace Entity.IsKept

variable {e : Entity}

theorem asRead_eq (h : e.IsKept) : e.asRead = e := by
  have hmetadata := h.metadata.asRead_eq
  rw [Json.asRead, Json.obj.injEq] at hmetadata
  rw [Entity.asRead, hmetadata]

theorem mem_toFields (h : e.IsKept) : ∀ field ∈ e.toFields, field.2.IsKept := by
  intro field hfield
  simp only [toFields, List.mem_append, List.mem_cons, List.not_mem_nil, or_false, List.mem_map,
    Option.mem_toList] at hfield
  obtain ((rfl | rfl | rfl | rfl | rfl) | ⟨text, -, rfl⟩) | ⟨l, hl, rfl⟩ := hfield
  · exact .str _
  · exact .str _
  · exact .str _
  · exact .str _
  · exact h.metadata
  · exact .str text
  · exact h.location l hl

theorem toJson (h : e.IsKept) : e.toJson.IsKept :=
  .obj ((names_toFields e).nodup (by decide)) h.mem_toFields

end Entity.IsKept

/-- What enriching says comes back. -/
theorem Enrichment.IsSaid.mem_toFields {x : Enrichment} (h : x.IsSaid) :
    ∀ field ∈ x.toFields, field.2.IsKept := by
  intro field hfield
  simp only [toFields, List.mem_append, List.mem_map, Option.mem_toList] at hfield
  obtain ((((⟨s, -, rfl⟩ | ⟨s, -, rfl⟩) | ⟨patterns, -, rfl⟩) | ⟨s, -, rfl⟩) | ⟨n, hn, rfl⟩) |
    ⟨v, hv, rfl⟩ := hfield
  · exact .str s
  · exact .str s
  · exact .strings patterns
  · exact .str s
  · obtain ⟨hone, hten⟩ := h.complexity n hn
    lift n to Nat using by omega
    exact .ofNat (by omega)
  · obtain ⟨vector, rfl⟩ := h.embedding v hv
    refine .arr fun item hitem => ?_
    rw [List.map_map] at hitem
    obtain ⟨x, -, rfl⟩ := List.mem_map.1 hitem
    exact .float x

/-- Whether an entity and what is said about it come back from their text. -/
structure Enriched.IsKept (x : Enriched) : Prop where
  entity : x.entity.IsKept
  enrichment : x.enrichment.IsSaid

namespace Enriched.IsKept

variable {x : Enriched}

theorem asRead_eq (h : x.IsKept) : x.asRead = x := by
  rw [Enriched.asRead, h.entity.asRead_eq]

theorem toJson (h : x.IsKept) : x.toJson.IsKept := by
  refine .obj ?_ fun field hfield => ?_
  · rw [Fields.names_append]
    exact ((Entity.names_toFields _).append (Enrichment.names_toFields _)).nodup (by decide)
  · rcases List.mem_append.1 hfield with hfield | hfield
    · exact h.entity.mem_toFields field hfield
    · exact h.enrichment.mem_toFields field hfield

end Enriched.IsKept

namespace Relationship.IsKept

variable {r : Relationship}

theorem asRead_eq (h : r.IsKept) : r.asRead = r := by
  have hproperties := Json.IsKept.asRead_eq h
  rw [Json.asRead, Json.obj.injEq] at hproperties
  rw [Relationship.asRead, hproperties]

theorem toJson (h : r.IsKept) : r.toJson.IsKept :=
  .cons rfl (.str _) (.cons rfl (.str _) (.cons rfl (.str _) (.cons rfl (.str _)
    (.cons rfl h .noFields))))

end Relationship.IsKept

/-- Whether an output comes back from its text, given whether an entity does. -/
structure Output.IsKept {α : Type} (entity : α → Prop) (output : Output α) : Prop where
  entities : ∀ a ∈ output.entities, entity a
  relationships : ∀ r ∈ output.relationships, r.IsKept
  metadata : (Json.obj output.metadata).IsKept

namespace Output.IsKept

variable {α : Type} {entity : α → Prop} {output : Output α}

theorem asRead_eq (h : output.IsKept entity) {read : α → α} (hread : ∀ a, entity a → read a = a) :
    output.asRead read = output := by
  have hmetadata := h.metadata.asRead_eq
  rw [Json.asRead, Json.obj.injEq] at hmetadata
  rw [Output.asRead, hmetadata, List.map_congr_left
    fun a ha => hread a (h.entities a ha), List.map_id',
    List.map_congr_left fun r hr => (h.relationships r hr).asRead_eq, List.map_id']

theorem toJson (h : output.IsKept entity) {json : α → Json}
    (hjson : ∀ a, entity a → (json a).IsKept) :
    (Output.toJson json output).IsKept := by
  refine .cons rfl (.arr ?_) (.cons rfl (.arr ?_) (.cons rfl h.metadata .noFields))
  · exact List.forall_mem_map.2 fun a ha => hjson a (h.entities a ha)
  · exact List.forall_mem_map.2 fun r hr => (h.relationships r hr).toJson

end Output.IsKept

/-! ### Through the staging area -/

namespace Staging

variable {α : Type} {toJson : α → Json} {ofJson : Json → Except RecordFault α} {stage : String}
  {output : Output α}

/-- Stages the output of a stage and reads it back. -/
def passOn (toJson : α → Json) (ofJson : Json → Except RecordFault α) (staging stage : String)
    (output : Output α) : Build (Output α) := do
  let _ ← write staging stage (Output.toJson toJson output)
  Build.take .record (Output.ofJson ofJson (← read staging stage))

/-- Whether an output is staged without a loss: no integer in it is too long to be written, and
wherever it is taken and nothing is refused, it is read back as it was and stays there. -/
structure IsLossless (toJson : α → Json) (ofJson : Json → Except RecordFault α) (stage : String)
    (output : Output α) : Prop where
  isShort : (Output.toJson toJson output).isShort = true
  run_passOn : ∀ {staging outside w made}, outside.IsCalm → Takes staging stage w.disk made w.cwd →
    ∃ w', (passOn toJson ofJson staging stage output).run outside w = (.ok output, w') ∧
      heldOutput ofJson staging stage w'.disk w'.cwd = some output

/-- An output that comes back from its text is read as it was, and stays there. -/
theorem wp_passOn {outside : Outside} {w : World} {staging : String} {made : Disk}
    {entity : α → Prop}
    {read : α → α} (hofJson : ∀ a, ofJson (toJson a).asRead = .ok (read a))
    (hread : ∀ a, entity a → read a = a) (hjson : ∀ a, entity a → (toJson a).IsKept)
    (h : output.IsKept entity) (hcalm : outside.IsCalm)
    (htakes : Takes staging stage w.disk made w.cwd) :
    (passOn toJson ofJson staging stage output).wp
      (fun output' w' => output' = output ∧
        heldOutput ofJson staging stage w'.disk w'.cwd = some output ∧
          KeepsRoom { w with disk := made } w') (fun _ _ => False) outside w := by
  simp only [passOn, Build.wp_bind]
  refine Build.wp_mono (Build.wp_and (succeeds_write hcalm htakes _) (wp_write _ _ _))
    (fun _ w₁ hw₁ => ?_) fun _ _ hw₁ => hw₁.1
  obtain ⟨hkeeps, halters, hfile, hreached⟩ := hw₁
  -- the staging area now holds the output as its text is read, which is the output itself
  have hheld := heldOutput_of_fileAt hofJson hreached hfile (h.toJson hjson).isShort_eq
  rw [h.asRead_eq hread, ← halters.cwd_eq] at hheld
  obtain ⟨object, hobject, houtput⟩ := Option.bind_eq_some_iff.1 hheld
  refine Build.wp_mono ((succeeds_read hcalm (Option.isSome_iff_exists.2 ⟨object, hobject⟩)).wp
    (wp_read _ _)) (fun object' w₂ hw₂ => ?_) fun _ _ => id
  obtain ⟨hobject', hnotes⟩ := hw₂
  obtain rfl : object = object' := Option.some.inj (hobject.symm.trans hobject')
  rw [Build.wp_take]
  cases hdecode : Output.ofJson ofJson object with
  | error fault =>
    rw [hdecode] at houtput
    cases houtput
  | ok output' =>
    rw [hdecode] at houtput
    obtain rfl := Option.some.inj houtput
    refine ⟨fun a ha => ⟨(Except.ok.inj ha).symm, ?_, hkeeps.trans hnotes.keepsRoom⟩,
      fun _ h => by cases h⟩
    obtain ⟨events, rfl⟩ := hnotes
    exact hheld

theorem isLossless_of_isKept {entity : α → Prop} {read : α → α}
    (hofJson : ∀ a, ofJson (toJson a).asRead = .ok (read a)) (hread : ∀ a, entity a → read a = a)
    (hjson : ∀ a, entity a → (toJson a).IsKept) (h : output.IsKept entity) :
    IsLossless toJson ofJson stage output := by
  refine ⟨(h.toJson hjson).isShort_eq, fun hcalm htakes => ?_⟩
  obtain ⟨_, w', hrun, rfl, hheld, -⟩ :=
    Build.exists_run_of_wp (wp_passOn hofJson hread hjson h hcalm htakes)
  exact ⟨w', hrun, hheld⟩

end Staging

/-! ### What the stages put out -/

open Syntax (File)

/-- Whether this was found in files, in as many of them and in as much text as a memory holds. -/
structure Reading.IsFound (found : List (String × Findings)) : Prop where
  texts : ∀ f ∈ found, ∃ text, File.byteCount text.toList < 2 ^ 63 ∧
    Extract.file f.1 text = .ok f.2
  files : found.length < 2 ^ 63
  entities : (found.flatMap fun f => f.2.entities).length < 2 ^ 63
  relationships : (found.flatMap fun f => f.2.relationships).length < 2 ^ 63

variable {config : BuildConfig} {stamp revision : String} {found : List (String × Findings)}
  {removed : List String}

theorem Reading.isKept_output (h : IsFound found) :
    (output config stamp revision found removed).IsKept Entity.IsKept := by
  have hfound : ∀ f ∈ found, f.2.IsKept := by
    intro f hf
    obtain ⟨text, hsize, hfile⟩ := h.texts f hf
    have hcount := (List.sublist_flatten_of_mem (List.mem_map_of_mem hf)).length_le.trans_lt
      h.relationships
    exact Extract.isKept_file hsize hfile hcount
  have hpaths : (Json.arr (found.map fun f => .str f.1)).IsKept := by
    have hstrings := Json.IsKept.strings (found.map Prod.fst)
    rw [List.map_map] at hstrings
    exact hstrings
  refine ⟨fun e he => ?_, fun r hr => ?_, ?_⟩
  · obtain ⟨f, hf, he⟩ := List.mem_flatMap.1 he
    exact (hfound f hf).entities e he
  · obtain ⟨f, hf, hr⟩ := List.mem_flatMap.1 hr
    exact (hfound f hf).relationships r hr
  · exact .cons rfl (.str _) (.cons rfl (.str _) (.cons rfl (.ofNat h.files.le) (.cons rfl (.str _)
      (.cons rfl hpaths (.cons rfl (.strings removed) .noFields)))))

namespace Enriching

theorem isKept_metadata {count : Nat} {given : Fields} (hcount : count < 2 ^ 63)
    (h : (Json.obj given).IsKept) : (Json.obj (metadata stamp count given)).IsKept := by
  refine .obj ((Handover.names_metadata stamp count given).nodup (by decide)) fun field hfield => ?_
  rcases List.mem_append.1 hfield with hfield | hfield
  · simp only [List.mem_cons, List.not_mem_nil, or_false] at hfield
    rcases hfield with rfl | rfl
    · exact .str stamp
    · exact .ofNat hcount.le
  · obtain ⟨key, -, hkey⟩ := List.mem_filterMap.1 hfield
    obtain ⟨value, hvalue, rfl⟩ := Option.map_eq_some_iff.1 hkey
    exact h.get? hvalue

/-- Entities that are code are no documents, so not more are enriched than there are. -/
theorem length_ofKinds_le (entities : List Entity) :
    (ofKinds Entity.codeKinds entities).length + (ofKinds Entity.documentKinds entities).length ≤
      entities.length := by
  induction entities with
  | nil => exact Nat.le_refl _
  | cons e rest ih =>
    have hdisjoint : Entity.codeKinds.contains e.kind = true →
        Entity.documentKinds.contains e.kind = false := by
      simp only [Entity.codeKinds, List.contains_iff_mem, List.mem_cons, List.not_mem_nil, or_false]
      rintro (h | h | h | h) <;> rw [h] <;> decide
    simp only [ofKinds, List.filter_cons, List.length_cons] at ih ⊢
    split <;> split <;> simp_all <;> omega

theorem IsOutputOf.isKept {input : ParseOutput} {output : EnrichOutput}
    (h : IsOutputOf (fun e x => x.entity = e ∧ x.enrichment.IsSaid) input output)
    (hkept : input.IsKept Entity.IsKept) (hcount : input.entities.length < 2 ^ 63) :
    output.IsKept Enriched.IsKept := by
  refine ⟨fun x hx => ?_, fun r hr => ?_, ?_⟩
  · obtain ⟨e, he, ⟨rfl, hsaid⟩ | rfl⟩ := h.exists_of_mem hx
    · exact ⟨hkept.entities _ he, hsaid⟩
    · exact ⟨hkept.entities e he, Enrichment.isSaid_none⟩
  · exact hkept.relationships r (h.relationships_eq ▸ hr)
  · obtain ⟨stamp, hmetadata⟩ := h.metadata_eq
    rw [hmetadata]
    exact isKept_metadata ((length_ofKinds_le _).trans_lt hcount) hkept.metadata

end Enriching

open Staging (IsLossless)

/-- Whatever was found in files is staged without a loss, and so is what enriching makes of it,
whatever the services answer.  An embedding that holds no number keeps it: nothing counts as another
number than itself. -/
theorem Settings.isLossless_staged (h : Reading.IsFound found) :
    IsLossless Entity.toJson Entity.ofJson Reading.stage
        (Reading.output config stamp revision found removed) ∧
      ∀ (s : Settings) (config' : BuildConfig) (outside : Outside) (w w' : World)
        (output : EnrichOutput),
        Staging.heldOutput Entity.ofJson config'.stagingPath Reading.stage w.disk w.cwd =
            some (Reading.output config stamp revision found removed) →
          (s.enriching config').run outside w = (.ok output, w') →
            IsLossless Enriched.toJson Enriched.ofJson Enriching.stage output := by
  have hkept : (Reading.output config stamp revision found removed).IsKept Entity.IsKept :=
    Reading.isKept_output h
  refine ⟨Staging.isLossless_of_isKept Entity.ofJson_asRead (fun _ h => h.asRead_eq)
    (fun _ h => h.toJson) hkept, fun s config' outside w w' output hheld hrun => ?_⟩
  obtain ⟨input, hinput, houtput, -⟩ := Build.of_wp_of_ok Settings.wp_enriching_said hrun
  obtain rfl := Option.some.inj (hheld.symm.trans hinput)
  exact Staging.isLossless_of_isKept Enriched.ofJson_asRead (fun _ h => h.asRead_eq)
    (fun _ h => h.toJson) (houtput.isKept hkept h.entities)

namespace Settings

open Populating (fileSettings quiet)
open Staging (IsLaidOut)

/-- A manifest of a package with a version that is no text and one package that it depends on. -/
def manifestText : String :=
  "\x7b\"name\": null, \"version\": [1.5, -0.0], \"dependencies\": \x7b\"q\": \x7b\"\": \"\\ud83d\\ude00\"\x7d\x7d\x7d"

/-- What is found in the manifest. -/
def manifestFindings : Findings :=
  ((Extract.file "package.json" manifestText).toOption).getD .empty

theorem file_manifestText : Extract.file "package.json" manifestText = .ok manifestFindings := by
  have hok : (Extract.file "package.json" manifestText).toOption.isSome = true := by decide +kernel
  rw [manifestFindings]
  generalize Extract.file "package.json" manifestText = found at hok ⊢
  cases found with
  | error f => cases hok
  | ok found => rfl

theorem isFound_manifest : Reading.IsFound [("package.json", manifestFindings)] := by
  refine ⟨List.forall_mem_singleton.2 ⟨manifestText, by decide, file_manifestText⟩, ?_, ?_, ?_⟩ <;>
    decide +kernel

/-- What the first stage puts out for the manifest. -/
abbrev manifestOutput : ParseOutput :=
  Reading.output Populating.incrementalConfig "t" "r" [("package.json", manifestFindings)] []

theorem isLossless_staged_manifest :
    Reading.IsFound [("package.json", manifestFindings)] ∧
      ∃ output w w' w'',
        (Staging.passOn Entity.toJson Entity.ofJson "s" Reading.stage manifestOutput).run quiet
            (World.ofDisk emptyDisk []) = (.ok manifestOutput, w) ∧
          (fileSettings.enriching Populating.incrementalConfig).run quiet w = (.ok output, w') ∧
          (Staging.passOn Enriched.toJson Enriched.ofJson "s" Enriching.stage output).run quiet w' =
            (.ok output, w'') := by
  obtain ⟨hparsed, henriched⟩ :=
    @isLossless_staged Populating.incrementalConfig "t" "r" _ [] isFound_manifest
  have hcalm : quiet.IsCalm := fun _ _ => rfl
  obtain ⟨w, hrun, hheld⟩ := hparsed.run_passOn (w := World.ofDisk emptyDisk []) hcalm
    (isLaidOut_emptyDisk.takes List.mem_cons_self)
  have htakes : Staging.Takes "s" Reading.stage (World.ofDisk emptyDisk []).disk emptyDisk [] :=
    isLaidOut_emptyDisk.takes List.mem_cons_self
  obtain ⟨-, -, hkeeps⟩ := Build.of_wp_of_ok (Staging.wp_passOn Entity.ofJson_asRead
    (fun _ h => h.asRead_eq)
      (fun _ h => h.toJson) (Reading.isKept_output isFound_manifest) hcalm htakes)
    hrun
  have hroom := isLaidOut_emptyDisk.keeps hkeeps
  obtain ⟨output, w', henriching, hkeeps'⟩ := Build.exists_run_of_wp
    (@succeeds_enriching quiet w fileSettings Populating.incrementalConfig hcalm
      (.inl rfl) _ hheld hroom)
  obtain ⟨w'', hrun'', -⟩ :=
    (henriched fileSettings Populating.incrementalConfig quiet w w' output hheld
    henriching).run_passOn hcalm ((hroom.keeps hkeeps').takes (by simp))
  exact ⟨isFound_manifest, output, w, w', w'', hrun, henriching, hrun''⟩

end Settings

end RepoGraph
