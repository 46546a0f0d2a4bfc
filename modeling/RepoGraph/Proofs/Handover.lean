import RepoGraph.Proofs.Enriching
import RepoGraph.Proofs.Populate.Mirror

/-!
# What the stages hand on

What the first stage finds in the selected files is staged as a text, read, enriched, staged and
read again before it comes into the stores.  On this way no entity is lost or mixed up: an id still
stands for the last entity that has it, the path and the kind are as they were, and so are the lists
of the files that were read and of those that are gone.

Filling the stores may be stopped anywhere.  If the nodes were among those of some trees before, and
the output is of one of these trees, they are among those of the same trees wherever it stops: what
is merged is of that tree, and what is removed is not an id that all trees have.

Main statements: `Handover.carries_said`, `Handover.carries_path`, `Populating.Among.of_reaches`.
-/

namespace RepoGraph

open Source (Tree IsLast HasPlainNames findingsAt entitiesAt)
open Populating (Carries IsTouched told)

namespace Handover

variable {config : BuildConfig} {stamp revision project : String} {t : Tree}
  {paths gone : List String} {input : ParseOutput} {output : EnrichOutput}

/-- The selected files in which something was found. -/
def parsed (t : Tree) (paths : List String) : List String :=
  (Reading.foundIn t paths).map Prod.fst

theorem mem_parsed {path : String} :
    path ∈ parsed t paths ↔ path ∈ paths ∧ (findingsAt t path).isSome := by
  simp only [parsed, Reading.foundIn, List.mem_map, List.mem_filterMap, Option.map_eq_some_iff]
  constructor
  · rintro ⟨f, ⟨p, hp, found, hfound, rfl⟩, rfl⟩
    exact ⟨hp, by rw [hfound]; rfl⟩
  · rintro ⟨hpath, hsome⟩
    obtain ⟨found, hfound⟩ := Option.isSome_iff_exists.1 hsome
    exact ⟨(path, found), ⟨path, hpath, found, hfound, rfl⟩, rfl⟩

/-- If something is found in every selected file, these are the files that are told of. -/
theorem parsed_eq (h : ∀ path ∈ paths, findingsAt t path ≠ none) : parsed t paths = paths := by
  induction paths with
  | nil => rfl
  | cons path rest ih =>
    have hrest : List.map Prod.fst (Reading.foundIn t rest) = rest :=
      ih fun p hp => h p (List.mem_cons_of_mem path hp)
    rw [parsed, Reading.foundIn_cons, List.map_append, hrest]
    cases hfound : findingsAt t path with
    | none => exact absurd hfound (h path List.mem_cons_self)
    | some found => rfl

/-- The entities of the first stage are those of the files that are told of. -/
theorem entities_outputOf (h : ∀ path ∈ paths, Source.isIncluded path = true) :
    (Reading.outputOf config stamp revision t (paths, gone)).entities =
      (parsed t paths).flatMap (entitiesAt t) := by
  have houtput : (Reading.outputOf config stamp revision t (paths, gone)).entities =
      (Reading.foundIn t paths).flatMap fun f => f.2.entities := rfl
  refine houtput.trans ?_
  rw [parsed, List.flatMap_map, List.flatMap_def, List.flatMap_def]
  refine congrArg List.flatten (List.map_congr_left fun f hf => ?_)
  simp only [Reading.foundIn, List.mem_filterMap, Option.map_eq_some_iff] at hf
  obtain ⟨path, hpath, found, hfound, rfl⟩ := hf
  rw [entitiesAt, if_pos (h path hpath), hfound]
  rfl

/-! ### Metadata -/

/-- The paths as the metadata list them. -/
def listed (paths : List String) : Json := .arr (paths.map .str)

theorem asRead_listed (paths : List String) : (listed paths).asRead = listed paths :=
  Json.asRead_arr_map (fun _ => by rw [Json.asRead]) paths

theorem pathsOf_listed (paths : List String) : Populating.pathsOf (listed paths) = .ok paths := by
  have hread : (paths.map Json.str).mapM Record.text = .ok (paths.map id) :=
    @Record.mapM_ok String String Json Record.text Json.str id (fun _ => rfl) paths
  rw [List.map_id] at hread
  show (if !(listed paths).isFilled then .ok [] else (paths.map Json.str).mapM Record.text) = _
  cases paths with
  | nil => rfl
  | cons p rest => exact hread

theorem lists_listed {path : String} : Populating.Lists (listed paths) path ↔ path ∈ paths := by
  simp [Populating.Lists, pathsOf_listed]

theorem get?_asReadFields {fields : Fields} (h : fields.names.Nodup) (name : String) :
    (Json.asReadFields [] fields).get? name = (fields.get? name).map Json.asRead := by
  have hget := Json.get?_asRead h name
  rwa [Json.asRead] at hget

theorem names_metadata (stamp : String) (count : Nat) (given : Fields) :
    (Fields.names (Enriching.metadata stamp count given)).Sublist
      (["timestamp", "entitiesEnriched"] ++ Enriching.forwarded) := by
  have hnames (keys : List String) :
      (Fields.names (keys.filterMap fun key => (given.get? key).map
        fun value => (key, value))).Sublist
        keys := by
    induction keys with
    | nil => exact .slnil
    | cons key rest ih =>
      rw [List.filterMap_cons]
      cases given.get? key with
      | none => exact ih.cons key
      | some value => exact ih.cons_cons key
  rw [Enriching.metadata, Fields.names_append]
  exact (List.Sublist.refl _).append (hnames _)

/-- The lists of files are handed on by the second stage. -/
theorem get?_metadata (stamp : String) (count : Nat) (given : Fields) {name : String}
    (hname : name = "parsedFiles" ∨ name = "deletedFiles") :
    (Enriching.metadata stamp count given).get? name = given.get? name := by
  rcases hname with rfl | rfl <;>
    cases hcommit : given.get? "commit" <;> cases hmode : given.get? "mode" <;>
      cases hparsed : given.get? "parsedFiles" <;> cases hdeleted : given.get? "deletedFiles" <;>
        simp [Enriching.metadata, Enriching.forwarded, Fields.get?, hcommit, hmode,
          hparsed, hdeleted]

/-- What the third stage is told of files. -/
theorem told_handed {given : Fields} (h : given.names.Nodup) {name : String}
    (hname : name = "parsedFiles" ∨ name = "deletedFiles") {files : List String}
    (hfiles : given.get? name = some (listed files)) (count : Nat) :
    told (Json.asReadFields [] (Enriching.metadata stamp count (Json.asReadFields [] given))) name =
      listed files := by
  have hnames : (Fields.names
      (Enriching.metadata stamp count (Json.asReadFields [] given))).Nodup :=
    (names_metadata _ _ _).nodup (by decide)
  rw [told, get?_asReadFields hnames, get?_metadata _ _ _ hname, get?_asReadFields h, hfiles]
  simp [asRead_listed]

/-! ### Both artifacts -/

/-- Whether an output comes of what was found in some files, through both artifacts. -/
def IsHanded (R : Entity → Enriched → Prop) (config : BuildConfig) (t : Tree)
    (paths gone : List String) (held : EnrichOutput) : Prop :=
  ∃ stamp revision output, Enriching.IsOutputOf R
    ((Reading.outputOf config stamp revision t (paths, gone)).asRead Entity.asRead) output ∧
      held = output.asRead Enriched.asRead

variable {R : Entity → Enriched → Prop} {held : EnrichOutput}

/-- The files that the third stage is told of. -/
theorem IsHanded.told_eq (h : IsHanded R config t paths gone held) :
    told held.metadata "parsedFiles" = listed (parsed t paths) ∧
      told held.metadata "deletedFiles" = listed gone := by
  obtain ⟨stamp, revision, output, houtput, rfl⟩ := h
  obtain ⟨stamp', hmetadata⟩ := houtput.metadata_eq
  have hnames : (Fields.names
      (Reading.outputOf config stamp revision t (paths, gone)).metadata).Nodup :=
    (by decide : ["timestamp", "commit", "filesProcessed", "mode", "parsedFiles",
      "deletedFiles"].Nodup)
  obtain ⟨count, hheld⟩ : ∃ count, (output.asRead Enriched.asRead).metadata =
      Json.asReadFields [] (Enriching.metadata stamp' count (Json.asReadFields []
        (Reading.outputOf config stamp revision t (paths, gone)).metadata)) := by
    rw [Output.asRead, hmetadata]
    exact ⟨_, rfl⟩
  rw [hheld]
  refine ⟨told_handed hnames (.inl rfl) ?_ count, told_handed hnames (.inr rfl) rfl count⟩
  rw [listed, parsed, List.map_map]
  rfl

theorem IsHanded.touches (h : IsHanded R config t paths gone held) (node : Facts) :
    IsTouched held.metadata node ↔
      ∃ path, node "path" = some (.str path) ∧ (path ∈ parsed t paths ∨ path ∈ gone) := by
  obtain ⟨hparsed, hgone⟩ := h.told_eq
  have hnot : ¬ (listed (parsed t paths) = .null ∧ listed gone = .null) := fun h => by cases h.1
  rw [IsTouched, hparsed, hgone]
  simp only [hnot, false_or, lists_listed]

/-- The entities of both artifacts. -/
theorem IsHanded.exists_output (h : IsHanded R config t paths gone held)
    (hincluded : ∀ path ∈ paths, Source.isIncluded path = true) :
    ∃ input output, Enriching.IsOutputOf R input output ∧
      input.entities = ((parsed t paths).flatMap (entitiesAt t)).map Entity.asRead ∧
      held.entities = output.entities.map Enriched.asRead := by
  obtain ⟨stamp, revision, output, houtput, rfl⟩ := h
  refine ⟨_, output, houtput, ?_, rfl⟩
  rw [← entities_outputOf hincluded]
  rfl

theorem lastOf?_map_asRead (entities : List Enriched) (id : String) :
    Enriching.lastOf? (entities.map Enriched.asRead) id =
      (Enriching.lastOf? entities id).map Enriched.asRead := by
  rw [Enriching.lastOf?, ← List.map_reverse, List.find?_map, Enriching.lastOf?]
  rfl

/-- The entities that are read have the kinds and paths of those in the files. -/
theorem exists_of_mem {entities : List Entity}
    (h : entities = ((parsed t paths).flatMap (entitiesAt t)).map Entity.asRead) {e : Entity}
    (he : e ∈ entities) :
    ∃ path ∈ parsed t paths, ∃ e' ∈ entitiesAt t path, e = e'.asRead := by
  rw [h] at he
  obtain ⟨e', he', rfl⟩ := List.mem_map.1 he
  obtain ⟨path, hpath, he'⟩ := List.mem_flatMap.1 he'
  exact ⟨path, hpath, e', he', rfl⟩

/-- What the node of an entity says after a build, given what is said about entities. -/
def stored (said : Entity → Enrichment) (project : String) (e : Entity) : Facts :=
  (Enriching.settled said e.asRead).asRead.facts project

theorem path_stored (said : Entity → Enrichment) (project : String) (e : Entity) :
    stored said project e "path" = some (.str e.path) := by
  have hentity : (Enriching.settled said e.asRead).asRead.entity = e.asRead.asRead := by
    rw [Enriched.asRead, Enriching.entity_settled]
  show some (Json.str (Enriching.settled said e.asRead).asRead.entity.path) = _
  rw [hentity, Entity.path_asRead, Entity.path_asRead]

/-- A new node says what is said about its entity. -/
theorem laidOn_none_eq_stored (said : Entity → Enrichment) (project : String) (e : Entity) :
    (Enriching.settled said e.asRead).asRead.laidOn project none =
      some (stored said project e) := by
  rw [Enriched.laidOn, Option.getD_none, Facts.over_none, stored]

/-- An output carries the entities of the files, with what is said about them. -/
theorem carries_said {said : Entity → Enrichment} (hplain : HasPlainNames t)
    (hincluded : ∀ path ∈ paths, Source.isIncluded path = true)
    (h : IsHanded (fun e x => x = ⟨e, said e⟩) config t paths gone held) :
    Carries project (fun e facts => facts = stored said project e) t
      (parsed t paths) gone held := by
  have htouches := h.touches
  obtain ⟨input, output, houtput, hentities, hheld⟩ := h.exists_output hincluded
  have hkind : ∀ a ∈ input.entities, ∀ b ∈ input.entities, a.id = b.id → a.kind = b.kind := by
    intro a ha b hb hid
    obtain ⟨p, -, a', ha', rfl⟩ := exists_of_mem hentities ha
    obtain ⟨q, -, b', hb', rfl⟩ := exists_of_mem hentities hb
    exact (Source.eq_of_id_eq hplain hplain ha' hb' hid).2
  -- of the entities with one id the output holds the last one, in the order of the files
  have hlast (id : String) : Enriching.lastOf? held.entities id =
      (Entity.lastOf? ((parsed t paths).flatMap (entitiesAt t)) id).map fun e =>
        (Enriching.settled said e.asRead).asRead := by
    rw [hheld, lastOf?_map_asRead, houtput.entities_eq_collect, Enriching.lastOf?_collect hkind,
      hentities, Entity.lastOf?_map Entity.id_asRead, Option.map_map, Option.map_map]
    rfl
  refine ⟨fun path hpath id e he => ?_, fun id hid => ?_, htouches⟩
  · refine ⟨(Enriching.settled said e.asRead).asRead, ?_, fun node hnode => ?_⟩
    · rw [hlast, Source.lastOf?_flatMap hplain he hpath]
      rfl
    · refine ⟨stored said project e, ?_, rfl⟩
      cases node with
      | none => exact laidOn_none_eq_stored said project e
      | some facts =>
        -- the node was laid down by an earlier build, and is laid over whole
        obtain ⟨e', rfl⟩ := hnode facts rfl
        rw [← laidOn_none_eq_stored said project e', Enriched.laidOn_laidOn, laidOn_none_eq_stored]
  · -- an entity of the output stands in one of the files
    obtain ⟨x, hx, rfl⟩ := List.mem_map.1 hid
    have hsome : Enriching.lastOf? held.entities x.id ≠ none := fun hnone =>
      Enriching.lastOf?_eq_none_iff.1 hnone hid
    rw [hlast, ne_eq, Option.map_eq_none_iff] at hsome
    obtain ⟨e, he⟩ := Option.ne_none_iff_exists'.1 hsome
    obtain ⟨path, hpath, hmem⟩ := List.mem_flatMap.1 (Entity.mem_of_lastOf? he)
    obtain ⟨e', he'⟩ := Source.exists_isLast hmem
    rw [Entity.id_of_lastOf? he] at he'
    exact ⟨path, hpath, e', he'⟩

/-- Whether a node names the file of an entity. -/
def NamesFile (e : Entity) (facts : Facts) : Prop := facts "path" = some (.str e.path)

/-- Whatever is said about entities, each that is handed on has its file's path and an id of the
file. -/
theorem IsHanded.exists_isLast (h : IsHanded (fun e x => x.entity = e) config t paths gone held)
    (hincluded : ∀ path ∈ paths, Source.isIncluded path = true) {x : Enriched}
    (hx : x ∈ held.entities) :
    ∃ path ∈ parsed t paths, x.entity.path = path ∧ ∃ e, IsLast t path x.id e := by
  obtain ⟨input, output, houtput, hentities, hheld⟩ := h.exists_output hincluded
  rw [hheld] at hx
  obtain ⟨y, hy, rfl⟩ := List.mem_map.1 hx
  obtain ⟨path, hpath, e, he, heq⟩ := exists_of_mem hentities (houtput.ids_eq.2 y hy)
  obtain ⟨e', he'⟩ := Source.exists_isLast he
  refine ⟨path, hpath, ?_, e', ?_⟩
  · show y.entity.asRead.path = path
    rw [Entity.path_asRead, heq, Entity.path_asRead]
    exact (Source.isIn_of_mem_entitiesAt he).1
  · have hid : y.asRead.id = e.id := by
      rw [Enriched.id_asRead, Enriched.id, heq, Entity.id_asRead]
    rw [hid]
    exact he'

/-- A node names the file of the entity that was merged into it. -/
theorem path_laidOn (project : String) (x : Enriched) (node : Option Facts) :
    ∃ facts, x.laidOn project node = some facts ∧ facts "path" = some (.str x.entity.path) :=
  ⟨_, rfl, rfl⟩

/-- An output carries the entities of the files, whatever is said about them. -/
theorem carries_path (hplain : HasPlainNames t)
    (hincluded : ∀ path ∈ paths, Source.isIncluded path = true)
    (h : IsHanded (fun e x => x.entity = e) config t paths gone held) :
    Carries project NamesFile t (parsed t paths) gone held := by
  refine ⟨fun path hpath id e he => ?_, fun id hid => ?_, h.touches⟩
  · obtain ⟨input, output, houtput, hentities, hheld⟩ := h.exists_output hincluded
    have hmem : id ∈ held.entities.map Enriched.id := by
      have hids : held.entities.map Enriched.id = input.entities.map Entity.id := by
        rw [hheld, List.map_map, ← houtput.ids_eq.1]
        rfl
      rw [hids, hentities, List.map_map, List.mem_map]
      exact ⟨e, List.mem_flatMap.2 ⟨path, hpath, he.mem⟩, he.id_eq⟩
    obtain ⟨x, hx⟩ := Option.ne_none_iff_exists'.1 fun hnone =>
      Enriching.lastOf?_eq_none_iff.1 hnone hmem
    refine ⟨x, hx, fun node _ => ?_⟩
    obtain ⟨path', -, hpath', e', he'⟩ := h.exists_isLast hincluded (Enriching.mem_of_lastOf? hx)
    rw [Enriching.id_of_lastOf? hx] at he'
    obtain rfl : path = path' := he.unique hplain hplain he'
    obtain ⟨facts, hfacts, hnames⟩ := path_laidOn project x node
    exact ⟨facts, hfacts, by rw [NamesFile, hnames, hpath', he.path_eq]⟩
  · obtain ⟨x, hx, rfl⟩ := List.mem_map.1 hid
    obtain ⟨path, hpath, -, e, he⟩ := h.exists_isLast hincluded hx
    exact ⟨path, hpath, e, he⟩

end Handover

/-! ### Nodes while the stores are filled -/

open Handover (IsHanded NamesFile parsed)

namespace Populating

variable {config given : BuildConfig} {project : String} {Says : Entity → Facts → Prop}
  {trees trees' : Tree → Prop} {t : Tree} {g h : Graph} {entities : List Enriched}
  {paths gone removed : List String} {held : EnrichOutput}

theorem Among.mono (hg : Among project Says trees g) (hsub : ∀ t, trees t → trees' t) :
    Among project Says trees' g where
  of_node id node hnode := by
    obtain ⟨t, ht, rest⟩ := hg.of_node id node hnode
    exact ⟨t, hsub t ht, rest⟩
  node_of path id h := hg.node_of path id fun t ht => h t (hsub t ht)

theorem Among.congr (hg : Among project Says trees g)
    (heq : ∀ id, h.nodeFacts ⟨project, id⟩ = g.nodeFacts ⟨project, id⟩) :
    Among project Says trees h where
  of_node id node hnode := hg.of_node id node ((heq id).symm.trans hnode)
  node_of path id hid := by
    rw [heq]
    exact hg.node_of path id hid

/-- What a node names after entities of a tree were merged: a file of the tree, or what it named. -/
theorem Among.of_nodeAfter (hg : Among project NamesFile trees g) (ht : trees t)
    (hentities : ∀ x ∈ entities, ∃ e, IsLast t x.entity.path x.id e) {id : String} {node : Facts}
    (hnode : Enriched.nodeAfter project entities id (g.nodeFacts ⟨project, id⟩) = some node) :
    ∃ t, trees t ∧ ∃ path e, IsLast t path id e ∧ NamesFile e node := by
  rw [Enriched.nodeAfter] at hnode
  cases hlast : Enriching.lastOf? entities id with
  | none =>
    rw [hlast] at hnode
    exact hg.of_node id node hnode
  | some x =>
    rw [hlast] at hnode
    obtain ⟨e, he⟩ := hentities x (Enriching.mem_of_lastOf? hlast)
    obtain ⟨facts, hfacts, hpath⟩ := Handover.path_laidOn project x (g.nodeFacts ⟨project, id⟩)
    obtain rfl : facts = node := Option.some.inj (hfacts.symm.trans hnode)
    rw [Enriching.id_of_lastOf? hlast] at he
    exact ⟨t, ht, _, e, he, by rw [NamesFile, hpath, he.path_eq]⟩

/-- Merging entities of a tree keeps the nodes among those of the trees. -/
theorem Among.merged (hg : Among project NamesFile trees g) (ht : trees t)
    (hentities : ∀ x ∈ entities, ∃ e, IsLast t x.entity.path x.id e)
    (hnodes : ∀ id, h.nodeFacts ⟨project, id⟩ =
      Enriched.nodeAfter project entities id (g.nodeFacts ⟨project, id⟩)) :
    Among project NamesFile trees h where
  of_node id node hnode := hg.of_nodeAfter ht hentities ((hnodes id).symm.trans hnode)
  node_of path id hid := by
    rw [hnodes, Enriched.nodeAfter]
    cases Enriching.lastOf? entities id with
    | none => exact hg.node_of path id hid
    | some x => rfl

section Handed

variable (hplain : ∀ t, trees t → HasPlainNames t) (ht : trees t)
  (hincluded : ∀ path ∈ paths, Source.isIncluded path = true)
  (hgone : ∀ path ∈ gone, Source.isIncluded path = true → t path = none ∨ path ∈ parsed t paths)
  (hheld : IsHanded (fun e x => x.entity = e) given t paths gone held)

include hincluded hheld in
/-- The entities that are handed on are of the tree. -/
theorem exists_isLast_of_handed : ∀ x ∈ held.entities, ∃ e, IsLast t x.entity.path x.id e := by
  intro x hx
  obtain ⟨path, -, hpath, e, he⟩ := hheld.exists_isLast hincluded hx
  exact ⟨e, hpath ▸ he⟩

include hplain ht hincluded hgone hheld

/-- Filling the stores with what was found in a tree keeps the nodes among those of the trees. -/
theorem Among.swept {merged : Graph} (hg : Among config.project NamesFile trees g)
    (hm : IsMerged config held g merged) (hsweep : sweep config held merged = .ok (h, removed)) :
    Among config.project NamesFile trees h where
  of_node id node hnode := by
    rw [nodeFacts_of_sweep hm hsweep] at hnode
    split at hnode
    · cases hnode
    · exact hg.of_nodeAfter ht (exists_isLast_of_handed hincluded hheld) hnode
  node_of path id hid := by
    obtain ⟨e, he⟩ := hid t ht
    exact hg.isSome_of_sweep hplain (hplain t ht) (fun _ _ h => h) hgone
      (Handover.carries_path (hplain t ht) hincluded hheld) hm hsweep he fun _ => hid

/-- Wherever filling the stores stops, the nodes are among those of the trees. -/
theorem Among.of_reaches {v : VectorStore} {outside : Outside} {c d : Collection}
    (hg : Among config.project NamesFile trees g)
    (hreaches : Reaches v config held outside g c h d) :
    Among config.project NamesFile trees h := by
  have hentities := exists_isLast_of_handed hincluded hheld
  cases hreaches with
  | entities hpart hm =>
    exact hg.merged ht (fun x hx => hentities x (hpart.subset hx)) (Graph.nodeFacts_of_merges hm)
  | relationships hm => exact hg.merged ht hentities (nodeFacts_of_isMerged hm)
  | stale hm hsweep _ _ => exact hg.swept hplain ht hincluded hgone hheld hm hsweep
  | points hm hsweep _ => exact hg.swept hplain ht hincluded hgone hheld hm hsweep

end Handed

end Populating

end RepoGraph
