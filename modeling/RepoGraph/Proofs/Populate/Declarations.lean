import Mathlib.Data.List.Dedup
import RepoGraph.Proofs.Extract.WellFormed
import RepoGraph.Proofs.Success

/-!
# One node for each declared name

The id of a class or a function is made of its kind, its file and its name, wherever in the file it
is declared.  So two declarations of one kind and one name share an id, and in the stores they share
a node: once an output is in the stores, a file has as many nodes of classes and functions as it
declares different names of each kind.

Main statements: `Extract.id_eq_iff`, `Extract.exists_shared_id`,
`Populating.length_declaredIds_of_run`.
-/

namespace RepoGraph

/-! ### Distinct values -/

/-- Values are told apart as often by one function as by another that tells the same apart. -/
theorem length_dedup_map_congr {α β γ : Type} [DecidableEq β] [DecidableEq γ]
    {f : α → β} {g : α → γ}
    {xs : List α} (h : ∀ a ∈ xs, ∀ b ∈ xs, f a = f b ↔ g a = g b) :
    (xs.map f).dedup.length = (xs.map g).dedup.length := by
  induction xs with
  | nil => rfl
  | cons a rest ih =>
    have hrest := ih fun b hb c hc => h b (List.mem_cons_of_mem _ hb) c (List.mem_cons_of_mem _ hc)
    have hmem : f a ∈ rest.map f ↔ g a ∈ rest.map g := by
      simp only [List.mem_map]
      refine exists_congr fun b => and_congr_right fun hb => ?_
      exact h b (List.mem_cons_of_mem _ hb) a List.mem_cons_self
    rw [List.map_cons, List.map_cons]
    by_cases hf : f a ∈ rest.map f
    · rw [List.dedup_cons_of_mem hf, List.dedup_cons_of_mem (hmem.1 hf), hrest]
    · rw [List.dedup_cons_of_notMem hf, List.dedup_cons_of_notMem (mt hmem.2 hf), List.length_cons,
        List.length_cons, hrest]

theorem length_dedup_eq_iff {α : Type} [DecidableEq α] {xs : List α} :
    xs.dedup.length = xs.length ↔ xs.Nodup := by
  rw [← List.dedup_eq_self]
  exact ⟨fun h => (List.dedup_sublist xs).eq_of_length h, congrArg List.length⟩

/-! ### Ids of a file -/

/-- Whether an entity is one of a class or a function. -/
def Entity.isDeclared (e : Entity) : Bool := e.kind == classKind || e.kind == functionKind

/-- The kinds and names of the classes and functions that were found. -/
def Findings.declarations (found : Findings) : List (String × String) :=
  (found.entities.filter Entity.isDeclared).map fun e => (e.kind, e.name)

theorem Entity.isDeclared_iff {e : Entity} :
    e.isDeclared = true ↔ e.kind = classKind ∨ e.kind = functionKind := by
  rw [isDeclared, Bool.or_eq_true, beq_iff_eq, beq_iff_eq]

namespace Extract

variable {text path : String} {named : Option String} {found : Findings} {e e' : Entity}

/-- The entities of a code file: the file, and what is declared in it. -/
theorem isCode_of_mem (h : code text path named = .ok found) (he : e ∈ found.entities) :
    e.kind = Entity.fileKind ∧ e.id = Entity.fileId path ∧ e.name = Path.fileName path ∨
      e.kind = Entity.classKind ∧ e.id = Entity.classId path e.name ∨
      e.kind = Entity.functionKind ∧ e.id = Entity.functionId path e.name := by
  obtain ⟨language, -, rfl⟩ := exists_codeOfTree h
  rw [codeOfTree_eq] at he
  obtain he | he := List.mem_append.1 he
  · obtain rfl := List.mem_singleton.1 he
    exact .inl ⟨rfl, rfl, rfl⟩
  · exact .inr ((isOfCode_codeAccount language path text _).declared e he).2

/-- An id begins with the kind and the path; the name of what is declared follows. -/
theorem exists_toList_id (h : code text path named = .ok found) (he : e ∈ found.entities) :
    ∃ rest, e.id.toList = e.kind.toList ++ ':' :: (path.toList ++ rest) ∧ ':' ∉ e.kind.toList ∧
      (e.kind = Entity.fileKind ∧ e.name = Path.fileName path ∧ rest = [] ∨
        e.kind ≠ Entity.fileKind ∧ rest = ':' :: e.name.toList) := by
  obtain ⟨hkind, hid, hname⟩ | ⟨hkind, hid⟩ | ⟨hkind, hid⟩ := isCode_of_mem h he
  · refine ⟨[], ?_, by rw [hkind]; decide, .inl ⟨hkind, hname, rfl⟩⟩
    rw [hid, hkind, Entity.fileId, String.toList_append, List.append_nil]
    rfl
  · refine ⟨_, ?_, by rw [hkind]; decide, .inr ⟨by rw [hkind]; decide, rfl⟩⟩
    rw [hid, hkind]
    simp [Entity.classId, Entity.classKind]
  · refine ⟨_, ?_, by rw [hkind]; decide, .inr ⟨by rw [hkind]; decide, rfl⟩⟩
    rw [hid, hkind]
    simp [Entity.functionId, Entity.functionKind]

/-- Among the entities of a code file, an id stands for a kind and a name. -/
theorem id_eq_iff (h : code text path named = .ok found) (he : e ∈ found.entities)
    (he' : e' ∈ found.entities) : e.id = e'.id ↔ e.kind = e'.kind ∧ e.name = e'.name := by
  obtain ⟨rest, hid, hcolon, hrest⟩ := exists_toList_id h he
  obtain ⟨rest', hid', hcolon', hrest'⟩ := exists_toList_id h he'
  constructor
  · intro heq
    have hlist := congrArg String.toList heq
    rw [hid, hid'] at hlist
    -- no kind has a colon, so the id is split at the first one
    obtain ⟨hkind, hbehind⟩ := Text.eq_of_append_cons hcolon hcolon' hlist
    have hkind := String.toList_inj.1 hkind
    refine ⟨hkind, ?_⟩
    obtain ⟨hfile, hname, -⟩ | ⟨hfile, rfl⟩ := hrest <;>
      obtain ⟨hfile', hname', -⟩ | ⟨hfile', rfl⟩ := hrest'
    · exact hname.trans hname'.symm
    · exact absurd (hkind.symm.trans hfile) hfile'
    · exact absurd (hkind.trans hfile') hfile
    · exact String.toList_inj.1 (List.cons.inj (List.append_cancel_left hbehind)).2
  · rintro ⟨hkind, hname⟩
    have hsame : rest = rest' := by
      obtain ⟨hfile, -, rfl⟩ | ⟨hfile, rfl⟩ := hrest <;>
        obtain ⟨hfile', -, rfl⟩ | ⟨hfile', rfl⟩ := hrest'
      · rfl
      · exact absurd (hkind.symm.trans hfile) hfile'
      · exact absurd (hkind.trans hfile') hfile
      · rw [hname]
    rw [← String.toList_inj, hid, hid', hkind, hsame]

/-- A class that is declared twice. -/
def declaredTwice : String := "class A \x7b\x7d\nclass A \x7b\x7d\n"

/-- What is found in it: the file, and the class as often as it is declared. -/
theorem exists_code_declaredTwice : ∃ found, code declaredTwice "a.js" none = .ok found ∧
    found.entities.map (fun e => (e.id, e.kind, e.name)) =
      [("file:a.js", "file", "a.js"), ("class:a.js:A", "class", "A"),
        ("class:a.js:A", "class", "A")] := by
  have htold : (code declaredTwice "a.js" none).toOption.map (fun found =>
      found.entities.map fun e => (e.id, e.kind, e.name)) =
        some [("file:a.js", "file", "a.js"), ("class:a.js:A", "class", "A"),
          ("class:a.js:A", "class", "A")] := by decide +kernel
  cases hfound : code declaredTwice "a.js" none with
  | error fault =>
    rw [hfound] at htold
    cases htold
  | ok found =>
    rw [hfound] at htold
    exact ⟨found, rfl, Option.some.inj htold⟩

/-- The two declarations of one name share an id. -/
theorem exists_shared_id : ∃ found, code declaredTwice "a.js" none = .ok found ∧
    ¬ (found.entities.map Entity.id).Nodup := by
  obtain ⟨found, hfound, htold⟩ := exists_code_declaredTwice
  have hids := congrArg (List.map Prod.fst) htold
  rw [List.map_map] at hids
  refine ⟨found, hfound, ?_⟩
  rw [show found.entities.map Entity.id = _ from hids]
  decide

end Extract

/-! ### The nodes of a file -/

/-- Whether a node says that it is one of a class or a function of a file. -/
def Facts.IsDeclared (path : String) (node : Facts) : Prop :=
  node "path" = some (.str path) ∧
    (node "type" = some (.str Entity.classKind) ∨ node "type" = some (.str Entity.functionKind))

/-- Whether attributes have a text under a name. -/
def Fields.tells (fields : Fields) (name text : String) : Bool :=
  match fields.get? name with
  | some (.str s) => s == text
  | _ => false

theorem Fields.tells_iff {fields : Fields} {name text : String} :
    fields.tells name text = true ↔ fields.get? name = some (.str text) := by
  rw [tells]
  cases fields.get? name with
  | none => simp
  | some value => cases value <;> simp

namespace Graph

variable {g : Graph} {project path id : String}

/-- The ids of a project's nodes of classes and functions of a file. -/
def declaredIds (g : Graph) (project path : String) : List String :=
  (g.nodes.filter fun node => node.1.project == project && node.2.tells "path" path &&
    (node.2.tells "type" Entity.classKind || node.2.tells "type" Entity.functionKind)).map
      fun node => node.1.id

theorem mem_declaredIds : id ∈ g.declaredIds project path ↔
    ∃ node, g.nodeFacts ⟨project, id⟩ = some node ∧ node.IsDeclared path := by
  have hfacts (attributes : Fields) : attributes.facts "path" = attributes.get? "path" ∧
      attributes.facts "type" = attributes.get? "type" := ⟨if_neg (by decide), if_neg (by decide)⟩
  simp only [declaredIds, List.mem_map, List.mem_filter, Bool.and_eq_true,
    Bool.or_eq_true, beq_iff_eq,
    Fields.tells_iff, nodeFacts, Option.map_eq_some_iff, attributes?_eq_some_iff, Facts.IsDeclared]
  constructor
  · rintro ⟨⟨⟨project', id'⟩, attributes⟩, ⟨hmem, ⟨rfl, hpath⟩, htype⟩, rfl⟩
    refine ⟨attributes.facts, ⟨attributes, hmem, rfl⟩, ?_⟩
    rw [(hfacts attributes).1, (hfacts attributes).2]
    exact ⟨hpath, htype⟩
  · rintro ⟨_, ⟨attributes, hmem, rfl⟩, hdeclared⟩
    rw [(hfacts attributes).1, (hfacts attributes).2] at hdeclared
    exact ⟨⟨⟨project, id⟩, attributes⟩, ⟨hmem, ⟨rfl, hdeclared.1⟩, hdeclared.2⟩, rfl⟩

/-- A node is counted once. -/
theorem nodup_declaredIds : (g.declaredIds project path).Nodup := by
  have hkeys : ((g.nodes.filter fun node => node.1.project == project && node.2.tells "path" path &&
      (node.2.tells "type" Entity.classKind || node.2.tells "type" Entity.functionKind)).map
        Prod.fst).Nodup := g.nodup_nodes.sublist (List.filter_sublist.map _)
  have hids := List.Nodup.map_on (f := NodeKey.id) ?_ hkeys
  · rwa [List.map_map] at hids
  · intro key hkey key' hkey' hid
    obtain ⟨node, hnode, rfl⟩ := List.mem_map.1 hkey
    obtain ⟨node', hnode', rfl⟩ := List.mem_map.1 hkey'
    have hproject := (List.mem_filter.1 hnode).2
    have hproject' := (List.mem_filter.1 hnode').2
    simp only [Bool.and_eq_true, beq_iff_eq] at hproject hproject'
    exact congrArg₂ NodeKey.mk (hproject.1.1.trans hproject'.1.1.symm) hid

end Graph

/-! ### Once a file is in the stores -/

namespace Populating

variable {config : BuildConfig} {output : EnrichOutput} {g h : Graph} {path text : String}
  {named : Option String} {found : Findings} {v : VectorStore} {c d : Collection}
  {gone : List String}

/-- Whether an output stages what was found in a file, and no node of the file is left over from
before: it is staged again, or swept away. -/
structure StagesFile (config : BuildConfig) (output : EnrichOutput) (g : Graph) (path : String)
    (found : Findings) : Prop where
  /-- The staged entities of the file are those that were found. -/
  entities_eq : (output.entities.filter fun x => x.entity.path == path).map
    (fun x => (x.id, x.entity.kind)) = found.entities.map fun e => (e.id, e.kind)
  /-- No other file has an entity with one of their ids. -/
  path_eq : ∀ x ∈ output.entities, x.id ∈ found.entities.map Entity.id → x.entity.path = path
  of_node : ∀ id node, g.nodeFacts ⟨config.project, id⟩ = some node →
    node "path" = some (.str path) →
    id ∈ currentIds output ∨ IsStale config output g id

/-- A staged entity of the file has the id and the kind of one that was found. -/
theorem StagesFile.exists_found (hstages : StagesFile config output g path found) {x : Enriched}
    (hx : x ∈ output.entities) (hpath : x.entity.path = path) :
    ∃ e ∈ found.entities, e.id = x.id ∧ e.kind = x.entity.kind := by
  have hmem : (x.id, x.entity.kind) ∈ found.entities.map fun e => (e.id, e.kind) := by
    rw [← hstages.entities_eq]
    exact List.mem_map_of_mem (List.mem_filter.2 ⟨hx, beq_iff_eq.2 hpath⟩)
  obtain ⟨e, he, heq⟩ := List.mem_map.1 hmem
  exact ⟨e, he, (Prod.mk.inj heq).1, (Prod.mk.inj heq).2⟩

/-- What a staged entity leaves of itself in its node. -/
theorem path_type_of_laidOn {x : Enriched} {project : String} {before : Option Facts} {node : Facts}
    (hnode : x.laidOn project before = some node) :
    node "path" = some (.str x.entity.path) ∧ node "type" = some (.str x.entity.kind) := by
  cases hnode
  exact ⟨rfl, rfl⟩

/-- Once an output is in the stores, a node of a class or a function of a file is of something that
the file declares. -/
theorem Effect.exists_of_mem_declaredIds (heffect : Effect v config output g c h d gone)
    (hstages : StagesFile config output g path found) {id : String}
    (hid : id ∈ h.declaredIds config.project path) :
    ∃ e ∈ found.entities, e.isDeclared = true ∧ e.id = id := by
  obtain ⟨node, hnode, hpath, htype⟩ := Graph.mem_declaredIds.1 hid
  rw [heffect.nodeFacts_eq] at hnode
  split at hnode
  · cases hnode
  rename_i hgone
  rw [Enriched.nodeAfter] at hnode
  cases hlast : Enriching.lastOf? output.entities id with
  | none =>
    -- a node of the file that is not staged again is stale, and was swept away
    rw [hlast] at hnode
    obtain hcurrent | hstale := hstages.of_node id node hnode hpath
    · exact absurd hcurrent (Enriching.lastOf?_eq_none_iff.1 hlast)
    · exact absurd ((heffect.mem_gone_iff id).2 hstale) hgone
  | some x =>
    rw [hlast] at hnode
    obtain ⟨hsaidPath, hsaidType⟩ := path_type_of_laidOn hnode
    rw [hsaidPath, Option.some.injEq, Json.str.injEq] at hpath
    obtain ⟨e, he, hid, hkind⟩ := hstages.exists_found (Enriching.mem_of_lastOf? hlast) hpath
    rw [hsaidType, Option.some.injEq, Option.some.injEq, Json.str.injEq, Json.str.injEq, ← hkind]
      at htype
    exact ⟨e, he, Entity.isDeclared_iff.2 htype, hid.trans (Enriching.id_of_lastOf? hlast)⟩

/-- Once an output is in the stores, what a file declares has a node of its kind in the file. -/
theorem Effect.mem_declaredIds (heffect : Effect v config output g c h d gone)
    (hstages : StagesFile config output g path found)
    (hcode : Extract.code text path named = .ok found)
    {e : Entity} (he : e ∈ found.entities) (hdeclared : e.isDeclared = true) :
    e.id ∈ h.declaredIds config.project path := by
  have hstaged : (e.id, e.kind) ∈ (output.entities.filter fun x => x.entity.path == path).map
      fun x => (x.id, x.entity.kind) := by
    rw [hstages.entities_eq]
    exact List.mem_map_of_mem he
  obtain ⟨x, hx, heq⟩ := List.mem_map.1 hstaged
  have hcurrent : e.id ∈ currentIds output := by
    rw [← (Prod.mk.inj heq).1]
    exact List.mem_map_of_mem (List.mem_filter.1 hx).1
  -- the last entity with the id is one of the file too, and so is of the same kind
  obtain ⟨y, hy⟩ := Option.ne_none_iff_exists'.1 fun hnone =>
    Enriching.lastOf?_eq_none_iff.1 hnone hcurrent
  have hid := Enriching.id_of_lastOf? hy
  have hpath := hstages.path_eq y (Enriching.mem_of_lastOf? hy) (hid ▸ List.mem_map_of_mem he)
  obtain ⟨e', he', hid', hkind'⟩ := hstages.exists_found (Enriching.mem_of_lastOf? hy) hpath
  have hkind := ((Extract.id_eq_iff hcode he' he).1 (hid'.trans hid)).1
  have hnot : e.id ∉ gone := fun hgone => ((heffect.mem_gone_iff e.id).1 hgone).2.1 hcurrent
  obtain ⟨node, hnode⟩ : ∃ node,
      y.laidOn config.project (g.nodeFacts ⟨config.project, e.id⟩) = some node := ⟨_, rfl⟩
  obtain ⟨hsaidPath, hsaidType⟩ := path_type_of_laidOn hnode
  refine Graph.mem_declaredIds.2 ⟨node, ?_, by rw [hsaidPath, hpath], ?_⟩
  · rw [heffect.nodeFacts_eq, if_neg hnot, Enriched.nodeAfter, hy]
    exact hnode
  · rw [hsaidType, ← hkind', hkind]
    exact (Entity.isDeclared_iff.1 hdeclared).imp (congrArg fun kind => some (Json.str kind))
      (congrArg fun kind => some (Json.str kind))

/-- Once an output is in the stores, the nodes of classes and functions of a file are those of what
the file declares. -/
theorem Effect.mem_declaredIds_iff (heffect : Effect v config output g c h d gone)
    (hstages : StagesFile config output g path found)
    (hcode : Extract.code text path named = .ok found)
    {id : String} : id ∈ h.declaredIds config.project path ↔
      id ∈ (found.entities.filter Entity.isDeclared).map Entity.id := by
  simp only [List.mem_map, List.mem_filter]
  constructor
  · intro hid
    obtain ⟨e, he, hdeclared, heq⟩ := heffect.exists_of_mem_declaredIds hstages hid
    exact ⟨e, ⟨he, hdeclared⟩, heq⟩
  · rintro ⟨e, ⟨he, hdeclared⟩, rfl⟩
    exact heffect.mem_declaredIds hstages hcode he hdeclared

/-- A file has one node for each name that it declares of a kind. -/
theorem Effect.length_declaredIds (heffect : Effect v config output g c h d gone)
    (hstages : StagesFile config output g path found)
    (hcode : Extract.code text path named = .ok found) :
    (h.declaredIds config.project path).length = found.declarations.dedup.length := by
  have hperm : (h.declaredIds config.project path).Perm
      ((found.entities.filter Entity.isDeclared).map Entity.id).dedup :=
    (List.perm_ext_iff_of_nodup Graph.nodup_declaredIds (List.nodup_dedup _)).2 fun id => by
      rw [heffect.mem_declaredIds_iff hstages hcode, List.mem_dedup]
  rw [hperm.length_eq, Findings.declarations]
  refine length_dedup_map_congr fun e he e' he' => ?_
  rw [Prod.mk.injEq]
  exact Extract.id_eq_iff hcode (List.mem_filter.1 he).1 (List.mem_filter.1 he').1

/-- The entities of a code file share an id if they are of one kind and have one name, and once they
are in the stores, the file has one node of a class or a function for each of its declared names: as
many as declarations if these differ. -/
theorem length_declaredIds_of_run (text path : String) (named : Option String) (found : Findings)
    (hcode : Extract.code text path named = .ok found) :
    (∀ e ∈ found.entities, ∀ e' ∈ found.entities,
      e.id = e'.id ↔ e.kind = e'.kind ∧ e.name = e'.name) ∧
    ∀ (s : Settings) (config : BuildConfig) (outside : Outside) (w : World) (output : EnrichOutput)
      (result : Population), s.graphBackend = "networkx" →
      Staging.heldOutput Enriched.ofJson config.stagingPath "enrich" w.disk w.cwd = some output →
      StagesFile config output (GraphStore.held (Staging.graphPath s.stagingPath) w) path found →
      ((s.populating config).run outside w).1.toOption = some result →
      ((GraphStore.held (Staging.graphPath s.stagingPath)
        ((s.populating config).run outside w).2).declaredIds config.project path).length =
          found.declarations.dedup.length ∧
      (((GraphStore.held (Staging.graphPath s.stagingPath)
        ((s.populating config).run outside w).2).declaredIds config.project path).length =
          (found.entities.filter Entity.isDeclared).length ↔ found.declarations.Nodup) := by
  refine ⟨fun e he e' he' => Extract.id_eq_iff hcode he he',
    fun s config outside w output result hbackend hread hstages hrun => ?_⟩
  obtain ⟨gone, d, hcompletes, -⟩ := (ended_of_run hbackend hread hrun).stores
  have hlength := hcompletes.effect.length_declaredIds hstages hcode
  have hdeclared : (found.entities.filter Entity.isDeclared).length =
      found.declarations.length := by
    rw [Findings.declarations, List.length_map]
  exact ⟨hlength, by rw [hlength, hdeclared, length_dedup_eq_iff]⟩

/-! ### A class that is declared twice -/

open Settings (emptyDisk absolute_artifactPath absolute_graphPath)

/-- A full build of the default project. -/
def fullConfig : BuildConfig := fileSettings.buildConfig Request.full "p" none

/-- What the second stage hands on of an entity of the file about which nothing is said. -/
def handedOn (id kind name : String) : Enriched := .plain ⟨id, kind, name, "a.js", none, [], none⟩

/-- What the second stage hands on of the class that is declared twice. -/
def declaredTwiceOutput : EnrichOutput where
  entities := [handedOn "file:a.js" "file" "a.js", handedOn "class:a.js:A" "class" "A",
    handedOn "class:a.js:A" "class" "A"]
  relationships := []
  metadata := []

/-- A staging area that holds this output. -/
def declaredTwiceWorld : World :=
  World.ofDisk (emptyDisk.put ["s", "enrich", "output.json"]
    (.file (.text (EnrichOutput.toJson declaredTwiceOutput).pretty))) []

/-- It holds no graph. -/
theorem fileAt_declaredTwiceWorld :
    declaredTwiceWorld.disk.fileAt [] (Staging.graphPath "s") = none := by
  rw [Disk.fileAt, absolute_graphPath]
  rfl

theorem isReady_declaredTwiceWorld : fileSettings.IsReady "p" declaredTwiceWorld := by
  refine ⟨Settings.isLaidOut_emptyDisk.same (Disk.sameDirectories_put rfl),
    fun content hcontent => ?_,
    rfl⟩
  cases fileAt_declaredTwiceWorld.symm.trans hcontent

theorem held_declaredTwiceWorld :
    GraphStore.held (Staging.graphPath "s") declaredTwiceWorld = .empty := by
  rw [GraphStore.held, GraphStore.onDisk]
  cases hread : declaredTwiceWorld.disk.read declaredTwiceWorld.cwd (Staging.graphPath "s") with
  | error fault => rfl
  | ok content => cases fileAt_declaredTwiceWorld.symm.trans (Disk.fileAt_of_read hread)

theorem heldOutput_declaredTwiceWorld :
    Staging.heldOutput Enriched.ofJson "s" "enrich" declaredTwiceWorld.disk declaredTwiceWorld.cwd =
      some (declaredTwiceOutput.asRead Enriched.asRead) := by
  refine Staging.heldOutput_of_fileAt Enriched.ofJson_asRead ⟨["s", "enrich"], ?_⟩ ?_ rfl
  · rw [Disk.start, Path.startsWith_join _ isName_enrich, Path.lead_join _ isName_enrich,
      Path.lead_of_isName Settings.isName_staging, ← Disk.start,
      Disk.start_of_isName Settings.isName_staging]
    rfl
  · show declaredTwiceWorld.disk.fileAt [] (Staging.artifactPath "s" "enrich") = _
    rw [Disk.fileAt_eq_some_iff, absolute_artifactPath isName_enrich]
    rfl

/-- The output stages the class that is declared twice, and there is no node before. -/
theorem stagesFile_declaredTwice {found : Findings}
    (hfound : found.entities.map (fun e => (e.id, e.kind)) =
      [("file:a.js", "file"), ("class:a.js:A", "class"), ("class:a.js:A", "class")]) :
    StagesFile fullConfig (declaredTwiceOutput.asRead Enriched.asRead)
      (GraphStore.held (Staging.graphPath "s") declaredTwiceWorld) "a.js" found where
  entities_eq := by
    rw [hfound]
    rfl
  path_eq x hx _ := by
    obtain ⟨y, hy, rfl⟩ := List.mem_map.1 hx
    simp only [declaredTwiceOutput, List.mem_cons, List.not_mem_nil, or_false] at hy
    obtain rfl | rfl | rfl := hy <;> rfl
  of_node id node hnode _ := by
    rw [held_declaredTwiceWorld] at hnode
    cases hnode

theorem length_declaredIds_of_run_declaredTwice :
    ∃ found, Extract.code Extract.declaredTwice "a.js" none = .ok found ∧
      (found.entities.filter Entity.isDeclared).length = 2 ∧
      ((GraphStore.held (Staging.graphPath "s") ((fileSettings.populating fullConfig).run quiet
        declaredTwiceWorld).2).declaredIds "p" "a.js").length = 1 := by
  obtain ⟨found, hfound, htold⟩ := Extract.exists_code_declaredTwice
  have hids := congrArg (List.map fun told : String × String × String => (told.1, told.2.1)) htold
  rw [List.map_map] at hids
  have hdeclarations : found.declarations = [("class", "A"), ("class", "A")] := by
    have hkept := congrArg (fun told : List (String × String × String) =>
      (told.map Prod.snd).filter fun pair => pair.1 == "class" || pair.1 == "function") htold
    rw [List.map_map, List.filter_map] at hkept
    exact hkept.trans (by decide)
  have hscope : HasScope fullConfig (declaredTwiceOutput.asRead Enriched.asRead) := fun hmode =>
    absurd hmode (by decide)
  have hsucceeds : (fileSettings.populating fullConfig).Succeeds quiet declaredTwiceWorld :=
    Settings.succeeds_populating_held rfl (fun _ _ => rfl) isReady_declaredTwiceWorld
      heldOutput_declaredTwiceWorld hscope
  obtain ⟨result, after, hrun, -⟩ := Build.exists_run_of_wp hsucceeds
  have hlength := ((length_declaredIds_of_run _ _ _ found hfound).2 fileSettings fullConfig quiet
    declaredTwiceWorld _ result rfl heldOutput_declaredTwiceWorld (stagesFile_declaredTwice hids)
    (congrArg (fun ending => ending.1.toOption) hrun)).1
  refine ⟨found, hfound, ?_, hlength.trans ?_⟩
  · have hcount := congrArg List.length hdeclarations
    rwa [Findings.declarations, List.length_map] at hcount
  · rw [hdeclarations]
    decide

end Populating

end RepoGraph
