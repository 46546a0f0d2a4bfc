import RepoGraph.Proofs.Disk.Making
import RepoGraph.Proofs.Populate.Effect
import RepoGraph.Proofs.Server.Database
import RepoGraph.Proofs.Spans

/-!
# Flaws that are found before anything is written

The third stage reads the whole output of the second one, opens both stores and makes sure of the
project's collection before it writes anything.  A flaw of the output, or a collection of another
size, so fails the stage while the stores still are as they were: a server has been told to make
indexes at most.  The stores are closed even then, and the graph of a file is saved, but what is
saved is the graph that was opened.

`Populating.Flaw` lists the flaws, and `Populating.IsUntouched` says what is left as it was,
whatever graph store is used.

Main statements: `GraphStore.wp_close_of_isOpened`, `Populating.Flaw.size_of_heldOutput`,
`Populating.isUntouched_of_flaw`.
-/

namespace RepoGraph

open Cypher

variable {outside : Outside} {w w' w'' : World}

/-! ### What is left as it was -/

/-- The graph in the file at a place, the empty one if there is no such file. -/
def Disk.graphAt (d : Disk) (place : Place) : Graph :=
  match d.get? place with
  | some (.file (.graph g)) => g
  | _ => .empty

/-- New directories hold no graph. -/
theorem Disk.Expands.graphAt_eq {d d' : Disk} (h : d.Expands d') (place : Place) :
    d'.graphAt place = d.graphAt place := by
  rw [graphAt, graphAt]
  rcases h place with hsame | ⟨hnone, hdirectory⟩
  · rw [hsame]
  · rw [hnone, hdirectory]

/-- Whether a statement makes an index. -/
def Statement.IsIndex (s : Statement) : Prop := ∃ property, s = .index property

/-- A server stores the same after statements that make indexes. -/
theorem Cypher.Database.after_eq_of_sendsOnly (h : w.SendsOnly Statement.IsIndex w')
    (time : List Event → Json) : Database.after time w'.events = .after time w.events := by
  obtain ⟨more, hevents, hindex⟩ := h
  rw [hevents]
  clear hevents
  induction more with
  | nil => rfl
  | cons event rest ih =>
    have hrest := ih fun s hs => hindex s (List.mem_cons_of_mem event hs)
    cases event with
    | statement s =>
      obtain ⟨property, rfl⟩ := hindex s List.mem_cons_self
      exact hrest
    | _ => exact hrest

namespace Populating

/-- No node, no edge and no point has been added, changed or removed between two worlds, and no file
either but for files that hold the empty graph. -/
structure IsUntouched (w w' : World) : Prop where
  /-- Every file holds what it held. -/
  file_eq : ∀ place content, w.disk.get? place = some (.file content) →
    w'.disk.get? place = some (.file content)
  /-- No file holds another graph than before. -/
  graphAt_eq : ∀ place, w'.disk.graphAt place = w.disk.graphAt place
  /-- Every collection holds the points that it held. -/
  collections_eq : w'.collections = w.collections
  /-- A server was told to make indexes at most. -/
  indexes : w.SendsOnly Statement.IsIndex w'
  /-- A server stores what it stored. -/
  after_eq : ∀ time, Database.after time w'.events = .after time w.events

namespace IsUntouched

/-- Nothing is touched where the disk and the collections are the same and indexes are made at
most. -/
theorem of_sendsOnly (hdisk : w'.disk = w.disk) (hcollections : w'.collections = w.collections)
    (hsends : w.SendsOnly Statement.IsIndex w') : IsUntouched w w' :=
  ⟨fun _ _ hfile => hdisk ▸ hfile, fun _ => by rw [hdisk], hcollections, hsends,
    Database.after_eq_of_sendsOnly hsends⟩

instance : IsPreorder World IsUntouched where
  refl w := of_sendsOnly rfl rfl (refl w)
  trans _ _ _ h h' :=
    { file_eq place content hfile := h'.file_eq place content (h.file_eq place content hfile)
      graphAt_eq place := (h'.graphAt_eq place).trans (h.graphAt_eq place)
      collections_eq := h'.collections_eq.trans h.collections_eq
      indexes := IsTrans.trans _ _ _ h.indexes h'.indexes
      after_eq time := (h'.after_eq time).trans (h.after_eq time) }

end IsUntouched

/-! ### Before the stores are filled -/

/-- A world is another one except for the connections and what was done, and a server was told to
make indexes at most. -/
def Readies (w w' : World) : Prop :=
  (∃ connected client events,
    w' = { w with isConnected := connected, hasVectorClient := client, events }) ∧
    w.SendsOnly Statement.IsIndex w'

namespace Readies

instance : IsPreorder World Readies where
  refl w := ⟨⟨_, _, _, rfl⟩, refl w⟩
  trans := by
    rintro w w' w'' ⟨⟨_, _, _, rfl⟩, hsends⟩ ⟨⟨_, _, _, rfl⟩, hsends'⟩
    exact ⟨⟨_, _, _, rfl⟩, IsTrans.trans _ _ _ hsends hsends'⟩

theorem isUntouched (h : Readies w w') : IsUntouched w w' := by
  obtain ⟨⟨_, _, _, rfl⟩, hsends⟩ := h
  exact .of_sendsOnly rfl rfl hsends

theorem cons {event : Event} (h : ∀ s, event = .statement s → s.IsIndex) :
    Readies w { w with events := event :: w.events } :=
  ⟨⟨_, _, _, rfl⟩, .cons h⟩

/-- A connection is made or left. -/
theorem connects (connected client : Bool) :
    Readies w { w with isConnected := connected, hasVectorClient := client } :=
  ⟨⟨_, _, _, rfl⟩, .of_events_eq rfl⟩

theorem spans_log (level : LogLevel) (channel : String) (parts : List LogPart) :
    (Build.log level channel parts).Spans Readies outside :=
  .note fun _ => .cons nofun

theorem spans_read (staging stage : String) :
    (Staging.read staging stage).Spans Readies outside := by
  refine .bind (.outcome (.readText fun _ => .cons nofun)) fun answer => ?_
  cases answer with
  | error f => exact fun w => (refl w : Readies w w)
  | ok text =>
    refine .bind (.pure text) fun text => ?_
    dsimp only
    split
    · exact .fail _
    · exact .pure _
    · exact .fail _

theorem spans_connect (url user password : String) :
    (GraphStore.connect url user password).Spans Readies outside := by
  refine .bind .get fun w => ?_
  split
  · exact .bind (.attempt fun _ => .cons nofun) fun _ => .modify fun w =>
      .connects true w.hasVectorClient
  · exact .pure _

/-- Making a graph store ready for use makes indexes at most. -/
theorem spans_prepare (store : GraphStore) : store.prepare.Spans Readies outside := by
  cases store with
  | none => exact .fail _
  | file path? => exact .pure _
  | server url user password =>
    refine .bind (spans_connect url user password) fun _ => .bind (.forM fun property _ => ?_)
      fun _ => spans_log _ _ _
    refine .bind (.bind .get fun _ => .bind (.attempt fun _ => .cons ?_) fun _ =>
      .bind .read fun _ => .take _ _) fun _ => .pure _
    rintro s hs
    exact ⟨property, (Event.statement.inj hs).symm⟩

theorem spans_openVectors (v : VectorStore) : v.openStore.Spans Readies outside := by
  refine .ite (.modify fun w => .connects w.isConnected false) (.pure _)

theorem spans_connectVectors (v : VectorStore) : v.connect.Spans Readies outside := by
  refine .bind .get fun w => ?_
  split
  · exact .bind (.attempt fun _ => .cons nofun) fun _ => .modify fun w =>
      .connects w.isConnected true
  · exact .pure _

theorem spans_closeVectors (v : VectorStore) : v.close.Spans Readies outside := by
  refine .bind .get fun w => ?_
  split
  · exact .bind (.note fun _ => .cons nofun) fun _ => .modify fun w => .connects w.isConnected false
  · exact .pure _

end Readies

end Populating

/-! ### The graph that was opened -/

namespace GraphStore

open Populating (IsUntouched Readies)

variable {path : String} {g : Graph} {store : GraphStore}

/-- A graph is the one in the file of a path, or the empty one if the path leads to no file. -/
def Loads (path : String) (disk : Disk) (cwd : Place) (g : Graph) : Prop :=
  disk.read cwd path = .ok (.graph g) ∨ g = .empty ∧ ∀ content, disk.read cwd path ≠ .ok content

/-- The graph that is open is the one in the store's file, if it has a file. -/
def IsOpened (store : GraphStore) (w : World) : Prop :=
  ∀ path, path ≠ "" → store = file (some path) → Loads path w.disk w.cwd w.openGraph

theorem IsOpened.readies (h : store.IsOpened w) (hw : Readies w w') : store.IsOpened w' := by
  obtain ⟨⟨_, _, _, rfl⟩, -⟩ := hw
  exact h

/-- Opening a store touches nothing, and the graph that is open then is the one in the file. -/
theorem wp_openStore_isOpened :
    store.openStore.wp (fun _ w' => IsUntouched w w' ∧ store.IsOpened w')
      (fun _ w' => IsUntouched w w') outside w := by
  have hopens (g : Graph) : IsUntouched w { w with openGraph := g } :=
    .of_sendsOnly rfl rfl (.of_events_eq rfl)
  cases store with
  | none => exact ⟨refl w, nofun⟩
  | server url user password => exact ⟨.of_sendsOnly rfl rfl (.of_events_eq rfl), nofun⟩
  | file path? =>
    cases path? with
    | none => exact ⟨hopens .empty, nofun⟩
    | some path =>
      have hreads (g : Graph) : IsUntouched w { w with
          openGraph := g, events := .disk (.read path) :: w.events } :=
        .of_sendsOnly rfl rfl (.cons nofun)
      simp only [openStore, Build.wp_bind, Build.wp_askDisk, Build.wp_ite, Build.wp_modify,
        Build.wp_readContent]
      split
      · -- a file that is there is read, and one that holds no graph is refused
        refine ⟨fun _ => ⟨fun content hread => ?_, fun _ _ => hreads w.openGraph⟩,
          fun _ _ => hreads w.openGraph⟩
        cases content with
        | graph g =>
          refine ⟨hreads g, fun path' _ hstore => ?_⟩
          cases hstore
          exact .inl hread
        | text s => exact hreads w.openGraph
        | bytes bs => exact hreads w.openGraph
      · rename_i hexists
        refine ⟨hopens .empty, fun path' hne hstore => .inr ⟨rfl, fun content hread => hexists ?_⟩⟩
        cases hstore
        rw [Disk.doesExist_of_read hread]
        simpa using hne

/-- Saving the graph of a file keeps what is in every file. -/
theorem Saves.file_eq {cwd : Place} {disk disk' : Disk} (h : Saves path g cwd disk disk')
    (hloads : Loads path disk cwd g) {place : Place} {content : Content}
    (hfile : disk.get? place = some (.file content)) : disk'.get? place = some (.file content) := by
  obtain ⟨made, hmade, hwrite⟩ := h
  obtain ⟨target, htarget, -, -⟩ := Disk.write_eq_ok_iff.1 hwrite
  rw [Disk.get?_write hwrite htarget]
  split
  · rename_i hplace
    subst hplace
    have hplace := Disk.absolute_of_locate htarget
    have hlocate : disk.locate cwd path = .ok place := by
      refine Disk.locate_of_makeDirectories hmade ?_ htarget
      rw [← hplace, hfile]
      rfl
    have hread : disk.read cwd path = .ok content := Disk.read_eq_ok_iff.2 ⟨place, hlocate, hfile⟩
    obtain hgraph | ⟨-, hnone⟩ := hloads
    · rw [hread, Except.ok.injEq] at hgraph
      rw [hgraph]
    · exact absurd hread (hnone content)
  · exact (Disk.expands_makeDirectories hmade).get?_eq_some hfile

/-- Saving the graph of a file changes the graph of no file: a new one holds the empty graph. -/
theorem Saves.graphAt_eq {cwd : Place} {disk disk' : Disk} (h : Saves path g cwd disk disk')
    (hloads : Loads path disk cwd g) (place : Place) :
    disk'.graphAt place = disk.graphAt place := by
  cases hentry : disk.get? place with
  | some entry =>
    cases entry with
    | file content => rw [Disk.graphAt, Disk.graphAt, h.file_eq hloads hentry, hentry]
    | directory =>
      have hkeeps := h.changes.keeps place (Disk.get?_eq_directory_iff.1 hentry)
      rw [Disk.graphAt, Disk.graphAt, Disk.get?_eq_directory_iff.2 hkeeps, hentry]
  | none =>
    have hempty : disk.graphAt place = .empty := by rw [Disk.graphAt, hentry]
    obtain ⟨made, hmade, hwrite⟩ := h
    obtain ⟨target, htarget, -, -⟩ := Disk.write_eq_ok_iff.1 hwrite
    by_cases hplace : place = target
    · -- the file is new, so the graph that was opened is the empty one
      have hnew : g = .empty := by
        refine hloads.elim (fun hread => ?_) And.left
        obtain ⟨place', hplace', hfile⟩ := Disk.read_eq_ok_iff.1 hread
        rw [Disk.absolute_of_locate hplace', ← Disk.absolute_of_locate htarget, ← hplace,
          hentry] at hfile
        cases hfile
      rw [Disk.graphAt, Disk.get?_write hwrite htarget, if_pos hplace, hempty, hnew]
    · rw [← (Disk.expands_makeDirectories hmade).graphAt_eq place, Disk.graphAt, Disk.graphAt,
        Disk.get?_write hwrite htarget, if_neg hplace]

/-- Saving a graph sends nothing to a server. -/
theorem spans_save (path : String) :
    (save path).Spans (World.SendsOnly Statement.IsIndex) outside := by
  refine .bind (.askDisk _) fun place => .bind (.changeDisk fun w disk => ?_) fun _ =>
    .bind .get fun _ => .changeDisk fun w disk => ?_
  · exact ⟨[_], rfl, by simp⟩
  · exact ⟨[_], rfl, by simp⟩

/-- Closing a store touches nothing if the graph that is open is the one in its file. -/
theorem wp_close_of_isOpened (h : store.IsOpened w) :
    store.close.wp (fun _ w' => IsUntouched w w') (fun _ w' => IsUntouched w w') outside w := by
  cases store with
  | none => exact refl w
  | server url user password =>
    simp only [close, Build.wp_bind, Build.wp_get, Build.wp_ite, Build.wp_note, Build.wp_modify,
      Build.wp_pure]
    split
    · exact .of_sendsOnly rfl rfl (.cons fun _ h => by cases h)
    · exact refl w
  | file path? =>
    cases path? with
    | none => exact refl w
    | some path =>
      by_cases hempty : path = ""
      · rw [hempty]
        exact refl w
      · -- what is saved is the graph that was loaded, so each file holds the same as before
        have hloads := h path hempty rfl
        rw [close_file hempty]
        refine Build.wp_mono (Build.wp_and wp_save (spans_save path w)) ?_ ?_
        · rintro _ w' ⟨⟨disk, events, hsaves, rfl⟩, hsends⟩
          exact ⟨fun _ _ => hsaves.file_eq hloads, hsaves.graphAt_eq hloads, rfl, hsends,
            Database.after_eq_of_sendsOnly hsends⟩
        · rintro _ w' ⟨⟨disk, events, hexpands, rfl⟩, hsends⟩
          exact ⟨fun _ _ => hexpands.get?_eq_some, hexpands.graphAt_eq, rfl, hsends,
            Database.after_eq_of_sendsOnly hsends⟩

end GraphStore

/-! ### Flaws -/

namespace Populating

variable {v : VectorStore} {config : BuildConfig} {store : GraphStore} {output : EnrichOutput}

/-- The names that every record of a list in an output must have. -/
def requiredNames : String → List String
  | "entities" => ["id", "type"]
  | "relationships" => ["id", "type", "source", "target"]
  | _ => []

/-- What is wrong with the output of the second stage, or with the project's collection. -/
inductive Flaw (v : VectorStore) (config : BuildConfig) (outside : Outside) (w : World) : Prop where
  /-- The output's path leads to no file. -/
  | missing (h : ∀ content,
      w.disk.read w.cwd (Staging.artifactPath config.stagingPath "enrich") ≠ .ok content)
  /-- The file cannot be read. -/
  | refused {reason : Failure}
      (h : outside.refuses (.log ⟨.info, channel, ["Starting populate stage"]⟩ :: w.events)
        (.disk (.read (Staging.artifactPath config.stagingPath "enrich"))) = some reason)
  /-- The file holds no text. -/
  | noText {content : Content} {fault : Text.Utf8.Fault}
      (hread : w.disk.read w.cwd (Staging.artifactPath config.stagingPath "enrich") = .ok content)
      (h : content.read = .error fault)
  /-- The text is not that of a JSON object. -/
  | noObject {content : Content} {text : String}
      (hread : w.disk.read w.cwd (Staging.artifactPath config.stagingPath "enrich") = .ok content)
      (htext : content.read = .ok text) (h : Staging.objectOf text = none)
  /-- The record of an entity or of a relationship lacks a name. -/
  | record {fields record : Fields} {records : List Json} {list name : String}
      (hheld : Staging.held config.stagingPath "enrich" w.disk w.cwd = some (.obj fields))
      (hlist : fields.get? list = some (.arr records)) (hrecord : .obj record ∈ records)
      (hname : name ∈ requiredNames list) (h : record.get? name = none)
  /-- The project's collection has vectors of another size. -/
  | size {c : Collection} (hc : w.collections.get? v.collection = some c) (h : c.size ≠ v.size)

/-! ### Records that lack a name -/

/-- A list of records is not decoded if one of them is not. -/
theorem exists_of_recordsOf_eq_ok {α : Type} {read : Json → Except RecordFault α} {fields : Fields}
    {list : String} {records : List Json} {values : List α}
    (h : Record.recordsOf read (.obj fields) list = .ok values)
    (hlist : fields.get? list = some (.arr records)) {record : Json} (hrecord : record ∈ records) :
    ∃ a, read record = .ok a := by
  have hget : (Json.obj fields).get? list = some (.arr records) := hlist
  rw [Record.recordsOf, hget] at h
  exact exists_of_mapM h hrecord

theorem get?_of_requiredText {record : Fields} {name text : String}
    (h : Record.requiredText (.obj record) name = .ok text) : record.get? name ≠ none := by
  intro hnone
  rw [Record.requiredText, Record.required, hnone] at h
  cases h

/-- The record of an entity has the names that it must have. -/
theorem get?_of_ofJson_entity {record : Fields} {e : Enriched}
    (h : Enriched.ofJson (.obj record) = .ok e) :
    ∀ name ∈ requiredNames "entities", record.get? name ≠ none := by
  obtain ⟨entity, h, -⟩ := exists_of_bind h
  obtain ⟨id, hid, h⟩ := exists_of_bind h
  obtain ⟨kind, hkind, -⟩ := exists_of_bind h
  have hnames : requiredNames "entities" = ["id", "type"] := rfl
  rw [hnames, List.forall_mem_cons, List.forall_mem_singleton]
  exact ⟨get?_of_requiredText hid, get?_of_requiredText hkind⟩

/-- The record of a relationship has the names that it must have. -/
theorem get?_of_ofJson_relationship {record : Fields} {r : Relationship}
    (h : Relationship.ofJson (.obj record) = .ok r) :
    ∀ name ∈ requiredNames "relationships", record.get? name ≠ none := by
  obtain ⟨id, hid, h⟩ := exists_of_bind h
  obtain ⟨type, htype, h⟩ := exists_of_bind h
  obtain ⟨source, hsource, h⟩ := exists_of_bind h
  obtain ⟨target, htarget, -⟩ := exists_of_bind h
  have hnames : requiredNames "relationships" = ["id", "type", "source", "target"] := rfl
  rw [hnames]
  simp only [List.forall_mem_cons]
  exact ⟨get?_of_requiredText hid, get?_of_requiredText htype, get?_of_requiredText hsource,
    get?_of_requiredText htarget, nofun⟩

/-- In an output that is decoded every record has the names that it must have. -/
theorem get?_of_ofJson {fields record : Fields} {records : List Json} {list : String}
    (h : EnrichOutput.ofJson (.obj fields) = .ok output)
    (hlist : fields.get? list = some (.arr records)) (hrecord : .obj record ∈ records) :
    ∀ name ∈ requiredNames list, record.get? name ≠ none := by
  intro name hname
  obtain ⟨entities, hentities, h⟩ := exists_of_bind h
  obtain ⟨relationships, hrelationships, -⟩ := exists_of_bind h
  by_cases hlist₁ : list = "entities"
  · subst hlist₁
    obtain ⟨e, he⟩ := exists_of_recordsOf_eq_ok hentities hlist hrecord
    exact get?_of_ofJson_entity he name hname
  · by_cases hlist₂ : list = "relationships"
    · subst hlist₂
      obtain ⟨r, hr⟩ := exists_of_recordsOf_eq_ok hrelationships hlist hrecord
      exact get?_of_ofJson_relationship hr name hname
    · rw [requiredNames] at hname
      · cases hname
      · exact hlist₁
      · exact hlist₂

/-! ### The stage -/

/-- What is read is read because nothing comes in the way. -/
theorem wp_read_unrefused (staging stage : String) :
    (Staging.read staging stage).wp
      (fun _ _ => outside.refuses w.events
        (.disk (.read (Staging.artifactPath staging stage))) = none)
          (fun _ _ => True) outside w := by
  simp only [Staging.read, Build.wp_bind, Build.wp_outcome, Build.readText, Build.wp_readContent,
    Build.wp_take]
  refine ⟨fun hnone => ⟨fun content _ => ⟨fun text _ => ?_, fun _ _ => trivial⟩,
    fun _ _ => trivial⟩,
    fun _ _ => trivial⟩
  rw [Build.wp_pure]
  split
  · trivial
  · exact hnone
  · trivial

/-- A flaw that is not found when the output is read is one of the collection. -/
theorem Flaw.size_of_heldOutput (hflaw : Flaw v config outside w)
    (hallowed : outside.refuses (.log ⟨.info, channel, ["Starting populate stage"]⟩ :: w.events)
      (.disk (.read (Staging.artifactPath config.stagingPath "enrich"))) = none)
    {fields : Fields}
    (hheld : Staging.held config.stagingPath "enrich" w.disk w.cwd = some (.obj fields))
    (houtput : EnrichOutput.ofJson (.obj fields) = .ok output) :
    ∃ c, w.collections.get? v.collection = some c ∧ c.size ≠ v.size := by
  obtain ⟨content, text, hread, htext, hobject⟩ := Staging.held_eq_some_iff.1 hheld
  -- every other flaw contradicts what is held or that it was read
  cases hflaw with
  | missing h => exact absurd hread (h content)
  | refused h =>
    rw [hallowed] at h
    cases h
  | noText hread' h =>
    obtain rfl := Except.ok.inj (hread.symm.trans hread')
    rw [htext] at h
    cases h
  | noObject hread' htext' h =>
    obtain rfl := Except.ok.inj (hread.symm.trans hread')
    obtain rfl := Except.ok.inj (htext.symm.trans htext')
    rw [hobject] at h
    cases h
  | record hheld' hlist hrecord hname h =>
    obtain rfl := Json.obj.inj (Option.some.inj (hheld.symm.trans hheld'))
    exact absurd h (get?_of_ofJson houtput hlist hrecord _ hname)
  | size hc h => exact ⟨_, hc, h⟩

/-- A collection of another size is found when the collection is made sure of. -/
theorem wp_ensure_of_size {c : Collection} (hc : w.collections.get? v.collection = some c)
    (hsize : c.size ≠ v.size) :
    v.ensure.wp (fun _ _ => False) (fun _ w' => Readies w w') outside w := by
  rw [VectorStore.ensure, Build.wp_bind]
  refine Build.wp_mono (Readies.spans_connectVectors v w) (fun _ w₁ hw₁ => ?_) fun _ _ h => h
  have hc₁ : w₁.collections.get? v.collection = some c := hw₁.isUntouched.collections_eq ▸ hc
  have hne : (c.size != v.size) = true := by simpa using hsize
  simp only [Build.wp_bind, Build.wp_get, hc₁, hne, if_true, Build.wp_log, Build.wp_fail]
  exact IsTrans.trans _ _ _ hw₁ (.cons fun _ h => by cases h)

/-- With a collection of another size nothing is filled. -/
theorem wp_fill_of_size {c : Collection} (hc : w.collections.get? v.collection = some c)
    (hsize : c.size ≠ v.size) :
    (fill store v config output).wp (fun _ _ => False) (fun _ w' => Readies w w') outside w := by
  simp only [fill, Build.wp_bind]
  refine Build.wp_mono (Readies.spans_prepare store w) (fun _ w₁ hw₁ => ?_) fun _ _ h => h
  have hc₁ : w₁.collections.get? v.collection = some c := hw₁.isUntouched.collections_eq ▸ hc
  exact Build.wp_mono (wp_ensure_of_size hc₁ hsize) (fun _ _ => False.elim) fun _ _ hw₂ =>
    IsTrans.trans _ _ _ hw₁ hw₂

/-- Closing the stores touches nothing if the graph that is open is the one in the file. -/
theorem wp_closing_of_isOpened (h : store.IsOpened w) :
    (do store.close; v.close : Build Unit).wp (fun _ w' => IsUntouched w w')
      (fun _ w' => IsUntouched w w') outside w := by
  rw [Build.wp_bind]
  refine Build.wp_mono (GraphStore.wp_close_of_isOpened h) (fun _ w₁ hw₁ => ?_) fun _ _ h => h
  exact ((Readies.spans_closeVectors v).mono fun _ _ => Readies.isUntouched).wp hw₁

/-- The stage fails at a flaw and touches nothing. -/
theorem wp_run_of_flaw (graph : Except Failure GraphStore) (hflaw : Flaw v config outside w) :
    (run graph v config).wp (fun _ _ => False) (fun _ w' => IsUntouched w w') outside w := by
  simp only [run, Build.wp_bind, Build.wp_log, Build.wp_now]
  have hstart : Readies w { w with
      events := .log ⟨.info, channel, ["Starting populate stage"]⟩ :: w.events } :=
    .cons fun _ h => by cases h
  refine Build.wp_mono (Build.wp_and ((Readies.spans_read _ _).wp hstart)
    (Build.wp_and (Staging.wp_read _ _) (wp_read_unrefused _ _)))
    (fun staged w₁ hw₁ => ?_) fun _ _ h => h.1.isUntouched
  obtain ⟨hw₁, ⟨hheld, -⟩, hallowed⟩ := hw₁
  rw [Build.wp_take]
  refine ⟨fun output houtput => ?_, fun _ _ => hw₁.isUntouched⟩
  -- what was decoded is an object, so that only the collection may have a flaw
  obtain ⟨fields, rfl⟩ : ∃ fields, staged = .obj fields := by
    cases staged with
    | obj fields => exact ⟨fields, rfl⟩
    | _ => cases houtput
  obtain ⟨c, hc, hsize⟩ := hflaw.size_of_heldOutput hallowed hheld houtput
  rw [Build.wp_take]
  refine ⟨fun store _ => ?_, fun _ _ => hw₁.isUntouched⟩
  refine Build.wp_mono GraphStore.wp_openStore_isOpened (fun _ w₂ hw₂ => ?_) fun _ _ hw₂ =>
    IsTrans.trans _ _ _ hw₁.isUntouched hw₂
  obtain ⟨hw₂, hopened⟩ := hw₂
  have huntouched₂ : IsUntouched w w₂ := IsTrans.trans _ _ _ hw₁.isUntouched hw₂
  refine Build.wp_mono (Readies.spans_openVectors v w₂) (fun _ w₃ hw₃ => ?_) fun _ _ hw₃ =>
    IsTrans.trans _ _ _ huntouched₂ hw₃.isUntouched
  have huntouched₃ : IsUntouched w w₃ := IsTrans.trans _ _ _ huntouched₂ hw₃.isUntouched
  have hc₃ : w₃.collections.get? v.collection = some c := huntouched₃.collections_eq ▸ hc
  rw [Build.wp_ensuring]
  refine Build.wp_mono (wp_fill_of_size hc₃ hsize) (fun _ _ => False.elim) fun _ w₄ hw₄ => ?_
  have huntouched₄ : IsUntouched w w₄ := IsTrans.trans _ _ _ huntouched₃ hw₄.isUntouched
  exact Build.wp_mono (wp_closing_of_isOpened ((hopened.readies hw₃).readies hw₄))
    (fun _ _ hw₅ => IsTrans.trans _ _ _ huntouched₄ hw₅) fun _ _ hw₅ =>
    IsTrans.trans _ _ _ huntouched₄ hw₅

/-- Whatever the two stores hold and however the stage is set up: a flaw of the output that it
reads, or a project's collection of another size, fails it, and no node, no edge and no point of any
project has been added, changed or removed. -/
theorem isUntouched_of_flaw (graph : Except Failure GraphStore) (v : VectorStore)
    (config : BuildConfig) (outside : Outside) (w : World) (hflaw : Flaw v config outside w) :
    ∃ f, ((run graph v config).run outside w).1 = .error f ∧
      IsUntouched w ((run graph v config).run outside w).2 := by
  have hrun := wp_run_of_flaw graph hflaw
  unfold Build.wp at hrun
  generalize (run graph v config).run outside w = ending at hrun ⊢
  obtain ⟨f | result, w'⟩ := ending
  · exact ⟨f, rfl, hrun⟩
  · exact hrun.elim

/-- A graph with a function, and a collection with a point whose vector has three numbers. -/
def otherSizeWorld : World :=
  { stagedWorld functionGone with
    collections := [("p__code_graph", ⟨3, [⟨7, [.int 1, .int 0, .int 0], []⟩]⟩)] }

theorem isUntouched_of_flaw_otherSize :
    Flaw (fileSettings.vectorStore "p") incrementalConfig quiet otherSizeWorld ∧
      ∃ f, ((run fileSettings.graphStore (fileSettings.vectorStore "p") incrementalConfig).run quiet
          otherSizeWorld).1 = .error f ∧
        IsUntouched otherSizeWorld ((run fileSettings.graphStore (fileSettings.vectorStore "p")
          incrementalConfig).run quiet otherSizeWorld).2 := by
  have hcollection : otherSizeWorld.collections.get? (fileSettings.vectorStore "p").collection =
      some ⟨3, [⟨7, [.int 1, .int 0, .int 0], []⟩]⟩ := by
    have hname : (fileSettings.vectorStore "p").collection = "p__code_graph" := by decide
    rw [hname]
    rfl
  have hflaw : Flaw (fileSettings.vectorStore "p") incrementalConfig quiet otherSizeWorld :=
    .size hcollection (by decide)
  exact ⟨hflaw, isUntouched_of_flaw _ _ _ _ _ hflaw⟩

end Populating

end RepoGraph
