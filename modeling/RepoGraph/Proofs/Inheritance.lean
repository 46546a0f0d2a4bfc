import RepoGraph.Proofs.Edges
import RepoGraph.Proofs.Extract.Classes

/-!
# Classes that extend each other, in the graph

What a class extends is stated by an edge to the bare name of its superclass, while a class has its
node under the path of its file and its name.  No entity is found under a bare name, so a build
never makes an edge between two classes: the stated edge is dropped unless something else has put a
node under the bare name.

Main statements: `Settings.Renews.hasNode_iff`, `Settings.leavesBare_of_full`.
-/

namespace RepoGraph

open Source (Tree HasPlainNames findingsAt entitiesAt Relates)
open Handover (IsHanded parsed)
open Syntax (File Node)

/-! ### Bare names -/

/-- No entity is found under the bare name of a class. -/
theorem Entity.IsIn.id_ne_bare {path base : String} {e : Entity} (h : e.IsIn path)
    (hbase : ':' ∉ base.toList) : e.id ≠ "class:" ++ base := by
  intro hid
  have hlist := congrArg String.toList hid
  rw [String.toList_append] at hlist
  obtain ⟨hl, -⟩ | ⟨hl, -⟩ | ⟨hl, -⟩ | ⟨hl, -⟩ | ⟨hl, -⟩ := h.toList_id <;> rw [hl] at hlist
  · simp at hlist
  · simp at hlist
  · simp at hlist
  · rw [← List.append_cancel_left hlist] at hbase
    exact hbase (List.mem_append_right _ List.mem_cons_self)
  · simp at hlist

namespace Source

variable {t : Tree} {path text name : String} {language : Language}

/-- Whether a file of a tree takes part in builds as code of a language, and its text. -/
structure IsCode (t : Tree) (path : String) (language : Language) (text : String) : Prop where
  included : isIncluded path = true
  read : ∃ content, t path = some content ∧ content.read = .ok text
  language_eq : Language.ofPath? path = some language

/-- Whether no superclass that a file of a tree names has a colon. -/
def HasPlainBases (t : Tree) : Prop := ∀ path source base,
  Relates t path (source, "class:" ++ base, Relationship.extendsType) → ':' ∉ base.toList

/-- Where superclasses have no colon, nothing extends the class of a file. -/
theorem HasPlainBases.not_relates (h : HasPlainBases t) (path' source path name : String) :
    ¬ Relates t path' (source, Entity.classId path name, Relationship.extendsType) := by
  have htarget : Entity.classId path name = "class:" ++ (path ++ ":" ++ name) := by
    simp only [Entity.classId, String.append_assoc]
  intro hrelates
  rw [htarget] at hrelates
  exact h path' source _ hrelates (by simp)

theorem findingsAt_eq {content : Content} (hcontent : t path = some content)
    (hread : content.read = .ok text) : findingsAt t path = (Extract.file path text).toOption := by
  unfold findingsAt
  rw [hcontent]
  simp only [hread, Except.toOption, bind, Option.bind_some]

theorem IsCode.languageOf_eq (h : IsCode t path language text) :
    Extract.languageOf path none = .ok language := by
  have hlanguage := h.language_eq
  delta Extract.languageOf
  generalize Language.ofPath? path = known at hlanguage
  subst hlanguage
  rfl

theorem IsCode.kind_eq (h : IsCode t path language text) : FileKind.ofPath? path = some .code := by
  have hsome : (Language.ofExtension? (Path.kindExtension path)).isSome = true := by
    rw [← Language.ofPath?, h.language_eq, Option.isSome_some]
  unfold FileKind.ofPath?
  simp only [hsome, if_true]

/-- A code file is read as code. -/
theorem IsCode.file_eq (h : IsCode t path language text) {found : Findings}
    (hfound : Extract.code text path none = .ok found) : Extract.file path text = .ok found := by
  have hkind := h.kind_eq
  unfold Extract.file
  -- the kind and the findings are closed off, lest they are computed
  generalize FileKind.ofPath? path = kind at hkind
  generalize Extract.code text path none = answer at hfound
  subst hkind hfound
  rfl

/-- What is found in a code file is what its tree tells. -/
theorem IsCode.findingsAt_eq (h : IsCode t path language text) : findingsAt t path =
    some (Extract.codeOfTree language path text
      (Extract.treeOf language (File.ofText path text).chars)) := by
  obtain ⟨content, hcontent, hread⟩ := h.read
  cases hfound : Extract.code text path none with
  | error fault =>
    rw [Extract.code, h.languageOf_eq] at hfound
    cases hfound
  | ok found =>
    obtain ⟨language', hlanguage', heq⟩ := Extract.exists_codeOfTree hfound
    rw [h.languageOf_eq, Except.ok.injEq] at hlanguage'
    subst hlanguage'
    rw [Source.findingsAt_eq hcontent hread, h.file_eq hfound, heq]
    simp only [Except.toOption]

theorem IsCode.entitiesAt_eq (h : IsCode t path language text) : entitiesAt t path =
    (Extract.codeOfTree language path text
      (Extract.treeOf language (File.ofText path text).chars)).entities := by
  rw [entitiesAt, if_pos h.included, h.findingsAt_eq]
  rfl

end Source

/-! ### Nodes after a full build -/

/-- The ids that are handed on are those of the entities in the files. -/
theorem Handover.IsHanded.mem_ids_iff {config : BuildConfig} {t : Tree} {paths gone : List String}
    {held : EnrichOutput} (h : IsHanded (fun e x => x.entity = e) config t paths gone held)
    (hincluded : ∀ path ∈ paths, Source.isIncluded path = true) (id : String) :
    id ∈ Populating.currentIds held ↔ ∃ path ∈ paths, ∃ e ∈ entitiesAt t path, e.id = id := by
  obtain ⟨input, output, houtput, hentities, hheld⟩ := h.exists_output hincluded
  have hids : Populating.currentIds held = input.entities.map Entity.id := by
    rw [Populating.currentIds, hheld, List.map_map, ← houtput.ids_eq.1]
    rfl
  rw [hids, hentities, List.map_map, List.mem_map]
  constructor
  · rintro ⟨e, he, rfl⟩
    obtain ⟨path, hpath, he⟩ := List.mem_flatMap.1 he
    exact ⟨path, (Handover.mem_parsed.1 hpath).1, e, he, (Entity.id_asRead e).symm⟩
  · rintro ⟨path, hpath, e, he, rfl⟩
    obtain ⟨-, -, found, hfound, -⟩ := Source.of_mem_entitiesAt he
    have hparsed : path ∈ parsed t paths := Handover.mem_parsed.2 ⟨hpath, by rw [hfound]; rfl⟩
    exact ⟨e, List.mem_flatMap.2 ⟨path, hparsed, he⟩, Entity.id_asRead e⟩

namespace Settings

variable {s : Settings} {outside : Outside} {w : World} {project path text : String}
  {language : Language} {config : BuildConfig} {t : Tree} {paths gone : List String} {g h : Graph}

/-- After a full build the nodes are those of before and those of the entities in the files that
were read. -/
theorem Renews.hasNode_iff (hrenews : Renews (fun e x => x.entity = e) config t paths gone g h)
    (hincluded : ∀ path ∈ paths, Source.isIncluded path = true)
    (hmode : config.mode ≠ Request.incremental) (id : String) :
    h.hasNode ⟨config.project, id⟩ = true ↔
      (∃ path ∈ paths, ∃ e ∈ entitiesAt t path, e.id = id) ∨
        g.hasNode ⟨config.project, id⟩ = true := by
  obtain ⟨held, merged, removed, hheld, hm, hsweep⟩ := hrenews
  have hstays : id ∉ removed := fun hremoved =>
    hmode ((Populating.mem_gone_of_sweep hm hsweep id).1 hremoved).1
  rw [Populating.hasNode_of_sweep hm hsweep, Populating.isNode, Bool.or_eq_true,
    List.contains_iff_mem,
    hheld.mem_ids_iff hincluded, and_iff_right hstays]

/-! ### Classes that extend others -/

open Extract (declares superclassOf)

/-- How the classes of a file, and what they extend, are in a graph after a build. -/
structure LeavesBare (project path : String) (language : Language) (t : Tree)
    (file : File) (root : Node)
    (before after : Graph) : Prop where
  /-- A class that is declared in the file is a node. -/
  hasNode : ∀ n ∈ root.preorder, ∀ name, declares file name n = true →
    after.hasNode ⟨project, Entity.classId path name⟩ = true
  /-- What extends the node of a class of the file has done so before. -/
  between : ∀ source name,
    after.IsEdge project (source, Entity.classId path name, Relationship.extendsType) ↔
      before.IsEdge project (source, Entity.classId path name, Relationship.extendsType)
  /-- What a class extends is stated by its bare name, and is an edge if something else has put a
  node there. -/
  bare : ∀ n ∈ root.preorder, ∀ name base, declares file name n = true →
    superclassOf language file n = some base → base ≠ "" →
      Relates t path (Entity.classId path name, "class:" ++ base, Relationship.extendsType) ∧
        (after.IsEdge project (Entity.classId path name, "class:" ++ base,
          Relationship.extendsType) ↔
          before.hasNode ⟨project, "class:" ++ base⟩ = true)

/-- A full build that reads a file leaves its classes in this way. -/
theorem Renews.leavesBare (hrenews : Renews (fun e x => x.entity = e) config t paths gone g h)
    (hincluded : ∀ path ∈ paths, Source.isIncluded path = true)
    (hmode : config.mode ≠ Request.incremental) (hread : path ∈ paths)
    (hcode : Source.IsCode t path language text) (hplain : HasPlainNames t)
    (hbases : Source.HasPlainBases t)
    (hspans : ∀ at_, g.IsEdge config.project at_ → g.Spans config.project at_) :
    LeavesBare config.project path language t (File.ofText path text)
      (Extract.treeOf language (File.ofText path text).chars) g h := by
  have hnode := hrenews.hasNode_iff hincluded hmode
  have hstays {at_ : String × String × String} (hbefore : g.IsEdge config.project at_) :
      h.Spans config.project at_ :=
    ⟨(hnode _).2 (.inr (hspans at_ hbefore).1), (hnode _).2 (.inr (hspans at_ hbefore).2)⟩
  have hedge (at_) := hrenews.isEdge_iff hincluded (hspans at_)
  have hclass : ∀ n ∈ (Extract.treeOf language (File.ofText path text).chars).preorder, ∀ name,
      declares (File.ofText path text) name n = true →
        h.hasNode ⟨config.project, Entity.classId path name⟩ = true := by
    intro n hn name hdeclares
    obtain ⟨e, he, hid⟩ := Extract.exists_entity_of_declares language hn hdeclares
    exact (hnode _).2 (.inl ⟨path, hread, e, hcode.entitiesAt_eq ▸ he, hid⟩)
  refine ⟨hclass, fun source name => ?_, fun n hn name base hdeclares hextends hbase => ?_⟩
  · rw [hedge]
    refine ⟨fun hafter => hafter.2.resolve_left ?_, fun hbefore => ⟨hstays hbefore, .inr hbefore⟩⟩
    exact fun ⟨path', _, hrelates⟩ => hbases.not_relates path' source path name hrelates
  · have hstated : Relates t path
        (Entity.classId path name, "class:" ++ base, Relationship.extendsType) := by
      obtain ⟨r, hr, hsource, htype, htarget⟩ := Extract.exists_relationship_of_extends
        (fun e he => hplain path e (hcode.entitiesAt_eq ▸ he)) hn hdeclares hextends hbase
      refine ⟨hcode.included, _, hcode.findingsAt_eq, r, hr, ?_, ?_⟩
      · rw [htype]
        decide
      · rw [Relationship.place, hsource, htype, htarget]
    refine ⟨hstated, ?_⟩
    -- no file puts a node under the bare name, so one there was there before
    have hbare : h.hasNode ⟨config.project, "class:" ++ base⟩ = true ↔
        g.hasNode ⟨config.project, "class:" ++ base⟩ = true := by
      rw [hnode]
      refine or_iff_right ?_
      rintro ⟨path', -, e, he, hid⟩
      exact (Source.isIn_of_mem_entitiesAt he).id_ne_bare (hbases path _ _ hstated) hid
    rw [hedge, Graph.Spans, hbare]
    exact ⟨fun hafter => hafter.1.2, fun hbefore =>
      ⟨⟨hclass n hn name hdeclares, hbefore⟩, .inl ⟨path, hread, hstated⟩⟩⟩

/-- After a full build that succeeds, classes of a code file are nodes, what they extend is stated
by bare names, and no class is joined to one that it extends unless it was before. -/
theorem leavesBare_of_full (s : Settings) (outside : Outside) (w : World) (project path text : String)
    (language : Language) (commit : Option String) (result : Population)
    (hbackend : s.graphBackend = "networkx") (hreadable : Reading.IsReadable outside s.repoPath)
    (hcode : Source.IsCode (Source.checkout w.disk w.cwd s.repoPath) path language text)
    (hplain : HasPlainNames (Source.checkout w.disk w.cwd s.repoPath))
    (hbases : Source.HasPlainBases (Source.checkout w.disk w.cwd s.repoPath))
    (hspans : ∀ at_, (Staging.graphAt s.stagingPath w).IsEdge project at_ →
      (Staging.graphAt s.stagingPath w).Spans project at_)
    (hrun : ((s.build (s.buildConfig Request.full project commit)).run outside w).1.toOption =
      some result) :
    LeavesBare project path language (Source.checkout w.disk w.cwd s.repoPath) (File.ofText path text)
      (Extract.treeOf language (File.ofText path text).chars) (Staging.graphAt s.stagingPath w)
      (Staging.graphAt s.stagingPath
        ((s.build (s.buildConfig Request.full project commit)).run outside w).2) := by
  have hexists : Source.checkout w.disk w.cwd s.repoPath path ≠ none := by
    obtain ⟨content, hcontent, -⟩ := hcode.read
    rw [hcontent]
    exact Option.some_ne_none _
  exact (renews_of_full hbackend hreadable (enrichesAs_entity s outside) hrun).leavesBare
    (fun path hpath => (Source.mem_discover.1 hpath).2)
    (show Request.full ≠ Request.incremental by decide)
    (Source.mem_discover.2 ⟨Source.mem_filesBelow hexists, hcode.included⟩) hcode
      hplain hbases hspans

/-! ### Two classes of one file -/

open Populating (fileSettings)

/-- A class, and one that extends it. -/
def twoClasses : String := "class B \x7b\x7d\nclass A extends B \x7b\x7d\n"

/-- The syntax tree of the two classes. -/
def twoClassesRoot : Node := Extract.treeOf .javascript (File.ofText "a.js" twoClasses).chars

/-- What is found in the file. -/
def twoClassesFound : Findings := Extract.codeOfTree .javascript "a.js" twoClasses twoClassesRoot

/-- A checkout of the file beside an empty staging area. -/
def scriptWorld : World :=
  World.ofDisk (emptyDisk.put ["repo", "a.js"] (.file (.text twoClasses))) []

theorem isCode_twoClasses :
    Source.IsCode (singleTree "a.js" twoClasses) "a.js" .javascript twoClasses where
  included := by decide +kernel
  read := ⟨.text twoClasses, if_pos rfl, by decide +kernel⟩
  language_eq := by decide +kernel

theorem sameDirectories_scriptWorld : Disk.SameDirectories emptyDisk scriptWorld.disk :=
  Disk.sameDirectories_put rfl

theorem filesBelow_scriptWorld : scriptWorld.disk.filesBelow [] "repo" = ["a.js"] :=
  filesBelow_of_below sameDirectories_scriptWorld rfl

theorem checkout_scriptWorld :
    Source.checkout scriptWorld.disk scriptWorld.cwd fileSettings.repoPath =
      singleTree "a.js" twoClasses :=
  checkout_of_single (by refine ⟨?_, ?_, ?_, ?_⟩ <;> decide) sameDirectories_scriptWorld rfl rfl

theorem discover_scriptWorld :
    Source.discover scriptWorld.disk scriptWorld.cwd fileSettings.repoPath = ["a.js"] := by
  refine discover_of_files ?_ filesBelow_scriptWorld isCode_twoClasses.included
  unfold Disk.HasNames Path.IsName
  show ∀ place ∈ [["repo"], ["s"], ["s", "parse"], ["s", "enrich"], ["s", "graph"], ["repo", "a.js"]], _
  decide

/-- A staging area without a graph holds the empty one. -/
theorem graphAt_of_fileAt_eq_none {staging : String}
    (h : w.disk.fileAt w.cwd (Staging.graphPath staging) = none) :
    Staging.graphAt staging w = .empty := by
  rw [Staging.graphAt, h]

theorem fileAt_scriptWorld : scriptWorld.disk.fileAt [] (Staging.graphPath "s") = none := by
  rw [Disk.fileAt, absolute_graphPath]
  rfl

theorem graphAt_scriptWorld : Staging.graphAt fileSettings.stagingPath scriptWorld = .empty :=
  graphAt_of_fileAt_eq_none fileAt_scriptWorld

theorem isReady_scriptWorld : fileSettings.IsReady "p" scriptWorld := by
  refine ⟨isLaidOut_emptyDisk.same sameDirectories_scriptWorld, fun content hcontent => ?_, rfl⟩
  have hnone : scriptWorld.disk.fileAt scriptWorld.cwd
      (Staging.graphPath fileSettings.stagingPath) =
    none := fileAt_scriptWorld
  rw [hnone] at hcontent
  cases hcontent

theorem isShort_twoClasses : IsShort (fileSettings.buildConfig Request.full "p" none)
    (singleTree "a.js" twoClasses) ["a.js"] [] modifyingSaid := by
  refine isShort_of_found isCode_twoClasses.findingsAt_eq ?_ ?_ ?_ ?_ ?_
  · decide +kernel
  · decide +kernel
  · decide +kernel
  · decide +kernel
  · decide +kernel

theorem exists_full_scriptWorld : ∃ result,
    ((fileSettings.build (fileSettings.buildConfig Request.full "p" none)).run modifying
      scriptWorld).1.toOption = some result := by
  have hselect : ∀ w', Staging.Notes scriptWorld w' →
      (Reading.select (fileSettings.buildConfig Request.full "p" none)).wp
        (fun selected w'' => selected = (["a.js"], []) ∧ Staging.Notes w' w'') (fun _ _ => False)
          modifying w' := by
    intro w' hw'
    refine Build.wp_mono (Reading.wp_select_full rfl) (fun selected w'' hw'' => ?_) fun _ _ => id
    obtain ⟨rfl, hnotes⟩ := hw''
    obtain ⟨events, rfl⟩ := hw'
    exact ⟨congrArg (·, []) discover_scriptWorld, hnotes⟩
  have hpaths : ∀ path ∈ ["a.js"],
      path ∈ scriptWorld.disk.filesBelow scriptWorld.cwd fileSettings.repoPath := by
    intro path hpath
    have hfiles : scriptWorld.disk.filesBelow scriptWorld.cwd fileSettings.repoPath = ["a.js"] :=
      filesBelow_scriptWorld
    rw [hfiles]
    exact hpath
  have hshort : IsShort (fileSettings.buildConfig Request.full "p" none)
      (Source.checkout scriptWorld.disk scriptWorld.cwd fileSettings.repoPath) ["a.js"] []
        modifyingSaid := by
    rw [checkout_scriptWorld]
    exact isShort_twoClasses
  have henriches := enriches_of_isSteady fileSettings isSteady_modifying
  exact (succeeds_build rfl isCalm_modifying hasGit_modifying
    (.inl rfl) henriches isReady_scriptWorld
    hselect hpaths hshort).exists_answer

/-- The graph that a full build of the file leaves in an empty store. -/
def twoClassesGraph : Graph :=
  Staging.graphAt "s" ((fileSettings.build (fileSettings.buildConfig Request.full "p" none)).run
    modifying scriptWorld).2

theorem eq_of_findingsAt_twoClasses {path : String} {found : Findings}
    (h : findingsAt (singleTree "a.js" twoClasses) path = some found) :
    path = "a.js" ∧ found = twoClassesFound := by
  have hpath : path = "a.js" := by
    by_contra hne
    have hnone : singleTree "a.js" twoClasses path = none := if_neg hne
    rw [findingsAt, hnone] at h
    cases h
  subst hpath
  rw [isCode_twoClasses.findingsAt_eq, Option.some.injEq] at h
  exact ⟨rfl, h.symm⟩

theorem hasPlainNames_twoClasses : HasPlainNames (singleTree "a.js" twoClasses) := by
  have hplain : ∀ e ∈ twoClassesFound.entities,
      e.kind = Entity.classKind ∨ e.kind = Entity.functionKind → ':' ∉ e.name.toList := by
    decide +kernel
  intro path e he
  obtain ⟨-, -, found, hfound, hmem⟩ := Source.of_mem_entitiesAt he
  exact hplain e ((eq_of_findingsAt_twoClasses hfound).2 ▸ hmem)

theorem hasPlainBases_twoClasses : Source.HasPlainBases (singleTree "a.js" twoClasses) := by
  have hbases : ∀ r ∈ twoClassesFound.relationships,
      r.type = Relationship.extendsType → r.target = "class:" ++ "B" := by
    decide +kernel
  rintro path source base ⟨-, found, hfound, r, hr, -, hplace⟩
  obtain ⟨-, htarget, htype⟩ : r.source = source ∧ r.target = "class:" ++ base ∧
      r.type = Relationship.extendsType := by simpa [Relationship.place] using hplace
  have hbase := hbases r ((eq_of_findingsAt_twoClasses hfound).2 ▸ hr) htype
  rw [htarget, String.append_right_inj] at hbase
  rw [hbase]
  decide

theorem leavesBare_of_full_twoClasses : ∃ result,
    ((fileSettings.build (fileSettings.buildConfig Request.full "p" none)).run modifying
      scriptWorld).1.toOption = some result ∧
    LeavesBare "p" "a.js" .javascript (singleTree "a.js" twoClasses) (File.ofText "a.js" twoClasses)
      twoClassesRoot .empty twoClassesGraph := by
  obtain ⟨result, hrun⟩ := exists_full_scriptWorld
  refine ⟨result, hrun, ?_⟩
  have hspans : ∀ at_, (Staging.graphAt fileSettings.stagingPath scriptWorld).IsEdge "p" at_ →
      (Staging.graphAt fileSettings.stagingPath scriptWorld).Spans "p" at_ := by
    intro at_ hedge
    rw [graphAt_scriptWorld] at hedge
    cases hedge
  have hleaves := leavesBare_of_full fileSettings modifying scriptWorld "p" "a.js"
    twoClasses .javascript
    none result rfl (fun _ _ => rfl) (checkout_scriptWorld ▸ isCode_twoClasses)
    (checkout_scriptWorld ▸ hasPlainNames_twoClasses)
      (checkout_scriptWorld ▸ hasPlainBases_twoClasses)
    hspans hrun
  rw [checkout_scriptWorld, graphAt_scriptWorld] at hleaves
  exact hleaves

/-- One class extends the other, and a full build of the file into an empty store makes no edge
between them. -/
theorem not_isEdge_of_full_twoClasses :
    Source.IsCode (singleTree "a.js" twoClasses) "a.js" .javascript twoClasses ∧
    (twoClassesRoot.preorder.filter (declares (File.ofText "a.js" twoClasses) "A")).map
      (superclassOf .javascript (File.ofText "a.js" twoClasses)) = [some "B"] ∧
    (twoClassesRoot.preorder.filter (declares (File.ofText "a.js" twoClasses) "B")).length = 1 ∧
    ∃ result, ((fileSettings.build (fileSettings.buildConfig Request.full "p" none)).run modifying
        scriptWorld).1.toOption = some result ∧
      twoClassesGraph.hasNode ⟨"p", "class:a.js:A"⟩ = true ∧
      twoClassesGraph.hasNode ⟨"p", "class:a.js:B"⟩ = true ∧
      ¬ twoClassesGraph.IsEdge "p" ("class:a.js:A", "class:a.js:B", "EXTENDS") := by
  obtain ⟨result, hrun⟩ := exists_full_scriptWorld
  have hrenews := renews_of_full (w := scriptWorld) rfl (fun _ _ => rfl)
    (enrichesAs_entity fileSettings modifying) hrun
  rw [checkout_scriptWorld, discover_scriptWorld, graphAt_scriptWorld] at hrenews
  -- the base has a plain name, so a build leaves the edge between the classes as it was: not there
  have hleaves := hrenews.leavesBare
    (List.forall_mem_singleton.2 isCode_twoClasses.included) (by decide)
    (List.mem_singleton_self _) isCode_twoClasses hasPlainNames_twoClasses hasPlainBases_twoClasses
    fun at_ hedge => by cases hedge
  have hdeclared : ∀ name ∈ ["A", "B"],
      (twoClassesRoot.preorder.filter (declares (File.ofText "a.js" twoClasses) name)).length =
        1 := by
    decide +kernel
  have hnode : ∀ name ∈ ["A", "B"],
      twoClassesGraph.hasNode ⟨"p", Entity.classId "a.js" name⟩ = true := by
    intro name hname
    obtain ⟨n, hn⟩ := List.length_eq_one_iff.1 (hdeclared name hname)
    have hmem : n ∈ twoClassesRoot.preorder.filter
        (declares (File.ofText "a.js" twoClasses) name) := by
      rw [hn]
      exact List.mem_singleton_self _
    obtain ⟨hmem, hdeclares⟩ := List.mem_filter.1 hmem
    exact hleaves.hasNode n hmem name hdeclares
  refine ⟨isCode_twoClasses, by decide +kernel, hdeclared "B" (by decide), result, hrun,
    hnode "A" (by decide), hnode "B" (by decide), fun hedge => ?_⟩
  have hbefore := (hleaves.between "class:a.js:A" "B").1 hedge
  cases hbefore

end Settings

end RepoGraph
