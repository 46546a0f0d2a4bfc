import RepoGraph.Proofs.Extract.Offered

/-!
# What a file imports

A file has one edge to each module that one of its statements imports from.  Edges of one id are not
added twice, and the id of an edge does not depend on its properties: so the edge says what the
first of these statements takes from the module.  What only later ones take is not said anywhere.

Which names a statement takes is said twice: `Takes` reads it off the parts of the statement, and
`importsOf` lists it as the walk finds it.

Main statements: `Extract.mem_importsOf_iff`, `Extract.relationships_of_import`,
`Extract.specifiers_of_first_import`.
-/

namespace RepoGraph

namespace Extract

open Syntax (File Node Span)
open Syntax.Node (mem_namedChildren mem_namedChildren_of_kind mem_childrenIn)
open Account (ofType ofType_all ofType_edge_self)

variable {file : File} {n : Node} {module name : String} {names : List String}

/-! ### What statements take -/

namespace Script

/-- Whether a statement imports from a module. -/
def ImportsFrom (file : File) (n : Node) (module : String) : Prop :=
  n.kind = .importStatement ∧
    ∃ source, n.child? .source = some source ∧ stringValue file source = some module

/-- Whether a part of an import clause takes a name. -/
inductive PartTakes (file : File) (part : Node) : String → Prop
  | default (hkind : part.kind = .identifier) : PartTakes file part "default"
  | whole (hkind : part.kind = .namespaceImport) : PartTakes file part "namespace"
  | named {specifier name : Node} (hkind : part.kind = .namedImports)
      (hspecifier : specifier ∈ part.children) (hspecifies : specifier.kind = .importSpecifier)
      (hname : specifier.child? .name = some name) : PartTakes file part (file.nodeText name)
  | unnamed {specifier : Node} (hkind : part.kind = .namedImports)
      (hspecifier : specifier ∈ part.children) (hspecifies : specifier.kind = .importSpecifier)
      (hname : specifier.child? .name = none) : PartTakes file part "namespace"

/-- Whether a statement takes a name, in one of the parts of its clauses. -/
def Takes (file : File) (n : Node) (name : String) : Prop :=
  ∃ clause ∈ n.children, clause.kind = .importClause ∧
    ∃ part ∈ clause.children, PartTakes file part name

/-- The imports of a statement: modules with the names that are taken. -/
def imports (file : File) (n : Node) : List (String × List String) :=
  match n.kind with
  | .importStatement =>
    ((n.child? .source).bind (stringValue file)).toList.map fun module =>
      (module, importedNames file n)
  | _ => []

theorem mem_clauseNames {part : Node} : name ∈ clauseNames file part ↔
    PartTakes file part name := by
  constructor
  · intro h
    unfold clauseNames at h
    cases hkind : part.kind with
    | identifier =>
      rw [hkind] at h
      obtain rfl := List.mem_singleton.1 h
      exact .default hkind
    | namespaceImport =>
      rw [hkind] at h
      obtain rfl := List.mem_singleton.1 h
      exact .whole hkind
    | namedImports =>
      rw [hkind] at h
      obtain ⟨specifier, hspecifier, hname⟩ := List.mem_map.1 h
      obtain ⟨hspecifier, hspecifies⟩ := List.mem_filter.1 hspecifier
      have hchild := (mem_namedChildren.1 hspecifier).1
      have hspecifies := beq_iff_eq.1 hspecifies
      cases hnode : specifier.child? .name with
      | some node =>
        rw [hnode] at hname
        exact hname ▸ .named hkind hchild hspecifies hnode
      | none =>
        rw [hnode] at hname
        exact hname ▸ .unnamed hkind hchild hspecifies hnode
    | _ => simp [hkind] at h
  · have hnamed {specifier : Node} (hspecifier : specifier ∈ part.children)
        (hspecifies : specifier.kind = .importSpecifier) :
        specifier ∈ part.namedChildren.filter fun s => s.kind == .importSpecifier := by
      exact List.mem_filter.2 ⟨mem_namedChildren_of_kind hspecifier hspecifies (by decide),
        beq_iff_eq.2 hspecifies⟩
    rintro (hkind | hkind | ⟨hkind, hspecifier, hspecifies, hname⟩ |
      ⟨hkind, hspecifier, hspecifies, hname⟩)
    · simp [clauseNames, hkind]
    · simp [clauseNames, hkind]
    · rw [clauseNames, hkind]
      exact List.mem_map.2 ⟨_, hnamed hspecifier hspecifies, by rw [hname]⟩
    · rw [clauseNames, hkind]
      exact List.mem_map.2 ⟨_, hnamed hspecifier hspecifies, by rw [hname]⟩

theorem mem_importedNames : name ∈ importedNames file n ↔ Takes file n name := by
  have hclause {part : Node} (hpart : PartTakes file part name) : part.kind ≠ .asyncMark := by
    intro hkind
    cases hpart <;> simp_all
  simp only [importedNames, List.mem_flatMap, List.mem_filter, mem_namedChildren, mem_clauseNames,
    beq_iff_eq, Takes]
  constructor
  · rintro ⟨clause, ⟨⟨hclause, -⟩, hkind⟩, part, ⟨hpart, -⟩, htakes⟩
    exact ⟨clause, hclause, hkind, part, hpart, htakes⟩
  · rintro ⟨clause, hmem, hkind, part, hpart, htakes⟩
    refine ⟨clause, ⟨⟨hmem, ?_⟩, hkind⟩, part, ⟨hpart, hclause htakes⟩, htakes⟩
    rw [hkind]
    exact nofun

theorem mem_imports_iff : (module, names) ∈ imports file n ↔
    ImportsFrom file n module ∧ names = importedNames file n := by
  unfold imports ImportsFrom
  split
  · rename_i hkind
    simp only [hkind, List.mem_map, Option.mem_toList, Option.bind_eq_some_iff,
      Prod.mk.injEq, true_and]
    constructor
    · rintro ⟨_, hsource, rfl, rfl⟩
      exact ⟨hsource, rfl⟩
    · rintro ⟨hsource, rfl⟩
      exact ⟨module, hsource, rfl, rfl⟩
  · rename_i hkind
    exact ⟨nofun, fun h => absurd h.1.1 hkind⟩

end Script

namespace Outline

/-- Whether a statement imports from a module. -/
def ImportsFrom (file : File) (n : Node) (module : String) : Prop :=
  (n.kind = .importStatement ∧
    ∃ child ∈ n.children, child.role = some .name ∧ importedName file child = module) ∨
  (n.kind = .importFrom ∧ ∃ source, n.child? .moduleName = some source ∧
    file.nodeText source = module)

/-- Whether a statement takes a name: the import of a module takes it as a whole, that of things
takes these or all of them. -/
def Takes (file : File) (n : Node) (name : String) : Prop :=
  (n.kind = .importStatement ∧ name = "namespace") ∨
  (n.kind = .importFrom ∧
    ((∃ child ∈ n.children, child.role = some .name ∧ importedName file child = name) ∨
      (∃ child ∈ n.children, child.kind = .wildcardImport) ∧ name = "*"))

/-- The names that the import of things takes. -/
def takenNames (file : File) (n : Node) : List String :=
  (n.childrenIn .name).map (importedName file) ++
    if n.namedChildren.any fun c => c.kind == .wildcardImport then ["*"] else []

/-- The imports of a statement: modules with the names that are taken. -/
def imports (file : File) (n : Node) : List (String × List String) :=
  match n.kind with
  | .importStatement => (n.childrenIn .name).map fun child =>
      (importedName file child, ["namespace"])
  | .importFrom =>
    (n.child? .moduleName).toList.map fun source => (file.nodeText source, takenNames file n)
  | _ => []

theorem any_wildcard : (n.namedChildren.any fun c => c.kind == .wildcardImport) = true ↔
    ∃ child ∈ n.children, child.kind = .wildcardImport := by
  rw [List.any_eq_true]
  constructor
  · rintro ⟨child, hchild, hkind⟩
    exact ⟨child, (mem_namedChildren.1 hchild).1, beq_iff_eq.1 hkind⟩
  · rintro ⟨child, hchild, hkind⟩
    exact ⟨child, mem_namedChildren_of_kind hchild hkind (by decide), beq_iff_eq.2 hkind⟩

theorem mem_takenNames (hkind : n.kind = .importFrom) :
    name ∈ takenNames file n ↔ Takes file n name := by
  have hstar : (name ∈ if n.namedChildren.any fun c => c.kind == .wildcardImport then
      ["*"] else []) ↔
      (∃ child ∈ n.children, child.kind = .wildcardImport) ∧ name = "*" := by
    rw [← any_wildcard]
    split
    · rename_i hany
      rw [List.mem_singleton, and_iff_right hany]
    · rename_i hany
      exact ⟨nofun, fun h => absurd h.1 hany⟩
  rw [takenNames, List.mem_append, hstar, List.mem_map, Takes]
  simp only [mem_childrenIn, hkind, and_assoc, true_and, reduceCtorEq, false_and, false_or]

theorem mem_imports (h : (module, names) ∈ imports file n) :
    ImportsFrom file n module ∧ ∀ name, name ∈ names ↔ Takes file n name := by
  unfold imports at h
  split at h
  · rename_i hkind
    obtain ⟨child, hchild, heq⟩ := List.mem_map.1 h
    obtain ⟨rfl, rfl⟩ := Prod.mk.inj heq
    obtain ⟨hchild, hrole⟩ := mem_childrenIn.1 hchild
    refine ⟨.inl ⟨hkind, child, hchild, hrole, rfl⟩, fun name => ?_⟩
    simp [Takes, hkind]
  · rename_i hkind
    obtain ⟨source, hsource, heq⟩ := List.mem_map.1 h
    obtain ⟨rfl, rfl⟩ := Prod.mk.inj heq
    exact ⟨.inr ⟨hkind, source, Option.mem_toList.1 hsource, rfl⟩, fun name => mem_takenNames hkind⟩
  · cases h

theorem exists_imports (h : ImportsFrom file n module) :
    ∃ names, (module, names) ∈ imports file n := by
  obtain ⟨hkind, child, hchild, hrole, rfl⟩ | ⟨hkind, source, hsource, rfl⟩ := h
  · refine ⟨["namespace"], ?_⟩
    rw [imports, hkind]
    exact List.mem_map.2 ⟨child, mem_childrenIn.2 ⟨hchild, hrole⟩, rfl⟩
  · refine ⟨takenNames file n, ?_⟩
    rw [imports, hkind, hsource]
    exact List.mem_singleton_self _

end Outline

/-! ### The edges of imports -/

/-- Whether a statement imports from a module. -/
def ImportsFrom (language : Language) (file : File) (n : Node) (module : String) : Prop :=
  match language with
  | .python => Outline.ImportsFrom file n module
  | _ => Script.ImportsFrom file n module

/-- Whether a statement takes a name from the modules that it imports from. -/
def Takes (language : Language) (file : File) (n : Node) (name : String) : Prop :=
  match language with
  | .python => Outline.Takes file n name
  | _ => Script.Takes file n name

/-- The imports of a statement: modules with the names that are taken. -/
def importsOf (language : Language) (file : File) (n : Node) : List (String × List String) :=
  match language with
  | .python => Outline.imports file n
  | _ => Script.imports file n

variable {language : Language} {path text : String} {root : Node}

/-- Statements import from the modules that are listed, and take the names that are listed. -/
theorem mem_importsOf_iff :
    (∃ names, (module, names) ∈ importsOf language file n) ↔
      ImportsFrom language file n module := by
  cases language with
  | python => exact ⟨fun ⟨_, h⟩ => (Outline.mem_imports h).1, Outline.exists_imports⟩
  | javascript | typescript | tsx =>
    exact ⟨fun ⟨_, h⟩ => (Script.mem_imports_iff.1 h).1,
      fun h => ⟨_, Script.mem_imports_iff.2 ⟨h, rfl⟩⟩⟩

@[inherit_doc mem_importsOf_iff]
theorem mem_names_iff (h : (module, names) ∈ importsOf language file n) :
    name ∈ names ↔ Takes language file n name := by
  cases language with
  | python => exact (Outline.mem_imports h).2 name
  | javascript | typescript | tsx =>
    rw [(Script.mem_imports_iff.1 h).2]
    exact Script.mem_importedNames

/-- The edge of an import. -/
def importEdge (path : String) (given : String × List String) : Relationship :=
  Relationship.create (Entity.fileId path) Relationship.imports ("module:" ++ given.1)
    [("specifiers", nameList given.2)]

theorem Script.ofType_account (n : Node) : ofType Relationship.imports (account file n) =
    (imports file n).map (importEdge file.path) := by
  by_cases hkind : n.kind = .importStatement
  · rw [account, imports, hkind]
    dsimp only
    cases (n.child? .source).bind (stringValue file) with
    | none => rfl
    | some module => exact ofType_edge_self _ _ _
  · have hnone : imports file n = [] := by
      unfold imports
      split
      · contradiction
      · rfl
    rw [hnone, List.map_nil]
    exact ofType_account_eq_nil (by decide) (by decide) (by decide) (absurd · hkind)
      fun _ => by decide

theorem Outline.ofType_account (spans : List Span) (n : Node) :
    ofType Relationship.imports (account file spans n) =
      (imports file n).map (importEdge file.path) := by
  by_cases hkind : n.kind = .importStatement
  · rw [account, imports, hkind]
    dsimp only
    rw [ofType_all, List.map_map, ← List.flatMap_pure_eq_map]
    exact List.flatMap_congr fun child _ => ofType_edge_self _ _ _
  · by_cases hfrom : n.kind = .importFrom
    · rw [account, imports, hfrom]
      dsimp only
      cases n.child? .moduleName with
      | none => rfl
      | some source => exact ofType_edge_self _ _ _
    · have hnone : imports file n = [] := by
        unfold imports
        split
        · contradiction
        · contradiction
        · rfl
      rw [hnone, List.map_nil]
      exact ofType_account_eq_nil (by decide) (by decide) (by decide)
        (fun h => absurd h (not_or.2 ⟨hkind, hfrom⟩)) fun _ => by decide

/-- The edges of imports that a code file offers are those of its statements, in order. -/
theorem offered_imports (language : Language) (path text : String) (root : Node) :
    ofType Relationship.imports (codeAccount language path text root) =
      (root.preorder.flatMap (importsOf language (File.ofText path text))).map
        (importEdge path) := by
  rw [ofType_codeAccount (by decide), List.map_flatMap]
  cases language with
  | python => exact Outline.ofType_accounts Outline.ofType_account [] root.preorder
  | javascript | typescript | tsx =>
    exact (ofType_all _ _).trans (List.flatMap_congr fun n _ => Script.ofType_account n)

/-- Among what a code file offers, the id of the edge of an import tells an import of that
module. -/
theorem eq_of_importId {r : Relationship} (hr : r ∈ (codeAccount language path text root).offered)
    (hid : r.id = Relationship.idOf (Entity.fileId path) Relationship.imports
      ("module:" ++ module)) :
    r.type = Relationship.imports := by
  have hcode := isOfCode_codeAccount language path text root
  have hknown : Relationship.isKnownType Relationship.imports = true := by decide
  rw [hcode.id_eq r hr] at hid
  obtain hsource | ⟨e, he, hkind, hsource⟩ := hcode.source r hr
  · rw [hsource] at hid
    exact (Relationship.eq_of_idOf_eq (hcode.isKnownType r hr) hknown hid).1
  · -- an edge of a class begins like the class, not like the file
    obtain ⟨-, ⟨-, hclass⟩ | ⟨hfunction, -⟩⟩ := hcode.declared e he
    · rw [hsource, hclass] at hid
      exact absurd hid.symm Relationship.idOf_file_ne_class
    · exact absurd (hkind.symm.trans hfunction) (by decide)

theorem target_importEdge (path : String) (given : String × List String) :
    (importEdge path given).target = "module:" ++ given.1 := rfl

/-- The id of the edge of an import tells the module, but not the names. -/
theorem id_importEdge_eq_iff {given other : String × List String} :
    (importEdge path given).id = (importEdge path other).id ↔ given.1 = other.1 := by
  refine ⟨fun h => ?_, fun h => ?_⟩
  · exact (String.append_right_inj _).1 (Relationship.eq_of_idOf_eq (by decide) (by decide) h).2
  · rw [importEdge, h]
    rfl

theorem relationships_codeOfTree (language : Language) (path text : String) (root : Node) :
    (codeOfTree language path text root).relationships =
      Relationship.gather [] (codeAccount language path text root).offered := by
  rw [codeOfTree_eq]
  rfl

/-- Of the edges with the id of an import, that of the first such import is kept. -/
theorem find?_importEdge
    (hfirst : (root.preorder.flatMap (importsOf language (File.ofText path text))).find?
      (fun given => given.1 == module) = some (module, names)) :
    (codeOfTree language path text root).relationships.find?
      (fun r => r.id == (importEdge path (module, names)).id) =
        some (importEdge path (module, names)) := by
  rw [relationships_codeOfTree, Relationship.find?_gather, List.nil_append]
  -- what has the id is of the type, so the search may be narrowed to the imports
  have hnarrow : (codeAccount language path text root).offered.find?
      (fun r => r.id == (importEdge path (module, names)).id) =
        (ofType Relationship.imports (codeAccount language path text root)).find?
          fun r => r.id == (importEdge path (module, names)).id :=
    (find?_filter_of_imp fun r hr hid => beq_iff_eq.2 (eq_of_importId hr (beq_iff_eq.1 hid))).symm
  have hsearch : ((fun r : Relationship => r.id == (importEdge path (module, names)).id) ∘
      importEdge path) = fun given => given.1 == module := by
    funext given
    rw [Bool.eq_iff_iff, Function.comp, beq_iff_eq, beq_iff_eq, id_importEdge_eq_iff]
  rw [hnarrow, offered_imports, List.find?_map, hsearch, hfirst]
  rfl

/-- A file has one edge to a module that it imports from: that of the first such import. -/
theorem relationships_of_import
    (hfirst : (root.preorder.flatMap (importsOf language (File.ofText path text))).find?
      (fun given => given.1 == module) = some (module, names)) :
    importEdge path (module, names) ∈ (codeOfTree language path text root).relationships ∧
      ∀ r ∈ (codeOfTree language path text root).relationships, r.type = Relationship.imports →
        r.target = "module:" ++ module → r = importEdge path (module, names) := by
  have hkept := List.mem_of_find?_eq_some (find?_importEdge hfirst)
  refine ⟨hkept, fun r hr htype htarget => ?_⟩
  have hoffered : r ∈ ofType Relationship.imports (codeAccount language path text root) := by
    rw [relationships_codeOfTree] at hr
    have hmem := (Relationship.mem_or_mem_of_mem_gather hr).resolve_left List.not_mem_nil
    exact List.mem_filter.2 ⟨hmem, beq_iff_eq.2 htype⟩
  rw [offered_imports] at hoffered
  obtain ⟨given, -, rfl⟩ := List.mem_map.1 hoffered
  rw [target_importEdge, String.append_right_inj] at htarget
  -- edges are kept once for each id
  have hnodup : ((codeOfTree language path text root).relationships.map Relationship.id).Nodup := by
    rw [relationships_codeOfTree]
    exact Relationship.nodup_gather List.nodup_nil
  exact List.inj_on_of_nodup_map hnodup hr hkept (id_importEdge_eq_iff.2 htarget)

/-! ### The first import decides -/

/-- The imports of a tree begin, for a module, with those of the first statement that imports from
it. -/
theorem find?_importsOf {before : List Node} {first : Node} (after : List Node)
    (hbefore : ∀ n ∈ before, ¬ ImportsFrom language file n module)
    (hfirst : ImportsFrom language file first module) :
    ∃ names, (module, names) ∈ importsOf language file first ∧
      ((before ++ first :: after).flatMap (importsOf language file)).find?
        (fun given => given.1 == module) = some (module, names) := by
  obtain ⟨taken, hsome⟩ := mem_importsOf_iff.2 hfirst
  -- a statement that comes earlier tells of other modules only
  have hnone : (before.flatMap (importsOf language file)).find? (fun given => given.1 == module) =
      none := by
    rw [List.find?_eq_none]
    intro given hgiven hmodule
    obtain ⟨n, hn, hmem⟩ := List.mem_flatMap.1 hgiven
    obtain rfl := beq_iff_eq.1 hmodule
    exact hbefore n hn (mem_importsOf_iff.1 ⟨given.2, hmem⟩)
  obtain ⟨given, hgiven⟩ : ∃ given,
      (importsOf language file first).find? (fun given => given.1 == module) = some given := by
    rw [← Option.isSome_iff_exists, List.find?_isSome]
    exact ⟨_, hsome, beq_self_eq_true module⟩
  have hmodule : given.1 = module := by simpa using List.find?_some hgiven
  obtain ⟨_, names⟩ := given
  obtain rfl : _ = module := hmodule
  refine ⟨names, List.mem_of_find?_eq_some hgiven, ?_⟩
  rw [List.flatMap_append, List.find?_append, hnone, Option.none_or, List.flatMap_cons,
    List.find?_append, hgiven, Option.some_or]

/-- A code file has exactly one edge to each module that a statement of its tree imports from.  It
says the names that the first of these statements takes; so it says all names that are taken exactly
if the later ones take no others. -/
theorem specifiers_of_first_import (path text : String) :
    (∀ named found, code text path named = .ok found → ∃ language,
      languageOf path named = .ok language ∧
        found = codeOfTree language path text (treeOf language (File.ofText path text).chars)) ∧
    ∀ language root module,
      (∃ n ∈ root.preorder, ImportsFrom language (File.ofText path text) n module) →
      ∃ before first after names, root.preorder = before ++ first :: after ∧
        (∀ n ∈ before, ¬ ImportsFrom language (File.ofText path text) n module) ∧
        ImportsFrom language (File.ofText path text) first module ∧
        (∀ name, name ∈ names ↔ Takes language (File.ofText path text) first name) ∧
        importEdge path (module, names) ∈ (codeOfTree language path text root).relationships ∧
        (∀ r ∈ (codeOfTree language path text root).relationships, r.type = Relationship.imports →
          r.target = "module:" ++ module → r = importEdge path (module, names)) ∧
        ((∀ n ∈ root.preorder, ImportsFrom language (File.ofText path text) n module →
            ∀ name, Takes language (File.ofText path text) n name → name ∈ names) ↔
          ∀ n ∈ after, ImportsFrom language (File.ofText path text) n module →
            ∀ name, Takes language (File.ofText path text) n name →
              Takes language (File.ofText path text) first name) := by
  classical
  refine ⟨fun named found h => exists_codeOfTree h, fun language root module himports => ?_⟩
  -- the first statement, in the order of the tree, is the one that makes the edge
  obtain ⟨first, hsearch⟩ : ∃ first, root.preorder.find?
      (fun n => decide (ImportsFrom language (File.ofText path text) n module)) = some first := by
    rw [← Option.isSome_iff_exists, List.find?_isSome]
    obtain ⟨n, hn, hn'⟩ := himports
    exact ⟨n, hn, decide_eq_true hn'⟩
  obtain ⟨hfirst, before, after, hsplit, hbefore⟩ := List.find?_eq_some_iff_append.1 hsearch
  have hfirst := of_decide_eq_true hfirst
  have hbefore : ∀ n ∈ before, ¬ ImportsFrom language (File.ofText path text) n module := by
    intro n hn
    simpa using hbefore n hn
  obtain ⟨names, hmem, hfind⟩ := find?_importsOf after hbefore hfirst
  rw [← hsplit] at hfind
  have hnames (name : String) : name ∈ names ↔ Takes language (File.ofText path text) first name :=
    mem_names_iff hmem
  obtain ⟨hedge, honly⟩ := relationships_of_import hfind
  refine ⟨before, first, after, names, hsplit, hbefore, hfirst, hnames, hedge, honly, ?_⟩
  -- the names of the edge are those of the first statement, so the later ones decide
  constructor
  · intro hall n hn hfrom name htakes
    have hmem : n ∈ root.preorder := by
      rw [hsplit]
      exact List.mem_append_right _ (List.mem_cons_of_mem _ hn)
    exact (hnames name).1 (hall n hmem hfrom name htakes)
  · intro hlater n hn hfrom name htakes
    rw [hnames]
    rw [hsplit, List.mem_append, List.mem_cons] at hn
    obtain hn | rfl | hn := hn
    · exact absurd hfrom (hbefore n hn)
    · exact htakes
    · exact hlater n hn hfrom name htakes

/-- A script that imports from one module twice. -/
def importedTwice : String := "import a from 'm';\nimport \x7b b \x7d from 'm';\n"

/-- Its imports. -/
theorem importsOf_importedTwice :
    (treeOf .javascript (File.ofText "a.js" importedTwice).chars).preorder.flatMap
    (importsOf .javascript (File.ofText "a.js" importedTwice)) =
      [("m", ["default"]), ("m", ["b"])] := by decide +kernel

/-- Its second statement takes a name that its first does not. -/
theorem exists_takes_importedTwice :
    ∃ n ∈ (treeOf .javascript (File.ofText "a.js" importedTwice).chars).preorder,
      ImportsFrom .javascript (File.ofText "a.js" importedTwice) n "m" ∧
        Takes .javascript (File.ofText "a.js" importedTwice) n "b" := by
  have hmem : ("m", ["b"]) ∈ (treeOf .javascript
      (File.ofText "a.js" importedTwice).chars).preorder.flatMap
        (importsOf .javascript (File.ofText "a.js" importedTwice)) := by
    rw [importsOf_importedTwice]
    exact List.mem_cons_of_mem _ (List.mem_singleton_self _)
  obtain ⟨n, hn, hgiven⟩ := List.mem_flatMap.1 hmem
  exact ⟨n, hn, mem_importsOf_iff.1 ⟨_, hgiven⟩,
    (mem_names_iff hgiven).1 (List.mem_singleton_self _)⟩

theorem specifiers_of_first_import_importedTwice :
    (∃ n ∈ (treeOf .javascript (File.ofText "a.js" importedTwice).chars).preorder,
      ImportsFrom .javascript (File.ofText "a.js" importedTwice) n "m") ∧
    ∃ found names, code importedTwice "a.js" none = .ok found ∧
      importEdge "a.js" ("m", names) ∈ found.relationships ∧
      ∀ r ∈ found.relationships, r.type = Relationship.imports → r.target = "module:m" →
        r = importEdge "a.js" ("m", names) := by
  obtain ⟨n, hn, hfrom, -⟩ := exists_takes_importedTwice
  obtain ⟨_, _, _, names, -, -, -, -, hedge, honly, -⟩ :=
    (specifiers_of_first_import "a.js" importedTwice).2 .javascript
      (treeOf .javascript (File.ofText "a.js" importedTwice).chars) "m" ⟨n, hn, hfrom⟩
  exact ⟨⟨n, hn, hfrom⟩, _, names, rfl, hedge, honly⟩

/-- What only its second statement takes is not said by the edge. -/
theorem not_mem_specifiers_of_second : ∃ found, code importedTwice "a.js" none = .ok found ∧
    (∃ n ∈ (treeOf .javascript (File.ofText "a.js" importedTwice).chars).preorder,
      ImportsFrom .javascript (File.ofText "a.js" importedTwice) n "m" ∧
        Takes .javascript (File.ofText "a.js" importedTwice) n "b") ∧
    ∀ r ∈ found.relationships, r.type = Relationship.imports → r.target = "module:m" →
      r.properties = [("specifiers", nameList ["default"])] := by
  refine ⟨_, rfl, exists_takes_importedTwice, fun r hr htype htarget => ?_⟩
  have hfind : ((treeOf .javascript (File.ofText "a.js" importedTwice).chars).preorder.flatMap
      (importsOf .javascript (File.ofText "a.js" importedTwice))).find?
        (fun given => given.1 == "m") = some ("m", ["default"]) := by
    rw [importsOf_importedTwice]
    rfl
  rw [(relationships_of_import hfind).2 r hr htype htarget]
  rfl

end Extract

end RepoGraph
