import RepoGraph.Proofs.Extract

/-!
# What a tree tells

An `Account` lists what is to be found in a part of a file: entities, and every relationship that is
offered, repetitions included.  To take an account is to add its entities and those of its
relationships whose id is new.  A step of a walk takes the account of its node, whatever was found
before, so a walk takes the accounts of the nodes of its tree in turn: `Script.tells_walk`,
`Outline.tells_walk`.

What a code file yields is what its tree and its pattern marks tell, beside its own entity.  This is
said of every tree (`codeOfTree`); the tree of a text is one of them.

Main statements: `Extract.Script.tells_walk`, `Extract.Outline.tells_walk`, `Extract.codeOfTree_eq`,
`Extract.exists_codeOfTree`.
-/

namespace RepoGraph

/-! ### Adding some relationships -/

namespace Relationship

/-- Some relationships and another one, unless its id is among theirs. -/
def add (kept : List Relationship) (r : Relationship) : List Relationship :=
  if (kept.map Relationship.id).contains r.id then kept else kept ++ [r]

/-- Some relationships and then those of others whose id is new. -/
def gather (kept offered : List Relationship) : List Relationship := offered.foldl add kept

variable {kept offered : List Relationship} {r : Relationship}

theorem mem_add {other : Relationship} (h : r ∈ add kept other) : r ∈ kept ∨ r = other := by
  unfold add at h
  split at h
  · exact .inl h
  · rwa [List.mem_append, List.mem_singleton] at h

theorem mem_add_of_mem {other : Relationship} (h : r ∈ kept) : r ∈ add kept other := by
  unfold add
  split
  · exact h
  · exact List.mem_append_left _ h

theorem exists_mem_add (kept : List Relationship) (r : Relationship) :
    ∃ r' ∈ add kept r, r'.id = r.id := by
  unfold add
  split
  · rename_i hmem
    obtain ⟨r', hr', hid⟩ := List.mem_map.1 (List.contains_iff_mem.1 hmem)
    exact ⟨r', hr', hid⟩
  · exact ⟨r, List.mem_append_right _ (List.mem_singleton_self r), rfl⟩

theorem nodup_add (h : (kept.map Relationship.id).Nodup) :
    ((add kept r).map Relationship.id).Nodup := by
  unfold add
  split
  · exact h
  · rename_i hmem
    rw [List.contains_iff_mem] at hmem
    rw [List.map_append, List.map_singleton]
    exact Graph.nodup_snoc h hmem

theorem mem_gather_of_mem (h : r ∈ kept) : r ∈ gather kept offered := by
  induction offered generalizing kept with
  | nil => exact h
  | cons first rest ih => exact ih (mem_add_of_mem h)

theorem mem_or_mem_of_mem_gather (h : r ∈ gather kept offered) : r ∈ kept ∨ r ∈ offered := by
  induction offered generalizing kept with
  | nil => exact .inl h
  | cons first rest ih =>
    obtain hkept | hrest := ih h
    · exact (mem_add hkept).imp_right fun he => List.mem_cons.2 (.inl he)
    · exact .inr (List.mem_cons_of_mem _ hrest)

/-- Of what is offered, at least the id is kept. -/
theorem exists_mem_gather (h : r ∈ offered) : ∃ r' ∈ gather kept offered, r'.id = r.id := by
  induction offered generalizing kept with
  | nil => cases h
  | cons first rest ih =>
    obtain rfl | hrest := List.mem_cons.1 h
    · obtain ⟨r', hr', hid⟩ := exists_mem_add kept r
      have hmem : r' ∈ gather (add kept r) rest := mem_gather_of_mem hr'
      exact ⟨r', hmem, hid⟩
    · exact ih hrest

theorem nodup_gather (h : (kept.map Relationship.id).Nodup) :
    ((gather kept offered).map Relationship.id).Nodup := by
  induction offered generalizing kept with
  | nil => exact h
  | cons first rest ih => exact ih (nodup_add h)

/-- What is offered with ids of its own is kept as it is. -/
theorem gather_of_nodup (h : ((kept ++ offered).map Relationship.id).Nodup) :
    gather kept offered = kept ++ offered := by
  induction offered generalizing kept with
  | nil => exact (List.append_nil _).symm
  | cons first rest ih =>
    rw [List.append_cons] at h
    have hfirst : add kept first = kept ++ [first] := by
      rw [List.map_append, List.map_append] at h
      have hnew := (List.nodup_append.1 (List.nodup_append.1 h).1).2.2
      rw [add, if_neg]
      rw [List.contains_iff_mem]
      exact fun hmem => hnew _ hmem _ (List.mem_singleton_self _) rfl
    rw [List.append_cons, ← ih h, ← hfirst]
    rfl

end Relationship

/-! ### Accounts -/

/-- What is to be found in a part of a file. -/
structure Account where
  entities : List Entity
  offered : List Relationship

namespace Account

/-- Nothing is to be found. -/
def nothing : Account := ⟨[], []⟩

/-- An edge. -/
def edge (source type target : String) (properties : Fields) : Account :=
  ⟨[], [Relationship.create source type target properties]⟩

/-- One account after another. -/
instance : Append Account := ⟨fun a b => ⟨a.entities ++ b.entities, a.offered ++ b.offered⟩⟩

/-- Some accounts, one after another. -/
def all : List Account → Account
  | [] => nothing
  | a :: rest => a ++ all rest

variable {a b : Account}

@[simp]
theorem entities_append : (a ++ b).entities = a.entities ++ b.entities := rfl

@[simp]
theorem offered_append : (a ++ b).offered = a.offered ++ b.offered := rfl

end Account

namespace Findings

/-- What is found once an account is taken. -/
def take (found : Findings) (a : Account) : Findings :=
  ⟨found.entities ++ a.entities, Relationship.gather found.relationships a.offered⟩

theorem take_nothing (found : Findings) : found.take .nothing = found := by
  rw [take, Account.nothing, List.append_nil]
  rfl

theorem take_append (found : Findings) (a b : Account) :
    found.take (a ++ b) = (found.take a).take b := by
  rw [take, take, take, Account.entities_append, Account.offered_append, List.append_assoc,
    Relationship.gather, List.foldl_append]
  rfl

theorem relate_eq (found : Findings) (source type target : String) (properties : Fields) :
    found.relate source type target properties =
      found.take (.edge source type target properties) := by
  rw [relate, addRelationship, take, Account.edge, List.append_nil, Relationship.gather,
    List.foldl_cons, List.foldl_nil, Relationship.add, relationshipIds]
  split <;> rfl

end Findings

namespace Extract

open Syntax (File Node Span)

/-- Whether a step takes an account, whatever was found before. -/
def Tells (step : Findings → Findings) (a : Account) : Prop := ∀ found, step found = found.take a

theorem tells_nothing : Tells (fun found => found) .nothing := fun found => found.take_nothing.symm

theorem tells_relate (source type target : String) (properties : Fields) :
    Tells (fun found => found.relate source type target properties)
      (.edge source type target properties) :=
  fun found => found.relate_eq source type target properties

theorem Tells.comp {first second : Findings → Findings} {a b : Account} (ha : Tells first a)
    (hb : Tells second b) : Tells (fun found => second (first found)) (a ++ b) := by
  intro found
  dsimp only
  rw [hb, ha, Findings.take_append]

/-- Steps in turn take their accounts in turn. -/
theorem Tells.foldl {α : Type} {step : Findings → α → Findings} {account : α → Account}
    (h : ∀ x, Tells (fun found => step found x) (account x)) (xs : List α) :
    Tells (fun found => xs.foldl step found) (.all (xs.map account)) := by
  induction xs with
  | nil => exact tells_nothing
  | cons x rest ih => exact (h x).comp ih

/-! ### Declarations and events -/

variable {file : File}

/-- What the definition of a class or a function tells. -/
def definition (file : File) (n : Node) (id kind name : String) (metadata : Fields) : Account :=
  ⟨[⟨id, kind, name, file.path, some (snippet file n.span), metadata, some (locationOf file n)⟩],
    [Relationship.create (Entity.fileId file.path) Relationship.defines id []]⟩

theorem tells_define (n : Node) (id kind name : String) (metadata : Fields) :
    Tells (define file n id kind name metadata) (definition file n id kind name metadata) := by
  intro found
  rw [define, Findings.relate_eq, Findings.take, Findings.take, Account.edge, List.append_nil]
  rfl

/-- What a class tells: itself, and the class it extends. -/
def classAccount (file : File) (n : Node) (name : String) (methods properties : List String)
    (superclass : Option String) : Account :=
  let id := Entity.classId file.path name
  definition file n id Entity.classKind name
      [("methods", nameList methods), ("properties", nameList properties)] ++
    match superclass with
    | some base =>
      if base == "" then .nothing else .edge id Relationship.extendsType ("class:" ++ base) []
    | none => .nothing

theorem tells_addClass (n : Node) (name : String) (methods properties : List String)
    (superclass : Option String) : Tells (addClass file n name methods properties superclass)
      (classAccount file n name methods properties superclass) := by
  have hdefine : Tells (define file n _ _ name _) _ :=
    tells_define n (Entity.classId file.path name)
    Entity.classKind name [("methods", nameList methods), ("properties", nameList properties)]
  unfold addClass classAccount
  cases superclass with
  | none => exact hdefine.comp tells_nothing
  | some base =>
    dsimp only
    split
    · exact hdefine.comp tells_nothing
    · exact hdefine.comp (tells_relate _ _ _ _)

/-- What a function tells. -/
def functionAccount (file : File) (n : Node) (name : String) (params : List String) : Account :=
  definition file n (Entity.functionId file.path name) Entity.functionKind name
    [("params", nameList params), ("async", .bool (isAsync n))]

/-- What an import tells. -/
def importAccount (file : File) (module : String) (specifiers : List String) : Account :=
  .edge (Entity.fileId file.path) Relationship.imports ("module:" ++ module)
    [("specifiers", nameList specifiers)]

/-- The event that a call of a method subscribes to or raises, with the type of its edge. -/
def event? (file : File) (method : String) (arguments : Option Node) : Option (String × String) :=
  (eventType? method).bind fun type =>
    (arguments.bind fun a => a.constructs.head?).bind fun first =>
      (stringValue file first).map fun event => (type, event)

/-- What a call of a method tells. -/
def eventAccount (file : File) (method : String) (arguments : Option Node) : Account :=
  match event? file method arguments with
  | some (type, event) => .edge (Entity.fileId file.path) type ("event:" ++ event) []
  | none => .nothing

theorem tells_addEvent (method : String) (arguments : Option Node) :
    Tells (addEvent file method arguments) (eventAccount file method arguments) := by
  unfold addEvent eventAccount event?
  cases eventType? method with
  | none => exact tells_nothing
  | some type =>
    cases arguments.bind fun a => a.constructs.head? with
    | none => exact tells_nothing
    | some first =>
      cases hvalue : stringValue file first with
      | none => simpa [hvalue] using tells_nothing
      | some event => simpa [hvalue] using tells_relate _ _ _ _

/-! ### Scripts -/

namespace Script

/-- What a node of a script's tree tells. -/
def account (file : File) (n : Node) : Account :=
  match n.kind with
  | .importStatement =>
    match (n.child? .source).bind (stringValue file) with
    | some module => importAccount file module (importedNames file n)
    | none => .nothing
  | .classDefinition =>
    match n.child? .name with
    | some name =>
      let members (kind : Syntax.Kind) : List String :=
        match n.child? .body with
        | some body => memberNames file kind body
        | none => []
      classAccount file n (file.nodeText name) (members .method) (members .classField)
        (superclass file n)
    | none => .nothing
  | .functionDefinition =>
    match n.child? .name with
    | some name => functionAccount file n (file.nodeText name) (parameterNames file n)
    | none => .nothing
  | .call =>
    match (n.child? .function).filter fun callee => callee.kind == .memberAccess with
    | some callee =>
      match (callee.child? .property).filter fun property => property.kind == .memberName with
      | some property => eventAccount file (file.nodeText property) (n.child? .arguments)
      | none => .nothing
    | none => .nothing
  | _ => .nothing

theorem tells_visitCall (n : Node) : Tells (visitCall file n)
    (match (n.child? .function).filter fun callee => callee.kind == .memberAccess with
      | some callee =>
        match (callee.child? .property).filter fun property => property.kind == .memberName with
        | some property => eventAccount file (file.nodeText property) (n.child? .arguments)
        | none => .nothing
      | none => .nothing) := by
  unfold visitCall
  cases n.child? .function with
  | none => exact tells_nothing
  | some callee =>
    by_cases hcallee : (callee.kind == .memberAccess) = true
    · simp only [hcallee, if_true, Option.filter_some]
      cases callee.child? .property with
      | none => exact tells_nothing
      | some property =>
        by_cases hproperty : (property.kind == .memberName) = true
        · simpa only [hproperty, if_true, Option.filter_some] using tells_addEvent _ _
        · simpa only [hproperty, Bool.false_eq_true, if_false,
            Option.filter_some] using tells_nothing
    · simpa only [hcallee, Bool.false_eq_true, if_false, Option.filter_some] using tells_nothing

/-- A visit takes what its node tells. -/
theorem tells_visit (n : Node) : Tells (fun found => visit file found n) (account file n) := by
  unfold visit account
  cases n.kind with
  | importStatement =>
    unfold visitImport
    cases (n.child? .source).bind (stringValue file) with
    | none => exact tells_nothing
    | some module => exact tells_relate _ _ _ _
  | classDefinition =>
    unfold visitClass
    cases n.child? .name with
    | none => exact tells_nothing
    | some name => exact tells_addClass _ _ _ _ _
  | functionDefinition =>
    unfold visitFunction
    cases n.child? .name with
    | none => exact tells_nothing
    | some name => exact tells_define _ _ _ _ _
  | call => exact tells_visitCall n
  | _ => exact tells_nothing

/-- A walk takes what the nodes of its tree tell. -/
theorem tells_walk (root : Node) :
    Tells (walk file root) (.all (root.preorder.map (account file))) := fun found => by
  rw [walk, Node.worklist_eq_preorder]
  exact Tells.foldl tells_visit root.preorder found

end Script

/-! ### Indented sources -/

namespace Outline

/-- The methods that a node announces, by their stretches of source. -/
def announced (n : Node) : List Span :=
  if n.kind == .classDefinition && (n.child? .name).isSome then
    ((bodyOf n).filterMap methodOf).map Node.span
  else []

/-- What a node of an indented source's tree tells, by the methods that were announced before. -/
def account (file : File) (methodSpans : List Span) (n : Node) : Account :=
  match n.kind with
  | .importStatement =>
    .all ((n.childrenIn .name).map fun child =>
      importAccount file (importedName file child) ["namespace"])
  | .importFrom =>
    match n.child? .moduleName with
    | some module =>
      importAccount file (file.nodeText module) ((n.childrenIn .name).map (importedName file) ++
        if n.namedChildren.any fun c => c.kind == .wildcardImport then ["*"] else [])
    | none => .nothing
  | .classDefinition =>
    match n.child? .name with
    | some name =>
      classAccount file n (file.nodeText name)
        (((bodyOf n).filterMap methodOf).map fun m => ((m.child? .name).map file.nodeText).getD "")
        (((bodyOf n).filter fun stmt => (methodOf stmt).isNone).filterMap (attributeOf file))
        (superclass file n)
    | none => .nothing
  | .functionDefinition =>
    if methodSpans.contains n.span then .nothing
    else
      match n.child? .name with
      | some name => functionAccount file n (file.nodeText name) (parameterNames file n)
      | none => .nothing
  | .call =>
    match (n.child? .function).filter fun callee => callee.kind == .memberAccess with
    | some callee =>
      eventAccount file (((callee.child? .property).map file.nodeText).getD "")
        (n.child? .arguments)
    | none => .nothing
  | _ => .nothing

/-- What the nodes of a tree tell in turn. -/
def accounts (file : File) : List Span → List Node → Account
  | _, [] => .nothing
  | methodSpans, n :: rest =>
    account file methodSpans n ++ accounts file (methodSpans ++ announced n) rest

/-- A visit takes what its node tells, and hears of the methods that the node announces. -/
theorem visit_eq (s : State) (n : Node) :
    visit file s n = ⟨s.found.take (account file s.methodSpans n),
      s.methodSpans ++ announced n⟩ := by
  obtain ⟨found, methodSpans⟩ := s
  unfold visit account announced
  cases hkind : n.kind with
  | importStatement =>
    -- a statement may import several modules, and tells one account after the other
    have hchild (child : Node) :
        Tells (fun found => addImport file (importedName file child) ["namespace"] found)
          (importAccount file (importedName file child) ["namespace"]) := tells_relate _ _ _ _
    have htells := Tells.foldl hchild (n.childrenIn .name) found
    simp [visitImport, ← htells]
  | importFrom =>
    unfold visitImportFrom
    cases n.child? .moduleName with
    | none => simp [Findings.take_nothing]
    | some module => simp [addImport, Findings.relate_eq, importAccount]
  | classDefinition =>
    unfold visitClass
    cases n.child? .name with
    | none => simp [Findings.take_nothing]
    | some name => simp [tells_addClass _ _ _ _ _ found]
  | functionDefinition =>
    unfold visitFunction
    -- a function in a class is a method that the class has told of
    by_cases hmethod : methodSpans.contains n.span = true
    · simp only [hmethod, if_true]
      simp [Findings.take_nothing]
    · simp only [hmethod, Bool.false_eq_true, if_false]
      cases n.child? .name with
      | none => simp [Findings.take_nothing]
      | some name => simp [addFunction, functionAccount, tells_define _ _ _ _ _ found]
  | call =>
    unfold visitCall
    cases n.child? .function with
    | none => simp [Findings.take_nothing]
    | some callee =>
      -- only a call of a member can name an event
      by_cases hcallee : (callee.kind == .memberAccess) = true
      · simp only [hcallee, if_true, Option.filter_some]
        simp [tells_addEvent _ _ found]
      · simp only [hcallee, Bool.false_eq_true, if_false, Option.filter_some]
        simp [Findings.take_nothing]
  | _ => simp [Findings.take_nothing]

/-- A walk takes what the nodes of its tree tell. -/
theorem tells_walk (root : Node) : Tells (walk file root) (accounts file [] root.preorder) := by
  suffices hfold : ∀ (ns : List Node) (s : State),
      (ns.foldl (visit file) s).found = s.found.take (accounts file s.methodSpans ns) by
    intro found
    rw [walk, Node.worklist_eq_preorder]
    exact hfold root.preorder ⟨found, []⟩
  intro ns
  induction ns with
  | nil => exact fun s => s.found.take_nothing.symm
  | cons n rest ih =>
    intro s
    rw [List.foldl_cons, ih, visit_eq, accounts, Findings.take_append]

end Outline

/-! ### Code files -/

/-- What a walk over a tree finds besides what was found before. -/
def walkTree (language : Language) (file : File) (root : Node) (found : Findings) : Findings :=
  match language with
  | .python => Outline.walk file root found
  | _ => Script.walk file root found

/-- What a code file yields if its syntax is a tree. -/
def codeOfTree (language : Language) (path text : String) (root : Node) : Findings :=
  addPatterns path text
    (walkTree language (File.ofText path text) root ⟨[fileEntity path text language.name], []⟩)

/-- The tree of a source. -/
def treeOf (language : Language) (chars : Array Char) : Node :=
  match language with
  | .javascript => RepoGraph.Script.tree ⟨false, true⟩ chars
  | .typescript => RepoGraph.Script.tree ⟨true, false⟩ chars
  | .tsx => RepoGraph.Script.tree ⟨true, true⟩ chars
  | .python => RepoGraph.Outline.tree chars

/-- A code file is read by the tree of its text. -/
theorem exists_codeOfTree {text path : String} {named : Option String} {found : Findings}
    (h : code text path named = .ok found) :
    ∃ language, languageOf path named = .ok language ∧
      found = codeOfTree language path text (treeOf language (File.ofText path text).chars) := by
  rw [code] at h
  obtain ⟨language, hlanguage, rfl⟩ := exists_of_map h
  refine ⟨language, hlanguage, ?_⟩
  cases language <;> rfl

/-- What a tree tells. -/
def treeAccount (language : Language) (file : File) (root : Node) : Account :=
  match language with
  | .python => Outline.accounts file [] root.preorder
  | _ => .all (root.preorder.map (Script.account file))

theorem tells_walkTree (language : Language) (root : Node) :
    Tells (walkTree language file root) (treeAccount language file root) := by
  cases language with
  | python => exact Outline.tells_walk root
  | javascript | typescript | tsx => exact Script.tells_walk root

/-- What a mark tells. -/
def markAccount (path name : String) : Account :=
  .edge (Entity.fileId path) Relationship.implementsPattern ("pattern:" ++ name) []

/-- What a code file tells besides itself. -/
def codeAccount (language : Language) (path text : String) (root : Node) : Account :=
  treeAccount language (File.ofText path text) root ++
    .all ((markNames text.toList).map (markAccount path))

/-- A code file yields its own entity and what its tree and its marks tell. -/
theorem codeOfTree_eq (language : Language) (path text : String) (root : Node) :
    codeOfTree language path text root =
      Findings.take ⟨[fileEntity path text language.name], []⟩
        (codeAccount language path text root) :=
  (tells_walkTree language root).comp (Tells.foldl (fun _ => tells_relate _ _ _ _) _) _

end Extract

end RepoGraph
