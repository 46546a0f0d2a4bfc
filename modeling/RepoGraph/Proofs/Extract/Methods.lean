import RepoGraph.Proofs.Extract.Layout
import RepoGraph.Proofs.Extract.Offered

/-!
# Functions and methods of an indented source

The walk knows the methods of a class by the stretches of source that the class announces.  On a
tree that is laid out on its text this says the same as where a function stands: a function is a
method of a class exactly if it stands directly in the body of the class, decorated or not.  So what
a node tells depends only on its spot, and the functions that become entities are those that are no
methods, in the order in which they begin.

A function that stands in a class but in another statement of the body, such as a condition, is no
method: it becomes an entity, and the class does not list it.

Main statements: `Extract.Outline.accounts_eq_all`, `Extract.Outline.functions_codeOfTree`,
`Extract.Outline.listed_codeOfTree`.
-/

namespace RepoGraph

namespace Extract

open Syntax (File Node Span Spot)

namespace Outline

/-! ### Where methods stand -/

/-- The class in whose body something stands directly, by the nodes above it. -/
def classOfBody : List Node → Option Node
  | body :: cls :: _ =>
    if body.role == some .body && cls.kind == .classDefinition then some cls else none
  | _ => none

/-- The class whose method a spot is: that of the body in which it stands directly, or in which the
statement does that decorates it. -/
def classOf (p : Spot) : Option Node :=
  if p.node.kind != .functionDefinition then none
  else (classOfBody p.above).or <|
    match p.above with
    | stmt :: rest =>
      if stmt.kind == .decoratedDefinition && p.node.role == some .definition then classOfBody rest
      else none
    | [] => none

/-- Whether a spot is one of a method. -/
def isMethod (p : Spot) : Bool := (classOf p).isSome

variable {root cls n : Node} {p : Spot}

theorem classOfBody_eq_some {above : List Node} : classOfBody above = some cls ↔
    ∃ body rest, above = body :: cls :: rest ∧ body.role = some .body ∧
      cls.kind = .classDefinition := by
  unfold classOfBody
  split
  · rename_i body cls' rest
    rw [Option.ite_none_right_eq_some, Bool.and_eq_true, beq_iff_eq, beq_iff_eq, Option.some.injEq]
    constructor
    · rintro ⟨⟨hbody, hclass⟩, rfl⟩
      exact ⟨body, rest, rfl, hbody, hclass⟩
    · rintro ⟨_, _, habove, hbody, hclass⟩
      obtain ⟨rfl, hrest⟩ := List.cons.inj habove
      obtain ⟨rfl, -⟩ := List.cons.inj hrest
      exact ⟨⟨hbody, hclass⟩, rfl⟩
  · rename_i habove
    exact ⟨nofun, fun ⟨body, rest, heq, _⟩ => absurd heq (habove body cls rest)⟩

theorem classOf_eq_some : classOf p = some cls → p.node.kind = .functionDefinition ∧
    (classOfBody p.above = some cls ∨ ∃ stmt rest, p.above = stmt :: rest ∧
      stmt.kind = .decoratedDefinition ∧ p.node.role = some .definition ∧
      classOfBody rest = some cls) := by
  intro h
  unfold classOf at h
  split at h
  · cases h
  · rename_i hkind
    refine ⟨by simpa using hkind, ?_⟩
    obtain hdirect | ⟨-, h⟩ := Option.or_eq_some_iff.1 h
    · exact .inl hdirect
    · split at h
      · rename_i stmt rest habove
        rw [Option.ite_none_right_eq_some, Bool.and_eq_true, beq_iff_eq, beq_iff_eq] at h
        exact .inr ⟨stmt, rest, habove, h.1.1, h.1.2, h.2⟩
      · cases h

theorem isMethod_of_direct (hkind : p.node.kind = .functionDefinition)
    (hclass : classOfBody p.above = some cls) : isMethod p = true := by
  rw [isMethod, classOf, if_neg (by simp [hkind]), hclass, Option.some_or, Option.isSome_some]

theorem isMethod_of_decorated {stmt : Node} {rest : List Node}
    (hkind : p.node.kind = .functionDefinition) (habove : p.above = stmt :: rest)
    (hstmt : stmt.kind = .decoratedDefinition) (hrole : p.node.role = some .definition)
    (hclass : classOfBody rest = some cls) : isMethod p = true := by
  rw [isMethod, classOf, if_neg (by simp [hkind]), habove]
  simp [hstmt, hrole, hclass]

/-! ### What classes announce -/

/-- The methods of a class, as the class announces them. -/
def methodsOf (cls : Node) : List Node := (bodyOf cls).filterMap methodOf

theorem announced_eq (h : IsLaidOut root) (hn : n ∈ root.preorder) :
    announced n = if n.kind == .classDefinition then (methodsOf n).map Node.span else [] := by
  unfold announced methodsOf
  by_cases hkind : n.kind = .classDefinition
  · have hlaid : IsLaidOut n := fun c hc => h c (Node.mem_preorder_trans hn hc)
    obtain ⟨name, hname, -⟩ := hlaid.exists_name (.inr hkind)
    simp [hkind, hname]
  · simp [hkind]

theorem mem_methodsOf {m : Node} : m ∈ methodsOf cls ↔ m.kind = .functionDefinition ∧
    ∃ body stmt, cls.child? .body = some body ∧ stmt ∈ body.namedChildren ∧
      definitionOf stmt = some m := by
  unfold methodsOf bodyOf
  constructor
  · intro hm
    obtain ⟨stmt, hstmt, hmethod⟩ := List.mem_filterMap.1 hm
    obtain ⟨hdefinition, hkind⟩ := Option.filter_eq_some_iff.1 hmethod
    split at hstmt
    · rename_i body hbody
      exact ⟨beq_iff_eq.1 hkind, body, stmt, hbody, hstmt, hdefinition⟩
    · cases hstmt
  · rintro ⟨hkind, body, stmt, hbody, hstmt, hdefinition⟩
    rw [hbody]
    exact List.mem_filterMap.2 ⟨stmt, hstmt,
      Option.filter_eq_some_iff.2 ⟨hdefinition, beq_iff_eq.2 hkind⟩⟩

/-- What a class announces stands where methods do. -/
theorem exists_isMethod (hp : p ∈ root.spots []) (hkind : p.node.kind = .classDefinition) {m : Node}
    (hm : m ∈ methodsOf p.node) : ∃ q ∈ root.spots [], q.node = m ∧ isMethod q = true := by
  obtain ⟨hfunction, body, stmt, hbody, hstmt, hdefinition⟩ := mem_methodsOf.1 hm
  obtain ⟨hbodychild, hbodyrole⟩ := Node.mem_of_child? hbody
  have hbodyspot := Node.mem_spots_child hp hbodychild
  have hstmtspot := Node.mem_spots_child hbodyspot (Node.mem_namedChildren.1 hstmt).1
  have hclass : classOfBody (body :: p.node :: p.above) = some p.node :=
    classOfBody_eq_some.2 ⟨body, p.above, rfl, hbodyrole, hkind⟩
  -- the statement decorates the function or is the function itself
  unfold definitionOf at hdefinition
  split at hdefinition
  · rename_i hdecorated
    obtain ⟨hchild, hrole⟩ := Node.mem_of_child? hdefinition
    exact ⟨_, Node.mem_spots_child hstmtspot hchild, rfl,
      isMethod_of_decorated hfunction rfl (beq_iff_eq.1 hdecorated) hrole hclass⟩
  · obtain rfl := Option.some.inj hdefinition
    exact ⟨_, hstmtspot, rfl, isMethod_of_direct hfunction hclass⟩

/-- A method is announced by its class, which stands above it. -/
theorem mem_methodsOf_of_classOf (h : IsLaidOut root) (hp : p ∈ root.spots [])
    (hclass : classOf p = some cls) :
    cls ∈ p.above ∧ cls.kind = .classDefinition ∧ p.node ∈ methodsOf cls := by
  obtain ⟨hfunction, hwhere⟩ := classOf_eq_some hclass
  -- a statement that stands directly in the body of the class
  have hbody : ∀ {stmt : Spot}, stmt ∈ root.spots [] → classOfBody stmt.above = some cls →
      cls ∈ stmt.above ∧ cls.kind = .classDefinition ∧
        ∃ body, cls.child? .body = some body ∧ stmt.node ∈ body.children := by
    intro stmt hstmt hclass
    obtain ⟨body, rest, habove, hrole, hkind⟩ := classOfBody_eq_some.1 hclass
    obtain ⟨hchild, hbodyspot⟩ := Node.mem_spots_parent hstmt habove
    obtain ⟨hbodychild, hclsspot⟩ := Node.mem_spots_parent hbodyspot rfl
    have hsingle := (h cls (Node.node_mem_preorder hclsspot)).body hkind
    refine ⟨?_, hkind, body, Node.child?_eq_of_single hsingle hbodychild hrole, hchild⟩
    rw [habove]
    exact List.mem_cons_of_mem _ List.mem_cons_self
  obtain hdirect | ⟨stmt, rest, habove, hdecorated, hrole, hdirect⟩ := hwhere
  · obtain ⟨hmem, hkind, body, hchild, hstmt⟩ := hbody hp hdirect
    refine ⟨hmem, hkind, mem_methodsOf.2 ⟨hfunction, body, p.node, hchild, ?_, ?_⟩⟩
    · exact Node.mem_namedChildren_of_kind hstmt hfunction (by decide)
    · simp [definitionOf, hfunction]
  · obtain ⟨hchild, hstmtspot⟩ := Node.mem_spots_parent hp habove
    obtain ⟨hmem, hkind, body, hbodychild, hstmt⟩ := hbody hstmtspot hdirect
    have hsingle := (h stmt (Node.node_mem_preorder hstmtspot)).definition hdecorated
    refine ⟨?_, hkind, mem_methodsOf.2 ⟨hfunction, body, stmt, hbodychild, ?_, ?_⟩⟩
    · rw [habove]
      exact List.mem_cons_of_mem _ hmem
    · exact Node.mem_namedChildren_of_kind hstmt hdecorated (by decide)
    · simp [definitionOf, hdecorated, Node.child?_eq_of_single hsingle hchild hrole]

/-! ### What a spot tells -/

/-- What a spot tells: a method tells nothing, everything else tells what it does if no methods were
announced. -/
def spotAccount (file : File) (p : Spot) : Account :=
  if isMethod p then .nothing else account file [] p.node

variable {file : File}

/-- Only functions ask for the methods that were announced. -/
theorem account_of_not_isFunction (spans : List Span) (hkind : n.kind ≠ .functionDefinition) :
    account file spans n = account file [] n := by
  unfold account
  split <;> first | rfl | contradiction

theorem account_of_isFunction (spans : List Span) (hkind : n.kind = .functionDefinition) :
    account file spans n = if spans.contains n.span then .nothing else account file [] n := by
  unfold account
  rw [hkind]
  rfl

/-- A function is announced before it is reached exactly if it is a method. -/
theorem contains_announced_iff (h : IsLaidOut root) {before after : List Spot}
    (hspots : root.spots [] = before ++ p :: after) (hkind : p.node.kind = .functionDefinition) :
    ((before.map Spot.node).flatMap announced).contains p.node.span = isMethod p := by
  have hp : p ∈ root.spots [] := hspots ▸ List.mem_append_right _ List.mem_cons_self
  rw [Bool.eq_iff_iff, List.contains_iff_mem, List.mem_flatMap]
  constructor
  · rintro ⟨c, hc, hspan⟩
    obtain ⟨q, hq, rfl⟩ := List.mem_map.1 hc
    have hqspot : q ∈ root.spots [] := hspots ▸ List.mem_append_left _ hq
    rw [announced_eq h (Node.node_mem_preorder hqspot)] at hspan
    split at hspan
    · rename_i hclass
      obtain ⟨m, hm, hspan⟩ := List.mem_map.1 hspan
      obtain ⟨m, hmspot, rfl, hmethod⟩ := exists_isMethod hqspot (beq_iff_eq.1 hclass) hm
      -- functions are told apart by their stretches
      have hnodup : (((root.spots []).filter fun p => isFunction p.node).map
          fun p => p.node.span).Nodup := by
        have hspans := nodup_functionSpans h
        rw [← Node.map_spots root [], List.filter_map, List.map_map] at hspans
        exact hspans
      have hfunction : isFunction m.node = true := isFunction_iff.2 (mem_methodsOf.1 hm).1
      have heq : m = p := List.inj_on_of_nodup_map hnodup (List.mem_filter.2 ⟨hmspot, hfunction⟩)
        (List.mem_filter.2 ⟨hp, isFunction_iff.2 hkind⟩) hspan
      exact heq ▸ hmethod
    · cases hspan
  · intro hmethod
    obtain ⟨cls, hclass⟩ := Option.isSome_iff_exists.1 hmethod
    obtain ⟨habove, hclass, hmem⟩ := mem_methodsOf_of_classOf h hp hclass
    have hbefore := (Node.above_of_spots hspots cls habove).resolve_left List.not_mem_nil
    refine ⟨cls, hbefore, ?_⟩
    have hcls : cls ∈ root.preorder := by
      rw [← Node.map_spots root [], hspots, List.map_append]
      exact List.mem_append_left _ hbefore
    rw [announced_eq h hcls, if_pos (beq_iff_eq.2 hclass)]
    exact List.mem_map_of_mem hmem

/-- What the nodes of a tree tell in turn is what its spots tell. -/
theorem accounts_eq_all (h : IsLaidOut root) :
    accounts file [] root.preorder = .all ((root.spots []).map (spotAccount file)) := by
  -- when a walk reaches a node, it knows what the nodes before it announced
  suffices hgeneral : ∀ after before, root.spots [] = before ++ after →
      accounts file ((before.map Spot.node).flatMap announced) (after.map Spot.node) =
        .all (after.map (spotAccount file)) by
    rw [← Node.map_spots root []]
    exact hgeneral _ [] rfl
  intro after
  induction after with
  | nil => exact fun _ _ => rfl
  | cons p after ih =>
    intro before hspots
    have hrest := ih (before ++ [p]) (by rw [hspots, List.append_assoc]; rfl)
    rw [List.map_append, List.flatMap_append, List.map_singleton, List.flatMap_singleton] at hrest
    rw [List.map_cons, accounts, hrest, List.map_cons]
    have hnode : account file ((before.map Spot.node).flatMap announced) p.node =
        spotAccount file p := by
      unfold spotAccount
      by_cases hkind : p.node.kind = .functionDefinition
      · rw [account_of_isFunction _ hkind, contains_announced_iff h hspots hkind]
      · have hmethod : isMethod p = false := by simp [isMethod, classOf, hkind]
        rw [account_of_not_isFunction _ hkind, hmethod]
        rfl
    rw [hnode]
    rfl

/-! ### Functions that become entities -/

/-- The name of a definition. -/
def nameOf (file : File) (n : Node) : String := ((n.child? .name).map file.nodeText).getD ""

/-- The entity of a function. -/
def functionEntity (file : File) (n : Node) : Entity :=
  ⟨Entity.functionId file.path (nameOf file n), Entity.functionKind, nameOf file n, file.path,
    some (snippet file n.span),
    [("params", nameList (parameterNames file n)), ("async", .bool (isAsync n))],
    some (locationOf file n)⟩

/-- Whether a spot is one of a function that is no method. -/
def standsAlone (p : Spot) : Bool := isFunction p.node && !isMethod p

/-- The class or function that is nearest above a spot. -/
def enclosing? (p : Spot) : Option Node :=
  p.above.find? fun n => n.kind == .classDefinition || n.kind == .functionDefinition

/-- Whether a spot is one of a function whose nearest enclosing class or function is no class. -/
def isOutsideClasses (p : Spot) : Bool :=
  isFunction p.node && (enclosing? p).all fun n => n.kind != .classDefinition

/-- The functions at those spots of a tree that satisfy a condition. -/
def functionsAt (condition : Spot → Bool) (root : Node) : List Node :=
  ((root.spots []).filter condition).map Spot.node

/-- A method is nearest to its class. -/
theorem enclosing?_of_classOf (h : IsLaidOut root) (hp : p ∈ root.spots [])
    (hclass : classOf p = some cls) : enclosing? p = some cls := by
  -- nothing stands between a statement and the class but the body
  have hbody : ∀ {stmt : Spot}, stmt ∈ root.spots [] → classOfBody stmt.above = some cls →
      enclosing? stmt = some cls := by
    intro stmt hstmt hclass
    obtain ⟨body, rest, habove, hrole, hkind⟩ := classOfBody_eq_some.1 hclass
    obtain ⟨-, hbodyspot⟩ := Node.mem_spots_parent hstmt habove
    obtain ⟨hfunction, hnoclass⟩ := (h body (Node.node_mem_preorder hbodyspot)).block hrole
    simp [enclosing?, habove, hfunction, hnoclass, hkind]
  obtain ⟨-, hdirect | ⟨stmt, rest, habove, hdecorated, -, hdirect⟩⟩ := classOf_eq_some hclass
  · exact hbody hp hdirect
  · have henclosing := hbody (Node.mem_spots_parent hp habove).2 hdirect
    rw [enclosing?, habove, List.find?_cons_of_neg (by simp [hdecorated])]
    exact henclosing

theorem standsAlone_of_isOutsideClasses (h : IsLaidOut root) (hp : p ∈ root.spots [])
    (houtside : isOutsideClasses p = true) : standsAlone p = true := by
  obtain ⟨hfunction, hnoclass⟩ := Bool.and_eq_true_iff.1 houtside
  refine Bool.and_eq_true_iff.2 ⟨hfunction, ?_⟩
  rw [Bool.not_eq_true', Bool.eq_false_iff]
  intro hmethod
  obtain ⟨cls, hclass⟩ := Option.isSome_iff_exists.1 hmethod
  obtain ⟨-, hkind, -⟩ := mem_methodsOf_of_classOf h hp hclass
  rw [enclosing?_of_classOf h hp hclass] at hnoclass
  simp [hkind] at hnoclass

/-! ### What a walk finds -/

theorem entities_of_not_definition (hfunction : n.kind ≠ .functionDefinition)
    (hclass : n.kind ≠ .classDefinition) (spans : List Span) :
    (account file spans n).entities = [] := by
  unfold account
  split
  · rw [Account.entities_all, List.flatMap_eq_nil_iff]
    exact fun child _ => rfl
  · split <;> rfl
  · contradiction
  · contradiction
  · split
    · exact entities_eventAccount _ _
    · rfl
  · rfl

/-- What a class tells: its methods are the functions that it announces. -/
theorem entities_of_class (hkind : n.kind = .classDefinition) (hname : (n.child? .name).isSome)
    (spans : List Span) : (account file spans n).entities =
      [⟨Entity.classId file.path (nameOf file n), Entity.classKind, nameOf file n, file.path,
        some (snippet file n.span),
        [("methods", nameList ((methodsOf n).map (nameOf file))),
          ("properties", nameList
            (((bodyOf n).filter fun stmt => (methodOf stmt).isNone).filterMap (attributeOf file)))],
        some (locationOf file n)⟩] := by
  obtain ⟨name, hname⟩ := Option.isSome_iff_exists.1 hname
  have hnameOf : nameOf file n = file.nodeText name := by rw [nameOf, hname]; rfl
  unfold account
  rw [hkind, hname, hnameOf]
  dsimp only
  unfold classAccount
  rw [Account.entities_append]
  split
  · split <;> rfl
  · rfl

/-- A node tells of a function if it is one that was not announced as a method. -/
theorem functions_of_account (spans : List Span)
    (hnamed : n.kind = .functionDefinition → (n.child? .name).isSome = true) :
    (account file spans n).entities.filter (fun e => e.kind == Entity.functionKind) =
      if isFunction n && !spans.contains n.span then [functionEntity file n] else [] := by
  by_cases hfunction : n.kind = .functionDefinition
  · obtain ⟨name, hname⟩ := Option.isSome_iff_exists.1 (hnamed hfunction)
    have hnameOf : nameOf file n = file.nodeText name := by rw [nameOf, hname]; rfl
    have hentities : (functionAccount file n (file.nodeText name)
        (parameterNames file n)).entities =
        [functionEntity file n] := by
      rw [functionEntity, hnameOf]
      rfl
    rw [isFunction_iff.2 hfunction, account, hfunction]
    dsimp only
    rw [hname]
    cases spans.contains n.span with
    | true => rfl
    | false =>
      simp only [Bool.false_eq_true, if_false, hentities]
      rfl
  · have hnone : isFunction n = false := by rwa [← Bool.not_eq_true, isFunction_iff]
    rw [hnone]
    -- a class tells of an entity of another kind, every other node of none
    by_cases hclass : n.kind = .classDefinition
    · cases hname : (n.child? .name).isSome with
      | true =>
        rw [entities_of_class hclass hname]
        rfl
      | false =>
        have hnone : n.child? .name = none := by simpa using hname
        rw [account, hclass, hnone]
        rfl
    · rw [entities_of_not_definition hfunction hclass]
      rfl

/-- A spot tells of a function exactly if one stands alone there. -/
theorem functions_of_spotAccount (h : IsLaidOut root) (hp : p ∈ root.spots []) :
    (spotAccount file p).entities.filter (fun e => e.kind == Entity.functionKind) =
      if standsAlone p then [functionEntity file p.node] else [] := by
  have hlaid : IsLaidOut p.node := fun c hc =>
      h c (Node.mem_preorder_trans (Node.node_mem_preorder hp) hc)
  have hnamed : p.node.kind = .functionDefinition → (p.node.child? .name).isSome = true := by
    intro hfunction
    obtain ⟨name, hname, -⟩ := hlaid.exists_name (.inl hfunction)
    rw [hname, Option.isSome_some]
  unfold spotAccount standsAlone
  by_cases hmethod : isMethod p = true
  · simp [hmethod, Account.nothing]
  · rw [if_neg hmethod, functions_of_account [] hnamed]
    simp [hmethod]

/-- Besides the entity of the file, a walk finds those that the nodes of the tree tell of in
turn. -/
theorem entities_codeOfTree_cons (path text : String) (root : Node) :
    (codeOfTree .python path text root).entities = fileEntity path text Language.python.name ::
      (accounts (File.ofText path text) [] root.preorder).entities := by
  have hmarks : (Account.all ((markNames text.toList).map (markAccount path))).entities = [] := by
    rw [Account.entities_all, List.flatMap_eq_nil_iff]
    exact fun name _ => rfl
  rw [codeOfTree_eq, Findings.take, codeAccount, Account.entities_append, hmarks, List.append_nil]
  rfl

/-- A walk finds the functions that stand alone, and of each class what it announces. -/
theorem entities_codeOfTree (h : IsLaidOut root) (path text : String) :
    (codeOfTree .python path text root).entities = fileEntity path text Language.python.name ::
      (root.spots []).flatMap fun p => (spotAccount (File.ofText path text) p).entities := by
  rw [entities_codeOfTree_cons, accounts_eq_all h, Account.entities_all]

/-- Of two conditions of which one implies the other, both hold at the same functions exactly if
these become the same entities. -/
theorem functionsAt_eq_iff {condition condition' : Spot → Bool}
    (himp : ∀ p ∈ root.spots [], condition p = true → condition' p = true) (file : File) :
    (functionsAt condition' root).map (functionEntity file) =
        (functionsAt condition root).map (functionEntity file) ↔
      ∀ p ∈ root.spots [], condition' p = true → condition p = true := by
  have hnarrow : (root.spots []).filter condition =
      ((root.spots []).filter condition').filter condition := by
    rw [List.filter_filter]
    refine List.filter_congr fun p hp => ?_
    by_cases hcondition : condition p = true
    · rw [hcondition, himp p hp hcondition, Bool.and_self]
    · rw [Bool.eq_false_iff.2 hcondition, Bool.false_and]
  constructor
  · intro heq p hp hcondition
    -- as many functions are kept, and those of the narrower condition are among those of the wider
    have hlength : ((root.spots []).filter condition).length =
        ((root.spots []).filter condition').length := by
      have hlengths := congrArg List.length heq
      simp only [functionsAt, List.length_map] at hlengths
      exact hlengths.symm
    have hsublist : ((root.spots []).filter condition).Sublist
        ((root.spots []).filter condition') := by
      rw [hnarrow]
      exact List.filter_sublist
    have hmem : p ∈ (root.spots []).filter condition :=
      hsublist.eq_of_length hlength ▸ List.mem_filter.2 ⟨hp, hcondition⟩
    exact (List.mem_filter.1 hmem).2
  · intro hsame
    have hfilter : (root.spots []).filter condition' = (root.spots []).filter condition :=
      List.filter_congr fun p hp => Bool.eq_iff_iff.2 ⟨hsame p hp, himp p hp⟩
    rw [functionsAt, functionsAt, hfilter]

/-- Whether entities tell the functions of a tree apart as methods and others. -/
structure Sorts (file : File) (root : Node) (entities : List Entity) : Prop where
  /-- The functions that are no methods become entities. -/
  functions_eq : entities.filter (fun e => e.kind == Entity.functionKind) =
    (functionsAt standsAlone root).map (functionEntity file)
  /-- They come in the order in which they begin. -/
  pairwise : (functionsAt standsAlone root).Pairwise fun f g => f.span.start < g.span.start
  /-- A method belongs to the nearest class, which lists it. -/
  listed : ∀ p ∈ root.spots [], ∀ cls, classOf p = some cls → enclosing? p = some cls ∧
    ∃ e ∈ entities, e.kind = Entity.classKind ∧ e.name = nameOf file cls ∧
      e.location = some (locationOf file cls) ∧
      ∃ methods, e.metadata.get? "methods" = some (nameList methods) ∧ nameOf file p.node ∈ methods
  /-- The entities are the functions outside classes, unless one stands in a class but not directly
  in its body. -/
  outside_iff : entities.filter (fun e => e.kind == Entity.functionKind) =
      (functionsAt isOutsideClasses root).map (functionEntity file) ↔
    ∀ p ∈ root.spots [], standsAlone p = true → isOutsideClasses p = true

/-- The functions that become entities come in the order in which they begin. -/
theorem pairwise_standsAlone (h : IsLaidOut root) :
    (functionsAt standsAlone root).Pairwise fun f g => f.span.start < g.span.start := by
  have hpairwise := pairwise_functions h
  rw [← Node.map_spots root [], List.filter_map, List.pairwise_map] at hpairwise
  have hnarrow : (root.spots []).filter standsAlone =
      ((root.spots []).filter (isFunction ∘ Spot.node)).filter fun p => !isMethod p := by
    rw [List.filter_filter]
    exact List.filter_congr fun p _ => Bool.and_comm _ _
  rw [functionsAt, hnarrow, List.pairwise_map]
  exact hpairwise.filter _

theorem functions_codeOfTree (h : IsLaidOut root) (path text : String) :
    ((codeOfTree .python path text root).entities.filter fun e => e.kind == Entity.functionKind) =
      (functionsAt standsAlone root).map (functionEntity (File.ofText path text)) := by
  rw [entities_codeOfTree h, List.filter_cons_of_neg (by simp [fileEntity]; decide),
    List.filter_flatMap,
    functionsAt, List.map_map]
  have hspots : ∀ spots : List Spot, (∀ p ∈ spots, p ∈ root.spots []) →
      (spots.flatMap fun p => (spotAccount (File.ofText path text) p).entities.filter
        fun e => e.kind == Entity.functionKind) =
      (spots.filter standsAlone).map (functionEntity (File.ofText path text) ∘ Spot.node) := by
    intro spots
    induction spots with
    | nil => exact fun _ => rfl
    | cons p rest ih =>
      intro hmem
      rw [List.flatMap_cons, ih fun q hq => hmem q (List.mem_cons_of_mem _ hq),
        functions_of_spotAccount h (hmem p List.mem_cons_self)]
      by_cases halone : standsAlone p = true
      · rw [if_pos halone, List.filter_cons_of_pos halone]
        rfl
      · rw [if_neg halone, List.filter_cons_of_neg halone]
        rfl
  exact hspots _ fun _ hp => hp

/-- A class lists the functions that are its methods. -/
theorem listed_codeOfTree (h : IsLaidOut root) (path text : String) (hp : p ∈ root.spots [])
    (hclass : classOf p = some cls) : ∃ e ∈ (codeOfTree .python path text root).entities,
      e.kind = Entity.classKind ∧ e.name = nameOf (File.ofText path text) cls ∧
      e.location = some (locationOf (File.ofText path text) cls) ∧
      ∃ methods, e.metadata.get? "methods" = some (nameList methods) ∧
        nameOf (File.ofText path text) p.node ∈ methods := by
  obtain ⟨habove, hkind, hmethod⟩ := mem_methodsOf_of_classOf h hp hclass
  obtain ⟨q, hq, rfl⟩ := Node.exists_spot_of_mem (Node.mem_preorder_of_above hp habove) []
  have hlaid : IsLaidOut q.node := fun c hc =>
      h c (Node.mem_preorder_trans (Node.node_mem_preorder hq) hc)
  obtain ⟨name, hname, -⟩ := hlaid.exists_name (.inr hkind)
  have htells : (spotAccount (File.ofText path text) q).entities =
      (account (File.ofText path text) [] q.node).entities := by
    have hfree : isMethod q = false := by simp [isMethod, classOf, hkind]
    rw [spotAccount, hfree]
    rfl
  rw [entities_of_class hkind (Option.isSome_iff_exists.2 ⟨name, hname⟩)] at htells
  have hfound : ∀ e ∈ (spotAccount (File.ofText path text) q).entities,
      e ∈ (codeOfTree .python path text root).entities := by
    intro e he
    rw [entities_codeOfTree h, List.mem_cons, List.mem_flatMap]
    exact .inr ⟨q, hq, he⟩
  rw [htells] at hfound
  exact ⟨_, hfound _ (List.mem_singleton_self _), rfl, rfl, rfl, _, rfl,
    List.mem_map_of_mem hmethod⟩

end Outline

/-- The functions of an indented source's tree become entities unless they are methods, and methods
are listed with their class. -/
theorem sorts_codeOfTree (path text : String) :
    (∀ named found, code text path named = .ok found → ∃ language,
      languageOf path named = .ok language ∧
        found = codeOfTree language path text (treeOf language (File.ofText path text).chars)) ∧
    ∀ root, Outline.IsLaidOut root →
      Outline.Sorts (File.ofText path text) root (codeOfTree .python path text root).entities := by
  refine ⟨fun named found h => exists_codeOfTree h, fun root h => ?_⟩
  have hfunctions := Outline.functions_codeOfTree h path text
  refine ⟨hfunctions, Outline.pairwise_standsAlone h, fun p hp cls hclass => ?_, ?_⟩
  · exact ⟨Outline.enclosing?_of_classOf h hp hclass,
      Outline.listed_codeOfTree h path text hp hclass⟩
  · rw [hfunctions]
    exact Outline.functionsAt_eq_iff
      (fun p hp houtside => Outline.standsAlone_of_isOutsideClasses h hp houtside) _

/-- A class with a function in its body and one in a condition there. -/
def conditionalMethod : String :=
  "class A:\n    def g(self): pass\n    if x:\n        def f(self): pass\n"

/-- The tree of that source. -/
def conditionalTree : Node := treeOf .python (File.ofText "a.py" conditionalMethod).chars

theorem isLaidOut_conditionalTree : Outline.IsLaidOut conditionalTree := by decide +kernel

theorem sorts_codeOfTree_conditionalMethod : Outline.IsLaidOut conditionalTree ∧
    ∃ found, code conditionalMethod "a.py" none = .ok found ∧
      Outline.Sorts (File.ofText "a.py" conditionalMethod) conditionalTree found.entities :=
  ⟨isLaidOut_conditionalTree, _, rfl,
    (sorts_codeOfTree "a.py" conditionalMethod).2 conditionalTree isLaidOut_conditionalTree⟩

/-- The function in the condition is nearest to the class, yet it becomes an entity and is not
listed. -/
theorem isFunctionEntity_of_conditional : ∃ found, code conditionalMethod "a.py" none = .ok found ∧
    (∃ p ∈ conditionalTree.spots [], Outline.isFunction p.node = true ∧
      Outline.nameOf (File.ofText "a.py" conditionalMethod) p.node = "f" ∧
      (Outline.enclosing? p).any (fun n => n.kind == .classDefinition) = true) ∧
    (found.entities.filter fun e => e.kind == Entity.functionKind).map Entity.id = ["function:a.py:f"] ∧
    (found.entities.filter fun e => e.kind == Entity.classKind).map
      (fun e => (Record.optionalList Record.text (.obj e.metadata) "methods").toOption) =
        [some (some ["g"])] := by
  refine ⟨_, rfl, ?_, ?_, ?_⟩
  · decide +kernel
  · decide +kernel
  · decide +kernel

end Extract

end RepoGraph
