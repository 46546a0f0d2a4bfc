import RepoGraph.Proofs.Extract.Methods
import RepoGraph.Proofs.Outline.Signature

/-!
# Parameters and their types

A parameter takes its values in some form, perhaps under a name, and may have a type.  The entity of
a function lists the names of its parameters in order, receivers left out, whether or not they have
types; but a parameter that takes what is left over is listed only if it has none.  So two functions
that differ in nothing but the types of their parameters list the same names, unless such a
parameter has a type in one of them.

Main statement: `Extract.listsParameters_code`.
-/

namespace RepoGraph

namespace Extract

open Syntax (File Node Span)
open RepoGraph.Outline (HasSignature IsParameter bareKinds)

namespace Outline

/-! ### Parameters -/

/-- How a parameter takes its values; separators and patterns stand for none. -/
inductive Form where
  | plain
  | valued
  | spread
  | other
deriving DecidableEq, Repr

/-- What a function says of a parameter. -/
structure Parameter where
  form : Form
  name : Option String
  isTyped : Bool
deriving DecidableEq, Repr

namespace Parameter

/-- The parameter that a node says, its type left aside. -/
def ofBare (file : File) (p : Node) : Parameter :=
  match p.kind with
  | .identifier => ⟨.plain, some (file.nodeText p), false⟩
  | .defaultParameter => ⟨.valued, (p.child? .name).map file.nodeText, false⟩
  | .spreadParameter =>
    ⟨.spread, (p.constructs.find? fun c => c.kind == .identifier).map file.nodeText, false⟩
  | _ => ⟨.other, none, false⟩

/-- The parameter that a node says. -/
def ofNode (file : File) (p : Node) : Parameter :=
  match p.kind, p.constructs with
  | .annotatedParameter, bare :: _ => { ofBare file bare with isTyped := true }
  | .defaultParameter, constructs =>
      { ofBare file p with isTyped := decide (2 < constructs.length) }
  | _, _ => ofBare file p

/-- The same parameter without a type. -/
def withoutType (p : Parameter) : Parameter := { p with isTyped := false }

/-- The name under which a parameter is to be listed: receivers are not. -/
def listed? (p : Parameter) : Option String :=
  p.name.filter fun name => name != "" && !receivers.contains name

/-- Whether a parameter takes what is left over and has a type. -/
def isTypedSpread (p : Parameter) : Bool := p.form == .spread && p.isTyped

end Parameter

/-- The parameters of a function. -/
def parametersOf (file : File) (n : Node) : List Parameter :=
  match n.child? .parameters with
  | some ps => ps.constructs.map (Parameter.ofNode file)
  | none => []

/-- The names under which parameters are to be listed. -/
def namesOf (ps : List Parameter) : List String := ps.filterMap Parameter.listed?

variable {file : File} {n p : Node}

theorem find?_identifier (p : Node) : p.namedChildren.find? (fun c => c.kind == .identifier) =
    p.constructs.find? fun c => c.kind == .identifier :=
  (find?_filter_of_imp fun c _ hc => by rw [beq_iff_eq.1 hc]; rfl).symm

/-- A parameter that takes what is left over has a name only without a type. -/
theorem parameterName_eq_name (h : IsParameter p) : parameterName file p =
    if (Parameter.ofNode file p).isTypedSpread then none else (Parameter.ofNode file p).name := by
  unfold parameterName Parameter.ofNode
  rw [find?_identifier]
  split
  · rename_i hkind
    simp [hkind, Parameter.ofBare, Parameter.isTypedSpread]
  · rename_i hkind
    simp [hkind, Parameter.ofBare, Parameter.isTypedSpread]
  · rename_i hkind
    obtain ⟨bare, type, hconstructs, hbare, htype⟩ := h hkind
    rw [hkind, hconstructs]
    -- of the two children, only a plain name is itself a name: a spread has it one node deeper
    simp only [bareKinds, List.mem_cons, List.not_mem_nil, or_false] at hbare
    rcases hbare with hbare | hbare | hbare <;>
      simp [hbare, htype, Parameter.ofBare, Parameter.isTypedSpread]
  · rename_i hkind
    simp [hkind, Parameter.ofBare, Parameter.isTypedSpread]
  · rename_i h₁ h₂ h₃ h₄
    have hbare : Parameter.ofBare file p = ⟨.other, none, false⟩ := by
      unfold Parameter.ofBare
      split <;> first | rfl | contradiction
    split <;> simp_all [Parameter.isTypedSpread]

/-- The names that a function lists are those of its parameters, without those that take what is
left over and have a type. -/
theorem parameterNames_eq_namesOf (h : HasSignature n) : parameterNames file n =
    namesOf ((parametersOf file n).filter fun p => !p.isTypedSpread) := by
  obtain ⟨ps, hps, hparameters⟩ := h.parameters
  rw [parameterNames, parametersOf, hps, namesOf]
  dsimp only
  rw [List.filter_filterMap, List.filterMap_filter, List.filterMap_map]
  refine List.filterMap_congr fun p hp => ?_
  rw [parameterName_eq_name (hparameters p hp)]
  cases hspread : (Parameter.ofNode file p).isTypedSpread with
  | true => simp [hspread]
  | false => simp [hspread, Parameter.listed?]

variable {ps qs : List Parameter}

/-- Leaving parameters out leaves no name out exactly if they have none to be listed under. -/
theorem namesOf_filter_eq_iff {q : Parameter → Bool} :
    namesOf (ps.filter q) = namesOf ps ↔ ∀ p ∈ ps, q p = false → p.listed? = none := by
  induction ps with
  | nil => exact ⟨fun _ _ h => absurd h List.not_mem_nil, fun _ => rfl⟩
  | cons p rest ih =>
    rw [List.forall_mem_cons, ← ih]
    cases hq : q p with
    | true =>
      rw [List.filter_cons_of_pos hq, namesOf, namesOf, List.filterMap_cons, List.filterMap_cons]
      cases hlisted : p.listed? with
      | none => simp [namesOf]
      | some name => simp [namesOf]
    | false =>
      rw [List.filter_cons_of_neg (by simp [hq])]
      cases hlisted : p.listed? with
      | none => simp [namesOf, hlisted]
      | some name =>
        -- there are fewer names than before
        have hlength : (namesOf (rest.filter q)).length ≤ (namesOf rest).length :=
          (List.filter_sublist.filterMap _).length_le
        simp only [namesOf, List.filterMap_cons, hlisted] at hlength ⊢
        refine ⟨fun heq => ?_, fun h => by simp at h⟩
        rw [heq, List.length_cons] at hlength
        omega

/-- A type changes no name. -/
theorem namesOf_eq_of_withoutType
    (h : ps.map Parameter.withoutType = qs.map Parameter.withoutType) :
    namesOf ps = namesOf qs := by
  have hnames (ps : List Parameter) : namesOf ps = namesOf (ps.map Parameter.withoutType) := by
    rw [namesOf, namesOf, List.filterMap_map]
    rfl
  rw [hnames ps, hnames qs, h]

/-! ### Functions and their entities -/

theorem nameList_inj {xs ys : List String} (h : nameList xs = nameList ys) : xs = ys :=
  List.map_injective_iff.2 (fun _ _ h => Json.str.inj h) (Json.arr.inj h)

/-- What a list of nodes tells of is what each of them tells, with what was announced before. -/
theorem mem_entities_accounts {spans : List Span} {ns : List Node} {e : Entity} :
    e ∈ (accounts file spans ns).entities ↔ ∃ before n after, ns = before ++ n :: after ∧
      e ∈ (account file (spans ++ before.flatMap announced) n).entities := by
  induction ns generalizing spans with
  | nil => exact ⟨fun h => absurd h List.not_mem_nil, fun ⟨before, n, after, h, _⟩ => by simp at h⟩
  | cons n rest ih =>
    rw [accounts, Account.entities_append, List.mem_append, ih]
    constructor
    · rintro (h | ⟨before, m, after, rfl, h⟩)
      · exact ⟨[], n, rest, rfl, by simpa using h⟩
      · exact ⟨n :: before, m, after, rfl, by simpa [List.append_assoc] using h⟩
    · rintro ⟨before, m, after, heq, h⟩
      cases before with
      | nil =>
        obtain ⟨rfl, rfl⟩ := List.cons.inj heq
        exact .inl (by simpa using h)
      | cons first before =>
        obtain ⟨rfl, rfl⟩ := List.cons.inj heq
        exact .inr ⟨before, m, after, rfl, by simpa [List.append_assoc] using h⟩

/-- A node tells of a function's entity exactly if it is the function and was not announced. -/
theorem mem_functions_account {spans : List Span} {e : Entity}
    (hnamed : n.kind = .functionDefinition → (n.child? .name).isSome = true) :
    e ∈ (account file spans n).entities ∧ e.kind = Entity.functionKind ↔
      n.kind = .functionDefinition ∧ n.span ∉ spans ∧ e = functionEntity file n := by
  have hmem : e ∈ (account file spans n).entities.filter (fun e => e.kind == Entity.functionKind) ↔
      e ∈ (account file spans n).entities ∧ (e.kind == Entity.functionKind) = true :=
        List.mem_filter
  rw [functions_of_account spans hnamed, beq_iff_eq] at hmem
  rw [← hmem, ← isFunction_iff]
  by_cases hfunction : isFunction n = true <;> by_cases hspan : n.span ∈ spans <;>
    simp [hfunction, hspan]

/-- Whether a type keeps a name of a function's parameters from being listed. -/
def hidesName (file : File) (n : Node) : Bool :=
  (parametersOf file n).any fun p => p.isTypedSpread && p.listed?.isSome

/-- All names are listed exactly if no type hides one. -/
theorem parameterNames_eq_iff (h : HasSignature n) :
    parameterNames file n = namesOf (parametersOf file n) ↔ hidesName file n = false := by
  rw [parameterNames_eq_namesOf h, namesOf_filter_eq_iff, hidesName, List.any_eq_false]
  refine forall₂_congr fun p _ => ?_
  cases p.isTypedSpread <;> cases p.listed? <;> simp

/-- What the entities of a source say of the parameters of its functions. -/
structure ListsParameters (file : File) (root : Node) (entities : List Entity) : Prop where
  /-- The entity of a function is that of one in the tree. -/
  exists_function : ∀ e ∈ entities, e.kind = Entity.functionKind →
    ∃ n ∈ root.preorder, n.kind = .functionDefinition ∧ e = functionEntity file n
  /-- Every function has one, unless a class announces it as its method. -/
  mem_or_announced : ∀ n ∈ root.preorder, n.kind = .functionDefinition →
    functionEntity file n ∈ entities ∨ ∃ cls ∈ root.preorder, n.span ∈ announced cls
  /-- It lists the names of all parameters, unless a type hides one of what takes what is left
  over. -/
  names : ∀ n ∈ root.preorder, n.kind = .functionDefinition → ∃ names,
    (functionEntity file n).metadata.get? "params" = some (nameList names) ∧
      names = namesOf ((parametersOf file n).filter fun p => !p.isTypedSpread) ∧
      (names = namesOf (parametersOf file n) ↔ hidesName file n = false)
  /-- A function of any source that is the same but for types, and hides no name, lists the same
  names exactly if this one hides none either. -/
  types : ∀ path' text', ∀ n ∈ root.preorder, n.kind = .functionDefinition →
    ∀ n' ∈ (treeOf .python (File.ofText path' text').chars).preorder, n'.kind =
      .functionDefinition →
      (parametersOf file n).map Parameter.withoutType =
          (parametersOf (File.ofText path' text') n').map Parameter.withoutType →
        hidesName (File.ofText path' text') n' = false →
          ((functionEntity file n).metadata.get? "params" =
              (functionEntity (File.ofText path' text') n').metadata.get? "params" ↔
            hidesName file n = false)

end Outline

/-- The entities of an indented source list the parameters of its functions. -/
theorem listsParameters_code {text path : String} {named : Option String} {found : Findings}
    (h : code text path named = .ok found) (hlanguage : languageOf path named = .ok .python) :
    Outline.ListsParameters (File.ofText path text) (treeOf .python (File.ofText path text).chars)
      found.entities := by
  obtain ⟨language, hsame, rfl⟩ := exists_codeOfTree h
  obtain rfl : language = .python := Except.ok.inj (hsame.symm.trans hlanguage)
  have hsignature : ∀ {file : File}, ∀ n ∈ (treeOf .python file.chars).preorder,
      n.kind = .functionDefinition → HasSignature n := RepoGraph.Outline.hasSignatures_tree _
  have hnamed : ∀ n ∈ (treeOf .python (File.ofText path text).chars).preorder,
      n.kind = .functionDefinition → (n.child? .name).isSome = true := fun n hn hkind =>
    (hsignature n hn hkind).named
  rw [Outline.entities_codeOfTree_cons]
  refine ⟨fun e he hkind => ?_, fun n hn hkind => ?_, fun n hn hkind => ?_, ?_⟩
  · obtain rfl | he := List.mem_cons.1 he
    · exact absurd hkind (show Entity.fileKind ≠ Entity.functionKind by decide)
    · obtain ⟨before, n, after, hsplit, he⟩ := Outline.mem_entities_accounts.1 he
      have hn : n ∈ (treeOf .python (File.ofText path text).chars).preorder :=
        hsplit ▸ List.mem_append_right _ List.mem_cons_self
      obtain ⟨hfunction, -, rfl⟩ := (Outline.mem_functions_account (hnamed n hn)).1 ⟨he, hkind⟩
      exact ⟨n, hn, hfunction, rfl⟩
  · -- a function is told of by its own node, unless a class before it has announced it as a method
    obtain ⟨before, after, hsplit⟩ := List.append_of_mem hn
    by_cases hspan : n.span ∈ [] ++ before.flatMap Outline.announced
    · obtain ⟨cls, hcls, hspan⟩ := List.mem_flatMap.1 hspan
      exact .inr ⟨cls, hsplit ▸ List.mem_append_left _ hcls, hspan⟩
    · have he : Outline.functionEntity (File.ofText path text) n ∈ (Outline.account
          (File.ofText path text) ([] ++ before.flatMap Outline.announced) n).entities :=
        ((Outline.mem_functions_account (hnamed n hn)).2 ⟨hkind, hspan, rfl⟩).1
      exact .inl (List.mem_cons_of_mem _
        (Outline.mem_entities_accounts.2 ⟨before, n, after, hsplit, he⟩))
  · exact ⟨_, rfl, Outline.parameterNames_eq_namesOf (hsignature n hn hkind),
      Outline.parameterNames_eq_iff (hsignature n hn hkind)⟩
  · intro path' text' n hn hkind n' hn' hkind' hsame hhides
    have hnames := Outline.namesOf_eq_of_withoutType hsame
    have hnames' := (Outline.parameterNames_eq_iff (hsignature n' hn' hkind')).2 hhides
    rw [← Outline.parameterNames_eq_iff (hsignature n hn hkind), hnames, ← hnames']
    exact ⟨fun heq => Outline.nameList_inj (Option.some.inj heq),
      fun heq => congrArg (some ∘ nameList) heq⟩

/-- A function with types on most of its parameters. -/
def typedSource : String := "def f(self, a: int, b: str = 1, *args, c: int, **kw) -> int: pass\n"

/-- What a source's functions list as their parameters. -/
def listedParameters (found : Findings) : List (Option (Option (List String))) :=
  (found.entities.filter fun e => e.kind == Entity.functionKind).map fun e =>
    (Record.optionalList Record.text (.obj e.metadata) "params").toOption

theorem listsParameters_code_typedSource : languageOf "a.py" none = .ok .python ∧
    ∃ found, code typedSource "a.py" none = .ok found ∧
      Outline.ListsParameters (File.ofText "a.py" typedSource)
        (treeOf .python (File.ofText "a.py" typedSource).chars) found.entities ∧
      listedParameters found = [some (some ["a", "b", "args", "c", "kw"])] := by
  have hlanguage : languageOf "a.py" none = .ok .python := by decide
  exact ⟨hlanguage, _, rfl, listsParameters_code rfl hlanguage, by decide +kernel⟩

/-- A function that takes what is left over. -/
def spreadSource : String := "def f(*args): pass\n"

/-- The same function with a type. -/
def typedSpreadSource : String := "def f(*args: int): pass\n"

/-- The type costs the parameter its place in the list. -/
theorem listedParameters_ne_of_typedSpread :
    (∃ n ∈ (treeOf .python (File.ofText "a.py" spreadSource).chars).preorder,
      ∃ n' ∈ (treeOf .python (File.ofText "a.py" typedSpreadSource).chars).preorder,
        n.kind = .functionDefinition ∧ n'.kind = .functionDefinition ∧
          (Outline.parametersOf (File.ofText "a.py" spreadSource) n).map Outline.Parameter.withoutType =
            (Outline.parametersOf (File.ofText "a.py" typedSpreadSource) n').map
              Outline.Parameter.withoutType) ∧
      ∃ found found', code spreadSource "a.py" none = .ok found ∧
        code typedSpreadSource "a.py" none = .ok found' ∧
        listedParameters found = [some (some ["args"])] ∧ listedParameters found' = [some (some [])] := by
  refine ⟨?_, _, _, rfl, rfl, ?_, ?_⟩
  · decide +kernel
  · decide +kernel
  · decide +kernel

end Extract

end RepoGraph
