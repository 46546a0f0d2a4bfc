import RepoGraph.Proofs.Extract.Account
import RepoGraph.Proofs.Syntax.Comments

/-!
# What is told alike

Of two trees that are the same but for comments, what the one tells is compared with what the other
one tells: the entities, content and positions aside, and the relationships.

A comment goes between tokens.  So a name has the same text in both trees, and a literal does unless
it is interpolated, in which case it has no value in either.

Main statements: `Account.isLike_all`, `Extract.text_eq_of_isName`, `Extract.stringValue_eq`,
`Extract.isLike_classAccount`.
-/

namespace RepoGraph

/-- An entity without its content and its position. -/
def Entity.sketch (e : Entity) : Entity := { e with content := none, location := none }

namespace Account

/-- Whether two accounts tell of the same entities, content and positions aside, and of the same
relationships, those aside that are not kept. -/
structure IsLike (keep : Relationship → Bool) (a a' : Account) : Prop where
  entities : a.entities.map Entity.sketch = a'.entities.map Entity.sketch
  offered : a.offered.filter keep = a'.offered.filter keep

variable {keep : Relationship → Bool} {a a' b b' : Account}

theorem IsLike.refl (keep : Relationship → Bool) (a : Account) : a.IsLike keep a := ⟨rfl, rfl⟩

theorem IsLike.append (ha : a.IsLike keep a') (hb : b.IsLike keep b') :
    (a ++ b).IsLike keep (a' ++ b') where
  entities := by rw [entities_append, entities_append, List.map_append,
    List.map_append, ha.entities,
    hb.entities]
  offered := by rw [offered_append, offered_append, List.filter_append,
    List.filter_append, ha.offered,
    hb.offered]

theorem isLike_all {α β : Type} {R : α → β → Prop} {account : α → Account} {account' : β → Account}
    {xs : List α} {ys : List β} (h : List.Forall₂ R xs ys)
    (hlike : ∀ x y, R x y → (account x).IsLike keep (account' y)) :
    (all (xs.map account)).IsLike keep (all (ys.map account')) := by
  induction h with
  | nil => exact .refl keep _
  | cons hxy _ ih => exact (hlike _ _ hxy).append ih

/-- What tells nothing may be left out. -/
theorem all_filter {α : Type} {p : α → Bool} {account : α → Account} {xs : List α}
    (h : ∀ x ∈ xs, p x = false → account x = nothing) :
    all ((xs.filter p).map account) = all (xs.map account) := by
  induction xs with
  | nil => rfl
  | cons x rest ih =>
    have hrest := ih fun y hy => h y (List.mem_cons_of_mem _ hy)
    have hall : all ((x :: rest).map account) = account x ++ all (rest.map account) := rfl
    rw [hall]
    by_cases hp : p x = true
    · rw [List.filter_cons_of_pos hp, ← hrest]
      rfl
    · rw [List.filter_cons_of_neg hp, hrest, h x List.mem_cons_self (Bool.eq_false_iff.2 hp)]
      rfl

end Account

namespace Extract

open Syntax (File Node Span Spot Match)
open Account (IsLike)

/-! ### Names and literals -/

/-- The roles whose texts are read whatever stands there: names, which may have dots between
words. -/
def nameRoles : Language → List (Option Syntax.Role)
  | .python => [some .name, some .moduleName, some .property]
  | _ => []

/-- Whether a node is a name, into which no comment goes. -/
def isName (language : Language) (n : Node) : Bool :=
  n.kind == .identifier || n.kind == .memberName || (nameRoles language).contains n.role

/-- Whether a literal's source marks it as interpolated. -/
def isInterpolated (cs : List Char) : Bool :=
  match cs.dropWhile isLiteralMark with
  | 'f' :: _ => true
  | 'F' :: _ => true
  | _ => false

/-- Whether two nodes have the same text, as far as comments leave texts as they are: names do, and
literals unless they are interpolated. -/
def agrees (language : Language) (file file' : File) (n n' : Node) : Bool :=
  if isName language n then file.nodeText n == file'.nodeText n'
  else if n.kind == .string then
    file.nodeText n == file'.nodeText n' ||
      language == .python && isInterpolated (file.slice n.span) &&
        isInterpolated (file'.slice n'.span)
  else true

variable {language : Language} {file file' : File} {n n' : Node}

theorem text_eq_of_isName (h : Match (agrees language file file') n n')
    (hname : isName language n = true) :
    file.nodeText n = file'.nodeText n' := by
  have hagrees := h.agrees
  rw [agrees, if_pos hname] at hagrees
  exact beq_iff_eq.1 hagrees

theorem text_eq_of_string (h : Match (agrees language file file') n n') (hkind : n.kind = .string)
    (hlanguage : language ≠ .python) : file.nodeText n = file'.nodeText n' := by
  by_cases hname : isName language n = true
  · exact text_eq_of_isName h hname
  · have hagrees := h.agrees
    rw [agrees, if_neg hname, if_pos (beq_iff_eq.2 hkind)] at hagrees
    simpa [hlanguage] using hagrees

theorem literalValue_eq_none {cs : List Char} (h : isInterpolated cs = true) :
    literalValue cs = none := by
  unfold isInterpolated at h
  unfold literalValue
  split at h <;> simp_all

theorem slice_eq_of_text_eq (h : file.nodeText n = file'.nodeText n') :
    file.slice n.span = file'.slice n'.span := String.ofList_inj.1 h

theorem stringValue_eq (h : Match (agrees language file file') n n') :
    stringValue file n = stringValue file' n' := by
  unfold stringValue
  rw [← h.kind_eq]
  split
  · rename_i hkind
    by_cases hname : isName language n = true
    · rw [slice_eq_of_text_eq (text_eq_of_isName h hname)]
    · have hagrees := h.agrees
      rw [agrees, if_neg hname, if_pos hkind, Bool.or_eq_true, Bool.and_eq_true,
        Bool.and_eq_true] at hagrees
      obtain htext | ⟨⟨-, hfirst⟩, hsecond⟩ := hagrees
      · rw [slice_eq_of_text_eq (beq_iff_eq.1 htext)]
      · rw [literalValue_eq_none hfirst, literalValue_eq_none hsecond]
  · rfl

theorem Script.identifierText_eq (h : Match (agrees language file file') n n') :
    identifierText file n = identifierText file' n' := by
  unfold identifierText
  rw [← h.kind_eq]
  split
  · rename_i hkind
    rw [text_eq_of_isName h (by simp [isName, beq_iff_eq.1 hkind])]
  · rfl

theorem isAsync_eq (h : Match (agrees language file file') n n') : isAsync n = isAsync n' :=
  h.any_kind (by decide)

/-! ### Declarations, imports and events -/

variable {keep : Relationship → Bool}

theorem isLike_definition (hpath : file.path = file'.path) (n n' : Node) (id kind name : String)
    (metadata : Fields) :
    (definition file n id kind name metadata).IsLike keep
      (definition file' n' id kind name metadata) := by
  constructor
  · simp [definition, Entity.sketch, hpath]
  · simp [definition, hpath]

theorem isLike_functionAccount (hpath : file.path = file'.path)
    (h : Match (agrees language file file') n n')
    (name : String) (params : List String) :
    (functionAccount file n name params).IsLike keep (functionAccount file' n' name params) := by
  rw [functionAccount, functionAccount, isAsync_eq h, hpath]
  exact isLike_definition hpath n n' _ _ _ _

theorem isLike_importAccount (hpath : file.path = file'.path) (module : String)
    (specifiers : List String) :
    (importAccount file module specifiers).IsLike keep (importAccount file' module specifiers) := by
  rw [importAccount, importAccount, hpath]
  exact .refl keep _

/-- What a class tells of the class it extends. -/
def extendsAccount (path name : String) : Option String → Account
  | some base =>
    if base == "" then .nothing
    else .edge (Entity.classId path name) Relationship.extendsType ("class:" ++ base) []
  | none => .nothing

theorem classAccount_eq (file : File) (n : Node) (name : String) (methods properties : List String)
    (superclass : Option String) : classAccount file n name methods properties superclass =
      definition file n (Entity.classId file.path name) Entity.classKind name
        [("methods", nameList methods), ("properties", nameList properties)] ++
          extendsAccount file.path name superclass := by
  cases superclass <;> rfl

/-- Where what classes extend is not kept, nothing is left of it. -/
theorem isLike_extendsAccount (hkeep : ∀ r, r.type = Relationship.extendsType → keep r = false)
    (path name : String) (superclass : Option String) :
    (extendsAccount path name superclass).IsLike keep .nothing := by
  unfold extendsAccount
  split
  · split
    · exact .refl keep _
    · exact ⟨rfl, List.filter_cons_of_neg (by rw [hkeep _ rfl]; exact nofun)⟩
  · exact .refl keep _

/-- Classes that say the same of their members tell the same, their superclasses aside. -/
theorem isLike_classAccount (hpath : file.path = file'.path) (n n' : Node) (name : String)
    (methods properties : List String) {superclass superclass' : Option String}
    (hkeep : superclass = superclass' ∨ ∀ r, r.type = Relationship.extendsType → keep r = false) :
    (classAccount file n name methods properties superclass).IsLike keep
      (classAccount file' n' name methods properties superclass') := by
  rw [classAccount_eq, classAccount_eq, hpath]
  refine IsLike.append (isLike_definition hpath n n' _ _ _ _) ?_
  obtain rfl | hkeep := hkeep
  · exact .refl keep _
  · have hfirst := isLike_extendsAccount hkeep file'.path name superclass
    have hsecond := isLike_extendsAccount hkeep file'.path name superclass'
    exact ⟨hfirst.entities.trans hsecond.entities.symm, hfirst.offered.trans hsecond.offered.symm⟩

/-- The member that a call calls, if it calls one. -/
theorem rel_callee (h : Match (agrees language file file') n n') :
    Option.Rel (fun c c' => Match (agrees language file file') c c' ∧
      (c.kind == .memberAccess) = true)
      ((n.child? .function).filter fun callee => callee.kind == .memberAccess)
      ((n'.child? .function).filter fun callee => callee.kind == .memberAccess) :=
  rel_option_filter (h.child? .function) fun c c' hc => by rw [hc.kind_eq]

theorem isLike_eventAccount (hpath : file.path = file'.path) (method : String)
    {arguments arguments' : Option Node}
    (h : Option.Rel (Match (agrees language file file')) arguments arguments') :
    (eventAccount file method arguments).IsLike keep (eventAccount file' method arguments') := by
  have hevent : event? file method arguments = event? file' method arguments' := by
    unfold event?
    refine congrArg _ (funext fun type => ?_)
    have hfirst : Option.Rel (Match (agrees language file file'))
        (arguments.bind fun a => a.constructs.head?)
          (arguments'.bind fun a => a.constructs.head?) :=
      rel_bind h fun _ _ ha => rel_head? ha.constructs
    exact bind_eq_of_rel hfirst fun c c' hc => by rw [stringValue_eq hc]
  rw [eventAccount, eventAccount, hevent, hpath]
  exact .refl keep _

end Extract

end RepoGraph
