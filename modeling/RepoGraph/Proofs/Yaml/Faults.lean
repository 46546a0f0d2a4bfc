import RepoGraph.Yaml.Reader

/-!
# What comes in the way of a YAML text

A text that breaks the rules of the format is malformed.  `Yaml.Refuses` lists the other ways in
which a text may have no value: an escape that numbers no character, a mapping in place of a
timestamp, and the text of a scalar that is no truth value, number or time although its node is to
be one.  Every fault of reading is one of these.

`Fill.Follows` says of a step of filling what holds of its answer and of its faults, given the nodes
that the text has; there is one lemma for each way of putting steps together and one for each step.

Main statement: `Yaml.refuses_of_read`.
-/

namespace RepoGraph

namespace Yaml

variable {nodes now : Store} {α β : Type}

/-! ### Faults -/

/-- The types of scalars that a text need not have a value of. -/
def Kind.isPicky : Kind → Bool
  | .bool | .int | .float | .timestamp => true
  | _ => false

/-- Whether the nodes of a text refuse a value in some way. -/
inductive RefusesNode (nodes : Store) : Fault → Prop
  | scalar {n m : Node} {text : String} {f : Fault} (hn : n ∈ nodes) (hm : m ∈ nodes)
      (htext : m.content = .scalar text) (hkind : n.kind.isPicky = true)
      (hfault : Scalar.ofText n.kind text = .error f) : RefusesNode nodes f
  | timestamp {n : Node} {es : List (Nat × Nat)} (hn : n ∈ nodes) (hkind : n.kind = .timestamp)
      (hcontent : n.content = .mapping es) : RefusesNode nodes .timestampOfMapping

/-- Whether a text refuses a value in some way, though it keeps to the rules of the format. -/
inductive Refuses (text : String) : Fault → Prop
  | character (h : Store.ofText text = .error .noCharacter) : Refuses text .noCharacter
  | word (h : Store.ofText text = .error .noWord) : Refuses text .noWord
  | node {nodes : Store} {root : Option Nat} {f : Fault}
      (h : Store.ofText text = .ok (nodes, root)) (hnode : RefusesNode nodes f) : Refuses text f

/-- A text of another type breaks the rules of the format if it has no value. -/
theorem Scalar.isPicky_of_ofText {kind : Kind} {text : String} {f : Fault}
    (h : Scalar.ofText kind text = .error f) : f = .malformed ∨ kind.isPicky = true := by
  unfold Scalar.ofText at h
  split at h
  case h_5 =>
    refine .inl ?_
    unfold Literal.bytes at h
    split at h
    · split at h
      · cases h
      · cases h
        rfl
    · cases h
      rfl
  case h_2 | h_3 | h_4 | h_6 => exact .inr rfl
  case h_1 | h_7 => cases h
  case h_8 =>
    cases h
    exact .inl rfl

/-! ### Nodes that come from the text -/

/-- Whether a node is a mapping. -/
def Node.IsMapping (n : Node) : Prop := ∃ es, n.content = .mapping es

/-- Whether a node is another one up to the entries of a mapping and the types of texts. -/
structure Node.ComesFrom (m n : Node) : Prop where
  kind : n.kind = m.kind ∨ n.kind = .text
  scalar : ∀ text, n.content = .scalar text → m.content = .scalar text
  mapping : n.IsMapping → m.IsMapping

/-- Whether each node comes from the node of the text with its number. -/
def Store.ComesFrom (nodes now : Store) : Prop :=
  ∀ i : Nat, ∀ n ∈ now[i]?, ∃ m ∈ nodes[i]?, m.ComesFrom n

theorem Store.ComesFrom.modify (h : nodes.ComesFrom now) (i : Nat) {change : Node → Node}
    (hchange : ∀ m ∈ nodes[i]?, ∀ n, m.ComesFrom n → m.ComesFrom (change n)) :
    nodes.ComesFrom (now.modify i change) := by
  intro j n hn
  rw [Array.getElem?_modify] at hn
  split at hn
  · rename_i hij
    subst hij
    obtain ⟨old, hold, rfl⟩ := Option.map_eq_some_iff.1 hn
    obtain ⟨m, hm, hcomes⟩ := h i old hold
    exact ⟨m, hm, hchange m hm old hcomes⟩
  · exact h j n hn

namespace Fill

variable {P : α → Prop} {Q : β → Prop} {step : Fill α}

/-- Whether a step answers what has a property and keeps to the nodes of the text, or has a fault
that the text accounts for. -/
def Follows (nodes : Store) (P : α → Prop) (step : Fill α) : Prop :=
  ∀ s, nodes.ComesFrom s.nodes →
    match step s with
    | .ok (a, s') => P a ∧ nodes.ComesFrom s'.nodes
    | .error f => f = .malformed ∨ RefusesNode nodes f

/-- Whether a step does so, whatever it answers. -/
abbrev Keeps (nodes : Store) (step : Fill α) : Prop := Follows nodes (fun _ => True) step

namespace Follows

theorem pure {a : α} (h : P a) : Follows nodes P (Pure.pure a) := fun _ hs => ⟨h, hs⟩

theorem malformed : Follows nodes P (throw .malformed) := fun _ _ => .inl rfl

theorem bind {next : α → Fill β} (hstep : Follows nodes P step)
    (hnext : ∀ a, P a → Follows nodes Q (next a)) : Follows nodes Q (step >>= next) := by
  intro s hs
  have hfirst := hstep s hs
  change match (step s >>= fun p => next p.1 p.2 : Except Fault _) with
    | .ok (a, s') => Q a ∧ nodes.ComesFrom s'.nodes
    | .error f => f = .malformed ∨ RefusesNode nodes f
  cases hrun : step s with
  | error f =>
    rw [hrun] at hfirst
    exact hfirst
  | ok p =>
    rw [hrun] at hfirst
    exact hnext p.1 hfirst.1 p.2 hfirst.2

theorem mono {P' : α → Prop} (hstep : Follows nodes P step) (h : ∀ a, P a → P' a) :
    Follows nodes P' step := by
  have hpure : Follows nodes P' (step >>= Pure.pure) := hstep.bind fun a ha => pure (h a ha)
  rwa [bind_pure] at hpure

theorem get : Follows nodes (fun s => nodes.ComesFrom s.nodes) (MonadState.get : Fill Filling) :=
  fun _ hs => ⟨hs, hs⟩

theorem modify {change : Filling → Filling}
    (h : ∀ s, nodes.ComesFrom s.nodes → nodes.ComesFrom (change s).nodes) :
    Keeps nodes (modify change : Fill Unit) :=
  fun s hs => ⟨trivial, h s hs⟩

theorem forM {each : α → Fill PUnit} (heach : ∀ a, Keeps nodes (each a))
    (items : List α) : Keeps nodes (items.forM each) := by
  induction items with
  | nil => exact .pure trivial
  | cons a items ih => exact (heach a).bind fun _ _ => ih

theorem mapM {each : α → Fill β} (heach : ∀ a, Keeps nodes (each a))
    (items : List α) : Keeps nodes (items.mapM each) := by
  induction items with
  | nil =>
    rw [List.mapM_nil]
    exact .pure trivial
  | cons a items ih =>
    rw [List.mapM_cons]
    exact (heach a).bind fun _ _ => ih.bind fun _ _ => .pure trivial

theorem foldlM {each : β → α → Fill β} (heach : ∀ b a, Keeps nodes (each b a))
    (items : List α) (b : β) : Keeps nodes (items.foldlM each b) := by
  induction items generalizing b with
  | nil => exact .pure trivial
  | cons a items ih => exact (heach b a).bind fun _ _ => ih _

theorem findM? {test : α → Fill Bool} (htest : ∀ a, Keeps nodes (test a))
    (items : List α) : Keeps nodes (items.findM? test) := by
  induction items with
  | nil => exact .pure trivial
  | cons a items ih =>
    refine (htest a).bind fun found _ => ?_
    cases found with
    | true => exact .pure trivial
    | false => exact ih

end Follows

/-! ### Every step -/

theorem follows_node (i : Nat) :
    Follows nodes (fun n => ∃ m ∈ nodes[i]?, m.ComesFrom n) (node i) := by
  refine Follows.get.bind fun s hs => ?_
  split
  · rename_i n hn
    exact .pure (hs i n hn)
  · exact .malformed

/-- What has entries is a mapping. -/
theorem follows_entries (i : Nat) :
    Follows nodes (fun _ => ∃ m ∈ nodes[i]?, m.IsMapping) (entries i) := by
  refine (follows_node i).bind fun n hn => ?_
  split
  · rename_i es hcontent
    obtain ⟨m, hm, hcomes⟩ := hn
    exact .pure ⟨m, hm, hcomes.mapping ⟨es, hcontent⟩⟩
  · exact .malformed

theorem follows_items (i : Nat) : Keeps nodes (items i) := by
  refine (follows_node i).bind fun n _ => ?_
  split
  · exact .pure trivial
  · exact .malformed

theorem follows_setEntries {i : Nat} (hmapping : ∃ m ∈ nodes[i]?, m.IsMapping)
    (es : List (Nat × Nat)) : Keeps nodes (setEntries i es) := by
  refine .modify fun s hs => ?_
  dsimp only
  -- only a node that is a mapping is given entries, so that no scalar becomes a mapping
  refine hs.modify i fun m hm n hcomes => ⟨hcomes.kind, nofun, fun _ => ?_⟩
  obtain ⟨m', hm', hmapping⟩ := hmapping
  cases hm.symm.trans hm'
  exact hmapping

theorem follows_fuel : Keeps nodes fuel :=
  Follows.get.bind fun _ _ => .pure trivial

theorem follows_keep (i : Nat) (shape : Shape) : Keeps nodes (keep i shape) :=
  .modify fun _ hs => hs

/-- A key that stands in for a value becomes a text. -/
theorem follows_asText (k : Nat) : Follows nodes (fun _ => True)
    (modify fun s => { s with nodes := s.nodes.modify k fun n => { n with kind := .text } } :
      Fill Unit) := by
  refine .modify fun s hs => ?_
  dsimp only
  exact hs.modify k fun m _ n hcomes => ⟨.inr rfl, hcomes.scalar, hcomes.mapping⟩

theorem follows_mergeFrom (i count index : Nat) (merged : List (Nat × Nat)) :
    Keeps nodes (mergeFrom i count index merged) := by
  -- on the number of steps that are left: a merged mapping takes in its own ones first
  induction count generalizing i index merged with
  | zero => exact .malformed
  | succ count ih =>
    unfold mergeFrom
    refine (follows_entries i).bind fun es hmapping => ?_
    split
    · split
      · exact follows_setEntries hmapping _
      · exact .pure trivial
    · rename_i k v _
      refine (follows_node k).bind fun n _ => ?_
      split
      · refine (follows_setEntries hmapping _).bind fun _ _ => (follows_node v).bind fun m _ => ?_
        split
        · exact (ih v _ _).bind fun _ _ => (follows_entries v).bind fun _ _ => ih i _ _
        · refine (Follows.mapM (fun j => ?_) _).bind fun _ _ => ih i _ _
          exact (follows_entries j).bind fun _ _ => (ih j _ _).bind fun _ _ =>
            (follows_entries j).mono fun _ _ => trivial
        · exact .malformed
      · exact (follows_asText k).bind fun _ _ => ih i _ _
      · exact ih i _ _

/-- The text of a scalar is that of a node. -/
theorem follows_text (count i : Nat) :
    Follows nodes (fun text => ∃ m ∈ nodes, m.content = .scalar text) (text count i) := by
  induction count generalizing i with
  | zero => exact .malformed
  | succ count ih =>
    unfold text
    refine (follows_node i).bind fun n hn => ?_
    split
    · rename_i text htext
      obtain ⟨m, hm, hcomes⟩ := hn
      exact .pure ⟨m, Array.mem_of_getElem? hm, hcomes.scalar text htext⟩
    · exact .malformed
    · refine Follows.bind (P := fun _ => True) (.findM? (fun e => ?_) _) fun found _ => ?_
      · exact (follows_node e.1).bind fun _ _ => .pure trivial
      · split
        · exact ih _
        · exact .malformed

theorem follows_ofText {n : Node} {i : Nat} (hn : ∃ m ∈ nodes[i]?, m.ComesFrom n) {text : String}
    (htext : ∃ m ∈ nodes, m.content = .scalar text) :
    Keeps nodes (Scalar.ofText n.kind text : Fill Scalar) := by
  intro s hs
  have hlift : (liftM (Scalar.ofText n.kind text) : Fill Scalar) s =
      Scalar.ofText n.kind text >>= fun a => .ok (a, s) := rfl
  rw [hlift]
  cases hscalar : Scalar.ofText n.kind text with
  | ok a => exact ⟨trivial, hs⟩
  | error f =>
    refine (Scalar.isPicky_of_ofText hscalar).imp id fun hpicky => ?_
    obtain ⟨m, hm, hcomes⟩ := hn
    -- a node that has become a text has a value
    rcases hcomes.kind with hkind | hkind
    · obtain ⟨m', hm', htext⟩ := htext
      rw [hkind] at hscalar hpicky
      exact .scalar (Array.mem_of_getElem? hm) hm' htext hpicky hscalar
    · rw [hkind] at hpicky
      cases hpicky

theorem follows_scalar {n : Node} {i : Nat} (hn : ∃ m ∈ nodes[i]?, m.ComesFrom n) :
    Keeps nodes (scalar i n) := by
  refine follows_fuel.bind fun count _ => (follows_text count i).bind fun text htext => ?_
  split
  · rename_i es hkind hcontent
    obtain ⟨m, hm, hcomes⟩ := hn
    obtain ⟨es, hmapping⟩ := hcomes.mapping ⟨es, hcontent⟩
    rcases hcomes.kind with hfrom | hfrom
    · exact fun _ _ => .inr
        (.timestamp (Array.mem_of_getElem? hm) (hfrom.symm.trans hkind) hmapping)
    · cases hfrom.symm.trans hkind
  · exact follows_ofText hn htext

theorem follows_construct (i : Nat) : Keeps nodes (construct i) := by
  have hlater (shape : Shape) : Keeps nodes (do
      keep i shape
      modify fun s => { s with queue := s.queue ++ [i] }) :=
    (follows_keep i shape).bind fun _ _ => .modify fun _ hs => hs
  unfold construct
  refine Follows.get.bind fun s _ => ?_
  split
  · exact .pure trivial
  · refine (follows_node i).bind fun n hn => ?_
    split
    · exact hlater _
    · exact hlater _
    · exact hlater _
    · exact hlater _
    · exact .malformed
    · exact .malformed
    · exact .malformed
    · exact (follows_scalar hn).bind fun _ _ => follows_keep i _

theorem follows_key (i : Nat) : Keeps nodes (key i) := by
  refine (follows_construct i).bind fun _ _ => Follows.get.bind fun s _ => ?_
  split
  · exact .pure trivial
  · exact .malformed

theorem follows_mapping (i : Nat) : Keeps nodes (mapping i) := by
  refine (follows_entries i).bind fun _ _ => follows_fuel.bind fun count _ =>
    (follows_mergeFrom i count 0 []).bind fun _ _ => (follows_entries i).bind fun es _ => ?_
  refine .foldlM (fun acc e => ?_) _ _
  exact (follows_key e.1).bind fun name _ => (follows_construct e.2).bind fun _ _ => .pure trivial

theorem follows_pair (i : Nat) : Keeps nodes (pair i) := by
  refine (follows_entries i).bind fun es _ => ?_
  split
  · rename_i k v
    exact (follows_construct k).bind fun _ _ => (follows_construct v).bind fun _ _ => .pure trivial
  · exact .malformed

theorem follows_fill (i : Nat) : Keeps nodes (fill i) := by
  unfold fill
  refine (follows_node i).bind fun n _ => ?_
  split
  · exact (follows_items i).bind fun is _ => (Follows.forM follows_construct is).bind fun _ _ =>
      follows_keep i _
  · exact (follows_items i).bind fun is _ => (Follows.mapM follows_pair is).bind fun _ _ =>
      follows_keep i _
  · exact (follows_mapping i).bind fun _ _ => follows_keep i _
  · exact (follows_mapping i).bind fun _ _ => follows_keep i _

theorem follows_fillAll (count : Nat) : Keeps nodes (fillAll count) := by
  induction count with
  | zero => exact .pure trivial
  | succ count ih =>
    unfold fillAll
    refine Follows.get.bind fun s _ => ?_
    split
    · exact .pure trivial
    · rename_i i rest _
      refine Follows.bind (P := fun _ => True) (.modify fun _ hs => hs) fun _ _ => ?_
      exact (follows_fill i).bind fun _ _ => ih

end Fill

/-- A fault of reading is one of the format or one that the text accounts for. -/
theorem refuses_of_read {text : String} {f : Fault} (h : read text = .error f) :
    f = .malformed ∨ Refuses text f := by
  unfold read at h
  cases hnodes : Store.ofText text with
  | error lex =>
    rw [hnodes] at h
    cases h
    cases lex with
    | malformed => exact .inl rfl
    | noCharacter => exact .inr (.character hnodes)
    | noWord => exact .inr (.word hnodes)
  | ok found =>
    obtain ⟨nodes, root⟩ := found
    rw [hnodes] at h
    cases root with
    | none => cases h
    | some i =>
      -- every node that the work adds comes from one of the text, so its fault is accounted for
      have hcomes : nodes.ComesFrom nodes :=
        fun i n hn => ⟨n, hn, .inl rfl, fun _ h => h, fun h => h⟩
      have hwork := (Fill.follows_construct i).bind
        (fun _ _ => Fill.follows_fillAll (nodes.size + 1))
        ⟨nodes, Array.replicate nodes.size none, []⟩ hcomes
      change (_ >>= fun p : Unit × Filling =>
        Except.ok (Value.unfold p.2.shapes (nodes.size + 2) [] i) : Except Fault Value) = _ at h
      split at hwork
      · rename_i hrun
        rw [hrun] at h
        cases h
      · rename_i hrun
        rw [hrun] at h
        cases h
        exact hwork.imp id fun hnode => .node hnodes hnode

end Yaml

end RepoGraph
