import RepoGraph.Json.Search
import RepoGraph.Proofs.Json.Grammar

/-!
# The first object is found

`Json.findObject` scans a text once for each opening brace.  The scan is exact: whatever stands in
its strings and whatever follows, it ends a spelled object at its last brace, since every value
brings the scan back to the depth it began at (`Json.isLevel`).  So what is found is what trying
every stretch of the text would find first.

Main statements: `Json.closingLength_object`, `Json.findObject_spec`.
-/

namespace RepoGraph

namespace Json

variable {state state' state'' : ScanState} {depth depth' depth'' : Nat} {cs more : List Char}
  {c : Char} {v : Json} {fields : Fields}

/-! ### Scanning a stretch of text -/

attribute [simp] closingLength

/-- Whether the scan of some characters leads from one state and depth to another, whatever follows
them. -/
def Passes (state : ScanState) (depth : Nat) (cs : List Char) (state' : ScanState) (depth' : Nat) :
    Prop :=
  ∀ more, closingLength state depth (cs ++ more) =
    (closingLength state' depth' more).map (· + cs.length)

theorem passes_nil (state : ScanState) (depth : Nat) : Passes state depth [] state depth :=
  fun more => by simp

theorem Passes.append (h : Passes state depth cs state' depth')
    (h' : Passes state' depth' more state'' depth'') :
    Passes state depth (cs ++ more) state'' depth'' := by
  intro rest
  rw [List.append_assoc, h, h', Option.map_map, List.length_append]
  congr 1
  funext n
  simp only [Function.comp_apply]
  omega

theorem Passes.cons (h : Passes state depth [c] state' depth')
    (h' : Passes state' depth' cs state'' depth'') :
    Passes state depth (c :: cs) state'' depth'' := h.append h'

theorem passes_escaped (c : Char) (depth : Nat) : Passes .escaped depth [c] .inside depth :=
  fun more => by simp

theorem passes_backslash (depth : Nat) : Passes .inside depth ['\\'] .escaped depth :=
  fun more => by simp

theorem passes_inside (hquote : c ≠ '"') (hslash : c ≠ '\\') (depth : Nat) :
    Passes .inside depth [c] .inside depth :=
  fun more => by simp [hquote, hslash]

theorem passes_closingQuote (depth : Nat) : Passes .inside depth ['"'] .outside depth :=
  fun more => by simp

theorem passes_quote (depth : Nat) : Passes .outside depth ['"'] .inside depth :=
  fun more => by simp

theorem passes_open (depth : Nat) : Passes .outside depth ['\x7b'] .outside (depth + 1) :=
  fun more => by simp

theorem passes_close (depth : Nat) : Passes .outside (depth + 2) ['\x7d'] .outside (depth + 1) :=
  fun more => by simp

/-- Whether the scan does not heed a character outside strings. -/
def IsPlain (c : Char) : Prop := c ≠ '"' ∧ c ≠ '\x7b' ∧ c ≠ '\x7d'

instance : DecidablePred IsPlain := fun _ => inferInstanceAs (Decidable (_ ∧ _))

theorem passes_plain (h : ∀ c ∈ cs, IsPlain c) (depth : Nat) :
    Passes .outside depth cs .outside depth := by
  induction cs with
  | nil => exact passes_nil _ _
  | cons c cs ih =>
    obtain ⟨⟨hquote, hopen, hclose⟩, hcs⟩ := List.forall_mem_cons.1 h
    have hc : Passes .outside depth [c] .outside depth := fun more => by
      simp [hquote, hopen, hclose]
    exact hc.cons (ih hcs)

/-! ### Values keep the depth -/

/-- Whether the scan of some characters within braces comes back to its depth. -/
def IsLevel (cs : List Char) : Prop :=
  ∀ depth, Passes .outside (depth + 1) cs .outside (depth + 1)

theorem IsLevel.append (h : IsLevel cs) (h' : IsLevel more) : IsLevel (cs ++ more) :=
  fun depth => (h depth).append (h' depth)

theorem isLevel_plain (h : ∀ c ∈ cs, IsPlain c) : IsLevel cs :=
  fun depth => passes_plain h (depth + 1)

theorem IsLevel.cons (hc : IsPlain c) (h : IsLevel cs) : IsLevel (c :: cs) :=
  (isLevel_plain (List.forall_mem_singleton.2 hc)).append h

theorem isLevel_blank (h : IsBlank cs) : IsLevel cs := by
  refine isLevel_plain fun c hc => ?_
  have hspace := h c hc
  simp only [isSpace, Bool.or_eq_true, beq_iff_eq] at hspace
  rcases hspace with ((rfl | rfl) | rfl) | rfl <;> decide

theorem passes_hexDigit {n : Nat} (h : hexDigit? c = some n) (depth : Nat) :
    Passes .inside depth [c] .inside depth := by
  refine passes_inside ?_ ?_ depth <;>
    · rintro rfl
      cases h

theorem passes_unit {a b c d : Char} {n : Nat} (h : hex4? a b c d = some n) (depth : Nat) :
    Passes .inside depth ['\\', 'u', a, b, c, d] .inside depth := by
  simp only [hex4?, Option.bind_eq_bind, Option.bind_eq_some_iff] at h
  obtain ⟨_, ha, _, hb, _, hc, _, hd, -⟩ := h
  exact (passes_backslash depth).cons
    ((passes_escaped 'u' depth).cons ((passes_hexDigit ha depth).cons
    ((passes_hexDigit hb depth).cons ((passes_hexDigit hc depth).cons (passes_hexDigit hd depth)))))

/-- A string ends at its closing quote. -/
theorem SpellsString.passes {s : List Char} (h : SpellsString cs s) (depth : Nat) :
    Passes .inside depth cs .outside depth := by
  induction h with
  | close => exact passes_closingQuote depth
  | plain hquote hslash _ _ ih => exact (passes_inside hquote hslash depth).cons ih
  | escape _ _ ih => exact (passes_backslash depth).cons ((passes_escaped _ depth).cons ih)
  | unit hdigits _ _ ih => exact (passes_unit hdigits depth).append ih
  | pair hdigits _ hdigits' _ _ ih =>
    exact (passes_unit hdigits depth).append ((passes_unit hdigits' depth).append ih)

theorem SpellsString.isLevel {s : List Char} (h : SpellsString cs s) : IsLevel ('"' :: cs) :=
  fun depth => (passes_quote (depth + 1)).cons (h.passes (depth + 1))

theorem SpellsScalar.isLevel (h : SpellsScalar cs v) : IsLevel cs := by
  refine isLevel_plain ?_
  cases h with
  | word h =>
    simp only [words, List.mem_cons, Prod.mk.injEq, List.not_mem_nil, or_false] at h
    obtain ⟨rfl, -⟩ | ⟨rfl, -⟩ | ⟨rfl, -⟩ | ⟨rfl, -⟩ | ⟨rfl, -⟩ | ⟨rfl, -⟩ := h <;> simp [IsPlain]
  | numeral ht hspells _ =>
    exact forall_mem_signed (fun c hc => ⟨ne_of_isDigit hc rfl, ne_of_isDigit hc rfl,
      ne_of_isDigit hc rfl⟩) (by simp [IsPlain]) ht hspells _

/-- What the scan does on the characters of a part of a text: it comes back to its depth, and the
closing brace that belongs to fields takes it out of theirs. -/
def IsLevelPart (cs : List Char) : Part → Prop
  | .fields _ => ∃ inner, cs = inner ++ ['\x7d'] ∧ IsLevel inner
  | _ => IsLevel cs

theorem Spells.isLevelPart {part : Part} (h : Spells cs part) : IsLevelPart cs part := by
  have hplain {c : Char} (hc : IsPlain c) : IsLevel [c] :=
    isLevel_plain (List.forall_mem_singleton.2 hc)
  induction h with
  | scalar h => exact h.isLevel
  | string h => exact h.isLevel
  | array _ ih => exact ih.cons (by decide)
  -- what spells fields closes the brace that the object has opened
  | object _ ih =>
    obtain ⟨inner, rfl, hinner⟩ := ih
    exact fun depth => (passes_open (depth + 1)).cons
      ((hinner (depth + 1)).append (passes_close depth))
  | noItems hblanks => exact (isLevel_blank hblanks).append (hplain (by decide))
  | lastItem hbefore _ hafter ih =>
    exact (isLevel_blank hbefore).append
      (ih.append ((isLevel_blank hafter).append (hplain (by decide))))
  | nextItem hbefore _ hafter _ ih ihmore =>
    exact (isLevel_blank hbefore).append (ih.append ((isLevel_blank hafter).append
      (ihmore.cons (by decide))))
  | named hname hcolon hgap _ ih =>
    exact hname.isLevel.append ((isLevel_blank hcolon).append
      (((isLevel_blank hgap).append ih).cons (by decide)))
  | noFields hblanks => exact ⟨_, rfl, isLevel_blank hblanks⟩
  | @lastField before cs after _ _ hbefore _ hafter ih =>
    refine ⟨before ++ (cs ++ after), by simp only [List.append_assoc], ?_⟩
    exact (isLevel_blank hbefore).append (ih.append (isLevel_blank hafter))
  | @nextField before cs after _ _ _ _ _ hbefore _ hafter _ ih ihmore =>
    obtain ⟨inner, rfl, hinner⟩ := ihmore
    refine ⟨before ++ (cs ++ (after ++ ',' :: inner)), by simp only [List.append_assoc,
      List.cons_append], ?_⟩
    exact (isLevel_blank hbefore).append (ih.append ((isLevel_blank hafter).append
      (hinner.cons (by decide))))

/-! ### Where the scan ends -/

/-- An object stands between braces. -/
theorem Spells.exists_inner (h : Spells cs (.value (obj fields))) :
    ∃ inner, cs = '\x7b' :: (inner ++ ['\x7d']) ∧ IsLevel inner := by
  generalize hv : obj fields = v at h
  cases h with
  | scalar h =>
    cases h with
    | word h =>
      subst hv
      simp [words] at h
    | numeral _ _ hvalue =>
      subst hv
      rw [numeralValue] at hvalue
      split at hvalue
      · split at hvalue <;> cases hvalue
      · cases hvalue
  | string | array => cases hv
  | object h =>
    obtain ⟨inner, rfl, hinner⟩ := h.isLevelPart
    exact ⟨inner, rfl, hinner⟩

/-- The scan of an object ends at its last brace. -/
theorem closingLength_object (h : Spells cs (.value (obj fields))) (more : List Char) :
    closingLength .outside 0 (cs ++ more) = some cs.length := by
  obtain ⟨inner, rfl, hinner⟩ := h.exists_inner
  have hopen := (passes_open 0).cons (hinner 0) ('\x7d' :: more)
  rw [List.cons_append, List.append_assoc, List.singleton_append, ← List.cons_append, hopen]
  simp only [closingLength, List.length_cons, List.length_append, List.length_nil]
  simp
  omega

/-- The scan ends after a brace. -/
theorem getLast?_take_closingLength {n : Nat} (h : closingLength state depth cs = some n) :
    n ≤ cs.length ∧ (cs.take n).getLast? = some '\x7d' := by
  induction cs generalizing state depth n with
  | nil => cases h
  | cons c cs ih =>
    -- a step that does not end the scan leaves the claim to the rest of the text
    have hgo {state : ScanState} {depth : Nat}
        (h : (closingLength state depth cs).map (· + 1) = some n) :
        n ≤ (c :: cs).length ∧ ((c :: cs).take n).getLast? = some '\x7d' := by
      obtain ⟨m, hm, rfl⟩ := Option.map_eq_some_iff.1 h
      obtain ⟨hle, hlast⟩ := ih hm
      refine ⟨by rw [List.length_cons]; omega, ?_⟩
      rw [List.take_succ_cons, List.getLast?_cons, hlast]
      rfl
    cases state <;> simp only [closingLength] at h
    case escaped => exact hgo h
    case inside =>
      split at h
      · exact hgo h
      · split at h <;> exact hgo h
    case outside =>
      split at h
      · exact hgo h
      · split at h
        · exact hgo h
        · split at h
          · -- a closing brace ends the scan at the last depth
            rename_i hbrace
            split at h
            · cases h
              refine ⟨by rw [List.length_cons]; omega, ?_⟩
              rw [eq_of_beq hbrace]
              rfl
            · exact hgo h
          · exact hgo h

/-! ### Stretches of a text -/

/-- Whether the characters of a text from the place `i` up to the place `j` begin and end with a
brace and are read as an object. -/
structure IsObjectAt (cs : List Char) (i j : Nat) (fields : Fields) : Prop where
  le_length : j ≤ cs.length
  opens : ((cs.take j).drop i).head? = some '\x7b'
  closes : ((cs.take j).drop i).getLast? = some '\x7d'
  reads : read (String.ofList ((cs.take j).drop i)) = .ok (.obj fields)

theorem not_isObjectAt_nil {i j : Nat} : ¬ IsObjectAt [] i j fields := by
  intro h
  have hopens := h.opens
  simp at hopens

theorem isObjectAt_succ {i j : Nat} :
    IsObjectAt (c :: cs) (i + 1) (j + 1) fields ↔ IsObjectAt cs i j fields := by
  constructor
  · rintro ⟨hle, hopens, hcloses, hreads⟩
    exact ⟨Nat.le_of_succ_le_succ hle, hopens, hcloses, hreads⟩
  · rintro ⟨hle, hopens, hcloses, hreads⟩
    exact ⟨Nat.succ_le_succ hle, hopens, hcloses, hreads⟩

theorem IsObjectAt.lt {i j : Nat} (h : IsObjectAt cs i j fields) : i < j := by
  by_contra hle
  have hopens := h.opens
  rw [List.drop_eq_nil_of_le (by rw [List.length_take]; omega)] at hopens
  cases hopens

/-- A text without blanks around it spells what it is read as. -/
theorem spells_of_read (hopens : cs.head? = some '\x7b') (hcloses : cs.getLast? = some '\x7d')
    (h : read (String.ofList cs) = .ok v) : Spells cs (.value v) := by
  obtain ⟨before, inner, after, htext, hbefore, hafter, hspells⟩ := read_eq_ok_iff.1 h
  rw [String.toList_ofList] at htext
  -- no brace is a blank, so there are none before the first and behind the last one
  have hnil : before = [] := by
    cases before with
    | nil => rfl
    | cons b before =>
      rw [htext, List.cons_append, List.head?_cons, Option.some.injEq] at hopens
      have hb := hbefore b List.mem_cons_self
      rw [hopens] at hb
      cases hb
  have hnil' : after = [] := by
    rcases List.eq_nil_or_concat after with rfl | ⟨after, b, rfl⟩
    · rfl
    · rw [htext, ← List.append_assoc, List.concat_eq_append, ← List.append_assoc,
        List.getLast?_concat, Option.some.injEq] at hcloses
      have hb := hafter b (by simp)
      rw [hcloses] at hb
      cases hb
  rw [htext, hnil, hnil', List.nil_append, List.append_nil]
  exact hspells

/-- An object at the front of a text ends where the scan of the text ends. -/
theorem IsObjectAt.closingLength_eq {n : Nat} (h : IsObjectAt cs 0 n fields) :
    closingLength .outside 0 cs = some n := by
  have hspells := spells_of_read h.opens h.closes h.reads
  have hclosing := closingLength_object hspells (cs.drop n)
  rw [List.drop_zero, List.take_append_drop, List.length_take,
    Nat.min_eq_left h.le_length] at hclosing
  exact hclosing

theorem isObjectAt_of_objectAt (hopens : cs.head? = some '\x7b') (h : objectAt cs = some fields) :
    ∃ n, IsObjectAt cs 0 n fields := by
  rw [objectAt] at h
  split at h
  · cases h
  · rename_i n hclosing
    obtain ⟨hle, hlast⟩ := getLast?_take_closingLength hclosing
    split at h
    · rename_i hread
      cases h
      have hpos : n ≠ 0 := by
        rintro rfl
        cases hlast
      refine ⟨n, hle, ?_, hlast, hread⟩
      rw [List.drop_zero, List.head?_take, if_neg hpos]
      exact hopens
    · cases h

theorem IsObjectAt.objectAt_eq {n : Nat} (h : IsObjectAt cs 0 n fields) :
    objectAt cs = some fields := by
  have hreads := h.reads
  rw [List.drop_zero] at hreads
  simp only [objectAt, h.closingLength_eq, hreads]

/-! ### The first object -/

/-- Whether an object is the first one that a stretch of a text holds, or empty where none does. -/
def IsFirst (cs : List Char) (found : Fields) : Prop :=
  (∃ i j, IsObjectAt cs i j found ∧
    ∀ i' j' fields, IsObjectAt cs i' j' fields → i < i' ∨ i' = i ∧ j' = j) ∨
  ((∀ i j fields, ¬ IsObjectAt cs i j fields) ∧ found = [])

theorem isFirst_cons {found : Fields} (hnone : ∀ n fields, ¬ IsObjectAt (c :: cs) 0 n fields)
    (h : IsFirst cs found) : IsFirst (c :: cs) found := by
  have hshift {i j : Nat} {fields : Fields} (h : IsObjectAt (c :: cs) i j fields) :
      ∃ i' j', i = i' + 1 ∧ j = j' + 1 ∧ IsObjectAt cs i' j' fields := by
    cases i with
    | zero => exact (hnone _ _ h).elim
    | succ i =>
      cases j with
      | zero => exact absurd h.lt (Nat.not_lt_zero _)
      | succ j => exact ⟨i, j, rfl, rfl, isObjectAt_succ.1 h⟩
  obtain ⟨i, j, hfound, hfirst⟩ | ⟨hnowhere, rfl⟩ := h
  · refine .inl ⟨i + 1, j + 1, isObjectAt_succ.2 hfound, fun i' j' fields h' => ?_⟩
    obtain ⟨k, l, rfl, rfl, hrest⟩ := hshift h'
    have := hfirst k l fields hrest
    omega
  · refine .inr ⟨fun i j fields h' => ?_, rfl⟩
    obtain ⟨k, l, -, -, hrest⟩ := hshift h'
    exact hnowhere k l fields hrest

theorem isFirst_findObjectChars (cs : List Char) : IsFirst cs (findObjectChars cs) := by
  induction cs with
  | nil => exact .inr ⟨fun _ _ _ => not_isObjectAt_nil, rfl⟩
  | cons c cs ih =>
    rw [findObjectChars]
    split
    · rename_i hopen
      have hopens : (c :: cs).head? = some '\x7b' := by rw [eq_of_beq hopen]; rfl
      -- an object that begins here is the first one, and the scan finds its only end
      cases hobject : objectAt (c :: cs) with
      | some fields =>
        obtain ⟨n, hfound⟩ := isObjectAt_of_objectAt hopens hobject
        refine .inl ⟨0, n, hfound, fun i' j' fields' h' => ?_⟩
        cases i' with
        | zero =>
          have := hfound.closingLength_eq.symm.trans h'.closingLength_eq
          exact .inr ⟨rfl, (Option.some.inj this).symm⟩
        | succ i' => exact .inl (Nat.succ_pos i')
      | none =>
        refine isFirst_cons (fun n fields h => ?_) ih
        rw [h.objectAt_eq] at hobject
        cases hobject
    · rename_i hopen
      refine isFirst_cons (fun n fields h => ?_) ih
      have hopens := h.opens
      rw [List.drop_zero, List.head?_take, if_neg (Nat.ne_of_gt h.lt), List.head?_cons,
        Option.some.injEq] at hopens
      exact hopen (beq_iff_eq.2 hopens)

/-- What stands before the first opening brace is passed over. -/
theorem findObjectChars_append {before : List Char} (h : '\x7b' ∉ before) (cs : List Char) :
    findObjectChars (before ++ cs) = findObjectChars cs := by
  induction before with
  | nil => rfl
  | cons c before ih =>
    rw [List.mem_cons, not_or] at h
    rw [List.cons_append, findObjectChars, if_neg (by simpa using Ne.symm h.1), ih h.2]

/-- A spelled object is found at the front of a text, whatever follows it. -/
theorem findObjectChars_object (h : Spells cs (.value (obj fields))) (more : List Char) :
    findObjectChars (cs ++ more) = fields := by
  have hread : read (String.ofList cs) = .ok (.obj fields) :=
    read_eq_ok_iff.2 ⟨[], cs, [], by rw [String.toList_ofList, List.append_nil, List.nil_append],
      isBlank_nil, isBlank_nil, h⟩
  have hobject : objectAt (cs ++ more) = some fields := by
    simp only [objectAt, closingLength_object h more, List.take_left, hread]
  obtain ⟨inner, rfl, -⟩ := h.exists_inner
  rw [List.cons_append] at hobject ⊢
  rw [findObjectChars, if_pos (beq_self_eq_true _), hobject, Option.getD_some]

/-- What is found in a text is the object of the stretch of the text that begins first among those
that are read as objects, and only one of them begins there; where there is none, the empty object
is found.  An object that is spelled in a text, in whatever way, is found if no brace opens before
it. -/
theorem findObject_spec (text : String) :
    ((∃ i j fields, IsObjectAt text.toList i j fields) →
      ∃ i j, IsObjectAt text.toList i j (findObject (some text)) ∧
        ∀ i' j' fields, IsObjectAt text.toList i' j' fields → i < i' ∨ i' = i ∧ j' = j) ∧
    ((¬ ∃ i j fields, IsObjectAt text.toList i j fields) → findObject (some text) = []) ∧
    (∀ before spelling after fields, text = before ++ spelling ++ after →
      '\x7b' ∉ before.toList → read spelling = .ok (.obj fields) →
        findObject (some text) = fields) := by
  refine ⟨fun ⟨i, j, fields, h⟩ => ?_, fun hnone => ?_, ?_⟩
  · exact (isFirst_findObjectChars text.toList).resolve_right fun hnone => hnone.1 i j fields h
  · obtain ⟨i, j, hfound, -⟩ | ⟨-, hnil⟩ := isFirst_findObjectChars text.toList
    · exact (hnone ⟨i, j, _, hfound⟩).elim
    · exact hnil
  · rintro before spelling after fields rfl hbefore hread
    obtain ⟨blanks, cs, blanks', htext, hblanks, -, hspells⟩ := read_eq_ok_iff.1 hread
    have hopen : '\x7b' ∉ before.toList ++ blanks := by
      rw [List.mem_append, not_or]
      exact ⟨hbefore, fun hmem => absurd (hblanks _ hmem) (by decide)⟩
    rw [findObject, Option.getD_some, String.toList_append, String.toList_append, htext,
      List.append_assoc, List.append_assoc, ← List.append_assoc, findObjectChars_append hopen,
      List.append_assoc]
    exact findObjectChars_object hspells _

theorem findObject_spec_braceInString :
    findObject (some ("So\x7d " ++ pretty (obj [("a", str "\x7d")]) ++ " \x7b")) =
      [("a", str "\x7d")] :=
  (findObject_spec _).2.2 _ _ _ _ rfl (by decide) (read_pretty_of_isShort rfl)

end Json

end RepoGraph
