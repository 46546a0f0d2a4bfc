import Mathlib.Data.List.Basic
import RepoGraph.Extract.FrontMatter

/-!
# Front matter line by line

`FrontMatter.split?` reads a text by characters; here it is compared with the rule that speaks of
lines.  A line ends with a line feed, before which a carriage return may stand, and a fence is a
line of three hyphens and blanks behind them.  If the first line is a fence, the block begins behind
it and ends at the first fence after the line that follows: the first line of a block is never taken
for its end.  So the rule that a block ends at the first fence behind the opening one holds of all
texts but those in which the two touch; there the closing fence goes into the block, and what was
the body with it if another fence comes.

Main statements: `FrontMatter.split?_eq_some_iff`, `FrontMatter.read_of_fences`.
-/

namespace RepoGraph

namespace FrontMatter

/-! ### Lines -/

/-- A line: its characters, and the break that ends it.  The last line of a text has none. -/
structure Line where
  content : List Char
  ending : List Char
deriving DecidableEq

namespace Line

/-- The characters of a line with its break. -/
def text (l : Line) : List Char := l.content ++ l.ending

/-- A line with more characters in front. -/
def before (cs : List Char) (l : Line) : Line := ⟨cs ++ l.content, l.ending⟩

/-- Whether a line is a fence: three hyphens, and only blanks behind them. -/
def isFence (l : Line) : Bool :=
  fence.isPrefixOf l.content && (l.content.drop fence.length).all isPadding

end Line

/-- The lines of a text. -/
def lines : List Char → List Line
  | [] => [⟨[], []⟩]
  | '\n' :: rest => ⟨[], ['\n']⟩ :: lines rest
  | '\r' :: '\n' :: rest => ⟨[], ['\r', '\n']⟩ :: lines rest
  | c :: rest => (lines rest).modifyHead (Line.before [c])

/-- The characters of some lines, without the break of the last one. -/
def joined : List Line → List Char
  | [] => []
  | [l] => l.content
  | l :: rest => l.text ++ joined rest

variable {cs rest block body : List Char} {l : Line} {more : List Line}

theorem lines_feed (rest : List Char) : lines ('\n' :: rest) = ⟨[], ['\n']⟩ :: lines rest := by
  rw [lines]

theorem lines_return_feed (rest : List Char) :
    lines ('\r' :: '\n' :: rest) = ⟨[], ['\r', '\n']⟩ :: lines rest := by
  rw [lines]

theorem exists_lines (cs : List Char) : ∃ l more, lines cs = l :: more := by
  induction cs using lines.induct with
  | case1 | case2 | case3 => exact ⟨_, _, rfl⟩
  | case4 c rest _ _ ih =>
    obtain ⟨l, more, h⟩ := ih
    exact ⟨l.before [c], more, by rw [lines, h, List.modifyHead_cons] <;> assumption⟩

theorem lines_ne_nil (cs : List Char) : lines cs ≠ [] := by
  obtain ⟨l, more, h⟩ := exists_lines cs
  rw [h]
  exact List.cons_ne_nil l more

/-- A break ends a line. -/
theorem lines_of_break (h : afterBreak? cs = some rest) :
    ∃ ending, cs = ending ++ rest ∧ lines cs = ⟨[], ending⟩ :: lines rest := by
  rw [afterBreak?.eq_def] at h
  split at h
  · cases h
    exact ⟨['\n'], rfl, lines_feed rest⟩
  · cases h
    exact ⟨['\r', '\n'], rfl, lines_return_feed rest⟩
  · cases h

/-- Any other character is one of a line. -/
theorem lines_cons {c : Char} (h : afterBreak? (c :: rest) = none) :
    lines (c :: rest) = (lines rest).modifyHead (Line.before [c]) := by
  rw [afterBreak?.eq_def] at h
  rw [lines]
  · rintro rfl
    cases h
  · rintro more rfl rfl
    cases h

/-- The lines of a text hold it all. -/
theorem flatMap_text_lines (cs : List Char) : (lines cs).flatMap Line.text = cs := by
  induction cs using lines.induct with
  | case1 => rfl
  | case2 rest ih | case3 rest ih =>
    rw [lines, List.flatMap_cons, ih]
    rfl
  | case4 c rest _ _ ih =>
    obtain ⟨l, more, h⟩ := exists_lines rest
    rw [h, List.flatMap_cons] at ih
    rw [lines, h, List.modifyHead_cons, List.flatMap_cons, ← ih]
    · rfl
    · assumption
    · assumption

/-- Behind a line that is not the last one, the text goes on with the next. -/
theorem lines_flatMap_text (h : lines cs = l :: more) (hmore : more ≠ []) :
    lines (more.flatMap Line.text) = more := by
  induction cs using lines.induct generalizing l with
  | case1 =>
    cases h
    exact absurd rfl hmore
  | case2 rest | case3 rest =>
    rw [lines] at h
    cases h
    rw [flatMap_text_lines]
  | case4 c rest _ _ ih =>
    obtain ⟨first, others, hrest⟩ := exists_lines rest
    rw [lines, hrest, List.modifyHead_cons] at h
    · cases h
      exact ih hrest
    · assumption
    · assumption

/-- The first characters of a text, as long as they begin no break. -/
theorem lines_append {p : List Char} (hp : ∀ c ∈ p, c ≠ '\n' ∧ c ≠ '\r') (cs : List Char) :
    lines (p ++ cs) = (lines cs).modifyHead (Line.before p) := by
  induction p with
  | nil =>
    obtain ⟨l, more, h⟩ := exists_lines cs
    rw [List.nil_append, h]
    rfl
  | cons c p ih =>
    obtain ⟨hfeed, hreturn⟩ := hp c List.mem_cons_self
    have hnone : afterBreak? (c :: (p ++ cs)) = none := by
      rw [afterBreak?.eq_def]
      split <;> simp_all
    rw [List.cons_append, lines_cons hnone, ih fun d hd => hp d (List.mem_cons_of_mem _ hd),
      List.modifyHead_modifyHead]
    rfl

/-- Where a line is empty, the text is at its end or at a break. -/
theorem of_empty_line {ending : List Char} (h : lines cs = ⟨[], ending⟩ :: more) :
    (more = [] ∧ cs = []) ∨ (more ≠ [] ∧ afterBreak? cs = some (more.flatMap Line.text)) := by
  cases hbreak : afterBreak? cs with
  | some rest =>
    obtain ⟨_, -, hlines⟩ := lines_of_break hbreak
    rw [hlines] at h
    obtain ⟨-, rfl⟩ := List.cons.inj h
    rw [flatMap_text_lines]
    exact .inr ⟨lines_ne_nil rest, rfl⟩
  | none =>
    cases cs with
    | nil =>
      cases h
      exact .inl ⟨rfl, rfl⟩
    | cons c rest =>
      obtain ⟨l, others, hrest⟩ := exists_lines rest
      rw [lines_cons hbreak, hrest] at h
      cases h

/-! ### Fences -/

/-- Where hyphens begin a line, what follows them and the blanks is its rest, and the line is a
fence exactly if that is empty. -/
theorem lines_of_hyphens (h : afterHyphens? cs = some rest) :
    ∃ first more, lines rest = first :: more ∧
    ∃ l, lines cs = l :: more ∧ (l.isFence = true ↔ first.content = []) := by
  rw [afterHyphens?, Option.ite_none_right_eq_some, List.isPrefixOf_iff_prefix] at h
  obtain ⟨⟨behind, rfl⟩, hrest⟩ := h
  rw [List.drop_left, Option.some.injEq] at hrest
  obtain ⟨first, more, hfirst⟩ := exists_lines rest
  have hpads : ∀ c ∈ behind.takeWhile isPadding, isPadding c = true := fun c hc =>
    List.all_eq_true.1 List.all_takeWhile c hc
  refine ⟨first, more, hfirst, first.before (fence ++ behind.takeWhile isPadding), ?_, ?_⟩
  · have hplain : ∀ c ∈ fence ++ behind.takeWhile isPadding, c ≠ '\n' ∧ c ≠ '\r' := by
      intro c hc
      obtain hc | hc := List.mem_append.1 hc
      · simp only [fence, List.mem_cons, List.not_mem_nil, or_false, or_self] at hc
        rw [hc]
        decide
      · have hpad := hpads c hc
        constructor <;> rintro rfl <;> cases hpad
    calc lines (fence ++ behind)
        = lines ((fence ++ behind.takeWhile isPadding) ++ behind.dropWhile isPadding) := by
          rw [List.append_assoc, List.takeWhile_append_dropWhile]
      _ = _ := by rw [lines_append hplain, hrest, hfirst, List.modifyHead_cons]
  · have hfence : (first.before (fence ++ behind.takeWhile isPadding)).isFence =
        first.content.all isPadding := by
      rw [Line.isFence, Line.before, List.append_assoc, List.drop_left, List.all_append,
        List.all_eq_true.2 hpads, Bool.true_and, Bool.and_eq_right_iff_imp]
      exact fun _ => List.isPrefixOf_iff_prefix.2 (List.prefix_append _ _)
    rw [hfence]
    refine ⟨fun hall => ?_, fun hempty => by rw [hempty]; rfl⟩
    -- the rest begins with no blank
    cases hcontent : first.content with
    | nil => rfl
    | cons c content =>
      have htext := flatMap_text_lines rest
      rw [hfirst, List.flatMap_cons, Line.text, hcontent, ← hrest] at htext
      have hhead := List.head?_dropWhile_not isPadding behind
      rw [hcontent, List.all_cons, Bool.and_eq_true] at hall
      simp [← htext, hall.1] at hhead

/-- A first line that is a fence begins with hyphens, and behind them and the blanks the text ends
or the next line begins. -/
theorem isFence_iff (hlines : lines cs = l :: more) : l.isFence = true ↔
    ∃ behind, afterHyphens? cs = some behind ∧
      ((behind = [] ∧ more = []) ∨
        (afterBreak? behind = some (more.flatMap Line.text) ∧ more ≠ [])) := by
  constructor
  · intro hfence
    cases hhyphens : afterHyphens? cs with
    | none =>
      -- the text begins as the line does
      rw [Line.isFence, Bool.and_eq_true, List.isPrefixOf_iff_prefix] at hfence
      have htext := flatMap_text_lines cs
      rw [hlines, List.flatMap_cons, Line.text, List.append_assoc] at htext
      rw [afterHyphens?, if_pos] at hhyphens
      · cases hhyphens
      · rw [List.isPrefixOf_iff_prefix, ← htext]
        exact hfence.1.trans (List.prefix_append _ _)
    | some behind =>
      obtain ⟨first, others, hbehind, l', hl, hiff⟩ := lines_of_hyphens hhyphens
      rw [hlines] at hl
      obtain ⟨rfl, rfl⟩ := List.cons.inj hl
      obtain ⟨content, ending⟩ := first
      obtain rfl : content = [] := hiff.1 hfence
      exact ⟨behind, rfl, (of_empty_line hbehind).imp And.symm And.symm⟩
  · rintro ⟨behind, hhyphens, hends⟩
    obtain ⟨first, others, hbehind, l', hl, hiff⟩ := lines_of_hyphens hhyphens
    rw [hlines] at hl
    obtain ⟨rfl, rfl⟩ := List.cons.inj hl
    refine hiff.2 ?_
    obtain ⟨rfl, -⟩ | ⟨hbreak, -⟩ := hends
    · cases hbehind
      rfl
    · obtain ⟨ending, -, hbroken⟩ := lines_of_break hbreak
      rw [hbehind] at hbroken
      rw [(List.cons.inj hbroken).1]

/-- Where hyphens and blanks fill a line, it is a fence. -/
theorem exists_fence (hhyphens : afterHyphens? cs = some rest) :
    (rest = [] → ∃ l, lines cs = [l] ∧ l.isFence = true) ∧
      ∀ next, afterBreak? rest = some next → ∃ l, lines cs = l :: lines next ∧
        l.isFence = true := by
  obtain ⟨first, more, hrest, l, hlines, hiff⟩ := lines_of_hyphens hhyphens
  constructor
  · rintro rfl
    cases hrest
    exact ⟨l, hlines, hiff.2 rfl⟩
  · intro next hbreak
    obtain ⟨ending, -, hbroken⟩ := lines_of_break hbreak
    obtain ⟨rfl, rfl⟩ := List.cons.inj (hrest.symm.trans hbroken)
    exact ⟨l, hlines, hiff.2 rfl⟩

/-- An opening fence is a first line that is a fence and not the last line. -/
theorem afterOpening?_eq_some_iff : afterOpening? cs = some rest ↔ ∃ opening more,
    lines cs = opening :: more ∧ opening.isFence = true ∧ more ≠ [] ∧
      rest = more.flatMap Line.text := by
  rw [afterOpening?, Option.bind_eq_some_iff]
  constructor
  · rintro ⟨behind, hhyphens, hbreak⟩
    obtain ⟨l, hlines, hfence⟩ := (exists_fence hhyphens).2 rest hbreak
    exact ⟨l, _, hlines, hfence, lines_ne_nil rest, (flatMap_text_lines rest).symm⟩
  · rintro ⟨opening, more, hlines, hfence, hmore, rfl⟩
    obtain ⟨behind, hhyphens, ⟨-, hnil⟩ | ⟨hbreak, -⟩⟩ := (isFence_iff hlines).1 hfence
    · exact absurd hnil hmore
    · exact ⟨behind, hhyphens, hbreak⟩

/-- A closing fence is a line behind a break. -/
theorem afterClosing?_eq_some_iff : afterClosing? cs = some body ↔ ∃ rest closing after,
    afterBreak? cs = some rest ∧ lines rest = closing :: after ∧ closing.isFence = true ∧
      body = after.flatMap Line.text := by
  constructor
  · intro h
    rw [afterClosing?] at h
    obtain ⟨rest, hbreak, h⟩ := Option.bind_eq_some_iff.1 h
    obtain ⟨behind, hhyphens, h⟩ := Option.bind_eq_some_iff.1 h
    split at h
    · cases h
      obtain ⟨l, hlines, hfence⟩ := (exists_fence hhyphens).1 rfl
      exact ⟨rest, l, [], hbreak, hlines, hfence, rfl⟩
    · obtain ⟨l, hlines, hfence⟩ := (exists_fence hhyphens).2 body h
      exact ⟨rest, l, _, hbreak, hlines, hfence, (flatMap_text_lines body).symm⟩
  · rintro ⟨rest, closing, after, hbreak, hlines, hfence, rfl⟩
    obtain ⟨behind, hhyphens, hends⟩ := (isFence_iff hlines).1 hfence
    rw [afterClosing?, hbreak, Option.bind_eq_bind, Option.bind_some, hhyphens, Option.bind_some]
    obtain ⟨rfl, rfl⟩ | ⟨hnext, -⟩ := hends
    · rfl
    · split
      · cases hnext
      · exact hnext

/-! ### Blocks -/

/-- Whether some lines hold a fence, with what stands before the first one and what behind it. -/
def Closes (ls between after : List Line) : Prop :=
  ∃ closing, ls = between ++ closing :: after ∧ closing.isFence = true ∧
    ∀ l ∈ between, l.isFence = false

variable {ls between after : List Line} {first : Line}

theorem not_closes_nil : ¬ Closes [] between after := by
  rintro ⟨closing, h, -⟩
  simp at h

theorem closes_cons_of_fence (h : l.isFence = true) :
    Closes (l :: ls) between after ↔ between = [] ∧ after = ls := by
  constructor
  · rintro ⟨closing, heq, -, hbetween⟩
    cases between with
    | nil => exact ⟨rfl, (List.cons.inj heq).2.symm⟩
    | cons first inner =>
      have hfirst := hbetween first List.mem_cons_self
      rw [← (List.cons.inj heq).1, h] at hfirst
      cases hfirst
  · rintro ⟨rfl, rfl⟩
    exact ⟨l, rfl, h, fun _ hl => absurd hl List.not_mem_nil⟩

theorem closes_cons_of_not_fence (h : l.isFence = false) :
    Closes (l :: ls) between after ↔ ∃ inner, between = l :: inner ∧ Closes ls inner after := by
  constructor
  · rintro ⟨closing, heq, hclosing, hbetween⟩
    cases between with
    | nil =>
      rw [(List.cons.inj heq).1, hclosing] at h
      cases h
    | cons first inner =>
      obtain ⟨rfl, hrest⟩ := List.cons.inj heq
      exact ⟨inner, rfl, closing, hrest, hclosing,
        fun d hd => hbetween d (List.mem_cons_of_mem _ hd)⟩
  · rintro ⟨inner, rfl, closing, rfl, hclosing, hinner⟩
    exact ⟨closing, rfl, hclosing, List.forall_mem_cons.2 ⟨h, hinner⟩⟩

theorem joined_before (p : List Char) (l : Line) (ls : List Line) :
    joined (l.before p :: ls) = p ++ joined (l :: ls) := by
  cases ls with
  | nil => rfl
  | cons next more => simp [joined, Line.text, Line.before]

/-- Where the text does not go on with a closing fence, the character belongs to the block. -/
theorem splitAtClosing?_cons {c : Char} (h : afterClosing? (c :: rest) = none) :
    splitAtClosing? (c :: rest) = some (block, body) ↔
      ∃ inner, splitAtClosing? rest = some (inner, body) ∧ block = c :: inner := by
  rw [splitAtClosing?, h]
  constructor
  · intro hsplit
    obtain ⟨⟨inner, behind⟩, hinner, heq⟩ := Option.map_eq_some_iff.1 hsplit
    cases heq
    exact ⟨inner, hinner, rfl⟩
  · rintro ⟨inner, hinner, rfl⟩
    rw [hinner]
    rfl

/-- So does a break that no closing fence follows, with both of its characters. -/
theorem splitAtClosing?_of_break (hbreak : afterBreak? cs = some rest)
    (h : afterClosing? cs = none) :
    ∃ ending, lines cs = ⟨[], ending⟩ :: lines rest ∧
      ∀ {block body}, splitAtClosing? cs = some (block, body) ↔
        ∃ inner, splitAtClosing? rest = some (inner, body) ∧ block = ending ++ inner := by
  rw [afterBreak?.eq_def] at hbreak
  split at hbreak
  · cases hbreak
    exact ⟨['\n'], lines_feed rest, splitAtClosing?_cons h⟩
  · cases hbreak
    -- what follows a break is the same behind its second character
    have hfeed : afterClosing? ('\n' :: rest) = none := h
    refine ⟨['\r', '\n'], lines_return_feed rest, fun {block body} => ?_⟩
    rw [splitAtClosing?_cons h]
    simp only [splitAtClosing?_cons hfeed]
    constructor
    · rintro ⟨_, ⟨inner, hinner, rfl⟩, rfl⟩
      exact ⟨inner, hinner, rfl⟩
    · rintro ⟨inner, hinner, rfl⟩
      exact ⟨_, ⟨inner, hinner, rfl⟩, rfl⟩
  · cases hbreak

theorem splitAtClosing?_of_closing (h : afterClosing? cs = some body) :
    splitAtClosing? cs = some ([], body) := by
  cases cs with
  | nil => cases h
  | cons c rest => rw [splitAtClosing?, h]

/-- Whether from a place in a line on, the block goes up to the first fence among the lines that
follow. -/
def IsCutAtFence (cs : List Char) : Prop :=
  ∀ {first : Line} {more : List Line} {block body : List Char}, lines cs = first :: more →
    (splitAtClosing? cs = some (block, body) ↔ ∃ between after, Closes more between after ∧
      block = joined (first :: between) ∧ body = after.flatMap Line.text)

/-- At the end of a line, the next one decides. -/
theorem IsCutAtFence.of_break (hbreak : afterBreak? cs = some rest) (h : IsCutAtFence rest) :
    IsCutAtFence cs := by
  intro first more block body hlines
  cases hclosing : afterClosing? cs with
  | some found =>
    -- the next line is a fence, and the block ends before it
    obtain ⟨next, closing, others, hnext, hclosed, hfence, rfl⟩ :=
      afterClosing?_eq_some_iff.1 hclosing
    obtain ⟨ending, -, hbroken⟩ := lines_of_break hnext
    rw [hbroken, hclosed] at hlines
    obtain ⟨rfl, rfl⟩ := List.cons.inj hlines
    rw [splitAtClosing?_of_closing hclosing]
    simp only [closes_cons_of_fence hfence]
    constructor
    · intro heq
      cases heq
      exact ⟨[], others, ⟨rfl, rfl⟩, rfl, rfl⟩
    · rintro ⟨_, _, ⟨rfl, rfl⟩, rfl, rfl⟩
      rfl
  | none =>
    -- the next line belongs to the block, which is cut where the rest of the text is
    obtain ⟨l, behind, hrest⟩ := exists_lines rest
    have hfence : l.isFence = false := Bool.eq_false_iff.2 fun hfence => by
      rw [afterClosing?_eq_some_iff.2 ⟨rest, l, behind, hbreak, hrest, hfence, rfl⟩] at hclosing
      cases hclosing
    obtain ⟨ending, hbroken, hcut⟩ := splitAtClosing?_of_break hbreak hclosing
    rw [hbroken, hrest] at hlines
    obtain ⟨rfl, rfl⟩ := List.cons.inj hlines
    simp only [hcut, h hrest, closes_cons_of_not_fence hfence]
    constructor
    · rintro ⟨_, ⟨between, after, hcloses, rfl, rfl⟩, rfl⟩
      exact ⟨_, after, ⟨between, rfl, hcloses⟩, rfl, rfl⟩
    · rintro ⟨_, after, ⟨between, rfl, hcloses⟩, rfl, rfl⟩
      exact ⟨_, ⟨between, after, hcloses, rfl, rfl⟩, rfl⟩

/-- Within a line, the character belongs to the block. -/
theorem IsCutAtFence.cons {c : Char} (hbreak : afterBreak? (c :: rest) = none)
    (h : IsCutAtFence rest) :
    IsCutAtFence (c :: rest) := by
  intro first more block body hlines
  have hclosing : afterClosing? (c :: rest) = none := by
    rw [afterClosing?, hbreak]
    rfl
  obtain ⟨l, behind, hrest⟩ := exists_lines rest
  rw [lines_cons hbreak, hrest, List.modifyHead_cons] at hlines
  obtain ⟨rfl, rfl⟩ := List.cons.inj hlines
  simp only [splitAtClosing?_cons hclosing, h hrest, joined_before, List.singleton_append]
  constructor
  · rintro ⟨_, ⟨between, after, hcloses, rfl, rfl⟩, rfl⟩
    exact ⟨between, after, hcloses, rfl, rfl⟩
  · rintro ⟨between, after, hcloses, rfl, rfl⟩
    exact ⟨_, ⟨between, after, hcloses, rfl, rfl⟩, rfl⟩

theorem isCutAtFence (cs : List Char) : IsCutAtFence cs := by
  induction cs using lines.induct with
  | case1 =>
    intro first more block body hlines
    cases hlines
    exact ⟨nofun, fun ⟨_, _, hcloses, _⟩ => absurd hcloses not_closes_nil⟩
  | case2 rest ih | case3 rest ih => exact IsCutAtFence.of_break rfl ih
  | case4 c rest hfeed hreturn ih =>
    refine IsCutAtFence.cons ?_ ih
    rw [afterBreak?.eq_def]
    split <;> simp_all

/-! ### Texts -/

/-- Whether the first line of a text is a fence, a block follows it up to the first fence behind,
and what comes then is the body. -/
def EndsAtFirstFence (cs block body : List Char) : Prop :=
  ∃ opening more between after, lines cs = opening :: more ∧ opening.isFence = true ∧
    Closes more between after ∧ block = joined between ∧ body = after.flatMap Line.text

/-- The same, where the line behind the opening fence belongs to the block whatever it is. -/
def EndsAtFence (cs block body : List Char) : Prop :=
  ∃ opening first more between after, lines cs = opening :: first :: more ∧ opening.isFence = true ∧
    Closes more between after ∧ block = joined (first :: between) ∧ body = after.flatMap Line.text

/-- Whether the line behind an opening fence is a fence, too. -/
def fencesTouch (cs : List Char) : Bool :=
  match lines cs with
  | opening :: first :: _ => opening.isFence && first.isFence
  | _ => false

/-- A text is cut at its fences. -/
theorem split?_eq_some_iff : split? cs = some (block, body) ↔ EndsAtFence cs block body := by
  rw [split?, Option.bind_eq_some_iff]
  constructor
  · rintro ⟨rest, hopening, hsplit⟩
    obtain ⟨opening, more, hlines, hfence, hmore, rfl⟩ := afterOpening?_eq_some_iff.1 hopening
    have hrest := lines_flatMap_text hlines hmore
    obtain ⟨first, others, rfl⟩ := List.exists_cons_of_ne_nil hmore
    obtain ⟨between, after, hcloses, hblock, hbody⟩ := (isCutAtFence _ hrest).1 hsplit
    exact ⟨opening, first, others, between, after, hlines, hfence, hcloses, hblock, hbody⟩
  · rintro ⟨opening, first, more, between, after, hlines, hfence, hcloses, hblock, hbody⟩
    have hmore : first :: more ≠ [] := List.cons_ne_nil _ _
    exact ⟨_, afterOpening?_eq_some_iff.2 ⟨opening, _, hlines, hfence, hmore, rfl⟩,
      (isCutAtFence _ (lines_flatMap_text hlines hmore)).2
        ⟨between, after, hcloses, hblock, hbody⟩⟩

/-- A block that goes on with a fence has characters. -/
theorem joined_ne_nil (h : l.isFence = true) (ls : List Line) : joined (l :: ls) ≠ [] := by
  have hcontent : l.content ≠ [] := by
    rintro hnil
    rw [Line.isFence, hnil] at h
    cases h
  cases ls with
  | nil => exact hcontent
  | cons next more => simp [joined, Line.text, hcontent]

/-- Both rules agree on a text exactly if its fences do not touch. -/
theorem endsAtFirstFence_iff :
    (∀ block body, EndsAtFence cs block body ↔ EndsAtFirstFence cs block body) ↔
    fencesTouch cs = false := by
  constructor
  · intro hsame
    rw [fencesTouch]
    split
    · rename_i opening first more hlines
      rw [Bool.eq_false_iff]
      intro htouch
      obtain ⟨hopening, hfirst⟩ := Bool.and_eq_true_iff.1 htouch
      -- one rule ends the block at once, the other one takes the second fence into it
      obtain ⟨_, first', more', between, after, hlines', -, -, hblock, -⟩ := (hsame [] _).2
        ⟨opening, _, [], more, hlines, hopening,
          (closes_cons_of_fence hfirst).2 ⟨rfl, rfl⟩, rfl, rfl⟩
      rw [hlines] at hlines'
      obtain ⟨rfl, -⟩ := List.cons.inj (List.cons.inj hlines').2
      exact joined_ne_nil hfirst between hblock.symm
    · rfl
  · intro htouch block body
    have hfirst : ∀ {opening first : Line} {more : List Line}, lines cs = opening :: first :: more →
        opening.isFence = true → first.isFence = false := by
      intro opening first more hlines hopening
      rw [fencesTouch, hlines] at htouch
      exact (Bool.and_eq_false_iff.1 htouch).resolve_left (ne_false_of_eq_true hopening)
    constructor
    · rintro ⟨opening, first, more, between, after, hlines, hopening, hcloses, hblock, hbody⟩
      exact ⟨opening, _, _, after, hlines, hopening,
        (closes_cons_of_not_fence (hfirst hlines hopening)).2 ⟨between, rfl, hcloses⟩,
        hblock, hbody⟩
    · rintro ⟨opening, more, between, after, hlines, hopening, hcloses, hblock, hbody⟩
      cases more with
      | nil => exact absurd hcloses not_closes_nil
      | cons first more =>
        obtain ⟨inner, rfl, hinner⟩ :=
          (closes_cons_of_not_fence (hfirst hlines hopening)).1 hcloses
        exact ⟨opening, first, more, inner, after, hlines, hopening, hinner, hblock, hbody⟩

/-- A fence behind an opening one is there whether or not it is the one that counts. -/
theorem EndsAtFence.exists_first (h : EndsAtFence cs block body) :
    ∃ block body, EndsAtFirstFence cs block body := by
  obtain ⟨opening, first, more, between, after, hlines, hopening, hcloses, -, -⟩ := h
  by_cases hfirst : first.isFence = true
  · exact ⟨_, _, opening, _, [], more, hlines, hopening,
      (closes_cons_of_fence hfirst).2 ⟨rfl, rfl⟩, rfl, rfl⟩
  · exact ⟨_, _, opening, _, _, after, hlines, hopening,
      (closes_cons_of_not_fence (Bool.eq_false_iff.2 hfirst)).2 ⟨between, rfl, hcloses⟩, rfl, rfl⟩

/-- What reading the front matter of a text gives, by the lines of the text. -/
structure ReadsByLines (text : String) : Prop where
  /-- A text that is cut at its fences gives the fields of the block and all that follows. -/
  of_fence : ∀ block body, EndsAtFence text.toList block body →
    read text = (fields (String.ofList block)).map fun found => (found, String.ofList body)
  /-- Any other text is all body. -/
  of_no_fence : (∀ block body, ¬ EndsAtFence text.toList block body) → read text = .ok ([], text)
  /-- So is a text without a fence behind an opening one. -/
  of_no_first : (∀ block body, ¬ EndsAtFirstFence text.toList block body) →
    read text = .ok ([], text)
  /-- The block ends at the first fence, unless that touches the opening one. -/
  first_iff : (∀ block body, EndsAtFence text.toList block body ↔
    EndsAtFirstFence text.toList block body) ↔ fencesTouch text.toList = false

theorem read_of_fences (text : String) : ReadsByLines text := by
  have hnone : (∀ block body, ¬ EndsAtFence text.toList block body) →
      read text = .ok ([], text) := by
    intro h
    have hsplit : split? text.toList = none :=
      Option.eq_none_iff_forall_ne_some.2 fun found hfound => h _ _ (split?_eq_some_iff.1 hfound)
    rw [read, hsplit]
    rfl
  refine ⟨fun block body h => ?_, hnone, fun h => hnone fun block body hends => ?_,
    endsAtFirstFence_iff⟩
  · rw [read, split?_eq_some_iff.2 h]
    rfl
  · obtain ⟨block, body, hfirst⟩ := hends.exists_first
    exact h block body hfirst

/-- A text with breaks of both kinds, and blanks behind its closing fence. -/
def mixedText : String := "---\r\na: 1\r\n--- \t\nbody\n---\n"

theorem read_of_fences_mixedText :
    EndsAtFence mixedText.toList "a: 1".toList "body\n---\n".toList ∧
      read mixedText = (fields "a: 1").map (fun found => (found, "body\n---\n")) ∧
      (read mixedText).toOption.map (fun found => found.1.names) = some ["a"] := by
  have hends : EndsAtFence mixedText.toList "a: 1".toList "body\n---\n".toList :=
    ⟨_, _, _, [], _, rfl, rfl, ⟨_, rfl, rfl, fun _ h => absurd h List.not_mem_nil⟩, rfl, rfl⟩
  exact ⟨hends, (read_of_fences mixedText).of_fence _ _ hends, by decide +kernel⟩

/-- A text whose first two fences touch. -/
def touchingText : String := "---\n---\nbody\n---\nrest"

/-- The block ends at the third fence, and what stands between this one and the second is lost in
it. -/
theorem read_touchingText :
    EndsAtFirstFence touchingText.toList [] "body\n---\nrest".toList ∧
      EndsAtFence touchingText.toList "---\nbody".toList "rest".toList ∧
      (read touchingText).toOption.map (fun found => (found.1.names, found.2)) = some ([], "rest") := by
  refine ⟨?_, ?_, by decide +kernel⟩
  · exact ⟨_, _, [], _, rfl, rfl, ⟨_, rfl, rfl, fun _ h => absurd h List.not_mem_nil⟩, rfl, rfl⟩
  · exact ⟨_, _, _, [_], _, rfl, rfl, ⟨_, rfl, rfl, List.forall_mem_singleton.2 rfl⟩, rfl, rfl⟩

end FrontMatter

end RepoGraph
