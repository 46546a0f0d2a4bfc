import RepoGraph.Enrich.Describing
import RepoGraph.Proofs.Extract.Fences
import RepoGraph.Proofs.Path
import RepoGraph.Proofs.Project

/-!
# Summaries are single lines

`Summary.IsLine` says what a summary is made of: text without a line feed that has no blanks at its
ends and is not empty.  The lines that go into a summary are such, so is what joins them, and so is
what is left when the joined line is cut and three dots are put behind it.  A single line of at most
four hundred characters is its own summary, so a summary is.

Main statements: `Summary.ofText_of_isLine`, `Summary.isSummary_ofText`.
-/

namespace RepoGraph

namespace Summary

open FrontMatter (Line lines)

variable {s t text : String} {filled : List String}

/-! ### The lines of a text -/

/-- Once the line ends are unified, the text is cut at every line feed. -/
theorem splitAt_unifyLineEnds (cs : List Char) :
    Text.splitAt (· == '\n') (unifyLineEnds cs) = (lines cs).map Line.content := by
  have hfeed (rest : List Char) : Text.splitAt (· == '\n') ('\n' :: rest) =
      [] :: Text.splitAt (· == '\n') rest := Text.splitAt_append_cons rfl [] rest
  induction cs using FrontMatter.lines.induct with
  | case1 => rfl
  | case2 rest ih =>
    rw [FrontMatter.lines_feed, unifyLineEnds, hfeed, ih, List.map_cons]
    exact fun more hreturn _ => absurd hreturn (by decide)
  | case3 rest ih => rw [FrontMatter.lines_return_feed, unifyLineEnds, hfeed, ih, List.map_cons]
  | case4 c rest hfeed hreturn ih =>
    obtain ⟨l, more, hrest⟩ := FrontMatter.exists_lines rest
    have hc : (c == '\n') = false := beq_eq_false_iff_ne.2 hfeed
    rw [lines, hrest, List.modifyHead_cons, List.map_cons, unifyLineEnds, Text.splitAt, ih, hrest,
      List.map_cons]
    · simp [hc, Line.before]
    · exact hreturn
    · exact hfeed
    · exact hreturn

/-- The lines of a text that hold more than blanks, without the blanks around them. -/
def writtenLines (text : String) : List String :=
  ((lines text.toList).map fun l => Text.strip (String.ofList l.content)).filter (· != "")

/-- The first five of these lines, joined by single spaces. -/
def opening (text : String) : String := " ".intercalate ((writtenLines text).take 5)

theorem filledLines_eq (text : String) : filledLines text = writtenLines text := by
  rw [filledLines, splitAt_unifyLineEnds, List.map_map, writtenLines]
  congr 2
  funext l
  rw [Function.comp_apply, Text.strip, Text.trim, String.toList_ofList]

theorem joined_eq (text : String) : joined text = opening text := by
  rw [joined, filledLines_eq]
  rfl

/-! ### Single lines -/

/-- A text of one line that neither begins nor ends with a blank and is not empty. -/
structure IsLine (s : String) : Prop where
  ne_empty : s ≠ ""
  feed : '\n' ∉ s.toList
  head : ∀ c, s.toList.head? = some c → Text.isBlank c = false
  last : ∀ c, s.toList.getLast? = some c → Text.isBlank c = false

theorem isLine_of_mem_filledLines (h : s ∈ filledLines text) : IsLine s := by
  rw [filledLines, List.mem_filter, List.mem_map] at h
  obtain ⟨⟨line, hline, rfl⟩, hne⟩ := h
  refine ⟨by simpa using hne, ?_, ?_, ?_⟩
  · rw [String.toList_ofList]
    intro hmem
    exact absurd (Text.not_of_mem_splitAt hline '\n' (Text.mem_of_mem_trimChars hmem)) (by simp)
  · rw [String.toList_ofList]
    exact Text.head?_trimChars _ _
  · rw [String.toList_ofList]
    exact Text.getLast?_trimChars _ _

namespace IsLine

theorem toList_ne_nil (h : IsLine s) : s.toList ≠ [] := fun hnil =>
  h.ne_empty (by rw [← String.ofList_toList (s := s), hnil])

/-- Text between the beginning of one line and the end of another is a line if it has no line
feed. -/
theorem append (hs : IsLine s) {between : String} (hbetween : '\n' ∉ between.toList)
    (ht : IsLine t) :
    IsLine (s ++ between ++ t) where
  ne_empty h := hs.ne_empty (by simp_all)
  feed := by simp [hs.feed, hbetween, ht.feed]
  head c hc := by
    rw [String.toList_append, String.toList_append, List.append_assoc,
      List.head?_append_of_ne_nil _ hs.toList_ne_nil] at hc
    exact hs.head c hc
  last c hc := by
    rw [String.toList_append, List.getLast?_append_of_ne_nil _ ht.toList_ne_nil] at hc
    exact ht.last c hc

end IsLine

theorem isLine_intercalate (hne : filled ≠ []) (h : ∀ l ∈ filled, IsLine l) :
    IsLine (" ".intercalate filled) := by
  induction filled with
  | nil => exact absurd rfl hne
  | cons l rest ih =>
    have hl := h l List.mem_cons_self
    by_cases hrest : rest = []
    · rwa [hrest, String.intercalate_singleton]
    · rw [String.intercalate_cons_of_ne_nil hrest]
      exact hl.append (by decide) (ih hrest fun m hm => h m (List.mem_cons_of_mem _ hm))

/-- A line is the one line of its text. -/
theorem filledLines_of_isLine (h : IsLine s) : filledLines s = [s] := by
  have hends (cs : List Char) (hcs : '\n' ∉ cs) : unifyLineEnds cs = cs := by
    induction cs using unifyLineEnds.induct with
    | case1 => rfl
    | case2 rest => simp at hcs
    | case3 c rest hreturn ih =>
      rw [unifyLineEnds, ih fun hmem => hcs (List.mem_cons_of_mem _ hmem)]
      exact hreturn
  have hsplit : Text.splitAt (· == '\n') s.toList = [s.toList] :=
    Text.splitAt_of_forall_not fun c hc => beq_eq_false_iff_ne.2 fun heq => h.feed (heq ▸ hc)
  have htrim : Text.trimChars Text.isBlank s.toList = s.toList :=
    Text.trimChars_eq_self h.head h.last
  rw [filledLines, hends _ h.feed, hsplit, List.map_singleton, htrim, String.ofList_toList]
  exact List.filter_eq_self.2 fun l hl => by
    rw [List.mem_singleton.1 hl]
    exact bne_iff_ne.2 h.ne_empty

/-- A line that is not too long is its own summary. -/
theorem ofText_of_isLine (h : IsLine s) (hlength : s.length ≤ 400) : ofText s = s := by
  have hjoined : joined s = s := by
    rw [joined, filledLines_of_isLine h]
    simp [lineLimit]
  have hlimit : ¬ lengthLimit < s.length := Nat.not_lt.2 hlength
  rw [ofText, hjoined, if_neg (by simpa using h.ne_empty)]
  simp [hlimit, h.ne_empty]

/-! ### Summaries -/

/-- A line that is cut and has dots behind is a line. -/
theorem isLine_take (h : IsLine s) : IsLine (Text.take 397 s ++ "...") where
  ne_empty hempty := by simp at hempty
  feed := by
    rw [String.toList_append, Text.take, String.toList_ofList, List.mem_append]
    rintro (hmem | hmem)
    · exact h.feed (List.mem_of_mem_take hmem)
    · exact absurd hmem (by decide)
  head c hc := by
    obtain ⟨first, rest, hs⟩ := List.exists_cons_of_ne_nil h.toList_ne_nil
    rw [String.toList_append, Text.take, String.toList_ofList, hs, List.take_succ_cons,
      List.cons_append, List.head?_cons] at hc
    exact h.head c (by rw [hs, List.head?_cons, hc])
  last c hc := by
    rw [String.toList_append, List.getLast?_append_of_ne_nil _ (by decide)] at hc
    obtain rfl : '.' = c := Option.some.inj hc
    decide

theorem isLine_opening (h : writtenLines text ≠ []) : IsLine (opening text) := by
  rw [← filledLines_eq] at h
  rw [← joined_eq, joined]
  refine isLine_intercalate ?_ fun l hl => isLine_of_mem_filledLines (List.mem_of_mem_take hl)
  simpa [lineLimit] using h

/-- What the summary of a text is. -/
structure IsSummary (text summary : String) : Prop where
  length_le : summary.length ≤ 400
  no_feed : '\n' ∉ summary.toList
  not_blank : ∃ c ∈ summary.toList, Text.isBlank c = false
  stable : ofText summary = summary
  empty : writtenLines text = [] →
    summary = if text = "" then "No content available." else "Summary not available."
  whole : writtenLines text ≠ [] → (opening text).length ≤ 400 → summary = opening text
  cut : 400 < (opening text).length → summary = Text.take 397 (opening text) ++ "..."

theorem opening_of_nil (h : writtenLines text = []) : opening text = "" := by
  rw [opening, h]
  rfl

/-- The summary of a text in terms of its lines. -/
theorem ofText_eq (text : String) :
    ofText text =
      if writtenLines text = [] then
        if text = "" then "No content available." else "Summary not available."
      else if 400 < (opening text).length then Text.take 397 (opening text) ++ "..."
      else opening text := by
  rw [ofText, joined_eq]
  by_cases hlines : writtenLines text = []
  · rw [if_pos hlines, opening_of_nil hlines]
    by_cases htext : text = ""
    · simp [htext]
    · simp [htext, lengthLimit]
  · have htext : text ≠ "" := by
      rintro rfl
      exact hlines rfl
    have hopening := (isLine_opening hlines).ne_empty
    rw [if_neg hlines, if_neg (by simpa using htext)]
    simp [hopening, lengthLimit]

/-- A text without a line feed is a line if a character that is not blank stands at each end. -/
theorem isLine_of_ends {first last : Char} (hfeed : '\n' ∉ s.toList)
    (hhead : s.toList.head? = some first) (hlast : s.toList.getLast? = some last)
    (hfirst : Text.isBlank first = false) (hend : Text.isBlank last = false) : IsLine s where
  ne_empty := by
    rintro rfl
    cases hhead
  feed := hfeed
  head c hc := by
    obtain rfl : first = c := Option.some.inj (hhead.symm.trans hc)
    exact hfirst
  last c hc := by
    obtain rfl : last = c := Option.some.inj (hlast.symm.trans hc)
    exact hend

theorem isLine_ofText (text : String) : IsLine (ofText text) := by
  rw [ofText_eq]
  split
  · split
    · exact isLine_of_ends (by decide) rfl rfl (by decide) (by decide)
    · exact isLine_of_ends (by decide) rfl rfl (by decide) (by decide)
  · rename_i hlines
    split
    · exact isLine_take (isLine_opening hlines)
    · exact isLine_opening hlines

theorem length_ofText_le (text : String) : (ofText text).length ≤ 400 := by
  rw [ofText_eq]
  split
  · split
    · decide
    · decide
  · split
    · have hcut : (Text.take 397 (opening text)).length ≤ 397 := by
        rw [Text.take, String.length_ofList]
        exact List.length_take_le _ _
      have hdots : "...".length = 3 := rfl
      rw [String.length_append]
      omega
    · rename_i hlength
      exact Nat.le_of_not_lt hlength

/-- Every text has a summary: a line of bounded length that is its own summary, and the opening of
the text as far as there is room. -/
theorem isSummary_ofText (text : String) : IsSummary text (ofText text) where
  length_le := length_ofText_le text
  no_feed := (isLine_ofText text).feed
  not_blank := by
    have hline := isLine_ofText text
    obtain ⟨c, rest, hcs⟩ := List.exists_cons_of_ne_nil hline.toList_ne_nil
    exact ⟨c, by rw [hcs]; exact List.mem_cons_self, hline.head c (by rw [hcs, List.head?_cons])⟩
  stable := ofText_of_isLine (isLine_ofText text) (length_ofText_le text)
  empty hlines := by rw [ofText_eq, if_pos hlines]
  whole hlines hlength := by rw [ofText_eq, if_neg hlines, if_neg (Nat.not_lt.2 hlength)]
  cut hlength := by
    have hlines : writtenLines text ≠ [] := by
      intro hnil
      rw [opening_of_nil hnil] at hlength
      exact absurd hlength (by decide)
    rw [ofText_eq, if_neg hlines, if_pos hlength]

end Summary

end RepoGraph
