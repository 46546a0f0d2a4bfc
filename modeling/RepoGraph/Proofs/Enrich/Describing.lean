import RepoGraph.Enrich.Describing
import RepoGraph.Proofs.Enrich.Embedding
import RepoGraph.Proofs.Json.Search

/-!
# The two parts of what is said about an entity

A code entity gets a vector, and what a chat model says about it.  `ChatOutcome` is what can come of
asking the model, and `ChatOutcome.Describes` tells what the entity then gets of it, which depends
on nothing else.  Whatever the model replies, the vector is the one that was answered.

Only an embedder that fails takes the description away with the vector, and it fails in one case
alone: where more than 1025 attempts are made, with pauses in double precision, and 1025 of them
fail.

Main statements: `Semantic.isReading_read`, `ChatOutcome.describes_said`,
`CodeEnricher.isEnriched_enrich`.
-/

namespace RepoGraph

/-! ### Well-formed descriptions -/

namespace Semantic

variable {answer : Fields} {name : String}

/-- Whether what is said is all that is well formed in an object. -/
structure IsReading (answer : Fields) (x : Enrichment) : Prop where
  description : ∀ s, x.description = some s ↔
    ∃ t, answer.get? "semanticDescription" = some (.str t) ∧ s = Text.strip t ∧ s ≠ ""
  purpose : ∀ s, x.purpose = some s ↔
    ∃ t, answer.get? "purpose" = some (.str t) ∧ s = Text.strip t ∧ s ≠ ""
  role : ∀ s, x.role = some s ↔
    ∃ t, answer.get? "architecturalRole" = some (.str t) ∧ s = Text.strip t ∧ s ≠ ""
  patterns : ∀ ps, x.patterns = some ps ↔
    ∃ items, answer.get? "patterns" = some (.arr items) ∧ ps = items.filterMap patternText
  complexity : ∀ n, x.complexity = some n ↔ 1 ≤ n ∧ n ≤ 10 ∧
    (answer.get? "complexity" = some (.int n) ∨
      ∃ y : Binary64, answer.get? "complexity" = some (.float y) ∧ y.isInteger = true ∧
        y.truncate = n)

theorem filledText_eq_some_iff (answer : Fields) (name s : String) :
    filledText answer name = some s ↔
      ∃ t, answer.get? name = some (.str t) ∧ s = Text.strip t ∧ s ≠ "" := by
  rw [filledText]
  split
  · rename_i t hvalue
    rw [hvalue]
    simp only [beq_iff_eq, Option.some.injEq, Json.str.injEq, exists_eq_left']
    split
    · rename_i hblank
      exact ⟨fun h => (nomatch h), fun h => absurd (h.1.trans hblank) h.2⟩
    · rename_i hfilled
      exact ⟨fun h => Option.some.inj h ▸ ⟨rfl, hfilled⟩, fun h => congrArg some h.1.symm⟩
  · rename_i hother
    exact ⟨fun h => (nomatch h), fun ⟨t, ht, _⟩ => (hother t ht).elim⟩

theorem patterns_eq_some_iff (answer : Fields) (ps : List String) :
    patterns answer = some ps ↔
      ∃ items, answer.get? "patterns" = some (.arr items) ∧ ps = items.filterMap patternText := by
  rw [Semantic.patterns]
  split
  · rename_i items hvalue
    rw [hvalue]
    simp only [Option.some.injEq, Json.arr.injEq, exists_eq_left', eq_comm]
  · rename_i hother
    exact ⟨fun h => (nomatch h), fun ⟨items, hitems, _⟩ => (hother items hitems).elim⟩

theorem complexity_eq_some_iff (answer : Fields) (n : ℤ) :
    complexity answer = some n ↔ 1 ≤ n ∧ n ≤ 10 ∧
      (answer.get? "complexity" = some (.int n) ∨
        ∃ y : Binary64, answer.get? "complexity" = some (.float y) ∧ y.isInteger = true ∧
          y.truncate = n) := by
  -- a number is taken only from one to ten
  have hrange (m : ℤ) : (if 1 ≤ m ∧ m ≤ 10 then some m else none) = some n ↔
      1 ≤ n ∧ n ≤ 10 ∧ m = n := by
    rw [Option.ite_none_right_eq_some, Option.some.injEq]
    omega
  rw [Semantic.complexity]
  split
  · rename_i m hvalue
    rw [hrange, hvalue]
    simp
  · rename_i y hvalue
    rw [hvalue]
    split
    · rename_i hinteger
      rw [hrange]
      simp [hinteger]
    · rename_i hfraction
      simp [hfraction]
  · rename_i hint hfloat
    refine ⟨fun h => (nomatch h), ?_⟩
    rintro ⟨-, -, hvalue | ⟨y, hvalue, -⟩⟩
    · exact (hint n hvalue).elim
    · exact (hfloat y hvalue).elim

/-- What is read of an object is all that is well formed in it. -/
theorem isReading_read (answer : Fields) : IsReading answer (read answer) where
  description := filledText_eq_some_iff answer _
  purpose := filledText_eq_some_iff answer _
  role := filledText_eq_some_iff answer _
  patterns := patterns_eq_some_iff answer
  complexity := complexity_eq_some_iff answer

end Semantic

/-- Only one object is the first one of a text. -/
theorem Json.IsFirst.eq {cs : List Char} {found found' : Fields} (h : IsFirst cs found)
    (h' : IsFirst cs found') : found = found' := by
  obtain ⟨i, j, hobject, hfirst⟩ | ⟨hnone, rfl⟩ := h
  · obtain ⟨i', j', hobject', hfirst'⟩ | ⟨hnone', -⟩ := h'
    · have hplace : i' = i ∧ j' = j := by
        have hbefore := hfirst i' j' found' hobject'
        have hafter := hfirst' i j found hobject
        omega
      obtain ⟨rfl, rfl⟩ := hplace
      exact (Json.obj.inj (Except.ok.inj (hobject.reads.symm.trans hobject'.reads)))
    · exact (hnone' i j found hobject).elim
  · obtain ⟨i', j', hobject', -⟩ | ⟨-, rfl⟩ := h'
    · exact (hnone i' j' found' hobject').elim
    · rfl

/-- The object that a text is read as is the first one of the text. -/
theorem Json.isFirst_of_read {text : String} {fields : Fields} (h : read text = .ok (.obj fields)) :
    IsFirst text.toList fields := by
  obtain ⟨blanks, cs, blanks', htext, hblanks, -, hspells⟩ := read_eq_ok_iff.1 h
  have hopen : '\x7b' ∉ blanks := fun hmem => absurd (hblanks _ hmem) (by decide)
  have hfound : findObjectChars text.toList = fields := by
    rw [htext, findObjectChars_append hopen]
    exact findObjectChars_object hspells _
  exact hfound ▸ isFirst_findObjectChars text.toList

/-! ### What a chat model can reply -/

/-- What comes of asking a chat model: there is none, asking fails, or it replies, perhaps without a
text. -/
inductive ChatOutcome where
  | noModel
  | failed (f : Failure)
  | replied (text : Option String)

namespace ChatOutcome

/-- Whether a reply holds an object that is not empty, the first one in its text. -/
def Holds (o : ChatOutcome) (answer : Fields) : Prop :=
  ∃ text, o = .replied (some text) ∧ Json.IsFirst text.toList answer ∧ answer ≠ []

/-- Whether all that is said, the vector aside, is what came of asking a chat model. -/
structure Describes (o : ChatOutcome) (x : Enrichment) : Prop where
  nothing : (¬ ∃ answer, o.Holds answer) →
    x.description = none ∧ x.purpose = none ∧ x.patterns = none ∧ x.role = none ∧
      x.complexity = none
  reading : ∀ answer, o.Holds answer → Semantic.IsReading answer x
  texts : ∀ s, x.description = some s ∨ x.purpose = some s ∨ x.role = some s →
    s ≠ "" ∧ Text.strip s = s
  complexity : ∀ n, x.complexity = some n → 1 ≤ n ∧ n ≤ 10

/-- What is said after asking a chat model. -/
def said : ChatOutcome → Enrichment
  | replied text =>
    if (Json.findObject text).isEmpty then .none else Semantic.read (Json.findObject text)
  | _ => .none

variable {o : ChatOutcome} {x : Enrichment} {answer : Fields}

theorem holds_replied_iff {text : Option String} :
    (replied text).Holds answer ↔ answer = Json.findObject text ∧ answer ≠ [] := by
  constructor
  · rintro ⟨found, htext, hfirst, hfilled⟩
    cases htext
    exact ⟨hfirst.eq (Json.isFirst_findObjectChars _), hfilled⟩
  · rintro ⟨rfl, hfilled⟩
    cases text with
    | none => exact absurd rfl hfilled
    | some text => exact ⟨text, rfl, Json.isFirst_findObjectChars _, hfilled⟩

theorem said_of_holds (h : o.Holds answer) : o.said = Semantic.read answer := by
  obtain ⟨text, rfl, hfirst, hfilled⟩ := h
  obtain ⟨hfound, -⟩ := holds_replied_iff.1 ⟨text, rfl, hfirst, hfilled⟩
  rw [said, ← hfound, if_neg (by simpa using hfilled)]

theorem said_of_not_holds (h : ¬ ∃ answer, o.Holds answer) : o.said = .none := by
  cases o with
  | noModel => rfl
  | failed f => rfl
  | replied text =>
    rw [said, if_pos]
    by_contra hfilled
    exact h ⟨_, holds_replied_iff.2 ⟨rfl, by simpa using hfilled⟩⟩

/-- What is said after asking is what came of it. -/
theorem describes_said (o : ChatOutcome) : o.Describes o.said := by
  have hnothing (h : ¬ ∃ answer, o.Holds answer) : o.said.description = none ∧
      o.said.purpose = none ∧ o.said.patterns = none ∧ o.said.role = none ∧
      o.said.complexity = none := by
    rw [said_of_not_holds h]
    exact ⟨rfl, rfl, rfl, rfl, rfl⟩
  have hreading (answer : Fields) (h : o.Holds answer) : Semantic.IsReading answer o.said := by
    rw [said_of_holds h]
    exact Semantic.isReading_read answer
  -- texts and complexity are well formed since they are read, or not there
  refine ⟨hnothing, hreading, fun s hs => ?_, fun n hn => ?_⟩
  · by_cases hholds : ∃ answer, o.Holds answer
    · obtain ⟨answer, hanswer⟩ := hholds
      obtain ⟨t, rfl, hfilled⟩ : ∃ t, s = Text.strip t ∧ s ≠ "" := by
        rcases hs with hs | hs | hs
        · obtain ⟨t, -, h⟩ := ((hreading answer hanswer).description s).1 hs
          exact ⟨t, h⟩
        · obtain ⟨t, -, h⟩ := ((hreading answer hanswer).purpose s).1 hs
          exact ⟨t, h⟩
        · obtain ⟨t, -, h⟩ := ((hreading answer hanswer).role s).1 hs
          exact ⟨t, h⟩
      exact ⟨hfilled, Text.strip_strip t⟩
    · obtain ⟨hdescription, hpurpose, -, hrole, -⟩ := hnothing hholds
      rw [hdescription, hpurpose, hrole] at hs
      rcases hs with hs | hs | hs <;> cases hs
  · by_cases hholds : ∃ answer, o.Holds answer
    · obtain ⟨answer, hanswer⟩ := hholds
      obtain ⟨hlow, hhigh, -⟩ := ((hreading answer hanswer).complexity n).1 hn
      exact ⟨hlow, hhigh⟩
    · rw [(hnothing hholds).2.2.2.2] at hn
      cases hn

theorem Describes.withVector (h : o.Describes x) (vector : Option (List Number)) :
    o.Describes { x with embedding := vector } where
  nothing := h.nothing
  reading answer hanswer :=
    have hreading := h.reading answer hanswer
    ⟨hreading.description, hreading.purpose, hreading.role, hreading.patterns, hreading.complexity⟩
  texts := h.texts
  complexity := h.complexity

end ChatOutcome

/-! ### Entities -/

namespace CodeEnricher

variable {c : CodeEnricher} {em : Embedder} {e : Entity} {outside : Outside} {w : World}

/-- What the chat model is asked about an entity. -/
def question (c : CodeEnricher) (e : Entity) : ChatRequest :=
  ⟨c.model, Semantic.instruction, Semantic.prompt e, tokenLimit, answerForm⟩

/-- What comes of asking the chat model about an entity. -/
def chatOutcome (c : CodeEnricher) (e : Entity) (outside : Outside) (w : World) : ChatOutcome :=
  if c.hasChat then
    match outside.refuses w.events (.chat (c.question e)) with
    | some f => .failed f
    | none =>
      match outside.chat w.events (c.question e) with
      | .error f => .failed f
      | .ok text => .replied text
  else .noModel

/-- The model is asked, and its reply is the text that the description is read from. -/
theorem wp_askChat (hchat : c.hasChat = true) :
    (c.askChat e).wp
      (fun text _ => ∃ reply, c.chatOutcome e outside w = .replied reply ∧ text = reply.getD "")
      (fun f _ => c.chatOutcome e outside w = .failed f) outside w := by
  rw [askChat, chatOutcome, if_pos hchat]
  simp only [Build.wp_bind, Build.wp_get, Build.wp_attempt, Build.wp_read, Build.wp_take,
    Build.wp_pure]
  refine ⟨fun hcalm => ⟨fun reply hreply => ⟨reply, ?_, rfl⟩, fun f hf => ?_⟩, fun f hf => ?_⟩
  · simp only [question, hcalm, hreply]
  · simp only [question, hcalm, hf, id]
  · simp only [question, hf]

/-- The model is asked, and what is said is what came of it. -/
theorem exists_run_describe (c : CodeEnricher) (e : Entity) (outside : Outside) (w : World) :
    ∃ after, (c.describe e).run outside w = (.ok (c.chatOutcome e outside w).said, after) := by
  have hdescribe : (c.describe e).wp (fun x _ => x = (c.chatOutcome e outside w).said)
      (fun _ _ => False) outside w := by
    rw [describe, Build.wp_ite]
    split
    · rename_i hchat
      rw [chatOutcome, if_neg (by simpa using hchat)]
      rfl
    · rename_i hchat
      rw [Build.wp_bind, Build.wp_outcome]
      refine Build.wp_mono (wp_askChat (by simpa using hchat)) (fun text w₁ h => ?_)
        fun f w₁ hf => ?_
      · obtain ⟨reply, hreply, rfl⟩ := h
        rw [hreply, ChatOutcome.said]
        show (if (Json.findObject reply).isEmpty then _ else _ : Build Enrichment).wp _ _ _ _
        rw [Build.wp_ite]
        split
        · rfl
        · rfl
      · rw [hf]
        rfl
  obtain ⟨x, after, hrun, rfl⟩ := Build.exists_run_of_wp hdescribe
  exact ⟨after, hrun⟩

theorem exists_run_enrich {vector : List Binary64} {w₁ : World}
    (h : (c.embed (embeddedText e)).run outside w = (.ok vector, w₁)) :
    ∃ after, (c.enrich e).run outside w = (.ok ⟨e, { (c.chatOutcome e outside w₁).said with
      embedding := Enrichment.embeddingOf vector }⟩, after) := by
  obtain ⟨after, hdescribe⟩ := exists_run_describe c e outside w₁
  refine ⟨after, ?_⟩
  rw [enrich, Build.run_bind, Build.run_outcome, Build.run_bind_of_ok h,
    Build.run_bind_of_ok hdescribe]
  rfl

theorem exists_run_enrich_of_error {f : Failure} {w₁ : World}
    (h : (c.embed (embeddedText e)).run outside w = (.error f, w₁)) :
    ∃ after, (c.enrich e).run outside w = (.ok (Enriched.plain e), after) := by
  rw [enrich, Build.run_bind, Build.run_outcome, Build.run_bind_of_error h]
  exact ⟨_, rfl⟩

/-- There is a text to ask the vector of. -/
theorem embeddedText_ne_empty (e : Entity) : embeddedText e ≠ "" := by
  intro hempty
  have hchars := congrArg String.toList hempty
  rw [embeddedText, Text.take, String.toList_ofList, String.toList_append,
    String.toList_append] at hchars
  simp [textLimit] at hchars

/-- Whether an entity is enriched with its vector and with what came of asking the chat model, or is
left plain by an embedder that fails. -/
structure IsEnriched (c : CodeEnricher) (em : Embedder) (e : Entity) (outside : Outside) (w : World)
    (x : Enriched) : Prop where
  entity : x.entity = e
  answered : ∀ vector w₁, (em.embed (embeddedText e)).run outside w = (.ok vector, w₁) →
    x.enrichment.embedding = Enrichment.embeddingOf vector ∧
      (c.chatOutcome e outside w₁).Describes x.enrichment
  failed : ∀ f w₁, (em.embed (embeddedText e)).run outside w = (.error f, w₁) →
    x = Enriched.plain e ∧ (∃ y, em.delay = .float y) ∧ 1025 < em.attemptCount ∧
      (em.attemptsAt (embeddedText e)).FailsBefore outside w 1025

/-- Enriching an entity always answers it, with its vector and its description. -/
theorem isEnriched_enrich (c : CodeEnricher) (em : Embedder) (e : Entity) (outside : Outside)
    (w : World) : ∃ x after,
      ({ c with embed := em.embed }.enrich e).run outside w = (.ok x, after) ∧
        c.IsEnriched em e outside w x := by
  generalize hrun : (em.embed (embeddedText e)).run outside w = ending
  obtain ⟨f | vector, w₁⟩ := ending
  · obtain ⟨after, hplain⟩ := exists_run_enrich_of_error (c := { c with embed := em.embed }) hrun
    refine ⟨_, after, hplain, rfl, fun vector w₂ h => ?_, fun f' w₂ h => ?_⟩
    · rw [hrun] at h
      cases h
    · exact ⟨rfl, Embedder.failsBefore_of_error h⟩
  · obtain ⟨after, hdone⟩ := exists_run_enrich (c := { c with embed := em.embed }) hrun
    refine ⟨_, after, hdone, rfl, fun vector' w₂ h => ?_, fun f w₂ h => ?_⟩
    · rw [hrun] at h
      cases h
      exact ⟨rfl, (ChatOutcome.describes_said _).withVector _⟩
    · rw [hrun] at h
      cases h

/-- A chat model that is asked about code. -/
def talkative : CodeEnricher := ⟨fun _ => pure [], true, .scalar (.text "gpt-5"), 5, .int 1⟩

/-- What the chat model has to say. -/
def purposeReply : Fields := [("purpose", .str "Adds.")]

/-- Surroundings in which the services for vectors are down, but the chat model replies. -/
def onlyChat : Outside :=
  { Embedder.withoutVectors with chat := fun _ _ => .ok (some (Json.obj purposeReply).pretty) }

/-- A function without content. -/
def emptyFunction : Entity :=
  ⟨Entity.functionId "a.js" "f", Entity.functionKind, "f", "a.js", none, [], none⟩

/-- The description is lost with the vector, although the model has replied. -/
theorem enrich_eq_plain_of_impatient :
    (({ talkative with embed := Embedder.impatient.embed }.enrich emptyFunction).run onlyChat
      (World.ofDisk .empty [])).1 = .ok (Enriched.plain emptyFunction) ∧
    ∀ w, ¬ (talkative.chatOutcome emptyFunction onlyChat w).Describes
      (Enriched.plain emptyFunction).enrichment := by
  constructor
  · obtain ⟨w₁, hfails⟩ := Embedder.exists_error_of_impatient onlyChat (World.ofDisk .empty [])
      (embeddedText_ne_empty emptyFunction) fun _ _ => ⟨_, rfl⟩
    obtain ⟨after, hplain⟩ := exists_run_enrich_of_error
      (c := { talkative with embed := Embedder.impatient.embed }) (e := emptyFunction) hfails
    rw [hplain]
  · intro w hdescribed
    have hholds : (talkative.chatOutcome emptyFunction onlyChat w).Holds purposeReply := by
      have hread : Json.read (Json.obj purposeReply).pretty = .ok (.obj purposeReply) :=
        Json.read_pretty_of_isShort rfl
      exact ⟨_, rfl, Json.isFirst_of_read hread, List.cons_ne_nil _ _⟩
    have hpurpose := ((hdescribed.reading _ hholds).purpose "Adds.").2
      ⟨"Adds.", rfl, by decide, by decide⟩
    cases hpurpose

end CodeEnricher

end RepoGraph
