import RepoGraph.Enrich.Embedding
import RepoGraph.Proofs.Attempts
import RepoGraph.Proofs.Number.Rounding
import RepoGraph.Proofs.Populate.Effect

/-!
# How a provider is asked again

The attempts for a text are made one after the other until one succeeds or as many have failed as
the embedder makes.  Between two of them there is the pause, if it is positive, and after the last
one there is none.  `Embedder.IsRetried` says so of a run.

A pause in double precision is the first one times a power of two, and `2 ^ 1024` is too large for
double precision.  So an embedder with such a pause fails where more than 1025 attempts are made and
1025 of them fail; no other one ever does.

Main statements: `Embedder.pause_of_float`, `Embedder.isRetried_embed`.
-/

namespace RepoGraph

/-- Whether an event is a request for a vector or a pause. -/
def Event.isAsking : Event → Bool
  | .embed _ => true
  | .sleep _ => true
  | _ => false

theorem Numeral.floatOfInt_two_pow (k : ℕ) :
    floatOfInt (2 ^ k) =
      if k < 1024 then .ok (Binary64.ofInt (2 ^ k)) else .error .tooLargeForFloat := by
  rw [floatOfInt]
  simp only [Binary64.isInfinite_ofInt_two_pow, decide_eq_true_eq]
  by_cases hk : k < 1024
  · rw [if_pos hk, if_neg (Nat.not_le.2 hk)]
  · rw [if_neg hk, if_pos (Nat.not_lt.1 hk)]

namespace Embedder

variable {e : Embedder} {text : String} {outside : Outside} {w after : World} {f : Failure} {i : ℕ}

/-! ### Pauses -/

/-- A pause of whole seconds is doubled without end. -/
theorem pause_of_int {n : ℤ} (h : e.delay = .int n) (i : ℕ) :
    e.pause (i + 1) = .ok (.int (n * 2 ^ i)) := by
  rw [pause, h]
  rfl

/-- A pause in double precision is doubled 1023 times at most. -/
theorem pause_of_float {x : Binary64} (h : e.delay = .float x) (i : ℕ) :
    e.pause (i + 1) =
      if i < 1024 then .ok (.float (x.mul (Binary64.ofInt (2 ^ i))))
      else .error .tooLargeForFloat := by
  rw [pause, h, Nat.add_sub_cancel]
  show (Numeral.floatOfInt (2 ^ i)).map _ = _
  rw [Numeral.floatOfInt_two_pow]
  split
  · rfl
  · rfl

/-- Whether there is no pause after an attempt, the first one being number 0. -/
def LacksPause (e : Embedder) (i : ℕ) : Prop := 1024 ≤ i ∧ ∃ x, e.delay = .float x

theorem exists_pause (h : ¬ e.LacksPause i) : ∃ p, e.pause (i + 1) = .ok p := by
  cases hdelay : e.delay with
  | int n => exact ⟨_, pause_of_int hdelay i⟩
  | float x =>
    have hi : i < 1024 := Nat.not_le.1 fun hle => h ⟨hle, x, hdelay⟩
    exact ⟨_, by rw [pause_of_float hdelay, if_pos hi]⟩

theorem LacksPause.pause_eq (h : e.LacksPause i) : e.pause (i + 1) = .error .tooLargeForFloat := by
  obtain ⟨hi, x, hdelay⟩ := h
  rw [pause_of_float hdelay, if_neg (Nat.not_lt.2 hi)]

/-! ### Single attempts -/

/-- The request for a text as an event. -/
def requests (e : Embedder) (text : String) : List Event := (e.request text).toList.map .embed

/-- The answer of an attempt: the numbers that are answered, if the request is not refused and all
that is answered are numbers. -/
def reply (e : Embedder) (text : String) (outside : Outside) (w : World) :
    Except Failure (List Binary64) :=
  match e.request text with
  | none => .error .notProvided
  | some request =>
    match outside.refuses w.events (.embed request) with
    | some f => .error f
    | none => outside.embed w.events request >>= e.vectorOf

theorem run_tryOnce (e : Embedder) (text : String) (outside : Outside) (w : World) :
    (e.tryOnce text).run outside w =
      (e.reply text outside w, { w with events := e.requests text ++ w.events }) := by
  rw [tryOnce, reply, requests]
  cases e.request text with
  | none => rfl
  | some request =>
    have hattempt := Build.run_attempt (.embed request) outside w
    simp only
    cases hrefuses : outside.refuses w.events (.embed request) with
    | some f =>
      rw [hrefuses] at hattempt
      exact Build.run_bind_of_error hattempt _
    | none =>
      rw [hrefuses] at hattempt
      refine (Build.run_bind_of_ok hattempt _).trans ?_
      show (Build.take id (outside.embed w.events request) >>= fun answer =>
        Build.take id (e.vectorOf answer)).run outside _ = _
      rw [Build.run_bind, Build.run_take]
      cases outside.embed w.events request with
      | error f => rfl
      | ok answer => exact Build.run_take _ _ _

/-! ### Between attempts -/

/-- The pause after an attempt that failed, if there is anything to wait for. -/
def waits (e : Embedder) (i : ℕ) : List Event :=
  match e.pause (i + 1) with
  | .ok p => if p.isPositive then [.sleep p] else []
  | .error _ => []

/-- The warning after an attempt that failed. -/
def warning (e : Embedder) (i : ℕ) (f : Failure) : List Event :=
  match e.pause (i + 1) with
  | .ok p => [.log ⟨.warning, channel, [e.name ++ " error (attempt " ++ toString (i + 1) ++ "/" ++
      toString e.attemptCount ++ "): ", f, ", retrying in " ++ p.toBinary64.fixedText 1 ++ "s"]⟩]
  | .error _ => []

/-- The attempts for a text. -/
def attemptsAt (e : Embedder) (text : String) : Attempts (List Binary64) where
  step := e.tryOnce text
  noted i f := e.waits i ++ e.warning i f

theorem run_afterFailure {p : Number} (hpause : e.pause (i + 1) = .ok p) (left : ℕ) (f : Failure) :
    (e.afterFailure (i + 1) (left + 1) f).run outside w =
      (.ok (), { w with events := (e.attemptsAt text).noted i f ++ w.events }) := by
  simp only [attemptsAt, waits, warning, hpause]
  rw [afterFailure, if_neg (Nat.succ_ne_zero left), hpause]
  show (sleep p).run outside _ = _
  rw [sleep]
  split
  · rfl
  · rfl

theorem run_afterFailure_of_lacksPause (h : e.LacksPause i) (left : ℕ) (f : Failure) :
    (e.afterFailure (i + 1) (left + 1) f).run outside w =
      (.error (.record (.numeral .tooLargeForFloat)), w) := by
  rw [afterFailure, if_neg (Nat.succ_ne_zero left), h.pause_eq]
  rfl

/-- The loop over the attempts. -/
theorem run_embedFrom_succ (e : Embedder) (text : String) (attempt left : ℕ) :
    (e.embedFrom text attempt (left + 1)).run outside w =
      match (e.tryOnce text).run outside w with
      | (.ok vector, after) => (.ok vector, after)
      | (.error f, after) =>
        (e.afterFailure attempt left f >>= fun _ => e.embedFrom text (attempt + 1) left).run
          outside after := by
  rw [embedFrom, Build.run_bind, Build.run_outcome]
  generalize (e.tryOnce text).run outside w = ending
  obtain ⟨_ | _, after⟩ := ending
  · rfl
  · rfl

/-- Attempts that fail lead to the next one where there is a pause after each of them. -/
theorem run_embed_of_failsBefore {k left : ℕ} (htext : text ≠ "")
    (hcount : e.attemptCount = k + left + 1)
    (hfails : (e.attemptsAt text).FailsBefore outside w k) (hpauses : ∀ i < k, ¬ e.LacksPause i) :
    (e.embed text).run outside w =
      (e.embedFrom text (k + 1) (left + 1)).run outside
        ((e.attemptsAt text).start outside w k) := by
  have hembed : e.embed text = e.embedFrom text 1 (k + left + 1) := by
    rw [embed, if_neg (by simpa using htext), hcount]
  rw [hembed]
  refine Attempts.run_of_failsBefore (fun i left => e.embedFrom text (i + 1) left) hfails
    (fun i hi left w f after hrun => ?_) left
  have hstep : (e.tryOnce text).run outside w = (.error f, after) := hrun
  obtain ⟨p, hp⟩ := exists_pause (hpauses i hi)
  rw [run_embedFrom_succ, hstep]
  exact Build.run_bind_of_ok (run_afterFailure hp left f) _

/-! ### How it ends -/

/-- What is told after the last attempt failed. -/
def lastWord (e : Embedder) (f : Failure) : Event :=
  .log ⟨.error, channel,
    [e.name ++ " failed after " ++ toString e.attemptCount ++ " attempts: ", f]⟩

/-- How asking ends with one attempt, the first one being number 0. -/
inductive EndsWith (e : Embedder) (text : String) (outside : Outside) (w : World) (last : ℕ) :
    Except Failure (List Binary64) → World → Prop
  /-- The attempt succeeds. -/
  | success (vector : List Binary64) (h : (e.attemptsAt text).answer outside w last = .ok vector) :
      EndsWith e text outside w last (.ok vector) ((e.attemptsAt text).finish outside w last)
  /-- The attempt fails, and it is the last one to be made. -/
  | exhausted (f : Failure) (h : (e.attemptsAt text).answer outside w last = .error f)
      (hlast : last + 1 = e.attemptCount) :
      EndsWith e text outside w last (.ok [])
        { (e.attemptsAt text).finish outside w last with
          events := e.lastWord f :: ((e.attemptsAt text).finish outside w last).events }
  /-- The attempt fails, and the pause to the next one has no number. -/
  | unpaused (f : Failure) (x : Binary64)
      (h : (e.attemptsAt text).answer outside w last = .error f) (hdelay : e.delay = .float x)
      (hlast : last = 1024) (hmore : last + 1 < e.attemptCount) :
      EndsWith e text outside w last (.error (.record (.numeral .tooLargeForFloat)))
        ((e.attemptsAt text).finish outside w last)

/-- Whether asking is done as often as needed: all attempts before the last one fail, the last one
ends it, and each attempt but the last one is followed by its pause. -/
structure IsRetried (e : Embedder) (text : String) (outside : Outside) (w : World) (last : ℕ)
    (answer : Except Failure (List Binary64)) (after : World) : Prop where
  last_lt : last < e.attemptCount
  answered : ∀ i, (e.attemptsAt text).answer outside w i =
    e.reply text outside ((e.attemptsAt text).start outside w i)
  failed : (e.attemptsAt text).FailsBefore outside w last
  pauses_int : ∀ n, e.delay = .int n → ∀ i, e.pause (i + 1) = .ok (.int (n * 2 ^ i))
  pauses_float : ∀ x, e.delay = .float x → ∀ i < last,
    e.pause (i + 1) = .ok (.float (x.mul (Binary64.ofInt (2 ^ i))))
  ending : e.EndsWith text outside w last answer after
  asked : after.history Event.isAsking =
    w.history Event.isAsking ++
      (List.range last).flatMap (fun i => e.requests text ++ e.waits i) ++ e.requests text

theorem attemptCount_pos (e : Embedder) : 0 < e.attemptCount := by
  rw [attemptCount]
  omega

/-- The first attempt that nothing follows ends the asking. -/
theorem endsWith_embed {k left : ℕ} (htext : text ≠ "") (hcount : e.attemptCount = k + left + 1)
    (hfails : (e.attemptsAt text).FailsBefore outside w k) (hpauses : ∀ i < k, ¬ e.LacksPause i)
    (hlast : (∃ vector, (e.attemptsAt text).answer outside w k = .ok vector) ∨ e.LacksPause k ∨
      left = 0) :
    e.EndsWith text outside w k ((e.embed text).run outside w).1
      ((e.embed text).run outside w).2 := by
  have hstep : (e.tryOnce text).run outside ((e.attemptsAt text).start outside w k) = _ :=
    (e.attemptsAt text).run_start outside w k
  rw [run_embed_of_failsBefore htext hcount hfails hpauses, run_embedFrom_succ, hstep]
  cases hanswer : (e.attemptsAt text).answer outside w k with
  | ok vector => exact .success vector hanswer
  | error f =>
    cases left with
    | zero => exact .exhausted f hanswer hcount.symm
    | succ left =>
      have hlacks : e.LacksPause k := by
        rcases hlast with ⟨vector, hvector⟩ | hlacks | hleft
        · rw [hanswer] at hvector
          cases hvector
        · exact hlacks
        · exact absurd hleft (Nat.succ_ne_zero left)
      obtain ⟨hk, x, hdelay⟩ := hlacks
      -- the pauses before were there, so this is the first attempt that lacks one
      have hfirst : k = 1024 := by
        refine Nat.le_antisymm (Nat.not_lt.1 fun hlt => ?_) hk
        exact hpauses 1024 hlt ⟨Nat.le_refl _, x, hdelay⟩
      simp only
      rw [Build.run_bind_of_error (run_afterFailure_of_lacksPause ⟨hk, x, hdelay⟩ left f)]
      exact .unpaused f x hanswer hdelay hfirst (by omega)

/-- One of the attempts is the last one. -/
theorem exists_endsWith (e : Embedder) (outside : Outside) (w : World) (htext : text ≠ "") :
    ∃ last < e.attemptCount, (e.attemptsAt text).FailsBefore outside w last ∧
      (∀ i < last, ¬ e.LacksPause i) ∧ e.EndsWith text outside w last
        ((e.embed text).run outside w).1 ((e.embed text).run outside w).2 := by
  obtain ⟨last, hlt, hfails, hpauses, hstops⟩ :=
    (e.attemptsAt text).exists_last outside w e.LacksPause e.attemptCount_pos
  have hcount : e.attemptCount = last + (e.attemptCount - (last + 1)) + 1 := by omega
  have hlast : (∃ vector, (e.attemptsAt text).answer outside w last = .ok vector) ∨
      e.LacksPause last ∨ e.attemptCount - (last + 1) = 0 :=
    hstops.imp_right (Or.imp_right fun hlast => by omega)
  exact ⟨last, hlt, hfails, hpauses, endsWith_embed htext hcount hfails hpauses hlast⟩

/-- Asking fails after 1025 attempts that failed, where more are made and the pause is one in double
precision. -/
theorem failsBefore_of_error (h : (e.embed text).run outside w = (.error f, after)) :
    (∃ x, e.delay = .float x) ∧ 1025 < e.attemptCount ∧
      (e.attemptsAt text).FailsBefore outside w 1025 := by
  have htext : text ≠ "" := by
    rintro rfl
    cases h
  obtain ⟨last, -, hfails, -, hending⟩ := e.exists_endsWith outside w htext
  rw [h] at hending
  cases hending with
  | unpaused f' x hanswer hdelay hlast hmore =>
    subst hlast
    exact ⟨⟨x, hdelay⟩, hmore, hfails.succ hanswer⟩

theorem history_step (e : Embedder) (text : String) (outside : Outside) (w : World) :
    ((e.attemptsAt text).step.run outside w).2.history Event.isAsking =
      w.history Event.isAsking ++ e.requests text := by
  show ((e.tryOnce text).run outside w).2.history _ = _
  rw [run_tryOnce, World.history_append]
  rw [requests]
  cases e.request text <;> rfl

theorem filter_noted (e : Embedder) (text : String) (i : ℕ) (f : Failure) :
    (((e.attemptsAt text).noted i f).filter Event.isAsking).reverse = e.waits i := by
  simp only [attemptsAt, waits, warning]
  cases e.pause (i + 1) with
  | error _ => rfl
  | ok p => cases hp : p.isPositive <;> simp only [hp] <;> rfl

/-- What is told at the end is no request. -/
theorem EndsWith.history_eq {last : ℕ} {answer : Except Failure (List Binary64)}
    (h : e.EndsWith text outside w last answer after) :
    after.history Event.isAsking =
      ((e.attemptsAt text).finish outside w last).history Event.isAsking := by
  cases h with
  | success => rfl
  | exhausted => rfl
  | unpaused => rfl

/-- The vector of a text is asked for until an attempt succeeds or none is left; without a text
nothing is asked.  Asking fails only where the pause after attempt number 1024 would be one in
double precision. -/
theorem isRetried_embed (e : Embedder) (text : String) (outside : Outside) (w : World) :
    text = "" ∧ (e.embed text).run outside w = (.ok [], w) ∨
      text ≠ "" ∧ ∃ last answer after, (e.embed text).run outside w = (answer, after) ∧
        e.IsRetried text outside w last answer after := by
  by_cases htext : text = ""
  · left
    rw [htext]
    exact ⟨rfl, rfl⟩
  · obtain ⟨last, hlt, hfails, hpauses, hending⟩ := e.exists_endsWith outside w htext
    exact .inr ⟨htext, last, ((e.embed text).run outside w).1,
      ((e.embed text).run outside w).2, rfl, {
      last_lt := hlt
      answered := fun i => congrArg Prod.fst (run_tryOnce e text outside _)
      failed := hfails
      pauses_int := fun n hdelay i => pause_of_int hdelay i
      pauses_float := fun x hdelay i hi => by
        rw [pause_of_float hdelay, if_pos (Nat.not_le.1 fun hle => hpauses i hi ⟨hle, x, hdelay⟩)]
      ending := hending
      asked := hending.history_eq.trans (Attempts.history_finish e.waits
        (history_step e text outside) (fun i _ f => filter_noted e text i f) hfails) }⟩

/-! ### The largest pause -/

/-- An embedder that makes more than 1025 attempts, with pauses in double precision, fails where no
attempt succeeds. -/
theorem embed_eq_error {x : Binary64} (htext : text ≠ "")
    (hfails : ∀ w, ∃ f, e.reply text outside w = .error f) (hdelay : e.delay = .float x)
    (hmore : 1025 < e.attemptCount) :
    ∃ after, (e.embed text).run outside w =
      (.error (.record (.numeral .tooLargeForFloat)), after) := by
  have hanswer (i : ℕ) : ∃ f, (e.attemptsAt text).answer outside w i = .error f := by
    obtain ⟨f, hf⟩ := hfails ((e.attemptsAt text).start outside w i)
    exact ⟨f, (congrArg Prod.fst (run_tryOnce e text outside _)).trans hf⟩
  have hcount : e.attemptCount = 1024 + (e.attemptCount - 1025) + 1 := by omega
  have hending := endsWith_embed htext hcount (fun i _ => hanswer i)
    (fun i hi hlacks => Nat.not_le.2 hi hlacks.1) (.inr (.inl ⟨Nat.le_refl _, x, hdelay⟩))
  generalize (e.embed text).run outside w = ending at hending ⊢
  obtain ⟨answer, after⟩ := ending
  cases hending with
  | success vector hvector =>
    obtain ⟨f, hf⟩ := hanswer 1024
    rw [hvector] at hf
    cases hf
  | exhausted _ _ hlast => omega
  | unpaused => exact ⟨_, rfl⟩

/-- An embedder that asks a service 1026 times, without any pause. -/
def impatient : Embedder :=
  ⟨.service "http://localhost" (.float (Binary64.ofInt 60)), 1026, .float (Binary64.ofInt 0)⟩

/-- Surroundings in which the services for vectors are down. -/
def withoutVectors : Outside :=
  { Populating.quiet with embed := fun _ _ => .error (.outside "ConnectionError" "down") }

theorem exists_error_of_impatient (outside : Outside) (w : World) (htext : text ≠ "")
    (hdown : ∀ past request, ∃ f, outside.embed past request = .error f) :
    ∃ after, (impatient.embed text).run outside w =
      (.error (.record (.numeral .tooLargeForFloat)), after) := by
  refine embed_eq_error htext (fun w => ?_) rfl (by decide)
  rw [reply]
  split
  · exact ⟨_, rfl⟩
  · rename_i request _
    split
    · exact ⟨_, rfl⟩
    · obtain ⟨f, hf⟩ := hdown w.events request
      rw [hf]
      exact ⟨f, rfl⟩

/-- After 1025 attempts the next pause cannot be told, although it is none. -/
theorem embed_impatient_eq_error : ∃ after,
    (impatient.embed "x").run withoutVectors (World.ofDisk .empty []) =
      (.error (.record (.numeral .tooLargeForFloat)), after) :=
  exists_error_of_impatient _ _ (by decide) fun _ _ => ⟨_, rfl⟩

end Embedder

end RepoGraph
