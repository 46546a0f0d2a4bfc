import RepoGraph.Command.Grammar
import RepoGraph.Dependency
import RepoGraph.Proofs.Attempts
import RepoGraph.Proofs.Populate.Effect

/-!
# Waiting for services that answer

`Dependency.IsWaited` says how waiting for one service goes on and ends: it is asked until it
answers or the attempts are used up, with one pause between two attempts, and it is a failure if it
never answers.  `Dependency.AreWaited` says so of several services, one after the other, up to the
first one that never answers.

Where there is to be no attempt, nothing is asked, and the waiting ends well all the same.

Main statements: `Dependency.isWaited_wait`, `Dependency.areWaited_forM`,
`Settings.waitsForAll_waitForDependencies`.
-/

namespace RepoGraph

/-- Whether an event asks a service that may not answer yet, or is a pause. -/
def Event.isPolling : Event → Bool
  | .fetch .. => true
  | .connect _ => true
  | .sleep _ => true
  | _ => false

namespace Dependency

variable {d : Dependency} {retries : ℤ} {delay : Number} {outside : Outside} {w after : World}

/-! ### Single checks -/

/-- How a service is asked. -/
def question : Dependency → Event
  | embedding url => .fetch url answerLimit
  | vectors url => .fetch url answerLimit
  | graph url user password => .connect (.graph url user password)

theorem history_fetch (url : String) (outside : Outside) (w : World) :
    ((fetch url).run outside w).2.history Event.isPolling =
      w.history Event.isPolling ++ [.fetch url answerLimit] := by
  have hnoted := w.history_append Event.isPolling [.fetch url answerLimit]
  refine Build.of_wp (P := fun w' => w'.history _ = w.history _ ++ [.fetch url answerLimit]) ?_
  simp only [fetch, Build.wp_bind, Build.wp_get, Build.wp_attempt, Build.wp_read, Build.wp_take]
  exact ⟨fun _ => ⟨fun _ _ => hnoted, fun _ _ => hnoted⟩, fun _ _ => hnoted⟩

/-- Leaving a server asks nothing. -/
theorem wp_close (url user password : String) {failed} :
    (GraphStore.server url user password).close.wp
      (fun _ w' => w'.history Event.isPolling = w.history Event.isPolling) failed outside w := by
  simp only [GraphStore.close, Build.wp_bind, Build.wp_get, Build.wp_ite, Build.wp_note,
    Build.wp_modify, Build.wp_pure]
  split
  · rfl
  · trivial

/-- A server without a connection is connected to, once. -/
theorem wp_ping (url user password : String) (h : w.isConnected = false) :
    (GraphStore.server url user password).ping.wp
      (fun _ w' => w'.history Event.isPolling =
        w.history Event.isPolling ++ [.connect (.graph url user password)])
      (fun _ w' => w'.history Event.isPolling =
        w.history Event.isPolling ++ [.connect (.graph url user password)]) outside w := by
  have hnoted := w.history_append Event.isPolling [.connect (.graph url user password)]
  simp only [GraphStore.ping, GraphStore.connect, Build.wp_bind, Build.wp_get, h, Bool.not_false,
    if_true, Build.wp_attempt, Build.wp_modify, Build.wp_read, Build.wp_take]
  exact ⟨fun _ => ⟨fun _ => ⟨fun _ _ => hnoted, fun _ _ => hnoted⟩, fun _ _ => hnoted⟩,
    fun _ _ => hnoted⟩

/-- A check asks the service once. -/
theorem history_check (d : Dependency) (outside : Outside) (w : World) :
    (d.check.run outside w).2.history Event.isPolling =
      w.history Event.isPolling ++ [d.question] := by
  cases d with
  | embedding url => exact history_fetch url outside w
  | vectors url => exact history_fetch url outside w
  | graph url user password =>
    refine Build.of_wp
      (P := fun w' => w'.history _ = w.history _ ++ [.connect (.graph url user password)]) ?_
    rw [check, Build.wp_bind, GraphStore.openStore, Build.wp_modify, Build.wp_ensuring]
    refine Build.wp_mono (wp_ping url user password rfl) (fun _ w₁ hw₁ => ?_) fun _ w₁ hw₁ => ?_
    · exact Build.wp_mono (wp_close url user password) (fun _ _ hw₂ => hw₂.trans hw₁) fun _ _ h => h
    · exact Build.wp_mono (wp_close url user password) (fun _ _ hw₂ => hw₂.trans hw₁) fun _ _ h => h

/-! ### Waiting for one service -/

/-- What is told of a check that failed. -/
def warning (d : Dependency) (retries : ℤ) (i : ℕ) (f : Failure) : Event :=
  .log ⟨.warning, channel, ["[startup] Waiting for " ++ d.name ++ " (attempt " ++
    toString (i + 1) ++ "/" ++ toString retries ++ "): ", f]⟩

/-- What is told of a check that passed. -/
def greeting (d : Dependency) (i : ℕ) : Event :=
  .log ⟨.info, channel,
    ["[startup] " ++ d.name ++ " available (attempt " ++ toString (i + 1) ++ ")"]⟩

/-- The checks of a service. -/
def checks (d : Dependency) (retries : ℤ) (delay : Number) : Attempts Unit where
  step := d.check
  noted i f := [.sleep delay, d.warning retries i f]

/-- Whether waiting for a service with so many checks ends as it should: all checks but the last one
fail, a service that is answered for has passed the last one, and one that is given up has failed
them all.  Between two checks there is one pause. -/
structure IsWaited (d : Dependency) (retries : ℤ) (delay : Number) (outside : Outside) (w : World)
    (count : ℕ) (answer : Except Failure Unit) (after : World) : Prop where
  count_le : count ≤ retries.toNat
  failed : (d.checks retries delay).FailsBefore outside w (count - 1)
  passed : 0 < retries → answer = .ok () →
    0 < count ∧ (d.checks retries delay).answer outside w (count - 1) = .ok ()
  givenUp : ∀ f, answer = .error f → f = .unreachable d.name retries ∧ 0 < retries ∧
    count = retries.toNat ∧ (d.checks retries delay).FailsBefore outside w count
  unasked : retries ≤ 0 → count = 0 ∧ answer = .ok () ∧ after = w
  asked : after.history Event.isPolling =
    w.history Event.isPolling ++ (List.replicate count d.question).intersperse (.sleep delay)

/-- The loop over the checks. -/
theorem run_waitFrom_succ (d : Dependency) (retries : ℤ) (delay : Number) (i left : ℕ) :
    (d.waitFrom retries delay (i + 1) (left + 1)).run outside w =
      match d.check.run outside w with
      | (.ok (), after) => (.ok (), { after with events := d.greeting i :: after.events })
      | (.error f, after) =>
        if left = 0 then
          (.error (.unreachable d.name retries),
            { after with events := d.warning retries i f :: after.events })
        else (d.waitFrom retries delay (i + 2) left).run outside
          { after with events := (d.checks retries delay).noted i f ++ after.events } := by
  rw [waitFrom, Build.run_bind, Build.run_outcome]
  generalize d.check.run outside w = ending
  obtain ⟨f | _, after⟩ := ending
  · by_cases hleft : left = 0
    · simp only [hleft, if_true]
      rfl
    · simp only [hleft, if_false]
      rfl
  · rfl

/-- Checks that fail lead to the next one. -/
theorem run_wait_of_failsBefore {k left : ℕ} (hcount : retries.toNat = k + left + 1)
    (hfails : (d.checks retries delay).FailsBefore outside w k) :
    (d.wait retries delay).run outside w =
      (d.waitFrom retries delay (k + 1) (left + 1)).run outside
        ((d.checks retries delay).start outside w k) := by
  rw [wait, hcount]
  refine Attempts.run_of_failsBefore (fun i left => d.waitFrom retries delay (i + 1) left) hfails
    (fun i _ left w f after hrun => ?_) left
  have hcheck : d.check.run outside w = (.error f, after) := hrun
  rw [run_waitFrom_succ, hcheck]
  exact if_neg (Nat.succ_ne_zero left)

/-- Where there is to be no attempt, nothing is asked. -/
theorem isWaited_of_nonpos (h : retries ≤ 0) :
    d.IsWaited retries delay outside w 0 ((d.wait retries delay).run outside w).1
      ((d.wait retries delay).run outside w).2 := by
  have hnone : retries.toNat = 0 := by omega
  rw [wait, hnone]
  exact {
    count_le := Nat.zero_le _
    failed := fun i hi => (Nat.not_lt_zero i hi).elim
    passed := fun hpos => absurd hpos (Int.not_lt.2 h)
    givenUp := fun f hf => nomatch hf
    unasked := fun _ => ⟨rfl, rfl, rfl⟩
    asked := (List.append_nil _).symm }

/-- Questions, each but the last one with a pause after it, are questions with pauses in between. -/
theorem flatMap_range_eq (sep question : Event) (n : ℕ) :
    (List.range n).flatMap (fun _ => [question] ++ [sep]) ++ [question] =
      (List.replicate (n + 1) question).intersperse sep := by
  induction n with
  | zero => rfl
  | succ n ih =>
    rw [List.range_succ_eq_map, List.flatMap_cons, List.flatMap_map, List.append_assoc, ih]
    rfl

/-- The first check that nothing follows ends the waiting. -/
theorem isWaited_of_last {k left : ℕ} (hcount : retries.toNat = k + left + 1)
    (hfails : (d.checks retries delay).FailsBefore outside w k)
    (hlast : (d.checks retries delay).answer outside w k = .ok () ∨ left = 0) :
    d.IsWaited retries delay outside w (k + 1) ((d.wait retries delay).run outside w).1
      ((d.wait retries delay).run outside w).2 := by
  have hstep : d.check.run outside ((d.checks retries delay).start outside w k) = _ :=
    (d.checks retries delay).run_start outside w k
  -- between the checks that failed the delay was slept, and nothing else was done
  have hasked := Attempts.history_finish (fun _ => [.sleep delay])
    (fun w => history_check d outside w) (fun _ _ _ => rfl) hfails
  rw [List.append_assoc, flatMap_range_eq] at hasked
  rw [run_wait_of_failsBefore hcount hfails, run_waitFrom_succ, hstep]
  have hfew : k + 1 ≤ retries.toNat := by omega
  have hpos : 0 < retries := by omega
  cases hanswer : (d.checks retries delay).answer outside w k with
  | ok _ =>
    exact {
      count_le := hfew
      failed := hfails
      passed := fun _ _ => ⟨Nat.succ_pos k, hanswer⟩
      givenUp := fun f hf => nomatch hf
      unasked := fun hnone => absurd hpos (Int.not_lt.2 hnone)
      asked := hasked }
  | error f =>
    have hleft : left = 0 := by
      refine hlast.resolve_left fun hok => ?_
      rw [hanswer] at hok
      cases hok
    subst hleft
    exact {
      count_le := hfew
      failed := hfails
      passed := fun _ hok => nomatch hok
      givenUp := fun f' hf' =>
        ⟨(Except.error.inj hf').symm, hpos, hcount.symm, hfails.succ hanswer⟩
      unasked := fun hnone => absurd hpos (Int.not_lt.2 hnone)
      asked := hasked }

/-- A service is asked until it answers or the attempts are used up. -/
theorem isWaited_wait (d : Dependency) (retries : ℤ) (delay : Number) (outside : Outside)
    (w : World) : ∃ count, d.IsWaited retries delay outside w count
      ((d.wait retries delay).run outside w).1 ((d.wait retries delay).run outside w).2 := by
  rcases Int.lt_or_le 0 retries with hpos | hnone
  · obtain ⟨k, hk, hfails, -, hstops⟩ := (d.checks retries delay).exists_last outside w
      (fun _ => False) (n := retries.toNat) (by omega)
    have hcount : retries.toNat = k + (retries.toNat - (k + 1)) + 1 := by omega
    have hlast : (d.checks retries delay).answer outside w k = .ok () ∨
        retries.toNat - (k + 1) = 0 := by
      rcases hstops with ⟨_, hok⟩ | hstops | hlast
      · exact .inl hok
      · exact hstops.elim
      · exact .inr (by omega)
    exact ⟨k + 1, isWaited_of_last hcount hfails hlast⟩
  · exact ⟨0, isWaited_of_nonpos hnone⟩

/-! ### Waiting for several services -/

/-- How waiting for services goes on and ends: one after the other is waited for, and the first one
that is given up ends it. -/
inductive AreWaited (retries : ℤ) (delay : Number) (outside : Outside) :
    List Dependency → World → Except Failure Unit → World → Prop
  | nil (w : World) : AreWaited retries delay outside [] w (.ok ()) w
  | passed {d : Dependency} {rest : List Dependency} {w between after : World} {count : ℕ}
      {answer : Except Failure Unit} (h : d.IsWaited retries delay outside w count (.ok ()) between)
      (hrest : AreWaited retries delay outside rest between answer after) :
      AreWaited retries delay outside (d :: rest) w answer after
  | givenUp {d : Dependency} {rest : List Dependency} {w after : World} {count : ℕ} {f : Failure}
      (h : d.IsWaited retries delay outside w count (.error f) after) :
      AreWaited retries delay outside (d :: rest) w (.error f) after

theorem areWaited_forM (services : List Dependency) (retries : ℤ) (delay : Number)
    (outside : Outside) (w : World) : AreWaited retries delay outside services w
      ((services.forM fun d => d.wait retries delay).run outside w).1
      ((services.forM fun d => d.wait retries delay).run outside w).2 := by
  induction services generalizing w with
  | nil => exact .nil w
  | cons d rest ih =>
    have hforM : ((d :: rest).forM fun d => d.wait retries delay) =
        (d.wait retries delay >>= fun _ => rest.forM fun d => d.wait retries delay) := rfl
    rw [hforM, Build.run_bind]
    obtain ⟨count, hwaited⟩ := d.isWaited_wait retries delay outside w
    generalize (d.wait retries delay).run outside w = ending at hwaited ⊢
    obtain ⟨f | _, between⟩ := ending
    · exact .givenUp hwaited
    · exact .passed hwaited (ih between)

variable {services : List Dependency} {answer : Except Failure Unit}

/-- Services that are waited for well have all passed a check, if there is to be an attempt. -/
theorem AreWaited.passed_check (h : AreWaited retries delay outside services w answer after)
    (hpos : 0 < retries) (hok : answer = .ok ()) :
    ∀ d ∈ services, ∃ w₁, (d.check.run outside w₁).1 = .ok () := by
  induction h with
  | nil => simp
  | passed hd _ ih =>
    refine List.forall_mem_cons.2 ⟨?_, ih hok⟩
    exact ⟨_, (hd.passed hpos rfl).2⟩
  | givenUp => cases hok

/-- Waiting that fails is given up at one of the services, after those before it have answered. -/
theorem AreWaited.exists_of_error {f : Failure}
    (h : AreWaited retries delay outside services w answer after) (hf : answer = .error f) :
    0 < retries ∧ ∃ before d rest, services = before ++ d :: rest ∧
      f = .unreachable d.name retries ∧
      ∀ d' ∈ before, ∃ w₁, (d'.check.run outside w₁).1 = .ok () := by
  induction h with
  | nil => cases hf
  | @passed d rest _ _ _ _ _ hd _ ih =>
    -- somebody was given up later, so there were attempts, and this service has passed one
    obtain ⟨hpos, before, d', rest', rfl, hname, hbefore⟩ := ih hf
    have hanswered : ∃ w₁, (d.check.run outside w₁).1 = .ok () := ⟨_, (hd.passed hpos rfl).2⟩
    exact ⟨hpos, d :: before, d', rest', rfl, hname, List.forall_mem_cons.2 ⟨hanswered, hbefore⟩⟩
  | @givenUp d rest _ _ _ f' hd =>
    cases hf
    obtain ⟨hname, hpos, -⟩ := hd.givenUp f rfl
    exact ⟨hpos, [], d, rest, rfl, hname, fun _ hmem => nomatch hmem⟩

end Dependency

namespace Settings

/-- What is told before the waiting. -/
def waitingNote (s : Settings) : Event :=
  .log ⟨.info, Dependency.channel, ["[startup] Waiting for dependencies: " ++
    (if (s.dependencies.map Dependency.name).isEmpty then "none"
      else ", ".intercalate (s.dependencies.map Dependency.name))]⟩

/-- What is told after the waiting. -/
def reachableNote : Event :=
  .log ⟨.info, Dependency.channel, ["[startup] All dependencies are reachable"]⟩

/-- Whether the services that the settings name are waited for, in order: if there is to be an
attempt, waiting ends well only if each of them has passed a check, and it is given up at the first
one that does not answer. -/
structure WaitsForAll (s : Settings) (retries : ℤ) (delay : Number) (outside : Outside) (w : World)
    (answer : Except Failure Unit) (after : World) : Prop where
  waited : ∃ between, Dependency.AreWaited retries delay outside s.dependencies
      { w with events := s.waitingNote :: w.events } answer between ∧
    after = match answer with
      | .ok () => { between with events := reachableNote :: between.events }
      | .error _ => between
  passed : 0 < retries → answer = .ok () →
    ∀ d ∈ s.dependencies, ∃ w₁, (d.check.run outside w₁).1 = .ok ()
  givenUp : ∀ f, answer = .error f → ∃ before d rest, s.dependencies = before ++ d :: rest ∧
    f = .unreachable d.name retries ∧ ∀ d' ∈ before, ∃ w₁, (d'.check.run outside w₁).1 = .ok ()

theorem run_waitForDependencies (s : Settings) (retries : ℤ) (delay : Number) (outside : Outside)
    (w : World) : (s.waitForDependencies retries delay).run outside w =
      match (s.dependencies.forM fun d => d.wait retries delay).run outside
        { w with events := s.waitingNote :: w.events } with
      | (.ok (), between) => (.ok (), { between with events := reachableNote :: between.events })
      | (.error f, between) => (.error f, between) := by
  have hnote : (Build.log .info Dependency.channel ["[startup] Waiting for dependencies: " ++
      (if (s.dependencies.map Dependency.name).isEmpty then "none"
        else ", ".intercalate (s.dependencies.map Dependency.name))]).run outside w =
      (.ok (), { w with events := s.waitingNote :: w.events }) := rfl
  rw [waitForDependencies, Build.run_bind_of_ok hnote, Build.run_bind]
  generalize (s.dependencies.forM fun d => d.wait retries delay).run outside _ = ending
  obtain ⟨f | _, between⟩ := ending
  · rfl
  · rfl

/-- Every service that is waited for, alone or with others, is asked until it answers or the
attempts are used up. -/
theorem waitsForAll_waitForDependencies (s : Settings) (retries : ℤ) (delay : Number)
    (outside : Outside) (w : World) :
    (∀ d : Dependency, ∃ count, d.IsWaited retries delay outside w count
      ((d.wait retries delay).run outside w).1 ((d.wait retries delay).run outside w).2) ∧
    s.WaitsForAll retries delay outside w ((s.waitForDependencies retries delay).run outside w).1
      ((s.waitForDependencies retries delay).run outside w).2 := by
  refine ⟨fun d => d.isWaited_wait retries delay outside w, ?_⟩
  have hwaited := Dependency.areWaited_forM s.dependencies retries delay outside
    { w with events := s.waitingNote :: w.events }
  rw [run_waitForDependencies]
  generalize (s.dependencies.forM fun d => d.wait retries delay).run outside _ = ending at hwaited ⊢
  obtain ⟨f | _, between⟩ := ending
  · exact {
      waited := ⟨between, hwaited, rfl⟩
      passed := fun _ hok => nomatch hok
      givenUp := fun f' hf' => (hwaited.exists_of_error hf').2 }
  · exact {
      waited := ⟨between, hwaited, rfl⟩
      passed := fun hpos _ => hwaited.passed_check hpos rfl
      givenUp := fun f hf => nomatch hf }

end Settings

/-! ### No attempt -/

namespace Invocation

/-- A command line may ask for no attempt. -/
theorem read_withoutAttempts : read ["wait-deps", "--retries", "0"] =
    .ok ⟨none, .waitForDependencies 0 Dependency.usualDelay⟩ := by
  have hcommand : "wait-deps".startsWith "-" = false := by simp
  have hoption : "--retries".startsWith "-" = true := by simp
  have hzero : "0".startsWith "-" = false := by simp
  have hall : Argument.classify generalOptions ["wait-deps", "--retries", "0"] =
      .ok [.plain "wait-deps", .unknown "--retries", .plain "0"] := by
    simp only [Argument.classify, hcommand, hoption, hzero]
    rfl
  have hown : Argument.classify waitOptions ["--retries", "0"] =
      .ok [.option ⟨"--retries", some fun v => (Numeral.integer v).toOption.isSome⟩ none,
        .plain "0"] := by
    simp only [Argument.classify, hoption, hzero]
    rfl
  rw [read, hall]
  show (do
    let taken ← Argument.collect false ⟨[], false⟩
      (← Argument.classify waitOptions ["--retries", "0"])
    if false || taken.1.hasStray then throw .usage
    return ⟨none, waitOf taken.1⟩ : Except Interruption Invocation) = _
  rw [hown]
  rfl

end Invocation

namespace Settings

/-- Surroundings in which no service answers. -/
def silent : Outside :=
  { Populating.quiet with fetch := fun _ _ => .error (.outside "ConnectionError" "down") }

theorem fetch_silent (url : String) (w : World) :
    ((Dependency.fetch url).run silent w).1 = .error (.outside "ConnectionError" "down") := rfl

/-- Without an attempt the waiting ends well, although neither service answers. -/
theorem waitForDependencies_of_silent : ∃ after,
    Invocation.read ["wait-deps", "--retries", "0"] =
      .ok ⟨none, .waitForDependencies 0 Dependency.usualDelay⟩ ∧
    (Populating.fileSettings.waitForDependencies 0 Dependency.usualDelay).run silent
      (World.ofDisk .empty []) = (.ok (), after) ∧
    Populating.fileSettings.dependencies ≠ [] ∧
    ∀ d ∈ Populating.fileSettings.dependencies, ∀ w, (d.check.run silent w).1 ≠ .ok () := by
  have hservices : Populating.fileSettings.dependencies =
      [.embedding "", .vectors (Text.trimRight (· == '/') "" ++ "/healthz")] := rfl
  refine ⟨_, Invocation.read_withoutAttempts, rfl, ?_, ?_⟩
  · rw [hservices]
    exact List.cons_ne_nil _ _
  · intro d hd w hanswer
    have hfails : (d.check.run silent w).1 = .error (.outside "ConnectionError" "down") := by
      rw [hservices] at hd
      rcases List.mem_pair.1 hd with rfl | rfl
      · exact fetch_silent _ w
      · exact fetch_silent _ w
    rw [hfails] at hanswer
    cases hanswer

end Settings

end RepoGraph
