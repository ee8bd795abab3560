import Bhtune.Runtime.Poll

/-!
# The whole-run timeout

The timeout is the last branch of the loop's biased `select!`.  The loop stops on it unless, at the
moment the `select!` wakes up, an earlier branch that goes on with the run is due as well: the next
poll, which is armed from the start of the previous tick, or an MV verification.

* `Polls` — the turns a run of the loop goes through;
* `StopsOnTimeout` — no turn that wakes up at the timeout or later does anything;
* `NothingDue` — what the loop has to find there;
* `Paced` — the turns, with the time at which the pace of the ticks makes the next one due;
* `ClearOf`, `TicksInTime` — how long the ticks may take for the timeout to be effective;
* `timeout_effective` — they decide whether it is;
* `branchTaken_of_slow_tick`, `timeout_starved` — where it is not.
-/

namespace Bhtune

open Effect EventLog

/-! ### The turns of the loop -/

/-- The branches of a turn's `select!`, each with the time from which it is ready. -/
def pollBranches (timeoutAt : Instant) (ps : PollState) (s : Sys) :
    List (PollBranch × Option Instant) :=
  [(.verification, s.program.tracker.bind MvActuationTracker.nextVerificationWakeup),
    (.poll, some ps.nextPollAt), (.ctrlC, s.nextSignal), (.timeout, some timeoutAt)]

/-- The body of the branch that was taken. -/
def pollBody (ctx : RunContext) (ps : PollState) : PollBranch → Io (PollState ⊕ PollOutcome)
  | .verification => verificationBranch ctx ps
  | .poll => pollTick ctx ps
  | .ctrlC => do
    modify Sys.seeSignals
    return .inr (.aborted .userInterrupt)
  | .timeout => return .inr (.aborted (.timeout ctx.effectiveTiming.timeoutSecs))

theorem pollTurn_eq (ctx : RunContext) (timeoutAt : Instant) (ps : PollState) :
    pollTurn ctx timeoutAt ps =
      (get >>= fun s => selectBiased (pollBranches timeoutAt ps s) >>= pollBody ctx ps) := by
  unfold pollTurn
  congr 1

/-- What precedes the loop. -/
def enterLoop (ctx : RunContext) : Io Unit := do
  let tickTime ← TickTimeSource.forDriver ctx.driver ctx.timeAnchor
    ctx.effectiveTiming.pollIntervalMs
  modifyProgram fun p => { p with tickTime := tickTime }

/-- A turn that begins with `ps` in `s'` belongs to the run of the loop from `s`. -/
def Polls (ctx : RunContext) (s : Sys) (timeoutAt : Instant) (ps : PollState) (s' : Sys) : Prop :=
  ∃ s₀, enterLoop ctx s = .ok () s₀ ∧
    timeoutAt = s₀.clock + durationSecs ctx.effectiveTiming.timeoutSecs ∧
    Rounds (pollTurn ctx timeoutAt)
      { nextPollAt := s₀.clock, tickIndex := 0, completion := none, postDelayEnd := none } s₀ ps s'

/-- **The loop is its turns.** -/
theorem runPollingLoop_turns (fuel : ℕ) (ctx : RunContext) (s : Sys) :
    wlp (runPollingLoop fuel ctx) (fun outcome s' => ∃ timeoutAt ps s₁, Polls ctx s timeoutAt ps s₁ ∧
      pollTurn ctx timeoutAt ps s₁ = .ok (.inr outcome) s') s := by
  refine wp_bind.mpr (wp_mono (wp_run _ s) ?_ fun _ _ _ => trivial)
  intro tickTime s₁ htime
  have hentry : enterLoop ctx s = .ok () { s₁ with
      program := { s₁.program with tickTime := tickTime } } := by
    unfold enterLoop
    show EStateM.bind _ _ s = _
    simp only [EStateM.bind, htime]
    rfl
  refine wp_bind.mpr ((wp_modifyProgram _).mpr (wp_bind.mpr (wp_now.mpr
    (wp_mono (iterate_rounds _ _ _) ?_ fun _ _ _ => trivial))))
  rintro outcome s' ⟨ps, s₂, hround, hturn⟩
  exact ⟨_, ps, s₂, ⟨_, hentry, rfl, hround⟩, hturn⟩

/-- The outside of a turn is that of the run. -/
theorem Polls.environment {ctx : RunContext} {s s' : Sys} {timeoutAt : Instant} {ps : PollState}
    (h : Polls ctx s timeoutAt ps s') : s'.environment = s.environment := by
  obtain ⟨s₀, hentry, _, hround⟩ := h
  have hentered : Keeps (within (fun _ => True) fun _ => ()) (enterLoop ctx) :=
    (keeps_forDriver _ _ _).bind fun _ => keeps_modifyProgram fun _ => rfl
  have henvironment : s₀.environment = s.environment := (hentered.rel_of_ok hentry).2.1.environment
  refine hround.state (P := fun s' => s'.environment = s.environment) henvironment ?_
  intro ps s₁ ps' s₂ hs₁ hturn
  exact ((keeps_pollTurn ctx timeoutAt ps).rel_of_ok hturn).2.1.environment.trans hs₁

/-! ### The moment of a turn -/

/-- When a wait for the first of `ready` ends. -/
def Sys.wakesAt (s : Sys) (ready : List (Option Instant)) : Option Instant :=
  (earliest ready).map fun t => max s.clock t + s.nextAnswer.lag

/-- The state in which a wait ends. -/
def Sys.woken (s : Sys) (t : Instant) : Sys := { s with cursor := s.cursor + 1, clock := t }

/-- When the `select!` of a turn wakes up. -/
def turnWakesAt (timeoutAt : Instant) (ps : PollState) (s : Sys) : Option Instant :=
  s.wakesAt ((pollBranches timeoutAt ps s).map (·.2))

/-- At `t` neither an MV verification nor the next poll is due. -/
structure NothingDue (ps : PollState) (s : Sys) (t : Instant) : Prop where
  verification : ∀ wakeup, s.program.tracker.bind MvActuationTracker.nextVerificationWakeup =
    some wakeup → t < wakeup
  poll : t < ps.nextPollAt

/-- The branch a turn takes when it wakes up at `t`. -/
def branchTaken (timeoutAt : Instant) (ps : PollState) (s : Sys) (t : Instant) :
    Option PollBranch := chooseReady t 0 (pollBranches timeoutAt ps s)

/-- The turn that wakes up at `t` begins no tick and no verification: it returns, with the timeout
or an interrupt, and has done nothing. -/
structure Stops (ctx : RunContext) (timeoutAt : Instant) (ps : PollState) (s : Sys) (t : Instant) :
    Prop where
  poll : branchTaken timeoutAt ps s t ≠ some .poll
  verification : branchTaken timeoutAt ps s t ≠ some .verification
  returns : ∃ reason s', pollTurn ctx timeoutAt ps s = .ok (.inr (.aborted reason)) s' ∧
    (reason = .timeout ctx.effectiveTiming.timeoutSecs ∨ reason = .userInterrupt) ∧
    s'.trace = s.trace

/-- No turn of the run that wakes up once the timeout has elapsed begins a tick or a verification:
it returns at once, with the timeout or an interrupt. -/
def StopsOnTimeout (ctx : RunContext) (s : Sys) : Prop :=
  ∀ timeoutAt ps s' t, Polls ctx s timeoutAt ps s' → turnWakesAt timeoutAt ps s' = some t →
    timeoutAt ≤ t → Stops ctx timeoutAt ps s' t

/-! ### The first ready branch -/

theorem chooseReady_none {β : Type} (t : Instant) (b : β) (rest : List (β × Option Instant)) :
    chooseReady t 0 ((b, none) :: rest) = chooseReady t 0 rest := rfl

theorem chooseReady_some {β : Type} (t r : Instant) (b : β) (rest : List (β × Option Instant)) :
    chooseReady t 0 ((b, some r) :: rest) = if r ≤ t then some b else chooseReady t 0 rest := by
  unfold chooseReady
  by_cases h : r ≤ t
  · simp [h]
  · simp [h]

theorem get_run (s : Sys) : (get : Io Sys) s = .ok s s := rfl

/-- A `select!` at the moment it wakes up. -/
theorem selectBiased_run {β : Type} {s : Sys} {branches : List (β × Option Instant)} {t : Instant}
    (ht : s.wakesAt (branches.map (·.2)) = some t) :
    selectBiased branches s = match chooseReady t 0 branches with
      | some b => .ok b (s.woken t)
      | none => .error .hung (s.woken t) := by
  obtain ⟨first, hfirst, rfl⟩ := Option.map_eq_some_iff.mp ht
  have hwake : wake (branches.map (·.2)) s =
      .ok s.nextAnswer (s.woken (max s.clock first + s.nextAnswer.lag)) := by
    unfold wake
    show EStateM.bind _ _ s = _
    simp only [EStateM.bind, get_run, hfirst]
    rfl
  unfold selectBiased
  show EStateM.bind _ _ s = _
  simp only [EStateM.bind, hwake]
  generalize max s.clock first + s.nextAnswer.lag = t
  change (match chooseReady t 0 branches with
    | some b => (pure b : Io β)
    | none => throw Fault.hung) (s.woken t) = _
  cases chooseReady t 0 branches <;> rfl

/-- A turn that wakes up at `t`. -/
theorem pollTurn_run (ctx : RunContext) {timeoutAt : Instant} {ps : PollState} {s : Sys}
    {t : Instant} (ht : turnWakesAt timeoutAt ps s = some t) {branch : PollBranch}
    (hbranch : branchTaken timeoutAt ps s t = some branch) :
    pollTurn ctx timeoutAt ps s = pollBody ctx ps branch (s.woken t) := by
  rw [pollTurn_eq]
  show EStateM.bind _ _ s = _
  simp only [EStateM.bind, get_run]
  show EStateM.bind _ _ s = _
  unfold branchTaken at hbranch
  simp only [EStateM.bind, selectBiased_run ht, hbranch]

variable {ctx : RunContext} {timeoutAt : Instant} {ps : PollState} {s : Sys} {t : Instant}

theorem branchTaken_of_nothingDue (timeoutAt : Instant) (h : NothingDue ps s t) :
    branchTaken timeoutAt ps s t =
      chooseReady t 0 [(.ctrlC, s.nextSignal), (.timeout, some timeoutAt)] := by
  have hpoll : ¬ps.nextPollAt ≤ t := Nat.not_le.mpr h.poll
  unfold branchTaken pollBranches
  cases hwakeup : s.program.tracker.bind MvActuationTracker.nextVerificationWakeup with
  | none => rw [chooseReady_none, chooseReady_some, if_neg hpoll]
  | some wakeup =>
    have hwait : ¬wakeup ≤ t := Nat.not_le.mpr (h.verification wakeup hwakeup)
    rw [chooseReady_some, if_neg hwait, chooseReady_some, if_neg hpoll]

/-- With nothing else due, the timeout or an interrupt ends the run. -/
theorem NothingDue.stops (h : NothingDue ps s t) (ht : turnWakesAt timeoutAt ps s = some t)
    (hlate : timeoutAt ≤ t) : Stops ctx timeoutAt ps s t := by
  have htimeout : branchTaken timeoutAt ps s t = some .timeout →
      Stops ctx timeoutAt ps s t := fun hbranch =>
    ⟨by rw [hbranch]; nofun, by rw [hbranch]; nofun, _, _, pollTurn_run ctx ht hbranch, .inl rfl,
      rfl⟩
  have hlast : chooseReady t 0 [(PollBranch.timeout, some timeoutAt)] = some .timeout := by
    rw [chooseReady_some, if_pos hlate]
  have hbranch := branchTaken_of_nothingDue timeoutAt h
  cases hsignal : s.nextSignal with
  | none =>
    rw [hsignal, chooseReady_none, hlast] at hbranch
    exact htimeout hbranch
  | some signal =>
    rw [hsignal, chooseReady_some, hlast] at hbranch
    split at hbranch
    · exact ⟨by rw [hbranch]; nofun, by rw [hbranch]; nofun, _, _, pollTurn_run ctx ht hbranch,
        .inr rfl, rfl⟩
    · exact htimeout hbranch

/-- An earlier branch that is due is taken. -/
theorem branchTaken_of_due (timeoutAt : Instant) (h : ¬NothingDue ps s t) :
    branchTaken timeoutAt ps s t = some .verification ∨
      branchTaken timeoutAt ps s t = some .poll := by
  unfold branchTaken pollBranches
  cases hwakeup : s.program.tracker.bind MvActuationTracker.nextVerificationWakeup with
  | none =>
    have hpoll : ps.nextPollAt ≤ t := by
      by_contra hlater
      exact h ⟨fun _ h => absurd (hwakeup.symm.trans h) nofun, Nat.not_le.mp hlater⟩
    rw [chooseReady_none, chooseReady_some, if_pos hpoll]
    exact .inr rfl
  | some wakeup =>
    rw [chooseReady_some]
    by_cases hwait : wakeup ≤ t
    · rw [if_pos hwait]
      exact .inl rfl
    · have hpoll : ps.nextPollAt ≤ t := by
        by_contra hlater
        refine h ⟨fun w hw => ?_, Nat.not_le.mp hlater⟩
        obtain rfl := Option.some.inj (hwakeup.symm.trans hw)
        exact Nat.not_le.mp hwait
      rw [if_neg hwait, chooseReady_some, if_pos hpoll]
      exact .inr rfl

/-- After a tick as slow as the poll interval the loop goes on, whatever the timeout. -/
theorem branchTaken_of_slow_tick (hslow : ps.nextPollAt ≤ s.clock)
    (ht : turnWakesAt timeoutAt ps s = some t) :
    branchTaken timeoutAt ps s t = some .verification ∨
      branchTaken timeoutAt ps s t = some .poll := by
  refine branchTaken_of_due timeoutAt fun hnothing => ?_
  obtain ⟨first, _, rfl⟩ := Option.map_eq_some_iff.mp ht
  have hlate : s.clock ≤ max s.clock first + s.nextAnswer.lag :=
    (le_max_left _ _).trans (Nat.le_add_right _ _)
  exact absurd hnothing.poll (Nat.not_lt.mpr (hslow.trans hlate))

/-- Where a turn stops, nothing else was due. -/
theorem Stops.nothingDue (h : Stops ctx timeoutAt ps s t) : NothingDue ps s t := by
  by_contra hdue
  rcases branchTaken_of_due timeoutAt hdue with hbranch | hbranch
  · exact h.verification hbranch
  · exact h.poll hbranch

/-! ### The pace of the ticks -/

/-- A turn that begins with `ps` in `s'` belongs to the run of the loop from `s`, and the next poll
is due at `due`: on entry to the loop at once, later one poll interval after the last tick began. -/
inductive Paced (ctx : RunContext) (s : Sys) (timeoutAt : Instant) :
    Instant → PollState → Sys → Prop
  | entry {s₀ : Sys} (hentry : enterLoop ctx s = .ok () s₀)
      (htimeout : timeoutAt = s₀.clock + durationSecs ctx.effectiveTiming.timeoutSecs) :
      Paced ctx s timeoutAt s₀.clock
        { nextPollAt := s₀.clock, tickIndex := 0, completion := none, postDelayEnd := none } s₀
  | tick {due began : Instant} {ps ps' : PollState} {s₁ s₂ : Sys}
      (h : Paced ctx s timeoutAt due ps s₁) (hbegan : turnWakesAt timeoutAt ps s₁ = some began)
      (htaken : branchTaken timeoutAt ps s₁ began = some .poll)
      (hbody : pollTurn ctx timeoutAt ps s₁ = .ok (.inl ps') s₂) :
      Paced ctx s timeoutAt (began + durationMillis ctx.effectiveTiming.pollIntervalMs) ps' s₂
  | verification {due began : Instant} {ps ps' : PollState} {s₁ s₂ : Sys}
      (h : Paced ctx s timeoutAt due ps s₁) (hbegan : turnWakesAt timeoutAt ps s₁ = some began)
      (htaken : branchTaken timeoutAt ps s₁ began = some .verification)
      (hbody : pollTurn ctx timeoutAt ps s₁ = .ok (.inl ps') s₂) :
      Paced ctx s timeoutAt due ps' s₂

/-- A tick that goes on has armed the next one from its own start. -/
theorem pollTick_arms (ctx : RunContext) (ps : PollState) (s : Sys) :
    wlp (pollTick ctx ps) (fun r _ => ∀ ps', r = .inl ps' →
      ps'.nextPollAt = s.clock + durationMillis ctx.effectiveTiming.pollIntervalMs) s := by
  refine wp_bind.mpr (wp_now.mpr (wlp_last fun read s' => ?_))
  cases read with
  | aborted reason => exact nofun
  | sample pv quality evidence batchedAbort =>
    have habort : ∀ tickIndex tick state quality reason s₁, wlp
        (abortWithSample tickIndex tick state quality reason) (fun r _ => ∀ ps', r = .inl ps' →
          ps'.nextPollAt = s.clock + durationMillis ctx.effectiveTiming.pollIntervalMs) s₁ :=
      fun _ _ _ _ _ _ => wlp_last fun _ _ => nofun
    refine wlp_last fun observedInstant _ => wlp_last fun time _ => wlp_last fun _ _ => ?_
    dsimp only
    split
    · exact wlp_last fun _ _ => habort _ _ _ _ _ _
    · exact wlp_last fun _ _ => habort _ _ _ _ _ _
    · split
      · refine wlp_last fun _ _ => wlp_last fun _ _ => ?_
        rintro _ ⟨rfl⟩
        rfl
      · refine wlp_last fun _ _ => wlp_last fun r _ => ?_
        cases r with
        | error reason => exact habort _ _ _ _ _ _
        | ok actions =>
          refine wlp_last fun r _ => ?_
          cases r with
          | aborted reason state => exact habort _ _ _ _ _ _
          | performed completion postDelayEnd =>
            refine wlp_last fun _ _ => wlp_last fun _ _ => ?_
            dsimp only
            split
            · exact wlp_last fun _ _ => wlp_last fun _ _ => nofun
            · rintro _ ⟨rfl⟩
              rfl

/-- A verification leaves the loop's variables alone. -/
theorem verificationBranch_arms (ctx : RunContext) (ps : PollState) (s : Sys) :
    wlp (verificationBranch ctx ps) (fun r _ => ∀ ps', r = .inl ps' → ps' = ps) s := by
  refine wlp_last fun _ _ => wlp_last fun _ _ => wlp_last fun _ _ => wlp_last fun r _ => ?_
  cases r with
  | none =>
    rintro _ ⟨rfl⟩
    rfl
  | some reason => exact nofun

theorem turnWakesAt_isSome (timeoutAt : Instant) (ps : PollState) (s : Sys) :
    ∃ t, turnWakesAt timeoutAt ps s = some t := by
  have hmem : some timeoutAt ∈ (pollBranches timeoutAt ps s).map (·.2) :=
    List.mem_map.mpr ⟨(.timeout, some timeoutAt), by simp [pollBranches], rfl⟩
  obtain ⟨first, hfirst⟩ := earliest_isSome hmem
  exact ⟨_, by rw [turnWakesAt, Sys.wakesAt, hfirst]; rfl⟩

/-- A turn after which the loop goes on was a tick or a verification. -/
theorem branchTaken_of_goesOn {ps' : PollState} {s' : Sys}
    (ht : turnWakesAt timeoutAt ps s = some t)
    (hturn : pollTurn ctx timeoutAt ps s = .ok (.inl ps') s') :
    branchTaken timeoutAt ps s t = some .poll ∨
      branchTaken timeoutAt ps s t = some .verification := by
  cases hbranch : branchTaken timeoutAt ps s t with
  | none =>
    rw [pollTurn_eq] at hturn
    change EStateM.bind _ _ s = _ at hturn
    simp only [EStateM.bind, get_run] at hturn
    change EStateM.bind _ _ s = _ at hturn
    unfold branchTaken at hbranch
    simp only [EStateM.bind, selectBiased_run ht, hbranch] at hturn
    cases hturn
  | some branch =>
    rw [pollTurn_run ctx ht hbranch] at hturn
    cases branch with
    | verification => exact .inr rfl
    | poll => exact .inl rfl
    | ctrlC => cases hturn
    | timeout => cases hturn

/-- **The next poll is due when the pace of the ticks makes it due.** -/
theorem Paced.nextPollAt {s' : Sys} {due : Instant} (h : Paced ctx s timeoutAt due ps s') :
    ps.nextPollAt = due := by
  induction h with
  | entry => rfl
  | tick _ hbegan htaken hbody _ =>
    rw [pollTurn_run ctx hbegan htaken] at hbody
    exact wp_ok (pollTick_arms ctx _ _) hbody _ rfl
  | verification _ hbegan htaken hbody ih =>
    rw [pollTurn_run ctx hbegan htaken] at hbody
    rw [wp_ok (verificationBranch_arms ctx _ _) hbody _ rfl, ih]

/-- Every turn of the loop keeps the pace. -/
theorem Polls.paced {s' : Sys} (h : Polls ctx s timeoutAt ps s') :
    ∃ due, Paced ctx s timeoutAt due ps s' := by
  obtain ⟨s₀, hentry, htimeout, hround⟩ := h
  induction hround with
  | start => exact ⟨_, .entry hentry htimeout⟩
  | next _ hturn ih =>
    obtain ⟨due, hpaced⟩ := ih
    obtain ⟨t, ht⟩ := turnWakesAt_isSome timeoutAt _ _
    rcases branchTaken_of_goesOn ht hturn with htaken | htaken
    · exact ⟨_, .tick hpaced ht htaken hturn⟩
    · exact ⟨_, .verification hpaced ht htaken hturn⟩

theorem Paced.polls {s' : Sys} {due : Instant} (h : Paced ctx s timeoutAt due ps s') :
    Polls ctx s timeoutAt ps s' := by
  induction h with
  | entry hentry htimeout => exact ⟨_, hentry, htimeout, .start⟩
  | tick _ _ _ hbody ih =>
    obtain ⟨s₀, hentry, htimeout, hround⟩ := ih
    exact ⟨s₀, hentry, htimeout, hround.next hbody⟩
  | verification _ _ _ hbody ih =>
    obtain ⟨s₀, hentry, htimeout, hround⟩ := ih
    exact ⟨s₀, hentry, htimeout, hround.next hbody⟩

/-! ### When the timeout is effective -/

/-- What is due at `due` keeps clear of the timeout, for a `select!` that is entered at `entered`
and is woken with a delay. -/
structure ClearOf (timeoutAt due entered delay : Instant) : Prop where
  /-- If the timeout has elapsed by then, it is not due by then. -/
  late : timeoutAt ≤ entered + delay → entered + delay < due
  /-- If the timeout is still ahead, the two are further apart than the delay. -/
  apart : entered < timeoutAt → due + delay < timeoutAt ∨ timeoutAt + delay < due

instance (timeoutAt due entered delay : Instant) :
    Decidable (ClearOf timeoutAt due entered delay) :=
  decidable_of_iff ((timeoutAt ≤ entered + delay → entered + delay < due) ∧
      (entered < timeoutAt → due + delay < timeoutAt ∨ timeoutAt + delay < due))
    ⟨fun h => ⟨h.1, h.2⟩, fun h => ⟨h.late, h.apart⟩⟩

/-- A `select!` that keeps clear is woken before what is due, if at the timeout or later. -/
theorem ClearOf.woken_before {timeoutAt due entered delay first : ℕ}
    (h : ClearOf timeoutAt due entered delay) (hdue : first ≤ due) (htimeout : first ≤ timeoutAt)
    (hlate : timeoutAt ≤ max entered first + delay) : max entered first + delay < due := by
  have hentered : timeoutAt ≤ entered + delay → entered + delay < due := h.late
  have hapart : entered < timeoutAt → due + delay < timeoutAt ∨ timeoutAt + delay < due := h.apart
  rcases Nat.lt_or_ge entered timeoutAt with hbefore | hafter
  · rcases hapart hbefore with hearlier | hlater
    · -- due before the timeout, only a `select!` entered too late is woken past it
      omega
    · omega
  · omega

/-- A `select!` that waits for what is due and for the timeout keeps clear if it is. -/
theorem clearOf_of_woken {timeoutAt due entered delay : ℕ}
    (h : timeoutAt ≤ max entered (min due timeoutAt) + delay →
      max entered (min due timeoutAt) + delay < due) : ClearOf timeoutAt due entered delay := by
  have hentered : timeoutAt ≤ entered + delay → entered + delay < due := by omega
  have hapart : entered < timeoutAt → due + delay < timeoutAt ∨ timeoutAt + delay < due := by omega
  exact ⟨hentered, hapart⟩

/-- When the next poll, due at `due`, or the MV verification is due, whichever comes first. -/
def Sys.firstDue (s : Sys) (due : Instant) : Instant :=
  match s.program.tracker.bind MvActuationTracker.nextVerificationWakeup with
  | none => due
  | some wakeup => min wakeup due

/-- Whenever the loop of the run comes to its `select!`, from the entry or from the body of a tick
or a verification, what is due next keeps clear of the timeout.  Of a tick during which the timeout
elapses this asks that the loop is back less than one poll interval after the tick began. -/
def TicksInTime (ctx : RunContext) (s : Sys) : Prop :=
  ∀ timeoutAt due ps s', Paced ctx s timeoutAt due ps s' →
    ClearOf timeoutAt (s'.firstDue due) s'.clock s'.nextAnswer.lag

theorem nothingDue_iff : NothingDue ps s t ↔ t < s.firstDue ps.nextPollAt := by
  unfold Sys.firstDue
  cases hwakeup : s.program.tracker.bind MvActuationTracker.nextVerificationWakeup with
  | none => exact ⟨fun h => h.poll, fun h => ⟨fun _ h => absurd (hwakeup.symm.trans h) nofun, h⟩⟩
  | some wakeup =>
    refine ⟨fun h => lt_min (h.verification _ hwakeup) h.poll, fun h => ⟨fun w hw => ?_, ?_⟩⟩
    · obtain rfl := Option.some.inj (hwakeup.symm.trans hw)
      exact (lt_min_iff.mp h).1
    · exact (lt_min_iff.mp h).2

/-- The wait of a turn ends no later than what is due next or the timeout. -/
theorem turnWakesAt_le (ht : turnWakesAt timeoutAt ps s = some t) :
    ∃ first, first ≤ s.firstDue ps.nextPollAt ∧ first ≤ timeoutAt ∧
      t = max s.clock first + s.nextAnswer.lag := by
  obtain ⟨first, hfirst, rfl⟩ := Option.map_eq_some_iff.mp ht
  have hpoll : first ≤ ps.nextPollAt := earliest_le hfirst (by simp [pollBranches])
  refine ⟨first, ?_, earliest_le hfirst (by simp [pollBranches]), rfl⟩
  unfold Sys.firstDue
  cases hwakeup : s.program.tracker.bind MvActuationTracker.nextVerificationWakeup with
  | none => exact hpoll
  | some wakeup =>
    exact le_min (earliest_le hfirst (by simp [pollBranches, hwakeup])) hpoll

/-- Without an interrupt ahead, it ends with one of the two. -/
theorem turnWakesAt_eq (timeoutAt : Instant) (ps : PollState) (hsignal : s.nextSignal = none) :
    turnWakesAt timeoutAt ps s =
      some (max s.clock (min (s.firstDue ps.nextPollAt) timeoutAt) + s.nextAnswer.lag) := by
  unfold turnWakesAt Sys.wakesAt pollBranches Sys.firstDue earliest
  cases s.program.tracker.bind MvActuationTracker.nextVerificationWakeup with
  | none => simp [hsignal, List.reduceOption]
  | some wakeup => simp [hsignal, List.reduceOption]

/-- A turn that keeps clear of the timeout finds nothing due there. -/
theorem ClearOf.nothingDue
    (h : ClearOf timeoutAt (s.firstDue ps.nextPollAt) s.clock s.nextAnswer.lag)
    (ht : turnWakesAt timeoutAt ps s = some t) (hlate : timeoutAt ≤ t) : NothingDue ps s t := by
  obtain ⟨first, hdue, htimeout, rfl⟩ := turnWakesAt_le ht
  exact nothingDue_iff.mpr (h.woken_before hdue htimeout hlate)

/-- Without an interrupt ahead, a turn that does not keep clear of the timeout goes on. -/
theorem clearOf_of_nothingDue (hsignal : s.nextSignal = none)
    (h : ∀ t, turnWakesAt timeoutAt ps s = some t → timeoutAt ≤ t → NothingDue ps s t) :
    ClearOf timeoutAt (s.firstDue ps.nextPollAt) s.clock s.nextAnswer.lag := by
  exact clearOf_of_woken fun hlate =>
    nothingDue_iff.mp (h _ (turnWakesAt_eq timeoutAt ps hsignal) hlate)

/-- **When the whole-run timeout is effective.**  In a run whose ticks keep clear of the timeout,
no turn that wakes up once the timeout has elapsed does anything but return.  Where no interrupt
ever comes, these are all the runs of which that is true. -/
theorem timeout_effective (ctx : RunContext) (s : Sys) :
    (TicksInTime ctx s → StopsOnTimeout ctx s) ∧
      (s.environment.signals = [] → (StopsOnTimeout ctx s ↔ TicksInTime ctx s)) := by
  have hstops : TicksInTime ctx s → StopsOnTimeout ctx s := by
    intro h timeoutAt ps s' t hturn ht hlate
    obtain ⟨due, hpaced⟩ := hturn.paced
    have hclear := h timeoutAt due ps s' hpaced
    rw [← hpaced.nextPollAt] at hclear
    exact (hclear.nothingDue ht hlate).stops ht hlate
  refine ⟨hstops, fun hsignals => ⟨fun h timeoutAt due ps s' hpaced => ?_, hstops⟩⟩
  have hsignal : s'.nextSignal = none := by
    unfold Sys.nextSignal
    rw [hpaced.polls.environment, hsignals]
    exact List.getElem?_nil
  rw [← hpaced.nextPollAt]
  refine clearOf_of_nothingDue hsignal fun t ht hlate => ?_
  exact (h timeoutAt ps s' t hpaced.polls ht hlate).nothingDue

/-! ### A run that stops and one that does not -/

/-- The loop FC1 with a whole-run timeout of two seconds. -/
def twoSecondContext : RunContext :=
  { flowContext with effectiveTiming := ⟨0, 800, 2, 30, 30⟩ }

/-- An outside in which every call takes the same time, and the PV swings after the eleventh. -/
def steadyEnvironment (latency : Instant) : Environment where
  answers := fun n =>
    { latency := some latency
      values := .ok [⟨"FC1.PV", "", .finite (if n < 12 then 45 else 55), .good⟩,
        ⟨"FC1.MV", "", .finite 60, .good⟩] }
  signals := []
  signals_sorted := Environment.noSignals_sorted

/-- The turns of the loop FC1 in that outside. -/
def steadyTurn (latency : Instant) (n : ℕ) : Option (PollState × Sys) :=
  roundAt (pollTurn twoSecondContext (durationSecs 2))
    { nextPollAt := 0, tickIndex := 0, completion := none, postDelayEnd := none }
    (flowSys (steadyEnvironment latency)) n

/-- The timeout of that run, which is entered at time zero. -/
theorem steady_timeout (latency : Instant) : (flowSys (steadyEnvironment latency)).clock +
    durationSecs twoSecondContext.effectiveTiming.timeoutSecs = durationSecs 2 := Nat.zero_add _

theorem steadyTurn_of_polls {latency : Instant} {timeoutAt : Instant} {ps : PollState} {s : Sys}
    (h : Polls twoSecondContext (flowSys (steadyEnvironment latency)) timeoutAt ps s) :
    timeoutAt = durationSecs 2 ∧ ∃ n, steadyTurn latency n = some (ps, s) := by
  obtain ⟨s₀, hentry, htimeout, hround⟩ := h
  cases hentry
  rw [steady_timeout] at htimeout
  exact ⟨htimeout, (htimeout ▸ hround).roundAt⟩

theorem polls_of_steadyTurn {latency : Instant} {n : ℕ} {ps : PollState} {s : Sys}
    (h : steadyTurn latency n = some (ps, s)) :
    Polls twoSecondContext (flowSys (steadyEnvironment latency)) (durationSecs 2) ps s :=
  ⟨flowSys (steadyEnvironment latency), rfl, (steady_timeout latency).symm, rounds_of_roundAt h⟩

/-- With calls of a tenth of a second no tick takes as long as the poll interval of 800 ms, and the
loop stops after the third. -/
theorem timeout_effective_steady :
    StopsOnTimeout twoSecondContext (flowSys (steadyEnvironment (durationMillis 100))) := by
  refine (timeout_effective _ _).1 fun timeoutAt due ps s' hpaced => ?_
  obtain ⟨rfl, n, hn⟩ := steadyTurn_of_polls hpaced.polls
  rw [← hpaced.nextPollAt]
  have hlast : steadyTurn (durationMillis 100) 4 = none := by decide +kernel
  have hfew : n < 4 := by
    by_contra hmany
    rw [steadyTurn, roundAt_of_none hlast (Nat.le_of_not_lt hmany)] at hn
    cases hn
  have hclear : ∀ n < 4, (steadyTurn (durationMillis 100) n).all (fun turn =>
      decide (ClearOf (durationSecs 2) (turn.2.firstDue turn.1.nextPollAt) turn.2.clock
        turn.2.nextAnswer.lag)) = true := by
    decide +kernel
  have hturn := hclear n hfew
  rw [hn] at hturn
  exact of_decide_eq_true hturn

/-- The relay writes on record that were issued at `t` or later. -/
def relayWritesSince (t : Instant) (events : List Event) : List ℚ :=
  events.filterMap fun e =>
    match e with
    | .write ⟨.relay _ _, _, .float v, started, _, _⟩ => if t ≤ started then some v else none
    | _ => none

/-- With a timeout of two seconds and calls of one second, the second tick begins after four
seconds, and its fourth after nine seconds makes another relay write. -/
theorem timeout_starved :
    ¬StopsOnTimeout twoSecondContext (flowSys (steadyEnvironment (durationMillis 1000))) ∧
    (steadyTurn (durationMillis 1000) 4).map (fun turn =>
      relayWritesSince (durationSecs 9) turn.2.trace) = some [40] := by
  have hsecond : (steadyTurn (durationMillis 1000) 1).map (fun turn =>
      (turnWakesAt (durationSecs 2) turn.1 turn.2,
        branchTaken (durationSecs 2) turn.1 turn.2 (durationSecs 4))) =
      some (some (durationSecs 4), some .poll) := by decide +kernel
  refine ⟨fun hstops => ?_, by decide +kernel⟩
  obtain ⟨⟨ps, s⟩, hturn, hpoll⟩ := Option.map_eq_some_iff.mp hsecond
  obtain ⟨hwakes, htaken⟩ := Prod.mk.inj hpoll
  exact (hstops _ ps s _ (polls_of_steadyTurn hturn) hwakes (by decide)).poll htaken

end Bhtune
