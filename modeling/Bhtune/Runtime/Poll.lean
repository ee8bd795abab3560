import Bhtune.Runtime.Actuation

/-!
# The polling loop

`run_polling_loop_with_timing`: a biased `select!` over the MV verification wake-up, the next
poll, Ctrl+C and the whole-run timeout.  A poll tick reads the PV (and the MV while a command is
pending), lets the engine decide, performs what it asks for and records a sample.  The body of
one branch runs to its end before the next `select!`.
-/

namespace Bhtune

open Effect

/-! ### Sample timestamps -/

/-- `TickTimeSource::for_driver`. -/
def TickTimeSource.forDriver (driver : DriverKind) (anchor : RunTimeAnchor)
    (pollIntervalMs : ℕ) : Io TickTimeSource :=
  match driver with
  | .opcda => return .liveMonotonic anchor
  | .simulator => do
    let step ← durationFromStd (durationMillis (max pollIntervalMs 1))
      (text "poll interval " ++ [.nat pollIntervalMs] ++
        text " ms is too large for simulator timestamps")
    return .fixedStep anchor.utc step

/-- `TickTimeSource::next_timestamp`. -/
def nextTimestamp : Io UtcTime := do
  match (← get).program.tickTime with
  | .liveMonotonic anchor => do
    let t ← now
    if t < anchor.monotonic then
      bail (text "live monotonic clock moved before the run's time anchor")
    else
      let elapsed ← durationFromStd (t - anchor.monotonic)
        (text "live elapsed time exceeds chrono's supported range")
      return anchor.utc + elapsed
  | .fixedStep current step => do
    modifyProgram fun p => { p with tickTime := .fixedStep (current + step) step }
    return current + step

/-- `PollTimingAccumulator::observe`. -/
def PollTimingAccumulator.observe (timing : PollTimingAccumulator) (timestamp : UtcTime) :
    Except Text PollTimingAccumulator :=
  match timing.previousTimestamp with
  | none => .ok { timing with previousTimestamp := some timestamp }
  | some previous =>
    let gapMicros := (timestamp - previous).tdiv 1000
    if gapMicros < 0 then .error (text "sample timestamps moved backward")
    else
      .ok { timing with
        previousTimestamp := some timestamp
        sampleGapCount := timing.sampleGapCount + 1
        totalGapMicros := timing.totalGapMicros + gapMicros.toNat
        maxGapMicros := max timing.maxGapMicros gapMicros.toNat
        missedPollOpportunityCount :=
          if timing.requestedIntervalMs * 2000 ≤ gapMicros.toNat then
            timing.missedPollOpportunityCount + 1
          else timing.missedPollOpportunityCount }

/-- `timing.observe(now)?`. -/
def observeTimestamp (timestamp : UtcTime) : Io Unit := do
  let timing ← liftResult ((← get).program.timing.observe timestamp)
  modifyProgram fun p => { p with timing := timing }

/-! ### One poll tick -/

/-- `PollOutcome`: the completing action and the engine's last state, or why the run ended. -/
inductive PollOutcome where
  | completed (action : Action ℚ) (state : MrftState ℚ) (nextTickIndex : ℕ)
  | aborted (reason : AbortReason)
  deriving DecidableEq

/-- The local variables of the loop. -/
structure PollState where
  nextPollAt : Instant
  tickIndex : ℕ
  completion : Option (Action ℚ)
  postDelayEnd : Option UtcTime

/-- What the read of a poll tick came to. -/
inductive PollRead where
  | sample (pv : ℚ) (quality : Quality) (providedMvEvidence : Bool)
      (batchedMvAbortReason : Option AbortReason)
  | aborted (reason : AbortReason)

/-- `insert_tune_sample_with_timing`. -/
def insertTuneSample (tickIndex : ℕ) (tick : Tick ℚ) (state : MrftState ℚ)
    (quality : SampleQuality) : Io Unit :=
  runStatement (.insertSample tickIndex tick state quality)

/-- `engine.state()`. -/
def engineState (ctx : RunContext) : Io (MrftState ℚ) :=
  return (← get).program.engine.state ctx.arith

/-- The read of a poll tick was given up while a command is pending. -/
def abandonedPollRead (ctx : RunContext) (operation : TickOperation (List TagValue))
    (message : String) (otherwise : AbortReason) : Io PollRead := do
  match ← getPending with
  | some pending => do
    let completedAt ← now
    let checkedAt ← checkedAtForPending pending completedAt
    let (reason, _) ← resolvePendingMvPoll ctx operation checkedAt completedAt
    let reason ← requireInvariant reason message
    return .aborted reason
  | none => return .aborted otherwise

/-- The read of a poll tick: the PV, and the MV while a command is pending. -/
def pollRead (ctx : RunContext) : Io PollRead := do
  let pendingActuation := (← getPending).isSome
  let pvTag := ctx.tags.processVariable
  match ← readPollBatch ctx.effectiveTiming.opTimeoutSecs pvTag
      (if pendingActuation then some ctx.tags.manipulatedVariable else none) with
  | .completed values => do
    let completedAt ← now
    let (reason, evidence) ←
      if pendingActuation then do
        let pending ← requireInvariant (← getPending)
          "pending actuation existed for the batched poll"
        let checkedAt ← checkedAtForPending pending completedAt
        resolvePendingMvPoll ctx (.completed values) checkedAt completedAt
      else pure (none, false)
    let (pv, quality) ← liftResult (readNumericFromBatch values pvTag)
    return .sample pv quality evidence reason
  | .cancelled =>
    abandonedPollRead ctx .cancelled "a cancelled pending MV poll must abort the run"
      .userInterrupt
  | .timedOut =>
    abandonedPollRead ctx .timedOut "a timed-out pending MV poll must abort the run"
      (.operationTimedOut pvTag ctx.effectiveTiming.opTimeoutSecs)

/-- One `engine.step`.  While a command is pending the tick is evaluated on a clone, and the clone
is committed only if it asks for no write. -/
def evaluateTick (ctx : RunContext) (tick : Tick ℚ) (providedMvEvidence : Bool) :
    Io (Except AbortReason (List (Action ℚ))) := do
  let before := (← get).program.engine
  let pending ← getPending
  let (preview, actions) := before.step ctx.arith tick
  mark (.evaluated before tick pending actions)
  if pending.isSome ∧ actions.any Action.isWrite then
    if providedMvEvidence then do
      let reason ← rejectReplacementForPendingActuation ctx.tags.manipulatedVariable
      return .error reason
    else throw .panic
  else do
    modifyProgram fun p => { p with engine := preview }
    return .ok actions

/-- How the actions of a tick ended: performed, with what they changed, or given up with the
engine state the sample gets. -/
inductive ActionsEnd where
  | performed (completion : Option (Action ℚ)) (postDelayEnd : Option UtcTime)
  | aborted (reason : AbortReason) (state : MrftState ℚ)

/-- The tolerance of a relay command, for a driver whose commands are verified. -/
def relayTolerance (v : ℚ) : Io (Option ℚ) := do
  match (← get).program.tracker with
  | none => return none
  | some tracker => do
    let tolerance ← liftResult
      (mvActuationTolerance .relay v tracker.previousCommandedMv tracker.mvSpan)
    return some tolerance

/-- The audit record of `Action::WriteMv`. -/
def recordWriteMv (ctx : RunContext) (v : ℚ) (time : UtcTime) (observedInstant : Instant)
    (tolerance : Option ℚ) (operation : TickOperation Unit) : Io (TickOperation Unit) :=
  match operation, tolerance with
  | .completed (), some tolerance => do
    let commandedInstant ← now
    recordRelayActuation v time observedInstant
      (observedInstant + durationSecs ctx.config.noiseProtectionSecs.toNat)
      (commandedInstant - observedInstant) commandedInstant tolerance
    return operation
  | _, _ => return operation

/-- `Action::WriteMv`: the bounded write and its audit record. -/
def performWriteMv (ctx : RunContext) (v : ℚ) (time : UtcTime) (observedInstant : Instant) :
    Io (TickOperation Unit) := do
  let tolerance ← relayTolerance v
  modifyProgram fun p => { p with guard := { p.guard with mvWritten := true } }
  let pending ← getPending
  let operation ← bounded (boundedWrite none ctx.effectiveTiming.opTimeoutSecs
    (.relay tolerance pending) ctx.tags.manipulatedVariable (.float v))
  recordWriteMv ctx v time observedInstant tolerance operation

/-- Performs the actions of a tick in order. -/
def performActions (ctx : RunContext) (time : UtcTime) (observedInstant : Instant)
    (stateBeforeStep : MrftState ℚ) (completion : Option (Action ℚ))
    (postDelayEnd : Option UtcTime) : List (Action ℚ) → Io ActionsEnd
  | [] => return .performed completion postDelayEnd
  | .writeMv v :: rest => do
    match ← performWriteMv ctx v time observedInstant with
    | .completed () =>
      performActions ctx time observedInstant stateBeforeStep completion postDelayEnd rest
    | .cancelled => return .aborted .userInterrupt stateBeforeStep
    | .timedOut =>
      return .aborted (.operationTimedOut ctx.tags.manipulatedVariable
        ctx.effectiveTiming.opTimeoutSecs) (← engineState ctx)
  | .complete peaks troughs switchTimes mvSignInit :: rest =>
    performActions ctx time observedInstant stateBeforeStep
      (some (.complete peaks troughs switchTimes mvSignInit))
      (some (time + seconds ctx.effectiveTiming.mrftDelaySecs)) rest

/-- Records a sample and gives the run up. -/
def abortWithSample (tickIndex : ℕ) (tick : Tick ℚ) (state : MrftState ℚ)
    (quality : SampleQuality) (reason : AbortReason) : Io (PollState ⊕ PollOutcome) := do
  insertTuneSample tickIndex tick state quality
  return .inr (.aborted reason)

/-- The tick once its sample is known to be of acceptable quality and the engine may see it. -/
def evaluatedTick (ctx : RunContext) (ps : PollState) (tick : Tick ℚ) (observedInstant : Instant)
    (quality : SampleQuality) (providedMvEvidence : Bool) : Io (PollState ⊕ PollOutcome) := do
  let stateBeforeStep ← engineState ctx
  match ← evaluateTick ctx tick providedMvEvidence with
  | .error reason => abortWithSample ps.tickIndex tick stateBeforeStep quality reason
  | .ok actions =>
    match ← performActions ctx tick.time observedInstant stateBeforeStep ps.completion
        ps.postDelayEnd actions with
    | .aborted reason state => abortWithSample ps.tickIndex tick state quality reason
    | .performed completion postDelayEnd => do
      insertTuneSample ps.tickIndex tick (← engineState ctx) quality
      let ps := { ps with
        tickIndex := ps.tickIndex + 1
        completion := completion
        postDelayEnd := postDelayEnd }
      if postDelayEnd.any (· ≤ tick.time) then do
        let action ← requireInvariant completion
          "the loop only \x60break\x60s after \x60completion\x60 is set"
        return .inr (.completed action (← engineState ctx) ps.tickIndex)
      else return .inl ps

/-- The tick once its sample has been read. -/
def sampledTick (ctx : RunContext) (ps : PollState) (pv : ℚ) (quality : Quality)
    (evidence : Bool) (batchedAbort : Option AbortReason) : Io (PollState ⊕ PollOutcome) := do
  -- the value is timestamped after it has been read
  let observedInstant ← now
  let time ← nextTimestamp
  observeTimestamp time
  let tick : Tick ℚ := ⟨time, pv⟩
  let sampleQuality := sampleQualityFromDriver quality
  let pvTag := ctx.tags.processVariable
  match checkQuality pvTag quality ctx.allowUncertainQuality, batchedAbort with
  | .error _, _ =>
    abortWithSample ps.tickIndex tick (← engineState ctx) sampleQuality
      (.poorQuality pvTag quality)
  | .ok (), some reason =>
    abortWithSample ps.tickIndex tick (← engineState ctx) sampleQuality reason
  | .ok (), none =>
    if ps.completion.isNone ∧
        time < ctx.timeAnchor.utc + seconds ctx.effectiveTiming.mrftDelaySecs then do
      insertTuneSample ps.tickIndex tick (← engineState ctx) sampleQuality
      return .inl { ps with tickIndex := ps.tickIndex + 1 }
    else evaluatedTick ctx ps tick observedInstant sampleQuality evidence

/-- The branch of a due poll. -/
def pollTick (ctx : RunContext) (ps : PollState) : Io (PollState ⊕ PollOutcome) := do
  let ps := { ps with
    nextPollAt := (← now) + durationMillis ctx.effectiveTiming.pollIntervalMs }
  match ← pollRead ctx with
  | .aborted reason => return .inr (.aborted reason)
  | .sample pv quality evidence batchedAbort =>
    sampledTick ctx ps pv quality evidence batchedAbort

/-- The branch of a due MV verification. -/
def verificationBranch (ctx : RunContext) (ps : PollState) : Io (PollState ⊕ PollOutcome) := do
  let t ← now
  let trigger ← requireInvariant ((← getPending).bind (verificationTrigger · t))
    "a verification wakeup requires a due pending actuation"
  match ← verifyPendingMvActuation ctx ctx.tags.manipulatedVariable trigger .none .required with
  | some reason => return .inr (.aborted reason)
  | none => return .inl ps

/-! ### The loop -/

/-- The branches of the loop's `select!`, in their order. -/
inductive PollBranch where
  | verification
  | poll
  | ctrlC
  | timeout
  deriving DecidableEq

/-- One turn of the loop. -/
def pollTurn (ctx : RunContext) (timeoutAt : Instant) (ps : PollState) :
    Io (PollState ⊕ PollOutcome) := do
  let s ← get
  let wakeup := s.program.tracker.bind MvActuationTracker.nextVerificationWakeup
  match ← selectBiased [(PollBranch.verification, wakeup), (.poll, some ps.nextPollAt),
      (.ctrlC, s.nextSignal), (.timeout, some timeoutAt)] with
  | .verification => verificationBranch ctx ps
  | .poll => pollTick ctx ps
  | .ctrlC => do
    modify Sys.seeSignals
    return .inr (.aborted .userInterrupt)
  | .timeout => return .inr (.aborted (.timeout ctx.effectiveTiming.timeoutSecs))

/-- `run_polling_loop_with_timing`, for at most `fuel` turns. -/
def runPollingLoop (fuel : ℕ) (ctx : RunContext) : Io PollOutcome := do
  let tickTime ← TickTimeSource.forDriver ctx.driver ctx.timeAnchor
    ctx.effectiveTiming.pollIntervalMs
  modifyProgram fun p => { p with tickTime := tickTime }
  let start ← now
  let timeoutAt := start + durationSecs ctx.effectiveTiming.timeoutSecs
  iterate .outOfFuel (pollTurn ctx timeoutAt) fuel
    { nextPollAt := start, tickIndex := 0, completion := none, postDelayEnd := none }

/-! ### Frames -/

/-- What the polling loop does to the outside: it reads, records and makes relay writes. -/
def Event.Polls : Event → Prop
  | .read _ => True
  | .db _ _ => True
  | .write call => ∃ tolerance pending, call.origin = .relay tolerance pending
  | .mark (.evaluated _ _ _ _) => True
  | .mark (.commandPending _) => True
  | .mark _ => False

theorem Event.Silent.polls {e : Event} (h : e.Silent) : e.Polls := by
  cases e with
  | read call => trivial
  | db op result => trivial
  | write call => exact h.elim
  | mark m => exact h.elim

section Frames

variable {τ : Type} {p : Event → Prop} {part : Program → τ}

theorem keeps_nextTimestamp
    (hpart : ∀ (a : Program) (t : TickTimeSource), part { a with tickTime := t } = part a) :
    Keeps (within p part) nextTimestamp := by
  refine Keeps.get.bind fun s => ?_
  cases s.program.tickTime with
  | liveMonotonic anchor =>
    refine keeps_now.bind fun t => ?_
    split
    · exact keeps_bail _
    · exact (keeps_durationFromStd _ _).bind fun _ => .pure _
  | fixedStep current step => exact (keeps_modifyProgram fun a => hpart a _).bind fun _ => .pure _

theorem keeps_observeTimestamp
    (hpart : ∀ (a : Program) (t : PollTimingAccumulator), part { a with timing := t } = part a)
    (timestamp : UtcTime) : Keeps (within p part) (observeTimestamp timestamp) :=
  Keeps.get.bind fun _ => (keeps_liftResult _).bind fun _ => keeps_modifyProgram fun a => hpart a _

theorem keeps_engineState {F : Frame Sys} (ctx : RunContext) : Keeps F (engineState ctx) :=
  Keeps.get.bind fun _ => .pure _

theorem keeps_relayTolerance {F : Frame Sys} (v : ℚ) : Keeps F (relayTolerance v) := by
  refine Keeps.get.bind fun s => ?_
  cases s.program.tracker with
  | none => exact .pure _
  | some tracker => exact (keeps_liftResult _).bind fun _ => .pure _

theorem keeps_abortWithSample (hp : ∀ e, Event.Silent e → ¬e.Closes → p e) (tickIndex : ℕ)
    (tick : Tick ℚ) (state : MrftState ℚ) (quality : SampleQuality) (reason : AbortReason) :
    Keeps (within p part) (abortWithSample tickIndex tick state quality reason) :=
  (keeps_statement hp _ id).bind fun _ => .pure _

variable (hp : ∀ e, Event.Silent e → e.Audits → p e)
variable (hpart : ∀ (a : Program) (f : MvActuationTracker → MvActuationTracker),
  (∀ t, (f t).issued = t.issued) → part { a with tracker := a.tracker.map f } = part a)

include hp hpart in
theorem keeps_abandonedPollRead (ctx : RunContext)
    (operation : TickOperation (List TagValue)) (message : String) (otherwise : AbortReason) :
    Keeps (within p part) (abandonedPollRead ctx operation message otherwise) := by
  refine keeps_getPending.bind fun pending => ?_
  cases pending with
  | none => exact .pure _
  | some pending =>
    exact keeps_now.bind fun _ => (keeps_checkedAtForPending _ _).bind fun _ =>
      (keeps_resolvePendingMvPoll hp hpart _ _ _ _).bind fun _ =>
        (keeps_requireInvariant _ _).bind fun _ => .pure _

include hp hpart in
theorem keeps_pollRead (ctx : RunContext) : Keeps (within p part) (pollRead ctx) := by
  refine keeps_getPending.bind fun pending =>
    (keeps_readPollBatch (fun _ => hp _ trivial trivial) _ _ _).bind fun r => ?_
  cases r with
  | completed values =>
    refine keeps_now.bind fun t => ?_
    have htail : ∀ reason evidence, Keeps (within p part)
        (liftResult (readNumericFromBatch values ctx.tags.processVariable) >>= fun x =>
          pure (PollRead.sample x.1 x.2 evidence reason)) :=
      fun _ _ => (keeps_liftResult _).bind fun _ => .pure _
    dsimp only
    split
    · exact keeps_getPending.bind fun _ => (keeps_requireInvariant _ _).bind fun _ =>
        (keeps_checkedAtForPending _ _).bind fun _ =>
          (keeps_resolvePendingMvPoll hp hpart _ _ _ _).bind fun _ => htail _ _
    · exact (Keeps.pure _).bind fun _ => htail _ _
  | cancelled => exact keeps_abandonedPollRead hp hpart _ _ _ _
  | timedOut => exact keeps_abandonedPollRead hp hpart _ _ _ _

end Frames

/-- The frame of the polling loop and of every part of it. -/
abbrev polling (ctx : RunContext) : Frame Sys :=
  within (fun e => e.Polls ∧ ∀ initial, e.Regular ctx initial) fun _ => ()

theorem polling_silent {ctx : RunContext} (e : Event) (h : e.Silent) (hopen : ¬e.Closes) :
    e.Polls ∧ ∀ initial, e.Regular ctx initial := ⟨h.polls, h.regular hopen ctx⟩

theorem polling_minor {ctx : RunContext} (e : Event) (h : e.Silent) (hminor : e.Minor) :
    e.Polls ∧ ∀ initial, e.Regular ctx initial := polling_silent e h hminor.not_closes

theorem polling_audits {ctx : RunContext} (e : Event) (h : e.Silent) (haudits : e.Audits) :
    e.Polls ∧ ∀ initial, e.Regular ctx initial := polling_minor e h haudits.minor

theorem polling_modifyProgram {ctx : RunContext} (f : Program → Program) :
    Keeps (polling ctx) (modifyProgram f) :=
  keeps_modifyProgram fun _ => rfl

theorem keeps_evaluateTick (ctx : RunContext) (tick : Tick ℚ) (providedMvEvidence : Bool) :
    Keeps (polling ctx) (evaluateTick ctx tick providedMvEvidence) := by
  refine Keeps.get.bind fun s => keeps_getPending.bind fun pending =>
    (keeps_mark ⟨trivial, fun _ => ⟨id, trivial⟩⟩).bind fun _ => ?_
  split
  · split
    · exact (keeps_rejectReplacement polling_audits (fun _ _ _ => rfl) _).bind fun _ => .pure _
    · exact .throw _
  · exact (polling_modifyProgram _).bind fun _ => .pure _

/-- The tolerance of a relay command that is made in a state. -/
def Sys.relayTolerance (s : Sys) (v : ℚ) : Except Text (Option ℚ) :=
  match s.program.tracker with
  | none => .ok none
  | some tracker =>
    (mvActuationTolerance .relay v tracker.previousCommandedMv tracker.mvSpan).map some

/-- A relay command keeps what its parts keep; its tolerance is that of the state in which it is
made. -/
theorem relayCommandParts {F : Frame Sys} {ctx : RunContext} {v : ℚ} {time : UtcTime}
    {observedInstant : Instant} {s : Sys}
    (hguard : Keeps F (modifyProgram fun p => { p with guard := { p.guard with mvWritten := true } }))
    (hwrite : ∀ tolerance pending, s.relayTolerance v = .ok tolerance →
      Keeps F (bounded (boundedWrite none ctx.effectiveTiming.opTimeoutSecs
        (.relay tolerance pending) ctx.tags.manipulatedVariable (.float v))))
    (haccept : ∀ tolerance commandedInstant, s.relayTolerance v = .ok (some tolerance) →
      Keeps F (recordRelayActuation v time observedInstant
        (observedInstant + durationSecs ctx.config.noiseProtectionSecs.toNat)
        (commandedInstant - observedInstant) commandedInstant tolerance)) :
    wp (performWriteMv ctx v time observedInstant) (fun _ s' => F.rel s s')
      (fun _ s' => F.rel s s') s := by
  have hrest : ∀ tolerance, s.relayTolerance v = .ok tolerance → Keeps F (do
      modifyProgram fun p => { p with guard := { p.guard with mvWritten := true } }
      let pending ← getPending
      let operation ← bounded (boundedWrite none ctx.effectiveTiming.opTimeoutSecs
        (.relay tolerance pending) ctx.tags.manipulatedVariable (.float v))
      match operation, tolerance with
      | .completed (), some tolerance => do
        let commandedInstant ← now
        recordRelayActuation v time observedInstant
          (observedInstant + durationSecs ctx.config.noiseProtectionSecs.toNat)
          (commandedInstant - observedInstant) commandedInstant tolerance
        return operation
      | _, _ => return operation) := by
    intro tolerance htolerance
    refine hguard.bind fun _ => keeps_getPending.bind fun pending =>
      (hwrite _ _ htolerance).bind fun operation => ?_
    split
    · exact keeps_now.bind fun _ => (haccept _ _ htolerance).bind fun _ => .pure _
    · exact .pure _
  unfold Sys.relayTolerance at hrest
  refine wp_bind.mpr (wp_bind.mpr (wp_get.mpr ?_))
  cases htracker : s.program.tracker with
  | none => exact hrest none (by rw [htracker]) s
  | some tracker =>
    cases htolerance : mvActuationTolerance .relay v tracker.previousCommandedMv tracker.mvSpan with
    | error e =>
      dsimp only
      rw [htolerance]
      exact F.refl s
    | ok tolerance =>
      dsimp only
      rw [htolerance]
      have hsome : (mvActuationTolerance .relay v tracker.previousCommandedMv
          tracker.mvSpan).map some = .ok (some tolerance) := by rw [htolerance]; rfl
      exact hrest (some tolerance) (by rw [htracker]; exact hsome) s

section Actions

variable {τ : Type} {p : Event → Prop} {part : Program → τ} {ctx : RunContext}
variable (hwrite : ∀ tolerance pending v started ended result, p (.write
  ⟨.relay tolerance pending, ctx.tags.manipulatedVariable, .float v, started, ended, result⟩))
variable (hc : ∀ pending, p (.mark (.commandPending pending)))
variable (hrow : ∀ row result, p (.db (.insertPending row) result))
variable (htracker : ∀ (a : Program) (t : Option MvActuationTracker),
  part { a with tracker := t } = part a)
variable (hguard : ∀ (a : Program) (g : MutationGuard), part { a with guard := g } = part a)

include hwrite hc hrow htracker hguard in
theorem keeps_relayCommand (v : ℚ) (time : UtcTime) (observedInstant : Instant) :
    Keeps (within p part) (performWriteMv ctx v time observedInstant) := fun _ =>
  relayCommandParts (keeps_modifyProgram fun a => hguard a _)
    (fun _ _ _ => keeps_bounded (keeps_boundedWrite fun _ _ _ => hwrite _ _ _ _ _ _))
    fun _ _ _ => keeps_recordRelayActuation hc hrow htracker _ _ _ _ _ _ _

include hwrite hc hrow htracker hguard in
theorem keeps_actions (time : UtcTime) (observedInstant : Instant)
    (stateBeforeStep : MrftState ℚ) (completion : Option (Action ℚ))
    (postDelayEnd : Option UtcTime) (actions : List (Action ℚ)) :
    Keeps (within p part) (performActions ctx time observedInstant stateBeforeStep completion
      postDelayEnd actions) := by
  induction actions generalizing completion postDelayEnd with
  | nil => exact .pure _
  | cons action rest ih =>
    cases action with
    | writeMv v =>
      refine (keeps_relayCommand hwrite hc hrow htracker hguard v time observedInstant).bind
        fun operation => ?_
      cases operation with
      | completed => exact ih _ _
      | cancelled => exact .pure _
      | timedOut => exact (keeps_engineState ctx).bind fun _ => .pure _
    | complete peaks troughs switchTimes mvSignInit => exact ih _ _

end Actions

theorem polling_relayWrite {ctx : RunContext} (tolerance : Option ℚ)
    (pending : Option PendingMvActuation) (v : ℚ) (started ended : Instant) (result : WriteResult) :
    let e : Event := .write
      ⟨.relay tolerance pending, ctx.tags.manipulatedVariable, .float v, started, ended, result⟩
    e.Polls ∧ ∀ initial, e.Regular ctx initial :=
  ⟨⟨_, _, rfl⟩, fun _ => ⟨id, rfl⟩⟩

theorem keeps_performWriteMv (ctx : RunContext) (v : ℚ) (time : UtcTime)
    (observedInstant : Instant) :
    Keeps (polling ctx) (performWriteMv ctx v time observedInstant) :=
  keeps_relayCommand polling_relayWrite (fun _ => ⟨trivial, fun _ => ⟨id, trivial⟩⟩)
    (fun row result => polling_silent (.db (.insertPending row) result) trivial id)
    (fun _ _ => rfl) (fun _ _ => rfl) _ _ _

theorem keeps_performActions (ctx : RunContext) (time : UtcTime) (observedInstant : Instant)
    (stateBeforeStep : MrftState ℚ) (completion : Option (Action ℚ))
    (postDelayEnd : Option UtcTime) (actions : List (Action ℚ)) :
    Keeps (polling ctx) (performActions ctx time observedInstant stateBeforeStep completion
      postDelayEnd actions) :=
  keeps_actions polling_relayWrite (fun _ => ⟨trivial, fun _ => ⟨id, trivial⟩⟩)
    (fun row result => polling_silent (.db (.insertPending row) result) trivial id)
    (fun _ _ => rfl) (fun _ _ => rfl) _ _ _ _ _ _

theorem keeps_evaluatedTick (ctx : RunContext) (ps : PollState) (tick : Tick ℚ)
    (observedInstant : Instant) (quality : SampleQuality) (providedMvEvidence : Bool) :
    Keeps (polling ctx) (evaluatedTick ctx ps tick observedInstant quality providedMvEvidence) := by
  refine (keeps_engineState ctx).bind fun before => (keeps_evaluateTick _ _ _).bind fun r => ?_
  cases r with
  | error reason => exact keeps_abortWithSample polling_silent _ _ _ _ _
  | ok actions =>
    refine (keeps_performActions _ _ _ _ _ _ _).bind fun performed => ?_
    cases performed with
    | aborted reason state => exact keeps_abortWithSample polling_silent _ _ _ _ _
    | performed completion postDelayEnd =>
      refine (keeps_engineState ctx).bind fun _ =>
        (keeps_statement polling_silent _ id).bind fun _ => ?_
      dsimp only
      split
      · exact (keeps_requireInvariant _ _).bind fun _ => (keeps_engineState ctx).bind fun _ =>
          .pure _
      · exact .pure _

theorem keeps_sampledTick (ctx : RunContext) (ps : PollState) (pv : ℚ) (quality : Quality)
    (evidence : Bool) (batchedAbort : Option AbortReason) :
    Keeps (polling ctx) (sampledTick ctx ps pv quality evidence batchedAbort) := by
  refine keeps_now.bind fun observedInstant => (keeps_nextTimestamp fun _ _ => rfl).bind
    fun time => (keeps_observeTimestamp (fun _ _ => rfl) time).bind fun _ => ?_
  dsimp only
  split
  · exact (keeps_engineState ctx).bind fun _ =>
      keeps_abortWithSample polling_silent _ _ _ _ _
  · exact (keeps_engineState ctx).bind fun _ =>
      keeps_abortWithSample polling_silent _ _ _ _ _
  · split
    · exact (keeps_engineState ctx).bind fun _ =>
        (keeps_statement polling_silent _ id).bind fun _ => .pure _
    · exact keeps_evaluatedTick _ _ _ _ _ _

theorem keeps_pollTick (ctx : RunContext) (ps : PollState) : Keeps (polling ctx) (pollTick ctx ps) := by
  refine keeps_now.bind fun t =>
    (keeps_pollRead polling_audits (fun _ _ _ => rfl) ctx).bind fun read => ?_
  cases read with
  | aborted reason => exact .pure _
  | sample pv quality evidence batchedAbort => exact keeps_sampledTick _ _ _ _ _ _

theorem keeps_verificationBranch (ctx : RunContext) (ps : PollState) :
    Keeps (polling ctx) (verificationBranch ctx ps) := by
  refine keeps_now.bind fun t => keeps_getPending.bind fun pending =>
    (keeps_requireInvariant _ _).bind fun trigger =>
      (keeps_verifyPendingMvActuation polling_audits (fun _ _ _ => rfl) _ _ _ _ _).bind
        fun r => ?_
  cases r <;> exact .pure _

theorem keeps_pollTurn (ctx : RunContext) (timeoutAt : Instant) (ps : PollState) :
    Keeps (polling ctx) (pollTurn ctx timeoutAt ps) := by
  refine Keeps.get.bind fun s => (keeps_selectBiased _).bind fun branch => ?_
  cases branch with
  | verification => exact keeps_verificationBranch ctx ps
  | poll => exact keeps_pollTick ctx ps
  | ctrlC => exact keeps_seeSignals.bind fun _ => .pure _
  | timeout => exact .pure _

theorem keeps_forDriver {F : Frame Sys} (driver : DriverKind) (anchor : RunTimeAnchor)
    (pollIntervalMs : ℕ) : Keeps F (TickTimeSource.forDriver driver anchor pollIntervalMs) := by
  cases driver with
  | opcda => exact .pure _
  | simulator => exact (keeps_durationFromStd _ _).bind fun _ => .pure _

theorem keeps_runPollingLoop (fuel : ℕ) (ctx : RunContext) :
    Keeps (polling ctx) (runPollingLoop fuel ctx) :=
  (keeps_forDriver _ _ _).bind fun _ => (polling_modifyProgram _).bind fun _ =>
    keeps_now.bind fun _ => Keeps.iterate (fun _ => keeps_pollTurn ctx _ _) _ _

end Bhtune
