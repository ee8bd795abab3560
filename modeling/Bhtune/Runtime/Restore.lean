import Bhtune.Runtime.Poll

/-!
# Restoring the loop

`restore.rs`: the MV step with its four routes (nothing to verify, already confirmed, hand-off of
the final snap-back, fresh write and verification), the settling period before an Auto release,
and the mode, setpoint and mode-attribute steps under one race against Ctrl+C and the restore
deadline.  Operator warnings are printed and read by nobody, so they are left out.
-/

namespace Bhtune

open Effect

/-! ### The report -/

/-- `RestoreReport`. -/
structure RestoreReport where
  mv : RestoreStepOutcome
  mode : RestoreStepOutcome
  setpoint : RestoreStepOutcome
  modeAttribute : RestoreStepOutcome
  deriving DecidableEq

namespace RestoreReport

/-- The steps with their labels, in report order. -/
def steps (report : RestoreReport) : List (String × RestoreStepOutcome) :=
  [("MV", report.mv), ("mode", report.mode), ("setpoint", report.setpoint),
    ("mode attribute", report.modeAttribute)]

/-- The failures of a report. -/
def failures (report : RestoreReport) : List Text :=
  report.steps.filterMap fun step =>
    match step.2 with
    | .failed e => some (text (step.1 ++ ": ") ++ e)
    | _ => none

/-- `all_succeeded`: no step failed. -/
def allSucceeded (report : RestoreReport) : Bool :=
  report.steps.all fun step =>
    match step.2 with
    | .failed _ => false
    | _ => true

/-- `failure_summary`, with the text its caller falls back to. -/
def failureSummary (report : RestoreReport) : Text :=
  match report.failures with
  | [] => text "one or more restore steps failed"
  | failures => joinTexts failures

end RestoreReport

/-! ### The steps after the MV -/

/-- `restore_value_step` and `restore_raw_step`: a failing write is the outcome of its step. -/
def restoreWriteStep (write : Io Unit) : Io RestoreStepOutcome := do
  match ← tryErr write with
  | .ok () => return .succeeded
  | .error e => return .failed e

/-- `restore_mode_step`. -/
def restoreModeStep (ctx : RunContext) (scope : Option Instant) (initial : InitialState) :
    Io RestoreStepOutcome := do
  let guard := (← get).program.guard
  match ctx.tags.controllerMode with
  | none => return .notNeeded
  | some modeTag =>
    let modeRaw := initial.modeRaw.getD ""
    if !guard.modeWritten ∨ !ctx.template.revertMode ∨ modeRaw = ctx.template.modeManualValue then
      return .notNeeded
    else restoreWriteStep (writeRaw scope .restoreMode modeTag modeRaw)

/-- `restore_setpoint_step`. -/
def restoreSetpointStep (ctx : RunContext) (scope : Option Instant) (initial : InitialState) :
    Io RestoreStepOutcome := do
  let guard := (← get).program.guard
  if !guard.modeWritten ∨ !ctx.template.revertMode then return .notNeeded
  else
    match ctx.tags.setpointVariable, initial.setpointIni with
    | some svTag, some svIni => do
      sleep scope (durationMillis 1000)
      restoreWriteStep (writeValue scope .restoreSetpoint svTag svIni)
    | _, _ => return .notNeeded

/-- `restore_mode_attribute_step`. -/
def restoreModeAttributeStep (ctx : RunContext) (scope : Option Instant)
    (initial : InitialState) : Io RestoreStepOutcome := do
  let guard := (← get).program.guard
  match ctx.tags.modeAttribute with
  | none => return .notNeeded
  | some attrTag =>
    let attrRaw := initial.modeAttributeRaw.getD ""
    let programValue := ctx.template.modeAttributeProgramValue.getD ""
    if !guard.modeAttributeWritten ∨ attrRaw = programValue then return .notNeeded
    else restoreWriteStep (writeRaw scope .restoreModeAttribute attrTag attrRaw)

/-- `restore_after_mv_with_policy`. -/
def restoreAfterMvWithPolicy (ctx : RunContext) (scope : Option Instant) (initial : InitialState)
    (mv : RestoreStepOutcome) (policy : RestoreModePolicy) : Io RestoreReport := do
  mark (.laterSteps policy)
  let mode ← match policy with
    | .releaseToInitial => restoreModeStep ctx scope initial
    | .keepManual => pure .notNeeded
  let setpoint ← restoreSetpointStep ctx scope initial
  let modeAttribute ← restoreModeAttributeStep ctx scope initial
  return { mv := mv, mode := mode, setpoint := setpoint, modeAttribute := modeAttribute }

/-- The reason of a restore that ran past its deadline. -/
def restoreTimedOutReason (ctx : RunContext) : Text :=
  text "the restore did not complete within the " ++
    [.nat ctx.effectiveTiming.restoreTimeoutSecs] ++ text "s [tuning].restore_timeout_secs limit"

/-- What a `select!` makes of a future it dropped. -/
def catchCut {α : Type} (x : Io α) : Io (Except Cut α) :=
  attempt (fun fault => match fault with
    | .cut c => some c
    | _ => none) x

/-- `restore_after_mv_with_deadline`. -/
def restoreAfterMvWithDeadline (ctx : RunContext) (initial : InitialState)
    (mv : RestoreStepOutcome) (policy : RestoreModePolicy) : Io RestoreAttempt := do
  let restoreDeadline := (← get).program.restoreDeadline
  match ← catchCut
      (restoreAfterMvWithPolicy ctx (some restoreDeadline) initial mv policy) with
  | .ok report =>
    if report.allSucceeded then return .confirmed else return .incomplete report.failureSummary
  | .error .interrupted =>
    return .incomplete (text "a second Ctrl+C was received while restoring the loop")
  | .error .deadline => return .incomplete (restoreTimedOutReason ctx)

/-! ### The MV step -/

/-- `RestoreMvOutcome`. -/
inductive RestoreMvOutcome where
  | continue (outcome : RestoreStepOutcome)
  | interrupted (reason : Text)

/-- `RestoreHandoffOutcome`. -/
inductive RestoreHandoffOutcome where
  | confirmed
  | rewrite
  | interrupted (reason : Text)

/-- `record_handoff_observation_best_effort`. -/
def recordHandoffObservationBestEffort (pending : PendingMvActuation) (checkedAt : UtcTime)
    (readback : Option ℚ) (quality : Option SampleQuality) (detail : Text) : Io Unit :=
  recordFinalActuationObservation pending checkedAt readback quality .superseded detail

/-- The answer of the hand-off read once it has been taken. -/
def resolveHandoffRead (ctx : RunContext) (tag : String) (initialMv : ℚ)
    (pending : PendingMvActuation) (checkedAt : UtcTime)
    (read : Except Text (Option (TickOperation (ℚ × Quality)))) : Io RestoreHandoffOutcome := do
  match read with
  | .ok none => do
    finalizeActuationBestEffort pending .superseded (text ("the authoritative restore " ++
      "superseded the final MRFT snapback when its tightly bounded handoff read did not finish " ++
      "promptly"))
    return .rewrite
  | .error error => do
    recordHandoffObservationBestEffort pending checkedAt none none
      (text ("the authoritative restore superseded the final MRFT snapback after its handoff " ++
        "read failed: ") ++ error)
    return .rewrite
  | .ok (some .cancelled) => do
    setPending (some pending)
    return .interrupted
      (text "a second Ctrl+C was received while confirming the final MRFT snapback")
  | .ok (some .timedOut) => do
    recordHandoffObservationBestEffort pending checkedAt none none
      (text ("the authoritative restore superseded the final MRFT snapback after its handoff " ++
        "read exceeded the ") ++ [.nat ctx.effectiveTiming.opTimeoutSecs] ++
        text "s operation timeout")
    return .rewrite
  | .ok (some (.completed (readback, quality))) => do
    let sampleQuality := sampleQualityFromDriver quality
    match checkQuality tag quality ctx.allowUncertainQuality with
    | .error _ => do
      recordHandoffObservationBestEffort pending checkedAt (some readback) (some sampleQuality)
        (text ("the authoritative restore superseded the final MRFT snapback after its handoff " ++
          "read reported OPC quality ") ++ [.quality quality])
      return .rewrite
    | .ok () =>
      if actuationMatches pending.target readback pending.tolerance then do
        recordHandoffObservationBestEffort pending checkedAt (some readback) (some sampleQuality)
          (text ("the authoritative restore adopted and confirmed the final MRFT snapback; no " ++
            "duplicate MV write was issued"))
        modifyTracker fun t => { t with confirmedMv := some initialMv }
        return .confirmed
      else do
        recordHandoffObservationBestEffort pending checkedAt (some readback) (some sampleQuality)
          (text ("the authoritative restore superseded an unconfirmed final MRFT snapback and " ++
            "issued a replacement MV write"))
        return .rewrite

/-- `try_confirm_final_snapback_handoff_with_timing`. -/
def tryConfirmFinalSnapbackHandoff (ctx : RunContext) (tag : String) (initialMv : ℚ) :
    Io (Option RestoreHandoffOutcome) := do
  match ← getPending with
  | none => return none
  | some held =>
    if ¬(held.kind = .relay ∧ held.target = initialMv) then return none
    else
      let pending ← takePending
        "the final-snapback predicate required a pending actuation"
      let t ← now
      let restoreDeadline := (← get).program.restoreDeadline
      let reservedRestoreWindow := durationSecs mvActuationConfirmationSecs
      let latestHandoffFinish :=
        if reservedRestoreWindow ≤ restoreDeadline then restoreDeadline - reservedRestoreWindow
        else t
      if latestHandoffFinish ≤ t then do
        finalizeActuationBestEffort pending .superseded (text ("the authoritative restore " ++
          "skipped the final-snapback handoff read to preserve its full MV confirmation budget"))
        return some .rewrite
      else do
        let handoffDeadline := min (t + mvRestoreHandoffReadMax) latestHandoffFinish
        let read ← tryErr (readNumericSample (some handoffDeadline)
          ctx.effectiveTiming.opTimeoutSecs tag)
        let checkedInstant ← now
        let checkedAt ← checkedAtForPending pending checkedInstant
        return some (← resolveHandoffRead ctx tag initialMv pending checkedAt read)

/-- The restoring write itself; `none` once the driver has accepted it. -/
def restoreMvWrite (ctx : RunContext) (tag : String) (initialMv : ℚ) (tolerance : Option ℚ) :
    Io (Option RestoreMvOutcome) := do
  let restoreDeadline := (← get).program.restoreDeadline
  match ← tryErr (boundedWrite (some restoreDeadline) ctx.effectiveTiming.opTimeoutSecs
      (.restoreMv tolerance) tag (.float initialMv)) with
  | .ok none => return some (.interrupted (restoreTimedOutReason ctx))
  | .ok (some (.completed ())) => return none
  | .ok (some .cancelled) =>
    return some (.interrupted (text "a second Ctrl+C was received while restoring the MV"))
  | .ok (some .timedOut) =>
    return some (.continue (.failed (text "MV restore write did not complete within " ++
      [.nat ctx.effectiveTiming.opTimeoutSecs] ++ text "s")))
  | .error error => return some (.continue (.failed error))

/-- One round of the verification loop of a restoring write. -/
def restoreVerificationRound (ctx : RunContext) (tag : String) (policy : ActuationAuditPolicy) :
    Io (Unit ⊕ RestoreMvOutcome) := do
  let t ← now
  let trigger := ((← getPending).bind (verificationTrigger · t)).getD .scheduled
  let restoreDeadline := (← get).program.restoreDeadline
  match ← tryErr (verifyPendingMvActuation ctx tag trigger (.restore restoreDeadline) policy) with
  | .ok none => do
    match ← getPending with
    | none => return .inr (.continue .succeeded)
    | some pending => do
      let t ← now
      let remainingConfirmation := pending.deadline - t
      let remainingRestore := restoreDeadline - t
      sleep none (min (min mvActuationRetryInterval remainingConfirmation) remainingRestore)
      return .inl ()
  | .ok (some .userInterrupt) =>
    return .inr (.interrupted
      (text "a second Ctrl+C was received while confirming the restored MV"))
  | .ok (some reason) =>
    if restoreDeadline ≤ (← now) then return .inr (.interrupted (restoreTimedOutReason ctx))
    else
      return .inr (.continue (.failed
        (text "MV restore could not be confirmed: " ++ [.reason reason])))
  | .error error =>
    return .inr (.continue (.failed (text "MV restore verification failed: " ++ error)))

/-- The bookkeeping of a restoring write that the driver has accepted. -/
def acceptRestoreWrite (initialMv : ℚ) (policy : ActuationAuditPolicy) (tolerance : ℚ) :
    Io Unit := do
  supersedePendingActuationBestEffort
    "the authoritative restore write replaced this pending relay command"
  let acceptedInstant ← now
  let acceptedAt ← utcNow
  modifyProgram fun p => { p with
    restoreDeadline := max p.restoreDeadline
      (acceptedInstant + durationSecs mvActuationConfirmationSecs) }
  recordRestoreAccepted policy initialMv acceptedAt acceptedInstant tolerance

/-- The rewrite of the MV in `restore_mv_with_verification`. -/
def rewriteMv (fuel : ℕ) (ctx : RunContext) (initialMv : ℚ) (policy : ActuationAuditPolicy)
    (tolerance : ℚ) : Io RestoreMvOutcome := do
  match ← restoreMvWrite ctx ctx.tags.manipulatedVariable initialMv (some tolerance) with
  | some outcome => return outcome
  | none => do
    acceptRestoreWrite initialMv policy tolerance
    iterate .outOfFuel
      (fun _ => restoreVerificationRound ctx ctx.tags.manipulatedVariable policy) fuel ()

/-- `restore_mv_with_verification_with_timing_and_audit_policy`, with at most `fuel` verification
rounds. -/
def restoreMvWithVerification (fuel : ℕ) (ctx : RunContext) (initialMv : ℚ)
    (policy : ActuationAuditPolicy) : Io RestoreMvOutcome := do
  let tag := ctx.tags.manipulatedVariable
  match (← get).program.tracker with
  | none => do
    match ← restoreMvWrite ctx tag initialMv none with
    | none => return .continue .succeeded
    | some outcome => return outcome
  | some tracker =>
    if tracker.pending.isNone ∧ tracker.confirmedMv = some initialMv then
      return .continue .succeeded
    else
      match ← tryConfirmFinalSnapbackHandoff ctx tag initialMv with
      | some .confirmed => return .continue .succeeded
      | some (.interrupted reason) => return .interrupted reason
      | some .rewrite | none => do
        let tolerance :=
          mvActuationUncappedTolerance initialMv tracker.previousCommandedMv tracker.mvSpan
        rewriteMv fuel ctx initialMv policy tolerance

/-- `restore_mv_outcome_or_failed`. -/
def restoreMvOutcomeOrFailed : Except Text RestoreMvOutcome → RestoreMvOutcome
  | .ok outcome => outcome
  | .error error => .continue (.failed error)

/-! ### Settling before an Auto release -/

/-- `should_settle_before_auto_release`. -/
def shouldSettleBeforeAutoRelease (ctx : RunContext) (initial : InitialState)
    (guard : MutationGuard) : Bool :=
  ctx.driver = .opcda && ctx.tags.controllerMode.isSome && ctx.template.revertMode &&
    guard.modeWritten && initial.modeRaw = some ctx.template.modeAutoValue

/-- `settling_duration`: a third of the measured period, in nanoseconds, when it is a period and
fits a `Duration`. -/
def settlingDuration (measuredOscillationPeriodMs : Option (XNum ℚ)) : Option ℕ :=
  match positivePeriod measuredOscillationPeriodMs with
  | none => none
  | some periodMs =>
    let nanos := (BinaryFloat.roundHalfEven (periodMs / 3000 * 1000000000)).toNat
    if nanos < 2 ^ 64 * 1000000000 then some nanos else none

/-- The branches of the settling `select!`, in their order. -/
inductive SettlingBranch where
  | ctrlC
  | restoreDeadline
  | poll

/-- The local variables of the settling loop. -/
structure SettlingState where
  nextPollAt : Instant
  tickIndex : ℕ

/-- The sample of a settling tick. -/
def settlingSample (ctx : RunContext) (state : MrftState ℚ) (ss : SettlingState) :
    Io (SettlingState ⊕ Unit) := do
  let pvTag := ctx.tags.processVariable
  match ← readPollBatch ctx.effectiveTiming.opTimeoutSecs pvTag none with
  | .cancelled => bail (text "Ctrl+C was received while reading the settling PV")
  | .timedOut =>
    bail (text ("[tuning].op_timeout_secs elapsed reading the settling PV tag '" ++ pvTag ++ "'"))
  | .completed values => do
    let (pv, quality) ← liftResult (readNumericFromBatch values pvTag)
    let time ← nextTimestamp
    observeTimestamp time
    insertTuneSample ss.tickIndex ⟨time, pv⟩ state (sampleQualityFromDriver quality)
    liftResult (checkQuality pvTag quality ctx.allowUncertainQuality)
    return .inl { ss with tickIndex := ss.tickIndex + 1 }

/-- One turn of the settling loop. -/
def settlingTurn (ctx : RunContext) (state : MrftState ℚ) (settlingDeadline : Instant)
    (ss : SettlingState) : Io (SettlingState ⊕ Unit) := do
  if settlingDeadline ≤ (← now) then return .inr ()
  else
    let s ← get
    match ← selectBiased [(SettlingBranch.ctrlC, s.nextSignal),
        (.restoreDeadline, some s.program.restoreDeadline), (.poll, some ss.nextPollAt)] with
    | .ctrlC => do
      modify Sys.seeSignals
      bail (text "Ctrl+C was received during post-MRFT Auto-release settling")
    | .restoreDeadline =>
      bail (text "the post-MRFT Auto-release settling interval exceeded the " ++
        [.nat ctx.effectiveTiming.restoreTimeoutSecs] ++
        text "s [tuning].restore_timeout_secs limit")
    | .poll => do
      let tickStarted ← now
      if settlingDeadline ≤ tickStarted then return .inr ()
      else
        settlingSample ctx state { ss with
          nextPollAt :=
            tickStarted + durationMillis (max ctx.effectiveTiming.pollIntervalMs 1) }

/-- `run_auto_release_settling`, for at most `fuel` turns. -/
def runAutoReleaseSettling (fuel : ℕ) (ctx : RunContext) (state : MrftState ℚ) (tickIndex : ℕ)
    (duration : ℕ) : Io Unit := do
  let start ← now
  iterate .outOfFuel (settlingTurn ctx state (start + duration)) fuel
    { nextPollAt := start, tickIndex := tickIndex }

/-! ### The whole attempt -/

/-- What a completed run hands to its restore for the settling period. -/
structure SettlingInput where
  state : MrftState ℚ
  nextTickIndex : ℕ

/-- The later steps after a settling period, or with the mode kept when it failed. -/
def settleThenRelease (fuel : ℕ) (ctx : RunContext) (initial : InitialState)
    (completion : SettlingInput) (duration : ℕ) : Io RestoreAttempt := do
  let result ← tryErr (runAutoReleaseSettling fuel ctx completion.state completion.nextTickIndex
    duration)
  mark (.settled result)
  match result with
  | .ok () => restoreAfterMvWithDeadline ctx initial .succeeded .releaseToInitial
  | .error error => do
    let reason := text "post-MRFT Auto-release settling failed: " ++ error
    match ← restoreAfterMvWithDeadline ctx initial .succeeded .keepManual with
    | .confirmed => return .incomplete reason
    | .incomplete restoreReason => return .incomplete (reason ++ text "; " ++ restoreReason)

/-- What follows the MV step of an attempt. -/
def afterMvStep (fuel : ℕ) (ctx : RunContext) (initial : InitialState)
    (completion : Option SettlingInput) (measuredOscillationPeriodMs : Option (XNum ℚ))
    (mv : RestoreStepOutcome) : Io RestoreAttempt := do
  mark (.mvStep mv)
  let settle := shouldSettleBeforeAutoRelease ctx initial (← get).program.guard
  if settle ∧ mv = .succeeded then
    match settlingDuration measuredOscillationPeriodMs, completion with
    | some duration, some completion => settleThenRelease fuel ctx initial completion duration
    | _, _ => restoreAfterMvWithDeadline ctx initial mv .releaseToInitial
  else
    restoreAfterMvWithDeadline ctx initial mv
      (if settle then .keepManual else .releaseToInitial)

/-- The body of `attempt_restore_with_actuation_with_timing_and_audit_policy`. -/
def attemptRestoreBody (fuel : ℕ) (ctx : RunContext) (initial : InitialState)
    (completion : Option SettlingInput) (measuredOscillationPeriodMs : Option (XNum ℚ))
    (policy : ActuationAuditPolicy) : Io RestoreAttempt := do
  let start ← now
  modifyProgram fun p => { p with
    restoreDeadline := start + durationSecs ctx.effectiveTiming.restoreTimeoutSecs }
  match restoreMvOutcomeOrFailed
      (← tryErr (restoreMvWithVerification fuel ctx initial.mvIni policy)) with
  | .interrupted reason => return .incomplete reason
  | .continue mv => afterMvStep fuel ctx initial completion measuredOscillationPeriodMs mv

/-- `attempt_restore_with_actuation_with_timing_and_audit_policy`.  The completion state and the
timing accumulator of a run are handed over together or not at all. -/
def attemptRestore (fuel : ℕ) (ctx : RunContext) (initial : InitialState)
    (completion : Option SettlingInput) (measuredOscillationPeriodMs : Option (XNum ℚ))
    (policy : ActuationAuditPolicy) : Io RestoreAttempt := do
  mark .restoreBegan
  let attempt ← attemptRestoreBody fuel ctx initial completion measuredOscillationPeriodMs policy
  mark (.restoreEnded attempt)
  return attempt

/-! ### Frames of the MV step -/

/-- What the MV step of a restore does to the outside: it reads, records, and writes the initial
MV. -/
def Event.RestoresMv (ctx : RunContext) (initialMv : ℚ) : Event → Prop
  | .read _ => True
  | .db _ _ => True
  | .write call => (∃ tolerance, call.origin = .restoreMv tolerance) ∧
      call.tag = ctx.tags.manipulatedVariable ∧ call.value = .float initialMv
  | .mark (.commandPending _) => True
  | .mark _ => False

theorem Event.RestoresMv.addressed {ctx : RunContext} {initial : InitialState} {e : Event}
    (h : e.RestoresMv ctx initial.mvIni) : e.Addressed ctx initial := by
  cases e with
  | write call =>
    obtain ⟨⟨tolerance, horigin⟩, htag, hvalue⟩ := h
    show call.Addressed ctx initial
    unfold WriteCall.Addressed
    rw [horigin]
    exact ⟨htag, hvalue⟩
  | _ => trivial

theorem Event.Silent.restoresMv {e : Event} {ctx : RunContext} {initialMv : ℚ} (h : e.Silent) :
    e.RestoresMv ctx initialMv := by
  cases e with
  | read call => trivial
  | db op result => trivial
  | write call => exact h.elim
  | mark m => exact h.elim

section MvStep

variable {τ : Type} {p : Event → Prop} {part : Program → τ}
variable (hp : ∀ e, Event.Silent e → e.Audits → p e)
variable (hpart : ∀ (a : Program) (f : MvActuationTracker → MvActuationTracker),
  (∀ t, (f t).issued = t.issued) → part { a with tracker := a.tracker.map f } = part a)

include hp hpart in
theorem keeps_resolveHandoffRead (ctx : RunContext) (tag : String) (initialMv : ℚ)
    (pending : PendingMvActuation) (checkedAt : UtcTime)
    (read : Except Text (Option (TickOperation (ℚ × Quality)))) :
    Keeps (within p part) (resolveHandoffRead ctx tag initialMv pending checkedAt read) := by
  have hrecord : ∀ readback quality detail, Keeps (within p part)
      (recordHandoffObservationBestEffort pending checkedAt readback quality detail) :=
    fun _ _ _ => keeps_recordFinalActuationObservation hp _ _ _ _ _ _
  match read with
  | .ok none => exact (keeps_finalizeActuationBestEffort hp _ _ _).bind fun _ => .pure _
  | .error e => exact (hrecord _ _ _).bind fun _ => .pure _
  | .ok (some .cancelled) => exact (keeps_setPending hpart _).bind fun _ => .pure _
  | .ok (some .timedOut) => exact (hrecord _ _ _).bind fun _ => .pure _
  | .ok (some (.completed (readback, quality))) =>
    unfold resolveHandoffRead
    dsimp only
    split
    · exact (hrecord _ _ _).bind fun _ => .pure _
    · split
      · exact (hrecord _ _ _).bind fun _ =>
          (keeps_setConfirmed hpart _).bind fun _ => .pure _
      · exact (hrecord _ _ _).bind fun _ => .pure _

include hp hpart in
theorem keeps_tryConfirmFinalSnapbackHandoff (ctx : RunContext) (tag : String) (initialMv : ℚ) :
    Keeps (within p part) (tryConfirmFinalSnapbackHandoff ctx tag initialMv) := by
  refine keeps_getPending.bind fun held => ?_
  cases held with
  | none => exact .pure _
  | some held =>
    dsimp only
    split
    · exact .pure _
    · refine (keeps_takePending hpart _).bind fun pending => keeps_now.bind fun t =>
        Keeps.get.bind fun s => ?_
      have hrewrite : ∀ detail, Keeps (within p part)
          (finalizeActuationBestEffort pending .superseded detail >>= fun _ =>
            pure (some RestoreHandoffOutcome.rewrite)) :=
        fun _ => (keeps_finalizeActuationBestEffort hp _ _ _).bind fun _ => .pure _
      have hread : ∀ deadline, Keeps (within p part)
          (tryErr (readNumericSample (some deadline) ctx.effectiveTiming.opTimeoutSecs tag) >>=
            fun read => now >>= fun checkedInstant =>
              checkedAtForPending pending checkedInstant >>= fun checkedAt =>
                resolveHandoffRead ctx tag initialMv pending checkedAt read >>= fun outcome =>
                  pure (some outcome)) :=
        fun _ => (keeps_tryErr (keeps_readNumericSample (fun _ => hp _ trivial trivial) _ _ _)).bind
          fun _ => keeps_now.bind fun _ => (keeps_checkedAtForPending _ _).bind fun _ =>
            (keeps_resolveHandoffRead hp hpart _ _ _ _ _ _).bind fun _ => .pure _
      split
      · split
        · exact hrewrite _
        · exact hread _
      · split
        · exact hrewrite _
        · exact hread _

/-- The restoring write, with the tolerance it is made with. -/
theorem keeps_restoreMvWriteOf {ctx : RunContext} {initialMv : ℚ} {tolerance : Option ℚ}
    (hwrite : ∀ call : WriteCall, call.origin = .restoreMv tolerance →
      call.tag = ctx.tags.manipulatedVariable → call.value = .float initialMv → p (.write call)) :
    Keeps (within p part)
      (restoreMvWrite ctx ctx.tags.manipulatedVariable initialMv tolerance) := by
  refine Keeps.get.bind fun s =>
    (keeps_tryErr (keeps_boundedWrite fun _ _ _ => hwrite _ rfl rfl rfl)).bind fun r => ?_
  match r with
  | .ok none => exact .pure _
  | .ok (some (.completed ())) => exact .pure _
  | .ok (some .cancelled) => exact .pure _
  | .ok (some .timedOut) => exact .pure _
  | .error e => exact .pure _

theorem keeps_restoreMvWrite {ctx : RunContext} {initialMv : ℚ}
    (hwrite : ∀ call, Event.RestoresMv ctx initialMv (.write call) → p (.write call))
    (tolerance : Option ℚ) :
    Keeps (within p part)
      (restoreMvWrite ctx ctx.tags.manipulatedVariable initialMv tolerance) :=
  keeps_restoreMvWriteOf fun call horigin htag hvalue => hwrite call ⟨⟨_, horigin⟩, htag, hvalue⟩

include hp hpart in
theorem keeps_restoreVerificationRound (ctx : RunContext) (tag : String)
    (policy : ActuationAuditPolicy) :
    Keeps (within p part) (restoreVerificationRound ctx tag policy) := by
  refine keeps_now.bind fun t => keeps_getPending.bind fun pending => Keeps.get.bind fun s =>
    (keeps_tryErr (keeps_verifyPendingMvActuation hp hpart _ _ _ _ _)).bind fun r => ?_
  match r with
  | .ok none =>
    refine keeps_getPending.bind fun pending => ?_
    cases pending with
    | none => exact .pure _
    | some pending => exact keeps_now.bind fun _ => (keeps_sleep _ _).bind fun _ => .pure _
  | .error e => exact .pure _
  | .ok (some .userInterrupt) => exact .pure _
  | .ok (some (.timeout _)) | .ok (some (.operationTimedOut _ _)) | .ok (some (.poorQuality _ _))
  | .ok (some (.mvActuationUnconfirmed _ _ _ _ _ _)) =>
    refine keeps_now.bind fun t => ?_
    split
    · exact .pure _
    · exact .pure _

variable (hrow : ∀ row result, p (.db (.insertPending row) result))
variable (htracker : ∀ (a : Program) (t : Option MvActuationTracker),
  part { a with tracker := t } = part a)
variable (hdeadline : ∀ (a : Program) (t : Instant), part { a with restoreDeadline := t } = part a)

include hp hrow htracker hdeadline in
theorem keeps_acceptRestoreWrite (hc : ∀ pending, p (.mark (.commandPending pending)))
    (initialMv : ℚ) (policy : ActuationAuditPolicy) (tolerance : ℚ) :
    Keeps (within p part) (acceptRestoreWrite initialMv policy tolerance) :=
  (keeps_supersedePending hp (fun a _ _ => htracker a _) _).bind fun _ => keeps_now.bind fun _ =>
    keeps_utcNow.bind fun _ => (keeps_modifyProgram fun a => hdeadline a _).bind fun _ =>
      keeps_recordRestoreAccepted hc hrow htracker _ _ _ _ _

/-- The tolerance of a restoring write that is made in a state. -/
def Sys.restoreTolerance (s : Sys) (initialMv : ℚ) : Option ℚ :=
  s.program.tracker.map fun tracker =>
    mvActuationUncappedTolerance initialMv tracker.previousCommandedMv tracker.mvSpan

/-- The MV step keeps what its parts keep; its write has the tolerance of the state in which the
step begins. -/
theorem mvStepParts {F : Frame Sys} {ctx : RunContext} {initialMv : ℚ}
    {policy : ActuationAuditPolicy} {s : Sys}
    (hwrite : Keeps F (restoreMvWrite ctx ctx.tags.manipulatedVariable initialMv
      (s.restoreTolerance initialMv)))
    (hhandoff : Keeps F
      (tryConfirmFinalSnapbackHandoff ctx ctx.tags.manipulatedVariable initialMv))
    (haccept : ∀ tolerance, Keeps F (acceptRestoreWrite initialMv policy tolerance))
    (hround : Keeps F (restoreVerificationRound ctx ctx.tags.manipulatedVariable policy))
    (fuel : ℕ) :
    wp (restoreMvWithVerification fuel ctx initialMv policy) (fun _ s' => F.rel s s')
      (fun _ s' => F.rel s s') s := by
  refine wp_bind.mpr (wp_get.mpr ?_)
  unfold Sys.restoreTolerance at hwrite
  cases htracker : s.program.tracker with
  | none =>
    rw [htracker] at hwrite
    have hstep : Keeps F (restoreMvWrite ctx ctx.tags.manipulatedVariable initialMv none >>= fun r =>
        match r with
        | none => Pure.pure (RestoreMvOutcome.continue .succeeded)
        | some outcome => Pure.pure outcome) := by
      refine hwrite.bind fun r => ?_
      cases r <;> exact .pure _
    exact hstep s
  | some tracker =>
    rw [htracker] at hwrite
    have hrewrite : Keeps F
        (restoreMvWrite ctx ctx.tags.manipulatedVariable initialMv (some
          (mvActuationUncappedTolerance initialMv tracker.previousCommandedMv tracker.mvSpan)) >>=
          fun r => match r with
            | some outcome => pure outcome
            | none => acceptRestoreWrite initialMv policy (mvActuationUncappedTolerance initialMv
                tracker.previousCommandedMv tracker.mvSpan) >>= fun _ =>
              iterate .outOfFuel
                (fun _ => restoreVerificationRound ctx ctx.tags.manipulatedVariable policy) fuel
                ()) := by
      refine hwrite.bind fun r => ?_
      cases r with
      | some outcome => exact .pure _
      | none => exact (haccept _).bind fun _ => .iterate (fun _ => hround) _ _
    dsimp only
    split
    · exact F.refl s
    · refine wp_seq (hhandoff s) fun r s' hrel => ?_
      match r with
      | some .confirmed => exact hrel
      | some (.interrupted reason) => exact hrel
      | some .rewrite => exact Keeps.goOn hrel hrewrite
      | none => exact Keeps.goOn hrel hrewrite

/-- The MV step keeps what its parts keep, whatever the tolerance of its write is. -/
theorem keeps_mvStepParts {F : Frame Sys} {ctx : RunContext} {initialMv : ℚ}
    {policy : ActuationAuditPolicy}
    (hwrite : ∀ tolerance, Keeps F
      (restoreMvWrite ctx ctx.tags.manipulatedVariable initialMv tolerance))
    (hhandoff : Keeps F
      (tryConfirmFinalSnapbackHandoff ctx ctx.tags.manipulatedVariable initialMv))
    (haccept : ∀ tolerance, Keeps F (acceptRestoreWrite initialMv policy tolerance))
    (hround : Keeps F (restoreVerificationRound ctx ctx.tags.manipulatedVariable policy))
    (fuel : ℕ) : Keeps F (restoreMvWithVerification fuel ctx initialMv policy) := fun _ =>
  mvStepParts (hwrite _) hhandoff haccept hround fuel

include hp hrow htracker hdeadline in
/-- The MV step stays within a frame that allows for its writes and its minor events. -/
theorem keeps_mvStep {ctx : RunContext} {initialMv : ℚ}
    (hwrite : ∀ call, Event.RestoresMv ctx initialMv (.write call) → p (.write call))
    (hc : ∀ pending, p (.mark (.commandPending pending))) (fuel : ℕ)
    (policy : ActuationAuditPolicy) :
    Keeps (within p part) (restoreMvWithVerification fuel ctx initialMv policy) := by
  have hpart : ∀ (a : Program) (f : MvActuationTracker → MvActuationTracker),
      (∀ t, (f t).issued = t.issued) → part { a with tracker := a.tracker.map f } = part a :=
    fun a _ _ => htracker a _
  exact keeps_mvStepParts (fun _ => keeps_restoreMvWrite hwrite _)
    (keeps_tryConfirmFinalSnapbackHandoff hp hpart _ _ _)
    (fun _ => keeps_acceptRestoreWrite hp hrow htracker hdeadline hc _ _ _)
    (keeps_restoreVerificationRound hp hpart _ _ _) fuel

include htracker hdeadline in
theorem keeps_restoreMvWithVerification (fuel : ℕ) (ctx : RunContext) (initialMv : ℚ)
    (policy : ActuationAuditPolicy) :
    Keeps (within (fun e => e.RestoresMv ctx initialMv ∧ ¬e.Closes) part)
      (restoreMvWithVerification fuel ctx initialMv policy) :=
  keeps_mvStep (fun _ h haudits => ⟨h.restoresMv, haudits.minor.not_closes⟩)
    (fun _ _ => ⟨trivial, id⟩) htracker hdeadline
    (fun _ h => ⟨h, id⟩) (fun _ => ⟨trivial, id⟩) fuel policy

end MvStep

/-! ### Frames of the settling period and the later steps -/

section Settling

variable {τ : Type} {p : Event → Prop} {part : Program → τ}
variable (hread : ∀ call, p (.read call)) {state : MrftState ℚ}
variable (hsample : ∀ tickIndex tick quality stored,
  p (.db (.insertSample tickIndex tick state quality) stored))
variable (hclock : ∀ (a : Program) (t : TickTimeSource), part { a with tickTime := t } = part a)
variable (htiming : ∀ (a : Program) (t : PollTimingAccumulator),
  part { a with timing := t } = part a)

include hread hsample hclock htiming in
theorem keeps_settlingSample (ctx : RunContext) (ss : SettlingState) :
    Keeps (within p part) (settlingSample ctx state ss) := by
  refine (keeps_readPollBatch hread _ _ _).bind fun r => ?_
  cases r with
  | cancelled => exact keeps_bail _
  | timedOut => exact keeps_bail _
  | completed values =>
    exact (keeps_liftResult _).bind fun _ => (keeps_nextTimestamp hclock).bind fun _ =>
      (keeps_observeTimestamp htiming _).bind fun _ =>
        (keeps_runStatement (hsample _ _ _)).bind fun _ =>
        (keeps_liftResult _).bind fun _ => .pure _

include hread hsample hclock htiming in
theorem keeps_settlingTurn (ctx : RunContext) (settlingDeadline : Instant) (ss : SettlingState) :
    Keeps (within p part) (settlingTurn ctx state settlingDeadline ss) := by
  refine keeps_now.bind fun t => ?_
  split
  · exact .pure _
  · refine Keeps.get.bind fun s => (keeps_selectBiased _).bind fun branch => ?_
    cases branch with
    | ctrlC => exact keeps_seeSignals.bind fun _ => keeps_bail _
    | restoreDeadline => exact keeps_bail _
    | poll =>
      refine keeps_now.bind fun tickStarted => ?_
      split
      · exact .pure _
      · exact keeps_settlingSample hread hsample hclock htiming _ _

include hread hsample hclock htiming in
theorem keeps_runAutoReleaseSettling (fuel : ℕ) (ctx : RunContext) (tickIndex duration : ℕ) :
    Keeps (within p part) (runAutoReleaseSettling fuel ctx state tickIndex duration) :=
  keeps_now.bind fun _ =>
    .iterate (fun _ => keeps_settlingTurn hread hsample hclock htiming _ _ _) _ _

end Settling

/-- What the steps after the MV do to the outside under a policy. -/
def Event.RestoresUnder (policy : RestoreModePolicy) : Event → Prop
  | .write call => (policy = .releaseToInitial ∧ call.origin = .restoreMode) ∨
      call.origin = .restoreSetpoint ∨ call.origin = .restoreModeAttribute
  | .mark (.laterSteps policy') => policy' = policy
  | _ => False

/-- What the steps after the MV do to the outside. -/
def Event.RestoresLater : Event → Prop
  | .write call => call.origin = .restoreMode ∨ call.origin = .restoreSetpoint ∨
      call.origin = .restoreModeAttribute
  | .mark (.laterSteps _) => True
  | _ => False

theorem Event.RestoresUnder.later {policy : RestoreModePolicy} {e : Event}
    (h : e.RestoresUnder policy) : e.RestoresLater := by
  cases e with
  | read call => exact h.elim
  | db op result => exact h.elim
  | write call => exact h.imp_left And.right
  | mark m => cases m <;> first | exact h.elim | trivial

/-- The frame of the steps after the MV: they change none of the program's variables. -/
abbrev later : Frame Sys := within Event.RestoresLater id

theorem keeps_restoreWriteStep {F : Frame Sys} {write : Io Unit} (h : Keeps F write) :
    Keeps F (restoreWriteStep write) := by
  refine (keeps_tryErr h).bind fun r => ?_
  cases r <;> exact .pure _

section LaterSteps

variable {τ : Type} {p : Event → Prop} {part : Program → τ}

theorem keeps_modeStep (ctx : RunContext) (scope : Option Instant) (initial : InitialState)
    (h : ∀ call, call.origin = .restoreMode → call.Addressed ctx initial →
      p (.write call)) :
    Keeps (within p part) (restoreModeStep ctx scope initial) := by
  refine Keeps.get.bind fun s => ?_
  cases htag : ctx.tags.controllerMode with
  | none => exact .pure _
  | some modeTag =>
    dsimp only
    split
    · exact .pure _
    · exact keeps_restoreWriteStep (keeps_driverWrite fun _ _ _ => h _ rfl ⟨htag, rfl⟩)

theorem keeps_setpointStep (ctx : RunContext) (scope : Option Instant) (initial : InitialState)
    (h : ∀ call, call.origin = .restoreSetpoint → call.Addressed ctx initial →
      p (.write call)) :
    Keeps (within p part) (restoreSetpointStep ctx scope initial) := by
  refine Keeps.get.bind fun s => ?_
  dsimp only
  split
  · exact .pure _
  · split
    · rename_i htag hvalue
      exact (keeps_sleep _ _).bind fun _ =>
        keeps_restoreWriteStep (keeps_driverWrite fun _ _ _ => h _ rfl ⟨htag, _, hvalue, rfl⟩)
    · exact .pure _

theorem keeps_modeAttributeStep (ctx : RunContext) (scope : Option Instant)
    (initial : InitialState)
    (h : ∀ call, call.origin = .restoreModeAttribute → call.Addressed ctx initial →
      p (.write call)) :
    Keeps (within p part) (restoreModeAttributeStep ctx scope initial) := by
  refine Keeps.get.bind fun s => ?_
  cases htag : ctx.tags.modeAttribute with
  | none => exact .pure _
  | some attrTag =>
    dsimp only
    split
    · exact .pure _
    · exact keeps_restoreWriteStep (keeps_driverWrite fun _ _ _ => h _ rfl ⟨htag, rfl⟩)

end LaterSteps

theorem keeps_restoreModeStep (ctx : RunContext) (scope : Option Instant)
    (initial : InitialState) : Keeps later (restoreModeStep ctx scope initial) :=
  keeps_modeStep ctx scope initial fun _ h _ => .inl h

theorem keeps_restoreSetpointStep (ctx : RunContext) (scope : Option Instant)
    (initial : InitialState) : Keeps later (restoreSetpointStep ctx scope initial) :=
  keeps_setpointStep ctx scope initial fun _ h _ => .inr (.inl h)

theorem keeps_restoreModeAttributeStep (ctx : RunContext) (scope : Option Instant)
    (initial : InitialState) : Keeps later (restoreModeAttributeStep ctx scope initial) :=
  keeps_modeAttributeStep ctx scope initial fun _ h _ => .inr (.inr h)

/-- The frame of the steps after the MV under a policy. -/
abbrev laterUnder (ctx : RunContext) (initial : InitialState) (policy : RestoreModePolicy) :
    Frame Sys :=
  within (fun e => e.RestoresUnder policy ∧ e.Regular ctx initial) id

theorem keeps_policy (ctx : RunContext) (scope : Option Instant) (initial : InitialState)
    (mv : RestoreStepOutcome) (policy : RestoreModePolicy) :
    Keeps (laterUnder ctx initial policy)
      (restoreAfterMvWithPolicy ctx scope initial mv policy) := by
  have htail : ∀ mode, Keeps (laterUnder ctx initial policy)
      (restoreSetpointStep ctx scope initial >>= fun setpoint =>
        restoreModeAttributeStep ctx scope initial >>= fun modeAttribute =>
          pure (⟨mv, mode, setpoint, modeAttribute⟩ : RestoreReport)) := fun _ =>
    (keeps_setpointStep ctx scope initial fun _ h haddress =>
      ⟨.inr (.inl h), id, haddress⟩).bind fun _ =>
        (keeps_modeAttributeStep ctx scope initial fun _ h haddress =>
          ⟨.inr (.inr h), id, haddress⟩).bind fun _ => .pure _
  refine Keeps.bind (keeps_mark ⟨rfl, id, trivial⟩) fun _ => ?_
  cases policy with
  | releaseToInitial =>
    exact (keeps_modeStep ctx scope initial fun _ h haddress =>
      ⟨.inl ⟨rfl, h⟩, id, haddress⟩).bind fun _ => htail _
  | keepManual => exact (Keeps.pure _).bind fun _ => htail _

theorem keeps_underDeadline (ctx : RunContext) (initial : InitialState)
    (mv : RestoreStepOutcome) (policy : RestoreModePolicy) :
    Keeps (laterUnder ctx initial policy)
      (restoreAfterMvWithDeadline ctx initial mv policy) := by
  refine Keeps.get.bind fun s => (keeps_policy ctx _ initial mv policy).attempt.bind fun r => ?_
  match r with
  | .ok report =>
    dsimp only
    split <;> exact .pure _
  | .error .interrupted => exact .pure _
  | .error .deadline => exact .pure _

section AfterMv

variable {τ : Type} {p : Event → Prop} {part : Program → τ} {ctx : RunContext}
variable {initial : InitialState}
variable (hlater : ∀ e : Event, e.RestoresLater → e.Regular ctx initial → p e)
variable (hread : ∀ call, p (.read call))
variable (hmv : ∀ mv, p (.mark (.mvStep mv))) (hsettled : ∀ result, p (.mark (.settled result)))
variable (hclock : ∀ (a : Program) (t : TickTimeSource), part { a with tickTime := t } = part a)
variable (htiming : ∀ (a : Program) (t : PollTimingAccumulator),
  part { a with timing := t } = part a)

include hlater in
theorem keeps_laterSteps (mv : RestoreStepOutcome) (policy : RestoreModePolicy) :
    Keeps (within p part) (restoreAfterMvWithDeadline ctx initial mv policy) :=
  within_mono (keeps_underDeadline ctx initial mv policy) (fun _ h => hlater _ h.1.later h.2)
    fun _ _ h => congrArg part h

include hlater hread hsettled hclock htiming in
theorem keeps_settling (fuel : ℕ) (completion : SettlingInput) (duration : ℕ)
    (hsample : ∀ tickIndex tick quality stored,
      p (.db (.insertSample tickIndex tick completion.state quality) stored)) :
    Keeps (within p part) (settleThenRelease fuel ctx initial completion duration) := by
  refine (keeps_tryErr (keeps_runAutoReleaseSettling hread hsample hclock htiming _ _ _ _)).bind
    fun result => (keeps_mark (hsettled _)).bind fun _ => ?_
  cases result with
  | ok _ => exact keeps_laterSteps hlater _ _
  | error e =>
    refine (keeps_laterSteps hlater _ _).bind fun attempt => ?_
    cases attempt <;> exact .pure _

include hlater hread hsettled hclock htiming in
/-- What follows the mark of the MV step stores no sample but with the state of the completed
run. -/
theorem keeps_afterMark (fuel : ℕ) (completion : Option SettlingInput)
    (measuredOscillationPeriodMs : Option (XNum ℚ)) (mv : RestoreStepOutcome)
    (guard : MutationGuard)
    (hsample : ∀ input, completion = some input → ∀ tickIndex tick quality stored,
      p (.db (.insertSample tickIndex tick input.state quality) stored)) :
    Keeps (within p part) (
      if shouldSettleBeforeAutoRelease ctx initial guard ∧ mv = .succeeded then
        match settlingDuration measuredOscillationPeriodMs, completion with
        | some duration, some completion =>
          settleThenRelease fuel ctx initial completion duration
        | _, _ => restoreAfterMvWithDeadline ctx initial mv .releaseToInitial
      else
        restoreAfterMvWithDeadline ctx initial mv
          (if shouldSettleBeforeAutoRelease ctx initial guard then .keepManual
            else .releaseToInitial)) := by
  split
  · split
    · exact keeps_settling hlater hread hsettled hclock htiming _ _ _ (hsample _ rfl)
    · exact keeps_laterSteps hlater _ _
  · exact keeps_laterSteps hlater _ _

include hlater hread hmv hsettled hclock htiming in
theorem keeps_afterMvStep (fuel : ℕ) (completion : Option SettlingInput)
    (measuredOscillationPeriodMs : Option (XNum ℚ)) (mv : RestoreStepOutcome)
    (hsample : ∀ input, completion = some input → ∀ tickIndex tick quality stored,
      p (.db (.insertSample tickIndex tick input.state quality) stored)) :
    Keeps (within p part)
      (afterMvStep fuel ctx initial completion measuredOscillationPeriodMs mv) :=
  (keeps_mark (hmv _)).bind fun _ => Keeps.get.bind fun _ =>
    keeps_afterMark hlater hread hsettled hclock htiming _ _ _ _ _ hsample

end AfterMv

end Bhtune
