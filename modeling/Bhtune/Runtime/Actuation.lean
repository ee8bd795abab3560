import Bhtune.Core.LoopConfig
import Bhtune.Library.SinglePrecision
import Bhtune.Runtime.Quality

/-!
# MV actuation: tolerances, pending commands and their verification

Every accepted OPC DA MV command stays pending until a readback confirms it.  The definitions
follow `actuation.rs` function by function; observations that only feed latency diagnostics and
log lines are left out.
-/

namespace Bhtune

open BinaryFloat Effect

/-- `MV_ACTUATION_CONFIRMATION_SECS`. -/
def mvActuationConfirmationSecs : ℕ := 4

/-- `MV_ACTUATION_RETRY_INTERVAL`. -/
def mvActuationRetryInterval : ℕ := durationMillis 100

/-- `MV_ACTUATION_DEADLINE_READ_MAX`. -/
def mvActuationDeadlineReadMax : ℕ := durationSecs 1

/-- `MV_ACTUATION_FALLBACK_HEADROOM`. -/
def mvActuationFallbackHeadroom : ℕ := durationSecs 1

/-- `MV_RESTORE_HANDOFF_READ_MAX`. -/
def mvRestoreHandoffReadMax : ℕ := durationSecs 1

/-- `MV_SPAN_TOLERANCE_FRACTION`. -/
def mvSpanToleranceFraction : ℚ := f32 0.001

/-- `RELAY_STEP_TOLERANCE_FRACTION`. -/
def relayStepToleranceFraction : ℚ := f32 0.25

/-- `MIN_RELAY_STEP`. -/
def minRelayStep : ℚ := f32 0.01

/-- `f32::EPSILON`. -/
def f32Epsilon : ℚ := 1 / 2 ^ 23

theorem minRelayStep_pos : 0 < minRelayStep := by decide +kernel

/-! ### Tolerances -/

/-- The arithmetic in which an MV is computed: exact over `ℚ`, and that of `f32` over `Single`. -/
class Analog (K : Type) where
  /-- A literal, or a number that was read. -/
  ofRat : ℚ → K
  abs : K → K
  isFinite : K → Bool
  /-- What a message shows of a value. -/
  shown : K → Text

instance : Analog ℚ where
  ofRat q := q
  abs q := |q|
  isFinite _ := true
  shown q := [.num q]

instance : Analog Single where
  ofRat := Single.ofRat
  abs := Single.abs
  isFinite := Single.isFinite
  shown
    | .fin v _ => [.num v]
    | .inf true => text "-inf"
    | .inf false => text "inf"
    | .nan => text "NaN"

instance : OfNat Single 100 := ⟨Single.ofRat 100⟩

section Tolerance

variable {K : Type} [Analog K] [Add K] [Sub K] [Mul K] [Div K] [Max K] [Min K] [LE K] [DecidableLE K]
  [LT K] [DecidableLT K]

/-- `f32_precision_floor`. -/
def f32PrecisionFloor (target previous : K) : K :=
  Analog.ofRat 4 * Analog.ofRat f32Epsilon *
    max (max (Analog.abs target) (Analog.abs previous)) (Analog.ofRat 1)

/-- `mv_actuation_uncapped_tolerance`. -/
def mvActuationUncappedTolerance (target previous mvSpan : K) : K :=
  f32PrecisionFloor target previous + Analog.abs mvSpan * Analog.ofRat mvSpanToleranceFraction

/-- `mv_actuation_tolerance`: a relay step too small to be told from no step is refused. -/
def mvActuationTolerance (kind : MvActuationKind) (target previous mvSpan : K) :
    Except Text K :=
  let uncapped := mvActuationUncappedTolerance target previous mvSpan
  if kind = .restore then .ok uncapped
  else
    let step := Analog.abs (target - previous)
    let relayCap := step * Analog.ofRat relayStepToleranceFraction
    if ¬Analog.isFinite step ∨ step < Analog.ofRat minRelayStep ∨
        relayCap ≤ f32PrecisionFloor target previous then
      let minimumStep := max (Analog.ofRat minRelayStep)
        (f32PrecisionFloor target previous / Analog.ofRat relayStepToleranceFraction)
      .error (text "the effective relay step " ++ Analog.shown step ++
        text " is too small to verify safely (minimum " ++ Analog.shown minimumStep ++ text ")")
    else .ok (min uncapped relayCap)

/-- The check of `validate_relay_actuation_step` for an OPC DA run. -/
def checkRelayStep [OfNat K 100] (relayAmpPercent mvIni mvRangeLow mvRangeHigh : K) :
    Except Text Unit :=
  let relayStep := clampRelayAmplitude relayAmpPercent mvIni mvRangeLow mvRangeHigh
  (mvActuationTolerance .relay (mvIni + relayStep) mvIni (mvRangeHigh - mvRangeLow)).map fun _ => ()

end Tolerance

/-- `validate_relay_actuation_step`. -/
def validateRelayActuationStep (ctx : RunContext) (initial : InitialState) : Except Text Unit :=
  if ctx.driver ≠ .opcda then .ok ()
  else match ctx.floats with
    | .exact => checkRelayStep ctx.config.relayAmpPercent initial.mvIni initial.mvRangeLow
        initial.mvRangeHigh
    | .single => checkRelayStep (Single.ofRat ctx.config.relayAmpPercent)
        (Single.ofRat initial.mvIni) (Single.ofRat initial.mvRangeLow)
        (Single.ofRat initial.mvRangeHigh)

/-! Over `ℚ` every step is finite. -/

theorem f32PrecisionFloor_rat (target previous : ℚ) :
    f32PrecisionFloor target previous = 4 * f32Epsilon * max (max |target| |previous|) 1 := rfl

theorem mvActuationUncappedTolerance_rat (target previous mvSpan : ℚ) :
    mvActuationUncappedTolerance target previous mvSpan =
      f32PrecisionFloor target previous + |mvSpan| * mvSpanToleranceFraction := rfl

theorem mvActuationTolerance_relay_rat (target previous mvSpan : ℚ) :
    mvActuationTolerance .relay target previous mvSpan =
      if |target - previous| < minRelayStep ∨ |target - previous| * relayStepToleranceFraction ≤
          f32PrecisionFloor target previous then
        .error (text "the effective relay step " ++ [.num |target - previous|] ++
          text " is too small to verify safely (minimum " ++ [.num (max minRelayStep
            (f32PrecisionFloor target previous / relayStepToleranceFraction))] ++ text ")")
      else .ok (min (mvActuationUncappedTolerance target previous mvSpan)
        (|target - previous| * relayStepToleranceFraction)) := by
  have hfinite : ¬¬Analog.isFinite (Analog.abs (target - previous)) := not_not.mpr rfl
  unfold mvActuationTolerance
  rw [if_neg (by decide)]
  simp only [hfinite, false_or]
  rfl

/-- `actuation_matches`. -/
def actuationMatches (target readback tolerance : ℚ) : Bool :=
  decide (|target - readback| ≤ tolerance)

/-! ### Verification policies -/

/-- Why a verification read is made. -/
inductive MvVerificationTrigger where
  | scheduled
  | deadline
  deriving DecidableEq

/-- Whether a failing audit statement ends the operation. -/
inductive ActuationAuditPolicy where
  | required
  | bestEffort
  deriving DecidableEq

/-- The outer limit of a verification call. -/
inductive MvVerificationCallLimit where
  | none
  | restore (deadline : Instant)
  deriving DecidableEq

/-- What a verification read ran into when its limit passed. -/
inductive MvVerificationLimitKind where
  | confirmation
  | deadline
  | restore
  deriving DecidableEq

/-- `actuation_abort_reason`. -/
def actuationAbortReason (tag : String) (pending : PendingMvActuation) (readback : Option ℚ)
    (now : Instant) : AbortReason :=
  .mvActuationUnconfirmed tag pending.target readback pending.tolerance
    (min ((now - pending.acceptedInstant) / 1000000) (2 ^ 64 - 1)) mvActuationConfirmationSecs

/-- `MvActuationTracker::next_verification_wakeup`. -/
def MvActuationTracker.nextVerificationWakeup (tracker : MvActuationTracker) : Option Instant :=
  tracker.pending.map fun pending =>
    if pending.lastReadback.isSome then pending.deadline
    else max pending.firstCheckAt (pending.deadline - mvActuationFallbackHeadroom)

/-- `verification_trigger`. -/
def verificationTrigger (pending : PendingMvActuation) (now : Instant) :
    Option MvVerificationTrigger :=
  if pending.deadline ≤ now then some .deadline
  else if pending.lastReadback.isNone ∧ pending.firstCheckAt ≤ now then some .scheduled
  else none

/-- `mv_verification_read_limit`. -/
def mvVerificationReadLimit (now : Instant) (trigger : MvVerificationTrigger)
    (pending : PendingMvActuation) (callLimit : MvVerificationCallLimit) :
    Instant × MvVerificationLimitKind :=
  match trigger, callLimit with
  | .deadline, .restore deadline =>
    if deadline < now + mvActuationDeadlineReadMax then (deadline, .restore)
    else (now + mvActuationDeadlineReadMax, .deadline)
  | .deadline, .none => (now + mvActuationDeadlineReadMax, .deadline)
  | .scheduled, .restore deadline =>
    if deadline < pending.deadline then (deadline, .restore) else (pending.deadline, .confirmation)
  | .scheduled, .none => (pending.deadline, .confirmation)

/-! ### The tracker as a program variable -/

/-- `tracker.pending`. -/
def getPending : Io (Option PendingMvActuation) :=
  return (← get).program.tracker.bind (·.pending)

/-- Changes the tracker of an OPC DA run. -/
def modifyTracker (f : MvActuationTracker → MvActuationTracker) : Io Unit :=
  modifyProgram fun p => { p with tracker := p.tracker.map f }

/-- `tracker.pending = ..`. -/
def setPending (pending : Option PendingMvActuation) : Io Unit :=
  modifyTracker fun t => { t with pending := pending }

/-- `tracker.pending.take().require_invariant(..)?`. -/
def takePending (message : String) : Io PendingMvActuation := do
  let pending ← requireInvariant (← getPending) message
  setPending none
  return pending

/-- `MvActuationTracker::accept_pending`. -/
def MvActuationTracker.acceptPending (tracker : MvActuationTracker)
    (pending : PendingMvActuation) : MvActuationTracker :=
  { tracker with
    nextSequence := tracker.nextSequence + 1
    previousCommandedMv := pending.target
    confirmedMv := none
    pending := some pending }

/-- The tracker takes an accepted command over. -/
def acceptPending (pending : PendingMvActuation) : Io Unit := do
  modifyTracker fun t => t.acceptPending pending
  mark (.commandPending pending)

/-! ### Timestamps of commands and observations -/

/-- The largest `chrono::Duration`: `i64::MAX` milliseconds. -/
def chronoDurationMax : ℕ := (2 ^ 63 - 1) * 1000000

/-- `chrono::Duration::from_std`, with the caller's error. -/
def durationFromStd (elapsed : ℕ) (message : Text) : Io ℤ :=
  if elapsed ≤ chronoDurationMax then return elapsed else bail message

/-- `checked_at_for_pending`. -/
def checkedAtForPending (pending : PendingMvActuation) (checkedInstant : Instant) :
    Io UtcTime := do
  let elapsed ← durationFromStd (checkedInstant - pending.switchInstant)
    (text "MV actuation observation time exceeded chrono's range")
  return pending.switchTick + elapsed

/-- `utc_after_elapsed`. -/
def utcAfterElapsed (time : UtcTime) (elapsed : ℕ) : Io UtcTime := do
  let elapsed ← durationFromStd elapsed (text "MV command time exceeded chrono's range")
  return time + elapsed

/-! ### Audit rows -/

/-- `record_actuation_observation`. -/
def recordActuationObservation (pending : PendingMvActuation) (checkedAt : UtcTime)
    (readback : Option ℚ) (quality : Option SampleQuality) (policy : ActuationAuditPolicy) :
    Io Unit :=
  match pending.id with
  | none => pure ()
  | some id =>
    let statement := runStatement (.recordObservation id checkedAt readback quality)
    match policy with
    | .bestEffort => bestEffort statement
    | .required => statement

/-- `record_final_actuation_observation`. -/
def recordFinalActuationObservation (pending : PendingMvActuation) (checkedAt : UtcTime)
    (readback : Option ℚ) (quality : Option SampleQuality) (status : MvActuationStatus)
    (detail : Text) : Io Unit :=
  match pending.id with
  | none => pure ()
  | some id =>
    bestEffort (runStatement (.recordFinalObservation id checkedAt readback quality status
      (some detail)))

/-- `finalize_actuation_best_effort`. -/
def finalizeActuationBestEffort (pending : PendingMvActuation) (status : MvActuationStatus)
    (detail : Text) : Io Unit :=
  match pending.id with
  | none => pure ()
  | some id => bestEffort (runStatement (.finalize id status (some detail)))

/-- `finalize_pending_for_run_best_effort`. -/
def finalizePendingForRunBestEffort (detail : String) : Io Unit :=
  bestEffort (runStatement (.finalizePendingForRun .unverified (some (text detail))))

/-- `supersede_pending_actuation_best_effort`. -/
def supersedePendingActuationBestEffort (detail : String) : Io Unit := do
  match ← getPending with
  | none => return ()
  | some pending => do
    setPending none
    finalizeActuationBestEffort pending .superseded (text detail)

/-- The row of a command that was accepted now. -/
def MvActuationTracker.newRow (tracker : MvActuationTracker) (kind : MvActuationKind)
    (target : ℚ) (acceptedAt : UtcTime) (tolerance : ℚ) : NewTuneMvActuation where
  sequence := tracker.nextSequence
  kind := kind
  commandedAt := acceptedAt
  targetMv := target
  previousCommandedMv := some tracker.previousCommandedMv
  tolerance := tolerance
  confirmationDueAt := acceptedAt + seconds mvActuationConfirmationSecs

/-- `record_accepted_at_switch` for a relay command, as `record_relay_actuation` calls it. -/
def recordRelayActuation (target : ℚ) (switchTick : UtcTime) (switchInstant firstCheckAt : Instant)
    (elapsedSinceObservation : ℕ) (acceptedInstant : Instant) (tolerance : ℚ) : Io Unit := do
  let acceptedAt ← utcAfterElapsed switchTick elapsedSinceObservation
  let deadline := acceptedInstant + durationSecs mvActuationConfirmationSecs
  let tracker ← requireInvariant (← get).program.tracker "a relay command requires a tracker"
  let row ← database (.insertPending (tracker.newRow .relay target acceptedAt tolerance))
  acceptPending
    { id := some row.rowId
      kind := .relay
      target := target
      tolerance := tolerance
      switchTick := switchTick
      switchInstant := switchInstant
      acceptedInstant := acceptedInstant
      firstCheckAt := min firstCheckAt deadline
      deadline := deadline
      lastReadback := none }

/-- The pending command of a restoring write that was accepted now. -/
def restorePending (id : Option ℕ) (target : ℚ) (acceptedAt : UtcTime) (acceptedInstant : Instant)
    (tolerance : ℚ) : PendingMvActuation where
  id := id
  kind := .restore
  target := target
  tolerance := tolerance
  switchTick := acceptedAt
  switchInstant := acceptedInstant
  acceptedInstant := acceptedInstant
  firstCheckAt := acceptedInstant
  deadline := acceptedInstant + durationSecs mvActuationConfirmationSecs
  lastReadback := none

/-- `record_restore_accepted_required` and `record_restore_accepted_best_effort`. -/
def recordRestoreAccepted (policy : ActuationAuditPolicy) (target : ℚ) (acceptedAt : UtcTime)
    (acceptedInstant : Instant) (tolerance : ℚ) : Io Unit := do
  let tracker ← requireInvariant (← get).program.tracker "a restore command requires a tracker"
  let statement := database (.insertPending (tracker.newRow .restore target acceptedAt tolerance))
  let id ← match policy with
    | .required => do
      let row ← statement
      pure (some row.rowId)
    | .bestEffort => do
      match ← tryErr statement with
      | .ok row => pure (some row.rowId)
      | .error _ => pure none
  acceptPending (restorePending id target acceptedAt acceptedInstant tolerance)

/-! ### A replacement requested too early -/

/-- `reject_replacement_for_pending_actuation`. -/
def rejectReplacementForPendingActuation (tag : String) : Io AbortReason := do
  let pending ← takePending "called only when an MV actuation is pending"
  if pending.lastReadback.isSome then
    finalizeActuationBestEffort pending .failed (text ("a replacement relay command was " ++
      "requested while the prior MV readback remained outside tolerance"))
  else
    finalizeActuationBestEffort pending .unverified (text ("a replacement relay command was " ++
      "requested before an acceptable prior MV readback was available"))
  return actuationAbortReason tag pending pending.lastReadback (← now)

/-! ### Verification reads -/

/-- `PendingMvVerificationRead`. -/
inductive PendingMvVerificationRead where
  | ready (operation : Except Text (TickOperation (ℚ × Quality))) (checkedAt : UtcTime)
      (checkedInstant : Instant)
  | deadlineTimedOut (pending : PendingMvActuation) (checkedAt : UtcTime)
      (checkedInstant : Instant)
  | restoreTimedOut (pending : PendingMvActuation) (checkedAt : UtcTime)
      (checkedInstant : Instant)

/-- `PendingMvVerificationValue`. -/
structure PendingMvVerificationValue where
  readback : ℚ
  sampleQuality : SampleQuality
  checkedAt : UtcTime
  checkedInstant : Instant

/-- `PendingMvVerificationResult`. -/
inductive PendingMvVerificationResult where
  | value (v : PendingMvVerificationValue)
  | abort (reason : AbortReason)

/-- `pending_verification_ready`. -/
def pendingVerificationReady (operation : Except Text (TickOperation (ℚ × Quality))) :
    Io PendingMvVerificationRead := do
  let checkedInstant ← now
  let pending ← requireInvariant (← getPending)
    "pending actuation existed after the bounded read"
  let checkedAt ← checkedAtForPending pending checkedInstant
  return .ready operation checkedAt checkedInstant

/-- One round of the loop of `read_pending_mv_verification_with_timing`. -/
def readPendingRound (ctx : RunContext) (tag : String) (callLimit : MvVerificationCallLimit)
    (trigger : MvVerificationTrigger) :
    Io (MvVerificationTrigger ⊕ PendingMvVerificationRead) := do
  let pending ← requireInvariant (← getPending)
    "pending actuation existed before the bounded read"
  let limit := mvVerificationReadLimit (← now) trigger pending callLimit
  match ← tryErr (readNumericSample (some limit.1) ctx.effectiveTiming.opTimeoutSecs tag) with
  | .error e => return .inr (← pendingVerificationReady (.error e))
  | .ok (some operation) => return .inr (← pendingVerificationReady (.ok operation))
  | .ok none =>
    match limit.2 with
    | .confirmation => return .inl .deadline
    | .deadline => do
      let pending ← takePending "pending actuation existed before the deadline read"
      let checkedInstant ← now
      let checkedAt ← checkedAtForPending pending checkedInstant
      return .inr (.deadlineTimedOut pending checkedAt checkedInstant)
    | .restore => do
      let pending ← takePending "pending actuation existed before the bounded read"
      let checkedInstant ← now
      let checkedAt ← checkedAtForPending pending checkedInstant
      return .inr (.restoreTimedOut pending checkedAt checkedInstant)

/-- `read_pending_mv_verification_with_timing`.  Two rounds are all there can be: after a
confirmation timeout the trigger is the deadline, and a deadline round returns. -/
def readPendingMvVerification (ctx : RunContext) (tag : String) (trigger : MvVerificationTrigger)
    (callLimit : MvVerificationCallLimit) : Io PendingMvVerificationRead :=
  iterate .outOfFuel (readPendingRound ctx tag callLimit) 2 trigger

/-- `resolve_pending_mv_read`. -/
def resolvePendingMvRead (ctx : RunContext) (tag : String)
    (operation : Except Text (TickOperation (ℚ × Quality))) (checkedAt : UtcTime)
    (checkedInstant : Instant) : Io PendingMvVerificationResult := do
  let message := "pending actuation existed before the verification read"
  match operation with
  | .error error => do
    let pending ← takePending message
    recordFinalActuationObservation pending checkedAt none none .unverified
      (text "MV verification read failed: " ++ error)
    bail error
  | .ok .cancelled => do
    let pending ← takePending message
    finalizeActuationBestEffort pending .unverified
      (text "MV verification was interrupted before confirmation completed")
    return .abort .userInterrupt
  | .ok .timedOut => do
    let pending ← takePending message
    recordFinalActuationObservation pending checkedAt none none .unverified
      (text "MV verification read did not complete within " ++
        [.nat ctx.effectiveTiming.opTimeoutSecs] ++ text " seconds")
    return .abort (.operationTimedOut tag ctx.effectiveTiming.opTimeoutSecs)
  | .ok (.completed (readback, quality)) =>
    match checkQuality tag quality ctx.allowUncertainQuality with
    | .error _ => do
      let pending ← takePending message
      recordFinalActuationObservation pending checkedAt (some readback)
        (some (sampleQualityFromDriver quality)) .unverified
        (text "MV verification read reported OPC quality " ++ [.quality quality])
      return .abort (.poorQuality tag quality)
    | .ok () =>
      return .value
        { readback := readback
          sampleQuality := sampleQualityFromDriver quality
          checkedAt := checkedAt
          checkedInstant := checkedInstant }

/-- `confirm_pending_mv_actuation`; the caller has taken the pending command. -/
def confirmPendingMvActuation (pending : PendingMvActuation) (checkedAt : UtcTime) (readback : ℚ)
    (sampleQuality : SampleQuality) (policy : ActuationAuditPolicy) : Io Unit := do
  match pending.id with
  | none => pure ()
  | some id => do
    match ← tryErr (runStatement (.recordFinalObservation id checkedAt (some readback)
        (some sampleQuality) .confirmed none)), policy with
    | .ok (), _ => pure ()
    | .error _, .bestEffort => pure ()
    | .error e, .required => do
      setPending (some pending)
      bail e
  modifyTracker fun t => { t with confirmedMv := some pending.target }

/-- `finalize_pending_mv_verification`. -/
def finalizePendingMvVerification (tag : String) (value : PendingMvVerificationValue)
    (trigger : MvVerificationTrigger) (policy : ActuationAuditPolicy) :
    Io (Option AbortReason) := do
  let pending ← takePending "pending actuation existed before the verification result"
  if pending.deadline < value.checkedInstant then
    let detail :=
      if actuationMatches pending.target value.readback pending.tolerance then
        "MV readback matched the target only after the confirmation deadline"
      else "MV readback remained outside tolerance after the confirmation deadline"
    recordFinalActuationObservation pending value.checkedAt (some value.readback)
      (some value.sampleQuality) .failed (text detail)
    return some (actuationAbortReason tag pending (some value.readback) value.checkedInstant)
  else if actuationMatches pending.target value.readback pending.tolerance then
    confirmPendingMvActuation pending value.checkedAt value.readback value.sampleQuality policy
    return none
  else if trigger = .deadline ∨ pending.deadline ≤ value.checkedInstant then
    recordFinalActuationObservation pending value.checkedAt (some value.readback)
      (some value.sampleQuality) .failed
      (text "MV readback remained outside tolerance at the confirmation deadline")
    return some (actuationAbortReason tag pending (some value.readback) value.checkedInstant)
  else
    recordActuationObservation pending value.checkedAt (some value.readback)
      (some value.sampleQuality) policy
    setPending (some { pending with lastReadback := some value.readback })
    return none

/-- `verify_pending_mv_actuation_with_timing`. -/
def verifyPendingMvActuation (ctx : RunContext) (tag : String) (trigger : MvVerificationTrigger)
    (callLimit : MvVerificationCallLimit) (policy : ActuationAuditPolicy) :
    Io (Option AbortReason) := do
  match ← getPending with
  | none => return none
  | some pending =>
    if trigger = .scheduled ∧ (← now) < pending.firstCheckAt then return none
    else
      match ← readPendingMvVerification ctx tag trigger callLimit with
      | .deadlineTimedOut pending checkedAt checkedInstant => do
        recordFinalActuationObservation pending checkedAt pending.lastReadback none .unverified
          (text ("the fresh MV read at the confirmation deadline did not finish within its " ++
            "bounded verification window"))
        return some (actuationAbortReason tag pending pending.lastReadback checkedInstant)
      | .restoreTimedOut pending checkedAt checkedInstant => do
        recordFinalActuationObservation pending checkedAt pending.lastReadback none .unverified
          (text "the restore timeout elapsed before MV confirmation completed")
        return some (actuationAbortReason tag pending pending.lastReadback checkedInstant)
      | .ready operation checkedAt checkedInstant => do
        match ← resolvePendingMvRead ctx tag operation checkedAt checkedInstant with
        | .abort reason => return some reason
        | .value value => finalizePendingMvVerification tag value trigger policy

/-- `resolve_pending_mv_poll`: the abort reason, and whether the poll brought MV evidence. -/
def resolvePendingMvPoll (ctx : RunContext) (pvMvValues : TickOperation (List TagValue))
    (checkedAt : UtcTime) (checkedInstant : Instant) : Io (Option AbortReason × Bool) := do
  let mvTag := ctx.tags.manipulatedVariable
  let operation : Except Text (TickOperation (ℚ × Quality)) :=
    match pvMvValues with
    | .completed values => (readNumericFromBatch values mvTag).map .completed
    | .cancelled => .ok .cancelled
    | .timedOut => .ok .timedOut
  match ← resolvePendingMvRead ctx mvTag operation checkedAt checkedInstant with
  | .abort reason => return (some reason, false)
  | .value value => do
    let outcome ← finalizePendingMvVerification mvTag value .scheduled .required
    return (outcome, true)

/-! ### Frames: verification reads and audits, and changes nothing but the pending command -/

/-- A statement on the row of a pending command. -/
def DbOp.Audits : DbOp → Prop
  | .recordObservation _ _ _ _ => True
  | .recordFinalObservation _ _ _ _ _ _ => True
  | .finalize _ _ _ => True
  | _ => False

/-- An event whose statement, if it is one, is on the row of a pending command. -/
def Event.Audits : Event → Prop
  | .db op _ => op.Audits
  | _ => True

theorem Event.Audits.minor {e : Event} (h : e.Audits) : e.Minor := by
  cases e with
  | db op result => cases op <;> first | exact h.elim | exact ⟨id, id⟩
  | _ => trivial

/-- What a tracker knows of the commands issued so far: the number of the next one, the target of
the last one, and the span. -/
def MvActuationTracker.issued (tracker : MvActuationTracker) : ℤ × ℚ × ℚ :=
  (tracker.nextSequence, tracker.previousCommandedMv, tracker.mvSpan)

theorem issued_map_tracker (a : Program) (f : MvActuationTracker → MvActuationTracker)
    (hf : ∀ t, (f t).issued = t.issued) :
    ({ a with tracker := a.tracker.map f } : Program).tracker.map (·.issued) =
      a.tracker.map (·.issued) := by
  show Option.map _ (a.tracker.map f) = _
  cases a.tracker with
  | none => rfl
  | some t => exact congrArg some (hf t)

section Frames

variable {τ : Type} {p : Event → Prop} {part : Program → τ}

theorem keeps_getPending {F : Frame Sys} : Keeps F getPending := Keeps.get.bind fun _ => .pure _

theorem keeps_durationFromStd {F : Frame Sys} (elapsed : ℕ) (message : Text) :
    Keeps F (durationFromStd elapsed message) := by
  unfold durationFromStd
  split
  · exact .pure _
  · exact keeps_bail _

theorem keeps_checkedAtForPending {F : Frame Sys} (pending : PendingMvActuation)
    (checkedInstant : Instant) : Keeps F (checkedAtForPending pending checkedInstant) :=
  (keeps_durationFromStd _ _).bind fun _ => .pure _

theorem keeps_utcAfterElapsed {F : Frame Sys} (time : UtcTime) (elapsed : ℕ) :
    Keeps F (utcAfterElapsed time elapsed) := (keeps_durationFromStd _ _).bind fun _ => .pure _

theorem keeps_pendingVerificationReady {F : Frame Sys}
    (operation : Except Text (TickOperation (ℚ × Quality))) :
    Keeps F (pendingVerificationReady operation) :=
  keeps_now.bind fun _ => keeps_getPending.bind fun _ =>
    (keeps_requireInvariant _ _).bind fun _ => (keeps_checkedAtForPending _ _).bind fun _ =>
      .pure _

theorem keeps_statement (hp : ∀ e, Event.Silent e → ¬e.Closes → p e) (op : DbOp)
    (hop : ¬op.Closes) : Keeps (within p part) (runStatement op) :=
  keeps_runStatement fun _ => hp _ trivial hop

variable (hp : ∀ e, Event.Silent e → e.Audits → p e)

include hp in
theorem keeps_auditStatement (op : DbOp) (hop : op.Audits) :
    Keeps (within p part) (runStatement op) := keeps_runStatement fun _ => hp _ trivial hop

include hp in
theorem keeps_recordActuationObservation (pending : PendingMvActuation) (checkedAt : UtcTime)
    (readback : Option ℚ) (quality : Option SampleQuality) (policy : ActuationAuditPolicy) :
    Keeps (within p part)
      (recordActuationObservation pending checkedAt readback quality policy) := by
  unfold recordActuationObservation
  cases pending.id with
  | none => exact .pure _
  | some row =>
    cases policy with
    | required => exact keeps_auditStatement hp _ trivial
    | bestEffort => exact keeps_bestEffort (keeps_auditStatement hp _ trivial)

include hp in
theorem keeps_recordFinalActuationObservation (pending : PendingMvActuation)
    (checkedAt : UtcTime) (readback : Option ℚ) (quality : Option SampleQuality)
    (status : MvActuationStatus) (detail : Text) :
    Keeps (within p part)
      (recordFinalActuationObservation pending checkedAt readback quality status detail) := by
  unfold recordFinalActuationObservation
  cases pending.id with
  | none => exact .pure _
  | some row => exact keeps_bestEffort (keeps_auditStatement hp _ trivial)

include hp in
theorem keeps_finalizeActuationBestEffort (pending : PendingMvActuation)
    (status : MvActuationStatus) (detail : Text) :
    Keeps (within p part) (finalizeActuationBestEffort pending status detail) := by
  unfold finalizeActuationBestEffort
  cases pending.id with
  | none => exact .pure _
  | some row => exact keeps_bestEffort (keeps_auditStatement hp _ trivial)

theorem keeps_finalizePendingForRun (hp : ∀ e, Event.Silent e → e.Minor → p e) (detail : String) :
    Keeps (within p part) (finalizePendingForRunBestEffort detail) :=
  keeps_bestEffort (keeps_runStatement fun _ => hp _ trivial ⟨id, id⟩)

variable (hpart : ∀ (a : Program) (f : MvActuationTracker → MvActuationTracker),
  (∀ t, (f t).issued = t.issued) → part { a with tracker := a.tracker.map f } = part a)

include hpart in
theorem keeps_modifyTracker (f : MvActuationTracker → MvActuationTracker)
    (hf : ∀ t, (f t).issued = t.issued) : Keeps (within p part) (modifyTracker f) :=
  keeps_modifyProgram fun a => hpart a f hf

include hpart in
theorem keeps_setPending (pending : Option PendingMvActuation) :
    Keeps (within p part) (setPending pending) := keeps_modifyTracker hpart _ fun _ => rfl

include hpart in
theorem keeps_setConfirmed (mv : Option ℚ) :
    Keeps (within p part) (modifyTracker fun t => { t with confirmedMv := mv }) :=
  keeps_modifyTracker hpart _ fun _ => rfl

include hpart in
theorem keeps_takePending (message : String) : Keeps (within p part) (takePending message) :=
  keeps_getPending.bind fun _ => (keeps_requireInvariant _ _).bind fun _ =>
    (keeps_setPending hpart _).bind fun _ => .pure _

include hp hpart in
theorem keeps_supersedePending (detail : String) :
    Keeps (within p part) (supersedePendingActuationBestEffort detail) := by
  refine keeps_getPending.bind fun pending => ?_
  cases pending with
  | none => exact .pure _
  | some pending =>
    exact (keeps_setPending hpart _).bind fun _ => keeps_finalizeActuationBestEffort hp _ _ _

include hp hpart in
theorem keeps_readPendingRound (ctx : RunContext) (tag : String)
    (callLimit : MvVerificationCallLimit) (trigger : MvVerificationTrigger) :
    Keeps (within p part) (readPendingRound ctx tag callLimit trigger) := by
  refine keeps_getPending.bind fun _ => (keeps_requireInvariant _ _).bind fun pending =>
    keeps_now.bind fun t =>
      (keeps_tryErr (keeps_readNumericSample (fun _ => hp _ trivial trivial) _ _ _)).bind fun r => ?_
  match r with
  | .error e => exact (keeps_pendingVerificationReady _).bind fun _ => .pure _
  | .ok (some operation) => exact (keeps_pendingVerificationReady _).bind fun _ => .pure _
  | .ok none =>
    dsimp only
    split
    · exact .pure _
    · exact (keeps_takePending hpart _).bind fun _ => keeps_now.bind fun _ =>
        (keeps_checkedAtForPending _ _).bind fun _ => .pure _
    · exact (keeps_takePending hpart _).bind fun _ => keeps_now.bind fun _ =>
        (keeps_checkedAtForPending _ _).bind fun _ => .pure _

include hp hpart in
theorem keeps_resolvePendingMvRead (ctx : RunContext) (tag : String)
    (operation : Except Text (TickOperation (ℚ × Quality))) (checkedAt : UtcTime)
    (checkedInstant : Instant) :
    Keeps (within p part)
      (resolvePendingMvRead ctx tag operation checkedAt checkedInstant) := by
  match operation with
  | .error e =>
    exact (keeps_takePending hpart _).bind fun _ =>
      (keeps_recordFinalActuationObservation hp _ _ _ _ _ _).bind fun _ => keeps_bail _
  | .ok .cancelled =>
    exact (keeps_takePending hpart _).bind fun _ =>
      (keeps_finalizeActuationBestEffort hp _ _ _).bind fun _ => .pure _
  | .ok .timedOut =>
    exact (keeps_takePending hpart _).bind fun _ =>
      (keeps_recordFinalActuationObservation hp _ _ _ _ _ _).bind fun _ => .pure _
  | .ok (.completed (readback, quality)) =>
    unfold resolvePendingMvRead
    dsimp only
    split
    · exact (keeps_takePending hpart _).bind fun _ =>
        (keeps_recordFinalActuationObservation hp _ _ _ _ _ _).bind fun _ => .pure _
    · exact .pure _

include hp hpart in
theorem keeps_confirmPendingMvActuation (pending : PendingMvActuation) (checkedAt : UtcTime)
    (readback : ℚ) (sampleQuality : SampleQuality) (policy : ActuationAuditPolicy) :
    Keeps (within p part)
      (confirmPendingMvActuation pending checkedAt readback sampleQuality policy) := by
  unfold confirmPendingMvActuation
  cases pending.id with
  | none => exact keeps_setConfirmed hpart _
  | some row =>
    refine (keeps_tryErr (keeps_auditStatement hp (.recordFinalObservation row checkedAt
      (some readback) (some sampleQuality) .confirmed none) trivial)).bind fun r => ?_
    match r, policy with
    | .ok (), _ => exact keeps_setConfirmed hpart _
    | .error _, .bestEffort => exact keeps_setConfirmed hpart _
    | .error e, .required =>
      exact (keeps_setPending hpart _).bind fun _ => (keeps_bail _).bind fun _ =>
        keeps_setConfirmed hpart _

include hp hpart in
theorem keeps_finalizePendingMvVerification (tag : String) (value : PendingMvVerificationValue)
    (trigger : MvVerificationTrigger) (policy : ActuationAuditPolicy) :
    Keeps (within p part) (finalizePendingMvVerification tag value trigger policy) := by
  refine (keeps_takePending hpart _).bind fun pending => ?_
  split
  · exact (keeps_recordFinalActuationObservation hp _ _ _ _ _ _).bind fun _ => .pure _
  · split
    · exact (keeps_confirmPendingMvActuation hp hpart _ _ _ _ _).bind fun _ => .pure _
    · split
      · exact (keeps_recordFinalActuationObservation hp _ _ _ _ _ _).bind fun _ => .pure _
      · exact (keeps_recordActuationObservation hp _ _ _ _ _).bind fun _ =>
          (keeps_setPending hpart _).bind fun _ => .pure _

include hp hpart in
theorem keeps_verifyPendingMvActuation (ctx : RunContext) (tag : String)
    (trigger : MvVerificationTrigger) (callLimit : MvVerificationCallLimit)
    (policy : ActuationAuditPolicy) :
    Keeps (within p part) (verifyPendingMvActuation ctx tag trigger callLimit policy) := by
  refine keeps_getPending.bind fun pending => ?_
  cases pending with
  | none => exact .pure _
  | some pending =>
    refine keeps_now.bind fun t => ?_
    split
    · exact .pure _
    · refine (Keeps.iterate (fun _ => keeps_readPendingRound hp hpart _ _ _ _) _ _).bind
        fun read => ?_
      cases read with
      | deadlineTimedOut pending checkedAt checkedInstant =>
        exact (keeps_recordFinalActuationObservation hp _ _ _ _ _ _).bind fun _ => .pure _
      | restoreTimedOut pending checkedAt checkedInstant =>
        exact (keeps_recordFinalActuationObservation hp _ _ _ _ _ _).bind fun _ => .pure _
      | ready operation checkedAt checkedInstant =>
        refine (keeps_resolvePendingMvRead hp hpart _ _ _ _ _).bind fun r => ?_
        cases r with
        | abort reason => exact .pure _
        | value v => exact keeps_finalizePendingMvVerification hp hpart _ _ _ _

include hp hpart in
theorem keeps_resolvePendingMvPoll (ctx : RunContext)
    (pvMvValues : TickOperation (List TagValue)) (checkedAt : UtcTime)
    (checkedInstant : Instant) :
    Keeps (within p part) (resolvePendingMvPoll ctx pvMvValues checkedAt checkedInstant) := by
  refine (keeps_resolvePendingMvRead hp hpart _ _ _ _ _).bind fun r => ?_
  cases r with
  | abort reason => exact .pure _
  | value v =>
    exact (keeps_finalizePendingMvVerification hp hpart _ _ _ _).bind fun _ => .pure _

include hp hpart in
theorem keeps_rejectReplacement (tag : String) :
    Keeps (within p part) (rejectReplacementForPendingActuation tag) := by
  refine (keeps_takePending hpart _).bind fun pending => ?_
  dsimp only
  split
  · exact (keeps_finalizeActuationBestEffort hp _ _ _).bind fun _ => keeps_now.bind fun _ =>
      .pure _
  · exact (keeps_finalizeActuationBestEffort hp _ _ _).bind fun _ => keeps_now.bind fun _ =>
      .pure _

variable (hc : ∀ pending, p (.mark (.commandPending pending)))
variable (hrow : ∀ row result, p (.db (.insertPending row) result))
variable (htracker : ∀ (a : Program) (t : Option MvActuationTracker),
  part { a with tracker := t } = part a)

include htracker hc in
theorem keeps_acceptPending (pending : PendingMvActuation) :
    Keeps (within p part) (acceptPending pending) :=
  (keeps_modifyProgram fun a => htracker a _).bind fun _ => keeps_mark (hc _)

include hrow htracker hc in
theorem keeps_recordRelayActuation (target : ℚ) (switchTick : UtcTime)
    (switchInstant firstCheckAt : Instant) (elapsedSinceObservation : ℕ)
    (acceptedInstant : Instant) (tolerance : ℚ) :
    Keeps (within p part) (recordRelayActuation target switchTick switchInstant firstCheckAt
      elapsedSinceObservation acceptedInstant tolerance) :=
  (keeps_utcAfterElapsed _ _).bind fun _ => Keeps.get.bind fun _ =>
    (keeps_requireInvariant _ _).bind fun _ =>
      (keeps_database (hrow _)).bind fun _ => keeps_acceptPending hc htracker _

include hrow htracker hc in
theorem keeps_recordRestoreAccepted (policy : ActuationAuditPolicy) (target : ℚ)
    (acceptedAt : UtcTime) (acceptedInstant : Instant) (tolerance : ℚ) :
    Keeps (within p part)
      (recordRestoreAccepted policy target acceptedAt acceptedInstant tolerance) := by
  refine Keeps.get.bind fun _ => (keeps_requireInvariant _ _).bind fun tracker => ?_
  cases policy with
  | required =>
    exact (keeps_database (hrow _)).bind fun _ => (Keeps.pure _).bind fun _ =>
      keeps_acceptPending hc htracker _
  | bestEffort =>
    refine (keeps_tryErr (keeps_database (hrow _))).bind fun r => ?_
    cases r with
    | ok row => exact (Keeps.pure _).bind fun _ => keeps_acceptPending hc htracker _
    | error e => exact (Keeps.pure _).bind fun _ => keeps_acceptPending hc htracker _

end Frames

end Bhtune
