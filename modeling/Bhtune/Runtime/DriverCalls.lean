import Bhtune.Runtime.DriverWaits
import Bhtune.Runtime.Prepare

/-!
# The driver calls of a run

Every part of a run makes its driver calls in one of the three ways, from the verification of a
command to the write-back of the constants.

* `attends_verifyPendingMvActuation`, `attends_runPollingLoop` — polling and verification;
* `attends_attemptRestore` — the restore with its settling period;
* `attends_maybeWriteBack` — the write-back;
* `driver_calls_prompt_iff` — the whole run.
-/

namespace Bhtune

open Effect EventLog

variable {op : ℕ} {ctx : RunContext}

/-- A part of a run makes its calls under the run's own operation timeout. -/
abbrev RunContext.Attends {α : Type} (ctx : RunContext) (x : Io α) : Prop :=
  Bhtune.Attends ctx.effectiveTiming.opTimeoutSecs x

theorem attends_outOfFuel (s : Sys) : (attending op).fails s .outOfFuel s :=
  fails_of_rel nofun ((attending op).refl s)

/-! ### Verification -/

theorem attends_durationFromStd (elapsed : ℕ) (message : Text) :
    Attends op (durationFromStd elapsed message) := by
  unfold durationFromStd
  split
  · exact .pure _
  · exact attends_bail _

theorem attends_checkedAt (pending : PendingMvActuation) (checkedInstant : Instant) :
    Attends op (checkedAtForPending pending checkedInstant) :=
  (attends_durationFromStd _ _).bind fun _ => .pure _

theorem attends_verificationReady (operation : Except Text (TickOperation (ℚ × Quality))) :
    Attends op (pendingVerificationReady operation) :=
  attends_now.bind fun _ => attends_getPending.bind fun _ =>
    (attends_requireInvariant _ _).bind fun _ => (attends_checkedAt _ _).bind fun _ => .pure _

theorem attends_recordObservation (pending : PendingMvActuation) (checkedAt : UtcTime)
    (readback : Option ℚ) (quality : Option SampleQuality) (policy : ActuationAuditPolicy) :
    Attends op (recordActuationObservation pending checkedAt readback quality policy) := by
  unfold recordActuationObservation
  cases pending.id with
  | none => exact .pure _
  | some row =>
    cases policy with
    | required => exact attends_runStatement _
    | bestEffort => exact attends_bestEffort (attends_runStatement _)

theorem attends_recordFinal (pending : PendingMvActuation) (checkedAt : UtcTime)
    (readback : Option ℚ) (quality : Option SampleQuality) (status : MvActuationStatus)
    (detail : Text) : Attends op
      (recordFinalActuationObservation pending checkedAt readback quality status detail) := by
  unfold recordFinalActuationObservation
  cases pending.id with
  | none => exact .pure _
  | some row => exact attends_bestEffort (attends_runStatement _)

theorem attends_finalize (pending : PendingMvActuation) (status : MvActuationStatus)
    (detail : Text) : Attends op (finalizeActuationBestEffort pending status detail) := by
  unfold finalizeActuationBestEffort
  cases pending.id with
  | none => exact .pure _
  | some row => exact attends_bestEffort (attends_runStatement _)

theorem attends_takePending (message : String) : Attends op (takePending message) :=
  attends_getPending.bind fun _ => (attends_requireInvariant _ _).bind fun _ =>
    (attends_setPending _).bind fun _ => .pure _

theorem attends_supersede (detail : String) :
    Attends op (supersedePendingActuationBestEffort detail) := by
  refine attends_getPending.bind fun pending => ?_
  cases pending with
  | none => exact .pure _
  | some pending => exact (attends_setPending _).bind fun _ => attends_finalize _ _ _

theorem attends_readNumericSample (limit : Option Instant) (tag : String) :
    Attends op (readNumericSample limit op tag) := by
  refine (attends_boundedRead _ _ _).bind fun r => ?_
  match r with
  | some (.completed values) => exact (attends_liftResult _).bind fun _ => .pure _
  | some .cancelled => exact .pure _
  | some .timedOut => exact .pure _
  | none => exact .pure _

theorem attends_readPollBatch (pvTag : String) (mvTag : Option String) :
    Attends op (readPollBatch op pvTag mvTag) :=
  attends_bounded fun _ => wp_mono boundedRead_attends
    (fun _ _ h => ⟨h.1, h.2 rfl⟩) fun _ _ h => h

theorem attends_readPendingRound (tag : String) (callLimit : MvVerificationCallLimit)
    (trigger : MvVerificationTrigger) :
    ctx.Attends (readPendingRound ctx tag callLimit trigger) := by
  refine attends_getPending.bind fun _ => (attends_requireInvariant _ _).bind fun pending =>
    attends_now.bind fun t => (attends_tryErr (attends_readNumericSample _ _)).bind fun r => ?_
  match r with
  | .error e => exact (attends_verificationReady _).bind fun _ => .pure _
  | .ok (some operation) => exact (attends_verificationReady _).bind fun _ => .pure _
  | .ok none =>
    dsimp only
    split
    · exact .pure _
    · exact (attends_takePending _).bind fun _ => attends_now.bind fun _ =>
        (attends_checkedAt _ _).bind fun _ => .pure _
    · exact (attends_takePending _).bind fun _ => attends_now.bind fun _ =>
        (attends_checkedAt _ _).bind fun _ => .pure _

theorem attends_resolvePendingMvRead (tag : String)
    (operation : Except Text (TickOperation (ℚ × Quality))) (checkedAt : UtcTime)
    (checkedInstant : Instant) :
    Attends op (resolvePendingMvRead ctx tag operation checkedAt checkedInstant) := by
  match operation with
  | .error e =>
    exact (attends_takePending _).bind fun _ => (attends_recordFinal _ _ _ _ _ _).bind fun _ =>
      attends_bail _
  | .ok .cancelled =>
    exact (attends_takePending _).bind fun _ => (attends_finalize _ _ _).bind fun _ => .pure _
  | .ok .timedOut =>
    exact (attends_takePending _).bind fun _ => (attends_recordFinal _ _ _ _ _ _).bind fun _ =>
      .pure _
  | .ok (.completed (readback, quality)) =>
    unfold resolvePendingMvRead
    dsimp only
    split
    · exact (attends_takePending _).bind fun _ => (attends_recordFinal _ _ _ _ _ _).bind
        fun _ => .pure _
    · exact .pure _

theorem attends_confirm (pending : PendingMvActuation) (checkedAt : UtcTime) (readback : ℚ)
    (sampleQuality : SampleQuality) (policy : ActuationAuditPolicy) :
    Attends op (confirmPendingMvActuation pending checkedAt readback sampleQuality policy) := by
  unfold confirmPendingMvActuation
  cases pending.id with
  | none => exact attends_modifyTracker _
  | some row =>
    refine (attends_tryErr (attends_runStatement _)).bind fun r => ?_
    match r, policy with
    | .ok (), _ => exact attends_modifyTracker _
    | .error _, .bestEffort => exact attends_modifyTracker _
    | .error e, .required =>
      exact (attends_setPending _).bind fun _ => (attends_bail e).bind fun _ =>
        attends_modifyTracker _

theorem attends_finalizeVerification (tag : String) (value : PendingMvVerificationValue)
    (trigger : MvVerificationTrigger) (policy : ActuationAuditPolicy) :
    Attends op (finalizePendingMvVerification tag value trigger policy) := by
  refine (attends_takePending _).bind fun pending => ?_
  split
  · exact (attends_recordFinal _ _ _ _ _ _).bind fun _ => .pure _
  · split
    · exact (attends_confirm _ _ _ _ _).bind fun _ => .pure _
    · split
      · exact (attends_recordFinal _ _ _ _ _ _).bind fun _ => .pure _
      · exact (attends_recordObservation _ _ _ _ _).bind fun _ =>
          (attends_setPending _).bind fun _ => .pure _

theorem attends_verifyPendingMvActuation (tag : String) (trigger : MvVerificationTrigger)
    (callLimit : MvVerificationCallLimit) (policy : ActuationAuditPolicy) :
    ctx.Attends (verifyPendingMvActuation ctx tag trigger callLimit policy) := by
  refine attends_getPending.bind fun pending => ?_
  cases pending with
  | none => exact .pure _
  | some pending =>
    refine attends_now.bind fun t => ?_
    split
    · exact .pure _
    · refine (Honors.iterate attends_outOfFuel (fun _ => attends_readPendingRound _ _ _) _ _).bind
        fun read => ?_
      cases read with
      | deadlineTimedOut pending checkedAt checkedInstant =>
        exact (attends_recordFinal _ _ _ _ _ _).bind fun _ => .pure _
      | restoreTimedOut pending checkedAt checkedInstant =>
        exact (attends_recordFinal _ _ _ _ _ _).bind fun _ => .pure _
      | ready operation checkedAt checkedInstant =>
        refine (attends_resolvePendingMvRead _ _ _ _).bind fun r => ?_
        cases r with
        | abort reason => exact .pure _
        | value v => exact attends_finalizeVerification _ _ _ _

theorem attends_resolvePendingMvPoll (pvMvValues : TickOperation (List TagValue))
    (checkedAt : UtcTime) (checkedInstant : Instant) :
    Attends op (resolvePendingMvPoll ctx pvMvValues checkedAt checkedInstant) := by
  refine (attends_resolvePendingMvRead _ _ _ _).bind fun r => ?_
  cases r with
  | abort reason => exact .pure _
  | value v => exact (attends_finalizeVerification _ _ _ _).bind fun _ => .pure _

theorem attends_rejectReplacement (tag : String) :
    Attends op (rejectReplacementForPendingActuation tag) := by
  refine (attends_takePending _).bind fun pending => ?_
  dsimp only
  split
  · exact (attends_finalize _ _ _).bind fun _ => attends_now.bind fun _ => .pure _
  · exact (attends_finalize _ _ _).bind fun _ => attends_now.bind fun _ => .pure _

theorem attends_acceptPending (pending : PendingMvActuation) :
    Attends op (acceptPending pending) :=
  (attends_modifyProgram _).bind fun _ => attends_mark _

theorem attends_recordRelay (target : ℚ) (switchTick : UtcTime)
    (switchInstant firstCheckAt : Instant) (elapsedSinceObservation : ℕ)
    (acceptedInstant : Instant) (tolerance : ℚ) :
    Attends op (recordRelayActuation target switchTick switchInstant firstCheckAt
      elapsedSinceObservation acceptedInstant tolerance) :=
  Honors.bind ((attends_durationFromStd _ _).bind fun _ => .pure _) fun _ =>
    Honors.get.bind fun _ => (attends_requireInvariant _ _).bind fun _ =>
      (attends_database _).bind fun _ => attends_acceptPending _

theorem attends_recordRestore (policy : ActuationAuditPolicy) (target : ℚ) (acceptedAt : UtcTime)
    (acceptedInstant : Instant) (tolerance : ℚ) :
    Attends op (recordRestoreAccepted policy target acceptedAt acceptedInstant tolerance) := by
  refine Honors.get.bind fun _ => (attends_requireInvariant _ _).bind fun tracker => ?_
  cases policy with
  | required =>
    exact (attends_database _).bind fun _ => (Honors.pure _).bind fun _ => attends_acceptPending _
  | bestEffort =>
    refine (attends_tryErr (attends_database _)).bind fun r => ?_
    cases r with
    | ok row => exact (Honors.pure _).bind fun _ => attends_acceptPending _
    | error e => exact (Honors.pure _).bind fun _ => attends_acceptPending _

/-! ### Polling -/

theorem attends_nextTimestamp : Attends op nextTimestamp := by
  refine Honors.get.bind fun s => ?_
  cases s.program.tickTime with
  | liveMonotonic anchor =>
    refine attends_now.bind fun t => ?_
    split
    · exact attends_bail _
    · exact (attends_durationFromStd _ _).bind fun _ => .pure _
  | fixedStep current step => exact (attends_modifyProgram _).bind fun _ => .pure _

theorem attends_observeTimestamp (timestamp : UtcTime) :
    Attends op (observeTimestamp timestamp) :=
  Honors.get.bind fun _ => (attends_liftResult _).bind fun _ => attends_modifyProgram _

theorem attends_engineState : Attends op (engineState ctx) := Honors.get.bind fun _ => .pure _

theorem attends_relayTolerance (v : ℚ) : Attends op (relayTolerance v) := by
  refine Honors.get.bind fun s => ?_
  cases s.program.tracker with
  | none => exact .pure _
  | some tracker => exact (attends_liftResult _).bind fun _ => .pure _

theorem attends_abortWithSample (tickIndex : ℕ) (tick : Tick ℚ) (state : MrftState ℚ)
    (quality : SampleQuality) (reason : AbortReason) :
    Attends op (abortWithSample tickIndex tick state quality reason) :=
  (attends_runStatement _).bind fun _ => .pure _

theorem attends_abandonedPollRead (operation : TickOperation (List TagValue)) (message : String)
    (otherwise : AbortReason) :
    Attends op (abandonedPollRead ctx operation message otherwise) := by
  refine attends_getPending.bind fun pending => ?_
  cases pending with
  | none => exact .pure _
  | some pending =>
    exact attends_now.bind fun _ => (attends_checkedAt _ _).bind fun _ =>
      (attends_resolvePendingMvPoll _ _ _).bind fun _ =>
        (attends_requireInvariant _ _).bind fun _ => .pure _

theorem attends_pollRead : ctx.Attends (pollRead ctx) := by
  refine attends_getPending.bind fun pending => (attends_readPollBatch _ _).bind fun r => ?_
  cases r with
  | completed values =>
    refine attends_now.bind fun t => ?_
    have htail : ∀ reason evidence, ctx.Attends
        (liftResult (readNumericFromBatch values ctx.tags.processVariable) >>= fun x =>
          pure (PollRead.sample x.1 x.2 evidence reason)) :=
      fun _ _ => (attends_liftResult _).bind fun _ => .pure _
    dsimp only
    split
    · exact attends_getPending.bind fun _ => (attends_requireInvariant _ _).bind fun _ =>
        (attends_checkedAt _ _).bind fun _ =>
          (attends_resolvePendingMvPoll _ _ _).bind fun _ => htail _ _
    · exact (Honors.pure _).bind fun _ => htail _ _
  | cancelled => exact attends_abandonedPollRead _ _ _
  | timedOut => exact attends_abandonedPollRead _ _ _

theorem attends_evaluateTick (tick : Tick ℚ) (providedMvEvidence : Bool) :
    Attends op (evaluateTick ctx tick providedMvEvidence) := by
  refine Honors.get.bind fun s => attends_getPending.bind fun pending =>
    (attends_mark _).bind fun _ => ?_
  split
  · split
    · exact (attends_rejectReplacement _).bind fun _ => .pure _
    · exact attends_throw nofun
  · exact (attends_modifyProgram _).bind fun _ => .pure _

theorem attends_performWriteMv (v : ℚ) (time : UtcTime) (observedInstant : Instant) :
    ctx.Attends (performWriteMv ctx v time observedInstant) := by
  refine (attends_relayTolerance v).bind fun tolerance => (attends_modifyProgram _).bind fun _ =>
    attends_getPending.bind fun pending => Honors.bind ?_ fun operation => ?_
  · exact attends_bounded fun _ => wp_mono (boundedWrite_attends (.inl ⟨_, _, rfl⟩))
      (fun _ _ h => ⟨h.1, h.2 rfl⟩) fun _ _ h => h
  · unfold recordWriteMv
    split
    · exact attends_now.bind fun _ => (attends_recordRelay _ _ _ _ _ _ _).bind fun _ => .pure _
    · exact .pure _

theorem attends_performActions (time : UtcTime) (observedInstant : Instant)
    (stateBeforeStep : MrftState ℚ) (completion : Option (Action ℚ))
    (postDelayEnd : Option UtcTime) (actions : List (Action ℚ)) :
    ctx.Attends (performActions ctx time observedInstant stateBeforeStep completion postDelayEnd
      actions) := by
  induction actions generalizing completion postDelayEnd with
  | nil => exact .pure _
  | cons action rest ih =>
    cases action with
    | writeMv v =>
      refine (attends_performWriteMv v time observedInstant).bind fun operation => ?_
      cases operation with
      | completed => exact ih _ _
      | cancelled => exact .pure _
      | timedOut => exact attends_engineState.bind fun _ => .pure _
    | complete peaks troughs switchTimes mvSignInit => exact ih _ _

theorem attends_evaluatedTick (ps : PollState) (tick : Tick ℚ) (observedInstant : Instant)
    (quality : SampleQuality) (providedMvEvidence : Bool) :
    ctx.Attends (evaluatedTick ctx ps tick observedInstant quality providedMvEvidence) := by
  refine attends_engineState.bind fun before => (attends_evaluateTick _ _).bind fun r => ?_
  cases r with
  | error reason => exact attends_abortWithSample _ _ _ _ _
  | ok actions =>
    refine (attends_performActions _ _ _ _ _ _).bind fun performed => ?_
    cases performed with
    | aborted reason state => exact attends_abortWithSample _ _ _ _ _
    | performed completion postDelayEnd =>
      refine attends_engineState.bind fun _ => (attends_runStatement _).bind fun _ => ?_
      dsimp only
      split
      · exact (attends_requireInvariant _ _).bind fun _ => attends_engineState.bind fun _ =>
          .pure _
      · exact .pure _

theorem attends_sampledTick (ps : PollState) (pv : ℚ) (quality : Quality) (evidence : Bool)
    (batchedAbort : Option AbortReason) :
    ctx.Attends (sampledTick ctx ps pv quality evidence batchedAbort) := by
  refine attends_now.bind fun observedInstant => attends_nextTimestamp.bind fun time =>
    (attends_observeTimestamp time).bind fun _ => ?_
  dsimp only
  split
  · exact attends_engineState.bind fun _ => attends_abortWithSample _ _ _ _ _
  · exact attends_engineState.bind fun _ => attends_abortWithSample _ _ _ _ _
  · split
    · exact attends_engineState.bind fun _ => (attends_runStatement _).bind fun _ => .pure _
    · exact attends_evaluatedTick _ _ _ _ _

theorem attends_pollTurn (timeoutAt : Instant) (ps : PollState) :
    ctx.Attends (pollTurn ctx timeoutAt ps) := by
  refine Honors.get.bind fun s => Honors.bind ?_ fun branch => ?_
  · exact attends_selectBiased (b := PollBranch.timeout) (r := timeoutAt) (by simp)
  · cases branch with
    | verification =>
      refine attends_now.bind fun t => attends_getPending.bind fun pending =>
        (attends_requireInvariant _ _).bind fun trigger =>
          (attends_verifyPendingMvActuation _ _ _ _).bind fun r => ?_
      cases r <;> exact .pure _
    | poll =>
      refine attends_now.bind fun t => attends_pollRead.bind fun read => ?_
      cases read with
      | aborted reason => exact .pure _
      | sample pv quality evidence batchedAbort => exact attends_sampledTick _ _ _ _ _
    | ctrlC => exact attends_seeSignals.bind fun _ => .pure _
    | timeout => exact .pure _

theorem attends_runPollingLoop (fuel : ℕ) : ctx.Attends (runPollingLoop fuel ctx) := by
  have hdriver : ctx.Attends (TickTimeSource.forDriver ctx.driver ctx.timeAnchor
      ctx.effectiveTiming.pollIntervalMs) := by
    cases ctx.driver with
    | opcda => exact .pure _
    | simulator => exact (attends_durationFromStd _ _).bind fun _ => .pure _
  exact hdriver.bind fun _ => (attends_modifyProgram _).bind fun _ => attends_now.bind fun _ =>
    .iterate attends_outOfFuel (fun _ => attends_pollTurn _ _) _ _

/-! ### The restore -/

theorem attends_resolveHandoffRead (tag : String) (initialMv : ℚ) (pending : PendingMvActuation)
    (checkedAt : UtcTime) (read : Except Text (Option (TickOperation (ℚ × Quality)))) :
    Attends op (resolveHandoffRead ctx tag initialMv pending checkedAt read) := by
  have hrecord : ∀ readback quality detail, Attends op
      (recordHandoffObservationBestEffort pending checkedAt readback quality detail) :=
    fun _ _ _ => attends_recordFinal _ _ _ _ _ _
  match read with
  | .ok none => exact (attends_finalize _ _ _).bind fun _ => .pure _
  | .error e => exact (hrecord _ _ _).bind fun _ => .pure _
  | .ok (some .cancelled) => exact (attends_setPending _).bind fun _ => .pure _
  | .ok (some .timedOut) => exact (hrecord _ _ _).bind fun _ => .pure _
  | .ok (some (.completed (readback, quality))) =>
    unfold resolveHandoffRead
    dsimp only
    split
    · exact (hrecord _ _ _).bind fun _ => .pure _
    · split
      · exact (hrecord _ _ _).bind fun _ => (attends_modifyTracker _).bind fun _ => .pure _
      · exact (hrecord _ _ _).bind fun _ => .pure _

theorem attends_tryConfirmFinalSnapbackHandoff (tag : String) (initialMv : ℚ) :
    ctx.Attends (tryConfirmFinalSnapbackHandoff ctx tag initialMv) := by
  refine attends_getPending.bind fun held => ?_
  cases held with
  | none => exact .pure _
  | some held =>
    dsimp only
    split
    · exact .pure _
    · refine (attends_takePending _).bind fun pending => attends_now.bind fun t =>
        Honors.get.bind fun s => ?_
      have hrewrite : ∀ detail, ctx.Attends
          (finalizeActuationBestEffort pending .superseded detail >>= fun _ =>
            pure (some RestoreHandoffOutcome.rewrite)) :=
        fun _ => (attends_finalize _ _ _).bind fun _ => .pure _
      have hread : ∀ deadline, ctx.Attends
          (tryErr (readNumericSample (some deadline) ctx.effectiveTiming.opTimeoutSecs tag) >>=
            fun read => now >>= fun checkedInstant =>
              checkedAtForPending pending checkedInstant >>= fun checkedAt =>
                resolveHandoffRead ctx tag initialMv pending checkedAt read >>= fun outcome =>
                  pure (some outcome)) :=
        fun _ => (attends_tryErr (attends_readNumericSample _ _)).bind fun _ =>
          attends_now.bind fun _ => (attends_checkedAt _ _).bind fun _ =>
            (attends_resolveHandoffRead _ _ _ _ _).bind fun _ => .pure _
      split
      · split
        · exact hrewrite _
        · exact hread _
      · split
        · exact hrewrite _
        · exact hread _

theorem attends_restoreMvWrite (tag : String) (initialMv : ℚ) (tolerance : Option ℚ) :
    ctx.Attends (restoreMvWrite ctx tag initialMv tolerance) := by
  refine Honors.get.bind fun s =>
    (attends_tryErr (attends_boundedWrite _ _ _ (.inr ⟨_, rfl⟩))).bind fun r => ?_
  match r with
  | .ok none => exact .pure _
  | .ok (some (.completed ())) => exact .pure _
  | .ok (some .cancelled) => exact .pure _
  | .ok (some .timedOut) => exact .pure _
  | .error e => exact .pure _

theorem attends_restoreVerificationRound (tag : String) (policy : ActuationAuditPolicy) :
    ctx.Attends (restoreVerificationRound ctx tag policy) := by
  refine attends_now.bind fun t => attends_getPending.bind fun pending => Honors.get.bind fun s =>
    (attends_tryErr (attends_verifyPendingMvActuation _ _ _ _)).bind fun r => ?_
  match r with
  | .ok none =>
    refine attends_getPending.bind fun pending => ?_
    cases pending with
    | none => exact .pure _
    | some pending => exact attends_now.bind fun _ => (attends_sleep _ _).bind fun _ => .pure _
  | .error e => exact .pure _
  | .ok (some .userInterrupt) => exact .pure _
  | .ok (some (.timeout _)) | .ok (some (.operationTimedOut _ _)) | .ok (some (.poorQuality _ _))
  | .ok (some (.mvActuationUnconfirmed _ _ _ _ _ _)) =>
    refine attends_now.bind fun t => ?_
    split
    · exact .pure _
    · exact .pure _

theorem attends_acceptRestoreWrite (initialMv : ℚ) (policy : ActuationAuditPolicy)
    (tolerance : ℚ) : Attends op (acceptRestoreWrite initialMv policy tolerance) :=
  (attends_supersede _).bind fun _ => attends_now.bind fun _ => attends_utcNow.bind fun _ =>
    (attends_modifyProgram _).bind fun _ => attends_recordRestore _ _ _ _ _

theorem attends_restoreMvWithVerification (fuel : ℕ) (initialMv : ℚ)
    (policy : ActuationAuditPolicy) :
    ctx.Attends (restoreMvWithVerification fuel ctx initialMv policy) := by
  refine Honors.get.bind fun s => ?_
  cases s.program.tracker with
  | none =>
    refine (attends_restoreMvWrite _ _ _).bind fun r => ?_
    cases r <;> exact .pure _
  | some tracker =>
    have hrewrite : ∀ tolerance, ctx.Attends (rewriteMv fuel ctx initialMv policy tolerance) := by
      intro tolerance
      refine (attends_restoreMvWrite _ _ _).bind fun r => ?_
      cases r with
      | some outcome => exact .pure _
      | none =>
        exact (attends_acceptRestoreWrite _ _ _).bind fun _ =>
          .iterate attends_outOfFuel (fun _ => attends_restoreVerificationRound _ _) _ _
    dsimp only
    split
    · exact .pure _
    · refine (attends_tryConfirmFinalSnapbackHandoff _ _).bind fun r => ?_
      rcases r with _ | _ | _ | reason
      · exact hrewrite _
      · exact .pure _
      · exact hrewrite _
      · exact .pure _

theorem attends_settlingSample (state : MrftState ℚ) (ss : SettlingState) :
    ctx.Attends (settlingSample ctx state ss) := by
  refine (attends_readPollBatch _ _).bind fun r => ?_
  cases r with
  | cancelled => exact attends_bail _
  | timedOut => exact attends_bail _
  | completed values =>
    exact (attends_liftResult _).bind fun _ => attends_nextTimestamp.bind fun _ =>
      (attends_observeTimestamp _).bind fun _ => (attends_runStatement _).bind fun _ =>
        (attends_liftResult _).bind fun _ => .pure _

theorem attends_settlingTurn (state : MrftState ℚ) (settlingDeadline : Instant)
    (ss : SettlingState) : ctx.Attends (settlingTurn ctx state settlingDeadline ss) := by
  refine attends_now.bind fun t => ?_
  split
  · exact .pure _
  · refine Honors.get.bind fun s => Honors.bind ?_ fun branch => ?_
    · exact attends_selectBiased (b := SettlingBranch.poll) (r := ss.nextPollAt) (by simp)
    · cases branch with
      | ctrlC => exact attends_seeSignals.bind fun _ => attends_bail _
      | restoreDeadline => exact attends_bail _
      | poll =>
        refine attends_now.bind fun tickStarted => ?_
        split
        · exact .pure _
        · exact attends_settlingSample _ _

theorem attends_runAutoReleaseSettling (fuel : ℕ) (state : MrftState ℚ) (tickIndex duration : ℕ) :
    ctx.Attends (runAutoReleaseSettling fuel ctx state tickIndex duration) :=
  attends_now.bind fun _ => .iterate attends_outOfFuel (fun _ => attends_settlingTurn _ _ _) _ _

theorem attends_restoreWriteStep {write : Io Unit} (h : Attends op write) :
    Attends op (restoreWriteStep write) := by
  refine (attends_tryErr h).bind fun r => ?_
  cases r <;> exact .pure _

theorem attends_restoreModeStep (deadline : Instant) (initial : InitialState) :
    Attends op (restoreModeStep ctx (some deadline) initial) := by
  refine Honors.get.bind fun s => ?_
  cases ctx.tags.controllerMode with
  | none => exact .pure _
  | some modeTag =>
    dsimp only
    split
    · exact .pure _
    · exact attends_restoreWriteStep (attends_driverWrite (some deadline) _ _ (.inl rfl))

theorem attends_restoreSetpointStep (deadline : Instant) (initial : InitialState) :
    Attends op (restoreSetpointStep ctx (some deadline) initial) := by
  refine Honors.get.bind fun s => ?_
  dsimp only
  split
  · exact .pure _
  · split
    · exact (attends_sleep _ _).bind fun _ =>
        attends_restoreWriteStep (attends_driverWrite (some deadline) _ _ (.inr (.inl rfl)))
    · exact .pure _

theorem attends_restoreModeAttributeStep (deadline : Instant) (initial : InitialState) :
    Attends op (restoreModeAttributeStep ctx (some deadline) initial) := by
  refine Honors.get.bind fun s => ?_
  cases ctx.tags.modeAttribute with
  | none => exact .pure _
  | some attrTag =>
    dsimp only
    split
    · exact .pure _
    · exact attends_restoreWriteStep (attends_driverWrite (some deadline) _ _ (.inr (.inr rfl)))

theorem attends_restoreAfterMvWithDeadline (initial : InitialState) (mv : RestoreStepOutcome)
    (policy : RestoreModePolicy) :
    Attends op (restoreAfterMvWithDeadline ctx initial mv policy) := by
  refine Honors.get.bind fun s => ?_
  have hsteps : Attends op (restoreAfterMvWithPolicy ctx (some s.program.restoreDeadline) initial mv
      policy) := by
    have htail : ∀ mode, Attends op
        (restoreSetpointStep ctx (some s.program.restoreDeadline) initial >>= fun setpoint =>
          restoreModeAttributeStep ctx (some s.program.restoreDeadline) initial >>=
            fun modeAttribute =>
              pure (⟨mv, mode, setpoint, modeAttribute⟩ : RestoreReport)) := fun _ =>
      (attends_restoreSetpointStep _ _).bind fun _ =>
        (attends_restoreModeAttributeStep _ _).bind fun _ => .pure _
    refine (attends_mark _).bind fun _ => ?_
    cases policy with
    | releaseToInitial => exact (attends_restoreModeStep _ _).bind fun _ => htail _
    | keepManual => exact (Honors.pure _).bind fun _ => htail _
  refine hsteps.attempt.bind fun r => ?_
  match r with
  | .ok report =>
    dsimp only
    split <;> exact .pure _
  | .error .interrupted => exact .pure _
  | .error .deadline => exact .pure _

theorem attends_settleThenRelease (fuel : ℕ) (initial : InitialState)
    (completion : SettlingInput) (duration : ℕ) :
    ctx.Attends (settleThenRelease fuel ctx initial completion duration) := by
  refine (attends_tryErr (attends_runAutoReleaseSettling _ _ _ _)).bind fun result =>
    (attends_mark _).bind fun _ => ?_
  cases result with
  | ok _ => exact attends_restoreAfterMvWithDeadline _ _ _
  | error e =>
    refine (attends_restoreAfterMvWithDeadline _ _ _).bind fun attempt => ?_
    cases attempt <;> exact .pure _

theorem attends_afterMvStep (fuel : ℕ) (initial : InitialState)
    (completion : Option SettlingInput) (measuredOscillationPeriodMs : Option (XNum ℚ))
    (mv : RestoreStepOutcome) :
    ctx.Attends (afterMvStep fuel ctx initial completion measuredOscillationPeriodMs mv) := by
  refine (attends_mark _).bind fun _ => Honors.get.bind fun s => ?_
  dsimp only
  split
  · split
    · exact attends_settleThenRelease _ _ _ _
    · exact attends_restoreAfterMvWithDeadline _ _ _
  · exact attends_restoreAfterMvWithDeadline _ _ _

theorem attends_attemptRestore (fuel : ℕ) (initial : InitialState)
    (completion : Option SettlingInput) (measuredOscillationPeriodMs : Option (XNum ℚ))
    (policy : ActuationAuditPolicy) :
    ctx.Attends
      (attemptRestore fuel ctx initial completion measuredOscillationPeriodMs policy) := by
  refine (attends_mark _).bind fun _ => Honors.bind ?_ fun attempt =>
    (attends_mark _).bind fun _ => .pure _
  refine attends_now.bind fun start => (attends_modifyProgram _).bind fun _ =>
    (attends_tryErr (attends_restoreMvWithVerification _ _ _)).bind fun r => ?_
  cases restoreMvOutcomeOrFailed r with
  | interrupted reason => exact .pure _
  | «continue» mv => exact attends_afterMvStep _ _ _ _ _

/-! ### The write-back -/

theorem attends_ensureHealthy : Attends op ensureHealthy := by
  refine attends_consult.bind fun a => ?_
  split
  · exact .pure _
  · exact attends_bail _

theorem attends_readF32 (tag : String) (allowUncertain : Bool) :
    Attends op (readF32 tag allowUncertain) := by
  refine Honors.bind ((attends_driverRead _).bind fun values => ?_) fun _ => attends_liftResult _
  cases values.head? with
  | none => exact attends_bail _
  | some value => exact (attends_liftResult _).bind fun _ => .pure _

theorem attends_readPreviousPidValues (pTag iTag dTag : String) (allowUncertain : Bool) :
    Attends op (readPreviousPidValues pTag iTag dTag allowUncertain) := by
  have hread : ∀ label tag, Attends op (preRead label tag allowUncertain) := by
    intro label tag
    refine (attends_tryErr (attends_readF32 _ _)).bind fun r => ?_
    cases r with
    | ok v => exact .pure _
    | error e => exact attends_bail _
  exact (hread _ _).bind fun _ => (hread _ _).bind fun _ => (hread _ _).bind fun _ => .pure _

theorem attends_writePidSteps (allowUncertain : Bool) (done : List (PidStep × ℚ))
    (steps : List PidStep) : Attends op (writePidSteps allowUncertain done steps) := by
  induction steps generalizing done with
  | nil => exact .pure _
  | cons step rest ih =>
    refine Honors.bind ?_ fun r => ?_
    · refine (attends_tryErr (attends_driverWrite none _ _ (.inr (.inr rfl)))).bind fun r => ?_
      cases r with
      | error e => exact .pure _
      | ok _ =>
        refine (attends_tryErr (attends_readF32 _ _)).bind fun r => ?_
        cases r with
        | error e => exact .pure _
        | ok readback =>
          dsimp only
          split <;> exact .pure _
    · cases r with
      | ok readback => exact ih _
      | error e => exact .pure _

theorem attends_rollbackPidWrites (steps : List PidStep) :
    Attends op (rollbackPidWrites steps) := by
  induction steps with
  | nil => exact .pure _
  | cons step rest ih =>
    refine (attends_tryErr (attends_driverWrite none _ _ (.inr (.inr rfl)))).bind fun r => ?_
    cases r with
    | ok _ => exact (Honors.pure _).bind fun _ => ih.bind fun _ => .pure _
    | error e => exact (Honors.pure _).bind fun _ => ih.bind fun _ => .pure _

theorem attends_failPidWrite (runId : ℕ) (kind : WriteKind) (row : NewTuneWrite)
    (done : List PidStep) (errorMessage : Text) :
    Attends op (failPidWrite runId kind row done errorMessage) := by
  unfold failPidWrite
  dsimp only
  split
  · exact (attends_runStatement _).bind fun _ => .pure _
  · refine (attends_rollbackPidWrites done).bind fun failures => ?_
    cases failures with
    | nil => exact (attends_runStatement _).bind fun _ => .pure _
    | cons failure failures => exact (attends_runStatement _).bind fun _ => .pure _

theorem attends_writePidValuesInner (runId : ℕ) (pTag iTag dTag : String)
    (responseLevel : ResponseLevel) (target : WriteReadback) (kind : WriteKind)
    (allowUncertain : Bool) (ownership : LiveOperationGuard) :
    Attends op (writePidValuesInner runId pTag iTag dTag responseLevel target kind
      allowUncertain ownership) := by
  refine attends_ensureHealthy.bind fun _ => ?_
  split
  · exact attends_bail _
  · refine attends_utcNow.bind fun writtenAt =>
      (attends_tryErr (attends_readPreviousPidValues _ _ _ _)).bind fun r => ?_
    cases r with
    | error e => exact (attends_runStatement _).bind fun _ => .pure _
    | ok previous =>
      refine ((attends_runStatement _).bind fun _ => attends_ensureHealthy.bind fun _ =>
        attends_runStatement _).bind fun _ => (attends_writePidSteps _ _ _).bind
          fun result => ?_
      obtain ⟨done, failure⟩ := result
      cases failure with
      | none => exact (attends_runStatement _).bind fun _ => .pure _
      | some failed => exact attends_failPidWrite _ _ _ _ _

theorem attends_selectResponseLevel (writePid : Option ResponseLevel) (hasHandler : Bool) :
    Attends op (selectResponseLevel writePid hasHandler) := by
  cases writePid with
  | some level => exact .pure _
  | none =>
    cases hasHandler with
    | true => exact attends_consult.bind fun _ => .pure _
    | false => exact .pure _

theorem attends_maybeWriteBack (writePid : Option ResponseLevel) (hasHandler : Bool)
    (ownership : Option LiveOperationGuard) :
    Attends op (maybeWriteBack ctx writePid hasHandler ownership) := by
  unfold maybeWriteBack
  split
  · refine (attends_database .listResults).bind fun a => ?_
    dsimp only
    split
    · exact .pure _
    · refine (attends_selectResponseLevel writePid hasHandler).bind fun selection => ?_
      cases selection with
      | skipped detail => exact .pure _
      | failed detail => exact .pure _
      | selected level =>
        dsimp only
        split
        · exact .pure _
        · split
          · exact .pure _
          · unfold writeBackResult
            cases ownership with
            | none => exact attends_bail _
            | some ownership =>
              refine (attends_writePidValuesInner _ _ _ _ _ _ _ _ _).bind fun outcome => ?_
              cases outcome <;> exact .pure _
  · exact .pure _

/-! ### The run -/

theorem attends_transitionToManual (initial : InitialState) :
    Attends op (transitionToManual ctx initial) := by
  have hprogram : Attends op (enterProgramMode ctx) := by
    unfold enterProgramMode
    split
    · exact (attends_modifyProgram _).bind fun _ =>
        (attends_driverWrite none _ _ (.inl rfl)).bind fun _ => attends_sleep none _
    · exact .pure _
  refine (attends_mark _).bind fun _ => hprogram.bind fun _ => ?_
  cases ctx.tags.controllerMode with
  | none => exact .pure _
  | some modeTag =>
    dsimp only
    split
    · exact (attends_modifyProgram _).bind fun _ =>
        attends_driverWrite none _ _ (.inr (.inl rfl))
    · exact .pure _

theorem attends_persistResults (initial : InitialState) (action : Action ℚ) :
    Attends op (persistResults ctx initial action) := by
  have hinsert : ∀ results, Attends op (insertResults results) := by
    intro results
    induction results with
    | nil => exact .pure _
    | cons result rest ih => exact (attends_runStatement _).bind fun _ => ih
  unfold persistResults
  split
  · exact attends_bail _
  · split
    · exact hinsert _
    · exact attends_throw nofun

theorem attends_completedOscillationPeriodMs (initial : InitialState)
    (pollResult : Except Text PollOutcome) :
    Attends op (completedOscillationPeriodMs ctx initial pollResult) := by
  unfold completedOscillationPeriodMs
  split
  · refine Honors.bind ?_ fun _ => .pure _
    unfold completedOscillation
    split
    · exact .pure _
    · split
      · exact .pure _
      · exact attends_throw nofun
  · exact .pure _

theorem attends_recordTimingMetrics (metrics : Option TimingMetrics) :
    Attends op (recordTimingMetricsIfPresent metrics) := by
  cases metrics with
  | none => exact .pure _
  | some metrics => exact attends_bestEffort (attends_runStatement _)

/-- A restore with the statements that follow it. -/
theorem attends_recordedAttempt {α : Type} (fuel : ℕ) (initial : InitialState)
    (completion : Option SettlingInput) (measuredOscillationPeriodMs : Option (XNum ℚ))
    (detail : String) (f : RestoreAttempt → α) :
    ctx.Attends (do
      let attempt ← attemptRestore fuel ctx initial completion measuredOscillationPeriodMs
        .bestEffort
      recordRestoreStatusBestEffort attempt
      finalizePendingForRunBestEffort detail
      return f attempt) :=
  (attends_attemptRestore _ _ _ _ _).bind fun _ =>
    (attends_bestEffort (attends_runStatement _)).bind fun _ =>
      (attends_bestEffort (attends_runStatement _)).bind fun _ => .pure _

theorem attends_finishPersistedRun (fuel : ℕ) (initial : InitialState)
    (writePid : Option ResponseLevel) (hasHandler : Bool)
    (ownership : Option LiveOperationGuard) (completion : SettlingInput)
    (measuredOscillationPeriodMs : Option (XNum ℚ)) :
    ctx.Attends (finishPersistedRun fuel ctx initial writePid hasHandler ownership completion
      measuredOscillationPeriodMs) := by
  refine (attends_recordedAttempt fuel initial _ _ _ id).bind fun attempt => Honors.get.bind
    fun _ => (attends_runStatement _).bind fun _ => ?_
  cases attempt with
  | confirmed => exact (attends_maybeWriteBack _ _ _).bind fun _ => .pure _
  | incomplete reason => exact .pure _

theorem attends_finishAbortedRun (fuel : ℕ) (initial : InitialState) (reason : AbortReason)
    (metrics : Option TimingMetrics) :
    ctx.Attends (finishAbortedRun fuel ctx initial reason metrics) := by
  refine (attends_recordedAttempt fuel initial none none _ id).bind fun attempt => ?_
  have htail : ∀ detail, ctx.Attends (closeAbortedRun reason metrics detail attempt) := by
    intro detail
    refine (attends_runStatement _).bind fun _ => ?_
    cases attempt <;> exact .pure _
  cases reason <;> exact htail _

theorem attends_pollAndFinish (fuel : ℕ) (initial : InitialState)
    (writePid : Option ResponseLevel) (hasHandler : Bool)
    (ownership : Option LiveOperationGuard) :
    ctx.Attends (pollAndFinish fuel ctx initial writePid hasHandler ownership) := by
  have hpoll : ctx.Attends (pollFresh fuel ctx initial) :=
    (attends_modifyProgram _).bind fun _ => attends_runPollingLoop fuel
  refine (attends_tryErr hpoll).bind fun pollResult =>
    (attends_completedOscillationPeriodMs _ _).bind fun period => Honors.get.bind fun _ => ?_
  match pollResult with
  | .ok (.completed action state nextTickIndex) =>
    refine (attends_tryErr (attends_persistResults _ _)).bind fun r => ?_
    cases r with
    | ok _ => exact attends_finishPersistedRun _ _ _ _ _ _ _
    | error e =>
      exact (attends_recordedAttempt fuel initial _ _ _ id).bind fun _ => Honors.get.bind
        fun _ => (attends_recordTimingMetrics _).bind fun _ => attends_bail _
  | .ok (.aborted reason) => exact attends_finishAbortedRun _ _ _ _
  | .error e =>
    exact (attends_recordedAttempt fuel initial none none _ fun _ => e).bind fun _ =>
      (attends_recordTimingMetrics _).bind fun _ => attends_bail _

theorem attends_executeMutating (fuel : ℕ) (initial : InitialState)
    (writePid : Option ResponseLevel) (hasHandler : Bool)
    (ownership : Option LiveOperationGuard) :
    ctx.Attends (executeMutating fuel ctx initial writePid hasHandler ownership) := by
  refine (attends_modifyProgram _).bind fun _ =>
    (attends_tryErr (attends_transitionToManual _)).bind fun r => ?_
  cases r with
  | ok _ => exact attends_pollAndFinish _ _ _ _ _
  | error e =>
    exact (attends_recordedAttempt fuel initial none none _ fun _ => e).bind fun _ =>
      attends_bail _

/-- **When no driver call is left waiting.**  From the first controller write of a run to its end,
every read and write it makes is one of the calls of a passage, and where it does not return for
want of an answer it may be awaiting one call more.  The waits for all of these are prompt if and
only if all of them are attended. -/
theorem driver_calls_prompt_iff (fuel : ℕ) (ctx : RunContext) (initial : InitialState)
    (writePid : Option ResponseLevel) (hasHandler : Bool)
    (ownership : Option LiveOperationGuard) (s : Sys) :
    let op := ctx.effectiveTiming.opTimeoutSecs
    wp (executeMutating fuel ctx initial writePid hasHandler ownership)
      (fun _ s' => ∃ calls, Passage op s calls s' ∧
        ((∀ c ∈ calls, c.Prompt op) ↔ ∀ c ∈ calls, c.Attended op))
      (fun f s' => ∃ calls, Passage op s calls s' ∧ (∃ awaited, f.Awaiting s' awaited) ∧
        ∀ awaited, f.Awaiting s' awaited →
          ((∀ c ∈ calls ++ awaited.toList, c.Prompt op) ↔
            ∀ c ∈ calls ++ awaited.toList, c.Attended op)) s := by
  intro op
  have hiff : ∀ calls : List DriverCall,
      (∀ c ∈ calls, c.Prompt op) ↔ ∀ c ∈ calls, c.Attended op := fun _ =>
    forall₂_congr fun c _ => c.prompt_iff
  refine wp_mono (attends_executeMutating fuel initial writePid hasHandler ownership s) ?_ ?_
  · intro outcome s' hrel
    obtain ⟨calls, h⟩ := hrel
    exact ⟨calls, h, hiff calls⟩
  · intro f s' hfails
    obtain ⟨calls, awaited, h, hawaiting⟩ := hfails
    exact ⟨calls, h, ⟨awaited, hawaiting⟩, fun awaited _ => hiff _⟩

/-! ### A slow mode write -/

/-- The loop FC1 with a driver whose first write is answered after `latency`, and an interrupt after
ten seconds. -/
def slowModeWrite (latency : Option ℕ) : Environment where
  answers := fun n =>
    { latency := if n = 0 then latency else some 0
      values := .ok
        [⟨"FC1.MV", "", .finite 50, .good⟩, ⟨"FC1.PV", "", .finite 50, .good⟩,
          ⟨"FC1.MODE", "MAN", .notANumber, .good⟩] }
  signals := [durationSecs 10]
  signals_sorted := by simp

/-- How its run ends. -/
def slowModeRun (latency : Option ℕ) : Option Fault × List Event :=
  match executeMutating 5 flowContext flowInitial none false none
      (flowSys (slowModeWrite latency)) with
  | .ok _ s => (none, s.trace)
  | .error f s => (some f, s.trace)

/-- The write that puts FC1 in Manual is awaited for a hundred seconds, through the interrupt and
the timeout of thirty.  If it is never answered, the run neither returns nor restores the loop. -/
theorem driver_calls_left_waiting :
    (∃ outcome s', executeMutating 5 flowContext flowInitial none false none
        (flowSys (slowModeWrite (some (durationSecs 100)))) = .ok outcome s' ∧
      ∀ calls, Passage flowContext.effectiveTiming.opTimeoutSecs
          (flowSys (slowModeWrite (some (durationSecs 100)))) calls s' →
        ¬∀ c ∈ calls, c.Prompt flowContext.effectiveTiming.opTimeoutSecs) ∧
      (slowModeRun none).1 = some .hung ∧
        ∀ e ∈ (slowModeRun none).2, ¬e.IsCall := by
  refine ⟨?_, by decide, by decide⟩
  let e : Event :=
    .write ⟨.manualMode, "FC1.MODE", .raw "MAN", 0, durationSecs 100, .accepted⟩
  have hrun : (slowModeRun (some (durationSecs 100))).1 = none ∧
      e ∈ (slowModeRun (some (durationSecs 100))).2 := by decide +kernel
  unfold slowModeRun at hrun
  cases h : executeMutating 5 flowContext flowInitial none false none
      (flowSys (slowModeWrite (some (durationSecs 100)))) with
  | error f s' =>
    rw [h] at hrun
    cases hrun.1
  | ok outcome s' =>
    rw [h] at hrun
    refine ⟨outcome, s', rfl, fun calls hcalls hprompt => ?_⟩
    obtain ⟨new, hnew, hrecorded⟩ := hcalls.recorded
    have hmem : e ∈ new := by
      have htrace : s'.trace = [] ++ new := hnew
      rw [← List.nil_append new, ← htrace]
      exact hrun.2
    obtain ⟨c, hc, hevent⟩ := (hrecorded e trivial).mp hmem
    obtain ⟨henvironment, s'', hmade⟩ := hcalls.made c hc
    have hspans : c.event.Spans 0 (durationSecs 100) := by
      rw [hevent]
      exact ⟨rfl, rfl⟩
    have hlag : c.before.nextAnswer.lag = 0 := by
      show (c.before.environment.answers c.before.cursor).lag = 0
      rw [henvironment]
      rfl
    -- a hundred seconds are more than thirty
    have hle := hmade.ended_le (hprompt c hc) hspans
    rw [hlag] at hle
    exact absurd hle (by decide)

end Bhtune
