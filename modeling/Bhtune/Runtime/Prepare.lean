import Bhtune.Runtime.Restore
import Bhtune.Runtime.Writeback

/-!
# Executing a prepared tune

`execute_with_timing`: read and validate the initial state, record it, put the loop in Manual, run
the polling loop and hand over to one of the finishers.  Every way out of the part that mutates
the loop passes `attemptRestore`.
-/

namespace Bhtune

open Effect

/-! ### The initial state -/

/-- Appends a tag that is not requested yet. -/
def requestTag (requested : List String) (tag : String) : List String :=
  if tag ∈ requested then requested else requested ++ [tag]

/-- The tag of an input that is one. -/
def TagOrValue.requested {α : Type} : TagOrValue α → Option String
  | TagOrValue.tag name => some name
  | TagOrValue.value _ => none

/-- The tags of the initial read, each once, in the order they are asked for. -/
def initialTags (tags : LoopTags) : List String :=
  let optional := [tags.controllerMode, tags.modeAttribute, tags.controllerDirection.requested,
    tags.upperPvRange.requested, tags.lowerPvRange.requested, tags.upperMvRange.requested,
    tags.lowerMvRange.requested]
  ([tags.processVariable, tags.manipulatedVariable] ++ optional.reduceOption).foldl requestTag []

/-- The raw value of an optional tag. -/
def optionalRaw (values : List TagValue) (tag : Option String) (allowUncertain : Bool) :
    Except Text (Option String) :=
  match tag with
  | none => .ok none
  | some tag => (readBatchRaw values tag allowUncertain).map some

/-- `read_initial_values`. -/
def readInitialValues (ctx : RunContext) : Io InitialState := do
  let tags := ctx.tags
  let allow := ctx.allowUncertainQuality
  let values ← driverRead .byName (initialTags tags)
  let pvIni ← liftResult (readBatchF32 values tags.processVariable allow)
  let mvIni ← liftResult (readBatchF32 values tags.manipulatedVariable allow)
  let modeRaw ← liftResult (optionalRaw values tags.controllerMode allow)
  let modeAttributeRaw ← liftResult (optionalRaw values tags.modeAttribute allow)
  -- captured only for a loop that starts in Auto
  let setpointIni ←
    match tags.setpointVariable, modeRaw with
    | some svTag, some raw =>
      if raw = ctx.template.modeAutoValue then do
        let v ← readF32 svTag allow
        pure (some v)
      else pure none
    | _, _ => pure none
  let direction ← liftResult
    (resolveDirectionFromBatch values tags.controllerDirection ctx.template allow)
  let pvRangeHigh ← liftResult (resolveF32FromBatch values tags.upperPvRange allow)
  let pvRangeLow ← liftResult (resolveF32FromBatch values tags.lowerPvRange allow)
  let mvRangeHigh ← liftResult (resolveF32FromBatch values tags.upperMvRange allow)
  let mvRangeLow ← liftResult (resolveF32FromBatch values tags.lowerMvRange allow)
  return {
    pvIni := pvIni
    mvIni := mvIni
    pvRangeHigh := pvRangeHigh
    pvRangeLow := pvRangeLow
    mvRangeHigh := mvRangeHigh
    mvRangeLow := mvRangeLow
    direction := direction
    modeRaw := modeRaw
    modeAttributeRaw := modeAttributeRaw
    setpointIni := setpointIni }

/-- The `Display` text of a `RangeError`. -/
def RangeError.message : RangeError ℚ → Text
  | .zeroSpan high low =>
    text "range has zero span: high (" ++ [.num high] ++ text ") and low (" ++ [.num low] ++
      text ") must not be equal"
  | .lowNotBelowHigh low high =>
    text "range low (" ++ [.num low] ++ text ") must be strictly less than high (" ++
      [.num high] ++ text ")"

/-- `validate_initial_state`. -/
def validateInitialState (initial : InitialState) : Except Text Unit :=
  match PvRange.new initial.pvRangeHigh initial.pvRangeLow with
  | .error e => .error (text "invalid PV range: " ++ e.message)
  | .ok _ =>
    match MvRange.new initial.mvRangeHigh initial.mvRangeLow with
    | .error e => .error (text "invalid MV range: " ++ e.message)
    | .ok mvRange =>
      if mvRange.contains initial.mvIni then .ok ()
      else
        .error (text "initial MV " ++ [.num initial.mvIni] ++
          text " is outside the MV range [" ++ [.num initial.mvRangeLow] ++ text ", " ++
          [.num initial.mvRangeHigh] ++ text "]")

theorem validateInitialState_iff (initial : InitialState) :
    validateInitialState initial = .ok () ↔
      initial.pvRangeHigh ≠ initial.pvRangeLow ∧ initial.mvRangeLow < initial.mvRangeHigh ∧
        initial.mvRangeLow ≤ initial.mvIni ∧ initial.mvIni ≤ initial.mvRangeHigh := by
  unfold validateInitialState PvRange.new MvRange.new
  by_cases hpv : initial.pvRangeHigh = initial.pvRangeLow
  · simp [hpv]
  · by_cases hmv : initial.mvRangeHigh ≤ initial.mvRangeLow
    · simp [hpv, hmv, not_lt.mpr hmv]
    · simp [hpv, hmv, not_le.mp hmv, MvRange.contains]

/-! ### Into Manual -/

/-- Changes the mutation guard. -/
def modifyGuard (f : MutationGuard → MutationGuard) : Io Unit :=
  modifyProgram fun p => { p with guard := f p.guard }

/-- The mode-attribute part of `transition_to_manual`. -/
def enterProgramMode (ctx : RunContext) : Io Unit := do
  match ctx.tags.modeAttribute, ctx.template.modeAttributeProgramValue with
  | some attrTag, some programValue => do
    modifyGuard fun g => { g with modeAttributeWritten := true }
    writeRaw none .programMode attrTag programValue
    sleep none (durationMillis 1000)
  | _, _ => return ()

/-- `transition_to_manual`: each flag of the guard is armed just before its write. -/
def transitionToManual (ctx : RunContext) (initial : InitialState) : Io Unit := do
  mark .enteredTransition
  enterProgramMode ctx
  match ctx.tags.controllerMode with
  | none => return ()
  | some modeTag =>
    if initial.modeRaw.getD "" ≠ ctx.template.modeManualValue then do
      modifyGuard fun g => { g with modeWritten := true }
      writeRaw none .manualMode modeTag ctx.template.modeManualValue
    else return ()

/-! ### Results and metrics -/

/-- The oscillation of a completing action; an assert of the measurement is a panic. -/
def completedOscillation (ctx : RunContext) (initial : InitialState) (action : Action ℚ) :
    Io (Option (Oscillation ℚ)) :=
  match action with
  | .writeMv _ => return none
  | .complete peaks troughs switchTimes mvSignInit =>
    match measureOscillation peaks troughs switchTimes mvSignInit initial.direction ctx.config
        ⟨initial.pvRangeHigh, initial.pvRangeLow⟩ with
    | .ok oscillation => return some oscillation
    | .error _ => throw .panic

/-- `completed_oscillation_period_ms`. -/
def completedOscillationPeriodMs (ctx : RunContext) (initial : InitialState)
    (pollResult : Except Text PollOutcome) : Io (Option (XNum ℚ)) := do
  match pollResult with
  | .ok (.completed action _ _) => do
    let oscillation ← completedOscillation ctx initial action
    return oscillation.map fun osc => osc.periodMinutes * .fin 60000
  | _ => return none

/-- Inserts the result rows one by one. -/
def insertResults : List (CheckedTuningResult ℚ) → Io Unit
  | [] => return ()
  | result :: rest => do
    runStatement (.insertResult (TuneResultRow.fromChecked result))
    insertResults rest

/-- `persist_results`; the previews it returns only feed an adapter's display. -/
def persistResults (ctx : RunContext) (initial : InitialState) (action : Action ℚ) : Io Unit :=
  match action with
  | .writeMv _ =>
    bail (text "internal error: persist_results called with a non-Complete action")
  | .complete peaks troughs switchTimes mvSignInit =>
    match calculateAllChecked peaks troughs switchTimes mvSignInit initial.direction ctx.config
        ⟨initial.pvRangeHigh, initial.pvRangeLow⟩ ctx.template with
    | .ok results => insertResults results
    | .error _ => throw .panic

/-- `record_timing_metrics_if_present`. -/
def recordTimingMetricsIfPresent (metrics : Option TimingMetrics) : Io Unit :=
  match metrics with
  | none => pure ()
  | some metrics => bestEffort (runStatement (.recordTimingMetrics metrics))

/-- `record_restore_status_best_effort`. -/
def recordRestoreStatusBestEffort (attempt : RestoreAttempt) : Io Unit :=
  bestEffort (runStatement (.recordRestoreStatus attempt))

/-- `format_mv_actuation_abort_reason`, for the one kind of reason it is called with. -/
def formatMvActuationAbortReason (tag : String) (target : ℚ) (readback : Option ℚ)
    (tolerance : ℚ) (elapsedMs deadlineSecs : ℕ) : Text :=
  text ("MV actuation unconfirmed: tag '" ++ tag ++ "', target ") ++ [.num target] ++
    text ", readback " ++
    (match readback with
      | some v => [.num v]
      | none => text "unavailable") ++
    text ", tolerance " ++ [.num tolerance] ++ text ", elapsed " ++ [.nat elapsedMs] ++
    text " ms, deadline " ++ [.nat deadlineSecs] ++ text " s"

/-! ### The finishers -/

/-- `attempt_and_record_restore_with_settling`. -/
def attemptAndRecordRestore (fuel : ℕ) (ctx : RunContext) (initial : InitialState)
    (completion : Option SettlingInput) (measuredOscillationPeriodMs : Option (XNum ℚ)) :
    Io RestoreAttempt := do
  let attempt ← attemptRestore fuel ctx initial completion measuredOscillationPeriodMs .bestEffort
  recordRestoreStatusBestEffort attempt
  finalizePendingForRunBestEffort "the run ended before MV confirmation completed"
  return attempt

/-- `restore_best_effort_then_propagate_with_timing`, which hands `err` back. -/
def restoreBestEffortThenPropagate (fuel : ℕ) (ctx : RunContext) (initial : InitialState)
    (err : Text) : Io Text := do
  let attempt ← attemptRestore fuel ctx initial none none .bestEffort
  recordRestoreStatusBestEffort attempt
  finalizePendingForRunBestEffort "the run failed before MV confirmation completed"
  return err

/-- The end of a completed run whose results were persisted. -/
def finishPersistedRun (fuel : ℕ) (ctx : RunContext) (initial : InitialState)
    (writePid : Option ResponseLevel) (hasHandler : Bool)
    (ownership : Option LiveOperationGuard) (completion : SettlingInput)
    (measuredOscillationPeriodMs : Option (XNum ℚ)) : Io RunOutcome := do
  let attempt ← attemptAndRecordRestore fuel ctx initial (some completion)
    measuredOscillationPeriodMs
  runStatement (.completeRun
    ((← get).program.timing.finish measuredOscillationPeriodMs))
  match attempt with
  | .confirmed => do
    let (writeBack, detail) ← maybeWriteBack ctx writePid hasHandler ownership
    return .completed writeBack detail
  | .incomplete reason => return .restoreIncomplete reason

/-- `finish_completed_run`. -/
def finishCompletedRun (fuel : ℕ) (ctx : RunContext) (initial : InitialState)
    (writePid : Option ResponseLevel) (hasHandler : Bool)
    (ownership : Option LiveOperationGuard) (action : Action ℚ) (completion : SettlingInput)
    (measuredOscillationPeriodMs : Option (XNum ℚ)) : Io RunOutcome := do
  match ← tryErr (persistResults ctx initial action) with
  | .ok () =>
    finishPersistedRun fuel ctx initial writePid hasHandler ownership completion
      measuredOscillationPeriodMs
  | .error error => do
    let _ ← attemptAndRecordRestore fuel ctx initial (some completion)
      measuredOscillationPeriodMs
    recordTimingMetricsIfPresent ((← get).program.timing.finish none)
    bail error

/-- `finish_aborted_run`. -/
def finishAbortedRun (fuel : ℕ) (ctx : RunContext) (initial : InitialState)
    (reason : AbortReason) (metrics : Option TimingMetrics) : Io RunOutcome := do
  let attempt ← attemptAndRecordRestore fuel ctx initial none none
  match reason with
  | .mvActuationUnconfirmed tag target readback tolerance elapsedMs deadlineSecs =>
    runStatement (.abortRun metrics (some
      (formatMvActuationAbortReason tag target readback tolerance elapsedMs deadlineSecs)))
  | _ => runStatement (.abortRun metrics none)
  match attempt with
  | .confirmed => return .aborted reason
  | .incomplete restoreReason =>
    return .restoreIncomplete
      (text "run aborted (" ++ [.reason reason] ++ text "); " ++ restoreReason)

/-- What follows the restore in `finish_aborted_run`. -/
def closeAbortedRun (reason : AbortReason) (metrics : Option TimingMetrics)
    (detail : Option Text) (attempt : RestoreAttempt) : Io RunOutcome := do
  runStatement (.abortRun metrics detail)
  match attempt with
  | .confirmed => return .aborted reason
  | .incomplete restoreReason =>
    return .restoreIncomplete
      (text "run aborted (" ++ [.reason reason] ++ text "); " ++ restoreReason)

/-- `finish_failed_run`. -/
def finishFailedRun (fuel : ℕ) (ctx : RunContext) (initial : InitialState) (error : Text)
    (metrics : Option TimingMetrics) : Io RunOutcome := do
  let error ← restoreBestEffortThenPropagate fuel ctx initial error
  recordTimingMetricsIfPresent metrics
  bail error

/-! ### The run -/

/-- The basis of a run's timing metrics. -/
def DriverKind.timingBasis : DriverKind → TimingBasis
  | .opcda => .liveMonotonic
  | .simulator => .simulatedFixedStep

/-- The engine of a run. -/
def runEngine (ctx : RunContext) (initial : InitialState) : MrftEngine ℚ :=
  let constants : TuningConstants ℚ :=
    lookup ctx.config.processType ctx.config.controllerType .aggressive
  MrftEngine.new ctx.arith ctx.config initial.direction constants.beta
    { pvIni := initial.pvIni
      mvIni := initial.mvIni
      mvRangeLow := initial.mvRangeLow
      mvRangeHigh := initial.mvRangeHigh }
    ctx.timeAnchor.utc

/-- The polling loop of a run with its fresh engine and accumulator. -/
def pollFresh (fuel : ℕ) (ctx : RunContext) (initial : InitialState) : Io PollOutcome := do
  modifyProgram fun p => { p with
    engine := runEngine ctx initial
    timing := .new ctx.driver.timingBasis ctx.effectiveTiming.pollIntervalMs }
  runPollingLoop fuel ctx

/-- The part of a run that follows the transition to Manual. -/
def pollAndFinish (fuel : ℕ) (ctx : RunContext) (initial : InitialState)
    (writePid : Option ResponseLevel) (hasHandler : Bool)
    (ownership : Option LiveOperationGuard) : Io RunOutcome := do
  let pollResult ← tryErr (pollFresh fuel ctx initial)
  let period ← completedOscillationPeriodMs ctx initial pollResult
  let metrics := (← get).program.timing.finish none
  match pollResult with
  | .ok (.completed action state nextTickIndex) =>
    finishCompletedRun fuel ctx initial writePid hasHandler ownership action
      ⟨state, nextTickIndex⟩ period
  | .ok (.aborted reason) => finishAbortedRun fuel ctx initial reason metrics
  | .error error => finishFailedRun fuel ctx initial error metrics

/-- The part of a run that mutates the loop. -/
def executeMutating (fuel : ℕ) (ctx : RunContext) (initial : InitialState)
    (writePid : Option ResponseLevel) (hasHandler : Bool)
    (ownership : Option LiveOperationGuard) : Io RunOutcome := do
  modifyProgram fun p => { p with
    guard := {}
    tracker := MvActuationTracker.forRun ctx.driver initial }
  match ← tryErr (transitionToManual ctx initial) with
  | .ok () => pollAndFinish fuel ctx initial writePid hasHandler ownership
  | .error e => do
    let e ← restoreBestEffortThenPropagate fuel ctx initial e
    bail e

/-- The restore intent of a run. -/
def tuneRestoreIntent (ctx : RunContext) (initial : InitialState) : TuneRestoreIntent where
  mvTag := ctx.tags.manipulatedVariable
  initialReadings := initial
  revertMode := ctx.template.revertMode
  modeAutoValue := ctx.template.modeAutoValue
  modeManualValue := ctx.template.modeManualValue
  modeAttributeProgramValue := ctx.template.modeAttributeProgramValue

/-- The part of a run that only reads and records. -/
def prepareExecution (ctx : RunContext) (ownership : Option LiveOperationGuard) :
    Io InitialState := do
  let initial ← readInitialValues ctx
  liftResult (validateInitialState initial)
  liftResult (validateRelayActuationStep ctx initial)
  runStatement (.recordInitialReadings initial)
  match ownership with
  | none => return initial
  | some _ => do
    ensureHealthy
    runStatement (.persistRestoreIntent (tuneRestoreIntent ctx initial))
    return initial

/-- `execute_with_timing`. -/
def executeWithTiming (fuel : ℕ) (ctx : RunContext) (writePid : Option ResponseLevel)
    (hasHandler : Bool) (ownership : Option LiveOperationGuard) : Io RunOutcome := do
  let initial ← prepareExecution ctx ownership
  executeMutating fuel ctx initial writePid hasHandler ownership

/-! ### The prepared tune -/

/-- What `prepare` hands to `drive_report`: a live run under its own ownership, or a simulator run
without one, whose tags name no PID constants. -/
structure PreparedTune where
  ctx : RunContext
  writePid : Option ResponseLevel
  /-- The request's `yes`. -/
  yes : Bool
  ownership : Option LiveOperationGuard
  confirmed : writePid.isSome = true → yes = true
  owned : ctx.driver = .opcda → ownership = some ⟨some ctx.runId⟩
  unowned : ctx.driver = .simulator → ownership = none ∧ ctx.tags.proportionalConstant = none

/-- `LiveOperationGuard::release`, where there is a guard. -/
def releaseOwnership (ownership : Option LiveOperationGuard) : Io Unit := do
  match ownership with
  | none => return ()
  | some _ => do
    ensureHealthy
    runStatement .releaseOwnership

/-- What `drive_report` does with the error `e` of a run. -/
def failReport (prepared : PreparedTune) (e : Text) : Io RunOutcome := do
  finalizePendingForRunBestEffort "the run failed before MV confirmation completed"
  match ← tryErr (runStatement (.failRun e)) with
  | .error persistError =>
    bail (e ++ text "; additionally failed to persist the terminal run failure: " ++ persistError)
  | .ok () =>
    match ← tryErr (releaseOwnership prepared.ownership) with
    | .error releaseError =>
      bail (e ++ text "; additionally failed to persist live ownership release: " ++ releaseError)
    | .ok () => bail e

/-- `drive_report`. -/
def driveReport (fuel : ℕ) (prepared : PreparedTune) (hasHandler : Bool) : Io RunOutcome := do
  match ← tryErr (executeWithTiming fuel prepared.ctx prepared.writePid hasHandler
      prepared.ownership) with
  | .ok outcome => do
    releaseOwnership prepared.ownership
    return outcome
  | .error e => failReport prepared e

/-- What follows the execution in `drive_report`. -/
def closeReport (prepared : PreparedTune) : Except Text RunOutcome → Io RunOutcome
  | .ok outcome => do
    releaseOwnership prepared.ownership
    return outcome
  | .error e => failReport prepared e

/-! ### Frames -/

section Frames

variable {τ : Type} {p : Event → Prop} {part : Program → τ}

theorem keeps_readInitialValues (hread : ∀ call, p (.read call)) (ctx : RunContext) :
    Keeps (within p part) (readInitialValues ctx) := by
  refine (keeps_driverRead hread).bind fun values => (keeps_liftResult _).bind fun pvIni =>
    (keeps_liftResult _).bind fun mvIni => (keeps_liftResult _).bind fun modeRaw =>
      (keeps_liftResult _).bind fun modeAttributeRaw => ?_
  have htail : ∀ setpointIni, Keeps (within p part)
      (liftResult (resolveDirectionFromBatch values ctx.tags.controllerDirection ctx.template
        ctx.allowUncertainQuality) >>= fun direction =>
      liftResult (resolveF32FromBatch values ctx.tags.upperPvRange ctx.allowUncertainQuality) >>=
        fun pvRangeHigh =>
      liftResult (resolveF32FromBatch values ctx.tags.lowerPvRange ctx.allowUncertainQuality) >>=
        fun pvRangeLow =>
      liftResult (resolveF32FromBatch values ctx.tags.upperMvRange ctx.allowUncertainQuality) >>=
        fun mvRangeHigh =>
      liftResult (resolveF32FromBatch values ctx.tags.lowerMvRange ctx.allowUncertainQuality) >>=
        fun mvRangeLow =>
      pure (⟨pvIni, mvIni, pvRangeHigh, pvRangeLow, mvRangeHigh, mvRangeLow, direction, modeRaw,
        modeAttributeRaw, setpointIni⟩ : InitialState)) := fun _ =>
    (keeps_liftResult _).bind fun _ => (keeps_liftResult _).bind fun _ =>
      (keeps_liftResult _).bind fun _ => (keeps_liftResult _).bind fun _ =>
        (keeps_liftResult _).bind fun _ => .pure _
  dsimp only
  split
  · split
    · exact (keeps_readF32 hread _ _).bind fun _ => (Keeps.pure _).bind fun _ => htail _
    · exact (Keeps.pure _).bind fun _ => htail _
  · exact (Keeps.pure _).bind fun _ => htail _

/-- The preparation of a run reads, and records what it read. -/
theorem keeps_preparing (hread : ∀ call, p (.read call))
    (hreadings : ∀ initial result, p (.db (.recordInitialReadings initial) result))
    (hintent : ∀ intent result, p (.db (.persistRestoreIntent intent) result)) (ctx : RunContext)
    (ownership : Option LiveOperationGuard) :
    Keeps (within p part) (prepareExecution ctx ownership) := by
  refine (keeps_readInitialValues hread ctx).bind fun initial => (keeps_liftResult _).bind fun _ =>
    (keeps_liftResult _).bind fun _ => (keeps_runStatement (hreadings _)).bind fun _ => ?_
  cases ownership with
  | none => exact .pure _
  | some guard =>
    exact keeps_ensureHealthy.bind fun _ => (keeps_runStatement (hintent _)).bind fun _ => .pure _

theorem keeps_storingResults (hresult : ∀ row result, p (.db (.insertResult row) result))
    (ctx : RunContext) (initial : InitialState) (action : Action ℚ) :
    Keeps (within p part) (persistResults ctx initial action) := by
  have hinsert : ∀ results, Keeps (within p part) (insertResults results) := by
    intro results
    induction results with
    | nil => exact .pure _
    | cons result rest ih => exact (keeps_runStatement (hresult _)).bind fun _ => ih
  unfold persistResults
  split
  · exact keeps_bail _
  · split
    · exact hinsert _
    · exact .throw _

variable (hp : ∀ e, Event.Silent e → ¬e.Closes → p e)

include hp in
theorem keeps_prepareExecution (ctx : RunContext) (ownership : Option LiveOperationGuard) :
    Keeps (within p part) (prepareExecution ctx ownership) :=
  keeps_preparing (fun _ => hp _ trivial id) (fun _ _ => hp _ trivial id)
    (fun _ _ => hp _ trivial id) ctx ownership

include hp in
theorem keeps_persistResults (ctx : RunContext) (initial : InitialState) (action : Action ℚ) :
    Keeps (within p part) (persistResults ctx initial action) :=
  keeps_storingResults (fun _ _ => hp _ trivial id) ctx initial action

theorem keeps_completedOscillationPeriodMs {F : Frame Sys} (ctx : RunContext)
    (initial : InitialState) (pollResult : Except Text PollOutcome) :
    Keeps F (completedOscillationPeriodMs ctx initial pollResult) := by
  unfold completedOscillationPeriodMs
  split
  · refine Keeps.bind ?_ fun _ => .pure _
    unfold completedOscillation
    split
    · exact .pure _
    · split
      · exact .pure _
      · exact .throw _
  · exact .pure _

end Frames

/-- What the transition to Manual does to the outside. -/
def Event.EntersManual : Event → Prop
  | .write call => call.origin = .programMode ∨ call.origin = .manualMode
  | .mark .enteredTransition => True
  | _ => False

section Transition

variable {τ : Type} {p : Event → Prop} {part : Program → τ} {ctx : RunContext}
variable {initial : InitialState}

/-- The transition to Manual writes the mode and its attribute, and sets the guard. -/
theorem keeps_transitionWrites (hmark : p (.mark .enteredTransition))
    (hwrite : ∀ call, call.origin = .programMode ∨ call.origin = .manualMode →
      (∀ initial, call.Addressed ctx initial) → p (.write call))
    (hguard : ∀ (a : Program) (g : MutationGuard), part { a with guard := g } = part a) :
    Keeps (within p part) (transitionToManual ctx initial) := by
  have hmodify : ∀ f, Keeps (within p part) (modifyGuard f) :=
    fun _ => keeps_modifyProgram fun a => hguard a _
  have hprogram : Keeps (within p part) (enterProgramMode ctx) := by
    unfold enterProgramMode
    split
    · rename_i htag hvalue
      exact (hmodify _).bind fun _ => (keeps_driverWrite fun _ _ _ =>
        hwrite _ (.inl rfl) fun _ => ⟨htag, _, hvalue, rfl⟩).bind fun _ => keeps_sleep _ _
    · exact .pure _
  refine (keeps_mark hmark).bind fun _ => hprogram.bind fun _ => ?_
  cases htag : ctx.tags.controllerMode with
  | none => exact .pure _
  | some modeTag =>
    dsimp only
    split
    · exact (hmodify _).bind fun _ => keeps_driverWrite fun _ _ _ =>
        hwrite _ (.inr rfl) fun _ => ⟨htag, rfl⟩
    · exact .pure _

end Transition

/-- The frame of the transition to Manual. -/
abbrev entering (ctx : RunContext) : Frame Sys :=
  within (fun e => e.EntersManual ∧ ∀ initial, e.Regular ctx initial) fun _ => ()

theorem keeps_transitionToManual (ctx : RunContext) (initial : InitialState) :
    Keeps (entering ctx) (transitionToManual ctx initial) :=
  keeps_transitionWrites ⟨trivial, fun _ => ⟨id, trivial⟩⟩
    (fun _ h haddressed => ⟨h, fun initial => ⟨id, haddressed initial⟩⟩) fun _ _ => rfl

end Bhtune
