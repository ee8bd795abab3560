import Bhtune.Core.PidTarget
import Bhtune.Runtime.Quality

/-!
# PID write-back

`writeback.rs`: which result is written, the pre-read of the old constants, the three
write-and-verify steps and the rollback of a partial write.  An adapter's handler is consulted for
its selection; its progress notifications change nothing and are left out.  The queue of previous
values belongs to the audited driver, which here is part of the outside.
-/

namespace Bhtune

open BinaryFloat Effect

/-- The live ownership a run holds; its heartbeat is part of the outside. -/
structure LiveOperationGuard where
  runId : Option ℕ
  deriving DecidableEq

/-- `LiveOperationGuard::ensure_healthy`. -/
def ensureHealthy : Io Unit := do
  if (← consult).healthy then return ()
  else
    bail (text ("live controller ownership heartbeat failed; refusing further mutations and " ++
      "retaining the pre-write audit intent"))

/-! ### The texts of results and errors -/

/-- The `Debug` text of a response level. -/
def ResponseLevel.debug : ResponseLevel → String
  | .aggressive => "Aggressive"
  | .moderate => "Moderate"
  | .sluggish => "Sluggish"

/-- The `Display` text of a `PidRoundingError`. -/
def PidRoundingError.message : PidRoundingError → Text
  | .invalidDigits kind digits =>
    text "PID rounding digits " ++ [.nat digits.toNat] ++ text " must be " ++
      (match kind with
        | .decimalPlaces => text "0-7 decimal places"
        | .significantDigits => text "1-7 significant digits")
  | .nonFinite => text "PID value must remain finite after rounding"
  | .nonPositive => text "an active PID term must be positive"
  | .roundedToZero => text ("template PID rounding would erase an active term to zero; increase " ++
      "the template precision")

/-- The `Display` text of a `TuningResultInvalidReason`. -/
def TuningResultInvalidReason.message : TuningResultInvalidReason → String
  | .nonFinitePvAmplitude => "PV amplitude is not finite"
  | .nonPositivePvAmplitude => "PV amplitude is not positive"
  | .nonFinitePeriod => "oscillation period is not finite"
  | .nonPositivePeriod => "oscillation period is not positive"
  | .nonFiniteFrequency => "oscillation frequency is not finite"
  | .nonPositiveFrequency => "oscillation frequency is not positive"
  | .nonFiniteKp => "Kp is not finite"
  | .nonFiniteTiMinutes => "Ti is not finite"
  | .nonFiniteTdMinutes => "Td is not finite"
  | .nonFiniteProportional => "proportional value is not finite"
  | .nonFiniteIntegral => "integral value is not finite"
  | .nonFiniteDerivative => "derivative value is not finite"

/-! ### The write target of a result -/

/-- `pid_parameters_for_result`. -/
def pidParametersForResult (result : TuneResultRow) : Except Text (PidParameters ℚ) :=
  let level := result.responseLevel.debug
  if result.status ≠ .valid then
    .error (text (level ++ " calculated result is invalid: " ++
      (result.invalidReason.map (·.message)).getD "no invalid reason was recorded"))
  else if result.invalidReason.isSome then
    .error (text (level ++
      " calculated result has an invalid reason despite being marked valid"))
  else
    match result.proportional, result.integral, result.derivative with
    | none, _, _ => .error (text (level ++ " calculated result is missing its proportional value"))
    | _, none, _ => .error (text (level ++ " calculated result is missing its integral value"))
    | _, _, none => .error (text (level ++ " calculated result is missing its derivative value"))
    | some proportional, some integral, some derivative =>
      if !proportional.isFinite || !integral.isFinite || !derivative.isFinite then
        .error (text (level ++ " calculated result contains a non-finite PID value"))
      else
        .ok { responseLevel := result.responseLevel, proportional, integral, derivative }

/-- `controller_pid_for_result`. -/
def controllerPidForResult (result : TuneResultRow) (controllerType : ControllerType)
    (template : DcsTemplate) : Except Text ControllerPidValues := do
  let pid ← pidParametersForResult result
  match controllerPidValues pid controllerType template with
  | .ok values => .ok values
  | .error error =>
    .error (text (result.responseLevel.debug ++ " controller PID target is unavailable: " ++
      error.term ++ ": ") ++ error.reason.message)

/-! ### Reading, writing and rolling back -/

/-- `read_f32` with the context a failed pre-read gets. -/
def preRead (label tag : String) (allowUncertain : Bool) : Io ℚ := do
  match ← tryErr (readF32 tag allowUncertain) with
  | .ok v => return v
  | .error e => bail (text ("pre-read of " ++ label ++ " tag '" ++ tag ++ "' failed: ") ++ e)

/-- `read_previous_pid_values`. -/
def readPreviousPidValues (pTag iTag dTag : String) (allowUncertain : Bool) :
    Io WriteReadback := do
  let proportional ← preRead "Proportional" pTag allowUncertain
  let integral ← preRead "Integral" iTag allowUncertain
  let derivative ← preRead "Derivative" dTag allowUncertain
  return { proportional, integral, derivative }

/-- `pid_value_within_tolerance`; the product and the difference are rounded.  A difference that
overflows is outside the tolerance with and without a largest value. -/
def pidValueWithinTolerance (requested actual : ℚ) : Bool :=
  decide (|toF32 (actual - requested)| ≤ max (f32 0.001) (toF32 (f32 0.01 * |requested|)))

/-- The `f32` nearest to `0.01` is below it, and the product is rounded up again. -/
example : pidValueWithinTolerance 100 101 = true ∧ f32 0.01 * 100 < 1 := by decide +kernel

/-- One constant of a PID write. -/
structure PidStep where
  label : String
  tag : String
  value : ℚ
  previous : ℚ

/-- `write_and_verify_pid_value`. -/
def writeAndVerifyPidValue (step : PidStep) (allowUncertain : Bool) : Io (Except Text ℚ) := do
  match ← tryErr (writeValue none .pid step.tag step.value) with
  | .error e =>
    return .error (text (step.label ++ " write to '" ++ step.tag ++ "' failed: ") ++ e)
  | .ok () =>
    match ← tryErr (readF32 step.tag allowUncertain) with
    | .error e =>
      return .error (text (step.label ++ " readback from '" ++ step.tag ++ "' failed: ") ++ e)
    | .ok readback =>
      if pidValueWithinTolerance step.value readback then return .ok readback
      else
        return .error (text (step.label ++ " readback ") ++ [.num readback] ++
          text (" from '" ++ step.tag ++ "' is outside tolerance of requested ") ++
          [.num step.value])

/-- The steps of a PID write in order, up to the first failure: the confirmed steps with their
readbacks, and the failure. -/
def writePidSteps (allowUncertain : Bool) (done : List (PidStep × ℚ)) :
    List PidStep → Io (List (PidStep × ℚ) × Option (PidStep × Text))
  | [] => return (done, none)
  | step :: rest => do
    match ← writeAndVerifyPidValue step allowUncertain with
    | .ok readback => writePidSteps allowUncertain (done ++ [(step, readback)]) rest
    | .error e => return (done, some (step, e))

/-- `rollback_pid_writes`: every confirmed step is written back, whatever the others do.  The
written values are finite, so the failure of a non-finite one is left out. -/
def rollbackPidWrites : List PidStep → Io (List Text)
  | [] => return []
  | step :: rest => do
    let failure ←
      match ← tryErr (writeValue none .pid step.tag step.previous) with
      | .ok () => pure []
      | .error e =>
        pure [text (step.label ++ " rollback write to '" ++ step.tag ++ "' failed: ") ++ e]
    let failures ← rollbackPidWrites rest
    return failure ++ failures

/-- `PidWriteOutcome`. -/
inductive PidWriteOutcome where
  | written
  | failed (detail : Text)

/-- The audit row with what was written and read back. -/
def NewTuneWrite.withSteps (row : NewTuneWrite) (written readback : List ℚ) : NewTuneWrite :=
  { row with
    proportionalWritten := written[0]?
    integralWritten := written[1]?
    derivativeWritten := written[2]?
    proportionalReadback := readback[0]?
    integralReadback := readback[1]?
    derivativeReadback := readback[2]? }

/-- The end of a PID write that failed after `done`. -/
def failPidWrite (runId : ℕ) (kind : WriteKind) (row : NewTuneWrite) (done : List PidStep)
    (errorMessage : Text) : Io PidWriteOutcome := do
  let row := { row with errorMessage := some errorMessage }
  if kind ≠ .write ∨ done.isEmpty then do
    runStatement (.insertWrite row)
    return .failed errorMessage
  else
    match ← rollbackPidWrites done with
    | [] => do
      runStatement (.insertWrite { row with rollbackState := some .succeeded })
      return .failed (errorMessage ++ text " (rolled back)")
    | failures => do
      let rollbackError := joinTexts failures
      runStatement (.insertWrite { row with
        rollbackState := some .failed
        rollbackError := some rollbackError })
      return .failed (errorMessage ++ text "; rollback also failed: " ++ rollbackError ++
        text (" -- the loop may hold a mismatched set of PID constants, see " ++
          "\x60bhtune history revert ") ++ [.nat runId] ++ text "\x60")

/-- The restore-intent update of `write_pid_values_inner`. -/
def updateRestoreIntent (intent : PidRestoreIntent) : Io Unit := do
  runStatement .readLiveOwner
  ensureHealthy
  runStatement (.persistPidRestoreIntent intent)

/-- The write phase of `write_pid_values_inner`, its rollback and its audit row. -/
def recordPidWrite (runId : ℕ) (kind : WriteKind) (allowUncertain : Bool) (steps : List PidStep)
    (previous : WriteReadback) (row : NewTuneWrite) : Io PidWriteOutcome := do
  let (done, failure) ← writePidSteps allowUncertain [] steps
  let confirmed := done.map fun d => d.1.value
  let readback := done.map fun d => d.2
  let row := { row with previous := some previous }
  match failure with
  | none => do
    runStatement (.insertWrite { row.withSteps confirmed readback with success := true })
    return .written
  | some (step, e) =>
    failPidWrite runId kind (row.withSteps (confirmed ++ [step.value]) readback)
      (done.map fun d => d.1) e

/-- `write_pid_values_inner`. -/
def writePidValuesInner (runId : ℕ) (pTag iTag dTag : String) (responseLevel : ResponseLevel)
    (target : WriteReadback) (kind : WriteKind) (allowUncertain : Bool)
    (ownership : LiveOperationGuard) : Io PidWriteOutcome := do
  ensureHealthy
  if ownership.runId ≠ some runId then
    bail (text "live ownership does not match PID write run " ++ [.nat runId])
  else
    let row : NewTuneWrite :=
      { responseLevel
        writtenAt := ← utcNow
        kind
        allowUncertainQuality := allowUncertain }
    match ← tryErr (readPreviousPidValues pTag iTag dTag allowUncertain) with
    | .error e => do
      runStatement (.insertWrite { row with errorMessage := some e })
      return .failed (text "pre-read failed: " ++ e)
    | .ok previous => do
      updateRestoreIntent ⟨kind, responseLevel, previous, target⟩
      let steps : List PidStep :=
        [⟨"Proportional", pTag, target.proportional, previous.proportional⟩,
          ⟨"Integral", iTag, target.integral, previous.integral⟩,
          ⟨"Derivative", dTag, target.derivative, previous.derivative⟩]
      recordPidWrite runId kind allowUncertain steps previous row

/-! ### Choosing what to write -/

/-- The level to write: the requested one, or what an adapter selects. -/
def selectResponseLevel (writePid : Option ResponseLevel) (hasHandler : Bool) :
    Io WriteBackSelection := do
  match writePid with
  | some level => return .selected level
  | none =>
    if hasHandler then return (← consult).selection
    else return .skipped "no response level was selected by the caller"

/-- The write of a chosen result. -/
def writeBackResult (ctx : RunContext) (pTag iTag dTag : String) (values : ControllerPidValues)
    (ownership : Option LiveOperationGuard) : Io (WriteBackOutcome × Option Text) := do
  match ownership with
  | none =>
    bail (text ("PID write-back requires a live ownership guard before controller mutation"))
  | some ownership =>
    let target : WriteReadback := ⟨values.proportional, values.integral, values.derivative⟩
    match ← writePidValuesInner ctx.runId pTag iTag dTag values.responseLevel target .write
        ctx.allowUncertainQuality ownership with
    | .written => return (.written values.responseLevel, none)
    | .failed detail => return (.failed, some detail)

/-- `maybe_write_back_with_owner`. -/
def maybeWriteBack (ctx : RunContext) (writePid : Option ResponseLevel) (hasHandler : Bool)
    (ownership : Option LiveOperationGuard) : Io (WriteBackOutcome × Option Text) := do
  match ctx.tags.proportionalConstant, ctx.tags.integralConstant,
      ctx.tags.derivativeConstant with
  | some pTag, some iTag, some dTag => do
    let results := (← database .listResults).rows
    if results.isEmpty then
      return (.skipped, some (text "no calculated results were recorded for this run"))
    else
      match ← selectResponseLevel writePid hasHandler with
      | .skipped detail => return (.skipped, some (text detail))
      | .failed detail => return (.failed, some (text detail))
      | .selected level =>
        match results.find? fun result => result.responseLevel = level with
        | none =>
          return (.failed, some (text
            ("no calculated result recorded for response level " ++ level.debug)))
        | some selected =>
          match controllerPidForResult selected ctx.config.controllerType ctx.template with
          | .error e => return (.failed, some e)
          | .ok values => writeBackResult ctx pTag iTag dTag values ownership
  | _, _, _ =>
    return (.skipped, some (text
      "no PID constant tags configured for this run's driver/template"))

/-! ### Frames -/

/-- What a PID write does to the outside: it reads, records, and writes PID constants. -/
def Event.WritesBack : Event → Prop
  | .read _ => True
  | .db _ _ => True
  | .write call => call.origin = .pid
  | .mark _ => False

/-- A statement of a write-back. -/
def DbOp.WritesBack : DbOp → Prop
  | .listResults => True
  | .readLiveOwner => True
  | .persistPidRestoreIntent _ => True
  | .insertWrite _ => True
  | _ => False

theorem DbOp.WritesBack.ordinary {op : DbOp} (h : op.WritesBack) : ¬op.Closes ∧ ¬op.Stores := by
  cases op <;> first | exact h.elim | exact ⟨id, id⟩

section Frames

variable {τ : Type} {p : Event → Prop} {part : Program → τ}

theorem keeps_ensureHealthy : Keeps (within p part) ensureHealthy := by
  refine keeps_consult.bind fun a => ?_
  split
  · exact .pure _
  · exact keeps_bail _

theorem keeps_selectResponseLevel (writePid : Option ResponseLevel) (hasHandler : Bool) :
    Keeps (within p part) (selectResponseLevel writePid hasHandler) := by
  cases writePid with
  | some level => exact .pure _
  | none =>
    cases hasHandler with
    | true => exact keeps_consult.bind fun _ => .pure _
    | false => exact .pure _

variable (hread : ∀ call, p (.read call))

include hread in
theorem keeps_preRead (label tag : String) (allowUncertain : Bool) :
    Keeps (within p part) (preRead label tag allowUncertain) := by
  refine (keeps_tryErr (keeps_readF32 hread _ _)).bind fun r => ?_
  cases r with
  | ok v => exact .pure _
  | error e => exact keeps_bail _

include hread in
theorem keeps_readPreviousPidValues (pTag iTag dTag : String) (allowUncertain : Bool) :
    Keeps (within p part) (readPreviousPidValues pTag iTag dTag allowUncertain) :=
  (keeps_preRead hread _ _ _).bind fun _ => (keeps_preRead hread _ _ _).bind fun _ =>
    (keeps_preRead hread _ _ _).bind fun _ => .pure _

variable (hwrite : ∀ call, call.origin = .pid → p (.write call))

include hread hwrite in
theorem keeps_writeAndVerifyPidValue (step : PidStep) (allowUncertain : Bool) :
    Keeps (within p part) (writeAndVerifyPidValue step allowUncertain) := by
  refine (keeps_tryErr (keeps_driverWrite fun _ _ _ => hwrite _ rfl)).bind fun r => ?_
  cases r with
  | error e => exact .pure _
  | ok _ =>
    refine (keeps_tryErr (keeps_readF32 hread _ _)).bind fun r => ?_
    cases r with
    | error e => exact .pure _
    | ok readback =>
      dsimp only
      split <;> exact .pure _

include hread hwrite in
theorem keeps_writePidSteps (allowUncertain : Bool) (done : List (PidStep × ℚ))
    (steps : List PidStep) : Keeps (within p part) (writePidSteps allowUncertain done steps) := by
  induction steps generalizing done with
  | nil => exact .pure _
  | cons step rest ih =>
    refine (keeps_writeAndVerifyPidValue hread hwrite step allowUncertain).bind fun r => ?_
    cases r with
    | ok readback => exact ih _
    | error e => exact .pure _

include hwrite in
theorem keeps_rollbackPidWrites (steps : List PidStep) :
    Keeps (within p part) (rollbackPidWrites steps) := by
  induction steps with
  | nil => exact .pure _
  | cons step rest ih =>
    refine (keeps_tryErr (keeps_driverWrite fun _ _ _ => hwrite _ rfl)).bind fun r => ?_
    cases r with
    | ok _ => exact (Keeps.pure _).bind fun _ => ih.bind fun _ => .pure _
    | error e => exact (Keeps.pure _).bind fun _ => ih.bind fun _ => .pure _

variable (hdb : ∀ op result, DbOp.WritesBack op → p (.db op result))

include hdb in
theorem keeps_ordinary (op : DbOp) (h : op.WritesBack) :
    Keeps (within p part) (runStatement op) := keeps_runStatement fun _ => hdb op _ h

include hdb in
theorem keeps_insertWrite (row : NewTuneWrite) :
    Keeps (within p part) (runStatement (.insertWrite row)) := keeps_ordinary hdb _ trivial

include hwrite hdb in
theorem keeps_failPidWrite (runId : ℕ) (kind : WriteKind) (row : NewTuneWrite)
    (done : List PidStep) (errorMessage : Text) :
    Keeps (within p part) (failPidWrite runId kind row done errorMessage) := by
  unfold failPidWrite
  dsimp only
  split
  · exact (keeps_insertWrite hdb _).bind fun _ => .pure _
  · refine (keeps_rollbackPidWrites hwrite done).bind fun failures => ?_
    cases failures with
    | nil => exact (keeps_insertWrite hdb _).bind fun _ => .pure _
    | cons failure failures => exact (keeps_insertWrite hdb _).bind fun _ => .pure _

include hread hwrite hdb in
theorem keeps_writePidValuesInner (runId : ℕ) (pTag iTag dTag : String)
    (responseLevel : ResponseLevel) (target : WriteReadback) (kind : WriteKind)
    (allowUncertain : Bool) (ownership : LiveOperationGuard) :
    Keeps (within p part) (writePidValuesInner runId pTag iTag dTag responseLevel target kind
      allowUncertain ownership) := by
  refine keeps_ensureHealthy.bind fun _ => ?_
  split
  · exact keeps_bail _
  · refine keeps_utcNow.bind fun writtenAt =>
      (keeps_tryErr (keeps_readPreviousPidValues hread _ _ _ _)).bind fun r => ?_
    cases r with
    | error e => exact (keeps_insertWrite hdb _).bind fun _ => .pure _
    | ok previous =>
      refine ((keeps_ordinary hdb .readLiveOwner trivial).bind fun _ =>
        keeps_ensureHealthy.bind fun _ =>
          keeps_ordinary hdb (.persistPidRestoreIntent _) trivial).bind fun _ =>
            (keeps_writePidSteps hread hwrite _ _ _).bind fun result => ?_
      obtain ⟨done, failure⟩ := result
      cases failure with
      | none => exact (keeps_insertWrite hdb _).bind fun _ => .pure _
      | some failed => exact keeps_failPidWrite hwrite hdb _ _ _ _ _

include hread hwrite hdb in
theorem keeps_maybeWriteBack (ctx : RunContext) (writePid : Option ResponseLevel)
    (hasHandler : Bool) (ownership : Option LiveOperationGuard) :
    Keeps (within p part) (maybeWriteBack ctx writePid hasHandler ownership) := by
  unfold maybeWriteBack
  split
  · refine (keeps_database fun _ => hdb .listResults _ trivial).bind fun a => ?_
    dsimp only
    split
    · exact .pure _
    · refine (keeps_selectResponseLevel writePid hasHandler).bind fun selection => ?_
      cases selection with
      | skipped detail => exact .pure _
      | failed detail => exact .pure _
      | selected level =>
        dsimp only
        split
        · exact .pure _
        · split
          · exact .pure _
          · unfold writeBackResult
            cases ownership with
            | none => exact keeps_bail _
            | some ownership =>
              refine (keeps_writePidValuesInner hread hwrite hdb _ _ _ _ _ _ _ _ _).bind
                fun outcome => ?_
              cases outcome <;> exact .pure _
  · exact .pure _

end Frames

end Bhtune
