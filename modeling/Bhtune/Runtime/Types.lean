import Bhtune.Core.Mrft
import Bhtune.Core.Tags
import Bhtune.Core.TuningMath

/-!
# What a live tune works with: tags, readings, requests, pending commands and outcomes

The runtime is modelled over `ℚ`, which holds every finite `f32` exactly.  A monotonic instant is
a number of nanoseconds.  An `anyhow` error is its text: a list of pieces, in which a printed
analog value stays a value.
-/

namespace Bhtune

open BinaryFloat

/-! ### Time -/

/-- A `tokio::time::Instant`, in nanoseconds. -/
abbrev Instant := ℕ

/-- `Duration::from_secs`. -/
def durationSecs (n : ℕ) : ℕ := n * 1000000000

/-- `Duration::from_millis`. -/
def durationMillis (n : ℕ) : ℕ := n * 1000000

/-- A UTC time and the monotonic instant at which it was observed. -/
structure RunTimeAnchor where
  utc : UtcTime
  monotonic : Instant
  deriving DecidableEq

/-! ### The driver boundary -/

/-- OPC quality of a value. -/
inductive Quality where
  | good
  | uncertain
  | bad
  deriving DecidableEq, Repr

/-- The persisted counterpart of `Quality`. -/
inductive SampleQuality where
  | good
  | uncertain
  | bad
  deriving DecidableEq, Repr

/-- What `str::parse::<f32>` makes of a raw value. -/
inductive ParsedF32 where
  | notANumber
  | notFinite
  | finite (v : ℚ)
  deriving DecidableEq

/-- One freshly read tag value: its raw text, and the number that text stands for. -/
structure TagValue where
  tag : String
  value : String
  parsed : ParsedF32
  quality : Quality
  deriving DecidableEq

/-- A value to write to a tag. -/
inductive TagWrite where
  | float (v : ℚ)
  | raw (value : String)
  deriving DecidableEq

/-- The driver's answer to a write that reached it. -/
structure WriteOutcome where
  success : Bool
  errorMessage : Option String
  deriving DecidableEq

/-! ### The request -/

/-- Which driver a request selects. -/
inductive DriverKind where
  | opcda
  | simulator
  deriving DecidableEq, Repr

/-- The timing policy frozen during preparation. -/
structure EffectiveTiming where
  mrftDelaySecs : ℕ
  pollIntervalMs : ℕ
  timeoutSecs : ℕ
  opTimeoutSecs : ℕ
  restoreTimeoutSecs : ℕ
  deriving DecidableEq

/-- The arithmetic in which a run checks its relay step before it mutates the loop; the relay and
the restore compute exactly. -/
inductive FloatArith where
  | exact
  | single
  deriving DecidableEq

/-- What stays fixed for one run and is handed to every function of it. -/
structure RunContext where
  arith : MachineInt.IntArith
  floats : FloatArith
  runId : ℕ
  driver : DriverKind
  effectiveTiming : EffectiveTiming
  tags : LoopTags
  template : DcsTemplate
  config : LoopConfig ℚ
  allowUncertainQuality : Bool
  timeAnchor : RunTimeAnchor

/-- Everything read before any mode transition is attempted. -/
structure InitialState where
  pvIni : ℚ
  mvIni : ℚ
  pvRangeHigh : ℚ
  pvRangeLow : ℚ
  mvRangeHigh : ℚ
  mvRangeLow : ℚ
  direction : ControllerDirection
  modeRaw : Option String
  modeAttributeRaw : Option String
  setpointIni : Option ℚ
  deriving DecidableEq

/-- Which mutations of the loop were attempted. -/
structure MutationGuard where
  modeAttributeWritten : Bool := false
  modeWritten : Bool := false
  mvWritten : Bool := false
  deriving DecidableEq

/-! ### Outcomes and texts -/

/-- Why a run ended without a normal completion. -/
inductive AbortReason where
  | userInterrupt
  | timeout (timeoutSecs : ℕ)
  | operationTimedOut (tag : String) (opTimeoutSecs : ℕ)
  | poorQuality (tag : String) (quality : Quality)
  | mvActuationUnconfirmed (tag : String) (target : ℚ) (readback : Option ℚ) (tolerance : ℚ)
      (elapsedMs deadlineSecs : ℕ)
  deriving DecidableEq

/-- A piece of a formatted message. -/
inductive Piece where
  | lit (s : String)
  | num (v : ℚ)
  | nat (n : ℕ)
  | quality (q : Quality)
  | reason (r : AbortReason)
  deriving DecidableEq

/-- A formatted message; the text of an `anyhow` error. -/
abbrev Text := List Piece

/-- A fixed message. -/
def text (s : String) : Text := [.lit s]

/-- `failures.join("; ")`. -/
def joinTexts : List Text → Text
  | [] => []
  | [t] => t
  | t :: rest => t ++ text "; " ++ joinTexts rest

/-- The outcome of one step of a restore. -/
inductive RestoreStepOutcome where
  | notNeeded
  | succeeded
  | failed (e : Text)
  deriving DecidableEq

/-- How a restore attempt ended. -/
inductive RestoreAttempt where
  | confirmed
  | incomplete (reason : Text)
  deriving DecidableEq

/-- Whether the mode step of a restore may run. -/
inductive RestoreModePolicy where
  | releaseToInitial
  | keepManual
  deriving DecidableEq

/-- How PID write-back ended. -/
inductive WriteBackOutcome where
  | skipped
  | written (responseLevel : ResponseLevel)
  | failed
  deriving DecidableEq

/-- The outcome of a whole run. -/
inductive RunOutcome where
  | completed (writeBack : WriteBackOutcome) (writeBackDetail : Option Text)
  | aborted (reason : AbortReason)
  | restoreIncomplete (reason : Text)
  deriving DecidableEq

/-! ### Pending MV commands -/

/-- Whether an MV command came from the relay or from a restore. -/
inductive MvActuationKind where
  | relay
  | restore
  deriving DecidableEq

/-- The audited state of an MV command. -/
inductive MvActuationStatus where
  | confirmed
  | failed
  | unverified
  | superseded
  deriving DecidableEq

/-- An accepted MV command that has not been confirmed yet. -/
structure PendingMvActuation where
  id : Option ℕ
  kind : MvActuationKind
  target : ℚ
  tolerance : ℚ
  switchTick : UtcTime
  switchInstant : Instant
  acceptedInstant : Instant
  firstCheckAt : Instant
  deadline : Instant
  lastReadback : Option ℚ
  deriving DecidableEq

/-- The MV commands of an OPC DA run. -/
structure MvActuationTracker where
  nextSequence : ℤ
  previousCommandedMv : ℚ
  confirmedMv : Option ℚ
  pending : Option PendingMvActuation
  mvSpan : ℚ
  deriving DecidableEq

/-- `MvActuationTracker::for_run`: only an OPC DA run verifies its MV commands. -/
def MvActuationTracker.forRun (driver : DriverKind) (initial : InitialState) :
    Option MvActuationTracker :=
  if driver = .opcda then
    some {
      nextSequence := 0
      previousCommandedMv := initial.mvIni
      confirmedMv := none
      pending := none
      mvSpan := initial.mvRangeHigh - initial.mvRangeLow }
  else none

/-! ### Timing bookkeeping -/

/-- Where sample timestamps come from. -/
inductive TickTimeSource where
  | liveMonotonic (anchor : RunTimeAnchor)
  | fixedStep (current : UtcTime) (step : ℤ)
  deriving DecidableEq

/-- Where the timing metrics of a run come from. -/
inductive TimingBasis where
  | liveMonotonic
  | simulatedFixedStep
  deriving DecidableEq

/-- Gaps between adjacent successful samples. -/
structure PollTimingAccumulator where
  basis : TimingBasis
  requestedIntervalMs : ℕ
  previousTimestamp : Option UtcTime
  sampleGapCount : ℕ
  totalGapMicros : ℕ
  maxGapMicros : ℕ
  missedPollOpportunityCount : ℕ
  deriving DecidableEq

/-- `PollTimingAccumulator::new`. -/
def PollTimingAccumulator.new (basis : TimingBasis) (requestedIntervalMs : ℕ) :
    PollTimingAccumulator where
  basis := basis
  requestedIntervalMs := max requestedIntervalMs 1
  previousTimestamp := none
  sampleGapCount := 0
  totalGapMicros := 0
  maxGapMicros := 0
  missedPollOpportunityCount := 0

/-- The metrics a finished accumulator reports: its counts, and the measured period. -/
structure TimingMetrics where
  accumulated : PollTimingAccumulator
  measuredOscillationPeriodMs : Option ℚ
  deriving DecidableEq

/-- The finite and positive period of an oscillation, in milliseconds. -/
def positivePeriod : Option (XNum ℚ) → Option ℚ
  | some (.fin period) => if 0 < period then some period else none
  | _ => none

/-- `PollTimingAccumulator::finish`: nothing to report before the first sample. -/
def PollTimingAccumulator.finish (timing : PollTimingAccumulator)
    (measuredOscillationPeriodMs : Option (XNum ℚ)) : Option TimingMetrics :=
  timing.previousTimestamp.map fun _ =>
    { accumulated := timing
      measuredOscillationPeriodMs := positivePeriod measuredOscillationPeriodMs }

/-! ### Rows of the database -/

/-- A row of `tune_mv_actuations` as it is inserted. -/
structure NewTuneMvActuation where
  sequence : ℤ
  kind : MvActuationKind
  commandedAt : UtcTime
  targetMv : ℚ
  previousCommandedMv : Option ℚ
  tolerance : ℚ
  confirmationDueAt : UtcTime
  deriving DecidableEq

/-- A row of `tune_results`. -/
structure TuneResultRow where
  responseLevel : ResponseLevel
  kp : Option (XNum ℚ)
  tiMinutes : Option (XNum ℚ)
  tdMinutes : Option (XNum ℚ)
  proportional : Option (XNum ℚ)
  integral : Option (XNum ℚ)
  derivative : Option (XNum ℚ)
  status : TuningResultStatus
  invalidReason : Option TuningResultInvalidReason
  deriving DecidableEq

/-- `CheckedTuningResult::usable_values`: the numbers of a result that is safe to use. -/
def CheckedTuningResult.usableValues (checked : CheckedTuningResult ℚ) :
    Option (TuningResult ℚ × PidParameters ℚ) :=
  match checked.status, checked.invalidReason, checked.tuning, checked.pid with
  | .valid, none, some tuning, some pid => some (tuning, pid)
  | _, _, _, _ => none

/-- `TuneResultRow::from_checked`. -/
def TuneResultRow.fromChecked (checked : CheckedTuningResult ℚ) : TuneResultRow where
  responseLevel := checked.responseLevel
  kp := checked.usableValues.map (·.1.kp)
  tiMinutes := checked.usableValues.map (·.1.tiMinutes)
  tdMinutes := checked.usableValues.map (·.1.tdMinutes)
  proportional := checked.usableValues.map (·.2.proportional)
  integral := checked.usableValues.map (·.2.integral)
  derivative := checked.usableValues.map (·.2.derivative)
  status := checked.status
  invalidReason := checked.invalidReason

/-- The three PID constants of one write. -/
structure WriteReadback where
  proportional : ℚ
  integral : ℚ
  derivative : ℚ
  deriving DecidableEq

/-- Whether a PID write sets calculated values or puts recorded ones back. -/
inductive WriteKind where
  | write
  | revert
  deriving DecidableEq

/-- How the rollback of a partial PID write ended. -/
inductive RollbackState where
  | succeeded
  | failed
  deriving DecidableEq

/-- A row of `tune_writes` as it is inserted. -/
structure NewTuneWrite where
  responseLevel : ResponseLevel
  writtenAt : UtcTime
  kind : WriteKind
  allowUncertainQuality : Bool
  previous : Option WriteReadback := none
  proportionalWritten : Option ℚ := none
  integralWritten : Option ℚ := none
  derivativeWritten : Option ℚ := none
  proportionalReadback : Option ℚ := none
  integralReadback : Option ℚ := none
  derivativeReadback : Option ℚ := none
  success : Bool := false
  errorMessage : Option Text := none
  rollbackState : Option RollbackState := none
  rollbackError : Option Text := none
  deriving DecidableEq

/-- The restore intent persisted before the first mutation. -/
structure TuneRestoreIntent where
  mvTag : String
  initialReadings : InitialState
  revertMode : Bool
  modeAutoValue : String
  modeManualValue : String
  modeAttributeProgramValue : Option String
  deriving DecidableEq

/-- The PID part of the restore intent. -/
structure PidRestoreIntent where
  writeKind : WriteKind
  responseLevel : ResponseLevel
  previous : WriteReadback
  target : WriteReadback
  deriving DecidableEq

/-! ### A flow loop on an OPC DA server -/

/-- The template of a controller with the modes MAN and AUTO. -/
def flowTemplate : DcsTemplate where
  name := "Flow DCS"
  revertMode := true
  proportionalType := .gain
  integralType := .resetTime
  integralUnit := .minutes
  derivativeType := .derivativeTime
  derivativeUnit := .minutes
  pidRounding := ⟨.decimalPlaces, 3⟩
  processVariableSuffix := "PV"
  manipulatedVariableSuffix := "MV"
  setpointVariableSuffix := ""
  controllerDirectionSuffix := "ACTION"
  controllerModeSuffix := "MODE"
  modeAttributeSuffix := ""
  upperPvRangeSuffix := "PVHI"
  lowerPvRangeSuffix := "PVLO"
  upperMvRangeSuffix := "MVHI"
  lowerMvRangeSuffix := "MVLO"
  proportionalConstantSuffix := "P"
  integralConstantSuffix := "I"
  derivativeConstantSuffix := "D"
  modeManualValue := "MAN"
  modeAutoValue := "AUTO"
  modeAttributeProgramValue := none
  controllerActionDirectValue := "DIRECT"

/-- The tags of the loop FC1. -/
def flowTags : LoopTags where
  processVariable := "FC1.PV"
  manipulatedVariable := "FC1.MV"
  setpointVariable := none
  controllerMode := some "FC1.MODE"
  modeAttribute := none
  upperPvRange := .value 100
  lowerPvRange := .value 0
  upperMvRange := .value 100
  lowerMvRange := .value 0
  controllerDirection := .value .reverse
  proportionalConstant := some "FC1.P"
  integralConstant := some "FC1.I"
  derivativeConstant := some "FC1.D"

/-- A run on the loop FC1 with the built-in timing. -/
def flowContext : RunContext where
  arith := .machine
  floats := .exact
  runId := 1
  driver := .opcda
  effectiveTiming := ⟨0, 800, 3600, 30, 30⟩
  tags := flowTags
  template := flowTemplate
  config := flowLoopConfig
  allowUncertainQuality := false
  timeAnchor := ⟨0, 0⟩

/-- The loop FC1 in Auto, in the middle of its ranges. -/
def flowInitial : InitialState where
  pvIni := 50
  mvIni := 50
  pvRangeHigh := 100
  pvRangeLow := 0
  mvRangeHigh := 100
  mvRangeLow := 0
  direction := .reverse
  modeRaw := some "AUTO"
  modeAttributeRaw := none
  setpointIni := none

end Bhtune
