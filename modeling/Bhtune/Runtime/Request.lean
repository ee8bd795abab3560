import Bhtune.Core.Constants
import Bhtune.Runtime.Types

/-!
# Tune requests

What an adapter asks for, the validation it passes, and how the request gives the timing, the loop
configuration and the tags of a run.  The connection to a gateway is an address only, and the
simulator's process model is part of the outside.
-/

namespace Bhtune

/-! ### The request -/

/-- `TuneRequest`. -/
structure TuneRequest where
  tagname : String
  template : String
  processType : ProcessType
  controllerType : ControllerType
  relayAmp : ℚ
  cyclesSkip : Option UInt32 := none
  cyclesCount : Option UInt32 := none
  noiseProtectionSecs : Option UInt32 := none
  driver : DriverKind
  server : Option String := none
  pvRangeHigh : Option ℚ := none
  pvRangeLow : Option ℚ := none
  mvRangeHigh : Option ℚ := none
  mvRangeLow : Option ℚ := none
  direction : Option ControllerDirection := none
  tagOverrides : Option TagOverrides := none
  yes : Bool := false
  writePid : Option ResponseLevel := none

/-- The `Display` text of a `TagOverridesError`. -/
def TagOverridesError.message (error : TagOverridesError) : Text :=
  text ("tag override '" ++ error.field ++ "' contains a control character")

/-- `ValidatedTuneRequest::try_from`; a number of the model is finite. -/
def TuneRequest.validate (request : TuneRequest) : Except Text Unit :=
  if request.cyclesCount = some 0 then .error (text "cycles count must be at least 1")
  else
    match request.tagOverrides with
    | none => .ok ()
    | some overrides =>
      match overrides.validate with
      | .ok () => .ok ()
      | .error error => .error error.message

/-- A request that passed the common validation. -/
structure ValidatedTuneRequest where
  request : TuneRequest
  valid : request.validate = .ok ()

/-! ### The timing -/

/-- `TuningConfig`, the raw `[tuning]` table. -/
structure TuningConfig where
  mrftDelaySecs : Option ℕ := none
  pollIntervalMs : Option ℕ := none
  timeoutSecs : Option ℕ := none
  opTimeoutSecs : Option ℕ := none
  restoreTimeoutSecs : Option ℕ := none

/-- The part of the application's configuration a tune looks at. -/
structure BhtuneConfig where
  server : Option String := none
  allowUncertainQuality : Bool := false
  tuning : TuningConfig := {}

/-- `MAX_TUNING_MRFT_DELAY_SECS`. -/
def maxTuningMrftDelaySecs : ℕ := 3600

/-- `MIN_OPC_RESTORE_TIMEOUT_SECS`. -/
def minOpcRestoreTimeoutSecs : ℕ := 4

/-- `resolve_tuning_config`: what the table leaves out has a built-in value. -/
def resolveTuningConfig (config : TuningConfig) : EffectiveTiming where
  mrftDelaySecs := config.mrftDelaySecs.getD 0
  pollIntervalMs := config.pollIntervalMs.getD 800
  timeoutSecs := config.timeoutSecs.getD 3600
  opTimeoutSecs := config.opTimeoutSecs.getD 30
  restoreTimeoutSecs := config.restoreTimeoutSecs.getD 30

/-- A `[tuning]` value below its minimum. -/
def tuningTooSmall (field : String) (minimum value : ℕ) : Text :=
  text ("tuning." ++ field ++ " must be at least ") ++ [.nat minimum] ++ text ", got " ++ [.nat value]

/-- `validate_tuning_config`. -/
def validateTuningConfig (config : EffectiveTiming) (requireOpcRestoreMinimum : Bool) :
    Except Text Unit :=
  let restoreMinimum := if requireOpcRestoreMinimum then minOpcRestoreTimeoutSecs else 1
  if maxTuningMrftDelaySecs < config.mrftDelaySecs then
    .error (text "tuning.mrft_delay_secs must be between 0 and " ++ [.nat maxTuningMrftDelaySecs] ++
      text ", got " ++ [.nat config.mrftDelaySecs])
  else if config.pollIntervalMs = 0 then
    .error (tuningTooSmall "poll_interval_ms" 1 config.pollIntervalMs)
  else if config.timeoutSecs = 0 then
    .error (tuningTooSmall "timeout_secs" 1 config.timeoutSecs)
  else if config.opTimeoutSecs = 0 then
    .error (tuningTooSmall "op_timeout_secs" 1 config.opTimeoutSecs)
  else if config.restoreTimeoutSecs < restoreMinimum then
    .error (tuningTooSmall "restore_timeout_secs" restoreMinimum config.restoreTimeoutSecs)
  else .ok ()

/-- `resolve_and_validate_tuning_config`. -/
def resolveAndValidateTuningConfig (config : TuningConfig) (requireOpcRestoreMinimum : Bool) :
    Except Text EffectiveTiming := do
  let effective := resolveTuningConfig config
  validateTuningConfig effective requireOpcRestoreMinimum
  return effective

/-- Every built-in value passes the check of its own table. -/
example (requireOpcRestoreMinimum : Bool) :
    resolveAndValidateTuningConfig {} requireOpcRestoreMinimum = .ok ⟨0, 800, 3600, 30, 30⟩ := by
  cases requireOpcRestoreMinimum <;> rfl

/-! ### The loop configuration -/

/-- The `Debug` text of a controller type. -/
def ControllerType.debug : ControllerType → String
  | .p => "P"
  | .pi => "Pi"
  | .pid => "Pid"

/-- The `Debug` text of a process type. -/
def ProcessType.debug : ProcessType → String
  | .flow => "Flow"
  | .pressureLine => "PressureLine"
  | .pressureVessel => "PressureVessel"
  | .level => "Level"
  | .temperatureMixing => "TemperatureMixing"
  | .temperatureHeatExchange => "TemperatureHeatExchange"

/-- The `Display` text of a `LoopConfigError`. -/
def LoopConfigError.message : LoopConfigError ℚ → Text
  | .relayAmpOutOfRange value =>
    text "relay amplitude " ++ [.num value] ++
      text "% is out of range: must be a finite value from " ++
      [.num LoopConfig.relayAmpPercentMin] ++ text "% to " ++
      [.num LoopConfig.relayAmpPercentMax] ++ text "% of the MV range"
  | .cyclesCountMustBeAtLeastOne => text "cycles count must be at least 1"
  | .mrftDelayOutOfRange value =>
    text "mrft delay " ++ [.nat value.toNat] ++ text "s is out of range: must be at most " ++
      [.nat LoopConfig.mrftDelaySecsMax.toNat] ++ text "s"

/-- `build_loop_config_with_timing`; the delay is a `u32` there too. -/
def buildLoopConfigWithTiming (args : TuneRequest) (timing : EffectiveTiming) :
    Except Text (LoopConfig ℚ) :=
  if !args.controllerType.isAllowedFor args.processType then
    .error (text (args.controllerType.debug ++ " controller is not valid for " ++
      args.processType.debug ++
      " (PID is only offered for the two Temperature process types)"))
  else
    let config : LoopConfig ℚ :=
      { processType := args.processType
        controllerType := args.controllerType
        relayAmpPercent := args.relayAmp
        numCyclesSkip := args.cyclesSkip.getD args.processType.defaultCyclesSkip
        numCyclesCount := args.cyclesCount.getD args.processType.defaultCyclesTest
        noiseProtectionSecs :=
          args.noiseProtectionSecs.getD args.processType.defaultNoiseProtectionSecs
        mrftDelaySecs := .ofNat timing.mrftDelaySecs }
    match config.validate with
    | .ok () => .ok config
    | .error error => .error error.message

/-- Chained steps succeed when each of them does. -/
theorem bindResult_eq_ok {ε α β : Type} {x : Except ε α} {f : α → Except ε β} {b : β} :
    (x >>= f) = .ok b ↔ ∃ a, x = .ok a ∧ f a = .ok b := by
  cases x with
  | error e => exact ⟨nofun, fun ⟨_, h, _⟩ => nomatch h⟩
  | ok a => exact ⟨fun h => ⟨a, rfl, h⟩, fun ⟨_, h, h'⟩ => by cases h; exact h'⟩

/-! ### The tags -/

/-- `SIMULATOR_PV_TAG`. -/
def simulatorPvTag : String := "Sim.PV"

/-- `SIMULATOR_MV_TAG`. -/
def simulatorMvTag : String := "Sim.MV"

/-- An input that a simulator run has to be given. -/
def requiredWithSimulator {α : Type} (flag : String) : Option α → Except Text α
  | some value => .ok value
  | none => .error (text ("--" ++ flag ++
      " is required with --driver simulator (or use \x60bhtune simulate\x60)"))

/-- `build_loop_tags`. -/
def buildLoopTags (args : TuneRequest) (template : DcsTemplate) : Except Text LoopTags :=
  match args.driver with
  | .opcda =>
    let derived := LoopTags.deriveFromPvTag args.tagname template
    let tags := (args.tagOverrides.map (·.applyTo derived)).getD derived
    -- a fixed value has the last word, after the overrides of the tags that are read
    .ok { tags with
      upperPvRange := (args.pvRangeHigh.map .value).getD tags.upperPvRange
      lowerPvRange := (args.pvRangeLow.map .value).getD tags.lowerPvRange
      upperMvRange := (args.mvRangeHigh.map .value).getD tags.upperMvRange
      lowerMvRange := (args.mvRangeLow.map .value).getD tags.lowerMvRange
      controllerDirection := (args.direction.map .value).getD tags.controllerDirection }
  | .simulator => do
    let pvRangeHigh ← requiredWithSimulator "pv-range-high" args.pvRangeHigh
    let pvRangeLow ← requiredWithSimulator "pv-range-low" args.pvRangeLow
    let mvRangeHigh ← requiredWithSimulator "mv-range-high" args.mvRangeHigh
    let mvRangeLow ← requiredWithSimulator "mv-range-low" args.mvRangeLow
    let direction ← requiredWithSimulator "direction" args.direction
    return {
      processVariable := simulatorPvTag
      manipulatedVariable := simulatorMvTag
      setpointVariable := none
      controllerMode := none
      modeAttribute := none
      upperPvRange := .value pvRangeHigh
      lowerPvRange := .value pvRangeLow
      upperMvRange := .value mvRangeHigh
      lowerMvRange := .value mvRangeLow
      controllerDirection := .value direction
      proportionalConstant := none
      integralConstant := none
      derivativeConstant := none }

/-- The request and the template name no controller-mode tag. -/
def TuneRequest.NamesNoMode (args : TuneRequest) (template : DcsTemplate) : Prop :=
  args.driver = .simulator ∨ isBlank template.controllerModeSuffix = true ∧
    ∀ overrides, args.tagOverrides = some overrides → KeepsDerived overrides.controllerMode

/-- A simulator run has a PV and an MV, and no tag of its mode or its constants. -/
theorem buildLoopTags_simulator {args : TuneRequest} {template : DcsTemplate} {tags : LoopTags}
    (hdriver : args.driver = .simulator) (h : buildLoopTags args template = .ok tags) :
    tags.controllerMode = none ∧ tags.proportionalConstant = none := by
  unfold buildLoopTags at h
  rw [hdriver] at h
  cases h₁ : args.pvRangeHigh <;> cases h₂ : args.pvRangeLow <;> cases h₃ : args.mvRangeHigh <;>
    cases h₄ : args.mvRangeLow <;> cases h₅ : args.direction <;>
    simp only [h₁, h₂, h₃, h₄, h₅, requiredWithSimulator, bind, Except.bind] at h <;> cases h
  exact ⟨rfl, rfl⟩

theorem controllerMode_buildLoopTags_eq_none_iff {args : TuneRequest} {template : DcsTemplate}
    {tags : LoopTags} (h : buildLoopTags args template = .ok tags) :
    tags.controllerMode = none ↔ args.NamesNoMode template := by
  unfold TuneRequest.NamesNoMode
  cases hdriver : args.driver with
  | opcda =>
    unfold buildLoopTags at h
    rw [hdriver] at h
    cases h
    cases hoverrides : args.tagOverrides with
    | none =>
      show deriveTag args.tagname template.controllerModeSuffix = none ↔ _
      simp [deriveTag_eq_none_iff]
    | some overrides =>
      show (overrides.applyTo _).controllerMode = none ↔ _
      simp [controllerMode_applyTo_eq_none_iff]
  | simulator => exact iff_of_true (buildLoopTags_simulator hdriver h).1 (.inl rfl)

end Bhtune
