import Bhtune.Library.Json
import Bhtune.Db.LiveOwnership
import Bhtune.Runtime.Prepare
import Bhtune.Runtime.Request
import Mathlib.Data.List.Sort

/-!
# The checks of a recovery

The functions of `tune/recovery.rs` that decide from the recorded rows whether an interrupted
run may be restored, and what of its loop was mutated.  The columns that hold JSON are text;
`parse` is the JSON parser.

* `recoveryEligibility` — the evidence of a run, its owner and its audited mutations is complete;
* `loadRecoveryRun`, `recoverySourceOwner`, `validateRecoveryRun` — what `restore-loop` checks;
* `orphanEligibility`, `markStaleTuneOrphan` — the sweep of a dead tune;
* `mutationGuard` — the mutation guard of the dead tune, inferred from its audit;
* `recoveryEligibility_iff`, `auditFault_iff` — eligibility as a conjunction.
-/

namespace Bhtune

open Transaction

/-! ### JSON of the recorded readings, intents and writes -/

/-- `json!(x)` of an `f32`. -/
def jsonF32 (x : ℚ) : Json := .number (.float x)

/-- `json!(x)` of an optional value. -/
def jsonOption {α : Type} (json : α → Json) : Option α → Json
  | none => .null
  | some x => json x

/-- `json!(direction)`. -/
def ControllerDirection.json : ControllerDirection → Json
  | .direct => .string "direct"
  | .reverse => .string "reverse"

/-- `serde_json::to_value` of the initial readings. -/
def TuneRunInitialReadings.json (initial : TuneRunInitialReadings) : Json :=
  .ofMembers [
    ("pv_ini", jsonF32 initial.pvIni),
    ("mv_ini", jsonF32 initial.mvIni),
    ("mv_range_low", jsonF32 initial.mvRangeLow),
    ("mv_range_high", jsonF32 initial.mvRangeHigh),
    ("pv_range_high", jsonF32 initial.pvRangeHigh),
    ("pv_range_low", jsonF32 initial.pvRangeLow),
    ("controller_direction", initial.controllerDirection.json),
    ("mode_raw", jsonOption .string initial.modeRaw),
    ("mode_attribute_raw", jsonOption .string initial.modeAttributeRaw),
    ("setpoint_ini", jsonOption jsonF32 initial.setpointIni)]

/-- The `template_policy` of a restore intent. -/
def DcsTemplate.restorePolicy (template : DcsTemplate) : Json :=
  .ofMembers [
    ("revert_mode", .bool template.revertMode),
    ("mode_auto_value", .string template.modeAutoValue),
    ("mode_manual_value", .string template.modeManualValue),
    ("mode_attribute_program_value", jsonOption .string template.modeAttributeProgramValue)]

/-- The initial readings as `execute_with_timing` records them. -/
def InitialState.recorded (initial : InitialState) : TuneRunInitialReadings where
  pvIni := initial.pvIni
  mvIni := initial.mvIni
  mvRangeLow := initial.mvRangeLow
  mvRangeHigh := initial.mvRangeHigh
  pvRangeHigh := initial.pvRangeHigh
  pvRangeLow := initial.pvRangeLow
  controllerDirection := initial.direction
  modeRaw := initial.modeRaw
  modeAttributeRaw := initial.modeAttributeRaw
  setpointIni := initial.setpointIni

/-- The restore intent that `execute_with_timing` stores for its run. -/
def TuneRestoreIntent.json (runId : ℕ) (intent : TuneRestoreIntent) : Json :=
  .ofMembers [
    ("version", .number (.posInt 1)),
    ("kind", .string "tune_restore"),
    ("run_id", .number (.posInt runId)),
    ("state", .string "ready_to_restore"),
    ("mv_tag", .string intent.mvTag),
    ("initial_readings", .ofMembers [
      ("pv_ini", jsonF32 intent.initialReadings.pvIni),
      ("mv_ini", jsonF32 intent.initialReadings.mvIni),
      ("mv_range_low", jsonF32 intent.initialReadings.mvRangeLow),
      ("mv_range_high", jsonF32 intent.initialReadings.mvRangeHigh),
      ("pv_range_low", jsonF32 intent.initialReadings.pvRangeLow),
      ("pv_range_high", jsonF32 intent.initialReadings.pvRangeHigh),
      ("controller_direction", intent.initialReadings.direction.json),
      ("mode_raw", jsonOption .string intent.initialReadings.modeRaw),
      ("mode_attribute_raw", jsonOption .string intent.initialReadings.modeAttributeRaw),
      ("setpoint_ini", jsonOption jsonF32 intent.initialReadings.setpointIni)]),
    ("template_policy", .ofMembers [
      ("revert_mode", .bool intent.revertMode),
      ("mode_auto_value", .string intent.modeAutoValue),
      ("mode_manual_value", .string intent.modeManualValue),
      ("mode_attribute_program_value", jsonOption .string intent.modeAttributeProgramValue)])]

/-- The target of an audited write, as `write_target_json` makes it. -/
def TagWrite.target (tag : String) (value : TagWrite) : Json :=
  .ofMembers [
    ("tag", .string tag),
    ("value", match value with
      | .float v => jsonF32 v
      | .raw s => .string s)]

/-! ### Evidence -/

section Evidence

variable (parse : String → Option Json)

/-- `validate_restore_intent`. -/
def validateRestoreIntent (run : TuneRunRow) (intentJson : String)
    (initial : TuneRunInitialReadings) : Except Text Unit :=
  match parse intentJson with
  | none => .error (text "persisted restore intent is not valid JSON")
  | some intent =>
    if (intent.get "version").bind Json.asU64 ≠ some 1 ∨
        (intent.get "kind").bind Json.asStr ≠ some "tune_restore" ∨
        (intent.get "run_id").bind Json.asI64 ≠ some (run.id : ℤ) ∨
        (intent.get "state").bind Json.asStr ≠ some "ready_to_restore" ∨
        (intent.get "mv_tag").bind Json.asStr ≠ some run.tags.manipulatedVariable ∨
        intent.get "initial_readings" ≠ some initial.json ∨
        intent.get "template_policy" ≠ some run.template.restorePolicy then
      .error (text ("durable restore intent does not exactly match the run's recorded readings, " ++
        "tags, template policy, and version"))
    else .ok ()

/-- `parse_write_target`: the tag and the value of an audited write. -/
def parseWriteTarget (targetJson : String) : Option (String × Json) := do
  let target ← parse targetJson
  let tag ← (← target.get "tag").asStr
  let value ← target.get "value"
  return (tag, value)

/-- `validate_restore_timeout_secs`. -/
def validateRestoreTimeoutSecs (driver : DriverKind) (restoreTimeoutSecs : ℕ) : Except Text Unit :=
  if restoreTimeoutSecs = 0 then
    .error (text "[tuning].restore_timeout_secs must be greater than zero")
  else if driver = .opcda ∧ restoreTimeoutSecs < minOpcRestoreTimeoutSecs then
    .error (text "[tuning].restore_timeout_secs must be at least " ++
      [.nat minOpcRestoreTimeoutSecs] ++ text " seconds for OPC DA MV confirmation")
  else .ok ()

/-- `recovery_timing`. -/
def recoveryTiming (run : TuneRunRow) : Except Text EffectiveTiming :=
  match run.effectiveTuning with
  | none => .error (text "run " ++ [.nat run.id] ++ text " has no saved timing policy")
  | some tuning =>
    if tuning.pollIntervalMs = 0 ∨ tuning.opTimeoutSecs = 0 then
      .error (text "run " ++ [.nat run.id] ++
        text " has invalid saved poll/operation timing; recovery is blocked")
    else do
      validateRestoreTimeoutSecs .opcda tuning.restoreTimeoutSecs
      return {
        mrftDelaySecs := tuning.mrftDelaySecs
        pollIntervalMs := tuning.pollIntervalMs
        timeoutSecs := tuning.timeoutSecs
        opTimeoutSecs := tuning.opTimeoutSecs
        restoreTimeoutSecs := tuning.restoreTimeoutSecs }

/-- `initial_state_from_readings`. -/
def initialStateFromReadings (initial : TuneRunInitialReadings) : InitialState where
  pvIni := initial.pvIni
  mvIni := initial.mvIni
  pvRangeHigh := initial.pvRangeHigh
  pvRangeLow := initial.pvRangeLow
  mvRangeHigh := initial.mvRangeHigh
  mvRangeLow := initial.mvRangeLow
  direction := initial.controllerDirection
  modeRaw := initial.modeRaw
  modeAttributeRaw := initial.modeAttributeRaw
  setpointIni := initial.setpointIni

/-- An owner and a run that `recovery_eligibility` looks into: a tune that runs, or one that
failed and whose recovery may begin. -/
def provenance (run : TuneRunRow) (owner : LiveOwnershipRow) : Bool :=
  run.driver = .opcda &&
    (run.outcome = .running ||
      run.outcome = .failed &&
        (run.recoveryState = some .eligible || run.recoveryState = some .incomplete)) &&
    owner.operationKind = .tune && owner.runId = some run.id

/-- What is missing or inconsistent in the columns of a run and in its restore intent. -/
def evidenceFault (run : TuneRunRow) (restoreIntentJson : Option String) : Option Text :=
  if run.bridgeHost.all (· = "") ∨ run.opcServer.all (· = "") then
    some (text "recorded bridge host or OPC server is missing")
  else
    match run.initialReadings with
    | none => some (text "initial controller readings are missing")
    | some initial =>
      let initialSetpointIsRequired :=
        run.template.revertMode && run.tags.controllerMode.isSome &&
          initial.modeRaw = some run.template.modeAutoValue && run.tags.setpointVariable.isSome
      if initialSetpointIsRequired && initial.setpointIni.isNone then
        some (text "the configured setpoint tag has no recorded initial value")
      else
        match restoreIntentJson with
        | none => some (text "durable restore intent is missing")
        | some intentJson =>
          match validateRestoreIntent parse run intentJson initial with
          | .error error => some error
          | .ok () =>
            if run.effectiveTuning.isNone then
              some (text "recorded restore timing policy is missing")
            else
              match recoveryTiming run with
              | .error error =>
                some (text "recorded restore timing policy is invalid: " ++ error)
              | .ok _ =>
                match run.config.validate with
                | .error error =>
                  some (text "recorded loop configuration is invalid: " ++ error.message)
                | .ok () =>
                  if !(validateInitialState (initialStateFromReadings initial)).toBool ||
                      (run.tags.controllerMode.isSome && initial.modeRaw.isNone) ||
                      (run.tags.modeAttribute.isSome && initial.modeAttributeRaw.isNone) then
                    some (text ("persisted initial readings fail range, finiteness, or " ++
                      "tagged-mode validation"))
                  else none

/-- The tags that a tune of the loop may mutate. -/
def LoopTags.allowedTags (tags : LoopTags) : List String :=
  [some tags.manipulatedVariable, tags.controllerMode, tags.modeAttribute,
    tags.setpointVariable].reduceOption

/-- The audited mutations that count: writes to the controller that may have been made. -/
def LiveMutationStepRow.counts (x : LiveMutationStepRow) : Bool :=
  x.step = "controller_write" && x.status ≠ .notNeeded

/-- The loop of `recovery_eligibility` over the audited mutations. -/
def auditFault (tags : LoopTags) (mutationSeen : Bool) : List LiveMutationStepRow → Option Text
  | [] =>
    if mutationSeen then none
    else
      some (text ("no durable audit records a possible mutation to the loop's MV, mode, " ++
        "setpoint, or mode attribute"))
  | x :: rest =>
    if x.counts then
      match parseWriteTarget parse x.targetJson with
      | none => some (text "a controller-write audit target is malformed")
      | some (tag, _) => auditFault tags (mutationSeen || tag ∈ tags.allowedTags) rest
    else auditFault tags mutationSeen rest

/-- `recovery_eligibility`. -/
def recoveryEligibility (run : TuneRunRow) (owner : LiveOwnershipRow)
    (steps : List LiveMutationStepRow) : Bool × Text :=
  if !provenance run owner then
    (false, text "run and owner provenance does not identify a running OPC DA tune")
  else
    match evidenceFault parse run owner.restoreIntentJson with
    | some detail => (false, detail)
    | none =>
      match auditFault parse run.tags false steps with
      | some detail => (false, detail)
      | none => (true, text "complete structured restore and mutation evidence is present")

/-- `mutation_guard`. -/
def mutationGuard (run : TuneRunRow) (steps : List LiveMutationStepRow) : MutationGuard :=
  let wasWritten (tag : Option String) (expected : Option Json) : Bool :=
    tag.any fun tag => steps.any fun x =>
      x.counts && (parseWriteTarget parse x.targetJson).any fun (writtenTag, writtenValue) =>
        writtenTag = tag && expected.all (· = writtenValue)
  { modeAttributeWritten := wasWritten run.tags.modeAttribute
      (run.template.modeAttributeProgramValue.map .string)
    modeWritten := wasWritten run.tags.controllerMode
      (some (.string run.template.modeManualValue))
    mvWritten := wasWritten (some run.tags.manipulatedVariable) none }

end Evidence

section Eligibility

variable {parse : String → Option Json}

/-- An audited write that counts and can be read has this tag. -/
def LiveMutationStepRow.Mutates (parse : String → Option Json) (tag : String)
    (x : LiveMutationStepRow) : Prop :=
  x.counts = true ∧ ∃ value, parseWriteTarget parse x.targetJson = some (tag, value)

/-- The audit is in order when every write that counts can be read, and one has an allowed tag. -/
theorem auditFault_iff (tags : LoopTags) (mutationSeen : Bool) (steps : List LiveMutationStepRow) :
    auditFault parse tags mutationSeen steps = none ↔
      (∀ x ∈ steps, x.counts = true → ∃ tag, x.Mutates parse tag) ∧
        (mutationSeen = true ∨ ∃ x ∈ steps, ∃ tag ∈ tags.allowedTags, x.Mutates parse tag) := by
  induction steps generalizing mutationSeen with
  | nil => cases mutationSeen <;> simp [auditFault]
  | cons x rest ih =>
    unfold auditFault
    by_cases hcounts : x.counts = true
    · rw [if_pos hcounts]
      cases htarget : parseWriteTarget parse x.targetJson with
      | none => simp [LiveMutationStepRow.Mutates, hcounts, htarget]
      | some target =>
        obtain ⟨tag, value⟩ := target
        dsimp only
        rw [ih]
        simp [LiveMutationStepRow.Mutates, hcounts, htarget, or_assoc]
    · rw [if_neg hcounts, ih]
      simp [LiveMutationStepRow.Mutates, hcounts]

theorem recoveryEligibility_iff (run : TuneRunRow) (owner : LiveOwnershipRow)
    (steps : List LiveMutationStepRow) :
    (recoveryEligibility parse run owner steps).1 = true ↔
      provenance run owner = true ∧ evidenceFault parse run owner.restoreIntentJson = none ∧
        auditFault parse run.tags false steps = none := by
  unfold recoveryEligibility
  cases provenance run owner with
  | false => simp
  | true =>
    cases evidenceFault parse run owner.restoreIntentJson with
    | some detail => simp
    | none => cases auditFault parse run.tags false steps <;> simp

/-- Eligibility does not depend on the order of the steps. -/
theorem recoveryEligibility_congr (run : TuneRunRow) (owner : LiveOwnershipRow)
    {steps steps' : List LiveMutationStepRow} (h : ∀ x, x ∈ steps ↔ x ∈ steps') :
    (recoveryEligibility parse run owner steps).1 =
      (recoveryEligibility parse run owner steps').1 := by
  rw [Bool.eq_iff_iff, recoveryEligibility_iff, recoveryEligibility_iff, auditFault_iff,
    auditFault_iff]
  simp only [h]

end Eligibility

/-! ### What `restore-loop` looks up -/

/-- The `Debug` text of a `TuneDriver`. -/
def TuneDriver.debug : TuneDriver → String
  | .opcda => "Opcda"
  | .simulator => "Simulator"
  | .replay => "Replay"

/-- `load_recovery_run`. -/
def Tables.loadRecoveryRun (t : Tables) (runId : ℕ) : Except Text TuneRunRow :=
  match t.runs.find? fun r => r.id = runId with
  | none => .error (text "no run with id " ++ [.nat runId])
  | some run =>
    if run.driver ≠ .opcda then
      .error (text "run " ++ [.nat runId] ++ text " used the " ++ text run.driver.debug ++
        text " driver; only a live OPC DA tune can be restored")
    else if run.outcome ≠ .failed ∨
        ¬(run.recoveryState = some .eligible ∨ run.recoveryState = some .incomplete) then
      .error (text "run " ++ [.nat runId] ++
        text (" is not an explicitly eligible orphaned run; legacy and active rows fail closed"))
    else .ok run

/-- A tune owner of the run that was orphaned with complete evidence. -/
def LiveOwnershipRow.eligibleSource (runId : ℕ) (owner : LiveOwnershipRow) : Bool :=
  owner.operationKind = .tune && owner.runId = some runId && owner.state = .orphaned &&
    owner.orphanEligible

/-- `recovery_source_owner`. -/
def Tables.recoverySourceOwner (t : Tables) (run : TuneRunRow) : Except Text LiveOwnershipRow :=
  match t.owners.filter (LiveOwnershipRow.eligibleSource run.id) with
  | [owner] => .ok owner
  | eligible =>
    .error (text "run " ++ [.nat run.id] ++ text " has " ++ [.nat eligible.length] ++
      text " eligible orphan ownership records; exactly one is required")

/-- `ORDER BY time, id` of rows that are listed by their numbers. -/
def orderedBy {ρ : Type} (time : ρ → UtcTime) (rows : List ρ) : List ρ :=
  rows.insertionSort fun a b => time a ≤ time b

theorem mem_orderedBy {ρ : Type} {time : ρ → UtcTime} {rows : List ρ} {r : ρ} :
    r ∈ orderedBy time rows ↔ r ∈ rows := List.mem_insertionSort _

/-- `LiveMutationStepRow::list_for_run`. -/
def Tables.stepsOfRun (t : Tables) (runId : ℕ) : List LiveMutationStepRow :=
  orderedBy LiveMutationStepRow.startedAt (t.steps.filter fun x => x.runId = some runId)

/-- `LiveMutationStepRow::list_for_owner`, in the order of insertion. -/
def Tables.stepsOfOwner (t : Tables) (ownerId : ℕ) : List LiveMutationStepRow :=
  t.steps.filter fun x => x.ownerId = ownerId

/-- `validate_recovery_run`. -/
def validateRecoveryRun (parse : String → Option Json) (run : TuneRunRow)
    (sourceOwner : LiveOwnershipRow) (sourceSteps : List LiveMutationStepRow) :
    Except Text Unit :=
  if !sourceOwner.eligibleSource run.id then
    .error (text "run " ++ [.nat run.id] ++
      text " has no matching eligible orphaned tune owner; recovery is blocked")
  else
    match recoveryEligibility parse run sourceOwner sourceSteps with
    | (true, _) => .ok ()
    | (false, detail) =>
      .error (text "run " ++ [.nat run.id] ++
        text " lacks complete structured restore evidence (" ++ detail ++
        text "); use operator-guided manual restore")

/-! ### The sweep of a dead tune -/

/-- The failure reason of an orphaned run. -/
def orphanDetail (eligible : Bool) : String :=
  if eligible then
    "the live tune process ended with a durably recorded restore intent and controller " ++
      "mutation; use \x60bhtune restore-loop --yes\x60 after reviewing the exported evidence"
  else
    "the live tune process ended, but its persisted ownership or mutation evidence is " ++
      "insufficient for automated recovery; inspect the exported evidence and restore the loop " ++
      "manually"

/-- The resource of the connection that is recorded with a run. -/
def TuneRunRow.recordedResource (run : TuneRunRow) : Option ResourceKey :=
  match run.bridgeHost, run.opcServer with
  | some host, some server => some (resourceKey host server run.tags.manipulatedVariable)
  | _, _ => none

/-- What `mark_stale_tune_orphan` makes of the steps of the run: the evidence is complete, and of
the resource that the owner holds. -/
def orphanEligibility (parse : String → Option Json) (run : TuneRunRow)
    (owner : LiveOwnershipRow) (mutationSteps : List LiveMutationStepRow) : Bool × Text :=
  let ownerSteps := mutationSteps.filter fun x => x.ownerId = owner.id
  let (eligible, detail) := recoveryEligibility parse run owner ownerSteps
  let resourceMatches : Bool := run.recordedResource = some owner.resourceKey
  if eligible && !resourceMatches then
    (false, text ("recorded database/controller/MV identity does not match the owner's " ++
      "canonical resource key"))
  else (eligible, detail)

theorem orphanEligibility_iff (parse : String → Option Json) (run : TuneRunRow)
    (owner : LiveOwnershipRow) (mutationSteps : List LiveMutationStepRow) :
    (orphanEligibility parse run owner mutationSteps).1 = true ↔
      (recoveryEligibility parse run owner
        (mutationSteps.filter fun x => x.ownerId = owner.id)).1 = true ∧
      run.recordedResource = some owner.resourceKey := by
  dsimp only [orphanEligibility]
  generalize recoveryEligibility parse run owner
    (mutationSteps.filter fun x => x.ownerId = owner.id) = found
  obtain ⟨eligible, detail⟩ := found
  by_cases hresource : run.recordedResource = some owner.resourceKey
  · rw [decide_eq_true hresource, Bool.not_true, Bool.and_false, if_neg Bool.false_ne_true]
    exact ⟨fun h => ⟨h, hresource⟩, fun h => h.1⟩
  · rw [decide_eq_false hresource, Bool.not_false, Bool.and_true]
    refine ⟨fun h => ?_, fun h => absurd h.2 hresource⟩
    cases eligible with
    | false => cases h
    | true => cases h

/-- The end of `mark_stale_tune_orphan`: whether the run is eligible, or nothing when the owner has
changed meanwhile. -/
def markTuneOrphan (owner : LiveOwnershipRow) (recordedClaimKey : ClaimKey) (now : UtcTime)
    (evidenceJson : String) (eligible : Bool) : DbM (Option Bool) := do
  let marked ← LiveOwnershipRow.markOrphaned {
    ownerId := owner.id
    expectedHeartbeat := owner.heartbeatAt
    expectedClaimKey := recordedClaimKey
    now := now
    evidenceJson := evidenceJson
    eligible := eligible
    detail := orphanDetail eligible }
  return if marked then some eligible else none

/-- `mark_stale_tune_orphan`, without the rows that it only exports. -/
def markStaleTuneOrphan (parse : String → Option Json) (run : TuneRunRow)
    (owner : LiveOwnershipRow) (recordedClaimKey : ClaimKey) (now : UtcTime)
    (evidence : Bool → Text → String) : DbM (Option Bool) := do
  let mutationSteps ← query .query fun t => t.stepsOfRun run.id
  let (eligible, detail) := orphanEligibility parse run owner mutationSteps
  markTuneOrphan owner recordedClaimKey now (evidence eligible detail) eligible

end Bhtune
