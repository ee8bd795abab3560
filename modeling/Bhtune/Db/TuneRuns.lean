import Bhtune.Db.Rows

/-!
# The rows of runs, statement by statement

The functions of `models/tune_runs.rs` that change a run, and the age-based deletion of
`retention.rs`.  Each of them is one statement.
-/

namespace Bhtune

open Table Transaction

/-- What a run is started with. -/
structure NewTuneRun where
  demoSessionId : Option ℕ
  loopId : Option ℕ
  driver : TuneDriver
  config : LoopConfig ℚ
  templateOrigin : TemplateOrigin
  template : DcsTemplate
  tags : LoopTags
  now : UtcTime

/-- The row of a run that has just been started. -/
def NewTuneRun.row (new : NewTuneRun) (id : ℕ) : TuneRunRow where
  id := id
  loopId := new.loopId
  demoSessionId := new.demoSessionId
  driver := new.driver
  opcServer := none
  bridgeHost := none
  startedAt := new.now
  completedAt := none
  outcome := .running
  failureReason := none
  config := new.config
  templateOrigin := new.templateOrigin
  template := new.template
  tags := new.tags
  initialReadings := none
  allowUncertainQuality := false
  effectiveTuning := none
  gatewayCompatibilityJson := none
  restoreStatus := none
  restoreDetail := none
  recoveryState := none
  recoveryEvidenceJson := none

/-- What one of the follow-up updates of a run sets. -/
inductive RunUpdate where
  | connection (opcServer bridgeHost : Option String)
  | effectiveTuning (tuning : EffectiveTuning)
  | gatewayCompatibility (json : String)
  | initialReadings (readings : TuneRunInitialReadings)
  | allowUncertainQuality (allow : Bool)
  | restoreStatus (status : RestoreStatus) (detail : Option String)
  | completed (time : UtcTime)
  | failed (time : UtcTime) (reason : String)
  | aborted (time : UtcTime)
  | completedWithTimingMetrics (time : UtcTime)
  | abortedWithTimingMetrics (time : UtcTime) (reason : Option String)

/-- The columns of the `SET` clause. -/
def RunUpdate.apply (u : RunUpdate) (r : TuneRunRow) : TuneRunRow :=
  match u with
  | .connection opcServer bridgeHost => { r with opcServer := opcServer, bridgeHost := bridgeHost }
  | .effectiveTuning tuning => { r with effectiveTuning := some tuning }
  | .gatewayCompatibility json => { r with gatewayCompatibilityJson := some json }
  | .initialReadings readings => { r with initialReadings := some readings }
  | .allowUncertainQuality allow => { r with allowUncertainQuality := allow }
  | .restoreStatus status detail => { r with restoreStatus := some status, restoreDetail := detail }
  | .completed time => { r with outcome := .completed, completedAt := some time }
  | .failed time reason =>
    { r with outcome := .failed, completedAt := some time, failureReason := some reason }
  | .aborted time => { r with outcome := .aborted, completedAt := some time }
  | .completedWithTimingMetrics time =>
    { r with outcome := .completed, completedAt := some time, failureReason := none }
  | .abortedWithTimingMetrics time reason =>
    { r with outcome := .aborted, completedAt := some time, failureReason := reason }

/-- Criteria of `list`, `count` and `delete_matching`; without any, every run matches. -/
structure TuneRunFilter where
  loopId : Option ℕ := none
  demoSessionId : Option ℕ := none
  processType : Option ProcessType := none
  controllerType : Option ControllerType := none
  outcome : Option TuneOutcome := none
  driver : Option TuneDriver := none
  opcServer : Option String := none
  bridgeHost : Option String := none
  startedAfter : Option UtcTime := none
  startedBefore : Option UtcTime := none
  templateName : Option String := none
  templateOrigin : Option TemplateOrigin := none

/-- `AND column = ?` for a criterion that is given. -/
def filterEq {α : Type} [DecidableEq α] (criterion column : Option α) : Bool :=
  criterion.all fun x => column = some x

/-- `push_filter`: the conditions of a filter. -/
def TuneRunFilter.matches (filter : TuneRunFilter) (r : TuneRunRow) : Bool :=
  filterEq filter.loopId r.loopId &&
  filterEq filter.demoSessionId r.demoSessionId &&
  filterEq filter.processType (some r.config.processType) &&
  filterEq filter.controllerType (some r.config.controllerType) &&
  filterEq filter.outcome (some r.outcome) &&
  filterEq filter.driver (some r.driver) &&
  filterEq filter.opcServer r.opcServer &&
  filterEq filter.bridgeHost r.bridgeHost &&
  (filter.startedAfter.all fun t => t ≤ r.startedAt) &&
  (filter.startedBefore.all fun t => r.startedAt ≤ t) &&
  filterEq filter.templateName (some r.template.name) &&
  filterEq filter.templateOrigin (some r.templateOrigin)

/-- `push_deletable_recovery_guard`: no unresolved live recovery. -/
def TuneRunRow.deletable (r : TuneRunRow) : Bool :=
  match r.recoveryState with
  | some .eligible | some .running | some .incomplete => false
  | _ => true

/-- `DELETE FROM tune_runs WHERE p`, with what the foreign keys delete along with a run: its
owners, their claims and steps, and its recovery attempts. -/
def Tables.deleteRuns (t : Tables) (p : TuneRunRow → Bool) : Tables :=
  let gone (id : ℕ) : Bool := t.runs.any fun r => r.id = id && p r
  let goneOwner (id : ℕ) : Bool := t.owners.any fun o => o.id = id && o.runId.any gone
  { t with
    runs := deleteWhere p t.runs
    owners := deleteWhere (fun o => o.runId.any gone) t.owners
    claims := deleteWhere (fun c => goneOwner c.ownerId) t.claims
    steps := deleteWhere (fun x => goneOwner x.ownerId || x.runId.any gone) t.steps
    attempts := deleteWhere (fun a => gone a.runId) t.attempts }

namespace TuneRunRow

/-- `TuneRunRow::start_with_demo_session`; an invalid session is one reason for a refusal. -/
def startWithDemoSession (new : NewTuneRun) : DbM TuneRunRow :=
  statement .query fun t =>
    ({ t with runs := t.runs ++ [new.row t.nextRun], nextRun := t.nextRun + 1 },
      new.row t.nextRun)

/-- `UPDATE tune_runs SET … WHERE id = ? RETURNING *`. -/
def updateRow (runId : ℕ) (u : RunUpdate) : DbM TuneRunRow := do
  let row ← statement .query fun t =>
    ({ t with runs := updateWhere (fun r => r.id = runId) u.apply t.runs },
      (t.runs.find? fun r => r.id = runId).map u.apply)
  match row with
  | none => throw .query
  | some row => return row

/-- `TuneRunRow::record_connection`. -/
def recordConnection (runId : ℕ) (opcServer bridgeHost : Option String) : DbM TuneRunRow :=
  updateRow runId (.connection opcServer bridgeHost)

/-- `TuneRunRow::record_effective_tuning`. -/
def recordEffectiveTuning (runId : ℕ) (tuning : EffectiveTuning) : DbM TuneRunRow :=
  updateRow runId (.effectiveTuning tuning)

/-- `TuneRunRow::record_gateway_compatibility`. -/
def recordGatewayCompatibility (runId : ℕ) (json : String) : DbM TuneRunRow :=
  updateRow runId (.gatewayCompatibility json)

/-- `TuneRunRow::record_initial_readings`. -/
def recordInitialReadings (runId : ℕ) (readings : TuneRunInitialReadings) : DbM TuneRunRow :=
  updateRow runId (.initialReadings readings)

/-- `TuneRunRow::record_allow_uncertain_quality`. -/
def recordAllowUncertainQuality (runId : ℕ) (allow : Bool) : DbM TuneRunRow :=
  updateRow runId (.allowUncertainQuality allow)

/-- `TuneRunRow::record_restore_status`. -/
def recordRestoreStatus (runId : ℕ) (status : RestoreStatus) (detail : Option String) :
    DbM TuneRunRow :=
  updateRow runId (.restoreStatus status detail)

/-- `TuneRunRow::complete`. -/
def complete (runId : ℕ) (completedAt : UtcTime) : DbM TuneRunRow :=
  updateRow runId (.completed completedAt)

/-- `TuneRunRow::fail`. -/
def fail (runId : ℕ) (completedAt : UtcTime) (failureReason : String) : DbM TuneRunRow :=
  updateRow runId (.failed completedAt failureReason)

/-- `TuneRunRow::abort`. -/
def abort (runId : ℕ) (completedAt : UtcTime) : DbM TuneRunRow :=
  updateRow runId (.aborted completedAt)

/-- `TuneRunRow::complete_with_timing_metrics`. -/
def completeWithTimingMetrics (runId : ℕ) (completedAt : UtcTime) : DbM TuneRunRow :=
  updateRow runId (.completedWithTimingMetrics completedAt)

/-- `TuneRunRow::abort_with_timing_metrics` and `abort_with_timing_metrics_and_reason`. -/
def abortWithTimingMetrics (runId : ℕ) (completedAt : UtcTime) (reason : Option String) :
    DbM TuneRunRow :=
  updateRow runId (.abortedWithTimingMetrics completedAt reason)

/-- `TuneRunRow::count_deletable_matching`. -/
def countDeletableMatching (filter : TuneRunFilter) : DbM ℕ :=
  query .query fun t => affected (fun r => filter.matches r && r.deletable) t.runs

/-- `TuneRunRow::delete`. -/
def delete (id : ℕ) : DbM Bool :=
  statement .query fun t =>
    (t.deleteRuns fun r => r.id = id && r.deletable,
      0 < affected (fun r : TuneRunRow => r.id = id && r.deletable) t.runs)

/-- `TuneRunRow::delete_matching`. -/
def deleteMatching (filter : TuneRunFilter) : DbM ℕ :=
  statement .query fun t =>
    (t.deleteRuns fun r => filter.matches r && r.deletable,
      affected (fun r => filter.matches r && r.deletable) t.runs)

end TuneRunRow

/-- `cutoff_for`: `days` days before `now`. -/
def cutoffFor (days : UInt32) (now : UtcTime) : UtcTime := now - seconds (86400 * days.toNat)

/-- `sweep_retention`, the sweep of every startup, of the server's timer and of
`bhtune history prune`. -/
def sweepRetention (days : UInt32) (now : UtcTime) : DbM ℕ :=
  TuneRunRow.deleteMatching { startedBefore := some (cutoffFor days now) }

/-- `prune` of `commands/history.rs`: the number of runs, or nothing without a policy. -/
def prune (retentionDays olderThanDays : Option UInt32) (dryRun : Bool) (now : UtcTime) :
    DbM (Option ℕ) :=
  match olderThanDays <|> retentionDays with
  | none => return none
  | some days => do
    let deleted ←
      if dryRun then
        TuneRunRow.countDeletableMatching { startedBefore := some (cutoffFor days now) }
      else sweepRetention days now
    return some deleted

end Bhtune
