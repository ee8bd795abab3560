import Bhtune.Db.Rows

/-!
# Ownership, claims and recovery attempts, statement by statement

The transactions of `models/live_ownership.rs`.  A function of the source that opens a transaction
is `atomically` of a body; `onlyOne` is the test on `rows_affected` that follows most of its
statements, with the result of the rollback when it fails.  The `WHERE` of a statement is a
predicate on the row, with the tables at hand for its subqueries.
-/

namespace Bhtune

open Table Transaction

/-! ### Statements -/

/-- `UPDATE live_operation_owners`. -/
def updateOwners (p : Tables → LiveOwnershipRow → Bool)
    (f : LiveOwnershipRow → LiveOwnershipRow) : DbM ℕ :=
  statement .query fun t =>
    ({ t with owners := updateWhere (p t) f t.owners }, affected (p t) t.owners)

/-- `UPDATE live_operation_claims`. -/
def updateClaims (p : Tables → LiveOperationClaim → Bool)
    (f : LiveOperationClaim → LiveOperationClaim) : DbM ℕ :=
  statement .query fun t =>
    ({ t with claims := updateWhere (p t) f t.claims }, affected (p t) t.claims)

/-- `DELETE FROM live_operation_claims`. -/
def deleteClaims (p : LiveOperationClaim → Bool) : DbM ℕ :=
  statement .query fun t => ({ t with claims := deleteWhere p t.claims }, affected p t.claims)

/-- `UPDATE tune_runs`. -/
def updateRuns (p : Tables → TuneRunRow → Bool) (f : TuneRunRow → TuneRunRow) : DbM ℕ :=
  statement .query fun t =>
    ({ t with runs := updateWhere (p t) f t.runs }, affected (p t) t.runs)

/-- `UPDATE tune_recovery_attempts`. -/
def updateAttempts (p : TuneRecoveryAttemptRow → Bool)
    (f : TuneRecoveryAttemptRow → TuneRecoveryAttemptRow) : DbM ℕ :=
  statement .query fun t =>
    ({ t with attempts := updateWhere p f t.attempts }, affected p t.attempts)

/-- `EXISTS (SELECT 1 FROM live_operation_claims WHERE owner_id = ?)`. -/
def Tables.claimed (t : Tables) (ownerId : ℕ) : Bool := t.claims.any fun c => c.ownerId = ownerId

/-- The same with `AND claim_key = ?`. -/
def Tables.claimedAs (t : Tables) (ownerId : ℕ) (claimKey : ClaimKey) : Bool :=
  t.claims.any fun c => c.ownerId = ownerId && c.claimKey = claimKey

/-- `EXISTS (SELECT 1 FROM live_operation_owners WHERE id = ? AND run_id = ? AND …)`. -/
def Tables.hasOwner (t : Tables) (ownerId runId : ℕ) (p : LiveOwnershipRow → Bool) : Bool :=
  t.owners.any fun o => o.id = ownerId && o.runId = some runId && p o

/-! ### Transactions -/

/-- How the statements of a transaction end. -/
abbrev Ending (α : Type) := Verdict DbError α

/-- `pool.begin()` to `commit()`. -/
def atomically {α : Type} (body : DbM (Ending α)) : DbM α := transaction .query body

/-- Goes on when a statement was about one row, and is rolled back with `lost` otherwise. -/
def onlyOne {α : Type} (rows : DbM ℕ) (lost : Except DbError α) (rest : DbM (Ending α)) :
    DbM (Ending α) := do
  if (← rows) = 1 then rest else return .rollback lost

/-! ### Owners -/

/-- `NewLiveOwnership`. -/
structure NewLiveOwnership where
  runId : Option ℕ
  operationKind : LiveOperationKind
  databaseKey : String
  resourceKey : ResourceKey
  ownerPid : ℕ
  acquiredAt : UtcTime
  restoreIntentJson : Option String

/-- The row that `NewLiveOwnership` becomes. -/
def NewLiveOwnership.row (new : NewLiveOwnership) (id : ℕ) : LiveOwnershipRow where
  id := id
  runId := new.runId
  operationKind := new.operationKind
  databaseKey := new.databaseKey
  resourceKey := new.resourceKey
  ownerPid := new.ownerPid
  acquiredAt := new.acquiredAt
  heartbeatAt := new.acquiredAt
  releasedAt := none
  state := .active
  restoreIntentJson := new.restoreIntentJson
  orphanEligible := false
  orphanEvidenceJson := none

/-- `INSERT INTO live_operation_owners … RETURNING *`. -/
def insertOwner (new : NewLiveOwnership) : DbM LiveOwnershipRow :=
  statement .query fun t =>
    ({ t with owners := t.owners ++ [new.row t.nextOwner], nextOwner := t.nextOwner + 1 },
      new.row t.nextOwner)

/-- `INSERT INTO live_operation_claims`. -/
def insertClaim (claim : LiveOperationClaim) : DbM Unit :=
  statement .query fun t => ({ t with claims := t.claims ++ [claim] }, ())

/-- The same with `ON CONFLICT(claim_key) DO NOTHING`. -/
def insertClaimOrNothing (claim : LiveOperationClaim) : DbM ℕ :=
  statement .query fun t =>
    if t.claims.any fun c => c.claimKey = claim.claimKey then (t, 0)
    else ({ t with claims := t.claims ++ [claim] }, 1)

namespace LiveOwnershipRow

/-- `LiveOwnershipRow::create_and_claim`. -/
def createAndClaim (new : NewLiveOwnership) (claimKey : ClaimKey) :
    DbM (Option LiveOwnershipRow) :=
  atomically do
    let owner ← insertOwner new
    onlyOne (insertClaimOrNothing ⟨claimKey, owner.id, new.acquiredAt⟩) (.ok none) do
      return .commit (some owner)

/-- The rows of an owner that may still act: active, and with its claim. -/
def holding (ownerId : ℕ) (t : Tables) (o : LiveOwnershipRow) : Bool :=
  o.id = ownerId && o.state = .active && t.claimed ownerId

/-- One statement about an owner that must still hold its claim. -/
def updateHolding (ownerId : ℕ) (f : LiveOwnershipRow → LiveOwnershipRow) : DbM Unit := do
  if (← updateOwners (holding ownerId) f) ≠ 1 then throw .liveOwnershipLost

/-- `LiveOwnershipRow::heartbeat`. -/
def heartbeat (ownerId : ℕ) (now : UtcTime) : DbM Unit :=
  updateHolding ownerId fun o => { o with heartbeatAt := now }

/-- `LiveOwnershipRow::set_restore_intent`. -/
def setRestoreIntent (ownerId : ℕ) (intentJson : String) : DbM Unit :=
  updateHolding ownerId fun o => { o with restoreIntentJson := some intentJson }

/-- The `SET` clause that retires an owner whose work is done. -/
def setReleased (now : UtcTime) (o : LiveOwnershipRow) : LiveOwnershipRow :=
  { o with state := .released, releasedAt := some now }

/-- `LiveOwnershipRow::release`. -/
def release (ownerId : ℕ) (now : UtcTime) : DbM Unit :=
  atomically <|
    onlyOne (updateOwners (holding ownerId) (setReleased now)) (.error .liveOwnershipLost) <|
    onlyOne (deleteClaims fun c => c.ownerId = ownerId) (.error .liveOwnershipLost) do
      return .commit ()

/-- `OrphanOwnerUpdate`. -/
structure OrphanOwnerUpdate where
  ownerId : ℕ
  expectedHeartbeat : UtcTime
  expectedClaimKey : ClaimKey
  now : UtcTime
  evidenceJson : String
  eligible : Bool
  detail : String

/-- The `recovery_state` an orphaned run gets. -/
def OrphanOwnerUpdate.state (update : OrphanOwnerUpdate) : TuneRecoveryState :=
  if update.eligible then .eligible else .notRecoverable

/-- What `mark_orphaned` sets of the owner. -/
def OrphanOwnerUpdate.setOwner (update : OrphanOwnerUpdate) (o : LiveOwnershipRow) :
    LiveOwnershipRow :=
  { o with
    state := .orphaned
    releasedAt := some update.now
    orphanEligible := update.eligible
    orphanEvidenceJson := some update.evidenceJson }

/-- What `mark_orphaned` sets of the run. -/
def OrphanOwnerUpdate.setRun (update : OrphanOwnerUpdate) (r : TuneRunRow) : TuneRunRow :=
  { r with
    outcome := .failed
    completedAt := some update.now
    failureReason := some update.detail
    restoreStatus := some .incomplete
    restoreDetail := some update.detail
    recoveryState := some update.state
    recoveryEvidenceJson := some update.evidenceJson }

/-- `LiveOwnershipRow::mark_orphaned`. -/
def markOrphaned (update : OrphanOwnerUpdate) : DbM Bool :=
  atomically <|
    onlyOne (updateOwners
      (fun t o => o.id = update.ownerId && o.state = .active &&
        o.heartbeatAt = update.expectedHeartbeat && o.operationKind = .tune &&
        (t.runs.any fun r => some r.id = o.runId && r.driver = .opcda && r.outcome = .running) &&
        t.claimedAs o.id update.expectedClaimKey) update.setOwner) (.ok false) <|
    onlyOne (updateRuns
      (fun t r => (t.owners.any fun o => o.id = update.ownerId && o.runId = some r.id) &&
        r.outcome = .running) update.setRun) (.ok false) do
      if !update.eligible then
        let _ ← deleteClaims fun c => c.ownerId = update.ownerId
        return .commit true
      else
        return .commit true

/-- `UnrecoverableOwnerUpdate`. -/
structure UnrecoverableOwnerUpdate where
  ownerId : ℕ
  expectedHeartbeat : UtcTime
  expectedClaimKey : ClaimKey
  now : UtcTime
  evidenceJson : String
  failRunningRunId : Option ℕ
  detail : String

/-- What `mark_orphaned_unrecoverable` sets of the owner. -/
def UnrecoverableOwnerUpdate.setOwner (update : UnrecoverableOwnerUpdate)
    (o : LiveOwnershipRow) : LiveOwnershipRow :=
  { o with
    state := .orphaned
    releasedAt := some update.now
    orphanEligible := false
    orphanEvidenceJson := some update.evidenceJson }

/-- What `mark_orphaned_unrecoverable` sets of the run. -/
def UnrecoverableOwnerUpdate.setRun (update : UnrecoverableOwnerUpdate) (r : TuneRunRow) :
    TuneRunRow :=
  { r with
    outcome := .failed
    completedAt := some update.now
    failureReason := some update.detail
    restoreStatus := some .incomplete
    restoreDetail := some update.detail
    recoveryState := some .notRecoverable
    recoveryEvidenceJson := some update.evidenceJson }

/-- The end of `mark_orphaned_unrecoverable`: the claim goes. -/
def retireClaim (update : UnrecoverableOwnerUpdate) : DbM (Ending Bool) :=
  onlyOne (deleteClaims fun c =>
    c.ownerId = update.ownerId && c.claimKey = update.expectedClaimKey) (.ok false) do
    return .commit true

/-- `LiveOwnershipRow::mark_orphaned_unrecoverable`. -/
def markOrphanedUnrecoverable (update : UnrecoverableOwnerUpdate) : DbM Bool :=
  atomically <|
    onlyOne (updateOwners
      (fun t o => o.id = update.ownerId && o.state = .active &&
        o.heartbeatAt = update.expectedHeartbeat && t.claimedAs o.id update.expectedClaimKey)
      update.setOwner) (.ok false) <|
    match update.failRunningRunId with
    | none => retireClaim update
    | some runId =>
      onlyOne (updateRuns
        (fun t r => r.id = runId && r.outcome = .running &&
          t.hasOwner update.ownerId runId fun o => o.state = .orphaned) update.setRun)
        (.ok false) <|
      retireClaim update

end LiveOwnershipRow

/-! ### Audited mutations -/

/-- `NewLiveMutationStep`. -/
structure NewLiveMutationStep where
  ownerId : ℕ
  runId : Option ℕ
  step : String
  targetJson : String
  previousJson : Option String
  startedAt : UtcTime

/-- The row that `NewLiveMutationStep` becomes. -/
def NewLiveMutationStep.row (new : NewLiveMutationStep) (id : ℕ) : LiveMutationStepRow where
  id := id
  ownerId := new.ownerId
  runId := new.runId
  step := new.step
  targetJson := new.targetJson
  previousJson := new.previousJson
  status := .intent
  startedAt := new.startedAt
  completedAt := none
  readbackJson := none
  detail := none

/-- Whether `owner_id` may record a mutation: it is an active owner of the run, with its claim. -/
def Tables.mayMutate (t : Tables) (ownerId : ℕ) (runId : Option ℕ) : Bool :=
  (t.owners.any fun o => o.id = ownerId && o.runId = runId && o.state = .active) &&
    t.claimed ownerId

namespace LiveMutationStepRow

/-- `LiveMutationStepRow::begin`. -/
def begin (new : NewLiveMutationStep) : DbM LiveMutationStepRow := do
  let row ← statement .query fun t =>
    if t.mayMutate new.ownerId new.runId then
      ({ t with steps := t.steps ++ [new.row t.nextStep], nextStep := t.nextStep + 1 },
        some (new.row t.nextStep))
    else (t, none)
  match row with
  | none => throw .liveOwnershipLost
  | some row => return row

/-- The step that is still open. -/
def openStep (stepId : ℕ) (x : LiveMutationStepRow) : Bool := x.id = stepId && x.status = .intent

/-- `LiveMutationStepRow::finish`. -/
def finish (stepId : ℕ) (status : MutationStepStatus) (now : UtcTime)
    (readbackJson detail : Option String) : DbM LiveMutationStepRow := do
  if status = .intent then throw .liveOwnershipLost
  else
    let finished (x : LiveMutationStepRow) : LiveMutationStepRow :=
      { x with
        status := status
        completedAt := some now
        readbackJson := readbackJson
        detail := detail }
    let row ← statement .query fun t =>
      ({ t with steps := updateWhere (openStep stepId) finished t.steps },
        (t.steps.find? (openStep stepId)).map finished)
    match row with
    | none => throw .query
    | some row => return row

end LiveMutationStepRow

/-! ### Recovery attempts -/

/-- `INSERT INTO tune_recovery_attempts … SELECT … WHERE p RETURNING *`. -/
def insertAttemptIf (p : Tables → Bool) (row : ℕ → TuneRecoveryAttemptRow) :
    DbM (Option TuneRecoveryAttemptRow) :=
  statement .query fun t =>
    if p t then
      ({ t with attempts := t.attempts ++ [row t.nextAttempt], nextAttempt := t.nextAttempt + 1 },
        some (row t.nextAttempt))
    else (t, none)

/-- The owner whose orphaned run may be restored. -/
def LiveOwnershipRow.recoverable (o : LiveOwnershipRow) : Bool :=
  o.state = .orphaned && o.orphanEligible

namespace TuneRecoveryAttemptRow

/-- The row of an attempt that has just been started. -/
def started (newOwner : NewLiveOwnership) (sourceOwnerId recoveryOwnerId runId : ℕ)
    (exportPath evidenceJson : String) (id : ℕ) : TuneRecoveryAttemptRow where
  id := id
  runId := runId
  sourceOwnerId := sourceOwnerId
  recoveryOwnerId := recoveryOwnerId
  exportPath := exportPath
  startedAt := newOwner.acquiredAt
  completedAt := none
  status := .running
  detail := none
  evidenceJson := evidenceJson

/-- What `start_with_claim` sets of the run. -/
def setRunning (evidenceJson : String) (r : TuneRunRow) : TuneRunRow :=
  { r with recoveryState := some .running, recoveryEvidenceJson := some evidenceJson }

/-- `TuneRecoveryAttemptRow::start_with_claim`. -/
def startWithClaim (newOwner : NewLiveOwnership) (claimKey : ClaimKey) (sourceOwnerId runId : ℕ)
    (exportPath evidenceJson : String) :
    DbM (Option (LiveOwnershipRow × TuneRecoveryAttemptRow)) :=
  atomically do
    let recoveryOwner ← insertOwner newOwner
    onlyOne (updateClaims
      (fun t c => c.claimKey = claimKey && c.ownerId = sourceOwnerId &&
        t.hasOwner sourceOwnerId runId fun o => o.operationKind = .tune && o.recoverable &&
          o.databaseKey = newOwner.databaseKey && o.resourceKey = newOwner.resourceKey)
      fun c => { c with ownerId := recoveryOwner.id, claimedAt := newOwner.acquiredAt })
      (.ok none) do
      let attempt ← insertAttemptIf
        (fun t => (t.hasOwner sourceOwnerId runId fun o => o.operationKind = .tune && o.recoverable) &&
          (t.hasOwner recoveryOwner.id runId fun o =>
            o.operationKind = .recovery && o.state = .active) &&
          t.claimedAs recoveryOwner.id claimKey)
        (started newOwner sourceOwnerId recoveryOwner.id runId exportPath evidenceJson)
      match attempt with
      | none => throw .liveOwnershipLost
      | some attempt =>
        onlyOne (updateRuns
          (fun t r => r.id = runId && r.outcome = .failed &&
            (r.recoveryState = some .eligible || r.recoveryState = some .incomplete) &&
            t.hasOwner sourceOwnerId runId LiveOwnershipRow.recoverable)
          (setRunning evidenceJson)) (.error .liveOwnershipLost) do
          return .commit (some (recoveryOwner, attempt))

/-- `CompleteRecoveryUpdate`. -/
structure CompleteRecoveryUpdate where
  attemptId : ℕ
  recoveryOwnerId : ℕ
  sourceOwnerId : ℕ
  runId : ℕ
  claimKey : ClaimKey
  status : RecoveryAttemptStatus
  now : UtcTime
  detail : Option String
  evidenceJson : String

/-- What the end of an attempt makes of the run and of its source owner: `restore_status`,
`recovery_state`, the owner's state and its eligibility. -/
def CompleteRecoveryUpdate.ending :
    RecoveryAttemptStatus →
      Option (Option RestoreStatus × TuneRecoveryState × LiveOwnershipState × Bool)
  | .confirmed => some (some .confirmed, .confirmed, .recovered, false)
  | .incomplete => some (some .incomplete, .incomplete, .orphaned, true)
  | .failed => some (none, .eligible, .orphaned, true)
  | .running => none

/-- The attempt that is still running under its recovery owner. -/
def runningAttempt (attemptId runId recoveryOwnerId : ℕ) (a : TuneRecoveryAttemptRow) : Bool :=
  a.id = attemptId && a.runId = runId && a.recoveryOwnerId = recoveryOwnerId && a.status = .running

/-- What the end of an attempt sets of the attempt. -/
def CompleteRecoveryUpdate.setAttempt (update : CompleteRecoveryUpdate)
    (a : TuneRecoveryAttemptRow) : TuneRecoveryAttemptRow :=
  { a with
    status := update.status
    completedAt := some update.now
    detail := update.detail
    evidenceJson := update.evidenceJson }

/-- What the end of an attempt sets of the run. -/
def CompleteRecoveryUpdate.setRun (update : CompleteRecoveryUpdate)
    (restoreStatus : Option RestoreStatus) (recoveryState : TuneRecoveryState) (r : TuneRunRow) :
    TuneRunRow :=
  { r with
    restoreStatus := restoreStatus.orElse fun _ => r.restoreStatus
    restoreDetail := if restoreStatus = none then r.restoreDetail else update.detail
    recoveryState := some recoveryState
    recoveryEvidenceJson := some update.evidenceJson }

/-- What the end of an attempt sets of the source owner. -/
def CompleteRecoveryUpdate.setSource (update : CompleteRecoveryUpdate)
    (ownerState : LiveOwnershipState) (eligible : Bool) (o : LiveOwnershipRow) :
    LiveOwnershipRow :=
  { o with
    state := ownerState
    releasedAt := some update.now
    orphanEligible := eligible }

/-- The transaction of `complete_with_ownership`. -/
def completeBody (update : CompleteRecoveryUpdate) (restoreStatus : Option RestoreStatus)
    (recoveryState : TuneRecoveryState) (ownerState : LiveOwnershipState) (eligible : Bool) :
    DbM (Ending Unit) :=
  onlyOne (updateAttempts (runningAttempt update.attemptId update.runId update.recoveryOwnerId)
    update.setAttempt) (.error .liveOwnershipLost) <|
  onlyOne (updateRuns
    (fun t r => r.id = update.runId && r.outcome = .failed &&
      t.hasOwner update.sourceOwnerId update.runId LiveOwnershipRow.recoverable)
    (update.setRun restoreStatus recoveryState)) (.error .liveOwnershipLost) <|
  onlyOne (updateOwners (fun _ o => o.id = update.recoveryOwnerId && o.state = .active)
    (LiveOwnershipRow.setReleased update.now)) (.error .liveOwnershipLost) <|
  onlyOne (updateOwners
    (fun _ o => o.id = update.sourceOwnerId && o.runId = some update.runId && o.recoverable)
    (update.setSource ownerState eligible)) (.error .liveOwnershipLost) <|
  onlyOne (deleteClaims fun c =>
    c.claimKey = update.claimKey && c.ownerId = update.recoveryOwnerId)
    (.error .liveOwnershipLost) do
    if update.status ≠ .confirmed then
      insertClaim ⟨update.claimKey, update.sourceOwnerId, update.now⟩
      return .commit ()
    else
      return .commit ()

/-- `TuneRecoveryAttemptRow::complete_with_ownership`. -/
def completeWithOwnership (update : CompleteRecoveryUpdate) : DbM Unit :=
  match CompleteRecoveryUpdate.ending update.status with
  | none => throw .liveOwnershipLost
  | some (restoreStatus, recoveryState, ownerState, eligible) =>
    atomically (completeBody update restoreStatus recoveryState ownerState eligible)

/-- `RestartRecoveryUpdate`. -/
structure RestartRecoveryUpdate where
  attemptId : ℕ
  recoveryOwnerId : ℕ
  expectedHeartbeat : UtcTime
  sourceOwnerId : ℕ
  runId : ℕ
  claimKey : ClaimKey
  now : UtcTime
  detail : String
  evidenceJson : String

/-- What a restart sets of the attempt it found running. -/
def RestartRecoveryUpdate.setAttempt (update : RestartRecoveryUpdate)
    (a : TuneRecoveryAttemptRow) : TuneRecoveryAttemptRow :=
  { a with
    status := .incomplete
    completedAt := some update.now
    detail := some update.detail
    evidenceJson := update.evidenceJson }

/-- What a restart sets of the run whose recovery it found running. -/
def RestartRecoveryUpdate.setRun (update : RestartRecoveryUpdate) (r : TuneRunRow) : TuneRunRow :=
  { r with
    restoreStatus := some .incomplete
    restoreDetail := some update.detail
    recoveryState := some .incomplete
    recoveryEvidenceJson := some update.evidenceJson }

/-- `TuneRecoveryAttemptRow::abandon_after_restart`. -/
def abandonAfterRestart (update : RestartRecoveryUpdate) : DbM Bool :=
  atomically <|
    onlyOne (updateAttempts (runningAttempt update.attemptId update.runId update.recoveryOwnerId)
      update.setAttempt) (.ok false) <|
    onlyOne (updateRuns
      (fun t r => r.id = update.runId && r.outcome = .failed && r.recoveryState = some .running &&
        (t.hasOwner update.sourceOwnerId update.runId fun o =>
          o.operationKind = .tune && o.recoverable) &&
        t.hasOwner update.recoveryOwnerId update.runId fun o =>
          o.operationKind = .recovery && o.state = .active) update.setRun) (.ok false) <|
    onlyOne (updateOwners
      (fun t o => o.id = update.recoveryOwnerId && o.runId = some update.runId &&
        o.operationKind = .recovery && o.state = .active &&
        o.heartbeatAt = update.expectedHeartbeat && t.claimedAs o.id update.claimKey)
      (LiveOwnershipRow.setReleased update.now)) (.ok false) <|
    onlyOne (updateClaims
      (fun t c => c.claimKey = update.claimKey && c.ownerId = update.recoveryOwnerId &&
        t.hasOwner update.sourceOwnerId update.runId fun o =>
          o.operationKind = .tune && o.recoverable)
      fun c => { c with ownerId := update.sourceOwnerId, claimedAt := update.now })
      (.ok false) do
      return .commit true

end TuneRecoveryAttemptRow

end Bhtune
