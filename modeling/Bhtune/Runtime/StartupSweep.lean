import Bhtune.Db.OwnershipAnswers
import Bhtune.Runtime.MvActuations
import Bhtune.Runtime.RecoveryRetry

/-!
# The sweep of a start

Whoever opens the database in Full mode first looks for owners whose process died: active ones with
an old heartbeat, while nobody holds the lock of the database file.  Each of them is exported and
then ended, as a tune that may be restored, as a recovery that was interrupted, or for good.  Where
something does not fit, the sweep refuses, and the database is not opened.

* `recoverStartupOrphans` — the sweep;
* `SweepStep` — what it does to the database and its report for one owner;
* `sweepOwner_sweeps` — for one owner it does all of it or nothing.
-/

namespace Bhtune

open Table Transaction

/-! ### What the sweep reads and writes -/

/-- `StartupOrphanSweepReport`. -/
structure StartupOrphanSweepReport where
  skippedForLiveOwner : Bool := false
  examined : ℕ := 0
  markedOrphaned : ℕ := 0
  recoverable : ℕ := 0
  interruptedRecoveries : ℕ := 0
  retiredUnrecoverable : ℕ := 0
  exports : List String := []

/-- `RecoveryExport`: the rows of an owner before the sweep changes them. -/
structure RecoveryExport where
  reason : String
  candidateOwnerId : ℕ
  runId : Option ℕ
  run : Option TuneRunRow
  owners : List LiveOwnershipRow
  mutationSteps : List LiveMutationStepRow
  attempts : List TuneRecoveryAttemptRow
  mvActuations : List TuneMvActuationRow

/-- The JSON evidence of a change. -/
inductive SweepEvidence where
  | startupOrphanSweep (run : TuneRunRow) (owner : LiveOwnershipRow) (exportPath : String)
      (eligible : Bool) (eligibilityDetail : Text) (staleBefore observedAt : UtcTime)
  | staleOwnerRetirement (owner : LiveOwnershipRow) (exportPath : String)
      (staleBefore observedAt : UtcTime)
  | interruptedRecoveryRestart (runId sourceOwnerId : ℕ) (owner : LiveOwnershipRow) (attemptId : ℕ)
      (exportPath : String) (staleBefore observedAt : UtcTime)

/-- What a sweep gets from outside the tables that it changes: the key of the locked file, the
clock, how JSON is read and written, the MV commands of a run, and what becomes of an export. -/
structure Startup where
  databaseKey : String
  startedAt : UtcTime
  parse : String → Option Json
  encode : SweepEvidence → String
  mvActuationsOfRun : ℕ → List TuneMvActuationRow
  write : RecoveryExport → Except Text String
  observedAt : ℕ → UtcTime
  changedAt : ℕ → UtcTime

/-- `ORPHAN_STALE_AFTER`. -/
def orphanStaleAfter : UtcTime := seconds 30

def Startup.staleBefore (st : Startup) : UtcTime := st.startedAt - orphanStaleAfter

/-- Why a sweep failed: a database operation did, or the sweep refuses. -/
inductive SweepError where
  | db (e : DbError)
  | bail (reason : Text)

abbrev SweepM := EStateM SweepError (Session Constraints)

def viaDb {α : Type} (x : DbM α) : SweepM α := fun s =>
  match x s with
  | .ok a s' => .ok a s'
  | .error e s' => .error (.db e) s'

/-- `anyhow::ensure!`. -/
def ensure (p : Prop) [Decidable p] (reason : Text) : SweepM Unit :=
  if p then pure () else throw (.bail reason)

/-- `ok_or_else`. -/
def orBail {α : Type} (reason : Text) : Option α → SweepM α
  | some a => pure a
  | none => throw (.bail reason)

/-! ### Queries -/

/-- `LiveOwnershipRow::list_for_run`. -/
def Tables.ownersOfRun (t : Tables) (runId : ℕ) : List LiveOwnershipRow :=
  orderedBy LiveOwnershipRow.acquiredAt (t.owners.filter fun o => o.runId = some runId)

/-- `TuneRecoveryAttemptRow::list_for_run`. -/
def Tables.attemptsOfRun (t : Tables) (runId : ℕ) : List TuneRecoveryAttemptRow :=
  orderedBy TuneRecoveryAttemptRow.startedAt (t.attempts.filter fun a => a.runId = runId)

/-- An owner whose process is taken for dead. -/
def LiveOwnershipRow.stale (staleBefore : UtcTime) (t : Tables) (o : LiveOwnershipRow) : Bool :=
  o.state = .active && o.heartbeatAt < staleBefore && t.claimed o.id

/-- `LiveOwnershipRow::stale_active_owners`. -/
def Tables.staleActiveOwners (t : Tables) (staleBefore : UtcTime) : List LiveOwnershipRow :=
  orderedBy LiveOwnershipRow.heartbeatAt (t.owners.filter (LiveOwnershipRow.stale staleBefore t))

/-! ### The sweep -/

section Sweep

variable (st : Startup)

/-- `write_recovery_export`. -/
def writeRecoveryExport (evidence : RecoveryExport) : SweepM String :=
  match st.write evidence with
  | .ok path => pure path
  | .error reason => throw (.bail reason)

/-- `export_run_evidence`. -/
def exportRunEvidence (run : TuneRunRow) (candidateOwnerId : ℕ) (reason : String) :
    SweepM String := do
  let owners ← viaDb (query .query fun t => t.ownersOfRun run.id)
  let mutationSteps ← viaDb (query .query fun t => t.stepsOfRun run.id)
  let attempts ← viaDb (query .query fun t => t.attemptsOfRun run.id)
  let mvActuations ← viaDb (query .query fun _ => st.mvActuationsOfRun run.id)
  writeRecoveryExport st ⟨reason, candidateOwnerId, some run.id, some run, owners, mutationSteps,
    attempts, mvActuations⟩

/-- `export_owner_evidence`. -/
def exportOwnerEvidence (owner : LiveOwnershipRow) (reason : String) : SweepM String := do
  let mutationSteps ← viaDb (query .query fun t => t.stepsOfOwner owner.id)
  writeRecoveryExport st ⟨reason, owner.id, none, none, [owner], mutationSteps, [], []⟩

/-- The export of an owner with its run, if it has one. -/
def exportEvidence (owner : LiveOwnershipRow) (run : Option TuneRunRow) (reason : String) :
    SweepM String :=
  match run with
  | some run => exportRunEvidence st run owner.id reason
  | none => exportOwnerEvidence st owner reason

def staleOwner (owner : LiveOwnershipRow) (rest : String) : Text :=
  text "stale owner " ++ [.nat owner.id] ++ text rest

def staleRecoveryOwner (owner : LiveOwnershipRow) (rest : String) : Text :=
  text "stale recovery owner " ++ [.nat owner.id] ++ text rest

def mismatchedOwner (owner : LiveOwnershipRow) : Text :=
  staleOwner owner (" has a mismatched database identity or claim; refusing to alter its " ++
    "ownership record")

def mismatchedRecovery (owner : LiveOwnershipRow) : Text :=
  staleRecoveryOwner owner (" does not match its source owner, recorded controller/MV, or " ++
    "claim; refusing to alter ownership")

/-- `retire_stale_unrecoverable_owner`. -/
def retireStaleUnrecoverableOwner (owner : LiveOwnershipRow) (run : Option TuneRunRow)
    (recordedClaimKey : ClaimKey) : SweepM String := do
  let exportPath ← exportEvidence st owner run "stale_owner_retirement"
  let retired ← viaDb (LiveOwnershipRow.markOrphanedUnrecoverable {
    ownerId := owner.id
    expectedHeartbeat := owner.heartbeatAt
    expectedClaimKey := recordedClaimKey
    now := st.changedAt owner.id
    evidenceJson := st.encode
      (.staleOwnerRetirement owner exportPath st.staleBefore (st.observedAt owner.id))
    failRunningRunId := (run.filter fun r => r.outcome = .running).map TuneRunRow.id
    detail := "a live-operation owner became stale without sufficient evidence for automatic " ++
      "recovery; inspect the exported evidence and verify the controller manually" })
  ensure (retired = true) (staleOwner owner " changed after its evidence was exported to " ++
    text exportPath ++ text "; no ownership rows were changed")
  return exportPath

/-- `mark_stale_tune_orphan`, with the rows that it exports: the export, and whether the run is
eligible. -/
def exportStaleTuneOrphan (run : TuneRunRow) (owner : LiveOwnershipRow)
    (recordedClaimKey : ClaimKey) : SweepM (String × Bool) := do
  let owners ← viaDb (query .query fun t => t.ownersOfRun run.id)
  let mutationSteps ← viaDb (query .query fun t => t.stepsOfRun run.id)
  let attempts ← viaDb (query .query fun t => t.attemptsOfRun run.id)
  let (eligible, eligibilityDetail) := orphanEligibility st.parse run owner mutationSteps
  let mvActuations ← viaDb (query .query fun _ => st.mvActuationsOfRun run.id)
  let exportPath ← writeRecoveryExport st ⟨"full_mode_startup_orphan_sweep", owner.id, some run.id,
    some run, owners, mutationSteps, attempts, mvActuations⟩
  let evidence := st.encode (.startupOrphanSweep run owner exportPath eligible eligibilityDetail
    st.staleBefore (st.observedAt owner.id))
  let marked ← viaDb (markTuneOrphan owner recordedClaimKey (st.changedAt owner.id) evidence
    eligible)
  let eligible ← orBail (text "orphan owner " ++ [.nat owner.id] ++
    text " changed after its evidence was exported to " ++ text exportPath ++
      text "; no ownership rows were changed") marked
  return (exportPath, eligible)

/-- The only element of a list. -/
def onlyElement {α : Type} : List α → Option α
  | [a] => some a
  | _ => none

/-- `abandon_interrupted_recovery`. -/
def abandonInterruptedRecovery (owner : LiveOwnershipRow) (expectedClaimKey : ClaimKey) :
    SweepM String := do
  let runId ← orBail (staleRecoveryOwner owner " has no run ID; refusing to alter its claim")
    owner.runId
  let found ← viaDb (query .query fun t => t.runs.find? fun r => r.id = runId)
  let run ← orBail (staleRecoveryOwner owner " references missing run " ++ [.nat runId]) found
  ensure (owner.operationKind = .recovery ∧ run.outcome = .failed ∧
      run.recoveryState = some .running)
    (staleRecoveryOwner owner (" does not match a failed run with a running recovery attempt; " ++
      "refusing to guess how to release its claim"))
  let owners ← viaDb (query .query fun t => t.ownersOfRun runId)
  let sourceOwners := owners.filter (LiveOwnershipRow.eligibleSource runId)
  let sourceOwner ← orBail (staleRecoveryOwner owner " has " ++ [.nat sourceOwners.length] ++
    text " eligible source owners; exactly one is required") (onlyElement sourceOwners)
  let expectedResource ← orBail (text "run " ++ [.nat runId] ++
    text (" has incomplete recorded connection provenance; stale recovery ownership is not safe " ++
      "to release automatically")) run.recordedResource
  ensure (sourceOwner.runId = some runId ∧ sourceOwner.databaseKey = owner.databaseKey ∧
      sourceOwner.resourceKey = owner.resourceKey ∧ owner.resourceKey = expectedResource)
    (mismatchedRecovery owner)
  let claimed ← viaDb (query .query fun t => t.claimedAs owner.id expectedClaimKey)
  ensure (claimed = true) (mismatchedRecovery owner)
  let attempts ← viaDb (query .query fun t => t.attemptsOfRun runId)
  let attempt ← orBail (staleRecoveryOwner owner " has no matching running recovery attempt")
    (attempts.find? fun a => a.recoveryOwnerId = owner.id && a.status = .running)
  let exportPath ← exportRunEvidence st run owner.id "interrupted_recovery_restart"
  let abandoned ← viaDb (TuneRecoveryAttemptRow.abandonAfterRestart {
    attemptId := attempt.id
    recoveryOwnerId := owner.id
    expectedHeartbeat := owner.heartbeatAt
    sourceOwnerId := sourceOwner.id
    runId := runId
    claimKey := expectedClaimKey
    now := st.changedAt owner.id
    detail := "the recovery process ended without a durable final audit; startup contacted no " ++
      "controller. Review " ++ exportPath ++ ", then retry with \x60bhtune restore-loop --yes\x60"
    evidenceJson := st.encode (.interruptedRecoveryRestart runId sourceOwner.id owner attempt.id
      exportPath st.staleBefore (st.observedAt owner.id)) })
  ensure (abandoned = true) (staleRecoveryOwner owner
    (" changed while its restart evidence was being exported; no ownership rows were changed"))
  return exportPath

/-- The run of an owner, if it has one. -/
def ownerRun (owner : LiveOwnershipRow) : SweepM (Option TuneRunRow) :=
  match owner.runId with
  | none => pure none
  | some runId => do
    let found ← viaDb (query .query fun t => t.runs.find? fun r => r.id = runId)
    let run ← orBail (staleOwner owner " references missing run " ++ [.nat runId]) found
    return some run

/-- Whether the owner is that of a tune that was cut off. -/
def isDeadTune (owner : LiveOwnershipRow) (run : TuneRunRow) : Prop :=
  owner.operationKind = .tune ∧ run.driver = .opcda ∧ run.outcome = .running

instance decidableIsDeadTune (owner : LiveOwnershipRow) (run : TuneRunRow) :
    Decidable (isDeadTune owner run) := inferInstanceAs (Decidable (_ ∧ _))

/-- An owner that is no recovery. -/
def sweepOperation (report : StartupOrphanSweepReport) (owner : LiveOwnershipRow)
    (run : Option TuneRunRow) : SweepM StartupOrphanSweepReport := do
  match run.filter (isDeadTune owner) with
  | some run => do
    let (exportPath, eligible) ← exportStaleTuneOrphan st run owner owner.claimKey
    return { report with
      markedOrphaned := report.markedOrphaned + 1
      recoverable := report.recoverable + if eligible then 1 else 0
      exports := report.exports ++ [exportPath] }
  | none => do
    let exportPath ← retireStaleUnrecoverableOwner st owner run owner.claimKey
    return { report with
      retiredUnrecoverable := report.retiredUnrecoverable + 1
      exports := report.exports ++ [exportPath] }

/-- The body of the loop of `recover_startup_orphans`. -/
def sweepOwner (report : StartupOrphanSweepReport) (owner : LiveOwnershipRow) :
    SweepM StartupOrphanSweepReport := do
  ensure (owner.databaseKey = st.databaseKey) (mismatchedOwner owner)
  let claimed ← viaDb (query .query fun t => t.claimedAs owner.id owner.claimKey)
  ensure (claimed = true) (mismatchedOwner owner)
  if owner.operationKind = .recovery then do
    let exportPath ← abandonInterruptedRecovery st owner owner.claimKey
    return { report with
      interruptedRecoveries := report.interruptedRecoveries + 1
      exports := report.exports ++ [exportPath] }
  else do
    let run ← ownerRun owner
    sweepOperation st report owner run

/-- The loop of `recover_startup_orphans`. -/
def sweepOwners (report : StartupOrphanSweepReport) :
    List LiveOwnershipRow → SweepM StartupOrphanSweepReport
  | [] => pure report
  | owner :: owners => do
    let report ← sweepOwner st report owner
    sweepOwners report owners

/-- `recover_startup_orphans`; `locked` is whether it got the lock of the database file. -/
def recoverStartupOrphans (locked : Bool) : SweepM StartupOrphanSweepReport :=
  if locked then do
    let candidates ← viaDb (query .query fun t => t.staleActiveOwners st.staleBefore)
    sweepOwners st { examined := candidates.length } candidates
  else pure { skippedForLiveOwner := true }

end Sweep

/-! ### How a program of the sweep ends -/

section Rules

variable {α β : Type} {Q : α → Db → Prop} {d : Db}

theorem ends_and {ε : Type} {x : EStateM ε (Session Constraints) α} {Q' : α → Db → Prop}
    {E E' : ε → Db → Prop} (h : Ends x Q E d) (h' : Ends x Q' E' d) :
    Ends x (fun a d' => Q a d' ∧ Q' a d') (fun e d' => E e d' ∧ E' e d') d :=
  fun refusals => Effect.wp_and (h refusals) (h' refusals)

/-- A call leaves what `after` says. -/
theorem ends_after {x : DbM α} {E : DbError → Db → Prop} (h : Ends x Q E d) :
    Ends x (fun a d' => Q a d' ∧ ∃ refusals, d' = after x d refusals) E d := by
  intro refusals
  refine Effect.wp_mono (Effect.wp_and (h refusals) (Effect.wp_run x ⟨d, refusals⟩)) ?_
    fun _ _ he => he.1
  intro a s' hs'
  refine ⟨hs'.1, refusals, ?_⟩
  unfold Bhtune.after
  rw [hs'.2]

/-- From `d` a program of the sweep ends in `Q`, or fails and has changed nothing. -/
def Sweeps (x : SweepM α) (Q : α → Db → Prop) (d : Db) : Prop := Ends x Q (fun _ d' => d' = d) d

theorem sweeps_reads {x : SweepM β} {f : β → SweepM α} {P : β → Prop}
    (hx : Sweeps x (fun b d' => d' = d ∧ P b) d) (hf : ∀ b, P b → Sweeps (f b) Q d) :
    Sweeps (x >>= f) Q d := by
  refine ends_seq hx ?_
  rintro b _ ⟨rfl, hb⟩
  exact hf b hb

theorem ends_viaQuery {f : Tables → β} {g : β → SweepM α} {E : SweepError → Db → Prop}
    (hE : ∀ e, E e d) (h : Ends (g (f d.1)) Q E d) :
    Ends (viaDb (query .query f) >>= g) Q E d := by
  refine ends_seq (M := fun b d' => d' = d ∧ b = f d.1) ?_ ?_
  · intro refusals
    have hends : Ends (query (V := Constraints) DbError.query f)
        (fun b d' => d' = d ∧ b = f d.1) (fun _ d' => d' = d) d := ends_query rfl ⟨rfl, rfl⟩
    have hrun := hends refusals
    unfold Effect.wp viaDb at *
    cases hx : query (V := Constraints) DbError.query f ⟨d, refusals⟩ with
    | ok b s' =>
      rw [hx] at hrun
      exact hrun
    | error e s' =>
      rw [hx] at hrun
      show E (.db e) s'.store
      rw [hrun]
      exact hE (.db e)
  · rintro _ _ ⟨rfl, rfl⟩
    exact h

theorem sweeps_query {f : Tables → β} {g : β → SweepM α} (h : Sweeps (g (f d.1)) Q d) :
    Sweeps (viaDb (query .query f) >>= g) Q d := ends_viaQuery (fun _ => rfl) h

theorem sweeps_ensure {p : Prop} [Decidable p] {reason : Text} {f : Unit → SweepM α}
    (h : p → Sweeps (f ()) Q d) : Sweeps (ensure p reason >>= f) Q d := by
  by_cases hp : p
  · refine sweeps_reads (P := fun _ => p) ?_ fun _ => h
    unfold ensure
    rw [if_pos hp]
    exact ends_pure ⟨rfl, hp⟩
  · refine ends_seq (M := fun _ _ => False) ?_ fun _ _ h => h.elim
    unfold ensure
    rw [if_neg hp]
    exact ends_throw rfl

theorem sweeps_orBail {reason : Text} {a : Option β} {f : β → SweepM α}
    (h : ∀ b, a = some b → Sweeps (f b) Q d) : Sweeps (orBail reason a >>= f) Q d := by
  cases a with
  | none => exact ends_seq (M := fun _ _ => False) (ends_throw rfl) fun _ _ h => h.elim
  | some b =>
    refine sweeps_reads (P := fun b' => b' = b) (ends_pure ⟨rfl, rfl⟩) ?_
    exact fun b' hb' => hb' ▸ h b rfl

/-- A transaction, and what is made of its answer. -/
theorem sweeps_call {x : DbM β} {f : β → SweepM α} {R : β → Db → Prop}
    (hx : Ends x R (fun _ d' => d' = d) d)
    (hf : ∀ refusals b s', x ⟨d, refusals⟩ = .ok b s' → R b s'.store →
      Ends (f b) Q (fun _ d' => d' = d) s'.store) :
    Sweeps (viaDb x >>= f) Q d := by
  refine ends_seq (M := fun b d' => Ends (f b) Q (fun _ d' => d' = d) d') ?_ fun _ _ h => h
  intro refusals
  have hrun := hx refusals
  unfold Effect.wp viaDb at *
  cases hcall : x ⟨d, refusals⟩ with
  | ok b s' =>
    rw [hcall] at hrun
    exact hf refusals b s' hcall hrun
  | error e s' =>
    rw [hcall] at hrun
    exact hrun

end Rules

/-! ### The sweep of one owner -/

/-- The database after one call of the sweep: none that starts a tune or settles a run. -/
def ByCall (d d' : Db) : Prop :=
  ∃ (call : LiveCall) (refusals : List Bool), (∀ unowned, call.Passes ⟨d, unowned⟩) ∧
    (∀ unowned, call.leaves unowned = unowned) ∧ (∀ runId, ¬call.Settles runId) ∧
    d' = after call.run d refusals

theorem ByCall.step {d d' : Db} (h : ByCall d d') (runId : ℕ) (unowned : List ℕ) :
    RecoveryStep runId ⟨d, unowned⟩ ⟨d', unowned⟩ := by
  obtain ⟨call, refusals, hpasses, hleaves, hopen, rfl⟩ := h
  have hstep : RecoveryStep runId ⟨d, unowned⟩ ⟨after call.run d refusals, call.leaves unowned⟩ :=
    .live call (hpasses unowned) refusals fun hsettles => absurd hsettles (hopen runId)
  rw [hleaves] at hstep
  exact hstep

section Sweep

variable (st : Startup)

/-- What the sweep asks of an owner that the invariant does not promise. -/
def Startup.Fits (t : Tables) (o : LiveOwnershipRow) : Prop :=
  o.databaseKey = st.databaseKey ∧ (o.operationKind = .recovery →
    ∃ r ∈ t.runs, o.runId = some r.id ∧ r.outcome = .failed ∧
      r.recordedResource = some o.resourceKey)

/-- A dead tune with everything that a recovery needs. -/
def Startup.Recoverable (t : Tables) (run : TuneRunRow) (o : LiveOwnershipRow) : Prop :=
  isDeadTune o run ∧ (recoveryEligibility st.parse run o (t.stepsOfOwner o.id)).1 = true ∧
    run.recordedResource = some o.resourceKey

/-- The export at `path` has the owner and all its audited mutations. -/
def Startup.Exported (t : Tables) (o : LiveOwnershipRow) (path : String) : Prop :=
  ∃ e, st.write e = .ok path ∧ e.candidateOwnerId = o.id ∧ e.runId = o.runId ∧ o ∈ e.owners ∧
    ∀ x ∈ t.steps, x.ownerId = o.id → x ∈ e.mutationSteps

/-- What `restore-loop` goes by after the sweep of a dead tune. -/
structure Retryable (parse : String → Option Json) (run : TuneRunRow) (o : LiveOwnershipRow)
    (t : Tables) : Prop where
  driver : run.driver = .opcda
  tune : o.operationKind = .tune
  ownerRun : o.runId = some run.id
  evidence : evidenceFault parse run o.restoreIntentJson = none
  kept : Kept run o t
  mutations : MutationsKept parse run.tags o.id t

/-- What becomes of a dead owner. -/
inductive SweepMove (o : LiveOwnershipRow) (d d' : Db) : Prop
  | orphaned (run : TuneRunRow) (o' : LiveOwnershipRow) (hrun : run ∈ d.1.runs)
      (hrecoverable : st.Recoverable d.1 run o) (h : Orphaned o o' d.1 d'.1)
      (hretryable : Retryable st.parse run o d'.1)
  | retired (o' : LiveOwnershipRow) (hkind : o.operationKind ≠ .recovery)
      (hnot : ∀ run ∈ d.1.runs, o.runId = some run.id → ¬st.Recoverable d.1 run o)
      (h : Retired o o' d.1 d'.1)
  | interrupted (s o' : LiveOwnershipRow) (a a' : TuneRecoveryAttemptRow)
      (hkind : o.operationKind = .recovery) (h : Returned s s o o' a a' .incomplete d.1 d'.1)

/-- The sweep of one owner, in the database and in the report. -/
structure SweepStep (o : LiveOwnershipRow) (report : StartupOrphanSweepReport) (d : Db)
    (report' : StartupOrphanSweepReport) (d' : Db) : Prop where
  fits : st.Fits d.1 o
  move : SweepMove st o d d'
  run : RunClosed o d.1 d'.1
  call : ByCall d d'
  exported : ∃ path, st.Exported d.1 o path ∧ report'.exports = report.exports ++ [path]
  counted : report'.examined = report.examined ∧
    report'.skippedForLiveOwner = report.skippedForLiveOwner ∧
    report'.markedOrphaned + report'.interruptedRecoveries + report'.retiredUnrecoverable =
      report.markedOrphaned + report.interruptedRecoveries + report.retiredUnrecoverable + 1

/-- What the sweep can rely on for an owner that it is about to end. -/
structure Sweepable (o : LiveOwnershipRow) (d : Db) : Prop where
  ownership : OwnershipInv d.1
  steps : StepsOfRun d.1
  present : o ∈ d.1.owners
  active : o.state = .active

section Exports

variable {st} {o : LiveOwnershipRow} {d : Db}

theorem writeRecoveryExport_sweeps (e : RecoveryExport) :
    Sweeps (writeRecoveryExport st e) (fun path d' => d' = d ∧ st.write e = .ok path) d := by
  unfold writeRecoveryExport
  cases hwrite : st.write e with
  | ok path => exact ends_pure ⟨rfl, rfl⟩
  | error reason => exact ends_throw rfl

/-- An export of the rows of a run has the owner and all its audited mutations. -/
theorem exported_of_run (h : Sweepable o d) {run : TuneRunRow} (hrun : o.runId = some run.id)
    {reason path : String} {mvActuations : List TuneMvActuationRow}
    (hwrite : st.write ⟨reason, o.id, some run.id, some run, d.1.ownersOfRun run.id,
      d.1.stepsOfRun run.id, d.1.attemptsOfRun run.id, mvActuations⟩ = .ok path) :
    st.Exported d.1 o path := by
  refine ⟨_, hwrite, rfl, hrun.symm, ?_, ?_⟩
  · exact mem_orderedBy.mpr (List.mem_filter.mpr ⟨h.present, decide_eq_true hrun⟩)
  · intro x hx hxo
    refine mem_orderedBy.mpr (List.mem_filter.mpr ⟨hx, decide_eq_true ?_⟩)
    rw [← h.steps x hx o h.present hxo.symm, hrun]

theorem exportRunEvidence_sweeps (h : Sweepable o d) {run : TuneRunRow}
    (hrun : o.runId = some run.id) (reason : String) :
    Sweeps (exportRunEvidence st run o.id reason)
      (fun path d' => d' = d ∧ st.Exported d.1 o path) d := by
  refine sweeps_query (sweeps_query (sweeps_query (sweeps_query ?_)))
  refine ends_mono (writeRecoveryExport_sweeps _) ?_ fun _ _ h => h
  rintro path d' ⟨hsame, hwrite⟩
  exact ⟨hsame, exported_of_run h hrun hwrite⟩

/-- The run that the sweep goes by is that of the owner. -/
def OwnRun (o : LiveOwnershipRow) (run : Option TuneRunRow) (t : Tables) : Prop :=
  o.runId = run.map TuneRunRow.id ∧ ∀ r ∈ run, r ∈ t.runs

theorem exportEvidence_sweeps (h : Sweepable o d) {run : Option TuneRunRow}
    (hrun : OwnRun o run d.1) (reason : String) :
    Sweeps (exportEvidence st o run reason) (fun path d' => d' = d ∧ st.Exported d.1 o path) d := by
  cases run with
  | some run => exact exportRunEvidence_sweeps h hrun.1 reason
  | none =>
    refine sweeps_query ?_
    refine ends_mono (writeRecoveryExport_sweeps _) ?_ fun _ _ h => h
    rintro path d' ⟨hsame, hwrite⟩
    refine ⟨hsame, _, hwrite, rfl, hrun.1.symm, List.mem_singleton_self o, ?_⟩
    intro x hx hxo
    exact List.mem_filter.mpr ⟨hx, decide_eq_true hxo⟩

end Exports

/-! ### What the calls make of it -/

section Moves

variable {st} {o : LiveOwnershipRow} {d : Db}

/-- The calls that end an owner neither start a tune nor settle a run. -/
theorem byCall_markOrphaned (update : LiveOwnershipRow.OrphanOwnerUpdate) (refusals : List Bool) :
    ByCall d (after (LiveOwnershipRow.markOrphaned update) d refusals) :=
  ⟨.markOrphaned update, refusals, fun _ => trivial, fun _ => rfl, fun _ h => h,
    (after_discard _ d refusals).symm⟩

theorem byCall_markOrphanedUnrecoverable (h : Sweepable o d) (hkind : o.operationKind ≠ .recovery)
    {update : LiveOwnershipRow.UnrecoverableOwnerUpdate} (hid : update.ownerId = o.id)
    (refusals : List Bool) :
    ByCall d (after (LiveOwnershipRow.markOrphanedUnrecoverable update) d refusals) := by
  refine ⟨.markOrphanedUnrecoverable update, refusals, fun _ => ?_, fun _ => rfl, fun _ h => h,
    (after_discard _ d refusals).symm⟩
  intro x hx hxid
  rw [d.2.keyed.owner x hx o h.present (hxid.trans hid)]
  exact hkind

theorem byCall_abandonAfterRestart (update : TuneRecoveryAttemptRow.RestartRecoveryUpdate)
    (refusals : List Bool) :
    ByCall d (after (TuneRecoveryAttemptRow.abandonAfterRestart update) d refusals) :=
  ⟨.abandonAfterRestart update, refusals, fun _ => trivial, fun _ => rfl, fun _ h => h,
    (after_discard _ d refusals).symm⟩

/-- **A dead owner is retired** once it is exported, with its run when that still runs. -/
theorem retire_sweeps (h : Sweepable o d) (hkind : o.operationKind ≠ .recovery)
    {run : Option TuneRunRow} (hrun : OwnRun o run d.1) (claimKey : ClaimKey) :
    Sweeps (retireStaleUnrecoverableOwner st o run claimKey)
      (fun path d' => st.Exported d.1 o path ∧ (∃ o', Retired o o' d.1 d'.1) ∧
        RunClosed o d.1 d'.1 ∧ ByCall d d') d := by
  unfold retireStaleUnrecoverableOwner
  refine sweeps_reads (exportEvidence_sweeps h hrun _) fun path hexported => ?_
  refine sweeps_call (ends_after (ends_mono (ends_and (markOrphanedUnrecoverable_ends _ d)
    (markOrphanedUnrecoverable_run _ d)) (fun _ _ h => h) fun _ _ h => h.1)) ?_
  rintro refusals retired s' - ⟨⟨hretired, hclosed⟩, hafter⟩
  cases retired with
  | false =>
    refine ends_seq (M := fun _ _ => False) ?_ fun _ _ h => h.elim
    exact ends_throw hretired
  | true =>
    obtain ⟨x, o', hid, hmove⟩ := hretired
    obtain rfl := d.2.keyed.owner x hmove.owners.was o h.present hid
    obtain ⟨refusals', hafter⟩ := hafter
    refine ends_pure ⟨hexported, ⟨o', hmove⟩, ?_, ?_⟩
    · obtain ⟨hkept, hfailed⟩ := hclosed rfl
      by_cases hfail : (run.filter fun r => r.outcome = .running).map TuneRunRow.id = none
      · have hruns := hkept hfail
        refine ⟨fun r _ => by rw [hruns], fun r hr hrid hrunning => ?_⟩
        rw [hruns] at hr
        cases run with
        | none => rw [hrun.1] at hrid; cases hrid
        | some own =>
          have hown : r = own := d.2.keyed.run r hr own (hrun.2 own rfl) (by
            rw [hrun.1] at hrid
            exact (Option.some.inj hrid).symm)
          rw [hown] at hrunning
          simp [Option.filter, hrunning] at hfail
      · exact hfailed hfail x hmove.owners.was rfl
    · rw [hafter]
      exact byCall_markOrphanedUnrecoverable h hkind rfl refusals'

end Moves

section Tunes

variable {st} {o : LiveOwnershipRow} {d : Db} {run : TuneRunRow}

/-- What the mark of the sweep does to the owner and to its run. -/
theorem markTuneOrphan_marks (h : Sweepable o d) (claimKey : ClaimKey) (now : UtcTime)
    (evidenceJson : String) (eligible : Bool) :
    Ends (markTuneOrphan o claimKey now evidenceJson eligible)
      (fun marked d' => (marked = none → d' = d) ∧ ∀ e, marked = some e →
        e = eligible ∧ RunClosed o d.1 d'.1 ∧ ByCall d d' ∧
        ∃ o', if eligible then Orphaned o o' d.1 d'.1 else Retired o o' d.1 d'.1)
      (fun _ d' => d' = d) d := by
  refine ends_mono (markTuneOrphan_ends (R := fun marked d' => if marked = true then
    RunClosed o d.1 d'.1 ∧ ByCall d d' ∧
      ∃ o', if eligible then Orphaned o o' d.1 d'.1 else Retired o o' d.1 d'.1
    else d' = d) ?_ _ _ _) (fun _ _ h => h) fun _ _ h => h
  intro update hid heligible
  refine ends_mono (ends_after (ends_mono (ends_and (markOrphaned_ends update d)
    (markOrphaned_run update d)) (fun _ _ h => h) fun _ _ h => h.1)) ?_ fun _ _ h => h
  rintro marked d' ⟨⟨hmarked, hclosed⟩, refusals, hafter⟩
  cases marked with
  | false => exact hmarked
  | true =>
    obtain ⟨x, o', hxid, _, hmove⟩ := hmarked
    have hx : x = o := by
      refine d.2.keyed.owner x ?_ o h.present (hxid.trans hid)
      split_ifs at hmove
      · exact hmove.owners.was
      · exact hmove.owners.was
    refine ⟨hclosed rfl o h.present hid.symm, ?_, o', ?_⟩
    · rw [hafter]
      exact byCall_markOrphaned update refusals
    · rw [heligible, hx] at hmove
      exact hmove

/-- **A dead tune is orphaned or retired** once it is exported: orphaned exactly with complete
evidence of its own resource. -/
theorem exportStaleTuneOrphan_sweeps (h : Sweepable o d) (hmem : run ∈ d.1.runs)
    (hrun : o.runId = some run.id) (hdead : isDeadTune o run) (claimKey : ClaimKey) :
    Sweeps (exportStaleTuneOrphan st run o claimKey)
      (fun r d' => st.Exported d.1 o r.1 ∧ SweepMove st o d d' ∧ RunClosed o d.1 d'.1 ∧
        ByCall d d') d := by
  unfold exportStaleTuneOrphan
  refine sweeps_query (sweeps_query (sweeps_query ?_))
  dsimp only
  have howner := @orphanEligibility_owner st.parse run o _ h.steps h.present hrun
  generalize hverdict : orphanEligibility st.parse run o (d.1.stepsOfRun run.id) = verdict
  obtain ⟨eligible, detail⟩ := verdict
  rw [hverdict] at howner
  refine sweeps_query (sweeps_reads (writeRecoveryExport_sweeps _) fun path hwrite => ?_)
  refine sweeps_call (markTuneOrphan_marks h _ _ _ _) ?_
  rintro refusals marked s' _ ⟨hkept, hmarks⟩
  cases marked with
  | none =>
    refine ends_seq (M := fun _ _ => False) ?_ fun _ _ h => h.elim
    exact ends_throw (hkept rfl)
  | some e =>
    obtain ⟨rfl, hclosed, hcall, o', hmove⟩ := hmarks e rfl
    refine ends_pure ⟨exported_of_run h hrun hwrite, ?_, hclosed, hcall⟩
    cases e with
    | true =>
      have hinv : SystemInv ⟨d, []⟩ := ⟨h.ownership, fun id hid => by cases hid⟩
      obtain ⟨⟨hdriver, htune, _, hevidence⟩, _, _, hkept, hmutations⟩ :=
        eligible_of_orphaned hinv h.steps hmem h.present (congrArg Prod.fst hverdict) rfl hmove
      exact .orphaned run o' hmem ⟨hdead, howner.mp rfl⟩ hmove
        ⟨hdriver, htune, hrun, hevidence, hkept, hmutations⟩
    | false =>
      refine .retired o' (by rw [hdead.1]; nofun) ?_ hmove
      intro r hr hrid hrecoverable
      rw [d.2.keyed.run r hr run hmem (by
        rw [hrun] at hrid
        exact (Option.some.inj hrid).symm)] at hrecoverable
      exact absurd (howner.mpr hrecoverable.2) Bool.false_ne_true

end Tunes

section Recoveries

variable {st} {o : LiveOwnershipRow} {d : Db}

/-- An attempt that ends is about the run of its recovery owner. -/
theorem Concluded.ownerRun {s s' o' : LiveOwnershipRow} {a a' : TuneRecoveryAttemptRow}
    {state : TuneRecoveryState} {d' : Db} (hmove : Concluded s s' o o' a a' state d.1 d'.1)
    (inv : OwnershipInv d.1) : o.runId = some a.runId := by
  obtain ⟨_, _, _, x, hx, _, _, hxid, _, _, hxrun, _⟩ :=
    inv.attempt a hmove.attempts.was hmove.wasRunning
  rw [← d.2.keyed.owner x hx o hmove.owner (hxid.trans hmove.attemptOwner), hxrun]

theorem Concluded.runClosed {s s' o' : LiveOwnershipRow} {a a' : TuneRecoveryAttemptRow}
    {state : TuneRecoveryState} {d' : Db} (hmove : Concluded s s' o o' a a' state d.1 d'.1)
    (inv : OwnershipInv d.1) : RunClosed o d.1 d'.1 := by
  obtain ⟨r, r', hrid, _, hfailed', _, _, hruns⟩ := hmove.runs
  refine .replaced ?_ hruns (by rw [hfailed']; nofun)
  rw [hmove.ownerRun inv, hrid]

/-- **A dead recovery gives its claim back** once it is exported, where it fits. -/
theorem abandonInterruptedRecovery_sweeps (h : Sweepable o d) (claimKey : ClaimKey) :
    Sweeps (abandonInterruptedRecovery st o claimKey)
      (fun path d' => st.Exported d.1 o path ∧
        (∃ r ∈ d.1.runs, o.runId = some r.id ∧ r.outcome = .failed ∧
          r.recordedResource = some o.resourceKey) ∧
        (∃ s o' a a', Returned s s o o' a a' .incomplete d.1 d'.1) ∧ RunClosed o d.1 d'.1 ∧
        ByCall d d') d := by
  unfold abandonInterruptedRecovery
  refine sweeps_orBail fun runId horun => sweeps_query (sweeps_orBail fun run hfound => ?_)
  have hmem := List.mem_of_find?_eq_some hfound
  have hrid : run.id = runId := by simpa using List.find?_some hfound
  refine sweeps_ensure fun hcheck => sweeps_query ?_
  refine sweeps_orBail fun source _ => sweeps_orBail fun resource hresource => ?_
  refine sweeps_ensure fun hsame => sweeps_query (sweeps_ensure fun _ => ?_)
  refine sweeps_query (sweeps_orBail fun attempt _ => ?_)
  have hrun : o.runId = some run.id := horun.trans (congrArg some hrid.symm)
  refine sweeps_reads (exportRunEvidence_sweeps h hrun _) fun path hexported => ?_
  refine sweeps_call (ends_after (abandonAfterRestart_ends _ d)) ?_
  rintro refusals abandoned s' - ⟨habandoned, refusals', hafter⟩
  cases abandoned with
  | false =>
    refine ends_seq (M := fun _ _ => False) ?_ fun _ _ h => h.elim
    exact ends_throw habandoned
  | true =>
    obtain ⟨s, x, o', a, a', hid, hmove⟩ := habandoned
    obtain rfl := d.2.keyed.owner x hmove.concluded.owner o h.present hid
    refine ends_pure ⟨hexported, ⟨run, hmem, hrun, hcheck.2.1, ?_⟩, ⟨s, o', a, a', hmove⟩,
      hmove.concluded.runClosed h.ownership, ?_⟩
    · rw [hresource, ← hsame.2.2.2]
    · rw [hafter]
      exact byCall_abandonAfterRestart _ refusals'

end Recoveries

section Owners

variable {st} {o : LiveOwnershipRow} {d : Db}

theorem ownerRun_sweeps (o : LiveOwnershipRow) (d : Db) :
    Sweeps (ownerRun o) (fun run d' => d' = d ∧ OwnRun o run d.1) d := by
  unfold ownerRun
  cases horun : o.runId with
  | none => exact ends_pure ⟨rfl, horun, fun r hr => by cases hr⟩
  | some runId =>
    refine sweeps_query (sweeps_orBail fun run hfound => ends_pure ⟨rfl, ?_, ?_⟩)
    · have hrid : run.id = runId := by simpa using List.find?_some hfound
      rw [horun, ← hrid]
      rfl
    · rintro r ⟨⟩
      exact List.mem_of_find?_eq_some hfound

/-- **What the sweep does for one owner**, whatever is refused: all of it or nothing. -/
theorem sweepOwner_sweeps (h : Sweepable o d) (report : StartupOrphanSweepReport) :
    Sweeps (sweepOwner st report o) (fun report' d' => SweepStep st o report d report' d') d := by
  unfold sweepOwner
  refine sweeps_ensure fun hdb => sweeps_query (sweeps_ensure fun _ => ?_)
  by_cases hkind : o.operationKind = .recovery
  · rw [if_pos hkind]
    refine ends_seq (abandonInterruptedRecovery_sweeps h _) ?_
    rintro path d' ⟨hexported, hrun, ⟨s, o', a, a', hmove⟩, hclosed, hcall⟩
    refine ends_pure ⟨⟨hdb, fun _ => hrun⟩, .interrupted s o' a a' hkind hmove, hclosed, hcall,
      ⟨path, hexported, rfl⟩, rfl, rfl, ?_⟩
    dsimp only
    omega
  rw [if_neg hkind]
  refine sweeps_reads (ownerRun_sweeps o d) fun run hrun => ?_
  have hown : st.Fits d.1 o := ⟨hdb, fun hrecovery => absurd hrecovery hkind⟩
  unfold sweepOperation
  cases hdead : run.filter (isDeadTune o) with
  | some r =>
    obtain ⟨hr, hdead⟩ := Option.filter_eq_some_iff.mp hdead
    refine ends_seq (exportStaleTuneOrphan_sweeps h (hrun.2 r hr) (by rw [hrun.1, hr]; rfl)
      (of_decide_eq_true hdead) _) ?_
    rintro ⟨path, eligible⟩ d' ⟨hexported, hmove, hclosed, hcall⟩
    refine ends_pure ⟨hown, hmove, hclosed, hcall, ⟨path, hexported, rfl⟩, rfl, rfl, ?_⟩
    dsimp only
    omega
  | none =>
    refine ends_seq (retire_sweeps h hkind hrun _) ?_
    rintro path d' ⟨hexported, ⟨o', hmove⟩, hclosed, hcall⟩
    refine ends_pure ⟨hown, .retired o' hkind ?_ hmove, hclosed, hcall, ⟨path, hexported, rfl⟩,
      rfl, rfl, ?_⟩
    · intro r hr hrid hrecoverable
      have hsome : run = some r := by
        cases hcase : run with
        | none =>
          rw [hcase] at hrun
          exact absurd (hrid.symm.trans hrun.1) (Option.some_ne_none _)
        | some own =>
          rw [hcase] at hrun
          rw [d.2.keyed.run r hr own (hrun.2 own rfl)
            (Option.some.inj (hrid.symm.trans hrun.1))]
      rw [hsome] at hdead
      simp [Option.filter, hrecoverable.1] at hdead
    · dsimp only
      omega

end Owners

end Sweep

end Bhtune
