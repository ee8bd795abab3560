import Bhtune.Library.Table
import Bhtune.Library.Transaction
import Bhtune.Runtime.Types

/-!
# The tables of live ownership

The rows of `tune_runs`, `live_operation_owners`, `live_operation_claims`,
`live_mutation_steps` and `tune_recovery_attempts`, and the constraints of the schema.

A JSON column is its text.  A resource key and a claim key are JSON arrays of strings in the
source; an array is told by its elements, so here they are records of those.
-/

namespace Bhtune

open Table Transaction

/-! ### Values of the columns -/

/-- Which I/O driver a run used. -/
inductive TuneDriver where
  | opcda
  | simulator
  | replay
  deriving DecidableEq, Repr

/-- A run's lifecycle state. -/
inductive TuneOutcome where
  | running
  | completed
  | failed
  | aborted
  deriving DecidableEq, Repr

/-- The outcome of the restore attempted after a run ended. -/
inductive RestoreStatus where
  | confirmed
  | incomplete
  deriving DecidableEq, Repr

/-- The eligibility and outcome state for `bhtune restore-loop`. -/
inductive TuneRecoveryState where
  | eligible
  | running
  | confirmed
  | incomplete
  | notRecoverable
  deriving DecidableEq, Repr

/-- Where a snapshotted template came from. -/
inductive TemplateOrigin where
  | builtin
  | catalog
  | user
  deriving DecidableEq, Repr

/-- What a live operation does. -/
inductive LiveOperationKind where
  | tune
  | pidWrite
  | pidRevert
  | recovery
  | opcWrite
  deriving DecidableEq, Repr

/-- The lifecycle state of an owner. -/
inductive LiveOwnershipState where
  | active
  | released
  | orphaned
  | recovered
  deriving DecidableEq, Repr

/-- The lifecycle state of an audited mutation. -/
inductive MutationStepStatus where
  | intent
  | confirmed
  | failed
  | notNeeded
  deriving DecidableEq, Repr

/-- The lifecycle state of a recovery attempt. -/
inductive RecoveryAttemptStatus where
  | running
  | confirmed
  | incomplete
  | failed
  deriving DecidableEq, Repr

/-- The canonical identity of a controller tag. -/
structure ResourceKey where
  bridgeHost : String
  server : String
  resourceTag : String
  deriving DecidableEq

/-- `resource_key`: hosts and servers are compared without case, tags exactly. -/
def resourceKey (bridgeHost server resourceTag : String) : ResourceKey where
  bridgeHost := bridgeHost.toLower
  server := server.toLower
  resourceTag := resourceTag

/-- The identity of a claim: the database and the resource. -/
structure ClaimKey where
  databaseKey : String
  resourceKey : ResourceKey
  deriving DecidableEq

/-! ### Rows -/

/-- The initial readings as they are persisted. -/
structure TuneRunInitialReadings where
  pvIni : ℚ
  mvIni : ℚ
  mvRangeLow : ℚ
  mvRangeHigh : ℚ
  pvRangeHigh : ℚ
  pvRangeLow : ℚ
  controllerDirection : ControllerDirection
  modeRaw : Option String
  modeAttributeRaw : Option String
  setpointIni : Option ℚ
  deriving DecidableEq

/-- The timing values a run was started with. -/
structure EffectiveTuning where
  mrftDelaySecs : ℕ
  pollIntervalMs : ℕ
  timeoutSecs : ℕ
  opTimeoutSecs : ℕ
  restoreTimeoutSecs : ℕ
  deriving DecidableEq

/-- A row of `tune_runs`: the columns that a modelled function reads. -/
structure TuneRunRow where
  id : ℕ
  loopId : Option ℕ
  demoSessionId : Option ℕ
  driver : TuneDriver
  opcServer : Option String
  bridgeHost : Option String
  startedAt : UtcTime
  completedAt : Option UtcTime
  outcome : TuneOutcome
  failureReason : Option String
  config : LoopConfig ℚ
  templateOrigin : TemplateOrigin
  template : DcsTemplate
  tags : LoopTags
  initialReadings : Option TuneRunInitialReadings
  allowUncertainQuality : Bool
  effectiveTuning : Option EffectiveTuning
  gatewayCompatibilityJson : Option String
  restoreStatus : Option RestoreStatus
  restoreDetail : Option String
  recoveryState : Option TuneRecoveryState
  recoveryEvidenceJson : Option String
  deriving DecidableEq

/-- A row of `live_operation_owners`. -/
structure LiveOwnershipRow where
  id : ℕ
  runId : Option ℕ
  operationKind : LiveOperationKind
  databaseKey : String
  resourceKey : ResourceKey
  ownerPid : ℕ
  acquiredAt : UtcTime
  heartbeatAt : UtcTime
  releasedAt : Option UtcTime
  state : LiveOwnershipState
  restoreIntentJson : Option String
  orphanEligible : Bool
  orphanEvidenceJson : Option String
  deriving DecidableEq

/-- `claim_key` of an owner's database and resource. -/
def LiveOwnershipRow.claimKey (owner : LiveOwnershipRow) : ClaimKey :=
  ⟨owner.databaseKey, owner.resourceKey⟩

/-- A row of `live_operation_claims`. -/
structure LiveOperationClaim where
  claimKey : ClaimKey
  ownerId : ℕ
  claimedAt : UtcTime
  deriving DecidableEq

/-- A row of `live_mutation_steps`. -/
structure LiveMutationStepRow where
  id : ℕ
  ownerId : ℕ
  runId : Option ℕ
  step : String
  targetJson : String
  previousJson : Option String
  status : MutationStepStatus
  startedAt : UtcTime
  completedAt : Option UtcTime
  readbackJson : Option String
  detail : Option String
  deriving DecidableEq

/-- A row of `tune_recovery_attempts`. -/
structure TuneRecoveryAttemptRow where
  id : ℕ
  runId : ℕ
  sourceOwnerId : ℕ
  recoveryOwnerId : ℕ
  exportPath : String
  startedAt : UtcTime
  completedAt : Option UtcTime
  status : RecoveryAttemptStatus
  detail : Option String
  evidenceJson : String
  deriving DecidableEq

/-! ### The database -/

/-- The tables, and the number that the next row of each will get. -/
structure Tables where
  runs : List TuneRunRow
  owners : List LiveOwnershipRow
  claims : List LiveOperationClaim
  steps : List LiveMutationStepRow
  attempts : List TuneRecoveryAttemptRow
  nextRun : ℕ
  nextOwner : ℕ
  nextStep : ℕ
  nextAttempt : ℕ
  deriving DecidableEq

/-- The keys of a numbered table: no number twice, and none from `next` on. -/
structure Numbered {ρ : Type} (id : ρ → ℕ) (next : ℕ) (rows : List ρ) : Prop where
  primaryKey : PrimaryKey id rows
  below : ∀ r ∈ rows, id r < next

instance {ρ : Type} (id : ρ → ℕ) (next : ℕ) (rows : List ρ) : Decidable (Numbered id next rows) :=
  decidable_of_iff (PrimaryKey id rows ∧ ∀ r ∈ rows, id r < next)
    ⟨fun h => ⟨h.1, h.2⟩, fun h => ⟨h.primaryKey, h.below⟩⟩

/-- The `CHECK` constraints of an owner. -/
def LiveOwnershipRow.Checked (o : LiveOwnershipRow) : Prop :=
  (o.state = .active ↔ o.releasedAt = none) ∧ (o.orphanEligible = true → o.state = .orphaned)

instance (o : LiveOwnershipRow) : Decidable o.Checked :=
  inferInstanceAs (Decidable ((_ ↔ _) ∧ (_ → _)))

/-- The constraints of the schema. -/
structure Constraints (t : Tables) : Prop where
  runs : Numbered TuneRunRow.id t.nextRun t.runs
  owners : Numbered LiveOwnershipRow.id t.nextOwner t.owners
  claims : PrimaryKey LiveOperationClaim.claimKey t.claims
  claimOwners : PrimaryKey LiveOperationClaim.ownerId t.claims
  steps : Numbered LiveMutationStepRow.id t.nextStep t.steps
  attempts : Numbered TuneRecoveryAttemptRow.id t.nextAttempt t.attempts
  recoveryOwners : PrimaryKey TuneRecoveryAttemptRow.recoveryOwnerId t.attempts
  ownerChecks : ∀ o ∈ t.owners, o.Checked
  attemptChecks : ∀ a ∈ t.attempts, a.status = .running ↔ a.completedAt = none
  stepChecks : ∀ x ∈ t.steps, x.status = .intent ↔ x.completedAt = none
  ownerRuns : ∀ o ∈ t.owners, ∀ id ∈ o.runId, ∃ r ∈ t.runs, r.id = id
  claimedOwners : ∀ c ∈ t.claims, ∃ o ∈ t.owners, o.id = c.ownerId
  stepOwners : ∀ x ∈ t.steps, ∃ o ∈ t.owners, o.id = x.ownerId
  stepRuns : ∀ x ∈ t.steps, ∀ id ∈ x.runId, ∃ r ∈ t.runs, r.id = id
  attemptRuns : ∀ a ∈ t.attempts, ∃ r ∈ t.runs, r.id = a.runId
  attemptSources : ∀ a ∈ t.attempts, ∃ o ∈ t.owners, o.id = a.sourceOwnerId
  attemptOwners : ∀ a ∈ t.attempts, ∃ o ∈ t.owners, o.id = a.recoveryOwnerId

theorem constraints_iff (t : Tables) :
    Constraints t ↔
      (Numbered TuneRunRow.id t.nextRun t.runs ∧
        Numbered LiveOwnershipRow.id t.nextOwner t.owners ∧
        PrimaryKey LiveOperationClaim.claimKey t.claims ∧
        PrimaryKey LiveOperationClaim.ownerId t.claims ∧
        Numbered LiveMutationStepRow.id t.nextStep t.steps ∧
        Numbered TuneRecoveryAttemptRow.id t.nextAttempt t.attempts ∧
        PrimaryKey TuneRecoveryAttemptRow.recoveryOwnerId t.attempts) ∧
      ((∀ o ∈ t.owners, o.Checked) ∧
        (∀ a ∈ t.attempts, a.status = .running ↔ a.completedAt = none) ∧
        ∀ x ∈ t.steps, x.status = .intent ↔ x.completedAt = none) ∧
      (∀ o ∈ t.owners, ∀ id ∈ o.runId, ∃ r ∈ t.runs, r.id = id) ∧
      (∀ c ∈ t.claims, ∃ o ∈ t.owners, o.id = c.ownerId) ∧
      (∀ x ∈ t.steps, ∃ o ∈ t.owners, o.id = x.ownerId) ∧
      (∀ x ∈ t.steps, ∀ id ∈ x.runId, ∃ r ∈ t.runs, r.id = id) ∧
      (∀ a ∈ t.attempts, ∃ r ∈ t.runs, r.id = a.runId) ∧
      (∀ a ∈ t.attempts, ∃ o ∈ t.owners, o.id = a.sourceOwnerId) ∧
      ∀ a ∈ t.attempts, ∃ o ∈ t.owners, o.id = a.recoveryOwnerId := by
  constructor
  · intro h
    exact ⟨⟨h.runs, h.owners, h.claims, h.claimOwners, h.steps, h.attempts, h.recoveryOwners⟩,
      ⟨h.ownerChecks, h.attemptChecks, h.stepChecks⟩, h.ownerRuns, h.claimedOwners, h.stepOwners,
      h.stepRuns, h.attemptRuns, h.attemptSources, h.attemptOwners⟩
  · rintro ⟨⟨h₁, h₂, h₃, h₄, h₅, h₆, h₇⟩, ⟨h₈, h₉, h₁₀⟩, h₁₁, h₁₂, h₁₃, h₁₄, h₁₅, h₁₆, h₁₇⟩
    exact ⟨h₁, h₂, h₃, h₄, h₅, h₆, h₇, h₈, h₉, h₁₀, h₁₁, h₁₂, h₁₃, h₁₄, h₁₅, h₁₆, h₁₇⟩

instance : DecidablePred Constraints := fun t => decidable_of_iff _ (constraints_iff t).symm

/-- A database: tables that satisfy the constraints of the schema. -/
abbrev Db := Subtype Constraints

/-- The database as the migrations leave it. -/
def Tables.empty : Tables where
  runs := []
  owners := []
  claims := []
  steps := []
  attempts := []
  nextRun := 1
  nextOwner := 1
  nextStep := 1
  nextAttempt := 1

/-- Why a database operation failed. -/
inductive DbError where
  | query
  | liveOwnershipLost
  deriving DecidableEq, Repr

/-- A program on one connection of the pool. -/
abbrev DbM := EStateM DbError (Session Constraints)

end Bhtune
