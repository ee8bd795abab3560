import Bhtune.Db.LiveSystem
import Bhtune.Library.ActionRun

/-!
# The parties that share one database

The parties are the operations of any number of processes on one database: those that hold a
`LiveOperationGuard` and write through an `AuditedDriver`, the startup sweep, and `restore-loop`.
Each holds the database's OS lock from its first step on; what it drops, also by dying, frees it.

* `Party`, `Fleet` — where each party is, the lock, and the database they share;
* `FleetAction` — a transaction, a hand-over of a write to the inner driver, or a drop;
* `Fleet.step` — the state after an action, where it can be taken.
-/

namespace Bhtune

open ActionRun Table Transaction

/-! ### The parties -/

/-- A write of an `AuditedDriver`, from its intent on. -/
structure AuditedWrite where
  stepId : ℕ
  runId : Option ℕ
  tag : String
  value : TagWrite
  handed : Bool := false
  deriving DecidableEq

/-- A `LiveOperationGuard` and the writes in flight under it. -/
structure HeldGuard where
  ownerId : ℕ
  heartbeatFailed : Bool := false
  writes : List AuditedWrite := []
  deriving DecidableEq

/-- Where a party is. -/
inductive Party where
  | idle
  /-- It holds a `DatabaseFileGuard`. -/
  | locked
  | guarding (guard : HeldGuard)
  deriving DecidableEq

namespace HeldGuard

/-- A write is given to the inner driver. -/
def hand (guard : HeldGuard) (stepId : ℕ) : HeldGuard :=
  { guard with
    writes := guard.writes.map fun w => if w.stepId = stepId then { w with handed := true } else w }

/-- A write is over. -/
def without (guard : HeldGuard) (stepId : ℕ) : HeldGuard :=
  { guard with writes := guard.writes.filter fun w => w.stepId ≠ stepId }

/-- A write whose step is this one, and whether it was given to the inner driver. -/
def inFlight (guard : HeldGuard) (stepId : ℕ) (handed : Bool) : Bool :=
  guard.writes.any fun w => w.stepId = stepId && w.handed = handed

/-- The steps of the writes that were given to the inner driver. -/
def handedSteps (guard : HeldGuard) : List ℕ :=
  (guard.writes.filter AuditedWrite.handed).map AuditedWrite.stepId

end HeldGuard

/-- The shared database, the lock and the parties.  `dropped` are the steps of the writes that were
dropped after they had been given to the inner driver: their last statement may still be made. -/
structure Fleet where
  live : LiveSystem
  lock : Option ℕ := none
  parties : ℕ → Party := fun _ => .idle
  dropped : List ℕ := []

/-- What happens next. -/
inductive FleetAction where
  /-- A party asks for the OS lock. -/
  | acquireLock (party : ℕ)
  /-- `LiveOperationGuard::acquire`, with the lock held. -/
  | claim (party : ℕ) (new : NewLiveOwnership) (refusals : List Bool)
  /-- `restore-loop` takes over from an orphan, with the lock held. -/
  | takeOver (party : ℕ) (newOwner : NewLiveOwnership) (claimKey : ClaimKey)
      (sourceOwnerId runId : ℕ) (exportPath evidenceJson : String) (refusals : List Bool)
  /-- A transaction of the startup sweep, with the lock held. -/
  | sweep (party : ℕ) (call : LiveCall) (refusals : List Bool)
  /-- A heartbeat task beats; it may outlive its guard. -/
  | heartbeat (ownerId : ℕ) (now : UtcTime) (refusals : List Bool)
  /-- A heartbeat task notes that it has failed. -/
  | heartbeatFails (party : ℕ)
  /-- `LiveOperationGuard::persist_restore_intent`. -/
  | setRestoreIntent (party : ℕ) (intentJson : String) (refusals : List Bool)
  /-- `restore-loop` ends its attempt. -/
  | complete (party : ℕ) (update : TuneRecoveryAttemptRow.CompleteRecoveryUpdate)
      (refusals : List Bool)
  /-- `LiveOperationGuard::release`. -/
  | release (party : ℕ) (now : UtcTime) (refusals : List Bool)
  /-- `AuditedDriver::write` records its intent. -/
  | begin (party : ℕ) (runId : Option ℕ) (tag : String) (value : TagWrite)
      (previousJson : Option String) (now : UtcTime) (refusals : List Bool)
  /-- It gives the write to the inner driver. -/
  | hand (party stepId : ℕ)
  /-- It records how the inner driver answered. -/
  | finish (party stepId : ℕ) (accepted : Bool) (now : UtcTime) (detail : String)
      (refusals : List Bool)
  /-- A timeout or an interrupt drops the write. -/
  | dropWrite (party stepId : ℕ)
  /-- The party drops what it holds, or its process dies. -/
  | drop (party : ℕ)
  /-- The intent of a write that was dropped while it was recorded. -/
  | lateBegin (new : NewLiveMutationStep) (refusals : List Bool)
  /-- The last statement of a write that was dropped during it. -/
  | lateFinish (stepId : ℕ) (accepted : Bool) (now : UtcTime) (detail : String)
      (refusals : List Bool)
  | startRun (new : NewTuneRun) (refusals : List Bool)
  | updateRun (runId : ℕ) (update : RunUpdate) (refusals : List Bool)

/-! ### Steps -/

/-- The transactions of the startup sweep. -/
def LiveCall.bySweep : LiveCall → Bool
  | .markOrphaned _ | .markOrphanedUnrecoverable _ | .abandonAfterRestart _ => true
  | _ => false

instance (s : LiveSystem) (call : LiveCall) : Decidable (call.Passes s) := by
  cases call <;> unfold LiveCall.Passes <;> infer_instance

/-- How `AuditedDriver` finishes a step. -/
def finishWrite (stepId : ℕ) (accepted : Bool) (now : UtcTime) (detail : String) :
    DbM LiveMutationStepRow :=
  LiveMutationStepRow.finish stepId (if accepted then .confirmed else .failed) now none
    (some detail)

namespace LiveSystem

/-- The system after one of the ownership calls. -/
def callWith (s : LiveSystem) (call : LiveCall) (refusals : List Bool) : LiveSystem :=
  ⟨after call.run s.db refusals, call.leaves s.unowned⟩

/-- The system after a statement that is none of them. -/
def statement {α : Type} (s : LiveSystem) (x : DbM α) (refusals : List Bool) : LiveSystem :=
  ⟨after x s.db refusals, s.unowned⟩

/-- The system after a run was started. -/
def startRun (s : LiveSystem) (new : NewTuneRun) (refusals : List Bool) : LiveSystem :=
  match TuneRunRow.startWithDemoSession new ⟨s.db, refusals⟩ with
  | .ok row s' => ⟨s'.store, row.id :: s.unowned⟩
  | .error _ s' => ⟨s'.store, s.unowned⟩

end LiveSystem

namespace Fleet

/-- The migrated database, with no party at work. -/
def initial : Fleet where
  live := .initial

/-- A party goes on. -/
def move (s : Fleet) (i : ℕ) (party : Party) : Fleet :=
  { s with parties := fun j => if j = i then party else s.parties j }

/-- A party drops what it holds. -/
def drop (s : Fleet) (i : ℕ) : Fleet :=
  { s.move i .idle with
    lock := if s.lock = some i then none else s.lock
    dropped := match s.parties i with
      | .guarding guard => guard.handedSteps ++ s.dropped
      | _ => s.dropped }

/-- What a party that holds the lock makes of the owner it was given: without one, it gives up. -/
def start (s : Fleet) (i : ℕ) (owner : Option LiveOwnershipRow) : Fleet :=
  match owner with
  | some owner => s.move i (.guarding { ownerId := owner.id })
  | none => s.drop i

variable (encode : String → TagWrite → String)

/-- The intent of a write; `encode` is `write_target_json`. -/
def intent (guard : HeldGuard) (runId : Option ℕ) (tag : String) (value : TagWrite)
    (previousJson : Option String) (now : UtcTime) : NewLiveMutationStep where
  ownerId := guard.ownerId
  runId := runId
  step := "controller_write"
  targetJson := encode tag value
  previousJson := previousJson
  startedAt := now

/-- What a guard does. -/
def guardStep (s : Fleet) (i : ℕ) (guard : HeldGuard) : FleetAction → Option Fleet
  | .heartbeatFails _ => some (s.move i (.guarding { guard with heartbeatFailed := true }))
  | .setRestoreIntent _ intentJson refusals =>
    if guard.heartbeatFailed then none
    else some { s with
      live := s.live.callWith (.setRestoreIntent guard.ownerId intentJson) refusals }
  | .complete _ update refusals =>
    if guard.writes = [] ∧ update.recoveryOwnerId = guard.ownerId then
      some { s with live := s.live.callWith (.completeWithOwnership update) refusals }
    else none
  | .release _ now refusals =>
    let call := LiveCall.release guard.ownerId now
    if guard.writes = [] ∧ guard.heartbeatFailed = false ∧ call.Passes s.live then
      some { s.drop i with live := s.live.callWith call refusals }
    else none
  | .begin _ runId tag value previousJson now refusals =>
    if guard.heartbeatFailed then none
    else
      let new := intent encode guard runId tag value previousJson now
      let s' := { s with live := s.live.statement (LiveMutationStepRow.begin new) refusals }
      match answer (LiveMutationStepRow.begin new) s.live.db refusals with
      | some row => some (s'.move i (.guarding { guard with
          writes := ⟨row.id, runId, tag, value, false⟩ :: guard.writes }))
      | none => some s'
  | .hand _ stepId =>
    if guard.inFlight stepId false then some (s.move i (.guarding (guard.hand stepId))) else none
  | .finish _ stepId accepted now detail refusals =>
    if guard.inFlight stepId true then
      some { s.move i (.guarding (guard.without stepId)) with
        live := s.live.statement (finishWrite stepId accepted now detail) refusals }
    else none
  | .dropWrite _ stepId =>
    some { s.move i (.guarding (guard.without stepId)) with
      dropped := if guard.inFlight stepId true then stepId :: s.dropped else s.dropped }
  | _ => none

/-- What a party does that holds nothing but the lock. -/
def lockedStep (s : Fleet) (i : ℕ) : FleetAction → Option Fleet
  | .claim _ new refusals =>
    let claimKey : ClaimKey := ⟨new.databaseKey, new.resourceKey⟩
    let call := LiveCall.createAndClaim new claimKey
    if call.Passes s.live then
      some (start { s with live := s.live.callWith call refusals } i
        (answer (LiveOwnershipRow.createAndClaim new claimKey) s.live.db refusals).join)
    else none
  | .takeOver _ newOwner claimKey sourceOwnerId runId exportPath evidenceJson refusals =>
    some (start { s with
        live := s.live.callWith (.startWithClaim newOwner claimKey sourceOwnerId runId exportPath
          evidenceJson) refusals } i
      ((answer (TuneRecoveryAttemptRow.startWithClaim newOwner claimKey sourceOwnerId runId
        exportPath evidenceJson) s.live.db refusals).join.map Prod.fst))
  | .sweep _ call refusals =>
    if call.bySweep ∧ call.Passes s.live then
      some { s with live := s.live.callWith call refusals }
    else none
  | _ => none

/-- The party that acts. -/
def actor : FleetAction → Option ℕ
  | .acquireLock i | .claim i .. | .takeOver i .. | .sweep i .. | .heartbeatFails i
  | .setRestoreIntent i .. | .complete i .. | .release i .. | .begin i .. | .hand i _
  | .finish i .. | .dropWrite i _ | .drop i => some i
  | _ => none

/-- What happens without a party: statements of tasks that outlive theirs, and of runs. -/
def backgroundStep (s : Fleet) : FleetAction → Option Fleet
  | .heartbeat ownerId now refusals =>
    some { s with live := s.live.callWith (.heartbeat ownerId now) refusals }
  | .lateBegin new refusals =>
    some { s with live := s.live.statement (LiveMutationStepRow.begin new) refusals }
  | .lateFinish stepId accepted now detail refusals =>
    if stepId ∈ s.dropped then
      some { s with live := s.live.statement (finishWrite stepId accepted now detail) refusals }
    else none
  | .startRun new refusals => some { s with live := s.live.startRun new refusals }
  | .updateRun runId update refusals =>
    some { s with live := s.live.statement (TuneRunRow.updateRow runId update) refusals }
  | _ => none

/-- The state after an action, where it can be taken. -/
def step (s : Fleet) (a : FleetAction) : Option Fleet :=
  match actor a with
  | none => s.backgroundStep a
  | some i =>
    match a, s.parties i with
    | .drop _, _ => some (s.drop i)
    | .acquireLock _, .idle =>
      if s.lock = none then some { s.move i .locked with lock := some i } else some s
    | a, .locked => s.lockedStep i a
    | a, .guarding guard => guardStep encode s i guard a
    | _, .idle => none

end Fleet

/-- The step relation of the parties. -/
abbrev FleetStep (encode : String → TagWrite → String) : Fleet → FleetAction → Fleet → Prop :=
  stepOf (Fleet.step encode)

end Bhtune
