import Bhtune.Db.OwnershipInvariant

/-!
# The database under every sequence of calls

A system is the database and the runs that were started but whose tune has not yet asked for its
ownership.  A step is one call: it may be refused at any of its statements.

* `LiveCall`, `Passes` — the nine ownership calls, and what their callers pass;
* `Step`, `Reach` — the calls in any order, with those that start, update and delete runs and
  those that audit mutations in between;
* `reach_inv` — the invariant in every reachable state;
* `ownership_invariant` — what it says of owners, claims, runs and attempts.
-/

namespace Bhtune

open Table Transaction

/-! ### Calls -/

/-- A call of one of the ownership transactions. -/
inductive LiveCall where
  | createAndClaim (new : NewLiveOwnership) (claimKey : ClaimKey)
  | heartbeat (ownerId : ℕ) (now : UtcTime)
  | release (ownerId : ℕ) (now : UtcTime)
  | setRestoreIntent (ownerId : ℕ) (intentJson : String)
  | markOrphaned (update : LiveOwnershipRow.OrphanOwnerUpdate)
  | markOrphanedUnrecoverable (update : LiveOwnershipRow.UnrecoverableOwnerUpdate)
  | startWithClaim (newOwner : NewLiveOwnership) (claimKey : ClaimKey) (sourceOwnerId runId : ℕ)
      (exportPath evidenceJson : String)
  | completeWithOwnership (update : TuneRecoveryAttemptRow.CompleteRecoveryUpdate)
  | abandonAfterRestart (update : TuneRecoveryAttemptRow.RestartRecoveryUpdate)

/-- The call, without its result. -/
def LiveCall.run : LiveCall → DbM Unit
  | .createAndClaim new claimKey => do let _ ← LiveOwnershipRow.createAndClaim new claimKey
  | .heartbeat ownerId now => LiveOwnershipRow.heartbeat ownerId now
  | .release ownerId now => LiveOwnershipRow.release ownerId now
  | .setRestoreIntent ownerId intentJson => LiveOwnershipRow.setRestoreIntent ownerId intentJson
  | .markOrphaned update => do let _ ← LiveOwnershipRow.markOrphaned update
  | .markOrphanedUnrecoverable update => do
    let _ ← LiveOwnershipRow.markOrphanedUnrecoverable update
  | .startWithClaim newOwner claimKey sourceOwnerId runId exportPath evidenceJson => do
    let _ ← TuneRecoveryAttemptRow.startWithClaim newOwner claimKey sourceOwnerId runId exportPath
      evidenceJson
  | .completeWithOwnership update => TuneRecoveryAttemptRow.completeWithOwnership update
  | .abandonAfterRestart update => do let _ ← TuneRecoveryAttemptRow.abandonAfterRestart update

/-- The database, and the started runs whose tune has not asked for its ownership. -/
structure LiveSystem where
  db : Db
  unowned : List ℕ

/-- No owner with this number was made by a recovery. -/
def Tables.notRecovery (t : Tables) (ownerId : ℕ) : Prop :=
  ∀ o ∈ t.owners, o.id = ownerId → o.operationKind ≠ .recovery

instance (t : Tables) (ownerId : ℕ) : Decidable (t.notRecovery ownerId) :=
  inferInstanceAs (Decidable (∀ o ∈ _, _))

/-- What the callers pass.  A guard is acquired under the key of its own resource, never for a
recovery, and for a tune once, by the preparation that started its run.  `LiveOperationGuard`
releases no recovery, and the sweep retires none.  Everything else may be any value. -/
def LiveCall.Passes (s : LiveSystem) : LiveCall → Prop
  | .createAndClaim new claimKey =>
    claimKey = ⟨new.databaseKey, new.resourceKey⟩ ∧ new.operationKind ≠ .recovery ∧
      (new.operationKind = .tune → ∃ runId ∈ s.unowned, new.runId = some runId)
  | .release ownerId _ => s.db.1.notRecovery ownerId
  | .markOrphanedUnrecoverable update => s.db.1.notRecovery update.ownerId
  | _ => True

/-- The runs that stay unowned: a tune asks for its ownership once. -/
def LiveCall.leaves (unowned : List ℕ) : LiveCall → List ℕ
  | .createAndClaim new _ =>
    if new.operationKind = .tune then unowned.filter fun id => some id ≠ new.runId else unowned
  | _ => unowned

/-- The database after a call, however it ended. -/
def after {α : Type} (x : DbM α) (d : Db) (refusals : List Bool) : Db :=
  match x ⟨d, refusals⟩ with
  | .ok _ s => s.store
  | .error _ s => s.store

theorem after_discard {α : Type} (x : DbM α) (d : Db) (refusals : List Bool) :
    after (do let _ ← x) d refusals = after x d refusals := by
  unfold Bhtune.after
  cases hx : x ⟨d, refusals⟩ with
  | ok a s =>
    have hrun : (do let _ ← x : DbM Unit) ⟨d, refusals⟩ = .ok () s := by
      show EStateM.bind x _ _ = _
      unfold EStateM.bind
      rw [hx]
      rfl
    rw [hrun]
  | error e s =>
    have hrun : (do let _ ← x : DbM Unit) ⟨d, refusals⟩ = .error e s := by
      show EStateM.bind x _ _ = _
      unfold EStateM.bind
      rw [hx]
    rw [hrun]

/-- What a call answers. -/
def answer {α : Type} (x : DbM α) (d : Db) (refusals : List Bool) : Option α :=
  match x ⟨d, refusals⟩ with
  | .ok a _ => some a
  | .error _ _ => none

/-! ### Steps -/

/-- One call, in the midst of what else happens to these tables. -/
inductive Step (s : LiveSystem) : LiveSystem → Prop
  | live (call : LiveCall) (h : call.Passes s) (refusals : List Bool) :
      Step s ⟨after call.run s.db refusals, call.leaves s.unowned⟩
  | start (new : NewTuneRun) (refusals : List Bool) :
      Step s (match TuneRunRow.startWithDemoSession new ⟨s.db, refusals⟩ with
        | .ok row s' => ⟨s'.store, row.id :: s.unowned⟩
        | .error _ s' => ⟨s'.store, s.unowned⟩)
  | updateRun (runId : ℕ) (update : RunUpdate) (refusals : List Bool) :
      Step s ⟨after (TuneRunRow.updateRow runId update) s.db refusals, s.unowned⟩
  | beginStep (new : NewLiveMutationStep) (refusals : List Bool) :
      Step s ⟨after (LiveMutationStepRow.begin new) s.db refusals, s.unowned⟩
  | finishStep (stepId : ℕ) (status : MutationStepStatus) (now : UtcTime)
      (readbackJson detail : Option String) (refusals : List Bool) :
      Step s ⟨after (LiveMutationStepRow.finish stepId status now readbackJson detail) s.db
        refusals, s.unowned⟩
  | delete (id : ℕ) (refusals : List Bool) :
      Step s ⟨after (TuneRunRow.delete id) s.db refusals, s.unowned⟩
  | deleteMatching (filter : TuneRunFilter) (refusals : List Bool) :
      Step s ⟨after (TuneRunRow.deleteMatching filter) s.db refusals, s.unowned⟩

/-- The migrated database, with no run. -/
def LiveSystem.initial : LiveSystem := ⟨⟨Tables.empty, by decide⟩, []⟩

/-- The states that some sequence of calls leads to. -/
inductive Reach : LiveSystem → Prop
  | initial : Reach .initial
  | step {s s' : LiveSystem} (h : Reach s) (hstep : Step s s') : Reach s'

/-! ### A step is a move -/

section Steps

theorem after_of_ends {α : Type} {x : DbM α} {Q : α → Db → Prop} {E : DbError → Db → Prop} {d : Db}
    (h : Ends x Q E d) (refusals : List Bool) :
    (∃ a, Q a (after x d refusals)) ∨ ∃ e, E e (after x d refusals) := by
  have hrun := h refusals
  unfold Effect.wp at hrun
  unfold Bhtune.after
  cases hx : x ⟨d, refusals⟩ with
  | ok a s =>
    rw [hx] at hrun
    exact .inl ⟨a, hrun⟩
  | error e s =>
    rw [hx] at hrun
    exact .inr ⟨e, hrun⟩

theorem ends_discard {α : Type} {x : DbM α} {Q : α → Db → Prop} {E : DbError → Db → Prop} {d : Db}
    (h : Ends x Q E d) : Ends (do let _ ← x) (fun _ d' => ∃ a, Q a d') E d :=
  ends_seq h fun a _ ha => ends_pure ⟨a, ha⟩

theorem unmoved_refl (t : Tables) : Unmoved t t := ⟨rfl, rfl, rfl, rfl⟩

/-- What is unchanged has moved nothing. -/
theorem move_of_eq {acquires : Option ℕ → Prop} {settles : ℕ → Prop} {d d' : Db} (h : d' = d) :
    OwnershipMove acquires settles d.1 d'.1 := .unmoved (h ▸ unmoved_refl d'.1)

/-- Whether the call is to confirm the recovery of a run. -/
def LiveCall.Settles (runId : ℕ) : LiveCall → Prop
  | .completeWithOwnership update => update.status = .confirmed ∧ update.runId = runId
  | _ => False

/-- What a call may make of the database: a move, which leaves the audited mutations alone. -/
def LiveMoved (c : LiveCall) (s : LiveSystem) (d' : Db) : Prop :=
  OwnershipMove (fun r => ∃ id, r = some id ∧ id ∉ c.leaves s.unowned) (fun id => c.Settles id)
    s.db.1 d'.1 ∧ d'.1.steps = s.db.1.steps

theorem liveMoved_of_eq {c : LiveCall} {s : LiveSystem} {d' : Db} (h : d' = s.db) :
    LiveMoved c s d' := ⟨move_of_eq h, h ▸ rfl⟩

/-- **A failed call changes nothing.**  The result of a call that answers is a move. -/
theorem LiveCall.ends (s : LiveSystem) (c : LiveCall) (h : c.Passes s)
    (hunowned : ∀ id ∈ s.unowned, ∀ o ∈ s.db.1.owners, o.operationKind = .tune →
      o.runId ≠ some id) :
    Ends c.run (fun _ d' => LiveMoved c s d') (fun _ d' => d' = s.db) s.db := by
  cases c with
  | createAndClaim new claimKey =>
    obtain ⟨rfl, hkind, htune⟩ := h
    refine ends_mono (ends_discard (createAndClaim_ends new s.db)) ?_ (fun _ _ h => h)
    rintro _ d' ⟨r, hr⟩
    cases r with
    | none => exact liveMoved_of_eq hr
    | some o =>
      obtain ⟨rfl, hclaimed⟩ := hr
      refine ⟨.claimed _ hclaimed hkind ?_, hclaimed.steps⟩
      intro hnew
      obtain ⟨runId, hmem, hrun⟩ := htune hnew
      constructor
      · refine ⟨runId, hrun, ?_⟩
        simp only [LiveCall.leaves]
        rw [if_pos (show new.operationKind = .tune from hnew)]
        simp [hrun]
      · intro x hx hxtune heq
        exact hunowned runId hmem x hx hxtune (heq.trans hrun)
  | heartbeat ownerId now =>
    refine ends_mono (heartbeat_ends ownerId now s.db) ?_ (fun _ _ h => h)
    rintro _ d' ⟨o, _, htouched⟩
    exact ⟨.touched o _ htouched, htouched.steps⟩
  | release ownerId now =>
    refine ends_mono (release_ends ownerId now s.db) ?_ (fun _ _ h => h)
    rintro _ d' ⟨o, o', hown, hretired⟩
    exact ⟨.retired o o' hretired (h o hretired.owners.was hown), hretired.steps⟩
  | setRestoreIntent ownerId intentJson =>
    refine ends_mono (setRestoreIntent_ends ownerId intentJson s.db) ?_ (fun _ _ h => h)
    rintro _ d' ⟨o, _, htouched⟩
    exact ⟨.touched o _ htouched, htouched.steps⟩
  | markOrphaned update =>
    refine ends_mono (ends_discard (markOrphaned_ends update s.db)) ?_ (fun _ _ h => h)
    rintro _ d' ⟨marked, hmarked⟩
    cases marked with
    | false => exact liveMoved_of_eq hmarked
    | true =>
      obtain ⟨o, o', _, htune, hmove⟩ := hmarked
      by_cases heligible : update.eligible = true
      · rw [if_pos heligible] at hmove
        exact ⟨.orphaned o o' hmove, hmove.steps⟩
      · rw [if_neg heligible] at hmove
        exact ⟨.retired o o' hmove (by rw [htune]; nofun), hmove.steps⟩
  | markOrphanedUnrecoverable update =>
    refine ends_mono (ends_discard (markOrphanedUnrecoverable_ends update s.db)) ?_
      (fun _ _ h => h)
    rintro _ d' ⟨retired, hretired⟩
    cases retired with
    | false => exact liveMoved_of_eq hretired
    | true =>
      obtain ⟨o, o', hown, hmove⟩ := hretired
      exact ⟨.retired o o' hmove (h o hmove.owners.was hown), hmove.steps⟩
  | startWithClaim newOwner claimKey sourceOwnerId runId exportPath evidenceJson =>
    refine ends_mono (ends_discard (startWithClaim_ends newOwner claimKey sourceOwnerId runId
      exportPath evidenceJson s.db)) ?_ (fun _ _ h => h)
    rintro _ d' ⟨r, hr⟩
    cases r with
    | none => exact liveMoved_of_eq hr
    | some x =>
      obtain ⟨source, _, _, _, htaken⟩ := hr
      exact ⟨.takenOver source x.1 x.2 htaken, htaken.steps⟩
  | completeWithOwnership update =>
    refine ends_mono (completeWithOwnership_ends update s.db) ?_ (fun _ _ h => h)
    rintro _ d' ⟨source, source', o, o', a, a', _, harun, hmove⟩
    cases hstatus : update.status with
    | running =>
      rw [hstatus] at hmove
      exact hmove.elim
    | confirmed =>
      rw [hstatus] at hmove
      exact ⟨.settled source source' o o' a a' hmove ⟨hstatus, harun.symm⟩, hmove.concluded.steps⟩
    | incomplete =>
      rw [hstatus] at hmove
      exact ⟨.returned source source' o o' a a' _ hmove, hmove.concluded.steps⟩
    | failed =>
      rw [hstatus] at hmove
      exact ⟨.returned source source' o o' a a' _ hmove, hmove.concluded.steps⟩
  | abandonAfterRestart update =>
    refine ends_mono (ends_discard (abandonAfterRestart_ends update s.db)) ?_ (fun _ _ h => h)
    rintro _ d' ⟨abandoned, hr⟩
    cases abandoned with
    | false => exact liveMoved_of_eq hr
    | true =>
      obtain ⟨source, o, o', a, a', _, hmove⟩ := hr
      exact ⟨.returned source source o o' a a' _ hmove, hmove.concluded.steps⟩

/-- `start` makes a run that no owner refers to. -/
theorem startWithDemoSession_ends (new : NewTuneRun) (d : Db) :
    Ends (TuneRunRow.startWithDemoSession new)
      (fun row d' => row = new.row d.1.nextRun ∧ RunStarted row d.1 d'.1) (fun _ d' => d' = d) d := by
  refine ends_statement rfl ?_
  intro h
  exact ⟨rfl, rfl, inserted_append _ _, rfl, rfl, rfl, rfl, rfl⟩

theorem RunUpdate.apply_recovery (u : RunUpdate) (r : TuneRunRow) :
    (u.apply r).id = r.id ∧ (u.apply r).recoveryState = r.recoveryState ∧
      ((u.apply r).outcome = .running → r.outcome = .running) := by
  cases u <;> simp [RunUpdate.apply]

theorem updateRow_ends (runId : ℕ) (u : RunUpdate) (d : Db) :
    Ends (TuneRunRow.updateRow runId u)
      (fun _ d' => ∃ r, r.id = runId ∧ RunUpdated r (u.apply r) d.1 d'.1)
      (fun _ d' => d' = d) d := by
  have hfind := updateWhere_find (p := fun r : TuneRunRow => r.id = runId) (f := u.apply)
    d.2.runs.primaryKey (fun x y hx hy => (of_decide_eq_true hx).trans (of_decide_eq_true hy).symm)
    (fun r => (u.apply_recovery r).1)
  refine ends_seq (ends_statement (Q := fun row d' => row.elim (d' = d) fun _ =>
    ∃ r, r.id = runId ∧ RunUpdated r (u.apply r) d.1 d'.1) rfl ?_) ?_
  · intro h
    dsimp only at h ⊢
    revert hfind
    cases hrow : d.1.runs.find? fun r => r.id = runId with
    | none =>
      intro hsame
      apply Subtype.ext
      dsimp only
      rw [hsame]
    | some r =>
      rintro ⟨hid, hruns⟩
      exact ⟨r, of_decide_eq_true hid, (u.apply_recovery r).2.1, (u.apply_recovery r).2.2, hruns,
        rfl, rfl, rfl, rfl⟩
  · intro row d' hrow
    cases row with
    | none => exact ends_throw hrow
    | some row => exact ends_pure hrow

/-- A mutation that is audited is one step row more, which may be made by the owner alone. -/
theorem beginStep_ends (new : NewLiveMutationStep) (d : Db) :
    Ends (LiveMutationStepRow.begin new)
      (fun row d' => row = new.row d.1.nextStep ∧ d.1.mayMutate new.ownerId new.runId = true ∧
        Unmoved d.1 d'.1 ∧ Inserted row d.1.steps d'.1.steps)
      (fun _ d' => d' = d) d := by
  refine ends_seq (ends_statement (Q := fun row d' => row.elim (d' = d) fun row =>
    row = new.row d.1.nextStep ∧ d.1.mayMutate new.ownerId new.runId = true ∧
      Unmoved d.1 d'.1 ∧ Inserted row d.1.steps d'.1.steps) rfl ?_) ?_
  · dsimp only
    by_cases hmay : d.1.mayMutate new.ownerId new.runId = true
    · simp only [if_pos hmay]
      intro h
      exact ⟨rfl, hmay, ⟨rfl, rfl, rfl, rfl⟩, inserted_append _ _⟩
    · simp only [if_neg hmay]
      intro h
      trivial
  · intro row d' hrow
    cases row with
    | none => exact ends_throw hrow
    | some row => exact ends_pure hrow

/-- A step row is finished once, from its intent. -/
theorem finishStep_ends (stepId : ℕ) (status : MutationStepStatus) (now : UtcTime)
    (readbackJson detail : Option String) (d : Db) :
    Ends (LiveMutationStepRow.finish stepId status now readbackJson detail)
      (fun row d' => ∃ x, x.id = stepId ∧ x.status = .intent ∧ row.status ≠ .intent ∧
        row = { x with
          status := status
          completedAt := some now
          readbackJson := readbackJson
          detail := detail } ∧
        Unmoved d.1 d'.1 ∧ Replaced LiveMutationStepRow.id x row d.1.steps d'.1.steps)
      (fun _ d' => d' = d) d := by
  unfold LiveMutationStepRow.finish
  by_cases hintent : status = .intent
  · rw [if_pos hintent]
    exact ends_throw rfl
  rw [if_neg hintent]
  have hopen : ∀ x : LiveMutationStepRow, LiveMutationStepRow.openStep stepId x = true →
      x.id = stepId ∧ x.status = .intent := by
    simp [LiveMutationStepRow.openStep]
  have hfind := updateWhere_find (p := LiveMutationStepRow.openStep stepId)
    (f := fun x => { x with
      status := status
      completedAt := some now
      readbackJson := readbackJson
      detail := detail })
    d.2.steps.primaryKey (fun x y hx hy => (hopen x hx).1.trans (hopen y hy).1.symm)
    (fun _ => rfl)
  refine ends_seq (ends_statement (Q := fun row d' => row.elim (d' = d) fun row =>
    ∃ x, x.id = stepId ∧ x.status = .intent ∧ row.status ≠ .intent ∧
      row = { x with
        status := status
        completedAt := some now
        readbackJson := readbackJson
        detail := detail } ∧
      Unmoved d.1 d'.1 ∧ Replaced LiveMutationStepRow.id x row d.1.steps d'.1.steps) rfl ?_) ?_
  · intro h
    dsimp only at h ⊢
    revert hfind
    cases hrow : d.1.steps.find? (LiveMutationStepRow.openStep stepId) with
    | none =>
      intro hsame
      apply Subtype.ext
      dsimp only
      rw [hsame]
    | some x =>
      rintro ⟨hx, hsteps⟩
      exact ⟨x, (hopen x hx).1, (hopen x hx).2, hintent, rfl, ⟨rfl, rfl, rfl, rfl⟩, hsteps⟩
  · intro row d' hrow
    cases row with
    | none => exact ends_throw hrow
    | some row => exact ends_pure hrow

/-- The runs that a deletion takes away. -/
def Tables.gone (t : Tables) (p : TuneRunRow → Bool) (id : ℕ) : Prop :=
  ∃ r ∈ t.runs, r.id = id ∧ p r = true

/-- What the foreign keys delete along with a run. -/
theorem deleteRuns_deleted (d : Db) (p : TuneRunRow → Bool) :
    RunsDeleted (d.1.gone p) d.1 (d.1.deleteRuns p) := by
  have hgone : ∀ id, (d.1.runs.any fun r => r.id = id && p r) = true ↔ d.1.gone p id := by
    simp [Tables.gone]
  have howner : ∀ o : LiveOwnershipRow,
      (o.runId.any fun id => d.1.runs.any fun r => r.id = id && p r) = true ↔
        ∃ id, o.runId = some id ∧ d.1.gone p id := by
    intro o
    cases hrun : o.runId with
    | none => simp
    | some id => simp [← hgone]
  have howners : ∀ o, o ∈ (d.1.deleteRuns p).owners ↔
      o ∈ d.1.owners ∧ ∀ id, o.runId = some id → ¬d.1.gone p id := by
    intro o
    show o ∈ deleteWhere _ d.1.owners ↔ _
    rw [mem_deleteWhere, ← Bool.not_eq_true, howner]
    simp
  refine ⟨?_, howners, ?_, ?_⟩
  · intro r
    show r ∈ deleteWhere p d.1.runs ↔ _
    rw [mem_deleteWhere]
    constructor
    · rintro ⟨hr, hp⟩
      refine ⟨hr, ?_⟩
      rintro ⟨x, hx, hid, hpx⟩
      rw [d.2.runs.primaryKey.eq hx hr hid, hp] at hpx
      cases hpx
    · rintro ⟨hr, hnot⟩
      refine ⟨hr, ?_⟩
      cases hp : p r with
      | false => rfl
      | true => exact absurd ⟨r, hr, rfl, hp⟩ hnot
  · intro c
    show c ∈ deleteWhere _ d.1.claims ↔ _
    rw [mem_deleteWhere, ← Bool.not_eq_true]
    simp only [List.any_eq_true, Bool.and_eq_true, decide_eq_true_eq, howner, howners]
    constructor
    · rintro ⟨hc, hnot⟩
      obtain ⟨o, ho, hid⟩ := d.2.claimedOwners c hc
      exact ⟨hc, o, ⟨ho, fun id hrun hg => hnot ⟨o, ho, hid, id, hrun, hg⟩⟩, hid⟩
    · rintro ⟨hc, o, ⟨ho, hkept⟩, hid⟩
      refine ⟨hc, ?_⟩
      rintro ⟨x, hx, hxid, id, hrun, hg⟩
      rw [d.2.owners.primaryKey.eq hx ho (hxid.trans hid.symm)] at hrun
      exact hkept id hrun hg
  · intro a
    show a ∈ deleteWhere _ d.1.attempts ↔ _
    rw [mem_deleteWhere, ← Bool.not_eq_true, hgone]

theorem delete_ends (id : ℕ) (d : Db) :
    Ends (TuneRunRow.delete id)
      (fun _ d' => d'.1 = d.1.deleteRuns fun r => r.id = id && r.deletable)
      (fun _ d' => d' = d) d := by
  refine ends_statement rfl ?_
  exact fun _ => rfl

theorem deleteMatching_ends (filter : TuneRunFilter) (d : Db) :
    Ends (TuneRunRow.deleteMatching filter)
      (fun _ d' => d'.1 = d.1.deleteRuns fun r => filter.matches r && r.deletable)
      (fun _ d' => d' = d) d := by
  refine ends_statement rfl ?_
  exact fun _ => rfl

end Steps

/-! ### Every reachable state -/

/-- The invariant of a system: that of its database, and an unowned run has no tune owner. -/
structure SystemInv (s : LiveSystem) : Prop where
  ownership : OwnershipInv s.db.1
  unowned : ∀ id ∈ s.unowned, ∀ o ∈ s.db.1.owners, o.operationKind = .tune → o.runId ≠ some id

/-- A move of either kind; `acquires` holds of the run that gets its tune owner. -/
def Moved (acquires : Option ℕ → Prop) (t t' : Tables) : Prop :=
  (∃ settles, OwnershipMove acquires settles t t') ∨ RunMove t t'

theorem moved_of_eq {acquires : Option ℕ → Prop} {d d' : Db} (h : d' = d) :
    Moved acquires d.1 d'.1 := .inl ⟨fun _ => False, move_of_eq h⟩

theorem Moved.owner {acquires : Option ℕ → Prop} {t t' : Tables} (h : Moved acquires t t')
    {x : LiveOwnershipRow} (hx : x ∈ t'.owners) :
    (∃ y ∈ t.owners, y.identity = x.identity) ∨
      x.id = t.nextOwner ∧ (x.operationKind = .tune → acquires x.runId) := by
  rcases h with ⟨_, h⟩ | h
  · exact h.owner hx
  · exact .inl ⟨x, h.owner hx, rfl⟩

/-- A step is a move, and a run becomes unowned only when it is new. -/
theorem Step.move {s s' : LiveSystem} (inv : SystemInv s) (h : Step s s') :
    Moved (fun r => ∃ id, r = some id ∧ id ∉ s'.unowned) s.db.1 s'.db.1 ∧
      ∀ id ∈ s'.unowned, id ∈ s.unowned ∨ ∀ o ∈ s.db.1.owners, o.runId ≠ some id := by
  cases h with
  | live call hpass refusals =>
    constructor
    · rcases after_of_ends (call.ends s hpass inv.unowned) refusals with ⟨_, h⟩ | ⟨_, h⟩
      · exact .inl ⟨_, h.1⟩
      · exact moved_of_eq h
    · intro id hid
      left
      cases call with
      | createAndClaim new claimKey =>
        simp only [LiveCall.leaves] at hid
        by_cases htune : new.operationKind = .tune
        · rw [if_pos htune] at hid
          exact List.mem_of_mem_filter hid
        · rw [if_neg htune] at hid
          exact hid
      | _ => exact hid
  | start new refusals =>
    have hrun := startWithDemoSession_ends new s.db refusals
    unfold Effect.wp at hrun
    cases hx : TuneRunRow.startWithDemoSession new ⟨s.db, refusals⟩ with
    | ok row s' =>
      rw [hx] at hrun
      refine ⟨.inr (.started row hrun.2), ?_⟩
      intro id hid
      rcases List.mem_cons.mp hid with rfl | hid
      · right
        intro o ho hrunId
        obtain ⟨r, hr, hrid⟩ := s.db.2.ownerRuns o ho row.id hrunId
        have hlt := s.db.2.runs.below r hr
        rw [hrid, hrun.2.fresh] at hlt
        exact absurd hlt (Nat.lt_irrefl _)
      · exact .inl hid
    | error e s' =>
      rw [hx] at hrun
      exact ⟨moved_of_eq hrun, fun id hid => .inl hid⟩
  | updateRun runId update refusals =>
    refine ⟨?_, fun id hid => .inl hid⟩
    rcases after_of_ends (updateRow_ends runId update s.db) refusals with ⟨_, r, _, h⟩ | ⟨_, h⟩
    · exact .inr (.updated r _ h)
    · exact moved_of_eq h
  | beginStep new refusals =>
    refine ⟨?_, fun id hid => .inl hid⟩
    rcases after_of_ends (beginStep_ends new s.db) refusals with ⟨_, _, _, h, _⟩ | ⟨_, h⟩
    · exact .inl ⟨fun _ => False, .unmoved h⟩
    · exact moved_of_eq h
  | finishStep stepId status now readbackJson detail refusals =>
    refine ⟨?_, fun id hid => .inl hid⟩
    rcases after_of_ends (finishStep_ends stepId status now readbackJson detail s.db) refusals with
      ⟨_, _, _, _, _, _, h, _⟩ | ⟨_, h⟩
    · exact .inl ⟨fun _ => False, .unmoved h⟩
    · exact moved_of_eq h
  | delete id refusals =>
    refine ⟨?_, fun id hid => .inl hid⟩
    rcases after_of_ends (delete_ends id s.db) refusals with ⟨_, h⟩ | ⟨_, h⟩
    · rw [h]
      exact .inr (.deleted _ (deleteRuns_deleted s.db _))
    · exact moved_of_eq h
  | deleteMatching filter refusals =>
    refine ⟨?_, fun id hid => .inl hid⟩
    rcases after_of_ends (deleteMatching_ends filter s.db) refusals with ⟨_, h⟩ | ⟨_, h⟩
    · rw [h]
      exact .inr (.deleted _ (deleteRuns_deleted s.db _))
    · exact moved_of_eq h

/-- A move keeps the invariant when every run that is unowned after it was so before, or had no
owner. -/
theorem SystemInv.moved {s s' : LiveSystem} (inv : SystemInv s)
    (hmove : Moved (fun r => ∃ id, r = some id ∧ id ∉ s'.unowned) s.db.1 s'.db.1)
    (hunowned : ∀ id ∈ s'.unowned, id ∈ s.unowned ∨ ∀ o ∈ s.db.1.owners, o.runId ≠ some id) :
    SystemInv s' := by
  constructor
  · rcases hmove with ⟨_, h⟩ | h
    · exact ownershipInv_move inv.ownership s.db.2 h
    · exact ownershipInv_runMove inv.ownership s.db.2 h
  · intro id hid o ho htune hrun
    rcases hmove.owner ho with ⟨y, hy, hsame⟩ | ⟨_, hacquired⟩
    · obtain ⟨_, hyrun, hykind, _⟩ := LiveOwnershipRow.identity_parts hsame
      rcases hunowned id hid with hold | hnew
      · exact inv.unowned id hold y hy (hykind.trans htune) (hyrun.trans hrun)
      · exact hnew y hy (hyrun.trans hrun)
    · obtain ⟨id', hid', hnot⟩ := hacquired htune
      rw [hrun] at hid'
      cases hid'
      exact hnot hid

theorem SystemInv.step {s s' : LiveSystem} (inv : SystemInv s) (h : Step s s') : SystemInv s' :=
  inv.moved (h.move inv).1 (h.move inv).2

theorem SystemInv.initial : SystemInv .initial where
  ownership := by constructor <;> simp [LiveSystem.initial, Tables.empty]
  unowned := by simp [LiveSystem.initial]

/-- **The invariant holds in every reachable state.** -/
theorem reach_inv {s : LiveSystem} (h : Reach s) : SystemInv s := by
  induction h with
  | initial => exact .initial
  | step _ hstep ih => exact ih.step hstep

/-! ### What the invariant says -/

/-- The dead tune of the run `r`, orphaned and still recoverable. -/
def OrphanOf (t : Tables) (r : TuneRunRow) (o : LiveOwnershipRow) : Prop :=
  o ∈ t.owners ∧ o.operationKind = .tune ∧ o.runId = some r.id ∧ o.state = .orphaned ∧
    o.orphanEligible = true

/-- The attempt `a` on `r` is running, under an active recovery owner that holds the claim of the
run's orphan. -/
def RunningAttempt (t : Tables) (r : TuneRunRow) (a : TuneRecoveryAttemptRow) : Prop :=
  a ∈ t.attempts ∧ a.runId = r.id ∧ a.status = .running ∧
    ∃ o ∈ t.owners, o.id = a.recoveryOwnerId ∧ o.state = .active ∧ o.operationKind = .recovery ∧
      ∃ s, OrphanOf t r s ∧ ∃ c ∈ t.claims, c.ownerId = o.id ∧ c.claimKey = s.claimKey

/-- Owners, claims, runs and attempts in a sound database. -/
structure OwnershipSound (t : Tables) : Prop where
  claimed : ∀ c ∈ t.claims, ∃ o ∈ t.owners, o.id = c.ownerId ∧
    (o.state = .active ∨ ∃ r ∈ t.runs, OrphanOf t r o ∧ r.unresolved)
  active : ∀ o ∈ t.owners, o.state = .active → ∃! c, c ∈ t.claims ∧ c.ownerId = o.id
  claimKeys : ∀ c ∈ t.claims, ∀ c' ∈ t.claims, c.claimKey = c'.claimKey → c = c'
  waiting : ∀ r ∈ t.runs,
    r.recoveryState = some .eligible ∨ r.recoveryState = some .incomplete →
      ∃ o, OrphanOf t r o ∧ (∃ c ∈ t.claims, c.ownerId = o.id ∧ c.claimKey = o.claimKey) ∧
        ∀ o', OrphanOf t r o' → o' = o
  running : ∀ r ∈ t.runs, r.recoveryState = some .running ↔
    ∃ a, RunningAttempt t r a ∧ ∀ a' ∈ t.attempts, a'.runId = r.id → a'.status = .running → a' = a

theorem orphanOf_iff {t : Tables} {r : TuneRunRow} {o : LiveOwnershipRow} (inv : OwnershipInv t) :
    OrphanOf t r o ↔ o ∈ t.owners ∧ o.runId = some r.id ∧ o.recoverable = true := by
  unfold OrphanOf
  constructor
  · rintro ⟨ho, _, hrun, hstate, heligible⟩
    exact ⟨ho, hrun, by simp [LiveOwnershipRow.recoverable, hstate, heligible]⟩
  · rintro ⟨ho, hrun, hrecoverable⟩
    obtain ⟨hstate, heligible⟩ := not_active_of_recoverable hrecoverable
    exact ⟨ho, (inv.orphan o ho hrecoverable).1, hrun, hstate, heligible⟩

/-- A run has one orphan. -/
theorem orphanOf_unique {t : Tables} {r : TuneRunRow} {o o' : LiveOwnershipRow}
    (inv : OwnershipInv t) (keyed : Keyed t) (h : OrphanOf t r o) (h' : OrphanOf t r o') :
    o' = o := by
  obtain ⟨ho, htune, hrun, _⟩ := h
  obtain ⟨ho', htune', hrun', _⟩ := h'
  exact keyed.owner o' ho' o ho (inv.oneTune o' ho' o ho htune' htune (hrun'.trans hrun.symm))

theorem OwnershipInv.sound {t : Tables} (inv : OwnershipInv t) (keyed : Keyed t) :
    OwnershipSound t where
  claimed := by
    intro c hc
    obtain ⟨o, ho, hid, _, hactive | hrecoverable⟩ := inv.claimOwner c hc
    · exact ⟨o, ho, hid, .inl hactive⟩
    · obtain ⟨_, r, hr, hrun, hopen⟩ := inv.orphan o ho hrecoverable
      exact ⟨o, ho, hid, .inr ⟨r, hr, (orphanOf_iff inv).mpr ⟨ho, hrun, hrecoverable⟩, hopen⟩⟩
  active := by
    intro o ho hactive
    obtain ⟨c, hc, hco⟩ := inv.activeClaim o ho hactive
    refine ⟨c, ⟨hc, hco⟩, ?_⟩
    rintro c' ⟨hc', hco'⟩
    exact keyed.claimOwner c' hc' c hc (hco'.trans hco.symm)
  claimKeys := keyed.claim
  waiting := by
    intro r hr hstate
    have hmay : TuneRecoveryState.mayStart r.recoveryState := by
      rcases hstate with hstate | hstate <;> rw [hstate] <;> trivial
    obtain ⟨o, ho, hrun, hrecoverable, c, hc, hco⟩ := inv.waiting r hr hmay
    have horphan : OrphanOf t r o := (orphanOf_iff inv).mpr ⟨ho, hrun, hrecoverable⟩
    exact ⟨o, horphan, ⟨c, hc, hco, inv.claimKey_eq keyed hc ho hco⟩,
      fun o' ho' => orphanOf_unique inv keyed horphan ho'⟩
  running := by
    intro r hr
    constructor
    · intro hstate
      obtain ⟨a, ha, harun, hrunning⟩ := inv.recovering r hr hstate
      obtain ⟨_, s, hs, o, ho, hrecoverable, hsrun, hid, hactive, hkind, _, hkey⟩ :=
        inv.attempt a ha hrunning
      obtain ⟨c, hc, hco⟩ := inv.activeClaim o ho hactive
      have horphan : OrphanOf t r s :=
        (orphanOf_iff inv).mpr ⟨hs, by rw [hsrun, harun], hrecoverable⟩
      refine ⟨a, ⟨ha, harun, hrunning, o, ho, hid, hactive, hkind, s, horphan, c, hc, hco, ?_⟩, ?_⟩
      · rw [inv.claimKey_eq keyed hc ho hco, hkey]
      · intro a' ha' harun' hrunning'
        exact inv.oneAttempt keyed ha' ha hrunning' hrunning (harun'.trans harun.symm)
    · rintro ⟨a, ⟨ha, harun, hrunning, _⟩, _⟩
      obtain ⟨⟨x, hx, hxid, hxstate⟩, _⟩ := inv.attempt a ha hrunning
      rw [keyed.run r hr x hx (harun.symm.trans hxid.symm)]
      exact hxstate

/-- **The ownership tables are sound in every reachable state, and a call that fails leaves them
as they were.** -/
theorem ownership_invariant {s : LiveSystem} (h : Reach s) :
    OwnershipSound s.db.1 ∧
      ∀ (call : LiveCall) (refusals : List Bool), call.Passes s →
        ∀ e s', call.run ⟨s.db, refusals⟩ = .error e s' → s'.store = s.db := by
  have inv := reach_inv h
  refine ⟨inv.ownership.sound s.db.2.keyed, ?_⟩
  intro call refusals hpass e s' hrun
  have hends := call.ends s hpass inv.unowned refusals
  unfold Effect.wp at hends
  rw [hrun] at hends
  exact hends

/-! ### A tune that died and is being recovered -/

/-- The system after a call of which nothing is refused. -/
def LiveSystem.call (s : LiveSystem) (c : LiveCall) : LiveSystem :=
  ⟨after c.run s.db [], c.leaves s.unowned⟩

/-- A run on the loop FC1. -/
def flowRun : NewTuneRun where
  demoSessionId := none
  loopId := none
  driver := .opcda
  config := flowLoopConfig
  templateOrigin := .builtin
  template := flowTemplate
  tags := flowTags
  now := 0

/-- The key of the loop FC1. -/
def flowClaimKey : ClaimKey := ⟨"bhtune.db", resourceKey "GW" "OPC.Server" "FC1.MV"⟩

/-- An owner of the loop FC1 for run 1. -/
def flowOwner (kind : LiveOperationKind) : NewLiveOwnership where
  runId := some 1
  operationKind := kind
  databaseKey := flowClaimKey.databaseKey
  resourceKey := flowClaimKey.resourceKey
  ownerPid := 1
  acquiredAt := 0
  restoreIntentJson := none

/-- The run was started and its tune owns the loop. -/
def tuningSystem : LiveSystem :=
  (match TuneRunRow.startWithDemoSession flowRun ⟨LiveSystem.initial.db, []⟩ with
    | .ok row s' => (⟨s'.store, row.id :: LiveSystem.initial.unowned⟩ : LiveSystem)
    | .error _ s' => ⟨s'.store, LiveSystem.initial.unowned⟩).call
    (.createAndClaim (flowOwner .tune) flowClaimKey)

/-- The tune died, and its run is being recovered. -/
def recoveringSystem : LiveSystem :=
  (tuningSystem.call (.markOrphaned ⟨1, 0, flowClaimKey, 60, "{}", true, "died"⟩)).call
    (.startWithClaim (flowOwner .recovery) flowClaimKey 1 1 "export.json" "{}")

theorem reach_tuning : Reach tuningSystem :=
  (Reach.initial.step (.start flowRun [])).step
    (.live (.createAndClaim (flowOwner .tune) flowClaimKey)
      ⟨rfl, by decide, fun _ => ⟨1, by decide, rfl⟩⟩ [])

theorem reach_recovering : Reach recoveringSystem :=
  (reach_tuning.step (.live (.markOrphaned ⟨1, 0, flowClaimKey, 60, "{}", true, "died"⟩)
    trivial [])).step
      (.live (.startWithClaim (flowOwner .recovery) flowClaimKey 1 1 "export.json" "{}") trivial [])

/-- While the recovery runs, a release of an owner that does not exist fails. -/
theorem ownership_invariant_flow :
    OwnershipSound recoveringSystem.db.1 ∧
      (recoveringSystem.db.1.runs.map (·.recoveryState) = [some .running] ∧
        recoveringSystem.db.1.claims.map (·.ownerId) = [2]) ∧
      ∀ e s', (LiveCall.release 7 0).run ⟨recoveringSystem.db, []⟩ = .error e s' →
        s'.store = recoveringSystem.db :=
  ⟨(ownership_invariant reach_recovering).1, by decide +kernel,
    (ownership_invariant reach_recovering).2 (.release 7 0) []
      (show recoveringSystem.db.1.notRecovery 7 by decide +kernel)⟩

end Bhtune
