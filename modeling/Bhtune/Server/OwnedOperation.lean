import Bhtune.Db.OwnershipAnswers
import Bhtune.Runtime.WriteAuthority
import Bhtune.Server.ActiveRun

/-!
# Operations of a living process

A tune, a PID write or a revert of the server holds a `LiveOperationGuard` from its claim on; the
guard's lock keeps the others away.  Only `release` retires the guard's rows.  A guard that is
dropped stops its heartbeat and frees the lock, and the process lives on.

* `OwnedOperation` — an operation under its guard, in a handler or in a task of its own;
* `LiveProcess.step` — the operation goes on, ends, is refused, panics or is dropped;
* `NoOrphanedClaim` — an operation that has ended left no active owner and no claim;
* `no_orphaned_claim_iff` — when that is so.
-/

namespace Bhtune

open ActionRun Table Transaction

/-! ### Operations -/

/-- Where an operation is between its claim and its end. -/
inductive OwnedStage where
  /-- A tune sets its driver up; a PID write or revert connects and writes. -/
  | claimed
  /-- `prepare` has given the tune to the handler, which is about to register it. -/
  | prepared
  /-- `drive` runs in a task of its own. -/
  | driving
  /-- The handler is about to release the guard. -/
  | handlerReleases
  /-- The task is. -/
  | taskReleases
  deriving DecidableEq

/-- Whether the operation has a task of its own. -/
def OwnedStage.inTask : OwnedStage → Bool
  | .driving | .taskReleases => true
  | _ => false

/-- An operation and the owner row of its guard. -/
structure OwnedOperation where
  runId : ℕ
  owner : LiveOwnershipRow
  stage : OwnedStage
  deriving DecidableEq

/-- A process that keeps running: its database, its registry, and the operation with the lock. -/
structure LiveProcess where
  live : LiveSystem
  registry : ActiveRunState := {}
  operation : Option OwnedOperation := none

/-- What happens in the process. -/
inductive ProcessAction where
  | startRun (new : NewTuneRun)
  | updateRun (runId : ℕ) (update : RunUpdate)
  | reserve (runId : ℕ)
  | releaseEntry (runId : ℕ)
  /-- `LiveOperationGuard::acquire`, by a tune, a PID write or a revert of the run. -/
  | acquire (runId : ℕ) (new : NewLiveOwnership)
  /-- `complete_driver_setup`, with the error of the set-up if there is one. -/
  | setup (failure : Option String) (now : UtcTime)
  /-- `start_run_with_hook` registers the prepared tune. -/
  | register (now : UtcTime)
  /-- `execute_with_timing` of a tune is over, with its error if there is one. -/
  | driven (failure : Option String) (now : UtcTime)
  /-- A PID write or revert is over, with an outcome or an error. -/
  | wrote
  | heartbeat (now : UtcTime)
  | setRestoreIntent (intentJson : String)
  | beginStep (new : NewLiveMutationStep)
  | finishStep (stepId : ℕ) (accepted : Bool) (now : UtcTime) (detail : String)
  /-- `LiveOperationGuard::release`. -/
  | release (now : UtcTime)
  /-- The task of a tune panics. -/
  | panics
  /-- The future of the handler is dropped. -/
  | handlerDropped

namespace LiveProcess

/-- The operation goes on to its next stage. -/
def goTo (s : LiveProcess) (op : OwnedOperation) (stage : OwnedStage) : LiveProcess :=
  { s with operation := some { op with stage := stage } }

/-- The run is marked as failed.  The operation goes on if that was stored, and drops its guard
otherwise. -/
def failRun (s : LiveProcess) (op : OwnedOperation) (now : UtcTime) (reason : String)
    (stage : OwnedStage) : LiveProcess :=
  { s with
    live := s.live.statement (TuneRunRow.fail op.runId now reason) []
    operation := (answer (TuneRunRow.fail op.runId now reason) s.live.db []).map
      fun _ => { op with stage := stage } }

/-- What an operation under its guard does.  No call of the database is refused. -/
def operationStep (s : LiveProcess) (op : OwnedOperation) : ProcessAction → Option LiveProcess
  | .setup failure now =>
    if op.stage = .claimed ∧ op.owner.operationKind = .tune then
      match failure with
      | none => some (s.goTo op .prepared)
      | some reason => some (s.failRun op now reason .handlerReleases)
    else none
  | .register now =>
    if op.stage = .prepared then
      match s.registry.start op.runId with
      | .ok registry => some { s.goTo op .driving with registry := registry }
      | .error existing => some { s with
          live := s.live.statement (TuneRunRow.fail op.runId now
            ("run " ++ toString existing.runId ++
              " has an exclusive PID write/revert in progress; no tune task was started")) []
          operation := none }
    else none
  | .driven failure now =>
    if op.stage = .driving then
      match failure with
      | none => some (s.goTo op .taskReleases)
      | some reason => some (s.failRun op now reason .taskReleases)
    else none
  | .wrote =>
    if op.stage = .claimed ∧ op.owner.operationKind ≠ .tune then
      some (s.goTo op .handlerReleases)
    else none
  | .heartbeat now => some { s with live := s.live.callWith (.heartbeat op.owner.id now) [] }
  | .setRestoreIntent intentJson =>
    some { s with live := s.live.callWith (.setRestoreIntent op.owner.id intentJson) [] }
  | .release now =>
    if op.stage = .handlerReleases ∨ op.stage = .taskReleases then
      some { s with
        live := s.live.callWith (.release op.owner.id now) []
        operation := none }
    else none
  | .panics => if op.stage.inTask then some { s with operation := none } else none
  | .handlerDropped => if op.stage.inTask then none else some { s with operation := none }
  | _ => none

/-- The state after an action, where it can happen. -/
def step (s : LiveProcess) : ProcessAction → Option LiveProcess
  | .startRun new => some { s with live := s.live.startRun new [] }
  | .updateRun runId update =>
    some { s with live := s.live.statement (TuneRunRow.updateRow runId update) [] }
  | .reserve runId =>
    match s.registry.reserve runId with
    | .ok registry => some { s with registry := registry }
    | .error _ => some s
  | .releaseEntry runId => some { s with registry := s.registry.release runId }
  | .beginStep new => some { s with live := s.live.statement (LiveMutationStepRow.begin new) [] }
  | .finishStep stepId accepted now detail =>
    some { s with live := s.live.statement (finishWrite stepId accepted now detail) [] }
  | .acquire runId new =>
    let claimKey : ClaimKey := ⟨new.databaseKey, new.resourceKey⟩
    let call := LiveCall.createAndClaim new claimKey
    match s.operation with
    | some _ => some s
    | none =>
      if new.runId = some runId ∧ call.Passes s.live then
        some { s with
          live := s.live.callWith call []
          operation := (answer (LiveOwnershipRow.createAndClaim new claimKey) s.live.db
            []).join.map fun owner => ⟨runId, owner, .claimed⟩ }
      else none
  | a =>
    match s.operation with
    | some op => s.operationStep op a
    | none => none

/-- The action ends the operation without a release: its registration is refused, its task panics,
or its handler is dropped. -/
def Forsakes (s : LiveProcess) : ProcessAction → Prop
  | .register _ => ∃ op existing, s.operation = some op ∧ s.registry.start op.runId = .error existing
  | .panics => True
  | .handlerDropped => True
  | _ => False

instance (s : LiveProcess) (a : ProcessAction) : Decidable (s.Forsakes a) := by
  cases a with
  | register now =>
    exact match hop : s.operation with
    | none => isFalse (by
        rintro ⟨op, _, hsome, _⟩
        rw [hop] at hsome
        cases hsome)
    | some op =>
      match hstart : s.registry.start op.runId with
      | .ok _ => isFalse (by
          rintro ⟨op', _, hsome, herror⟩
          rw [hop] at hsome
          cases hsome
          rw [hstart] at herror
          cases herror)
      | .error existing => isTrue ⟨op, existing, hop, hstart⟩
  | panics => exact isTrue trivial
  | handlerDropped => exact isTrue trivial
  | _ => exact isFalse id

end LiveProcess

/-- The process takes this step. -/
abbrev ProcessStep : LiveProcess → ProcessAction → LiveProcess → Prop := stepOf LiveProcess.step

/-! ### The law -/

/-- An operation left nothing behind: its owner is not active, and its loop is not claimed. -/
def OwnedOperation.Retired (op : OwnedOperation) (t : Tables) : Prop :=
  (∀ o ∈ t.owners, o.id = op.owner.id → o.state ≠ .active) ∧
    ∀ c ∈ t.claims, c.ownerId ≠ op.owner.id ∧ c.claimKey ≠ op.owner.claimKey

/-- Every active owner was active at the start, for another process, or has its operation here. -/
def LiveProcess.Attended (start s : LiveProcess) : Prop :=
  ∀ o ∈ s.live.db.1.owners, o.state = .active →
    (∃ o' ∈ start.live.db.1.owners, o'.id = o.id ∧ o'.state = .active) ∨
      ∃ op, s.operation = some op ∧ op.owner.id = o.id

/-- What is claimed of the actions of a process, taken one after the other. -/
structure NoOrphanedClaim (start : LiveProcess) (actions : List ProcessAction) : Prop where
  /-- An operation that ends is retired. -/
  retired : ∀ before a rest s s' op, actions = before ++ a :: rest →
    Run ProcessStep start before s → ProcessStep s a s' → s.operation = some op →
    s'.operation = none → op.Retired s'.live.db.1
  /-- No owner is left active without its operation. -/
  attended : ∀ before rest s, actions = before ++ rest → Run ProcessStep start before s →
    start.Attended s

/-! ### What the steps leave alone -/

/-- The owners are the same ones in the same states, and so are the claims. -/
structure OwnersKept (t t' : Tables) : Prop where
  forth : ∀ o ∈ t.owners, ∃ o' ∈ t'.owners, o'.identity = o.identity ∧ o'.state = o.state
  back : ∀ o' ∈ t'.owners, ∃ o ∈ t.owners, o'.identity = o.identity ∧ o'.state = o.state
  claims : t'.claims = t.claims

section Kept

variable {t t' : Tables} {s : LiveSystem} {d : Db}

theorem ownersKept_of_eq (howners : t'.owners = t.owners) (hclaims : t'.claims = t.claims) :
    OwnersKept t t' where
  forth := fun o ho => ⟨o, howners ▸ ho, rfl, rfl⟩
  back := fun o ho => ⟨o, howners ▸ ho, rfl, rfl⟩
  claims := hclaims

theorem Touched.kept (keyed : Keyed t) {o o' : LiveOwnershipRow} (h : Touched o o' t t') :
    OwnersKept t t' where
  forth := by
    intro x hx
    by_cases hsame : x.id = o.id
    · rw [keyed.owner x hx o h.owners.was hsame]
      exact ⟨o', h.owners.mem_new, h.identity, h.active.trans h.wasActive.symm⟩
    · exact ⟨x, h.owners.mem_other hx hsame, rfl, rfl⟩
  back := by
    intro x hx
    rcases (h.owners.mem x).mp hx with rfl | ⟨hx, _⟩
    · exact ⟨o, h.owners.was, h.identity, h.active.trans h.wasActive.symm⟩
    · exact ⟨x, hx, rfl, rfl⟩
  claims := h.claims

theorem ownersKept_touching {α : Type} {x : DbM α}
    (h : Ends x (fun _ d' => ∃ o o', Touched o o' d.1 d'.1) (fun _ d' => d' = d) d) :
    OwnersKept d.1 (after x d []).1 := by
  rcases after_of_ends h [] with ⟨_, o, o', htouched⟩ | ⟨_, hsame⟩
  · exact htouched.kept d.2.keyed
  · rw [hsame]
    exact ownersKept_of_eq rfl rfl

theorem ownersKept_heartbeat (ownerId : ℕ) (now : UtcTime) :
    OwnersKept s.db.1 (s.callWith (.heartbeat ownerId now) []).db.1 := by
  refine ownersKept_touching (ends_mono (heartbeat_ends ownerId now s.db) ?_ (fun _ _ h => h))
  rintro _ d' ⟨o, _, htouched⟩
  exact ⟨o, _, htouched⟩

theorem ownersKept_setRestoreIntent (ownerId : ℕ) (intentJson : String) :
    OwnersKept s.db.1 (s.callWith (.setRestoreIntent ownerId intentJson) []).db.1 := by
  refine ownersKept_touching
    (ends_mono (setRestoreIntent_ends ownerId intentJson s.db) ?_ (fun _ _ h => h))
  rintro _ d' ⟨o, _, htouched⟩
  exact ⟨o, _, htouched⟩

theorem ownersKept_begin (new : NewLiveMutationStep) :
    OwnersKept d.1 (after (LiveMutationStepRow.begin new) d []).1 := by
  rcases after_of_ends (beginStep_ends new d) [] with ⟨_, _, _, h, _⟩ | ⟨_, hsame⟩
  · exact ownersKept_of_eq h.owners h.claims
  · rw [hsame]
    exact ownersKept_of_eq rfl rfl

theorem ownersKept_finish (stepId : ℕ) (accepted : Bool) (now : UtcTime) (detail : String) :
    OwnersKept d.1 (after (finishWrite stepId accepted now detail) d []).1 := by
  rcases after_of_ends (finishWrite_ends stepId accepted now detail d) [] with
    ⟨_, h, _⟩ | ⟨_, hsame⟩
  · exact ownersKept_of_eq h.owners h.claims
  · rw [hsame]
    exact ownersKept_of_eq rfl rfl

end Kept

/-! ### What the calls answer -/

theorem after_of_answers {α : Type} {x : DbM α} {Q : α → Db → Prop} {d : Db} (h : Answers x Q d) :
    ∃ a, answer x d [] = some a ∧ Q a (after x d []) := by
  obtain ⟨a, d', hrun, ha⟩ := h
  refine ⟨a, ?_, ?_⟩
  · unfold answer
    rw [hrun]
  · unfold Bhtune.after
    rw [hrun]
    exact ha

/-- What does not answer has failed. -/
theorem answer_none_of_ends {α : Type} {x : DbM α} {Q : α → Db → Prop}
    {E : DbError → Db → Prop} {d : Db} {refusals : List Bool} (h : Ends x Q E d)
    (ha : answer x d refusals = none) : ∃ e, E e (after x d refusals) := by
  have hrun := h refusals
  unfold Effect.wp at hrun
  unfold answer at ha
  unfold Bhtune.after
  cases hx : x ⟨d, refusals⟩ with
  | ok b s =>
    rw [hx] at ha
    cases ha
  | error e s =>
    rw [hx] at hrun
    exact ⟨e, hrun⟩

/-- The update of a run that is on record answers. -/
theorem updateRow_answers {d : Db} {runId : ℕ} (h : ∃ r ∈ d.1.runs, r.id = runId) (u : RunUpdate) :
    Answers (TuneRunRow.updateRow runId u) (fun _ _ => True) d := by
  obtain ⟨r, hr, rfl⟩ := h
  have hfound : d.1.runs.find? (fun x => x.id = r.id) = some r :=
    find?_eq_some_of_key d.2.runs.primaryKey hr
  have hstored : Answers (statement DbError.query fun t : Tables =>
      ({ t with runs := updateWhere (fun x => x.id = r.id) u.apply t.runs },
        (t.runs.find? fun x => x.id = r.id).map u.apply) : DbM (Option TuneRunRow))
      (fun row _ => row = some (u.apply r)) d := by
    refine answers_statement (d.2.updateRuns fun x => (u.apply_recovery x).1) ?_
    show Option.map u.apply (d.1.runs.find? fun x => x.id = r.id) = _
    rw [hfound]
    rfl
  refine answers_seq hstored ?_
  rintro _ d' rfl
  exact answers_pure trivial

/-! ### The invariant -/

/-- The owner of an operation is active, with the claim of its loop, and is no recovery's. -/
def OwnedOperation.Held (op : OwnedOperation) (t : Tables) : Prop :=
  op.owner.runId = some op.runId ∧ op.owner.operationKind ≠ .recovery ∧
    (∃ o ∈ t.owners, o.identity = op.owner.identity ∧ o.state = .active) ∧
    ∃ c ∈ t.claims, c.ownerId = op.owner.id ∧ c.claimKey = op.owner.claimKey

/-- The database is one of those that calls lead to, and the operation holds its owner. -/
structure ProcessInv (s : LiveProcess) : Prop where
  reach : Reach s.live
  held : ∀ op, s.operation = some op → op.Held s.live.db.1

section Invariant

variable {start s s' : LiveProcess} {a : ProcessAction} {op : OwnedOperation} {t t' : Tables}

namespace OwnedOperation

theorem Held.kept (h : op.Held t) (hkept : OwnersKept t t') : op.Held t' := by
  obtain ⟨hrun, hkind, ⟨o, ho, hid, hactive⟩, hclaim⟩ := h
  obtain ⟨o', ho', hid', hstate⟩ := hkept.forth o ho
  refine ⟨hrun, hkind, ⟨o', ho', hid'.trans hid, hstate.trans hactive⟩, ?_⟩
  rw [hkept.claims]
  exact hclaim

/-- While the owner is held, the operation is not retired. -/
theorem Held.not_retired (h : op.Held t) : ¬op.Retired t := by
  rintro ⟨hended, _⟩
  obtain ⟨_, _, ⟨o, ho, hid, hactive⟩, _⟩ := h
  exact hended o ho (LiveOwnershipRow.identity_parts hid).1 hactive

theorem Held.holds (h : op.Held t) : Holds t op.owner.id op.owner.claimKey := by
  obtain ⟨_, _, ⟨o, ho, hid, hactive⟩, hclaim⟩ := h
  exact ⟨⟨o, ho, (LiveOwnershipRow.identity_parts hid).1, hactive⟩, hclaim⟩

theorem Held.notRecovery (h : op.Held t) (keyed : Keyed t) : t.notRecovery op.owner.id := by
  obtain ⟨_, hkind, ⟨o, ho, hid, _⟩, _⟩ := h
  obtain ⟨hid, _, hsame, _⟩ := LiveOwnershipRow.identity_parts hid
  intro x hx hxid
  rw [keyed.owner x hx o ho (hxid.trans hid.symm), hsame]
  exact hkind

/-- The run of a held operation is on record. -/
theorem Held.run (h : op.Held t) (ht : Constraints t) : ∃ r ∈ t.runs, r.id = op.runId := by
  obtain ⟨hrun, _, ⟨o, ho, hid, _⟩, _⟩ := h
  refine ht.ownerRuns o ho op.runId ?_
  rw [(LiveOwnershipRow.identity_parts hid).2.1, hrun]
  rfl

/-- The release of a held operation retires it, and leaves the other owners as they are. -/
theorem Held.released {live : LiveSystem} (h : op.Held live.db.1) (now : UtcTime) :
    op.Retired (live.callWith (.release op.owner.id now) []).db.1 ∧
      ∀ x ∈ (live.callWith (.release op.owner.id now) []).db.1.owners, x.state = .active →
        x ∈ live.db.1.owners ∧ x.id ≠ op.owner.id := by
  obtain ⟨_, _, o, o', hown, hretired⟩ := after_of_answers (release_answers h.holds now)
  obtain ⟨_, _, _, c, hc, hco, hckey⟩ := h
  have hclaims : ∀ x ∈ (live.callWith (.release op.owner.id now) []).db.1.claims,
      x ∈ live.db.1.claims ∧ x.claimKey ≠ op.owner.claimKey := by
    obtain ⟨c', hc'own, hremoved⟩ := hretired.claims
    have hsame : c' = c :=
      live.db.2.keyed.claimOwner c' hremoved.was c hc (by rw [hc'own, hown, hco])
    intro x hx
    obtain ⟨hx, hne⟩ := (hremoved.mem x).mp hx
    rw [hsame, hckey] at hne
    exact ⟨hx, hne⟩
  refine ⟨⟨?_, ?_⟩, ?_⟩
  · intro x hx hid
    rcases (hretired.owners.mem x).mp hx with rfl | ⟨_, hne⟩
    · exact hretired.ended
    · exact absurd (hid.trans hown.symm) hne
  · intro x hx
    obtain ⟨hx, hne⟩ := hclaims x hx
    refine ⟨fun hxo => hne ?_, hne⟩
    rw [live.db.2.keyed.claimOwner x hx c hc (hxo.trans hco.symm), hckey]
  · intro x hx hactive
    rcases (hretired.owners.mem x).mp hx with rfl | ⟨hx, hne⟩
    · exact absurd hactive hretired.ended
    · exact ⟨hx, fun hid => hne (hid.trans hown.symm)⟩

end OwnedOperation

/-- What tells an operation from another. -/
def OwnedOperation.key (op : OwnedOperation) : ℕ × LiveOwnershipRow := (op.runId, op.owner)

/-- What an action does to the operation: it goes on, or there is none; it begins; or it ends, by
its release or forsaken. -/
inductive ProcessMoved (s : LiveProcess) (a : ProcessAction) (s' : LiveProcess) : Prop
  | goesOn (kept : OwnersKept s.live.db.1 s'.live.db.1)
      (same : s'.operation.map OwnedOperation.key = s.operation.map OwnedOperation.key)
      (orderly : ¬s.Forsakes a)
  | begins (op : OwnedOperation) (free : s.operation = none) (begun : s'.operation = some op)
      (claimed : Claimed op.owner s.live.db.1 s'.live.db.1) (held : op.Held s'.live.db.1)
      (orderly : ¬s.Forsakes a)
  | released (op : OwnedOperation) (was : s.operation = some op) (gone : s'.operation = none)
      (retired : op.Retired s'.live.db.1)
      (others : ∀ x ∈ s'.live.db.1.owners, x.state = .active →
        x ∈ s.live.db.1.owners ∧ x.id ≠ op.owner.id)
      (orderly : ¬s.Forsakes a)
  | forsaken (op : OwnedOperation) (was : s.operation = some op) (gone : s'.operation = none)
      (kept : OwnersKept s.live.db.1 s'.live.db.1) (disorderly : s.Forsakes a)

/-- The run of a held operation is marked as failed, and the operation goes on. -/
theorem failRun_moved (inv : ProcessInv s) (hop : s.operation = some op) (now : UtcTime)
    (reason : String) (stage : OwnedStage) (horderly : ¬s.Forsakes a) :
    LiveChange s.live (s.failRun op now reason stage).live ∧
      ProcessMoved s a (s.failRun op now reason stage) := by
  refine ⟨.updated op.runId (.failed now reason) [], ?_⟩
  have hrun := (inv.held op hop).run s.live.db.2
  obtain ⟨row, hrow, _⟩ := after_of_answers (updateRow_answers hrun (.failed now reason))
  have hkept := @run_updated_only s.live.db [] op.runId (.failed now reason)
  refine .goesOn (ownersKept_of_eq hkept.1 hkept.2.1) ?_ horderly
  show ((answer (TuneRunRow.updateRow op.runId (.failed now reason)) s.live.db []).map _).map _ = _
  rw [hrow, hop]
  rfl

/-- An operation that only goes to another stage goes on. -/
theorem goTo_moved (hop : s.operation = some op) (stage : OwnedStage) (horderly : ¬s.Forsakes a)
    {registry : ActiveRunState} :
    ProcessMoved s a { s.goTo op stage with registry := registry } := by
  refine .goesOn (ownersKept_of_eq rfl rfl) ?_ horderly
  show some op.key = s.operation.map OwnedOperation.key
  rw [hop]
  rfl

/-- The operation goes on, or it ends. -/
theorem operationStep_moved (inv : ProcessInv s) (hop : s.operation = some op)
    (h : s.operationStep op a = some s') :
    LiveChange s.live s'.live ∧ ProcessMoved s a s' := by
  have hheld := inv.held op hop
  unfold LiveProcess.operationStep at h
  cases a with
  | setup failure now =>
    dsimp only at h
    split at h
    · cases failure with
      | none =>
        cases h
        exact ⟨.same, goTo_moved hop .prepared id⟩
      | some reason =>
        cases h
        exact failRun_moved inv hop now reason .handlerReleases id
    · cases h
  | register now =>
    dsimp only at h
    split at h
    · split at h
      · rename_i registry hstart
        cases h
        refine ⟨.same, goTo_moved hop .driving ?_⟩
        rintro ⟨op', existing, hop', herror⟩
        rw [hop] at hop'
        cases hop'
        rw [hstart] at herror
        cases herror
      · rename_i existing hrefused
        cases h
        have hkept := @run_updated_only s.live.db [] op.runId (.failed now
          ("run " ++ toString existing.runId ++
            " has an exclusive PID write/revert in progress; no tune task was started"))
        exact ⟨.updated op.runId _ [], .forsaken op hop rfl (ownersKept_of_eq hkept.1 hkept.2.1)
          ⟨op, existing, hop, hrefused⟩⟩
    · cases h
  | driven failure now =>
    dsimp only at h
    split at h
    · cases failure with
      | none =>
        cases h
        exact ⟨.same, goTo_moved hop .taskReleases id⟩
      | some reason =>
        cases h
        exact failRun_moved inv hop now reason .taskReleases id
    · cases h
  | wrote =>
    dsimp only at h
    split at h
    · cases h
      exact ⟨.same, goTo_moved hop .handlerReleases id⟩
    · cases h
  | heartbeat now =>
    cases h
    exact ⟨.call _ [] trivial, .goesOn (ownersKept_heartbeat op.owner.id now) rfl id⟩
  | setRestoreIntent intentJson =>
    cases h
    exact ⟨.call _ [] trivial, .goesOn (ownersKept_setRestoreIntent op.owner.id intentJson) rfl id⟩
  | release now =>
    dsimp only at h
    split at h
    · cases h
      have hpass : (LiveCall.release op.owner.id now).Passes s.live :=
        hheld.notRecovery s.live.db.2.keyed
      obtain ⟨hretired, hothers⟩ := hheld.released now
      exact ⟨.call _ [] hpass, .released op hop rfl hretired hothers id⟩
    · cases h
  | panics =>
    dsimp only at h
    split at h
    · cases h
      exact ⟨.same, .forsaken op hop rfl (ownersKept_of_eq rfl rfl) trivial⟩
    · cases h
  | handlerDropped =>
    dsimp only at h
    split at h
    · cases h
    · cases h
      exact ⟨.same, .forsaken op hop rfl (ownersKept_of_eq rfl rfl) trivial⟩
  | _ => cases h

/-- A claim that is granted begins an operation. -/
theorem acquire_moved (hfree : s.operation = none) {runId : ℕ}
    {new : NewLiveOwnership} (hrun : new.runId = some runId)
    (hpass : (LiveCall.createAndClaim new ⟨new.databaseKey, new.resourceKey⟩).Passes s.live) :
    ProcessMoved s (.acquire runId new) { s with
      live := s.live.callWith (.createAndClaim new ⟨new.databaseKey, new.resourceKey⟩) []
      operation := (answer (LiveOwnershipRow.createAndClaim new
        ⟨new.databaseKey, new.resourceKey⟩) s.live.db []).join.map
          fun owner => ⟨runId, owner, .claimed⟩ } := by
  have hends := createAndClaim_ends new s.live.db
  have hlive : (s.live.callWith (.createAndClaim new ⟨new.databaseKey, new.resourceKey⟩) []).db =
      after (LiveOwnershipRow.createAndClaim new ⟨new.databaseKey, new.resourceKey⟩)
        s.live.db [] := after_discard _ _ _
  have hnone : after (LiveOwnershipRow.createAndClaim new ⟨new.databaseKey, new.resourceKey⟩)
      s.live.db [] = s.live.db → ProcessMoved s (.acquire runId new) { s with
        live := s.live.callWith (.createAndClaim new ⟨new.databaseKey, new.resourceKey⟩) []
        operation := none } := by
    intro hsame
    refine .goesOn (ownersKept_of_eq ?_ ?_) (by rw [hfree]) id
    · exact congrArg (fun d : Db => d.1.owners) (hlive.trans hsame)
    · exact congrArg (fun d : Db => d.1.claims) (hlive.trans hsame)
  cases hanswer : answer (LiveOwnershipRow.createAndClaim new
      ⟨new.databaseKey, new.resourceKey⟩) s.live.db [] with
  | none =>
    obtain ⟨_, hsame⟩ := answer_none_of_ends hends hanswer
    exact hnone hsame
  | some granted =>
    have hgranted := answer_of_ends hends hanswer
    cases granted with
    | none => exact hnone hgranted
    | some owner =>
      obtain ⟨howner, hclaimed⟩ := hgranted
      rw [← hlive] at hclaimed
      refine .begins ⟨runId, owner, .claimed⟩ hfree rfl hclaimed ⟨?_, ?_, ?_, ?_⟩ id
      · rw [howner]
        exact hrun
      · rw [howner]
        exact hpass.2.1
      · exact ⟨owner, hclaimed.owners.mem_new, rfl, hclaimed.active⟩
      · obtain ⟨c, hco, hkey, hc⟩ := hclaimed.claims
        exact ⟨c, hc.mem_new, hco, hkey⟩

/-- **What a step does.** -/
theorem ProcessInv.moved (inv : ProcessInv s) (h : ProcessStep s a s') :
    LiveChange s.live s'.live ∧ ProcessMoved s a s' := by
  unfold ProcessStep stepOf LiveProcess.step at h
  cases a with
  | startRun new =>
    cases h
    have hkept := @runs_only s.live [] new
    exact ⟨.started new [], .goesOn (ownersKept_of_eq hkept.1 hkept.2.1) rfl id⟩
  | updateRun runId update =>
    cases h
    have hkept := @run_updated_only s.live.db [] runId update
    exact ⟨.updated runId update [], .goesOn (ownersKept_of_eq hkept.1 hkept.2.1) rfl id⟩
  | reserve runId =>
    dsimp only at h
    split at h <;> cases h <;> exact ⟨.same, .goesOn (ownersKept_of_eq rfl rfl) rfl id⟩
  | releaseEntry runId =>
    cases h
    exact ⟨.same, .goesOn (ownersKept_of_eq rfl rfl) rfl id⟩
  | beginStep new =>
    cases h
    exact ⟨.begun new [], .goesOn (ownersKept_begin new) rfl id⟩
  | finishStep stepId accepted now detail =>
    cases h
    exact ⟨.finished stepId accepted now detail [],
      .goesOn (ownersKept_finish stepId accepted now detail) rfl id⟩
  | acquire runId new =>
    dsimp only at h
    split at h
    · cases h
      exact ⟨.same, .goesOn (ownersKept_of_eq rfl rfl) rfl id⟩
    · rename_i hfree
      split at h
      · rename_i hpass
        cases h
        exact ⟨.call _ [] hpass.2, acquire_moved hfree hpass.1 hpass.2⟩
      · cases h
  | setup | register | driven | wrote | heartbeat | setRestoreIntent | release | panics
  | handlerDropped =>
    dsimp only at h
    split at h
    · rename_i op hop
      exact operationStep_moved inv hop h
    · cases h

/-- **Every step keeps the invariant.** -/
theorem ProcessInv.step (inv : ProcessInv s) (h : ProcessStep s a s') : ProcessInv s' := by
  obtain ⟨hchange, hmoved⟩ := inv.moved h
  refine ⟨hchange.reach inv.reach, fun op hop => ?_⟩
  cases hmoved with
  | goesOn kept same _ =>
    rw [hop] at same
    obtain ⟨op₀, hop₀, hkey⟩ := Option.map_eq_some_iff.mp same.symm
    obtain ⟨hrun, howner⟩ := Prod.mk.inj hkey
    have hheld := (inv.held op₀ hop₀).kept kept
    unfold OwnedOperation.Held at hheld ⊢
    rwa [hrun, howner] at hheld
  | begins op' _ begun _ held _ =>
    rw [hop] at begun
    cases begun
    exact held
  | released _ _ gone _ _ _ | forsaken _ _ gone _ _ =>
    rw [hop] at gone
    cases gone

/-- A step that forsakes no operation keeps every active owner attended. -/
theorem LiveProcess.Attended.step (inv : ProcessInv s) (hattended : start.Attended s)
    (h : ProcessStep s a s') (horderly : ¬s.Forsakes a) : start.Attended s' := by
  obtain ⟨_, hmoved⟩ := inv.moved h
  intro o ho hactive
  cases hmoved with
  | goesOn kept same _ =>
    obtain ⟨o₀, ho₀, hid, hstate⟩ := kept.back o ho
    obtain ⟨hid, _⟩ := LiveOwnershipRow.identity_parts hid
    rw [hid]
    refine (hattended o₀ ho₀ (hstate ▸ hactive)).imp_right ?_
    rintro ⟨op, hop, howner⟩
    rw [hop] at same
    obtain ⟨op', hop', hkey⟩ := Option.map_eq_some_iff.mp same
    exact ⟨op', hop', by rw [(Prod.mk.inj hkey).2, howner]⟩
  | begins op free begun claimed _ _ =>
    rcases (claimed.owners o).mp ho with rfl | hold
    · exact .inr ⟨op, begun, rfl⟩
    · refine (hattended o hold hactive).imp_right ?_
      rintro ⟨op', hop', _⟩
      rw [free] at hop'
      cases hop'
  | released op was _ _ others _ =>
    obtain ⟨hold, hne⟩ := others o ho hactive
    refine (hattended o hold hactive).imp_right ?_
    rintro ⟨op', hop', howner⟩
    rw [was] at hop'
    cases hop'
    exact absurd howner.symm hne
  | forsaken _ _ _ _ disorderly => exact absurd disorderly horderly

/-- An operation that ends without being forsaken is retired. -/
theorem ProcessInv.retired (inv : ProcessInv s) (h : ProcessStep s a s') (horderly : ¬s.Forsakes a)
    (hop : s.operation = some op) (hgone : s'.operation = none) : op.Retired s'.live.db.1 := by
  cases (inv.moved h).2 with
  | goesOn _ same _ =>
    rw [hop, hgone] at same
    cases same
  | begins _ _ begun _ _ _ =>
    rw [hgone] at begun
    cases begun
  | released op' was _ retired _ _ =>
    rw [hop] at was
    cases was
    exact retired
  | forsaken _ _ _ _ disorderly => exact absurd disorderly horderly

/-- **A forsaken operation leaves its owner active, and its loop claimed.** -/
theorem ProcessInv.not_retired (inv : ProcessInv s) (h : ProcessStep s a s')
    (hforsakes : s.Forsakes a) :
    ∃ op, s.operation = some op ∧ s'.operation = none ∧ ¬op.Retired s'.live.db.1 := by
  cases (inv.moved h).2 with
  | goesOn _ _ orderly | begins _ _ _ _ _ orderly | released _ _ _ _ _ orderly =>
    exact absurd hforsakes orderly
  | forsaken op was gone kept _ =>
    exact ⟨op, was, gone, ((inv.held op was).kept kept).not_retired⟩

end Invariant

/-! ### Every run -/

/-- **No orphaned claim in a living process, and when that is so.**  From any database that calls
may have led to, in which nothing is refused: every operation that ends is retired and no owner is
left active without its operation, if and only if no prepared tune is refused its registration, no
task of a tune panics, and no handler is dropped between its claim and its release. -/
theorem no_orphaned_claim_iff {start s : LiveProcess} {actions : List ProcessAction}
    (hreach : Reach start.live) (hidle : start.operation = none)
    (h : Run ProcessStep start actions s) :
    NoOrphanedClaim start actions ↔
      ∀ before a rest s₁ s₂, actions = before ++ a :: rest → Run ProcessStep start before s₁ →
        ProcessStep s₁ a s₂ → ¬s₁.Forsakes a := by
  have hstart : ProcessInv start := ⟨hreach, fun op hop => by rw [hidle] at hop; cases hop⟩
  have hinv : ∀ {before : List ProcessAction} {s₁}, Run ProcessStep start before s₁ →
      ProcessInv s₁ := fun hrun => hrun.invariant hstart fun _ _ _ inv hstep => inv.step hstep
  constructor
  · rintro hlaw before a rest s₁ s₂ hactions hbefore hstep hforsakes
    obtain ⟨op, hop, hgone, hleft⟩ := (hinv hbefore).not_retired hstep hforsakes
    exact hleft (hlaw.retired before a rest s₁ s₂ op hactions hbefore hstep hop hgone)
  · intro horderly
    constructor
    · intro before a rest s₁ s₂ op hactions hbefore hstep hop hgone
      exact (hinv hbefore).retired hstep (horderly before a rest s₁ s₂ hactions hbefore hstep)
        hop hgone
    · rintro before rest s₁ rfl hbefore
      have hboth : ProcessInv s₁ ∧ start.Attended s₁ := by
        refine hbefore.invariant_at (P := fun t => ProcessInv t ∧ start.Attended t)
          ⟨hstart, fun o ho hactive => .inl ⟨o, ho, rfl, hactive⟩⟩ ?_
        rintro first a second t t' rfl hfirst ht hstep
        refine ⟨ht.1.step hstep, ht.2.step ht.1 hstep ?_⟩
        exact horderly first a (second ++ rest) t t' (by simp) hfirst hstep
      exact hboth.2

/-! ### A tune and a write of the same moment -/

/-- The process of an empty database. -/
def newProcess : LiveProcess := { live := .initial }

/-- A tune of FC1, and a write that is about to begin when it ends. -/
def tuneToItsEnd : List ProcessAction :=
  [.startRun flowRun, .acquire 1 (flowOwner .tune), .setup none 1, .register 2, .heartbeat 6,
    .driven none 9, .release 10, .releaseEntry 1, .reserve 1]

theorem tuneToItsEnd_runs : (exec LiveProcess.step newProcess tuneToItsEnd).isSome = true := by
  decide +kernel

theorem tuneToItsEnd_orderly :
    along LiveProcess.step (fun s a => decide ¬s.Forsakes a) newProcess tuneToItsEnd = true := by
  decide +kernel

theorem no_orphaned_claim_tuneToItsEnd : NoOrphanedClaim newProcess tuneToItsEnd := by
  refine (no_orphaned_claim_iff .initial rfl
    (run_of_exec (Option.some_get tuneToItsEnd_runs).symm)).mpr ?_
  intro before a rest s₁ s₂ hactions hbefore _
  have horderly := tuneToItsEnd_orderly
  rw [hactions] at horderly
  have hstep := at_of_along horderly hbefore
  simpa using hstep

/-- The same tune, when a write reserves its loop before it is registered. -/
def refusedTune : List ProcessAction :=
  [.startRun flowRun, .acquire 1 (flowOwner .tune), .setup none 1, .reserve 1, .register 3]

/-- The owners with their states, the owners of the claims, and the operation. -/
def LiveProcess.left (s : LiveProcess) :
    List (ℕ × LiveOwnershipState) × List ℕ × Option OwnedOperation :=
  (s.live.db.1.owners.map fun o => (o.id, o.state), s.live.db.1.claims.map (·.ownerId),
    s.operation)

/-- The refused tune is gone; its owner is active, and its loop is claimed. -/
theorem left_refusedTune :
    (exec LiveProcess.step newProcess refusedTune).map LiveProcess.left =
      some ([(1, .active)], [1], none) := by
  decide +kernel

/-- So the law fails on this run. -/
theorem not_noOrphanedClaim_refusedTune : ¬NoOrphanedClaim newProcess refusedTune := by
  intro hlaw
  obtain ⟨s, hs, hleft⟩ := Option.map_eq_some_iff.mp left_refusedTune
  obtain ⟨howners, _, hnone⟩ : s.live.db.1.owners.map (fun o => (o.id, o.state)) =
      [(1, .active)] ∧ s.live.db.1.claims.map (·.ownerId) = [1] ∧ s.operation = none := by
    simpa [LiveProcess.left] using hleft
  have hmem : (1, LiveOwnershipState.active) ∈
      s.live.db.1.owners.map fun o => (o.id, o.state) := by simp [howners]
  obtain ⟨o, ho, hstate⟩ := List.mem_map.mp hmem
  have hattended := hlaw.attended refusedTune [] s (by simp) (run_of_exec hs) o ho
    (Prod.mk.inj hstate).2
  rcases hattended with ⟨_, hnew, _⟩ | ⟨op, hop, _⟩
  · cases hnew
  · rw [hnone] at hop
    cases hop

end Bhtune
