import Bhtune.Db.OwnershipSteps
import Bhtune.Db.TuneRuns

/-!
# The invariant of live ownership

What owners, claims, runs and recovery attempts say together, and that every move keeps it.

* `OwnershipMove`, `RunMove` — the moves, each with what its callers pass;
* `OwnershipInv` — the invariant;
* `OwnershipInv.oneAttempt` — at most one attempt is running on a run;
* `ownershipInv_move` — every move keeps the invariant.
-/

namespace Bhtune

open Table

/-! ### The moves of a system -/

/-- The run's recovery is open: it may start, or it is running. -/
def TuneRunRow.unresolved (r : TuneRunRow) : Prop :=
  TuneRecoveryState.mayStart r.recoveryState ∨ r.recoveryState = some .running

/-- `r` is a new run. -/
structure RunStarted (r : TuneRunRow) (t t' : Tables) : Prop where
  recovery : r.recoveryState = none
  runs : Inserted r t.runs t'.runs
  fresh : r.id = t.nextRun
  owners : t'.owners = t.owners
  claims : t'.claims = t.claims
  attempts : t'.attempts = t.attempts
  steps : t'.steps = t.steps

/-- The run `r` became `r'`; its recovery is as it was, and it does not run again. -/
structure RunUpdated (r r' : TuneRunRow) (t t' : Tables) : Prop where
  recovery : r'.recoveryState = r.recoveryState
  ended : r'.outcome = .running → r.outcome = .running
  runs : Replaced TuneRunRow.id r r' t.runs t'.runs
  owners : t'.owners = t.owners
  claims : t'.claims = t.claims
  attempts : t'.attempts = t.attempts
  steps : t'.steps = t.steps

/-- Owners, claims, runs and attempts are left alone. -/
structure Unmoved (t t' : Tables) : Prop where
  owners : t'.owners = t.owners
  claims : t'.claims = t.claims
  runs : t'.runs = t.runs
  attempts : t'.attempts = t.attempts

/-- Runs that are `gone` were deleted, with their owners and attempts and the claims of those
owners. -/
structure RunsDeleted (gone : ℕ → Prop) (t t' : Tables) : Prop where
  runs : ∀ r, r ∈ t'.runs ↔ r ∈ t.runs ∧ ¬gone r.id
  owners : ∀ o, o ∈ t'.owners ↔ o ∈ t.owners ∧ ∀ id, o.runId = some id → ¬gone id
  claims : ∀ c, c ∈ t'.claims ↔ c ∈ t.claims ∧ ∃ o ∈ t'.owners, o.id = c.ownerId
  attempts : ∀ a, a ∈ t'.attempts ↔ a ∈ t.attempts ∧ ¬gone a.runId

/-- A move of the ownership transactions, with what their callers pass: only `start_with_claim`
makes a recovery owner, a run gets one tune owner, and a recovery owner is ended by its attempt
alone.  `acquires` holds of the run that gets its tune owner, and `settles` of the run whose
recovery is confirmed, if there is one. -/
inductive OwnershipMove (acquires : Option ℕ → Prop) (settles : ℕ → Prop) (t t' : Tables) : Prop
  | unmoved (h : Unmoved t t')
  | claimed (o : LiveOwnershipRow) (h : Claimed o t t') (hkind : o.operationKind ≠ .recovery)
      (htune : o.operationKind = .tune → acquires o.runId ∧
        ∀ x ∈ t.owners, x.operationKind = .tune → x.runId ≠ o.runId)
  | touched (o o' : LiveOwnershipRow) (h : Touched o o' t t')
  | retired (o o' : LiveOwnershipRow) (h : Retired o o' t t') (hkind : o.operationKind ≠ .recovery)
  | orphaned (o o' : LiveOwnershipRow) (h : Orphaned o o' t t')
  | takenOver (s o : LiveOwnershipRow) (a : TuneRecoveryAttemptRow) (h : TakenOver s o a t t')
  | returned (s s' o o' : LiveOwnershipRow) (a a' : TuneRecoveryAttemptRow)
      (state : TuneRecoveryState) (h : Returned s s' o o' a a' state t t')
  | settled (s s' o o' : LiveOwnershipRow) (a a' : TuneRecoveryAttemptRow)
      (h : Settled s s' o o' a a' t t') (hsettles : settles a.runId)

/-- A move of the runs. -/
inductive RunMove (t t' : Tables) : Prop
  | started (r : TuneRunRow) (h : RunStarted r t t')
  | updated (r r' : TuneRunRow) (h : RunUpdated r r' t t')
  | deleted (gone : ℕ → Prop) (h : RunsDeleted gone t t')

/-! ### The invariant -/

/-- The run of a running attempt is being recovered, from the one orphan it has, by an active
recovery owner that goes by the orphan's claim key. -/
def UnderRecovery (t : Tables) (a : TuneRecoveryAttemptRow) : Prop :=
  (∃ r ∈ t.runs, r.id = a.runId ∧ r.recoveryState = some .running) ∧
    ∃ s ∈ t.owners, ∃ o ∈ t.owners, s.recoverable = true ∧ s.runId = some a.runId ∧
      o.id = a.recoveryOwnerId ∧ o.state = .active ∧ o.operationKind = .recovery ∧
      o.runId = some a.runId ∧ o.claimKey = s.claimKey

/-- What owners, claims, runs and attempts say together. -/
structure OwnershipInv (t : Tables) : Prop where
  claimOwner : ∀ c ∈ t.claims, ∃ o ∈ t.owners, o.id = c.ownerId ∧ o.claimKey = c.claimKey ∧
    (o.state = .active ∨ o.recoverable = true)
  activeClaim : ∀ o ∈ t.owners, o.state = .active → ∃ c ∈ t.claims, c.ownerId = o.id
  oneTune : ∀ o ∈ t.owners, ∀ o' ∈ t.owners, o.operationKind = .tune →
    o'.operationKind = .tune → o.runId = o'.runId → o.id = o'.id
  orphan : ∀ o ∈ t.owners, o.recoverable = true → o.operationKind = .tune ∧
    ∃ r ∈ t.runs, o.runId = some r.id ∧ r.unresolved
  waiting : ∀ r ∈ t.runs, TuneRecoveryState.mayStart r.recoveryState →
    ∃ o ∈ t.owners, o.runId = some r.id ∧ o.recoverable = true ∧ ∃ c ∈ t.claims, c.ownerId = o.id
  recovering : ∀ r ∈ t.runs, r.recoveryState = some .running →
    ∃ a ∈ t.attempts, a.runId = r.id ∧ a.status = .running
  attempt : ∀ a ∈ t.attempts, a.status = .running → UnderRecovery t a
  recoveryOwner : ∀ o ∈ t.owners, o.state = .active → o.operationKind = .recovery →
    ∃ a ∈ t.attempts, a.recoveryOwnerId = o.id ∧ a.status = .running
  unresolvedEnded : ∀ r ∈ t.runs, r.unresolved → r.outcome ≠ .running

/-! ### Keys -/

/-- A row is told by any of its keys. -/
structure Keyed (t : Tables) : Prop where
  owner : ∀ x ∈ t.owners, ∀ y ∈ t.owners, x.id = y.id → x = y
  claim : ∀ x ∈ t.claims, ∀ y ∈ t.claims, x.claimKey = y.claimKey → x = y
  claimOwner : ∀ x ∈ t.claims, ∀ y ∈ t.claims, x.ownerId = y.ownerId → x = y
  run : ∀ x ∈ t.runs, ∀ y ∈ t.runs, x.id = y.id → x = y
  attempt : ∀ x ∈ t.attempts, ∀ y ∈ t.attempts, x.id = y.id → x = y
  recoveryOwner : ∀ x ∈ t.attempts, ∀ y ∈ t.attempts,
    x.recoveryOwnerId = y.recoveryOwnerId → x = y
  ownerFresh : ∀ x ∈ t.owners, x.id ≠ t.nextOwner
  runFresh : ∀ x ∈ t.runs, x.id ≠ t.nextRun

theorem Constraints.keyed {t : Tables} (h : Constraints t) : Keyed t where
  owner := fun _ hx _ hy => h.owners.primaryKey.eq hx hy
  claim := fun _ hx _ hy => h.claims.eq hx hy
  claimOwner := fun _ hx _ hy => h.claimOwners.eq hx hy
  run := fun _ hx _ hy => h.runs.primaryKey.eq hx hy
  attempt := fun _ hx _ hy => h.attempts.primaryKey.eq hx hy
  recoveryOwner := fun _ hx _ hy => h.recoveryOwners.eq hx hy
  ownerFresh := fun x hx => Nat.ne_of_lt (h.owners.below x hx)
  runFresh := fun x hx => Nat.ne_of_lt (h.runs.below x hx)

theorem LiveOwnershipRow.identity_parts {o o' : LiveOwnershipRow} (h : o'.identity = o.identity) :
    o'.id = o.id ∧ o'.runId = o.runId ∧ o'.operationKind = o.operationKind ∧
      o'.claimKey = o.claimKey := by
  simpa [LiveOwnershipRow.identity] using h

theorem not_recoverable_of_ineligible {o : LiveOwnershipRow} (h : o.orphanEligible = false) :
    o.recoverable = false := by
  simp [LiveOwnershipRow.recoverable, h]

theorem not_recoverable_of_active {o : LiveOwnershipRow} (h : o.state = .active) :
    o.recoverable = false := by
  simp [LiveOwnershipRow.recoverable, h]

theorem not_unresolved_of_none {r : TuneRunRow} (h : r.recoveryState = none) : ¬r.unresolved := by
  simp [TuneRunRow.unresolved, TuneRecoveryState.mayStart, h]

section Moves

variable {t t' : Tables}

/-- A claim goes by the key of its owner. -/
theorem OwnershipInv.claimKey_eq (inv : OwnershipInv t) (keyed : Keyed t) {c : LiveOperationClaim}
    {o : LiveOwnershipRow} (hc : c ∈ t.claims) (ho : o ∈ t.owners) (hco : c.ownerId = o.id) :
    c.claimKey = o.claimKey := by
  obtain ⟨x, hx, hxid, hxkey, _⟩ := inv.claimOwner c hc
  rw [keyed.owner o ho x hx (by rw [hxid, hco]), hxkey]

/-- **At most one attempt is running on a run.**  Two of them would be run by two active owners
that go by the claim key of the one orphan of the run. -/
theorem OwnershipInv.oneAttempt (inv : OwnershipInv t) (keyed : Keyed t)
    {a a' : TuneRecoveryAttemptRow} (ha : a ∈ t.attempts) (ha' : a' ∈ t.attempts)
    (hrunning : a.status = .running) (hrunning' : a'.status = .running)
    (hrun : a.runId = a'.runId) : a = a' := by
  obtain ⟨_, s, hs, o, ho, hsrec, hsrun, hoid, hoact, _, _, hokey⟩ := inv.attempt a ha hrunning
  obtain ⟨_, s', hs', o', ho', hsrec', hsrun', hoid', hoact', _, _, hokey'⟩ :=
    inv.attempt a' ha' hrunning'
  have hsource : s = s' := by
    apply keyed.owner s hs s' hs'
    apply inv.oneTune s hs s' hs' (inv.orphan s hs hsrec).1 (inv.orphan s' hs' hsrec').1
    rw [hsrun, hsrun', hrun]
  obtain ⟨c, hc, hco⟩ := inv.activeClaim o ho hoact
  obtain ⟨c', hc', hco'⟩ := inv.activeClaim o' ho' hoact'
  have hclaim : c = c' := by
    apply keyed.claim c hc c' hc'
    rw [inv.claimKey_eq keyed hc ho hco, inv.claimKey_eq keyed hc' ho' hco', hokey, hokey', hsource]
  apply keyed.recoveryOwner a ha a' ha'
  rw [← hoid, ← hoid', ← hco, ← hco', hclaim]

/-! ### Every move keeps the invariant -/

theorem OwnershipInv.unmoved (inv : OwnershipInv t) (h : Unmoved t t') : OwnershipInv t' where
  claimOwner := by rw [h.claims, h.owners]; exact inv.claimOwner
  activeClaim := by rw [h.claims, h.owners]; exact inv.activeClaim
  oneTune := by rw [h.owners]; exact inv.oneTune
  orphan := by rw [h.owners, h.runs]; exact inv.orphan
  waiting := by rw [h.claims, h.owners, h.runs]; exact inv.waiting
  recovering := by rw [h.runs, h.attempts]; exact inv.recovering
  attempt := by
    unfold UnderRecovery
    rw [h.attempts, h.runs, h.owners]
    exact inv.attempt
  recoveryOwner := by rw [h.owners, h.attempts]; exact inv.recoveryOwner
  unresolvedEnded := by rw [h.runs]; exact inv.unresolvedEnded

theorem OwnershipInv.claimed {o : LiveOwnershipRow} (inv : OwnershipInv t)
    (h : Claimed o t t') (hkind : o.operationKind ≠ .recovery)
    (htune : o.operationKind = .tune →
      ∀ x ∈ t.owners, x.operationKind = .tune → x.runId ≠ o.runId) : OwnershipInv t' := by
  obtain ⟨c, hc, hkey, hclaims⟩ := h.claims
  have howners := h.owners
  have hactive := h.active
  have hnot := not_recoverable_of_active h.active
  have hruns := h.runs
  have hattempts := h.attempts
  unfold Inserted at hclaims howners
  exact {
    claimOwner := by grind [inv.claimOwner]
    activeClaim := by grind [inv.activeClaim]
    oneTune := by grind [inv.oneTune]
    orphan := by grind [inv.orphan]
    waiting := by grind [inv.waiting]
    recovering := by grind [inv.recovering]
    attempt := by
      intro a ha hrunning
      have hunder := inv.attempt a (hattempts ▸ ha) hrunning
      grind [UnderRecovery]
    recoveryOwner := by grind [inv.recoveryOwner]
    unresolvedEnded := by grind [inv.unresolvedEnded] }

theorem OwnershipInv.touched {o o' : LiveOwnershipRow} (inv : OwnershipInv t) (keyed : Keyed t)
    (h : Touched o o' t t') : OwnershipInv t' := by
  obtain ⟨hid, hrun, hkind, hkey⟩ := LiveOwnershipRow.identity_parts h.identity
  have howners := h.owners.mem
  have hwas := h.owners.was
  have hactive := h.wasActive
  have hactive' := h.active
  have hnot := not_recoverable_of_active h.wasActive
  have hnot' := not_recoverable_of_active h.active
  have hruns := h.runs
  have hclaims := h.claims
  have hattempts := h.attempts
  have hown := keyed.owner
  exact {
    claimOwner := by grind [inv.claimOwner]
    activeClaim := by grind [inv.activeClaim]
    oneTune := by grind [inv.oneTune]
    orphan := by grind [inv.orphan]
    waiting := by grind [inv.waiting]
    recovering := by grind [inv.recovering]
    attempt := by
      intro a ha hrunning
      have hunder := inv.attempt a (hattempts ▸ ha) hrunning
      grind [UnderRecovery]
    recoveryOwner := by grind [inv.recoveryOwner]
    unresolvedEnded := by grind [inv.unresolvedEnded] }

theorem OwnershipInv.retired {o o' : LiveOwnershipRow} (inv : OwnershipInv t) (keyed : Keyed t)
    (h : Retired o o' t t') (hkind : o.operationKind ≠ .recovery) : OwnershipInv t' := by
  obtain ⟨hid, hrun, hop, hkey⟩ := LiveOwnershipRow.identity_parts h.record.identity
  obtain ⟨c, hc, hclaims⟩ := h.claims
  have howners := h.owners.mem
  have hwas := h.owners.was
  have hmem := hclaims.mem
  have hcwas := hclaims.was
  have hnot := not_recoverable_of_active h.wasActive
  have hnot' := not_recoverable_of_ineligible h.ineligible
  have hactive := h.wasActive
  have hended := h.ended
  have hattempts := h.attempts
  have hown := keyed.owner
  have hclaim := keyed.claim
  have hclaimOwner := keyed.claimOwner
  -- the run that was failed along with its owner was running, so its recovery was not open
  have hruns : ∀ r ∈ t'.runs, r ∈ t.runs ∨
      r.recoveryState = some .notRecoverable ∧ r.outcome = .failed := by
    rcases h.runs with hruns | ⟨r, r', hfailed, hruns⟩
    · grind
    · grind [hruns.mem, hfailed.recovery, hfailed.outcome]
  have hkept : ∀ r ∈ t.runs, r.unresolved → r ∈ t'.runs := by
    rcases h.runs with hruns | ⟨r, r', hfailed, hruns⟩
    · grind
    · grind [hruns.mem, hruns.was, hfailed.wasRunning, inv.unresolvedEnded, keyed.run]
  exact {
    claimOwner := by grind [inv.claimOwner]
    activeClaim := by grind [inv.activeClaim]
    oneTune := by grind [inv.oneTune]
    orphan := by grind [inv.orphan]
    waiting := by grind [inv.waiting, TuneRecoveryState.mayStart]
    recovering := by grind [inv.recovering]
    attempt := by
      intro a ha hrunning
      have hunder := inv.attempt a (hattempts ▸ ha) hrunning
      grind [UnderRecovery, TuneRunRow.unresolved]
    recoveryOwner := by grind [inv.recoveryOwner]
    unresolvedEnded := by grind [inv.unresolvedEnded] }

theorem OwnershipInv.orphaned {o o' : LiveOwnershipRow} (inv : OwnershipInv t) (keyed : Keyed t)
    (h : Orphaned o o' t t') : OwnershipInv t' := by
  obtain ⟨hid, hrun, hop, hkey⟩ := LiveOwnershipRow.identity_parts h.record.identity
  obtain ⟨r, r', horun, hrunning, hfailed, hstate, hevidence, hruns⟩ := h.runs
  have howners := h.owners.mem
  have hwas := h.owners.was
  have hrwas := hruns.was
  have hrid := hruns.same
  have hrmem := hruns.mem
  have hnot := not_recoverable_of_active h.wasActive
  have hrecoverable := h.recoverable
  have hinactive : o'.state ≠ .active := by
    rw [(not_active_of_recoverable h.recoverable).1]
    nofun
  have hactive := h.wasActive
  have htune := h.tune
  have hclaims := h.claims
  have hattempts := h.attempts
  have hown := keyed.owner
  have hrkey := keyed.run
  have hresolved : ¬r.unresolved := fun hr => inv.unresolvedEnded r hrwas hr hrunning
  have hopen : r'.unresolved := by
    left
    rw [hstate]
    trivial
  exact {
    claimOwner := by grind [inv.claimOwner]
    activeClaim := by grind [inv.activeClaim]
    oneTune := by grind [inv.oneTune]
    orphan := by grind [inv.orphan]
    waiting := by grind [inv.waiting, inv.activeClaim]
    recovering := by grind [inv.recovering]
    attempt := by
      intro a ha hattempt
      have hunder := inv.attempt a (hattempts ▸ ha) hattempt
      grind [UnderRecovery, TuneRunRow.unresolved]
    recoveryOwner := by grind [inv.recoveryOwner]
    unresolvedEnded := by grind [inv.unresolvedEnded] }

theorem OwnershipInv.takenOver {s o : LiveOwnershipRow} {a : TuneRecoveryAttemptRow}
    (inv : OwnershipInv t) (keyed : Keyed t) (h : TakenOver s o a t t') : OwnershipInv t' := by
  obtain ⟨c, c', hc, hc', hclaims⟩ := h.claims
  obtain ⟨r, r', hrid, hfailed, hmay, hfailed', hstate, hevidence, hruns⟩ := h.runs
  have hcwas := hclaims.was
  have hckey := hclaims.same
  have hcmem := hclaims.mem
  have hrwas := hruns.was
  have hrsame := hruns.same
  have hrmem := hruns.mem
  have howners := h.owners
  have hattempts := h.attempts
  unfold Inserted at howners hattempts
  have hsource := h.source
  have hsrun := h.sourceRun
  have hrecoverable := h.recoverable
  have hactive := h.active
  have hnot := not_recoverable_of_active h.active
  have hkind := h.recovery
  have horun := h.run
  have hokey := h.claimKey
  have hfresh : ∀ x ∈ t.owners, x.id ≠ o.id := by
    rw [h.fresh]
    exact keyed.ownerFresh
  have hrunning := h.running
  have haowner := h.attemptOwner
  have hown := keyed.owner
  have hclaim := keyed.claim
  have hclaimOwner := keyed.claimOwner
  have hrkey := keyed.run
  have hopen : r'.unresolved := .inr hstate
  have hwasOpen : r.unresolved := .inl hmay
  have hinactive := not_active_of_recoverable h.recoverable
  have hkeys := fun c hc x hx hcx => inv.claimKey_eq (c := c) (o := x) keyed hc hx hcx
  exact {
    claimOwner := by grind [inv.claimOwner]
    activeClaim := by grind [inv.activeClaim]
    oneTune := by grind [inv.oneTune]
    orphan := by grind [inv.orphan]
    waiting := by
      intro x hx hxmay
      have hne : x.id ≠ r.id := by
        intro heq
        grind [TuneRecoveryState.mayStart]
      have hxold : x ∈ t.runs := by grind
      obtain ⟨y, hy, hyrun, hyrec, z, hz, hzy⟩ := inv.waiting x hxold hxmay
      -- the orphan of another run is another owner, so it has another claim
      have hys : y.id ≠ s.id := by grind
      have hzc : z.claimKey ≠ c.claimKey := by grind
      exact ⟨y, (howners y).mpr (.inr hy), hyrun, hyrec, z, (hcmem z).mpr (.inr ⟨hz, hzc⟩), hzy⟩
    recovering := by grind [inv.recovering]
    attempt := by
      intro x hx hxrunning
      rcases (hattempts x).mp hx with rfl | hx
      · exact ⟨⟨r', (hrmem r').mpr (.inl rfl), hrsame.trans hrid, hstate⟩, s,
          (howners s).mpr (.inr hsource), o, (howners o).mpr (.inl rfl), hrecoverable, hsrun,
          haowner.symm, hactive, hkind, horun, hokey⟩
      · obtain ⟨⟨y, hy, hyid, hystate⟩, hrest⟩ := inv.attempt x hx hxrunning
        have hne : y.id ≠ r.id := by
          intro heq
          rw [hrkey y hy r hrwas heq] at hystate
          rw [hystate] at hmay
          exact hmay
        grind [UnderRecovery]
    recoveryOwner := by grind [inv.recoveryOwner]
    unresolvedEnded := by grind [inv.unresolvedEnded] }

/-- What the invariant knows of an attempt that comes to its end: its owner and its source go by
one key, and no other attempt runs on their run. -/
structure AttemptEnd (s o : LiveOwnershipRow) (a : TuneRecoveryAttemptRow) (t : Tables) : Prop where
  tune : s.operationKind = .tune
  recovery : o.operationKind = .recovery
  ownerRun : o.runId = some a.runId
  claimKey : o.claimKey = s.claimKey
  apart : o.id ≠ s.id
  alone : ∀ x ∈ t.attempts, x.status = .running → x.id ≠ a.id → x.runId ≠ a.runId

theorem OwnershipInv.attemptEnd {s s' o o' : LiveOwnershipRow} {a a' : TuneRecoveryAttemptRow}
    {state : TuneRecoveryState} (inv : OwnershipInv t) (keyed : Keyed t)
    (h : Concluded s s' o o' a a' state t t') : AttemptEnd s o a t := by
  obtain ⟨_, s₁, hs₁, o₁, ho₁, hrec₁, hrun₁, hid₁, hactive₁, hkind₁, horun₁, hkey₁⟩ :=
    inv.attempt a h.attempts.was h.wasRunning
  have htune := (inv.orphan s h.source h.recoverable).1
  have hs : s₁ = s := by
    apply keyed.owner s₁ hs₁ s h.source
    apply inv.oneTune s₁ hs₁ s h.source (inv.orphan s₁ hs₁ hrec₁).1 htune
    rw [hrun₁, h.sourceRun]
  have ho : o₁ = o := keyed.owner o₁ ho₁ o h.owner (by rw [hid₁, h.attemptOwner])
  subst hs ho
  refine ⟨htune, hkind₁, horun₁, hkey₁, ?_, ?_⟩
  · intro heq
    have hsame := keyed.owner o₁ ho₁ s₁ hs₁ heq
    rw [hsame, htune] at hkind₁
    cases hkind₁
  · intro x hx hrunning hne hrun
    exact hne (congrArg _ (inv.oneAttempt keyed hx h.attempts.was hrunning h.wasRunning hrun))

/-- The end of an attempt leaves everything of other runs alone, so what the invariant says of
attempts and recovery owners still holds. -/
theorem OwnershipInv.concluded {s s' o o' : LiveOwnershipRow} {a a' : TuneRecoveryAttemptRow}
    {state : TuneRecoveryState} (inv : OwnershipInv t) (keyed : Keyed t)
    (h : Concluded s s' o o' a a' state t t') (hinactive : s'.state ≠ .active) :
    (∀ x ∈ t'.attempts, x.status = .running → UnderRecovery t' x) ∧
      (∀ x ∈ t'.owners, x.state = .active → x.operationKind = .recovery →
        ∃ y ∈ t'.attempts, y.recoveryOwnerId = x.id ∧ y.status = .running) ∧
      (∀ x ∈ t'.owners, ∀ y ∈ t'.owners, x.operationKind = .tune → y.operationKind = .tune →
        x.runId = y.runId → x.id = y.id) ∧
      ∀ r ∈ t'.runs, r.unresolved → r.outcome ≠ .running := by
  obtain ⟨htune, hkind, horun, hkey, hne, halone⟩ := inv.attemptEnd keyed h
  obtain ⟨hid, hrun, hop, hkey'⟩ := LiveOwnershipRow.identity_parts h.record.identity
  obtain ⟨hsid, hsrun, hsop, hskey⟩ := LiveOwnershipRow.identity_parts h.sourceRecord.identity
  obtain ⟨r, r', hrid, hfailed, hfailed', hstate, hevidence, hruns⟩ := h.runs
  have hrwas := hruns.was
  have hrsame := hruns.same
  have hrmem := hruns.mem
  have hrkey := keyed.run
  have howners := h.owners
  have howner := h.owner
  have hsource := h.source
  have hsourceRun := h.sourceRun
  have hended := h.ended
  have hsame := h.attempts.same
  have hmem := h.attempts.mem
  have hawas := h.attempts.was
  have hakey := keyed.attempt
  have haowner := h.attemptOwner
  have hreleased := h.released
  have hown := keyed.owner
  refine ⟨?_, ?_, ?_, ?_⟩
  · intro x hx hrunning
    have hxold : x ∈ t.attempts ∧ x.id ≠ a.id := by grind
    have hxrun := halone x hxold.1 hrunning hxold.2
    obtain ⟨⟨y, hy, hyid, hystate⟩, s₁, hs₁, o₁, ho₁, hrec₁, hrun₁, hrest⟩ :=
      inv.attempt x hxold.1 hrunning
    grind [UnderRecovery]
  · grind [inv.recoveryOwner]
  · grind [inv.oneTune]
  · grind [inv.unresolvedEnded]

/-- Another orphan is the orphan of another run. -/
theorem OwnershipInv.otherOrphan {s s' o o' : LiveOwnershipRow} {a a' : TuneRecoveryAttemptRow}
    {state : TuneRecoveryState} (inv : OwnershipInv t) (h : Concluded s s' o o' a a' state t t')
    {x : LiveOwnershipRow} (hx : x ∈ t.owners) (hrecoverable : x.recoverable = true)
    (hne : x.id ≠ s.id) :
    x.operationKind = .tune ∧ ∃ y ∈ t'.runs, x.runId = some y.id ∧ y.unresolved := by
  obtain ⟨r, r', hrid, _, _, _, _, hruns⟩ := h.runs
  obtain ⟨htune, y, hy, hrun, hopen⟩ := inv.orphan x hx hrecoverable
  have hyr : y.id ≠ r.id := by
    intro heq
    apply hne
    apply inv.oneTune x hx s h.source htune (inv.orphan s h.source h.recoverable).1
    rw [hrun, h.sourceRun, heq, hrid]
  exact ⟨htune, y, hruns.mem_other hy hyr, hrun, hopen⟩

theorem OwnershipInv.returned {s s' o o' : LiveOwnershipRow} {a a' : TuneRecoveryAttemptRow}
    {state : TuneRecoveryState} (inv : OwnershipInv t) (keyed : Keyed t)
    (h : Returned s s' o o' a a' state t t') : OwnershipInv t' := by
  obtain ⟨htune, hkind, horun, hkey, hne, halone⟩ := inv.attemptEnd keyed h.concluded
  have hinactive' : s'.state ≠ .active := by
    rw [(not_active_of_recoverable h.recoverableAgain).1]
    nofun
  obtain ⟨hattempt, hrecovery, honeTune, hended⟩ :=
    inv.concluded keyed h.concluded hinactive'
  obtain ⟨hid, hrun, hop, hkey'⟩ := LiveOwnershipRow.identity_parts h.concluded.record.identity
  obtain ⟨hsid, hsrun, hsop, hskey⟩ :=
    LiveOwnershipRow.identity_parts h.concluded.sourceRecord.identity
  obtain ⟨r, r', hrid, hfailed, hfailed', hstate, hevidence, hruns⟩ := h.concluded.runs
  obtain ⟨c, c', hc, hc', hclaims⟩ := h.claims
  have hrwas := hruns.was
  have hrsame := hruns.same
  have hrmem := hruns.mem
  have hrkey := keyed.run
  have hcwas := hclaims.was
  have hckey := hclaims.same
  have hcmem := hclaims.mem
  have howners := h.concluded.owners
  have howner := h.concluded.owner
  have hsource := h.concluded.source
  have hsourceRun := h.concluded.sourceRun
  have hrecoverable' := h.recoverableAgain
  have hactive := h.concluded.wasActive
  have hreleased := h.concluded.released
  have hnot := not_recoverable_of_active h.concluded.wasActive
  have hnot' := not_recoverable_of_ineligible h.concluded.ineligible
  have hwasRunning := h.concluded.wasRunning
  have hmem := h.concluded.attempts.mem
  have hawas := h.concluded.attempts.was
  have hakey := keyed.attempt
  have hmay := h.state
  have hown := keyed.owner
  have hclaim := keyed.claim
  have hclaimOwner := keyed.claimOwner
  have hopen : r'.unresolved := by
    left
    rw [hstate]
    exact hmay
  have hwaits : r'.recoveryState ≠ some .running := by
    rw [hstate]
    rintro heq
    cases heq
    exact hmay
  have hkeys := fun c hc x hx hcx => inv.claimKey_eq (c := c) (o := x) keyed hc hx hcx
  exact {
    claimOwner := by
      intro x hx
      rcases (hcmem x).mp hx with rfl | ⟨hx, hxc⟩
      · refine ⟨s', (howners s').mpr (.inr (.inl rfl)), hsid.trans hc'.symm, ?_, .inr hrecoverable'⟩
        rw [hskey, ← hkey, ← hkeys c hcwas o howner hc, hckey]
      · grind [inv.claimOwner]
    activeClaim := by grind [inv.activeClaim]
    oneTune := honeTune
    orphan := by
      intro x hx hxrec
      rcases (howners x).mp hx with rfl | rfl | ⟨hx, _, hxs⟩
      · rw [hnot'] at hxrec
        cases hxrec
      · refine ⟨hsop.trans htune, r', (hrmem r').mpr (.inl rfl), ?_, hopen⟩
        rw [hsrun, hsourceRun, hrsame, hrid]
      · exact inv.otherOrphan h.concluded hx hxrec hxs
    waiting := by
      intro x hx hxmay
      rcases (hrmem x).mp hx with rfl | ⟨hx, hxr⟩
      · refine ⟨s', (howners s').mpr (.inr (.inl rfl)), ?_, hrecoverable', c',
          (hcmem c').mpr (.inl rfl), hc'.trans hsid.symm⟩
        rw [hsrun, hsourceRun, hrsame, hrid]
      · obtain ⟨y, hy, hyrun, hyrec, z, hz, hzy⟩ := inv.waiting x hx hxmay
        have hys : y.id ≠ s.id := by grind
        have hyo : y.id ≠ o.id := by grind
        have hzc : z.claimKey ≠ c.claimKey := by grind
        exact ⟨y, (howners y).mpr (.inr (.inr ⟨hy, hyo, hys⟩)), hyrun, hyrec, z,
          (hcmem z).mpr (.inr ⟨hz, hzc⟩), hzy⟩
    recovering := by grind [inv.recovering]
    attempt := hattempt
    recoveryOwner := hrecovery
    unresolvedEnded := hended }

theorem OwnershipInv.settled {s s' o o' : LiveOwnershipRow} {a a' : TuneRecoveryAttemptRow}
    (inv : OwnershipInv t) (keyed : Keyed t) (h : Settled s s' o o' a a' t t') :
    OwnershipInv t' := by
  obtain ⟨htune, hkind, horun, hkey, hne, halone⟩ := inv.attemptEnd keyed h.concluded
  have hinactive' : s'.state ≠ .active := by
    rw [h.recovered]
    nofun
  obtain ⟨hattempt, hrecovery, honeTune, hended⟩ :=
    inv.concluded keyed h.concluded hinactive'
  obtain ⟨hid, hrun, hop, hkey'⟩ := LiveOwnershipRow.identity_parts h.concluded.record.identity
  obtain ⟨hsid, hsrun, hsop, hskey⟩ :=
    LiveOwnershipRow.identity_parts h.concluded.sourceRecord.identity
  obtain ⟨r, r', hrid, hfailed, hfailed', hstate, hevidence, hruns⟩ := h.concluded.runs
  obtain ⟨c, hc, hclaims⟩ := h.claims
  have hrwas := hruns.was
  have hrsame := hruns.same
  have hrmem := hruns.mem
  have hrkey := keyed.run
  have hcwas := hclaims.was
  have hcmem := hclaims.mem
  have howners := h.concluded.owners
  have howner := h.concluded.owner
  have hsource := h.concluded.source
  have hsourceRun := h.concluded.sourceRun
  have hactive := h.concluded.wasActive
  have hreleased := h.concluded.released
  have hnot := not_recoverable_of_active h.concluded.wasActive
  have hnot' := not_recoverable_of_ineligible h.concluded.ineligible
  have hsnot' := not_recoverable_of_ineligible h.sourceIneligible
  have hwasRunning := h.concluded.wasRunning
  have hmem := h.concluded.attempts.mem
  have hawas := h.concluded.attempts.was
  have hakey := keyed.attempt
  have hown := keyed.owner
  have hclaim := keyed.claim
  have hclaimOwner := keyed.claimOwner
  have hkeys := fun c hc x hx hcx => inv.claimKey_eq (c := c) (o := x) keyed hc hx hcx
  exact {
    claimOwner := by grind [inv.claimOwner]
    activeClaim := by grind [inv.activeClaim]
    oneTune := honeTune
    orphan := by
      intro x hx hxrec
      have hxold : x ∈ t.owners ∧ x.id ≠ s.id := by grind
      exact inv.otherOrphan h.concluded hxold.1 hxrec hxold.2
    waiting := by grind [inv.waiting, TuneRecoveryState.mayStart]
    recovering := by grind [inv.recovering]
    attempt := hattempt
    recoveryOwner := hrecovery
    unresolvedEnded := hended }

theorem OwnershipInv.runStarted {r : TuneRunRow} (inv : OwnershipInv t) (h : RunStarted r t t') :
    OwnershipInv t' := by
  have hruns := h.runs
  have hnone := h.recovery
  have hresolved := not_unresolved_of_none h.recovery
  have howners := h.owners
  have hclaims := h.claims
  have hattempts := h.attempts
  unfold Inserted at hruns
  exact {
    claimOwner := by grind [inv.claimOwner]
    activeClaim := by grind [inv.activeClaim]
    oneTune := by grind [inv.oneTune]
    orphan := by grind [inv.orphan]
    waiting := by grind [inv.waiting, TuneRecoveryState.mayStart]
    recovering := by grind [inv.recovering]
    attempt := by
      intro a ha hrunning
      have hunder := inv.attempt a (hattempts ▸ ha) hrunning
      grind [UnderRecovery]
    recoveryOwner := by grind [inv.recoveryOwner]
    unresolvedEnded := by grind [inv.unresolvedEnded] }

theorem OwnershipInv.runUpdated {r r' : TuneRunRow} (inv : OwnershipInv t) (keyed : Keyed t)
    (h : RunUpdated r r' t t') : OwnershipInv t' := by
  have hrwas := h.runs.was
  have hrsame := h.runs.same
  have hrmem := h.runs.mem
  have hrkey := keyed.run
  have hstate := h.recovery
  have hended := h.ended
  have hopen : r'.unresolved ↔ r.unresolved := by
    unfold TuneRunRow.unresolved
    rw [hstate]
  have howners := h.owners
  have hclaims := h.claims
  have hattempts := h.attempts
  exact {
    claimOwner := by grind [inv.claimOwner]
    activeClaim := by grind [inv.activeClaim]
    oneTune := by grind [inv.oneTune]
    orphan := by grind [inv.orphan]
    waiting := by grind [inv.waiting]
    recovering := by grind [inv.recovering]
    attempt := by
      intro a ha hrunning
      have hunder := inv.attempt a (hattempts ▸ ha) hrunning
      grind [UnderRecovery]
    recoveryOwner := by grind [inv.recoveryOwner]
    unresolvedEnded := by grind [inv.unresolvedEnded] }

theorem OwnershipInv.runsDeleted {gone : ℕ → Prop} (inv : OwnershipInv t) (keyed : Keyed t)
    (h : RunsDeleted gone t t') : OwnershipInv t' := by
  have hruns := h.runs
  have howners := h.owners
  have hclaims := h.claims
  have hattempts := h.attempts
  have hown := keyed.owner
  exact {
    claimOwner := by grind [inv.claimOwner]
    activeClaim := by grind [inv.activeClaim]
    oneTune := by grind [inv.oneTune]
    orphan := by grind [inv.orphan]
    waiting := by grind [inv.waiting]
    recovering := by grind [inv.recovering]
    attempt := by
      intro a ha hrunning
      have hunder := inv.attempt a ((hattempts a).mp ha).1 hrunning
      grind [UnderRecovery]
    recoveryOwner := by
      intro o ho hactive hkind
      obtain ⟨a, ha, haowner, hrunning⟩ := inv.recoveryOwner o ((howners o).mp ho).1 hactive hkind
      obtain ⟨_, s, _, x, hx, _, _, hxid, _, _, hxrun, _⟩ := inv.attempt a ha hrunning
      have hxo : x = o := hown x hx o ((howners o).mp ho).1 (hxid.trans haowner)
      rw [hxo] at hxrun
      exact ⟨a, (hattempts a).mpr ⟨ha, ((howners o).mp ho).2 _ hxrun⟩, haowner, hrunning⟩
    unresolvedEnded := by grind [inv.unresolvedEnded] }

/-- **Every move of the ownership transactions keeps the invariant.** -/
theorem ownershipInv_move {acquires : Option ℕ → Prop} {settles : ℕ → Prop} (inv : OwnershipInv t)
    (h : Constraints t) (hmove : OwnershipMove acquires settles t t') : OwnershipInv t' := by
  cases hmove with
  | unmoved h' => exact inv.unmoved h'
  | claimed o h' hkind htune => exact inv.claimed h' hkind fun hk => (htune hk).2
  | touched o o' h' => exact inv.touched h.keyed h'
  | retired o o' h' hkind => exact inv.retired h.keyed h' hkind
  | orphaned o o' h' => exact inv.orphaned h.keyed h'
  | takenOver s o a h' => exact inv.takenOver h.keyed h'
  | returned s s' o o' a a' state h' => exact inv.returned h.keyed h'
  | settled s s' o o' a a' h' hsettles => exact inv.settled h.keyed h'

/-- And so does every move of the runs. -/
theorem ownershipInv_runMove (inv : OwnershipInv t) (h : Constraints t) (hmove : RunMove t t') :
    OwnershipInv t' := by
  cases hmove with
  | started r h' => exact inv.runStarted h'
  | updated r r' h' => exact inv.runUpdated h.keyed h'
  | deleted gone h' => exact inv.runsDeleted h.keyed h'

/-- An owner was there before the move, or it is new; a new tune owner was acquired. -/
theorem OwnershipMove.owner {acquires : Option ℕ → Prop} {settles : ℕ → Prop}
    (hmove : OwnershipMove acquires settles t t') {x : LiveOwnershipRow} (hx : x ∈ t'.owners) :
    (∃ y ∈ t.owners, y.identity = x.identity) ∨
      x.id = t.nextOwner ∧ (x.operationKind = .tune → acquires x.runId) := by
  have hinserted : ∀ o : LiveOwnershipRow, Inserted o t.owners t'.owners →
      x = o ∨ ∃ y ∈ t.owners, y.identity = x.identity := by
    intro o h
    rcases (h x).mp hx with rfl | hx
    · exact .inl rfl
    · exact .inr ⟨x, hx, rfl⟩
  have hreplaced : ∀ o o' : LiveOwnershipRow, o'.identity = o.identity →
      Replaced LiveOwnershipRow.id o o' t.owners t'.owners →
        ∃ y ∈ t.owners, y.identity = x.identity := by
    intro o o' hsame h
    rcases (h.mem x).mp hx with rfl | ⟨hx, _⟩
    · exact ⟨o, h.was, hsame.symm⟩
    · exact ⟨x, hx, rfl⟩
  have hconcluded : ∀ s s' o o' a a' state, Concluded s s' o o' a a' state t t' →
      ∃ y ∈ t.owners, y.identity = x.identity := by
    intro s s' o o' a a' state h
    rcases (h.owners x).mp hx with rfl | rfl | ⟨hx, _⟩
    · exact ⟨o, h.owner, h.record.identity.symm⟩
    · exact ⟨s, h.source, h.sourceRecord.identity.symm⟩
    · exact ⟨x, hx, rfl⟩
  cases hmove with
  | unmoved h => exact .inl ⟨x, h.owners ▸ hx, rfl⟩
  | claimed o h hkind hacquires =>
    rcases hinserted o h.owners with rfl | hold
    · exact .inr ⟨h.fresh, fun htune => (hacquires htune).1⟩
    · exact .inl hold
  | touched o o' h => exact .inl (hreplaced o o' h.identity h.owners)
  | retired o o' h => exact .inl (hreplaced o o' h.record.identity h.owners)
  | orphaned o o' h => exact .inl (hreplaced o o' h.record.identity h.owners)
  | takenOver s o a h =>
    rcases hinserted o h.owners with rfl | hold
    · exact .inr ⟨h.fresh, fun htune => by rw [h.recovery] at htune; cases htune⟩
    · exact .inl hold
  | returned s s' o o' a a' state h => exact .inl (hconcluded s s' o o' a a' state h.concluded)
  | settled s s' o o' a a' h _ => exact .inl (hconcluded s s' o o' a a' .confirmed h.concluded)

theorem RunMove.owner (hmove : RunMove t t') {x : LiveOwnershipRow} (hx : x ∈ t'.owners) :
    x ∈ t.owners := by
  cases hmove with
  | started r h => exact h.owners ▸ hx
  | updated r r' h => exact h.owners ▸ hx
  | deleted gone h => exact ((h.owners x).mp hx).1

end Moves

end Bhtune
