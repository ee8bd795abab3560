import Bhtune.Db.LiveOwnership

/-!
# What the ownership transactions can do

Each transaction of `LiveOwnership` either leaves the database alone or makes one of seven moves,
said here about the rows as sets.

* `Claimed`, `Touched`, `Retired` — an operation begins, goes on and ends;
* `Orphaned` — the sweep finds a dead tune that may be restored;
* `TakenOver`, `Returned`, `Settled` — a recovery takes the claim of the dead tune, and gives it
  back or is done with it;
* `…_ends` — one theorem for each transaction: what it does when it answers, and that a failure
  changes nothing.
-/

namespace Bhtune

open Table Transaction

/-! ### What a move leaves alone -/

/-- What no transaction changes of an owner. -/
def LiveOwnershipRow.identity (o : LiveOwnershipRow) :
    ℕ × Option ℕ × LiveOperationKind × ClaimKey :=
  (o.id, o.runId, o.operationKind, o.claimKey)

/-- A run without the columns that its end and its recovery fill in. -/
def TuneRunRow.evidence (r : TuneRunRow) : TuneRunRow :=
  { r with
    completedAt := none
    outcome := .running
    failureReason := none
    gatewayCompatibilityJson := none
    restoreStatus := none
    restoreDetail := none
    recoveryState := none
    recoveryEvidenceJson := none }

/-- The owner keeps its identity and its restore intent. -/
structure SameRecord (o o' : LiveOwnershipRow) : Prop where
  identity : o'.identity = o.identity
  intent : o'.restoreIntentJson = o.restoreIntentJson

/-! ### The moves -/

/-- `o` is a new owner, and it got a claim that nobody had. -/
structure Claimed (o : LiveOwnershipRow) (t t' : Tables) : Prop where
  active : o.state = .active
  ineligible : o.orphanEligible = false
  fresh : o.id = t.nextOwner
  owners : Inserted o t.owners t'.owners
  claims : ∃ c : LiveOperationClaim, c.ownerId = o.id ∧ c.claimKey = o.claimKey ∧
    Inserted c t.claims t'.claims
  runs : t'.runs = t.runs
  attempts : t'.attempts = t.attempts
  steps : t'.steps = t.steps

/-- The active owner `o` became `o'`, which differs in its heartbeat or its intent. -/
structure Touched (o o' : LiveOwnershipRow) (t t' : Tables) : Prop where
  identity : o'.identity = o.identity
  wasActive : o.state = .active
  active : o'.state = .active
  ineligible : o'.orphanEligible = o.orphanEligible
  owners : Replaced LiveOwnershipRow.id o o' t.owners t'.owners
  claims : t'.claims = t.claims
  runs : t'.runs = t.runs
  attempts : t'.attempts = t.attempts
  steps : t'.steps = t.steps

/-- The run was still running and is now beyond automatic recovery. -/
structure RunFailed (r r' : TuneRunRow) : Prop where
  wasRunning : r.outcome = .running
  outcome : r'.outcome = .failed
  recovery : r'.recoveryState = some .notRecoverable
  evidence : r'.evidence = r.evidence

/-- The active owner `o` ended for good, and its claim is gone. -/
structure Retired (o o' : LiveOwnershipRow) (t t' : Tables) : Prop where
  record : SameRecord o o'
  wasActive : o.state = .active
  ended : o'.state ≠ .active
  ineligible : o'.orphanEligible = false
  owners : Replaced LiveOwnershipRow.id o o' t.owners t'.owners
  claims : ∃ c : LiveOperationClaim, c.ownerId = o.id ∧
    Removed LiveOperationClaim.claimKey c t.claims t'.claims
  runs : t'.runs = t.runs ∨
    ∃ r r', RunFailed r r' ∧ Replaced TuneRunRow.id r r' t.runs t'.runs
  attempts : t'.attempts = t.attempts
  steps : t'.steps = t.steps

/-- The dead tune `o` was orphaned and keeps its claim for a recovery of its run. -/
structure Orphaned (o o' : LiveOwnershipRow) (t t' : Tables) : Prop where
  record : SameRecord o o'
  wasActive : o.state = .active
  tune : o.operationKind = .tune
  recoverable : o'.recoverable = true
  owners : Replaced LiveOwnershipRow.id o o' t.owners t'.owners
  runs : ∃ r r', o.runId = some r.id ∧ r.outcome = .running ∧ r'.outcome = .failed ∧
    r'.recoveryState = some .eligible ∧ r'.evidence = r.evidence ∧
    Replaced TuneRunRow.id r r' t.runs t'.runs
  claims : t'.claims = t.claims
  attempts : t'.attempts = t.attempts
  steps : t'.steps = t.steps

/-- A recovery of the run may begin. -/
def TuneRecoveryState.mayStart : Option TuneRecoveryState → Prop
  | some .eligible | some .incomplete => True
  | _ => False

/-- The recovery owner `o` took the claim of the orphan `s` for the attempt `a`. -/
structure TakenOver (s o : LiveOwnershipRow) (a : TuneRecoveryAttemptRow) (t t' : Tables) :
    Prop where
  source : s ∈ t.owners
  tune : s.operationKind = .tune
  recoverable : s.recoverable = true
  sourceRun : s.runId = some a.runId
  active : o.state = .active
  ineligible : o.orphanEligible = false
  recovery : o.operationKind = .recovery
  run : o.runId = some a.runId
  claimKey : o.claimKey = s.claimKey
  fresh : o.id = t.nextOwner
  owners : Inserted o t.owners t'.owners
  claims : ∃ c c' : LiveOperationClaim, c.ownerId = s.id ∧ c'.ownerId = o.id ∧
    Replaced LiveOperationClaim.claimKey c c' t.claims t'.claims
  running : a.status = .running
  attemptSource : a.sourceOwnerId = s.id
  attemptOwner : a.recoveryOwnerId = o.id
  attempts : Inserted a t.attempts t'.attempts
  runs : ∃ r r', r.id = a.runId ∧ r.outcome = .failed ∧
    TuneRecoveryState.mayStart r.recoveryState ∧ r'.outcome = .failed ∧
    r'.recoveryState = some .running ∧ r'.evidence = r.evidence ∧
    Replaced TuneRunRow.id r r' t.runs t'.runs
  steps : t'.steps = t.steps

/-- The recovery owner `o` ended its attempt `a`; the source owner `s` became `s'` and the run
got the recovery state `state`. -/
structure Concluded (s s' o o' : LiveOwnershipRow) (a a' : TuneRecoveryAttemptRow)
    (state : TuneRecoveryState) (t t' : Tables) : Prop where
  source : s ∈ t.owners
  sourceRecord : SameRecord s s'
  recoverable : s.recoverable = true
  sourceRun : s.runId = some a.runId
  owner : o ∈ t.owners
  record : SameRecord o o'
  wasActive : o.state = .active
  released : o'.state = .released
  ineligible : o'.orphanEligible = false
  owners : ∀ x, x ∈ t'.owners ↔ x = o' ∨ x = s' ∨ x ∈ t.owners ∧ x.id ≠ o.id ∧ x.id ≠ s.id
  wasRunning : a.status = .running
  ended : a'.status ≠ .running
  attemptOwner : a.recoveryOwnerId = o.id
  attempts : Replaced TuneRecoveryAttemptRow.id a a' t.attempts t'.attempts
  runs : ∃ r r', r.id = a.runId ∧ r.outcome = .failed ∧ r'.outcome = .failed ∧
    r'.recoveryState = some state ∧ r'.evidence = r.evidence ∧
    Replaced TuneRunRow.id r r' t.runs t'.runs
  steps : t'.steps = t.steps

/-- The attempt ended without success, and the orphan has its claim again. -/
structure Returned (s s' o o' : LiveOwnershipRow) (a a' : TuneRecoveryAttemptRow)
    (state : TuneRecoveryState) (t t' : Tables) : Prop where
  concluded : Concluded s s' o o' a a' state t t'
  state : TuneRecoveryState.mayStart (some state)
  recoverableAgain : s'.recoverable = true
  claims : ∃ c c' : LiveOperationClaim, c.ownerId = o.id ∧ c'.ownerId = s.id ∧
    Replaced LiveOperationClaim.claimKey c c' t.claims t'.claims

/-- The attempt restored the loop: the orphan is recovered, and the claim is gone. -/
structure Settled (s s' o o' : LiveOwnershipRow) (a a' : TuneRecoveryAttemptRow)
    (t t' : Tables) : Prop where
  concluded : Concluded s s' o o' a a' .confirmed t t'
  recovered : s'.state = .recovered
  sourceIneligible : s'.orphanEligible = false
  claims : ∃ c : LiveOperationClaim, c.ownerId = o.id ∧
    Removed LiveOperationClaim.claimKey c t.claims t'.claims

/-! ### Bodies of transactions -/

section Rules

variable {α : Type} {Q : α → Db → Prop} {kept : α → Prop} {d : Db} {lost : Except DbError α}
variable {rest : DbM (Ending α)}

/-- From `d`, a body that commits does so in `Q`, and one that is rolled back with an answer
answers what `kept` allows. -/
def Commits (body : DbM (Ending α)) (Q : α → Db → Prop) (kept : α → Prop) (d : Db) : Prop :=
  Ends body
    (fun v d' => match v with
      | .commit a => Q a d'
      | .rollback (.ok a) => kept a
      | .rollback (.error _) => True)
    (fun _ _ => True) d

theorem ends_atomically {body : DbM (Ending α)} (kept : α → Prop) (h : Commits body Q kept d)
    (hkept : ∀ a, kept a → Q a d) : Ends (atomically body) Q (fun _ d' => d' = d) d := by
  refine ends_transaction ?_ ?_
  · rfl
  · apply ends_mono h
    · intro v d' hv
      cases v with
      | commit a => exact hv
      | rollback result =>
        cases result with
        | ok a => exact hkept a hv
        | error e => rfl
    · exact fun _ _ _ => rfl

theorem commits_seq {β : Type} {x : DbM β} {f : β → DbM (Ending α)}
    (h : Ends x (fun b d' => Commits (f b) Q kept d') (fun _ _ => True) d) :
    Commits (x >>= f) Q kept d :=
  ends_seq h fun _ _ hb => hb

theorem commits_commit {a : α} (h : Q a d) : Commits (do return .commit a) Q kept d :=
  ends_pure h

/-- What is rolled back with an error asks for nothing. -/
def Lost (kept : α → Prop) : Except DbError α → Prop
  | .ok a => kept a
  | .error _ => True

theorem commits_onlyOne {rows : DbM ℕ} (hlost : Lost kept lost)
    (h : Ends rows (fun n d' => n = 1 → Commits rest Q kept d') (fun _ _ => True) d) :
    Commits (onlyOne rows lost rest) Q kept d := by
  apply ends_seq h
  intro n d' hn
  by_cases h1 : n = 1
  · rw [if_pos h1]
    exact hn h1
  · rw [if_neg h1]
    apply ends_pure
    cases lost with
    | ok a => exact hlost
    | error e => trivial

theorem commits_updateOwners {p : Tables → LiveOwnershipRow → Bool}
    {f : LiveOwnershipRow → LiveOwnershipRow}
    (hrest : ∀ owners' (h : Constraints { d.1 with owners := owners' }) o, p d.1 o = true →
      Replaced LiveOwnershipRow.id o (f o) d.1.owners owners' → Commits rest Q kept ⟨_, h⟩)
    (hlost : Lost kept lost := by first | exact trivial | exact rfl)
    (hf : ∀ o, (f o).id = o.id := by exact fun _ => rfl) :
    Commits (onlyOne (updateOwners p f) lost rest) Q kept d := by
  apply commits_onlyOne hlost
  apply ends_statement trivial
  intro h h1
  obtain ⟨o, hp, ho⟩ := updateWhere_replaced d.2.owners.primaryKey h1 hf
  exact hrest _ h o hp ho

theorem commits_updateRuns {p : Tables → TuneRunRow → Bool} {f : TuneRunRow → TuneRunRow}
    (hrest : ∀ runs' (h : Constraints { d.1 with runs := runs' }) r, p d.1 r = true →
      Replaced TuneRunRow.id r (f r) d.1.runs runs' → Commits rest Q kept ⟨_, h⟩)
    (hlost : Lost kept lost := by first | exact trivial | exact rfl)
    (hf : ∀ r, (f r).id = r.id := by exact fun _ => rfl) :
    Commits (onlyOne (updateRuns p f) lost rest) Q kept d := by
  apply commits_onlyOne hlost
  apply ends_statement trivial
  intro h h1
  obtain ⟨r, hp, hr⟩ := updateWhere_replaced d.2.runs.primaryKey h1 hf
  exact hrest _ h r hp hr

theorem commits_updateAttempts {p : TuneRecoveryAttemptRow → Bool}
    {f : TuneRecoveryAttemptRow → TuneRecoveryAttemptRow}
    (hrest : ∀ attempts' (h : Constraints { d.1 with attempts := attempts' }) a, p a = true →
      Replaced TuneRecoveryAttemptRow.id a (f a) d.1.attempts attempts' →
      Commits rest Q kept ⟨_, h⟩)
    (hlost : Lost kept lost := by first | exact trivial | exact rfl)
    (hf : ∀ a, (f a).id = a.id := by exact fun _ => rfl) :
    Commits (onlyOne (updateAttempts p f) lost rest) Q kept d := by
  apply commits_onlyOne hlost
  apply ends_statement trivial
  intro h h1
  obtain ⟨a, hp, ha⟩ := updateWhere_replaced d.2.attempts.primaryKey h1 hf
  exact hrest _ h a hp ha

theorem commits_updateClaims {p : Tables → LiveOperationClaim → Bool}
    {f : LiveOperationClaim → LiveOperationClaim}
    (hrest : ∀ claims' (h : Constraints { d.1 with claims := claims' }) c, p d.1 c = true →
      Replaced LiveOperationClaim.claimKey c (f c) d.1.claims claims' →
      Commits rest Q kept ⟨_, h⟩)
    (hlost : Lost kept lost := by first | exact trivial | exact rfl)
    (hf : ∀ c, (f c).claimKey = c.claimKey := by exact fun _ => rfl) :
    Commits (onlyOne (updateClaims p f) lost rest) Q kept d := by
  apply commits_onlyOne hlost
  apply ends_statement trivial
  intro h h1
  obtain ⟨c, hp, hc⟩ := updateWhere_replaced d.2.claims h1 hf
  exact hrest _ h c hp hc

theorem commits_deleteClaims {p : LiveOperationClaim → Bool}
    (hrest : ∀ claims' (h : Constraints { d.1 with claims := claims' }) c, p c = true →
      Removed LiveOperationClaim.claimKey c d.1.claims claims' → Commits rest Q kept ⟨_, h⟩)
    (hlost : Lost kept lost := by first | exact trivial | exact rfl) :
    Commits (onlyOne (deleteClaims p) lost rest) Q kept d := by
  apply commits_onlyOne hlost
  apply ends_statement trivial
  intro h h1
  obtain ⟨c, hp, hc⟩ := deleteWhere_removed d.2.claims h1
  exact hrest _ h c hp hc

end Rules

/-! ### Owners -/

section Owners

variable {d : Db}

theorem claimed_iff {t : Tables} {ownerId : ℕ} :
    t.claimed ownerId = true ↔ ∃ c ∈ t.claims, c.ownerId = ownerId := by
  simp [Tables.claimed]

theorem claimedAs_iff {t : Tables} {ownerId : ℕ} {claimKey : ClaimKey} :
    t.claimedAs ownerId claimKey = true ↔
      ∃ c ∈ t.claims, c.ownerId = ownerId ∧ c.claimKey = claimKey := by
  simp [Tables.claimedAs]

theorem hasOwner_iff {t : Tables} {ownerId runId : ℕ} {p : LiveOwnershipRow → Bool} :
    t.hasOwner ownerId runId p = true ↔
      ∃ o ∈ t.owners, o.id = ownerId ∧ o.runId = some runId ∧ p o = true := by
  simp [Tables.hasOwner, and_assoc]

theorem holding_iff {ownerId : ℕ} {t : Tables} {o : LiveOwnershipRow} :
    LiveOwnershipRow.holding ownerId t o = true ↔
      o.id = ownerId ∧ o.state = .active ∧ t.claimed ownerId = true := by
  simp [LiveOwnershipRow.holding, and_assoc]

/-- `create_and_claim` answers with the owner it made, or with none because the claim is taken. -/
theorem createAndClaim_ends (new : NewLiveOwnership) (d : Db) :
    Ends (LiveOwnershipRow.createAndClaim new ⟨new.databaseKey, new.resourceKey⟩)
      (fun r d' => match r with
        | none => d' = d
        | some o => o = new.row d.1.nextOwner ∧ Claimed o d.1 d'.1)
      (fun _ d' => d' = d) d := by
  refine ends_atomically (· = none) ?_ ?_
  · apply commits_seq
    apply ends_statement trivial
    intro h
    refine commits_onlyOne rfl ?_
    apply ends_statement trivial
    dsimp only
    intro h' h1
    by_cases hfree : (d.1.claims.any fun c => c.claimKey = ⟨new.databaseKey, new.resourceKey⟩) = true
    · rw [if_pos hfree] at h1
      cases h1
    · apply commits_commit
      have hclaims : ∀ c ∈ d.1.claims, c.claimKey ≠ ⟨new.databaseKey, new.resourceKey⟩ := by
        simpa using hfree
      refine ⟨rfl, ?_⟩
      simp only [if_neg hfree]
      exact {
        active := rfl
        ineligible := rfl
        fresh := rfl
        owners := inserted_append _ _
        claims := ⟨_, rfl, rfl, inserted_append _ _⟩
        runs := rfl
        attempts := rfl
        steps := rfl }
  · rintro _ rfl
    rfl

/-- A statement about a holding owner touches it, or fails and changes nothing. -/
theorem updateHolding_ends (ownerId : ℕ) {f : LiveOwnershipRow → LiveOwnershipRow}
    (hf : ∀ o, (f o).identity = o.identity ∧ (f o).state = o.state ∧
      (f o).orphanEligible = o.orphanEligible) (d : Db) :
    Ends (LiveOwnershipRow.updateHolding ownerId f)
      (fun _ d' => ∃ o, o.id = ownerId ∧ Touched o (f o) d.1 d'.1) (fun _ d' => d' = d) d := by
  have hid : ∀ o, (f o).id = o.id := fun o => congrArg Prod.fst (hf o).1
  refine ends_seq (ends_statement (Q := fun n d' => (n = 1 → ∃ o, o.id = ownerId ∧
    Touched o (f o) d.1 d'.1) ∧ (n ≠ 1 → d' = d)) rfl ?_) ?_
  · intro h
    constructor
    · intro h1
      obtain ⟨o, hp, ho⟩ := updateWhere_replaced d.2.owners.primaryKey h1 hid
      obtain ⟨hown, hactive, _⟩ := holding_iff.mp hp
      exact ⟨o, hown, {
        identity := (hf o).1
        wasActive := hactive
        active := (hf o).2.1.trans hactive
        ineligible := (hf o).2.2
        owners := ho
        claims := rfl
        runs := rfl
        attempts := rfl
        steps := rfl }⟩
    · intro h1
      apply Subtype.ext
      have hle : affected (LiveOwnershipRow.holding ownerId d.1) d.1.owners ≤ 1 := by
        apply affected_le_one d.2.owners.primaryKey
        intro x y hx hy
        rw [(holding_iff.mp hx).1, (holding_iff.mp hy).1]
      have hnone : affected (LiveOwnershipRow.holding ownerId d.1) d.1.owners = 0 := by
        dsimp only at h1
        omega
      have hsame : updateWhere (LiveOwnershipRow.holding ownerId d.1) f d.1.owners = d.1.owners := by
        apply updateWhere_of_none
        intro x hx
        exact Bool.eq_false_iff.mpr (List.countP_eq_zero.mp hnone x hx)
      dsimp only
      rw [hsame]
  · intro n d' hn
    by_cases h1 : n = 1
    · rw [if_neg (not_not.mpr h1)]
      exact ends_pure (hn.1 h1)
    · rw [if_pos h1]
      exact ends_throw (hn.2 h1)

theorem heartbeat_ends (ownerId : ℕ) (now : UtcTime) (d : Db) :
    Ends (LiveOwnershipRow.heartbeat ownerId now)
      (fun _ d' => ∃ o, o.id = ownerId ∧ Touched o { o with heartbeatAt := now } d.1 d'.1)
      (fun _ d' => d' = d) d :=
  updateHolding_ends ownerId (f := fun o => { o with heartbeatAt := now })
    (fun _ => ⟨rfl, rfl, rfl⟩) d

theorem setRestoreIntent_ends (ownerId : ℕ) (intentJson : String) (d : Db) :
    Ends (LiveOwnershipRow.setRestoreIntent ownerId intentJson)
      (fun _ d' => ∃ o, o.id = ownerId ∧
        Touched o { o with restoreIntentJson := some intentJson } d.1 d'.1)
      (fun _ d' => d' = d) d :=
  updateHolding_ends ownerId (f := fun o => { o with restoreIntentJson := some intentJson })
    (fun _ => ⟨rfl, rfl, rfl⟩) d

/-- The schema lets only an orphan be eligible. -/
theorem active_ineligible (d : Db) {o : LiveOwnershipRow} (ho : o ∈ d.1.owners)
    (hactive : o.state = .active) : o.orphanEligible = false := by
  cases heligible : o.orphanEligible with
  | false => rfl
  | true =>
    have horphaned := (d.2.ownerChecks o ho).2 heligible
    rw [hactive] at horphaned
    cases horphaned

/-- `release` retires its owner. -/
theorem release_ends (ownerId : ℕ) (now : UtcTime) (d : Db) :
    Ends (LiveOwnershipRow.release ownerId now)
      (fun _ d' => ∃ o o', o.id = ownerId ∧ Retired o o' d.1 d'.1) (fun _ d' => d' = d) d := by
  refine ends_atomically (fun _ => False) ?_ ?_
  · refine commits_updateOwners ?_
    intro owners' h o hp ho
    obtain ⟨hown, hactive, _⟩ := holding_iff.mp hp
    refine commits_deleteClaims ?_
    intro claims' h' c hc hclaims
    apply commits_commit
    have hineligible : o.orphanEligible = false := active_ineligible d ho.was hactive
    exact ⟨o, LiveOwnershipRow.setReleased now o, hown, {
      record := ⟨rfl, rfl⟩
      wasActive := hactive
      ended := nofun
      ineligible := hineligible
      owners := ho
      claims := ⟨c, (of_decide_eq_true hc).trans hown.symm, hclaims⟩
      runs := .inl rfl
      attempts := rfl
      steps := rfl }⟩
  · exact fun _ h => h.elim

/-- `mark_orphaned` orphans a dead tune for a recovery, or retires it. -/
theorem markOrphaned_ends (update : LiveOwnershipRow.OrphanOwnerUpdate) (d : Db) :
    Ends (LiveOwnershipRow.markOrphaned update)
      (fun marked d' => match marked with
        | false => d' = d
        | true => ∃ o o', o.id = update.ownerId ∧ o.operationKind = .tune ∧
          if update.eligible then Orphaned o o' d.1 d'.1 else Retired o o' d.1 d'.1)
      (fun _ d' => d' = d) d := by
  refine ends_atomically (· = false) ?_ ?_
  · refine commits_updateOwners ?_
    intro owners' h o hp ho
    simp only [Bool.and_eq_true, decide_eq_true_eq] at hp
    obtain ⟨⟨⟨⟨⟨hown, hactive⟩, _⟩, htune⟩, _⟩, hclaimed⟩ := hp
    refine commits_updateRuns ?_
    intro runs' h' r hr hruns
    simp only [Bool.and_eq_true, decide_eq_true_eq, List.any_eq_true] at hr
    obtain ⟨⟨x, hx, hxid, hxrun⟩, hrunning⟩ := hr
    -- the subquery finds the owner that the first statement has just changed
    have hrun : o.runId = some r.id := by
      have hnew := h.owners.primaryKey.eq hx ho.mem_new (by rw [hxid, ho.same, hown])
      rw [hnew] at hxrun
      exact hxrun
    cases heligible : update.eligible with
    | true =>
      apply commits_commit
      refine ⟨o, update.setOwner o, hown, htune, ?_⟩
      rw [if_pos rfl]
      have hrecoverable : (update.setOwner o).recoverable = true := by
        simp [LiveOwnershipRow.recoverable, LiveOwnershipRow.OrphanOwnerUpdate.setOwner, heligible]
      have hstate : (update.setRun r).recoveryState = some .eligible := by
        simp [LiveOwnershipRow.OrphanOwnerUpdate.setRun, LiveOwnershipRow.OrphanOwnerUpdate.state,
          heligible]
      exact {
        record := ⟨rfl, rfl⟩
        wasActive := hactive
        tune := htune
        recoverable := hrecoverable
        owners := ho
        runs := ⟨r, update.setRun r, hrun, hrunning, rfl, hstate, rfl, hruns⟩
        claims := rfl
        attempts := rfl
        steps := rfl }
    | false =>
      apply commits_seq
      apply ends_statement trivial
      intro h''
      apply commits_commit
      refine ⟨o, update.setOwner o, hown, htune, ?_⟩
      rw [if_neg Bool.false_ne_true]
      have hstate : (update.setRun r).recoveryState = some .notRecoverable := by
        simp [LiveOwnershipRow.OrphanOwnerUpdate.setRun, LiveOwnershipRow.OrphanOwnerUpdate.state,
          heligible]
      have hone :
          affected (fun c : LiveOperationClaim => c.ownerId = update.ownerId) d.1.claims = 1 := by
        obtain ⟨c, hc, hcid, _⟩ := claimedAs_iff.mp hclaimed
        have hle : affected (fun c : LiveOperationClaim => c.ownerId = update.ownerId)
            d.1.claims ≤ 1 :=
          affected_le_one d.2.claimOwners fun x y hx hy =>
            (of_decide_eq_true hx).trans (of_decide_eq_true hy).symm
        have hpos : 0 < affected (fun c : LiveOperationClaim => c.ownerId = update.ownerId)
            d.1.claims := List.countP_pos_iff.mpr ⟨c, hc, decide_eq_true (hcid.trans hown)⟩
        omega
      obtain ⟨c, hc, hclaims⟩ := deleteWhere_removed d.2.claims hone
      exact {
        record := ⟨rfl, rfl⟩
        wasActive := hactive
        ended := nofun
        ineligible := heligible
        owners := ho
        claims := ⟨c, (of_decide_eq_true hc).trans hown.symm, hclaims⟩
        runs := .inr ⟨r, update.setRun r, ⟨hrunning, rfl, hstate, rfl⟩, hruns⟩
        attempts := rfl
        steps := rfl }
  · rintro _ rfl
    rfl

/-- `mark_orphaned_unrecoverable` retires its owner, and its run with it when that still runs. -/
theorem markOrphanedUnrecoverable_ends (update : LiveOwnershipRow.UnrecoverableOwnerUpdate)
    (d : Db) :
    Ends (LiveOwnershipRow.markOrphanedUnrecoverable update)
      (fun retired d' => match retired with
        | false => d' = d
        | true => ∃ o o', o.id = update.ownerId ∧ Retired o o' d.1 d'.1)
      (fun _ d' => d' = d) d := by
  refine ends_atomically (· = false) ?_ ?_
  · refine commits_updateOwners ?_
    intro owners' h o hp ho
    simp only [Bool.and_eq_true, decide_eq_true_eq] at hp
    obtain ⟨⟨⟨hown, hactive⟩, _⟩, _⟩ := hp
    -- whatever became of the run, the claim goes last
    have hretire : ∀ runs' (h' : Constraints { d.1 with owners := owners', runs := runs' }),
        (runs' = d.1.runs ∨ ∃ r r', RunFailed r r' ∧ Replaced TuneRunRow.id r r' d.1.runs runs') →
        Commits (LiveOwnershipRow.retireClaim update)
          (fun retired d' => match retired with
            | false => d' = d
            | true => ∃ o o', o.id = update.ownerId ∧ Retired o o' d.1 d'.1) (· = false)
          ⟨_, h'⟩ := by
      intro runs' h' hruns
      refine commits_deleteClaims ?_
      intro claims' h'' c hc hclaims
      simp only [Bool.and_eq_true, decide_eq_true_eq] at hc
      apply commits_commit
      exact ⟨o, update.setOwner o, hown, {
        record := ⟨rfl, rfl⟩
        wasActive := hactive
        ended := nofun
        ineligible := rfl
        owners := ho
        claims := ⟨c, hc.1.trans hown.symm, hclaims⟩
        runs := hruns
        attempts := rfl
        steps := rfl }⟩
    cases hrun : update.failRunningRunId with
    | none => exact hretire _ h (.inl rfl)
    | some runId =>
      refine commits_updateRuns ?_
      intro runs' h' r hr hruns
      simp only [Bool.and_eq_true, decide_eq_true_eq] at hr
      exact hretire _ h' (.inr ⟨r, update.setRun r, ⟨hr.1.2, rfl, rfl, rfl⟩, hruns⟩)
  · rintro _ rfl
    rfl

end Owners

/-! ### Recovery attempts -/

section Attempts

theorem runningAttempt_iff {attemptId runId recoveryOwnerId : ℕ} {a : TuneRecoveryAttemptRow} :
    TuneRecoveryAttemptRow.runningAttempt attemptId runId recoveryOwnerId a = true ↔
      a.id = attemptId ∧ a.runId = runId ∧ a.recoveryOwnerId = recoveryOwnerId ∧
        a.status = .running := by
  simp [TuneRecoveryAttemptRow.runningAttempt, and_assoc]

theorem not_active_of_recoverable {o : LiveOwnershipRow} (h : o.recoverable = true) :
    o.state = .orphaned ∧ o.orphanEligible = true := by
  simpa [LiveOwnershipRow.recoverable] using h

/-- `start_with_claim` takes the claim of the source owner over for a new attempt. -/
theorem startWithClaim_ends (newOwner : NewLiveOwnership) (claimKey : ClaimKey)
    (sourceOwnerId runId : ℕ) (exportPath evidenceJson : String) (d : Db) :
    Ends (TuneRecoveryAttemptRow.startWithClaim newOwner claimKey sourceOwnerId runId exportPath
        evidenceJson)
      (fun r d' => match r with
        | none => d' = d
        | some (o, a) => ∃ s, s.id = sourceOwnerId ∧ a.runId = runId ∧
          o = newOwner.row d.1.nextOwner ∧ TakenOver s o a d.1 d'.1)
      (fun _ d' => d' = d) d := by
  refine ends_atomically (· = none) ?_ ?_
  · apply commits_seq
    apply ends_statement trivial
    intro h
    refine commits_updateClaims ?_
    intro claims' h' c hc hclaims
    simp only [Bool.and_eq_true, decide_eq_true_eq] at hc
    obtain ⟨⟨_, hcid⟩, hsource⟩ := hc
    obtain ⟨s, hs, hsid, hsrun, hs'⟩ := hasOwner_iff.mp hsource
    simp only [Bool.and_eq_true, decide_eq_true_eq] at hs'
    obtain ⟨⟨⟨htune, hrecoverable⟩, hdatabase⟩, hresource⟩ := hs'
    -- the source is orphaned, so it is not the owner that was just inserted
    have hold : s ∈ d.1.owners := by
      rcases List.mem_append.mp hs with hs | hs
      · exact hs
      · rw [List.mem_singleton.mp hs] at hrecoverable
        exact absurd (not_active_of_recoverable hrecoverable).1 (nofun)
    apply commits_seq
    apply ends_statement trivial
    intro h''
    split at h''
    · rename_i hattempt
      simp only [hattempt, if_true]
      simp only [Bool.and_eq_true] at hattempt
      obtain ⟨⟨_, hrecovery⟩, _⟩ := hattempt
      obtain ⟨x, hx, hxid, hxrun, hx'⟩ := hasOwner_iff.mp hrecovery
      simp only [Bool.and_eq_true, decide_eq_true_eq] at hx'
      have hnew : x = newOwner.row d.1.nextOwner :=
        h.owners.primaryKey.eq hx (List.mem_append_right _ (List.mem_singleton_self _)) hxid
      refine commits_updateRuns ?_
      intro runs' h''' r hr hruns
      simp only [Bool.and_eq_true, Bool.or_eq_true, decide_eq_true_eq] at hr
      obtain ⟨⟨⟨hrid, hfailed⟩, hstate⟩, _⟩ := hr
      apply commits_commit
      have hmay : TuneRecoveryState.mayStart r.recoveryState := by
        rcases hstate with hstate | hstate <;> rw [hstate] <;> trivial
      exact ⟨s, hsid, rfl, rfl, {
        source := hold
        tune := htune
        recoverable := hrecoverable
        sourceRun := hsrun
        active := rfl
        ineligible := rfl
        recovery := by rw [← hnew]; exact hx'.1
        run := by rw [← hnew]; exact hxrun
        claimKey := by
          show (⟨newOwner.databaseKey, newOwner.resourceKey⟩ : ClaimKey) = s.claimKey
          rw [← hdatabase, ← hresource]
          rfl
        fresh := rfl
        owners := inserted_append _ _
        claims := ⟨c, _, hcid.trans hsid.symm, rfl, hclaims⟩
        running := rfl
        attemptSource := hsid.symm
        attemptOwner := rfl
        attempts := inserted_append _ _
        runs := ⟨r, TuneRecoveryAttemptRow.setRunning evidenceJson r, hrid, hfailed, hmay,
          hfailed, rfl, rfl, hruns⟩
        steps := rfl }⟩
    · rename_i hattempt
      simp only [hattempt]
      exact ends_throw trivial
  · rintro _ rfl
    rfl

/-- What the statements of `complete_with_ownership` do when all of them are about one row. -/
theorem completeBody_commits (update : TuneRecoveryAttemptRow.CompleteRecoveryUpdate)
    (restoreStatus : Option RestoreStatus) (recoveryState : TuneRecoveryState)
    (ownerState : LiveOwnershipState) (eligible : Bool) (hended : update.status ≠ .running)
    (d : Db) :
    Commits (TuneRecoveryAttemptRow.completeBody update restoreStatus recoveryState ownerState
        eligible)
      (fun _ d' => ∃ s o a, o.id = update.recoveryOwnerId ∧ a.runId = update.runId ∧
        Concluded s (update.setSource ownerState eligible s) o
          (LiveOwnershipRow.setReleased update.now o) a (update.setAttempt a) recoveryState
          d.1 d'.1 ∧
        ∃ c : LiveOperationClaim, c.ownerId = o.id ∧
          if update.status = .confirmed then
            Removed LiveOperationClaim.claimKey c d.1.claims d'.1.claims
          else ∃ c' : LiveOperationClaim, c'.ownerId = s.id ∧
            Replaced LiveOperationClaim.claimKey c c' d.1.claims d'.1.claims)
      (fun _ => False) d := by
  refine commits_updateAttempts ?_
  intro attempts' h₁ a ha hattempts
  obtain ⟨_, harun, haowner, hrunning⟩ := runningAttempt_iff.mp ha
  refine commits_updateRuns ?_
  intro runs' h₂ r hr hruns
  simp only [Bool.and_eq_true, decide_eq_true_eq] at hr
  obtain ⟨⟨hrid, hfailed⟩, _⟩ := hr
  refine commits_updateOwners ?_
  intro owners' h₃ o ho howners
  simp only [Bool.and_eq_true, decide_eq_true_eq] at ho
  obtain ⟨hown, hactive⟩ := ho
  refine commits_updateOwners ?_
  intro owners'' h₄ s hs howners'
  simp only [Bool.and_eq_true, decide_eq_true_eq] at hs
  obtain ⟨⟨hsid, hsrun⟩, hrecoverable⟩ := hs
  have hne : s ≠ LiveOwnershipRow.setReleased update.now o := by
    rintro rfl
    exact absurd (not_active_of_recoverable hrecoverable).1 (nofun)
  obtain ⟨hsource, _, hmem⟩ := howners.both howners' hne
  refine commits_deleteClaims ?_
  intro claims' h₅ c hc hclaims
  simp only [Bool.and_eq_true, decide_eq_true_eq] at hc
  have hineligible : o.orphanEligible = false := active_ineligible d howners.was hactive
  have hconcluded : ∀ d' : Db, d'.1.owners = owners'' → d'.1.attempts = attempts' →
      d'.1.runs = runs' → d'.1.steps = d.1.steps →
      Concluded s (update.setSource ownerState eligible s) o
        (LiveOwnershipRow.setReleased update.now o) a (update.setAttempt a) recoveryState
        d.1 d'.1 := by
    intro d' howners'' hattempts' hruns' hsteps'
    exact {
      source := hsource
      sourceRecord := ⟨rfl, rfl⟩
      recoverable := hrecoverable
      sourceRun := hsrun.trans (congrArg some harun.symm)
      owner := howners.was
      record := ⟨rfl, rfl⟩
      wasActive := hactive
      released := rfl
      ineligible := hineligible
      owners := by rw [howners'']; exact hmem
      wasRunning := hrunning
      ended := hended
      attemptOwner := haowner.trans hown.symm
      attempts := by rw [hattempts']; exact hattempts
      runs := ⟨r, update.setRun restoreStatus recoveryState r, hrid.trans harun.symm, hfailed,
        hfailed, rfl, rfl, by rw [hruns']; exact hruns⟩
      steps := hsteps' }
  by_cases hconfirmed : update.status = .confirmed
  · rw [if_neg (not_not.mpr hconfirmed)]
    apply commits_commit
    refine ⟨s, o, a, hown, harun, hconcluded _ rfl rfl rfl rfl, c, hc.2.trans hown.symm, ?_⟩
    rw [if_pos hconfirmed]
    exact hclaims
  · rw [if_pos hconfirmed]
    apply commits_seq
    apply ends_statement trivial
    intro h₆
    apply commits_commit
    refine ⟨s, o, a, hown, harun, hconcluded _ rfl rfl rfl rfl, c, hc.2.trans hown.symm, ?_⟩
    rw [if_neg hconfirmed]
    exact ⟨⟨update.claimKey, update.sourceOwnerId, update.now⟩, hsid.symm,
      hclaims.insert (inserted_append _ _) hc.1.symm⟩

/-- `complete_with_ownership` settles a confirmed attempt and gives the claim back after any
other. -/
theorem completeWithOwnership_ends (update : TuneRecoveryAttemptRow.CompleteRecoveryUpdate)
    (d : Db) :
    Ends (TuneRecoveryAttemptRow.completeWithOwnership update)
      (fun _ d' => ∃ s s' o o' a a', o.id = update.recoveryOwnerId ∧ a.runId = update.runId ∧
        match update.status with
        | .confirmed => Settled s s' o o' a a' d.1 d'.1
        | .incomplete => Returned s s' o o' a a' .incomplete d.1 d'.1
        | .failed => Returned s s' o o' a a' .eligible d.1 d'.1
        | .running => False)
      (fun _ d' => d' = d) d := by
  unfold TuneRecoveryAttemptRow.completeWithOwnership
  cases hstatus : update.status with
  | running => exact ends_throw rfl
  | confirmed =>
    refine ends_mono (ends_atomically _ (completeBody_commits update (some .confirmed) .confirmed
      .recovered false (by rw [hstatus]; nofun) d) (fun _ h => h.elim)) ?_ (fun _ _ h => h)
    rintro _ d' ⟨s, o, a, hown, harun, hconcluded, c, hc, hclaims⟩
    rw [if_pos hstatus] at hclaims
    exact ⟨s, _, o, _, a, _, hown, harun, hconcluded, rfl, rfl, c, hc, hclaims⟩
  | incomplete =>
    refine ends_mono (ends_atomically _ (completeBody_commits update (some .incomplete) .incomplete
      .orphaned true (by rw [hstatus]; nofun) d) (fun _ h => h.elim)) ?_ (fun _ _ h => h)
    rintro _ d' ⟨s, o, a, hown, harun, hconcluded, c, hc, hclaims⟩
    rw [if_neg (by rw [hstatus]; nofun)] at hclaims
    obtain ⟨c', hc', hclaims⟩ := hclaims
    exact ⟨s, _, o, _, a, _, hown, harun, hconcluded, trivial, rfl, c, c', hc, hc', hclaims⟩
  | failed =>
    refine ends_mono (ends_atomically _ (completeBody_commits update none .eligible
      .orphaned true (by rw [hstatus]; nofun) d) (fun _ h => h.elim)) ?_ (fun _ _ h => h)
    rintro _ d' ⟨s, o, a, hown, harun, hconcluded, c, hc, hclaims⟩
    rw [if_neg (by rw [hstatus]; nofun)] at hclaims
    obtain ⟨c', hc', hclaims⟩ := hclaims
    exact ⟨s, _, o, _, a, _, hown, harun, hconcluded, trivial, rfl, c, c', hc, hc', hclaims⟩

/-- `abandon_after_restart` gives the claim of a dead recovery back to its source. -/
theorem abandonAfterRestart_ends (update : TuneRecoveryAttemptRow.RestartRecoveryUpdate)
    (d : Db) :
    Ends (TuneRecoveryAttemptRow.abandonAfterRestart update)
      (fun abandoned d' => match abandoned with
        | false => d' = d
        | true => ∃ s o o' a a', o.id = update.recoveryOwnerId ∧
          Returned s s o o' a a' .incomplete d.1 d'.1)
      (fun _ d' => d' = d) d := by
  refine ends_atomically (· = false) ?_ ?_
  · refine commits_updateAttempts ?_
    intro attempts' h₁ a ha hattempts
    obtain ⟨_, harun, haowner, hrunning⟩ := runningAttempt_iff.mp ha
    refine commits_updateRuns ?_
    intro runs' h₂ r hr hruns
    simp only [Bool.and_eq_true, decide_eq_true_eq] at hr
    obtain ⟨⟨⟨⟨hrid, hfailed⟩, _⟩, hsource⟩, _⟩ := hr
    obtain ⟨s, hs, hsid, hsrun, hs'⟩ := hasOwner_iff.mp hsource
    simp only [Bool.and_eq_true, decide_eq_true_eq] at hs'
    obtain ⟨_, hrecoverable⟩ := hs'
    refine commits_updateOwners ?_
    intro owners' h₃ o ho howners
    simp only [Bool.and_eq_true, decide_eq_true_eq] at ho
    obtain ⟨⟨⟨⟨⟨hown, _⟩, _⟩, hactive⟩, _⟩, _⟩ := ho
    have hineligible : o.orphanEligible = false := active_ineligible d howners.was hactive
    have hne : s.id ≠ o.id := by
      intro heq
      have hsame := d.2.owners.primaryKey.eq hs howners.was heq
      rw [hsame] at hrecoverable
      have horphaned := (not_active_of_recoverable hrecoverable).1
      rw [hactive] at horphaned
      cases horphaned
    refine commits_updateClaims ?_
    intro claims' h₄ c hc hclaims
    simp only [Bool.and_eq_true, decide_eq_true_eq] at hc
    apply commits_commit
    refine ⟨s, o, LiveOwnershipRow.setReleased update.now o, a, update.setAttempt a, hown, {
      concluded := {
        source := hs
        sourceRecord := ⟨rfl, rfl⟩
        recoverable := hrecoverable
        sourceRun := hsrun.trans (congrArg some harun.symm)
        owner := howners.was
        record := ⟨rfl, rfl⟩
        wasActive := hactive
        released := rfl
        ineligible := hineligible
        owners := ?_
        wasRunning := hrunning
        ended := nofun
        attemptOwner := haowner.trans hown.symm
        attempts := hattempts
        runs := ⟨r, update.setRun r, hrid.trans harun.symm, hfailed, hfailed, rfl, rfl, hruns⟩
        steps := rfl }
      state := trivial
      recoverableAgain := hrecoverable
      claims := ⟨c, _, hc.1.2.trans hown.symm, hsid.symm, hclaims⟩ }⟩
    -- the source stands as it was
    intro x
    rw [howners.mem]
    constructor
    · rintro (hx | ⟨hx, hxo⟩)
      · exact .inl hx
      · by_cases hxs : x.id = s.id
        · exact .inr (.inl (d.2.owners.primaryKey.eq hx hs hxs))
        · exact .inr (.inr ⟨hx, hxo, hxs⟩)
    · rintro (hx | rfl | ⟨hx, hxo, _⟩)
      · exact .inl hx
      · exact .inr ⟨hs, hne⟩
      · exact .inr ⟨hx, hxo⟩
  · rintro _ rfl
    rfl

end Attempts

end Bhtune
