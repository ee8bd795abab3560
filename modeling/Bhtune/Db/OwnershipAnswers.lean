import Bhtune.Db.OwnershipInvariant

/-!
# What the ownership transactions answer

A transaction whose `WHERE` clauses each find their row, in a database that refuses nothing,
commits.  What has to be shown is that no statement breaks a constraint of the schema.

* `Constraints.updateOwners` and its likes — the constraints after each kind of statement;
* `answers_updateOwners` and its likes — the statements that are about one row;
* `release_answers` — a guard's release retires its owner;
* `markOrphaned_answers`, `markOrphanedUnrecoverable_answers`, `abandonAfterRestart_answers` — the
  changes of a sweep;
* `RunClosed` — what the first two do to the run of their owner.
-/

namespace Bhtune

open Table Transaction

/-! ### Constraints -/

section Constraints

variable {t : Tables}

theorem map_updateWhere {ρ κ : Type} {key : ρ → κ} {p : ρ → Bool} {f : ρ → ρ} {rows : List ρ}
    (h : ∀ r ∈ rows, p r = true → key (f r) = key r) :
    (updateWhere p f rows).map key = rows.map key := by
  unfold updateWhere
  rw [List.map_map]
  refine List.map_congr_left fun r hr => ?_
  show key (if p r then f r else r) = key r
  by_cases hp : p r = true
  · rw [if_pos hp, h r hr hp]
  · rw [if_neg hp]

/-- A row of an updated table is one of the table, or was made from one. -/
theorem forall_updateWhere {ρ : Type} {p : ρ → Bool} {f : ρ → ρ} {rows : List ρ} {P : ρ → Prop}
    (h : ∀ r ∈ rows, P r) (hf : ∀ r ∈ rows, p r = true → P r → P (f r)) :
    ∀ r ∈ updateWhere p f rows, P r := by
  intro x hx
  obtain ⟨r, hr, hsame⟩ := List.mem_map.mp hx
  by_cases hp : p r = true
  · rw [if_pos hp] at hsame
    exact hsame ▸ hf r hr hp (h r hr)
  · rw [if_neg hp] at hsame
    exact hsame ▸ h r hr

/-- What a key refers to is still there. -/
theorem exists_updateWhere {ρ : Type} {key : ρ → ℕ} {p : ρ → Bool} {f : ρ → ρ} {rows : List ρ}
    (h : ∀ r ∈ rows, p r = true → key (f r) = key r) {id : ℕ} (hex : ∃ r ∈ rows, key r = id) :
    ∃ r ∈ updateWhere p f rows, key r = id := by
  obtain ⟨r, hr, rfl⟩ := hex
  have hmem : key r ∈ (updateWhere p f rows).map key := by
    rw [map_updateWhere h]
    exact List.mem_map_of_mem hr
  exact List.mem_map.mp hmem

theorem Numbered.updateWhere {ρ : Type} {key : ρ → ℕ} {next : ℕ} {p : ρ → Bool} {f : ρ → ρ}
    {rows : List ρ} (hrows : Numbered key next rows)
    (h : ∀ r ∈ rows, p r = true → key (f r) = key r) :
    Numbered key next (updateWhere p f rows) where
  primaryKey := by
    unfold PrimaryKey
    rw [map_updateWhere h]
    exact hrows.primaryKey
  below := forall_updateWhere hrows.below fun r hr hp hlt => (h r hr hp).symm ▸ hlt

/-- An update of owners that keeps their ids and runs and obeys the checks. -/
theorem Constraints.updateOwners (ht : Constraints t) {p : LiveOwnershipRow → Bool}
    {f : LiveOwnershipRow → LiveOwnershipRow}
    (h : ∀ o ∈ t.owners, p o = true → (f o).id = o.id ∧ (f o).runId = o.runId ∧ (f o).Checked) :
    Constraints { t with owners := updateWhere p f t.owners } where
  runs := ht.runs
  owners := ht.owners.updateWhere fun o ho hp => (h o ho hp).1
  claims := ht.claims
  claimOwners := ht.claimOwners
  steps := ht.steps
  attempts := ht.attempts
  recoveryOwners := ht.recoveryOwners
  ownerChecks := forall_updateWhere ht.ownerChecks fun o ho hp _ => (h o ho hp).2.2
  attemptChecks := ht.attemptChecks
  stepChecks := ht.stepChecks
  ownerRuns := forall_updateWhere ht.ownerRuns fun o ho hp hrun => by
    rw [(h o ho hp).2.1]
    exact hrun
  claimedOwners := fun c hc =>
    exists_updateWhere (fun o ho hp => (h o ho hp).1) (ht.claimedOwners c hc)
  stepOwners := fun x hx => exists_updateWhere (fun o ho hp => (h o ho hp).1) (ht.stepOwners x hx)
  stepRuns := ht.stepRuns
  attemptRuns := ht.attemptRuns
  attemptSources := fun a ha =>
    exists_updateWhere (fun o ho hp => (h o ho hp).1) (ht.attemptSources a ha)
  attemptOwners := fun a ha =>
    exists_updateWhere (fun o ho hp => (h o ho hp).1) (ht.attemptOwners a ha)

/-- An update of runs that keeps their ids. -/
theorem Constraints.updateRuns (ht : Constraints t) {p : TuneRunRow → Bool}
    {f : TuneRunRow → TuneRunRow} (h : ∀ r, (f r).id = r.id) :
    Constraints { t with runs := updateWhere p f t.runs } where
  runs := ht.runs.updateWhere fun r _ _ => h r
  owners := ht.owners
  claims := ht.claims
  claimOwners := ht.claimOwners
  steps := ht.steps
  attempts := ht.attempts
  recoveryOwners := ht.recoveryOwners
  ownerChecks := ht.ownerChecks
  attemptChecks := ht.attemptChecks
  stepChecks := ht.stepChecks
  ownerRuns := fun o ho id hid => exists_updateWhere (fun r _ _ => h r) (ht.ownerRuns o ho id hid)
  claimedOwners := ht.claimedOwners
  stepOwners := ht.stepOwners
  stepRuns := fun x hx id hid => exists_updateWhere (fun r _ _ => h r) (ht.stepRuns x hx id hid)
  attemptRuns := fun a ha => exists_updateWhere (fun r _ _ => h r) (ht.attemptRuns a ha)
  attemptSources := ht.attemptSources
  attemptOwners := ht.attemptOwners

/-- A deletion of claims. -/
theorem Constraints.deleteClaims (ht : Constraints t) (p : LiveOperationClaim → Bool) :
    Constraints { t with claims := deleteWhere p t.claims } where
  runs := ht.runs
  owners := ht.owners
  claims := (List.filter_sublist.map LiveOperationClaim.claimKey).nodup ht.claims
  claimOwners := (List.filter_sublist.map LiveOperationClaim.ownerId).nodup ht.claimOwners
  steps := ht.steps
  attempts := ht.attempts
  recoveryOwners := ht.recoveryOwners
  ownerChecks := ht.ownerChecks
  attemptChecks := ht.attemptChecks
  stepChecks := ht.stepChecks
  ownerRuns := ht.ownerRuns
  claimedOwners := fun c hc => ht.claimedOwners c (mem_deleteWhere.mp hc).1
  stepOwners := ht.stepOwners
  stepRuns := ht.stepRuns
  attemptRuns := ht.attemptRuns
  attemptSources := ht.attemptSources
  attemptOwners := ht.attemptOwners

/-- An update of attempts that keeps what they refer to and obeys the check. -/
theorem Constraints.updateAttempts (ht : Constraints t) {p : TuneRecoveryAttemptRow → Bool}
    {f : TuneRecoveryAttemptRow → TuneRecoveryAttemptRow}
    (h : ∀ a ∈ t.attempts, p a = true → (f a).id = a.id ∧ (f a).runId = a.runId ∧
      (f a).sourceOwnerId = a.sourceOwnerId ∧ (f a).recoveryOwnerId = a.recoveryOwnerId ∧
      ((f a).status = .running ↔ (f a).completedAt = none)) :
    Constraints { t with attempts := updateWhere p f t.attempts } where
  runs := ht.runs
  owners := ht.owners
  claims := ht.claims
  claimOwners := ht.claimOwners
  steps := ht.steps
  attempts := ht.attempts.updateWhere fun a ha hp => (h a ha hp).1
  recoveryOwners := by
    unfold PrimaryKey
    rw [map_updateWhere fun a ha hp => (h a ha hp).2.2.2.1]
    exact ht.recoveryOwners
  ownerChecks := ht.ownerChecks
  attemptChecks := forall_updateWhere ht.attemptChecks fun a ha hp _ => (h a ha hp).2.2.2.2
  stepChecks := ht.stepChecks
  ownerRuns := ht.ownerRuns
  claimedOwners := ht.claimedOwners
  stepOwners := ht.stepOwners
  stepRuns := ht.stepRuns
  attemptRuns := forall_updateWhere ht.attemptRuns fun a ha hp hrun => by
    rw [(h a ha hp).2.1]
    exact hrun
  attemptSources := forall_updateWhere ht.attemptSources fun a ha hp howner => by
    rw [(h a ha hp).2.2.1]
    exact howner
  attemptOwners := forall_updateWhere ht.attemptOwners fun a ha hp howner => by
    rw [(h a ha hp).2.2.2.1]
    exact howner

/-- A claim goes to an owner that has none. -/
theorem Constraints.reclaim (ht : Constraints t) {p : LiveOperationClaim → Bool}
    {f : LiveOperationClaim → LiveOperationClaim} {ownerId : ℕ}
    (hkey : ∀ c, (f c).claimKey = c.claimKey) (howner : ∀ c, (f c).ownerId = ownerId)
    {c : LiveOperationClaim} (hone : ∀ x ∈ t.claims, p x = true → x = c)
    (hfree : ∀ x ∈ t.claims, x.ownerId ≠ ownerId) (hex : ∃ o ∈ t.owners, o.id = ownerId) :
    Constraints { t with claims := updateWhere p f t.claims } where
  runs := ht.runs
  owners := ht.owners
  claims := by
    unfold PrimaryKey
    rw [map_updateWhere fun x _ _ => hkey x]
    exact ht.claims
  claimOwners := by
    unfold PrimaryKey updateWhere
    rw [List.map_map]
    refine List.Nodup.map_on ?_ (List.Nodup.of_map _ ht.claims)
    intro x hx y hy heq
    replace heq : (if p x then f x else x).ownerId = (if p y then f y else y).ownerId := heq
    by_cases hpx : p x = true <;> by_cases hpy : p y = true
    · rw [hone x hx hpx, hone y hy hpy]
    · rw [if_pos hpx, if_neg hpy, howner] at heq
      exact absurd heq.symm (hfree y hy)
    · rw [if_neg hpx, if_pos hpy, howner] at heq
      exact absurd heq (hfree x hx)
    · rw [if_neg hpx, if_neg hpy] at heq
      exact ht.claimOwners.eq hx hy heq
  steps := ht.steps
  attempts := ht.attempts
  recoveryOwners := ht.recoveryOwners
  ownerChecks := ht.ownerChecks
  attemptChecks := ht.attemptChecks
  stepChecks := ht.stepChecks
  ownerRuns := ht.ownerRuns
  claimedOwners := forall_updateWhere ht.claimedOwners fun x _ _ _ => by
    rw [howner]
    exact hex
  stepOwners := ht.stepOwners
  stepRuns := ht.stepRuns
  attemptRuns := ht.attemptRuns
  attemptSources := ht.attemptSources
  attemptOwners := ht.attemptOwners

end Constraints

/-! ### Statements about one row -/

section Statements

variable {α : Type} {Q : α → Db → Prop} {d : Db} {lost : Except DbError α}
variable {rest : DbM (Ending α)}

/-- From `d` the body of a transaction commits in `Q`, when nothing is refused. -/
def CommitAnswers (body : DbM (Ending α)) (Q : α → Db → Prop) (d : Db) : Prop :=
  Answers body (fun v d' => ∃ a, v = .commit a ∧ Q a d') d

theorem answers_atomically {body : DbM (Ending α)} (h : CommitAnswers body Q d) :
    Answers (atomically body) Q d := answers_transaction h

theorem commitAnswers_commit {a : α} (h : Q a d) : CommitAnswers (do return .commit a) Q d :=
  answers_pure ⟨a, rfl, h⟩

theorem commitAnswers_onlyOne {rows : DbM ℕ}
    (h : Answers rows (fun n d' => n = 1 ∧ CommitAnswers rest Q d') d) :
    CommitAnswers (onlyOne rows lost rest) Q d := by
  refine answers_seq h fun n d' hn => ?_
  show Answers (if n = 1 then rest else return .rollback lost) _ d'
  rw [if_pos hn.1]
  exact hn.2

/-- The one row of a table for which a condition holds. -/
def OnlyRow {ρ : Type} (p : ρ → Bool) (rows : List ρ) (r : ρ) : Prop :=
  r ∈ rows ∧ p r = true ∧ ∀ x ∈ rows, p x = true → x = r

theorem OnlyRow.affected {ρ κ : Type} {key : ρ → κ} {p : ρ → Bool} {rows : List ρ} {r : ρ}
    (hkey : PrimaryKey key rows) (h : OnlyRow p rows r) : affected p rows = 1 := by
  unfold Table.affected
  rw [List.countP_eq_length_filter, filter_eq_singleton hkey h.1 h.2.1 h.2.2]
  rfl

/-- The row with a key is the only one of a condition that asks for the key. -/
theorem onlyRow_of_key {ρ κ : Type} {key : ρ → κ} {p : ρ → Bool} {rows : List ρ} {r : ρ}
    (hkey : PrimaryKey key rows) (hr : r ∈ rows) (hp : p r = true)
    (h : ∀ x, p x = true → key x = key r) : OnlyRow p rows r :=
  ⟨hr, hp, fun x hx hpx => hkey.eq hx hr (h x hpx)⟩

theorem answers_updateOwners {p : Tables → LiveOwnershipRow → Bool}
    {f : LiveOwnershipRow → LiveOwnershipRow} {o : LiveOwnershipRow}
    (hone : OnlyRow (p d.1) d.1.owners o) (hrun : (f o).runId = o.runId) (hchecked : (f o).Checked)
    (hrest : ∀ owners' (h : Constraints { d.1 with owners := owners' }),
      Replaced LiveOwnershipRow.id o (f o) d.1.owners owners' → CommitAnswers rest Q ⟨_, h⟩)
    (hf : ∀ o, (f o).id = o.id := by exact fun _ => rfl) :
    CommitAnswers (onlyOne (updateOwners p f) lost rest) Q d := by
  have hvalid : Constraints { d.1 with owners := updateWhere (p d.1) f d.1.owners } := by
    refine d.2.updateOwners fun x hx hpx => ?_
    rw [hone.2.2 x hx hpx]
    exact ⟨hf o, hrun, hchecked⟩
  have hcount := hone.affected d.2.owners.primaryKey
  obtain ⟨x, hpx, hreplaced⟩ := updateWhere_replaced d.2.owners.primaryKey hcount hf
  rw [hone.2.2 x hreplaced.was hpx] at hreplaced
  exact commitAnswers_onlyOne (answers_statement hvalid ⟨hcount, hrest _ hvalid hreplaced⟩)

theorem answers_updateRuns {p : Tables → TuneRunRow → Bool} {f : TuneRunRow → TuneRunRow}
    {r : TuneRunRow} (hone : OnlyRow (p d.1) d.1.runs r)
    (hrest : ∀ runs' (h : Constraints { d.1 with runs := runs' }),
      Replaced TuneRunRow.id r (f r) d.1.runs runs' → CommitAnswers rest Q ⟨_, h⟩)
    (hf : ∀ r, (f r).id = r.id := by exact fun _ => rfl) :
    CommitAnswers (onlyOne (updateRuns p f) lost rest) Q d := by
  have hvalid : Constraints { d.1 with runs := updateWhere (p d.1) f d.1.runs } :=
    d.2.updateRuns hf
  have hcount := hone.affected d.2.runs.primaryKey
  obtain ⟨x, hpx, hreplaced⟩ := updateWhere_replaced d.2.runs.primaryKey hcount hf
  rw [hone.2.2 x hreplaced.was hpx] at hreplaced
  exact commitAnswers_onlyOne (answers_statement hvalid ⟨hcount, hrest _ hvalid hreplaced⟩)

theorem answers_deleteClaims {p : LiveOperationClaim → Bool} {c : LiveOperationClaim}
    (hone : OnlyRow p d.1.claims c)
    (hrest : ∀ claims' (h : Constraints { d.1 with claims := claims' }),
      Removed LiveOperationClaim.claimKey c d.1.claims claims' → CommitAnswers rest Q ⟨_, h⟩) :
    CommitAnswers (onlyOne (deleteClaims p) lost rest) Q d := by
  have hvalid := d.2.deleteClaims p
  have hcount := hone.affected d.2.claims
  obtain ⟨x, hpx, hremoved⟩ := deleteWhere_removed d.2.claims hcount
  rw [hone.2.2 x hremoved.was hpx] at hremoved
  exact commitAnswers_onlyOne (answers_statement hvalid ⟨hcount, hrest _ hvalid hremoved⟩)

theorem answers_updateAttempts {p : TuneRecoveryAttemptRow → Bool}
    {f : TuneRecoveryAttemptRow → TuneRecoveryAttemptRow} {a : TuneRecoveryAttemptRow}
    (hone : OnlyRow p d.1.attempts a)
    (hkept : (f a).runId = a.runId ∧ (f a).sourceOwnerId = a.sourceOwnerId ∧
      (f a).recoveryOwnerId = a.recoveryOwnerId ∧
      ((f a).status = .running ↔ (f a).completedAt = none))
    (hrest : ∀ attempts' (h : Constraints { d.1 with attempts := attempts' }),
      Replaced TuneRecoveryAttemptRow.id a (f a) d.1.attempts attempts' →
      CommitAnswers rest Q ⟨_, h⟩)
    (hf : ∀ a, (f a).id = a.id := by exact fun _ => rfl) :
    CommitAnswers (onlyOne (updateAttempts p f) lost rest) Q d := by
  have hvalid : Constraints { d.1 with attempts := updateWhere p f d.1.attempts } := by
    refine d.2.updateAttempts fun x hx hpx => ?_
    rw [hone.2.2 x hx hpx]
    exact ⟨hf a, hkept⟩
  have hcount := hone.affected d.2.attempts.primaryKey
  obtain ⟨x, hpx, hreplaced⟩ := updateWhere_replaced d.2.attempts.primaryKey hcount hf
  rw [hone.2.2 x hreplaced.was hpx] at hreplaced
  exact commitAnswers_onlyOne (answers_statement hvalid ⟨hcount, hrest _ hvalid hreplaced⟩)

/-- The claim goes to an owner that has none. -/
theorem answers_reclaim {p : Tables → LiveOperationClaim → Bool}
    {f : LiveOperationClaim → LiveOperationClaim} {c : LiveOperationClaim} (ownerId : ℕ)
    (hone : OnlyRow (p d.1) d.1.claims c) (howner : ∀ c, (f c).ownerId = ownerId)
    (hfree : ∀ x ∈ d.1.claims, x.ownerId ≠ ownerId) (hex : ∃ o ∈ d.1.owners, o.id = ownerId)
    (hrest : ∀ claims' (h : Constraints { d.1 with claims := claims' }), CommitAnswers rest Q ⟨_, h⟩)
    (hf : ∀ c, (f c).claimKey = c.claimKey := by exact fun _ => rfl) :
    CommitAnswers (onlyOne (updateClaims p f) lost rest) Q d := by
  have hvalid := d.2.reclaim hf howner hone.2.2 hfree hex
  have hcount := hone.affected d.2.claims
  exact commitAnswers_onlyOne (answers_statement hvalid ⟨hcount, hrest _ hvalid⟩)

/-- A deletion of claims that does not count them. -/
theorem answers_dropClaims {p : LiveOperationClaim → Bool}
    (hrest : ∀ claims' (h : Constraints { d.1 with claims := claims' }), CommitAnswers rest Q ⟨_, h⟩) :
    CommitAnswers (do let _ ← deleteClaims p; rest) Q d :=
  answers_seq (M := fun _ d' => CommitAnswers rest Q d')
    (answers_statement (d.2.deleteClaims p) (hrest _ _)) fun _ _ h => h

end Statements

/-! ### Owners -/

/-- An active owner with its claim. -/
def Holds (t : Tables) (ownerId : ℕ) (claimKey : ClaimKey) : Prop :=
  (∃ o ∈ t.owners, o.id = ownerId ∧ o.state = .active) ∧
    ∃ c ∈ t.claims, c.ownerId = ownerId ∧ c.claimKey = claimKey

/-- **A release answers**, and retires its owner. -/
theorem release_answers {d : Db} {ownerId : ℕ} {claimKey : ClaimKey}
    (h : Holds d.1 ownerId claimKey) (now : UtcTime) :
    Answers (LiveOwnershipRow.release ownerId now)
      (fun _ d' => ∃ o o', o.id = ownerId ∧ Retired o o' d.1 d'.1) d := by
  obtain ⟨⟨o, ho, hid, hactive⟩, c, hc, hco, hkey⟩ := h
  have hclaimed : d.1.claimed ownerId = true := claimed_iff.mpr ⟨c, hc, hco⟩
  have howner : OnlyRow (LiveOwnershipRow.holding ownerId d.1) d.1.owners o := by
    refine onlyRow_of_key d.2.owners.primaryKey ho (holding_iff.mpr ⟨hid, hactive, hclaimed⟩) ?_
    exact fun x hx => (holding_iff.mp hx).1.trans hid.symm
  have hclaim : OnlyRow (fun c : LiveOperationClaim => c.ownerId = ownerId) d.1.claims c := by
    refine onlyRow_of_key d.2.claimOwners hc (by simpa using hco) ?_
    exact fun x hx => (of_decide_eq_true hx).trans hco.symm
  have hanswers : Answers (LiveOwnershipRow.release ownerId now) (fun _ _ => True) d := by
    apply answers_atomically
    refine answers_updateOwners howner rfl ?_ fun owners' h ho' => ?_
    · have hineligible := active_ineligible d ho hactive
      simp [LiveOwnershipRow.Checked, LiveOwnershipRow.setReleased, hineligible]
    · refine answers_deleteClaims hclaim fun claims' h' hc' => ?_
      exact commitAnswers_commit trivial
  exact answers_mono (answers_ends hanswers (release_ends ownerId now d)) fun _ _ h => h.2

/-! ### Dead owners -/

/-- **A dead tune is orphaned**: its owner is as it was read, with its claim, and its run runs. -/
theorem markOrphaned_answers {d : Db} {update : LiveOwnershipRow.OrphanOwnerUpdate}
    {o : LiveOwnershipRow} {r : TuneRunRow} (ho : o ∈ d.1.owners) (hid : o.id = update.ownerId)
    (hactive : o.state = .active) (hheartbeat : o.heartbeatAt = update.expectedHeartbeat)
    (htune : o.operationKind = .tune) (hr : r ∈ d.1.runs) (hrun : o.runId = some r.id)
    (hdriver : r.driver = .opcda) (hrunning : r.outcome = .running)
    (hclaim : ∃ c ∈ d.1.claims, c.ownerId = o.id ∧ c.claimKey = update.expectedClaimKey) :
    Answers (LiveOwnershipRow.markOrphaned update) (fun marked _ => marked = true) d := by
  apply answers_atomically
  have howner : OnlyRow (fun o : LiveOwnershipRow => o.id = update.ownerId && o.state = .active &&
      o.heartbeatAt = update.expectedHeartbeat && o.operationKind = .tune &&
      (d.1.runs.any fun r => some r.id = o.runId && r.driver = .opcda && r.outcome = .running) &&
      d.1.claimedAs o.id update.expectedClaimKey) d.1.owners o := by
    have hany : (d.1.runs.any fun x => some x.id = o.runId && x.driver = .opcda &&
        x.outcome = .running) = true :=
      List.any_eq_true.mpr ⟨r, hr, by simp [hrun, hdriver, hrunning]⟩
    refine onlyRow_of_key d.2.owners.primaryKey ho ?_ fun x hx => ?_
    · simp only [Bool.and_eq_true, decide_eq_true_eq]
      exact ⟨⟨⟨⟨⟨hid, hactive⟩, hheartbeat⟩, htune⟩, hany⟩, claimedAs_iff.mpr hclaim⟩
    · simp only [Bool.and_eq_true, decide_eq_true_eq] at hx
      exact hx.1.1.1.1.1.trans hid.symm
  refine answers_updateOwners howner rfl ?_ fun owners' h ho' => ?_
  · simp [LiveOwnershipRow.Checked, LiveOwnershipRow.OrphanOwnerUpdate.setOwner]
  have honly : OnlyRow (fun r : TuneRunRow =>
      (owners'.any fun o => o.id = update.ownerId && o.runId = some r.id) && r.outcome = .running)
      d.1.runs r := by
    refine onlyRow_of_key d.2.runs.primaryKey hr ?_ fun x hx => ?_
    · simp only [Bool.and_eq_true, decide_eq_true_eq, List.any_eq_true]
      exact ⟨⟨update.setOwner o, ho'.mem_new, hid, hrun⟩, hrunning⟩
    · simp only [Bool.and_eq_true, decide_eq_true_eq, List.any_eq_true] at hx
      obtain ⟨⟨y, hy, hyid, hyrun⟩, _⟩ := hx
      rcases (ho'.mem y).mp hy with rfl | ⟨_, hne⟩
      · exact Option.some.inj (hyrun.symm.trans hrun)
      · exact absurd (hyid.trans hid.symm) hne
  refine answers_updateRuns honly fun runs' h' _ => ?_
  cases update.eligible with
  | true => exact commitAnswers_commit rfl
  | false => exact answers_dropClaims fun claims' h'' => commitAnswers_commit rfl

/-- **A dead owner is retired**, with its run when that still runs. -/
theorem markOrphanedUnrecoverable_answers {d : Db}
    {update : LiveOwnershipRow.UnrecoverableOwnerUpdate} {o : LiveOwnershipRow}
    (ho : o ∈ d.1.owners) (hid : o.id = update.ownerId) (hactive : o.state = .active)
    (hheartbeat : o.heartbeatAt = update.expectedHeartbeat)
    (hclaim : ∃ c ∈ d.1.claims, c.ownerId = o.id ∧ c.claimKey = update.expectedClaimKey)
    (hrun : ∀ runId ∈ update.failRunningRunId, o.runId = some runId ∧
      ∃ r ∈ d.1.runs, r.id = runId ∧ r.outcome = .running) :
    Answers (LiveOwnershipRow.markOrphanedUnrecoverable update) (fun retired _ => retired = true)
      d := by
  apply answers_atomically
  have howner : OnlyRow (fun o : LiveOwnershipRow => o.id = update.ownerId && o.state = .active &&
      o.heartbeatAt = update.expectedHeartbeat && d.1.claimedAs o.id update.expectedClaimKey)
      d.1.owners o := by
    refine onlyRow_of_key d.2.owners.primaryKey ho ?_ fun x hx => ?_
    · simp only [Bool.and_eq_true, decide_eq_true_eq]
      exact ⟨⟨⟨hid, hactive⟩, hheartbeat⟩, claimedAs_iff.mpr hclaim⟩
    · simp only [Bool.and_eq_true, decide_eq_true_eq] at hx
      exact hx.1.1.1.trans hid.symm
  refine answers_updateOwners howner rfl ?_ fun owners' h ho' => ?_
  · simp [LiveOwnershipRow.Checked, LiveOwnershipRow.UnrecoverableOwnerUpdate.setOwner]
  obtain ⟨c, hc, hcowner, hckey⟩ := hclaim
  have hretire : ∀ runs' (h' : Constraints { d.1 with owners := owners', runs := runs' }),
      CommitAnswers (LiveOwnershipRow.retireClaim update) (fun retired _ => retired = true)
        ⟨_, h'⟩ := by
    intro runs' h'
    have hone : OnlyRow (fun c : LiveOperationClaim =>
        c.ownerId = update.ownerId && c.claimKey = update.expectedClaimKey) d.1.claims c := by
      refine onlyRow_of_key d.2.claims hc ?_ fun x hx => ?_
      · simp [hcowner, hid, hckey]
      · simp only [Bool.and_eq_true, decide_eq_true_eq] at hx
        exact hx.2.trans hckey.symm
    exact answers_deleteClaims hone fun claims' h'' _ => commitAnswers_commit rfl
  cases hfail : update.failRunningRunId with
  | none => exact hretire _ h
  | some runId =>
    obtain ⟨horun, r, hr, hrid, hrunning⟩ := hrun runId hfail
    have honly : OnlyRow (fun r : TuneRunRow => r.id = runId && r.outcome = .running &&
        Tables.hasOwner { d.1 with owners := owners' } update.ownerId runId fun o =>
          o.state = .orphaned) d.1.runs r := by
      refine onlyRow_of_key d.2.runs.primaryKey hr ?_ fun x hx => ?_
      · have hhas : Tables.hasOwner { d.1 with owners := owners' } update.ownerId runId
            (fun o => o.state = .orphaned) = true :=
          hasOwner_iff.mpr ⟨_, ho'.mem_new, hid, horun, by
            simp [LiveOwnershipRow.UnrecoverableOwnerUpdate.setOwner]⟩
        simp [hrid, hrunning, hhas]
      · simp only [Bool.and_eq_true, decide_eq_true_eq] at hx
        exact hx.1.1.trans hrid.symm
    exact answers_updateRuns honly fun runs' h' _ => hretire runs' h'

/-- **A dead recovery gives the claim back**: its owner is as it was read, with its claim, its
attempt is running, and the source has no claim of its own. -/
theorem abandonAfterRestart_answers {d : Db}
    {update : TuneRecoveryAttemptRow.RestartRecoveryUpdate} {s o : LiveOwnershipRow}
    {a : TuneRecoveryAttemptRow} {r : TuneRunRow} (ha : a ∈ d.1.attempts)
    (hattempt : TuneRecoveryAttemptRow.runningAttempt update.attemptId update.runId
      update.recoveryOwnerId a = true)
    (hr : r ∈ d.1.runs) (hrid : r.id = update.runId) (hfailed : r.outcome = .failed)
    (hstate : r.recoveryState = some .running) (hs : s ∈ d.1.owners)
    (hsid : s.id = update.sourceOwnerId) (hsrun : s.runId = some update.runId)
    (htune : s.operationKind = .tune) (hrecoverable : s.recoverable = true) (ho : o ∈ d.1.owners)
    (hid : o.id = update.recoveryOwnerId) (horun : o.runId = some update.runId)
    (hrecovery : o.operationKind = .recovery) (hactive : o.state = .active)
    (hheartbeat : o.heartbeatAt = update.expectedHeartbeat)
    (hclaim : ∃ c ∈ d.1.claims, c.ownerId = o.id ∧ c.claimKey = update.claimKey)
    (hfree : ∀ c ∈ d.1.claims, c.ownerId ≠ s.id) :
    Answers (TuneRecoveryAttemptRow.abandonAfterRestart update) (fun abandoned _ => abandoned = true)
      d := by
  apply answers_atomically
  have hne : s.id ≠ o.id := by
    intro heq
    have hsame := d.2.owners.primaryKey.eq hs ho heq
    rw [hsame] at hrecoverable
    exact absurd (hactive.symm.trans (not_active_of_recoverable hrecoverable).1) nofun
  have hone : OnlyRow (TuneRecoveryAttemptRow.runningAttempt update.attemptId update.runId
      update.recoveryOwnerId) d.1.attempts a := by
    refine onlyRow_of_key d.2.attempts.primaryKey ha hattempt fun x hx => ?_
    exact (runningAttempt_iff.mp hx).1.trans (runningAttempt_iff.mp hattempt).1.symm
  refine answers_updateAttempts hone ⟨rfl, rfl, rfl, ?_⟩ fun attempts' h₁ _ => ?_
  · simp [TuneRecoveryAttemptRow.RestartRecoveryUpdate.setAttempt]
  have hsource : ∀ {t : Tables}, t.owners = d.1.owners →
      (t.hasOwner update.sourceOwnerId update.runId fun o =>
        o.operationKind = .tune && o.recoverable) = true := by
    intro t ht
    refine hasOwner_iff.mpr ⟨s, ht ▸ hs, hsid, hsrun, ?_⟩
    simp [htune, hrecoverable]
  have hrecovering : ∀ {t : Tables}, t.owners = d.1.owners →
      (t.hasOwner update.recoveryOwnerId update.runId fun o =>
        o.operationKind = .recovery && o.state = .active) = true := by
    intro t ht
    refine hasOwner_iff.mpr ⟨o, ht ▸ ho, hid, horun, ?_⟩
    simp [hrecovery, hactive]
  refine answers_updateRuns (onlyRow_of_key d.2.runs.primaryKey hr ?_ fun x hx => ?_)
    fun runs' h₂ _ => ?_
  · simp only [Bool.and_eq_true, decide_eq_true_eq]
    exact ⟨⟨⟨⟨hrid, hfailed⟩, hstate⟩, hsource rfl⟩, hrecovering rfl⟩
  · simp only [Bool.and_eq_true, decide_eq_true_eq] at hx
    exact hx.1.1.1.1.trans hrid.symm
  refine answers_updateOwners (onlyRow_of_key d.2.owners.primaryKey ho ?_ fun x hx => ?_) rfl ?_
    fun owners' h₃ ho' => ?_
  · simp only [Bool.and_eq_true, decide_eq_true_eq]
    exact ⟨⟨⟨⟨⟨hid, horun⟩, hrecovery⟩, hactive⟩, hheartbeat⟩, claimedAs_iff.mpr hclaim⟩
  · simp only [Bool.and_eq_true, decide_eq_true_eq] at hx
    exact hx.1.1.1.1.1.trans hid.symm
  · have hineligible := active_ineligible d ho hactive
    simp [LiveOwnershipRow.Checked, LiveOwnershipRow.setReleased, hineligible]
  obtain ⟨c, hc, hcowner, hckey⟩ := hclaim
  have hs' : s ∈ owners' := ho'.mem_other hs hne
  refine answers_reclaim update.sourceOwnerId
    (onlyRow_of_key d.2.claims hc ?_ fun x hx => ?_) (fun _ => rfl) ?_ ⟨s, hs', hsid⟩
    fun claims' h₄ => commitAnswers_commit rfl
  · simp only [Bool.and_eq_true, decide_eq_true_eq]
    refine ⟨⟨hckey, hcowner.trans hid⟩, hasOwner_iff.mpr ⟨s, hs', hsid, hsrun, ?_⟩⟩
    simp [htune, hrecoverable]
  · simp only [Bool.and_eq_true, decide_eq_true_eq] at hx
    exact hx.1.1.trans hckey.symm
  · intro x hx
    rw [← hsid]
    exact hfree x hx

/-- Of the runs at most that of `o` is another one, and it does not run. -/
structure RunClosed (o : LiveOwnershipRow) (t t' : Tables) : Prop where
  others : ∀ r, o.runId ≠ some r.id → (r ∈ t'.runs ↔ r ∈ t.runs)
  closed : ∀ r ∈ t'.runs, o.runId = some r.id → r.outcome ≠ .running

theorem RunClosed.replaced {o : LiveOwnershipRow} {t t' : Tables} {r r' : TuneRunRow}
    (hrun : o.runId = some r.id) (hruns : Replaced TuneRunRow.id r r' t.runs t'.runs)
    (hclosed : r'.outcome ≠ .running) : RunClosed o t t' := by
  have hother : ∀ x : TuneRunRow, o.runId ≠ some x.id ↔ x.id ≠ r.id := by
    intro x
    rw [hrun]
    exact ⟨fun h heq => h (congrArg some heq.symm), fun h heq => h (Option.some.inj heq).symm⟩
  constructor
  · intro x hx
    rw [hruns.mem]
    refine ⟨?_, fun h => .inr ⟨h, (hother x).mp hx⟩⟩
    rintro (rfl | ⟨h, _⟩)
    · exact absurd hruns.same ((hother x).mp hx)
    · exact h
  · intro x hx hxrun
    rcases (hruns.mem x).mp hx with rfl | ⟨_, hne⟩
    · exact hclosed
    · exact absurd hxrun ((hother x).mpr hne)

/-- A dead tune that is orphaned does not run any more. -/
theorem markOrphaned_run (update : LiveOwnershipRow.OrphanOwnerUpdate) (d : Db) :
    Ends (LiveOwnershipRow.markOrphaned update)
      (fun marked d' => marked = true → ∀ o ∈ d.1.owners, o.id = update.ownerId →
        RunClosed o d.1 d'.1)
      (fun _ d' => d' = d) d := by
  refine ends_atomically (· = false) ?_ ?_
  · refine commits_updateOwners ?_
    intro owners' h o hp ho
    simp only [Bool.and_eq_true, decide_eq_true_eq] at hp
    have hown := hp.1.1.1.1.1
    refine commits_updateRuns ?_
    intro runs' h' r hr hruns
    simp only [Bool.and_eq_true, decide_eq_true_eq, List.any_eq_true] at hr
    obtain ⟨⟨x, hx, hxid, hxrun⟩, _⟩ := hr
    have hrun : o.runId = some r.id := by
      have hnew := h.owners.primaryKey.eq hx ho.mem_new (by rw [hxid, ho.same, hown])
      rw [hnew] at hxrun
      exact hxrun
    have hclosed : ∀ t' : Tables, t'.runs = runs' → ∀ y ∈ d.1.owners, y.id = update.ownerId →
        RunClosed y d.1 t' := by
      intro t' ht' y hy hyid
      obtain rfl := d.2.owners.primaryKey.eq hy ho.was (hyid.trans hown.symm)
      have hfailed : TuneOutcome.failed ≠ .running := by decide
      exact .replaced hrun (ht' ▸ hruns) hfailed
    cases update.eligible with
    | true => exact commits_commit fun _ => hclosed _ rfl
    | false => exact commits_seq (ends_statement trivial fun _ =>
        commits_commit fun _ => hclosed _ rfl)
  · rintro _ rfl hmarked
    cases hmarked

/-- With a dead owner that is retired the run ends that it is to fail. -/
theorem markOrphanedUnrecoverable_run (update : LiveOwnershipRow.UnrecoverableOwnerUpdate)
    (d : Db) :
    Ends (LiveOwnershipRow.markOrphanedUnrecoverable update)
      (fun retired d' => retired = true →
        (update.failRunningRunId = none → d'.1.runs = d.1.runs) ∧
        (update.failRunningRunId ≠ none → ∀ o ∈ d.1.owners, o.id = update.ownerId →
          RunClosed o d.1 d'.1))
      (fun _ d' => d' = d) d := by
  refine ends_atomically (· = false) ?_ ?_
  · refine commits_updateOwners ?_
    intro owners' h o hp ho
    simp only [Bool.and_eq_true, decide_eq_true_eq] at hp
    have hown := hp.1.1.1
    cases hfail : update.failRunningRunId with
    | none =>
      refine commits_deleteClaims fun claims' h' c hc hclaims => commits_commit fun _ => ?_
      exact ⟨fun _ => rfl, fun hne => absurd rfl hne⟩
    | some runId =>
      refine commits_updateRuns ?_
      intro runs' h' r hr hruns
      simp only [Bool.and_eq_true, decide_eq_true_eq] at hr
      obtain ⟨x, hx, hxid, hxrun, _⟩ := hasOwner_iff.mp hr.2
      have hrun : o.runId = some r.id := by
        have hnew := h.owners.primaryKey.eq hx ho.mem_new (by rw [hxid, ho.same, hown])
        rw [hnew] at hxrun
        exact hxrun.trans (congrArg some hr.1.1.symm)
      refine commits_deleteClaims fun claims' h'' c hc hclaims => commits_commit fun _ => ?_
      have hfailed : TuneOutcome.failed ≠ .running := by decide
      refine ⟨fun hnone => absurd hnone (Option.some_ne_none _), fun _ y hy hyid => ?_⟩
      obtain rfl := d.2.owners.primaryKey.eq hy ho.was (hyid.trans hown.symm)
      exact .replaced hrun hruns hfailed
  · rintro _ rfl hretired
    cases hretired

end Bhtune
