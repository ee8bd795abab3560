import Bhtune.Db.LiveSystem

/-!
# What a deletion takes away

A deletion of runs looks at their recovery state, while what has to stay is the claim of an owner
and all that the foreign keys would delete along with it.

* `Deletion` — the deletion paths;
* `StepsOfRun` — an audited mutation belongs to the run of its owner;
* `Protects` — what a claim protects is still there;
* `deletion_protects_iff` — a deletion protects it unless it selects the run of an active owner.
-/

namespace Bhtune

open Table Transaction

/-! ### The deletion paths -/

/-- A deletion of runs, with its arguments. -/
inductive Deletion where
  | delete (id : ℕ)
  | deleteMatching (filter : TuneRunFilter)
  | sweepRetention (days : UInt32) (now : UtcTime)
  | prune (retentionDays olderThanDays : Option UInt32) (dryRun : Bool) (now : UtcTime)

namespace Deletion

/-- The deletion, without its count. -/
def run : Deletion → DbM Unit
  | delete id => do let _ ← TuneRunRow.delete id
  | deleteMatching filter => do let _ ← TuneRunRow.deleteMatching filter
  | sweepRetention days now => do let _ ← Bhtune.sweepRetention days now
  | prune retentionDays olderThanDays dryRun now => do
    let _ ← Bhtune.prune retentionDays olderThanDays dryRun now

/-- The runs a deletion is asked for. -/
def selects : Deletion → TuneRunRow → Bool
  | delete id, r => r.id = id
  | deleteMatching filter, r => filter.matches r
  | sweepRetention days now, r => r.startedAt ≤ cutoffFor days now
  | prune retentionDays olderThanDays dryRun now, r =>
    !dryRun && (olderThanDays <|> retentionDays).any fun days => r.startedAt ≤ cutoffFor days now

/-- No run that the deletion takes is the run of an active owner. -/
def Spares (del : Deletion) (t : Tables) : Prop :=
  ∀ r ∈ t.runs, del.selects r = true → r.deletable = true →
    ∀ o ∈ t.owners, o.runId = some r.id → o.state ≠ .active

instance (del : Deletion) (t : Tables) : Decidable (del.Spares t) :=
  inferInstanceAs (Decidable (∀ r ∈ _, _ → _ → ∀ o ∈ _, _))

end Deletion

theorem matches_startedBefore (cutoff : UtcTime) (r : TuneRunRow) :
    TuneRunFilter.matches { startedBefore := some cutoff } r = decide (r.startedAt ≤ cutoff) := by
  simp [TuneRunFilter.matches, filterEq]

/-- A deletion that selects nothing changes nothing. -/
theorem deleteRuns_none {t : Tables} {p : TuneRunRow → Bool} (h : ∀ r, p r = false) :
    t.deleteRuns p = t := by
  have hkept : ∀ {ρ : Type} {q : ρ → Bool} {rows : List ρ}, (∀ x, q x = false) →
      deleteWhere q rows = rows := by
    intro ρ q rows hq
    unfold deleteWhere
    apply List.filter_eq_self.mpr
    intro x _
    rw [hq x]
    rfl
  have hrun : ∀ id, (t.runs.any fun r => r.id = id && p r) = false := by simp [h]
  have howner : ∀ runId : Option ℕ,
      (runId.any fun id => t.runs.any fun r => r.id = id && p r) = false := by
    intro runId
    cases runId <;> simp [h]
  unfold Tables.deleteRuns
  dsimp only
  rw [hkept h, hkept, hkept, hkept, hkept]
  · exact fun a => hrun a.runId
  · intro x
    simp only [howner]
    simp
  · intro c
    simp only [howner]
    simp
  · exact fun o => howner o.runId

theorem sweepRetention_ends (days : UInt32) (now : UtcTime) (d : Db) :
    Ends (sweepRetention days now)
      (fun _ d' => d'.1 = d.1.deleteRuns fun r => r.startedAt ≤ cutoffFor days now && r.deletable)
      (fun _ d' => d' = d) d := by
  have hends := deleteMatching_ends { startedBefore := some (cutoffFor days now) } d
  simp only [matches_startedBefore] at hends
  exact hends

/-- Every path deletes what it is asked for, as far as the recovery state allows. -/
theorem Deletion.ends (del : Deletion) (d : Db) :
    Ends del.run (fun _ d' => d'.1 = d.1.deleteRuns fun r => del.selects r && r.deletable)
      (fun _ d' => d' = d) d := by
  have hdiscard : ∀ {α : Type} {x : DbM α} {p : TuneRunRow → Bool},
      Ends x (fun _ d' => d'.1 = d.1.deleteRuns p) (fun _ d' => d' = d) d →
        Ends (do let _ ← x) (fun _ d' => d'.1 = d.1.deleteRuns p) (fun _ d' => d' = d) d := by
    intro α x p hx
    refine ends_mono (ends_discard hx) ?_ (fun _ _ h => h)
    rintro _ d' ⟨_, h⟩
    exact h
  cases del with
  | delete id => exact hdiscard (delete_ends id d)
  | deleteMatching filter => exact hdiscard (deleteMatching_ends filter d)
  | sweepRetention days now => exact hdiscard (sweepRetention_ends days now d)
  | prune retentionDays olderThanDays dryRun now =>
    apply hdiscard
    unfold Bhtune.prune
    simp only [selects]
    cases hdays : olderThanDays <|> retentionDays with
    | none =>
      refine ends_pure ?_
      rw [deleteRuns_none]
      simp
    | some days =>
      cases dryRun with
      | true =>
        have hcount : ∀ filter, Ends (TuneRunRow.countDeletableMatching filter)
            (fun _ d' => d' = d) (fun _ d' => d' = d) d := fun _ => ends_query rfl rfl
        refine ends_seq (hcount _) ?_
        rintro n _ rfl
        refine ends_pure ?_
        rw [deleteRuns_none]
        simp
      | false =>
        refine ends_seq (sweepRetention_ends days now d) ?_
        intro n d' hn
        refine ends_pure ?_
        simpa using hn

/-! ### The mutations of a run -/

/-- An audited mutation belongs to the run of its owner. -/
def StepsOfRun (t : Tables) : Prop :=
  ∀ x ∈ t.steps, ∀ o ∈ t.owners, o.id = x.ownerId → o.runId = x.runId

section Steps

variable {s s' : LiveSystem}

/-- A mutation was audited before the step, or it is audited by it. -/
theorem Step.steps (inv : SystemInv s) (h : Step s s') {x : LiveMutationStepRow}
    (hx : x ∈ s'.db.1.steps) :
    (∃ y ∈ s.db.1.steps, y.ownerId = x.ownerId ∧ y.runId = x.runId) ∨
      s.db.1.mayMutate x.ownerId x.runId = true ∧ s'.db.1.owners = s.db.1.owners := by
  have hkept : s'.db.1.steps = s.db.1.steps →
      ∃ y ∈ s.db.1.steps, y.ownerId = x.ownerId ∧ y.runId = x.runId := by
    intro hsteps
    rw [hsteps] at hx
    exact ⟨x, hx, rfl, rfl⟩
  have hdeleted : ∀ p, s'.db.1 = s.db.1.deleteRuns p →
      ∃ y ∈ s.db.1.steps, y.ownerId = x.ownerId ∧ y.runId = x.runId := by
    intro p hp
    rw [hp] at hx
    exact ⟨x, (mem_deleteWhere.mp hx).1, rfl, rfl⟩
  cases h with
  | live call hpass refusals =>
    rcases after_of_ends (call.ends s hpass inv.unowned) refusals with ⟨_, h⟩ | ⟨_, h⟩
    · exact .inl (hkept h.2)
    · exact .inl (hkept (congrArg (·.1.steps) h))
  | start new refusals =>
    have hrun := startWithDemoSession_ends new s.db refusals
    unfold Effect.wp at hrun
    cases hstart : TuneRunRow.startWithDemoSession new ⟨s.db, refusals⟩ with
    | ok row s₁ =>
      simp only [hstart] at hrun hkept
      exact .inl (hkept hrun.2.steps)
    | error e s₁ =>
      simp only [hstart] at hrun hkept
      exact .inl (hkept (congrArg (·.1.steps) hrun))
  | updateRun runId update refusals =>
    rcases after_of_ends (updateRow_ends runId update s.db) refusals with ⟨_, r, _, h⟩ | ⟨_, h⟩
    · exact .inl (hkept h.steps)
    · exact .inl (hkept (congrArg (·.1.steps) h))
  | beginStep new refusals =>
    rcases after_of_ends (beginStep_ends new s.db) refusals with
      ⟨row, rfl, hmay, hunmoved, hsteps⟩ | ⟨_, h⟩
    · rcases (hsteps x).mp hx with rfl | hx
      · exact .inr ⟨hmay, hunmoved.owners⟩
      · exact .inl ⟨x, hx, rfl, rfl⟩
    · exact .inl (hkept (congrArg (·.1.steps) h))
  | finishStep stepId status now readbackJson detail refusals =>
    rcases after_of_ends (finishStep_ends stepId status now readbackJson detail s.db) refusals with
      ⟨row, y, _, _, _, rfl, _, hsteps⟩ | ⟨_, h⟩
    · rcases (hsteps.mem x).mp hx with rfl | ⟨hx, _⟩
      · exact .inl ⟨y, hsteps.was, rfl, rfl⟩
      · exact .inl ⟨x, hx, rfl, rfl⟩
    · exact .inl (hkept (congrArg (·.1.steps) h))
  | delete id refusals =>
    rcases after_of_ends (delete_ends id s.db) refusals with ⟨_, h⟩ | ⟨_, h⟩
    · exact .inl (hdeleted _ h)
    · exact .inl (hkept (congrArg (·.1.steps) h))
  | deleteMatching filter refusals =>
    rcases after_of_ends (deleteMatching_ends filter s.db) refusals with ⟨_, h⟩ | ⟨_, h⟩
    · exact .inl (hdeleted _ h)
    · exact .inl (hkept (congrArg (·.1.steps) h))

theorem mayMutate_iff {t : Tables} {ownerId : ℕ} {runId : Option ℕ} :
    t.mayMutate ownerId runId = true ↔
      (∃ o ∈ t.owners, o.id = ownerId ∧ o.runId = runId ∧ o.state = .active) ∧
        ∃ c ∈ t.claims, c.ownerId = ownerId := by
  simp only [Tables.mayMutate, Bool.and_eq_true, List.any_eq_true, decide_eq_true_eq, claimed_iff,
    and_assoc]

/-- An owner keeps its run, and a new owner has no mutation yet. -/
theorem StepsOfRun.step (inv : SystemInv s) (hsteps : StepsOfRun s.db.1) (h : Step s s') :
    StepsOfRun s'.db.1 := by
  intro x hx o ho hid
  rcases h.steps inv hx with ⟨y, hy, hyowner, hyrun⟩ | ⟨hmay, howners⟩
  · rw [← hyrun]
    obtain ⟨z, hz, hzid⟩ := s.db.2.stepOwners y hy
    rcases (h.move inv).1.owner ho with ⟨w, hw, hsame⟩ | ⟨hfresh, _⟩
    · obtain ⟨hwid, hwrun, _⟩ := LiveOwnershipRow.identity_parts hsame
      rw [← hwrun]
      exact hsteps y hy w hw (by rw [hwid, hid, hyowner])
    · refine absurd ?_ (s.db.2.keyed.ownerFresh z hz)
      rw [hzid, hyowner, ← hid, hfresh]
  · obtain ⟨⟨w, hw, hwid, hwrun, _⟩, _⟩ := mayMutate_iff.mp hmay
    rw [howners] at ho
    rw [← hwrun, s.db.2.keyed.owner o ho w hw (hid.trans hwid.symm)]

theorem reach_stepsOfRun (h : Reach s) : StepsOfRun s.db.1 := by
  induction h with
  | initial =>
    intro x hx
    simp [LiveSystem.initial, Tables.empty] at hx
  | step hreach hstep ih => exact ih.step (reach_inv hreach) hstep

end Steps

/-! ### Protection -/

/-- A live owner of the run still holds a claim. -/
def Tables.HeldRun (t : Tables) (runId : ℕ) : Prop :=
  ∃ o ∈ t.owners, o.runId = some runId ∧ ∃ c ∈ t.claims, c.ownerId = o.id

/-- No claim is lost, and no owner of one; nor is a run whose owner holds a claim, with its
owners, its mutations and its recovery attempts. -/
structure Protects (t t' : Tables) : Prop where
  claims : ∀ c ∈ t.claims, c ∈ t'.claims
  claimOwners : ∀ o ∈ t.owners, (∃ c ∈ t.claims, c.ownerId = o.id) → o ∈ t'.owners
  runs : ∀ r ∈ t.runs, t.HeldRun r.id → r ∈ t'.runs
  owners : ∀ o ∈ t.owners, ∀ runId, o.runId = some runId → t.HeldRun runId → o ∈ t'.owners
  steps : ∀ x ∈ t.steps, ∀ runId, x.runId = some runId → t.HeldRun runId → x ∈ t'.steps
  attempts : ∀ a ∈ t.attempts, t.HeldRun a.runId → a ∈ t'.attempts

/-- The run of an owner with a claim stays if the deletion spares the runs of active owners. -/
theorem not_gone_of_spares {t : Tables} {del : Deletion} {runId : ℕ} (inv : OwnershipInv t)
    (keyed : Keyed t) (hspares : del.Spares t) (hheld : t.HeldRun runId) :
    ¬t.gone (fun r => del.selects r && r.deletable) runId := by
  rintro ⟨r, hr, rfl, hp⟩
  obtain ⟨hselected, hdeletable⟩ := Bool.and_eq_true_iff.mp hp
  obtain ⟨o, ho, hrun, c, hc, hco⟩ := hheld
  obtain ⟨x, hx, hxid, _, hholds⟩ := inv.claimOwner c hc
  have hxo : x = o := keyed.owner x hx o ho (hxid.trans hco)
  rw [hxo] at hholds
  rcases hholds with hactive | hrecoverable
  · exact hspares r hr hselected hdeletable o ho hrun hactive
  · obtain ⟨_, r', hr', hrun', hopen⟩ := inv.orphan o ho hrecoverable
    have hsame : r' = r := by
      apply keyed.run r' hr' r hr
      rw [hrun] at hrun'
      exact (Option.some.inj hrun').symm
    rw [hsame] at hopen
    rcases hopen with hmay | hrunning
    · revert hmay hdeletable
      unfold TuneRunRow.deletable
      cases r.recoveryState with
      | none => simp [TuneRecoveryState.mayStart]
      | some state => cases state <;> simp [TuneRecoveryState.mayStart]
    · simp [TuneRunRow.deletable, hrunning] at hdeletable

/-- The mutations of a run that stays are not deleted. -/
theorem mem_steps_deleteRuns (d : Db) (hsteps : StepsOfRun d.1) {p : TuneRunRow → Bool} {runId : ℕ}
    (hnot : ¬d.1.gone p runId) (x : LiveMutationStepRow) (hx : x ∈ d.1.steps)
    (hrun : x.runId = some runId) : x ∈ (d.1.deleteRuns p).steps := by
  have hkept : (d.1.runs.any fun r => r.id = runId && p r) = false := by
    rw [← Bool.not_eq_true]
    intro hany
    apply hnot
    simpa [Tables.gone] using hany
  show x ∈ deleteWhere _ d.1.steps
  rw [mem_deleteWhere, hrun]
  refine ⟨hx, ?_⟩
  -- the owner of the mutation goes with the run of the mutation
  have howner : (d.1.owners.any fun o => o.id = x.ownerId &&
      o.runId.any fun id => d.1.runs.any fun r => r.id = id && p r) = false := by
    apply List.any_eq_false.mpr
    intro o ho
    by_cases hid : o.id = x.ownerId
    · rw [hsteps x hx o ho hid, hrun]
      simp only [Option.any_some, hkept, Bool.and_false]
      decide
    · simp [hid]
  simp only [howner, Option.any_some, hkept, Bool.or_self]

/-- What a deletion keeps when no run with a claim goes. -/
theorem deleteRuns_protects (d : Db) (hsteps : StepsOfRun d.1) {p : TuneRunRow → Bool}
    (hgone : ∀ runId, d.1.HeldRun runId → ¬d.1.gone p runId) : Protects d.1 (d.1.deleteRuns p) := by
  have hdeleted := deleteRuns_deleted d p
  have howners : ∀ o ∈ d.1.owners, (∃ c ∈ d.1.claims, c.ownerId = o.id) →
      o ∈ (d.1.deleteRuns p).owners := by
    intro o ho hclaim
    rw [hdeleted.owners]
    exact ⟨ho, fun runId hrun => hgone runId ⟨o, ho, hrun, hclaim⟩⟩
  refine ⟨?_, howners, ?_, ?_, ?_, ?_⟩
  · intro c hc
    obtain ⟨o, ho, hid⟩ := d.2.claimedOwners c hc
    rw [hdeleted.claims]
    exact ⟨hc, o, howners o ho ⟨c, hc, hid.symm⟩, hid⟩
  · intro r hr hheld
    rw [hdeleted.runs]
    exact ⟨hr, hgone r.id hheld⟩
  · intro o ho runId hrun hheld
    rw [hdeleted.owners]
    refine ⟨ho, fun id hid => ?_⟩
    rw [hrun] at hid
    cases hid
    exact hgone runId hheld
  · intro x hx runId hrun hheld
    exact mem_steps_deleteRuns d hsteps (hgone runId hheld) x hx hrun
  · intro a ha hheld
    rw [hdeleted.attempts]
    exact ⟨ha, hgone a.runId hheld⟩

/-- **What a claim protects is lost exactly with the run of an active owner.**  In every reachable
state and for every deletion. -/
theorem deletion_protects_iff {s : LiveSystem} (h : Reach s) (del : Deletion)
    (refusals : List Bool) :
    (∀ s', del.run ⟨s.db, refusals⟩ = .ok () s' →
      (Protects s.db.1 s'.store.1 ↔ del.Spares s.db.1)) ∧
      ∀ e s', del.run ⟨s.db, refusals⟩ = .error e s' → s'.store = s.db := by
  have hends := del.ends s.db refusals
  unfold Effect.wp at hends
  constructor
  · intro s' hrun
    simp only [hrun] at hends
    rw [hends]
    constructor
    · intro hprotects r hr hselected hdeletable o ho hrunId hactive
      obtain ⟨c, hc, hco⟩ := (reach_inv h).ownership.activeClaim o ho hactive
      have hkept := hprotects.runs r hr ⟨o, ho, hrunId, c, hc, hco⟩
      rw [(deleteRuns_deleted s.db _).runs] at hkept
      exact hkept.2 ⟨r, hr, rfl, Bool.and_eq_true_iff.mpr ⟨hselected, hdeletable⟩⟩
    · intro hspares
      apply deleteRuns_protects s.db (reach_stepsOfRun h)
      intro runId hheld
      exact not_gone_of_spares (reach_inv h).ownership s.db.2.keyed hspares hheld
  · intro e s' hrun
    simp only [hrun] at hends
    exact hends

/-- The sweep of a run that is being recovered. -/
theorem deletion_protects_recovery :
    Protects recoveringSystem.db.1
      (after (Deletion.sweepRetention 1 (seconds 172800)).run recoveringSystem.db []).1 := by
  have hspares : (Deletion.sweepRetention 1 (seconds 172800)).Spares recoveringSystem.db.1 := by
    decide +kernel
  have hanswers : answer (Deletion.sweepRetention 1 (seconds 172800)).run recoveringSystem.db []
      = some () := by
    decide +kernel
  unfold answer at hanswers
  unfold after
  cases hrun : (Deletion.sweepRetention 1 (seconds 172800)).run ⟨recoveringSystem.db, []⟩ with
  | ok _ s' =>
    exact ((deletion_protects_iff reach_recovering (.sweepRetention 1 (seconds 172800)) []).1 s'
      hrun).mpr hspares
  | error _ s' =>
    rw [hrun] at hanswers
    cases hanswers

/-- A tune that has run, or has been dead, for two days loses its owner and its claim to the
sweep of another process. -/
theorem live_claim_swept :
    Reach tuningSystem ∧ tuningSystem.db.1.claims.map (·.ownerId) = [1] ∧
      ¬Protects tuningSystem.db.1
        (after (Deletion.sweepRetention 1 (seconds 172800)).run tuningSystem.db []).1 := by
  have hbefore : tuningSystem.db.1.claims.map (·.ownerId) = [1] := by decide
  have hafter : (after (Deletion.sweepRetention 1 (seconds 172800)).run tuningSystem.db
      []).1.claims.map (·.ownerId) = [] := by decide
  refine ⟨reach_tuning, hbefore, ?_⟩
  intro hprotects
  obtain ⟨c, hc, _⟩ := List.mem_map.mp (hbefore ▸ List.mem_singleton.mpr rfl :
    1 ∈ tuningSystem.db.1.claims.map (·.ownerId))
  have hkept := List.mem_map_of_mem (f := (·.ownerId)) (hprotects.claims c hc)
  rw [hafter] at hkept
  cases hkept

end Bhtune
