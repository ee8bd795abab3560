import Bhtune.Db.Deletion
import Bhtune.Runtime.Recovery

/-!
# A recovery can be tried again

From the moment the sweep has marked a dead tune eligible, nothing but a confirmed recovery takes
away what `restore-loop` checks.

* `RecoveryStep` — what may happen to the database from then on;
* `Kept` — the recorded evidence of the run and the orphan with its intent;
* `MutationsKept` — the audited mutations of the dead tune;
* `recovery_retryable` — whenever no attempt is running, the run is accepted again.
-/

namespace Bhtune

open Table Transaction

/-! ### The evidence of a run -/

section Kept

variable {run : TuneRunRow} {owner : LiveOwnershipRow} {t t' : Tables}

/-- The run failed and its recovery is open, with the evidence it had; its owner is an orphan that
may be recovered, with the identity and the intent it had. -/
structure Kept (run : TuneRunRow) (owner : LiveOwnershipRow) (t : Tables) : Prop where
  run : ∃ r ∈ t.runs, r.evidence = run.evidence ∧ r.outcome = .failed ∧ r.unresolved
  owner : ∃ o ∈ t.owners, SameRecord owner o ∧ o.recoverable = true

theorem SameRecord.trans {o o' o'' : LiveOwnershipRow} (h : SameRecord o o')
    (h' : SameRecord o' o'') : SameRecord o o'' :=
  ⟨h'.identity.trans h.identity, h'.intent.trans h.intent⟩

theorem evidence_id {r r' : TuneRunRow} (h : r'.evidence = r.evidence) : r'.id = r.id := by
  show r'.evidence.id = r.evidence.id
  rw [h]

/-- The orphan is not the active owner that a move is about. -/
theorem recoverable_ne (keyed : Keyed t) {x o : LiveOwnershipRow} (hx : x ∈ t.owners)
    (ho : o ∈ t.owners) (hrecoverable : x.recoverable = true) (hactive : o.state = .active) :
    x.id ≠ o.id := by
  intro heq
  have hsame := keyed.owner x hx o ho heq
  rw [hsame] at hrecoverable
  exact absurd (hactive.symm.trans (not_active_of_recoverable hrecoverable).1) (nofun)

/-- A move of one run keeps the run if it keeps its evidence and its recovery open. -/
theorem Kept.replaced (h : Kept run owner t) (keyed : Keyed t) {r r' : TuneRunRow}
    (hruns : Replaced TuneRunRow.id r r' t.runs t'.runs)
    (hr : r.evidence = run.evidence → r.outcome = .failed → r.unresolved →
      r'.evidence = r.evidence ∧ r'.outcome = .failed ∧ r'.unresolved) :
    ∃ r ∈ t'.runs, r.evidence = run.evidence ∧ r.outcome = .failed ∧ r.unresolved := by
  obtain ⟨x, hx, hevidence, hfailed, hopen⟩ := h.run
  by_cases hid : x.id = r.id
  · obtain rfl := keyed.run x hx r hruns.was hid
    obtain ⟨hevidence', hfailed', hopen'⟩ := hr hevidence hfailed hopen
    exact ⟨r', hruns.mem_new, hevidence'.trans hevidence, hfailed', hopen'⟩
  · exact ⟨x, hruns.mem_other hx hid, hevidence, hfailed, hopen⟩

/-- What ends an attempt keeps the orphan, unless it settles the run. -/
theorem Kept.concluded (h : Kept run owner t) (keyed : Keyed t) {s s' o o' : LiveOwnershipRow}
    {a a' : TuneRecoveryAttemptRow} {state : TuneRecoveryState}
    (hmove : Concluded s s' o o' a a' state t t')
    (hagain : owner.runId = some a.runId →
      s'.recoverable = true ∧ TuneRecoveryState.mayStart (some state))
    (hrun : owner.runId = some run.id) :
    Kept run owner t' := by
  obtain ⟨r, r', hrid, _, hfailed', hstate, hevidence', hruns⟩ := hmove.runs
  constructor
  · apply h.replaced keyed hruns
    intro hevidence _ _
    refine ⟨hevidence', hfailed', .inl ?_⟩
    rw [hstate]
    exact (hagain (by rw [hrun, ← hrid, evidence_id hevidence])).2
  · obtain ⟨x, hx, hsame, hrecoverable⟩ := h.owner
    by_cases hid : x.id = s.id
    · obtain rfl := keyed.owner x hx s hmove.source hid
      have hxrun : owner.runId = some a.runId := by
        rw [← hmove.sourceRun]
        exact (LiveOwnershipRow.identity_parts hsame.identity).2.1.symm
      exact ⟨s', (hmove.owners s').mpr (.inr (.inl rfl)), hsame.trans hmove.sourceRecord,
        (hagain hxrun).1⟩
    · have hne := recoverable_ne keyed hx hmove.owner hrecoverable hmove.wasActive
      exact ⟨x, (hmove.owners x).mpr (.inr (.inr ⟨hx, hne, hid⟩)), hsame, hrecoverable⟩

/-- The orphan is still there after a move of an active owner. -/
theorem Kept.otherOwner (h : Kept run owner t) (keyed : Keyed t) {o o' : LiveOwnershipRow}
    (hactive : o.state = .active) (howners : Replaced LiveOwnershipRow.id o o' t.owners t'.owners) :
    ∃ x ∈ t'.owners, SameRecord owner x ∧ x.recoverable = true := by
  obtain ⟨x, hx, hsame, hrecoverable⟩ := h.owner
  have hne := recoverable_ne keyed hx howners.was hrecoverable hactive
  exact ⟨x, howners.mem_other hx hne, hsame, hrecoverable⟩

/-- **No move takes the evidence away but the one that settles the run.** -/
theorem Kept.move {acquires : Option ℕ → Prop} {settles : ℕ → Prop} (h : Kept run owner t)
    (keyed : Keyed t) (hrun : owner.runId = some run.id)
    (hmove : OwnershipMove acquires settles t t') (hopen : ¬settles run.id) :
    Kept run owner t' := by
  cases hmove with
  | unmoved h' => exact ⟨h'.runs ▸ h.run, h'.owners ▸ h.owner⟩
  | claimed o h' _ _ =>
    obtain ⟨x, hx, hsame, hrecoverable⟩ := h.owner
    exact ⟨h'.runs ▸ h.run, x, h'.owners.mem_old hx, hsame, hrecoverable⟩
  | touched o o' h' => exact ⟨h'.runs ▸ h.run, h.otherOwner keyed h'.wasActive h'.owners⟩
  | retired o o' h' _ =>
    refine ⟨?_, h.otherOwner keyed h'.wasActive h'.owners⟩
    rcases h'.runs with hruns | ⟨r, r', hfailed, hruns⟩
    · exact hruns ▸ h.run
    · apply h.replaced keyed hruns
      intro _ houtcome _
      exact absurd (hfailed.wasRunning.symm.trans houtcome) (nofun)
  | orphaned o o' h' =>
    refine ⟨?_, h.otherOwner keyed h'.wasActive h'.owners⟩
    obtain ⟨r, r', _, hrunning, _, _, _, hruns⟩ := h'.runs
    apply h.replaced keyed hruns
    intro _ houtcome _
    exact absurd (hrunning.symm.trans houtcome) (nofun)
  | takenOver s o a h' =>
    obtain ⟨x, hx, hsame, hrecoverable⟩ := h.owner
    refine ⟨?_, x, h'.owners.mem_old hx, hsame, hrecoverable⟩
    obtain ⟨r, r', _, _, _, hfailed, hstate, hevidence, hruns⟩ := h'.runs
    apply h.replaced keyed hruns
    intro _ _ _
    exact ⟨hevidence, hfailed, .inr hstate⟩
  | returned s s' o o' a a' state h' =>
    exact h.concluded keyed h'.concluded (fun _ => ⟨h'.recoverableAgain, h'.state⟩) hrun
  | settled s s' o o' a a' h' hsettles =>
    refine h.concluded keyed h'.concluded (fun heq => absurd ?_ hopen) hrun
    rw [hrun] at heq
    rw [Option.some.inj heq]
    exact hsettles

end Kept

/-! ### What may happen once a run is eligible -/

/-- A step of the system once the run `runId` is eligible: no call confirms its recovery, of the
updates of a run only that of `restore-loop` is about it, and an audited mutation ends as the
audited driver ends it. -/
inductive RecoveryStep (runId : ℕ) (s : LiveSystem) : LiveSystem → Prop
  | live (call : LiveCall) (h : call.Passes s) (refusals : List Bool)
      (hopen : call.Settles runId → ∀ s', call.run ⟨s.db, refusals⟩ ≠ .ok () s') :
      RecoveryStep runId s ⟨after call.run s.db refusals, call.leaves s.unowned⟩
  | start (new : NewTuneRun) (refusals : List Bool) :
      RecoveryStep runId s (match TuneRunRow.startWithDemoSession new ⟨s.db, refusals⟩ with
        | .ok row s' => ⟨s'.store, row.id :: s.unowned⟩
        | .error _ s' => ⟨s'.store, s.unowned⟩)
  | updateRun (id : ℕ) (update : RunUpdate) (refusals : List Bool)
      (h : id = runId → ∃ json, update = .gatewayCompatibility json) :
      RecoveryStep runId s ⟨after (TuneRunRow.updateRow id update) s.db refusals, s.unowned⟩
  | beginStep (new : NewLiveMutationStep) (refusals : List Bool) :
      RecoveryStep runId s ⟨after (LiveMutationStepRow.begin new) s.db refusals, s.unowned⟩
  | finishStep (stepId : ℕ) (status : MutationStepStatus) (now : UtcTime)
      (readbackJson detail : Option String) (refusals : List Bool)
      (h : status = .confirmed ∨ status = .failed) :
      RecoveryStep runId s ⟨after (LiveMutationStepRow.finish stepId status now readbackJson
        detail) s.db refusals, s.unowned⟩
  | delete (id : ℕ) (refusals : List Bool) :
      RecoveryStep runId s ⟨after (TuneRunRow.delete id) s.db refusals, s.unowned⟩
  | deleteMatching (filter : TuneRunFilter) (refusals : List Bool) :
      RecoveryStep runId s ⟨after (TuneRunRow.deleteMatching filter) s.db refusals, s.unowned⟩

section Steps

variable {run : TuneRunRow} {owner : LiveOwnershipRow} {s s' : LiveSystem}

theorem RecoveryStep.step {runId : ℕ} (h : RecoveryStep runId s s') : Step s s' := by
  cases h with
  | live call h refusals _ => exact .live call h refusals
  | start new refusals => exact .start new refusals
  | updateRun id update refusals _ => exact .updateRun id update refusals
  | beginStep new refusals => exact .beginStep new refusals
  | finishStep stepId status now readbackJson detail refusals _ =>
    exact .finishStep stepId status now readbackJson detail refusals
  | delete id refusals => exact .delete id refusals
  | deleteMatching filter refusals => exact .deleteMatching filter refusals

/-- A run whose recovery is open is not deleted. -/
theorem not_gone_of_unresolved {t : Tables} (keyed : Keyed t) {p : TuneRunRow → Bool}
    {r : TuneRunRow} (hr : r ∈ t.runs) (hopen : r.unresolved) :
    ¬t.gone (fun x => p x && x.deletable) r.id := by
  rintro ⟨x, hx, hid, hp⟩
  rw [keyed.run x hx r hr hid] at hp
  have hdeletable : r.deletable = true := (Bool.and_eq_true_iff.mp hp).2
  rcases hopen with hmay | hrunning
  · revert hmay hdeletable
    unfold TuneRunRow.deletable
    cases r.recoveryState with
    | none => simp [TuneRecoveryState.mayStart]
    | some state => cases state <;> simp [TuneRecoveryState.mayStart]
  · simp [TuneRunRow.deletable, hrunning] at hdeletable

/-- A deletion takes nothing of a run whose recovery is open. -/
theorem Kept.deleted (h : Kept run owner s.db.1) (hrun : owner.runId = some run.id)
    {p : TuneRunRow → Bool}
    (hdb : s'.db.1 = s.db.1.deleteRuns fun r => p r && r.deletable) : Kept run owner s'.db.1 := by
  have hdeleted := deleteRuns_deleted s.db fun r => p r && r.deletable
  obtain ⟨r, hr, hevidence, hfailed, hopen⟩ := h.run
  have hnot := not_gone_of_unresolved (p := p) s.db.2.keyed hr hopen
  obtain ⟨o, ho, hsame, hrecoverable⟩ := h.owner
  rw [hdb]
  refine ⟨⟨r, (hdeleted.runs r).mpr ⟨hr, hnot⟩, hevidence, hfailed, hopen⟩,
    o, (hdeleted.owners o).mpr ⟨ho, ?_⟩, hsame, hrecoverable⟩
  intro id hid
  rw [(LiveOwnershipRow.identity_parts hsame.identity).2.1, hrun, ← evidence_id hevidence] at hid
  rw [← Option.some.inj hid]
  exact hnot

theorem Kept.step (h : Kept run owner s.db.1) (inv : SystemInv s)
    (hrun : owner.runId = some run.id) (hstep : RecoveryStep run.id s s') :
    Kept run owner s'.db.1 := by
  have hsame : s'.db = s.db → Kept run owner s'.db.1 := fun heq => heq ▸ h
  cases hstep with
  | live call hpass refusals hopen =>
    have hends := call.ends s hpass inv.unowned refusals
    unfold Effect.wp at hends
    unfold Bhtune.after
    cases hcall : call.run ⟨s.db, refusals⟩ with
    | ok a s₁ =>
      simp only [hcall] at hends
      refine h.move s.db.2.keyed hrun hends.1 ?_
      exact fun hsettles => hopen hsettles s₁ hcall
    | error e s₁ =>
      simp only [hcall] at hends
      simp only [hends]
      exact h
  | start new refusals =>
    have hends := startWithDemoSession_ends new s.db refusals
    unfold Effect.wp at hends
    cases hstart : TuneRunRow.startWithDemoSession new ⟨s.db, refusals⟩ with
    | ok row s₁ =>
      simp only [hstart] at hends ⊢
      obtain ⟨r, hr, hkept⟩ := h.run
      exact ⟨⟨r, hends.2.runs.mem_old hr, hkept⟩, hends.2.owners ▸ h.owner⟩
    | error e s₁ =>
      simp only [hstart] at hends ⊢
      rw [hends]
      exact h
  | updateRun id update refusals hupdate =>
    rcases after_of_ends (updateRow_ends id update s.db) refusals with
      ⟨_, r, hid, hupdated⟩ | ⟨_, heq⟩
    · refine ⟨?_, hupdated.owners ▸ h.owner⟩
      apply h.replaced s.db.2.keyed hupdated.runs
      intro hevidence hfailed hopen
      obtain ⟨json, rfl⟩ := hupdate (hid.symm.trans (evidence_id hevidence))
      exact ⟨rfl, hfailed, hopen⟩
    · exact hsame heq
  | beginStep new refusals =>
    rcases after_of_ends (beginStep_ends new s.db) refusals with ⟨_, _, _, hunmoved, _⟩ | ⟨_, heq⟩
    · exact ⟨hunmoved.runs ▸ h.run, hunmoved.owners ▸ h.owner⟩
    · exact hsame heq
  | finishStep stepId status now readbackJson detail refusals _ =>
    rcases after_of_ends (finishStep_ends stepId status now readbackJson detail s.db) refusals with
      ⟨_, _, _, _, _, _, hunmoved, _⟩ | ⟨_, heq⟩
    · exact ⟨hunmoved.runs ▸ h.run, hunmoved.owners ▸ h.owner⟩
    · exact hsame heq
  | delete id refusals =>
    rcases after_of_ends (delete_ends id s.db) refusals with ⟨_, hdb⟩ | ⟨_, heq⟩
    · exact h.deleted hrun hdb
    · exact hsame heq
  | deleteMatching filter refusals =>
    rcases after_of_ends (deleteMatching_ends filter s.db) refusals with ⟨_, hdb⟩ | ⟨_, heq⟩
    · exact h.deleted hrun hdb
    · exact hsame heq

/-! ### The audited mutations -/

/-- The audit of the owner is in order: every write that counts can be read, and one of them may
have mutated the loop. -/
structure MutationsKept (parse : String → Option Json) (tags : LoopTags) (ownerId : ℕ)
    (t : Tables) : Prop where
  readable : ∀ x ∈ t.steps, x.ownerId = ownerId → x.counts = true → ∃ tag, x.Mutates parse tag
  seen : ∃ x ∈ t.steps, x.ownerId = ownerId ∧ ∃ tag ∈ tags.allowedTags, x.Mutates parse tag

section Mutations

variable {parse : String → Option Json}

theorem MutationsKept.deleted (h : MutationsKept parse run.tags owner.id s.db.1)
    (hkept : Kept run owner s.db.1) (hsteps : StepsOfRun s.db.1)
    (hrun : owner.runId = some run.id) {p : TuneRunRow → Bool}
    (hdb : s'.db.1 = s.db.1.deleteRuns fun r => p r && r.deletable) :
    MutationsKept parse run.tags owner.id s'.db.1 := by
  obtain ⟨r, hr, hevidence, _, hopen⟩ := hkept.run
  obtain ⟨o, ho, hsame, _⟩ := hkept.owner
  obtain ⟨hoid, horun, _⟩ := LiveOwnershipRow.identity_parts hsame.identity
  have hnot := not_gone_of_unresolved (p := p) s.db.2.keyed hr hopen
  rw [evidence_id hevidence] at hnot
  have hmem := mem_steps_deleteRuns s.db hsteps hnot
  rw [hdb]
  constructor
  · intro x hx
    exact h.readable x (mem_deleteWhere.mp hx).1
  · obtain ⟨x, hx, hxowner, hmutates⟩ := h.seen
    have hxrun : x.runId = some run.id := by
      rw [← hsteps x hx o ho (hoid.trans hxowner.symm), horun, hrun]
    exact ⟨x, hmem x hx hxrun, hxowner, hmutates⟩

/-- **The audit of the dead tune stays in order.**  Nobody is its owner any more, so no mutation is
added to it; one that was open is only ever ended. -/
theorem MutationsKept.step (h : MutationsKept parse run.tags owner.id s.db.1)
    (hkept : Kept run owner s.db.1) (inv : SystemInv s) (hsteps : StepsOfRun s.db.1)
    (hrun : owner.runId = some run.id) (hstep : RecoveryStep run.id s s') :
    MutationsKept parse run.tags owner.id s'.db.1 := by
  have hsame : s'.db.1.steps = s.db.1.steps → MutationsKept parse run.tags owner.id s'.db.1 :=
    fun heq => ⟨heq ▸ h.readable, heq ▸ h.seen⟩
  cases hstep with
  | live call hpass refusals _ =>
    rcases after_of_ends (call.ends s hpass inv.unowned) refusals with ⟨_, hmoved⟩ | ⟨_, heq⟩
    · exact hsame hmoved.2
    · exact hsame (congrArg (·.1.steps) heq)
  | start new refusals =>
    have hends := startWithDemoSession_ends new s.db refusals
    unfold Effect.wp at hends
    cases hstart : TuneRunRow.startWithDemoSession new ⟨s.db, refusals⟩ with
    | ok row s₁ =>
      simp only [hstart] at hends hsame ⊢
      exact hsame hends.2.steps
    | error e s₁ =>
      simp only [hstart] at hends hsame ⊢
      exact hsame (congrArg (·.1.steps) hends)
  | updateRun id update refusals _ =>
    rcases after_of_ends (updateRow_ends id update s.db) refusals with ⟨_, _, _, h'⟩ | ⟨_, heq⟩
    · exact hsame h'.steps
    · exact hsame (congrArg (·.1.steps) heq)
  | beginStep new refusals =>
    rcases after_of_ends (beginStep_ends new s.db) refusals with
      ⟨row, rfl, hmay, _, hinserted⟩ | ⟨_, heq⟩
    · obtain ⟨x, hx, hseen⟩ := h.seen
      refine ⟨?_, x, hinserted.mem_old hx, hseen⟩
      intro x hx hxowner
      rcases (hinserted x).mp hx with rfl | hx
      · obtain ⟨⟨w, hw, hwid, _, hactive⟩, _⟩ := mayMutate_iff.mp hmay
        obtain ⟨o, ho, hsame', hrecoverable⟩ := hkept.owner
        refine absurd ?_ (recoverable_ne s.db.2.keyed ho hw hrecoverable hactive)
        rw [(LiveOwnershipRow.identity_parts hsame'.identity).1, hwid]
        exact hxowner.symm
      · exact h.readable x hx hxowner
    · exact hsame (congrArg (·.1.steps) heq)
  | finishStep stepId status now readbackJson detail refusals hended =>
    rcases after_of_ends (finishStep_ends stepId status now readbackJson detail s.db) refusals with
      ⟨row, y, _, hintent, _, rfl, _, hreplaced⟩ | ⟨_, heq⟩
    · have hmutates : ∀ tag, LiveMutationStepRow.Mutates parse tag { y with
          status := status
          completedAt := some now
          readbackJson := readbackJson
          detail := detail } ↔ y.Mutates parse tag := by
        intro tag
        rcases hended with rfl | rfl <;>
          simp [LiveMutationStepRow.Mutates, LiveMutationStepRow.counts, hintent]
      have hcounts : y.counts = true ↔ y.step = "controller_write" := by
        simp [LiveMutationStepRow.counts, hintent]
      constructor
      · intro x hx hxowner hxcounts
        rcases (hreplaced.mem x).mp hx with rfl | ⟨hx, _⟩
        · obtain ⟨tag, htag⟩ := h.readable y hreplaced.was hxowner
            (hcounts.mpr (by simp [LiveMutationStepRow.counts] at hxcounts; exact hxcounts.1))
          exact ⟨tag, (hmutates tag).mpr htag⟩
        · exact h.readable x hx hxowner hxcounts
      · obtain ⟨x, hx, hxowner, tag, htag, hxmutates⟩ := h.seen
        by_cases hid : x.id = y.id
        · obtain rfl := s.db.2.steps.primaryKey.eq hx hreplaced.was hid
          exact ⟨_, hreplaced.mem_new, hxowner, tag, htag, (hmutates tag).mpr hxmutates⟩
        · exact ⟨x, hreplaced.mem_other hx hid, hxowner, tag, htag, hxmutates⟩
    · exact hsame (congrArg (·.1.steps) heq)
  | delete id refusals =>
    rcases after_of_ends (delete_ends id s.db) refusals with ⟨_, hdb⟩ | ⟨_, heq⟩
    · exact h.deleted hkept hsteps hrun hdb
    · exact hsame (congrArg (·.1.steps) heq)
  | deleteMatching filter refusals =>
    rcases after_of_ends (deleteMatching_ends filter s.db) refusals with ⟨_, hdb⟩ | ⟨_, heq⟩
    · exact h.deleted hkept hsteps hrun hdb
    · exact hsame (congrArg (·.1.steps) heq)

end Mutations

end Steps

/-! ### The sweep -/

section Sweep

variable {parse : String → Option Json} {run : TuneRunRow} {owner : LiveOwnershipRow}

/-- The sweep answers by what `mark_orphaned` answers. -/
theorem markTuneOrphan_ends {R : Bool → Db → Prop} {E : DbError → Db → Prop} {eligible : Bool}
    {d : Db} (h : ∀ update : LiveOwnershipRow.OrphanOwnerUpdate, update.ownerId = owner.id →
      update.eligible = eligible → Ends (LiveOwnershipRow.markOrphaned update) R E d)
    (recordedClaimKey : ClaimKey) (now : UtcTime) (evidenceJson : String) :
    Ends (markTuneOrphan owner recordedClaimKey now evidenceJson eligible)
      (fun marked d' => (marked = none → R false d') ∧
        ∀ e, marked = some e → e = eligible ∧ R true d') E d := by
  unfold markTuneOrphan
  refine ends_seq (h _ rfl rfl) ?_
  intro marked d' hmarked
  refine ends_pure ?_
  cases marked with
  | false => exact ⟨fun _ => hmarked, fun e he => by cases he⟩
  | true =>
    refine ⟨fun hnone => ?_, ?_⟩
    · cases hnone
    · rintro e ⟨⟩
      exact ⟨rfl, hmarked⟩

/-- The sweep marks a tune eligible only with complete evidence, and orphans its owner. -/
theorem markStaleTuneOrphan_ends (recordedClaimKey : ClaimKey) (now : UtcTime)
    (evidence : Bool → Text → String) (d : Db) :
    Ends (markStaleTuneOrphan parse run owner recordedClaimKey now evidence)
      (fun eligible d' => eligible = some true →
        (orphanEligibility parse run owner (d.1.stepsOfRun run.id)).1 = true ∧
        ∃ o o', o.id = owner.id ∧ Orphaned o o' d.1 d'.1)
      (fun _ _ => True) d := by
  unfold markStaleTuneOrphan
  refine ends_seq (M := fun rows d' => d' = d ∧ rows = d.1.stepsOfRun run.id)
    (ends_query trivial ⟨rfl, rfl⟩) ?_
  rintro rows d' ⟨hsame, rfl⟩
  rw [hsame]
  dsimp only
  refine ends_mono (markTuneOrphan_ends (R := fun marked d' => marked = true → ∃ o o',
    o.id = owner.id ∧ if (orphanEligibility parse run owner (d.1.stepsOfRun run.id)).1 = true then
      Orphaned o o' d.1 d'.1 else Retired o o' d.1 d'.1) (E := fun _ _ => True) ?_ _ _ _) ?_
      fun _ _ h => h
  · intro update hid heligible
    refine ends_mono (markOrphaned_ends update _) ?_ fun _ _ _ => trivial
    rintro marked d' hmarked rfl
    obtain ⟨o, o', ho, _, hmove⟩ := hmarked
    rw [heligible] at hmove
    exact ⟨o, o', ho.trans hid, hmove⟩
  · rintro marked d' ⟨_, hmarked⟩ rfl
    obtain ⟨heligible, hmove⟩ := hmarked true rfl
    obtain ⟨o, o', hid, hmove⟩ := hmove rfl
    rw [if_pos heligible.symm] at hmove
    exact ⟨heligible.symm, o, o', hid, hmove⟩

/-- Complete evidence among the steps of a run is complete evidence among those of its owner. -/
theorem orphanEligibility_owner {t : Tables} (hsteps : StepsOfRun t) (howner : owner ∈ t.owners)
    (hrun : owner.runId = some run.id) :
    (orphanEligibility parse run owner (t.stepsOfRun run.id)).1 = true ↔
      (recoveryEligibility parse run owner (t.stepsOfOwner owner.id)).1 = true ∧
        run.recordedResource = some owner.resourceKey := by
  have hmem : ∀ x, x ∈ (t.stepsOfRun run.id).filter (fun x => x.ownerId = owner.id) ↔
      x ∈ t.stepsOfOwner owner.id := by
    intro x
    unfold Tables.stepsOfRun Tables.stepsOfOwner
    simp only [List.mem_filter, mem_orderedBy, decide_eq_true_eq]
    constructor
    · rintro ⟨⟨hx, _⟩, hxo⟩
      exact ⟨hx, hxo⟩
    · rintro ⟨hx, hxo⟩
      refine ⟨⟨hx, ?_⟩, hxo⟩
      rw [← hsteps x hx owner howner hxo.symm, hrun]
  rw [orphanEligibility_iff, recoveryEligibility_congr run owner hmem]

/-- What the sweep finds of a tune that it marks eligible, and what it leaves behind. -/
theorem eligible_of_orphaned {s : LiveSystem} (inv : SystemInv s) (hsteps : StepsOfRun s.db.1)
    (hrun : run ∈ s.db.1.runs) (howner : owner ∈ s.db.1.owners) {o o' : LiveOwnershipRow} {d' : Db}
    (heligible : (orphanEligibility parse run owner (s.db.1.stepsOfRun run.id)).1 = true)
    (hid : o.id = owner.id) (hmove : Orphaned o o' s.db.1 d'.1) :
    (run.driver = .opcda ∧ owner.operationKind = .tune ∧ owner.runId = some run.id ∧
      evidenceFault parse run owner.restoreIntentJson = none) ∧
    SystemInv ⟨d', s.unowned⟩ ∧ StepsOfRun d'.1 ∧ Kept run owner d'.1 ∧
      MutationsKept parse run.tags owner.id d'.1 := by
  have hcomplete := ((orphanEligibility_iff parse run owner _).mp heligible).1
  obtain ⟨hprovenance, hevidence, _⟩ := (recoveryEligibility_iff run owner _).mp hcomplete
  obtain rfl := s.db.2.keyed.owner o hmove.owners.was owner howner hid
  simp only [provenance, Bool.and_eq_true, decide_eq_true_eq] at hprovenance
  obtain ⟨⟨⟨hdriver, _⟩, htune⟩, hownerRun⟩ := hprovenance
  obtain ⟨r, r', hr, _, hfailed, hstate, hkept, hruns⟩ := hmove.runs
  have hrid : r = run := by
    apply s.db.2.keyed.run r hruns.was run hrun
    rw [hownerRun] at hr
    exact (Option.some.inj hr).symm
  rw [hrid] at hkept
  refine ⟨⟨hdriver, htune, hownerRun, hevidence⟩, ?_, ?_, ?_, ?_⟩
  · exact inv.moved (.inl ⟨fun _ => False, .orphaned o o' hmove⟩) (fun id hid => .inl hid)
  · intro x hx y hy hyid
    rw [hmove.steps] at hx
    rcases (hmove.owners.mem y).mp hy with rfl | ⟨hy, _⟩
    · obtain ⟨hyid', hyrun, _⟩ := LiveOwnershipRow.identity_parts hmove.record.identity
      rw [hyrun]
      exact hsteps x hx o hmove.owners.was (hyid'.symm.trans hyid)
    · exact hsteps x hx y hy hyid
  · exact ⟨⟨r', hruns.mem_new, hkept, hfailed, .inl (by rw [hstate]; trivial)⟩,
      o', hmove.owners.mem_new, hmove.record, hmove.recoverable⟩
  · have hmem : ∀ x, x ∈ s.db.1.stepsOfOwner o.id ↔ x ∈ s.db.1.steps ∧ x.ownerId = o.id := by
      intro x
      simp [Tables.stepsOfOwner]
    obtain ⟨_, _, haudit⟩ := (recoveryEligibility_iff run o _).mp
      ((orphanEligibility_owner hsteps howner hownerRun).mp heligible).1
    obtain ⟨hreadable, hseen⟩ := (auditFault_iff run.tags false _).mp haudit
    constructor
    · intro x hx hxo
      rw [hmove.steps] at hx
      exact hreadable x ((hmem x).mpr ⟨hx, hxo⟩)
    · rcases hseen with hfalse | ⟨x, hx, hseen⟩
      · cases hfalse
      · obtain ⟨hx, hxo⟩ := (hmem x).mp hx
        exact ⟨x, hmove.steps ▸ hx, hxo, hseen⟩

/-- What `restore-loop` looks up and checks is accepted: the run `run`, with its orphan, the intent
and the claim that the dead tune had. -/
def Accepted (parse : String → Option Json) (run : TuneRunRow) (owner : LiveOwnershipRow)
    (t : Tables) : Prop :=
  ∃ r o, t.loadRecoveryRun run.id = .ok r ∧ t.recoverySourceOwner r = .ok o ∧
    validateRecoveryRun parse r o (t.stepsOfOwner o.id) = .ok () ∧
    o.restoreIntentJson = owner.restoreIntentJson ∧ o.claimKey = owner.claimKey ∧
    ∃ c ∈ t.claims, c.ownerId = o.id ∧ c.claimKey = owner.claimKey

/-- A run with its evidence is accepted while no attempt is running on it. -/
theorem accepted_of_kept {t : Tables} (ht : Constraints t) (inv : OwnershipInv t)
    (hdriver : run.driver = .opcda) (htune : owner.operationKind = .tune)
    (hrun : owner.runId = some run.id)
    (hevidence : evidenceFault parse run owner.restoreIntentJson = none)
    (hkept : Kept run owner t) (hmutations : MutationsKept parse run.tags owner.id t)
    (hidle : ∀ a ∈ t.attempts, a.runId = run.id → a.status ≠ .running) :
    Accepted parse run owner t := by
  obtain ⟨r, hr, hsame, hfailed, hopen⟩ := hkept.run
  have hid : r.id = run.id := evidence_id hsame
  have hmay : TuneRecoveryState.mayStart r.recoveryState := by
    rcases hopen with hmay | hrunning
    · exact hmay
    · obtain ⟨a, ha, harun, hastatus⟩ := inv.recovering r hr hrunning
      exact absurd hastatus (hidle a ha (harun.trans hid))
  have hstate : r.recoveryState = some .eligible ∨ r.recoveryState = some .incomplete := by
    revert hmay
    cases r.recoveryState with
    | none => exact fun h => h.elim
    | some state => cases state <;> simp [TuneRecoveryState.mayStart]
  have hrdriver : r.driver = .opcda := by
    rw [← hdriver]
    show r.evidence.driver = run.evidence.driver
    rw [hsame]
  have hrtags : r.tags = run.tags := by
    show r.evidence.tags = run.evidence.tags
    rw [hsame]
  obtain ⟨o, ho, hrecord, hrecoverable⟩ := hkept.owner
  obtain ⟨hoid, horun, hokind, hokey⟩ := LiveOwnershipRow.identity_parts hrecord.identity
  obtain ⟨hostate, hoeligible⟩ := not_active_of_recoverable hrecoverable
  have hsource : o.eligibleSource r.id = true := by
    simp [LiveOwnershipRow.eligibleSource, hokind, htune, horun, hrun, hid, hostate, hoeligible]
  obtain ⟨x, hx, hxrun, hxrecoverable, c, hc, hcx⟩ := inv.waiting r hr hmay
  have hxo : x = o := by
    apply ht.keyed.owner x hx o ho
    apply inv.oneTune x hx o ho (inv.orphan x hx hxrecoverable).1 (hokind.trans htune)
    rw [hxrun, horun, hrun, hid]
  rw [hxo] at hcx
  refine ⟨r, o, ?_, ?_, ?_, hrecord.intent, hokey, c, hc, hcx, ?_⟩
  · have hfind := find?_eq_some_of_key ht.runs.primaryKey hr
    rw [hid] at hfind
    unfold Tables.loadRecoveryRun
    simp only [hfind, hrdriver, hfailed]
    simp [hstate]
  · have hfilter := filter_eq_singleton (p := LiveOwnershipRow.eligibleSource r.id)
      ht.owners.primaryKey ho hsource ?_
    · unfold Tables.recoverySourceOwner
      rw [hfilter]
    · intro y hy hp
      simp only [LiveOwnershipRow.eligibleSource, Bool.and_eq_true, decide_eq_true_eq] at hp
      apply ht.keyed.owner y hy o ho
      apply inv.oneTune y hy o ho hp.1.1.1 (hokind.trans htune)
      rw [hp.1.1.2, horun, hrun, hid]
  · have heligible : (recoveryEligibility parse r o (t.stepsOfOwner o.id)).1 = true := by
      rw [recoveryEligibility_iff]
      refine ⟨?_, ?_, ?_⟩
      · simp [provenance, hrdriver, hfailed, hstate, hokind, htune, horun, hrun, hid]
      · rw [hrecord.intent]
        show evidenceFault parse r.evidence owner.restoreIntentJson = none
        rw [hsame]
        exact hevidence
      · rw [auditFault_iff, hrtags]
        have hmem : ∀ x, x ∈ t.stepsOfOwner o.id ↔ x ∈ t.steps ∧ x.ownerId = owner.id := by
          intro x
          simp [Tables.stepsOfOwner, hoid]
        constructor
        · intro x hx
          obtain ⟨hx, hxo⟩ := (hmem x).mp hx
          exact hmutations.readable x hx hxo
        · obtain ⟨x, hx, hxo, hseen⟩ := hmutations.seen
          exact .inr ⟨x, (hmem x).mpr ⟨hx, hxo⟩, hseen⟩
    unfold validateRecoveryRun
    rw [hsource]
    cases hresult : recoveryEligibility parse r o (t.stepsOfOwner o.id) with
    | mk eligible detail =>
      rw [hresult] at heligible
      rw [show eligible = true from heligible]
      rfl
  · rw [inv.claimKey_eq ht.keyed hc ho hcx, hokey]

/-- **A recovery can be tried again.**  After any steps from the moment the sweep has marked a
dead tune eligible, whenever no attempt is running on the run, it is accepted. -/
theorem recovery_retryable {s s' : LiveSystem} (h : Reach s) (hrun : run ∈ s.db.1.runs)
    (howner : owner ∈ s.db.1.owners) {recordedClaimKey : ClaimKey} {now : UtcTime}
    {evidence : Bool → Text → String} {refusals : List Bool} {s₁ : Session Constraints}
    (hmark : markStaleTuneOrphan parse run owner recordedClaimKey now evidence ⟨s.db, refusals⟩ =
      .ok (some true) s₁)
    (hlater : Relation.ReflTransGen (RecoveryStep run.id) ⟨s₁.store, s.unowned⟩ s')
    (hidle : ∀ a ∈ s'.db.1.attempts, a.runId = run.id → a.status ≠ .running) :
    Accepted parse run owner s'.db.1 := by
  have hends := @markStaleTuneOrphan_ends parse run owner recordedClaimKey now evidence s.db
    refusals
  unfold Effect.wp at hends
  rw [hmark] at hends
  obtain ⟨heligible, o, o', hid, hmove⟩ := hends rfl
  obtain ⟨⟨hdriver, htune, hownerRun, hevidence⟩, hinv, hsteps, hkept, hmutations⟩ :=
    eligible_of_orphaned (reach_inv h) (reach_stepsOfRun h) hrun howner heligible hid hmove
  suffices hall : SystemInv s' ∧ StepsOfRun s'.db.1 ∧ Kept run owner s'.db.1 ∧
      MutationsKept parse run.tags owner.id s'.db.1 from
    accepted_of_kept s'.db.2 hall.1.ownership hdriver htune hownerRun hevidence hall.2.2.1
      hall.2.2.2 hidle
  clear hidle
  induction hlater with
  | refl => exact ⟨hinv, hsteps, hkept, hmutations⟩
  | tail _ hstep ih =>
    obtain ⟨hinv, hsteps, hkept, hmutations⟩ := ih
    exact ⟨hinv.step hstep.step, hsteps.step hinv hstep.step, hkept.step hinv hownerRun hstep,
      hmutations.step hkept hinv hsteps hownerRun hstep⟩

end Sweep

/-! ### The loop FC1 -/

/-- The text of the restore intent of run 1 on FC1. -/
def flowIntentText : String :=
  "\x7b\"initial_readings\":\x7b\"controller_direction\":\"reverse\"," ++
    "\"mode_attribute_raw\":null,\"mode_raw\":\"AUTO\",\"mv_ini\":50.0,\"mv_range_high\":100.0," ++
    "\"mv_range_low\":0.0,\"pv_ini\":50.0,\"pv_range_high\":100.0,\"pv_range_low\":0.0," ++
    "\"setpoint_ini\":null\x7d,\"kind\":\"tune_restore\",\"mv_tag\":\"FC1.MV\",\"run_id\":1," ++
    "\"state\":\"ready_to_restore\",\"template_policy\":\x7b\"mode_attribute_program_value\":null," ++
    "\"mode_auto_value\":\"AUTO\",\"mode_manual_value\":\"MAN\",\"revert_mode\":true\x7d," ++
    "\"version\":1\x7d"

/-- The text of the target of the Manual write on FC1. -/
def flowTargetText : String := "\x7b\"tag\":\"FC1.MODE\",\"value\":\"MAN\"\x7d"

/-- The two texts, read. -/
def flowParse (s : String) : Option Json :=
  if s = flowIntentText then some ((tuneRestoreIntent flowContext flowInitial).json 1)
  else if s = flowTargetText then some (TagWrite.target "FC1.MODE" (.raw "MAN"))
  else none

/-- The run of FC1 with what its tune recorded. -/
def flowRecordedRun : TuneRunRow :=
  { flowRun.row 1 with
    opcServer := some "OPC.Server"
    bridgeHost := some "GW"
    effectiveTuning := some ⟨0, 800, 3600, 30, 30⟩
    initialReadings := some flowInitial.recorded }

/-- The owner of FC1 with the intent it stored. -/
def flowRecordedOwner : LiveOwnershipRow :=
  { (flowOwner .tune).row 1 with restoreIntentJson := some flowIntentText }

/-- A system after an update of run 1. -/
def LiveSystem.update (s : LiveSystem) (u : RunUpdate) : LiveSystem :=
  ⟨after (TuneRunRow.updateRow 1 u) s.db [], s.unowned⟩

/-- The audited Manual write of FC1. -/
def flowManualStep : NewLiveMutationStep where
  ownerId := 1
  runId := some 1
  step := "controller_write"
  targetJson := flowTargetText
  previousJson := none
  startedAt := 0

/-- The tune of FC1 recorded its evidence and died in its Manual write. -/
def deadSystem : LiveSystem :=
  let recorded := (((tuningSystem.update (.connection (some "OPC.Server") (some "GW"))).update
    (.effectiveTuning ⟨0, 800, 3600, 30, 30⟩)).update (.initialReadings flowInitial.recorded)).call
      (.setRestoreIntent 1 flowIntentText)
  ⟨after (LiveMutationStepRow.begin flowManualStep) recorded.db [], recorded.unowned⟩

theorem reach_dead : Reach deadSystem :=
  ((((reach_tuning.step (.updateRun 1 (.connection (some "OPC.Server") (some "GW")) [])).step
    (.updateRun 1 (.effectiveTuning ⟨0, 800, 3600, 30, 30⟩) [])).step
      (.updateRun 1 (.initialReadings flowInitial.recorded) [])).step
        (.live (.setRestoreIntent 1 flowIntentText) trivial [])).step (.beginStep flowManualStep [])

/-- The sweep of the dead tune. -/
def flowSweep : DbM (Option Bool) :=
  markStaleTuneOrphan flowParse flowRecordedRun flowRecordedOwner flowClaimKey 60 fun _ _ => "{}"

/-- A recovery is started, and it fails to reach the gateway. -/
def failedRecovery (d : Db) : LiveSystem :=
  ((⟨d, []⟩ : LiveSystem).call
    (.startWithClaim (flowOwner .recovery) flowClaimKey 1 1 "export.json" "{}")).call
      (.completeWithOwnership ⟨1, 2, 1, 1, flowClaimKey, .failed, 90, some "unreachable", "{}"⟩)

/-- The run of FC1 is marked eligible, and accepted again after a recovery that failed. -/
theorem recovery_retryable_flow :
    ∃ s₁, flowSweep ⟨deadSystem.db, []⟩ = .ok (some true) s₁ ∧
      Accepted flowParse flowRecordedRun flowRecordedOwner (failedRecovery s₁.store).db.1 := by
  have hrun : flowRecordedRun ∈ deadSystem.db.1.runs := by decide +kernel
  have howner : flowRecordedOwner ∈ deadSystem.db.1.owners := by decide +kernel
  have hunowned : deadSystem.unowned = [] := by decide
  have hmarked : answer flowSweep deadSystem.db [] = some (some true) := by decide +kernel
  have hidle : ∀ a ∈ (failedRecovery (after flowSweep deadSystem.db [])).db.1.attempts,
      a.runId = 1 → a.status ≠ .running := by decide +kernel
  revert hidle
  unfold Bhtune.after
  unfold answer at hmarked
  cases hsweep : flowSweep ⟨deadSystem.db, []⟩ with
  | error e s₁ =>
    rw [hsweep] at hmarked
    cases hmarked
  | ok marked s₁ =>
    rw [hsweep] at hmarked
    cases hmarked
    intro hidle
    refine ⟨s₁, rfl, recovery_retryable reach_dead hrun howner hsweep ?_ hidle⟩
    rw [hunowned]
    exact (Relation.ReflTransGen.single (.live (.startWithClaim (flowOwner .recovery) flowClaimKey
      1 1 "export.json" "{}") trivial [] (fun h => h.elim))).tail (.live (.completeWithOwnership
        ⟨1, 2, 1, 1, flowClaimKey, .failed, 90, some "unreachable", "{}"⟩) trivial []
          (fun h => by cases h.1))

end Bhtune
