import Bhtune.Runtime.InterruptDiscipline
import Bhtune.Runtime.PollTimeout
import Bhtune.Runtime.VerificationSchedule

/-!
# Verification in every run

The polling loop and the MV step of a restore are the two places that verify a pending command.
Both keep its schedule, and neither ever misses what the verification path takes for granted.

* `pollRead_evidence` — a poll that goes on with a command pending brought evidence of it;
* `schedules_pollTurn`, `schedules_restoreMv` — one turn of the loop, and the restore;
* `scheduling_executeMutating` — the part of a run that mutates the loop;
* `verification_scheduling` — what holds at every verification of every run.
-/

namespace Bhtune

open Effect EventLog

section Schedule

variable {α β : Type} {s s' : Sys} {pending : PendingMvActuation}

/-! ### The read of a poll -/

theorem schedules_resolvePoll (h : s.pending = some pending) (ctx : RunContext)
    (values : TickOperation (List TagValue)) (checkedAt : UtcTime) (checkedInstant : Instant) :
    Schedules (resolvePendingMvPoll ctx values checkedAt checkedInstant) s := by
  refine .seq (schedules_resolveRead h ctx _ ?_ _ _) (resolvePendingMvRead_spec _ _ _ _ _)
    fun r s' hr => ?_
  · intro e he
    cases values with
    | completed values =>
      dsimp only at he
      cases hread : readNumericFromBatch values ctx.tags.manipulatedVariable with
      | ok sample =>
        rw [hread] at he
        cases he
      | error e' =>
        rw [hread] at he
        cases he
        exact sample_external _ _ _ hread
    | cancelled => cases he
    | timedOut => cases he
  · cases r with
    | abort reason => exact .pure _
    | value value =>
      obtain ⟨rfl, _⟩ := hr value rfl
      exact .next (schedules_finalizeVerification h _ _ _ _) fun _ _ => .pure _

/-- A poll that was given up has an abort reason. -/
theorem resolvePoll_abandoned (ctx : RunContext) {values : TickOperation (List TagValue)}
    (h : ∀ list, values ≠ .completed list) (checkedAt : UtcTime) (checkedInstant : Instant) :
    wlp (resolvePendingMvPoll ctx values checkedAt checkedInstant)
      (fun r _ => r.1.isSome = true) s := by
  refine wlp_seq (resolvePendingMvRead_spec _ _ _ _ _) fun r s' hr => ?_
  cases r with
  | abort reason => exact rfl
  | value value =>
    obtain ⟨_, _, q, hoperation, _⟩ := hr value rfl
    cases values with
    | completed list => exact absurd rfl (h list)
    | cancelled => cases hoperation
    | timedOut => cases hoperation

theorem schedules_abandoned (ctx : RunContext) {values : TickOperation (List TagValue)}
    (h : ∀ list, values ≠ .completed list) (message : String) (otherwise : AbortReason) :
    Schedules (abandonedPollRead ctx values message otherwise) s := by
  refine .getPending ?_
  cases hpending : s.pending with
  | none => exact .pure _
  | some pending =>
    refine .now (.seq (schedules_checkedAt _)
      ((keeps_checkedAtForPending _ _ : Keeps auditing _).and_wlp (wlp_true _)) fun _ s' hs' => ?_)
    refine .seq (schedules_resolvePoll ((pending_of_rel hs'.1).trans hpending) ctx values _ _)
      (resolvePoll_abandoned ctx h _ _) fun r s'' hr => ?_
    obtain ⟨reason, hreason⟩ := Option.isSome_iff_exists.mp hr
    exact .required hreason _ (.pure _)

/-- The frame of the read of a poll. -/
theorem audit_readPollBatch (ctx : RunContext) (mvTag : Option String) :
    Keeps auditing
      (readPollBatch ctx.effectiveTiming.opTimeoutSecs ctx.tags.processVariable mvTag) :=
  keeps_readPollBatch (fun _ => trivial) _ _ _

theorem schedules_pollRead (ctx : RunContext) : Schedules (pollRead ctx) s := by
  have hbatch : ∀ mvTag, Schedules
      (readPollBatch ctx.effectiveTiming.opTimeoutSecs ctx.tags.processVariable mvTag) s :=
    fun _ => .of_keeps (scheduling_of_recording (keeps_readPollBatch (fun _ => trivial) _ _ _))
      (failsOutside_bounded (failsOutside_boundedRead _ _ _ _))
  have hsample : ∀ values reason evidence s', Schedules
      (liftResult (readNumericFromBatch values ctx.tags.processVariable) >>= fun x =>
        pure (PollRead.sample x.1 x.2 evidence reason)) s' := fun _ _ _ _ =>
    .next (.of_keeps (keeps_liftResult _)
      (failsOutside_liftResult _ fun _ h => sample_external _ _ _ h)) fun _ _ => .pure _
  refine .getPending (.seq (hbatch _) ((audit_readPollBatch ctx _).and_wlp (wlp_true _))
    fun r s' hs' => ?_)
  cases r with
  | cancelled => exact schedules_abandoned ctx (by intro _; nofun) _ _
  | timedOut => exact schedules_abandoned ctx (by intro _; nofun) _ _
  | completed values =>
    refine .now ?_
    cases hpending : s.pending with
    | none => exact hsample _ _ _ _
    | some pending =>
      have hpending' : s'.pending = some pending := (pending_of_rel hs'.1).trans hpending
      refine .getPending (.required hpending' _ (.seq (schedules_checkedAt _)
        ((keeps_checkedAtForPending _ _ : Keeps auditing _).and_wlp (wlp_true _))
        fun _ s₂ hs₂ => ?_))
      exact .next (schedules_resolvePoll ((pending_of_rel hs₂.1).trans hpending') ctx _ _ _)
        fun _ _ => hsample _ _ _ _

/-- **A poll that goes on with a command pending brought evidence of it.** -/
theorem pollRead_evidence (ctx : RunContext) :
    wlp (pollRead ctx) (fun r s' => ∀ pv quality evidence,
      r = .sample pv quality evidence none → s'.pending.isSome = true → evidence = true) s := by
  have hsample : ∀ values reason evidence (s' : Sys),
      (reason = none → s'.pending.isSome = true → evidence = true) →
      wlp (liftResult (readNumericFromBatch values ctx.tags.processVariable) >>= fun x =>
          pure (PollRead.sample x.1 x.2 evidence reason))
        (fun r s' => ∀ pv quality evidence, r = .sample pv quality evidence none →
          s'.pending.isSome = true → evidence = true) s' := by
    intro values reason evidence s' h
    refine wp_bind.mpr ((wlp_liftResult _).mpr fun sample _ => ?_)
    rintro pv quality evidence' ⟨⟩
    exact h rfl
  refine wp_bind.mpr (wp_getPending.mpr ((audit_readPollBatch ctx _).wlp_seq fun r s' hrel => ?_))
  cases r with
  | cancelled =>
    exact wlp_mono (abandonedPollRead_aborts _ _ _) (by rintro _ _ ⟨reason, rfl⟩; exact nofun)
  | timedOut =>
    exact wlp_mono (abandonedPollRead_aborts _ _ _) (by rintro _ _ ⟨reason, rfl⟩; exact nofun)
  | completed values =>
    refine wp_bind.mpr (wp_now.mpr ?_)
    cases hpending : s.pending with
    | none =>
      refine hsample values none false s' fun _ hsome => ?_
      rw [pending_of_rel hrel, hpending] at hsome
      cases hsome
    | some pending =>
      have hpending' : s'.pending = some pending := (pending_of_rel hrel).trans hpending
      refine wp_bind.mpr (wp_getPending.mpr (wp_bind.mpr ((wlp_requireInvariant _ _).mpr
        fun held _ => ?_)))
      refine (keeps_checkedAtForPending _ _ : Keeps auditing _).wlp_seq fun checkedAt s₂ hrel₂ => ?_
      refine wlp_seq (resolvePendingMvPoll_spec ctx ((pending_of_rel hrel₂).trans hpending') _ _ _)
        fun result s₃ hresult => ?_
      exact hsample values result.1 result.2 s₃ fun hnone _ => (hresult hnone).1

/-! ### The tick -/

theorem schedules_statement (op : DbOp) : Schedules (runStatement op) s :=
  .of_keeps (scheduling_of_recording (keeps_runStatement fun _ => trivial))
    (failsOutside_runStatement _)

theorem schedules_abort (tickIndex : ℕ) (tick : Tick ℚ) (state : MrftState ℚ)
    (quality : SampleQuality) (reason : AbortReason) :
    Schedules (abortWithSample tickIndex tick state quality reason) s :=
  .next (schedules_statement _) fun _ _ => .pure _

theorem schedules_reject (h : s.pending = some pending) (tag : String) :
    Schedules (rejectReplacementForPendingActuation tag) s := by
  refine schedules_take h _ fun _ => ?_
  dsimp only
  split
  · exact .next (schedules_finalize _ _) fun _ _ => .now (.pure _)
  · exact .next (schedules_finalize _ _) fun _ _ => .now (.pure _)

/-- Changing a variable other than the tracker. -/
theorem schedules_modifyProgram {f : Program → Program} (h : ∀ a, (f a).tracker = a.tracker) :
    Schedules (modifyProgram f) s :=
  .of_keeps (scheduling_of_recording (keeps_modifyProgram h)) trivial

/-- **The tick is evaluated without a panic** where a pending command comes with evidence. -/
theorem schedules_evaluateTick (ctx : RunContext) (tick : Tick ℚ) (providedMvEvidence : Bool)
    (hevidence : s.pending.isSome = true → providedMvEvidence = true) :
    Schedules (evaluateTick ctx tick providedMvEvidence) s := by
  intro hs
  unfold evaluateTick
  rw [wp_bind, wp_get, wp_bind, wp_getPending]
  generalize s.program.engine.step ctx.arith tick = result
  obtain ⟨preview, actions⟩ := result
  dsimp only
  rw [wp_bind, wp_mark]
  generalize hs₁ : ({ s with trace := s.trace ++
    [.mark (.evaluated s.program.engine tick s.pending actions)] } : Sys) = s₁
  have hscheduled : s₁.Scheduled := by
    rw [← hs₁]
    refine hs.append (.concat _ nofun) fun pending hpending => ⟨pending, hpending, rfl, rfl⟩
  by_cases hasks : s.pending.isSome = true ∧ actions.any Action.isWrite = true
  · obtain ⟨pending, hpending⟩ := Option.isSome_iff_exists.mp hasks.1
    have hpending₁ : s₁.pending = some pending := by
      rw [← hs₁]
      exact hpending
    rw [if_pos hasks, if_pos (hevidence hasks.1)]
    exact Schedules.next (schedules_reject hpending₁ _) (fun _ _ => .pure _) hscheduled
  · rw [if_neg hasks]
    have hcommit : Schedules (modifyProgram fun p => { p with engine := preview }) s₁ :=
      schedules_modifyProgram fun _ => rfl
    exact Schedules.next hcommit (fun _ _ => .pure _) hscheduled

/-- An accepted relay command is checked first by its deadline, however long noise protection
lasts. -/
theorem schedules_recordRelay (target : ℚ) (switchTick : UtcTime)
    (switchInstant firstCheckAt : Instant) (elapsedSinceObservation : ℕ)
    (acceptedInstant : Instant) (tolerance : ℚ) :
    Schedules (recordRelayActuation target switchTick switchInstant firstCheckAt
      elapsedSinceObservation acceptedInstant tolerance) s := by
  refine .next (.of_keeps (keeps_utcAfterElapsed _ _)
    (wp_seq (failsOutside_durationFromStd _ (externalError_of_fixed (by decide)))
      fun _ _ _ => trivial)) fun _ s₁ => ?_
  intro hs
  refine wp_bind.mpr (wp_get.mpr ?_)
  cases htracker : s₁.program.tracker with
  | none => exact ⟨hs, externalError_of_fixed (by decide)⟩
  | some tracker =>
    have hinsert : ∀ op s, Schedules (database op) s := fun _ _ =>
      .of_keeps (scheduling_of_recording (keeps_database fun _ => trivial))
        (failsOutside_database _)
    refine wp_bind.mpr (Schedules.next (hinsert _ _) (fun row s₂ hs₂ => ?_) hs)
    refine wp_bind.mpr ((wp_modifyTracker _).mpr ((wp_mark _).mpr ⟨?_, ?_⟩))
    · intro pending hpending
      obtain ⟨t', ht', hp⟩ := pending_eq_some.mp hpending
      obtain ⟨t, ht, rfl⟩ := Option.map_eq_some_iff.mp ht'
      cases hp
      exact min_le_right _ _
    · intro pending hmem
      rcases List.mem_append.mp hmem with hmem | hmem
      · exact hs₂.accepted pending hmem
      · cases List.mem_singleton.mp hmem
        exact min_le_right _ _

theorem schedules_performWriteMv (ctx : RunContext) (v : ℚ) (time : UtcTime)
    (observedInstant : Instant) : Schedules (performWriteMv ctx v time observedInstant) s := by
  have htolerance : Schedules (relayTolerance v) s := by
    refine .of_keeps (keeps_relayTolerance v) (wp_bind.mpr (wp_get.mpr ?_))
    cases s.program.tracker with
    | none => trivial
    | some tracker =>
      refine wp_seq (failsOutside_liftResult _ fun e he => ?_) fun _ _ _ => trivial
      unfold mvActuationTolerance at he
      dsimp only at he
      split at he
      · cases he
      · split at he
        · cases he
          exact externalError_of_pieces
        · cases he
  have hwrite : ∀ origin s, Schedules (bounded (boundedWrite none
      ctx.effectiveTiming.opTimeoutSecs origin ctx.tags.manipulatedVariable (.float v))) s :=
    fun origin s => .of_keeps (scheduling_of_within (p := Event.AcceptsNothing)
      (keeps_bounded (keeps_boundedWrite fun _ _ _ => nofun)) fun _ h => h)
      (failsOutside_bounded (failsOutside_boundedWrite _ _ _ _ _))
  refine .next htolerance fun tolerance s₁ =>
    .next (schedules_modifyProgram fun _ => rfl) fun _ s₂ => .getPending
      (.next (hwrite _ _) fun operation s₃ => ?_)
  unfold recordWriteMv
  split
  · exact .now (.next (schedules_recordRelay _ _ _ _ _ _ _) fun _ _ => .pure _)
  · exact .pure _

theorem schedules_engineState (ctx : RunContext) : Schedules (engineState ctx) s :=
  .of_keeps (keeps_engineState ctx) trivial

theorem schedules_performActions (ctx : RunContext) (time : UtcTime) (observedInstant : Instant)
    (stateBeforeStep : MrftState ℚ) (completion : Option (Action ℚ))
    (postDelayEnd : Option UtcTime) (actions : List (Action ℚ)) :
    Schedules (performActions ctx time observedInstant stateBeforeStep completion postDelayEnd
      actions) s := by
  induction actions generalizing s completion postDelayEnd with
  | nil => exact .pure _
  | cons action rest ih =>
    cases action with
    | complete peaks troughs switchTimes mvSignInit => exact ih _ _
    | writeMv v =>
      refine .next (schedules_performWriteMv ctx v time observedInstant) fun operation s' => ?_
      cases operation with
      | completed _ => exact ih _ _
      | cancelled => exact .pure _
      | timedOut => exact .next (schedules_engineState ctx) fun _ _ => .pure _

theorem schedules_evaluatedTick (ctx : RunContext) (ps : PollState) (tick : Tick ℚ)
    (observedInstant : Instant) (quality : SampleQuality) (providedMvEvidence : Bool)
    (hevidence : s.pending.isSome = true → providedMvEvidence = true) :
    Schedules (evaluatedTick ctx ps tick observedInstant quality providedMvEvidence) s := by
  refine fun hs => wp_bind.mpr ?_
  show wp (evaluateTick ctx tick providedMvEvidence >>= _) _ _ s
  refine Schedules.next (schedules_evaluateTick ctx tick _ hevidence) (fun r s₁ => ?_) hs
  cases r with
  | error reason => exact schedules_abort _ _ _ _ _
  | ok actions =>
    refine .next (schedules_performActions ctx _ _ _ _ _ _) fun performed s₂ => ?_
    cases performed with
    | aborted reason state => exact schedules_abort _ _ _ _ _
    | performed completion postDelayEnd =>
      refine .next (schedules_engineState ctx) fun _ _ =>
        .next (schedules_statement _) fun _ _ => ?_
      dsimp only
      split
      · refine .next (.of_keeps (keeps_requireInvariant _ _) ?_) fun _ _ =>
          .next (schedules_engineState ctx) fun _ _ => .pure _
        cases completion with
        | none => exact externalError_of_fixed (by decide)
        | some action => trivial
      · exact .pure _

theorem schedules_sampledTick (ctx : RunContext) (ps : PollState) (pv : ℚ) (quality : Quality)
    (evidence : Bool) (batchedAbort : Option AbortReason)
    (hevidence : batchedAbort = none → s.pending.isSome = true → evidence = true) :
    Schedules (sampledTick ctx ps pv quality evidence batchedAbort) s := by
  have hnext : Keeps recording nextTimestamp := keeps_nextTimestamp fun _ _ => rfl
  have hobserve : ∀ time, Keeps recording (observeTimestamp time) := fun time =>
    keeps_observeTimestamp (fun _ _ => rfl) time
  have hnextFails : FailsOutside nextTimestamp s := by
    refine wp_bind.mpr (wp_get.mpr ?_)
    cases s.program.tickTime with
    | liveMonotonic anchor =>
      refine wp_bind.mpr (wp_now.mpr ?_)
      split
      · exact externalError_of_fixed (by decide)
      · exact wp_seq (failsOutside_durationFromStd _ (externalError_of_fixed (by decide)))
          fun _ _ _ => trivial
    | fixedStep current step => trivial
  have hobserveFails : ∀ time s, FailsOutside (observeTimestamp time) s := by
    intro time s
    refine wp_bind.mpr (wp_get.mpr (wp_seq (failsOutside_liftResult _ fun e he => ?_)
      fun _ _ _ => trivial))
    unfold PollTimingAccumulator.observe at he
    split at he
    · cases he
    · dsimp only at he
      split at he
      · cases he
        exact externalError_of_fixed (by decide)
      · cases he
  refine .now (.seq (.of_keeps (scheduling_of_recording hnext) hnextFails)
    (hnext.and_wlp (wlp_true _)) fun time s₁ hs₁ => ?_)
  refine .seq (.of_keeps (scheduling_of_recording (hobserve time)) (hobserveFails time s₁))
    ((hobserve time).and_wlp (wlp_true _)) fun _ s₂ hs₂ => ?_
  have hpending : s₂.pending = s.pending := by
    have htracker : s₂.program.tracker = s.program.tracker := hs₂.1.2.2.trans hs₁.1.2.2
    unfold Sys.pending
    rw [htracker]
  dsimp only
  split
  · exact .next (schedules_engineState ctx) fun _ _ => schedules_abort _ _ _ _ _
  · exact .next (schedules_engineState ctx) fun _ _ => schedules_abort _ _ _ _ _
  · split
    · exact .next (schedules_engineState ctx) fun _ _ =>
        .next (schedules_statement _) fun _ _ => .pure _
    · exact schedules_evaluatedTick ctx _ _ _ _ _ (by rw [hpending]; exact hevidence rfl)

theorem schedules_pollTick (ctx : RunContext) (ps : PollState) : Schedules (pollTick ctx ps) s := by
  refine .now (.seq (schedules_pollRead ctx) (pollRead_evidence ctx) fun read s' hread => ?_)
  cases read with
  | aborted reason => exact .pure _
  | sample pv quality evidence batchedAbort =>
    refine schedules_sampledTick ctx _ _ _ _ _ ?_
    rintro rfl
    exact hread _ _ _ rfl

/-! ### The polling loop -/

/-- The branch of a verification is only taken when there is something to verify. -/
theorem schedules_verificationBranch (ctx : RunContext) (ps : PollState) {tracker : MvActuationTracker}
    {wakeup : Instant} (htracker : s.program.tracker = some tracker)
    (hwakeup : tracker.nextVerificationWakeup = some wakeup) (hdue : wakeup ≤ s.clock) :
    Schedules (verificationBranch ctx ps) s := by
  obtain ⟨pending, trigger, hpending, htrigger⟩ := verificationTrigger_of_wakeup hwakeup hdue
  have hsome : s.pending = some pending := pending_eq_some.mpr ⟨tracker, htracker, hpending⟩
  refine .now (.getPending (.required (x := s.pending.bind (verificationTrigger · s.clock))
    (by rw [hsome]; exact htrigger) _ (.next (schedules_verify ctx _ _ _ _) fun r _ => ?_)))
  cases r with
  | none => exact .pure _
  | some reason => exact .pure _

/-- **One turn of the loop.** -/
theorem schedules_pollTurn (ctx : RunContext) (timeoutAt : Instant) (ps : PollState) :
    Schedules (pollTurn ctx timeoutAt ps) s := by
  have hselect : ∀ branches : List (PollBranch × Option Instant),
      Schedules (selectBiased branches) s := by
    intro branches
    refine .of_keeps (scheduling_of_recording (keeps_selectBiased _)) ?_
    refine wp_seq (wp_mono (wake_spec _) (fun _ _ _ => trivial) ?_) fun _ s' _ => ?_
    · rintro f s' ⟨rfl, _⟩
      trivial
    · refine wp_bind.mpr (wp_now.mpr ?_)
      cases chooseReady s'.clock 0 branches <;> trivial
  refine fun hs => wp_bind.mpr (wp_get.mpr (Schedules.seq (hselect _) (selectBiased_ready _ s) ?_ hs))
  rintro branch s' ⟨hs', ready, hmem, hready⟩
  cases branch with
  | verification =>
    simp only [List.mem_cons, Prod.mk.injEq, reduceCtorEq, false_and, or_false, true_and,
      List.not_mem_nil] at hmem
    cases htracker : s.program.tracker with
    | none =>
      rw [htracker] at hmem
      cases hmem
    | some tracker =>
      rw [htracker] at hmem
      have htracker' : s'.program.tracker = some tracker := by rw [hs'.program, htracker]
      exact schedules_verificationBranch ctx ps htracker' hmem.symm hready
  | poll => exact schedules_pollTick ctx ps
  | ctrlC => exact fun hs => hs.append (.refl _) fun pending h => ⟨pending, h, rfl, rfl⟩
  | timeout => exact .pure _

theorem schedules_runPollingLoop (fuel : ℕ) (ctx : RunContext) :
    Schedules (runPollingLoop fuel ctx) s := by
  have hsource : FailsOutside (TickTimeSource.forDriver ctx.driver ctx.timeAnchor
      ctx.effectiveTiming.pollIntervalMs) s := by
    unfold TickTimeSource.forDriver
    cases ctx.driver with
    | opcda => trivial
    | simulator =>
      exact wp_seq (failsOutside_durationFromStd _ externalError_of_pieces) fun _ _ _ => trivial
  refine .next (.of_keeps (keeps_forDriver _ _ _) hsource) fun _ _ =>
    .next (schedules_modifyProgram fun _ => rfl) fun _ s' => .now fun hs => ?_
  refine wp_iterate (fun _ s' => s'.Scheduled) (fun ps s' hs' => ?_) (fun _ _ h => ⟨h, trivial⟩)
    fuel _ hs
  refine wp_mono (schedules_pollTurn ctx _ ps hs') (fun r s'' h => ?_) fun _ _ h => h
  cases r <;> exact h

/-! ### The MV step of a restore -/

theorem schedules_resolveHandoffRead (h : pending.firstCheckAt ≤ pending.deadline)
    (ctx : RunContext) (tag : String) (initialMv : ℚ) (checkedAt : UtcTime)
    (read : Except Text (Option (TickOperation (ℚ × Quality)))) :
    Schedules (resolveHandoffRead ctx tag initialMv pending checkedAt read) s := by
  have hadopt : ∀ s', Schedules (modifyTracker fun t => { t with confirmedMv := some initialMv })
      s' := fun s' hs => hs.mapTracker _ fun t held h => ⟨held, h, rfl, rfl⟩
  match read with
  | .ok none => exact .next (schedules_finalize _ _) fun _ _ => .pure _
  | .error e => exact .next (schedules_recordFinal _ _ _ _ _) fun _ _ => .pure _
  | .ok (some .cancelled) => exact schedules_put h (.pure _)
  | .ok (some .timedOut) => exact .next (schedules_recordFinal _ _ _ _ _) fun _ _ => .pure _
  | .ok (some (.completed (readback, quality))) =>
    unfold resolveHandoffRead
    dsimp only
    split
    · exact .next (schedules_recordFinal _ _ _ _ _) fun _ _ => .pure _
    · split
      · exact .next (schedules_recordFinal _ _ _ _ _) fun _ s' => .next (hadopt s') fun _ _ => .pure _
      · exact .next (schedules_recordFinal _ _ _ _ _) fun _ _ => .pure _

theorem schedules_handoff (ctx : RunContext) (tag : String) (initialMv : ℚ) :
    Schedules (tryConfirmFinalSnapbackHandoff ctx tag initialMv) s := by
  refine .getPending ?_
  cases hpending : s.pending with
  | none => exact .pure _
  | some held =>
    dsimp only
    split
    · exact .pure _
    · refine schedules_take hpending _ fun hheld => .now (.get ?_)
      generalize (s.mapTracker fun t => { t with pending := none }) = s₁
      have hrewrite : ∀ detail s', Schedules
          (finalizeActuationBestEffort held .superseded detail >>= fun _ =>
            pure (some RestoreHandoffOutcome.rewrite)) s' :=
        fun _ _ => .next (schedules_finalize _ _) fun _ _ => .pure _
      have hread : ∀ deadline s', Schedules
          (tryErr (readNumericSample (some deadline) ctx.effectiveTiming.opTimeoutSecs tag) >>=
            fun read => now >>= fun checkedInstant =>
              checkedAtForPending held checkedInstant >>= fun checkedAt =>
                resolveHandoffRead ctx tag initialMv held checkedAt read >>= fun outcome =>
                  pure (some outcome)) s' :=
        fun _ _ => .next (.tryErr (schedules_readNumericSample _ _ _)) fun _ _ =>
          .now (.next (schedules_checkedAt _) fun _ _ =>
            .next (schedules_resolveHandoffRead hheld ctx tag initialMv _ _) fun _ _ => .pure _)
      split
      · split
        · exact hrewrite _ _
        · exact hread _ _
      · split
        · exact hrewrite _ _
        · exact hread _ _

theorem schedules_restoreMvWrite (ctx : RunContext) (tag : String) (initialMv : ℚ)
    (tolerance : Option ℚ) : Schedules (restoreMvWrite ctx tag initialMv tolerance) s := by
  have hwrite : ∀ limit, Schedules (boundedWrite limit ctx.effectiveTiming.opTimeoutSecs
      (.restoreMv tolerance) tag (.float initialMv)) s := fun _ =>
    .of_keeps (scheduling_of_within (p := Event.AcceptsNothing)
      (keeps_boundedWrite fun _ _ _ => nofun) fun _ h => h) (failsOutside_boundedWrite _ _ _ _ _)
  refine fun hs => wp_bind.mpr (wp_get.mpr (Schedules.next (.tryErr (hwrite _)) (fun r s' => ?_) hs))
  match r with
  | .ok none => exact .pure _
  | .ok (some (.completed ())) => exact .pure _
  | .ok (some .cancelled) => exact .pure _
  | .ok (some .timedOut) => exact .pure _
  | .error e => exact .pure _

/-- A restoring command is first checked when it is accepted. -/
theorem schedules_recordRestore (policy : ActuationAuditPolicy) (target : ℚ) (acceptedAt : UtcTime)
    (acceptedInstant : Instant) (tolerance : ℚ) :
    Schedules (recordRestoreAccepted policy target acceptedAt acceptedInstant tolerance) s := by
  have hinsert : ∀ op s, Schedules (database op) s := fun _ _ =>
    .of_keeps (scheduling_of_recording (keeps_database fun _ => trivial)) (failsOutside_database _)
  have haccept : ∀ id s, Schedules
      (acceptPending (restorePending id target acceptedAt acceptedInstant tolerance)) s := by
    intro id s hs
    have hschedule : acceptedInstant ≤ acceptedInstant + durationSecs mvActuationConfirmationSecs :=
      Nat.le_add_right _ _
    refine wp_bind.mpr ((wp_modifyTracker _).mpr ((wp_mark _).mpr ⟨fun pending hpending => ?_,
      fun pending hmem => ?_⟩))
    · obtain ⟨t', ht', hp⟩ := pending_eq_some.mp hpending
      obtain ⟨t, ht, rfl⟩ := Option.map_eq_some_iff.mp ht'
      cases hp
      exact hschedule
    · rcases List.mem_append.mp hmem with hmem | hmem
      · exact hs.accepted pending hmem
      · cases List.mem_singleton.mp hmem
        exact hschedule
  refine fun hs => wp_bind.mpr (wp_get.mpr ?_)
  cases s.program.tracker with
  | none => exact ⟨hs, externalError_of_fixed (by decide)⟩
  | some tracker =>
    cases policy with
    | required =>
      exact Schedules.required rfl _ (.next (hinsert _ _) fun _ _ => .next (.pure _) fun _ _ =>
        haccept _ _) hs
    | bestEffort =>
      refine Schedules.required rfl _ (.next (.tryErr (hinsert _ _)) fun r _ => ?_) hs
      cases r with
      | ok row => exact .next (.pure _) fun _ _ => haccept _ _
      | error e => exact .next (.pure _) fun _ _ => haccept _ _

theorem schedules_acceptRestoreWrite (initialMv : ℚ) (policy : ActuationAuditPolicy)
    (tolerance : ℚ) : Schedules (acceptRestoreWrite initialMv policy tolerance) s := by
  have hsupersede : ∀ detail, Schedules (supersedePendingActuationBestEffort detail) s := by
    refine fun detail => .getPending ?_
    cases s.pending with
    | none => exact .pure _
    | some pending =>
      refine fun hs => wp_bind.mpr ((wp_setPending _).mpr (schedules_finalize _ _ ?_))
      exact hs.mapTracker _ fun _ _ h => nomatch h
  have hutc : ∀ s, Schedules utcNow s := fun _ =>
    .of_keeps (scheduling_of_recording keeps_utcNow) trivial
  exact .next (hsupersede _) fun _ s₁ => .now (.next (hutc _) fun _ _ =>
    .next (schedules_modifyProgram fun _ => rfl) fun _ _ => schedules_recordRestore _ _ _ _ _)

theorem schedules_restoreRound (ctx : RunContext) (tag : String) (policy : ActuationAuditPolicy) :
    Schedules (restoreVerificationRound ctx tag policy) s := by
  have hsleep : ∀ duration s, Schedules (sleep none duration) s := by
    intro duration s
    refine .of_keeps (scheduling_of_recording (keeps_sleep _ _)) (wp_bind.mpr (wp_now.mpr ?_))
    refine wp_seq (wp_mono (awaitScoped_spec _ _) (fun _ _ _ => trivial) ?_) ?_
    · rintro f s' ⟨rfl, _⟩
      trivial
    · rintro ⟨cut, a⟩ s' _
      cases cut <;> trivial
  refine .now (.getPending fun hs => wp_bind.mpr (wp_get.mpr
    (Schedules.next (.tryErr (schedules_verify ctx tag _ _ policy)) (fun r s' => ?_) hs)))
  match r with
  | .ok none =>
    refine .getPending ?_
    cases s'.pending with
    | none => exact .pure _
    | some pending => exact .now (.next (hsleep _ _) fun _ _ => .pure _)
  | .error e => exact .pure _
  | .ok (some .userInterrupt) => exact .pure _
  | .ok (some (.timeout _)) | .ok (some (.operationTimedOut _ _)) | .ok (some (.poorQuality _ _))
  | .ok (some (.mvActuationUnconfirmed _ _ _ _ _ _)) =>
    refine .now ?_
    split
    · exact .pure _
    · exact .pure _

/-- **The MV step of a restore.** -/
theorem schedules_restoreMv (fuel : ℕ) (ctx : RunContext) (initialMv : ℚ)
    (policy : ActuationAuditPolicy) :
    Schedules (restoreMvWithVerification fuel ctx initialMv policy) s := by
  refine fun hs => wp_bind.mpr (wp_get.mpr ?_)
  cases s.program.tracker with
  | none =>
    refine Schedules.next (schedules_restoreMvWrite ctx _ initialMv none) (fun r _ => ?_) hs
    cases r <;> exact .pure _
  | some tracker =>
    have hrewrite : ∀ tolerance s',
        Schedules (rewriteMv fuel ctx initialMv policy tolerance) s' := by
      intro tolerance s'
      refine .next (schedules_restoreMvWrite ctx _ initialMv _) fun r _ => ?_
      cases r with
      | some outcome => exact .pure _
      | none =>
        refine .next (schedules_acceptRestoreWrite initialMv policy tolerance) fun _ s₂ hs₂ => ?_
        refine wp_iterate (fun _ s' => s'.Scheduled) (fun _ s' hs' => ?_)
          (fun _ _ h => ⟨h, trivial⟩) fuel _ hs₂
        refine wp_mono (schedules_restoreRound ctx _ policy hs') (fun r s'' h => ?_) fun _ _ h => h
        cases r <;> exact h
    dsimp only
    split
    · exact hs
    · refine Schedules.next (schedules_handoff ctx _ initialMv) (fun r s' => ?_) hs
      rcases r with _ | _ | _ | reason
      · exact hrewrite _ _
      · exact .pure _
      · exact hrewrite _ _
      · exact .pure _

/-! ### The whole run -/

theorem Schedules.keeps {x : Io α} (h : ∀ s, Schedules x s) : Keeps scheduling x := by
  intro s
  by_cases hs : s.Scheduled
  · exact wp_mono (h s hs) (fun _ _ h _ => h) fun _ _ h _ => h.1
  · exact wp_mono (wp_run x s) (fun _ _ _ h => absurd h hs) fun _ _ _ h => absurd h hs

theorem scheduling_mark {m : Mark} (h : ∀ pending, m ≠ .commandPending pending) :
    Keeps scheduling (mark m) :=
  scheduling_of_within (p := Event.AcceptsNothing) (keeps_mark fun pending heq =>
    h pending (Event.mark.inj heq)) fun _ h => h

theorem scheduling_statement (op : DbOp) : Keeps scheduling (runStatement op) :=
  scheduling_of_recording (keeps_runStatement fun _ => trivial)

theorem scheduling_modifyProgram {f : Program → Program} (h : ∀ a, (f a).tracker = a.tracker) :
    Keeps scheduling (modifyProgram f) := scheduling_of_recording (keeps_modifyProgram h)

theorem scheduling_transition (ctx : RunContext) (initial : InitialState) :
    Keeps scheduling (transitionToManual ctx initial) :=
  scheduling_of_within (p := Event.AcceptsNothing) (keeps_transitionWrites (fun _ => nofun)
    (fun _ _ _ _ => nofun) fun _ _ => rfl) fun _ h => h

theorem acceptsNothing_later (e : Event) (h : e.RestoresLater) : e.AcceptsNothing := by
  rintro pending rfl
  exact h

/-- The steps that follow the MV leave the tracker alone. -/
theorem scheduling_afterMv (fuel : ℕ) (ctx : RunContext) (initial : InitialState)
    (completion : Option SettlingInput) (measuredOscillationPeriodMs : Option (XNum ℚ))
    (mv : RestoreStepOutcome) :
    Keeps scheduling
      (afterMvStep fuel ctx initial completion measuredOscillationPeriodMs mv) :=
  scheduling_of_within (keeps_afterMvStep (fun e h _ => acceptsNothing_later e h)
    (fun _ => nofun) (fun _ _ => nofun) (fun _ _ => nofun) (fun _ _ => rfl) (fun _ _ => rfl)
    _ _ _ _ fun _ _ _ _ _ _ => nofun) fun _ h => h

theorem scheduling_attempt (fuel : ℕ) (ctx : RunContext) (initial : InitialState)
    (completion : Option SettlingInput) (measuredOscillationPeriodMs : Option (XNum ℚ))
    (policy : ActuationAuditPolicy) :
    Keeps scheduling
      (attemptRestore fuel ctx initial completion measuredOscillationPeriodMs policy) := by
  have hmark : ∀ m, (∀ pending, m ≠ .commandPending pending) → Keeps scheduling (mark m) :=
    fun _ => scheduling_mark
  refine Keeps.bind (hmark _ nofun) fun _ => Keeps.bind ?_ fun attempt =>
    Keeps.bind (hmark _ nofun) fun _ => .pure _
  refine keeps_now.bind fun start => (scheduling_modifyProgram (by intro _; rfl)).bind fun _ =>
    (keeps_tryErr (Schedules.keeps fun _ => schedules_restoreMv _ _ _ _)).bind fun r => ?_
  cases restoreMvOutcomeOrFailed r with
  | interrupted reason => exact .pure _
  | «continue» mv => exact scheduling_afterMv _ _ _ _ _ _

/-- The three ends of a run. -/
theorem scheduling_recordedAttempt {β : Type} (fuel : ℕ) (ctx : RunContext) (initial : InitialState)
    (completion : Option SettlingInput) (measuredOscillationPeriodMs : Option (XNum ℚ))
    (detail : String) (f : RestoreAttempt → β) :
    Keeps scheduling (do
      let attempt ← attemptRestore fuel ctx initial completion measuredOscillationPeriodMs
        .bestEffort
      recordRestoreStatusBestEffort attempt
      finalizePendingForRunBestEffort detail
      return f attempt) :=
  (scheduling_attempt fuel ctx initial _ _ _).bind fun _ =>
    (keeps_bestEffort (scheduling_statement _)).bind fun _ =>
      (keeps_bestEffort (scheduling_statement _)).bind fun _ => .pure _

theorem scheduling_metrics (metrics : Option TimingMetrics) :
    Keeps scheduling (recordTimingMetricsIfPresent metrics) := by
  cases metrics with
  | none => exact .pure _
  | some metrics => exact keeps_bestEffort (scheduling_statement _)

theorem scheduling_pollAndFinish (fuel : ℕ) (ctx : RunContext) (initial : InitialState)
    (writePid : Option ResponseLevel) (hasHandler : Bool)
    (ownership : Option LiveOperationGuard) :
    Keeps scheduling (pollAndFinish fuel ctx initial writePid hasHandler ownership) := by
  have hpoll : Keeps scheduling (pollFresh fuel ctx initial) :=
    (scheduling_modifyProgram (by intro _; rfl)).bind fun _ =>
      Schedules.keeps fun _ => schedules_runPollingLoop fuel ctx
  have hwriteBack : Keeps scheduling (maybeWriteBack ctx writePid hasHandler ownership) :=
    scheduling_of_within (p := Event.AcceptsNothing) (keeps_maybeWriteBack (fun _ => nofun)
      (fun _ _ => nofun) (fun _ _ _ => nofun) ctx _ _ _) fun _ h => h
  have hpersist : ∀ action, Keeps scheduling (persistResults ctx initial action) := fun _ =>
    scheduling_of_recording (keeps_persistResults (fun _ h _ => h) _ _ _)
  refine (keeps_tryErr hpoll).bind fun pollResult =>
    (keeps_completedOscillationPeriodMs _ _ _).bind fun period => Keeps.get.bind fun s => ?_
  match pollResult with
  | .ok (.completed action state nextTickIndex) =>
    refine (keeps_tryErr (hpersist action)).bind fun r => ?_
    cases r with
    | ok _ =>
      refine (scheduling_recordedAttempt fuel ctx initial _ _ _ id).bind fun attempt =>
        Keeps.get.bind fun _ => (scheduling_statement _).bind fun _ => ?_
      cases attempt with
      | confirmed => exact hwriteBack.bind fun _ => .pure _
      | incomplete reason => exact .pure _
    | error e =>
      exact (scheduling_recordedAttempt fuel ctx initial _ _ _ id).bind fun _ =>
        Keeps.get.bind fun _ => (scheduling_metrics _).bind fun _ => keeps_bail _
  | .ok (.aborted reason) =>
    refine (scheduling_recordedAttempt fuel ctx initial none none _ id).bind fun attempt => ?_
    have hend : ∀ metrics detail,
        Keeps scheduling (closeAbortedRun reason metrics detail attempt) := by
      intro metrics detail
      refine (scheduling_statement _).bind fun _ => ?_
      cases attempt <;> exact .pure _
    cases reason with
    | mvActuationUnconfirmed tag target readback tolerance elapsedMs deadlineSecs =>
      exact hend _ _
    | _ => exact hend _ none
  | .error error =>
    exact (scheduling_recordedAttempt fuel ctx initial none none _ fun _ => error).bind fun _ =>
      (scheduling_metrics _).bind fun _ => keeps_bail _

/-- **The part of a run that mutates the loop** keeps the schedule, from its fresh tracker on. -/
theorem scheduling_executeMutating (fuel : ℕ) (ctx : RunContext) (initial : InitialState)
    (writePid : Option ResponseLevel) (hasHandler : Bool)
    (ownership : Option LiveOperationGuard) :
    Keeps scheduling (executeMutating fuel ctx initial writePid hasHandler ownership) := by
  have hfresh : Keeps scheduling (modifyProgram fun p => { p with
      guard := {}
      tracker := MvActuationTracker.forRun ctx.driver initial }) := by
    refine fun s hs => ⟨fun pending hpending => ?_, hs.accepted⟩
    obtain ⟨t, ht, hp⟩ := pending_eq_some.mp hpending
    have hidle : t.pending = none := by
      have ht : MvActuationTracker.forRun ctx.driver initial = some t := ht
      unfold MvActuationTracker.forRun at ht
      split at ht
      · cases ht
        rfl
      · cases ht
    rw [hidle] at hp
    cases hp
  refine hfresh.bind fun _ => (keeps_tryErr (scheduling_transition ctx initial)).bind fun r => ?_
  cases r with
  | ok _ => exact scheduling_pollAndFinish _ _ _ _ _ _
  | error e =>
    exact (scheduling_recordedAttempt fuel ctx initial none none _ fun _ => e).bind fun _ =>
      keeps_bail _

/-! ### Scheduling over every run -/

/-- A verification begun here leaves nothing pending when it is made at the deadline, and fails
only for reasons outside. -/
structure Verifies (ctx : RunContext) (s : Sys) : Prop where
  scheduled : s.Scheduled
  verifies : ∀ trigger callLimit policy,
    wp (verifyPendingMvActuation ctx ctx.tags.manipulatedVariable trigger callLimit policy)
      (fun _ s' => s'.Scheduled ∧ (trigger = .deadline → s'.pending = none))
      (fun f s' => s'.Scheduled ∧ f.External s') s

theorem Sys.Scheduled.verifies (ctx : RunContext) (h : s.Scheduled) : Verifies ctx s := by
  refine ⟨h, fun trigger callLimit policy => ?_⟩
  have hdeadline : wlp (verifyPendingMvActuation ctx ctx.tags.manipulatedVariable trigger
      callLimit policy) (fun _ s' => trigger = .deadline → s'.pending = none) s := by
    cases trigger with
    | scheduled => exact wlp_mono (wlp_true _) fun _ _ _ => nofun
    | deadline =>
      exact wlp_mono (verifyPendingMvActuation_deadline ctx _ callLimit policy) fun _ _ h _ => h
  exact wp_mono (wp_and (schedules_verify ctx _ trigger callLimit policy h) hdeadline)
    (fun _ _ h => h) fun _ _ h => h.1

theorem scheduled_startPolling (s : Sys) (initial : InitialState) :
    (s.startPolling initial).Scheduled := by
  refine ⟨fun pending hpending => ?_, fun _ hmem => absurd hmem List.not_mem_nil⟩
  cases hpending

theorem scheduled_of_polls {ctx : RunContext} {timeoutAt : Instant} {ps : PollState} {s₁ : Sys}
    (hs : s.Scheduled) (h : Polls ctx s timeoutAt ps s₁) : s₁.Scheduled := by
  obtain ⟨s₀, hentry, _, hround⟩ := h
  have hentered : Keeps scheduling (enterLoop ctx) :=
    (keeps_forDriver _ _ _).bind fun _ => scheduling_modifyProgram (by intro _; rfl)
  have hs₀ : s₀.Scheduled := hentered.rel_of_ok hentry hs
  refine hround.state hs₀ ?_
  exact fun ps s ps' s' hs hturn => wp_ok (schedules_pollTurn ctx timeoutAt ps hs) hturn

/-- **Verification scheduling.**  At every turn of the polling loop a pending command is first
checked no later than its deadline, a verification wake-up that fires finds its trigger, and the
verification it begins fails only for reasons outside and leaves nothing pending at the deadline.
The loop never panics and never misses what the verification path takes for granted.  The
verification rounds of a restore do the same, and so does every command a run accepts. -/
theorem verification_scheduling (fuel : ℕ) (ctx : RunContext) (initial : InitialState)
    (writePid : Option ResponseLevel) (hasHandler : Bool) (ownership : Option LiveOperationGuard)
    (s : Sys) :
    (∀ timeoutAt ps s₁, Polls ctx (s.startPolling initial) timeoutAt ps s₁ → Verifies ctx s₁ ∧
      ∀ t, turnWakesAt timeoutAt ps s₁ = some t →
        branchTaken timeoutAt ps s₁ t = some .verification →
        ∃ trigger, (s₁.woken t).pending.bind (verificationTrigger · t) = some trigger) ∧
    wp (runPollingLoop fuel ctx) (fun _ s' => s'.Scheduled)
      (fun f s' => s'.Scheduled ∧ f.External s') (s.startPolling initial) ∧
    (∀ s₁ policy, Sys.Scheduled s₁ →
      wp (restoreMvWithVerification fuel ctx initial.mvIni policy) (fun _ s' => s'.Scheduled)
        (fun f s' => s'.Scheduled ∧ f.External s') s₁ ∧
      ∀ s₂, Rounds (fun _ => restoreVerificationRound ctx ctx.tags.manipulatedVariable policy) ()
        s₁ () s₂ → Verifies ctx s₂) ∧
    wp (executeMutating fuel ctx initial writePid hasHandler ownership)
      (fun _ s' => s'.Scheduled) (fun _ s' => s'.Scheduled) (s.startPolling initial) := by
  have hstart := scheduled_startPolling s initial
  refine ⟨fun timeoutAt ps s₁ hturn => ?_, schedules_runPollingLoop fuel ctx hstart, ?_, ?_⟩
  · refine ⟨(scheduled_of_polls hstart hturn).verifies ctx, fun t _ hbranch => ?_⟩
    obtain ⟨wakeup, hmem, hdue⟩ := ready_of_chooseReady hbranch
    simp only [pollBranches, List.mem_cons, Prod.mk.injEq, reduceCtorEq, false_and, or_false,
      true_and, List.not_mem_nil] at hmem
    obtain ⟨tracker, htracker, hwakeup⟩ := Option.bind_eq_some_iff.mp hmem.symm
    obtain ⟨pending, trigger, hpending, htrigger⟩ := verificationTrigger_of_wakeup hwakeup hdue
    have hsome : s₁.pending = some pending := pending_eq_some.mpr ⟨tracker, htracker, hpending⟩
    refine ⟨trigger, ?_⟩
    show s₁.pending.bind _ = _
    rw [hsome]
    exact htrigger
  · refine fun s₁ policy hs₁ => ⟨schedules_restoreMv fuel ctx _ policy hs₁, fun s₂ hround => ?_⟩
    refine Sys.Scheduled.verifies ctx (hround.state hs₁ ?_)
    exact fun _ s _ s' hs hrun => wp_ok (schedules_restoreRound ctx _ policy hs) hrun
  · exact wp_mono (scheduling_executeMutating fuel ctx initial writePid hasHandler ownership _)
      (fun _ _ h => h hstart) fun _ _ h => h hstart

end Schedule

end Bhtune
