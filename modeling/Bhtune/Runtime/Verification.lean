import Bhtune.Runtime.Actuation

/-!
# What a verification of a pending command establishes

A verification that returns no abort reason leaves the command pending, with a newer readback at
most, or clears it; and it clears it only on the strength of a reading that confirms it.

* `Confirms` — the reading that confirms a command;
* `Verified` — what one verification may do to the command, the tracker and the trace;
* `verifyPendingMvActuation_spec`, `resolvePendingMvPoll_spec` — the two ways to verify.
-/

namespace Bhtune

open Effect EventLog

/-! ### The tracker of a state -/

/-- The command the tracker holds. -/
def Sys.pending (s : Sys) : Option PendingMvActuation := s.program.tracker.bind (·.pending)

/-- The state with its tracker changed. -/
def Sys.mapTracker (s : Sys) (f : MvActuationTracker → MvActuationTracker) : Sys :=
  { s with program := { s.program with tracker := s.program.tracker.map f } }

/-- Every variable but the tracker. -/
def Program.untracked (a : Program) : Program := { a with tracker := none }

/-- The frame of a verification: it reads, records, and changes nothing but the tracker. -/
abbrev verifying : Frame Sys := within Event.Silent Program.untracked

/-- The frame of an audit: it records, and changes nothing. -/
abbrev auditing : Frame Sys := within Event.Silent id

section Primitives

variable {s : Sys}

@[simp] theorem wp_getPending {Q : Option PendingMvActuation → Sys → Prop}
    {E : Fault → Sys → Prop} : wp getPending Q E s ↔ Q s.pending s := Iff.rfl

@[simp] theorem wp_modifyTracker {Q : Unit → Sys → Prop} {E : Fault → Sys → Prop}
    (f : MvActuationTracker → MvActuationTracker) :
    wp (modifyTracker f) Q E s ↔ Q () (s.mapTracker f) := Iff.rfl

@[simp] theorem wp_setPending {Q : Unit → Sys → Prop} {E : Fault → Sys → Prop}
    (pending : Option PendingMvActuation) :
    wp (setPending pending) Q E s ↔ Q () (s.mapTracker fun t => { t with pending := pending }) :=
  Iff.rfl

@[simp] theorem wlp_takePending {Q : PendingMvActuation → Sys → Prop} (message : String) :
    wlp (takePending message) Q s ↔
      ∀ pending, s.pending = some pending →
        Q pending (s.mapTracker fun t => { t with pending := none }) := by
  refine wp_bind.trans (wp_getPending.trans (wp_bind.trans (wlp_requireInvariant _ _)))

theorem wp_takePending {Q : PendingMvActuation → Sys → Prop} {E : Fault → Sys → Prop}
    {pending : PendingMvActuation} (h : s.pending = some pending) (message : String) :
    wp (takePending message) Q E s ↔ Q pending (s.mapTracker fun t => { t with pending := none }) := by
  refine wp_bind.trans (wp_getPending.trans ?_)
  rw [h]
  exact Iff.rfl

theorem pending_eq_some {pending : PendingMvActuation} :
    s.pending = some pending ↔
      ∃ t, s.program.tracker = some t ∧ t.pending = some pending := by
  unfold Sys.pending
  cases s.program.tracker with
  | none => simp
  | some t => simp

theorem pending_of_accepted {pending : PendingMvActuation} {tracker : MvActuationTracker}
    (h : s.program.tracker = some (tracker.acceptPending pending)) : s.pending = some pending := by
  unfold Sys.pending
  rw [h]
  rfl

end Primitives

/-! ### Confirmation -/

/-- A reading of acceptable quality, within the tolerance and not after the deadline. -/
def Confirms (ctx : RunContext) (target tolerance : ℚ) (deadline : Instant) : Event → Prop
  | .read call => ∃ v q, call.numeric ctx.tags.manipulatedVariable = some (v, q) ∧
      acceptable q ctx.allowUncertainQuality = true ∧ |target - v| ≤ tolerance ∧
      call.ended ≤ deadline
  | _ => False

/-- The command stays pending, with another last readback at most. -/
def KeptPending (pending : PendingMvActuation) (s s' : Sys) : Prop :=
  ∃ readback, s'.program.tracker = s.program.tracker.map fun t =>
    { t with pending := some { pending with lastReadback := readback } }

/-- The command is cleared and counts as confirmed. -/
def ClearedPending (pending : PendingMvActuation) (s s' : Sys) : Prop :=
  s'.program.tracker = s.program.tracker.map fun t =>
    { t with pending := none, confirmedMv := some pending.target }

/-- What one verification does to the command it is about, short of giving the run up. -/
def Verified (ctx : RunContext) (pending : PendingMvActuation) (s s' : Sys) : Prop :=
  verifying.rel s s' ∧ (KeptPending pending s s' ∨ (ClearedPending pending s s' ∧
    ∃ r, Brings Event.Silent r s.trace s'.trace ∧
      Confirms ctx pending.target pending.tolerance pending.deadline r))

theorem keptPending_of_eq {pending : PendingMvActuation} {s s' : Sys}
    (h : s.pending = some pending) (heq : s'.program.tracker = s.program.tracker) :
    KeptPending pending s s' := by
  obtain ⟨t, ht, hp⟩ := pending_eq_some.mp h
  refine ⟨pending.lastReadback, ?_⟩
  rw [heq, ht, Option.map_some, ← hp]

/-! ### The operations -/

variable {s : Sys} {pending : PendingMvActuation}

theorem audit_statement (op : DbOp) : Keeps auditing (runStatement op) :=
  keeps_runStatement fun _ => trivial

theorem audit_observation (checkedAt : UtcTime) (readback : Option ℚ)
    (quality : Option SampleQuality) (policy : ActuationAuditPolicy) :
    Keeps auditing (recordActuationObservation pending checkedAt readback quality policy) :=
  keeps_recordActuationObservation (fun _ h _ => h) _ _ _ _ _

theorem audit_final (checkedAt : UtcTime) (readback : Option ℚ) (quality : Option SampleQuality)
    (status : MvActuationStatus) (detail : Text) :
    Keeps auditing
      (recordFinalActuationObservation pending checkedAt readback quality status detail) :=
  keeps_recordFinalActuationObservation (fun _ h _ => h) _ _ _ _ _ _

theorem audit_finalize (status : MvActuationStatus) (detail : Text) :
    Keeps auditing (finalizeActuationBestEffort pending status detail) :=
  keeps_finalizeActuationBestEffort (fun _ h _ => h) _ _ _

theorem confirmPendingMvActuation_spec (checkedAt : UtcTime) (readback : ℚ)
    (sampleQuality : SampleQuality) (policy : ActuationAuditPolicy) :
    wlp (confirmPendingMvActuation pending checkedAt readback sampleQuality policy)
      (fun _ s' => s'.program.tracker = s.program.tracker.map fun t =>
        { t with confirmedMv := some pending.target }) s := by
  have hconfirm : ∀ s' : Sys, auditing.rel s s' →
      wlp (modifyTracker fun t => { t with confirmedMv := some pending.target })
        (fun _ s'' => s''.program.tracker = s.program.tracker.map fun t =>
          { t with confirmedMv := some pending.target }) s' := by
    intro s' hs'
    show (s'.program.tracker.map _) = _
    rw [show s'.program = s.program from hs'.2.2]
  unfold confirmPendingMvActuation
  cases pending.id with
  | none => exact hconfirm s (auditing.refl s)
  | some id =>
    refine (keeps_tryErr (audit_statement _)).wlp_seq fun r s' hs' => ?_
    match r, policy with
    | .ok (), _ => exact hconfirm s' hs'
    | .error _, .bestEffort => exact hconfirm s' hs'
    | .error e, .required => trivial

/-- **The result of a verification value**: the command is cleared only in time and in
tolerance. -/
theorem finalizePendingMvVerification_spec (h : s.pending = some pending) (tag : String)
    (value : PendingMvVerificationValue) (trigger : MvVerificationTrigger)
    (policy : ActuationAuditPolicy) :
    wlp (finalizePendingMvVerification tag value trigger policy)
      (fun r s' => r = none → KeptPending pending s s' ∨ (ClearedPending pending s s' ∧
        |pending.target - value.readback| ≤ pending.tolerance ∧
        value.checkedInstant ≤ pending.deadline)) s := by
  refine wp_bind.mpr ((wlp_takePending _).mpr fun taken htaken => ?_)
  cases htaken.symm.trans h
  split
  · exact (audit_final _ _ _ _ _).wlp_seq fun _ _ _ => nofun
  · rename_i hlate
    split
    · rename_i hmatch
      refine wlp_seq (confirmPendingMvActuation_spec _ _ _ _) fun _ s' hs' _ => .inr ⟨?_, ?_, ?_⟩
      · refine hs'.trans ?_
        show Option.map _ (Option.map _ _) = _
        rw [Option.map_map]
        rfl
      · exact of_decide_eq_true hmatch
      · exact not_lt.mp hlate
    · split
      · exact (audit_final _ _ _ _ _).wlp_seq fun _ _ _ => nofun
      · refine (audit_observation _ _ _ _).wlp_seq fun _ s' hs' => ?_
        refine wp_bind.mpr (fun _ => .inl ⟨some value.readback, ?_⟩)
        show Option.map _ s'.program.tracker = _
        rw [show s'.program = (s.mapTracker _).program from hs'.2.2]
        show Option.map _ (Option.map _ _) = _
        rw [Option.map_map]
        rfl

/-- The value that comes out of a read is the one that was read. -/
theorem resolvePendingMvRead_spec (ctx : RunContext) (tag : String)
    (operation : Except Text (TickOperation (ℚ × Quality))) (checkedAt : UtcTime)
    (checkedInstant : Instant) :
    wlp (resolvePendingMvRead ctx tag operation checkedAt checkedInstant)
      (fun r s' => ∀ value, r = .value value → s' = s ∧ value.checkedInstant = checkedInstant ∧
        ∃ q, operation = .ok (.completed (value.readback, q)) ∧
          acceptable q ctx.allowUncertainQuality = true) s := by
  match operation with
  | .error e =>
    exact wp_bind.mpr ((wlp_takePending _).mpr fun _ _ =>
      (audit_final _ _ _ _ _).wlp_seq fun _ _ _ => trivial)
  | .ok .cancelled =>
    exact wp_bind.mpr ((wlp_takePending _).mpr fun _ _ =>
      (audit_finalize _ _).wlp_seq fun _ _ _ => nofun)
  | .ok .timedOut =>
    exact wp_bind.mpr ((wlp_takePending _).mpr fun _ _ =>
      (audit_final _ _ _ _ _).wlp_seq fun _ _ _ => nofun)
  | .ok (.completed (readback, quality)) =>
    unfold resolvePendingMvRead
    dsimp only
    split
    · exact wp_bind.mpr ((wlp_takePending _).mpr fun _ _ =>
        (audit_final _ _ _ _ _).wlp_seq fun _ _ _ => nofun)
    · rename_i hquality
      rintro value ⟨⟩
      exact ⟨rfl, rfl, quality, rfl, (checkQuality_ok_iff _ _ _).mp hquality⟩

/-! ### Commands -/

theorem utcAfterElapsed_quiet (time : UtcTime) (elapsed : ℕ) :
    wlp (utcAfterElapsed time elapsed) (fun _ s' => s' = s) s := by
  unfold utcAfterElapsed durationFromStd
  split
  · exact rfl
  · trivial

/-- The tracker takes an accepted relay command over. -/
theorem recordRelayActuation_spec (target : ℚ) (switchTick : UtcTime)
    (switchInstant firstCheckAt : Instant) (elapsedSinceObservation : ℕ)
    (acceptedInstant : Instant) (tolerance : ℚ) :
    wlp (recordRelayActuation target switchTick switchInstant firstCheckAt
        elapsedSinceObservation acceptedInstant tolerance)
      (fun _ s' => ∃ tracker id, s.program.tracker = some tracker ∧
        s'.program.tracker = some (tracker.acceptPending
          { id := some id
            kind := .relay
            target := target
            tolerance := tolerance
            switchTick := switchTick
            switchInstant := switchInstant
            acceptedInstant := acceptedInstant
            firstCheckAt := min firstCheckAt
              (acceptedInstant + durationSecs mvActuationConfirmationSecs)
            deadline := acceptedInstant + durationSecs mvActuationConfirmationSecs
            lastReadback := none })) s := by
  refine wlp_seq (utcAfterElapsed_quiet _ _) ?_
  rintro acceptedAt _ rfl
  refine wp_bind.mpr (wp_get.mpr (wp_bind.mpr ((wlp_requireInvariant _ _).mpr
    fun tracker htracker => ?_)))
  refine (keeps_database (fun _ => trivial) : Keeps auditing _).wlp_seq fun row s' hrel => ?_
  refine wp_bind.mpr ((wp_modifyTracker _).mpr ?_)
  refine ⟨tracker, row.rowId, htracker, ?_⟩
  show Option.map _ s'.program.tracker = _
  rw [show s'.program = _ from hrel.2.2, id_eq, htracker]
  rfl

/-! ### Verification reads -/

/-- What the attempt to read a number brought: where it is a number, the read is on record. -/
def ReadAttempt (tag : String) (s s' : Sys)
    (r : Except Text (Option (TickOperation (ℚ × Quality)))) : Prop :=
  auditing.rel s s' ∧ ∀ v q, r = .ok (some (.completed (v, q))) →
    ∃ call, Brings Event.Silent (.read call) s.trace s'.trace ∧ call.numeric tag = some (v, q) ∧
      call.ended = s'.clock

theorem tryRead_spec (limit : Option Instant) (opTimeoutSecs : ℕ) (tag : String) :
    wlp (tryErr (readNumericSample limit opTimeoutSecs tag))
      (fun r s' => ReadAttempt tag s s' r) s := by
  have hframe : Keeps auditing (readNumericSample limit opTimeoutSecs tag) :=
    keeps_readNumericSample (fun _ => trivial) _ _ _
  refine wlp_tryErr (wp_mono (hframe.failures (readNumericSample_spec _ _ _)) ?_ ?_)
  · rintro r s' ⟨hrel, call, hcall, hr⟩
    refine ⟨hrel, ?_⟩
    intro v q hvq
    refine ⟨call, ?_, hr v q (Except.ok.inj hvq), hcall.ended⟩
    rw [hcall.trace]
    exact .single _ trivial
  · exact fun f s' hrel e he => ⟨hrel, nofun⟩

/-- What a verification read brought. -/
def VerificationRead (tag : String) (s s' : Sys) : PendingMvVerificationRead → Prop
  | .ready operation _ checkedInstant => auditing.rel s s' ∧ checkedInstant = s'.clock ∧
      ∀ v q, operation = .ok (.completed (v, q)) →
        ∃ call, Brings Event.Silent (.read call) s.trace s'.trace ∧
          call.numeric tag = some (v, q) ∧ call.ended = s'.clock
  | _ => True

theorem pendingVerificationReady_spec
    (operation : Except Text (TickOperation (ℚ × Quality))) :
    wlp (pendingVerificationReady operation)
      (fun r s' => s' = s ∧ ∃ checkedAt, r = .ready operation checkedAt s.clock) s := by
  refine wp_bind.mpr (wp_now.mpr (wp_bind.mpr (wp_getPending.mpr (wp_bind.mpr
    ((wlp_requireInvariant _ _).mpr fun held _ => wp_bind.mpr ?_)))))
  unfold checkedAtForPending durationFromStd
  split
  · exact ⟨rfl, _, rfl⟩
  · trivial

theorem readPendingRound_spec (ctx : RunContext) (tag : String)
    (callLimit : MvVerificationCallLimit) (trigger : MvVerificationTrigger) :
    wlp (readPendingRound ctx tag callLimit trigger)
      (fun r s' => match r with
        | .inl _ => auditing.rel s s'
        | .inr read => VerificationRead tag s s' read) s := by
  refine wp_bind.mpr (wp_getPending.mpr (wp_bind.mpr ((wlp_requireInvariant _ _).mpr
    fun held _ => wp_bind.mpr (wp_now.mpr (wlp_seq (tryRead_spec _ _ _) ?_)))))
  rintro r s' ⟨hrel, hread⟩
  match r with
  | .error e =>
    refine wlp_seq (pendingVerificationReady_spec _) ?_
    rintro _ _ ⟨rfl, checkedAt, rfl⟩
    exact ⟨hrel, rfl, nofun⟩
  | .ok (some operation) =>
    refine wlp_seq (pendingVerificationReady_spec _) ?_
    rintro _ _ ⟨rfl, checkedAt, rfl⟩
    refine ⟨hrel, rfl, ?_⟩
    intro v q h
    cases h
    exact hread v q rfl
  | .ok none =>
    have htimeout : ∀ pending checkedInstant (f : UtcTime → PendingMvVerificationRead) s'',
        (∀ checkedAt s', VerificationRead tag s s' (f checkedAt)) →
        wlp (checkedAtForPending pending checkedInstant >>= fun checkedAt =>
            (pure (.inr (f checkedAt)) : Io (MvVerificationTrigger ⊕ PendingMvVerificationRead)))
          (fun r s' => match r with
            | .inl _ => auditing.rel s s'
            | .inr read => VerificationRead tag s s' read) s'' := fun _ _ _ _ hf =>
      (keeps_checkedAtForPending _ _ : Keeps auditing _).wlp_seq fun _ _ _ => hf _ _
    dsimp only
    split
    · exact hrel
    · exact wp_bind.mpr ((wlp_takePending _).mpr fun _ _ => wp_bind.mpr (wp_now.mpr
        (htimeout _ _ _ _ fun _ _ => trivial)))
    · exact wp_bind.mpr ((wlp_takePending _).mpr fun _ _ => wp_bind.mpr (wp_now.mpr
        (htimeout _ _ _ _ fun _ _ => trivial)))

theorem VerificationRead.mono {tag : String} {s s' s'' : Sys} {read : PendingMvVerificationRead}
    (hrel : auditing.rel s s') (h : VerificationRead tag s' s'' read) :
    VerificationRead tag s s'' read := by
  cases read with
  | ready operation checkedAt checkedInstant =>
    obtain ⟨hrel', hclock, hread⟩ := h
    refine ⟨auditing.trans hrel hrel', hclock, ?_⟩
    intro v q hop
    obtain ⟨call, hbrings, hcall⟩ := hread v q hop
    exact ⟨call, .prepend hrel.1 hbrings, hcall⟩
  | deadlineTimedOut pending checkedAt checkedInstant => trivial
  | restoreTimedOut pending checkedAt checkedInstant => trivial

theorem readPendingMvVerification_spec (ctx : RunContext) (tag : String)
    (trigger : MvVerificationTrigger) (callLimit : MvVerificationCallLimit) :
    wlp (readPendingMvVerification ctx tag trigger callLimit)
      (fun read s' => VerificationRead tag s s' read) s := by
  refine wlp_iterate (fun _ s' => auditing.rel s s') ?_ 2 trigger (auditing.refl s)
  intro trigger' s' hs'
  refine wlp_mono (readPendingRound_spec ctx tag callLimit trigger') ?_
  intro r s'' hr
  cases r with
  | inl t => exact auditing.trans hs' hr
  | inr read => exact hr.mono hs'

/-! ### Verification -/

theorem keptPending_of_rel {s s' s'' : Sys} (hrel : auditing.rel s s')
    (h : KeptPending pending s' s'') : KeptPending pending s s'' := by
  obtain ⟨readback, ht⟩ := h
  exact ⟨readback, by rw [ht, show s'.program = s.program from hrel.2.2]⟩

theorem clearedPending_of_rel {s s' s'' : Sys} (hrel : auditing.rel s s')
    (h : ClearedPending pending s' s'') : ClearedPending pending s s'' := by
  unfold ClearedPending at *
  rw [h, show s'.program = s.program from hrel.2.2]

theorem pending_of_rel {s s' : Sys} (hrel : auditing.rel s s') : s'.pending = s.pending :=
  congrArg (fun a : Program => a.tracker.bind (·.pending)) hrel.2.2

/-- **A verification by its own read.** -/
theorem verifyPendingMvActuation_spec (ctx : RunContext) (h : s.pending = some pending)
    (trigger : MvVerificationTrigger) (callLimit : MvVerificationCallLimit)
    (policy : ActuationAuditPolicy) :
    wlp (verifyPendingMvActuation ctx ctx.tags.manipulatedVariable trigger callLimit policy)
      (fun r s' => r = none → Verified ctx pending s s') s := by
  have hframe : Keeps verifying (verifyPendingMvActuation ctx ctx.tags.manipulatedVariable trigger
      callLimit policy) :=
    keeps_verifyPendingMvActuation (fun _ h _ => h) (fun _ _ _ => rfl) _ _ _ _ _
  refine wlp_mono (hframe.and_wlp (Q := fun r s' => r = none → _) ?_) fun r s' hr hnone =>
    ⟨hr.1, hr.2 hnone⟩
  refine wp_bind.mpr (wp_getPending.mpr ?_)
  rw [h]
  refine wp_bind.mpr (wp_now.mpr ?_)
  split
  · exact fun _ => .inl (keptPending_of_eq h rfl)
  · refine wlp_seq (readPendingMvVerification_spec _ _ _ _) ?_
    intro read s' hread
    cases read with
    | deadlineTimedOut pending checkedAt checkedInstant =>
      exact (audit_final _ _ _ _ _).wlp_seq fun _ _ _ => nofun
    | restoreTimedOut pending checkedAt checkedInstant =>
      exact (audit_final _ _ _ _ _).wlp_seq fun _ _ _ => nofun
    | ready operation checkedAt checkedInstant =>
      obtain ⟨hrel, hclock, hoperation⟩ := hread
      refine wlp_seq (resolvePendingMvRead_spec _ _ _ _ _) ?_
      intro r s'' hr
      cases r with
      | abort reason => exact nofun
      | value value =>
        obtain ⟨rfl, hchecked, q, hop, hq⟩ := hr value rfl
        obtain ⟨call, hbrings, hnumeric, hended⟩ := hoperation _ _ hop
        refine wlp_mono ((keeps_finalizePendingMvVerification (fun _ h _ => h) (fun _ _ _ => rfl) _ _ _
          _ : Keeps verifying _).and_wlp (finalizePendingMvVerification_spec
            ((pending_of_rel hrel).trans h) _ _ _ _)) ?_
        rintro r s''' ⟨hrel', hr⟩ hnone
        rcases hr hnone with hkept | ⟨hcleared, hmatch, htime⟩
        · exact .inl (keptPending_of_rel hrel hkept)
        · refine .inr ⟨clearedPending_of_rel hrel hcleared, _, hbrings.append hrel'.1, ?_⟩
          refine ⟨_, q, hnumeric, hq, hmatch, ?_⟩
          rw [hended, ← hclock, ← hchecked]
          exact htime

/-- **A verification by the values of a poll**: the read of the poll is the one that counts. -/
theorem resolvePendingMvPoll_spec (ctx : RunContext) (h : s.pending = some pending)
    (operation : TickOperation (List TagValue)) (checkedAt : UtcTime) (checkedInstant : Instant) :
    wlp (resolvePendingMvPoll ctx operation checkedAt checkedInstant)
      (fun r s' => r.1 = none → r.2 = true ∧ ∃ values v q, operation = .completed values ∧
        readNumericFromBatch values ctx.tags.manipulatedVariable = .ok (v, q) ∧
        acceptable q ctx.allowUncertainQuality = true ∧
        (KeptPending pending s s' ∨ (ClearedPending pending s s' ∧
          |pending.target - v| ≤ pending.tolerance ∧ checkedInstant ≤ pending.deadline))) s := by
  refine wlp_seq (resolvePendingMvRead_spec _ _ _ _ _) ?_
  intro r s' hr
  cases r with
  | abort reason => exact nofun
  | value value =>
    obtain ⟨rfl, hchecked, q, hop, hq⟩ := hr value rfl
    refine wlp_seq (finalizePendingMvVerification_spec h _ _ _ _) ?_
    intro outcome s' houtcome hnone
    refine ⟨rfl, ?_⟩
    cases operation with
    | cancelled => cases hop
    | timedOut => cases hop
    | completed values =>
      dsimp only at hop
      refine ⟨values, value.readback, q, rfl, ?_, hq, ?_⟩
      · cases hread : readNumericFromBatch values ctx.tags.manipulatedVariable with
        | error e => rw [hread] at hop; cases hop
        | ok sample => rw [hread] at hop; cases hop; rfl
      · rw [← hchecked]
        exact houtcome hnone

end Bhtune
