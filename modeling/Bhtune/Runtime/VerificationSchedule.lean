import Bhtune.Runtime.ExternalFaults
import Bhtune.Runtime.RelayDiscipline

/-!
# The schedule of a verification

Two functions compute from the same command when the loop wakes up for it and what the
verification is then for.  They agree, whatever the clock reads.

* `verificationTrigger_of_wakeup` — a wake-up that is due finds its trigger;
* `Sys.Scheduled` — a pending command is first checked no later than its deadline;
* `Schedules` — a program that keeps the schedule and fails only for reasons outside;
* `schedules_verify` — a verification is one;
* `verifyPendingMvActuation_deadline` — at the deadline it leaves nothing pending.
-/

namespace Bhtune

open Effect EventLog

/-! ### The wake-up and the trigger -/

/-- **A wake-up that is due finds its trigger.** -/
theorem verificationTrigger_of_wakeup {tracker : MvActuationTracker} {wakeup t : Instant}
    (hwakeup : tracker.nextVerificationWakeup = some wakeup) (hdue : wakeup ≤ t) :
    ∃ pending trigger, tracker.pending = some pending ∧
      verificationTrigger pending t = some trigger := by
  obtain ⟨pending, hpending, rfl⟩ := Option.map_eq_some_iff.mp hwakeup
  refine ⟨pending, ?_⟩
  unfold verificationTrigger
  by_cases hlate : pending.deadline ≤ t
  · exact ⟨.deadline, hpending, if_pos hlate⟩
  · -- before the deadline only a command without a readback wakes the loop up
    have hread : pending.lastReadback = none := by
      cases h : pending.lastReadback with
      | none => rfl
      | some v =>
        rw [h] at hdue
        exact absurd hdue hlate
    rw [hread] at hdue ⊢
    have hfirst : pending.firstCheckAt ≤ t := (le_max_left _ _).trans hdue
    exact ⟨.scheduled, hpending, by simp [hlate, hfirst]⟩

/-! ### The schedule of a command -/

/-- Every command the tracker holds, and every command it ever accepted, is first checked no later
than its deadline. -/
structure Sys.Scheduled (s : Sys) : Prop where
  held : ∀ pending, s.pending = some pending → pending.firstCheckAt ≤ pending.deadline
  accepted : ∀ pending, .mark (.commandPending pending) ∈ s.trace →
    pending.firstCheckAt ≤ pending.deadline

/-- The frame of the schedule. -/
abbrev scheduling : Frame Sys := .invariant Sys.Scheduled

/-- An event that accepts no command. -/
def Event.AcceptsNothing (e : Event) : Prop := ∀ pending, e ≠ .mark (.commandPending pending)

theorem Event.Silent.acceptsNothing {e : Event} (h : e.Silent) : e.AcceptsNothing := by
  rintro pending rfl
  exact h

section Schedule

variable {α β : Type} {s s' : Sys}

theorem Sys.Scheduled.append (h : s.Scheduled)
    (happ : Appends Event.AcceptsNothing s.trace s'.trace)
    (hheld : ∀ pending, s'.pending = some pending → ∃ held, s.pending = some held ∧
      pending.firstCheckAt = held.firstCheckAt ∧ pending.deadline = held.deadline) :
    s'.Scheduled := by
  obtain ⟨new, hnew, hnothing⟩ := happ
  refine ⟨fun pending hpending => ?_, fun pending hmem => ?_⟩
  · obtain ⟨held, hsome, hfirst, hdeadline⟩ := hheld pending hpending
    rw [hfirst, hdeadline]
    exact h.held held hsome
  · rw [hnew] at hmem
    rcases List.mem_append.mp hmem with hmem | hmem
    · exact h.accepted pending hmem
    · exact absurd rfl (hnothing _ hmem pending)

/-- What records and leaves the tracker alone keeps the schedule. -/
theorem scheduling_of_within {p : Event → Prop} {x : Io α} (h : Keeps (within p (·.tracker)) x)
    (hp : ∀ e, p e → e.AcceptsNothing) : Keeps scheduling x := by
  refine h.weaken fun s s' hrel hs => hs.append (hrel.1.mono hp) fun pending hpending => ?_
  have htracker : s'.program.tracker = s.program.tracker := hrel.2.2
  refine ⟨pending, ?_, rfl, rfl⟩
  rw [← hpending]
  unfold Sys.pending
  rw [htracker]

theorem scheduling_of_recording {x : Io α} (h : Keeps recording x) : Keeps scheduling x :=
  scheduling_of_within h fun _ he => he.acceptsNothing

/-- From a scheduled state `x` ends in one, and fails only for reasons outside. -/
def Schedules (x : Io α) (s : Sys) : Prop :=
  s.Scheduled → wp x (fun _ s' => s'.Scheduled) (fun f s' => s'.Scheduled ∧ f.External s') s

namespace Schedules

theorem of_keeps {x : Io α} (h : Keeps scheduling x) (hf : FailsOutside x s) : Schedules x s :=
  fun hs => wp_mono (wp_and (h s) hf) (fun _ _ h => h.1 hs) fun _ _ h => ⟨h.1 hs, h.2⟩

theorem pure (a : α) : Schedules (Pure.pure a) s := id

theorem bind {x : Io β} {f : β → Io α} (hx : Schedules x s)
    (hf : ∀ b s', x s = .ok b s' → Schedules (f b) s') : Schedules (x >>= f) s := by
  intro hs
  refine wp_bind.mpr (wp_mono (wp_and (hx hs) (wp_run x s)) ?_ fun _ _ h => h.1)
  rintro b s' ⟨hs', hrun⟩
  exact hf b s' hrun hs'

/-- Sequencing after a program of which a postcondition is known. -/
theorem seq {x : Io β} {f : β → Io α} {Q : β → Sys → Prop} (hx : Schedules x s) (hQ : wlp x Q s)
    (hf : ∀ b s', Q b s' → Schedules (f b) s') : Schedules (x >>= f) s :=
  hx.bind fun _ _ hrun => hf _ _ (wp_ok hQ hrun)

/-- Sequencing where nothing needs to be known. -/
theorem next {x : Io β} {f : β → Io α} (hx : Schedules x s) (hf : ∀ b s', Schedules (f b) s') :
    Schedules (x >>= f) s := hx.bind fun b s' _ => hf b s'

theorem now {f : Instant → Io α} (hf : Schedules (f s.clock) s) :
    Schedules (Bhtune.now >>= f) s := fun hs => wp_bind.mpr (wp_now.mpr (hf hs))

theorem getPending {f : Option PendingMvActuation → Io α} (hf : Schedules (f s.pending) s) :
    Schedules (Bhtune.getPending >>= f) s := fun hs => wp_bind.mpr (wp_getPending.mpr (hf hs))

theorem get {f : Sys → Io α} (hf : Schedules (f s) s) : Schedules (MonadState.get >>= f) s :=
  fun hs => wp_bind.mpr (wp_get.mpr (hf hs))

/-- What is there can be required. -/
theorem required {x : Option β} {a : β} (h : x = some a) (message : String) {f : β → Io α}
    (hf : Schedules (f a) s) : Schedules (requireInvariant x message >>= f) s := by
  rw [h]
  exact fun hs => wp_bind.mpr (hf hs)

theorem tryErr {x : Io α} (hx : Schedules x s) : Schedules (Bhtune.tryErr x) s := by
  intro hs
  refine wp_attempt.mpr (wp_mono (hx hs) (fun _ _ h => h) ?_)
  intro f s' hf
  cases f with
  | err e => exact hf.1
  | _ => exact hf

end Schedules

/-! ### Verification -/

variable {pending : PendingMvActuation}

theorem schedules_recordObservation (checkedAt : UtcTime) (readback : Option ℚ)
    (quality : Option SampleQuality) (policy : ActuationAuditPolicy) :
    Schedules (recordActuationObservation pending checkedAt readback quality policy) s := by
  refine .of_keeps (scheduling_of_recording
    (keeps_recordActuationObservation (fun _ h _ => h) _ _ _ _ _)) ?_
  unfold recordActuationObservation
  cases pending.id with
  | none => trivial
  | some row =>
    cases policy with
    | required => exact failsOutside_runStatement _
    | bestEffort => exact failsOutside_bestEffort (failsOutside_runStatement _)

theorem schedules_recordFinal (checkedAt : UtcTime) (readback : Option ℚ)
    (quality : Option SampleQuality) (status : MvActuationStatus) (detail : Text) :
    Schedules (recordFinalActuationObservation pending checkedAt readback quality status detail)
      s := by
  refine .of_keeps (scheduling_of_recording
    (keeps_recordFinalActuationObservation (fun _ h _ => h) _ _ _ _ _ _)) ?_
  unfold recordFinalActuationObservation
  cases pending.id with
  | none => trivial
  | some row => exact failsOutside_bestEffort (failsOutside_runStatement _)

theorem schedules_finalize (status : MvActuationStatus) (detail : Text) :
    Schedules (finalizeActuationBestEffort pending status detail) s := by
  refine .of_keeps (scheduling_of_recording
    (keeps_finalizeActuationBestEffort (fun _ h _ => h) _ _ _)) ?_
  unfold finalizeActuationBestEffort
  cases pending.id with
  | none => trivial
  | some row => exact failsOutside_bestEffort (failsOutside_runStatement _)

theorem schedules_checkedAt (checkedInstant : Instant) :
    Schedules (checkedAtForPending pending checkedInstant) s :=
  .of_keeps (keeps_checkedAtForPending _ _) (failsOutside_checkedAt _ _)

theorem Sys.Scheduled.mapTracker (h : s.Scheduled) (f : MvActuationTracker → MvActuationTracker)
    (hf : ∀ t pending, (f t).pending = some pending → ∃ held, t.pending = some held ∧
      pending.firstCheckAt = held.firstCheckAt ∧ pending.deadline = held.deadline) :
    (s.mapTracker f).Scheduled := by
  refine h.append (.refl _) fun pending hpending => ?_
  obtain ⟨t', ht', hp⟩ := pending_eq_some.mp hpending
  obtain ⟨t, ht, rfl⟩ := Option.map_eq_some_iff.mp ht'
  obtain ⟨held, hheld, heq⟩ := hf t pending hp
  exact ⟨held, pending_eq_some.mpr ⟨t, ht, hheld⟩, heq⟩

/-- A command that is there can be taken. -/
theorem schedules_take {f : PendingMvActuation → Io α} (h : s.pending = some pending)
    (message : String)
    (hf : pending.firstCheckAt ≤ pending.deadline →
      Schedules (f pending) (s.mapTracker fun t => { t with pending := none })) :
    Schedules (takePending message >>= f) s := fun hs =>
  wp_bind.mpr ((wp_takePending h message).mpr
    (hf (hs.held pending h) (hs.mapTracker _ fun _ _ h => nomatch h)))

/-- Putting a command back, with another readback at most. -/
theorem schedules_put {put : PendingMvActuation} (h : put.firstCheckAt ≤ put.deadline)
    {f : Unit → Io α} (hf : Schedules (f ()) (s.mapTracker fun t => { t with pending := some put })) :
    Schedules (setPending (some put) >>= f) s := by
  intro hs
  refine wp_bind.mpr ((wp_setPending _).mpr (hf ⟨fun pending hpending => ?_, hs.accepted⟩))
  obtain ⟨t', ht', hp⟩ := pending_eq_some.mp hpending
  obtain ⟨t, ht, rfl⟩ := Option.map_eq_some_iff.mp ht'
  cases hp
  exact h

theorem schedules_bail {e : Text} (h : ExternalError e s) : Schedules (bail e : Io α) s :=
  fun hs => ⟨hs, h⟩

theorem schedules_confirm (h : pending.firstCheckAt ≤ pending.deadline) (checkedAt : UtcTime)
    (readback : ℚ) (sampleQuality : SampleQuality) (policy : ActuationAuditPolicy) :
    Schedules (confirmPendingMvActuation pending checkedAt readback sampleQuality policy) s := by
  have hconfirm : ∀ s', Schedules
      (modifyTracker fun t => { t with confirmedMv := some pending.target }) s' := fun s' hs =>
    hs.mapTracker _ fun t held h => ⟨held, h, rfl, rfl⟩
  unfold confirmPendingMvActuation
  cases pending.id with
  | none => exact hconfirm s
  | some id =>
    have hrecord : Schedules (tryErr (runStatement (.recordFinalObservation id checkedAt
        (some readback) (some sampleQuality) .confirmed none))) s :=
      .tryErr (.of_keeps (scheduling_of_recording (keeps_runStatement fun _ => trivial))
        (failsOutside_runStatement _))
    refine hrecord.seq (wp_mono (tryErr_external (failsOutside_runStatement _)) (fun _ _ h => h)
      fun _ _ _ => trivial) fun r s' hr => ?_
    match r, policy with
    | .ok (), _ => exact hconfirm s'
    | .error _, .bestEffort => exact hconfirm s'
    | .error e, .required =>
      exact schedules_put h (.next (schedules_bail (hr e rfl)) fun _ _ => hconfirm _)

theorem schedules_finalizeVerification (h : s.pending = some pending) (tag : String)
    (value : PendingMvVerificationValue) (trigger : MvVerificationTrigger)
    (policy : ActuationAuditPolicy) :
    Schedules (finalizePendingMvVerification tag value trigger policy) s := by
  refine schedules_take h _ fun hpending => ?_
  split
  · exact .next (schedules_recordFinal _ _ _ _ _) fun _ _ => .pure _
  · split
    · exact .next (schedules_confirm hpending _ _ _ _) fun _ _ => .pure _
    · split
      · exact .next (schedules_recordFinal _ _ _ _ _) fun _ _ => .pure _
      · refine .next (schedules_recordObservation _ _ _ _) fun _ _ => schedules_put ?_ (.pure _)
        exact hpending

/-- The error of the read is the error of its resolution. -/
theorem schedules_resolveRead (h : s.pending = some pending) (ctx : RunContext) (tag : String)
    {operation : Except Text (TickOperation (ℚ × Quality))}
    (hoperation : ∀ e, operation = .error e → ExternalError e s) (checkedAt : UtcTime)
    (checkedInstant : Instant) :
    Schedules (resolvePendingMvRead ctx tag operation checkedAt checkedInstant) s := by
  match operation with
  | .error e =>
    refine schedules_take h _ fun _ => .seq (schedules_recordFinal _ _ _ _ _)
      ((audit_final _ _ _ _ _).and_wlp (wlp_true _)) fun _ s' hs' => schedules_bail ?_
    exact (show ExternalError e s from hoperation e rfl).append hs'.1.1
  | .ok .cancelled =>
    exact schedules_take h _ fun _ => .next (schedules_finalize _ _) fun _ _ => .pure _
  | .ok .timedOut =>
    exact schedules_take h _ fun _ => .next (schedules_recordFinal _ _ _ _ _) fun _ _ => .pure _
  | .ok (.completed (readback, quality)) =>
    unfold resolvePendingMvRead
    dsimp only
    split
    · exact schedules_take h _ fun _ => .next (schedules_recordFinal _ _ _ _ _) fun _ _ => .pure _
    · exact .pure _

/-- The frame of a read that leaves every variable alone keeps the schedule. -/
theorem schedules_readNumericSample (limit : Option Instant) (opTimeoutSecs : ℕ) (tag : String) :
    Schedules (readNumericSample limit opTimeoutSecs tag) s :=
  .of_keeps (scheduling_of_recording (keeps_readNumericSample (fun _ => trivial) _ _ _))
    (failsOutside_readNumericSample _ _ _)

theorem schedules_ready (h : s.pending = some pending)
    (operation : Except Text (TickOperation (ℚ × Quality))) :
    Schedules (pendingVerificationReady operation) s := by
  refine .now (.getPending (.required h _ ?_))
  exact .next (schedules_checkedAt _) fun _ _ => .pure _

/-- What one round of the read leaves: the command is still there, or the round answers with it,
and an error it answers with came from outside. -/
def RoundLeaves (s' : Sys) : MvVerificationTrigger ⊕ PendingMvVerificationRead → Prop
  | .inl _ => s'.pending.isSome = true
  | .inr (.ready operation _ _) => s'.pending.isSome = true ∧
      ∀ e, operation = .error e → ExternalError e s'
  | .inr _ => s'.pending = none

theorem ready_leaves (h : s.pending = some pending)
    {operation : Except Text (TickOperation (ℚ × Quality))}
    (hoperation : ∀ e, operation = .error e → ExternalError e s) :
    wlp (pendingVerificationReady operation >>= fun read => pure (.inr read))
      (fun r s' => RoundLeaves s' r) s := by
  refine wlp_seq (pendingVerificationReady_spec _) ?_
  rintro _ _ ⟨rfl, checkedAt, rfl⟩
  exact ⟨by rw [h]; rfl, hoperation⟩

theorem taken_pending : (s.mapTracker fun t => { t with pending := none }).pending = none := by
  unfold Sys.pending Sys.mapTracker
  cases s.program.tracker <;> rfl

theorem readPendingRound_leaves (h : s.pending = some pending) (ctx : RunContext) (tag : String)
    (callLimit : MvVerificationCallLimit) (trigger : MvVerificationTrigger) :
    wlp (readPendingRound ctx tag callLimit trigger) (fun r s' => RoundLeaves s' r) s := by
  refine wp_bind.mpr (wp_getPending.mpr ?_)
  rw [h]
  refine wp_bind.mpr (wp_bind.mpr (wp_now.mpr ?_))
  have hframe : ∀ limit, Keeps auditing
      (tryErr (readNumericSample limit ctx.effectiveTiming.opTimeoutSecs tag)) := fun _ =>
    keeps_tryErr (keeps_readNumericSample (fun _ => trivial) _ _ _)
  refine wlp_seq ((hframe _).and_wlp (wp_mono (tryErr_external
    (failsOutside_readNumericSample _ _ _)) (fun _ _ h => h) fun _ _ _ => trivial)) ?_
  rintro r s' ⟨hrel, herror⟩
  have hpending : s'.pending = some pending := (pending_of_rel hrel).trans h
  match r with
  | .error e =>
    refine ready_leaves hpending ?_
    rintro _ ⟨rfl⟩
    exact herror e rfl
  | .ok (some operation) => exact ready_leaves hpending nofun
  | .ok none =>
    have htake : ∀ message (f : PendingMvActuation → Instant → UtcTime → PendingMvVerificationRead),
        (∀ p t at' s', s'.pending = none → RoundLeaves s' (.inr (f p t at'))) →
        wlp (takePending message >>= fun p => now >>= fun t => checkedAtForPending p t >>=
            fun at' => (pure (.inr (f p t at')) :
              Io (MvVerificationTrigger ⊕ PendingMvVerificationRead)))
          (fun r s' => RoundLeaves s' r) s' := by
      intro message f hf
      refine wp_bind.mpr ((wp_takePending hpending _).mpr (wp_bind.mpr (wp_now.mpr ?_)))
      refine (keeps_checkedAtForPending _ _ : Keeps auditing _).wlp_seq fun _ s'' hrel' => ?_
      exact hf _ _ _ _ ((pending_of_rel hrel').trans taken_pending)
    dsimp only
    split
    · show s'.pending.isSome = true
      rw [hpending]
      rfl
    · exact htake _ _ fun _ _ _ _ h => h
    · exact htake _ _ fun _ _ _ _ h => h

theorem schedules_readRound (h : s.pending = some pending) (ctx : RunContext) (tag : String)
    (callLimit : MvVerificationCallLimit) (trigger : MvVerificationTrigger) :
    Schedules (readPendingRound ctx tag callLimit trigger) s := by
  have hread : ∀ limit, Keeps auditing
      (tryErr (readNumericSample limit ctx.effectiveTiming.opTimeoutSecs tag)) := fun _ =>
    keeps_tryErr (keeps_readNumericSample (fun _ => trivial) _ _ _)
  refine .getPending (.required h _ (.now (.seq (.tryErr (schedules_readNumericSample _ _ _))
    ((hread _).and_wlp (wlp_true _)) fun r s' hs' => ?_)))
  have hpending : s'.pending = some pending := (pending_of_rel hs'.1).trans h
  match r with
  | .error e => exact .next (schedules_ready hpending _) fun _ _ => .pure _
  | .ok (some operation) => exact .next (schedules_ready hpending _) fun _ _ => .pure _
  | .ok none =>
    dsimp only
    split
    · exact .pure _
    · exact schedules_take hpending _ fun _ => .now (.next (schedules_checkedAt _) fun _ _ => .pure _)
    · exact schedules_take hpending _ fun _ => .now (.next (schedules_checkedAt _) fun _ _ => .pure _)

/-- The rounds of the read begin with the command still there. -/
theorem schedules_readVerification (h : s.pending = some pending) (ctx : RunContext) (tag : String)
    (trigger : MvVerificationTrigger) (callLimit : MvVerificationCallLimit) :
    Schedules (readPendingMvVerification ctx tag trigger callLimit) s := by
  intro hs
  refine wp_iterate (fun _ s' => s'.Scheduled ∧ s'.pending.isSome = true) ?_ ?_ 2 trigger
    ⟨hs, by rw [h]; rfl⟩
  · rintro trigger' s' ⟨hs', hsome⟩
    obtain ⟨held, hheld⟩ := Option.isSome_iff_exists.mp hsome
    refine wp_mono (wp_and (schedules_readRound hheld ctx tag callLimit trigger' hs')
      (readPendingRound_leaves hheld ctx tag callLimit trigger')) ?_ fun _ _ h => h.1
    rintro r s'' ⟨hs'', hleaves⟩
    cases r with
    | inl next => exact ⟨hs'', hleaves⟩
    | inr read => exact hs''
  · exact fun _ _ h => ⟨h.1, trivial⟩

theorem readVerification_leaves (h : s.pending = some pending) (ctx : RunContext) (tag : String)
    (trigger : MvVerificationTrigger) (callLimit : MvVerificationCallLimit) :
    wlp (readPendingMvVerification ctx tag trigger callLimit)
      (fun read s' => RoundLeaves s' (.inr read)) s := by
  refine wlp_iterate (fun _ s' => s'.pending.isSome = true) ?_ 2 trigger (by rw [h]; rfl)
  intro trigger' s' hsome
  obtain ⟨held, hheld⟩ := Option.isSome_iff_exists.mp hsome
  refine wlp_mono (readPendingRound_leaves hheld ctx tag callLimit trigger') fun r s'' hr => ?_
  cases r with
  | inl next => exact hr
  | inr read => exact hr

/-- **A verification keeps the schedule**, and fails only for reasons outside. -/
theorem schedules_verify (ctx : RunContext) (tag : String) (trigger : MvVerificationTrigger)
    (callLimit : MvVerificationCallLimit) (policy : ActuationAuditPolicy) :
    Schedules (verifyPendingMvActuation ctx tag trigger callLimit policy) s := by
  refine .getPending ?_
  cases hpending : s.pending with
  | none => exact .pure _
  | some pending =>
    refine .now ?_
    split
    · exact .pure _
    · refine .seq (schedules_readVerification hpending _ _ _ _)
        (readVerification_leaves hpending _ _ _ _) fun read s' hread => ?_
      cases read with
      | deadlineTimedOut pending checkedAt checkedInstant =>
        exact .next (schedules_recordFinal _ _ _ _ _) fun _ _ => .pure _
      | restoreTimedOut pending checkedAt checkedInstant =>
        exact .next (schedules_recordFinal _ _ _ _ _) fun _ _ => .pure _
      | ready operation checkedAt checkedInstant =>
        obtain ⟨held, hheld⟩ := Option.isSome_iff_exists.mp hread.1
        refine .seq (schedules_resolveRead hheld ctx tag hread.2 _ _)
          (resolvePendingMvRead_spec _ _ _ _ _) fun r s'' hr => ?_
        cases r with
        | abort reason => exact .pure _
        | value value =>
          obtain ⟨rfl, _⟩ := hr value rfl
          exact schedules_finalizeVerification hheld _ _ _ _

/-! ### A verification at the deadline -/

theorem resolveRead_abort (ctx : RunContext) (tag : String)
    (operation : Except Text (TickOperation (ℚ × Quality))) (checkedAt : UtcTime)
    (checkedInstant : Instant) :
    wlp (resolvePendingMvRead ctx tag operation checkedAt checkedInstant)
      (fun r s' => ∀ reason, r = .abort reason → s'.pending = none) s := by
  have hrecorded : ∀ readback quality detail (s : Sys), s.pending = none → ∀ held,
      wlp (recordFinalActuationObservation held checkedAt readback quality .unverified detail)
        (fun _ s' => s'.pending = none) s := by
    intro readback quality detail s hnone held
    exact wlp_mono ((audit_final _ _ _ _ _).and_wlp (wlp_true _)) fun _ _ h =>
      (pending_of_rel h.1).trans hnone
  match operation with
  | .error e =>
    exact wp_bind.mpr ((wlp_takePending _).mpr fun _ _ => wlp_last fun _ _ => trivial)
  | .ok .cancelled =>
    refine wp_bind.mpr ((wlp_takePending _).mpr fun _ _ =>
      (audit_finalize _ _).wlp_seq fun _ _ hrel _ _ => ?_)
    exact (pending_of_rel hrel).trans taken_pending
  | .ok .timedOut =>
    exact wp_bind.mpr ((wlp_takePending _).mpr fun held _ =>
      wlp_seq (hrecorded _ _ _ _ taken_pending held) fun _ _ h _ _ => h)
  | .ok (.completed (readback, quality)) =>
    unfold resolvePendingMvRead
    dsimp only
    split
    · exact wp_bind.mpr ((wlp_takePending _).mpr fun held _ =>
        wlp_seq (hrecorded _ _ _ _ taken_pending held) fun _ _ h _ _ => h)
    · exact nofun

theorem finalize_deadline (tag : String) (value : PendingMvVerificationValue)
    (policy : ActuationAuditPolicy) :
    wlp (finalizePendingMvVerification tag value .deadline policy)
      (fun _ s' => s'.pending = none) s := by
  refine wp_bind.mpr ((wlp_takePending _).mpr fun taken _ => ?_)
  split
  · exact (audit_final _ _ _ _ _).wlp_seq fun _ _ hrel => (pending_of_rel hrel).trans taken_pending
  · split
    · refine wlp_seq (confirmPendingMvActuation_spec _ _ _ _) fun _ s' hs' => ?_
      show s'.program.tracker.bind (·.pending) = none
      rw [hs', Option.bind_map]
      exact taken_pending
    · rw [if_pos (.inl rfl)]
      exact (audit_final _ _ _ _ _).wlp_seq fun _ _ hrel =>
        (pending_of_rel hrel).trans taken_pending

/-- **A verification at the deadline leaves nothing pending**: the command was confirmed, or the
run is given up. -/
theorem verifyPendingMvActuation_deadline (ctx : RunContext) (tag : String)
    (callLimit : MvVerificationCallLimit) (policy : ActuationAuditPolicy) :
    wlp (verifyPendingMvActuation ctx tag .deadline callLimit policy)
      (fun _ s' => s'.pending = none) s := by
  refine wp_bind.mpr (wp_getPending.mpr ?_)
  cases hpending : s.pending with
  | none => exact hpending
  | some pending =>
    refine wp_bind.mpr (wp_now.mpr ?_)
    rw [if_neg fun h => nomatch h.1]
    refine wlp_seq (readVerification_leaves hpending _ _ _ _) fun read s' hread => ?_
    cases read with
    | deadlineTimedOut pending checkedAt checkedInstant =>
      exact (audit_final _ _ _ _ _).wlp_seq fun _ _ hrel => (pending_of_rel hrel).trans hread
    | restoreTimedOut pending checkedAt checkedInstant =>
      exact (audit_final _ _ _ _ _).wlp_seq fun _ _ hrel => (pending_of_rel hrel).trans hread
    | ready operation checkedAt checkedInstant =>
      refine wlp_seq (resolveRead_abort _ _ _ _ _) fun r s'' hr => ?_
      cases r with
      | abort reason => exact hr reason rfl
      | value value => exact finalize_deadline _ _ _

end Schedule

end Bhtune
