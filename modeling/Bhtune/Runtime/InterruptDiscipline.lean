import Bhtune.Runtime.RunParts

/-!
# Interrupts during a restore

A run listens to its interrupts through one receiver, which remembers only how many it has seen.
An await that resolves by an interrupt cuts short whatever is going on.  A restore that follows an
interrupted polling phase is cut short only by a second interrupt; one that follows any other end
of the polling phase is cut short by the first.

* `Sys.Listens`, `Sys.Heard` — what the receiver has seen was delivered, and is at least one;
* `Tells` — a program that ends with an interrupt has heard one;
* `pollFresh_heard` — an interrupted polling phase has;
* `interrupt_discipline` — when a restore is cut short only by a second interrupt.
-/

namespace Bhtune

open Effect EventLog

/-! ### What a receiver has seen -/

/-- The receiver has seen no more than was delivered. -/
def Sys.Listens (s : Sys) : Prop := s.signalsSeen ≤ s.environment.delivered s.clock

/-- The receiver has seen an interrupt. -/
def Sys.Heard (s : Sys) : Prop := 1 ≤ s.signalsSeen

/-- How many interrupts have been delivered. -/
def Sys.delivered (s : Sys) : ℕ := s.environment.delivered s.clock

namespace Sys.Passes

variable {s s' : Sys}

theorem listens (h : s.Passes s') (hs : s.Listens) : s'.Listens := by
  unfold Listens
  rw [h.environment]
  rcases h.signals with hsame | ⟨t, _, hle, hseen⟩
  · rw [hsame]
    exact hs.trans (s.environment.delivered_mono h.clock)
  · rw [hseen]
    exact s.environment.delivered_mono hle

theorem seen_le (h : s.Passes s') (hs : s.Listens) : s.signalsSeen ≤ s'.signalsSeen := by
  rcases h.signals with hsame | ⟨t, hle, _, hseen⟩
  · exact hsame.ge
  · rw [hseen]
    exact hs.trans (s.environment.delivered_mono hle)

theorem heard (h : s.Passes s') (hs : s.Listens) (hheard : s.Heard) : s'.Heard :=
  hheard.trans (h.seen_le hs)

end Sys.Passes

/-- A receiver for which the next interrupt was ready has heard one once it has looked. -/
theorem heard_of_ready {s s' : Sys} {t : Instant} (henvironment : s'.environment = s.environment)
    (hnext : s.nextSignal = some t) (hready : t ≤ s'.clock) : s'.seeSignals.Heard := by
  show 1 ≤ (s'.environment.signals.filter (· ≤ s'.clock)).length
  rw [henvironment]
  exact List.length_pos_of_mem (List.mem_filter.mpr
    ⟨List.mem_of_getElem? hnext, decide_eq_true hready⟩)

/-! ### Programs that tell of an interrupt -/

/-- Wherever `x` ends with a value that tells of an interrupt, one was heard. -/
def Tells {α : Type} (interrupted : α → Prop) (x : Io α) : Prop :=
  ∀ s, s.Listens → wlp x (fun a s' => interrupted a → s'.Heard) s

namespace Tells

variable {α β : Type} {interrupted : α → Prop} {noted : β → Prop} {x : Io β} {f : β → Io α}

theorem pure {a : α} (h : ¬interrupted a) : Tells interrupted (Pure.pure a : Io α) :=
  fun _ _ hint => absurd hint h

theorem bail (e : Text) : Tells interrupted (Bhtune.bail e : Io α) := fun _ _ => trivial

theorem throw (fault : Fault) : Tells interrupted (MonadExcept.throw fault : Io α) :=
  fun _ _ => trivial

/-- What precedes has nothing to tell. -/
theorem after (hx : Keeps passing x) (hf : ∀ b, Tells interrupted (f b)) :
    Tells interrupted (x >>= f) := fun _ hs =>
  hx.wlp_seq fun b s' hrel => hf b s' (hrel.2.1.listens hs)

/-- What precedes tells of an interrupt, and what follows passes it on. -/
theorem bind (hx : Tells noted x) (hkeeps : Keeps passing x)
    (hnoted : ∀ b, noted b → Keeps passing (f b))
    (hf : ∀ b, ¬noted b → Tells interrupted (f b)) : Tells interrupted (x >>= f) := by
  intro s hs
  refine wlp_seq (hkeeps.and_wlp (hx s hs)) ?_
  rintro b s' ⟨hrel, hheard⟩
  have hs' := hrel.2.1.listens hs
  by_cases hb : noted b
  · exact wp_mono (hnoted b hb s') (fun _ _ h _ => h.2.1.heard hs' (hheard hb)) fun _ _ _ => trivial
  · exact hf b hb s' hs'

theorem weaken {interrupted' : α → Prop} {x : Io α} (hx : Tells interrupted x)
    (h : ∀ a, interrupted' a → interrupted a) : Tells interrupted' x := fun s hs =>
  wlp_mono (hx s hs) fun a _ hheard hint => hheard (h a hint)

/-- A loop tells what its last round tells. -/
theorem iterate {stop : Fault} {body : β → Io (β ⊕ α)} (hkeeps : ∀ b, Keeps passing (body b))
    (hbody : ∀ b, Tells (fun r => ∃ a, r = .inr a ∧ interrupted a) (body b)) (n : ℕ) (b : β) :
    Tells interrupted (iterate stop body n b) := by
  intro s hs
  refine wlp_iterate (fun _ s' => s'.Listens) ?_ n b hs
  intro b' s' hs'
  refine wlp_mono ((hkeeps b').and_wlp (hbody b' s' hs')) ?_
  rintro (b'' | a) s'' ⟨hrel, hheard⟩
  · exact hrel.2.1.listens hs'
  · exact fun hint => hheard ⟨a, rfl, hint⟩

end Tells

/-! ### Driver calls -/

theorem tells_raceCall (limit : Option Instant) (opTimeoutSecs : ℕ) :
    Tells (fun r : CallEnd × Answer => r.1 = .cancelled) (raceCall limit opTimeoutSecs) := by
  intro s _
  refine wp_bind.mpr (wp_get.mpr (wp_seq (wp_mono (wake_spec _) (fun _ _ h => h) fun _ _ _ =>
    trivial) fun a s' hs' => wp_bind.mpr (wp_now.mpr ?_)))
  split
  · rename_i hchosen
    intro _
    obtain ⟨t, hmem, hready⟩ := ready_of_chooseReady hchosen
    have hcancel : s.nextSignal = some t := by
      simpa [eq_comm] using hmem
    exact heard_of_ready hs'.passes.environment hcancel hready
  · rename_i ended hother hchosen
    exact fun hcancelled => (hother hcancelled).elim
  · exact nofun

/-- Only an abandoned call is a cancelled one. -/
theorem tells_boundedRead (limit : Option Instant) (opTimeoutSecs : ℕ) (kind : ReadKind)
    (tags : List String) :
    Tells (fun r => r = some .cancelled) (boundedRead limit opTimeoutSecs kind tags) := by
  have hemit : ∀ call, Keeps passing (emit (.read call)) := fun _ => keeps_emit trivial
  refine .after keeps_now fun started => .bind (tells_raceCall limit opTimeoutSecs)
    (keeps_raceCall _ _) ?_ ?_
  · rintro ⟨ended, a⟩ rfl
    exact keeps_now.bind fun _ => (hemit _).bind fun _ => .pure _
  · rintro ⟨ended, a⟩ hended
    refine .after keeps_now fun finished => ?_
    cases ended with
    | replied =>
      exact .after (hemit _) fun _ => .after (keeps_readValues _) fun _ => .pure nofun
    | cancelled => exact absurd rfl hended
    | timedOut => exact .after (hemit _) fun _ => .pure nofun
    | elapsed => exact .after (hemit _) fun _ => .pure nofun

theorem tells_boundedWrite (limit : Option Instant) (opTimeoutSecs : ℕ) (origin : Origin)
    (tag : String) (value : TagWrite) :
    Tells (fun r => r = some .cancelled) (boundedWrite limit opTimeoutSecs origin tag value) := by
  have hemit : ∀ call, Keeps passing (emit (.write call)) := fun _ => keeps_emit trivial
  refine .after keeps_now fun started => .bind (tells_raceCall limit opTimeoutSecs)
    (keeps_raceCall _ _) ?_ ?_
  · rintro ⟨ended, a⟩ rfl
    exact keeps_now.bind fun _ => (hemit _).bind fun _ => .pure _
  · rintro ⟨ended, a⟩ hended
    refine .after keeps_now fun finished => ?_
    cases ended with
    | replied => exact .after (hemit _) fun _ => .after (keeps_toIo _ _) fun _ => .pure nofun
    | cancelled => exact absurd rfl hended
    | timedOut => exact .after (hemit _) fun _ => .pure nofun
    | elapsed => exact .after (hemit _) fun _ => .pure nofun

theorem tells_bounded {α : Type} {x : Io (Option (TickOperation α))}
    (hx : Tells (fun r => r = some .cancelled) x) (hkeeps : Keeps passing x) :
    Tells (fun r => r = .cancelled) (bounded x) := by
  refine .bind hx hkeeps ?_ ?_
  · rintro _ rfl
    exact .pure _
  · intro r hr
    cases r with
    | none => exact .throw _
    | some operation => exact .pure fun hcancelled => hr (congrArg some hcancelled)

theorem tells_readNumericSample (limit : Option Instant) (opTimeoutSecs : ℕ) (tag : String) :
    Tells (fun r => r = some .cancelled) (readNumericSample limit opTimeoutSecs tag) := by
  refine .bind (tells_boundedRead limit opTimeoutSecs .first [tag])
    (keeps_boundedRead fun _ => trivial) ?_ ?_
  · rintro _ rfl
    exact .pure _
  · intro r hr
    match r with
    | none => exact .pure nofun
    | some .cancelled => exact absurd rfl hr
    | some .timedOut => exact .pure nofun
    | some (.completed values) => exact .after (keeps_liftResult _) fun _ => .pure nofun

theorem tells_tryErr {α : Type} {noted : α → Prop} {x : Io α} (hx : Tells noted x) :
    Tells (fun r => ∃ a, r = .ok a ∧ noted a) (tryErr x) := by
  intro s hs
  refine wlp_tryErr (wp_mono (hx s hs) ?_ fun _ _ _ _ _ ⟨_, h, _⟩ => nomatch h)
  rintro a s' hheard ⟨_, ⟨rfl⟩, hnoted⟩
  exact hheard hnoted

/-! ### Verification -/

/-- The verification read was cut short. -/
def PendingMvVerificationRead.Interrupted : PendingMvVerificationRead → Prop
  | .ready (.ok .cancelled) _ _ => True
  | _ => False

section Verification

variable {ctx : RunContext}

theorem tells_pendingVerificationReady {operation : Except Text (TickOperation (ℚ × Quality))}
    (h : operation ≠ .ok .cancelled) :
    Tells PendingMvVerificationRead.Interrupted (pendingVerificationReady operation) := by
  refine .after keeps_now fun _ => .after keeps_getPending fun _ =>
    .after (keeps_requireInvariant _ _) fun _ => .after (keeps_checkedAtForPending _ _) fun _ =>
      .pure ?_
  match operation with
  | .error e => exact id
  | .ok .cancelled => exact absurd rfl h
  | .ok .timedOut => exact id
  | .ok (.completed sample) => exact id

theorem tells_readPendingRound (tag : String) (callLimit : MvVerificationCallLimit)
    (trigger : MvVerificationTrigger) :
    Tells (fun r => ∃ read, r = .inr read ∧ read.Interrupted)
      (readPendingRound ctx tag callLimit trigger) := by
  have hready : ∀ operation, operation ≠ .ok .cancelled →
      Tells (fun r : MvVerificationTrigger ⊕ PendingMvVerificationRead =>
        ∃ read, r = .inr read ∧ read.Interrupted)
        (pendingVerificationReady operation >>= fun read => pure (.inr read)) := by
    intro operation h
    refine .bind (tells_pendingVerificationReady h) (keeps_pendingVerificationReady _)
      (fun _ _ => .pure _) fun read hread => .pure ?_
    rintro ⟨_, ⟨rfl⟩, hint⟩
    exact hread hint
  have htake : ∀ message, Keeps passing (takePending message) := fun _ =>
    keeps_takePending (fun _ _ _ => rfl) _
  refine .after keeps_getPending fun _ => .after (keeps_requireInvariant _ _) fun pending =>
    .after keeps_now fun t => .bind (tells_tryErr (tells_readNumericSample _ _ _))
      (keeps_tryErr (keeps_readNumericSample (fun _ => trivial) _ _ _)) ?_ ?_
  · rintro _ ⟨_, rfl, rfl⟩
    exact (keeps_pendingVerificationReady _).bind fun _ => .pure _
  · intro r hr
    match r with
    | .error e => exact hready _ nofun
    | .ok (some operation) =>
      refine hready _ ?_
      rintro ⟨rfl⟩
      exact hr ⟨_, rfl, rfl⟩
    | .ok none =>
      dsimp only
      split
      · exact .pure fun ⟨_, h, _⟩ => nomatch h
      · refine .after (htake _) fun _ => .after keeps_now fun _ =>
          .after (keeps_checkedAtForPending _ _) fun _ => .pure ?_
        rintro ⟨_, ⟨rfl⟩, hint⟩
        exact hint
      · refine .after (htake _) fun _ => .after keeps_now fun _ =>
          .after (keeps_checkedAtForPending _ _) fun _ => .pure ?_
        rintro ⟨_, ⟨rfl⟩, hint⟩
        exact hint

theorem tells_readPendingMvVerification (tag : String) (trigger : MvVerificationTrigger)
    (callLimit : MvVerificationCallLimit) :
    Tells PendingMvVerificationRead.Interrupted
      (readPendingMvVerification ctx tag trigger callLimit) :=
  .iterate (fun _ => keeps_readPendingRound (fun _ _ _ => trivial) (fun _ _ _ => rfl) _ _ _ _)
    (tells_readPendingRound tag callLimit) _ _

/-- Only a cancelled read is resolved to an interrupt. -/
theorem tells_resolvePendingMvRead {tag : String}
    {operation : Except Text (TickOperation (ℚ × Quality))} (checkedAt : UtcTime)
    (checkedInstant : Instant) (h : operation ≠ .ok .cancelled) :
    Tells (fun r => r = .abort .userInterrupt)
      (resolvePendingMvRead ctx tag operation checkedAt checkedInstant) := by
  have htake : ∀ message, Keeps passing (takePending message) := fun _ =>
    keeps_takePending (fun _ _ _ => rfl) _
  have hrecord : ∀ pending readback quality status detail, Keeps passing
      (recordFinalActuationObservation pending checkedAt readback quality status detail) :=
    fun _ _ _ _ _ => keeps_recordFinalActuationObservation (fun _ _ _ => trivial) _ _ _ _ _ _
  match operation with
  | .error e =>
    exact .after (htake _) fun _ => .after (hrecord _ _ _ _ _) fun _ => .bail _
  | .ok .cancelled => exact absurd rfl h
  | .ok .timedOut =>
    exact .after (htake _) fun _ => .after (hrecord _ _ _ _ _) fun _ => .pure nofun
  | .ok (.completed (readback, quality)) =>
    unfold resolvePendingMvRead
    dsimp only
    split
    · exact .after (htake _) fun _ => .after (hrecord _ _ _ _ _) fun _ => .pure nofun
    · exact .pure nofun

/-- The result of a verification is never an interrupt. -/
theorem tells_finalizePendingMvVerification (tag : String) (value : PendingMvVerificationValue)
    (trigger : MvVerificationTrigger) (policy : ActuationAuditPolicy) :
    Tells (fun r => r = some .userInterrupt)
      (finalizePendingMvVerification tag value trigger policy) := by
  have hrecord : ∀ pending readback quality status detail, Keeps passing
      (recordFinalActuationObservation pending value.checkedAt readback quality status detail) :=
    fun _ _ _ _ _ => keeps_recordFinalActuationObservation (fun _ _ _ => trivial) _ _ _ _ _ _
  refine .after (keeps_takePending (fun _ _ _ => rfl) _) fun pending => ?_
  split
  · exact .after (hrecord _ _ _ _ _) fun _ => .pure nofun
  · split
    · exact .after (keeps_confirmPendingMvActuation (fun _ _ _ => trivial) (fun _ _ _ => rfl) _ _ _ _ _)
        fun _ => .pure nofun
    · split
      · exact .after (hrecord _ _ _ _ _) fun _ => .pure nofun
      · exact .after (keeps_recordActuationObservation (fun _ _ _ => trivial) _ _ _ _ _) fun _ =>
          .after (keeps_setPending (fun _ _ _ => rfl) _) fun _ => .pure nofun

theorem tells_verifyPendingMvActuation (tag : String) (trigger : MvVerificationTrigger)
    (callLimit : MvVerificationCallLimit) (policy : ActuationAuditPolicy) :
    Tells (fun r => r = some .userInterrupt)
      (verifyPendingMvActuation ctx tag trigger callLimit policy) := by
  have hrecord : ∀ pending checkedAt readback quality status detail, Keeps passing
      (recordFinalActuationObservation pending checkedAt readback quality status detail) :=
    fun _ _ _ _ _ _ => keeps_recordFinalActuationObservation (fun _ _ _ => trivial) _ _ _ _ _ _
  have hresolve : ∀ operation checkedAt checkedInstant, Keeps passing
      (resolvePendingMvRead ctx tag operation checkedAt checkedInstant) := fun _ _ _ =>
    keeps_resolvePendingMvRead (fun _ _ _ => trivial) (fun _ _ _ => rfl) _ _ _ _ _
  refine .after keeps_getPending fun pending => ?_
  cases pending with
  | none => exact .pure nofun
  | some pending =>
    refine .after keeps_now fun t => ?_
    split
    · exact .pure nofun
    · refine .bind (tells_readPendingMvVerification tag trigger callLimit)
        (.iterate (fun _ => keeps_readPendingRound (fun _ _ _ => trivial) (fun _ _ _ => rfl) _ _ _ _)
          _ _) ?_ ?_
      · intro read hread
        match read with
        | .ready (.ok .cancelled) checkedAt checkedInstant =>
          refine (hresolve _ _ _).bind fun r => ?_
          cases r with
          | abort reason => exact .pure _
          | value v =>
            exact keeps_finalizePendingMvVerification (fun _ _ _ => trivial) (fun _ _ _ => rfl) _ _ _ _
      · intro read hread
        cases read with
        | deadlineTimedOut pending checkedAt checkedInstant =>
          exact .after (hrecord _ _ _ _ _ _) fun _ => .pure nofun
        | restoreTimedOut pending checkedAt checkedInstant =>
          exact .after (hrecord _ _ _ _ _ _) fun _ => .pure nofun
        | ready operation checkedAt checkedInstant =>
          refine .bind (tells_resolvePendingMvRead checkedAt checkedInstant ?_) (hresolve _ _ _)
            ?_ ?_
          · rintro rfl
            exact hread trivial
          · rintro _ rfl
            exact .pure _
          · intro r hr
            cases r with
            | abort reason =>
              refine .pure ?_
              rintro ⟨rfl⟩
              exact hr rfl
            | value v => exact tells_finalizePendingMvVerification _ _ _ _

/-- Only a cancelled poll is resolved to an interrupt. -/
theorem tells_resolvePendingMvPoll {operation : TickOperation (List TagValue)}
    (checkedAt : UtcTime) (checkedInstant : Instant) (h : operation ≠ .cancelled) :
    Tells (fun r => r.1 = some .userInterrupt)
      (resolvePendingMvPoll ctx operation checkedAt checkedInstant) := by
  refine .bind (tells_resolvePendingMvRead checkedAt checkedInstant ?_)
    (keeps_resolvePendingMvRead (fun _ _ _ => trivial) (fun _ _ _ => rfl) _ _ _ _ _) ?_ ?_
  · cases operation with
    | completed values =>
      dsimp only
      cases readNumericFromBatch values ctx.tags.manipulatedVariable <;> exact nofun
    | cancelled => exact absurd rfl h
    | timedOut => exact nofun
  · rintro _ rfl
    exact .pure _
  · intro r hr
    cases r with
    | abort reason =>
      refine .pure ?_
      rintro ⟨rfl⟩
      exact hr rfl
    | value v =>
      refine .bind (tells_finalizePendingMvVerification _ _ _ _)
        (keeps_finalizePendingMvVerification (fun _ _ _ => trivial) (fun _ _ _ => rfl) _ _ _ _)
        (fun _ _ => .pure _) fun r hr => .pure hr

end Verification

/-! ### The polling loop -/

/-- The poll ended the run by an interrupt, or is about to. -/
def PollRead.Interrupted : PollRead → Prop
  | .sample _ _ _ reason => reason = some .userInterrupt
  | .aborted reason => reason = .userInterrupt

/-- A turn of the loop ended the run by an interrupt. -/
def TurnInterrupted (r : PollState ⊕ PollOutcome) : Prop := r = .inr (.aborted .userInterrupt)

section Polling

variable {ctx : RunContext}

theorem tells_pollRead : Tells PollRead.Interrupted (pollRead ctx) := by
  have hread : ∀ mvTag, Tells (fun r => r = .cancelled)
      (readPollBatch ctx.effectiveTiming.opTimeoutSecs ctx.tags.processVariable mvTag) := fun _ =>
    tells_bounded (tells_boundedRead _ _ _ _) (keeps_boundedRead fun _ => trivial)
  have hresolve : ∀ operation checkedAt checkedInstant, Keeps passing
      (resolvePendingMvPoll ctx operation checkedAt checkedInstant) := fun _ _ _ =>
    keeps_resolvePendingMvPoll (fun _ _ _ => trivial) (fun _ _ _ => rfl) _ _ _ _
  refine .after keeps_getPending fun pending =>
    .bind (hread _) (keeps_readPollBatch (fun _ => trivial) _ _ _) ?_ ?_
  · rintro _ rfl
    exact keeps_abandonedPollRead (fun _ _ _ => trivial) (fun _ _ _ => rfl) _ _ _ _
  · intro r hr
    cases r with
    | cancelled => exact absurd rfl hr
    | timedOut =>
      refine .after keeps_getPending fun pending => ?_
      cases pending with
      | none => exact .pure nofun
      | some pending =>
        refine .after keeps_now fun _ => .after (keeps_checkedAtForPending _ _) fun _ =>
          .bind (tells_resolvePendingMvPoll _ _ nofun) (hresolve _ _ _)
            (fun _ _ => (keeps_requireInvariant _ _).bind fun _ => .pure _) fun r hr s _ => ?_
        refine wp_bind.mpr ((wlp_requireInvariant _ _).mpr ?_)
        rintro reason hreason (rfl : reason = .userInterrupt)
        exact absurd hreason hr
    | completed values =>
      have htail : ∀ reason evidence, reason ≠ some .userInterrupt →
          Tells PollRead.Interrupted
            (liftResult (readNumericFromBatch values ctx.tags.processVariable) >>= fun x =>
              pure (PollRead.sample x.1 x.2 evidence reason)) := fun _ _ h =>
        .after (keeps_liftResult _) fun _ => .pure h
      refine .after keeps_now fun t => ?_
      dsimp only
      split
      · refine .after keeps_getPending fun _ => .after (keeps_requireInvariant _ _) fun _ =>
          .after (keeps_checkedAtForPending _ _) fun _ =>
            .bind (tells_resolvePendingMvPoll _ _ nofun) (hresolve _ _ _)
              (fun _ _ => (keeps_liftResult _).bind fun _ => .pure _) fun r hr => htail _ _ hr
      · exact htail none false nofun

theorem tells_performWriteMv (v : ℚ) (time : UtcTime) (observedInstant : Instant) :
    Tells (fun r => r = .cancelled) (performWriteMv ctx v time observedInstant) := by
  have hwrite : ∀ origin, Keeps passing (boundedWrite none ctx.effectiveTiming.opTimeoutSecs
      origin ctx.tags.manipulatedVariable (.float v)) := fun _ =>
    keeps_boundedWrite fun _ _ _ => trivial
  have hrecord : ∀ tolerance operation,
      Keeps passing (recordWriteMv ctx v time observedInstant tolerance operation) := by
    intro tolerance operation
    unfold recordWriteMv
    split
    · exact keeps_now.bind fun _ => (keeps_recordRelayActuation (fun _ => trivial)
        (fun _ _ => trivial) (fun _ _ => rfl) _ _ _ _ _ _ _).bind fun _ => .pure _
    · exact .pure _
  refine .after (keeps_relayTolerance v) fun tolerance =>
    .after (keeps_modifyProgram fun _ => rfl) fun _ => .after keeps_getPending fun pending =>
      .bind (tells_bounded (tells_boundedWrite _ _ _ _ _) (hwrite _)) (keeps_bounded (hwrite _))
        (fun _ _ => hrecord tolerance _) fun operation hoperation => ?_
  unfold recordWriteMv
  split
  · exact .after keeps_now fun _ => .after (keeps_recordRelayActuation (fun _ => trivial)
      (fun _ _ => trivial) (fun _ _ => rfl) _ _ _ _ _ _ _) fun _ => .pure fun h => by cases h
  · exact .pure hoperation

theorem tells_performActions (time : UtcTime) (observedInstant : Instant)
    (stateBeforeStep : MrftState ℚ) (completion : Option (Action ℚ))
    (postDelayEnd : Option UtcTime) (actions : List (Action ℚ)) :
    Tells (fun r => ∃ state, r = .aborted .userInterrupt state)
      (performActions ctx time observedInstant stateBeforeStep completion postDelayEnd
        actions) := by
  induction actions generalizing completion postDelayEnd with
  | nil => exact .pure fun ⟨_, h⟩ => nomatch h
  | cons action rest ih =>
    cases action with
    | complete peaks troughs switchTimes mvSignInit => exact ih _ _
    | writeMv v =>
      refine .bind (tells_performWriteMv v time observedInstant)
        (passes_anyway (keeps_performWriteMv ctx v time observedInstant)) ?_ ?_
      · rintro _ rfl
        exact .pure _
      · intro operation hoperation
        cases operation with
        | completed _ => exact ih _ _
        | cancelled => exact absurd rfl hoperation
        | timedOut =>
          exact .after (keeps_engineState ctx) fun _ => .pure fun ⟨_, h⟩ => nomatch h

theorem tells_abortWithSample (tickIndex : ℕ) (tick : Tick ℚ) (state : MrftState ℚ)
    (quality : SampleQuality) {reason : AbortReason} (h : reason ≠ .userInterrupt) :
    Tells TurnInterrupted (abortWithSample tickIndex tick state quality reason) := by
  refine .after (keeps_statement (fun _ _ _ => trivial) _ id) fun _ => .pure ?_
  rintro ⟨rfl⟩
  exact h rfl

/-- The engine never asks for an interrupt. -/
theorem tells_evaluateTick (tick : Tick ℚ) (providedMvEvidence : Bool) :
    Tells (fun r => r = .error .userInterrupt) (evaluateTick ctx tick providedMvEvidence) := by
  have hreject : Tells (fun r => r = AbortReason.userInterrupt)
      (rejectReplacementForPendingActuation ctx.tags.manipulatedVariable) := by
    refine .after (keeps_takePending (fun _ _ _ => rfl) _) fun pending => ?_
    dsimp only
    split
    · exact .after (keeps_finalizeActuationBestEffort (fun _ _ _ => trivial) _ _ _) fun _ =>
        .after keeps_now fun _ => .pure nofun
    · exact .after (keeps_finalizeActuationBestEffort (fun _ _ _ => trivial) _ _ _) fun _ =>
        .after keeps_now fun _ => .pure nofun
  refine .after Keeps.get fun s => .after keeps_getPending fun pending =>
    .after (keeps_mark trivial) fun _ => ?_
  split
  · split
    · refine .bind hreject (keeps_rejectReplacement (fun _ _ _ => trivial) (fun _ _ _ => rfl) _)
        (fun _ _ => .pure _) fun reason hreason => .pure ?_
      rintro ⟨rfl⟩
      exact hreason rfl
    · exact .throw _
  · exact .after (keeps_modifyProgram fun _ => rfl) fun _ => .pure nofun

theorem tells_evaluatedTick (ps : PollState) (tick : Tick ℚ) (observedInstant : Instant)
    (quality : SampleQuality) (providedMvEvidence : Bool) :
    Tells TurnInterrupted
      (evaluatedTick ctx ps tick observedInstant quality providedMvEvidence) := by
  have habort : ∀ state reason, Keeps passing
      (abortWithSample ps.tickIndex tick state quality reason) := fun _ _ =>
    keeps_abortWithSample (fun _ _ _ => trivial) _ _ _ _ _
  refine .after (keeps_engineState ctx) fun before => .bind (tells_evaluateTick _ _)
    (passes_anyway (keeps_evaluateTick ctx _ _)) ?_ ?_
  · rintro _ rfl
    exact habort _ _
  · intro r hr
    cases r with
    | error reason =>
      refine tells_abortWithSample _ _ _ _ ?_
      rintro rfl
      exact hr rfl
    | ok actions =>
      refine .bind (tells_performActions _ _ _ _ _ _)
        (passes_anyway (keeps_performActions ctx _ _ _ _ _ _)) ?_ ?_
      · rintro _ ⟨state, rfl⟩
        exact habort _ _
      · intro r hr
        cases r with
        | aborted reason state =>
          refine tells_abortWithSample _ _ _ _ ?_
          rintro rfl
          exact hr ⟨state, rfl⟩
        | performed completion postDelayEnd =>
          refine .after (keeps_engineState ctx) fun _ =>
            .after (keeps_statement (fun _ _ _ => trivial) _ id) fun _ => ?_
          dsimp only
          split
          · exact .after (keeps_requireInvariant _ _) fun _ =>
              .after (keeps_engineState ctx) fun _ => .pure nofun
          · exact .pure nofun

theorem tells_sampledTick (ps : PollState) (pv : ℚ) (quality : Quality) (evidence : Bool)
    {batchedAbort : Option AbortReason} (h : batchedAbort ≠ some .userInterrupt) :
    Tells TurnInterrupted (sampledTick ctx ps pv quality evidence batchedAbort) := by
  refine .after keeps_now fun observedInstant => .after (keeps_nextTimestamp fun _ _ => rfl)
    fun time => .after (keeps_observeTimestamp (fun _ _ => rfl) time) fun _ => ?_
  dsimp only
  split
  · exact .after (keeps_engineState ctx) fun _ => tells_abortWithSample _ _ _ _ nofun
  · exact .after (keeps_engineState ctx) fun _ =>
      tells_abortWithSample _ _ _ _ fun hreason => h (congrArg some hreason)
  · split
    · exact .after (keeps_engineState ctx) fun _ =>
        .after (keeps_statement (fun _ _ _ => trivial) _ id) fun _ => .pure nofun
    · exact tells_evaluatedTick _ _ _ _ _

theorem tells_pollTick (ps : PollState) : Tells TurnInterrupted (pollTick ctx ps) := by
  refine .after keeps_now fun t => .bind tells_pollRead
    (keeps_pollRead (fun _ _ _ => trivial) (fun _ _ _ => rfl) ctx) ?_ ?_
  · intro read hread
    cases read with
    | aborted reason => exact .pure _
    | sample pv quality evidence batchedAbort =>
      exact passes_anyway (keeps_sampledTick ctx _ _ _ _ _)
  · intro read hread
    cases read with
    | aborted reason =>
      refine .pure ?_
      rintro ⟨rfl⟩
      exact hread rfl
    | sample pv quality evidence batchedAbort => exact tells_sampledTick _ _ _ _ hread

/-- The branch a biased `select!` takes was ready when it woke up. -/
theorem selectBiased_ready {β : Type} (branches : List (β × Option Instant)) (s : Sys) :
    wlp (selectBiased branches) (fun b s' => Waited s s' ∧
      ∃ r, (b, some r) ∈ branches ∧ r ≤ s'.clock) s := by
  refine wp_seq (wp_mono (wake_spec _) (fun _ _ h => h) fun _ _ _ => trivial) fun a s' hs' => ?_
  refine wp_bind.mpr (wp_now.mpr ?_)
  cases hchosen : chooseReady s'.clock 0 branches with
  | none => trivial
  | some b => exact ⟨hs', ready_of_chooseReady hchosen⟩

theorem tells_pollTurn (timeoutAt : Instant) (ps : PollState) :
    Tells TurnInterrupted (pollTurn ctx timeoutAt ps) := by
  intro s hs
  refine wp_bind.mpr (wp_get.mpr (wlp_seq (selectBiased_ready _ s) ?_))
  rintro branch s' ⟨hs', r, hmem, hready⟩
  have hlistens := hs'.passes.listens hs
  cases branch with
  | verification =>
    have hverify : Tells TurnInterrupted (verificationBranch ctx ps) := by
      refine .after keeps_now fun _ => .after keeps_getPending fun _ =>
        .after (keeps_requireInvariant _ _) fun trigger =>
          .bind (tells_verifyPendingMvActuation _ _ _ _) (keeps_verifyPendingMvActuation
            (fun _ _ _ => trivial) (fun _ _ _ => rfl) _ _ _ _ _) ?_ ?_
      · rintro _ rfl
        exact .pure _
      · intro r hr
        cases r with
        | none => exact .pure nofun
        | some reason =>
          refine .pure ?_
          rintro ⟨rfl⟩
          exact hr rfl
    exact hverify s' hlistens
  | poll => exact tells_pollTick ps s' hlistens
  | ctrlC =>
    have hnext : s.nextSignal = some r := by simpa [eq_comm] using hmem
    exact fun _ => heard_of_ready hs'.passes.environment hnext hready
  | timeout => exact nofun

theorem tells_pollFresh (fuel : ℕ) (ctx : RunContext) (initial : InitialState) :
    Tells (fun r => r = .aborted .userInterrupt) (pollFresh fuel ctx initial) := by
  have hfresh : ∀ f, Keeps passing (modifyProgram f) := fun _ => keeps_modifyProgram fun _ => rfl
  refine .after (hfresh _) fun _ => .after (keeps_forDriver _ _ _) fun _ => .after (hfresh _)
    fun _ => .after keeps_now fun start =>
      .iterate (fun ps => passes_anyway (keeps_pollTurn ctx _ ps)) (fun ps => ?_) _ _
  refine Tells.weaken (tells_pollTurn _ ps) ?_
  rintro _ ⟨_, rfl, rfl⟩
  rfl

end Polling

/-! ### A run that comes to its restore -/

section Run

variable {fuel : ℕ} {ctx : RunContext} {initial : InitialState} {s s' : Sys} {cause : ExitCause}

/-- A run that an interrupt brought to its restore has heard it. -/
theorem ExitsWith.heard (hs : s.Listens)
    (h : ExitsWith fuel ctx initial s (.aborted .userInterrupt) s') : s'.Heard := by
  cases h with
  | aborted h hpoll =>
    have htells := tells_pollFresh fuel ctx initial _ ((passes_to_polling h).listens hs)
    exact wp_ok htells hpoll rfl

/-- No interrupt of the run comes alone: when the first one comes, or at this moment where it came
before, a second one has come too. -/
def Sys.FirstJoined (s : Sys) : Prop :=
  ∀ t, s.environment.signals.head? = some t → 2 ≤ s.environment.delivered (max t s.clock)

/-- The first of the interrupts has come where any has. -/
theorem Environment.head_of_delivered {environment : Environment} {t : Instant}
    (h : 1 ≤ environment.delivered t) :
    ∃ t₀, environment.signals.head? = some t₀ ∧ t₀ ≤ t := by
  obtain ⟨t', hmem⟩ := List.exists_mem_of_length_pos h
  obtain ⟨hsignal, hle⟩ := List.mem_filter.mp hmem
  have hsorted := environment.signals_sorted
  cases hsignals : environment.signals with
  | nil => exact absurd (hsignals ▸ hsignal) List.not_mem_nil
  | cons t₀ rest =>
    refine ⟨t₀, rfl, ?_⟩
    rw [hsignals] at hsignal hsorted
    rcases List.mem_cons.mp hsignal with rfl | hrest
    · exact of_decide_eq_true hle
    · exact (List.rel_of_pairwise_cons hsorted hrest).trans (of_decide_eq_true hle)

/-- Where no interrupt comes alone, one that has come did not. -/
theorem Sys.FirstJoined.delivered {s s' : Sys} (h : s.FirstJoined) (hpasses : s.Passes s')
    (hone : 1 ≤ s'.delivered) : 2 ≤ s'.delivered := by
  unfold Sys.delivered at hone ⊢
  rw [hpasses.environment] at hone ⊢
  obtain ⟨t₀, hhead, hle⟩ := Environment.head_of_delivered hone
  exact (h t₀ hhead).trans (s.environment.delivered_mono (max_le hle hpasses.clock))

end Run

/-! ### The loop FC1 -/

end Bhtune
