import Bhtune.Runtime.Poll
import Bhtune.Runtime.Verification

/-!
# No relay write over an unconfirmed command

The polling loop of an OPC DA run, against any driver, database, clock and interrupts.

* `Disciplined` — the invariant of the loop: every accepted command was confirmed, except the one
  the tracker holds, and no tick has asked to replace it;
* `Halted` — what is left of it where the run is over anyway;
* `disciplined_pollTurn` — one turn keeps the invariant or ends the run;
* `relay_discipline` — the whole run.
-/

namespace Bhtune

open Effect EventLog

/-! ### The discipline -/

/-- A relay write. -/
def Event.RelayWrite : Event → Prop
  | .write call => ∃ tolerance pending, call.origin = .relay tolerance pending
  | _ => False

/-- A relay command that the driver accepted. -/
def Event.AcceptedRelay : Event → Prop
  | .write call => (∃ tolerance pending, call.origin = .relay tolerance pending) ∧
      call.result = .accepted
  | _ => False

/-- The event `r` confirms the relay command `w`: within its tolerance, and within its 4 s. -/
def ConfirmsRelay (ctx : RunContext) : Event → Event → Prop
  | .write call, r => ∃ tolerance pending target,
      call.origin = .relay (some tolerance) pending ∧ call.value = .float target ∧
      Confirms ctx target tolerance (call.ended + durationSecs mvActuationConfirmationSecs) r
  | _, _ => False

/-- Every command accepted so far has been confirmed. -/
abbrev AllConfirmed (ctx : RunContext) : List Event → Prop :=
  Answered Event.AcceptedRelay (ConfirmsRelay ctx)

/-- A relay write is issued while nothing is pending and everything is confirmed. -/
def MayWrite (ctx : RunContext) (e : Event) (before : List Event) : Prop :=
  (∀ call, e = .write call → ∃ tolerance, call.origin = .relay tolerance none) ∧
    AllConfirmed ctx before

/-- A tick asked for a write while a command was pending. -/
def Event.AsksReplacement : Event → Prop
  | .mark (.evaluated _ _ (some _) actions) => actions.any Action.isWrite = true
  | _ => False

/-- How a run ends in which a tick asks for a write while a command is pending: given up, with the
engine of before the tick, and with nothing done afterwards but recording. -/
def RefusesReplacement (ctx : RunContext) (s : Sys) (result : Except Fault PollOutcome) : Prop :=
  ∀ pre before tick pending actions post,
    s.trace = pre ++ .mark (.evaluated before tick (some pending) actions) :: post →
    actions.any Action.isWrite = true →
    s.program.engine = before ∧ (∀ e ∈ post, e.Silent) ∧
      ((∃ elapsedMs, result = .ok (.aborted (.mvActuationUnconfirmed
          ctx.tags.manipulatedVariable pending.target pending.lastReadback pending.tolerance
          elapsedMs mvActuationConfirmationSecs))) ∨
        (∃ e, result = .error (.err e)) ∨ result = .error .hung)

/-! ### The invariant -/

/-- The run has kept the discipline so far, and no tick has asked for a replacement. -/
structure Halted (ctx : RunContext) (s : Sys) : Prop where
  guarded : Guarded Event.RelayWrite (MayWrite ctx) s.trace
  calm : ∀ e ∈ s.trace, ¬e.AsksReplacement

/-- The write `call` is the command the tracker holds as `pending`. -/
structure IssuedAs (call : WriteCall) (pending : PendingMvActuation) : Prop where
  origin : call.origin = .relay (some pending.tolerance) none
  value : call.value = .float pending.target
  deadline : call.ended + durationSecs mvActuationConfirmationSecs = pending.deadline

/-- The invariant of the loop. -/
structure Disciplined (ctx : RunContext) (s : Sys) : Prop extends Halted ctx s where
  tracked : s.program.tracker.isSome = true
  idle : s.pending = none → AllConfirmed ctx s.trace
  busy : ∀ pending, s.pending = some pending → ∃ call, IssuedAs call pending ∧
    Outstanding Event.AcceptedRelay (ConfirmsRelay ctx) (.write call) s.trace

/-- How the run may end. -/
structure Ended (ctx : RunContext) (s : Sys) (result : Except Fault PollOutcome) : Prop where
  guarded : Guarded Event.RelayWrite (MayWrite ctx) s.trace
  refuses : RefusesReplacement ctx s result

variable {ctx : RunContext} {s s' : Sys}

/-- An event that is neither a relay write nor a tick asking for a replacement. -/
def Event.Calm (e : Event) : Prop := ¬e.RelayWrite ∧ ¬e.AsksReplacement

theorem Event.Silent.calm {e : Event} (h : e.Silent) : e.Calm := by
  cases e with
  | read call => exact ⟨id, id⟩
  | db op result => exact ⟨id, id⟩
  | write call => exact h.elim
  | mark m => exact h.elim

theorem Event.Calm.not_acceptedRelay {e : Event} (h : e.Calm) : ¬e.AcceptedRelay := by
  intro haccepted
  cases e with
  | write call => exact h.1 haccepted.1
  | _ => exact haccepted

theorem calm_commandPending (pending : PendingMvActuation) :
    Event.Calm (.mark (.commandPending pending)) := ⟨id, id⟩

theorem Halted.append (h : Halted ctx s) (happ : Appends Event.Calm s.trace s'.trace) :
    Halted ctx s' := by
  refine ⟨h.guarded.append (happ.mono fun _ he => he.1), ?_⟩
  obtain ⟨new, htrace, hnew⟩ := happ
  intro e he
  rw [htrace] at he
  rcases List.mem_append.mp he with he | he
  · exact h.calm e he
  · exact (hnew e he).2

theorem Halted.record (h : Halted ctx s) (happ : Appends Event.Silent s.trace s'.trace) :
    Halted ctx s' := h.append (happ.mono fun _ he => he.calm)

theorem Halted.ended (h : Halted ctx s) (result : Except Fault PollOutcome) :
    Ended ctx s result := by
  refine ⟨h.guarded, ?_⟩
  intro pre before tick pending actions post htrace hasks
  have hmem : Event.mark (.evaluated before tick (some pending) actions) ∈ s.trace := by
    rw [htrace]
    exact List.mem_append_right _ List.mem_cons_self
  exact absurd hasks (h.calm _ hmem)

/-- Nothing but a relay write or a replacement touches the invariant while the tracker stays. -/
theorem Disciplined.append (h : Disciplined ctx s)
    (happ : Appends Event.Calm s.trace s'.trace)
    (htracker : s'.program.tracker = s.program.tracker) : Disciplined ctx s' := by
  have hpending : s'.pending = s.pending := by unfold Sys.pending; rw [htracker]
  have hquiet := happ.mono fun _ he => he.not_acceptedRelay
  refine ⟨h.toHalted.append happ, by rw [htracker]; exact h.tracked, ?_, ?_⟩
  · intro hnone
    exact (h.idle (hpending ▸ hnone)).append hquiet
  · intro pending hsome
    obtain ⟨call, hcall, hout⟩ := h.busy pending (hpending ▸ hsome)
    exact ⟨call, hcall, hout.append hquiet⟩

theorem pending_of_kept {pending : PendingMvActuation} (htracked : s.program.tracker.isSome = true)
    (h : KeptPending pending s s') :
    ∃ readback, s'.pending = some { pending with lastReadback := readback } := by
  obtain ⟨readback, ht⟩ := h
  obtain ⟨t, htracker⟩ := Option.isSome_iff_exists.mp htracked
  exact ⟨readback, by unfold Sys.pending; rw [ht, htracker]; rfl⟩

theorem pending_of_cleared {pending : PendingMvActuation} (h : ClearedPending pending s s') :
    s'.pending = none := by
  unfold Sys.pending
  rw [h, Option.bind_map]
  cases s.program.tracker <;> rfl

/-- **A verification keeps the invariant**: the command it clears has just been confirmed. -/
theorem Disciplined.verified {pending : PendingMvActuation} (h : Disciplined ctx s)
    (hpending : s.pending = some pending) (hv : Verified ctx pending s s') :
    Disciplined ctx s' := by
  obtain ⟨hrel, hcase⟩ := hv
  obtain ⟨call, hcall, hout⟩ := h.busy pending hpending
  have hhalted : Halted ctx s' := h.toHalted.record hrel.1
  have hquiet := hrel.1.mono fun _ he => he.calm.not_acceptedRelay
  rcases hcase with hkept | ⟨hcleared, r, hbrings, hconfirms⟩
  · obtain ⟨readback, hsome⟩ := pending_of_kept h.tracked hkept
    refine ⟨hhalted, ?_, ?_, ?_⟩
    · obtain ⟨_, ht⟩ := hkept
      rw [ht, Option.isSome_map]
      exact h.tracked
    · intro hnone
      exact absurd (hnone.symm.trans hsome) nofun
    · intro pending' hpending'
      cases hpending'.symm.trans hsome
      exact ⟨call, ⟨hcall.origin, hcall.value, hcall.deadline⟩, hout.append hquiet⟩
  · refine ⟨hhalted, ?_, ?_, ?_⟩
    · rw [hcleared, Option.isSome_map]
      exact h.tracked
    · intro _
      refine hout.answer (hbrings.mono fun _ he => he.calm.not_acceptedRelay) ?_
      refine ⟨_, _, _, hcall.origin, hcall.value, ?_⟩
      rw [hcall.deadline]
      exact hconfirms
    · intro pending' hpending'
      exact absurd (hpending'.symm.trans (pending_of_cleared hcleared)) nofun

/-- The frame of what records and leaves the tracker alone. -/
abbrev recording : Frame Sys := within Event.Silent (·.tracker)

theorem Disciplined.record (h : Disciplined ctx s) (hrel : recording.rel s s') :
    Disciplined ctx s' := h.append (hrel.1.mono fun _ he => he.calm) hrel.2.2

/-! ### The read of a poll -/

theorem abandonedPollRead_aborts (operation : TickOperation (List TagValue)) (message : String)
    (otherwise : AbortReason) :
    wlp (abandonedPollRead ctx operation message otherwise)
      (fun r _ => ∃ reason, r = .aborted reason) s := by
  refine wp_bind.mpr (wp_getPending.mpr ?_)
  cases s.pending with
  | none => exact ⟨_, rfl⟩
  | some pending =>
    refine wp_bind.mpr (wp_now.mpr ((keeps_checkedAtForPending _ _ : Keeps verifying _).wlp_seq
      fun _ _ _ => (keeps_resolvePendingMvPoll (fun _ h _ => h) (fun _ _ _ => rfl) _ _ _ _ :
        Keeps verifying _).wlp_seq fun _ _ _ => ?_))
    exact wp_bind.mpr ((wlp_requireInvariant _ _).mpr fun reason _ => ⟨reason, rfl⟩)

/-- A poll that goes on leaves the command confirmed or pending, and says that it brought MV
evidence whenever a command is still pending. -/
theorem pollRead_spec (h : Disciplined ctx s) :
    wlp (pollRead ctx) (fun r s' => ∀ pv quality evidence,
      r = .sample pv quality evidence none →
        Disciplined ctx s' ∧ (s'.pending.isSome = true → evidence = true)) s := by
  refine wp_bind.mpr (wp_getPending.mpr ?_)
  refine wlp_seq (readPollBatch_spec _ _ _) ?_
  rintro r s₁ ⟨call, ⟨tags, hcall⟩, hvalues⟩
  have hbrings : Brings Event.Silent (.read call) s.trace s₁.trace := by
    rw [hcall.trace]
    exact .single _ trivial
  have hrel : auditing.rel s s₁ := ⟨hbrings.appends, hcall.passes, hcall.program⟩
  have hsample : ∀ values reason evidence s',
      (reason = none → Disciplined ctx s' ∧ (s'.pending.isSome = true → evidence = true)) →
      wlp (liftResult (readNumericFromBatch values ctx.tags.processVariable) >>= fun x =>
          pure (PollRead.sample x.1 x.2 evidence reason))
        (fun r s' => ∀ pv quality evidence, r = .sample pv quality evidence none →
          Disciplined ctx s' ∧ (s'.pending.isSome = true → evidence = true)) s' := by
    intro values reason evidence s' hs'
    refine wp_bind.mpr ((wlp_liftResult _).mpr fun sample _ => ?_)
    rintro pv quality evidence' ⟨⟩
    exact hs' rfl
  cases r with
  | cancelled =>
    exact wlp_mono (abandonedPollRead_aborts _ _ _) (by rintro _ _ ⟨reason, rfl⟩; exact nofun)
  | timedOut =>
    exact wlp_mono (abandonedPollRead_aborts _ _ _) (by rintro _ _ ⟨reason, rfl⟩; exact nofun)
  | completed values =>
    refine wp_bind.mpr (wp_now.mpr ?_)
    cases hpending : s.pending with
    | none =>
      refine hsample values none false s₁ fun _ =>
        ⟨h.append (hrel.1.mono fun _ he => he.calm) (congrArg Program.tracker hrel.2.2), ?_⟩
      rw [pending_of_rel hrel, hpending]
      exact nofun
    | some pending =>
      refine wp_bind.mpr (wp_getPending.mpr (wp_bind.mpr ((wlp_requireInvariant _ _).mpr
        fun held _ => ?_)))
      refine (keeps_checkedAtForPending _ _ : Keeps auditing _).wlp_seq fun checkedAt s₂ hrel₂ => ?_
      have hrel₁₂ : auditing.rel s s₂ := auditing.trans hrel hrel₂
      refine wlp_seq ((keeps_resolvePendingMvPoll (fun _ h _ => h) (fun _ _ _ => rfl) _ _ _ _ :
        Keeps verifying _).and_wlp (resolvePendingMvPoll_spec ctx
          ((pending_of_rel hrel₁₂).trans hpending) _ _ _)) ?_
      rintro ⟨reason, evidence⟩ s₃ ⟨hrel₃, hresult⟩
      refine hsample values reason evidence s₃ fun hnone => ?_
      obtain ⟨hevidence, values', v, q, hvalues', hbatch, hq, hcase⟩ := hresult hnone
      cases hvalues'
      refine ⟨h.verified hpending ⟨?_, ?_⟩, fun _ => hevidence⟩
      · exact verifying.trans ⟨hrel₁₂.1, hrel₁₂.2.1, congrArg Program.untracked hrel₁₂.2.2⟩ hrel₃
      · rcases hcase with hkept | ⟨hcleared, hmatch, htime⟩
        · exact .inl (keptPending_of_rel hrel₁₂ hkept)
        · refine .inr ⟨clearedPending_of_rel hrel₁₂ hcleared, _,
            (hbrings.append hrel₂.1).append hrel₃.1, v, q,
            numeric_of_batch hcall.kind (hvalues values rfl) hbatch, hq, hmatch, ?_⟩
          rw [hcall.ended]
          exact htime

/-! ### The engine on a tick -/

/-- The run has just refused a replacement, for this reason. -/
structure Refused (ctx : RunContext) (s : Sys) (reason : AbortReason) : Prop where
  guarded : Guarded Event.RelayWrite (MayWrite ctx) s.trace
  refusal : ∃ pre tick pending actions post, s.trace =
      pre ++ .mark (.evaluated s.program.engine tick (some pending) actions) :: post ∧
    (∀ e ∈ pre, ¬e.AsksReplacement) ∧ (∀ e ∈ post, e.Silent) ∧
    ∃ elapsedMs, reason = .mvActuationUnconfirmed ctx.tags.manipulatedVariable pending.target
      pending.lastReadback pending.tolerance elapsedMs mvActuationConfirmationSecs

/-- The frame of what records and leaves the engine alone. -/
abbrev engineKept : Frame Sys := within Event.Silent (·.engine)

theorem Refused.record {reason : AbortReason} (h : Refused ctx s reason)
    (hrel : engineKept.rel s s') : Refused ctx s' reason := by
  obtain ⟨happ, _, hengine⟩ := hrel
  have hengine : s'.program.engine = s.program.engine := hengine
  obtain ⟨pre, tick, pending, actions, post, htrace, hpre, hpost, hreason⟩ := h.refusal
  refine ⟨h.guarded.append (happ.mono fun _ he => he.calm.1), ?_⟩
  obtain ⟨new, hnew, hsilent⟩ := happ
  refine ⟨pre, tick, pending, actions, post ++ new, ?_, hpre, ?_, hreason⟩
  · rw [hnew, htrace, hengine, List.append_assoc, List.cons_append]
  · intro e he
    rcases List.mem_append.mp he with he | he
    · exact hpost e he
    · exact hsilent e he

theorem Refused.ended {reason : AbortReason} (h : Refused ctx s reason)
    {result : Except Fault PollOutcome}
    (hresult : result = .ok (.aborted reason) ∨ ∃ f, result = .error f ∧ f.Mild) :
    Ended ctx s result := by
  refine ⟨h.guarded, ?_⟩
  intro pre' before' tick' pending' actions' post' htrace' hasks
  obtain ⟨pre, tick, pending, actions, post, htrace, hpre, hpost, elapsedMs, rfl⟩ := h.refusal
  obtain ⟨rfl, heq, rfl⟩ := eq_of_split (p := Event.AsksReplacement) (htrace.symm.trans htrace')
    hpre (fun e he => (hpost e he).calm.2) hasks
  cases heq
  refine ⟨rfl, hpost, ?_⟩
  rcases hresult with rfl | ⟨f, rfl, hf⟩
  · exact .inl ⟨elapsedMs, rfl⟩
  · cases f with
    | err e => exact .inr (.inl ⟨e, rfl⟩)
    | hung => exact .inr (.inr rfl)
    | _ => exact hf.elim

theorem finalizeActuationBestEffort_faults (pending : PendingMvActuation)
    (status : MvActuationStatus) (detail : Text) :
    wp (finalizeActuationBestEffort pending status detail) (fun _ _ => True)
      (fun f _ => f.Mild) s := by
  unfold finalizeActuationBestEffort
  cases pending.id with
  | none => trivial
  | some id => exact bestEffort_faults (runStatement_faults _)

theorem rejectReplacement_spec {pending : PendingMvActuation} (h : s.pending = some pending)
    (tag : String) :
    wp (rejectReplacementForPendingActuation tag)
      (fun reason s' => engineKept.rel s s' ∧ ∃ elapsedMs, reason = .mvActuationUnconfirmed tag
        pending.target pending.lastReadback pending.tolerance elapsedMs
        mvActuationConfirmationSecs)
      (fun f s' => engineKept.rel s s' ∧ f.Mild) s := by
  have hframe : Keeps engineKept (rejectReplacementForPendingActuation tag) :=
    keeps_rejectReplacement (fun _ h _ => h) (fun _ _ _ => rfl) tag
  refine hframe.and_wp (wp_bind.mpr ?_)
  refine (wp_takePending h _).mpr ?_
  have hfinalize : ∀ s' detail status,
      wp (finalizeActuationBestEffort pending status detail >>= fun _ => now >>= fun t =>
          pure (actuationAbortReason tag pending pending.lastReadback t))
        (fun reason _ => ∃ elapsedMs, reason = .mvActuationUnconfirmed tag pending.target
          pending.lastReadback pending.tolerance elapsedMs mvActuationConfirmationSecs)
        (fun f _ => f.Mild) s' := fun s' _ _ =>
    wp_seq (finalizeActuationBestEffort_faults _ _ _) fun _ _ _ => ⟨_, rfl⟩
  split
  · exact hfinalize _ _ _
  · exact hfinalize _ _ _

/-- At most one action is a write. -/
def OneWrite (actions : List (Action ℚ)) : Prop := (actions.filter Action.isWrite).length ≤ 1

theorem oneWrite_step (ar : MachineInt.IntArith) (e : MrftEngine ℚ) (tick : Tick ℚ) :
    OneWrite (e.step ar tick).2 := by
  have hfinish : ∀ (e : MrftEngine ℚ) writes, OneWrite writes →
      OneWrite (MrftEngine.finishStep ar e writes).2 := by
    intro e writes hwrites
    unfold MrftEngine.finishStep OneWrite at *
    split
    · rw [List.filter_append, List.length_append]
      exact hwrites
    · exact hwrites
  unfold MrftEngine.step
  split
  · exact Nat.zero_le 1
  · dsimp only
    split
    · exact hfinish _ _ le_rfl
    · exact hfinish _ _ (Nat.zero_le 1)

theorem Disciplined.refused (h : Disciplined ctx s) {s₁ : Sys} {tick : Tick ℚ}
    {pending : PendingMvActuation} {actions : List (Action ℚ)} {reason : AbortReason}
    (htrace : s₁.trace =
      s.trace ++ [.mark (.evaluated s.program.engine tick (some pending) actions)])
    (hengine : s₁.program.engine = s.program.engine)
    (hreason : ∃ elapsedMs, reason = .mvActuationUnconfirmed ctx.tags.manipulatedVariable
      pending.target pending.lastReadback pending.tolerance elapsedMs
      mvActuationConfirmationSecs) : Refused ctx s₁ reason := by
  have hcalm : Appends (fun e => ¬e.RelayWrite) s.trace s₁.trace := by
    rw [htrace]
    exact .concat _ id
  refine ⟨h.guarded.append hcalm, s.trace, tick, pending, actions, [], ?_, h.calm, ?_, hreason⟩
  · rw [htrace, hengine]
  · exact fun e he => absurd he List.not_mem_nil

/-- **One step of the engine.**  It is committed only if it asks for no write while a command is
pending; otherwise the run is given up. -/
theorem evaluateTick_spec (h : Disciplined ctx s) (tick : Tick ℚ) (providedMvEvidence : Bool)
    (hevidence : s.pending.isSome = true → providedMvEvidence = true) :
    wp (evaluateTick ctx tick providedMvEvidence)
      (fun r s' => match r with
        | .ok actions => Disciplined ctx s' ∧ OneWrite actions ∧
            (s'.pending.isSome = true → actions.any Action.isWrite = false)
        | .error reason => Refused ctx s' reason)
      (fun f s' => Ended ctx s' (.error f)) s := by
  unfold evaluateTick
  rw [wp_bind, wp_get, wp_bind, wp_getPending]
  have honce : OneWrite (s.program.engine.step ctx.arith tick).2 := oneWrite_step _ _ _
  generalize s.program.engine.step ctx.arith tick = result at honce ⊢
  obtain ⟨preview, actions⟩ := result
  dsimp only at honce ⊢
  rw [wp_bind, wp_mark]
  by_cases hasks : s.pending.isSome = true ∧ actions.any Action.isWrite = true
  · obtain ⟨pending, hpending⟩ := Option.isSome_iff_exists.mp hasks.1
    rw [if_pos hasks, if_pos (hevidence hasks.1), hpending]
    generalize hs₁ : ({ s with trace := s.trace ++
      [.mark (.evaluated s.program.engine tick (some pending) actions)] } : Sys) = s₁
    have htrace : s₁.trace =
        s.trace ++ [.mark (.evaluated s.program.engine tick (some pending) actions)] := by
      rw [← hs₁]
    have hprogram : s₁.program = s.program := by rw [← hs₁]
    have hpending₁ : s₁.pending = some pending := by rw [← hs₁]; exact hpending
    have hrefused : ∀ reason, (∃ elapsedMs, reason = .mvActuationUnconfirmed
        ctx.tags.manipulatedVariable pending.target pending.lastReadback pending.tolerance
        elapsedMs mvActuationConfirmationSecs) → Refused ctx s₁ reason := fun _ hreason =>
      h.refused htrace (congrArg Program.engine hprogram) hreason
    refine wp_seq (wp_mono (rejectReplacement_spec hpending₁ _) (fun _ _ h => h) ?_) ?_
    · rintro f s' ⟨hrel, hf⟩
      exact ((hrefused _ ⟨0, rfl⟩).record hrel).ended (.inr ⟨f, rfl, hf⟩)
    · rintro reason s' ⟨hrel, hreason⟩
      exact (hrefused reason hreason).record hrel
  · rw [if_neg hasks]
    have hcalm : Event.Calm (.mark (.evaluated s.program.engine tick s.pending actions)) := by
      refine ⟨id, ?_⟩
      cases hpending : s.pending with
      | none => exact id
      | some pending => exact fun hwrite => hasks ⟨by rw [hpending]; rfl, hwrite⟩
    refine ⟨h.append (.concat _ hcalm) rfl, honce, ?_⟩
    intro hsome
    exact Bool.eq_false_iff.mpr fun hwrite => hasks ⟨hsome, hwrite⟩

/-! ### The actions of a tick -/

/-- The frame of what writes no relay command and asks for no replacement. -/
abbrev calmly : Frame Sys := within Event.Calm fun _ => ()

theorem relayTolerance_spec (h : s.program.tracker.isSome = true) (v : ℚ) :
    wlp (relayTolerance v) (fun r s' => s' = s ∧ r.isSome = true) s := by
  obtain ⟨tracker, htracker⟩ := Option.isSome_iff_exists.mp h
  refine wp_bind.mpr (wp_get.mpr ?_)
  rw [htracker]
  exact wp_bind.mpr ((wlp_liftResult _).mpr fun _ _ => ⟨rfl, rfl⟩)

/-- A relay write on an idle tracker keeps the discipline, and is the one thing outstanding if it
was accepted. -/
theorem Disciplined.wrote (h : Disciplined ctx s) (hidle : s.pending = none) {tolerance : ℚ}
    {tag : String} {value : TagWrite} {call : WriteCall}
    (hcall : Wrote (.relay (some tolerance) none) tag value s s' call) :
    Halted ctx s' ∧ Outstanding Event.AcceptedRelay (ConfirmsRelay ctx) (.write call) s'.trace := by
  refine ⟨⟨?_, ?_⟩, ?_⟩
  · rw [hcall.trace]
    refine h.guarded.concat fun _ => ⟨?_, h.idle hidle⟩
    intro call' heq
    cases heq
    exact ⟨_, hcall.origin⟩
  · intro e he
    rw [hcall.trace] at he
    rcases List.mem_append.mp he with he | he
    · exact h.calm e he
    · exact List.mem_singleton.mp he ▸ id
  · rw [hcall.trace]
    exact (h.idle hidle).outstanding _

/-- The record of an accepted relay command makes it the command the tracker holds. -/
theorem Disciplined.recorded (hhalted : Halted ctx s) {call : WriteCall} {target tolerance : ℚ}
    (horigin : call.origin = .relay (some tolerance) none) (hvalue : call.value = .float target)
    (hended : call.ended = s.clock)
    (hout : Outstanding Event.AcceptedRelay (ConfirmsRelay ctx) (.write call) s.trace)
    (switchTick : UtcTime) (switchInstant firstCheckAt : Instant) (elapsed : ℕ) :
    wp (recordRelayActuation target switchTick switchInstant firstCheckAt elapsed s.clock
        tolerance)
      (fun _ s' => Halted ctx s' ∧ Disciplined ctx s') (fun _ s' => Halted ctx s') s := by
  have hframe : Keeps calmly (recordRelayActuation target switchTick switchInstant firstCheckAt
      elapsed s.clock tolerance) :=
    keeps_recordRelayActuation calm_commandPending (fun _ _ => ⟨id, id⟩) (fun _ _ => rfl) _ _ _ _
      _ _ _
  refine wp_mono (hframe.failures (recordRelayActuation_spec _ _ _ _ _ _ _)) ?_
    fun _ _ hrel => hhalted.append hrel.1
  rintro _ s' ⟨hrel, tracker, id, htracker, htracker'⟩
  have hpending := pending_of_accepted htracker'
  refine ⟨hhalted.append hrel.1, hhalted.append hrel.1, by rw [htracker']; rfl, ?_, ?_⟩
  · exact fun hnone => absurd (hnone.symm.trans hpending) nofun
  · intro pending hsome
    cases hsome.symm.trans hpending
    refine ⟨call, ⟨horigin, hvalue, by rw [hended]⟩, ?_⟩
    exact hout.append (hrel.1.mono fun _ he => he.not_acceptedRelay)

/-- **One relay write.**  Issued on an idle tracker, it either ends the run or becomes the pending
command. -/
theorem performWriteMv_spec (h : Disciplined ctx s) (hidle : s.pending = none) (v : ℚ)
    (time : UtcTime) (observedInstant : Instant) :
    wp (performWriteMv ctx v time observedInstant)
      (fun operation s' => Halted ctx s' ∧ (operation = .completed () → Disciplined ctx s'))
      (fun _ s' => Halted ctx s') s := by
  refine wp_seq (wp_of_wlp (relayTolerance_spec h.tracked v)
    (wp_mono (keeps_relayTolerance (F := auditing) v s) (fun _ _ _ => trivial)
      fun _ _ hrel => h.toHalted.record hrel.1)) ?_
  rintro r s₀ ⟨hs₀, hsome⟩
  obtain ⟨tolerance, rfl⟩ := Option.isSome_iff_exists.mp hsome
  rw [hs₀]
  refine wp_bind.mpr ((wp_modifyProgram _).mpr (wp_bind.mpr (wp_getPending.mpr ?_)))
  have hwrite : ∀ s₁, Disciplined ctx s₁ → s₁.pending = none →
      wp (bounded (boundedWrite none ctx.effectiveTiming.opTimeoutSecs
          (.relay (some tolerance) none) ctx.tags.manipulatedVariable (.float v)))
        (fun operation s₂ => Halted ctx s₂ ∧ (operation = .completed () → ∃ call,
          call.origin = .relay (some tolerance) none ∧ call.value = .float v ∧
          call.ended = s₂.clock ∧
          Outstanding Event.AcceptedRelay (ConfirmsRelay ctx) (.write call) s₂.trace))
        (fun _ s₂ => Halted ctx s₂) s₁ := by
    intro s₁ hs₁ hidle₁
    refine wp_seq (wp_mono (boundedWrite_spec _ _ _ _ _) (fun _ _ h => h) ?_) ?_
    · rintro f s₂ (⟨_, hwaited⟩ | ⟨call, hcall, _⟩)
      · exact hs₁.toHalted.append (by rw [hwaited.trace]; exact .refl _)
      · exact (hs₁.wrote hidle₁ hcall).1
    · rintro r s₂ ⟨call, hcall, _⟩
      obtain ⟨hhalted, hout⟩ := hs₁.wrote hidle₁ hcall
      cases r with
      | none => exact hhalted
      | some operation =>
        exact ⟨hhalted, fun _ => ⟨call, hcall.origin, hcall.value, hcall.ended, hout⟩⟩
  have hidle₁ : Sys.pending { s with program :=
      { s.program with guard := { s.program.guard with mvWritten := true } } } = none := hidle
  rw [hidle₁]
  refine wp_seq (hwrite _ (h.append (.refl _) rfl) hidle₁) ?_
  rintro operation s₂ ⟨hhalted, hout⟩
  cases operation with
  | completed =>
    obtain ⟨call, horigin, hvalue, hended, hout⟩ := hout rfl
    refine wp_bind.mpr (wp_now.mpr (wp_seq
      (Disciplined.recorded hhalted horigin hvalue hended hout _ _ _ _) ?_))
    rintro _ s₃ ⟨hhalted₃, hs₃⟩
    exact ⟨hhalted₃, fun _ => hs₃⟩
  | cancelled => exact ⟨hhalted, nofun⟩
  | timedOut => exact ⟨hhalted, nofun⟩

/-- **The actions of a tick**, at most one of them a write, and none while a command is
pending. -/
theorem performActions_spec (time : UtcTime) (observedInstant : Instant)
    (stateBeforeStep : MrftState ℚ) (completion : Option (Action ℚ))
    (postDelayEnd : Option UtcTime) (actions : List (Action ℚ)) (h : Disciplined ctx s)
    (honce : OneWrite actions)
    (hidle : s.pending.isSome = true → actions.any Action.isWrite = false) :
    wp (performActions ctx time observedInstant stateBeforeStep completion postDelayEnd actions)
      (fun r s' => Halted ctx s' ∧ ∀ c d, r = .performed c d → Disciplined ctx s')
      (fun _ s' => Halted ctx s') s := by
  induction actions generalizing s completion postDelayEnd with
  | nil => exact ⟨h.toHalted, fun _ _ _ => h⟩
  | cons action rest ih =>
    cases action with
    | complete peaks troughs switchTimes mvSignInit => exact ih _ _ h honce hidle
    | writeMv v =>
      have hnone : s.pending = none := by
        cases hpending : s.pending with
        | none => rfl
        | some pending =>
          rw [hpending] at hidle
          exact absurd (hidle rfl) nofun
      -- the one write is made, so the rest holds none
      have hrest : rest.filter Action.isWrite = [] :=
        List.length_eq_zero_iff.mp (Nat.le_zero.mp (Nat.le_of_succ_le_succ honce))
      refine wp_seq (performWriteMv_spec h hnone v time observedInstant) ?_
      rintro operation s' ⟨hhalted, hdisciplined⟩
      cases operation with
      | completed =>
        refine ih _ _ (hdisciplined rfl) ?_ fun _ => ?_
        · rw [OneWrite, hrest]
          exact Nat.zero_le 1
        · rw [List.any_eq_false]
          exact List.filter_eq_nil_iff.mp hrest
      | cancelled => exact ⟨hhalted, nofun⟩
      | timedOut => exact ⟨hhalted, nofun⟩

/-! ### One turn of the loop -/

/-- What a turn of the loop comes to. -/
def TurnEnds (ctx : RunContext) : PollState ⊕ PollOutcome → Sys → Prop
  | .inl _, s' => Disciplined ctx s'
  | .inr outcome, s' => Ended ctx s' (.ok outcome)

/-- A program that goes on from a run that is over anyway, recording at most. -/
theorem Halted.turn {x : Io (PollState ⊕ PollOutcome)} (h : Halted ctx s)
    (hx : Keeps (within Event.Silent fun _ => ()) x)
    (hout : wlp x (fun r _ => ∃ outcome, r = .inr outcome) s) :
    wp x (TurnEnds ctx) (fun f s' => Ended ctx s' (.error f)) s := by
  refine wp_mono (hx.failures hout) ?_ fun f s' hrel => (h.record hrel.1).ended _
  rintro _ s' ⟨hrel, outcome, rfl⟩
  exact (h.record hrel.1).ended _

theorem Halted.abortWithSample (h : Halted ctx s) (tickIndex : ℕ) (tick : Tick ℚ)
    (state : MrftState ℚ) (quality : SampleQuality) (reason : AbortReason) :
    wp (Bhtune.abortWithSample tickIndex tick state quality reason) (TurnEnds ctx)
      (fun f s' => Ended ctx s' (.error f)) s :=
  h.turn (keeps_abortWithSample (fun _ h _ => h) _ _ _ _ _)
    ((keeps_runStatement (fun _ => trivial) : Keeps auditing _).wlp_seq fun _ _ _ => ⟨_, rfl⟩)

theorem Refused.abortWithSample {reason : AbortReason} (h : Refused ctx s reason)
    (tickIndex : ℕ) (tick : Tick ℚ) (state : MrftState ℚ) (quality : SampleQuality) :
    wp (Bhtune.abortWithSample tickIndex tick state quality reason) (TurnEnds ctx)
      (fun f s' => Ended ctx s' (.error f)) s := by
  have hstatement : ∀ op, Keeps engineKept (runStatement op) := fun _ =>
    keeps_runStatement fun _ => trivial
  refine wp_seq (wp_mono ((hstatement _).and_wp (runStatement_faults _)) (fun _ _ h => h) ?_) ?_
  · rintro f s' ⟨hrel, hf⟩
    exact (h.record hrel).ended (.inr ⟨f, rfl, hf⟩)
  · rintro _ s' ⟨hrel, _⟩
    exact (h.record hrel).ended (.inl rfl)

theorem evaluatedTick_spec (h : Disciplined ctx s) (ps : PollState) (tick : Tick ℚ)
    (observedInstant : Instant) (quality : SampleQuality) (providedMvEvidence : Bool)
    (hevidence : s.pending.isSome = true → providedMvEvidence = true) :
    wp (evaluatedTick ctx ps tick observedInstant quality providedMvEvidence) (TurnEnds ctx)
      (fun f s' => Ended ctx s' (.error f)) s := by
  refine wp_bind.mpr ?_
  show wp (evaluateTick ctx tick providedMvEvidence >>= _) _ _ s
  refine wp_seq (evaluateTick_spec h tick providedMvEvidence hevidence) ?_
  intro r s₁ hr
  cases r with
  | error reason => exact Refused.abortWithSample hr _ _ _ _
  | ok actions =>
    obtain ⟨hs₁, honce, hidle⟩ := hr
    refine wp_seq (wp_mono (performActions_spec _ _ _ _ _ _ hs₁ honce hidle) (fun _ _ h => h)
      fun _ _ h => h.ended _) ?_
    rintro performed s₂ ⟨hhalted, hdone⟩
    cases performed with
    | aborted reason state => exact hhalted.abortWithSample _ _ _ _ _
    | performed completion postDelayEnd =>
      have hs₂ := hdone _ _ rfl
      refine wp_bind.mpr ?_
      show wp (insertTuneSample _ _ _ _ >>= _) _ _ s₂
      refine (keeps_statement (fun _ h _ => h) _ id : Keeps recording _).wp_seq (fun _ s₃ hrel => ?_)
        fun _ _ hrel => (hhalted.record hrel.1).ended _
      dsimp only
      split
      · refine (hhalted.record hrel.1).turn ((keeps_requireInvariant _ _).bind fun _ =>
          (keeps_engineState ctx).bind fun _ => .pure _) ?_
        exact wp_bind.mpr ((wlp_requireInvariant _ _).mpr fun _ _ => ⟨_, rfl⟩)
      · exact hs₂.record hrel

theorem pollTick_spec (h : Disciplined ctx s) (ps : PollState) :
    wp (pollTick ctx ps) (TurnEnds ctx) (fun f s' => Ended ctx s' (.error f)) s := by
  refine wp_bind.mpr (wp_now.mpr ?_)
  have hread : Keeps verifying (pollRead ctx) :=
    keeps_pollRead (fun _ h _ => h) (fun _ _ _ => rfl) ctx
  refine wp_seq (wp_mono (hread.failures (pollRead_spec h)) (fun _ _ h => h)
    fun _ _ hrel => (h.toHalted.record hrel.1).ended _) ?_
  rintro read s₁ ⟨hrel₁, hsample⟩
  have hhalted₁ := h.toHalted.record hrel₁.1
  cases read with
  | aborted reason => exact hhalted₁.ended _
  | sample pv quality evidence batchedAbort =>
    refine wp_bind.mpr (wp_now.mpr ?_)
    refine (keeps_nextTimestamp (fun _ _ => rfl) : Keeps recording _).wp_seq
      (fun time s₂ hrel₂ => ?_) fun _ _ hrel => (hhalted₁.record hrel.1).ended _
    refine (keeps_observeTimestamp (fun _ _ => rfl) time : Keeps recording _).wp_seq
      (fun _ s₃ hrel₃ => ?_) fun _ _ hrel =>
        ((hhalted₁.record hrel₂.1).record hrel.1).ended _
    have hrel₁₃ : recording.rel s₁ s₃ := recording.trans hrel₂ hrel₃
    have hhalted₃ := hhalted₁.record hrel₁₃.1
    dsimp only
    split
    · exact wp_bind.mpr (hhalted₃.abortWithSample _ _ _ _ _)
    · exact wp_bind.mpr (hhalted₃.abortWithSample _ _ _ _ _)
    · obtain ⟨hs₁, hevidence⟩ := hsample _ _ _ rfl
      have hs₃ := hs₁.record hrel₁₃
      have hpending : s₃.pending = s₁.pending := by
        unfold Sys.pending
        rw [show s₃.program.tracker = s₁.program.tracker from hrel₁₃.2.2]
      split
      · refine wp_bind.mpr ?_
        show wp (insertTuneSample _ _ _ _ >>= _) _ _ s₃
        exact (keeps_statement (fun _ h _ => h) _ id : Keeps recording _).wp_seq
          (fun _ s₄ hrel => hs₃.record hrel) fun _ _ hrel => (hhalted₃.record hrel.1).ended _
      · exact evaluatedTick_spec hs₃ _ _ _ _ _ (by rw [hpending]; exact hevidence)

theorem verificationBranch_spec (h : Disciplined ctx s) (ps : PollState) :
    wp (verificationBranch ctx ps) (TurnEnds ctx) (fun f s' => Ended ctx s' (.error f)) s := by
  refine wp_bind.mpr (wp_now.mpr (wp_bind.mpr (wp_getPending.mpr ?_)))
  cases hpending : s.pending with
  | none => exact h.ended _
  | some pending =>
    refine (keeps_requireInvariant _ _ : Keeps (.unchanged id) _).wp_seq (fun trigger s₁ hs₁ => ?_)
      fun f s₁ hs₁ => ?_
    · obtain rfl : s₁ = s := hs₁
      have hframe : Keeps verifying (verifyPendingMvActuation ctx ctx.tags.manipulatedVariable
          trigger .none .required) :=
        keeps_verifyPendingMvActuation (fun _ h _ => h) (fun _ _ _ => rfl) _ _ _ _ _
      refine wp_seq (wp_mono (hframe.failures (verifyPendingMvActuation_spec ctx hpending _ _ _))
        (fun _ _ h => h) fun _ _ hrel => (h.toHalted.record hrel.1).ended _) ?_
      rintro r s₂ ⟨hrel, hverified⟩
      cases r with
      | none => exact h.verified hpending (hverified rfl)
      | some reason => exact (h.toHalted.record hrel.1).ended _
    · obtain rfl : s₁ = s := hs₁
      exact h.ended _

/-- **One turn of the loop** keeps the invariant or ends the run in order. -/
theorem disciplined_pollTurn (h : Disciplined ctx s) (timeoutAt : Instant) (ps : PollState) :
    wp (pollTurn ctx timeoutAt ps) (TurnEnds ctx) (fun f s' => Ended ctx s' (.error f)) s := by
  refine wp_bind.mpr (wp_get.mpr ((keeps_selectBiased _ : Keeps recording _).wp_seq
    (fun branch s₁ hrel => ?_) fun _ _ hrel => (h.toHalted.record hrel.1).ended _))
  have hs₁ := h.record hrel
  cases branch with
  | verification => exact verificationBranch_spec hs₁ ps
  | poll => exact pollTick_spec hs₁ ps
  | ctrlC =>
    have hseen : Halted ctx s₁.seeSignals := hs₁.toHalted.record (.refl _)
    exact hseen.ended _
  | timeout => exact hs₁.ended _

/-! ### The run -/

/-- The state in which the polling loop of an OPC DA run begins, with an empty record. -/
def Sys.startPolling (s : Sys) (initial : InitialState) : Sys :=
  { s with
    trace := []
    program := { s.program with tracker := MvActuationTracker.forRun .opcda initial } }

theorem disciplined_startPolling (ctx : RunContext) (s : Sys) (initial : InitialState) :
    Disciplined ctx (s.startPolling initial) := by
  refine ⟨⟨.nil, fun _ he => absurd he List.not_mem_nil⟩, rfl, fun _ => trivial, ?_⟩
  intro pending hpending
  cases hpending

/-- **The relay discipline of a whole run.**  However the polling loop ends, every relay write was
issued with no command pending and with every earlier accepted command confirmed by then: by a
reading of acceptable quality, within the tolerance of the command and no later than 4 s after it
was accepted.  A tick that asks for a replacement while a command is pending is the last one; the
run is given up with the engine of before that tick. -/
theorem relay_discipline (fuel : ℕ) (ctx : RunContext) (initial : InitialState) (s : Sys) :
    wp (runPollingLoop fuel ctx)
      (fun outcome s' => Guarded Event.RelayWrite (MayWrite ctx) s'.trace ∧
        RefusesReplacement ctx s' (.ok outcome))
      (fun fault s' => Guarded Event.RelayWrite (MayWrite ctx) s'.trace ∧
        RefusesReplacement ctx s' (.error fault))
      (s.startPolling initial) := by
  have hstart := disciplined_startPolling ctx s initial
  refine (keeps_forDriver _ _ _ : Keeps recording _).wp_seq (fun tickTime s₁ hrel => ?_)
    fun f s₁ hrel => ?_
  · refine wp_bind.mpr ((wp_modifyProgram _).mpr (wp_bind.mpr (wp_now.mpr ?_)))
    refine wp_mono (wp_iterate (Q := fun outcome s' => Ended ctx s' (.ok outcome))
      (E := fun f s' => Ended ctx s' (.error f)) (fun _ s' => Disciplined ctx s') ?_
      (fun _ _ h => h.ended _) fuel _ ((hstart.record hrel).append (.refl _) rfl))
      (fun _ _ h => ⟨h.guarded, h.refuses⟩) (fun _ _ h => ⟨h.guarded, h.refuses⟩)
    intro ps s₂ hs₂
    refine wp_mono (disciplined_pollTurn hs₂ _ ps) ?_ fun _ _ h => h
    intro r s₃ hr
    cases r <;> exact hr
  · obtain ⟨hguarded, hrefuses⟩ := (hstart.toHalted.record hrel.1).ended (.error f)
    exact ⟨hguarded, hrefuses⟩

end Bhtune
