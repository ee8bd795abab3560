import Bhtune.Core.RelaySides
import Bhtune.Runtime.ActuationRuns
import Bhtune.Runtime.RelayStepCheck
import Bhtune.Runtime.TerminalOutcome

/-!
# A valve that has not moved, and the tolerances of a restore

The hand-off of the final snap-back checks the readback against the tolerance of a relay command,
which is at most a quarter of its step; the restoring write has a tolerance without that cap.

* `RelayPosition` — the initial MV, or one of the relay's two extremes;
* `Positioned` — the invariant: every command so far went to such a position, and every tolerance
  is the one of a step between two of them;
* `unmoved_valve` — the hand-off never takes a valve at an extreme for restored, and the restoring
  write does so exactly when its tolerance reaches the amplitude;
* `unmoved_valve_restored` — a run that ends confirmed with its valve at an extreme.
-/

namespace Bhtune

open Effect EventLog

/-! ### Positions -/

section Positions

variable (ctx : RunContext) (initial : InitialState)

/-- One of the two extremes of the relay. -/
def RelayExtreme (mv : ℚ) : Prop :=
  mv = initial.mvIni + relayAmplitude ctx initial ∨ mv = initial.mvIni - relayAmplitude ctx initial

/-- The initial MV, or one of the two extremes. -/
def RelayPosition (mv : ℚ) : Prop := mv = initial.mvIni ∨ RelayExtreme ctx initial mv

/-- The tolerance is that of a step between two positions. -/
def Event.Sized : Event → Prop
  | .write call => ∀ tolerance, call.origin = .restoreMv tolerance →
      ∃ previous, RelayPosition ctx initial previous ∧ tolerance =
        some (mvActuationUncappedTolerance initial.mvIni previous
          (initial.mvRangeHigh - initial.mvRangeLow))
  | .mark (.commandPending pending) => pending.kind = .relay →
      ∃ previous, RelayPosition ctx initial previous ∧
        mvActuationTolerance .relay pending.target previous
          (initial.mvRangeHigh - initial.mvRangeLow) = .ok pending.tolerance
  | _ => True

/-- The initial readings are stored, every tolerance so far is that of a step between two
positions, and the last command went to one. -/
structure Positioned (s : Sys) : Prop where
  recorded : s.Recorded initial
  sized : ∀ e ∈ s.trace, e.Sized ctx initial
  tracker : ∃ tracker, s.program.tracker = some tracker ∧
    tracker.mvSpan = initial.mvRangeHigh - initial.mvRangeLow ∧
    RelayPosition ctx initial tracker.previousCommandedMv

/-- The frame of what makes no command. -/
abbrev sizing : Frame Sys := within (Event.Sized ctx initial) fun a => a.tracker.map (·.issued)

variable {ctx initial}

/-- What a step of an engine writes is the initial MV or an extreme. -/
theorem MrftEngine.relayTarget_of_write {ar : MachineInt.IntArith} {e : MrftEngine ℚ}
    {tick : Tick ℚ} {v : ℚ}
    (h : .writeMv v ∈ (e.step ar tick).2) : e.RelayTarget v := by
  cases hc : e.completed with
  | true => simp [step_of_completed hc] at h
  | false =>
    cases hs : (e.observe tick).switchRequired tick with
    | false =>
      rw [step_of_no_switch hc hs] at h
      exact absurd (mem_finishStep h) List.not_mem_nil
    | true =>
      rw [step_of_switch hc hs] at h
      obtain rfl : v = ((e.observe tick).performSwitch ar tick).2 := by
        simpa using mem_finishStep h
      have hcases : ((e.observe tick).performSwitch ar tick).2 = e.mvValueIni ∨
          ((e.observe tick).performSwitch ar tick).2 = (e.observe tick).mvValueNextStep :=
        ite_eq_or_eq _ _ _
      rcases hcases with hmv | hmv
      · exact .inl hmv
      · rw [hmv]
        exact .inr (observe_next_cases e tick)

theorem Asks.position {v : ℚ} (h : Asks ctx initial v) : RelayPosition ctx initial v := by
  obtain ⟨e, tick, hsetup, hwrite⟩ := h
  have hmv : e.mvValueIni = initial.mvIni := congrArg MrftEngine.Setup.mvValueIni hsetup
  have hamplitude : e.relayAmpRaw = relayAmplitude ctx initial :=
    congrArg MrftEngine.Setup.relayAmpRaw hsetup
  have htarget := MrftEngine.relayTarget_of_write hwrite
  unfold MrftEngine.RelayTarget at htarget
  rw [MrftEngine.relayUp_eq, MrftEngine.relayDown_eq, hmv, hamplitude] at htarget
  exact htarget

end Positions

/-! ### The invariant -/

variable {ctx : RunContext} {initial : InitialState} {s s' : Sys} {α : Type}

theorem Event.Silent.sized {e : Event} (h : e.Silent) : e.Sized ctx initial := by
  cases e with
  | write call => exact h.elim
  | mark m => exact h.elim
  | _ => trivial

theorem Event.OffMv.sized {e : Event} (h : e.OffMv) : e.Sized ctx initial := by
  cases e with
  | write call =>
    intro tolerance horigin
    have h : ¬call.origin.CommandsMv := h
    rw [horigin] at h
    exact absurd trivial h
  | mark m => cases m <;> first | exact h.elim | trivial
  | _ => trivial

theorem Positioned.sizing (h : Positioned ctx initial s) (hrel : (sizing ctx initial).rel s s') :
    Positioned ctx initial s' := by
  obtain ⟨⟨new, htrace, hnew⟩, _, hissued⟩ := hrel
  obtain ⟨tracker, htracker, hspan, hposition⟩ := h.tracker
  refine ⟨h.recorded.after ⟨new, htrace, hnew⟩, fun e he => ?_, ?_⟩
  · rw [htrace] at he
    rcases List.mem_append.mp he with he | he
    · exact h.sized e he
    · exact hnew e he
  · have hissued : s'.program.tracker.map (·.issued) = s.program.tracker.map (·.issued) := hissued
    rw [htracker] at hissued
    obtain ⟨t, ht, heq⟩ := Option.map_eq_some_iff.mp hissued
    have hmv : t.previousCommandedMv = tracker.previousCommandedMv :=
      congrArg (fun i => i.2.1) heq
    have hsame : t.mvSpan = tracker.mvSpan := congrArg (fun i => i.2.2) heq
    exact ⟨t, ht, hsame.trans hspan, hmv ▸ hposition⟩

theorem positioned_of_sizing {x : Io α} (hx : Keeps (sizing ctx initial) x) :
    Keeps (.invariant (Positioned ctx initial)) x := hx.weaken fun _ _ hrel h => h.sizing hrel

/-- An accepted command goes to a position. -/
theorem keeps_acceptedPosition {pending : PendingMvActuation}
    (htarget : RelayPosition ctx initial pending.target)
    (hsized : (Event.mark (.commandPending pending)).Sized ctx initial) :
    Keeps (.invariant (Positioned ctx initial)) (acceptPending pending) := by
  refine .of_invariant fun s h => wp_bind.mpr ((wp_modifyTracker _).mpr ((wp_mark _).mpr
    ⟨?_, ?_, ?_⟩))
  · obtain ⟨id, hid⟩ := h.recorded
    exact ⟨id, List.mem_append_left _ hid⟩
  · intro e he
    rcases List.mem_append.mp he with he | he
    · exact h.sized e he
    · obtain rfl := List.mem_singleton.mp he
      exact hsized
  · obtain ⟨tracker, htracker, hspan, -⟩ := h.tracker
    refine ⟨tracker.acceptPending pending, ?_, hspan, htarget⟩
    show Option.map _ s.program.tracker = _
    rw [htracker]
    rfl

theorem keeps_relayPosition {v tolerance : ℚ} (hv : RelayPosition ctx initial v)
    (htolerance : ∃ previous, RelayPosition ctx initial previous ∧
      mvActuationTolerance .relay v previous (initial.mvRangeHigh - initial.mvRangeLow) =
        .ok tolerance)
    (switchTick : UtcTime) (switchInstant firstCheckAt : Instant) (elapsed : ℕ)
    (acceptedInstant : Instant) :
    Keeps (.invariant (Positioned ctx initial)) (recordRelayActuation v switchTick switchInstant
      firstCheckAt elapsed acceptedInstant tolerance) := by
  have hinsert : ∀ row, Keeps (sizing ctx initial) (database (.insertPending row)) := fun _ =>
    keeps_database fun _ => trivial
  exact (keeps_utcAfterElapsed _ _).bind fun _ => Keeps.get.bind fun _ =>
    (keeps_requireInvariant _ _).bind fun _ => (positioned_of_sizing (hinsert _)).bind fun _ =>
      keeps_acceptedPosition hv fun _ => htolerance

/-- **A relay write** has the tolerance of a step between two positions. -/
theorem keeps_relayWritePosition {v : ℚ} (hv : RelayPosition ctx initial v) (time : UtcTime)
    (observedInstant : Instant) :
    Keeps (.invariant (Positioned ctx initial)) (performWriteMv ctx v time observedInstant) := by
  have hguard : Keeps (sizing ctx initial) (modifyProgram fun p =>
      { p with guard := { p.guard with mvWritten := true } }) := keeps_modifyProgram fun _ => rfl
  have hwrite : ∀ tolerance pending, Keeps (sizing ctx initial) (bounded (boundedWrite none
      ctx.effectiveTiming.opTimeoutSecs (.relay tolerance pending)
      ctx.tags.manipulatedVariable (.float v))) := fun _ _ =>
    keeps_bounded (keeps_boundedWrite fun _ _ _ _ => nofun)
  refine .of_invariant fun s h => ?_
  have hparts : wp (performWriteMv ctx v time observedInstant)
      (fun _ s' => (Frame.invariant (Positioned ctx initial)).rel s s')
      (fun _ s' => (Frame.invariant (Positioned ctx initial)).rel s s') s := by
    refine relayCommandParts (positioned_of_sizing hguard)
      (fun _ _ _ => positioned_of_sizing (hwrite _ _)) fun tolerance commandedInstant htolerance =>
        keeps_relayPosition hv ?_ _ _ _ _ _
    obtain ⟨tracker, htracker, hspan, hposition⟩ := h.tracker
    refine ⟨tracker.previousCommandedMv, hposition, ?_⟩
    simp only [Sys.relayTolerance, htracker, hspan] at htolerance
    cases hresult : mvActuationTolerance .relay v tracker.previousCommandedMv
        (initial.mvRangeHigh - initial.mvRangeLow) with
    | error e => simp [hresult, Except.map] at htolerance
    | ok t => simpa [hresult, Except.map] using htolerance
  exact wp_mono hparts (fun _ _ hs => hs h) fun _ _ hs => hs h

/-- **The restoring write** has the tolerance of a step from the last command. -/
theorem restoreMv_positioned (fuel : ℕ) (policy : ActuationAuditPolicy) :
    Keeps (.invariant (Positioned ctx initial))
      (restoreMvWithVerification fuel ctx initial.mvIni policy) := by
  have hhandoff : Keeps (sizing ctx initial)
      (tryConfirmFinalSnapbackHandoff ctx ctx.tags.manipulatedVariable initial.mvIni) :=
    keeps_tryConfirmFinalSnapbackHandoff (fun _ h _ => h.sized) issued_map_tracker _ _ _
  have hround : Keeps (sizing ctx initial)
      (restoreVerificationRound ctx ctx.tags.manipulatedVariable policy) :=
    keeps_restoreVerificationRound (fun _ h _ => h.sized) issued_map_tracker _ _ _
  have hsupersede : ∀ detail, Keeps (sizing ctx initial)
      (supersedePendingActuationBestEffort detail) :=
    fun _ => keeps_supersedePending (fun _ h _ => h.sized) issued_map_tracker _
  have hdeadline : ∀ t : Instant, Keeps (sizing ctx initial) (modifyProgram fun p =>
      { p with restoreDeadline := max p.restoreDeadline t }) := fun _ =>
    keeps_modifyProgram fun _ => rfl
  have hutc : Keeps (sizing ctx initial) utcNow := keeps_utcNow
  have hinsert : ∀ row, Keeps (sizing ctx initial) (database (.insertPending row)) := fun _ =>
    keeps_database fun _ => trivial
  have htried : ∀ row, Keeps (sizing ctx initial) (tryErr (database (.insertPending row))) :=
    fun _ => keeps_tryErr (hinsert _)
  have haccepted : ∀ id acceptedAt acceptedInstant tolerance,
      Keeps (.invariant (Positioned ctx initial)) (acceptPending
        (restorePending id initial.mvIni acceptedAt acceptedInstant tolerance)) :=
    fun _ _ _ _ => keeps_acceptedPosition (.inl rfl) nofun
  refine .of_invariant fun s h => ?_
  have hwrite : Keeps (sizing ctx initial) (restoreMvWrite ctx ctx.tags.manipulatedVariable
      initial.mvIni (s.restoreTolerance initial.mvIni)) := by
    obtain ⟨tracker, htracker, hspan, hposition⟩ := h.tracker
    refine keeps_restoreMvWriteOf fun call horigin _ _ tolerance heq => ⟨_, hposition, ?_⟩
    have htolerance : tolerance = s.restoreTolerance initial.mvIni := by
      rw [horigin] at heq
      injection heq with heq
      exact heq.symm
    rw [htolerance, ← hspan]
    simp [Sys.restoreTolerance, htracker]
  have haccept : ∀ tolerance, Keeps (.invariant (Positioned ctx initial))
      (acceptRestoreWrite initial.mvIni policy tolerance) := fun tolerance => by
    refine (positioned_of_sizing (hsupersede _)).bind fun _ => keeps_now.bind fun _ =>
      (positioned_of_sizing hutc).bind fun _ => (positioned_of_sizing (hdeadline _)).bind fun _ =>
        Keeps.get.bind fun _ => (keeps_requireInvariant _ _).bind fun tracker => ?_
    cases policy with
    | required =>
      exact (positioned_of_sizing (hinsert _)).bind fun _ => (Keeps.pure _).bind fun _ =>
        haccepted _ _ _ _
    | bestEffort =>
      refine (positioned_of_sizing (htried _)).bind fun r => ?_
      cases r with
      | ok row => exact (Keeps.pure _).bind fun _ => haccepted _ _ _ _
      | error e => exact (Keeps.pure _).bind fun _ => haccepted _ _ _ _
  exact wp_mono (mvStepParts (F := .invariant (Positioned ctx initial))
    (positioned_of_sizing hwrite) (positioned_of_sizing hhandoff) haccept
    (positioned_of_sizing hround) fuel) (fun _ _ hs => hs h) fun _ _ hs => hs h

/-- The invariant goes along with every function that concerns the commands of the MV. -/
theorem accompanies_positioned (ctx : RunContext) (initial : InitialState) :
    Accompanies (.invariant (Positioned ctx initial)) ctx initial where
  aside := fun _ _ hrel h => h.sizing
    ⟨hrel.1.mono fun _ he => he.sized, hrel.2.1,
      congrArg (fun part => part.1.map (·.issued)) hrel.2.2⟩
  fresh := fun _ _ => positioned_of_sizing (keeps_modifyProgram fun _ => rfl)
  verify := fun _ => positioned_of_sizing
    (keeps_verifyPendingMvActuation (fun _ h _ => h.sized) issued_map_tracker _ _ _ _ _)
  poll := fun _ _ _ => positioned_of_sizing
    (keeps_resolvePendingMvPoll (fun _ h _ => h.sized) issued_map_tracker _ _ _ _)
  reject := positioned_of_sizing
    (keeps_rejectReplacement (fun _ h _ => h.sized) issued_map_tracker _)
  write := fun _ time observedInstant s hasks _ =>
    keeps_relayWritePosition hasks.position time observedInstant s
  restore := fun fuel policy => restoreMv_positioned fuel policy
  finalize := fun _ => positioned_of_sizing (keeps_bestEffort (keeps_runStatement fun _ => trivial))

theorem positioned_beginRun (hdriver : ctx.driver = .opcda) (h : s.Uncommanded)
    (hrecorded : s.Recorded initial) : Positioned ctx initial (s.beginRun ctx initial) where
  recorded := hrecorded
  sized := fun e he => by
    rcases h e he with hoff | ⟨status, detail, result, rfl⟩
    · exact hoff.sized
    · trivial
  tracker := by
    refine ⟨⟨0, initial.mvIni, none, none, initial.mvRangeHigh - initial.mvRangeLow⟩, ?_, rfl,
      .inl rfl⟩
    show MvActuationTracker.forRun ctx.driver initial = _
    rw [hdriver]
    rfl

/-! ### Readbacks at an extreme -/

/-- The amplitude of a run that passed its checks. -/
theorem PassedChecks.amplitude_pos (h : PassedChecks ctx initial) (hdriver : ctx.driver = .opcda)
    (hexact : ctx.floats = .exact) (hconfig : ctx.config.validate = .ok ()) :
    0 < relayAmplitude ctx initial := by
  have hnonneg := relayAmplitude_nonneg hconfig h.valid
  have hstep := ((validateRelayActuationStep_iff hdriver hexact hnonneg).mp h.step).1
  exact minRelayStep_pos.trans_le hstep

theorem RelayExtreme.distance {r : ℚ} (h : RelayExtreme ctx initial r)
    (hnonneg : 0 ≤ relayAmplitude ctx initial) :
    |initial.mvIni - r| = relayAmplitude ctx initial := by
  rcases h with rfl | rfl
  · rw [sub_add_cancel_left, abs_neg, abs_of_nonneg hnonneg]
  · rw [sub_sub_cancel, abs_of_nonneg hnonneg]

/-- A valve at an extreme is told from a restored one exactly by a tolerance below the amplitude. -/
theorem RelayExtreme.refused_iff {r : ℚ} (h : RelayExtreme ctx initial r)
    (hnonneg : 0 ≤ relayAmplitude ctx initial) (tolerance : ℚ) :
    actuationMatches initial.mvIni r tolerance = false ↔ tolerance < relayAmplitude ctx initial := by
  unfold actuationMatches
  rw [h.distance hnonneg]
  simp

/-- The tolerance of a relay command back to the initial MV is at most a quarter of the
amplitude. -/
theorem handoff_tolerance {previous tolerance span : ℚ}
    (hnonneg : 0 ≤ relayAmplitude ctx initial) (hposition : RelayPosition ctx initial previous)
    (h : mvActuationTolerance .relay initial.mvIni previous span = .ok tolerance) :
    4 * tolerance ≤ relayAmplitude ctx initial := by
  have hstep := ((mvActuationTolerance_relay_iff _ _ _).mp ⟨tolerance, h⟩).1
  have hquarter := (tolerance_bounds h).1
  rcases hposition with rfl | hextreme
  · rw [sub_self, abs_zero] at hstep
    exact absurd minRelayStep_pos (not_lt.mpr hstep)
  · rwa [hextreme.distance hnonneg] at hquarter

/-- **A valve that still stands at an extreme of the relay**, in exact arithmetic.  A run commands
the MV for the initial readings that it stored, which passed its checks.  The tolerance that the
hand-off of the final snap-back checks with never takes such a valve for restored.  The tolerance of
a restoring write is the uncapped one, and takes it for restored exactly when it reaches the
amplitude of the relay. -/
theorem unmoved_valve (prepared : PreparedTune) (hdriver : prepared.ctx.driver = .opcda)
    (hexact : prepared.ctx.floats = .exact) (hconfig : prepared.ctx.config.validate = .ok ())
    (fuel : ℕ) (hasHandler : Bool) (hnew : s.trace = []) :
    let record := recordOf (driveReport fuel prepared hasHandler) s
    (∀ call, .write call ∈ record → ¬call.origin.CommandsMv) ∨
      ∃ initial id, .db (.recordInitialReadings initial) (.ok id) ∈ record ∧
        PassedChecks prepared.ctx initial ∧
        (∀ pending, .mark (.commandPending pending) ∈ record → pending.kind = .relay →
          pending.target = initial.mvIni → ∀ r, RelayExtreme prepared.ctx initial r →
            actuationMatches initial.mvIni r pending.tolerance = false) ∧
        ∀ call tolerance, .write call ∈ record → call.origin = .restoreMv tolerance →
          ∃ previous t, RelayPosition prepared.ctx initial previous ∧ tolerance = some t ∧
            t = mvActuationUncappedTolerance initial.mvIni previous
              (initial.mvRangeHigh - initial.mvRangeLow) ∧
            ∀ r, RelayExtreme prepared.ctx initial r →
              (actuationMatches initial.mvIni r t = false ↔
                t < relayAmplitude prepared.ctx initial) := by
  intro record
  have hsettles : ∀ initial, PassedChecks prepared.ctx initial →
      Settles (.invariant (Positioned prepared.ctx initial)) (fun _ => True) prepared.ctx initial :=
    fun initial _ =>
      { accompanies_positioned prepared.ctx initial with
        closes := fun _ _ => wlp_true _
        stays := fun _ _ _ => id }
  have hfresh : s.Uncommanded := fun e he => by simp [hnew] at he
  have hrun := driveReport_invariant hsettles
    (fun _ _ _ hs' hrecorded => positioned_beginRun hdriver hs' hrecorded) rfl hfresh fuel
    hasHandler
  -- the record of a run: nothing is commanded, or every tolerance is sized
  have hrecord : (∀ call, .write call ∈ record → ¬call.origin.CommandsMv) ∨
      ∃ initial id, .db (.recordInitialReadings initial) (.ok id) ∈ record ∧
        PassedChecks prepared.ctx initial ∧ ∀ e ∈ record, e.Sized prepared.ctx initial := by
    have hend : ∀ s' : Sys, (s'.Uncommanded ∨
        ∃ initial, PassedChecks prepared.ctx initial ∧ Positioned prepared.ctx initial s') →
        (∀ call, .write call ∈ s'.trace → ¬call.origin.CommandsMv) ∨
          ∃ initial id, .db (.recordInitialReadings initial) (.ok id) ∈ s'.trace ∧
            PassedChecks prepared.ctx initial ∧ ∀ e ∈ s'.trace, e.Sized prepared.ctx initial := by
      rintro s' (hidle | ⟨initial, hpassed, hs'⟩)
      · refine .inl fun call hcall => ?_
        rcases hidle _ hcall with hoff | ⟨status, detail, result, heq⟩
        · exact hoff
        · cases heq
      · obtain ⟨id, hid⟩ := hs'.recorded
        exact .inr ⟨initial, id, hid, hpassed, hs'.sized⟩
    exact recordOf_holds (P := fun log => (∀ call, .write call ∈ log → ¬call.origin.CommandsMv) ∨
      ∃ initial id, .db (.recordInitialReadings initial) (.ok id) ∈ log ∧
        PassedChecks prepared.ctx initial ∧ ∀ e ∈ log, e.Sized prepared.ctx initial)
      (wp_mono hrun (fun _ => hend) fun _ => hend)
  refine hrecord.imp_right fun ⟨initial, id, hid, hpassed, hsized⟩ =>
    ⟨initial, id, hid, hpassed, ?_, ?_⟩
  · intro pending hpending hkind htarget r hr
    have hpos := hpassed.amplitude_pos hdriver hexact hconfig
    obtain ⟨previous, hposition, htolerance⟩ := hsized _ hpending hkind
    rw [htarget] at htolerance
    have hquarter := handoff_tolerance hpos.le hposition htolerance
    exact (hr.refused_iff hpos.le _).mpr (by linarith)
  · intro call tolerance hcall horigin
    obtain ⟨previous, hposition, htolerance⟩ := hsized _ hcall tolerance horigin
    exact ⟨previous, _, hposition, htolerance, rfl, fun r hr =>
      hr.refused_iff (hpassed.amplitude_pos hdriver hexact hconfig).le _⟩

/-! ### A seized valve -/

/-- The loop FC1 with its valve nearly shut: it follows the first command, to 0, and stays there. -/
def seizedLoop : Environment where
  answers := fun n =>
    { values := .ok
        [⟨"FC1.MV", "", .finite (if n < 7 then 1 / 16 else 0), .good⟩,
        ⟨"FC1.PV", "", .finite (if n < 4 then 50 else if n < 12 then 55 else 45), .good⟩,
        ⟨"FC1.MODE", "MAN", .notANumber, .good⟩] }
  signals := []
  signals_sorted := Environment.noSignals_sorted

/-- The record of a run on it. -/
def seizedRecord : List Event :=
  recordOf (driveReport 12 flowPrepared false) (flowSys seizedLoop)

/-- Its initial readings. -/
def seizedInitial : InitialState := { flowInitial with mvIni := 1 / 16, modeRaw := some "MAN" }

/-- The tolerance of its restoring write: the precision floor and a thousandth of the span. -/
def seizedTolerance : ℚ := mvActuationUncappedTolerance (1 / 16) (1 / 8) 100

/-- The tolerances of that run are those of its steps. -/
theorem unmoved_valve_seized :
    ∃ initial id, .db (.recordInitialReadings initial) (.ok id) ∈ seizedRecord ∧
      PassedChecks flowPrepared.ctx initial ∧
      ∀ call tolerance, .write call ∈ seizedRecord → call.origin = .restoreMv tolerance →
        ∃ t, tolerance = some t ∧ ∀ r, RelayExtreme flowPrepared.ctx initial r →
          (actuationMatches initial.mvIni r t = false ↔
            t < relayAmplitude flowPrepared.ctx initial) := by
  rcases unmoved_valve flowPrepared rfl rfl (by decide +kernel) 12 false
    (rfl : (flowSys seizedLoop).trace = []) with
    hidle | ⟨initial, id, hid, hpassed, -, hrestore⟩
  · have hrestoring : ∃ call, .write call ∈ seizedRecord ∧
        call.origin = .restoreMv (some seizedTolerance) :=
      ⟨⟨.restoreMv (some seizedTolerance), "FC1.MV", .float (1 / 16), 8000000000, 8000000000,
        .accepted⟩, by decide +kernel, rfl⟩
    obtain ⟨call, hcall, horigin⟩ := hrestoring
    have hnot := hidle call hcall
    rw [horigin] at hnot
    exact absurd trivial hnot
  · refine ⟨initial, id, hid, hpassed, fun call tolerance hcall horigin => ?_⟩
    obtain ⟨previous, t, -, htolerance, -, hrefused⟩ := hrestore call tolerance hcall horigin
    exact ⟨t, htolerance, hrefused⟩

/-- The run passed its checks, its relay has the extremes 0 and 1/8, and its restoring write is
confirmed by a readback of 0. -/
theorem unmoved_valve_restored :
    flowPrepared.ctx.config.validate = .ok () ∧ validateInitialState seizedInitial = .ok () ∧
    validateRelayActuationStep flowPrepared.ctx seizedInitial = .ok () ∧
    seizedInitial.mvIni - relayAmplitude flowPrepared.ctx seizedInitial = 0 ∧
    .db (.recordInitialReadings seizedInitial) (.ok 0) ∈ seizedRecord ∧
    .write ⟨.restoreMv (some seizedTolerance), "FC1.MV", .float (1 / 16), 8000000000, 8000000000,
      .accepted⟩ ∈ seizedRecord ∧
    actuationMatches seizedInitial.mvIni 0 seizedTolerance = true ∧
    .mark (.restoreEnded .confirmed) ∈ seizedRecord := by
  decide +kernel

end Bhtune
