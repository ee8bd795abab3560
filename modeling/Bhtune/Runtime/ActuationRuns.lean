import Bhtune.Runtime.CrashEvidence
import Bhtune.Runtime.RelayDiscipline

/-!
# Properties of the MV commands over whole runs

What a run does with the MV goes through a few functions: the verification of a pending command,
the relay write, the restoring write, and the statement that closes what is pending.  A property
that these keep, and that nothing else can break, holds of the whole run.

* `Event.OffMv`, `offMv` — what does not concern the commands of the MV;
* `Accompanies` — a relation that goes along with those functions;
* `Accompanies.keeps_runPollingLoop`, `Accompanies.keeps_attemptRestore` — it goes along with the
  polling loop and with a restore attempt;
* `Settles`, `Concludes` — what holds besides once a run has returned;
* `Settles.executeMutating`, `driveReport_invariant` — the part of a run that mutates the loop, and
  a whole run.
-/

namespace Bhtune

open Effect EventLog

/-! ### What does not concern the MV -/

/-- A statement on `tune_mv_actuations`. -/
def DbOp.Actuates : DbOp → Prop
  | .insertPending _ => True
  | .recordObservation _ _ _ _ => True
  | .recordFinalObservation _ _ _ _ _ _ => True
  | .finalize _ _ _ => True
  | .finalizePendingForRun _ _ => True
  | _ => False

/-- A write of the MV. -/
def Origin.CommandsMv : Origin → Prop
  | .relay _ _ => True
  | .restoreMv _ => True
  | _ => False

/-- An event that neither commands the MV nor belongs to the audit of its commands. -/
def Event.OffMv : Event → Prop
  | .write call => ¬call.origin.CommandsMv
  | .db op _ => ¬op.Actuates
  | .mark (.commandPending _) => False
  | _ => True

/-- The frame of what does not concern the commands of the MV. -/
abbrev offMv : Frame Sys := within Event.OffMv fun a => (a.tracker, a.engine.setup)

variable {ctx : RunContext} {initial : InitialState}

theorem Event.RestoresLater.offMv {e : Event} (h : e.RestoresLater) : e.OffMv := by
  cases e with
  | write call =>
    show ¬call.origin.CommandsMv
    rcases h with h | h | h <;> rw [h] <;> exact id
  | mark m => cases m <;> first | exact h.elim | trivial
  | _ => exact h.elim

theorem DbOp.WritesBack.not_actuates {op : DbOp} (h : op.WritesBack) : ¬op.Actuates := by
  cases op <;> first | exact h.elim | exact id

theorem offMv_statement (op : DbOp) (h : ¬op.Actuates) : Keeps offMv (runStatement op) :=
  keeps_runStatement fun _ => h

theorem offMv_modifyProgram {f : Program → Program}
    (h : ∀ a, ((f a).tracker, (f a).engine.setup) = (a.tracker, a.engine.setup)) :
    Keeps offMv (modifyProgram f) := keeps_modifyProgram h

theorem offMv_transition : Keeps offMv (transitionToManual ctx initial) := by
  refine keeps_transitionWrites trivial (fun call horigin _ => ?_) fun _ _ => rfl
  show ¬call.origin.CommandsMv
  rcases horigin with h | h <;> rw [h] <;> exact id

theorem offMv_afterMvStep (fuel : ℕ) (completion : Option SettlingInput)
    (measuredOscillationPeriodMs : Option (XNum ℚ)) (mv : RestoreStepOutcome) :
    Keeps offMv (afterMvStep fuel ctx initial completion measuredOscillationPeriodMs mv) :=
  keeps_afterMvStep (fun _ h _ => h.offMv) (fun _ => trivial) (fun _ => trivial) (fun _ => trivial)
    (fun _ _ => rfl) (fun _ _ => rfl) fuel completion measuredOscillationPeriodMs mv
    fun _ _ _ _ _ _ => id

theorem offMv_maybeWriteBack (writePid : Option ResponseLevel) (hasHandler : Bool)
    (ownership : Option LiveOperationGuard) :
    Keeps offMv (maybeWriteBack ctx writePid hasHandler ownership) := by
  refine keeps_maybeWriteBack (fun _ => trivial) (fun call horigin => ?_)
    (fun _ _ h => h.not_actuates) ctx writePid hasHandler ownership
  show ¬call.origin.CommandsMv
  rw [horigin]
  exact id

theorem offMv_abortWithSample (tickIndex : ℕ) (tick : Tick ℚ) (state : MrftState ℚ)
    (quality : SampleQuality) (reason : AbortReason) :
    Keeps offMv (abortWithSample tickIndex tick state quality reason) :=
  (offMv_statement _ id).bind fun _ => .pure _

theorem offMv_metrics (metrics : Option TimingMetrics) :
    Keeps offMv (recordTimingMetricsIfPresent metrics) := by
  cases metrics with
  | none => exact .pure _
  | some metrics => exact keeps_bestEffort (offMv_statement _ id)

/-! ### What goes along with the commands -/

/-- The engine is one of the run. -/
def Sys.SetUp (ctx : RunContext) (initial : InitialState) (s : Sys) : Prop :=
  s.program.engine.setup = (runEngine ctx initial).setup

/-- An engine of the run asks for `v`. -/
def Asks (ctx : RunContext) (initial : InitialState) (v : ℚ) : Prop :=
  ∃ (e : MrftEngine ℚ) (tick : Tick ℚ), e.setup = (runEngine ctx initial).setup ∧
    Action.writeMv v ∈ (e.step ctx.arith tick).2

/-- The relation goes along with every function that concerns the commands of the MV. -/
structure Accompanies (F : Frame Sys) (ctx : RunContext) (initial : InitialState) : Prop where
  aside : ∀ s s', offMv.rel s s' → F.rel s s'
  fresh : ∀ engine timing, Keeps F (modifyProgram fun p =>
    { p with engine := engine, timing := timing })
  verify : ∀ trigger, Keeps F (verifyPendingMvActuation ctx ctx.tags.manipulatedVariable trigger
    .none .required)
  poll : ∀ values checkedAt checkedInstant,
    Keeps F (resolvePendingMvPoll ctx values checkedAt checkedInstant)
  reject : Keeps F (rejectReplacementForPendingActuation ctx.tags.manipulatedVariable)
  /-- A relay write is asked for by the engine, and made while nothing is pending. -/
  write : ∀ v time observedInstant s, Asks ctx initial v → Sys.pending s = none →
    wp (performWriteMv ctx v time observedInstant) (fun _ s' => F.rel s s')
      (fun _ s' => F.rel s s') s
  restore : ∀ fuel policy, Keeps F (restoreMvWithVerification fuel ctx initial.mvIni policy)
  finalize : ∀ detail, Keeps F (finalizePendingForRunBestEffort detail)

/-- A tick whose engine may act brings at most one write, and none while a command is pending. -/
theorem evaluateTick_writes (tick : Tick ℚ) (providedMvEvidence : Bool) {s : Sys}
    (hs : s.SetUp ctx initial) :
    wlp (evaluateTick ctx tick providedMvEvidence) (fun r s' => ∀ actions, r = .ok actions →
      OneWrite actions ∧ (∀ v, .writeMv v ∈ actions → Asks ctx initial v) ∧
        (s'.pending.isSome = true → actions.any Action.isWrite = false)) s := by
  refine wp_bind.mpr (wp_get.mpr (wp_bind.mpr (wp_getPending.mpr ?_)))
  have honce : OneWrite (s.program.engine.step ctx.arith tick).2 := oneWrite_step _ _ _
  have hasks : ∀ v, .writeMv v ∈ (s.program.engine.step ctx.arith tick).2 →
      Asks ctx initial v := fun v hv => ⟨_, tick, hs, hv⟩
  generalize s.program.engine.step ctx.arith tick = result at honce hasks ⊢
  obtain ⟨preview, actions⟩ := result
  refine wp_bind.mpr ((wp_mark _).mpr ?_)
  by_cases hreplaces : s.pending.isSome = true ∧ actions.any Action.isWrite = true
  · rw [if_pos hreplaces]
    by_cases hevidence : providedMvEvidence = true
    · rw [if_pos hevidence]
      exact wlp_last fun _ _ => nofun
    · rw [if_neg hevidence]
      trivial
  · rw [if_neg hreplaces]
    intro actions' heq
    cases heq
    exact ⟨honce, hasks, fun hsome => Bool.eq_false_iff.mpr fun hwrite =>
      hreplaces ⟨hsome, hwrite⟩⟩

theorem OneWrite.rest {v : ℚ} {rest : List (Action ℚ)} (h : OneWrite (.writeMv v :: rest)) :
    rest.any Action.isWrite = false := by
  have hone : (rest.filter Action.isWrite).length + 1 ≤ 1 := h
  have hnil : rest.filter Action.isWrite = [] := List.length_eq_zero_iff.mp (by omega)
  rw [List.any_eq_false]
  exact List.filter_eq_nil_iff.mp hnil

namespace Accompanies

variable {F : Frame Sys} (h : Accompanies F ctx initial) {α : Type} {s : Sys}

/-- Actions without a write only set what the loop remembers. -/
theorem keeps_completing (time : UtcTime) (observedInstant : Instant)
    (stateBeforeStep : MrftState ℚ) (completion : Option (Action ℚ))
    (postDelayEnd : Option UtcTime) {actions : List (Action ℚ)}
    (hnone : actions.any Action.isWrite = false) :
    Keeps F (performActions ctx time observedInstant stateBeforeStep completion postDelayEnd
      actions) := by
  induction actions generalizing completion postDelayEnd with
  | nil => exact .pure _
  | cons action rest ih =>
    rw [List.any_cons, Bool.or_eq_false_iff] at hnone
    cases action with
    | writeMv v => simp [Action.isWrite] at hnone
    | complete peaks troughs switchTimes mvSignInit => exact ih _ _ hnone.2

/-- The relation, from a state whose engine is one of the run. -/
abbrev onward (F : Frame Sys) (ctx : RunContext) (initial : InitialState) : Frame Sys :=
  F.given (Sys.SetUp ctx initial)

include h

theorem of_offMv {x : Io α} (hx : Keeps offMv x) : Keeps F x := hx.weaken h.aside

/-- What does not concern the MV leaves the engine one of the run. -/
theorem onward_aside {s' : Sys} (hrel : offMv.rel s s') : (onward F ctx initial).rel s s' :=
  fun hs => ⟨(congrArg Prod.snd hrel.2.2).trans hs, h.aside s s' hrel⟩

theorem quiet {x : Io α} (hx : Keeps offMv x) : Keeps (onward F ctx initial) x :=
  hx.weaken fun _ _ => h.onward_aside

omit h in
/-- What goes along and leaves the engine alone leaves it one of the run. -/
theorem verified {x : Io α} (hx : Keeps F x) (hengine : Keeps verifying x) :
    Keeps (onward F ctx initial) x :=
  (hx.inf hengine).weaken fun s s' hrel hs => by
    have hsame : s'.program.untracked = s.program.untracked := hrel.2.2.2
    have hkept : s'.program.untracked.engine = s.program.untracked.engine := by rw [hsame]
    refine ⟨?_, hrel.1⟩
    show s'.program.untracked.engine.setup = _
    rw [hkept]
    exact hs

/-! ### Along the polling loop -/

theorem onward_resolvePoll (values : TickOperation (List TagValue)) (checkedAt : UtcTime)
    (checkedInstant : Instant) :
    Keeps (onward F ctx initial) (resolvePendingMvPoll ctx values checkedAt checkedInstant) :=
  verified (h.poll _ _ _) (keeps_resolvePendingMvPoll (fun _ hs _ => hs) (fun _ _ _ => rfl) _ _ _ _)

theorem onward_abandonedPollRead (operation : TickOperation (List TagValue)) (message : String)
    (otherwise : AbortReason) :
    Keeps (onward F ctx initial) (abandonedPollRead ctx operation message otherwise) := by
  refine keeps_getPending.bind fun pending => ?_
  cases pending with
  | none => exact .pure _
  | some pending =>
    exact keeps_now.bind fun _ => (keeps_checkedAtForPending _ _).bind fun _ =>
      (h.onward_resolvePoll _ _ _).bind fun _ => (keeps_requireInvariant _ _).bind fun _ => .pure _

theorem onward_pollRead : Keeps (onward F ctx initial) (pollRead ctx) := by
  refine keeps_getPending.bind fun pending =>
    (h.quiet (keeps_readPollBatch (fun _ => trivial) _ _ _)).bind fun r => ?_
  cases r with
  | completed values =>
    have htail : ∀ reason evidence, Keeps (onward F ctx initial)
        (liftResult (readNumericFromBatch values ctx.tags.processVariable) >>= fun x =>
          pure (PollRead.sample x.1 x.2 evidence reason)) :=
      fun _ _ => (keeps_liftResult _).bind fun _ => .pure _
    refine keeps_now.bind fun t => ?_
    dsimp only
    split
    · exact keeps_getPending.bind fun _ => (keeps_requireInvariant _ _).bind fun _ =>
        (keeps_checkedAtForPending _ _).bind fun _ => (h.onward_resolvePoll _ _ _).bind fun _ =>
          htail _ _
    · exact (Keeps.pure _).bind fun _ => htail _ _
  | cancelled => exact h.onward_abandonedPollRead _ _ _
  | timedOut => exact h.onward_abandonedPollRead _ _ _

/-- A step of the engine changes nothing else, and leaves it one of the run. -/
theorem onward_evaluateTick (tick : Tick ℚ) (providedMvEvidence : Bool) :
    Keeps (onward F ctx initial) (evaluateTick ctx tick providedMvEvidence) := by
  have hreject : Keeps (onward F ctx initial)
      (rejectReplacementForPendingActuation ctx.tags.manipulatedVariable) :=
    verified h.reject (keeps_rejectReplacement (fun _ hs _ => hs) (fun _ _ _ => rfl) _)
  refine Keeps.bind_get fun s => wp_bind.mpr (wp_getPending.mpr ?_)
  have hsetup : (s.program.engine.step ctx.arith tick).1.setup = s.program.engine.setup :=
    MrftEngine.setup_step
  generalize s.program.engine.step ctx.arith tick = result at hsetup ⊢
  obtain ⟨preview, actions⟩ := result
  refine wp_bind.mpr ((wp_mark _).mpr ?_)
  have hmark : offMv.rel s { s with trace := s.trace ++
      [.mark (.evaluated s.program.engine tick s.pending actions)] } :=
    ⟨.concat _ trivial, .wait le_rfl le_rfl rfl rfl, rfl⟩
  have hcommit : offMv.rel s { s with
      trace := s.trace ++ [.mark (.evaluated s.program.engine tick s.pending actions)]
      program := { s.program with engine := preview } } :=
    ⟨.concat _ trivial, .wait le_rfl le_rfl rfl rfl, Prod.ext rfl hsetup⟩
  split
  · split
    · exact Keeps.goOn (h.onward_aside hmark) (hreject.bind fun _ => .pure _)
    · exact h.onward_aside hmark
  · exact h.onward_aside hcommit

theorem onward_performWriteMv {v : ℚ} (hasks : Asks ctx initial v) (hnone : s.pending = none)
    (time : UtcTime) (observedInstant : Instant) :
    wp (performWriteMv ctx v time observedInstant) (fun _ s' => (onward F ctx initial).rel s s')
      (fun _ s' => (onward F ctx initial).rel s s') s := by
  have hengine : Keeps (within (fun _ => True) fun a => a.engine.setup)
      (performWriteMv ctx v time observedInstant) :=
    keeps_relayCommand (fun _ _ _ _ _ _ => trivial) (fun _ => trivial) (fun _ _ => trivial)
      (fun _ _ => rfl) (fun _ _ => rfl) _ _ _
  have hboth := hengine.and_wp (h.write v time observedInstant s hasks hnone)
  exact wp_mono hboth (fun _ _ hr hs => ⟨hr.1.2.2.trans hs, hr.2⟩)
    fun _ _ hr hs => ⟨hr.1.2.2.trans hs, hr.2⟩

/-- The actions of a tick: a write finds nothing pending, and is the only one. -/
theorem onward_performActions (time : UtcTime) (observedInstant : Instant)
    (stateBeforeStep : MrftState ℚ) (completion : Option (Action ℚ))
    (postDelayEnd : Option UtcTime) {actions : List (Action ℚ)} (hone : OneWrite actions)
    (hasks : ∀ v, .writeMv v ∈ actions → Asks ctx initial v)
    (hidle : s.pending.isSome = true → actions.any Action.isWrite = false) :
    wp (performActions ctx time observedInstant stateBeforeStep completion postDelayEnd actions)
      (fun _ s' => (onward F ctx initial).rel s s')
      (fun _ s' => (onward F ctx initial).rel s s') s := by
  induction actions generalizing completion postDelayEnd with
  | nil => exact (onward F ctx initial).refl s
  | cons action rest ih =>
    have hrest : ∀ v, .writeMv v ∈ rest → Asks ctx initial v := fun v hv =>
      hasks v (List.mem_cons_of_mem _ hv)
    cases action with
    | complete peaks troughs switchTimes mvSignInit => exact ih _ _ hone hrest hidle
    | writeMv v =>
      have hnone : s.pending = none := by
        cases hpending : s.pending with
        | none => rfl
        | some pending =>
          rw [hpending] at hidle
          exact absurd (hidle rfl) nofun
      refine wp_seq (h.onward_performWriteMv (hasks v List.mem_cons_self) hnone _ _)
        fun operation s₁ hrel => ?_
      cases operation with
      | completed _ => exact Keeps.goOn hrel (keeps_completing _ _ _ _ _ hone.rest)
      | cancelled => exact hrel
      | timedOut => exact Keeps.goOn hrel ((keeps_engineState ctx).bind fun _ => .pure _)

theorem onward_evaluatedTick (ps : PollState) (tick : Tick ℚ) (observedInstant : Instant)
    (quality : SampleQuality) (providedMvEvidence : Bool) :
    Keeps (onward F ctx initial)
      (evaluatedTick ctx ps tick observedInstant quality providedMvEvidence) := by
  have habort : ∀ state reason, Keeps (onward F ctx initial)
      (abortWithSample ps.tickIndex tick state quality reason) :=
    fun _ _ => h.quiet (offMv_abortWithSample _ _ _ _ _)
  refine (keeps_engineState ctx).bind fun before s => ?_
  -- from a state whose engine is not one of the run there is nothing to show
  by_cases hs : s.SetUp ctx initial
  · refine wp_seq ((h.onward_evaluateTick tick providedMvEvidence).failures
      (evaluateTick_writes tick providedMvEvidence hs)) fun r s₁ hr => ?_
    cases r with
    | error reason => exact Keeps.goOn hr.1 (habort _ _)
    | ok actions =>
      obtain ⟨hone, hasks, hidle⟩ := hr.2 actions rfl
      refine wp_seq (wp_mono (h.onward_performActions _ _ _ _ _ hone hasks hidle)
        (fun _ _ => (onward F ctx initial).trans hr.1)
        fun _ _ => (onward F ctx initial).trans hr.1) fun performed s₂ hrel => Keeps.goOn hrel ?_
      cases performed with
      | aborted reason state => exact habort _ _
      | performed completion postDelayEnd =>
        refine (keeps_engineState ctx).bind fun _ =>
          (h.quiet (offMv_statement _ id)).bind fun _ => ?_
        dsimp only
        split
        · exact (keeps_requireInvariant _ _).bind fun _ => (keeps_engineState ctx).bind fun _ =>
            .pure _
        · exact .pure _
  · exact wp_mono (wp_run _ s) (fun _ _ _ hs' => absurd hs' hs) fun _ _ _ hs' => absurd hs' hs

theorem onward_sampledTick (ps : PollState) (pv : ℚ) (quality : Quality) (evidence : Bool)
    (batchedAbort : Option AbortReason) :
    Keeps (onward F ctx initial) (sampledTick ctx ps pv quality evidence batchedAbort) := by
  have habort : ∀ tick state reason, Keeps (onward F ctx initial) (abortWithSample ps.tickIndex
      tick state (sampleQualityFromDriver quality) reason) :=
    fun _ _ _ => h.quiet (offMv_abortWithSample _ _ _ _ _)
  refine keeps_now.bind fun _ => (h.quiet (keeps_nextTimestamp fun _ _ => rfl)).bind fun time =>
    (h.quiet (keeps_observeTimestamp (fun _ _ => rfl) time)).bind fun _ => ?_
  dsimp only
  split
  · exact (keeps_engineState ctx).bind fun _ => habort _ _ _
  · exact (keeps_engineState ctx).bind fun _ => habort _ _ _
  · split
    · exact (keeps_engineState ctx).bind fun _ =>
        (h.quiet (offMv_statement _ id)).bind fun _ => .pure _
    · exact h.onward_evaluatedTick _ _ _ _ _

theorem onward_pollTick (ps : PollState) : Keeps (onward F ctx initial) (pollTick ctx ps) := by
  refine keeps_now.bind fun _ => h.onward_pollRead.bind fun read => ?_
  cases read with
  | aborted reason => exact .pure _
  | sample pv quality evidence batchedAbort => exact h.onward_sampledTick _ _ _ _ _

theorem onward_verificationBranch (ps : PollState) :
    Keeps (onward F ctx initial) (verificationBranch ctx ps) := by
  have hverify : ∀ trigger, Keeps (onward F ctx initial) (verifyPendingMvActuation ctx
      ctx.tags.manipulatedVariable trigger .none .required) := fun _ =>
    verified (h.verify _)
      (keeps_verifyPendingMvActuation (fun _ hs _ => hs) (fun _ _ _ => rfl) _ _ _ _ _)
  refine keeps_now.bind fun _ => keeps_getPending.bind fun _ =>
    (keeps_requireInvariant _ _).bind fun _ => (hverify _).bind fun r => ?_
  cases r <;> exact .pure _

theorem onward_pollTurn (timeoutAt : Instant) (ps : PollState) :
    Keeps (onward F ctx initial) (pollTurn ctx timeoutAt ps) := by
  have hselect : ∀ branches : List (PollBranch × Option Instant),
      Keeps (onward F ctx initial) (selectBiased branches) :=
    fun _ => h.quiet (keeps_selectBiased _)
  refine Keeps.get.bind fun _ => (hselect _).bind fun branch => ?_
  cases branch with
  | verification => exact h.onward_verificationBranch ps
  | poll => exact h.onward_pollTick ps
  | ctrlC => exact (h.quiet keeps_seeSignals).bind fun _ => .pure _
  | timeout => exact .pure _

theorem onward_runPollingLoop (fuel : ℕ) :
    Keeps (onward F ctx initial) (runPollingLoop fuel ctx) := by
  have hclock : ∀ tickTime, Keeps (onward F ctx initial)
      (modifyProgram fun p => { p with tickTime := tickTime }) :=
    fun _ => h.quiet (offMv_modifyProgram fun _ => rfl)
  exact (keeps_forDriver _ _ _).bind fun _ => (hclock _).bind fun _ => keeps_now.bind fun _ =>
    .iterate (fun _ => h.onward_pollTurn _ _) _ _

/-- The loop with its fresh engine, which is one of the run. -/
theorem keeps_pollFresh (fuel : ℕ) : Keeps F (pollFresh fuel ctx initial) := by
  intro s
  refine wp_bind.mpr ((wp_modifyProgram _).mpr ?_)
  have hrel : F.rel s { s with program := { s.program with
      engine := runEngine ctx initial
      timing := .new ctx.driver.timingBasis ctx.effectiveTiming.pollIntervalMs } } :=
    h.fresh _ _ s
  exact wp_mono (h.onward_runPollingLoop fuel _) (fun _ _ hr => F.trans hrel (hr rfl).2)
    fun _ _ hr => F.trans hrel (hr rfl).2

/-! ### Along a restore attempt -/

theorem keeps_attemptRestore (fuel : ℕ) (completion : Option SettlingInput)
    (measuredOscillationPeriodMs : Option (XNum ℚ)) (policy : ActuationAuditPolicy) :
    Keeps F (attemptRestore fuel ctx initial completion measuredOscillationPeriodMs policy) := by
  have hstart : ∀ deadline, Keeps F (modifyProgram fun p => { p with restoreDeadline := deadline }) :=
    fun _ => h.of_offMv (offMv_modifyProgram fun _ => rfl)
  have hended : ∀ attempt, Keeps F (mark (.restoreEnded attempt)) := fun _ =>
    h.of_offMv (keeps_mark trivial)
  refine (h.of_offMv (keeps_mark (m := .restoreBegan) trivial)).bind fun _ => Keeps.bind ?_
    fun attempt => (hended attempt).bind fun _ => .pure _
  refine keeps_now.bind fun start => (hstart _).bind fun _ =>
    (keeps_tryErr (h.restore _ _)).bind fun r => ?_
  cases restoreMvOutcomeOrFailed r with
  | interrupted reason => exact .pure _
  | «continue» mv => exact h.of_offMv (offMv_afterMvStep _ _ _ _)

end Accompanies

/-! ### What holds once a run has returned -/

/-- Closing what is pending establishes `J`, and nothing that does not concern the commands of the
MV takes it back. -/
structure Settles (F : Frame Sys) (J : Sys → Prop) (ctx : RunContext) (initial : InitialState) :
    Prop extends Accompanies F ctx initial where
  closes : ∀ detail s, wlp (finalizePendingForRunBestEffort detail) (fun _ s' => J s') s
  stays : ∀ s s', offMv.rel s s' → J s → J s'

/-- A program that leads on from `s₀` and does not return before `J`. -/
abbrev Concludes {α : Type} (F : Frame Sys) (J : Sys → Prop) (s₀ : Sys) (x : Io α) (s : Sys) :
    Prop :=
  wp x (fun _ s' => F.rel s₀ s' ∧ J s') (fun f s' => F.rel s₀ s' ∧ ∀ e, f = .err e → J s') s

namespace Settles

variable {F : Frame Sys} {J : Sys → Prop} (h : Settles F J ctx initial) {α β : Type} {s₀ s : Sys}

include h

/-- What comes after the end does not concern the MV. -/
theorem after {x : Io α} (hrel : F.rel s₀ s) (hJ : J s) (hx : Keeps offMv x) :
    Concludes F J s₀ x s :=
  wp_mono (hx s) (fun _ _ happ => ⟨F.trans hrel (h.aside _ _ happ), h.stays _ _ happ hJ⟩)
    fun _ _ happ => ⟨F.trans hrel (h.aside _ _ happ), fun _ _ => h.stays _ _ happ hJ⟩

/-- **The end of a run**: an attempt to restore, its status, the rows still pending, and what does
not concern the MV. -/
theorem recordedAttempt (hrel : F.rel s₀ s) (fuel : ℕ) (completion : Option SettlingInput)
    (measuredOscillationPeriodMs : Option (XNum ℚ)) (detail : String) (f : RestoreAttempt → β)
    {g : β → Io α} (hg : ∀ b, Keeps offMv (g b)) :
    Concludes F J s₀ ((do
      let attempt ← attemptRestore fuel ctx initial completion measuredOscillationPeriodMs
        .bestEffort
      recordRestoreStatusBestEffort attempt
      finalizePendingForRunBestEffort detail
      return f attempt) >>= g) s := by
  have hstatus : ∀ attempt, Keeps F (recordRestoreStatusBestEffort attempt) := fun _ =>
    h.of_offMv (keeps_bestEffort (offMv_statement _ id))
  have hkeeps : Keeps F (do
      let attempt ← attemptRestore fuel ctx initial completion measuredOscillationPeriodMs
        .bestEffort
      recordRestoreStatusBestEffort attempt
      finalizePendingForRunBestEffort detail
      return f attempt) :=
    (h.keeps_attemptRestore _ _ _ _).bind fun _ => (hstatus _).bind fun _ =>
      (h.finalize _).bind fun _ => .pure _
  have hsettled : wlp (do
      let attempt ← attemptRestore fuel ctx initial completion measuredOscillationPeriodMs
        .bestEffort
      recordRestoreStatusBestEffort attempt
      finalizePendingForRunBestEffort detail
      return f attempt) (fun _ s' => J s') s :=
    wlp_last fun _ _ => wlp_last fun _ s' => wlp_seq (h.closes detail s') fun _ _ hJ => hJ
  refine wp_seq (wp_mono (wp_and (hkeeps.failures hsettled)
    (noError_recordedAttempt fuel completion measuredOscillationPeriodMs detail f s))
    (fun _ _ hr => hr.1) ?_) fun b s' hr => h.after (F.trans hrel hr.1) hr.2 (hg b)
  rintro fault s' ⟨hrel', hfault⟩
  refine ⟨F.trans hrel hrel', ?_⟩
  rintro e rfl
  exact absurd hfault nofun

omit h in
/-- What precedes the end is caught. -/
theorem caught {x : Io β} {f : Except Text β → Io α} (hrel : F.rel s₀ s) (hx : Keeps F x)
    (hf : ∀ r s', F.rel s₀ s' → Concludes F J s₀ (f r) s') :
    Concludes F J s₀ (tryErr x >>= f) s := by
  refine wp_seq (wp_mono ((keeps_tryErr hx).and_wp (NoError.tryErr x s)) (fun _ _ hr => hr.1) ?_)
    fun r s' hrel' => hf r s' (F.trans hrel hrel')
  rintro fault s' ⟨hrel', hfault⟩
  refine ⟨F.trans hrel hrel', ?_⟩
  rintro e rfl
  exact absurd hfault nofun

theorem finishCompletedRun (hrel : F.rel s₀ s) (fuel : ℕ) (writePid : Option ResponseLevel)
    (hasHandler : Bool) (ownership : Option LiveOperationGuard) (action : Action ℚ)
    (completion : SettlingInput) (period : Option (XNum ℚ)) :
    Concludes F J s₀ (Bhtune.finishCompletedRun fuel ctx initial writePid hasHandler ownership
      action completion period) s := by
  have hpersist : Keeps offMv (persistResults ctx initial action) :=
    keeps_storingResults (fun _ _ => id) _ _ _
  refine caught hrel (h.of_offMv hpersist) fun r s' hrel' => ?_
  cases r with
  | error e =>
    exact h.recordedAttempt hrel' fuel _ _ _ id fun _ => Keeps.get.bind fun _ =>
      (offMv_metrics _).bind fun _ => keeps_bail _
  | ok _ =>
    refine h.recordedAttempt hrel' fuel _ _ _ id fun attempt => Keeps.get.bind fun _ =>
      (offMv_statement _ id).bind fun _ => ?_
    cases attempt with
    | incomplete reason => exact .pure _
    | confirmed => exact (offMv_maybeWriteBack _ _ _).bind fun _ => .pure _

theorem finishAbortedRun (hrel : F.rel s₀ s) (fuel : ℕ) (reason : AbortReason)
    (metrics : Option TimingMetrics) :
    Concludes F J s₀ (Bhtune.finishAbortedRun fuel ctx initial reason metrics) s := by
  refine h.recordedAttempt hrel fuel none none _ id fun attempt => ?_
  have hend : ∀ detail, Keeps offMv (closeAbortedRun reason metrics detail attempt) := by
    intro detail
    refine (offMv_statement _ id).bind fun _ => ?_
    cases attempt <;> exact .pure _
  cases reason with
  | mvActuationUnconfirmed tag target readback tolerance elapsedMs deadlineSecs => exact hend _
  | _ => exact hend none

theorem pollAndFinish (hrel : F.rel s₀ s) (fuel : ℕ) (writePid : Option ResponseLevel)
    (hasHandler : Bool) (ownership : Option LiveOperationGuard) :
    Concludes F J s₀ (Bhtune.pollAndFinish fuel ctx initial writePid hasHandler ownership) s := by
  refine caught hrel (h.keeps_pollFresh fuel) fun pollResult s' hrel' => ?_
  -- the period is computed from what the loop returned
  refine wp_seq (wp_mono ((keeps_completedOscillationPeriodMs (F := F) _ _ _).and_wp
    (completedOscillationPeriodMs_spec pollResult)) (fun _ _ hs => hs.2) ?_) ?_
  · rintro fault s₁ ⟨hrel₁, hfault⟩
    refine ⟨F.trans hrel' hrel₁, ?_⟩
    rintro e rfl
    exact absurd hfault nofun
  · rintro period _ rfl
    refine wp_bind.mpr (wp_get.mpr ?_)
    match pollResult with
    | .error e =>
      exact h.recordedAttempt hrel' fuel none none _ (fun _ => e) fun _ =>
        (offMv_metrics _).bind fun _ => keeps_bail _
    | .ok (.aborted reason) => exact h.finishAbortedRun hrel' fuel reason _
    | .ok (.completed action state nextTickIndex) =>
      exact h.finishCompletedRun hrel' fuel writePid hasHandler ownership action _ period

/-- **The part of a run that mutates the loop**, from its fresh tracker on. -/
theorem executeMutating (fuel : ℕ) (writePid : Option ResponseLevel) (hasHandler : Bool)
    (ownership : Option LiveOperationGuard) :
    Concludes F J (s.beginRun ctx initial)
      (Bhtune.executeMutating fuel ctx initial writePid hasHandler ownership) s := by
  refine wp_bind.mpr ((wp_modifyProgram _).mpr ?_)
  show Concludes F J (s.beginRun ctx initial) _ (s.beginRun ctx initial)
  refine caught (F.refl _) (h.of_offMv offMv_transition) fun r s' hrel => ?_
  cases r with
  | ok _ => exact h.pollAndFinish hrel fuel writePid hasHandler ownership
  | error e => exact h.recordedAttempt hrel fuel none none _ (fun _ => e) fun _ => keeps_bail _

end Settles

/-! ### A whole run -/

/-- The checks that an initial state passes before the loop is mutated. -/
structure PassedChecks (ctx : RunContext) (initial : InitialState) : Prop where
  valid : validateInitialState initial = .ok ()
  step : validateRelayActuationStep ctx initial = .ok ()

/-- The initial readings were stored. -/
def Sys.Recorded (initial : InitialState) (s : Sys) : Prop :=
  ∃ id, .db (.recordInitialReadings initial) (.ok id) ∈ s.trace

theorem Sys.Recorded.after {initial : InitialState} {s s' : Sys} {p : Event → Prop}
    (h : s.Recorded initial) (hnew : Appends p s.trace s'.trace) : s'.Recorded initial := by
  obtain ⟨id, hid⟩ := h
  obtain ⟨new, htrace, -⟩ := hnew
  exact ⟨id, htrace ▸ List.mem_append_left new hid⟩

/-- No command of the MV was made or recorded; at most it was said that none is pending. -/
def Sys.Uncommanded (s : Sys) : Prop :=
  ∀ e ∈ s.trace, e.OffMv ∨ ∃ status detail result,
    e = .db (.finalizePendingForRun status detail) result

/-- The frame of a run that makes no command. -/
abbrev uncommanding : Frame Sys := within (fun e => e.OffMv ∨ ∃ status detail result,
  e = .db (.finalizePendingForRun status detail) result) fun _ => ()

theorem Sys.Uncommanded.after {s s' : Sys} (h : s.Uncommanded) (hrel : uncommanding.rel s s') :
    s'.Uncommanded := by
  obtain ⟨⟨new, htrace, hnew⟩, _⟩ := hrel
  intro e he
  rw [htrace] at he
  rcases List.mem_append.mp he with he | he
  · exact h e he
  · exact hnew e he

theorem uncommanding_of_offMv {s s' : Sys} (h : offMv.rel s s') : uncommanding.rel s s' :=
  ⟨h.1.mono fun _ he => .inl he, h.2.1, rfl⟩

theorem offMv_prepare (ctx : RunContext) (ownership : Option LiveOperationGuard) :
    Keeps offMv (prepareExecution ctx ownership) :=
  keeps_preparing (fun _ => trivial) (fun _ _ => id) (fun _ _ => id) ctx ownership

/-- What the preparation hands on has passed the checks and is stored. -/
theorem prepareExecution_passed (ctx : RunContext) (ownership : Option LiveOperationGuard)
    (s : Sys) :
    wlp (prepareExecution ctx ownership)
      (fun initial s' => PassedChecks ctx initial ∧ s'.Recorded initial) s := by
  refine wlp_last fun initial s₁ => ?_
  refine wp_bind.mpr ((wlp_liftResult _).mpr fun _ hvalid => wp_bind.mpr ((wlp_liftResult _).mpr
    fun _ hstep => ?_))
  refine wlp_seq (wp_mono (runStatement_ends (.recordInitialReadings initial)) (fun _ _ h => h)
    fun _ _ _ => trivial) ?_
  rintro _ s₂ ⟨id, htrace⟩
  have hrecorded : s₂.Recorded initial :=
    ⟨id, htrace ▸ List.mem_append_right _ (List.mem_singleton_self _)⟩
  cases ownership with
  | none => exact ⟨⟨hvalid, hstep⟩, hrecorded⟩
  | some guard =>
    have hhealthy : Keeps offMv ensureHealthy := keeps_ensureHealthy
    have hpersist := offMv_statement (.persistRestoreIntent (tuneRestoreIntent ctx initial)) nofun
    refine hhealthy.wlp_seq fun _ s₃ hrel => hpersist.wlp_seq fun _ s₄ hrel' => ?_
    exact ⟨⟨hvalid, hstep⟩, (hrecorded.after hrel.1).after hrel'.1⟩

theorem offMv_release (ownership : Option LiveOperationGuard) :
    Keeps offMv (releaseOwnership ownership) := by
  cases ownership with
  | none => exact .pure _
  | some guard => exact keeps_ensureHealthy.bind fun _ => offMv_statement _ id

section WholeRun

variable {P : InitialState → Sys → Prop} {J : Sys → Prop} {s : Sys}
  (h : ∀ initial, PassedChecks ctx initial → Settles (.invariant (P initial)) J ctx initial)
  (hbegin : ∀ initial s', PassedChecks ctx initial → Sys.Uncommanded s' → s'.Recorded initial →
    P initial (s'.beginRun ctx initial))

include h hbegin in
/-- **`execute_with_timing`**: it ends without a command, or with the invariant, and with what is
pending closed when it returns. -/
theorem executeWithTiming_settles (hs : s.Uncommanded) (fuel : ℕ) (writePid : Option ResponseLevel)
    (hasHandler : Bool) (ownership : Option LiveOperationGuard) :
    wp (executeWithTiming fuel ctx writePid hasHandler ownership)
      (fun _ s' => ∃ initial, PassedChecks ctx initial ∧ P initial s' ∧ J s')
      (fun f s' => s'.Uncommanded ∨ ∃ initial, PassedChecks ctx initial ∧ P initial s' ∧
        ∀ e, f = .err e → J s') s := by
  refine wp_seq (wp_mono ((offMv_prepare ctx ownership).failures
    (prepareExecution_passed ctx ownership s)) (fun _ _ hr => hr)
    fun _ _ hrel => .inl (hs.after (uncommanding_of_offMv hrel))) ?_
  rintro initial s₁ ⟨hrel, hpassed, hrecorded⟩
  have hP : P initial (s₁.beginRun ctx initial) :=
    hbegin initial s₁ hpassed (hs.after (uncommanding_of_offMv hrel)) hrecorded
  exact wp_mono ((h initial hpassed).executeMutating fuel writePid hasHandler ownership)
    (fun _ _ hr => ⟨initial, hpassed, hr.1 hP, hr.2⟩)
    fun _ _ hr => .inr ⟨initial, hpassed, hr.1 hP, hr.2⟩

/-- What a run does after `execute_with_timing` keeps what it came to. -/
theorem reported {α : Type} {x : Io α} (hx : Keeps uncommanding x)
    (hkeeps : ∀ initial, PassedChecks ctx initial → Keeps (.invariant (P initial)) x)
    (hs : s.Uncommanded ∨ ∃ initial, PassedChecks ctx initial ∧ P initial s) :
    wp x (fun _ s' => s'.Uncommanded ∨ ∃ initial, PassedChecks ctx initial ∧ P initial s')
      (fun _ s' => s'.Uncommanded ∨ ∃ initial, PassedChecks ctx initial ∧ P initial s') s := by
  rcases hs with hidle | ⟨initial, hpassed, hP⟩
  · exact wp_mono (hx s) (fun _ _ hrel => .inl (hidle.after hrel))
      fun _ _ hrel => .inl (hidle.after hrel)
  · exact wp_mono (hkeeps initial hpassed s) (fun _ _ hrel => .inr ⟨initial, hpassed, hrel hP⟩)
      fun _ _ hrel => .inr ⟨initial, hpassed, hrel hP⟩

include h hbegin in
/-- **`drive_report`**: at its end nothing has been commanded, or the invariant holds. -/
theorem driveReport_invariant {prepared : PreparedTune} (hctx : prepared.ctx = ctx)
    (hs : s.Uncommanded) (fuel : ℕ) (hasHandler : Bool) :
    wp (driveReport fuel prepared hasHandler)
      (fun _ s' => s'.Uncommanded ∨ ∃ initial, PassedChecks ctx initial ∧ P initial s')
      (fun _ s' => s'.Uncommanded ∨ ∃ initial, PassedChecks ctx initial ∧ P initial s') s := by
  subst hctx
  have hrelease := offMv_release prepared.ownership
  have hfailed : ∀ e, Keeps offMv (tryErr (runStatement (.failRun e))) := fun _ =>
    keeps_tryErr (offMv_statement _ id)
  -- what follows the execution closes what is pending, and apart from that makes no command
  have hend : ∀ (F : Frame Sys), (∀ s s', offMv.rel s s' → F.rel s s') →
      (∀ detail, Keeps F (finalizePendingForRunBestEffort detail)) →
      ∀ r, Keeps F (closeReport prepared r) := by
    intro F haside hfinalize r
    cases r with
    | ok outcome => exact (hrelease.weaken haside).bind fun _ => .pure _
    | error e =>
      refine (hfinalize _).bind fun _ => ((hfailed e).weaken haside).bind fun r => ?_
      cases r with
      | error persistError => exact keeps_bail _
      | ok _ =>
        refine (keeps_tryErr (hrelease.weaken haside)).bind fun r => ?_
        cases r <;> exact keeps_bail _
  have huncommanded : ∀ r, Keeps uncommanding (closeReport prepared r) :=
    hend uncommanding (fun _ _ => uncommanding_of_offMv) fun _ =>
      keeps_bestEffort (keeps_runStatement fun _ => .inr ⟨_, _, _, rfl⟩)
  have hinvariant : ∀ initial, PassedChecks prepared.ctx initial →
      ∀ r, Keeps (.invariant (P initial)) (closeReport prepared r) := fun initial hpassed =>
    hend _ (h initial hpassed).aside (h initial hpassed).finalize
  have hrun := executeWithTiming_settles h hbegin hs fuel prepared.writePid hasHandler
    prepared.ownership
  refine wp_seq (M := fun _ s' => s'.Uncommanded ∨
    ∃ initial, PassedChecks prepared.ctx initial ∧ P initial s') ?_ ?_
  · refine wp_attempt.mpr (wp_mono hrun ?_ ?_)
    · rintro outcome s' ⟨initial, hpassed, hP, _⟩
      exact .inr ⟨initial, hpassed, hP⟩
    · intro fault s' hfault
      have hkept : s'.Uncommanded ∨
          ∃ initial, PassedChecks prepared.ctx initial ∧ P initial s' :=
        hfault.imp_right fun h => h.imp fun _ h => ⟨h.1, h.2.1⟩
      cases fault.error? <;> exact hkept
  · exact fun r s' hs' => reported (huncommanded r) (fun _ hpassed => hinvariant _ hpassed r) hs'

end WholeRun

end Bhtune
