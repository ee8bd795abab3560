import Bhtune.Runtime.ActuationSequence
import Bhtune.Runtime.HistoryReplay

/-!
# The samples and the commands the driver accepted

A tick steps the engine before its write is issued.  The sample of the tick may show the new state
only when the driver has accepted the command.

* `Made` — an engine of the run that has asked for exactly the given commands;
* `Shows`, `SamplesShow` — what a sample may show, and that every sample does;
* `performActions_commands` — how the actions of a tick end;
* `Faithful` — the invariant of the polling loop;
* `samples_show_accepted` — a whole run, as far as no relay write times out;
* `sample_shows_abandoned` — the sample of a relay write that timed out.
-/

namespace Bhtune

open Effect EventLog

/-! ### Commands -/

/-- The command an action asks for. -/
def Action.command? : Action ℚ → Option ℚ
  | .writeMv v => some v
  | .complete _ _ _ _ => none

/-- The command of a relay write that the driver accepted. -/
def Event.relayCommand? : Event → Option ℚ
  | .write ⟨.relay _ _, _, .float v, _, _, .accepted⟩ => some v
  | _ => none

/-- The relay commands of a log that the driver accepted, oldest first. -/
def relayCommands (log : List Event) : List ℚ := log.filterMap Event.relayCommand?

/-- A relay write whose wait was given up. -/
def WriteCall.abandonsRelay (call : WriteCall) : Bool :=
  match call.origin, call.result with
  | .relay _ _, .abandoned _ => true
  | _, _ => false

/-- A relay write whose wait was given up when its operation timeout had passed. -/
def Event.TimesOut (ctx : RunContext) : Event → Prop
  | .write call => call.abandonsRelay = true ∧
      call.started + durationSecs ctx.effectiveTiming.opTimeoutSecs ≤ call.ended
  | _ => False

instance (ctx : RunContext) : DecidablePred (Event.TimesOut ctx)
  | .write _ => inferInstanceAs (Decidable (_ ∧ _))
  | .read _ => .isFalse id
  | .db _ _ => .isFalse id
  | .mark _ => .isFalse id

/-- No relay write of a log has timed out. -/
def InTime (ctx : RunContext) (log : List Event) : Prop := ∀ e ∈ log, ¬e.TimesOut ctx

/-- An event that is neither a relay write nor a stored sample. -/
def Event.Unsampled (e : Event) : Prop := e.sample? = none ∧ ¬e.RelayWrite

section Commands

variable {ctx : RunContext} {e : Event} {log log' : List Event}

@[simp] theorem relayCommands_append (log log' : List Event) :
    relayCommands (log ++ log') = relayCommands log ++ relayCommands log' := by
  simp [relayCommands]

theorem relayCommand?_of_not_relayWrite (h : ¬e.RelayWrite) : e.relayCommand? = none := by
  unfold Event.relayCommand?
  split
  · exact absurd ⟨_, _, rfl⟩ h
  · rfl

theorem relayCommands_of_appends (h : Appends (fun e => ¬e.RelayWrite) log log') :
    relayCommands log' = relayCommands log := by
  obtain ⟨new, rfl, hnew⟩ := h
  rw [relayCommands_append]
  have hnone : relayCommands new = [] :=
    List.filterMap_eq_nil_iff.mpr fun e he => relayCommand?_of_not_relayWrite (hnew e he)
  rw [hnone, List.append_nil]

theorem InTime.of_appends {p : Event → Prop} (h : InTime ctx log') (happ : Appends p log log') :
    InTime ctx log := by
  obtain ⟨new, rfl, -⟩ := happ
  exact fun e he => h e (List.mem_append_left _ he)

end Commands

/-! ### What a sample may show -/

/-- The commands an engine of the run asks for on a list of ticks. -/
def askedCommands (ctx : RunContext) (initial : InitialState) (ticks : List (Tick ℚ)) : List ℚ :=
  (replay ctx initial ticks).flatMap fun r => r.2.filterMap Action.command?

/-- An engine of the run that has asked for these commands and for no others. -/
structure Made (ctx : RunContext) (initial : InitialState) (commands : List ℚ)
    (engine : MrftEngine ℚ) : Prop where
  ticks : ∃ ticks, askedCommands ctx initial ticks = commands ∧
    engine = StepMachine.after (MrftEngine.step ctx.arith) (runEngine ctx initial) ticks
  mvValueCurrent : engine.mvValueCurrent = commands.getLast?.getD initial.mvIni
  counter : engine.counterAllSwitches = ctx.arith.u32 commands.length

/-- The state of such an engine. -/
def Shows (ctx : RunContext) (initial : InitialState) (commands : List ℚ)
    (state : MrftState ℚ) : Prop :=
  ∃ engine, Made ctx initial commands engine ∧ state = engine.state ctx.arith

/-- Every sample that is stored while no relay write has timed out shows the commands accepted by
then. -/
def SamplesShow (ctx : RunContext) (initial : InitialState) (log : List Event) : Prop :=
  Guarded (fun e => e.sample?.isSome = true) (fun e pre => InTime ctx pre →
    ∀ row, e.sample? = some row → Shows ctx initial (relayCommands pre) row.state) log

section Engine

variable {ctx : RunContext} {initial : InitialState} {commands : List ℚ} {engine : MrftEngine ℚ}

theorem made_start (ctx : RunContext) (initial : InitialState) :
    Made ctx initial [] (runEngine ctx initial) where
  ticks := ⟨[], rfl, rfl⟩
  mvValueCurrent := rfl
  counter := by
    show 0 = ctx.arith.u32 0
    cases ctx.arith <;> rfl

/-- The counter of the switches, counted in words. -/
theorem u32_succ (ar : MachineInt.IntArith) (n : ℕ) : ar.u32 (ar.u32 n + 1) = ar.u32 (n + 1) := by
  cases ar with
  | exact => rfl
  | machine => exact Nat.mod_add_mod n (2 ^ 32) 1

/-- What a step asks for is what it has done to the MV and to the counter. -/
theorem step_commands (ar : MachineInt.IntArith) (e : MrftEngine ℚ) (tick : Tick ℚ) :
    ((e.step ar tick).2.filterMap Action.command? = [] ∧
        (e.step ar tick).1.mvValueCurrent = e.mvValueCurrent ∧
        (e.step ar tick).1.counterAllSwitches = e.counterAllSwitches) ∨
      ((e.step ar tick).2.filterMap Action.command? = [(e.step ar tick).1.mvValueCurrent] ∧
        (e.step ar tick).1.counterAllSwitches = ar.u32 (e.counterAllSwitches + 1)) := by
  have hfinish : ∀ (a : MrftEngine ℚ) writes,
      (MrftEngine.finishStep ar a writes).2.filterMap Action.command? =
        writes.filterMap Action.command? ∧
      (MrftEngine.finishStep ar a writes).1.mvValueCurrent = a.mvValueCurrent ∧
      (MrftEngine.finishStep ar a writes).1.counterAllSwitches = a.counterAllSwitches := by
    intro a writes
    unfold MrftEngine.finishStep
    by_cases hcomplete : a.isComplete ar = true
    · simp [hcomplete, MrftEngine.completeAction, Action.command?]
    · simp [hcomplete]
  cases hc : e.completed with
  | true => simp [MrftEngine.step_of_completed hc]
  | false =>
    cases hs : (e.observe tick).switchRequired tick with
    | false =>
      obtain ⟨hcommands, hmv, hcounter⟩ := hfinish (e.observe tick) []
      rw [MrftEngine.step_of_no_switch hc hs, hcommands, hmv, hcounter]
      exact .inl ⟨rfl, rfl, rfl⟩
    | true =>
      obtain ⟨hcommands, hmv, hcounter⟩ := hfinish ((e.observe tick).performSwitch ar tick).1
        [.writeMv ((e.observe tick).performSwitch ar tick).2]
      rw [MrftEngine.step_of_switch hc hs, hcommands, hmv, hcounter]
      exact .inr ⟨rfl, rfl⟩

/-- **A step** makes the commands it asks for. -/
theorem Made.step (h : Made ctx initial commands engine) (tick : Tick ℚ) :
    Made ctx initial (commands ++ (engine.step ctx.arith tick).2.filterMap Action.command?)
      (engine.step ctx.arith tick).1 := by
  obtain ⟨ticks, hasked, hengine⟩ := h.ticks
  have hticks : askedCommands ctx initial (ticks ++ [tick]) =
      commands ++ (engine.step ctx.arith tick).2.filterMap Action.command? := by
    unfold askedCommands replay
    rw [StepMachine.outcomes_concat, List.flatMap_append, ← hengine]
    show askedCommands ctx initial ticks ++ _ = _
    rw [hasked]
    simp
  have hafter : (engine.step ctx.arith tick).1 =
      StepMachine.after (MrftEngine.step ctx.arith) (runEngine ctx initial) (ticks ++ [tick]) := by
    rw [StepMachine.after_concat, ← hengine]
  refine ⟨⟨_, hticks, hafter⟩, ?_, ?_⟩
  · rcases step_commands ctx.arith engine tick with ⟨hnone, hmv, -⟩ | ⟨hone, -⟩
    · rw [hnone, List.append_nil, hmv, h.mvValueCurrent]
    · rw [hone]
      simp
  · rcases step_commands ctx.arith engine tick with ⟨hnone, -, hcounter⟩ | ⟨hone, hcounter⟩
    · rw [hnone, List.append_nil, hcounter, h.counter]
    · rw [hone, hcounter, h.counter, u32_succ]
      simp

end Engine

/-! ### The samples of a log -/

section Samples

variable {ctx : RunContext} {initial : InitialState} {log log' : List Event} {s s' : Sys}
variable {state : MrftState ℚ}

theorem SamplesShow.append (h : SamplesShow ctx initial log)
    (happ : Appends (fun e => e.sample? = none) log log') : SamplesShow ctx initial log' :=
  Guarded.append h (happ.mono fun e he => by simp [he])

theorem SamplesShow.concat {e : Event} (h : SamplesShow ctx initial log)
    (he : ∀ row, e.sample? = some row → InTime ctx log →
      Shows ctx initial (relayCommands log) row.state) : SamplesShow ctx initial (log ++ [e]) :=
  Guarded.concat h fun _ hin row hrow => he row hrow hin

/-- A log that shows in its samples what was accepted, with a state that shows it at its end. -/
structure Showing (ctx : RunContext) (initial : InitialState) (state : MrftState ℚ)
    (log : List Event) : Prop where
  samples : SamplesShow ctx initial log
  state : InTime ctx log → Shows ctx initial (relayCommands log) state

/-- No relay write, and no sample but of this state. -/
def Event.Repeats (state : MrftState ℚ) (e : Event) : Prop :=
  ¬e.RelayWrite ∧ ∀ row, e.sample? = some row → row.state = state

theorem Event.Unsampled.repeats {e : Event} (h : e.Unsampled) : e.Repeats state :=
  ⟨h.2, fun row hrow => by simp [h.1] at hrow⟩

theorem Showing.append (h : Showing ctx initial state log)
    (happ : Appends (Event.Repeats state) log log') : Showing ctx initial state log' := by
  refine happ.carry (fun l e hl he => ⟨hl.samples.concat fun row hrow hin => ?_, fun hin => ?_⟩) h
  · rw [he.2 row hrow]
    exact hl.state hin
  · have hsame : relayCommands (l ++ [e]) = relayCommands l :=
      relayCommands_of_appends (.concat l he.1)
    rw [hsame]
    exact hl.state (hin.of_appends (.concat l he))

/-- **A sample of a state that shows what was accepted** may be stored. -/
theorem insertTuneSample_shows (h : Showing ctx initial state s.trace) (tickIndex : ℕ)
    (tick : Tick ℚ) (quality : SampleQuality) :
    wp (insertTuneSample tickIndex tick state quality)
      (fun _ s' => Showing ctx initial state s'.trace ∧
        Appends (Event.Repeats state) s.trace s'.trace ∧ s'.program = s.program)
      (fun _ s' => Showing ctx initial state s'.trace) s := by
  have hkeeps : Keeps (within (Event.Repeats state) id)
      (insertTuneSample tickIndex tick state quality) := by
    refine keeps_runStatement fun result => ⟨id, fun row hrow => ?_⟩
    cases result with
    | error e => simp [Event.sample?] at hrow
    | ok id =>
      obtain rfl := Option.some.inj hrow
      rfl
  exact wp_mono (hkeeps s) (fun _ _ hrel => ⟨h.append hrel.1, hrel.1, hrel.2.2⟩)
    fun _ _ hrel => h.append hrel.1

end Samples

/-! ### The writes of a tick -/

section Writes

variable {ctx : RunContext} {s : Sys}

/-- A wait that timed out has lasted for the whole timeout. -/
theorem raceCall_timedOut (limit : Option Instant) (opTimeoutSecs : ℕ) :
    wlp (raceCall limit opTimeoutSecs) (fun r s' => s'.trace = s.trace ∧
      (r.1 = .timedOut → s.clock + durationSecs opTimeoutSecs ≤ s'.clock)) s := by
  refine wp_bind.mpr (wp_get.mpr (wlp_seq (wp_mono (wake_spec _) (fun _ _ h => h)
    fun _ _ _ => trivial) fun a s' hs' => wp_bind.mpr (wp_now.mpr ?_)))
  split
  · exact ⟨hs'.trace, nofun⟩
  · rename_i ended hchosen
    refine ⟨hs'.trace, ?_⟩
    rintro rfl
    obtain ⟨ready, hmem, hle⟩ := ready_of_chooseReady hchosen
    have hready : ready = s.clock + durationSecs opTimeoutSecs := by simpa using hmem
    rwa [hready] at hle
  · exact ⟨hs'.trace, nofun⟩

theorem boundedWrite_timedOut (tolerance : Option ℚ) (pending : Option PendingMvActuation)
    (tag : String) (value : TagWrite) (opTimeoutSecs : ℕ) :
    wlp (boundedWrite none opTimeoutSecs (.relay tolerance pending) tag value) (fun r s' =>
      r = some .timedOut → ∃ call : WriteCall, s'.trace = s.trace ++ [.write call] ∧
        call.abandonsRelay = true ∧
        call.started + durationSecs opTimeoutSecs ≤ call.ended) s := by
  refine wp_bind.mpr (wp_now.mpr (wlp_seq (raceCall_timedOut _ _) ?_))
  rintro ⟨ended, a⟩ s' ⟨htrace, htimeout⟩
  refine wp_bind.mpr (wp_now.mpr ?_)
  cases ended with
  | replied => exact wlp_last fun _ _ => wlp_last fun _ _ => nofun
  | cancelled => exact nofun
  | elapsed => exact nofun
  | timedOut =>
    intro _
    refine ⟨⟨.relay tolerance pending, tag, value, s.clock, s'.clock, .abandoned a.tookEffect⟩, ?_,
      rfl, htimeout rfl⟩
    show s'.trace ++ _ = _
    rw [htrace]

/-- What a relay write has come to. -/
def Commanded (ctx : RunContext) (v : ℚ) (log log' : List Event) : TickOperation Unit → Prop
  | .completed _ => relayCommands log' = relayCommands log ++ [v]
  | .cancelled => relayCommands log' = relayCommands log
  | .timedOut => ¬InTime ctx log'

/-- **A relay write** adds its command where the driver accepts it. -/
theorem performWriteMv_commands (v : ℚ) (time : UtcTime) (observedInstant : Instant) :
    wlp (performWriteMv ctx v time observedInstant)
      (fun operation s' => Commanded ctx v s.trace s'.trace operation) s := by
  have htolerance : Keeps (within (fun _ => False) id) (relayTolerance v) := keeps_relayTolerance v
  refine htolerance.wlp_seq fun tolerance s₁ hrel₁ => wp_bind.mpr ((wp_modifyProgram _).mpr
    (wp_bind.mpr (wp_getPending.mpr ?_)))
  have htrace₁ : s₁.trace = s.trace := hrel₁.1.eq_of_none fun _ => id
  generalize hs₂ : ({ s₁ with program := { s₁.program with
    guard := { s₁.program.guard with mvWritten := true } } } : Sys) = s₂
  have htrace₂ : s₂.trace = s.trace := by rw [← hs₂]; exact htrace₁
  have hwrite := wp_and (boundedWrite_spec none ctx.effectiveTiming.opTimeoutSecs
    (.relay tolerance s₂.pending) ctx.tags.manipulatedVariable (.float v) (s := s₂))
    (boundedWrite_timedOut tolerance s₂.pending ctx.tags.manipulatedVariable (.float v)
      ctx.effectiveTiming.opTimeoutSecs (s := s₂))
  refine wlp_seq (M := fun operation s' => Commanded ctx v s.trace s'.trace operation) ?_ ?_
  · refine wlp_seq (wp_mono hwrite (fun _ _ hr => hr) fun _ _ _ => trivial) ?_
    rintro r s₃ ⟨⟨call, hwrote, haccepted⟩, htimedOut⟩
    cases r with
    | none => trivial
    | some operation =>
      cases operation with
      | completed u =>
        have hresult : call.result = .accepted := haccepted.mp rfl
        obtain ⟨origin, tag, value, started, ended, result⟩ := call
        obtain ⟨rfl, rfl, rfl, -, -, htrace, -⟩ := hwrote
        obtain rfl : result = .accepted := hresult
        show relayCommands s₃.trace = _
        rw [htrace, htrace₂, relayCommands_append]
        rfl
      | cancelled =>
        have hresult : call.result ≠ .accepted := fun h => nomatch haccepted.mpr h
        obtain ⟨origin, tag, value, started, ended, result⟩ := call
        obtain ⟨rfl, rfl, rfl, -, -, htrace, -⟩ := hwrote
        show relayCommands s₃.trace = _
        rw [htrace, htrace₂, relayCommands_append]
        cases result <;> first | exact absurd rfl hresult | exact List.append_nil _
      | timedOut =>
        obtain ⟨call, htrace, habandoned, hlate⟩ := htimedOut rfl
        intro hin
        refine hin (.write call) ?_ ⟨habandoned, hlate⟩
        rw [htrace]
        simp
  · intro operation s₃ hcommanded
    unfold recordWriteMv
    split
    · have hrecord : ∀ a b c d e f g, Keeps (within (fun e => ¬e.RelayWrite) fun _ => ())
          (recordRelayActuation a b c d e f g) := fun _ _ _ _ _ _ _ =>
        keeps_recordRelayActuation (fun _ => id) (fun _ _ => id) (fun _ _ => rfl) _ _ _ _ _ _ _
      refine wp_bind.mpr (wp_now.mpr ((hrecord _ _ _ _ _ _ _).wlp_seq fun _ s₄ hrel => ?_))
      show relayCommands s₄.trace = _
      rw [relayCommands_of_appends hrel.1]
      exact hcommanded
    · exact hcommanded

/-- What the actions of a tick have come to: all commands were accepted, or none was and the run
ends with the state before the tick. -/
def TickEnds (ctx : RunContext) (before : MrftState ℚ) (actions : List (Action ℚ))
    (log log' : List Event) : ActionsEnd → Prop
  | .performed _ _ => relayCommands log' = relayCommands log ++ actions.filterMap Action.command?
  | .aborted _ state => InTime ctx log' → relayCommands log' = relayCommands log ∧ state = before

/-- Actions without a write leave the log as it is. -/
theorem performActions_quiet (time : UtcTime) (observedInstant : Instant)
    (before : MrftState ℚ) (completion : Option (Action ℚ)) (postDelayEnd : Option UtcTime)
    {actions : List (Action ℚ)} (hnone : actions.any Action.isWrite = false) :
    wlp (performActions ctx time observedInstant before completion postDelayEnd actions)
      (fun r s' => s' = s ∧ actions.filterMap Action.command? = [] ∧
        ∃ c d, r = .performed c d) s := by
  induction actions generalizing completion postDelayEnd with
  | nil => exact ⟨rfl, rfl, _, _, rfl⟩
  | cons action rest ih =>
    rw [List.any_cons, Bool.or_eq_false_iff] at hnone
    cases action with
    | writeMv v => simp [Action.isWrite] at hnone
    | complete peaks troughs switchTimes mvSignInit => exact ih _ _ hnone.2

/-- **The actions of a tick.**  There is one write at most, so that an abandoned write leaves no
command of the same tick behind. -/
theorem performActions_commands (time : UtcTime) (observedInstant : Instant)
    (before : MrftState ℚ) (completion : Option (Action ℚ)) (postDelayEnd : Option UtcTime)
    {actions : List (Action ℚ)} (hone : OneWrite actions) :
    wlp (performActions ctx time observedInstant before completion postDelayEnd actions)
      (fun r s' => TickEnds ctx before actions s.trace s'.trace r) s := by
  induction actions generalizing completion postDelayEnd with
  | nil =>
    show relayCommands s.trace = relayCommands s.trace ++ []
    simp
  | cons action rest ih =>
    cases action with
    | complete peaks troughs switchTimes mvSignInit =>
      refine wlp_mono (ih _ _ hone) fun r s' hr => ?_
      cases r with
      | performed c d => exact hr
      | aborted reason state => exact hr
    | writeMv v =>
      refine wlp_seq (performWriteMv_commands v time observedInstant) fun operation s₁ hs₁ => ?_
      cases operation with
      | completed u =>
        refine wlp_mono (performActions_quiet _ _ _ _ _ hone.rest) ?_
        rintro r s₂ ⟨rfl, hnone, c, d, rfl⟩
        show relayCommands s₂.trace = relayCommands s.trace ++ (v :: rest.filterMap Action.command?)
        rw [hnone]
        exact hs₁
      | cancelled => exact fun _ => ⟨hs₁, rfl⟩
      | timedOut => exact fun hin => absurd hin hs₁

end Writes

/-! ### The polling loop -/

/-- The samples show what was accepted, and so does the engine. -/
structure Faithful (ctx : RunContext) (initial : InitialState) (s : Sys) : Prop where
  samples : SamplesShow ctx initial s.trace
  engine : InTime ctx s.trace → Made ctx initial (relayCommands s.trace) s.program.engine

/-- The frame of what stores no sample, makes no relay write and leaves the engine alone. -/
abbrev tacit : Frame Sys := within Event.Unsampled fun p => p.engine

section Loop

variable {ctx : RunContext} {initial : InitialState} {s s' : Sys}

theorem unsampled_audits (e : Event) (hsilent : e.Silent) (haudits : e.Audits) : e.Unsampled := by
  cases e with
  | read call => exact ⟨rfl, id⟩
  | db op result => cases op <;> first | exact haudits.elim | exact ⟨rfl, id⟩
  | write call => exact hsilent.elim
  | mark m => exact hsilent.elim

theorem Faithful.showing (h : Faithful ctx initial s) :
    Showing ctx initial (s.program.engine.state ctx.arith) s.trace :=
  ⟨h.samples, fun hin => ⟨_, h.engine hin, rfl⟩⟩

/-- Without a relay write the engine goes on to show what was accepted. -/
theorem Faithful.onward (h : Faithful ctx initial s) (hsamples : SamplesShow ctx initial s'.trace)
    (happ : Appends (fun e => ¬e.RelayWrite) s.trace s'.trace)
    (hengine : s'.program.engine = s.program.engine) : Faithful ctx initial s' := by
  refine ⟨hsamples, fun hin => ?_⟩
  rw [relayCommands_of_appends happ, hengine]
  exact h.engine (hin.of_appends happ)

theorem Faithful.tacit (h : Faithful ctx initial s) (hrel : tacit.rel s s') :
    Faithful ctx initial s' :=
  h.onward (h.samples.append (hrel.1.mono fun _ he => he.1)) (hrel.1.mono fun _ he => he.2)
    hrel.2.2

/-- What a turn of the loop comes to. -/
def TurnShows (ctx : RunContext) (initial : InitialState) : PollState ⊕ PollOutcome → Sys → Prop
  | .inl _, s => Faithful ctx initial s
  | .inr (.completed _ state _), s => Showing ctx initial state s.trace
  | .inr (.aborted _), s => SamplesShow ctx initial s.trace

/-- A part of a turn, however it ends. -/
abbrev Turns (ctx : RunContext) (initial : InitialState) (x : Io (PollState ⊕ PollOutcome))
    (s : Sys) : Prop :=
  wp x (TurnShows ctx initial) (fun _ s' => SamplesShow ctx initial s'.trace) s

/-- What goes on after a tacit program. -/
theorem Faithful.after {α : Type} {x : Io α} {f : α → Io (PollState ⊕ PollOutcome)}
    (h : Faithful ctx initial s) (hx : Keeps Bhtune.tacit x)
    (hf : ∀ a s', Faithful ctx initial s' → Turns ctx initial (f a) s') :
    Turns ctx initial (x >>= f) s :=
  hx.wp_seq (fun a _ hrel => hf a _ (h.tacit hrel)) fun _ _ hrel => (h.tacit hrel).samples

theorem abortWithSample_shows {state : MrftState ℚ} (h : Showing ctx initial state s.trace)
    (tickIndex : ℕ) (tick : Tick ℚ) (quality : SampleQuality) (reason : AbortReason) :
    Turns ctx initial (abortWithSample tickIndex tick state quality reason) s :=
  wp_seq (wp_mono (insertTuneSample_shows h tickIndex tick quality) (fun _ _ hr => hr.1)
    fun _ _ hr => hr.samples) fun _ _ hs' => hs'.samples

/-- A tick is rejected and leaves everything as it is, or the engine has made a step. -/
theorem evaluateTick_shows (h : Faithful ctx initial s) (tick : Tick ℚ)
    (providedMvEvidence : Bool) :
    wp (evaluateTick ctx tick providedMvEvidence) (fun r s' =>
        SamplesShow ctx initial s'.trace ∧ relayCommands s'.trace = relayCommands s.trace ∧
        (InTime ctx s'.trace → InTime ctx s.trace) ∧
        ∀ actions, r = .ok actions → OneWrite actions ∧
          actions = (s.program.engine.step ctx.arith tick).2 ∧
          s'.program.engine = (s.program.engine.step ctx.arith tick).1)
      (fun _ s' => SamplesShow ctx initial s'.trace) s := by
  have hone : OneWrite (s.program.engine.step ctx.arith tick).2 := oneWrite_step _ _ _
  have hkept : ∀ s' : Sys, Appends Event.Unsampled s.trace s'.trace →
      SamplesShow ctx initial s'.trace ∧ relayCommands s'.trace = relayCommands s.trace ∧
        (InTime ctx s'.trace → InTime ctx s.trace) := by
    intro s' happ
    exact ⟨h.samples.append (happ.mono fun _ he => he.1),
      relayCommands_of_appends (happ.mono fun _ he => he.2), fun hin => hin.of_appends happ⟩
  have hmodify : ∀ f, Keeps (within Event.Unsampled fun _ => ()) (modifyProgram f) :=
    fun _ => keeps_modifyProgram fun _ => rfl
  have hframe : Keeps (within Event.Unsampled fun _ => ()) (evaluateTick ctx tick
      providedMvEvidence) := by
    refine Keeps.get.bind fun s => keeps_getPending.bind fun pending =>
      (keeps_mark ⟨rfl, id⟩).bind fun _ => ?_
    split
    · split
      · exact (keeps_rejectReplacement unsampled_audits (fun _ _ _ => rfl) _).bind fun _ => .pure _
      · exact .throw _
    · exact (hmodify _).bind fun _ => .pure _
  refine wp_mono (hframe.failures (evaluateTick_commits tick providedMvEvidence)) ?_
    fun _ s' hrel => (hkept s' hrel.1).1
  rintro r s' ⟨hrel, hactions⟩
  obtain ⟨hsamples, hsame, hin⟩ := hkept s' hrel.1
  refine ⟨hsamples, hsame, hin, ?_⟩
  rintro actions rfl
  obtain ⟨rfl, -, hprogram, -⟩ := hactions actions rfl
  exact ⟨hone, rfl, by rw [hprogram]⟩

/-- **An evaluated tick.** -/
theorem evaluatedTick_shows (h : Faithful ctx initial s) (ps : PollState) (tick : Tick ℚ)
    (observedInstant : Instant) (quality : SampleQuality) (providedMvEvidence : Bool) :
    Turns ctx initial (evaluatedTick ctx ps tick observedInstant quality providedMvEvidence) s := by
  refine wp_bind.mpr ?_
  show Turns ctx initial (evaluateTick ctx tick providedMvEvidence >>= _) s
  refine wp_seq (evaluateTick_shows h tick providedMvEvidence) ?_
  rintro r s₁ ⟨hsamples, hsame, hin₁, hactions⟩
  have hbefore : InTime ctx s₁.trace → Shows ctx initial (relayCommands s₁.trace)
      (s.program.engine.state ctx.arith) := fun hin => by
    rw [hsame]
    exact h.showing.state (hin₁ hin)
  cases r with
  | error reason => exact abortWithSample_shows ⟨hsamples, hbefore⟩ _ _ _ _
  | ok actions =>
    obtain ⟨hone, hasked, hengine⟩ := hactions actions rfl
    have hperform : Keeps untold (performActions ctx tick.time observedInstant
        (s.program.engine.state ctx.arith) ps.completion ps.postDelayEnd actions) :=
      untold_actions _ _ _ _ _
    have hkept : ∀ s₂ : Sys, untold.rel s₁ s₂ → SamplesShow ctx initial s₂.trace ∧
        (InTime ctx s₂.trace → InTime ctx s₁.trace) := by
      intro s₂ hrel
      exact ⟨hsamples.append (hrel.1.mono fun _ he => sample?_of_not_telling he),
        fun hin => hin.of_appends hrel.1⟩
    refine wp_seq (wp_mono (hperform.failures (performActions_commands _ _ _ _ _ hone))
      (fun _ _ hr => hr) fun _ s₂ hrel => (hkept s₂ hrel).1) ?_
    rintro performed s₂ ⟨hrel, hends⟩
    obtain ⟨hsamples₂, hin₂⟩ := hkept s₂ hrel
    cases performed with
    | aborted reason state =>
      refine abortWithSample_shows ⟨hsamples₂, fun hin => ?_⟩ _ _ _ _
      obtain ⟨hcommands, rfl⟩ := hends hin
      rw [hcommands]
      exact hbefore (hin₂ hin)
    | performed completion postDelayEnd =>
      have hstepped : s₂.program.engine = (s.program.engine.step ctx.arith tick).1 :=
        (congrArg Prod.fst hrel.2.2).trans hengine
      have hfaithful : Faithful ctx initial s₂ := by
        refine ⟨hsamples₂, fun hin => ?_⟩
        have hcommands : relayCommands s₂.trace =
            relayCommands s₁.trace ++ actions.filterMap Action.command? := hends
        rw [hcommands, hsame, hstepped, hasked]
        exact (h.engine (hin₁ (hin₂ hin))).step tick
      refine wp_bind.mpr ?_
      show Turns ctx initial (insertTuneSample _ _ _ _ >>= _) s₂
      refine wp_seq (wp_mono (insertTuneSample_shows hfaithful.showing _ _ _) (fun _ _ hr => hr)
        fun _ _ hr => hr.samples) ?_
      rintro _ s₃ ⟨hshowing, happ, hprogram⟩
      have hengine₃ : s₃.program.engine = s₂.program.engine := by rw [hprogram]
      dsimp only
      split
      · refine Keeps.wp_seq (F := tacit) (keeps_requireInvariant _ _) (fun action s₄ hrel₄ => ?_)
          fun _ s₄ hrel₄ => hshowing.samples.append (hrel₄.1.mono fun _ he => he.1)
        show Showing ctx initial (s₄.program.engine.state ctx.arith) s₄.trace
        have hengine₄ : s₄.program.engine = s₂.program.engine :=
          Eq.trans (hrel₄.2.2 : s₄.program.engine = s₃.program.engine) hengine₃
        rw [hengine₄]
        exact hshowing.append (hrel₄.1.mono fun _ he => he.repeats)
      · exact hfaithful.onward hshowing.samples (happ.mono fun _ he => he.1) hengine₃

theorem sampledTick_shows (h : Faithful ctx initial s) (ps : PollState) (pv : ℚ)
    (quality : Quality) (evidence : Bool) (batchedAbort : Option AbortReason) :
    Turns ctx initial (sampledTick ctx ps pv quality evidence batchedAbort) s := by
  refine h.after keeps_now fun observedInstant _ h₁ =>
    h₁.after (keeps_nextTimestamp fun _ _ => rfl) fun time _ h₂ =>
      h₂.after (keeps_observeTimestamp (fun _ _ => rfl) time) fun _ s₃ h₃ => ?_
  dsimp only
  split
  · exact wp_bind.mpr (abortWithSample_shows h₃.showing _ _ _ _)
  · exact wp_bind.mpr (abortWithSample_shows h₃.showing _ _ _ _)
  · split
    · refine wp_bind.mpr ?_
      show Turns ctx initial (insertTuneSample _ _ _ _ >>= _) s₃
      refine wp_seq (wp_mono (insertTuneSample_shows h₃.showing _ _ _) (fun _ _ hr => hr)
        fun _ _ hr => hr.samples) ?_
      rintro _ s₄ ⟨hshowing, happ, hprogram⟩
      exact h₃.onward hshowing.samples (happ.mono fun _ he => he.1) (by rw [hprogram])
    · exact evaluatedTick_shows h₃ _ _ _ _ _

theorem pollTick_shows (h : Faithful ctx initial s) (ps : PollState) :
    Turns ctx initial (pollTick ctx ps) s := by
  refine h.after keeps_now fun _ _ h₁ =>
    h₁.after (keeps_pollRead unsampled_audits (fun _ _ _ => rfl) ctx) fun read s₂ h₂ => ?_
  cases read with
  | aborted reason => exact h₂.samples
  | sample pv quality evidence batchedAbort => exact sampledTick_shows h₂ _ _ _ _ _

theorem verificationBranch_shows (h : Faithful ctx initial s) (ps : PollState) :
    Turns ctx initial (verificationBranch ctx ps) s := by
  refine h.after keeps_now fun _ _ h₁ => h₁.after keeps_getPending fun _ _ h₂ =>
    h₂.after (keeps_requireInvariant _ _) fun trigger _ h₃ =>
      h₃.after (keeps_verifyPendingMvActuation unsampled_audits (fun _ _ _ => rfl) _ _ _ _ _)
        fun r s₄ h₄ => ?_
  cases r with
  | some reason => exact h₄.samples
  | none => exact h₄

/-- **One turn of the loop.** -/
theorem pollTurn_shows (h : Faithful ctx initial s) (timeoutAt : Instant) (ps : PollState) :
    Turns ctx initial (pollTurn ctx timeoutAt ps) s := by
  refine h.after Keeps.get fun _ _ h₁ => h₁.after (keeps_selectBiased _) fun branch s₂ h₂ => ?_
  cases branch with
  | verification => exact verificationBranch_shows h₂ ps
  | poll => exact pollTick_shows h₂ ps
  | ctrlC => exact h₂.after keeps_seeSignals fun _ _ h₃ => h₃.samples
  | timeout => exact h₂.samples

/-- A log without a relay write or a sample. -/
theorem showing_of_unsampled {log : List Event} (h : ∀ e ∈ log, e.Unsampled) :
    SamplesShow ctx initial log ∧ relayCommands log = [] := by
  have happ : Appends Event.Unsampled [] log := ⟨log, rfl, h⟩
  exact ⟨SamplesShow.append Guarded.nil (happ.mono fun _ he => he.1),
    relayCommands_of_appends (happ.mono fun _ he => he.2)⟩

/-- **The whole loop.**  Where it completes, its last state shows what was accepted. -/
theorem pollFresh_shows (h : ∀ e ∈ s.trace, e.Unsampled) (fuel : ℕ) :
    wp (pollFresh fuel ctx initial) (fun outcome s' => SamplesShow ctx initial s'.trace ∧
        ∀ action state next, outcome = .completed action state next →
          Showing ctx initial state s'.trace)
      (fun _ s' => SamplesShow ctx initial s'.trace) s := by
  obtain ⟨hsamples, hnone⟩ : SamplesShow ctx initial s.trace ∧ relayCommands s.trace = [] :=
    showing_of_unsampled h
  have hstart : ∀ s' : Sys, s'.trace = s.trace → s'.program.engine = runEngine ctx initial →
      Faithful ctx initial s' := by
    intro s' htrace hengine
    refine ⟨htrace ▸ hsamples, fun _ => ?_⟩
    rw [htrace, hnone, hengine]
    exact made_start ctx initial
  refine wp_bind.mpr ((wp_modifyProgram _).mpr ?_)
  have hdriver : Keeps tacit (TickTimeSource.forDriver ctx.driver ctx.timeAnchor
      ctx.effectiveTiming.pollIntervalMs) := keeps_forDriver _ _ _
  have hclock : ∀ tickTime, Keeps tacit (modifyProgram fun p => { p with tickTime := tickTime }) :=
    fun _ => keeps_modifyProgram fun _ => rfl
  have hpre : ∀ s', tacit.rel _ s' → Faithful ctx initial s' := fun s' hrel =>
    (hstart { s with program := { s.program with
      engine := runEngine ctx initial
      timing := .new ctx.driver.timingBasis ctx.effectiveTiming.pollIntervalMs } } rfl rfl).tacit
        hrel
  refine hdriver.wp_seq (fun tickTime s₁ hrel₁ => (hclock _).wp_seq (fun _ s₂ hrel₂ => ?_)
    fun _ s₂ hrel₂ => (hpre s₂ (tacit.trans hrel₁ hrel₂)).samples)
    fun _ s₁ hrel₁ => (hpre s₁ hrel₁).samples
  refine wp_bind.mpr (wp_now.mpr ?_)
  refine wp_iterate (fun _ s' => Faithful ctx initial s') ?_ (fun _ _ hs => hs.samples) _ _
    (hpre s₂ (tacit.trans hrel₁ hrel₂))
  intro ps s' hs'
  refine wp_mono (pollTurn_shows hs' _ ps) ?_ fun _ _ hs => hs
  intro r s'' hr
  match r with
  | .inl ps' => exact hr
  | .inr (.aborted reason) => exact ⟨hr, nofun⟩
  | .inr (.completed action state next) =>
    refine ⟨hr.samples, ?_⟩
    rintro _ _ _ ⟨rfl⟩
    exact hr

end Loop

/-! ### After the loop -/

section Afterwards

variable {ctx : RunContext} {initial : InitialState} {p : Event → Prop}
  (hp : ∀ e : Event, e.Unsampled → p e)

theorem unsampled_write {call : WriteCall} (h : ∀ tolerance pending,
    call.origin ≠ .relay tolerance pending) : Event.Unsampled (.write call) :=
  ⟨rfl, fun ⟨tolerance, pending, horigin⟩ => h tolerance pending horigin⟩

theorem unsampled_readings {initial : InitialState} (result : Except String ℕ) :
    Event.Unsampled (.db (.recordInitialReadings initial) result) := ⟨rfl, id⟩

theorem unsampled_statement {op : DbOp} (h : ¬op.Stores) (result : Except String ℕ) :
    Event.Unsampled (.db op result) := ⟨sample?_of_not_telling h, id⟩

include hp in
theorem sampling_statement (op : DbOp) (h : ¬op.Stores) :
    Keeps (within p fun _ => ()) (runStatement op) :=
  keeps_runStatement fun _ => hp _ (unsampled_statement h _)

include hp in
/-- A restore attempt stores no sample but of the state of the completed run. -/
theorem sampling_attempt {α : Type} (fuel : ℕ) (completion : Option SettlingInput)
    (period : Option (XNum ℚ)) (detail : String) (f : RestoreAttempt → α)
    (hsample : ∀ input, completion = some input → ∀ tickIndex tick quality stored,
      p (.db (.insertSample tickIndex tick input.state quality) stored)) :
    Keeps (within p fun _ => ()) (do
      let attempt ← attemptRestore fuel ctx initial completion period .bestEffort
      recordRestoreStatusBestEffort attempt
      finalizePendingForRunBestEffort detail
      return f attempt) := by
  have hmark : ∀ m, Keeps (within p fun _ => ()) (mark m) := fun _ => keeps_mark (hp _ ⟨rfl, id⟩)
  have hstart : ∀ f, Keeps (within p fun _ => ()) (modifyProgram f) :=
    fun _ => keeps_modifyProgram fun _ => rfl
  have hlater : ∀ e : Event, e.RestoresLater → p e := by
    intro e he
    refine hp e ?_
    cases e with
    | read call => exact he.elim
    | db op result => exact he.elim
    | mark m => exact ⟨rfl, id⟩
    | write call =>
      refine unsampled_write fun tolerance pending horigin => ?_
      rcases he with h | h | h <;> rw [h] at horigin <;> cases horigin
  have hstep : Keeps (within p fun _ => ())
      (restoreMvWithVerification fuel ctx initial.mvIni .bestEffort) := by
    refine keeps_mvStep (fun e hsilent haudits => hp e (unsampled_audits e hsilent haudits))
      (fun _ _ => hp _ ⟨rfl, id⟩) (fun _ _ => rfl) (fun _ _ => rfl) (fun call hcall => ?_)
      (fun _ => hp _ ⟨rfl, id⟩) fuel _
    obtain ⟨⟨tolerance, horigin⟩, -⟩ := hcall
    exact hp _ (unsampled_write fun _ _ h => by rw [horigin] at h; cases h)
  have hattempt : Keeps (within p fun _ => ())
      (attemptRestore fuel ctx initial completion period .bestEffort) := by
    refine (hmark _).bind fun _ => Keeps.bind ?_ fun attempt => (hmark _).bind fun _ => .pure _
    refine keeps_now.bind fun start => (hstart _).bind fun _ => (keeps_tryErr hstep).bind
      fun r => ?_
    cases restoreMvOutcomeOrFailed r with
    | interrupted reason => exact .pure _
    | «continue» mv =>
      exact keeps_afterMvStep (fun e he _ => hlater e he) (fun _ => hp _ ⟨rfl, id⟩)
        (fun _ => hp _ ⟨rfl, id⟩) (fun _ => hp _ ⟨rfl, id⟩) (fun _ _ => rfl) (fun _ _ => rfl)
        _ _ _ _ hsample
  exact hattempt.bind fun _ => (keeps_bestEffort (sampling_statement hp _ id)).bind fun _ =>
    (keeps_bestEffort (sampling_statement hp _ id)).bind fun _ => .pure _

include hp in
theorem sampling_metrics (metrics : Option TimingMetrics) :
    Keeps (within p fun _ => ()) (recordTimingMetricsIfPresent metrics) := by
  cases metrics with
  | none => exact .pure _
  | some metrics => exact keeps_bestEffort (sampling_statement hp _ id)

include hp in
/-- The end of a completed run stores no sample but of its last state. -/
theorem sampling_finishCompletedRun (fuel : ℕ) (writePid : Option ResponseLevel)
    (hasHandler : Bool) (ownership : Option LiveOperationGuard) (action : Action ℚ)
    (completion : SettlingInput) (period : Option (XNum ℚ))
    (hsample : ∀ tickIndex tick quality stored,
      p (.db (.insertSample tickIndex tick completion.state quality) stored)) :
    Keeps (within p fun _ => ()) (finishCompletedRun fuel ctx initial writePid hasHandler ownership
      action completion period) := by
  have hstored : ∀ input, some completion = some input → ∀ tickIndex tick quality stored,
      p (.db (.insertSample tickIndex tick input.state quality) stored) := by
    rintro _ ⟨rfl⟩
    exact hsample
  have hresults : ∀ row result, p (.db (.insertResult row) result) := fun _ _ =>
    hp _ ⟨rfl, id⟩
  refine (keeps_tryErr (keeps_storingResults hresults ctx initial action)).bind fun r => ?_
  cases r with
  | error e =>
    exact (sampling_attempt hp fuel _ _ _ id hstored).bind fun _ => Keeps.get.bind fun _ =>
      (sampling_metrics hp _).bind fun _ => keeps_bail _
  | ok _ =>
    refine (sampling_attempt hp fuel _ _ _ id hstored).bind fun attempt => Keeps.get.bind fun _ =>
      (sampling_statement hp _ id).bind fun _ => ?_
    cases attempt with
    | incomplete reason => exact .pure _
    | confirmed =>
      have hback : Keeps (within p fun _ => ()) (maybeWriteBack ctx writePid hasHandler
          ownership) :=
        keeps_maybeWriteBack (fun _ => hp _ ⟨rfl, id⟩)
          (fun call horigin => hp _ (unsampled_write fun _ _ h => by rw [horigin] at h; cases h))
          (fun _ _ h => hp _ (unsampled_statement h.ordinary.2 _)) _ _ _ _
      exact hback.bind fun _ => .pure _

end Afterwards

/-! ### A whole run -/

section WholeRun

variable {ctx : RunContext} {initial : InitialState} {s : Sys}

/-- The frame of what stores no sample and makes no relay write. -/
abbrev unsampling : Frame Sys := within Event.Unsampled fun _ => ()

/-- However a program ends, the samples show what was accepted. -/
abbrev EndsShowing {α : Type} (ctx : RunContext) (initial : InitialState) (x : Io α) (s : Sys) :
    Prop :=
  wp x (fun _ s' => SamplesShow ctx initial s'.trace)
    (fun _ s' => SamplesShow ctx initial s'.trace) s

theorem SamplesShow.ends {α : Type} {x : Io α} (h : SamplesShow ctx initial s.trace)
    (hx : Keeps unsampling x) : EndsShowing ctx initial x s :=
  wp_mono (hx s) (fun _ _ hrel => h.append (hrel.1.mono fun _ he => he.1))
    fun _ _ hrel => h.append (hrel.1.mono fun _ he => he.1)

theorem unsampled_attempt {α : Type} (fuel : ℕ) (detail : String) (f : RestoreAttempt → α) :
    Keeps unsampling (do
      let attempt ← attemptRestore fuel ctx initial none none .bestEffort
      recordRestoreStatusBestEffort attempt
      finalizePendingForRunBestEffort detail
      return f attempt) := sampling_attempt (fun _ => id) fuel none none detail f nofun

theorem unsampled_finishAbortedRun (fuel : ℕ) (reason : AbortReason)
    (metrics : Option TimingMetrics) :
    Keeps unsampling (finishAbortedRun fuel ctx initial reason metrics) := by
  refine (unsampled_attempt fuel _ id).bind fun attempt => ?_
  have hend : ∀ detail, Keeps unsampling (closeAbortedRun reason metrics detail attempt) := by
    intro detail
    refine (sampling_statement (fun _ => id) _ id).bind fun _ => ?_
    cases attempt <;> exact .pure _
  cases reason with
  | mvActuationUnconfirmed tag target readback tolerance elapsedMs deadlineSecs => exact hend _
  | _ => exact hend none

theorem pollAndFinish_shows (h : ∀ e ∈ s.trace, e.Unsampled) (fuel : ℕ)
    (writePid : Option ResponseLevel) (hasHandler : Bool)
    (ownership : Option LiveOperationGuard) :
    EndsShowing ctx initial (pollAndFinish fuel ctx initial writePid hasHandler ownership) s := by
  have hloop : wp (tryErr (pollFresh fuel ctx initial)) (fun r s' =>
      SamplesShow ctx initial s'.trace ∧ ∀ action state next,
        r = .ok (.completed action state next) → Showing ctx initial state s'.trace)
      (fun _ s' => SamplesShow ctx initial s'.trace) s := by
    refine wp_attempt.mpr (wp_mono (pollFresh_shows h fuel) ?_ ?_)
    · rintro outcome s' ⟨hsamples, hcompleted⟩
      exact ⟨hsamples, fun action state next heq => hcompleted _ _ _ (Except.ok.inj heq)⟩
    · intro fault s' hs'
      cases fault.error? with
      | none => exact hs'
      | some e => exact ⟨hs', nofun⟩
  refine wp_seq hloop ?_
  rintro pollResult s₁ ⟨hsamples, hcompleted⟩
  have hperiod : Keeps unsampling (completedOscillationPeriodMs ctx initial pollResult) :=
    keeps_completedOscillationPeriodMs _ _ _
  have hsame : wlp (completedOscillationPeriodMs ctx initial pollResult)
      (fun _ s' => s' = s₁) s₁ :=
    wp_mono (completedOscillationPeriodMs_spec pollResult) (fun _ _ hs => hs) fun _ _ _ => trivial
  refine wp_seq (wp_mono (hperiod.failures hsame) (fun _ _ hr => hr.2)
    fun _ _ hrel => hsamples.append (hrel.1.mono fun _ he => he.1)) ?_
  rintro period _ rfl
  refine wp_bind.mpr (wp_get.mpr ?_)
  match pollResult with
  | .error e =>
    exact hsamples.ends ((unsampled_attempt fuel _ fun _ => e).bind fun _ =>
      (sampling_metrics (fun _ => id) _).bind fun _ => keeps_bail _)
  | .ok (.aborted reason) => exact hsamples.ends (unsampled_finishAbortedRun fuel reason _)
  | .ok (.completed action state next) =>
    have hshowing := hcompleted action state next rfl
    have hfinish : Keeps (within (Event.Repeats state) fun _ => ()) (finishCompletedRun fuel ctx
        initial writePid hasHandler ownership action ⟨state, next⟩ period) := by
      refine sampling_finishCompletedRun (fun e he => he.repeats) fuel writePid hasHandler
        ownership action ⟨state, next⟩ period fun _ _ _ stored => ⟨id, fun row hrow => ?_⟩
      cases stored with
      | error e => simp [Event.sample?] at hrow
      | ok id =>
        obtain rfl := Option.some.inj hrow
        rfl
    exact wp_mono (hfinish _) (fun _ _ hrel => (hshowing.append hrel.1).samples)
      fun _ _ hrel => (hshowing.append hrel.1).samples

theorem executeMutating_shows (h : ∀ e ∈ s.trace, e.Unsampled) (fuel : ℕ)
    (writePid : Option ResponseLevel) (hasHandler : Bool)
    (ownership : Option LiveOperationGuard) :
    EndsShowing ctx initial (executeMutating fuel ctx initial writePid hasHandler ownership) s := by
  have hbegin : ∀ f, Keeps unsampling (modifyProgram f) := fun _ =>
    keeps_modifyProgram fun _ => rfl
  have hentering : Keeps unsampling (tryErr (transitionToManual ctx initial)) := by
    refine keeps_tryErr (keeps_transitionWrites ⟨rfl, id⟩ (fun call horigin _ => ?_)
      fun _ _ => rfl)
    refine unsampled_write fun _ _ hrelay => ?_
    rcases horigin with h | h <;> rw [h] at hrelay <;> cases hrelay
  have hkept : ∀ s' : Sys, unsampling.rel s s' → ∀ e ∈ s'.trace, e.Unsampled := by
    rintro s' ⟨⟨new, htrace, hnew⟩, _⟩ e he
    rw [htrace] at he
    rcases List.mem_append.mp he with he | he
    · exact h e he
    · exact hnew e he
  refine (hbegin _).wp_seq (fun _ s₁ hrel₁ => hentering.wp_seq (fun r s₂ hrel₂ => ?_)
    fun _ s₂ hrel₂ => (showing_of_unsampled (hkept s₂ (unsampling.trans hrel₁ hrel₂))).1)
    fun _ s₁ hrel₁ => (showing_of_unsampled (hkept s₁ hrel₁)).1
  have hquiet := hkept s₂ (unsampling.trans hrel₁ hrel₂)
  cases r with
  | ok _ => exact pollAndFinish_shows hquiet fuel writePid hasHandler ownership
  | error e =>
    exact (showing_of_unsampled hquiet).1.ends ((unsampled_attempt fuel _ fun _ => e).bind
      fun _ => keeps_bail _)

/-- The initial readings were recorded before any sample. -/
def Introducing (initial : InitialState) (log : List Event) : Prop :=
  Guarded (fun e => e.sample?.isSome = true)
    (fun _ pre => ∃ id, .db (.recordInitialReadings initial) (.ok id) ∈ pre) log

/-- The samples of a run show what was accepted, and follow the readings of the run. -/
def RunShows (ctx : RunContext) (log : List Event) : Prop :=
  (∀ e ∈ log, e.sample? = none) ∨
    ∃ initial, SamplesShow ctx initial log ∧ Introducing initial log

theorem introducing_of_mem {log log' : List Event} {id : ℕ}
    (hmem : .db (.recordInitialReadings initial) (.ok id) ∈ log)
    (hnone : ∀ e ∈ log, e.sample? = none) (happ : Appends (fun _ => True) log log') :
    Introducing initial log' := by
  have hstart : Introducing initial log := by
    have hquiet : Appends (fun e : Event => ¬e.sample?.isSome = true) [] log :=
      ⟨log, rfl, fun e he => by simp [hnone e he]⟩
    exact Guarded.append .nil hquiet
  refine Guarded.append_allowed hstart happ ?_
  rintro mid e ⟨new, rfl, -⟩
  exact ⟨id, List.mem_append_left _ hmem⟩

/-- What comes after the execution of a run stores no sample. -/
theorem RunShows.append {log log' : List Event} (h : RunShows ctx log)
    (happ : Appends (fun e => e.sample? = none) log log') : RunShows ctx log' := by
  rcases h with hnone | ⟨initial, hsamples, hintroducing⟩
  · refine .inl fun e he => ?_
    obtain ⟨new, rfl, hnew⟩ := happ
    rcases List.mem_append.mp he with he | he
    · exact hnone e he
    · exact hnew e he
  · refine .inr ⟨initial, hsamples.append happ, ?_⟩
    exact Guarded.append hintroducing (happ.mono fun e he => by simp [he])

theorem executeWithTiming_shows (prepared : PreparedTune) (hnew : s.trace = []) (fuel : ℕ)
    (hasHandler : Bool) :
    wp (executeWithTiming fuel prepared.ctx prepared.writePid hasHandler prepared.ownership)
      (fun _ s' => RunShows prepared.ctx s'.trace)
      (fun _ s' => RunShows prepared.ctx s'.trace) s := by
  have hprepare : Keeps unsampling (prepareExecution prepared.ctx prepared.ownership) :=
    keeps_preparing (fun _ => ⟨rfl, id⟩) (fun _ result => unsampled_readings result)
      (fun _ _ => ⟨rfl, id⟩) _ _
  have hquiet : ∀ s' : Sys, unsampling.rel s s' → ∀ e ∈ s'.trace, e.Unsampled := by
    rintro s' ⟨⟨new, htrace, hmem⟩, _⟩ e he
    rw [htrace, hnew] at he
    exact hmem e he
  refine wp_seq (wp_mono (hprepare.failures prepareExecution_introduces) (fun _ _ hr => hr)
    fun _ s' hrel => .inl fun e he => (hquiet s' hrel e he).1) ?_
  rintro initial s₁ ⟨hrel, new, htrace, hreadings, -⟩
  have hunsampled := hquiet s₁ hrel
  have hnone : ∀ e ∈ s₁.trace, e.sample? = none := fun e he => (hunsampled e he).1
  obtain ⟨id, hmem⟩ : ∃ id, Event.db (.recordInitialReadings initial) (.ok id) ∈ s₁.trace := by
    have hone : initial ∈ new.filterMap Event.readings? := by simp [hreadings]
    obtain ⟨e, he, heq⟩ := List.mem_filterMap.mp hone
    unfold Event.readings? at heq
    split at heq
    · rename_i initial' id
      obtain rfl := Option.some.inj heq
      exact ⟨id, by rw [htrace]; exact List.mem_append_right _ he⟩
    · cases heq
  have hkept : Keeps (within (fun _ => True) fun _ => ()) (executeMutating fuel prepared.ctx
      initial prepared.writePid hasHandler prepared.ownership) :=
    keeps_executeMutating (fun _ _ _ => trivial) (fun _ => trivial) (fun _ _ => trivial)
      (fun _ _ => trivial) fuel initial hasHandler
  have hshows : EndsShowing prepared.ctx initial (executeMutating fuel prepared.ctx initial
      prepared.writePid hasHandler prepared.ownership) s₁ :=
    executeMutating_shows hunsampled fuel prepared.writePid hasHandler prepared.ownership
  exact wp_mono (hkept.and_wp hshows)
    (fun _ _ hr => .inr ⟨initial, hr.2, introducing_of_mem hmem hnone hr.1.1⟩)
    fun _ _ hr => .inr ⟨initial, hr.2, introducing_of_mem hmem hnone hr.1.1⟩

theorem driveReport_shows (prepared : PreparedTune) (hnew : s.trace = []) (fuel : ℕ)
    (hasHandler : Bool) :
    wp (driveReport fuel prepared hasHandler) (fun _ s' => RunShows prepared.ctx s'.trace)
      (fun _ s' => RunShows prepared.ctx s'.trace) s := by
  have hfail : ∀ e, Keeps unsampling (failReport prepared e) := fun e =>
    keeps_failReport (fun _ _ hop _ => unsampled_statement hop _) prepared e
  have hrelease : Keeps unsampling (releaseOwnership prepared.ownership) :=
    keeps_releaseOwnership (fun _ => ⟨rfl, id⟩) _
  have hafter : ∀ (s₁ s₂ : Sys), RunShows prepared.ctx s₁.trace → unsampling.rel s₁ s₂ →
      RunShows prepared.ctx s₂.trace := fun s₁ s₂ h hrel =>
    h.append (hrel.1.mono fun _ he => he.1)
  refine wp_bind.mpr (wp_attempt.mpr (wp_mono (executeWithTiming_shows prepared hnew fuel
    hasHandler) ?_ ?_))
  · intro outcome s₁ h
    exact wp_mono ((hrelease.bind fun _ => .pure outcome) s₁) (fun _ _ => hafter _ _ h)
      fun _ _ => hafter _ _ h
  · intro fault s₁ h
    cases fault with
    | err e => exact wp_mono (hfail e s₁) (fun _ _ => hafter _ _ h) fun _ _ => hafter _ _ h
    | _ => exact h

/-- **Every sample shows the commands that the driver had accepted.**  However a run ends and
whatever the driver, the database, the clock and the interrupts do: a sample that is stored while no
relay write has been given up at its operation timeout shows the state of an engine of the run that
has asked for exactly the relay commands accepted by then; its MV is the last of them, or the
initial MV where there is none. -/
theorem samples_show_accepted (fuel : ℕ) (prepared : PreparedTune) (hasHandler : Bool)
    (hnew : s.trace = []) {pre post : List Event} {tickIndex id : ℕ} {tick : Tick ℚ}
    {state : MrftState ℚ} {quality : SampleQuality}
    (hrecord : recordOf (driveReport fuel prepared hasHandler) s =
      pre ++ .db (.insertSample tickIndex tick state quality) (.ok id) :: post)
    (hin : InTime prepared.ctx pre) :
    ∃ initial, (∃ id, .db (.recordInitialReadings initial) (.ok id) ∈ pre) ∧
      (∃ ticks, askedCommands prepared.ctx initial ticks = relayCommands pre ∧
        state = (StepMachine.after (MrftEngine.step prepared.ctx.arith)
          (runEngine prepared.ctx initial) ticks).state prepared.ctx.arith) ∧
      state.mvValueCurrent = (relayCommands pre).getLast?.getD initial.mvIni ∧
      state.counterAllSwitches = prepared.ctx.arith.u32 (relayCommands pre).length := by
  have hshows : RunShows prepared.ctx (recordOf (driveReport fuel prepared hasHandler) s) :=
    recordOf_holds (driveReport_shows prepared hnew fuel hasHandler)
  rw [hrecord] at hshows
  rcases hshows with hnone | ⟨initial, hsamples, hintroducing⟩
  · have hsample := hnone _ (List.mem_append_right _ List.mem_cons_self)
    cases hsample
  · obtain ⟨engine, hmade, hstate⟩ := hsamples pre _ post rfl rfl hin _ rfl
    have hstate : state = engine.state prepared.ctx.arith := hstate
    obtain ⟨ticks, hasked, hengine⟩ := hmade.ticks
    refine ⟨initial, hintroducing pre _ post rfl rfl, ⟨ticks, hasked, ?_⟩, ?_, ?_⟩
    · rw [hstate, hengine]
    · rw [hstate]
      exact hmade.mvValueCurrent
    · rw [hstate]
      exact hmade.counter

end WholeRun

/-- The record of the run on the loop FC1 that completes. -/
def flowRecord : List Event :=
  recordOf (driveReport 30 flowPrepared false) (flowSys (flowLoop (.ok 0)))

/-- The second sample of that run shows the second command. -/
theorem samples_show_accepted_flow :
    ∃ initial, (∃ id, .db (.recordInitialReadings initial) (.ok id) ∈ flowRecord.take 17) ∧
      (60 : ℚ) = (relayCommands (flowRecord.take 17)).getLast?.getD initial.mvIni := by
  have hrecord : flowRecord = flowRecord.take 17 ++ .db (.insertSample 1 ⟨4000000000, 45⟩
      ⟨72645345 / 33554432, 60, 1, 2, 0, 1⟩ .good) (.ok 0) :: flowRecord.drop 18 := by
    decide +kernel
  have hin : InTime flowPrepared.ctx (flowRecord.take 17) := by
    unfold InTime
    decide +kernel
  obtain ⟨initial, hreadings, -, hmv, -⟩ := samples_show_accepted 30 flowPrepared false rfl
    hrecord hin
  exact ⟨initial, hreadings, hmv⟩

/-! ### A relay write that times out -/

/-- The loop FC1 with a driver that never answers the first relay write. -/
def stuckLoop : Environment where
  answers := fun n => { (flowLoop (.ok 0)).answers n with latency := if n = 6 then none else some 0 }
  signals := []
  signals_sorted := Environment.noSignals_sorted

/-- The record of a run on it. -/
def stuckRecord : List Event :=
  recordOf (driveReport 30 flowPrepared false) (flowSys stuckLoop)

/-- No command was accepted before the sample is stored, and it shows the MV and the counter of
the command that was given up, not the initial MV. -/
theorem sample_shows_abandoned :
    ∃ pre tick state quality post,
      stuckRecord = pre ++ .db (.insertSample 0 tick state quality) (.ok 0) :: post ∧
      .db (.recordInitialReadings manualInitial) (.ok 0) ∈ pre ∧ relayCommands pre = [] ∧
      manualInitial.mvIni = 50 ∧ state.mvValueCurrent = 40 ∧ state.counterAllSwitches = 1 :=
  ⟨stuckRecord.take 7, ⟨0, 55⟩, ⟨72645345 / 33554432, 40, -1, 1, 0, 1⟩, .good,
    stuckRecord.drop 8, by decide +kernel⟩

end Bhtune
