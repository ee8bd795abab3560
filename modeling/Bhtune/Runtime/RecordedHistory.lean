import Bhtune.Core.RelayRun
import Bhtune.Runtime.CrashEvidence

/-!
# The recorded history of a run

A run stores its initial readings, a sample for every tick and the results it calculates.  A fresh
engine that is fed with the stored samples goes through the states that were stored with them, does
what the engine of the run did, and completes with the action from which the results are.

* `StoredSample`, `pollSamples` — the samples of the polling loop;
* `replay` — the fresh engine on the ticks it is fed with;
* `Replayed` — what the loop keeps, as a fact about samples and evaluated ticks alone;
* `Recorded` — the same of the record of a running loop;
* `pollFresh_ends` — a loop that completes has recorded a replay.
-/

namespace Bhtune

open Effect EventLog

/-! ### What is on record -/

/-- A row of `tune_samples`. -/
structure StoredSample where
  tickIndex : ℕ
  tick : Tick ℚ
  state : MrftState ℚ
  quality : SampleQuality
  deriving DecidableEq

namespace Event

/-- The sample a statement has stored. -/
def sample? : Event → Option StoredSample
  | .db (.insertSample tickIndex tick state quality) (.ok _) =>
    some ⟨tickIndex, tick, state, quality⟩
  | _ => none

/-- The result a statement has stored. -/
def result? : Event → Option TuneResultRow
  | .db (.insertResult row) (.ok _) => some row
  | _ => none

/-- The initial readings a statement has stored. -/
def readings? : Event → Option InitialState
  | .db (.recordInitialReadings initial) (.ok _) => some initial
  | _ => none

/-- A tick that was fed to the engine of the run, and what the engine asked for. -/
def evaluation? : Event → Option (Tick ℚ × List (Action ℚ))
  | .mark (.evaluated _ tick _ actions) => some (tick, actions)
  | _ => none

end Event

/-- The samples of the polling loop: those stored before the restore begins. -/
def pollSamples (record : List Event) : List StoredSample :=
  (record.takeWhile fun e => decide (e ≠ .mark .restoreBegan)).filterMap Event.sample?

/-! ### The replay -/

/-- The end of the pre-delay. -/
def RunContext.relayStart (ctx : RunContext) : UtcTime :=
  ctx.timeAnchor.utc + seconds ctx.effectiveTiming.mrftDelaySecs

/-- The samples at or after the end of the pre-delay. -/
def RunContext.fed (ctx : RunContext) (samples : List StoredSample) : List StoredSample :=
  samples.filter fun x => decide (ctx.relayStart ≤ x.tick.time)

/-- A fresh engine on a list of ticks: after each tick the engine and what it asked for. -/
def replay (ctx : RunContext) (initial : InitialState) (ticks : List (Tick ℚ)) :
    List (MrftEngine ℚ × List (Action ℚ)) :=
  StepMachine.outcomes (MrftEngine.step ctx.arith) (runEngine ctx initial) ticks

/-- `Action::Complete`. -/
def Action.isCompletion : Action ℚ → Bool
  | .writeMv _ => false
  | .complete _ _ _ _ => true

/-- The completion the loop holds after a tick with these actions. -/
def heldCompletion (completion : Option (Action ℚ)) (actions : List (Action ℚ)) :
    Option (Action ℚ) :=
  (actions.filter Action.isCompletion).getLast?.or completion

section Steps

variable {ar : MachineInt.IntArith} {e : MrftEngine ℚ} {tick : Tick ℚ}

/-- The step of a running engine asks for a completion exactly when it completes the engine. -/
theorem completions_step (hc : e.completed = false) :
    ((e.step ar tick).2.filter Action.isCompletion = [] ∧ (e.step ar tick).1.completed = false) ∨
      ∃ a, (e.step ar tick).2.filter Action.isCompletion = [a] ∧
        (e.step ar tick).1.completed = true := by
  have hfinish : ∀ (a : MrftEngine ℚ) (writes : List (Action ℚ)), a.completed = false →
      writes.filter Action.isCompletion = [] →
      ((MrftEngine.finishStep ar a writes).2.filter Action.isCompletion = [] ∧
        (MrftEngine.finishStep ar a writes).1.completed = false) ∨
      ∃ c, (MrftEngine.finishStep ar a writes).2.filter Action.isCompletion = [c] ∧
        (MrftEngine.finishStep ar a writes).1.completed = true := by
    intro a writes ha hwrites
    unfold MrftEngine.finishStep
    by_cases hcomplete : a.isComplete ar = true
    · right
      refine ⟨a.completeAction, ?_, ?_⟩
      · simp [hcomplete, hwrites, MrftEngine.completeAction, Action.isCompletion]
      · simp [hcomplete]
    · left
      simp [hcomplete, hwrites, ha]
  by_cases hs : (e.observe tick).switchRequired tick = true
  · rw [MrftEngine.step_of_switch hc hs]
    exact hfinish _ _ hc rfl
  · rw [MrftEngine.step_of_no_switch hc (by simpa using hs)]
    exact hfinish _ _ hc rfl

end Steps

/-! ### What the loop keeps -/

/-- The samples stored and the ticks evaluated so far are those of a replay.  `floor` is a time that
no later sample precedes. -/
structure Replayed (ctx : RunContext) (initial : InitialState) (samples : List StoredSample)
    (evaluations : List (Tick ℚ × List (Action ℚ))) (tickIndex : ℕ)
    (completion : Option (Action ℚ)) (engine : MrftEngine ℚ) (floor : UtcTime) : Prop where
  order : samples.map (·.tickIndex) = List.range tickIndex
  early : ∀ x ∈ samples, x.tick.time < ctx.relayStart →
    x.state = (runEngine ctx initial).state ctx.arith
  reached : engine = StepMachine.after (MrftEngine.step ctx.arith) (runEngine ctx initial)
    ((ctx.fed samples).map (·.tick))
  states : (replay ctx initial ((ctx.fed samples).map (·.tick))).map
    (fun r => r.1.state ctx.arith) = (ctx.fed samples).map (·.state)
  actions : evaluations = ((ctx.fed samples).map (·.tick)).zip
    ((replay ctx initial ((ctx.fed samples).map (·.tick))).map (·.2))
  completes : ((replay ctx initial ((ctx.fed samples).map (·.tick))).flatMap (·.2)).filter
    Action.isCompletion = completion.toList
  completed : engine.completed = completion.isSome
  started : ctx.fed samples ≠ [] → ctx.relayStart ≤ floor

namespace Replayed

variable {ctx : RunContext} {initial : InitialState} {samples : List StoredSample}
variable {evaluations : List (Tick ℚ × List (Action ℚ))} {tickIndex : ℕ}
variable {completion : Option (Action ℚ)} {engine : MrftEngine ℚ} {floor : UtcTime}

theorem start (ctx : RunContext) (initial : InitialState) (floor : UtcTime) :
    Replayed ctx initial [] [] 0 none (runEngine ctx initial) floor where
  order := rfl
  early := by simp
  reached := rfl
  states := rfl
  actions := rfl
  completes := rfl
  completed := rfl
  started := fun h => absurd rfl h

theorem later {floor' : UtcTime}
    (h : Replayed ctx initial samples evaluations tickIndex completion engine floor)
    (hfloor : floor ≤ floor') :
    Replayed ctx initial samples evaluations tickIndex completion engine floor' :=
  { h with started := fun hfed => (h.started hfed).trans hfloor }

/-- A completion is of a tick that was fed. -/
theorem started_of_completion
    (h : Replayed ctx initial samples evaluations tickIndex completion engine floor)
    (hsome : completion.isSome = true) : ctx.relayStart ≤ floor := by
  refine h.started fun hnone => ?_
  have hcompletes := h.completes
  rw [hnone] at hcompletes
  obtain ⟨c, rfl⟩ := Option.isSome_iff_exists.mp hsome
  exact absurd hcompletes nofun

/-- A sample of the pre-delay. -/
theorem unfed (h : Replayed ctx initial samples evaluations tickIndex completion engine floor)
    {tick : Tick ℚ} (hfloor : floor ≤ tick.time) (hearly : tick.time < ctx.relayStart)
    (quality : SampleQuality) :
    Replayed ctx initial (samples ++ [⟨tickIndex, tick, engine.state ctx.arith, quality⟩])
      evaluations (tickIndex + 1) completion engine tick.time := by
  have hnone : ctx.fed samples = [] := by
    by_contra hfed
    exact absurd hearly (not_lt.mpr ((h.started hfed).trans hfloor))
  have hfed : ctx.fed (samples ++ [⟨tickIndex, tick, engine.state ctx.arith, quality⟩]) =
      ctx.fed samples := by
    simp [RunContext.fed, hearly]
  have hengine : engine = runEngine ctx initial := by
    rw [h.reached, hnone]
    rfl
  refine ⟨?_, ?_, ?_, ?_, ?_, ?_, h.completed, ?_⟩
  · simp [h.order, List.range_succ]
  · intro x hx hlt
    rcases List.mem_append.mp hx with hx | hx
    · exact h.early x hx hlt
    · rw [List.mem_singleton.mp hx, hengine]
  · rw [hfed]
    exact h.reached
  · rw [hfed]
    exact h.states
  · rw [hfed]
    exact h.actions
  · rw [hfed]
    exact h.completes
  · rw [hfed, hnone]
    exact fun hne => absurd rfl hne

/-- A sample that is evaluated. -/
theorem evaluated (h : Replayed ctx initial samples evaluations tickIndex completion engine floor)
    {tick : Tick ℚ} (hstart : ctx.relayStart ≤ tick.time) (quality : SampleQuality) :
    Replayed ctx initial
      (samples ++ [⟨tickIndex, tick, (engine.step ctx.arith tick).1.state ctx.arith, quality⟩])
      (evaluations ++ [(tick, (engine.step ctx.arith tick).2)]) (tickIndex + 1)
      (heldCompletion completion (engine.step ctx.arith tick).2) (engine.step ctx.arith tick).1
      tick.time := by
  generalize hnew : (⟨tickIndex, tick, (engine.step ctx.arith tick).1.state ctx.arith, quality⟩ :
    StoredSample) = new
  have htick : new.tick = tick := by rw [← hnew]
  have hstate : new.state = (engine.step ctx.arith tick).1.state ctx.arith := by rw [← hnew]
  have hfed : ctx.fed (samples ++ [new]) = ctx.fed samples ++ [new] := by
    simp [RunContext.fed, htick, hstart]
  have hticks : (ctx.fed (samples ++ [new])).map (·.tick) =
      (ctx.fed samples).map (·.tick) ++ [tick] := by
    simp [hfed, htick]
  have hreplay : replay ctx initial ((ctx.fed (samples ++ [new])).map (·.tick)) =
      replay ctx initial ((ctx.fed samples).map (·.tick)) ++ [engine.step ctx.arith tick] := by
    rw [hticks, replay, StepMachine.outcomes_concat, ← h.reached]
    rfl
  have hheld : (heldCompletion completion (engine.step ctx.arith tick).2).toList =
        completion.toList ++ (engine.step ctx.arith tick).2.filter Action.isCompletion ∧
      (engine.step ctx.arith tick).1.completed =
        (heldCompletion completion (engine.step ctx.arith tick).2).isSome := by
    unfold heldCompletion
    cases hcompletion : completion with
    | some c =>
      have hdone : engine.completed = true := by rw [h.completed, hcompletion]; rfl
      simp [MrftEngine.step_of_completed hdone, hdone]
    | none =>
      have hrunning : engine.completed = false := by rw [h.completed, hcompletion]; rfl
      have hstep := @completions_step ctx.arith engine tick hrunning
      rcases hstep with ⟨hfilter, hdone⟩ | ⟨a, hfilter, hdone⟩
      · simp [hfilter, hdone]
      · simp [hfilter, hdone]
  refine ⟨?_, ?_, ?_, ?_, ?_, ?_, hheld.2, fun _ => hstart⟩
  · rw [List.map_append, h.order, List.range_succ, ← hnew]
    rfl
  · intro x hx hlt
    rcases List.mem_append.mp hx with hx | hx
    · exact h.early x hx hlt
    · rw [List.mem_singleton.mp hx, htick] at hlt
      exact absurd hlt (not_lt.mpr hstart)
  · rw [hticks, StepMachine.after_concat, ← h.reached]
  · rw [hreplay, hfed, List.map_append, List.map_append, h.states]
    simp [hstate]
  · rw [hreplay, hticks, List.map_append, List.zip_append, ← h.actions]
    · rfl
    · simp [replay]
  · rw [hreplay, List.flatMap_append, List.filter_append, h.completes, hheld.1]
    simp
end Replayed

/-! ### Events that tell nothing of the history -/

/-- An event the history is read off: what is stored for it, a tick of the engine, and the beginning
of the restore. -/
def Event.Telling : Event → Prop
  | .db op _ => op.Stores
  | .mark (.evaluated _ _ _ _) => True
  | .mark .restoreBegan => True
  | _ => False

/-- An event that stores neither initial readings nor a result and does not begin the restore. -/
structure Event.OfLoop (e : Event) : Prop where
  result : e.result? = none
  readings : e.readings? = none
  polling : e ≠ .mark .restoreBegan

section Quiet

variable {e : Event} {new : List Event}

theorem Event.Minor.not_telling (hsilent : e.Silent) (h : e.Minor) : ¬e.Telling := by
  cases e with
  | db op result => exact h.2
  | read call => exact id
  | write call => exact hsilent.elim
  | mark m => exact hsilent.elim

theorem ofLoop_of_not_telling (h : ¬e.Telling) : e.OfLoop := by
  cases e with
  | read call => exact ⟨rfl, rfl, nofun⟩
  | write call => exact ⟨rfl, rfl, nofun⟩
  | mark m =>
    refine ⟨rfl, rfl, ?_⟩
    rintro ⟨rfl⟩
    exact h trivial
  | db op result => cases op <;> first | exact absurd trivial h | exact ⟨rfl, rfl, nofun⟩

theorem sample?_of_not_telling (h : ¬e.Telling) : e.sample? = none := by
  cases e with
  | db op result => cases op <;> first | exact absurd trivial h | rfl
  | _ => rfl

theorem evaluation?_of_not_telling (h : ¬e.Telling) : e.evaluation? = none := by
  cases e with
  | mark m => cases m <;> first | exact absurd trivial h | rfl
  | _ => rfl

theorem samples_of_quiet (h : ∀ e ∈ new, ¬e.Telling) : new.filterMap Event.sample? = [] :=
  List.filterMap_eq_nil_iff.mpr fun e he => sample?_of_not_telling (h e he)

theorem evaluations_of_quiet (h : ∀ e ∈ new, ¬e.Telling) :
    new.filterMap Event.evaluation? = [] :=
  List.filterMap_eq_nil_iff.mpr fun e he => evaluation?_of_not_telling (h e he)

end Quiet

/-- The frame of what tells nothing, feeds no tick and takes no timestamp. -/
abbrev untold : Frame Sys := within (fun e => ¬e.Telling) fun p => (p.engine, p.tickTime)

theorem untold_audits (e : Event) (hsilent : e.Silent) (h : e.Audits) : ¬e.Telling :=
  h.minor.not_telling hsilent

/-! ### The time of a run -/

/-- A clock that does not go back. -/
def TickTimeSource.Forward : TickTimeSource → Prop
  | .liveMonotonic _ => True
  | .fixedStep _ step => 0 ≤ step

/-- A time that no later timestamp precedes. -/
def Sys.timeFloor (s : Sys) : UtcTime :=
  match s.program.tickTime with
  | .liveMonotonic anchor => anchor.utc + ((s.clock - anchor.monotonic : ℕ) : ℤ)
  | .fixedStep current _ => current

section Time

variable {s s' : Sys}

theorem timeFloor_mono (htick : s'.program.tickTime = s.program.tickTime)
    (hclock : s.clock ≤ s'.clock) : s.timeFloor ≤ s'.timeFloor := by
  unfold Sys.timeFloor
  rw [htick]
  cases s.program.tickTime with
  | liveMonotonic anchor =>
    have hle : s.clock - anchor.monotonic ≤ s'.clock - anchor.monotonic :=
      Nat.sub_le_sub_right hclock _
    exact Int.add_le_add_left (Int.ofNat_le.mpr hle) _
  | fixedStep current step => exact le_refl current

theorem durationFromStd_spec (elapsed : ℕ) (message : Text) :
    wlp (durationFromStd elapsed message) (fun duration s' => duration = elapsed ∧ s' = s) s := by
  unfold durationFromStd
  split
  · exact ⟨rfl, rfl⟩
  · trivial

/-- **A timestamp** is not before any earlier one, and none after it is before it. -/
theorem nextTimestamp_spec (hforward : s.program.tickTime.Forward) :
    wlp nextTimestamp (fun time s' => s'.trace = s.trace ∧
      s'.program.engine = s.program.engine ∧ s'.program.tickTime.Forward ∧
      s.timeFloor ≤ time ∧ time ≤ s'.timeFloor) s := by
  refine wp_bind.mpr (wp_get.mpr ?_)
  unfold Sys.timeFloor
  cases htick : s.program.tickTime with
  | liveMonotonic anchor =>
    refine wp_bind.mpr (wp_now.mpr ?_)
    split
    · trivial
    · refine wlp_seq (durationFromStd_spec _ _) ?_
      rintro _ _ ⟨rfl, rfl⟩
      refine ⟨rfl, rfl, hforward, le_refl _, ?_⟩
      rw [htick]
  | fixedStep current step =>
    rw [htick] at hforward
    exact ⟨rfl, rfl, hforward, le_add_of_nonneg_right hforward, le_refl _⟩

end Time

/-! ### The polling loop -/

/-- The loop has stored a replay since `base`, up to the time `floor`. -/
structure Recorded (ctx : RunContext) (initial : InitialState) (base : List Event) (tickIndex : ℕ)
    (completion : Option (Action ℚ)) (floor : UtcTime) (s : Sys) : Prop where
  record : ∃ record, s.trace = base ++ record ∧ (∀ e ∈ record, e.OfLoop) ∧
    Replayed ctx initial (record.filterMap Event.sample?) (record.filterMap Event.evaluation?)
      tickIndex completion s.program.engine floor
  forward : s.program.tickTime.Forward
  reached : floor ≤ s.timeFloor

section Loop

variable {ctx : RunContext} {initial : InitialState} {base : List Event} {tickIndex : ℕ}
variable {completion : Option (Action ℚ)} {floor : UtcTime} {s s' : Sys}

theorem Recorded.quiet (h : Recorded ctx initial base tickIndex completion floor s)
    (hrel : untold.rel s s') : Recorded ctx initial base tickIndex completion floor s' := by
  obtain ⟨⟨new, hnew, hquiet⟩, hpasses, hpart⟩ := hrel
  obtain ⟨hengine, htick⟩ := Prod.mk.inj hpart
  obtain ⟨record, htrace, hloop, hreplayed⟩ := h.record
  refine ⟨⟨record ++ new, ?_, ?_, ?_⟩, ?_, ?_⟩
  · rw [hnew, htrace, List.append_assoc]
  · intro e he
    rcases List.mem_append.mp he with he | he
    · exact hloop e he
    · exact ofLoop_of_not_telling (hquiet e he)
  · rw [List.filterMap_append, List.filterMap_append, samples_of_quiet hquiet,
      evaluations_of_quiet hquiet, List.append_nil, List.append_nil, hengine]
    exact hreplayed
  · rw [htick]
    exact h.forward
  · exact h.reached.trans (timeFloor_mono htick hpasses.clock)

/-- A sample that was stored. -/
def Stored (tickIndex : ℕ) (tick : Tick ℚ) (state : MrftState ℚ) (quality : SampleQuality)
    (s s' : Sys) : Prop :=
  (∃ id, s'.trace = s.trace ++ [.db (.insertSample tickIndex tick state quality) (.ok id)]) ∧
    s.Passes s' ∧ s'.program = s.program

theorem insertTuneSample_spec (tickIndex : ℕ) (tick : Tick ℚ) (state : MrftState ℚ)
    (quality : SampleQuality) :
    wlp (insertTuneSample tickIndex tick state quality)
      (fun _ s' => Stored tickIndex tick state quality s s') s := by
  have hkeeps : Keeps (within (fun _ => True) id) (insertTuneSample tickIndex tick state quality) :=
    keeps_runStatement fun _ => trivial
  have hends : wlp (insertTuneSample tickIndex tick state quality)
      (fun _ s' => ∃ id, s'.trace = s.trace ++
        [.db (.insertSample tickIndex tick state quality) (.ok id)]) s :=
    wp_mono (runStatement_ends _) (fun _ _ h => h) fun _ _ _ => trivial
  refine wlp_mono (hkeeps.and_wlp hends) ?_
  intro _ s' h
  obtain ⟨⟨_, hpasses, hprogram⟩, htrace⟩ := h
  exact ⟨htrace, hpasses, hprogram⟩

/-- A sample of the pre-delay is stored. -/
theorem Recorded.unfed {tick : Tick ℚ} {quality : SampleQuality}
    (h : Recorded ctx initial base tickIndex completion tick.time s)
    (hearly : tick.time < ctx.relayStart)
    (hstored : Stored tickIndex tick (s.program.engine.state ctx.arith) quality s s') :
    Recorded ctx initial base (tickIndex + 1) completion tick.time s' := by
  obtain ⟨⟨id, hnew⟩, hpasses, hprogram⟩ := hstored
  obtain ⟨record, htrace, hloop, hreplayed⟩ := h.record
  refine ⟨⟨record ++ [.db (.insertSample tickIndex tick (s.program.engine.state ctx.arith) quality)
    (.ok id)], ?_, ?_, ?_⟩, ?_, ?_⟩
  · rw [hnew, htrace, List.append_assoc]
  · intro e he
    rcases List.mem_append.mp he with he | he
    · exact hloop e he
    · rw [List.mem_singleton.mp he]
      exact ⟨rfl, rfl, nofun⟩
  · rw [List.filterMap_append, List.filterMap_append, hprogram]
    show Replayed ctx initial (_ ++ [_]) (_ ++ []) _ _ _ _
    rw [List.append_nil]
    exact hreplayed.unfed (le_refl _) hearly quality
  · rw [hprogram]
    exact h.forward
  · exact h.reached.trans (timeFloor_mono (by rw [hprogram]) hpasses.clock)

/-- A tick has been evaluated, what it asks for has been done, and its sample is stored. -/
theorem Recorded.evaluated {tick : Tick ℚ} {quality : SampleQuality} {s₁ s₂ : Sys}
    {pending : Option PendingMvActuation}
    (h : Recorded ctx initial base tickIndex completion tick.time s)
    (hstart : ctx.relayStart ≤ tick.time)
    (heval : s₁.trace = s.trace ++ [.mark (.evaluated s.program.engine tick pending
      (s.program.engine.step ctx.arith tick).2)])
    (hprogram : s₁.program = { s.program with
      engine := (s.program.engine.step ctx.arith tick).1 })
    (hclock : s.clock ≤ s₁.clock) (hrel : untold.rel s₁ s₂)
    (hstored : Stored tickIndex tick (s₂.program.engine.state ctx.arith) quality s₂ s') :
    Recorded ctx initial base (tickIndex + 1)
      (heldCompletion completion (s.program.engine.step ctx.arith tick).2) tick.time s' := by
  obtain ⟨⟨new, hnew, hquiet⟩, hpasses, hpart⟩ := hrel
  obtain ⟨hengine, htick⟩ := Prod.mk.inj hpart
  have hengine₂ : s₂.program.engine = (s.program.engine.step ctx.arith tick).1 := by
    rw [hengine, hprogram]
  have htick₂ : s₂.program.tickTime = s.program.tickTime := by rw [htick, hprogram]
  obtain ⟨⟨id, hsample⟩, hpasses', hprogram'⟩ := hstored
  obtain ⟨record, htrace, hloop, hreplayed⟩ := h.record
  rw [hengine₂] at hsample
  let fed : Event := .mark (.evaluated s.program.engine tick pending
    (s.program.engine.step ctx.arith tick).2)
  let kept : Event := .db (.insertSample tickIndex tick
    ((s.program.engine.step ctx.arith tick).1.state ctx.arith) quality) (.ok id)
  have hsamples : (record ++ (fed :: new ++ [kept])).filterMap Event.sample? =
      record.filterMap Event.sample? ++
        [⟨tickIndex, tick, (s.program.engine.step ctx.arith tick).1.state ctx.arith, quality⟩] := by
    rw [List.filterMap_append, List.filterMap_append, List.filterMap_cons_none rfl,
      samples_of_quiet hquiet]
    rfl
  have hevaluations : (record ++ (fed :: new ++ [kept])).filterMap Event.evaluation? =
      record.filterMap Event.evaluation? ++ [(tick, (s.program.engine.step ctx.arith tick).2)] := by
    have hfed : fed.evaluation? = some (tick, (s.program.engine.step ctx.arith tick).2) := rfl
    rw [List.filterMap_append, List.filterMap_append, List.filterMap_cons_some hfed,
      evaluations_of_quiet hquiet]
    rfl
  refine ⟨⟨record ++ (fed :: new ++ [kept]), ?_, ?_, ?_⟩, ?_, ?_⟩
  · simp only [hsample, hnew, heval, htrace, List.append_assoc, List.cons_append, List.nil_append,
      fed, kept]
  · intro e he
    rcases List.mem_append.mp he with he | he
    · exact hloop e he
    · rcases List.mem_append.mp he with he | he
      · rcases List.mem_cons.mp he with heq | he
        · rw [heq]
          exact ⟨rfl, rfl, by simp [fed]⟩
        · exact ofLoop_of_not_telling (hquiet e he)
      · rw [List.mem_singleton.mp he]
        exact ⟨rfl, rfl, nofun⟩
  · rw [hprogram', hengine₂, hsamples, hevaluations]
    exact hreplayed.evaluated hstart quality
  · rw [hprogram', htick₂]
    exact h.forward
  · refine (h.reached.trans (timeFloor_mono htick₂ (hclock.trans hpasses.clock))).trans
      (timeFloor_mono (by rw [hprogram']) hpasses'.clock)

/-- What a turn of the loop comes to. -/
def LoopEnds (ctx : RunContext) (initial : InitialState) (base : List Event) :
    PollState ⊕ PollOutcome → Sys → Prop
  | .inl ps, s' => ∃ floor, Recorded ctx initial base ps.tickIndex ps.completion floor s'
  | .inr (.completed action _ _), s' =>
    ∃ tickIndex floor, Recorded ctx initial base tickIndex (some action) floor s'
  | .inr (.aborted _), _ => True

theorem abortWithSample_ends (tickIndex : ℕ) (tick : Tick ℚ) (state : MrftState ℚ)
    (quality : SampleQuality) (reason : AbortReason) :
    wlp (abortWithSample tickIndex tick state quality reason) (LoopEnds ctx initial base) s :=
  wlp_last fun _ _ => trivial

/-- A tick whose actions are performed has been committed. -/
theorem evaluateTick_commits (tick : Tick ℚ) (providedMvEvidence : Bool) :
    wlp (evaluateTick ctx tick providedMvEvidence)
      (fun r s' => ∀ actions, r = .ok actions →
        actions = (s.program.engine.step ctx.arith tick).2 ∧ s.clock ≤ s'.clock ∧
        s'.program = { s.program with engine := (s.program.engine.step ctx.arith tick).1 } ∧
        ∃ pending, s'.trace = s.trace ++ [.mark (.evaluated s.program.engine tick pending
          (s.program.engine.step ctx.arith tick).2)]) s := by
  refine wp_bind.mpr (wp_get.mpr (wp_bind.mpr (wp_getPending.mpr (wp_bind.mpr
    ((wp_mark _).mpr ?_)))))
  split
  · split
    · exact wlp_last fun _ _ _ => nofun
    · trivial
  · rintro _ ⟨rfl⟩
    exact ⟨rfl, le_refl _, rfl, _, rfl⟩

/-- The actions of a tick leave the loop with the last completion among them. -/
theorem performActions_completion (time : UtcTime) (observedInstant : Instant)
    (stateBeforeStep : MrftState ℚ) (postDelayEnd : Option UtcTime) (actions : List (Action ℚ)) :
    wlp (performActions ctx time observedInstant stateBeforeStep completion postDelayEnd actions)
      (fun r _ => ∀ c d, r = .performed c d → c = heldCompletion completion actions) s := by
  induction actions generalizing s completion postDelayEnd with
  | nil =>
    rintro c d ⟨rfl⟩
    rfl
  | cons action rest ih =>
    cases action with
    | writeMv v =>
      refine wlp_last fun operation s' => ?_
      cases operation with
      | completed => exact ih _
      | cancelled => exact nofun
      | timedOut => exact nofun
    | complete peaks troughs switchTimes mvSignInit =>
      refine wlp_mono (ih _) ?_
      intro r _ hr c d hc
      rw [hr c d hc]
      unfold heldCompletion
      rw [List.filter_cons_of_pos rfl, List.getLast?_cons]
      cases (rest.filter Action.isCompletion).getLast? with
      | none => rfl
      | some a => rfl

theorem untold_actions (time : UtcTime) (observedInstant : Instant)
    (stateBeforeStep : MrftState ℚ) (postDelayEnd : Option UtcTime) (actions : List (Action ℚ)) :
    Keeps untold (performActions ctx time observedInstant stateBeforeStep completion postDelayEnd
      actions) :=
  keeps_actions (fun _ _ _ _ _ _ => id) (fun _ => id) (fun _ _ => id) (fun _ _ => rfl)
    (fun _ _ => rfl) _ _ _ _ _ _

/-- **An evaluated tick.** -/
theorem evaluatedTick_ends {ps : PollState} {tick : Tick ℚ}
    (h : Recorded ctx initial base ps.tickIndex ps.completion tick.time s)
    (hstart : ctx.relayStart ≤ tick.time) (observedInstant : Instant) (quality : SampleQuality)
    (providedMvEvidence : Bool) :
    wlp (evaluatedTick ctx ps tick observedInstant quality providedMvEvidence)
      (LoopEnds ctx initial base) s := by
  refine wp_bind.mpr ?_
  show wlp (evaluateTick ctx tick providedMvEvidence >>= _) _ s
  refine wlp_seq (evaluateTick_commits tick providedMvEvidence) ?_
  intro r s₁ hr
  cases r with
  | error reason => exact abortWithSample_ends _ _ _ _ _
  | ok actions =>
    obtain ⟨hactions, hclock, hprogram, pending, heval⟩ := hr actions rfl
    refine wlp_seq ((untold_actions _ _ _ _ _).and_wlp
      (performActions_completion _ _ _ _ _)) ?_
    intro performed s₂ ⟨hrel, hcompletion⟩
    cases performed with
    | aborted reason state => exact abortWithSample_ends _ _ _ _ _
    | performed completion' postDelayEnd' =>
      refine wp_bind.mpr ?_
      show wlp (insertTuneSample _ _ _ _ >>= _) _ s₂
      refine wlp_seq (insertTuneSample_spec _ _ _ _) ?_
      intro _ s₃ hstored
      have hrecorded := h.evaluated hstart heval hprogram hclock hrel hstored
      rw [← hactions, ← hcompletion _ _ rfl] at hrecorded
      dsimp only
      split
      · refine wp_bind.mpr ((wlp_requireInvariant _ _).mpr ?_)
        rintro action rfl
        exact ⟨_, _, hrecorded⟩
      · exact ⟨_, hrecorded⟩

/-- **A sampled tick.**  What is not evaluated is of the pre-delay. -/
theorem sampledTick_ends {ps : PollState}
    (h : Recorded ctx initial base ps.tickIndex ps.completion floor s) (pv : ℚ)
    (quality : Quality) (evidence : Bool) (batchedAbort : Option AbortReason) :
    wlp (sampledTick ctx ps pv quality evidence batchedAbort) (LoopEnds ctx initial base) s := by
  refine wp_bind.mpr (wp_now.mpr (wlp_seq (nextTimestamp_spec h.forward) ?_))
  intro time s₁ ⟨htrace, hengine, hforward, hfloor, hreached⟩
  have h₁ : Recorded ctx initial base ps.tickIndex ps.completion time s₁ := by
    obtain ⟨record, hrecord, hloop, hreplayed⟩ := h.record
    refine ⟨⟨record, by rw [htrace, hrecord], hloop, ?_⟩, hforward, hreached⟩
    rw [hengine]
    exact hreplayed.later (h.reached.trans hfloor)
  refine (keeps_observeTimestamp (fun _ _ => rfl) time : Keeps untold _).wlp_seq ?_
  intro _ s₂ hrel
  have h₂ := h₁.quiet hrel
  dsimp only
  split
  · exact wp_bind.mpr (abortWithSample_ends _ _ _ _ _)
  · exact wp_bind.mpr (abortWithSample_ends _ _ _ _ _)
  · split
    · rename_i hearly
      refine wp_bind.mpr ?_
      show wlp (insertTuneSample ps.tickIndex ⟨time, pv⟩ _ _ >>= _) _ s₂
      refine wlp_seq (insertTuneSample_spec _ _ _ _) fun _ s₃ hstored => ?_
      let tick : Tick ℚ := ⟨time, pv⟩
      have htick : Recorded ctx initial base ps.tickIndex ps.completion tick.time s₂ := h₂
      exact ⟨time, htick.unfed hearly.2 hstored⟩
    · rename_i hfed
      have hstart : ctx.relayStart ≤ time := by
        cases hcompletion : ps.completion with
        | none =>
          rw [hcompletion] at hfed
          exact not_lt.mp fun hlt => hfed ⟨rfl, hlt⟩
        | some c =>
          obtain ⟨record, _, _, hreplayed⟩ := h₂.record
          exact hreplayed.started_of_completion (by rw [hcompletion]; rfl)
      let tick : Tick ℚ := ⟨time, pv⟩
      have htick : Recorded ctx initial base ps.tickIndex ps.completion tick.time s₂ := h₂
      exact evaluatedTick_ends htick hstart _ _ _

theorem pollTick_ends {ps : PollState}
    (h : Recorded ctx initial base ps.tickIndex ps.completion floor s) :
    wlp (pollTick ctx ps) (LoopEnds ctx initial base) s := by
  refine wp_bind.mpr (wp_now.mpr ?_)
  refine (keeps_pollRead untold_audits (fun _ _ _ => rfl) ctx : Keeps untold _).wlp_seq
    fun read s₁ hrel => ?_
  cases read with
  | aborted reason => trivial
  | sample pv quality evidence batchedAbort =>
    have hsampled : ∀ ps' : PollState, ps'.tickIndex = ps.tickIndex →
        ps'.completion = ps.completion →
        wlp (sampledTick ctx ps' pv quality evidence batchedAbort) (LoopEnds ctx initial base)
          s₁ := by
      intro ps' htick hcompletion
      have h₁ : Recorded ctx initial base ps'.tickIndex ps'.completion floor s₁ := by
        rw [htick, hcompletion]
        exact h.quiet hrel
      exact sampledTick_ends h₁ pv quality evidence batchedAbort
    exact hsampled _ rfl rfl

theorem verificationBranch_ends {ps : PollState}
    (h : Recorded ctx initial base ps.tickIndex ps.completion floor s) :
    wlp (verificationBranch ctx ps) (LoopEnds ctx initial base) s := by
  refine wp_bind.mpr (wp_now.mpr (wp_bind.mpr (wp_getPending.mpr (wp_bind.mpr
    ((wlp_requireInvariant _ _).mpr ?_)))))
  intro trigger _
  refine (keeps_verifyPendingMvActuation untold_audits (fun _ _ _ => rfl) _ _ _ _ _ :
    Keeps untold _).wlp_seq fun r s₁ hrel => ?_
  cases r with
  | some reason => trivial
  | none => exact ⟨floor, h.quiet hrel⟩

/-- **One turn of the loop.** -/
theorem pollTurn_ends {ps : PollState}
    (h : Recorded ctx initial base ps.tickIndex ps.completion floor s) (timeoutAt : Instant) :
    wlp (pollTurn ctx timeoutAt ps) (LoopEnds ctx initial base) s := by
  refine wp_bind.mpr (wp_get.mpr ((keeps_selectBiased _ : Keeps untold _).wlp_seq
    fun branch s₁ hrel => ?_))
  have h₁ := h.quiet hrel
  cases branch with
  | verification => exact verificationBranch_ends h₁
  | poll => exact pollTick_ends h₁
  | ctrlC => trivial
  | timeout => trivial

theorem forDriver_forward (driver : DriverKind) (anchor : RunTimeAnchor) (pollIntervalMs : ℕ) :
    wlp (TickTimeSource.forDriver driver anchor pollIntervalMs)
      (fun tickTime s' => tickTime.Forward ∧ s' = s) s := by
  cases driver with
  | opcda => exact ⟨trivial, rfl⟩
  | simulator =>
    refine wlp_seq (durationFromStd_spec _ _) ?_
    rintro _ _ ⟨rfl, rfl⟩
    exact ⟨Int.natCast_nonneg _, rfl⟩

/-- **The whole loop.**  Where it completes, it has stored a replay with that completion. -/
theorem pollFresh_ends (fuel : ℕ) :
    wlp (pollFresh fuel ctx initial)
      (fun outcome s' => ∀ action state next, outcome = .completed action state next →
        ∃ tickIndex floor, Recorded ctx initial s.trace tickIndex (some action) floor s') s := by
  refine wp_bind.mpr ((wp_modifyProgram _).mpr (wlp_seq (forDriver_forward _ _ _) ?_))
  rintro tickTime _ ⟨hforward, rfl⟩
  refine wp_bind.mpr ((wp_modifyProgram _).mpr (wp_bind.mpr (wp_now.mpr ?_)))
  refine wlp_iterate (fun ps s' => ∃ floor,
    Recorded ctx initial s.trace ps.tickIndex ps.completion floor s') ?_ _ _ ?_
  · intro ps s' h
    obtain ⟨floor, h⟩ := h
    refine wlp_mono (pollTurn_ends h _) ?_
    intro r s'' hr
    cases r with
    | inl ps' => exact hr
    | inr outcome =>
      rintro action state next rfl
      exact hr
  · exact ⟨_, ⟨[], by simp, by simp, .start ctx initial _⟩, hforward, le_refl _⟩

end Loop

end Bhtune
