import Bhtune.Core.Mrft

/-!
# Runs of the relay engine

What one step of a running test can do, and what therefore holds at every tick of every run.

* `runningStep` — a tick leaves the MV alone, makes a relay step, or makes the last switch;
* `RelayInv` — the counter, the completion flag and the MV that is being held;
* `sign_alternates` — a switch is only ever made to the other relay side;
* `RecordInv` — how many switch times, peaks and troughs are on record;
* `CompletesAt`, `WritesAt` — what a run reports, tick by tick.

The counters are assumed to fit (`CountersFit`); nothing is assumed about the PVs, the times or
the amplitude.
-/

namespace Bhtune.MrftEngine

open BinaryFloat MachineInt

variable {K : Type*} [Field K] [LinearOrder K]
variable {ar : IntArith} {e : MrftEngine K} {tick : Tick K}

/-! ### The three things a running test can do -/

/-- The engine with one more switch on its books; the MV is not moved yet. -/
def recordSwitch (e : MrftEngine K) (tick : Tick K) : MrftEngine K :=
  let record := decide (e.numSwitchesSkip ≤ e.counterAllSwitches + 1)
  let isPeak := decide (e.mvSignNextStep * e.actionMultiplier = 1)
  { e with
    timePreviousSwitch := tick.time
    counterAllSwitches := e.counterAllSwitches + 1
    switchTimes := if record then e.switchTimes ++ [tick.time] else e.switchTimes
    peaks := if record && isPeak then e.peaks ++ [e.maxPvResult] else e.peaks
    troughs := if record && !isPeak then e.troughs ++ [e.minPvResult] else e.troughs
    maxPvCycle := e.pvValueIni
    minPvCycle := e.pvValueIni
    maxPvResult := tick.pv
    minPvResult := tick.pv }

/-- The engine after a switch that leaves the MV at `mv`. -/
def switchedTo (e : MrftEngine K) (tick : Tick K) (mv : K) : MrftEngine K :=
  { (e.observe tick).recordSwitch tick with mvValueCurrent := mv }

/-- The engine after its last switch: the MV is back and the test is over. -/
def finishedBy (e : MrftEngine K) (tick : Tick K) : MrftEngine K :=
  { e.switchedTo tick e.mvValueIni with completed := true }

/-- What one tick of a running test can do. -/
inductive RunningStep (e : MrftEngine K) (tick : Tick K) :
    MrftEngine K × List (Action K) → Prop
  | hold (h : (e.observe tick).switchRequired tick = false) :
      RunningStep e tick (e.observe tick, [])
  | relay (h : (e.observe tick).switchRequired tick = true)
      (hlt : e.counterAllSwitches + 1 < e.totalSwitches) :
      RunningStep e tick (e.switchedTo tick (e.observe tick).mvValueNextStep,
        [.writeMv (e.observe tick).mvValueNextStep])
  | finish (h : (e.observe tick).switchRequired tick = true)
      (heq : e.counterAllSwitches + 1 = e.totalSwitches) :
      RunningStep e tick (e.finishedBy tick,
        [.writeMv e.mvValueIni, (e.finishedBy tick).completeAction])

section Fields

variable (e : MrftEngine K) (tick : Tick K) (mv : K)

@[simp] theorem counterAllSwitches_observe :
    (e.observe tick).counterAllSwitches = e.counterAllSwitches := rfl

@[simp] theorem totalSwitches_observe : (e.observe tick).totalSwitches = e.totalSwitches := rfl

@[simp] theorem counterAllSwitches_switchedTo :
    (e.switchedTo tick mv).counterAllSwitches = e.counterAllSwitches + 1 := rfl

@[simp] theorem totalSwitches_switchedTo :
    (e.switchedTo tick mv).totalSwitches = e.totalSwitches := by
  simp only [totalSwitches, switchedTo, recordSwitch, MrftEngine.observe]

@[simp] theorem counterAllSwitches_finishedBy :
    (e.finishedBy tick).counterAllSwitches = e.counterAllSwitches + 1 := rfl

@[simp] theorem totalSwitches_finishedBy :
    (e.finishedBy tick).totalSwitches = e.totalSwitches := by
  simp only [totalSwitches, finishedBy, switchedTo, recordSwitch, MrftEngine.observe]

@[simp] theorem mvSignInit_switchedTo :
    (e.switchedTo tick mv).mvSignInit = (e.observe tick).mvSignInit := by
  simp only [switchedTo, recordSwitch]

@[simp] theorem mvSignInit_finishedBy :
    (e.finishedBy tick).mvSignInit = (e.observe tick).mvSignInit := by
  simp only [finishedBy, switchedTo, recordSwitch]

end Fields

/-- With counters that fit, a switch writes the next relay step, or `mvValueIni` on the last
switch. -/
theorem performSwitch_observe (hfit : CountersFit ar e)
    (hlt : e.counterAllSwitches < e.totalSwitches) (mv : K)
    (hmv : mv = if e.counterAllSwitches + 1 = e.totalSwitches then e.mvValueIni
      else (e.observe tick).mvValueNextStep) :
    (e.observe tick).performSwitch ar tick = (e.switchedTo tick mv, mv) := by
  have hword : ar.u32 ((e.observe tick).counterAllSwitches + 1) = e.counterAllSwitches + 1 := by
    rcases hfit with rfl | hsmall
    · rfl
    · exact IntArith.u32_eq (Nat.lt_of_le_of_lt (Nat.succ_le_of_lt hlt) (by omega))
  have hzero : (e.switchedTo tick (e.observe tick).mvValueCurrent).cyclesRemaining ar = 0 ↔
      e.counterAllSwitches + 1 = e.totalSwitches :=
    cyclesRemaining_eq_zero_iff (e := e.switchedTo tick (e.observe tick).mvValueCurrent) hfit
      (Nat.succ_pos _) hlt
  rw [performSwitch, hword, hmv, ← if_congr hzero rfl rfl]
  rfl

theorem isComplete_switchedTo_iff (hfit : CountersFit ar e) (mv : K) :
    (e.switchedTo tick mv).isComplete ar = true ↔
      e.totalSwitches ≤ e.counterAllSwitches + 1 := by
  have hfit' : CountersFit ar (e.switchedTo tick mv) := by
    rw [CountersFit, totalSwitches_switchedTo]
    exact hfit
  rw [isComplete_iff hfit', totalSwitches_switchedTo, counterAllSwitches_switchedTo]

/-- **The inversion of `step`.**  A test that is still running does one of three things. -/
theorem runningStep (hfit : CountersFit ar e) (hc : e.completed = false)
    (hlt : e.counterAllSwitches < e.totalSwitches) : RunningStep e tick (e.step ar tick) := by
  by_cases hs : (e.observe tick).switchRequired tick = true
  · by_cases heq : e.counterAllSwitches + 1 = e.totalSwitches
    · rw [step_of_switch hc hs,
        performSwitch_observe hfit hlt e.mvValueIni (if_pos heq).symm, finishStep,
        if_pos ((isComplete_switchedTo_iff hfit _).mpr heq.ge)]
      exact RunningStep.finish hs heq
    · have hmore : e.counterAllSwitches + 1 < e.totalSwitches := by omega
      rw [step_of_switch hc hs, performSwitch_observe hfit hlt _ (if_neg heq).symm, finishStep,
        if_neg (fun h => hmore.not_ge ((isComplete_switchedTo_iff hfit _).mp h))]
      exact RunningStep.relay hs hmore
  · have hs' : (e.observe tick).switchRequired tick = false := by simpa using hs
    have hnot : ¬(e.observe tick).isComplete ar = true := by
      intro h
      exact hlt.not_ge ((isComplete_iff (e := e.observe tick) hfit).mp h)
    rw [step_of_no_switch hc hs', finishStep, if_neg hnot]
    exact RunningStep.hold hs'

/-! ### The next sign -/

theorem observe_mvSignInit (e : MrftEngine K) (tick : Tick K) :
    (e.observe tick).mvSignInit =
      if e.counterAllSwitches = 0 then (e.observe tick).mvSignNextStep else e.mvSignInit := rfl

theorem observe_mvSignInit_of_pos (hpos : 0 < e.counterAllSwitches) :
    (e.observe tick).mvSignInit = e.mvSignInit := by
  rw [observe_mvSignInit, if_neg hpos.ne']

/-- The relay side the test is holding after its switches so far: the first side after an odd
number of them, the other one after an even number. -/
def heldSign (e : MrftEngine K) : ℤ :=
  if e.counterAllSwitches % 2 = 1 then e.mvSignInit else -e.mvSignInit

/-- What the counter, the completion flag and the commanded MV say about each other. -/
structure RelayInv (e : MrftEngine K) : Prop where
  total_pos : 0 < e.totalSwitches
  counter_le : e.counterAllSwitches ≤ e.totalSwitches
  completed_iff : e.completed = true ↔ e.counterAllSwitches = e.totalSwitches
  mv_before : e.counterAllSwitches = 0 → e.mvValueCurrent = e.mvValueIni
  sign_init : 0 < e.counterAllSwitches → e.mvSignInit = 1 ∨ e.mvSignInit = -1
  mv_held : 0 < e.counterAllSwitches → e.counterAllSwitches < e.totalSwitches →
    e.mvValueCurrent = e.mvValueIni + (e.heldSign : K) * e.relayAmpRaw
  mv_final : e.counterAllSwitches = e.totalSwitches → e.mvValueCurrent = e.mvValueIni

variable [IsStrictOrderedRing K]

theorem mvSwitchThreshold_cast_pos : (0 : K) < (mvSwitchThreshold : K) :=
  Rat.cast_pos.mpr mvSwitchThreshold_pos

omit [IsStrictOrderedRing K] in
theorem le_abs_of_switchRequired (h : e.switchRequired tick = true) :
    (mvSwitchThreshold : K) ≤ |e.mvValueNextStep - e.mvValueCurrent| :=
  (SwitchStep.reached_iff _ _).mp (reached_of_switchRequired h)

/-- A required switch moves the MV. -/
theorem next_ne_current_of_switchRequired (h : e.switchRequired tick = true) :
    e.mvValueNextStep ≠ e.mvValueCurrent := by
  intro heq
  have habs := le_abs_of_switchRequired h
  rw [heq, sub_self, abs_zero] at habs
  exact absurd habs (not_le.mpr mvSwitchThreshold_cast_pos)

omit [LinearOrder K] [IsStrictOrderedRing K] in
theorem RelayInv.heldSign_eq (h : RelayInv e) (hpos : 0 < e.counterAllSwitches) :
    e.heldSign = 1 ∨ e.heldSign = -1 := by
  unfold heldSign
  rcases h.sign_init hpos with hs | hs <;> rw [hs] <;> split_ifs <;> simp

/-- **Alternation.**  While the relay is at work, a switch is only ever made to the side it is
not holding. -/
theorem sign_alternates (h : RelayInv e) (hpos : 0 < e.counterAllSwitches)
    (hlt : e.counterAllSwitches < e.totalSwitches)
    (hs : (e.observe tick).switchRequired tick = true) :
    (e.observe tick).mvSignNextStep = -e.heldSign := by
  have hne : (e.observe tick).mvValueNextStep ≠ e.mvValueCurrent :=
    next_ne_current_of_switchRequired hs
  rw [observe_mvValueNextStep, h.mv_held hpos hlt] at hne
  have hdiff : (e.observe tick).mvSignNextStep ≠ e.heldSign := by
    intro heq
    rw [heq] at hne
    exact hne rfl
  have hnext := observe_mvSignNextStep e tick
  have hheld := h.heldSign_eq hpos
  omega

/-- The sign of a switch is the sign the engine then holds. -/
theorem heldSign_switchedTo (h : RelayInv e) (hlt : e.counterAllSwitches < e.totalSwitches)
    (hs : (e.observe tick).switchRequired tick = true) (mv : K) :
    (e.switchedTo tick mv).heldSign = (e.observe tick).mvSignNextStep := by
  show (if (e.counterAllSwitches + 1) % 2 = 1 then (e.observe tick).mvSignInit
    else -(e.observe tick).mvSignInit) = _
  rw [observe_mvSignInit]
  rcases Nat.eq_zero_or_pos e.counterAllSwitches with hzero | hpos
  · rw [if_pos hzero, hzero]
    rfl
  · rw [if_neg hpos.ne', sign_alternates h hpos hlt hs, heldSign]
    by_cases hodd : e.counterAllSwitches % 2 = 1
    · rw [if_pos hodd, if_neg (by omega)]
    · rw [if_neg hodd, if_pos (by omega), neg_neg]

/-! ### The invariant of the relay -/

omit [IsStrictOrderedRing K] in
/-- Once a switch has been made, the first sign is settled. -/
theorem RelayInv.sign_init_observe (h : RelayInv e) :
    (e.observe tick).mvSignInit = 1 ∨ (e.observe tick).mvSignInit = -1 := by
  rcases Nat.eq_zero_or_pos e.counterAllSwitches with hzero | hpos
  · rw [observe_mvSignInit, if_pos hzero]
    exact observe_mvSignNextStep e tick
  · rw [observe_mvSignInit_of_pos hpos]
    exact h.sign_init hpos

omit [IsStrictOrderedRing K] in
theorem heldSign_observe (hpos : 0 < e.counterAllSwitches) :
    (e.observe tick).heldSign = e.heldSign := by
  rw [heldSign, observe_mvSignInit_of_pos hpos, heldSign, counterAllSwitches_observe]

omit [IsStrictOrderedRing K] in
theorem RelayInv.observe (h : RelayInv e) (hlt : e.counterAllSwitches < e.totalSwitches) :
    RelayInv (e.observe tick) where
  total_pos := h.total_pos
  counter_le := h.counter_le
  completed_iff := h.completed_iff
  mv_before := h.mv_before
  sign_init := fun _ => h.sign_init_observe
  mv_held := by
    intro hpos _
    rw [heldSign_observe (e := e) hpos]
    exact h.mv_held hpos hlt
  mv_final := fun heq => absurd heq hlt.ne

theorem RelayInv.relay (h : RelayInv e) (hc : e.completed = false)
    (hs : (e.observe tick).switchRequired tick = true)
    (hlt : e.counterAllSwitches + 1 < e.totalSwitches) :
    RelayInv (e.switchedTo tick (e.observe tick).mvValueNextStep) where
  total_pos := by
    rw [totalSwitches_switchedTo]
    exact h.total_pos
  counter_le := by
    rw [counterAllSwitches_switchedTo, totalSwitches_switchedTo]
    exact hlt.le
  completed_iff := by
    have hc' : (e.switchedTo tick (e.observe tick).mvValueNextStep).completed = false := hc
    rw [hc', counterAllSwitches_switchedTo, totalSwitches_switchedTo]
    exact ⟨nofun, fun heq => absurd heq hlt.ne⟩
  mv_before := fun hzero => absurd hzero (Nat.succ_ne_zero _)
  sign_init := by
    rw [mvSignInit_switchedTo]
    exact fun _ => h.sign_init_observe
  mv_held := by
    intro _ _
    rw [heldSign_switchedTo h (Nat.lt_of_succ_lt hlt) hs]
    exact observe_mvValueNextStep e tick
  mv_final := fun heq => absurd heq hlt.ne

omit [IsStrictOrderedRing K] in
theorem RelayInv.finish (h : RelayInv e)
    (heq : e.counterAllSwitches + 1 = e.totalSwitches) : RelayInv (e.finishedBy tick) where
  total_pos := by
    rw [totalSwitches_finishedBy]
    exact h.total_pos
  counter_le := by
    rw [counterAllSwitches_finishedBy, totalSwitches_finishedBy]
    exact heq.le
  completed_iff := by
    rw [counterAllSwitches_finishedBy, totalSwitches_finishedBy]
    exact ⟨fun _ => heq, fun _ => rfl⟩
  mv_before := by
    rw [counterAllSwitches_finishedBy]
    exact nofun
  sign_init := by
    rw [mvSignInit_finishedBy]
    exact fun _ => h.sign_init_observe
  mv_held := by
    intro _ hlt
    rw [counterAllSwitches_finishedBy, totalSwitches_finishedBy] at hlt
    exact absurd heq hlt.ne
  mv_final := fun _ => rfl

omit [LinearOrder K] [IsStrictOrderedRing K] in
/-- A test that is still running has a switch left. -/
theorem RelayInv.counter_lt (h : RelayInv e) (hc : e.completed = false) :
    e.counterAllSwitches < e.totalSwitches := by
  refine lt_of_le_of_ne h.counter_le ?_
  intro heq
  rw [h.completed_iff.mpr heq] at hc
  exact Bool.noConfusion hc

/-- **One step keeps the relay invariant.** -/
theorem RelayInv.step (h : RelayInv e) (hfit : CountersFit ar e) :
    RelayInv (e.step ar tick).1 := by
  by_cases hc : e.completed = true
  · rw [step_of_completed hc]
    exact h
  · have hc' : e.completed = false := by simpa using hc
    have hlt := h.counter_lt hc'
    have hcase : RunningStep e tick (e.step ar tick) := runningStep hfit hc' hlt
    generalize e.step ar tick = result at hcase
    cases hcase with
    | hold hs => exact h.observe hlt
    | relay hs hmore => exact h.relay hc' hs hmore
    | finish hs heq => exact h.finish heq

omit [IsStrictOrderedRing K] in
/-- A new engine has made no switch. -/
theorem RelayInv.new {config : LoopConfig K} {direction : ControllerDirection} {beta : K}
    {initial : InitialReadings K} {startTime : UtcTime}
    (hfit : ar = .exact ∨
      2 * config.numCyclesSkip.toNat + 1 + 2 * config.numCyclesCount.toNat < 2 ^ 31) :
    RelayInv (new ar config direction beta initial startTime) := by
  have htotal : 0 < (MrftEngine.new ar config direction beta initial startTime).totalSwitches := by
    rw [totalSwitches, (new_counters ar config direction beta initial startTime hfit).1]
    omega
  exact {
    total_pos := htotal
    counter_le := Nat.zero_le _
    completed_iff := ⟨fun h => absurd h Bool.false_ne_true, fun heq => absurd heq htotal.ne⟩
    mv_before := fun _ => rfl
    sign_init := fun hpos => absurd rfl hpos.ne
    mv_held := fun hpos => absurd rfl hpos.ne
    mv_final := fun heq => absurd heq htotal.ne }

/-- **The relay invariant holds at every tick of every run.** -/
theorem RelayInv.stateAfter (h : RelayInv e) (hfit : CountersFit ar e) (ticks : ℕ → Tick K)
    (n : ℕ) : RelayInv (e.stateAfter ar ticks n) ∧ CountersFit ar (e.stateAfter ar ticks n) := by
  refine StepMachine.stateAt_invariant
    (fun a : MrftEngine K => RelayInv a ∧ CountersFit ar a) ⟨h, hfit⟩ ?_ n
  intro a tick ha
  exact ⟨ha.1.step ha.2, ha.2.of_setup setup_step⟩

/-! ### What is on record -/

section Records

variable (e : MrftEngine K) (tick : Tick K) (mv : K)

omit [IsStrictOrderedRing K]

theorem switchTimes_switchedTo :
    (e.switchedTo tick mv).switchTimes =
      if e.numSwitchesSkip ≤ e.counterAllSwitches + 1 then e.switchTimes ++ [tick.time]
      else e.switchTimes := by
  simp [switchedTo, recordSwitch, MrftEngine.observe]

theorem peaks_switchedTo :
    (e.switchedTo tick mv).peaks =
      if e.numSwitchesSkip ≤ e.counterAllSwitches + 1 ∧
          (e.observe tick).mvSignNextStep * e.actionMultiplier = 1 then
        e.peaks ++ [(e.observe tick).maxPvResult]
      else e.peaks := by
  simp [switchedTo, recordSwitch, MrftEngine.observe]

theorem troughs_switchedTo :
    (e.switchedTo tick mv).troughs =
      if e.numSwitchesSkip ≤ e.counterAllSwitches + 1 ∧
          ¬(e.observe tick).mvSignNextStep * e.actionMultiplier = 1 then
        e.troughs ++ [(e.observe tick).minPvResult]
      else e.troughs := by
  simp [switchedTo, recordSwitch, MrftEngine.observe]

end Records

/-- How many of the switches made so far are on record. -/
def recordedSwitches (e : MrftEngine K) : ℕ := e.counterAllSwitches + 1 - e.numSwitchesSkip

/-- The number of entries on record.  The first recorded switch has the sign of the very first
one, because an even number of switches is skipped before it; from there peaks and troughs take
turns. -/
structure RecordInv (e : MrftEngine K) : Prop where
  skip_odd : e.numSwitchesSkip % 2 = 1
  multiplier : e.actionMultiplier = 1 ∨ e.actionMultiplier = -1
  times_length : e.switchTimes.length = e.recordedSwitches
  extrema_length : (e.mvSignInit * e.actionMultiplier = 1 →
      e.peaks.length = (e.recordedSwitches + 1) / 2 ∧
        e.troughs.length = e.recordedSwitches / 2) ∧
    (¬e.mvSignInit * e.actionMultiplier = 1 →
      e.peaks.length = e.recordedSwitches / 2 ∧
        e.troughs.length = (e.recordedSwitches + 1) / 2)

omit [IsStrictOrderedRing K] in
/-- Before the first switch the sign may still change, but then nothing is on record. -/
theorem RecordInv.observe (h : RecordInv e) : RecordInv (e.observe tick) where
  skip_odd := h.skip_odd
  multiplier := h.multiplier
  times_length := h.times_length
  extrema_length := by
    rcases Nat.eq_zero_or_pos e.counterAllSwitches with hzero | hpos
    · have hnone : e.recordedSwitches = 0 := by
        have hodd := h.skip_odd
        rw [recordedSwitches, hzero]
        omega
      have hlen : e.peaks.length = 0 ∧ e.troughs.length = 0 := by
        have hrec := h.extrema_length
        rw [hnone] at hrec
        by_cases hsign : e.mvSignInit * e.actionMultiplier = 1
        · exact hrec.1 hsign
        · exact hrec.2 hsign
      have hnone' : (e.observe tick).recordedSwitches = 0 := hnone
      rw [hnone']
      exact ⟨fun _ => hlen, fun _ => hlen⟩
    · rw [observe_mvSignInit_of_pos hpos]
      exact h.extrema_length

/-- The recorded kind of extremum at a switch: a peak exactly when the run began with a peak and
an even number of switches came before, or began with a trough and an odd number did. -/
theorem RecordInv.isPeak_iff (h : RecordInv e) (hrelay : RelayInv e)
    (hlt : e.counterAllSwitches < e.totalSwitches)
    (hs : (e.observe tick).switchRequired tick = true) :
    (e.observe tick).mvSignNextStep * e.actionMultiplier = 1 ↔
      ((e.observe tick).mvSignInit * e.actionMultiplier = 1 ↔
        e.counterAllSwitches % 2 = 0) := by
  have hsign : (e.observe tick).mvSignNextStep =
      if (e.counterAllSwitches + 1) % 2 = 1 then (e.observe tick).mvSignInit
      else -(e.observe tick).mvSignInit :=
    (heldSign_switchedTo hrelay hlt hs e.mvValueIni).symm
  have hinit : (e.observe tick).mvSignInit = 1 ∨ (e.observe tick).mvSignInit = -1 :=
    hrelay.sign_init_observe
  rw [hsign]
  by_cases hodd : (e.counterAllSwitches + 1) % 2 = 1
  · rw [if_pos hodd]
    have heven : e.counterAllSwitches % 2 = 0 := by omega
    simp only [heven, iff_true]
  · rw [if_neg hodd]
    have heven : ¬e.counterAllSwitches % 2 = 0 := by omega
    rcases h.multiplier with hm | hm <;> rcases hinit with hi | hi <;>
      rw [hm, hi] <;> simp [heven]

/-- **A switch keeps the records in step with the counter.** -/
theorem RecordInv.switched (h : RecordInv e) (hrelay : RelayInv e)
    (hlt : e.counterAllSwitches < e.totalSwitches)
    (hs : (e.observe tick).switchRequired tick = true) (mv : K) :
    RecordInv (e.switchedTo tick mv) where
  skip_odd := h.skip_odd
  multiplier := h.multiplier
  times_length := by
    have htimes := h.times_length
    rw [switchTimes_switchedTo]
    show _ = e.counterAllSwitches + 1 + 1 - e.numSwitchesSkip
    rw [recordedSwitches] at htimes
    split_ifs with hskip
    · rw [List.length_append, List.length_singleton]
      omega
    · omega
  extrema_length := by
    have hodd := h.skip_odd
    have hpeak := h.isPeak_iff hrelay hlt hs
    have hobserved : RecordInv (e.observe tick) := h.observe
    have hlen := hobserved.extrema_length
    show ((e.observe tick).mvSignInit * e.actionMultiplier = 1 → _) ∧
      (¬(e.observe tick).mvSignInit * e.actionMultiplier = 1 → _)
    have hbefore : (e.observe tick).recordedSwitches
        = e.counterAllSwitches + 1 - e.numSwitchesSkip := rfl
    have hafter : (e.switchedTo tick mv).recordedSwitches
        = e.counterAllSwitches + 1 + 1 - e.numSwitchesSkip := rfl
    simp only [peaks_switchedTo, troughs_switchedTo, hpeak, hafter]
    rw [hbefore] at hlen
    constructor
    · intro hfirst
      obtain ⟨hp, ht⟩ := hlen.1 hfirst
      replace hp : e.peaks.length = _ := hp
      replace ht : e.troughs.length = _ := ht
      simp only [hfirst, true_iff, apply_ite List.length, List.length_append,
        List.length_singleton, hp, ht]
      split_ifs <;> omega
    · intro hfirst
      obtain ⟨hp, ht⟩ := hlen.2 hfirst
      replace hp : e.peaks.length = _ := hp
      replace ht : e.troughs.length = _ := ht
      simp only [hfirst, false_iff, apply_ite List.length, List.length_append,
        List.length_singleton, hp, ht]
      split_ifs <;> omega

/-- **One step keeps the records in step with the counter.** -/
theorem RecordInv.step (h : RecordInv e) (hrelay : RelayInv e) (hfit : CountersFit ar e) :
    RecordInv (e.step ar tick).1 := by
  by_cases hc : e.completed = true
  · rw [step_of_completed hc]
    exact h
  · have hc' : e.completed = false := by simpa using hc
    have hlt := hrelay.counter_lt hc'
    have hcase : RunningStep e tick (e.step ar tick) := runningStep hfit hc' hlt
    generalize e.step ar tick = result at hcase
    cases hcase with
    | hold hs => exact h.observe
    | relay hs hmore => exact h.switched hrelay hlt hs _
    | finish hs heq =>
      have hswitched := h.switched hrelay hlt hs e.mvValueIni
      exact ⟨hswitched.skip_odd, hswitched.multiplier, hswitched.times_length,
        hswitched.extrema_length⟩

omit [IsStrictOrderedRing K] in
theorem RecordInv.new {config : LoopConfig K} {direction : ControllerDirection} {beta : K}
    {initial : InitialReadings K} {startTime : UtcTime}
    (hfit : ar = .exact ∨
      2 * config.numCyclesSkip.toNat + 1 + 2 * config.numCyclesCount.toNat < 2 ^ 31) :
    RecordInv (new ar config direction beta initial startTime) := by
  have hskip := (new_counters ar config direction beta initial startTime hfit).1
  have hnone : (MrftEngine.new ar config direction beta initial startTime).recordedSwitches
      = 0 := by
    rw [recordedSwitches, hskip]
    show 0 + 1 - _ = 0
    omega
  exact {
    skip_odd := by rw [hskip]; omega
    multiplier := direction.actionMultiplier_eq
    times_length := hnone.symm
    extrema_length := by rw [hnone]; exact ⟨fun _ => ⟨rfl, rfl⟩, fun _ => ⟨rfl, rfl⟩⟩ }

/-- **The records are in step with the counter at every tick of every run.** -/
theorem RecordInv.stateAfter (h : RecordInv e) (hrelay : RelayInv e) (hfit : CountersFit ar e)
    (ticks : ℕ → Tick K) (n : ℕ) : RecordInv (e.stateAfter ar ticks n) := by
  refine (StepMachine.stateAt_invariant
    (fun a : MrftEngine K => RecordInv a ∧ RelayInv a ∧ CountersFit ar a)
    ⟨h, hrelay, hfit⟩ ?_ n).1
  intro a tick ha
  exact ⟨ha.1.step ha.2.1 ha.2.2, ha.2.1.step ha.2.2, ha.2.2.of_setup setup_step⟩

/-! ### What a run reports, tick by tick -/

omit [IsStrictOrderedRing K]

/-- A completion is reported by exactly the step that sets the completion flag, whatever the
counters do. -/
theorem complete_mem_step_iff (hc : e.completed = false) :
    (∃ peaks troughs switchTimes mvSignInit,
        Action.complete peaks troughs switchTimes mvSignInit ∈ (e.step ar tick).2) ↔
      (e.step ar tick).1.completed = true := by
  have hfinish : ∀ (a : MrftEngine K) (writes : List (Action K)), a.completed = false →
      (∀ p t s m, Action.complete p t s m ∉ writes) →
      ((∃ p t s m, Action.complete p t s m ∈ (finishStep ar a writes).2) ↔
        (finishStep ar a writes).1.completed = true) := by
    intro a writes ha hnone
    rw [finishStep]
    split_ifs with hcomplete
    · refine ⟨fun _ => rfl, fun _ => ?_⟩
      exact ⟨a.peaks, a.troughs, a.switchTimes, a.mvSignInit,
        List.mem_append_right _ (List.mem_singleton.mpr rfl)⟩
    · rw [ha]
      refine ⟨?_, nofun⟩
      rintro ⟨p, t, s, m, hmem⟩
      exact absurd hmem (hnone p t s m)
  by_cases hs : (e.observe tick).switchRequired tick = true
  · rw [step_of_switch hc hs]
    refine hfinish _ _ hc ?_
    intro p t s m hmem
    exact nomatch List.mem_singleton.mp hmem
  · rw [step_of_no_switch hc (by simpa using hs)]
    exact hfinish _ _ hc fun p t s m => List.not_mem_nil

/-- Once a tick has completed the run, the completion flag stays set. -/
theorem completed_of_completesAt {ticks : ℕ → Tick K} {i j : ℕ}
    (h : CompletesAt ar e ticks i) (hij : i < j) :
    (e.stateAfter ar ticks j).completed = true := by
  have hrun : (e.stateAfter ar ticks i).completed = false := by
    obtain ⟨p, t, s, m, hmem⟩ := h
    exact running_of_mem hmem
  refine StepMachine.stateAt_invariant_from (fun a : MrftEngine K => a.completed = true)
    (m := i + 1) ?_ ?_ j hij
  · exact (complete_mem_step_iff hrun).mp h
  · intro a tick ha
    rw [step_of_completed ha]
    exact ha

/-- **After a completion nothing is returned any more.** -/
theorem actionsAt_of_completesAt {ticks : ℕ → Tick K} {i j : ℕ}
    (h : CompletesAt ar e ticks i) (hij : i < j) : e.actionsAt ar ticks j = [] :=
  actionsAt_of_completed (completed_of_completesAt h hij)

/-- A running engine that no earlier tick has completed is still running. -/
theorem running_of_not_completesAt (hc : e.completed = false) (ticks : ℕ → Tick K) (n : ℕ)
    (hnone : ∀ k < n, ¬CompletesAt ar e ticks k) : (e.stateAfter ar ticks n).completed = false := by
  induction n with
  | zero => exact hc
  | succ n ih =>
    have hrun := ih fun k hk => hnone k (Nat.lt_succ_of_lt hk)
    have hnot := hnone n (Nat.lt_succ_self n)
    by_contra hdone
    rw [stateAfter_succ, Bool.not_eq_false, ← complete_mem_step_iff hrun] at hdone
    exact hnot hdone

end Bhtune.MrftEngine
