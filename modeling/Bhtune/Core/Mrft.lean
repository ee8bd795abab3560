import Bhtune.Core.LoopConfig
import Bhtune.Library.MachineInt
import Bhtune.Library.StepMachine

/-!
# The MRFT relay-switching engine

The pure state machine: it decides when to switch the MV and when the test is complete.  Times
are `DateTime<Utc>` values in nanoseconds.  The counters are computed through an `IntArith`, so
that one definition serves both exact arithmetic and the wrapping words of a release build.

After the definitions come the facts every later proof about the engine starts from: what a step
can do (`step_of_completed`, `step_of_switch`, `step_of_no_switch`), what it never changes
(`setup_step`) and what the counters say when they do not wrap (`isComplete_iff`,
`cyclesRemaining_eq_zero_iff`).
-/

namespace Bhtune

open BinaryFloat MachineInt

/-- A `DateTime<Utc>`, in nanoseconds. -/
abbrev UtcTime := ℤ

/-- `chrono::Duration::seconds`. -/
def seconds (n : ℤ) : ℤ := n * 1000000000

variable {K : Type*}

/-- One PV sample fed into the engine. -/
structure Tick (K : Type*) where
  time : UtcTime
  pv : K
  deriving DecidableEq, Repr

/-- A side effect the caller must perform in response to a step. -/
inductive Action (K : Type*) where
  /-- Write this value to the MV tag. -/
  | writeMv (v : K)
  /-- The test is complete. -/
  | complete (peaks troughs : List K) (switchTimes : List UtcTime) (mvSignInit : ℤ)
  deriving DecidableEq, Repr

/-- Whether an action is a write. -/
def Action.isWrite : Action K → Bool
  | .writeMv _ => true
  | .complete .. => false

/-- Initial readings the engine needs at construction time. -/
structure InitialReadings (K : Type*) where
  pvIni : K
  mvIni : K
  mvRangeLow : K
  mvRangeHigh : K
  deriving DecidableEq, Repr

/-- A snapshot of the engine's observable state after a step. -/
structure MrftState (K : Type*) where
  hysteresis : K
  mvValueCurrent : K
  mvSignNextStep : ℤ
  counterAllSwitches : ℕ
  cyclesCompleted : ℤ
  cyclesRemaining : ℤ
  deriving DecidableEq, Repr

/-- The MRFT relay-feedback state machine. -/
@[ext]
structure MrftEngine (K : Type*) where
  -- fixed for the life of the engine
  beta : K
  actionMultiplier : ℤ
  relayAmpRaw : K
  pvValueIni : K
  mvValueIni : K
  numSwitchesSkip : ℕ
  numCyclesCount : ℕ
  noiseProtectionSecs : ℕ
  -- running state, updated by `step`
  mvValueCurrent : K
  mvValueNextStep : K
  maxPvCycle : K
  minPvCycle : K
  maxPvResult : K
  minPvResult : K
  hysteresis : K
  mvSignNextStep : ℤ
  mvSignInit : ℤ
  timePreviousSwitch : UtcTime
  counterAllSwitches : ℕ
  peaks : List K
  troughs : List K
  switchTimes : List UtcTime
  completed : Bool
  deriving DecidableEq, Repr

/-- The `f64` literal `0.01` a new MV target is compared against. -/
def mvSwitchThreshold : ℚ := f64 0.01

theorem mvSwitchThreshold_pos : 0 < mvSwitchThreshold := by decide +kernel

/-- The denominator of a percentage, as a numeral of any field. -/
instance instAtLeastTwoHundred : Nat.AtLeastTwo 100 := ⟨by decide⟩

/-! ### The engine, function by function

One definition of each function serves exact arithmetic over any ordered field and the arithmetic
of a float format, so it asks for the operations alone. -/

/-- Whether two MVs are apart, `(next as f64 - current as f64).abs() >= 0.01`. -/
class SwitchStep (K : Type*) where
  reached : K → K → Bool

/-- In exact arithmetic the widening changes nothing. -/
instance [Field K] [LinearOrder K] : SwitchStep K where
  reached next current := decide (|next - current| ≥ (mvSwitchThreshold : K))

theorem SwitchStep.reached_iff [Field K] [LinearOrder K] (next current : K) :
    SwitchStep.reached next current = true ↔ (mvSwitchThreshold : K) ≤ |next - current| :=
  decide_eq_true_iff

section New

variable [Zero K] [OfNat K 100] [Add K] [Sub K] [Mul K] [Div K] [LT K] [DecidableLT K]

/-- The raw relay amplitude for a percentage of the MV range, clamped so that neither relay step
drives the MV outside the range. -/
def clampRelayAmplitude (relayAmpPercent mvIni mvRangeLow mvRangeHigh : K) : K :=
  let relayAmpRaw := relayAmpPercent / 100 * (mvRangeHigh - mvRangeLow)
  if mvIni + relayAmpRaw > mvRangeHigh then mvRangeHigh - mvIni
  else if mvIni - relayAmpRaw < mvRangeLow then mvIni - mvRangeLow
  else relayAmpRaw

/-- `MrftEngine::new`. -/
def MrftEngine.new (ar : IntArith) (config : LoopConfig K) (direction : ControllerDirection)
    (beta : K) (initial : InitialReadings K) (startTime : UtcTime) : MrftEngine K where
  beta := beta
  actionMultiplier := direction.actionMultiplier
  relayAmpRaw := clampRelayAmplitude config.relayAmpPercent initial.mvIni initial.mvRangeLow
    initial.mvRangeHigh
  pvValueIni := initial.pvIni
  mvValueIni := initial.mvIni
  numSwitchesSkip := ar.u32 (ar.u32 (config.numCyclesSkip.toNat * 2) + 1)
  numCyclesCount := config.numCyclesCount.toNat
  noiseProtectionSecs := config.noiseProtectionSecs.toNat
  mvValueCurrent := initial.mvIni
  mvValueNextStep := initial.mvIni
  maxPvCycle := initial.pvIni
  minPvCycle := initial.pvIni
  maxPvResult := initial.pvIni
  minPvResult := initial.pvIni
  hysteresis := 0
  mvSignNextStep := 1
  mvSignInit := 0
  timePreviousSwitch := startTime
  counterAllSwitches := 0
  peaks := []
  troughs := []
  switchTimes := []
  completed := false

end New

namespace MrftEngine

/-- Whether the completion condition has been reached. -/
def isComplete (ar : IntArith) (e : MrftEngine K) : Bool :=
  decide (ar.u32 (e.numSwitchesSkip + ar.u32 (e.numCyclesCount * 2)) ≤ e.counterAllSwitches)

/-- Whole relay cycles completed so far; the division truncates toward zero. -/
def cyclesCompleted (ar : IntArith) (e : MrftEngine K) : ℤ :=
  (ar.i32 (ar.i32 e.counterAllSwitches - 1)).tdiv 2

/-- Whole relay cycles remaining; the division truncates toward zero. -/
def cyclesRemaining (ar : IntArith) (e : MrftEngine K) : ℤ :=
  (ar.i32 (ar.i32 (ar.i32 (ar.i32 e.numSwitchesSkip + ar.i32 (ar.i32 e.numCyclesCount * 2))
    - ar.i32 e.counterAllSwitches) + 1)).tdiv 2

/-- A snapshot of the engine's observable state. -/
def state (ar : IntArith) (e : MrftEngine K) : MrftState K where
  hysteresis := e.hysteresis
  mvValueCurrent := e.mvValueCurrent
  mvSignNextStep := e.mvSignNextStep
  counterAllSwitches := e.counterAllSwitches
  cyclesCompleted := e.cyclesCompleted ar
  cyclesRemaining := e.cyclesRemaining ar

section Step

variable [Zero K] [Add K] [Sub K] [Mul K] [IntCast K] [LE K] [DecidableLE K] [Max K] [Min K]

/-- The state part of `switch_is_needed`: peak/trough tracking, hysteresis and the next step's
sign and value. -/
def observe (e : MrftEngine K) (tick : Tick K) : MrftEngine K :=
  let spPvDiff := e.pvValueIni - tick.pv
  let maxPvCycle := max e.maxPvCycle tick.pv
  let minPvCycle := min e.minPvCycle tick.pv
  let hysteresis := e.beta * max (maxPvCycle - e.pvValueIni) (e.pvValueIni - minPvCycle)
  let mvSignPrevious : ℤ := if e.mvValueCurrent ≥ e.mvValueIni then 1 else -1
  let mvSignNextStep : ℤ :=
    if e.actionMultiplier = 1 then
      let valveSwitch := spPvDiff + mvSignPrevious * hysteresis
      if valveSwitch ≥ 0 then 1 else -1
    else
      let valveSwitch := spPvDiff - mvSignPrevious * hysteresis
      if valveSwitch ≤ 0 then 1 else -1
  { e with
    maxPvCycle := maxPvCycle
    minPvCycle := minPvCycle
    maxPvResult := max e.maxPvResult tick.pv
    minPvResult := min e.minPvResult tick.pv
    hysteresis := hysteresis
    mvSignNextStep := mvSignNextStep
    -- keeps being overwritten until the first switch moves the counter past 0
    mvSignInit := if e.counterAllSwitches = 0 then mvSignNextStep else e.mvSignInit
    mvValueNextStep := e.mvValueIni + mvSignNextStep * e.relayAmpRaw }

variable [SwitchStep K]

/-- The answer of `switch_is_needed`, read off the observed state. -/
def switchRequired (e : MrftEngine K) (tick : Tick K) : Bool :=
  let mvSwitchRequired := SwitchStep.reached e.mvValueNextStep e.mvValueCurrent
  let enableMvSwitch :=
    decide (e.timePreviousSwitch + seconds e.noiseProtectionSecs ≤ tick.time) ||
      decide (e.counterAllSwitches = 0)
  mvSwitchRequired && enableMvSwitch

/-- `switch_is_needed`: the observed state and the answer. -/
def switchIsNeeded (e : MrftEngine K) (tick : Tick K) : MrftEngine K × Bool :=
  (e.observe tick, (e.observe tick).switchRequired tick)

/-- `perform_switch`: the counters, the extremum of the interval that ends here and the new MV. -/
def performSwitch (ar : IntArith) (e : MrftEngine K) (tick : Tick K) : MrftEngine K × K :=
  let counter := ar.u32 (e.counterAllSwitches + 1)
  let record := decide (counter ≥ e.numSwitchesSkip)
  let isPeak := decide (e.mvSignNextStep * e.actionMultiplier = 1)
  let counted := { e with
    timePreviousSwitch := tick.time
    counterAllSwitches := counter
    switchTimes := if record then e.switchTimes ++ [tick.time] else e.switchTimes
    peaks := if record && isPeak then e.peaks ++ [e.maxPvResult] else e.peaks
    troughs := if record && !isPeak then e.troughs ++ [e.minPvResult] else e.troughs
    maxPvCycle := e.pvValueIni
    minPvCycle := e.pvValueIni
    maxPvResult := tick.pv
    minPvResult := tick.pv }
  let mv := if counted.cyclesRemaining ar = 0 then e.mvValueIni else e.mvValueNextStep
  ({ counted with mvValueCurrent := mv }, mv)

/-- The action that carries everything the tuning math needs. -/
def completeAction (e : MrftEngine K) : Action K :=
  .complete e.peaks e.troughs e.switchTimes e.mvSignInit

/-- The tail of `step`: completion is reported at most once. -/
def finishStep (ar : IntArith) (e : MrftEngine K) (writes : List (Action K)) :
    MrftEngine K × List (Action K) :=
  if e.isComplete ar then ({ e with completed := true }, writes ++ [e.completeAction])
  else (e, writes)

/-- `MrftEngine::step`: feeds one PV sample through the engine. -/
def step (ar : IntArith) (e : MrftEngine K) (tick : Tick K) : MrftEngine K × List (Action K) :=
  if e.completed then (e, [])
  else
    let needed := e.switchIsNeeded tick
    if needed.2 then
      let switched := needed.1.performSwitch ar tick
      finishStep ar switched.1 [.writeMv switched.2]
    else finishStep ar needed.1 []

/-- The engine before the `n`-th tick of a run. -/
def stateAfter (ar : IntArith) (e : MrftEngine K) (ticks : ℕ → Tick K) (n : ℕ) : MrftEngine K :=
  StepMachine.stateAt (step ar) e ticks n

/-- The actions the `n`-th tick of a run returns. -/
def actionsAt (ar : IntArith) (e : MrftEngine K) (ticks : ℕ → Tick K) (n : ℕ) :
    List (Action K) :=
  StepMachine.outputAt (step ar) e ticks n

/-- The `i`-th tick returns `Action::Complete`. -/
def CompletesAt (ar : IntArith) (e : MrftEngine K) (ticks : ℕ → Tick K) (i : ℕ) : Prop :=
  ∃ peaks troughs switchTimes mvSignInit,
    Action.complete peaks troughs switchTimes mvSignInit ∈ e.actionsAt ar ticks i

/-- The `i`-th tick returns `Action::WriteMv` with this value. -/
def WritesAt (ar : IntArith) (e : MrftEngine K) (ticks : ℕ → Tick K) (i : ℕ) (v : K) : Prop :=
  Action.writeMv v ∈ e.actionsAt ar ticks i

end Step

variable {ar : IntArith} {e : MrftEngine K} {tick : Tick K}

/-! ### What a step never changes -/

/-- The fields fixed for the life of the engine. -/
structure Setup (K : Type*) where
  beta : K
  actionMultiplier : ℤ
  relayAmpRaw : K
  pvValueIni : K
  mvValueIni : K
  numSwitchesSkip : ℕ
  numCyclesCount : ℕ
  noiseProtectionSecs : ℕ

/-- The fixed part of an engine. -/
def setup (e : MrftEngine K) : Setup K where
  beta := e.beta
  actionMultiplier := e.actionMultiplier
  relayAmpRaw := e.relayAmpRaw
  pvValueIni := e.pvValueIni
  mvValueIni := e.mvValueIni
  numSwitchesSkip := e.numSwitchesSkip
  numCyclesCount := e.numCyclesCount
  noiseProtectionSecs := e.noiseProtectionSecs

@[simp] theorem setup_performSwitch : (e.performSwitch ar tick).1.setup = e.setup := rfl

@[simp] theorem setup_finishStep (writes : List (Action K)) :
    (finishStep ar e writes).1.setup = e.setup := by
  unfold finishStep
  split <;> rfl

/-! ### What the counters say when they do not wrap -/

/-- The number of switches after which the test is complete. -/
def totalSwitches (e : MrftEngine K) : ℕ := e.numSwitchesSkip + 2 * e.numCyclesCount

/-- The counters of the engine stay in the range in which `i32` words are exact. -/
def CountersFit (ar : IntArith) (e : MrftEngine K) : Prop :=
  ar = .exact ∨ e.totalSwitches < 2 ^ 31

theorem totalSwitches_of_setup {e' : MrftEngine K} (h : e'.setup = e.setup) :
    e'.totalSwitches = e.totalSwitches := by
  have h₁ : e'.numSwitchesSkip = e.numSwitchesSkip := congrArg Setup.numSwitchesSkip h
  have h₂ : e'.numCyclesCount = e.numCyclesCount := congrArg Setup.numCyclesCount h
  rw [totalSwitches, totalSwitches, h₁, h₂]

theorem CountersFit.of_setup {e' : MrftEngine K} (hfit : CountersFit ar e)
    (h : e'.setup = e.setup) : CountersFit ar e' := by
  rw [CountersFit, totalSwitches_of_setup h]
  exact hfit

theorem isComplete_iff (hfit : CountersFit ar e) :
    e.isComplete ar = true ↔ e.totalSwitches ≤ e.counterAllSwitches := by
  simp only [isComplete, decide_eq_true_eq, totalSwitches, Nat.mul_comm 2]
  rcases hfit with rfl | hlt
  · simp only [IntArith.u32_exact]
  · simp only [totalSwitches] at hlt
    rw [IntArith.u32_eq (n := e.numCyclesCount * 2) (by omega), IntArith.u32_eq (by omega)]

/-- With `counter` switches made, the cycles remaining are half of the switches still to come,
rounded up. -/
theorem cyclesRemaining_eq (hfit : CountersFit ar e) (h₁ : 1 ≤ e.counterAllSwitches)
    (h₂ : e.counterAllSwitches ≤ e.totalSwitches) :
    e.cyclesRemaining ar = ((e.totalSwitches - e.counterAllSwitches + 1) / 2 : ℕ) := by
  have hvalue : ((e.numSwitchesSkip : ℤ) + (e.numCyclesCount : ℤ) * 2 - e.counterAllSwitches
      + 1).tdiv 2 = ((e.totalSwitches - e.counterAllSwitches + 1) / 2 : ℕ) := by
    simp only [totalSwitches] at *
    rw [Int.tdiv_eq_ediv_of_nonneg (by omega)]
    omega
  rcases hfit with rfl | hlt
  · simpa only [cyclesRemaining, IntArith.i32_exact] using hvalue
  · simp only [totalSwitches] at hlt h₂
    rw [cyclesRemaining, IntArith.i32_eq (z := (e.numSwitchesSkip : ℤ)) (by omega) (by omega),
      IntArith.i32_eq (z := (e.numCyclesCount : ℤ)) (by omega) (by omega),
      IntArith.i32_eq (z := (e.numCyclesCount : ℤ) * 2) (by omega) (by omega),
      IntArith.i32_eq (z := (e.counterAllSwitches : ℤ)) (by omega) (by omega),
      IntArith.i32_eq (z := (e.numSwitchesSkip : ℤ) + (e.numCyclesCount : ℤ) * 2)
        (by omega) (by omega),
      IntArith.i32_eq (z := (e.numSwitchesSkip : ℤ) + (e.numCyclesCount : ℤ) * 2
        - e.counterAllSwitches) (by omega) (by omega),
      IntArith.i32_eq (by omega) (by omega)]
    exact hvalue

/-- The truncating division reaches `0` exactly on the last switch. -/
theorem cyclesRemaining_eq_zero_iff (hfit : CountersFit ar e) (h₁ : 1 ≤ e.counterAllSwitches)
    (h₂ : e.counterAllSwitches ≤ e.totalSwitches) :
    e.cyclesRemaining ar = 0 ↔ e.counterAllSwitches = e.totalSwitches := by
  rw [cyclesRemaining_eq hfit h₁ h₂]
  omega

/-- A switch takes the engine away from the MV it commands. -/
theorem reached_of_switchRequired [SwitchStep K] (h : e.switchRequired tick = true) :
    SwitchStep.reached e.mvValueNextStep e.mvValueCurrent = true := by
  simp only [switchRequired, Bool.and_eq_true] at h
  exact h.1

section Facts

variable [Zero K] [Add K] [Sub K] [Mul K] [IntCast K] [LE K] [DecidableLE K] [Max K] [Min K]

/-! ### The next step -/

theorem observe_mvSignNextStep (e : MrftEngine K) (tick : Tick K) :
    (e.observe tick).mvSignNextStep = 1 ∨ (e.observe tick).mvSignNextStep = -1 := by
  unfold observe
  dsimp only
  split_ifs <;> simp

theorem observe_mvValueNextStep (e : MrftEngine K) (tick : Tick K) :
    (e.observe tick).mvValueNextStep =
      e.mvValueIni + ((e.observe tick).mvSignNextStep : K) * e.relayAmpRaw := rfl

@[simp] theorem setup_observe : (e.observe tick).setup = e.setup := rfl

variable [SwitchStep K]

/-! ### What a step can do -/

/-- A completed engine has nothing left to do. -/
theorem step_of_completed (h : e.completed = true) : e.step ar tick = (e, []) := by
  simp [step, h]

theorem step_of_switch (hc : e.completed = false)
    (hs : (e.observe tick).switchRequired tick = true) :
    e.step ar tick =
      finishStep ar ((e.observe tick).performSwitch ar tick).1
        [.writeMv ((e.observe tick).performSwitch ar tick).2] := by
  simp [step, switchIsNeeded, hc, hs]

theorem step_of_no_switch (hc : e.completed = false)
    (hs : (e.observe tick).switchRequired tick = false) :
    e.step ar tick = finishStep ar (e.observe tick) [] := by
  simp [step, switchIsNeeded, hc, hs]

@[simp] theorem setup_step : (e.step ar tick).1.setup = e.setup := by
  unfold step switchIsNeeded
  split
  · rfl
  · dsimp only
    split <;> simp

theorem setup_stateAfter (ticks : ℕ → Tick K) (n : ℕ) :
    (e.stateAfter ar ticks n).setup = e.setup :=
  StepMachine.stateAt_invariant (fun a : MrftEngine K => a.setup = e.setup) rfl
    (fun _ _ h => setup_step.trans h) n

/-! ### Tick by tick -/

theorem stateAfter_succ (ticks : ℕ → Tick K) (n : ℕ) :
    e.stateAfter ar ticks (n + 1) = ((e.stateAfter ar ticks n).step ar (ticks n)).1 := rfl

/-- A completed engine returns no action. -/
theorem actionsAt_of_completed {ticks : ℕ → Tick K} {i : ℕ}
    (h : (e.stateAfter ar ticks i).completed = true) : e.actionsAt ar ticks i = [] := by
  show ((e.stateAfter ar ticks i).step ar (ticks i)).2 = []
  rw [step_of_completed h]

/-- A tick that does something finds the engine running. -/
theorem running_of_mem {ticks : ℕ → Tick K} {i : ℕ} {a : Action K}
    (h : a ∈ e.actionsAt ar ticks i) : (e.stateAfter ar ticks i).completed = false := by
  by_contra hc
  rw [actionsAt_of_completed (by simpa using hc)] at h
  exact List.not_mem_nil h

end Facts

section New

variable [Zero K] [OfNat K 100] [Add K] [Sub K] [Mul K] [Div K] [LT K] [DecidableLT K]

/-- A freshly built engine counts to `2 * skip + 1 + 2 * count` switches. -/
theorem new_counters (ar : IntArith) (config : LoopConfig K) (direction : ControllerDirection)
    (beta : K) (initial : InitialReadings K) (startTime : UtcTime)
    (hfit : ar = .exact ∨
      2 * config.numCyclesSkip.toNat + 1 + 2 * config.numCyclesCount.toNat < 2 ^ 31) :
    (new ar config direction beta initial startTime).numSwitchesSkip
        = 2 * config.numCyclesSkip.toNat + 1 ∧
      (new ar config direction beta initial startTime).numCyclesCount
        = config.numCyclesCount.toNat ∧
      CountersFit ar (new ar config direction beta initial startTime) := by
  have hskip : (new ar config direction beta initial startTime).numSwitchesSkip
      = 2 * config.numCyclesSkip.toNat + 1 := by
    simp only [new, Nat.mul_comm 2]
    rcases hfit with rfl | hlt
    · simp only [IntArith.u32_exact]
    · rw [IntArith.u32_eq (n := config.numCyclesSkip.toNat * 2) (by omega),
        IntArith.u32_eq (by omega)]
  refine ⟨hskip, rfl, hfit.imp_right fun hlt => ?_⟩
  rw [totalSwitches, hskip]
  exact hlt

end New

end MrftEngine

/-- A loop at rest at mid-range. -/
def midRangeReadings : InitialReadings ℚ where
  pvIni := 50
  mvIni := 50
  mvRangeLow := 0
  mvRangeHigh := 100

/-- A PV that swings by `5` about `50`, sampled every four seconds. -/
def swingingTicks (n : ℕ) : Tick ℚ where
  time := seconds (4 * n)
  pv := if n % 2 = 0 then 45 else 55

end Bhtune
