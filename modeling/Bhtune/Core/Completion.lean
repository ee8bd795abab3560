import Bhtune.Core.RelayRun
import Bhtune.Core.TuningMath

/-!
# Completion: reported once, and always measurable

* `complete_lengths` — the lengths of the records a completion carries;
* `complete_once_and_measurable` — the completion of a run is unique, ends all activity, and
  `measure_oscillation` accepts it without a panic.
-/

namespace Bhtune.MrftEngine

open MachineInt

variable {K : Type*} [Field K] [LinearOrder K]
variable {ar : IntArith} {e : MrftEngine K} {tick : Tick K}

/-- The records a completing step reports are those of the finished engine. -/
theorem complete_mem_step (hrelay : RelayInv e) (hfit : CountersFit ar e)
    (hc : e.completed = false) {peaks troughs : List K} {switchTimes : List UtcTime}
    {mvSignInit : ℤ}
    (h : Action.complete peaks troughs switchTimes mvSignInit ∈ (e.step ar tick).2) :
    e.counterAllSwitches + 1 = e.totalSwitches ∧
      (e.observe tick).switchRequired tick = true ∧
      e.step ar tick = (e.finishedBy tick,
        [.writeMv e.mvValueIni, .complete peaks troughs switchTimes mvSignInit]) ∧
      peaks = (e.finishedBy tick).peaks ∧ troughs = (e.finishedBy tick).troughs ∧
      switchTimes = (e.finishedBy tick).switchTimes ∧
      mvSignInit = (e.finishedBy tick).mvSignInit := by
  have hcase : RunningStep e tick (e.step ar tick) :=
    runningStep hfit hc (hrelay.counter_lt hc)
  generalize e.step ar tick = result at hcase h ⊢
  cases hcase with
  | hold hs => exact absurd h List.not_mem_nil
  | relay hs hmore => exact nomatch List.mem_singleton.mp h
  | finish hs heq =>
    rcases List.mem_cons.mp h with hwrite | htail
    · exact nomatch hwrite
    · have hcomplete := List.mem_singleton.mp htail
      rw [completeAction] at hcomplete
      injection hcomplete with hp ht htimes hsign
      refine ⟨heq, hs, ?_, hp, ht, htimes, hsign⟩
      rw [completeAction, hp, ht, htimes, hsign]

variable [IsStrictOrderedRing K]

/-- **What a completion carries.**  `2 n + 1` switch times, and one extremum more on the side the
run began with. -/
theorem complete_lengths (hrelay : RelayInv e) (hrecord : RecordInv e) (hfit : CountersFit ar e)
    (hc : e.completed = false) {peaks troughs : List K} {switchTimes : List UtcTime}
    {mvSignInit : ℤ}
    (h : Action.complete peaks troughs switchTimes mvSignInit ∈ (e.step ar tick).2) :
    switchTimes.length = 2 * e.numCyclesCount + 1 ∧
      (mvSignInit * e.actionMultiplier = 1 →
        peaks.length = e.numCyclesCount + 1 ∧ troughs.length = e.numCyclesCount) ∧
      (¬mvSignInit * e.actionMultiplier = 1 →
        peaks.length = e.numCyclesCount ∧ troughs.length = e.numCyclesCount + 1) := by
  obtain ⟨heq, hs, _, rfl, rfl, rfl, rfl⟩ := complete_mem_step hrelay hfit hc h
  have hswitched := hrecord.switched hrelay (hrelay.counter_lt hc) hs e.mvValueIni
  have hnumber : (e.switchedTo tick e.mvValueIni).recordedSwitches
      = 2 * e.numCyclesCount + 1 := by
    show e.counterAllSwitches + 1 + 1 - e.numSwitchesSkip = _
    rw [heq, totalSwitches]
    omega
  refine ⟨?_, ?_, ?_⟩
  · exact hswitched.times_length.trans hnumber
  · intro hfirst
    obtain ⟨hp, ht⟩ := hswitched.extrema_length.1 hfirst
    rw [hnumber] at hp ht
    refine ⟨hp.trans ?_, ht.trans ?_⟩ <;> omega
  · intro hfirst
    obtain ⟨hp, ht⟩ := hswitched.extrema_length.2 hfirst
    rw [hnumber] at hp ht
    refine ⟨hp.trans ?_, ht.trans ?_⟩ <;> omega

end Bhtune.MrftEngine

namespace Bhtune

open BinaryFloat MachineInt MrftEngine

variable {K : Type*} [Field K] [LinearOrder K] [IsStrictOrderedRing K]

/-- **What the completion of a run carries.** -/
theorem complete_lengths_run {ar : IntArith} {config : LoopConfig K}
    {direction : ControllerDirection} {beta : K} {initial : InitialReadings K}
    {startTime : UtcTime} {ticks : ℕ → Tick K} {i : ℕ} {peaks troughs : List K}
    {switchTimes : List UtcTime} {mvSignInit : ℤ}
    (hfit : ar = .exact ∨
      2 * config.numCyclesSkip.toNat + 1 + 2 * config.numCyclesCount.toNat < 2 ^ 31)
    (hmem : Action.complete peaks troughs switchTimes mvSignInit ∈
      (MrftEngine.new ar config direction beta initial startTime).actionsAt ar ticks i) :
    switchTimes.length = config.numCyclesCount.toNat * 2 + 1 ∧
      (mvSignInit * direction.actionMultiplier = 1 →
        peaks.length = config.numCyclesCount.toNat + 1 ∧
          troughs.length = config.numCyclesCount.toNat) ∧
      (¬mvSignInit * direction.actionMultiplier = 1 →
        peaks.length = config.numCyclesCount.toNat ∧
          troughs.length = config.numCyclesCount.toNat + 1) := by
  let engine := MrftEngine.new ar config direction beta initial startTime
  obtain ⟨_, _, hcounters⟩ := new_counters ar config direction beta initial startTime hfit
  have hrelay : RelayInv engine := RelayInv.new hfit
  have hrecord : RecordInv engine := RecordInv.new hfit
  have hsetup : (engine.stateAfter ar ticks i).setup = engine.setup := setup_stateAfter ticks i
  have hn : (engine.stateAfter ar ticks i).numCyclesCount = config.numCyclesCount.toNat :=
    congrArg Setup.numCyclesCount hsetup
  have hm : (engine.stateAfter ar ticks i).actionMultiplier = direction.actionMultiplier :=
    congrArg Setup.actionMultiplier hsetup
  obtain ⟨hrelay', hfit'⟩ := hrelay.stateAfter hcounters ticks i
  have hlengths := complete_lengths hrelay' (hrecord.stateAfter hrelay hcounters ticks i) hfit'
    (running_of_mem hmem) hmem
  rw [hn, hm, Nat.mul_comm] at hlengths
  exact hlengths

/-- **A run completes at most once, after its completion nothing is returned, and a completion is
measurable.**  The counters are the 32-bit words of the program, and `2 * skip + 1 + 2 * count`
fits an `i32`. -/
theorem complete_once_and_measurable (config : LoopConfig K) (direction : ControllerDirection)
    (beta : K) (initial : InitialReadings K) (startTime : UtcTime) (ticks : ℕ → Tick K)
    (hcount : 1 ≤ config.numCyclesCount.toNat)
    (hfit : 2 * config.numCyclesSkip.toNat + 1 + 2 * config.numCyclesCount.toNat < 2 ^ 31) :
    let engine := MrftEngine.new .machine config direction beta initial startTime
    let n := config.numCyclesCount.toNat
    (∀ i j, CompletesAt .machine engine ticks i → CompletesAt .machine engine ticks j → i = j) ∧
    (∀ i j, CompletesAt .machine engine ticks i → i < j →
      engine.actionsAt .machine ticks j = []) ∧
    ∀ i peaks troughs switchTimes mvSignInit,
      Action.complete peaks troughs switchTimes mvSignInit ∈ engine.actionsAt .machine ticks i →
      switchTimes.length = 2 * n + 1 ∧
      (mvSignInit * direction.actionMultiplier = 1 →
        peaks.length = n + 1 ∧ troughs.length = n) ∧
      (¬mvSignInit * direction.actionMultiplier = 1 →
        peaks.length = n ∧ troughs.length = n + 1) ∧
      ∀ pvRange, ∃ oscillation,
        measureOscillation peaks troughs switchTimes mvSignInit direction config pvRange
          = .ok oscillation := by
  intro engine n
  have hlater : ∀ i j, CompletesAt .machine engine ticks i → i < j →
      engine.actionsAt .machine ticks j = [] :=
    fun i j h hij => actionsAt_of_completesAt h hij
  refine ⟨?_, hlater, ?_⟩
  · intro i j hi hj
    rcases Nat.lt_trichotomy i j with hij | heq | hji
    · obtain ⟨p, t, s, m, hmem⟩ := hj
      rw [hlater i j hi hij] at hmem
      exact absurd hmem List.not_mem_nil
    · exact heq
    · obtain ⟨p, t, s, m, hmem⟩ := hi
      rw [hlater j i hj hji] at hmem
      exact absurd hmem List.not_mem_nil
  · intro i peaks troughs switchTimes mvSignInit hmem
    obtain ⟨hlength, hpeak, htrough⟩ := complete_lengths_run (Or.inr hfit) hmem
    refine ⟨hlength.trans (by rw [Nat.mul_comm]), hpeak, htrough, ?_⟩
    intro pvRange
    have hmeasured := measureOscillation_ok hcount hlength hpeak htrough pvRange
    exact ⟨_, hmeasured⟩

/-- The default flow loop completes on its seventh switch, with five switch times. -/
theorem complete_once_and_measurable_flow :
    ∃ peaks troughs switchTimes mvSignInit,
      Action.complete peaks troughs switchTimes mvSignInit ∈
        (MrftEngine.new .machine flowLoopConfig .reverse (f32 0.433) midRangeReadings 0).actionsAt
          .machine swingingTicks 6 ∧
      switchTimes.length = 5 := by
  have hmem : Action.complete [55, 55, 55] [45, 45]
      [seconds 8, seconds 12, seconds 16, seconds 20, seconds 24] 1 ∈
        (MrftEngine.new .machine flowLoopConfig .reverse (f32 0.433) midRangeReadings 0).actionsAt
          .machine swingingTicks 6 := by decide +kernel
  refine ⟨_, _, _, _, hmem, ?_⟩
  exact ((complete_once_and_measurable flowLoopConfig .reverse (f32 0.433) midRangeReadings 0
    swingingTicks (by decide) (by decide)).2.2 6 _ _ _ _ hmem).1

end Bhtune
