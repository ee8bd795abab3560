import Bhtune.Core.ExtremaWindows
import Mathlib.Data.List.Pairwise

/-!
# The time between two switches

The gate of `switch_is_needed` compares the tick time with the time of the previous switch, which
is seeded from outside and overwritten by tick times, and it stands open for the first switch.
The tick times are arbitrary here: equal, decreasing, with gaps of any size.

* `switch_gap` — neighbouring switches are `noise_protection_secs` apart;
* `isChain_switchTimes` — so are the neighbours on record;
* `noise_protection` — both for every run, and what they say about the measured period.
-/

namespace Bhtune

open BinaryFloat MachineInt Marks

variable {K : Type*} [Field K] [LinearOrder K]

namespace MrftEngine

variable {ar : IntArith} {e : MrftEngine K} {ticks : ℕ → Tick K}

/-- The gate remembers the tick time of the last switch. -/
theorem timePreviousSwitch_of_quiet {i n : ℕ} (hin : i < n)
    (hi : e.switchesAt ar ticks i = true) (hquiet : Quiet (e.switchesAt ar ticks) (i + 1) n) :
    (e.stateAfter ar ticks n).timePreviousSwitch = (ticks i).time := by
  induction n, hin using Nat.le_induction with
  | base =>
    have hc : (e.stateAfter ar ticks i).completed = false := by
      by_contra hdone
      have hnone := switchesAt_of_completed (by simpa using hdone)
      simp [hi] at hnone
    rw [stateAfter_succ_of_switch hc hi]
    rfl
  | succ n hin ih =>
    obtain ⟨hbefore, hn⟩ := (quiet_succ hin).mp hquiet
    by_cases hc : (e.stateAfter ar ticks n).completed = true
    · rw [stateAfter_succ_of_completed hc]
      exact ih hbefore
    · rw [stateAfter_succ_of_hold (by simpa using hc) hn]
      exact ih hbefore

theorem writesBefore_pos {i n : ℕ} (hin : i < n) (hi : e.switchesAt ar ticks i = true) :
    0 < e.writesBefore ar ticks n := by
  have hfirst : 0 < e.writesBefore ar ticks (i + 1) := by
    rw [writesBefore_succ_of_switch hi]
    omega
  exact Nat.lt_of_lt_of_le hfirst (Nat.count_monotone _ hin)

/-- **Neighbouring switches are `noise_protection_secs` apart.** -/
theorem switch_gap (hzero : e.counterAllSwitches = 0) {i j : ℕ} (hij : i < j)
    (hi : e.switchesAt ar ticks i = true) (hj : e.switchesAt ar ticks j = true)
    (hquiet : Quiet (e.switchesAt ar ticks) (i + 1) j) :
    (ticks i).time + seconds e.noiseProtectionSecs ≤ (ticks j).time := by
  have hc : (e.stateAfter ar ticks j).completed = false := by
    by_contra hdone
    have hnone := switchesAt_of_completed (by simpa using hdone)
    simp [hj] at hnone
  have hsecs : ((e.stateAfter ar ticks j).observe (ticks j)).noiseProtectionSecs
      = e.noiseProtectionSecs := congrArg Setup.noiseProtectionSecs (setup_stateAfter ticks j)
  have hcounter : (e.stateAfter ar ticks j).counterAllSwitches ≠ 0 := by
    rw [← (counterInv hzero ticks j).count]
    exact (writesBefore_pos hij hi).ne'
  have hrequired := (switchesAt_eq hc).symm.trans hj
  simp only [switchRequired, Bool.and_eq_true, Bool.or_eq_true, decide_eq_true_eq] at hrequired
  rcases hrequired.2 with hgate | hfirst
  · rw [hsecs] at hgate
    rw [← timePreviousSwitch_of_quiet hij hi hquiet]
    exact hgate
  · exact absurd hfirst hcounter

/-- Between two neighbours on record there is no switch that is not on record. -/
theorem quiet_switches_of_recorded {threshold i j : ℕ}
    (hi : e.recordedAt ar threshold ticks i = true)
    (hquiet : Quiet (e.recordedAt ar threshold ticks) (i + 1) j) :
    Quiet (e.switchesAt ar ticks) (i + 1) j := by
  intro k hik hkj
  by_contra hswitch
  have hnone := hquiet k hik hkj
  have hindex : threshold ≤ e.writesBefore ar ticks (i + 1) := by
    simp only [recordedAt, Bool.and_eq_true, decide_eq_true_eq] at hi
    exact hi.2
  have hmore : threshold ≤ e.writesBefore ar ticks (k + 1) :=
    hindex.trans (Nat.count_monotone _ (by omega))
  have hk : e.switchesAt ar ticks k = true := by simpa using hswitch
  simp [recordedAt, hk, hmore] at hnone

theorem switchesAt_of_recordedAt {threshold i : ℕ}
    (hi : e.recordedAt ar threshold ticks i = true) : e.switchesAt ar ticks i = true := by
  simp only [recordedAt, Bool.and_eq_true] at hi
  exact hi.1

/-- **Neighbours on record are `noise_protection_secs` apart.** -/
theorem isChain_switchTimes [IsStrictOrderedRing K] (hfresh : Fresh e) (ticks : ℕ → Tick K)
    (n : ℕ) :
    (e.stateAfter ar ticks n).switchTimes.IsChain
      fun s t => s + seconds e.noiseProtectionSecs ≤ t := by
  rw [(recordsSound hfresh ticks n).times, List.isChain_map]
  exact isChain_marked (fun i j hij hi hj hquiet =>
    switch_gap hfresh.counter hij (switchesAt_of_recordedAt hi) (switchesAt_of_recordedAt hj)
      (quiet_switches_of_recorded hi hquiet)) n

/-- A completion reports the switch times on record after its step. -/
theorem switchTimes_of_complete_mem {tick : Tick K} {peaks troughs : List K}
    {switchTimes : List UtcTime} {mvSignInit : ℤ} (hc : e.completed = false)
    (hmem : Action.complete peaks troughs switchTimes mvSignInit ∈ (e.step ar tick).2) :
    switchTimes = (e.step ar tick).1.switchTimes := by
  have hfinish : ∀ (s : MrftEngine K) (writes : List (Action K)),
      Action.complete peaks troughs switchTimes mvSignInit ∈ (finishStep ar s writes).2 →
      Action.complete peaks troughs switchTimes mvSignInit ∉ writes →
      switchTimes = (finishStep ar s writes).1.switchTimes := by
    intro s writes hin hout
    rw [finishStep_eq]
    unfold finishStep at hin
    split at hin
    · rcases List.mem_append.mp hin with hwrite | hlast
      · exact absurd hwrite hout
      · injection List.mem_singleton.mp hlast
    · exact absurd hin hout
  by_cases hs : (e.observe tick).switchRequired tick = true
  · rw [step_of_switch hc hs] at hmem ⊢
    exact hfinish _ _ hmem (by simp)
  · rw [step_of_no_switch hc (by simpa using hs)] at hmem ⊢
    exact hfinish _ _ hmem (by simp)

end MrftEngine

/-- A measurement that succeeds has `2 * count + 1` switch times. -/
theorem length_of_measured {peaks troughs : List K} {switchTimes : List UtcTime} {mvSignInit : ℤ}
    {direction : ControllerDirection} {config : LoopConfig K} {pvRange : PvRange K}
    {oscillation : Oscillation K}
    (h : measureOscillation peaks troughs switchTimes mvSignInit direction config pvRange
      = .ok oscillation) :
    switchTimes.length = config.numCyclesCount.toNat * 2 + 1 := by
  simp only [measureOscillation] at h
  split_ifs at h with hfew hlength
  exact not_not.mp hlength

/-- The period of a measurement is its elapsed time over the number of counted cycles. -/
theorem period_of_measured {peaks troughs : List K} {switchTimes : List UtcTime} {mvSignInit : ℤ}
    {direction : ControllerDirection} {config : LoopConfig K} {pvRange : PvRange K}
    {oscillation : Oscillation K}
    (h : measureOscillation peaks troughs switchTimes mvSignInit direction config pvRange
      = .ok oscillation) :
    oscillation.periodMinutes = XNum.fin
      ((elapsedMilliseconds (switchTimes.headD 0) (switchTimes.getLastD 0) : K) / 1000 / 60)
        / XNum.fin (config.numCyclesCount.toNat : K) := by
  have hlength := length_of_measured h
  have hne : switchTimes ≠ [] := by
    intro hnil
    rw [hnil] at hlength
    simp at hlength
  obtain ⟨first, rest, rfl⟩ := List.exists_cons_of_ne_nil hne
  simp only [measureOscillation] at h
  split_ifs at h with hfew
  cases hsums : extremaSums peaks troughs (decide (mvSignInit * direction.actionMultiplier = 1))
    config.numCyclesCount.toNat with
  | error panic =>
    rw [hsums] at h
    cases h
  | ok sums =>
    rw [hsums, List.head?_cons] at h
    simp only [List.getLast?_cons, Except.ok.injEq] at h
    rw [← h, List.headD_cons, List.getLastD_eq_getLast?, List.getLast?_cons, Option.getD_some]
    rfl

/-- Whole seconds between two times are that many thousands of milliseconds. -/
theorem le_elapsedMilliseconds {first last : ℤ} {secs : ℕ}
    (h : first + seconds secs ≤ last) : secs * 1000 ≤ elapsedMilliseconds first last := by
  rw [seconds] at h
  rw [elapsedMilliseconds, Int.tdiv_eq_ediv_of_nonneg (by omega)]
  omega

/-- Times that are `noise` seconds apart from neighbour to neighbour. -/
theorem le_elapsed_of_isChain {times : List UtcTime} {noise n : ℕ}
    (hchain : times.IsChain fun s t => s + seconds noise ≤ t) (hlength : times.length = n * 2 + 1) :
    (2 * n * noise : ℕ) * 1000 ≤ elapsedMilliseconds (times.headD 0) (times.getLastD 0) := by
  have hne : times ≠ [] := by
    intro hnil
    rw [hnil] at hlength
    simp at hlength
  have hspan := headD_add_mul_le_getLastD hchain hne
  apply le_elapsedMilliseconds
  have hsecs : seconds ((2 * n * noise : ℕ) : ℤ) = ((times.length : ℤ) - 1) * seconds noise := by
    rw [hlength, seconds, seconds]
    push_cast
    ring
  rw [hsecs]
  exact hspan

open MrftEngine

variable [IsStrictOrderedRing K]

/-- **Noise protection of every run**, for arbitrary tick times: neighbouring switches are
`noise_protection_secs` apart, the times on record never decrease, and at a completion the
elapsed time a period is computed from covers `2 * num_cycles_count` such gaps. -/
theorem noise_protection (ar : IntArith) (config : LoopConfig K) (direction : ControllerDirection)
    (beta : K) (initial : InitialReadings K) (startTime : UtcTime) (ticks : ℕ → Tick K) :
    let engine := MrftEngine.new ar config direction beta initial startTime
    let noise := config.noiseProtectionSecs.toNat
    let n := config.numCyclesCount.toNat
    (∀ i j, i < j → engine.switchesAt ar ticks i = true → engine.switchesAt ar ticks j = true →
      Quiet (engine.switchesAt ar ticks) (i + 1) j →
      (ticks i).time + seconds noise ≤ (ticks j).time) ∧
    (∀ i, (engine.stateAfter ar ticks i).switchTimes.Pairwise (· ≤ ·)) ∧
    ∀ i peaks troughs switchTimes mvSignInit,
      Action.complete peaks troughs switchTimes mvSignInit ∈ engine.actionsAt ar ticks i →
      let elapsed := elapsedMilliseconds (switchTimes.headD 0) (switchTimes.getLastD 0)
      (∀ pvRange oscillation,
        measureOscillation peaks troughs switchTimes mvSignInit direction config pvRange
          = .ok oscillation →
        oscillation.periodMinutes
            = XNum.fin ((elapsed : K) / 1000 / 60) / XNum.fin (n : K) ∧
          (2 * n * noise : ℕ) * 1000 ≤ elapsed) ∧
      ((ar = .exact ∨ 2 * config.numCyclesSkip.toNat + 1 + 2 * n < 2 ^ 31) →
        (2 * n * noise : ℕ) * 1000 ≤ elapsed) := by
  intro engine noise n
  have hfresh : Fresh engine := fresh_new config direction beta initial startTime
  have hchain : ∀ i, (engine.stateAfter ar ticks i).switchTimes.IsChain
      fun s t => s + seconds noise ≤ t := fun i => isChain_switchTimes hfresh ticks i
  refine ⟨?_, ?_, ?_⟩
  · intro i j hij hi hj hquiet
    exact switch_gap hfresh.counter hij hi hj hquiet
  · intro i
    have hle : (engine.stateAfter ar ticks i).switchTimes.IsChain (· ≤ ·) := by
      refine (hchain i).imp ?_
      intro s t hst
      have hnonneg : (0 : ℤ) ≤ seconds noise := by
        rw [seconds]
        omega
      exact (Int.le_add_of_nonneg_right hnonneg).trans hst
    exact hle.pairwise
  · intro i peaks troughs switchTimes mvSignInit hmem elapsed
    have htimes : switchTimes.IsChain fun s t => s + seconds noise ≤ t := by
      rw [switchTimes_of_complete_mem (running_of_mem hmem) hmem]
      exact hchain (i + 1)
    constructor
    · intro pvRange oscillation hmeasured
      exact ⟨period_of_measured hmeasured,
        le_elapsed_of_isChain htimes (length_of_measured hmeasured)⟩
    · intro hfit
      exact le_elapsed_of_isChain htimes (complete_lengths_run hfit hmem).1

/-- The five switch times of the default flow loop span four times its three seconds. -/
theorem noise_protection_flow :
    (2 * 2 * flowLoopConfig.noiseProtectionSecs.toNat : ℕ) * 1000
      ≤ elapsedMilliseconds (seconds 8) (seconds 24) := by
  have hmem : Action.complete [55, 55, 55] [45, 45]
      [seconds 8, seconds 12, seconds 16, seconds 20, seconds 24] 1 ∈
        (MrftEngine.new .machine flowLoopConfig .reverse (f32 0.433) midRangeReadings 0).actionsAt
          .machine swingingTicks 6 := by decide +kernel
  exact ((noise_protection .machine flowLoopConfig .reverse (f32 0.433) midRangeReadings 0
    swingingTicks).2.2 6 _ _ _ _ hmem).2 (Or.inr (by decide))

end Bhtune
