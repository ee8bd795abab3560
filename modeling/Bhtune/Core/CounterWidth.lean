import Bhtune.Core.RelayWrites
import Mathlib.Data.Nat.Count

/-!
# When the 32-bit counters are exact

`LoopConfig::validate` bounds neither cycle count, and a release build wraps silently.

* `WordsExact` — every operation the engine can evaluate in a state has its mathematical value;
* `count_writes_eq` — the switch counter counts the writes of the run;
* `countersExact_iff` — the exact bound on the two counts below which no run wraps.
-/

namespace Bhtune

open BinaryFloat MachineInt MrftEngine

variable {K : Type*} [Field K] [LinearOrder K]

namespace MrftEngine

/-- Every 32-bit operation of the engine in this state has its mathematical value: those of
`is_complete`, `perform_switch`, `cycles_completed` and `cycles_remaining`, in this order. -/
structure WordsExact (e : MrftEngine K) : Prop where
  countTwice : IntArith.machine.u32 (e.numCyclesCount * 2) = e.numCyclesCount * 2
  threshold : IntArith.machine.u32 (e.numSwitchesSkip + e.numCyclesCount * 2)
    = e.numSwitchesSkip + e.numCyclesCount * 2
  nextCounter : e.completed = false →
    IntArith.machine.u32 (e.counterAllSwitches + 1) = e.counterAllSwitches + 1
  counterCast : IntArith.machine.i32 e.counterAllSwitches = e.counterAllSwitches
  completedSub : IntArith.machine.i32 ((e.counterAllSwitches : ℤ) - 1) = e.counterAllSwitches - 1
  skipCast : IntArith.machine.i32 e.numSwitchesSkip = e.numSwitchesSkip
  countCast : IntArith.machine.i32 e.numCyclesCount = e.numCyclesCount
  countTwiceSigned : IntArith.machine.i32 ((e.numCyclesCount : ℤ) * 2) = e.numCyclesCount * 2
  sum : IntArith.machine.i32 ((e.numSwitchesSkip : ℤ) + e.numCyclesCount * 2)
    = e.numSwitchesSkip + e.numCyclesCount * 2
  difference : IntArith.machine.i32 ((e.numSwitchesSkip : ℤ) + e.numCyclesCount * 2
    - e.counterAllSwitches) = e.numSwitchesSkip + e.numCyclesCount * 2 - e.counterAllSwitches
  successor : IntArith.machine.i32 ((e.numSwitchesSkip : ℤ) + e.numCyclesCount * 2
      - e.counterAllSwitches + 1)
    = e.numSwitchesSkip + e.numCyclesCount * 2 - e.counterAllSwitches + 1

omit [Field K] [LinearOrder K] in
/-- Below `i32::MAX` switches nothing wraps in any state a run can be in. -/
theorem WordsExact.of_lt {e : MrftEngine K} (hlt : e.totalSwitches + 1 < 2 ^ 31)
    (hle : e.counterAllSwitches ≤ e.totalSwitches) : WordsExact e := by
  rw [totalSwitches] at hlt hle
  constructor
  · exact IntArith.u32_eq (by omega)
  · exact IntArith.u32_eq (by omega)
  · intro _
    exact IntArith.u32_eq (by omega)
  all_goals exact IntArith.i32_eq (by omega) (by omega)

/-- The number of writes among the first `n` ticks. -/
def writesBefore (ar : IntArith) (e : MrftEngine K) (ticks : ℕ → Tick K) (n : ℕ) : ℕ :=
  Nat.count (fun k => (e.actionsAt ar ticks k).any Action.isWrite = true) n

variable {ar : IntArith} {e : MrftEngine K} {ticks : ℕ → Tick K}

theorem any_isWrite_iff (i : ℕ) :
    (e.actionsAt ar ticks i).any Action.isWrite = true ↔ ∃ v, WritesAt ar e ticks i v := by
  rw [List.any_eq_true]
  constructor
  · rintro ⟨action, hmem, hwrite⟩
    cases action with
    | writeMv v => exact ⟨v, hmem⟩
    | complete peaks troughs switchTimes mvSignInit => exact Bool.noConfusion hwrite
  · rintro ⟨v, hmem⟩
    exact ⟨_, hmem, rfl⟩

variable [IsStrictOrderedRing K]

/-- A step that writes adds one to the counter. -/
theorem counter_of_write (h : RelayInv e) (hfit : CountersFit ar e) {i : ℕ} {v : K}
    (hw : WritesAt ar e ticks i v) :
    (e.stateAfter ar ticks (i + 1)).counterAllSwitches
      = (e.stateAfter ar ticks i).counterAllSwitches + 1 := by
  obtain ⟨hinv, hfit'⟩ := h.stateAfter hfit ticks i
  obtain ⟨_, hcase⟩ := write_mem_step hinv hfit' (running_of_mem hw) hw
  rw [stateAfter_succ]
  rcases hcase with ⟨_, _, hstate, _⟩ | ⟨_, _, hstate⟩
  · rw [hstate, counterAllSwitches_switchedTo]
  · rw [hstate, counterAllSwitches_finishedBy]

/-- **The counter counts the writes.** -/
theorem count_writes_eq (h : RelayInv e) (hfit : CountersFit ar e)
    (hzero : e.counterAllSwitches = 0) (n : ℕ) :
    writesBefore ar e ticks n = (e.stateAfter ar ticks n).counterAllSwitches := by
  induction n with
  | zero => exact (Nat.count_zero _).trans hzero.symm
  | succ n ih =>
    rw [writesBefore, Nat.count_succ, ← writesBefore, ih]
    by_cases hw : (e.actionsAt ar ticks n).any Action.isWrite = true
    · obtain ⟨v, hv⟩ := (any_isWrite_iff n).mp hw
      rw [if_pos hw, counter_of_write h hfit hv]
    · obtain ⟨hinv, hfit'⟩ := h.stateAfter hfit ticks n
      have hnone : ∀ v, ¬WritesAt ar e ticks n v := fun v hv => hw ((any_isWrite_iff n).mpr ⟨v, hv⟩)
      rw [if_neg hw, stateAfter_succ, (mvValueCurrent_of_no_write (ticks n) hinv hfit' hnone).2,
        Nat.add_zero]

end MrftEngine

/-- The counters of every run of a configuration are exact: construction and every operation of
every state have their mathematical values, a run completes exactly on switch number
`2 * skip + 1 + 2 * count`, and the MV goes back to its initial value on that switch only. -/
def CountersExact (config : LoopConfig K) : Prop :=
  IntArith.machine.u32 (config.numCyclesSkip.toNat * 2) = config.numCyclesSkip.toNat * 2 ∧
  IntArith.machine.u32 (config.numCyclesSkip.toNat * 2 + 1) = config.numCyclesSkip.toNat * 2 + 1 ∧
  ∀ (direction : ControllerDirection) (beta : K) (initial : InitialReadings K)
    (startTime : UtcTime) (ticks : ℕ → Tick K),
    let engine := MrftEngine.new .machine config direction beta initial startTime
    (∀ i, WordsExact (engine.stateAfter .machine ticks i)) ∧
    (∀ i, CompletesAt .machine engine ticks i ↔
      (∃ v, WritesAt .machine engine ticks i v) ∧
        writesBefore .machine engine ticks (i + 1)
          = 2 * config.numCyclesSkip.toNat + 1 + 2 * config.numCyclesCount.toNat) ∧
    ∀ i, WritesAt .machine engine ticks i initial.mvIni → CompletesAt .machine engine ticks i

variable [IsStrictOrderedRing K]

/-- Below the bound, a run completes on switch number `2 * skip + 1 + 2 * count`. -/
theorem completesAt_iff_last_switch {config : LoopConfig K} {direction : ControllerDirection}
    {beta : K} {initial : InitialReadings K} {startTime : UtcTime} {ticks : ℕ → Tick K}
    (hfit : 2 * config.numCyclesSkip.toNat + 1 + 2 * config.numCyclesCount.toNat < 2 ^ 31)
    (i : ℕ) :
    let engine := MrftEngine.new .machine config direction beta initial startTime
    CompletesAt .machine engine ticks i ↔
      (∃ v, WritesAt .machine engine ticks i v) ∧
        writesBefore .machine engine ticks (i + 1)
          = 2 * config.numCyclesSkip.toNat + 1 + 2 * config.numCyclesCount.toNat := by
  intro engine
  have hinv : RelayInv engine := RelayInv.new (Or.inr hfit)
  obtain ⟨hskip, hcount, hcounters⟩ :=
    new_counters .machine config direction beta initial startTime (Or.inr hfit)
  have htotal : engine.totalSwitches
      = 2 * config.numCyclesSkip.toNat + 1 + 2 * config.numCyclesCount.toNat := by
    rw [totalSwitches, hskip, hcount]
  obtain ⟨hinv', _⟩ := hinv.stateAfter hcounters ticks (i + 1)
  have htotal' : (engine.stateAfter .machine ticks (i + 1)).totalSwitches
      = engine.totalSwitches := totalSwitches_of_setup (setup_stateAfter ticks (i + 1))
  have hdone_iff : (engine.stateAfter .machine ticks (i + 1)).completed = true ↔
      writesBefore .machine engine ticks (i + 1)
        = 2 * config.numCyclesSkip.toNat + 1 + 2 * config.numCyclesCount.toNat := by
    rw [count_writes_eq hinv hcounters rfl, hinv'.completed_iff, htotal', htotal]
  constructor
  · intro hdone
    refine ⟨?_, hdone_iff.mp (completed_of_completesAt hdone (Nat.lt_succ_self i))⟩
    obtain ⟨peaks, troughs, switchTimes, mvSignInit, hmem⟩ := hdone
    obtain ⟨hinvi, hfiti⟩ := hinv.stateAfter hcounters ticks i
    have hactions := (complete_mem_step hinvi hfiti (running_of_mem hmem) hmem).2.2.1
    refine ⟨(engine.stateAfter .machine ticks i).mvValueIni, ?_⟩
    show _ ∈ ((engine.stateAfter .machine ticks i).step .machine (ticks i)).2
    rw [hactions]
    exact List.mem_cons_self
  · rintro ⟨⟨v, hw⟩, hnumber⟩
    exact (complete_mem_step_iff (running_of_mem hw)).mpr (hdone_iff.mpr hnumber)

/-- **The bound.**  No run of a configuration wraps exactly when `2 * skip + 1 + 2 * count` is
below `i32::MAX`; the one operation that needs the last unit is the sum of `cycles_remaining`
before the first switch. -/
theorem countersExact_iff (config : LoopConfig K) :
    CountersExact config ↔
      2 * config.numCyclesSkip.toNat + 1 + 2 * config.numCyclesCount.toNat + 1 < 2 ^ 31 := by
  constructor
  · rintro ⟨htwice, hskip, hruns⟩
    let engine := MrftEngine.new .machine config .direct (0 : K) ⟨0, 0, 0, 0⟩ 0
    have hwords : WordsExact engine := (hruns .direct 0 ⟨0, 0, 0, 0⟩ 0 fun _ => ⟨0, 0⟩).1 0
    have hlt := IntArith.i32_machine_lt ((engine.numSwitchesSkip : ℤ)
      + engine.numCyclesCount * 2 - engine.counterAllSwitches + 1)
    rw [hwords.successor] at hlt
    have hS : engine.numSwitchesSkip = config.numCyclesSkip.toNat * 2 + 1 := by
      show IntArith.machine.u32 (IntArith.machine.u32 (config.numCyclesSkip.toNat * 2) + 1) = _
      rw [htwice, hskip]
    have hn : engine.numCyclesCount = config.numCyclesCount.toNat := rfl
    have hzero : engine.counterAllSwitches = 0 := rfl
    rw [hS, hn, hzero] at hlt
    omega
  · intro hlt
    have hfit : 2 * config.numCyclesSkip.toNat + 1 + 2 * config.numCyclesCount.toNat < 2 ^ 31 :=
      Nat.lt_of_succ_lt hlt
    refine ⟨IntArith.u32_eq (by omega), IntArith.u32_eq (by omega), ?_⟩
    intro direction beta initial startTime ticks engine
    have hinv : RelayInv engine := RelayInv.new (Or.inr hfit)
    obtain ⟨hskip, hcount, hcounters⟩ :=
      new_counters .machine config direction beta initial startTime (Or.inr hfit)
    refine ⟨?_, completesAt_iff_last_switch hfit, ?_⟩
    · intro i
      obtain ⟨hinv', _⟩ := hinv.stateAfter hcounters ticks i
      have htotal : (engine.stateAfter .machine ticks i).totalSwitches
          = 2 * config.numCyclesSkip.toNat + 1 + 2 * config.numCyclesCount.toNat := by
        rw [totalSwitches_of_setup (setup_stateAfter ticks i), totalSwitches, hskip, hcount]
      exact WordsExact.of_lt (by rw [htotal]; exact hlt) hinv'.counter_le
    · intro i hw
      rcases writesAt_cases hinv hcounters hw with ⟨hdone, _⟩ | ⟨_, hne, _⟩
      · exact hdone
      · exact absurd rfl hne

/-- The default flow loop is far below the bound. -/
theorem countersExact_flow : CountersExact flowLoopConfig :=
  (countersExact_iff flowLoopConfig).mpr (by decide)

/-- A configuration `validate` accepts although twice its cycle count is `0` in an `u32`. -/
def wrappingConfig : LoopConfig ℚ := { flowLoopConfig with
  numCyclesSkip := 0
  numCyclesCount := 2147483648 }

/-- The wrapping configuration completes on its first switch, and the measurement panics. -/
theorem countersExact_wrapping :
    wrappingConfig.validate = .ok () ∧ ¬CountersExact wrappingConfig ∧
      Action.complete [50] [] [seconds 0] 1 ∈
        (MrftEngine.new .machine wrappingConfig .reverse (f32 0.433) midRangeReadings 0).actionsAt
          .machine swingingTicks 0 ∧
      measureOscillation [50] [] [seconds 0] 1 .reverse wrappingConfig ⟨100, 0⟩
        = .error (.fewSwitchTimes 1) := by
  refine ⟨by decide +kernel, ?_, by decide +kernel, by decide⟩
  rintro ⟨_, _, hruns⟩
  have hwords := (hruns .reverse (f32 0.433) midRangeReadings 0 swingingTicks).1 0
  have hcount := hwords.countTwice
  revert hcount
  decide

end Bhtune
