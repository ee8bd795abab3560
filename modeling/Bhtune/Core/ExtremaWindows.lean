import Bhtune.Core.CounterWidth
import Bhtune.Library.Marks
import Mathlib.Order.Bounds.Basic
import Mathlib.Algebra.Order.Group.Abs
import Mathlib.Algebra.Order.Group.MinMax

/-!
# Which samples an extremum is taken over

The engine keeps two pairs of trackers.  The result trackers are reset to the PV of the switch,
the hysteresis trackers to `pv_ini`; both are updated before the decision and reset after it.
Here every tracker is identified with a window of the tick history, in machine words and without
an assumption on the counters.

* `switchesAt` / `recordedAt` — the switches of a run, and those that go on record;
* `resultWindow` / `deviationWindow` — the samples a tick's extrema and hysteresis are about;
* `TrackInv` — what the trackers hold before each tick of a run;
* `bookkeeping_sound` — every entry on record is the extremum of its window.
-/

namespace Bhtune

open BinaryFloat MachineInt Marks

variable {K : Type*} [Field K] [LinearOrder K]

namespace MrftEngine

/-! ### One step, whatever the counters do -/

variable {ar : IntArith} {e : MrftEngine K} {tick : Tick K}

omit [Field K] [LinearOrder K] in
theorem finishStep_eq (s : MrftEngine K) (writes : List (Action K)) :
    (finishStep ar s writes).1 = { s with completed := s.isComplete ar || s.completed } := by
  unfold finishStep
  by_cases h : s.isComplete ar = true
  · simp [h]
  · have h' : s.isComplete ar = false := by simpa using h
    simp [h']

omit [Field K] [LinearOrder K] in
theorem any_isWrite_finishStep (s : MrftEngine K) (writes : List (Action K)) :
    (finishStep ar s writes).2.any Action.isWrite = writes.any Action.isWrite := by
  unfold finishStep
  split
  · simp [completeAction, Action.isWrite]
  · rfl

/-- A step writes exactly when a running engine finds a switch required. -/
theorem any_isWrite_step (hc : e.completed = false) :
    (e.step ar tick).2.any Action.isWrite = (e.observe tick).switchRequired tick := by
  by_cases hs : (e.observe tick).switchRequired tick = true
  · rw [step_of_switch hc hs, any_isWrite_finishStep, hs]
    rfl
  · have hs' : (e.observe tick).switchRequired tick = false := by simpa using hs
    rw [step_of_no_switch hc hs', any_isWrite_finishStep, hs']
    rfl

/-- The counter can be counted up without wrapping for as long as the engine runs. -/
def CounterRoom (ar : IntArith) (e : MrftEngine K) : Prop :=
  ar = .exact ∨ e.counterAllSwitches + 1 < 2 ^ 32

omit [Field K] [LinearOrder K] in
theorem CounterRoom.u32_succ (h : CounterRoom ar e) :
    ar.u32 (e.counterAllSwitches + 1) = e.counterAllSwitches + 1 := by
  rcases h with rfl | hlt
  · rfl
  · exact IntArith.u32_eq hlt

omit [Field K] [LinearOrder K] in
/-- A test that is not complete has not reached its threshold, which is a word. -/
theorem CounterRoom.of_not_isComplete (h : e.isComplete ar = false) : CounterRoom ar e := by
  cases ar with
  | exact => exact Or.inl rfl
  | machine =>
    right
    have hlt : e.counterAllSwitches
        < IntArith.machine.u32 (e.numSwitchesSkip + IntArith.machine.u32 (e.numCyclesCount * 2)) := by
      simpa [isComplete] using h
    have hword := IntArith.u32_machine_lt
      (e.numSwitchesSkip + IntArith.machine.u32 (e.numCyclesCount * 2))
    omega

/-! ### The switches of a run -/

variable (ar e)

/-- Whether the `i`-th tick makes a switch. -/
def switchesAt (ticks : ℕ → Tick K) (i : ℕ) : Bool :=
  (e.actionsAt ar ticks i).any Action.isWrite

/-- Whether the `i`-th tick makes a switch whose index is at least `threshold`. -/
def recordedAt (threshold : ℕ) (ticks : ℕ → Tick K) (i : ℕ) : Bool :=
  e.switchesAt ar ticks i && decide (threshold ≤ e.writesBefore ar ticks (i + 1))

/-- Whether the sign that the `i`-th tick leaves makes its extremum a peak. -/
def isPeakAt (ticks : ℕ → Tick K) (i : ℕ) : Bool :=
  decide ((e.stateAfter ar ticks (i + 1)).mvSignNextStep * e.actionMultiplier = 1)

/-- The PVs from the previous switch's tick through tick `i`; before the first switch, `pv_ini`
and all PVs so far. -/
def resultWindow (ticks : ℕ → Tick K) (i : ℕ) : Set K :=
  {x | (x = e.pvValueIni ∧ Quiet (e.switchesAt ar ticks) 0 i) ∨
    ∃ k ≤ i, x = (ticks k).pv ∧ Quiet (e.switchesAt ar ticks) (k + 1) i}

/-- The deviations from `pv_ini` on the ticks after the previous switch, up to tick `i`. -/
def deviationWindow (ticks : ℕ → Tick K) (i : ℕ) : Set K :=
  {x | ∃ k ≤ i, x = |(ticks k).pv - e.pvValueIni| ∧ Quiet (e.switchesAt ar ticks) k i}

/-- The PVs the result trackers have seen before tick `n`. -/
def heldPvs (ticks : ℕ → Tick K) (n : ℕ) : Set K :=
  {x | x = e.pvValueIni ∧ Quiet (e.switchesAt ar ticks) 0 n} ∪
    (fun k => (ticks k).pv) '' fromMark (e.switchesAt ar ticks) n

/-- The deviations the hysteresis trackers have seen before tick `n`. -/
def heldDeviations (ticks : ℕ → Tick K) (n : ℕ) : Set K :=
  (fun k => |(ticks k).pv - e.pvValueIni|) '' afterMark (e.switchesAt ar ticks) n

variable {ar e} {ticks : ℕ → Tick K} {n : ℕ}

theorem resultWindow_eq (i : ℕ) :
    e.resultWindow ar ticks i = insert (ticks i).pv (e.heldPvs ar ticks i) := by
  ext x
  simp only [resultWindow, heldPvs, fromMark, Set.mem_ofPred_eq, Set.mem_insert_iff, Set.mem_union,
    Set.mem_image]
  constructor
  · rintro (hini | ⟨k, hk, hx, hquiet⟩)
    · exact Or.inr (Or.inl hini)
    · by_cases hki : k = i
      · left
        rw [hx, hki]
      · exact Or.inr (Or.inr ⟨k, ⟨by omega, hquiet⟩, hx.symm⟩)
  · rintro (hx | hini | ⟨k, ⟨hk, hquiet⟩, hx⟩)
    · exact Or.inr ⟨i, le_refl i, hx, quiet_of_le (Nat.le_succ i)⟩
    · exact Or.inl hini
    · exact Or.inr ⟨k, hk.le, hx.symm, hquiet⟩

theorem deviationWindow_eq (i : ℕ) :
    e.deviationWindow ar ticks i
      = insert |(ticks i).pv - e.pvValueIni| (e.heldDeviations ar ticks i) := by
  ext x
  simp only [deviationWindow, heldDeviations, afterMark, Set.mem_ofPred_eq, Set.mem_insert_iff,
    Set.mem_image]
  constructor
  · rintro ⟨k, hk, hx, hquiet⟩
    by_cases hki : k = i
    · left
      rw [hx, hki]
    · exact Or.inr ⟨k, ⟨by omega, hquiet⟩, hx.symm⟩
  · rintro (hx | ⟨k, ⟨hk, hquiet⟩, hx⟩)
    · exact ⟨i, le_refl i, hx, quiet_of_le (le_refl i)⟩
    · exact ⟨k, hk.le, hx.symm, hquiet⟩

/-! ### How the held windows move -/

theorem heldPvs_zero : e.heldPvs ar ticks 0 = {e.pvValueIni} := by
  ext x
  simp [heldPvs, fromMark_zero, quiet_of_le]

theorem heldPvs_succ_of_switch (h : e.switchesAt ar ticks n = true) :
    e.heldPvs ar ticks (n + 1) = {(ticks n).pv} := by
  have hloud : ¬Quiet (e.switchesAt ar ticks) 0 (n + 1) := by
    intro hquiet
    have hn := hquiet n (Nat.zero_le n) (Nat.lt_succ_self n)
    simp [h] at hn
  ext x
  simp [heldPvs, fromMark_succ_of_mark h, hloud]

theorem heldPvs_succ (h : e.switchesAt ar ticks n = false) :
    e.heldPvs ar ticks (n + 1) = insert (ticks n).pv (e.heldPvs ar ticks n) := by
  rw [heldPvs, heldPvs, fromMark_succ h, Set.image_insert_eq, Set.union_insert]
  simp only [quiet_succ (Nat.zero_le n), h, and_true]

theorem heldDeviations_zero : e.heldDeviations ar ticks 0 = ∅ := by
  rw [heldDeviations, afterMark_zero, Set.image_empty]

theorem heldDeviations_succ_of_switch (h : e.switchesAt ar ticks n = true) :
    e.heldDeviations ar ticks (n + 1) = ∅ := by
  rw [heldDeviations, afterMark_succ_of_mark h, Set.image_empty]

theorem heldDeviations_succ (h : e.switchesAt ar ticks n = false) :
    e.heldDeviations ar ticks (n + 1)
      = insert |(ticks n).pv - e.pvValueIni| (e.heldDeviations ar ticks n) := by
  rw [heldDeviations, heldDeviations, afterMark_succ h, Set.image_insert_eq]

/-! ### The steps of a run -/

theorem switchesAt_eq (hc : (e.stateAfter ar ticks n).completed = false) :
    e.switchesAt ar ticks n
      = ((e.stateAfter ar ticks n).observe (ticks n)).switchRequired (ticks n) :=
  any_isWrite_step hc

theorem switchesAt_of_completed (hc : (e.stateAfter ar ticks n).completed = true) :
    e.switchesAt ar ticks n = false := by
  rw [switchesAt, actionsAt_of_completed hc]
  rfl

theorem stateAfter_succ_of_completed (hc : (e.stateAfter ar ticks n).completed = true) :
    e.stateAfter ar ticks (n + 1) = e.stateAfter ar ticks n := by
  rw [stateAfter_succ, step_of_completed hc]

/-- A tick that makes no switch only updates the trackers. -/
theorem stateAfter_succ_of_hold (hc : (e.stateAfter ar ticks n).completed = false)
    (hs : e.switchesAt ar ticks n = false) :
    e.stateAfter ar ticks (n + 1) = { (e.stateAfter ar ticks n).observe (ticks n) with
      completed := ((e.stateAfter ar ticks n).observe (ticks n)).isComplete ar } := by
  rw [switchesAt_eq hc] at hs
  rw [stateAfter_succ, step_of_no_switch hc hs, finishStep_eq]
  have hrun : ((e.stateAfter ar ticks n).observe (ticks n)).completed = false := hc
  rw [hrun, Bool.or_false]

/-- A tick that makes a switch performs it on the updated trackers. -/
theorem stateAfter_succ_of_switch (hc : (e.stateAfter ar ticks n).completed = false)
    (hs : e.switchesAt ar ticks n = true) :
    let switched :=
      (((e.stateAfter ar ticks n).observe (ticks n)).performSwitch ar (ticks n)).1
    e.stateAfter ar ticks (n + 1) = { switched with completed := switched.isComplete ar } := by
  intro switched
  rw [switchesAt_eq hc] at hs
  rw [stateAfter_succ, step_of_switch hc hs, finishStep_eq]
  have hrun : switched.completed = false := hc
  rw [hrun, Bool.or_false]

/-! ### The counter -/

/-- What the counter says before tick `n`, in words that may be about to wrap. -/
structure CounterInv (ar : IntArith) (e : MrftEngine K) (ticks : ℕ → Tick K) (n : ℕ) : Prop where
  count : e.writesBefore ar ticks n = (e.stateAfter ar ticks n).counterAllSwitches
  room : (e.stateAfter ar ticks n).completed = false → CounterRoom ar (e.stateAfter ar ticks n)

theorem writesBefore_succ_of_switch (h : e.switchesAt ar ticks n = true) :
    e.writesBefore ar ticks (n + 1) = e.writesBefore ar ticks n + 1 := by
  have hwrite : (e.actionsAt ar ticks n).any Action.isWrite = true := h
  rw [writesBefore, Nat.count_succ, if_pos hwrite, ← writesBefore]

theorem writesBefore_succ (h : e.switchesAt ar ticks n = false) :
    e.writesBefore ar ticks (n + 1) = e.writesBefore ar ticks n := by
  have hnot : ¬(e.actionsAt ar ticks n).any Action.isWrite = true := by
    show ¬e.switchesAt ar ticks n = true
    simp [h]
  rw [writesBefore, Nat.count_succ, if_neg hnot, ← writesBefore, Nat.add_zero]

theorem CounterInv.succ (h : CounterInv ar e ticks n) : CounterInv ar e ticks (n + 1) := by
  by_cases hc : (e.stateAfter ar ticks n).completed = true
  · have hstate := stateAfter_succ_of_completed hc
    constructor
    · rw [writesBefore_succ (switchesAt_of_completed hc), hstate]
      exact h.count
    · rw [hstate]
      exact h.room
  · have hrun : (e.stateAfter ar ticks n).completed = false := by simpa using hc
    by_cases hs : e.switchesAt ar ticks n = true
    · have hstate := stateAfter_succ_of_switch hrun hs
      constructor
      · rw [writesBefore_succ_of_switch hs, h.count, hstate]
        exact (h.room hrun).u32_succ.symm
      · rw [hstate]
        intro hnot
        exact CounterRoom.of_not_isComplete hnot
    · have hs' : e.switchesAt ar ticks n = false := by simpa using hs
      have hstate := stateAfter_succ_of_hold hrun hs'
      constructor
      · rw [writesBefore_succ hs', h.count, hstate]
        rfl
      · rw [hstate]
        intro hnot
        exact CounterRoom.of_not_isComplete hnot

/-- **The counter counts the switches of every run**, also of one whose threshold wraps. -/
theorem counterInv (hzero : e.counterAllSwitches = 0) (ticks : ℕ → Tick K) (n : ℕ) :
    CounterInv ar e ticks n := by
  induction n with
  | zero =>
    have hstart : (e.stateAfter ar ticks 0).counterAllSwitches = 0 := hzero
    constructor
    · rw [hstart]
      rfl
    · intro _
      right
      rw [hstart]
      decide
  | succ n ih => exact ih.succ

/-! ### The trackers -/

section Trackers

variable [IsStrictOrderedRing K]

/-- The largest deviation from `pv_ini` the hysteresis trackers have seen. -/
def cycleDeviation (e : MrftEngine K) : K :=
  max (e.maxPvCycle - e.pvValueIni) (e.pvValueIni - e.minPvCycle)

theorem cycleDeviation_observe (e : MrftEngine K) (tick : Tick K) :
    (e.observe tick).cycleDeviation = max |tick.pv - e.pvValueIni| e.cycleDeviation := by
  show max (max e.maxPvCycle tick.pv - e.pvValueIni) (e.pvValueIni - min e.minPvCycle tick.pv) = _
  rw [cycleDeviation, abs_eq_max_neg, neg_sub, ← max_sub_sub_right, ← max_sub_sub_left,
    max_max_max_comm]
  exact max_comm _ _

omit [IsStrictOrderedRing K] in
theorem hysteresis_eq (e : MrftEngine K) (tick : Tick K) :
    (e.observe tick).hysteresis = e.beta * (e.observe tick).cycleDeviation := rfl

/-- What the trackers hold before tick `n` of a run. -/
structure TrackInv (ar : IntArith) (e : MrftEngine K) (ticks : ℕ → Tick K) (n : ℕ) : Prop where
  highest : IsGreatest (e.heldPvs ar ticks n) (e.stateAfter ar ticks n).maxPvResult
  lowest : IsLeast (e.heldPvs ar ticks n) (e.stateAfter ar ticks n).minPvResult
  deviation : IsGreatest (insert 0 (e.heldDeviations ar ticks n))
    (e.stateAfter ar ticks n).cycleDeviation

omit [IsStrictOrderedRing K] in
theorem pvValueIni_stateAfter (ticks : ℕ → Tick K) (n : ℕ) :
    (e.stateAfter ar ticks n).pvValueIni = e.pvValueIni :=
  congrArg Setup.pvValueIni (setup_stateAfter ticks n)

omit [IsStrictOrderedRing K] in
/-- The extrema of a tick's result window. -/
theorem TrackInv.resultWindow (h : TrackInv ar e ticks n) :
    IsGreatest (e.resultWindow ar ticks n)
        ((e.stateAfter ar ticks n).observe (ticks n)).maxPvResult ∧
      IsLeast (e.resultWindow ar ticks n)
        ((e.stateAfter ar ticks n).observe (ticks n)).minPvResult := by
  rw [resultWindow_eq]
  show IsGreatest _ (max (e.stateAfter ar ticks n).maxPvResult (ticks n).pv) ∧
    IsLeast _ (min (e.stateAfter ar ticks n).minPvResult (ticks n).pv)
  rw [max_comm, min_comm]
  exact ⟨h.highest.insert _, h.lowest.insert _⟩

/-- The largest deviation of a tick's deviation window. -/
theorem TrackInv.deviationWindow (h : TrackInv ar e ticks n) :
    IsGreatest (e.deviationWindow ar ticks n)
      ((e.stateAfter ar ticks n).observe (ticks n)).cycleDeviation := by
  have hmore : IsGreatest (insert |(ticks n).pv - e.pvValueIni|
      (insert 0 (e.heldDeviations ar ticks n)))
      ((e.stateAfter ar ticks n).observe (ticks n)).cycleDeviation := by
    rw [cycleDeviation_observe, pvValueIni_stateAfter]
    exact h.deviation.insert _
  rw [Set.insert_comm, ← deviationWindow_eq] at hmore
  obtain ⟨hmem, hle⟩ := hmore
  have hnow : |(ticks n).pv - e.pvValueIni| ∈ e.deviationWindow ar ticks n := by
    rw [deviationWindow_eq]
    exact Set.mem_insert _ _
  refine ⟨?_, fun x hx => hle (Set.mem_insert_of_mem _ hx)⟩
  rcases hmem with hzero | hmem
  · -- a largest deviation of `0` is the present one
    have hnonpos := hle (Set.mem_insert_of_mem _ hnow)
    rw [hzero] at hnonpos ⊢
    rw [← le_antisymm hnonpos (abs_nonneg _)]
    exact hnow
  · exact hmem

theorem TrackInv.succ (h : TrackInv ar e ticks n)
    (hc : (e.stateAfter ar ticks n).completed = false) : TrackInv ar e ticks (n + 1) := by
  by_cases hs : e.switchesAt ar ticks n = true
  · -- the switch resets both pairs, each to its own value
    have hstate := stateAfter_succ_of_switch hc hs
    constructor
    · rw [heldPvs_succ_of_switch hs, hstate]
      exact isGreatest_singleton
    · rw [heldPvs_succ_of_switch hs, hstate]
      exact isLeast_singleton
    · have hreset : (e.stateAfter ar ticks (n + 1)).cycleDeviation = 0 := by
        rw [hstate]
        show max ((e.stateAfter ar ticks n).pvValueIni - (e.stateAfter ar ticks n).pvValueIni)
          ((e.stateAfter ar ticks n).pvValueIni - (e.stateAfter ar ticks n).pvValueIni) = 0
        rw [sub_self, max_self]
      rw [heldDeviations_succ_of_switch hs, hreset, insert_empty_eq]
      exact isGreatest_singleton
  · have hs' : e.switchesAt ar ticks n = false := by simpa using hs
    have hstate := stateAfter_succ_of_hold hc hs'
    obtain ⟨hhighest, hlowest⟩ := h.resultWindow
    constructor
    · rw [heldPvs_succ hs', ← resultWindow_eq, hstate]
      exact hhighest
    · rw [heldPvs_succ hs', ← resultWindow_eq, hstate]
      exact hlowest
    · have hkeep : (e.stateAfter ar ticks (n + 1)).cycleDeviation
          = ((e.stateAfter ar ticks n).observe (ticks n)).cycleDeviation := by
        rw [hstate]
        rfl
      rw [heldDeviations_succ hs', hkeep, cycleDeviation_observe, pvValueIni_stateAfter,
        Set.insert_comm]
      exact h.deviation.insert _

/-- An engine whose trackers are reset to `pv_ini` and that has not run yet. -/
structure Fresh (e : MrftEngine K) : Prop where
  counter : e.counterAllSwitches = 0
  running : e.completed = false
  cycle : e.maxPvCycle = e.pvValueIni ∧ e.minPvCycle = e.pvValueIni
  result : e.maxPvResult = e.pvValueIni ∧ e.minPvResult = e.pvValueIni
  records : e.peaks = [] ∧ e.troughs = [] ∧ e.switchTimes = []

omit [IsStrictOrderedRing K] in
theorem fresh_new (config : LoopConfig K) (direction : ControllerDirection) (beta : K)
    (initial : InitialReadings K) (startTime : UtcTime) :
    Fresh (new ar config direction beta initial startTime) :=
  ⟨rfl, rfl, ⟨rfl, rfl⟩, ⟨rfl, rfl⟩, ⟨rfl, rfl, rfl⟩⟩

/-- **The trackers of every running test** hold the extrema of their windows. -/
theorem trackInv (hfresh : Fresh e) (ticks : ℕ → Tick K) (n : ℕ)
    (hc : (e.stateAfter ar ticks n).completed = false) : TrackInv ar e ticks n := by
  induction n with
  | zero =>
    have hdeviation : e.cycleDeviation = 0 := by
      rw [cycleDeviation, hfresh.cycle.1, hfresh.cycle.2, sub_self, max_self]
    constructor
    · rw [heldPvs_zero]
      show IsGreatest _ e.maxPvResult
      rw [hfresh.result.1]
      exact isGreatest_singleton
    · rw [heldPvs_zero]
      show IsLeast _ e.minPvResult
      rw [hfresh.result.2]
      exact isLeast_singleton
    · rw [heldDeviations_zero, insert_empty_eq]
      show IsGreatest _ e.cycleDeviation
      rw [hdeviation]
      exact isGreatest_singleton
  | succ n ih =>
    have hrun : (e.stateAfter ar ticks n).completed = false := by
      by_contra hdone
      have hdone' : (e.stateAfter ar ticks n).completed = true := by simpa using hdone
      rw [stateAfter_succ_of_completed hdone', hdone'] at hc
      exact Bool.noConfusion hc
    exact (ih hrun).succ hrun

/-! ### The records -/

/-- The records of a run before tick `n`: which switches are on record, and which window each
recorded extremum is taken over. -/
structure RecordsSound (ar : IntArith) (e : MrftEngine K) (threshold : ℕ) (ticks : ℕ → Tick K)
    (n : ℕ) : Prop where
  times : (e.stateAfter ar ticks n).switchTimes
    = (marked (e.recordedAt ar threshold ticks) n).map fun i => (ticks i).time
  peaks : List.Forall₂ (fun i peak => IsGreatest (e.resultWindow ar ticks i) peak)
    (marked (fun i => e.recordedAt ar threshold ticks i && e.isPeakAt ar ticks i) n)
    (e.stateAfter ar ticks n).peaks
  troughs : List.Forall₂ (fun i trough => IsLeast (e.resultWindow ar ticks i) trough)
    (marked (fun i => e.recordedAt ar threshold ticks i && !e.isPeakAt ar ticks i) n)
    (e.stateAfter ar ticks n).troughs

/-- The bookkeeping of a run before tick `n`: its records, and the hysteresis of every tick the
engine has evaluated. -/
structure BookkeepingSound (ar : IntArith) (e : MrftEngine K) (threshold : ℕ)
    (ticks : ℕ → Tick K) (n : ℕ) : Prop extends RecordsSound ar e threshold ticks n where
  hysteresis : ∀ i < n, (e.stateAfter ar ticks i).completed = false →
    ∃ deviation, IsGreatest (e.deviationWindow ar ticks i) deviation ∧
      (e.stateAfter ar ticks (i + 1)).hysteresis = e.beta * deviation

omit [IsStrictOrderedRing K] in
/-- A tick that makes no switch records nothing. -/
theorem recordedAt_of_no_switch {threshold : ℕ} (h : e.switchesAt ar ticks n = false) :
    e.recordedAt ar threshold ticks n = false := by
  simp [recordedAt, h]

omit [IsStrictOrderedRing K] in
theorem isPeakAt_of_switch (hc : (e.stateAfter ar ticks n).completed = false)
    (hs : e.switchesAt ar ticks n = true) :
    e.isPeakAt ar ticks n
      = decide (((e.stateAfter ar ticks n).observe (ticks n)).mvSignNextStep
        * ((e.stateAfter ar ticks n).observe (ticks n)).actionMultiplier = 1) := by
  have hmultiplier : ((e.stateAfter ar ticks n).observe (ticks n)).actionMultiplier
      = e.actionMultiplier := congrArg Setup.actionMultiplier (setup_stateAfter ticks n)
  rw [isPeakAt, stateAfter_succ_of_switch hc hs, hmultiplier]
  rfl

omit [IsStrictOrderedRing K] in
/-- What a switch does to the three record lists. -/
theorem records_of_switch (hcounter : CounterInv ar e ticks n)
    (hc : (e.stateAfter ar ticks n).completed = false) (hs : e.switchesAt ar ticks n = true) :
    let record := e.recordedAt ar e.numSwitchesSkip ticks n
    let before := e.stateAfter ar ticks n
    let after := e.stateAfter ar ticks (n + 1)
    after.switchTimes
        = (if record then before.switchTimes ++ [(ticks n).time] else before.switchTimes) ∧
      after.peaks = (if record && e.isPeakAt ar ticks n then
        before.peaks ++ [(before.observe (ticks n)).maxPvResult] else before.peaks) ∧
      after.troughs = (if record && !e.isPeakAt ar ticks n then
        before.troughs ++ [(before.observe (ticks n)).minPvResult] else before.troughs) := by
  intro record before after
  have hskip : (before.observe (ticks n)).numSwitchesSkip = e.numSwitchesSkip :=
    congrArg Setup.numSwitchesSkip (setup_stateAfter ticks n)
  have hword : ar.u32 ((before.observe (ticks n)).counterAllSwitches + 1)
      = e.writesBefore ar ticks (n + 1) := by
    rw [writesBefore_succ_of_switch hs, hcounter.count]
    exact (hcounter.room hc).u32_succ
  have hrecord : record = decide (ar.u32 ((before.observe (ticks n)).counterAllSwitches + 1)
      ≥ (before.observe (ticks n)).numSwitchesSkip) := by
    rw [hword, hskip]
    simp only [record, recordedAt, hs, Bool.true_and, ge_iff_le]
  rw [hrecord, isPeakAt_of_switch hc hs]
  have hstate : after = _ := stateAfter_succ_of_switch hc hs
  rw [hstate]
  exact ⟨rfl, rfl, rfl⟩

omit [IsStrictOrderedRing K] in
theorem RecordsSound.succ (h : RecordsSound ar e e.numSwitchesSkip ticks n)
    (hcounter : CounterInv ar e ticks n)
    (htrack : (e.stateAfter ar ticks n).completed = false → TrackInv ar e ticks n) :
    RecordsSound ar e e.numSwitchesSkip ticks (n + 1) := by
  by_cases hc : (e.stateAfter ar ticks n).completed = true
  · have hnone : e.recordedAt ar e.numSwitchesSkip ticks n = false :=
      recordedAt_of_no_switch (switchesAt_of_completed hc)
    have hstate := stateAfter_succ_of_completed hc
    constructor
    · rw [hstate, marked_succ hnone]
      exact h.times
    · rw [hstate, marked_succ (by simp [hnone])]
      exact h.peaks
    · rw [hstate, marked_succ (by simp [hnone])]
      exact h.troughs
  · have hrun : (e.stateAfter ar ticks n).completed = false := by simpa using hc
    by_cases hs : e.switchesAt ar ticks n = true
    · obtain ⟨htimes, hpeaks, htroughs⟩ := records_of_switch hcounter hrun hs
      obtain ⟨hgreatest, hleast⟩ := (htrack hrun).resultWindow
      constructor
      · rw [htimes, h.times]
        by_cases hrecord : e.recordedAt ar e.numSwitchesSkip ticks n = true
        · rw [if_pos hrecord, marked_succ_of_mark hrecord, List.map_append, List.map_singleton]
        · rw [if_neg hrecord, marked_succ (by simpa using hrecord)]
      · rw [hpeaks]
        by_cases hpeak : (e.recordedAt ar e.numSwitchesSkip ticks n && e.isPeakAt ar ticks n)
            = true
        · rw [if_pos hpeak, marked_succ_of_mark hpeak]
          exact List.rel_append h.peaks (List.Forall₂.cons hgreatest List.Forall₂.nil)
        · rw [if_neg hpeak, marked_succ (by simpa using hpeak)]
          exact h.peaks
      · rw [htroughs]
        by_cases htrough : (e.recordedAt ar e.numSwitchesSkip ticks n
            && !e.isPeakAt ar ticks n) = true
        · rw [if_pos htrough, marked_succ_of_mark htrough]
          exact List.rel_append h.troughs (List.Forall₂.cons hleast List.Forall₂.nil)
        · rw [if_neg htrough, marked_succ (by simpa using htrough)]
          exact h.troughs
    · have hs' : e.switchesAt ar ticks n = false := by simpa using hs
      have hnone : e.recordedAt ar e.numSwitchesSkip ticks n = false :=
        recordedAt_of_no_switch hs'
      have hstate := stateAfter_succ_of_hold hrun hs'
      constructor
      · rw [hstate, marked_succ hnone]
        exact h.times
      · rw [hstate, marked_succ (by simp [hnone])]
        exact h.peaks
      · rw [hstate, marked_succ (by simp [hnone])]
        exact h.troughs

/-- Every state of a run from a fresh engine has sound records, with respect to the threshold
word the engine was built with. -/
theorem recordsSound (hfresh : Fresh e) (ticks : ℕ → Tick K) (n : ℕ) :
    RecordsSound ar e e.numSwitchesSkip ticks n := by
  induction n with
  | zero =>
    have hpeaks : (e.stateAfter ar ticks 0).peaks = [] := hfresh.records.1
    have htroughs : (e.stateAfter ar ticks 0).troughs = [] := hfresh.records.2.1
    have htimes : (e.stateAfter ar ticks 0).switchTimes = [] := hfresh.records.2.2
    constructor
    · rw [htimes]
      rfl
    · rw [hpeaks]
      exact List.Forall₂.nil
    · rw [htroughs]
      exact List.Forall₂.nil
  | succ n ih =>
    exact ih.succ (counterInv hfresh.counter ticks n) (trackInv hfresh ticks n)

/-- The hysteresis after an evaluated tick is `beta` times the largest deviation of its window. -/
theorem hysteresis_stateAfter (hfresh : Fresh e) (ticks : ℕ → Tick K) (i : ℕ)
    (hc : (e.stateAfter ar ticks i).completed = false) :
    ∃ deviation, IsGreatest (e.deviationWindow ar ticks i) deviation ∧
      (e.stateAfter ar ticks (i + 1)).hysteresis = e.beta * deviation := by
  have hbeta : ((e.stateAfter ar ticks i).observe (ticks i)).beta = e.beta :=
    congrArg Setup.beta (setup_stateAfter ticks i)
  have hvalue : (e.stateAfter ar ticks (i + 1)).hysteresis
      = ((e.stateAfter ar ticks i).observe (ticks i)).hysteresis := by
    by_cases hs : e.switchesAt ar ticks i = true
    · rw [stateAfter_succ_of_switch hc hs]
      rfl
    · rw [stateAfter_succ_of_hold hc (by simpa using hs)]
  refine ⟨_, (trackInv hfresh ticks i hc).deviationWindow, ?_⟩
  rw [hvalue, hysteresis_eq, ← hbeta]
  rfl

end Trackers

end MrftEngine

open MrftEngine

variable [IsStrictOrderedRing K]

/-- **The bookkeeping of every run is sound** when the number of skipped switches is a word:
exactly the switches with index `2 * skip + 1` and above are on record, each peak (trough) is the
maximum (minimum) of its own window, and every hysteresis is about the window after the previous
switch. -/
theorem bookkeeping_sound (config : LoopConfig K) (direction : ControllerDirection) (beta : K)
    (initial : InitialReadings K) (startTime : UtcTime) (ticks : ℕ → Tick K) (n : ℕ)
    (hword : 2 * config.numCyclesSkip.toNat + 1 < 2 ^ 32) :
    BookkeepingSound .machine
      (MrftEngine.new .machine config direction beta initial startTime)
      (2 * config.numCyclesSkip.toNat + 1) ticks n := by
  let engine := MrftEngine.new .machine config direction beta initial startTime
  have hfresh : Fresh engine := fresh_new config direction beta initial startTime
  have hthreshold : engine.numSwitchesSkip = 2 * config.numCyclesSkip.toNat + 1 := by
    show IntArith.machine.u32 (IntArith.machine.u32 (config.numCyclesSkip.toNat * 2) + 1) = _
    rw [IntArith.u32_eq (n := config.numCyclesSkip.toNat * 2) (by omega),
      IntArith.u32_eq (by omega), Nat.mul_comm]
  have hrecords : RecordsSound .machine engine engine.numSwitchesSkip ticks n :=
    recordsSound hfresh ticks n
  rw [hthreshold] at hrecords
  exact ⟨hrecords, fun i _ hc => hysteresis_stateAfter hfresh ticks i hc⟩

/-- The bookkeeping of a flow loop that swings about its set point. -/
theorem bookkeeping_sound_flow :
    BookkeepingSound .machine
      (MrftEngine.new .machine flowLoopConfig .reverse (f32 0.433) midRangeReadings 0)
      (2 * flowLoopConfig.numCyclesSkip.toNat + 1) swingingTicks 7 :=
  bookkeeping_sound flowLoopConfig .reverse (f32 0.433) midRangeReadings 0 swingingTicks 7
    (by decide)

/-- A configuration `validate` accepts although twice its skipped cycles are `0` in an `u32`. -/
def wrappingSkipConfig : LoopConfig ℚ := { flowLoopConfig with
  numCyclesSkip := 2147483648
  numCyclesCount := 1 }

/-- The very first switch of a run that is to skip `2^31` cycles goes on record. -/
theorem bookkeeping_unsound_wrapping :
    wrappingSkipConfig.validate = .ok () ∧
      ¬BookkeepingSound .machine
        (MrftEngine.new .machine wrappingSkipConfig .reverse (f32 0.433) midRangeReadings 0)
        (2 * wrappingSkipConfig.numCyclesSkip.toNat + 1) swingingTicks 1 := by
  refine ⟨by decide +kernel, ?_⟩
  intro hsound
  have htimes := hsound.times
  revert htimes
  decide +kernel

end Bhtune
