import Bhtune.Core.Completion
import Mathlib.Tactic.Linarith
import Mathlib.Tactic.Ring

/-!
# The MV values a run writes

* `clamp_within` — a validated amplitude, clamped on one side only, stays inside on both;
* `relay_writes_in_range` — every write is in range, the relay steps alternate, and the MV goes
  back to its initial value exactly on the last switch;
* `relay_amplitude_applied_iff` — the percentage the tuning formula uses is the one the relay
  applied exactly when the clamp did not engage.
-/

namespace Bhtune

open BinaryFloat MachineInt LoopConfig

variable {K : Type*} [Field K] [LinearOrder K] [IsStrictOrderedRing K]

/-! ### The clamp -/

/-- **The clamp fixes one side only, and that is enough** for an amplitude of at most half the
span. -/
theorem clamp_within {percent mvIni low high : K} (hpos : 0 ≤ percent) (hmax : percent ≤ 50)
    (hlow : low ≤ mvIni) (hhigh : mvIni ≤ high) :
    0 ≤ clampRelayAmplitude percent mvIni low high ∧
      low ≤ mvIni - clampRelayAmplitude percent mvIni low high ∧
      mvIni + clampRelayAmplitude percent mvIni low high ≤ high := by
  have hspan : 0 ≤ high - low := by linarith
  have hraw_nonneg : 0 ≤ percent / 100 * (high - low) :=
    mul_nonneg (div_nonneg hpos (by norm_num)) hspan
  have hraw_le : percent / 100 * (high - low) ≤ 1 / 2 * (high - low) := by
    refine mul_le_mul_of_nonneg_right ?_ hspan
    linarith
  simp only [clampRelayAmplitude]
  split_ifs with h₁ h₂
  · refine ⟨by linarith, by linarith, by linarith⟩
  · refine ⟨by linarith, by linarith, by linarith⟩
  · refine ⟨hraw_nonneg, by linarith, by linarith⟩

/-- The clamp leaves the amplitude alone exactly when both relay steps fit. -/
theorem clamp_eq_raw_iff (percent mvIni low high : K) :
    clampRelayAmplitude percent mvIni low high = percent / 100 * (high - low) ↔
      mvIni + percent / 100 * (high - low) ≤ high ∧
        low ≤ mvIni - percent / 100 * (high - low) := by
  simp only [clampRelayAmplitude]
  split_ifs with h₁ h₂
  · refine ⟨fun heq => ?_, fun h => absurd h.1 (not_le.mpr h₁)⟩
    rw [← heq] at h₁
    linarith
  · refine ⟨fun heq => ?_, fun h => absurd h.2 (not_le.mpr h₂)⟩
    rw [← heq] at h₂
    linarith
  · exact ⟨fun _ => ⟨not_lt.mp h₁, not_lt.mp h₂⟩, fun _ => rfl⟩

namespace MrftEngine

variable {ar : IntArith} {e : MrftEngine K} {tick : Tick K} {ticks : ℕ → Tick K}

/-! ### The writes of one step -/

/-- A required switch needs an amplitude. -/
theorem relayAmpRaw_ne_zero (h : RelayInv e) (hlt : e.counterAllSwitches < e.totalSwitches)
    (hs : (e.observe tick).switchRequired tick = true) : e.relayAmpRaw ≠ 0 := by
  intro hzero
  have hne : (e.observe tick).mvValueNextStep ≠ e.mvValueCurrent :=
    next_ne_current_of_switchRequired hs
  rw [observe_mvValueNextStep, hzero, mul_zero] at hne
  rcases Nat.eq_zero_or_pos e.counterAllSwitches with hstart | hpos
  · rw [h.mv_before hstart, add_zero] at hne
    exact hne rfl
  · rw [h.mv_held hpos hlt, hzero, mul_zero] at hne
    exact hne rfl

omit [IsStrictOrderedRing K] in
/-- A write is either a relay step of a test that goes on, or the return to the initial MV of a
test that completes. -/
theorem write_mem_step (h : RelayInv e) (hfit : CountersFit ar e) (hc : e.completed = false)
    {v : K} (hmem : Action.writeMv v ∈ (e.step ar tick).2) :
    (e.observe tick).switchRequired tick = true ∧
      ((v = (e.observe tick).mvValueNextStep ∧ e.counterAllSwitches + 1 < e.totalSwitches ∧
          (e.step ar tick).1 = e.switchedTo tick v ∧ (e.step ar tick).1.completed = false) ∨
        (v = e.mvValueIni ∧ e.counterAllSwitches + 1 = e.totalSwitches ∧
          (e.step ar tick).1 = e.finishedBy tick)) := by
  have hcase : RunningStep e tick (e.step ar tick) := runningStep hfit hc (h.counter_lt hc)
  generalize e.step ar tick = result at hcase hmem ⊢
  cases hcase with
  | hold hs => exact absurd hmem List.not_mem_nil
  | relay hs hmore =>
    have hv : v = (e.observe tick).mvValueNextStep := by
      injection List.mem_singleton.mp hmem
    rw [hv]
    exact ⟨hs, Or.inl ⟨rfl, hmore, rfl, hc⟩⟩
  | finish hs heq =>
    rcases List.mem_cons.mp hmem with hwrite | htail
    · have hv : v = e.mvValueIni := by injection hwrite
      exact ⟨hs, Or.inr ⟨hv, heq, rfl⟩⟩
    · exact nomatch List.mem_singleton.mp htail

omit [IsStrictOrderedRing K] in
/-- A step that writes nothing leaves the MV where it is. -/
theorem mvValueCurrent_of_no_write (tick : Tick K) (h : RelayInv e) (hfit : CountersFit ar e)
    (hnone : ∀ v, Action.writeMv v ∉ (e.step ar tick).2) :
    (e.step ar tick).1.mvValueCurrent = e.mvValueCurrent ∧
      (e.step ar tick).1.counterAllSwitches = e.counterAllSwitches := by
  by_cases hc : e.completed = true
  · rw [step_of_completed hc]
    exact ⟨rfl, rfl⟩
  · have hc' : e.completed = false := by simpa using hc
    have hcase : RunningStep e tick (e.step ar tick) := runningStep hfit hc' (h.counter_lt hc')
    generalize e.step ar tick = result at hcase hnone ⊢
    cases hcase with
    | hold hs => exact ⟨rfl, rfl⟩
    | relay hs hmore => exact absurd (List.mem_singleton.mpr rfl) (hnone _)
    | finish hs heq => exact absurd List.mem_cons_self (hnone _)

/-! ### The writes of a run -/

section Run

variable (h : RelayInv e) (hfit : CountersFit ar e)

include h hfit

/-- The MV commanded now is the last one written. -/
theorem mvValueCurrent_of_silent {m n : ℕ} (hmn : m ≤ n)
    (hsilent : ∀ k, m ≤ k → k < n → ∀ v, ¬WritesAt ar e ticks k v) :
    (e.stateAfter ar ticks n).mvValueCurrent = (e.stateAfter ar ticks m).mvValueCurrent := by
  induction n, hmn using Nat.le_induction with
  | base => rfl
  | succ n hmn ih =>
    obtain ⟨hinv, hfit'⟩ := h.stateAfter hfit ticks n
    have hstep := mvValueCurrent_of_no_write (ticks n) hinv hfit'
      (hsilent n hmn (Nat.lt_succ_self n))
    rw [stateAfter_succ, hstep.1]
    exact ih fun k hk hkn => hsilent k hk (Nat.lt_succ_of_lt hkn)

/-- The MV after a write is the value written. -/
theorem mvValueCurrent_of_writesAt {i : ℕ} {v : K} (hw : WritesAt ar e ticks i v) :
    (e.stateAfter ar ticks (i + 1)).mvValueCurrent = v := by
  obtain ⟨hinv, hfit'⟩ := h.stateAfter hfit ticks i
  obtain ⟨_, hcase⟩ := write_mem_step hinv hfit' (running_of_mem hw) hw
  rw [stateAfter_succ]
  rcases hcase with ⟨_, _, hstate, _⟩ | ⟨hv, _, hstate⟩
  · rw [hstate]
    rfl
  · rw [hstate, hv]
    rfl

/-- A write that completes the run returns the MV to where it started; any other one is a relay
step. -/
theorem writesAt_cases {i : ℕ} {v : K} (hw : WritesAt ar e ticks i v) :
    (CompletesAt ar e ticks i ∧ v = e.mvValueIni) ∨
      (¬CompletesAt ar e ticks i ∧ v ≠ e.mvValueIni ∧
        (v = e.mvValueIni + e.relayAmpRaw ∨ v = e.mvValueIni - e.relayAmpRaw)) := by
  obtain ⟨hinv, hfit'⟩ := h.stateAfter hfit ticks i
  have hc := running_of_mem hw
  have hsetup : (e.stateAfter ar ticks i).setup = e.setup := setup_stateAfter ticks i
  have hini : (e.stateAfter ar ticks i).mvValueIni = e.mvValueIni :=
    congrArg Setup.mvValueIni hsetup
  have hamp : (e.stateAfter ar ticks i).relayAmpRaw = e.relayAmpRaw :=
    congrArg Setup.relayAmpRaw hsetup
  have hcomplete : CompletesAt ar e ticks i ↔
      ((e.stateAfter ar ticks i).step ar (ticks i)).1.completed = true :=
    complete_mem_step_iff hc
  obtain ⟨hs, hcase⟩ := write_mem_step hinv hfit' hc hw
  rcases hcase with ⟨hv, _, _, hgoes⟩ | ⟨hv, _, hstate⟩
  · right
    have hne := relayAmpRaw_ne_zero hinv (hinv.counter_lt hc) hs
    rw [observe_mvValueNextStep, hini, hamp] at hv
    rw [hamp] at hne
    refine ⟨?_, ?_, ?_⟩
    · rw [hcomplete, hgoes]
      exact Bool.false_ne_true
    · rcases observe_mvSignNextStep (e.stateAfter ar ticks i) (ticks i) with hone | hone <;>
        rw [hv, hone] <;> simpa using hne
    · rcases observe_mvSignNextStep (e.stateAfter ar ticks i) (ticks i) with hone | hone
      · left
        rw [hv, hone, Int.cast_one, one_mul]
      · right
        rw [hv, hone, Int.cast_neg, Int.cast_one, neg_one_mul, sub_eq_add_neg]
  · left
    refine ⟨?_, hv.trans hini⟩
    rw [hcomplete, hstate]
    rfl

/-- **Consecutive relay steps are on opposite sides.** -/
theorem writesAt_alternate {i j : ℕ} {v w : K} (hij : i < j) (hv : WritesAt ar e ticks i v)
    (hw : WritesAt ar e ticks j w) (hgoes : ¬CompletesAt ar e ticks j)
    (hsilent : ∀ k, i < k → k < j → ∀ u, ¬WritesAt ar e ticks k u) :
    w - e.mvValueIni = -(v - e.mvValueIni) := by
  obtain ⟨hinv, hfit'⟩ := h.stateAfter hfit ticks j
  have hc := running_of_mem hw
  have hlt := hinv.counter_lt hc
  have hsetup : (e.stateAfter ar ticks j).setup = e.setup := setup_stateAfter ticks j
  have hini : (e.stateAfter ar ticks j).mvValueIni = e.mvValueIni :=
    congrArg Setup.mvValueIni hsetup
  have hheld : (e.stateAfter ar ticks j).mvValueCurrent = v := by
    rw [mvValueCurrent_of_silent h hfit (m := i + 1) hij fun k hk hkj => hsilent k hk hkj]
    exact mvValueCurrent_of_writesAt h hfit hv
  have hvne : v ≠ e.mvValueIni := by
    rcases writesAt_cases h hfit hv with ⟨hdone, _⟩ | ⟨_, hne, _⟩
    · rw [completed_of_completesAt hdone hij] at hc
      exact Bool.noConfusion hc
    · exact hne
  have hpos : 0 < (e.stateAfter ar ticks j).counterAllSwitches := by
    rw [Nat.pos_iff_ne_zero]
    intro hzero
    rw [hinv.mv_before hzero, hini] at hheld
    exact hvne hheld.symm
  obtain ⟨hs, hcase⟩ := write_mem_step hinv hfit' hc hw
  rcases hcase with ⟨hnext, _, _, _⟩ | ⟨_, heq, hstate⟩
  · have hcurrent := hinv.mv_held hpos hlt
    rw [observe_mvValueNextStep, sign_alternates hinv hpos hlt hs, hini] at hnext
    rw [hheld, hini] at hcurrent
    rw [hnext, hcurrent, Int.cast_neg]
    ring
  · exfalso
    apply hgoes
    refine (complete_mem_step_iff hc).mpr ?_
    rw [hstate]
    rfl

/-- A test that has switched has a first switch behind it. -/
theorem exists_first_write {n : ℕ} (hpos : 0 < (e.stateAfter ar ticks n).counterAllSwitches)
    (hzero : e.counterAllSwitches = 0) :
    ∃ k < n, (e.stateAfter ar ticks k).counterAllSwitches = 0 ∧ ∃ v, WritesAt ar e ticks k v := by
  induction n with
  | zero => exact absurd hzero hpos.ne'
  | succ n ih =>
    by_cases hn : 0 < (e.stateAfter ar ticks n).counterAllSwitches
    · obtain ⟨k, hk, hstart, hw⟩ := ih hn
      exact ⟨k, Nat.lt_succ_of_lt hk, hstart, hw⟩
    · obtain ⟨hinv, hfit'⟩ := h.stateAfter hfit ticks n
      refine ⟨n, Nat.lt_succ_self n, Nat.eq_zero_of_not_pos hn, ?_⟩
      by_contra hnone
      have hkeep := (mvValueCurrent_of_no_write (ticks n) hinv hfit'
        (not_exists.mp hnone)).2
      rw [stateAfter_succ, hkeep] at hpos
      exact hn hpos

end Run

/-! ### Cycles remaining -/

omit [Field K] [LinearOrder K] [IsStrictOrderedRing K] in
/-- Before the first switch there are cycles remaining, even where the largest sum wraps. -/
theorem cyclesRemaining_ne_zero_of_start (hfit : CountersFit ar e) (hpos : 0 < e.totalSwitches)
    (hzero : e.counterAllSwitches = 0) : e.cyclesRemaining ar ≠ 0 := by
  have hsum : 0 < (e.numSwitchesSkip : ℤ) + (e.numCyclesCount : ℤ) * 2 := by
    rw [totalSwitches] at hpos
    omega
  have hhalf : ∀ z : ℤ, 0 < z → (z + 1).tdiv 2 ≠ 0 := by
    intro z hz
    rw [Int.tdiv_eq_ediv_of_nonneg (by omega)]
    omega
  rcases hfit with rfl | hlt
  · simp only [cyclesRemaining, IntArith.i32_exact, hzero]
    have hvalue := hhalf _ hsum
    simpa using hvalue
  · rw [totalSwitches] at hlt
    rw [cyclesRemaining, hzero, IntArith.i32_eq (z := (e.numSwitchesSkip : ℤ)) (by omega) (by omega),
      IntArith.i32_eq (z := (e.numCyclesCount : ℤ)) (by omega) (by omega),
      IntArith.i32_eq (z := (e.numCyclesCount : ℤ) * 2) (by omega) (by omega),
      IntArith.i32_eq (z := ((0 : ℕ) : ℤ)) (by omega) (by omega),
      IntArith.i32_eq (z := (e.numSwitchesSkip : ℤ) + (e.numCyclesCount : ℤ) * 2)
        (by omega) (by omega),
      IntArith.i32_eq (z := (e.numSwitchesSkip : ℤ) + (e.numCyclesCount : ℤ) * 2 - ((0 : ℕ) : ℤ))
        (by omega) (by omega)]
    by_cases htop : (e.numSwitchesSkip : ℤ) + (e.numCyclesCount : ℤ) * 2 + 1 < 2 ^ 31
    · rw [IntArith.i32_eq (by omega) (by omega)]
      have hvalue := hhalf _ hsum
      simpa using hvalue
    · -- the one case that wraps: `i32::MAX + 1`
      have htotal : (e.numSwitchesSkip : ℤ) + (e.numCyclesCount : ℤ) * 2 - ((0 : ℕ) : ℤ) + 1
          = 2 ^ 31 := by omega
      rw [htotal]
      cases ar <;> decide

/-- After every step of a running test, no cycle remains exactly when that step completed it. -/
theorem cyclesRemaining_eq_zero_iff_completesAt (h : RelayInv e) (hfit : CountersFit ar e) {i : ℕ}
    (hc : (e.stateAfter ar ticks i).completed = false) :
    (e.stateAfter ar ticks (i + 1)).cyclesRemaining ar = 0 ↔ CompletesAt ar e ticks i := by
  obtain ⟨hinv, hfit'⟩ := h.stateAfter hfit ticks (i + 1)
  have hcomplete : CompletesAt ar e ticks i ↔
      (e.stateAfter ar ticks (i + 1)).completed = true := complete_mem_step_iff hc
  rw [hcomplete, hinv.completed_iff]
  rcases Nat.eq_zero_or_pos (e.stateAfter ar ticks (i + 1)).counterAllSwitches with hzero | hpos
  · have hne := cyclesRemaining_ne_zero_of_start hfit' hinv.total_pos hzero
    rw [hzero]
    exact ⟨fun heq => absurd heq hne, fun heq => absurd heq hinv.total_pos.ne⟩
  · exact cyclesRemaining_eq_zero_iff hfit' hpos hinv.counter_le

end MrftEngine

/-! ### The relay run as a whole -/

section Claims

open MrftEngine

/-- **The writes of every run.**  For a validated configuration and a start inside the MV range,
every write is in range; a write that does not complete the run is a relay step of the clamped
amplitude, and two such writes in a row are on opposite sides; a write is the initial MV exactly
when the step completes the run, which is the only step that leaves no cycle remaining. -/
theorem relay_writes_in_range (ar : IntArith) (config : LoopConfig K)
    (direction : ControllerDirection) (beta : K) (initial : InitialReadings K)
    (startTime : UtcTime) (ticks : ℕ → Tick K) (hvalid : config.validate = .ok ())
    (hini : initial.mvRangeLow ≤ initial.mvIni ∧ initial.mvIni ≤ initial.mvRangeHigh)
    (hfit : ar = .exact ∨
      2 * config.numCyclesSkip.toNat + 1 + 2 * config.numCyclesCount.toNat < 2 ^ 31) :
    let engine := MrftEngine.new ar config direction beta initial startTime
    let amplitude := clampRelayAmplitude config.relayAmpPercent initial.mvIni initial.mvRangeLow
      initial.mvRangeHigh
    (∀ i v, WritesAt ar engine ticks i v → initial.mvRangeLow ≤ v ∧ v ≤ initial.mvRangeHigh) ∧
    (∀ i v, WritesAt ar engine ticks i v → ¬CompletesAt ar engine ticks i →
      v = initial.mvIni + amplitude ∨ v = initial.mvIni - amplitude) ∧
    (∀ i j v w, i < j → WritesAt ar engine ticks i v → WritesAt ar engine ticks j w →
      ¬CompletesAt ar engine ticks i → ¬CompletesAt ar engine ticks j →
      (∀ k, i < k → k < j → ∀ u, ¬WritesAt ar engine ticks k u) →
      w - initial.mvIni = -(v - initial.mvIni) ∧ v ≠ initial.mvIni) ∧
    (∀ i v, WritesAt ar engine ticks i v →
      (v = initial.mvIni ↔ CompletesAt ar engine ticks i)) ∧
    (∀ i, CompletesAt ar engine ticks i →
      WritesAt ar engine ticks i initial.mvIni ∧
        ∀ j v, i < j → ¬WritesAt ar engine ticks j v) ∧
    ∀ i, (∀ k < i, ¬CompletesAt ar engine ticks k) →
      (((engine.stateAfter ar ticks (i + 1)).state ar).cyclesRemaining = 0 ↔
        CompletesAt ar engine ticks i) := by
  intro engine amplitude
  have hinv : RelayInv engine := RelayInv.new hfit
  have hcounters : CountersFit ar engine :=
    (new_counters ar config direction beta initial startTime hfit).2.2
  obtain ⟨hnonneg, hlow, hhigh⟩ := clamp_within
    (relayAmpPercent_pos_of_validate hvalid).le (relayAmpPercent_le_of_validate hvalid)
    hini.1 hini.2
  refine ⟨?_, ?_, ?_, ?_, ?_, ?_⟩
  · intro i v hw
    rcases writesAt_cases hinv hcounters hw with ⟨_, hv⟩ | ⟨_, _, hv | hv⟩
    · exact hv ▸ hini
    · rw [hv]
      exact ⟨hini.1.trans (le_add_of_nonneg_right hnonneg), hhigh⟩
    · rw [hv]
      exact ⟨hlow, (sub_le_self _ hnonneg).trans hini.2⟩
  · intro i v hw hgoes
    rcases writesAt_cases hinv hcounters hw with ⟨hdone, _⟩ | ⟨_, _, hv⟩
    · exact absurd hdone hgoes
    · exact hv
  · intro i j v w hij hv hw hgoes hgoes' hsilent
    refine ⟨writesAt_alternate hinv hcounters hij hv hw hgoes' hsilent, ?_⟩
    rcases writesAt_cases hinv hcounters hv with ⟨hdone, _⟩ | ⟨_, hne, _⟩
    · exact absurd hdone hgoes
    · exact hne
  · intro i v hw
    rcases writesAt_cases hinv hcounters hw with ⟨hdone, hv⟩ | ⟨hgoes, hne, _⟩
    · exact ⟨fun _ => hdone, fun _ => hv⟩
    · exact ⟨fun hv => absurd hv hne, fun hdone => absurd hdone hgoes⟩
  · intro i hdone
    refine ⟨?_, ?_⟩
    · obtain ⟨hinv', hfit'⟩ := hinv.stateAfter hcounters ticks i
      obtain ⟨peaks, troughs, switchTimes, mvSignInit, hmem⟩ := hdone
      have hini' : (engine.stateAfter ar ticks i).mvValueIni = initial.mvIni :=
        congrArg Setup.mvValueIni (setup_stateAfter ticks i)
      have hactions := (complete_mem_step hinv' hfit' (running_of_mem hmem) hmem).2.2.1
      show Action.writeMv initial.mvIni ∈ ((engine.stateAfter ar ticks i).step ar (ticks i)).2
      rw [hactions, hini']
      exact List.mem_cons_self
    · intro j v hij hw
      rw [WritesAt, actionsAt_of_completesAt hdone hij] at hw
      exact List.not_mem_nil hw
  · intro i hbefore
    exact cyclesRemaining_eq_zero_iff_completesAt hinv hcounters
      (running_of_not_completesAt rfl ticks i hbefore)

/-- The first write of the default flow loop. -/
theorem relay_writes_in_range_flow :
    WritesAt .machine (MrftEngine.new .machine flowLoopConfig .reverse (f32 0.433)
        midRangeReadings 0) swingingTicks 0 60 ∧ (0 : ℚ) ≤ 60 ∧ (60 : ℚ) ≤ 100 := by
  have hwrite : WritesAt .machine (MrftEngine.new .machine flowLoopConfig .reverse (f32 0.433)
      midRangeReadings 0) swingingTicks 0 60 := by
    rw [WritesAt]
    decide +kernel
  exact ⟨hwrite, (relay_writes_in_range .machine flowLoopConfig .reverse (f32 0.433)
    midRangeReadings 0 swingingTicks (by decide +kernel) (by decide)
    (Or.inr (by decide))).1 0 60 hwrite⟩

/-- **Which amplitude the tuning formula uses.**  For every completed run, the percentage that
`calculate_tuning_result` puts into the ultimate gain is the one the relay steps applied exactly
when both unclamped relay steps fit in the MV range. -/
theorem relay_amplitude_applied_iff (ar : IntArith) (config : LoopConfig K)
    (direction : ControllerDirection) (beta : K) (initial : InitialReadings K)
    (startTime : UtcTime) (ticks : ℕ → Tick K) (i : ℕ) (hvalid : config.validate = .ok ())
    (hrange : initial.mvRangeLow < initial.mvRangeHigh)
    (hini : initial.mvRangeLow ≤ initial.mvIni ∧ initial.mvIni ≤ initial.mvRangeHigh)
    (hfit : ar = .exact ∨
      2 * config.numCyclesSkip.toNat + 1 + 2 * config.numCyclesCount.toNat < 2 ^ 31)
    (hdone : CompletesAt ar (MrftEngine.new ar config direction beta initial startTime) ticks i) :
    let engine := MrftEngine.new ar config direction beta initial startTime
    let span := initial.mvRangeHigh - initial.mvRangeLow
    let step := config.relayAmpPercent / 100 * span
    (∀ oscillation level, (calculateTuningResult oscillation config level).kp =
      ultimateGain (lookup config.processType config.controllerType level).c1
        config.relayAmpPercent oscillation.pvAmpPercent) ∧
    ((∀ k v, WritesAt ar engine ticks k v → ¬CompletesAt ar engine ticks k →
        config.relayAmpPercent = 100 * |v - initial.mvIni| / span) ↔
      initial.mvIni + step ≤ initial.mvRangeHigh ∧ initial.mvRangeLow ≤ initial.mvIni - step) := by
  intro engine span step
  refine ⟨fun oscillation level => rfl, ?_⟩
  have hinv : RelayInv engine := RelayInv.new hfit
  obtain ⟨hskip, hcount, hcounters⟩ := new_counters ar config direction beta initial startTime hfit
  have hspan : 0 < span := sub_pos.mpr hrange
  have hpercent := relayAmpPercent_pos_of_validate hvalid
  obtain ⟨hnonneg, _, _⟩ := clamp_within hpercent.le (relayAmpPercent_le_of_validate hvalid)
    hini.1 hini.2
  -- the percentage a relay step of amplitude `a` amounts to
  have hpercent_iff : ∀ a : K, config.relayAmpPercent = 100 * a / span ↔ a = step := by
    intro a
    rw [eq_div_iff hspan.ne']
    constructor
    · intro heq
      show a = config.relayAmpPercent / 100 * span
      linarith
    · intro heq
      rw [heq]
      show config.relayAmpPercent * span = 100 * (config.relayAmpPercent / 100 * span)
      ring
  have hamplitude : ∀ k v, WritesAt ar engine ticks k v → ¬CompletesAt ar engine ticks k →
      |v - initial.mvIni| = clampRelayAmplitude config.relayAmpPercent initial.mvIni
        initial.mvRangeLow initial.mvRangeHigh := by
    intro k v hw hgoes
    rcases writesAt_cases hinv hcounters hw with ⟨hdone', _⟩ | ⟨_, _, hv | hv⟩
    · exact absurd hdone' hgoes
    · rw [hv]
      show |initial.mvIni + _ - initial.mvIni| = _
      rw [add_sub_cancel_left]
      exact abs_of_nonneg hnonneg
    · rw [hv]
      show |initial.mvIni - _ - initial.mvIni| = _
      rw [sub_sub_cancel_left, abs_neg]
      exact abs_of_nonneg hnonneg
  rw [← clamp_eq_raw_iff]
  constructor
  · intro hall
    -- a completed run has made at least three switches, so its first write was a relay step
    obtain ⟨hinv', _⟩ := hinv.stateAfter hcounters ticks (i + 1)
    have hcompleted := completed_of_completesAt hdone (Nat.lt_succ_self i)
    have hpos : 0 < (engine.stateAfter ar ticks (i + 1)).counterAllSwitches := by
      rw [hinv'.completed_iff.mp hcompleted]
      exact hinv'.total_pos
    obtain ⟨k, _, hstart, v, hw⟩ := exists_first_write hinv hcounters hpos rfl
    have hgoes : ¬CompletesAt ar engine ticks k := by
      rintro ⟨peaks, troughs, switchTimes, mvSignInit, hmem⟩
      obtain ⟨hinvk, hfitk⟩ := hinv.stateAfter hcounters ticks k
      have hlast := (complete_mem_step hinvk hfitk (running_of_mem hmem) hmem).1
      rw [hstart, totalSwitches_of_setup (setup_stateAfter ticks k), totalSwitches, hskip,
        hcount] at hlast
      have hone := one_le_count_of_validate hvalid
      omega
    have hused := hall k v hw hgoes
    rw [hamplitude k v hw hgoes, hpercent_iff] at hused
    exact hused
  · intro hraw k v hw hgoes
    rw [hamplitude k v hw hgoes, hpercent_iff]
    exact hraw

/-- The default flow loop, started `5` below the upper MV limit. -/
def nearLimitReadings : InitialReadings ℚ where
  pvIni := 50
  mvIni := 95
  mvRangeLow := 0
  mvRangeHigh := 100

/-- In mid-range the formula's `10` percent are the steps to `60` and `40`. -/
theorem relay_amplitude_applied_mid_range :
    (flowLoopConfig.relayAmpPercent = 100 * |60 - 50| / (100 - 0)) := by
  have hdone : CompletesAt .machine (MrftEngine.new .machine flowLoopConfig .reverse (f32 0.433)
      midRangeReadings 0) swingingTicks 6 := by
    refine ⟨[55, 55, 55], [45, 45], [seconds 8, seconds 12, seconds 16, seconds 20, seconds 24],
      1, ?_⟩
    decide +kernel
  have hwrite : WritesAt .machine (MrftEngine.new .machine flowLoopConfig .reverse (f32 0.433)
      midRangeReadings 0) swingingTicks 0 60 := by
    rw [WritesAt]
    decide +kernel
  have hgoes : ¬CompletesAt .machine (MrftEngine.new .machine flowLoopConfig .reverse (f32 0.433)
      midRangeReadings 0) swingingTicks 0 := by
    intro h
    have hlater := actionsAt_of_completesAt h Nat.zero_lt_one
    revert hlater
    decide +kernel
  exact ((relay_amplitude_applied_iff .machine flowLoopConfig .reverse (f32 0.433)
    midRangeReadings 0 swingingTicks 6 (by decide +kernel) (by decide)
    (by decide) (Or.inr (by decide)) hdone).2.mpr (by decide +kernel)) 0 60 hwrite hgoes

/-- Close to a limit the relay steps are `5` percent and the formula still uses `10`. -/
theorem relay_amplitude_not_applied_near_limit :
    ¬∀ (config : LoopConfig ℚ) (direction : ControllerDirection) (beta : ℚ)
      (initial : InitialReadings ℚ) (startTime : UtcTime) (ticks : ℕ → Tick ℚ) (i : ℕ),
      config.validate = .ok () → initial.mvRangeLow < initial.mvRangeHigh →
      initial.mvRangeLow ≤ initial.mvIni ∧ initial.mvIni ≤ initial.mvRangeHigh →
      CompletesAt .exact (MrftEngine.new .exact config direction beta initial startTime)
        ticks i →
      ∀ k v, WritesAt .exact (MrftEngine.new .exact config direction beta initial startTime)
          ticks k v →
        ¬CompletesAt .exact (MrftEngine.new .exact config direction beta initial startTime)
          ticks k →
        config.relayAmpPercent
          = 100 * |v - initial.mvIni| / (initial.mvRangeHigh - initial.mvRangeLow) := by
  intro hclaim
  have hdone : CompletesAt .exact (MrftEngine.new .exact flowLoopConfig .reverse (f32 0.433)
      nearLimitReadings 0) swingingTicks 6 := by
    refine ⟨[55, 55, 55], [45, 45], [seconds 8, seconds 12, seconds 16, seconds 20, seconds 24],
      1, ?_⟩
    decide +kernel
  have hwrite : WritesAt .exact (MrftEngine.new .exact flowLoopConfig .reverse (f32 0.433)
      nearLimitReadings 0) swingingTicks 0 100 := by
    rw [WritesAt]
    decide +kernel
  have hgoes : ¬CompletesAt .exact (MrftEngine.new .exact flowLoopConfig .reverse (f32 0.433)
      nearLimitReadings 0) swingingTicks 0 := by
    intro h
    have hlater := actionsAt_of_completesAt h Nat.zero_lt_one
    revert hlater
    decide +kernel
  have hused := hclaim flowLoopConfig .reverse (f32 0.433) nearLimitReadings 0 swingingTicks 6
    (by decide +kernel) (by decide +kernel) (by decide) hdone 0 100 hwrite hgoes
  revert hused
  decide +kernel

end Claims

end Bhtune
