import Bhtune.Core.Mrft

/-!
# The sides of a relay

A running engine commands the MV it started from or one of its two relay steps.  What follows holds
in exact arithmetic and in that of a float format, and whatever the words the counters are kept in.

* `relayUp`, `relayDown`, `RelayTarget` — the MVs an engine can command;
* `Relaying` — where the commanded MV of a running engine is;
* `Relaying.step`, `relaying_stateAfter` — the invariant of a run, and what a step of it writes.
-/

namespace Bhtune.MrftEngine

open MachineInt

section Counters

variable {K : Type*} {ar : IntArith} {e : MrftEngine K}

/-- The number of switches at which `is_complete` answers yes. -/
def switchTarget (ar : IntArith) (e : MrftEngine K) : ℕ :=
  ar.u32 (e.numSwitchesSkip + ar.u32 (e.numCyclesCount * 2))

/-- The engine takes its first switch for the last one, and snaps back. -/
def FirstIsLast (ar : IntArith) (e : MrftEngine K) : Prop :=
  ({ e with counterAllSwitches := 1 } : MrftEngine K).cyclesRemaining ar = 0

instance (ar : IntArith) (e : MrftEngine K) : Decidable (e.FirstIsLast ar) :=
  inferInstanceAs (Decidable (_ = _))

theorem tdiv_two_ne_zero {x : ℤ} (h : 2 ≤ x ∨ x ≤ -2) : x.tdiv 2 ≠ 0 := by
  rcases h with h | h
  · rw [Int.tdiv_eq_ediv_of_nonneg (by omega)]
    omega
  · rw [← neg_neg x, Int.neg_tdiv, Int.tdiv_eq_ediv_of_nonneg (by omega)]
    omega

/-- Only the first and the last switch can have no cycle left after them, in words that wrap too. -/
theorem cyclesRemaining_ne_zero {counter : ℕ} (hfirst : ¬e.FirstIsLast ar) (hpos : 1 ≤ counter)
    (hlt : counter < e.switchTarget ar) :
    ({ e with counterAllSwitches := counter } : MrftEngine K).cyclesRemaining ar ≠ 0 := by
  by_cases hone : counter = 1
  · subst hone
    exact hfirst
  · revert hlt
    unfold switchTarget cyclesRemaining
    intro hlt
    refine tdiv_two_ne_zero ?_
    cases ar with
    | exact =>
      simp only [IntArith.u32_exact] at hlt
      simp only [IntArith.i32_exact]
      omega
    | machine =>
      simp only [IntArith.u32] at hlt
      simp only [IntArith.i32, Int.bmod_mul_bmod, Int.add_bmod_bmod, Int.bmod_add_bmod,
        Int.sub_bmod_bmod, Int.bmod_sub_bmod]
      rw [Int.bmod_def]
      omega

theorem firstIsLast_of_setup {e' : MrftEngine K} (h : e'.setup = e.setup) :
    e'.FirstIsLast ar ↔ e.FirstIsLast ar := by
  have h₁ : e'.numSwitchesSkip = e.numSwitchesSkip := congrArg Setup.numSwitchesSkip h
  have h₂ : e'.numCyclesCount = e.numCyclesCount := congrArg Setup.numCyclesCount h
  unfold FirstIsLast cyclesRemaining
  rw [h₁, h₂]

theorem switchTarget_of_setup {e' : MrftEngine K} (h : e'.setup = e.setup) :
    e'.switchTarget ar = e.switchTarget ar := by
  have h₁ : e'.numSwitchesSkip = e.numSwitchesSkip := congrArg Setup.numSwitchesSkip h
  have h₂ : e'.numCyclesCount = e.numCyclesCount := congrArg Setup.numCyclesCount h
  unfold switchTarget
  rw [h₁, h₂]

/-- Completion adds no write. -/
theorem mem_finishStep {writes : List (Action K)} {v : K}
    (h : .writeMv v ∈ (finishStep ar e writes).2) : .writeMv v ∈ writes := by
  unfold finishStep at h
  split at h
  · simpa [completeAction] using h
  · exact h

end Counters

section Sides

variable {K : Type*} [Add K] [Mul K] [IntCast K]
variable {ar : IntArith} {e : MrftEngine K} {tick : Tick K}

/-- The relay step up, as the engine computes it. -/
def relayUp (e : MrftEngine K) : K := e.mvValueIni + ((1 : ℤ) : K) * e.relayAmpRaw

/-- The relay step down. -/
def relayDown (e : MrftEngine K) : K := e.mvValueIni + ((-1 : ℤ) : K) * e.relayAmpRaw

theorem relayUp_of_setup {e' : MrftEngine K} (h : e'.setup = e.setup) : e'.relayUp = e.relayUp := by
  have h₁ : e'.mvValueIni = e.mvValueIni := congrArg Setup.mvValueIni h
  have h₂ : e'.relayAmpRaw = e.relayAmpRaw := congrArg Setup.relayAmpRaw h
  unfold relayUp
  rw [h₁, h₂]

theorem relayDown_of_setup {e' : MrftEngine K} (h : e'.setup = e.setup) :
    e'.relayDown = e.relayDown := by
  have h₁ : e'.mvValueIni = e.mvValueIni := congrArg Setup.mvValueIni h
  have h₂ : e'.relayAmpRaw = e.relayAmpRaw := congrArg Setup.relayAmpRaw h
  unfold relayDown
  rw [h₁, h₂]

theorem relayUp_eq (e : MrftEngine ℚ) : e.relayUp = e.mvValueIni + e.relayAmpRaw := by
  unfold relayUp
  rw [Int.cast_one, one_mul]

theorem relayDown_eq (e : MrftEngine ℚ) : e.relayDown = e.mvValueIni - e.relayAmpRaw := by
  unfold relayDown
  rw [Int.cast_neg, Int.cast_one, neg_one_mul, sub_eq_add_neg]

/-- The MV of the start or of one of the two relay steps. -/
def RelayTarget (e : MrftEngine K) (mv : K) : Prop :=
  mv = e.mvValueIni ∨ mv = e.relayUp ∨ mv = e.relayDown

/-- A running engine commands one of the two relay steps, or the initial MV before its first
switch. -/
structure Relaying (ar : IntArith) (e : MrftEngine K) : Prop where
  below : e.counterAllSwitches < e.switchTarget ar
  idle : e.counterAllSwitches = 0 → e.mvValueCurrent = e.mvValueIni
  relayed : 0 < e.counterAllSwitches → e.mvValueCurrent = e.relayUp ∨ e.mvValueCurrent = e.relayDown

theorem Relaying.target (h : Relaying ar e) : e.RelayTarget e.mvValueCurrent := by
  rcases Nat.eq_zero_or_pos e.counterAllSwitches with hzero | hpos
  · exact .inl (h.idle hzero)
  · exact .inr (h.relayed hpos)

variable [Zero K] [Sub K] [LE K] [DecidableLE K] [Max K] [Min K]

theorem observe_next_cases (e : MrftEngine K) (tick : Tick K) :
    (e.observe tick).mvValueNextStep = e.relayUp ∨
      (e.observe tick).mvValueNextStep = e.relayDown := by
  rw [observe_mvValueNextStep]
  rcases observe_mvSignNextStep e tick with hsign | hsign <;> rw [hsign]
  · exact .inl rfl
  · exact .inr rfl

/-- The counter of a running engine does not wrap, and the new MV is a relay step unless no cycle
is left. -/
theorem Relaying.performSwitch (h : Relaying ar e) (tick : Tick K) :
    ((e.observe tick).performSwitch ar tick).1.counterAllSwitches = e.counterAllSwitches + 1 ∧
      ((e.observe tick).performSwitch ar tick).2 =
        if ({ e with counterAllSwitches := e.counterAllSwitches + 1 } : MrftEngine K).cyclesRemaining
            ar = 0 then e.mvValueIni
        else (e.observe tick).mvValueNextStep := by
  have hword : ar.u32 (e.counterAllSwitches + 1) = e.counterAllSwitches + 1 := by
    cases ar with
    | exact => rfl
    | machine =>
      have hbound : e.switchTarget .machine < 2 ^ 32 := IntArith.u32_machine_lt _
      exact IntArith.u32_eq (Nat.lt_of_le_of_lt (Nat.succ_le_of_lt h.below) hbound)
  have hcounter : ((e.observe tick).performSwitch ar tick).1.counterAllSwitches =
      e.counterAllSwitches + 1 := hword
  refine ⟨hcounter, ?_⟩
  rw [← hword]
  rfl

variable [SwitchStep K]

/-- **A step of a running engine**: it goes on running from a relay step.  What it writes is the
other step or, from a relay step, the initial MV. -/
theorem Relaying.step (h : Relaying ar e) (hc : e.completed = false)
    (hfirst : ¬e.FirstIsLast ar) (tick : Tick K) :
    ((e.step ar tick).1.completed = false → Relaying ar (e.step ar tick).1) ∧
      ∀ v, .writeMv v ∈ (e.step ar tick).2 →
        v = e.mvValueIni ∧ (e.mvValueCurrent = e.relayUp ∨ e.mvValueCurrent = e.relayDown) ∨
        (v = e.relayUp ∨ v = e.relayDown) ∧ SwitchStep.reached v e.mvValueCurrent = true := by
  by_cases hs : (e.observe tick).switchRequired tick = true
  · obtain ⟨hcounter, hmv⟩ := h.performSwitch tick
    have hreached := reached_of_switchRequired hs
    rw [step_of_switch hc hs]
    refine ⟨fun hrunning => ?_, fun v hv => ?_⟩
    · unfold finishStep at hrunning ⊢
      split at hrunning
      · cases hrunning
      · rename_i hcomplete
        rw [if_neg hcomplete]
        simp only [isComplete, decide_eq_true_eq, not_le] at hcomplete
        refine ⟨hcomplete, fun hzero => ?_, fun _ => ?_⟩
        · exact absurd (hcounter.symm.trans hzero) (Nat.succ_ne_zero _)
        · have hremains := cyclesRemaining_ne_zero hfirst (Nat.succ_pos _)
            (hcounter ▸ hcomplete : e.counterAllSwitches + 1 < e.switchTarget ar)
          rw [if_neg hremains] at hmv
          have hcases := observe_next_cases e tick
          rw [← hmv] at hcases
          exact hcases
    · have hv := List.mem_singleton.mp (mem_finishStep hv)
      rw [hmv] at hv
      cases hv
      split_ifs with hlast
      · refine .inl ⟨rfl, h.relayed ?_⟩
        by_contra hzero
        apply hfirst
        have hone : e.counterAllSwitches + 1 = 1 := by omega
        rw [hone] at hlast
        exact hlast
      · exact .inr ⟨observe_next_cases e tick, hreached⟩
  · rw [step_of_no_switch hc (by simpa using hs)]
    refine ⟨fun hrunning => ?_, fun v hv => absurd (mem_finishStep hv) List.not_mem_nil⟩
    unfold finishStep at hrunning ⊢
    split at hrunning
    · cases hrunning
    · rename_i hcomplete
      rw [if_neg hcomplete]
      exact ⟨h.below, h.idle, h.relayed⟩

/-- The invariant of a run, until it is completed. -/
theorem relaying_stateAfter (h : Relaying ar e) (hfirst : ¬e.FirstIsLast ar)
    (ticks : ℕ → Tick K) (n : ℕ) :
    (e.stateAfter ar ticks n).completed = false → Relaying ar (e.stateAfter ar ticks n) := by
  induction n with
  | zero => exact fun _ => h
  | succ n ih =>
    intro hrunning
    have hsetup : (e.stateAfter ar ticks n).setup = e.setup := setup_stateAfter ticks n
    cases hc : (e.stateAfter ar ticks n).completed with
    | true =>
      rw [stateAfter_succ, step_of_completed hc, hc] at hrunning
      cases hrunning
    | false =>
      exact ((ih hc).step hc (fun h => hfirst ((firstIsLast_of_setup hsetup).mp h)) (ticks n)).1
        hrunning

end Sides

end Bhtune.MrftEngine
