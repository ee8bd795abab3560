import Bhtune.Core.Equivariance
import Bhtune.Core.RelayWrites

/-!
# Peaks lie above the troughs next to them

Two extrema recorded one after the other share the sample of the switch between them, and the
relay law says on which side of `pv_ini` that sample lies.  The argument is made for a
reverse-acting loop; a direct-acting run is the mirror image of one (`step_mapPv` with `-1`).

* `GapInv` — the shared sample separates the last extremum from the next one;
* `extrema_apart` — adjacent extrema are strictly apart, the two of the very first switch pair
  excepted;
* `extrema_apart_and_valid` — the amplitude and the period of a completed run are positive.
-/

namespace Bhtune

open BinaryFloat MachineInt

variable {K : Type*} [Field K] [LinearOrder K]

/-- Entry `i` of the peaks and entry `j` of the troughs were recorded one after the other. -/
def AdjacentExtrema (firstIsPeak : Prop) (i j : ℕ) : Prop :=
  i = j ∨ (firstIsPeak ∧ i = j + 1) ∨ (¬firstIsPeak ∧ j = i + 1)

/-- Adjacent entries are strictly apart.  The one exception is the pair recorded by the first two
switches of a run that skips no cycle, which may touch. -/
def ExtremaApart (noneSkipped firstIsPeak : Prop) (peaks troughs : List K) : Prop :=
  ∀ i j peak trough, AdjacentExtrema firstIsPeak i j → peaks[i]? = some peak →
    troughs[j]? = some trough →
    trough < peak ∨ (noneSkipped ∧ i = 0 ∧ j = 0 ∧ trough ≤ peak)

/-! ### Appending an extremum -/

omit [Field K] [LinearOrder K] in
/-- An entry of a list with one entry appended. -/
theorem getElem?_concat_eq_some {xs : List K} {x y : K} {i : ℕ} (h : (xs ++ [x])[i]? = some y) :
    (i < xs.length ∧ xs[i]? = some y) ∨ (i = xs.length ∧ y = x) := by
  rcases Nat.lt_trichotomy i xs.length with hlt | heq | hgt
  · left
    rw [List.getElem?_append_left hlt] at h
    exact ⟨hlt, h⟩
  · right
    rw [heq, List.getElem?_concat_length, Option.some.injEq] at h
    exact ⟨heq, h.symm⟩
  · rw [List.getElem?_append_right hgt.le, List.getElem?_eq_none (by simp; omega)] at h
    exact absurd h (by simp)

omit [Field K] [LinearOrder K] in
theorem mem_getLast?_of_getElem? {xs : List K} {x : K} {i : ℕ} (h : xs[i]? = some x)
    (hi : xs.length ≤ i + 1) : x ∈ xs.getLast? := by
  have hlt : i < xs.length := (List.getElem?_eq_some_iff.mp h).1
  have hlast : xs.length - 1 = i := by omega
  rw [List.getLast?_eq_getElem?, hlast]
  exact h

omit [Field K] in
/-- A new peak only has to clear the trough recorded last. -/
theorem ExtremaApart.concat_peak {noneSkipped firstIsPeak : Prop} {peaks troughs : List K} {y : K}
    (h : ExtremaApart noneSkipped firstIsPeak peaks troughs)
    (hfirst : firstIsPeak → peaks.length = troughs.length)
    (hsecond : ¬firstIsPeak → troughs.length = peaks.length + 1)
    (hlast : ∀ trough ∈ troughs.getLast?, trough < y) :
    ExtremaApart noneSkipped firstIsPeak (peaks ++ [y]) troughs := by
  intro i j peak trough hadj hpeak htrough
  rcases getElem?_concat_eq_some hpeak with ⟨_, hold⟩ | ⟨hi, hy⟩
  · exact h i j peak trough hadj hold htrough
  · have hj : j < troughs.length := (List.getElem?_eq_some_iff.mp htrough).1
    have hend : troughs.length ≤ j + 1 := by
      rcases hadj with hij | ⟨hf, hij⟩ | ⟨hf, hij⟩
      · by_cases hf : firstIsPeak
        · have hlen := hfirst hf
          omega
        · have hlen := hsecond hf
          omega
      · have hlen := hfirst hf
        omega
      · have hlen := hsecond hf
        omega
    left
    rw [hy]
    exact hlast trough (mem_getLast?_of_getElem? htrough hend)

omit [Field K] in
/-- A new trough only has to stay below the peak recorded last; the first two may touch. -/
theorem ExtremaApart.concat_trough {noneSkipped firstIsPeak : Prop} {peaks troughs : List K}
    {y : K} (h : ExtremaApart noneSkipped firstIsPeak peaks troughs)
    (hfirst : firstIsPeak → peaks.length = troughs.length + 1)
    (hsecond : ¬firstIsPeak → peaks.length = troughs.length)
    (hlast : ∀ peak ∈ peaks.getLast?, y < peak ∨
      (noneSkipped ∧ peaks.length = 1 ∧ troughs.length = 0 ∧ y ≤ peak)) :
    ExtremaApart noneSkipped firstIsPeak peaks (troughs ++ [y]) := by
  intro i j peak trough hadj hpeak htrough
  rcases getElem?_concat_eq_some htrough with ⟨_, hold⟩ | ⟨hj, hy⟩
  · exact h i j peak trough hadj hpeak hold
  · have hi : i < peaks.length := (List.getElem?_eq_some_iff.mp hpeak).1
    have hend : peaks.length ≤ i + 1 := by
      rcases hadj with hij | ⟨hf, hij⟩ | ⟨hf, hij⟩
      · by_cases hf : firstIsPeak
        · have hlen := hfirst hf
          omega
        · have hlen := hsecond hf
          omega
      · have hlen := hfirst hf
        omega
      · have hlen := hsecond hf
        omega
    rw [hy]
    rcases hlast peak (mem_getLast?_of_getElem? hpeak hend) with hlt | ⟨hnone, hone, hzero, hle⟩
    · exact Or.inl hlt
    · exact Or.inr ⟨hnone, by omega, by omega, hle⟩

namespace MrftEngine

variable [IsStrictOrderedRing K]
variable {ar : IntArith} {e : MrftEngine K} {tick : Tick K}

/-! ### Where the relay law lets a switch happen -/

/-- The sign the next decision starts from. -/
def previousSign (e : MrftEngine K) : ℤ := if e.mvValueCurrent ≥ e.mvValueIni then 1 else -1

omit [IsStrictOrderedRing K] in
theorem previousSign_start (h : RelayInv e) (hzero : e.counterAllSwitches = 0) :
    e.previousSign = 1 := by
  rw [previousSign, h.mv_before hzero]
  exact if_pos le_rfl

/-- With a positive amplitude the decision starts from the side being held. -/
theorem previousSign_held (h : RelayInv e) (hA : 0 < e.relayAmpRaw)
    (hpos : 0 < e.counterAllSwitches) (hlt : e.counterAllSwitches < e.totalSwitches) :
    e.previousSign = e.heldSign := by
  have hcurrent := h.mv_held hpos hlt
  rw [previousSign]
  rcases h.heldSign_eq hpos with hone | hone
  · rw [hone, Int.cast_one, one_mul] at hcurrent
    rw [hone, hcurrent, if_pos]
    exact le_add_of_nonneg_right hA.le
  · rw [hone, Int.cast_neg, Int.cast_one, neg_one_mul] at hcurrent
    rw [hone, hcurrent, if_neg]
    exact not_le.mpr (add_lt_of_neg_right _ (neg_neg_of_pos hA))

omit [IsStrictOrderedRing K] in
/-- The relay law of a reverse-acting loop. -/
theorem sign_eq_one_iff (tick : Tick K) (hm : e.actionMultiplier = 1) :
    (e.observe tick).mvSignNextStep = 1 ↔
      0 ≤ e.pvValueIni - tick.pv + e.previousSign * (e.observe tick).hysteresis := by
  rw [observe_mvSignNextStep_eq, nextSign, if_pos hm]
  show (if e.pvValueIni - tick.pv + e.previousSign * (e.observe tick).hysteresis ≥ 0 then (1 : ℤ)
    else -1) = 1 ↔ _
  split_ifs with hvalve
  · exact ⟨fun _ => hvalve, fun _ => rfl⟩
  · exact ⟨fun h => absurd h (by decide), fun h => absurd h hvalve⟩

/-- The hysteresis is nonnegative and at least `beta` times the present deviation. -/
theorem hysteresis_bounds (tick : Tick K) (hbeta : 0 ≤ e.beta)
    (hcycle : e.minPvCycle ≤ e.pvValueIni ∧ e.pvValueIni ≤ e.maxPvCycle) :
    0 ≤ (e.observe tick).hysteresis ∧
      e.beta * (tick.pv - e.pvValueIni) ≤ (e.observe tick).hysteresis := by
  rw [hysteresis_observe]
  have hmax : e.maxPvCycle ≤ max e.maxPvCycle tick.pv := le_max_left _ _
  refine ⟨mul_nonneg hbeta (le_max_of_le_left ?_), mul_le_mul_of_nonneg_left ?_ hbeta⟩
  · linarith [hcycle.2]
  · exact le_max_of_le_left (sub_le_sub_right (le_max_right _ _) _)

/-! ### The invariant -/

/-- What the sample `p` of the last switch says about the extremum recorded there: it lies above
the trough of a switch to the low side, and not above the peak of a switch to the high side. -/
structure Anchor (e : MrftEngine K) (p : K) : Prop where
  min_le : e.minPvResult ≤ p
  le_max : p ≤ e.maxPvResult
  low : e.heldSign = -1 → e.pvValueIni < p ∧ ∀ trough ∈ e.troughs.getLast?, trough < p
  high : e.heldSign = 1 → (p ≤ e.pvValueIni ∨ (e.counterAllSwitches = 1 ∧ 1 ≤ e.beta)) ∧
    ∀ peak ∈ e.peaks.getLast?, p < peak ∨ (e.counterAllSwitches = 1 ∧ p ≤ peak)

/-- The invariant of a reverse-acting run. -/
structure GapInv (e : MrftEngine K) : Prop where
  cycle : e.minPvCycle ≤ e.pvValueIni ∧ e.pvValueIni ≤ e.maxPvCycle
  start : e.counterAllSwitches = 0 → e.minPvCycle = e.pvValueIni ∧ e.maxPvCycle = e.pvValueIni ∧
    e.minPvResult = e.pvValueIni ∧ e.maxPvResult = e.pvValueIni
  anchor : 0 < e.counterAllSwitches → ∃ p, Anchor e p
  apart : ExtremaApart (e.numSwitchesSkip = 1) (e.mvSignInit * e.actionMultiplier = 1) e.peaks
    e.troughs

omit [IsStrictOrderedRing K] in
theorem GapInv.observe (h : GapInv e) (hrun : 0 < e.counterAllSwitches) :
    GapInv (e.observe tick) where
  cycle := ⟨(min_le_left _ _).trans h.cycle.1, h.cycle.2.trans (le_max_left _ _)⟩
  start := fun hzero => absurd hzero hrun.ne'
  anchor := by
    intro _
    obtain ⟨p, hp⟩ := h.anchor hrun
    have hheld : (e.observe tick).heldSign = e.heldSign := heldSign_observe hrun
    refine ⟨p, (min_le_left _ _).trans hp.min_le, hp.le_max.trans (le_max_left _ _), ?_, ?_⟩
    · rw [hheld]
      exact hp.low
    · rw [hheld]
      exact hp.high
  apart := by
    rw [observe_mvSignInit_of_pos hrun]
    exact h.apart

/-! ### The sample of a switch -/

section Switch

variable (hgap : GapInv e) (hrelay : RelayInv e) (hm : e.actionMultiplier = 1)
variable (hA : 0 < e.relayAmpRaw) (hbeta : 0 ≤ e.beta)
variable (hlt : e.counterAllSwitches < e.totalSwitches)
variable (hs : (e.observe tick).switchRequired tick = true)

include hgap hrelay hm hA hbeta hlt hs

/-- A switch to the low side happens above `pv_ini`, and never with `beta` of one or more. -/
theorem pv_of_low_switch (hlow : (e.observe tick).mvSignNextStep = -1) :
    e.pvValueIni < tick.pv ∧ ¬1 ≤ e.beta := by
  have hprevious : e.previousSign = 1 := by
    rcases Nat.eq_zero_or_pos e.counterAllSwitches with hzero | hpos
    · exact previousSign_start hrelay hzero
    · rw [previousSign_held hrelay hA hpos hlt]
      have hnext := sign_alternates hrelay hpos hlt hs
      rw [hlow] at hnext
      omega
  have hvalve : ¬0 ≤ e.pvValueIni - tick.pv + (e.observe tick).hysteresis := by
    intro hvalve
    have hone := (sign_eq_one_iff tick hm).mpr (by
      rw [hprevious, Int.cast_one, one_mul]
      exact hvalve)
    rw [hlow] at hone
    exact absurd hone (by decide)
  obtain ⟨hnonneg, hdeviation⟩ := hysteresis_bounds tick hbeta hgap.cycle
  refine ⟨by linarith, ?_⟩
  intro hone
  have hmore : 0 ≤ (e.beta - 1) * (tick.pv - e.pvValueIni) :=
    mul_nonneg (by linarith) (by linarith)
  linarith

/-- A switch to the high side happens at or below `pv_ini`, except for a first switch with `beta`
of one or more. -/
theorem pv_of_high_switch (hhigh : (e.observe tick).mvSignNextStep = 1) :
    tick.pv ≤ e.pvValueIni ∨ (e.counterAllSwitches = 0 ∧ 1 ≤ e.beta) := by
  have hvalve := (sign_eq_one_iff tick hm).mp hhigh
  rcases Nat.eq_zero_or_pos e.counterAllSwitches with hzero | hpos
  · rw [previousSign_start hrelay hzero, Int.cast_one, one_mul, hysteresis_observe] at hvalve
    obtain ⟨hmin, hmax, _, _⟩ := hgap.start hzero
    rw [hmin, hmax] at hvalve
    rcases le_or_gt tick.pv e.pvValueIni with hle | hgt
    · exact Or.inl hle
    · right
      refine ⟨hzero, ?_⟩
      rw [max_eq_right hgt.le, min_eq_left hgt.le, sub_self,
        max_eq_left (sub_nonneg.mpr hgt.le)] at hvalve
      by_contra hless
      have hmore : 0 < (1 - e.beta) * (tick.pv - e.pvValueIni) :=
        mul_pos (by linarith) (by linarith)
      linarith
  · left
    have hnext := sign_alternates hrelay hpos hlt hs
    have hheld : e.heldSign = -1 := by omega
    rw [previousSign_held hrelay hA hpos hlt, hheld, Int.cast_neg, Int.cast_one,
      neg_one_mul] at hvalve
    obtain ⟨hnonneg, _⟩ := hysteresis_bounds tick hbeta hgap.cycle
    linarith

end Switch

/-! ### One switch -/

section Fields

variable (e : MrftEngine K) (tick : Tick K) (mv : K)

omit [IsStrictOrderedRing K]

theorem maxPvResult_observe :
    (e.observe tick).maxPvResult = max e.maxPvResult tick.pv := rfl

theorem minPvResult_observe :
    (e.observe tick).minPvResult = min e.minPvResult tick.pv := rfl

end Fields

omit [Field K] [LinearOrder K] [IsStrictOrderedRing K] in
/-- Nothing is on record before the skipped switches are over. -/
theorem RecordInv.nil_of_recorded_eq_zero (h : RecordInv e) (hnone : e.recordedSwitches = 0) :
    e.peaks = [] ∧ e.troughs = [] := by
  have hrec := h.extrema_length
  rw [hnone] at hrec
  have hlen : e.peaks.length = 0 ∧ e.troughs.length = 0 := by
    by_cases hsign : e.mvSignInit * e.actionMultiplier = 1
    · exact hrec.1 hsign
    · exact hrec.2 hsign
  exact ⟨List.eq_nil_of_length_eq_zero hlen.1, List.eq_nil_of_length_eq_zero hlen.2⟩

section Step

variable (hgap : GapInv e) (hrelay : RelayInv e) (hrecord : RecordInv e)
variable (hm : e.actionMultiplier = 1) (hA : 0 < e.relayAmpRaw) (hbeta : 0 ≤ e.beta)
variable (hlt : e.counterAllSwitches < e.totalSwitches)
variable (hs : (e.observe tick).switchRequired tick = true)

include hgap hrelay hrecord hm hA hbeta hlt hs

/-- The sample of the switch is the next anchor. -/
theorem anchor_switchedTo (mv : K) : Anchor (e.switchedTo tick mv) tick.pv where
  min_le := le_refl _
  le_max := le_refl _
  low := by
    rw [heldSign_switchedTo hrelay hlt hs]
    intro hlow
    obtain ⟨habove, hbetaLt⟩ := pv_of_low_switch hgap hrelay hm hA hbeta hlt hs hlow
    refine ⟨habove, ?_⟩
    rw [troughs_switchedTo, hm, hlow]
    intro trough htrough
    split_ifs at htrough with hrec
    · rw [List.getLast?_concat, Option.mem_some_iff] at htrough
      rw [← htrough, minPvResult_observe]
      refine lt_of_le_of_lt (min_le_left _ _) ?_
      rcases Nat.eq_zero_or_pos e.counterAllSwitches with hzero | hpos
      · rw [(hgap.start hzero).2.2.1]
        exact habove
      · obtain ⟨p, hp⟩ := hgap.anchor hpos
        have hnext := sign_alternates hrelay hpos hlt hs
        have hheld : e.heldSign = 1 := by omega
        rcases (hp.high hheld).1 with hside | ⟨_, hone⟩
        · exact lt_of_le_of_lt (hp.min_le.trans hside) habove
        · exact absurd hone hbetaLt
    · have hnone : e.recordedSwitches = 0 := by
        rw [recordedSwitches]
        by_contra hsome
        exact hrec ⟨by omega, by decide⟩
      rw [(hrecord.nil_of_recorded_eq_zero hnone).2] at htrough
      exact absurd htrough (by simp)
  high := by
    rw [heldSign_switchedTo hrelay hlt hs]
    intro hhigh
    have hside := pv_of_high_switch hgap hrelay hm hA hbeta hlt hs hhigh
    refine ⟨hside.imp_right fun h => ⟨by rw [counterAllSwitches_switchedTo, h.1], h.2⟩, ?_⟩
    rw [peaks_switchedTo, hm, hhigh]
    intro peak hpeak
    split_ifs at hpeak with hrec
    · rw [List.getLast?_concat, Option.mem_some_iff] at hpeak
      rw [← hpeak, maxPvResult_observe]
      rcases Nat.eq_zero_or_pos e.counterAllSwitches with hzero | hpos
      · right
        exact ⟨by rw [counterAllSwitches_switchedTo, hzero], le_max_right _ _⟩
      · left
        obtain ⟨p, hp⟩ := hgap.anchor hpos
        have hnext := sign_alternates hrelay hpos hlt hs
        have hheld : e.heldSign = -1 := by omega
        have hbelow : tick.pv ≤ e.pvValueIni :=
          hside.resolve_right fun h => absurd h.1 hpos.ne'
        calc tick.pv ≤ e.pvValueIni := hbelow
          _ < p := (hp.low hheld).1
          _ ≤ e.maxPvResult := hp.le_max
          _ ≤ max e.maxPvResult tick.pv := le_max_left _ _
    · have hnone : e.recordedSwitches = 0 := by
        rw [recordedSwitches]
        by_contra hsome
        exact hrec ⟨by omega, by decide⟩
      rw [(hrecord.nil_of_recorded_eq_zero hnone).1] at hpeak
      exact absurd hpeak (by simp)

omit hA hbeta in
/-- The extremum of the switch clears the one recorded last. -/
theorem apart_switchedTo (mv : K) :
    ExtremaApart (e.numSwitchesSkip = 1)
      ((e.observe tick).mvSignInit * e.actionMultiplier = 1)
      (e.switchedTo tick mv).peaks (e.switchedTo tick mv).troughs := by
  have hobserved : RecordInv (e.observe tick) := hrecord.observe
  have hpeak := hrecord.isPeak_iff hrelay hlt hs
  have hodd := hrecord.skip_odd
  -- before the first switch there is nothing to compare with
  have hold : ExtremaApart (e.numSwitchesSkip = 1)
      ((e.observe tick).mvSignInit * e.actionMultiplier = 1) e.peaks e.troughs ∧
      (e.counterAllSwitches = 0 → e.peaks = [] ∧ e.troughs = []) := by
    rcases Nat.eq_zero_or_pos e.counterAllSwitches with hzero | hpos
    · have hnone : e.recordedSwitches = 0 := by
        rw [recordedSwitches]
        omega
      obtain ⟨hp, ht⟩ := hrecord.nil_of_recorded_eq_zero hnone
      refine ⟨?_, fun _ => ⟨hp, ht⟩⟩
      rw [hp]
      intro i j peak trough _ hpeak'
      exact absurd hpeak' (by simp)
    · refine ⟨?_, fun hzero => absurd hzero hpos.ne'⟩
      rw [observe_mvSignInit_of_pos hpos]
      exact hgap.apart
  have hlengths := hobserved.extrema_length
  have hnumber : (e.observe tick).recordedSwitches
      = e.counterAllSwitches + 1 - e.numSwitchesSkip := rfl
  rw [hnumber] at hlengths
  change ((e.observe tick).mvSignInit * e.actionMultiplier = 1 → e.peaks.length = _ ∧
    e.troughs.length = _) ∧ (¬(e.observe tick).mvSignInit * e.actionMultiplier = 1 →
    e.peaks.length = _ ∧ e.troughs.length = _) at hlengths
  rw [peaks_switchedTo, troughs_switchedTo]
  by_cases hskip : e.numSwitchesSkip ≤ e.counterAllSwitches + 1
  · by_cases hhigh : (e.observe tick).mvSignNextStep * e.actionMultiplier = 1
    · rw [if_pos ⟨hskip, hhigh⟩, if_neg (fun h => h.2 hhigh)]
      have hparity := hpeak.mp hhigh
      refine hold.1.concat_peak ?_ ?_ ?_
      · intro hfirst
        have hlen := hlengths.1 hfirst
        have heven := hparity.mp hfirst
        omega
      · intro hfirst
        have hlen := hlengths.2 hfirst
        have heven : ¬e.counterAllSwitches % 2 = 0 := fun h => hfirst (hparity.mpr h)
        omega
      · intro trough htrough
        rcases Nat.eq_zero_or_pos e.counterAllSwitches with hzero | hpos
        · rw [(hold.2 hzero).2] at htrough
          exact absurd htrough (by simp)
        · obtain ⟨p, hp⟩ := hgap.anchor hpos
          have hnext := sign_alternates hrelay hpos hlt hs
          rw [hm, mul_one] at hhigh
          have hheld : e.heldSign = -1 := by omega
          calc trough < p := (hp.low hheld).2 trough htrough
            _ ≤ e.maxPvResult := hp.le_max
            _ ≤ max e.maxPvResult tick.pv := le_max_left _ _
    · rw [if_neg (fun h => hhigh h.2), if_pos ⟨hskip, hhigh⟩]
      have hparity := mt hpeak.mpr hhigh
      refine hold.1.concat_trough ?_ ?_ ?_
      · intro hfirst
        have hlen := hlengths.1 hfirst
        have heven : ¬e.counterAllSwitches % 2 = 0 := fun h => hparity ⟨fun _ => h, fun _ => hfirst⟩
        omega
      · intro hfirst
        have hlen := hlengths.2 hfirst
        have heven : e.counterAllSwitches % 2 = 0 := by
          by_contra h
          exact hparity ⟨fun hf => absurd hf hfirst, fun hev => absurd hev h⟩
        omega
      · intro peak hlast
        rcases Nat.eq_zero_or_pos e.counterAllSwitches with hzero | hpos
        · rw [(hold.2 hzero).1] at hlast
          exact absurd hlast (by simp)
        · obtain ⟨p, hp⟩ := hgap.anchor hpos
          have hnext := sign_alternates hrelay hpos hlt hs
          have hsign := observe_mvSignNextStep e tick
          rw [hm, mul_one] at hhigh
          have hheld : e.heldSign = 1 := by omega
          have hbelow : min e.minPvResult tick.pv ≤ p := (min_le_left _ _).trans hp.min_le
          rcases (hp.high hheld).2 peak hlast with hlt' | ⟨hone, hle⟩
          · exact Or.inl (lt_of_le_of_lt hbelow hlt')
          · right
            have hfirst : (e.observe tick).mvSignInit * e.actionMultiplier = 1 := by
              by_contra hfirst
              exact hparity ⟨fun hf => absurd hf hfirst, fun hev => by omega⟩
            have hlen := hlengths.1 hfirst
            exact ⟨by omega, by omega, by omega, hbelow.trans hle⟩
  · rw [if_neg (fun h => hskip h.1), if_neg (fun h => hskip h.1)]
    exact hold.1

/-- **One switch keeps the gap invariant.** -/
theorem GapInv.switched (mv : K) : GapInv (e.switchedTo tick mv) where
  cycle := ⟨le_refl _, le_refl _⟩
  start := fun hzero => absurd hzero (Nat.succ_ne_zero _)
  anchor := fun _ => ⟨tick.pv, anchor_switchedTo hgap hrelay hrecord hm hA hbeta hlt hs mv⟩
  apart := apart_switchedTo hgap hrelay hrecord hm hlt hs mv

end Step

/-- Before the first switch no tick is let through: with an amplitude at or above the threshold
every sample switches. -/
theorem switchRequired_of_start (hrelay : RelayInv e)
    (hA : (mvSwitchThreshold : K) ≤ e.relayAmpRaw) (hzero : e.counterAllSwitches = 0) :
    (e.observe tick).switchRequired tick = true := by
  have hpos : 0 ≤ e.relayAmpRaw := mvSwitchThreshold_cast_pos.le.trans hA
  have hmove : (mvSwitchThreshold : K) ≤
      |(e.observe tick).mvValueNextStep - (e.observe tick).mvValueCurrent| := by
    show _ ≤ |(e.observe tick).mvValueNextStep - e.mvValueCurrent|
    rw [observe_mvValueNextStep, hrelay.mv_before hzero, add_sub_cancel_left]
    rcases observe_mvSignNextStep e tick with hone | hone
    · rw [hone, Int.cast_one, one_mul, abs_of_nonneg hpos]
      exact hA
    · rw [hone, Int.cast_neg, Int.cast_one, neg_one_mul, abs_neg, abs_of_nonneg hpos]
      exact hA
  rw [switchRequired, Bool.and_eq_true]
  refine ⟨(SwitchStep.reached_iff _ _).mpr hmove, ?_⟩
  rw [Bool.or_eq_true, decide_eq_true_eq, decide_eq_true_eq]
  exact Or.inr hzero

/-- **One step keeps the gap invariant** of a reverse-acting run whose relay can switch. -/
theorem GapInv.step (hgap : GapInv e) (hrelay : RelayInv e) (hrecord : RecordInv e)
    (hfit : CountersFit ar e) (hm : e.actionMultiplier = 1)
    (hA : (mvSwitchThreshold : K) ≤ e.relayAmpRaw) (hbeta : 0 ≤ e.beta) :
    GapInv (e.step ar tick).1 := by
  by_cases hc : e.completed = true
  · rw [step_of_completed hc]
    exact hgap
  · have hrun : e.completed = false := by simpa using hc
    have hlt := hrelay.counter_lt hrun
    have hApos : 0 < e.relayAmpRaw := mvSwitchThreshold_cast_pos.trans_le hA
    have hcase : RunningStep e tick (e.step ar tick) := runningStep hfit hrun hlt
    generalize e.step ar tick = result at hcase
    cases hcase with
    | hold hs =>
      rcases Nat.eq_zero_or_pos e.counterAllSwitches with hzero | hpos
      · rw [switchRequired_of_start hrelay hA hzero] at hs
        exact Bool.noConfusion hs
      · exact hgap.observe hpos
    | relay hs hmore =>
      exact GapInv.switched hgap hrelay hrecord hm hApos hbeta hlt hs _
    | finish hs heq =>
      have hswitched := GapInv.switched hgap hrelay hrecord hm hApos hbeta hlt hs e.mvValueIni
      exact ⟨hswitched.cycle, hswitched.start,
        fun h => by
          obtain ⟨p, hp⟩ := hswitched.anchor h
          exact ⟨p, hp.min_le, hp.le_max, hp.low, hp.high⟩, hswitched.apart⟩

/-! ### Whole runs -/

omit [IsStrictOrderedRing K] in
theorem GapInv.new (ar : IntArith) (config : LoopConfig K) (direction : ControllerDirection)
    (beta : K) (initial : InitialReadings K) (startTime : UtcTime) :
    GapInv (new ar config direction beta initial startTime) where
  cycle := ⟨le_refl _, le_refl _⟩
  start := fun _ => ⟨rfl, rfl, rfl, rfl⟩
  anchor := fun hpos => absurd rfl hpos.ne
  apart := by
    intro i j peak trough _ hpeak
    exact absurd hpeak (by simp [MrftEngine.new])

/-- A relay that has completed a run was able to switch at its first tick. -/
theorem threshold_le_of_completesAt (hrelay : RelayInv e) (hfit : CountersFit ar e)
    (hA : 0 ≤ e.relayAmpRaw) (hzero : e.counterAllSwitches = 0) {ticks : ℕ → Tick K} {i : ℕ}
    (hdone : CompletesAt ar e ticks i) : (mvSwitchThreshold : K) ≤ e.relayAmpRaw := by
  obtain ⟨hinv, _⟩ := hrelay.stateAfter hfit ticks (i + 1)
  have hpos : 0 < (e.stateAfter ar ticks (i + 1)).counterAllSwitches := by
    rw [hinv.completed_iff.mp (completed_of_completesAt hdone (Nat.lt_succ_self i))]
    exact hinv.total_pos
  obtain ⟨k, _, hstart, v, hw⟩ := exists_first_write hrelay hfit hpos hzero
  obtain ⟨hinvk, hfitk⟩ := hrelay.stateAfter hfit ticks k
  obtain ⟨hs, _⟩ := write_mem_step hinvk hfitk (running_of_mem hw) hw
  have hsetup : (e.stateAfter ar ticks k).setup = e.setup := setup_stateAfter ticks k
  have hamp : (e.stateAfter ar ticks k).relayAmpRaw = e.relayAmpRaw :=
    congrArg Setup.relayAmpRaw hsetup
  have hmove := le_abs_of_switchRequired hs
  change _ ≤ |((e.stateAfter ar ticks k).observe (ticks k)).mvValueNextStep
    - (e.stateAfter ar ticks k).mvValueCurrent| at hmove
  rw [observe_mvValueNextStep, hinvk.mv_before hstart, add_sub_cancel_left, hamp] at hmove
  rcases observe_mvSignNextStep (e.stateAfter ar ticks k) (ticks k) with hone | hone
  · rw [hone, Int.cast_one, one_mul, abs_of_nonneg hA] at hmove
    exact hmove
  · rw [hone, Int.cast_neg, Int.cast_one, neg_one_mul, abs_neg, abs_of_nonneg hA] at hmove
    exact hmove

/-- **The gap invariant holds at every tick of a reverse-acting run.** -/
theorem GapInv.stateAfter (hgap : GapInv e) (hrelay : RelayInv e) (hrecord : RecordInv e)
    (hfit : CountersFit ar e) (hm : e.actionMultiplier = 1)
    (hA : (mvSwitchThreshold : K) ≤ e.relayAmpRaw) (hbeta : 0 ≤ e.beta) (ticks : ℕ → Tick K)
    (n : ℕ) : GapInv (e.stateAfter ar ticks n) := by
  induction n with
  | zero => exact hgap
  | succ n ih =>
    obtain ⟨hinv, hfit'⟩ := hrelay.stateAfter hfit ticks n
    have hsetup : (e.stateAfter ar ticks n).setup = e.setup := setup_stateAfter ticks n
    have hm' : (e.stateAfter ar ticks n).actionMultiplier = e.actionMultiplier :=
      congrArg Setup.actionMultiplier hsetup
    have hamp : (e.stateAfter ar ticks n).relayAmpRaw = e.relayAmpRaw :=
      congrArg Setup.relayAmpRaw hsetup
    have hbeta' : (e.stateAfter ar ticks n).beta = e.beta := congrArg Setup.beta hsetup
    rw [stateAfter_succ]
    exact ih.step hinv (hrecord.stateAfter hrelay hfit ticks n) hfit' (hm'.trans hm)
      (by rw [hamp]; exact hA) (by rw [hbeta']; exact hbeta)

omit [IsStrictOrderedRing K] in
theorem switchTimes_step (hrelay : RelayInv e) (hfit : CountersFit ar e) :
    (e.step ar tick).1.switchTimes = e.switchTimes ∨
      (e.step ar tick).1.switchTimes = e.switchTimes ++ [tick.time] := by
  have hswitched : ∀ mv, (e.switchedTo tick mv).switchTimes = e.switchTimes ∨
      (e.switchedTo tick mv).switchTimes = e.switchTimes ++ [tick.time] := by
    intro mv
    rw [switchTimes_switchedTo]
    split_ifs
    · exact Or.inr rfl
    · exact Or.inl rfl
  by_cases hc : e.completed = true
  · rw [step_of_completed hc]
    exact Or.inl rfl
  · have hrun : e.completed = false := by simpa using hc
    have hcase : RunningStep e tick (e.step ar tick) :=
      runningStep hfit hrun (hrelay.counter_lt hrun)
    generalize e.step ar tick = result at hcase
    cases hcase with
    | hold hs => exact Or.inl rfl
    | relay hs hmore => exact hswitched _
    | finish hs heq => exact hswitched e.mvValueIni

/-- Switch times are at least as far apart as the ticks are. -/
theorem switchTimes_stateAfter (hrelay : RelayInv e) (hfit : CountersFit ar e)
    (hempty : e.switchTimes = []) {gap : ℤ} (hgap : 0 ≤ gap) {ticks : ℕ → Tick K}
    (htimes : ∀ k, (ticks k).time + gap ≤ (ticks (k + 1)).time) (n : ℕ) :
    (e.stateAfter ar ticks n).switchTimes.Pairwise (fun s t => s + gap ≤ t) ∧
      ∀ t ∈ (e.stateAfter ar ticks n).switchTimes, t + gap ≤ (ticks n).time := by
  induction n with
  | zero =>
    show e.switchTimes.Pairwise _ ∧ ∀ t ∈ e.switchTimes, _
    rw [hempty]
    exact ⟨List.Pairwise.nil, fun t ht => absurd ht List.not_mem_nil⟩
  | succ n ih =>
    obtain ⟨hinv, hfit'⟩ := hrelay.stateAfter hfit ticks n
    obtain ⟨hpairs, hbound⟩ := ih
    have hnext := htimes n
    have hstep : (e.stateAfter ar ticks (n + 1)).switchTimes
          = (e.stateAfter ar ticks n).switchTimes ∨
        (e.stateAfter ar ticks (n + 1)).switchTimes
          = (e.stateAfter ar ticks n).switchTimes ++ [(ticks n).time] :=
      switchTimes_step hinv hfit'
    rcases hstep with hsame | hmore
    · rw [hsame]
      refine ⟨hpairs, fun t ht => ?_⟩
      exact (hbound t ht).trans ((le_add_of_nonneg_right hgap).trans hnext)
    · rw [hmore]
      refine ⟨List.pairwise_append.mpr ⟨hpairs, List.pairwise_singleton _ _, ?_⟩, ?_⟩
      · intro s hs t ht
        rw [List.mem_singleton.mp ht]
        exact hbound s hs
      · intro t ht
        rcases List.mem_append.mp ht with hold | hnew
        · exact (hbound t hold).trans ((le_add_of_nonneg_right hgap).trans hnext)
        · rw [List.mem_singleton.mp hnew]
          exact hnext

end MrftEngine

/-! ### From the gap to a valid result -/

section Positive

variable [IsStrictOrderedRing K]

/-- Sums compare when every entry does. -/
theorem sum_lt_sum_of_getElem? {xs ys : List K} (hlen : xs.length = ys.length)
    (hne : xs ≠ [])
    (h : ∀ (i : ℕ) x y, xs[i]? = some x → ys[i]? = some y → x < y) : xs.sum < ys.sum := by
  induction xs generalizing ys with
  | nil => exact absurd rfl hne
  | cons x rest ih =>
    cases ys with
    | nil => exact absurd hlen (by simp)
    | cons y rest' =>
      have hhead : x < y := h 0 x y rfl rfl
      have htail : ∀ (i : ℕ) u v, rest[i]? = some u → rest'[i]? = some v → u < v :=
        fun i u v hu hv => h (i + 1) u v hu hv
      have hlen' : rest.length = rest'.length := Nat.succ.inj hlen
      rw [List.sum_cons, List.sum_cons]
      by_cases hrest : rest = []
      · have hrest' : rest' = [] := by
          rw [hrest] at hlen'
          exact List.eq_nil_of_length_eq_zero hlen'.symm
        rw [hrest, hrest']
        exact add_lt_add_left hhead _
      · exact add_lt_add hhead (ih hlen' hrest htail)

/-- **The extrema that count have a positive mean difference.**  The pair that may touch is the
first one, and the first extremum is left out of the sums. -/
theorem countedSums_lt {noneSkipped : Prop} {firstIsPeak : Bool} {peaks troughs : List K} {n : ℕ}
    (hn : 1 ≤ n)
    (hpeak : firstIsPeak = true → peaks.length = n + 1 ∧ troughs.length = n)
    (htrough : firstIsPeak = false → peaks.length = n ∧ troughs.length = n + 1)
    (h : ExtremaApart noneSkipped (firstIsPeak = true) peaks troughs) :
    (countedSums peaks troughs firstIsPeak).2 < (countedSums peaks troughs firstIsPeak).1 := by
  cases firstIsPeak with
  | true =>
    obtain ⟨hp, ht⟩ := hpeak rfl
    show troughs.sum < peaks.tail.sum
    refine sum_lt_sum_of_getElem? (by rw [List.length_tail]; omega) ?_ ?_
    · intro hnil
      rw [hnil, List.length_nil] at ht
      omega
    · intro i x y hx hy
      rw [List.getElem?_tail] at hy
      have hnext := h (i + 1) i y x (Or.inr (Or.inl ⟨rfl, rfl⟩)) hy hx
      exact hnext.resolve_right fun hweak => absurd hweak.2.1 (Nat.succ_ne_zero i)
  | false =>
    obtain ⟨hp, ht⟩ := htrough rfl
    show troughs.tail.sum < peaks.sum
    refine sum_lt_sum_of_getElem? (by rw [List.length_tail]; omega) ?_ ?_
    · intro hnil
      have hzero : troughs.tail.length = 0 := by rw [hnil, List.length_nil]
      rw [List.length_tail] at hzero
      omega
    · intro i x y hx hy
      rw [List.getElem?_tail] at hx
      have hnext := h i (i + 1) y x (Or.inr (Or.inr ⟨Bool.false_ne_true, rfl⟩)) hy hx
      exact hnext.resolve_right fun hweak => absurd hweak.2.2.1 (Nat.succ_ne_zero i)

omit [Field K] [LinearOrder K] [IsStrictOrderedRing K] in
theorem one_le_elapsedMilliseconds {first last : ℤ} (h : first + 1000000 ≤ last) :
    1 ≤ elapsedMilliseconds first last := by
  rw [elapsedMilliseconds, Int.tdiv_eq_ediv_of_nonneg (by omega)]
  omega

omit [Field K] [LinearOrder K] [IsStrictOrderedRing K] in
/-- The first and the last of a list of spread-out times are apart. -/
theorem headD_add_le_getLastD {times : List ℤ} {gap : ℤ}
    (h : times.Pairwise (fun s t => s + gap ≤ t)) (hlen : 2 ≤ times.length) :
    times.headD 0 + gap ≤ times.getLastD 0 := by
  match times, h, hlen with
  | first :: second :: rest, h, _ =>
    have hlast : (second :: rest).getLast (List.cons_ne_nil _ _) ∈ second :: rest :=
      List.getLast_mem _
    have hgap := (List.pairwise_cons.mp h).1 _ hlast
    rw [List.headD_cons, List.getLastD_eq_getLast?, List.getLast?_cons_cons,
      List.getLast?_eq_some_getLast (List.cons_ne_nil _ _)]
    exact hgap

/-- A positive difference of sums is a positive raw amplitude. -/
theorem pvAmpRaw_pos {sums : K × K} (hsums : sums.2 < sums.1) (first last : UtcTime) {n : ℕ}
    (hn : 1 ≤ n) (pvRange : PvRange K) :
    ∃ raw, (oscillationOf sums first last n pvRange).pvAmpRaw = XNum.fin raw ∧ 0 < raw := by
  have hnpos : (0 : K) < n := Nat.cast_pos.mpr hn
  refine ⟨(sums.1 - sums.2) / (2 * (n : K)), ?_,
    div_pos (sub_pos.mpr hsums) (mul_pos two_pos hnpos)⟩
  simp only [oscillationOf]
  rw [XNum.fin_div_fin_of_ne _ (mul_ne_zero two_ne_zero hnpos.ne')]

/-- A measurement of a positive difference over a positive time has no reason to be invalid. -/
theorem invalidOscillationReason_eq_none {sums : K × K} (hsums : sums.2 < sums.1)
    {first last : UtcTime} (htime : first + 1000000 ≤ last) {n : ℕ} (hn : 1 ≤ n)
    {pvRange : PvRange K} (hrange : pvRange.low < pvRange.high) :
    invalidOscillationReason (oscillationOf sums first last n pvRange) = none := by
  have hnpos : (0 : K) < n := Nat.cast_pos.mpr hn
  have hspan : 0 < pvRange.high - pvRange.low := sub_pos.mpr hrange
  obtain ⟨raw, hvalue, hraw⟩ := pvAmpRaw_pos hsums first last hn pvRange
  have hpercent : 0 < raw / (pvRange.high - pvRange.low) * 100 :=
    mul_pos (div_pos hraw hspan) (by norm_num)
  have hms : 1 ≤ elapsedMilliseconds first last := one_le_elapsedMilliseconds htime
  have hperiod : 0 < (elapsedMilliseconds first last : K) / 1000 / 60 / n := by
    refine div_pos (div_pos (div_pos ?_ (by norm_num)) (by norm_num)) hnpos
    exact Int.cast_pos.mpr (by omega)
  have hfrequency : 0 < 2 * (pi32 : K) / ((elapsedMilliseconds first last : K) / 1000 / 60 / n) :=
    div_pos (mul_pos two_pos (Rat.cast_pos.mpr pi32_pos)) hperiod
  have hmeasured : oscillationOf sums first last n pvRange =
      ⟨XNum.fin ((elapsedMilliseconds first last : K) / 1000 / 60 / n),
        XNum.fin (2 * (pi32 : K) / ((elapsedMilliseconds first last : K) / 1000 / 60 / n)),
        XNum.fin raw, XNum.fin (raw / (pvRange.high - pvRange.low) * 100)⟩ := by
    simp only [oscillationOf] at hvalue ⊢
    rw [hvalue, XNum.fin_div_fin_of_ne _ hnpos.ne', XNum.fin_div_fin_of_ne _ hperiod.ne',
      XNum.fin_div_fin_of_ne _ hspan.ne', XNum.fin_mul_fin]
  rw [hmeasured, invalidOscillationReason]
  simp only [XNum.isFinite_fin, XNum.leZero_fin, decide_eq_false (not_le.mpr hraw),
    decide_eq_false (not_le.mpr hpercent), decide_eq_false (not_le.mpr hperiod),
    decide_eq_false (not_le.mpr hfrequency), Bool.not_true, Bool.or_false, Bool.false_eq_true,
    if_false]

omit [IsStrictOrderedRing K] in
/-- The reasons found after the measurement are not about amplitude or period. -/
theorem invalidReason_checkedResultFromTuning (tuning : TuningResult K) (template : DcsTemplate) :
    (checkedResultFromTuning tuning template).invalidReason ≠ some .nonPositivePvAmplitude ∧
      (checkedResultFromTuning tuning template).invalidReason ≠ some .nonPositivePeriod := by
  unfold checkedResultFromTuning
  dsimp only
  split_ifs <;>
    simp [CheckedTuningResult.invalid, CheckedTuningResult.valid]

/-- The gap of a mirrored run is the gap of the run. -/
theorem ExtremaApart.of_mirror {noneSkipped firstIsPeak : Prop} {peaks troughs : List K}
    (h : ExtremaApart noneSkipped firstIsPeak (troughs.map (affine (-1) 0))
      (peaks.map (affine (-1) 0))) : ExtremaApart noneSkipped (¬firstIsPeak) peaks troughs := by
  intro i j peak trough hadj hpeak htrough
  have hadj' : AdjacentExtrema firstIsPeak j i := by
    rcases hadj with hij | ⟨hf, hij⟩ | ⟨hf, hij⟩
    · exact Or.inl hij.symm
    · exact Or.inr (Or.inr ⟨hf, hij⟩)
    · exact Or.inr (Or.inl ⟨not_not.mp hf, hij⟩)
  have hpeak' : (peaks.map (affine (-1) 0))[i]? = some (affine (-1) 0 peak) := by
    rw [List.getElem?_map, hpeak]
    rfl
  have htrough' : (troughs.map (affine (-1) 0))[j]? = some (affine (-1) 0 trough) := by
    rw [List.getElem?_map, htrough]
    rfl
  have hneg : ∀ x : K, affine (-1) 0 x = -x := by
    intro x
    rw [affine, neg_one_mul, add_zero]
  have hgap := h j i _ _ hadj' htrough' hpeak'
  rw [hneg, hneg, neg_lt_neg_iff, neg_le_neg_iff] at hgap
  refine hgap.imp_right ?_
  rintro ⟨hn, hj, hi, hle⟩
  exact ⟨hn, hi, hj, hle⟩

end Positive

/-! ### Every completed run -/

section Runs

open MrftEngine

variable [IsStrictOrderedRing K]

/-- Adjacent extrema of a completed reverse-acting run. -/
theorem extrema_apart_reverse {ar : IntArith} {e : MrftEngine K} {ticks : ℕ → Tick K} {i : ℕ}
    {peaks troughs : List K} {switchTimes : List UtcTime} {mvSignInit : ℤ} (hgap : GapInv e)
    (hrelay : RelayInv e) (hrecord : RecordInv e) (hfit : CountersFit ar e)
    (hm : e.actionMultiplier = 1) (hA : 0 ≤ e.relayAmpRaw) (hbeta : 0 ≤ e.beta)
    (hzero : e.counterAllSwitches = 0)
    (hmem : Action.complete peaks troughs switchTimes mvSignInit ∈ e.actionsAt ar ticks i) :
    ExtremaApart (e.numSwitchesSkip = 1) (mvSignInit = 1) peaks troughs := by
  have hdone : CompletesAt ar e ticks i := ⟨_, _, _, _, hmem⟩
  have hthreshold := threshold_le_of_completesAt hrelay hfit hA hzero hdone
  have hnext := (hgap.stateAfter hrelay hrecord hfit hm hthreshold hbeta ticks (i + 1)).apart
  obtain ⟨hinv, hfit'⟩ := hrelay.stateAfter hfit ticks i
  obtain ⟨_, _, hstep, hp, ht, _, hsign⟩ :=
    complete_mem_step hinv hfit' (running_of_mem hmem) hmem
  have hsetup : (e.stateAfter ar ticks (i + 1)).setup = e.setup := setup_stateAfter ticks (i + 1)
  have hskip : (e.stateAfter ar ticks (i + 1)).numSwitchesSkip = e.numSwitchesSkip :=
    congrArg Setup.numSwitchesSkip hsetup
  have hm' : (e.stateAfter ar ticks (i + 1)).actionMultiplier = 1 :=
    (congrArg Setup.actionMultiplier hsetup).trans hm
  rw [hskip, hm', mul_one, stateAfter_succ, hstep, ← hp, ← ht, ← hsign] at hnext
  exact hnext

/-- **Adjacent extrema of a completed run**, for either direction. -/
theorem extrema_apart (ar : IntArith) (config : LoopConfig K) (direction : ControllerDirection)
    (beta : K) (initial : InitialReadings K) (startTime : UtcTime) {ticks : ℕ → Tick K} {i : ℕ}
    {peaks troughs : List K} {switchTimes : List UtcTime} {mvSignInit : ℤ}
    (hfit : ar = .exact ∨
      2 * config.numCyclesSkip.toNat + 1 + 2 * config.numCyclesCount.toNat < 2 ^ 31)
    (hbeta : 0 ≤ beta)
    (hA : 0 < clampRelayAmplitude config.relayAmpPercent initial.mvIni initial.mvRangeLow
      initial.mvRangeHigh)
    (hmem : Action.complete peaks troughs switchTimes mvSignInit ∈
      (MrftEngine.new ar config direction beta initial startTime).actionsAt ar ticks i) :
    ExtremaApart (config.numCyclesSkip.toNat = 0)
      (mvSignInit * direction.actionMultiplier = 1) peaks troughs := by
  have hskip_iff : ∀ (d : ControllerDirection) (ini : InitialReadings K),
      (MrftEngine.new ar config d beta ini startTime).numSwitchesSkip = 1 ↔
        config.numCyclesSkip.toNat = 0 := by
    intro d ini
    rw [(new_counters ar config d beta ini startTime hfit).1]
    omega
  have hreverse : ∀ (ini : InitialReadings K) (stream : ℕ → Tick K) (ps ts : List K),
      0 < clampRelayAmplitude config.relayAmpPercent ini.mvIni ini.mvRangeLow ini.mvRangeHigh →
      Action.complete ps ts switchTimes mvSignInit ∈
        (MrftEngine.new ar config .reverse beta ini startTime).actionsAt ar stream i →
      ExtremaApart (config.numCyclesSkip.toNat = 0) (mvSignInit = 1) ps ts := by
    intro ini stream ps ts hamp hin
    have hapart := extrema_apart_reverse (GapInv.new ar config .reverse beta ini startTime)
      (RelayInv.new hfit) (RecordInv.new hfit)
      (new_counters ar config .reverse beta ini startTime hfit).2.2 rfl hamp.le hbeta rfl hin
    rw [hskip_iff] at hapart
    exact hapart
  cases direction with
  | reverse =>
    rw [show ControllerDirection.reverse.actionMultiplier = 1 from rfl, mul_one]
    exact hreverse initial ticks peaks troughs hA hmem
  | direct =>
    -- the mirrored run is reverse-acting and completes with the mirrored records
    have hneg : (-1 : K) < 0 := neg_one_lt_zero
    have hstart : SignInv (MrftEngine.new ar config .direct beta initial startTime) := Or.inl rfl
    have hsign : mvSignInit = 1 ∨ mvSignInit = -1 := (hstart.stateAfter ticks i).complete_mem hmem
    have hengine : MrftEngine.new ar config .reverse beta (initial.mapPv (-1) 0) startTime
        = (MrftEngine.new ar config .direct beta initial startTime).mapPv (-1) 0 := by
      rw [← new_mapPv, ControllerDirection.mapPv, if_pos hneg]
      rfl
    have hmirror : Action.complete (troughs.map (affine (-1) 0)) (peaks.map (affine (-1) 0))
        switchTimes mvSignInit ∈
        (MrftEngine.new ar config .reverse beta (initial.mapPv (-1) 0) startTime).actionsAt ar
          (fun k => (ticks k).mapPv (-1) 0) i := by
      rw [hengine, actionsAt_mapPv hneg.ne (Or.inr rfl)]
      refine List.mem_map.mpr ⟨_, hmem, ?_⟩
      rw [Action.mapPv, if_pos hneg]
    have hapart := (hreverse (initial.mapPv (-1) 0) _ _ _ hA hmirror).of_mirror
    have hfirst : (mvSignInit * ControllerDirection.direct.actionMultiplier = 1)
        = ¬mvSignInit = 1 := by
      rcases hsign with rfl | rfl <;> decide
    rw [hfirst]
    exact hapart

/-- **Every completed run gives a usable oscillation.**  Adjacent extrema are strictly apart, the
first two of a run that skips no cycle excepted; the raw amplitude is positive all the same; and
with ticks at least a millisecond apart no checked result is rejected for its amplitude or
period. -/
theorem extrema_apart_and_valid (ar : IntArith) (config : LoopConfig K)
    (direction : ControllerDirection) (beta : K) (initial : InitialReadings K)
    (startTime : UtcTime) (ticks : ℕ → Tick K) (i : ℕ) (peaks troughs : List K)
    (switchTimes : List UtcTime) (mvSignInit : ℤ) (hvalid : config.validate = .ok ())
    (hfit : ar = .exact ∨
      2 * config.numCyclesSkip.toNat + 1 + 2 * config.numCyclesCount.toNat < 2 ^ 31)
    (hbeta : 0 ≤ beta)
    (hA : 0 < clampRelayAmplitude config.relayAmpPercent initial.mvIni initial.mvRangeLow
      initial.mvRangeHigh)
    (hmem : Action.complete peaks troughs switchTimes mvSignInit ∈
      (MrftEngine.new ar config direction beta initial startTime).actionsAt ar ticks i) :
    (∀ m n peak trough, AdjacentExtrema (mvSignInit * direction.actionMultiplier = 1) m n →
      peaks[m]? = some peak → troughs[n]? = some trough →
      trough < peak ∨ (config.numCyclesSkip.toNat = 0 ∧ m = 0 ∧ n = 0 ∧ trough ≤ peak)) ∧
    (∀ pvRange, ∃ oscillation raw,
      measureOscillation peaks troughs switchTimes mvSignInit direction config pvRange
        = .ok oscillation ∧ oscillation.pvAmpRaw = XNum.fin raw ∧ 0 < raw) ∧
    ((∀ k, (ticks k).time + 1000000 ≤ (ticks (k + 1)).time) →
      ∀ (pvRange : PvRange K) (template : DcsTemplate), pvRange.low < pvRange.high →
        ∃ results, calculateAllChecked peaks troughs switchTimes mvSignInit direction config
            pvRange template = .ok results ∧
          ∀ result ∈ results, result.invalidReason ≠ some .nonPositivePvAmplitude ∧
            result.invalidReason ≠ some .nonPositivePeriod) := by
  have hcount := LoopConfig.one_le_count_of_validate hvalid
  have hapart := extrema_apart ar config direction beta initial startTime hfit hbeta hA hmem
  obtain ⟨hlength, hpeak, htrough⟩ := complete_lengths_run hfit hmem
  have hapart' : ExtremaApart (config.numCyclesSkip.toNat = 0)
      (decide (mvSignInit * direction.actionMultiplier = 1) = true) peaks troughs := by
    rw [decide_eq_true_eq]
    exact hapart
  have hsums := countedSums_lt hcount (fun h => hpeak (of_decide_eq_true h))
    (fun h => htrough (of_decide_eq_false h)) hapart'
  refine ⟨hapart, ?_, ?_⟩
  · intro pvRange
    have hmeasured := measureOscillation_ok hcount hlength hpeak htrough pvRange
    obtain ⟨raw, hraw, hpositive⟩ := pvAmpRaw_pos hsums (switchTimes.headD 0)
      (switchTimes.getLastD 0) hcount pvRange
    exact ⟨_, raw, hmeasured, hraw, hpositive⟩
  · intro htimes pvRange template hrange
    have hmeasured := measureOscillation_ok hcount hlength hpeak htrough pvRange
    let engine := MrftEngine.new ar config direction beta initial startTime
    have hrelay : RelayInv engine := RelayInv.new hfit
    obtain ⟨_, _, hcounters⟩ := new_counters ar config direction beta initial startTime hfit
    have hpairs := (switchTimes_stateAfter hrelay hcounters rfl (by norm_num) htimes (i + 1)).1
    obtain ⟨hinv, hfit'⟩ := hrelay.stateAfter hcounters ticks i
    obtain ⟨_, _, hstep, _, _, hreported, _⟩ :=
      complete_mem_step hinv hfit' (running_of_mem hmem) hmem
    rw [stateAfter_succ, hstep, ← hreported] at hpairs
    have hspread := headD_add_le_getLastD hpairs (by omega)
    have hreason := invalidOscillationReason_eq_none hsums hspread hcount hrange
    generalize oscillationOf (countedSums peaks troughs
        (decide (mvSignInit * direction.actionMultiplier = 1))) (switchTimes.headD 0)
      (switchTimes.getLastD 0) config.numCyclesCount.toNat pvRange = oscillation
      at hmeasured hreason
    refine ⟨checkedResults oscillation config template, ?_, ?_⟩
    · rw [calculateAllChecked, hmeasured]
      rfl
    · intro result hresult
      obtain ⟨level, _, hlevel⟩ := List.mem_map.mp hresult
      rw [hreason] at hlevel
      rw [← hlevel]
      exact invalidReason_checkedResultFromTuning _ _

/-- The measured amplitude of the default flow loop is positive. -/
theorem extrema_apart_and_valid_flow :
    ∃ oscillation raw, measureOscillation [55, 55, 55] [45, 45]
        [seconds 8, seconds 12, seconds 16, seconds 20, seconds 24] 1 .reverse flowLoopConfig
        ⟨100, 0⟩ = .ok oscillation ∧ oscillation.pvAmpRaw = XNum.fin raw ∧ 0 < raw := by
  have hmem : Action.complete [55, 55, 55] [45, 45]
      [seconds 8, seconds 12, seconds 16, seconds 20, seconds 24] 1 ∈
        (MrftEngine.new .machine flowLoopConfig .reverse (f32 0.433) midRangeReadings 0).actionsAt
          .machine swingingTicks 6 := by decide +kernel
  exact (extrema_apart_and_valid .machine flowLoopConfig .reverse (f32 0.433) midRangeReadings 0
    swingingTicks 6 _ _ _ _ (by decide +kernel) (Or.inr (by decide)) (by decide +kernel)
    (by decide +kernel) hmem).2.1 ⟨100, 0⟩

/-- A flow loop under P control that skips no cycle. -/
def unskippedConfig : LoopConfig ℚ := { flowLoopConfig with
  controllerType := .p
  numCyclesSkip := 0
  numCyclesCount := 1 }

/-- A first sample at `pv_ini`, then one above and one below it. -/
def touchingTicks (n : ℕ) : Tick ℚ where
  time := seconds (4 * n)
  pv := if n = 0 then 50 else if n = 1 then 55 else 45

/-- The first two extrema of a run that skips no cycle can be the same value. -/
theorem extrema_touch_without_skip :
    ¬∀ (config : LoopConfig ℚ) (direction : ControllerDirection) (beta : ℚ)
      (initial : InitialReadings ℚ) (startTime : UtcTime) (ticks : ℕ → Tick ℚ) (i : ℕ)
      (peaks troughs : List ℚ) (switchTimes : List UtcTime) (mvSignInit : ℤ),
      config.validate = .ok () → 0 ≤ beta →
      1 / 100 ≤ clampRelayAmplitude config.relayAmpPercent initial.mvIni initial.mvRangeLow
        initial.mvRangeHigh →
      Action.complete peaks troughs switchTimes mvSignInit ∈
        (MrftEngine.new .exact config direction beta initial startTime).actionsAt .exact ticks i →
      ∀ m n peak trough, AdjacentExtrema (mvSignInit * direction.actionMultiplier = 1) m n →
        peaks[m]? = some peak → troughs[n]? = some trough → trough < peak := by
  intro hclaim
  have hmem : Action.complete [50, 55] [50] [seconds 0, seconds 4, seconds 8] 1 ∈
      (MrftEngine.new .exact unskippedConfig .reverse 0 midRangeReadings 0).actionsAt .exact
        touchingTicks 2 := by decide +kernel
  have htouch := hclaim unskippedConfig .reverse 0 midRangeReadings 0 touchingTicks 2 _ _ _ _
    (by decide +kernel) le_rfl (by decide +kernel) hmem 0 0 50 50 (Or.inl rfl) rfl rfl
  exact lt_irrefl _ htouch

end Runs

end Bhtune
