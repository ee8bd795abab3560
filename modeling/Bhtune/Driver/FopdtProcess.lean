import Bhtune.Library.FirstOrderLag
import Mathlib.Algebra.Order.Floor.Semiring
import Mathlib.Analysis.Complex.Exponential
import Mathlib.Data.List.GetD
import Mathlib.Tactic.Linarith

/-!
# The simulated process

A first-order process with dead time, advanced one tick at each read of its PV.  The arithmetic is
exact; `exp` is a parameter.

* `FopdtProcess.step`, `FopdtProcess.setMv` — what the driver calls;
* `run_pv` — the PV after any calls, as a closed form of the delayed MVs and the noise;
* `SimulatorLaw` — the delay, the response and the noise as the simulator's guide describes them;
* `simulatorLaw_iff` — when the process keeps to it: a noise sample stays in the PV and is part of
  what the next step starts from.
-/

namespace Bhtune

open FirstOrderLag

structure FopdtConfig (K : Type*) where
  gain : K
  timeConstantS : K
  deadTimeS : K
  tickIntervalS : K
  noiseAmplitude : K
  deriving DecidableEq

def FopdtConfig.withNoiseAmplitude {K : Type*} (config : FopdtConfig K) (noiseAmplitude : K) :
    FopdtConfig K :=
  { config with noiseAmplitude := noiseAmplitude }

structure FopdtProcess (K : Type*) where
  config : FopdtConfig K
  bias : K
  decay : K
  pv : K
  /-- Not yet delayed. -/
  currentMv : K
  /-- Oldest first. -/
  mvDelayLine : List K
  /-- What `random_range` is going to return. -/
  rng : ℕ → K

section Model

variable {K : Type*} [Field K] [LinearOrder K]

/-- `exp(-tick_interval_s / time_constant_s)`, or zero for an instant response. -/
def FopdtConfig.decay (exp : K → K) (config : FopdtConfig K) : K :=
  if 0 < config.timeConstantS then exp (-config.tickIntervalS / config.timeConstantS) else 0

/-- The length of the delay line. -/
def FopdtConfig.delayTicks [FloorSemiring K] (config : FopdtConfig K) : ℕ :=
  if 0 < config.deadTimeS ∧ 0 < config.tickIntervalS then
    ⌈config.deadTimeS / config.tickIntervalS⌉₊
  else 0

def FopdtConfig.bias (config : FopdtConfig K) (initialPv initialMv : K) : K :=
  initialPv - config.gain * initialMv

/-- `FopdtProcess::new`: a process at rest. -/
def FopdtProcess.new [FloorSemiring K] (exp : K → K) (config : FopdtConfig K)
    (initialPv initialMv : K) (rng : ℕ → K) : FopdtProcess K where
  config := config
  bias := config.bias initialPv initialMv
  decay := config.decay exp
  pv := initialPv
  currentMv := initialMv
  mvDelayLine := List.replicate config.delayTicks initialMv
  rng := rng

def FopdtProcess.setMv (p : FopdtProcess K) (mv : K) : FopdtProcess K := { p with currentMv := mv }

/-- `FopdtProcess::step`: the PV that is returned, and the process after the tick. -/
def FopdtProcess.step (p : FopdtProcess K) : K × FopdtProcess K :=
  let line := p.mvDelayLine ++ [p.currentMv]
  let effectiveMv := line.head?.getD p.currentMv
  let pv := p.pv * p.decay + (1 - p.decay) * (p.bias + p.config.gain * effectiveMv)
  let p := { p with mvDelayLine := line.tail, pv := pv }
  let p :=
    if 0 < p.config.noiseAmplitude then
      { p with pv := p.pv + p.rng 0, rng := fun i => p.rng (i + 1) }
    else p
  (p.pv, p)

/-- What the driver does with its process. -/
inductive ProcessCall (K : Type*) where
  | setMv (mv : K)
  | step
  deriving DecidableEq

def FopdtProcess.call (p : FopdtProcess K) : ProcessCall K → FopdtProcess K
  | .setMv mv => p.setMv mv
  | .step => p.step.2

def FopdtProcess.run (p : FopdtProcess K) (calls : List (ProcessCall K)) : FopdtProcess K :=
  calls.foldl FopdtProcess.call p

end Model

/-! ### What the PV is made of -/

section Terms

variable {K : Type*}

/-- The MV at each step, where `mv` is the one before the calls. -/
def steppedMvs (mv : K) : List (ProcessCall K) → List K
  | [] => []
  | .setMv mv' :: calls => steppedMvs mv' calls
  | .step :: calls => mv :: steppedMvs mv calls

/-- The steps among the calls. -/
def stepCount : List (ProcessCall K) → ℕ
  | [] => 0
  | .setMv _ :: calls => stepCount calls
  | .step :: calls => stepCount calls + 1

theorem length_steppedMvs (mv : K) (calls : List (ProcessCall K)) :
    (steppedMvs mv calls).length = stepCount calls := by
  induction calls generalizing mv with
  | nil => rfl
  | cons c calls ih =>
    cases c with
    | setMv mv' => exact ih mv'
    | step => exact congrArg (· + 1) (ih mv)

/-- The `k`-th MV out of a delay line of `d` values that are all `mv₀` at first. -/
def delayed (d : ℕ) (mv₀ : K) (mvs : List K) (k : ℕ) : K :=
  if k < d then mv₀ else mvs.getD (k - d) mv₀

theorem getD_replicate_append (d : ℕ) (mv₀ : K) (mvs : List K) (k : ℕ) :
    (List.replicate d mv₀ ++ mvs).getD k mv₀ = delayed d mv₀ mvs k := by
  unfold delayed
  by_cases hk : k < d
  · rw [if_pos hk, List.getD_append _ _ _ _ (by simpa using hk)]
    simp [hk]
  · rw [if_neg hk, List.getD_append_right _ _ _ _ (by simpa using hk)]
    simp

end Terms

section Process

variable {K : Type*} [Field K] [LinearOrder K]

/-- The noise that goes into the PV at the `k`-th step. -/
def FopdtProcess.noise (p : FopdtProcess K) (k : ℕ) : K :=
  if 0 < p.config.noiseAmplitude then p.rng k else 0

/-- The target of an MV: the PV that it leads to in the end. -/
def FopdtProcess.target (p : FopdtProcess K) (mv : K) : K := p.bias + p.config.gain * mv

/-- **The step lemma.**  The oldest value leaves the line, and the PV moves towards its target. -/
theorem step_eq (p : FopdtProcess K) : ∃ effectiveMv line,
    p.mvDelayLine ++ [p.currentMv] = effectiveMv :: line ∧ p.step.1 = p.step.2.pv ∧
      p.step.2.pv = p.pv * p.decay + ((1 - p.decay) * p.target effectiveMv + p.noise 0) ∧
      p.step.2.mvDelayLine = line ∧ p.step.2.currentMv = p.currentMv ∧
      p.step.2.config = p.config ∧ p.step.2.bias = p.bias ∧ p.step.2.decay = p.decay ∧
      p.step.2.noise = fun k => p.noise (k + 1) := by
  obtain ⟨effectiveMv, line, hline⟩ : ∃ effectiveMv line,
      p.mvDelayLine ++ [p.currentMv] = effectiveMv :: line :=
    List.exists_cons_of_ne_nil (by simp)
  refine ⟨effectiveMv, line, hline, rfl, ?_⟩
  unfold FopdtProcess.noise FopdtProcess.target FopdtProcess.step
  simp only [hline, List.head?_cons, Option.getD_some, List.tail_cons]
  by_cases hnoise : 0 < p.config.noiseAmplitude
  · simp only [if_pos hnoise, add_assoc, and_self]
  · simp only [if_neg hnoise, add_zero, and_self]

theorem run_line (p : FopdtProcess K) (calls : List (ProcessCall K)) :
    (p.run calls).mvDelayLine =
      (p.mvDelayLine ++ steppedMvs p.currentMv calls).drop (stepCount calls) := by
  induction calls generalizing p with
  | nil => simp [FopdtProcess.run, steppedMvs, stepCount]
  | cons c calls ih =>
    cases c with
    | setMv mv => exact ih (p.setMv mv)
    | step =>
      obtain ⟨effectiveMv, line, hline, -, -, hnext, hmv, -⟩ := step_eq p
      show (p.step.2.run calls).mvDelayLine = _
      have hsplit : p.mvDelayLine ++ p.currentMv :: steppedMvs p.currentMv calls =
          effectiveMv :: (line ++ steppedMvs p.currentMv calls) := by
        rw [← List.cons_append, ← hline, List.append_assoc, List.singleton_append]
      rw [ih, hnext, hmv]
      show _ = (p.mvDelayLine ++ p.currentMv :: _).drop (stepCount calls + 1)
      rw [hsplit, List.drop_succ_cons]

/-- **The run lemma.**  The PV after any calls is the response to the MVs that came out of the line,
with the noise of each step among its inputs. -/
theorem run_pv (p : FopdtProcess K) (mv₀ : K) (calls : List (ProcessCall K)) :
    (p.run calls).pv = response p.decay p.pv
      (fun k => (1 - p.decay) *
        p.target ((p.mvDelayLine ++ steppedMvs p.currentMv calls).getD k mv₀) + p.noise k)
      (stepCount calls) := by
  induction calls generalizing p with
  | nil => exact (response_zero _ _ _).symm
  | cons c calls ih =>
    cases c with
    | setMv mv => exact ih (p.setMv mv)
    | step =>
      obtain ⟨effectiveMv, line, hline, -, hpv, hnext, hmv, hconfig, hbias, hdecay, hnoise⟩ :=
        step_eq p
      have htarget : p.step.2.target = p.target := by
        funext mv
        unfold FopdtProcess.target
        rw [hbias, hconfig]
      have hsplit : p.mvDelayLine ++ p.currentMv :: steppedMvs p.currentMv calls =
          effectiveMv :: (line ++ steppedMvs p.currentMv calls) := by
        rw [← List.cons_append, ← hline, List.append_assoc, List.singleton_append]
      show (p.step.2.run calls).pv = response p.decay p.pv (fun k => (1 - p.decay) *
        p.target ((p.mvDelayLine ++ p.currentMv :: _).getD k mv₀) + p.noise k) (stepCount calls + 1)
      rw [ih, hpv, hnext, hmv, hdecay, htarget, hnoise, hsplit, response_succ_left]
      rfl

end Process

/-! ### A process from its beginning -/

section Law

variable {K : Type*} [Field K] [LinearOrder K] [FloorSemiring K] (exp : K → K)
  (config : FopdtConfig K) (initialPv initialMv : K) (rng : ℕ → K) (calls : List (ProcessCall K))

/-- **The delay line never grows or shrinks.** -/
theorem length_line :
    ((FopdtProcess.new exp config initialPv initialMv rng).run calls).mvDelayLine.length =
      config.delayTicks := by
  rw [run_line, List.length_drop, List.length_append, length_steppedMvs]
  simp [FopdtProcess.new]

/-- The MV that a step works with is the one of `delayTicks` steps before. -/
def FopdtConfig.effectiveMv (k : ℕ) : K :=
  delayed config.delayTicks initialMv (steppedMvs initialMv calls) k

/-- The PV that this MV leads to. -/
def FopdtConfig.targetAt (k : ℕ) : K :=
  config.bias initialPv initialMv + config.gain * config.effectiveMv initialMv calls k

/-- The PV after the calls. -/
def pvAfter : K := ((FopdtProcess.new exp config initialPv initialMv rng).run calls).pv

theorem pvAfter_eq :
    pvAfter exp config initialPv initialMv rng calls =
      response (config.decay exp) initialPv (fun k => (1 - config.decay exp) *
        config.targetAt initialPv initialMv calls k +
          if 0 < config.noiseAmplitude then rng k else 0) (stepCount calls) := by
  unfold pvAfter FopdtConfig.targetAt FopdtConfig.effectiveMv
  rw [run_pv _ initialMv]
  simp only [← getD_replicate_append]
  rfl

theorem pvAfter_noiseless :
    pvAfter exp (config.withNoiseAmplitude 0) initialPv initialMv rng calls =
      response (config.decay exp) initialPv
        (fun k => (1 - config.decay exp) * config.targetAt initialPv initialMv calls k)
        (stepCount calls) := by
  rw [pvAfter_eq]
  refine response_congr _ _ _ fun k _ => ?_
  have hoff : ¬0 < (config.withNoiseAmplitude 0).noiseAmplitude := lt_irrefl 0
  rw [if_neg hoff, add_zero]
  rfl

/-- **The drift.**  A noisy PV is off by a response to all of the noise so far. -/
theorem pvAfter_sub (rng' : ℕ → K) :
    pvAfter exp config initialPv initialMv rng calls -
        pvAfter exp (config.withNoiseAmplitude 0) initialPv initialMv rng' calls =
      response (config.decay exp) 0 (fun k => if 0 < config.noiseAmplitude then rng k else 0)
        (stepCount calls) := by
  rw [pvAfter_eq, pvAfter_noiseless, response_sub, sub_self]
  exact response_congr _ _ _ fun k _ => add_sub_cancel_left _ _

/-- What the simulator's guide says of a process, after any calls: how long its MVs are delayed, how
its PV responds to them, and how far a noisy PV is from one without noise. -/
structure SimulatorLaw : Prop where
  delay : ∀ rng, 0 < config.tickIntervalS →
    ((FopdtProcess.new exp config initialPv initialMv rng).run calls).mvDelayLine.length =
      ⌈config.deadTimeS / config.tickIntervalS⌉₊
  noDelay : ∀ rng, config.tickIntervalS ≤ 0 →
    ((FopdtProcess.new exp config initialPv initialMv rng).run calls).mvDelayLine.length = 0
  closedForm : ∀ rng,
    pvAfter exp (config.withNoiseAmplitude 0) initialPv initialMv rng calls =
      initialPv * config.decay exp ^ stepCount calls + ∑ k ∈ Finset.range (stepCount calls),
        (1 - config.decay exp) * config.targetAt initialPv initialMv calls k *
          config.decay exp ^ (stepCount calls - 1 - k)
  above : ∀ rng,
    ((List.range (stepCount calls)).map (config.targetAt initialPv initialMv calls)).foldr min
      initialPv ≤ pvAfter exp (config.withNoiseAmplitude 0) initialPv initialMv rng calls
  below : ∀ rng,
    pvAfter exp (config.withNoiseAmplitude 0) initialPv initialMv rng calls ≤
      ((List.range (stepCount calls)).map (config.targetAt initialPv initialMv calls)).foldr max
        initialPv
  noise : ∀ rng rng', (∀ i, |rng i| ≤ config.noiseAmplitude) →
    |pvAfter exp config initialPv initialMv rng calls -
      pvAfter exp (config.withNoiseAmplitude 0) initialPv initialMv rng' calls| ≤
        config.noiseAmplitude

end Law

section Main

variable {K : Type*} [Field K] [LinearOrder K] [IsStrictOrderedRing K] [FloorSemiring K]
  {exp : K → K} {config : FopdtConfig K} {initialPv initialMv : K} {calls : List (ProcessCall K)}

theorem delayTicks_eq (htick : 0 < config.tickIntervalS) :
    config.delayTicks = ⌈config.deadTimeS / config.tickIntervalS⌉₊ := by
  unfold FopdtConfig.delayTicks
  by_cases hdead : 0 < config.deadTimeS
  · rw [if_pos ⟨hdead, htick⟩]
  · have hnonpos : config.deadTimeS / config.tickIntervalS ≤ 0 :=
      div_nonpos_of_nonpos_of_nonneg (not_lt.mp hdead) htick.le
    rw [if_neg fun h => hdead h.1, Nat.ceil_eq_zero.mpr hnonpos]

omit [IsStrictOrderedRing K] [FloorSemiring K] [Field K] in
theorem foldr_min_le (x : K) (targets : List K) :
    targets.foldr min x ≤ x ∧ ∀ t ∈ targets, targets.foldr min x ≤ t := by
  induction targets with
  | nil => simp
  | cons y targets ih =>
    refine ⟨(min_le_right _ _).trans ih.1, fun t ht => ?_⟩
    rcases List.mem_cons.mp ht with rfl | ht
    · exact min_le_left _ _
    · exact (min_le_right _ _).trans (ih.2 t ht)

omit [IsStrictOrderedRing K] [FloorSemiring K] [Field K] in
theorem le_foldr_max (x : K) (targets : List K) :
    x ≤ targets.foldr max x ∧ ∀ t ∈ targets, t ≤ targets.foldr max x := by
  induction targets with
  | nil => simp
  | cons y targets ih =>
    refine ⟨ih.1.trans (le_max_right _ _), fun t ht => ?_⟩
    rcases List.mem_cons.mp ht with rfl | ht
    · exact le_max_left _ _
    · exact (ih.2 t ht).trans (le_max_right _ _)

omit [FloorSemiring K] in
theorem abs_noise_le {rng : ℕ → K} (hrng : ∀ i, |rng i| ≤ config.noiseAmplitude) (k : ℕ) :
    |if 0 < config.noiseAmplitude then rng k else 0| ≤ config.noiseAmplitude := by
  by_cases hnoise : 0 < config.noiseAmplitude
  · rw [if_pos hnoise]
    exact hrng k
  · rw [if_neg hnoise, abs_zero]
    exact (abs_nonneg _).trans (hrng 0)

/-- How far the noise can move a PV: what an amplitude adds up to over the steps. -/
theorem abs_drift_le (h₀ : 0 ≤ config.decay exp) {rng : ℕ → K}
    (hrng : ∀ i, |rng i| ≤ config.noiseAmplitude) (rng' : ℕ → K) :
    |pvAfter exp config initialPv initialMv rng calls -
      pvAfter exp (config.withNoiseAmplitude 0) initialPv initialMv rng' calls| ≤
        config.noiseAmplitude * ∑ k ∈ Finset.range (stepCount calls), config.decay exp ^ k := by
  rw [pvAfter_sub]
  exact abs_response_le h₀ fun k _ => abs_noise_le hrng k

omit [IsStrictOrderedRing K] in
/-- The drift where every sample is as large as it can be. -/
theorem drift_const (hnoise : 0 < config.noiseAmplitude) (rng' : ℕ → K) :
    pvAfter exp config initialPv initialMv (fun _ => config.noiseAmplitude) calls -
      pvAfter exp (config.withNoiseAmplitude 0) initialPv initialMv rng' calls =
        config.noiseAmplitude * ∑ k ∈ Finset.range (stepCount calls), config.decay exp ^ k := by
  rw [pvAfter_sub]
  simp only [if_pos hnoise]
  exact response_const _ _ _

/-- **When the simulated process keeps to its guide.**  The delay and the response are always right;
the noise stays within its amplitude exactly when there is none, when the process responds at once,
or up to the first step. -/
theorem simulatorLaw_iff (h₀ : 0 ≤ config.decay exp) (h₁ : config.decay exp < 1) :
    SimulatorLaw exp config initialPv initialMv calls ↔
      config.noiseAmplitude ≤ 0 ∨ config.decay exp = 0 ∨ stepCount calls ≤ 1 := by
  constructor
  · intro h
    by_contra hnot
    push Not at hnot
    obtain ⟨hnoise, hdecay, hsteps⟩ := hnot
    have hbound : ∀ i : ℕ, |config.noiseAmplitude| ≤ config.noiseAmplitude :=
      fun _ => (abs_of_pos hnoise).le
    have hdrift := h.noise (fun _ => config.noiseAmplitude) (fun _ => 0) hbound
    obtain ⟨n, hn⟩ := Nat.exists_eq_add_of_lt hsteps
    have hsum : 1 + config.decay exp ≤
        ∑ k ∈ Finset.range (stepCount calls), config.decay exp ^ k := by
      rw [hn, show 1 + n + 1 = n + 1 + 1 by omega, Finset.sum_range_succ', Finset.sum_range_succ',
        pow_zero, zero_add, pow_one]
      have hrest : 0 ≤ ∑ k ∈ Finset.range n, config.decay exp ^ (k + 1 + 1) :=
        Finset.sum_nonneg fun k _ => pow_nonneg h₀ _
      linarith
    have hpos : 0 < config.decay exp := lt_of_le_of_ne h₀ (Ne.symm hdecay)
    rw [drift_const hnoise] at hdrift
    have hle := (le_abs_self _).trans hdrift
    nlinarith
  · intro hwhen
    refine ⟨?_, ?_, ?_, ?_, ?_, ?_⟩
    · intro rng htick
      rw [length_line, delayTicks_eq htick]
    · intro rng htick
      rw [length_line]
      exact if_neg fun h => absurd h.2 (not_lt.mpr htick)
    · intro rng
      exact pvAfter_noiseless exp config initialPv initialMv rng calls
    · intro rng
      rw [pvAfter_noiseless]
      obtain ⟨hinitial, htargets⟩ := foldr_min_le initialPv
        ((List.range (stepCount calls)).map (config.targetAt initialPv initialMv calls))
      refine le_response_lag h₀ h₁.le hinitial fun k hk => htargets _ ?_
      exact List.mem_map_of_mem (List.mem_range.mpr hk)
    · intro rng
      rw [pvAfter_noiseless]
      obtain ⟨hinitial, htargets⟩ := le_foldr_max initialPv
        ((List.range (stepCount calls)).map (config.targetAt initialPv initialMv calls))
      refine response_lag_le h₀ h₁.le hinitial fun k hk => htargets _ ?_
      exact List.mem_map_of_mem (List.mem_range.mpr hk)
    · intro rng rng' hrng
      have ha : 0 ≤ config.noiseAmplitude := (abs_nonneg _).trans (hrng 0)
      refine (abs_drift_le h₀ hrng rng').trans ?_
      rcases hwhen with hnoise | hdecay | hsteps
      · rw [le_antisymm hnoise ha, zero_mul]
      · rw [hdecay]
        cases stepCount calls with
        | zero => simpa using ha
        | succ n => simp [Finset.sum_range_succ']
      · rcases Nat.le_one_iff_eq_zero_or_eq_one.mp hsteps with hzero | hone
        · rw [hzero]
          simpa using ha
        · rw [hone]
          simp

/-- However long it runs, the noise moves the PV of a process by at most its amplitude over
`1 - decay`. -/
theorem abs_drift_le_div (h₀ : 0 ≤ config.decay exp) (h₁ : config.decay exp < 1) {rng : ℕ → K}
    (hrng : ∀ i, |rng i| ≤ config.noiseAmplitude) (rng' : ℕ → K) :
    |pvAfter exp config initialPv initialMv rng calls -
      pvAfter exp (config.withNoiseAmplitude 0) initialPv initialMv rng' calls| ≤
        config.noiseAmplitude / (1 - config.decay exp) := by
  have ha : 0 ≤ config.noiseAmplitude := (abs_nonneg _).trans (hrng 0)
  rw [pvAfter_sub]
  exact abs_response_le_div h₀ h₁ (fun k _ => abs_noise_le hrng k) ha

end Main

/-- A process that takes one second to respond and is noisy, at ticks of one second. -/
def noisyConfig : FopdtConfig ℝ := ⟨1, 1, 0, 1, 1⟩

theorem decay_noisyConfig : noisyConfig.decay Real.exp = Real.exp (-1) := by
  unfold FopdtConfig.decay noisyConfig
  rw [if_pos one_pos, div_one]

theorem simulatorLaw_first_step :
    SimulatorLaw Real.exp noisyConfig 10 0 [.setMv 5, .step, .setMv 7] := by
  have h₀ : 0 ≤ noisyConfig.decay Real.exp := by
    rw [decay_noisyConfig]
    exact (Real.exp_pos _).le
  have h₁ : noisyConfig.decay Real.exp < 1 := by
    rw [decay_noisyConfig, Real.exp_lt_one_iff]
    exact neg_one_lt_zero
  exact (simulatorLaw_iff h₀ h₁).mpr (.inr (.inr (by decide)))

/-- After two steps whose noise is one each, the PV of a process at rest is `1 + exp(-1)` off. -/
theorem noise_feeds_back :
    (∀ i : ℕ, |(fun _ => 1 : ℕ → ℝ) i| ≤ noisyConfig.noiseAmplitude) ∧
      noisyConfig.noiseAmplitude <
        |pvAfter Real.exp noisyConfig 0 0 (fun _ => 1) [.step, .step] -
          pvAfter Real.exp (noisyConfig.withNoiseAmplitude 0) 0 0 (fun _ => 0) [.step, .step]| ∧
      ¬SimulatorLaw Real.exp noisyConfig 0 0 [.step, .step] := by
  have hbound : ∀ i : ℕ, |(fun _ => 1 : ℕ → ℝ) i| ≤ noisyConfig.noiseAmplitude := by
    intro i
    show |(1 : ℝ)| ≤ 1
    simp
  have hdrift : noisyConfig.noiseAmplitude <
      |pvAfter Real.exp noisyConfig 0 0 (fun _ => 1) [.step, .step] -
        pvAfter Real.exp (noisyConfig.withNoiseAmplitude 0) 0 0 (fun _ => 0) [.step, .step]| := by
    have heq : pvAfter Real.exp noisyConfig 0 0 (fun _ => 1) [.step, .step] -
        pvAfter Real.exp (noisyConfig.withNoiseAmplitude 0) 0 0 (fun _ => 0) [.step, .step] =
          1 * ∑ k ∈ Finset.range 2, noisyConfig.decay Real.exp ^ k :=
      drift_const one_pos fun _ => 0
    rw [heq, decay_noisyConfig, Finset.sum_range_succ, Finset.sum_range_one, pow_zero, pow_one,
      one_mul]
    have hpos := Real.exp_pos (-1)
    rw [abs_of_pos (by linarith)]
    show (1 : ℝ) < 1 + Real.exp (-1)
    linarith
  exact ⟨hbound, hdrift, fun h => absurd (h.noise _ _ hbound) (not_le.mpr hdrift)⟩

end Bhtune
