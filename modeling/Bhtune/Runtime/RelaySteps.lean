import Bhtune.Core.RelaySides
import Bhtune.Runtime.RelayStepCheck

/-!
# Whether an accepted relay step stays usable

`validate_relay_actuation_step` looks at one step before a run: from the initial MV up by the
clamped amplitude.  The run then steps down as well, from one side to the other, and back.  Here
the MVs are computed as the code computes them, in `f32`.

* `Verifiable` — which relay commands have a tolerance;
* `Verifiable.across` — the step from side to side is verifiable when the steps to either side are;
* `relay_steps_usable` — an accepted step is usable in every run when it reaches the engine's own
  threshold on both sides, the step down passes the check of the step up, and nothing overflows.
-/

namespace Bhtune

open MachineInt BinaryFloat

/-! ### The tolerance of a relay command -/

/-- A relay command that can be verified: its step is a number, not too small and not lost in the
precision. -/
structure Verifiable (target previous : Single) : Prop where
  finite : (target - previous).isFinite = true
  large : Single.ofRat minRelayStep ≤ (target - previous).abs
  precise : f32PrecisionFloor target previous <
    (target - previous).abs * Single.ofRat relayStepToleranceFraction

instance (target previous : Single) : Decidable (Verifiable target previous) :=
  decidable_of_iff ((target - previous).isFinite = true ∧
      Single.ofRat minRelayStep ≤ (target - previous).abs ∧
      f32PrecisionFloor target previous <
        (target - previous).abs * Single.ofRat relayStepToleranceFraction)
    ⟨fun ⟨h₁, h₂, h₃⟩ => ⟨h₁, h₂, h₃⟩, fun h => ⟨h.finite, h.large, h.precise⟩⟩

/-- The precision floor of two numbers. -/
def floor32 (target previous : ℚ) : ℚ :=
  toF32 (4 * f32Epsilon * max (max |target| |previous|) 1)

section Numbers

variable {t p : ℚ} (ht : IsSingle t) (hp : IsSingle p)

theorem isSingle_max {a b : ℚ} (ha : IsSingle a) (hb : IsSingle b) : IsSingle (max a b) := by
  rcases max_choice a b with h | h <;> rw [h] <;> assumption

theorem floorFactor_nonneg : 0 ≤ 4 * f32Epsilon := by decide +kernel

include ht hp in
theorem isSingle_floor32 : IsSingle (floor32 t p) where
  rounded := toF32_toF32 _
  inRange := by
    have hmax : IsSingle (max (max |t| |p|) 1) :=
      isSingle_max (isSingle_max ht.abs hp.abs) Single.isSingle_one
    have hpos : (0 : ℚ) ≤ max (max |t| |p|) 1 := le_max_of_le_right one_pos.le
    have hsmall : 4 * f32Epsilon * max (max |t| |p|) 1 ≤ max (max |t| |p|) 1 := by
      refine mul_le_of_le_one_left hpos ?_
      decide +kernel
    unfold floor32
    rw [← toF32_abs, abs_of_nonneg (mul_nonneg floorFactor_nonneg hpos)]
    refine ((toF32_mono hsmall).trans_eq hmax.rounded).trans_lt ?_
    rw [← abs_of_nonneg hpos]
    exact hmax.inRange

theorem floor32_comm (t p : ℚ) : floor32 t p = floor32 p t := by
  unfold floor32
  rw [max_comm |t| |p|]

/-- The floor of a step between two targets is the floor of a step to one of them. -/
theorem floor32_le (a b x : ℚ) : floor32 a b ≤ max (floor32 a x) (floor32 b x) := by
  have hmax : max (max |a| |b|) 1 ≤ max (max (max |a| |x|) 1) (max (max |b| |x|) 1) := by
    refine max_le (max_le ?_ ?_) ?_
    · exact ((le_max_left _ _).trans (le_max_left _ _)).trans (le_max_left _ _)
    · exact ((le_max_left _ _).trans (le_max_left _ _)).trans (le_max_right _ _)
    · exact (le_max_right _ _).trans (le_max_left _ _)
  rcases le_max_iff.mp hmax with h | h
  · exact le_max_of_le_left (toF32_mono (mul_le_mul_of_nonneg_left h floorFactor_nonneg))
  · exact le_max_of_le_right (toF32_mono (mul_le_mul_of_nonneg_left h floorFactor_nonneg))

theorem f32PrecisionFloor_fin :
    f32PrecisionFloor (Single.fin t ht) (Single.fin p hp) =
      .fin (floor32 t p) (isSingle_floor32 ht hp) := by
  have hfour : Single.ofRat 4 * Single.ofRat f32Epsilon = Single.ofRat (4 * f32Epsilon) := by
    decide +kernel
  have hfactor : IsSingle (4 * f32Epsilon) := ⟨by decide +kernel, by decide +kernel⟩
  obtain ⟨h₁, hmax₁⟩ := Single.fin_max ht.abs hp.abs
  obtain ⟨h₂, hmax₂⟩ := Single.fin_max h₁ Single.isSingle_one
  show Single.ofRat 4 * Single.ofRat f32Epsilon *
    max (max (Single.fin |t| ht.abs) (Single.fin |p| hp.abs)) (Single.ofRat 1) = _
  rw [hfour, Single.ofRat_eq_fin hfactor, Single.ofRat_eq_fin Single.isSingle_one, hmax₁, hmax₂,
    Single.fin_mul]
  exact Single.ofRat_of_lt (isSingle_floor32 ht hp).inRange

/-- The cap of a step. -/
theorem relayCap_fin {s : ℚ} (hs : IsSingle s) :
    ∃ h, Single.fin s hs * Single.ofRat relayStepToleranceFraction =
      .fin (toF32 (s * relayStepToleranceFraction)) h := by
  have hfraction : IsSingle relayStepToleranceFraction := ⟨by decide +kernel, by decide +kernel⟩
  have hrange : |toF32 (s * relayStepToleranceFraction)| < 2 ^ 128 := by
    refine lt_of_le_of_lt ?_ hs.inRange
    rw [← toF32_abs, abs_mul]
    refine (toF32_mono ?_).trans_eq hs.abs.rounded
    exact mul_le_of_le_one_right (abs_nonneg s) (by decide +kernel)
  rw [Single.ofRat_eq_fin hfraction, Single.fin_mul, Single.ofRat_of_lt hrange]
  exact ⟨_, rfl⟩

/-- Between numbers, the step is the rounded distance. -/
theorem verifiable_fin : Verifiable (.fin t ht) (.fin p hp) ↔
    |toF32 (t - p)| < 2 ^ 128 ∧ minRelayStep ≤ |toF32 (t - p)| ∧
      floor32 t p < toF32 (|toF32 (t - p)| * relayStepToleranceFraction) := by
  have hfinite : (Single.fin t ht - .fin p hp).isFinite = true ↔ |toF32 (t - p)| < 2 ^ 128 := by
    rw [Single.fin_sub, Single.isFinite_ofRat]
  have hmin : IsSingle minRelayStep := ⟨by decide +kernel, by decide +kernel⟩
  constructor
  · rintro ⟨hrange, hlarge, hprecise⟩
    have hrange := hfinite.mp hrange
    rw [Single.fin_sub, Single.ofRat_of_lt hrange] at hlarge hprecise
    obtain ⟨hcap, heq⟩ := relayCap_fin (IsSingle.abs ⟨toF32_toF32 (t - p), hrange⟩)
    rw [Single.ofRat_eq_fin hmin] at hlarge
    refine ⟨hrange, (Single.fin_le hmin _).mp hlarge, ?_⟩
    refine (Single.fin_lt (isSingle_floor32 ht hp) hcap).mp ?_
    rw [← f32PrecisionFloor_fin, ← heq]
    exact hprecise
  · rintro ⟨hrange, hlarge, hprecise⟩
    obtain ⟨hcap, heq⟩ := relayCap_fin (IsSingle.abs ⟨toF32_toF32 (t - p), hrange⟩)
    have hstep : (Single.fin t ht - .fin p hp).abs =
        .fin |toF32 (t - p)| (IsSingle.abs ⟨toF32_toF32 (t - p), hrange⟩) := by
      rw [Single.fin_sub, Single.ofRat_of_lt hrange]
      rfl
    refine ⟨hfinite.mpr hrange, ?_, ?_⟩
    · rw [hstep, Single.ofRat_eq_fin hmin]
      exact (Single.fin_le hmin _).mpr hlarge
    · rw [hstep, f32PrecisionFloor_fin, heq]
      exact (Single.fin_lt (isSingle_floor32 ht hp) hcap).mpr hprecise

end Numbers

/-- Only numbers are apart by a number. -/
theorem Verifiable.exists_fin {target previous : Single} (h : Verifiable target previous) :
    (∃ t ht, target = .fin t ht) ∧ ∃ p hp, previous = .fin p hp :=
  Single.exists_fin_of_sub h.finite

theorem Verifiable.symm {target previous : Single} (h : Verifiable target previous) :
    Verifiable previous target := by
  obtain ⟨⟨t, ht, rfl⟩, p, hp, rfl⟩ := h.exists_fin
  rw [verifiable_fin] at h ⊢
  have hswap : |toF32 (p - t)| = |toF32 (t - p)| := by
    rw [← toF32_abs, abs_sub_comm, toF32_abs]
  rw [hswap, floor32_comm]
  exact h

/-- A command that repeats the one before it has no step to verify. -/
theorem not_verifiable_self (x : Single) : ¬Verifiable x x := by
  intro h
  obtain ⟨⟨t, ht, rfl⟩, -⟩ := h.exists_fin
  obtain ⟨-, hlarge, -⟩ := (verifiable_fin ht ht).mp h
  rw [sub_self, toF32_zero, abs_zero] at hlarge
  exact absurd minRelayStep_pos (not_lt.mpr hlarge)

theorem mvActuationTolerance_single_iff (target previous mvSpan : Single) :
    (∃ tolerance, mvActuationTolerance .relay target previous mvSpan = .ok tolerance) ↔
      Verifiable target previous := by
  unfold mvActuationTolerance
  rw [if_neg (by decide)]
  dsimp only
  split_ifs with hsmall
  · simp only [exists_false, false_iff]
    rintro ⟨hfinite, hlarge, hprecise⟩
    rcases hsmall with hsmall | hsmall | hsmall
    · exact hsmall ((Single.isFinite_abs _).trans hfinite)
    · exact Single.not_le_of_lt hsmall hlarge
    · exact Single.not_le_of_lt hprecise hsmall
  · rw [not_or, not_or, not_not] at hsmall
    obtain ⟨hfinite, hlarge, hprecise⟩ := hsmall
    have hfinite : (target - previous).isFinite = true := (Single.isFinite_abs _).symm.trans hfinite
    refine ⟨fun _ => ?_, fun _ => ⟨_, rfl⟩⟩
    -- no value here is not-a-number, for which neither comparison would hold
    obtain ⟨⟨t, ht, rfl⟩, p, hp, rfl⟩ := Single.exists_fin_of_sub hfinite
    obtain ⟨s, hs, hstep⟩ := Single.exists_fin ((Single.isFinite_abs _).trans hfinite)
    obtain ⟨hcap, hcap_eq⟩ := relayCap_fin hs
    refine ⟨hfinite, Single.le_of_not_lt (Single.ofRat_ne_nan _) ?_ hlarge,
      Single.lt_of_not_le ?_ ?_ hprecise⟩
    · rw [hstep]
      nofun
    · rw [f32PrecisionFloor_fin]
      nofun
    · rw [hstep, hcap_eq]
      nofun

/-! ### From side to side -/

/-- A step over the one it starts from is verifiable when both of its parts are, unless it is no
number. -/
theorem Verifiable.across {up down x : Single} (hup : Verifiable up x) (hdown : Verifiable down x)
    (hsides : x ≤ up ∧ down ≤ x ∨ up ≤ x ∧ x ≤ down) (hfinite : (up - down).isFinite = true) :
    Verifiable up down := by
  obtain ⟨⟨u, hu, rfl⟩, v, hv, rfl⟩ := hup.exists_fin
  obtain ⟨⟨d, hd, rfl⟩, -⟩ := hdown.exists_fin
  rw [Single.fin_le, Single.fin_le, Single.fin_le, Single.fin_le] at hsides
  rw [Single.fin_sub, Single.isFinite_ofRat] at hfinite
  obtain ⟨-, hlarge, hpreciseUp⟩ := (verifiable_fin hu hv).mp hup
  obtain ⟨-, -, hpreciseDown⟩ := (verifiable_fin hd hv).mp hdown
  -- the step from side to side is at least as long as either part
  have hlong : |toF32 (u - v)| ≤ |toF32 (u - d)| ∧ |toF32 (d - v)| ≤ |toF32 (u - d)| := by
    simp only [← toF32_abs]
    rcases hsides with ⟨h₁, h₂⟩ | ⟨h₁, h₂⟩
    · rw [abs_of_nonneg (sub_nonneg.mpr h₁), abs_of_nonpos (sub_nonpos.mpr h₂),
        abs_of_nonneg (sub_nonneg.mpr (h₂.trans h₁))]
      exact ⟨toF32_mono (by linarith), toF32_mono (by linarith)⟩
    · rw [abs_of_nonpos (sub_nonpos.mpr h₁), abs_of_nonneg (sub_nonneg.mpr h₂),
        abs_of_nonpos (sub_nonpos.mpr (h₁.trans h₂))]
      exact ⟨toF32_mono (by linarith), toF32_mono (by linarith)⟩
  have hfraction : 0 ≤ relayStepToleranceFraction := relayStepToleranceFraction_pos.le
  refine (verifiable_fin hu hd).mpr ⟨hfinite, hlarge.trans hlong.1, ?_⟩
  refine (floor32_le u d v).trans_lt (max_lt ?_ ?_)
  · exact hpreciseUp.trans_le (toF32_mono (mul_le_mul_of_nonneg_right hlong.1 hfraction))
  · exact hpreciseDown.trans_le (toF32_mono (mul_le_mul_of_nonneg_right hlong.2 hfraction))

/-! ### The engine of a run -/

/-- `(next as f64 - current as f64).abs() >= 0.01`. -/
def switchReached : Single → Single → Bool
  | .fin next _, .fin current _ => decide (mvSwitchThreshold ≤ |toF64 (next - current)|)
  | .inf s, .inf t => s != t
  | .nan, _ => false
  | _, .nan => false
  | _, _ => true

instance : SwitchStep Single := ⟨switchReached⟩

theorem reached_fin {a b : ℚ} (ha : IsSingle a) (hb : IsSingle b) :
    SwitchStep.reached (Single.fin a ha) (.fin b hb) = true ↔ mvSwitchThreshold ≤ |toF64 (a - b)| :=
  decide_eq_true_iff

theorem switchReached_self (x : Single) : SwitchStep.reached x x = false := by
  cases x with
  | fin v hv =>
    show decide (mvSwitchThreshold ≤ |toF64 (v - v)|) = false
    rw [sub_self]
    decide +kernel
  | inf s => cases s <;> rfl
  | nan => rfl

/-- The amplitude of the relay of a run, as `MrftEngine::new` and the check before the run compute
it. -/
def amplitude32 (ctx : RunContext) (initial : InitialState) : Single :=
  clampRelayAmplitude (Single.ofRat ctx.config.relayAmpPercent) (Single.ofRat initial.mvIni)
    (Single.ofRat initial.mvRangeLow) (Single.ofRat initial.mvRangeHigh)

/-- The engine of a run, in `f32`. -/
def engine32 (ctx : RunContext) (initial : InitialState) : MrftEngine Single :=
  MrftEngine.new ctx.arith
    { ctx.config with relayAmpPercent := Single.ofRat ctx.config.relayAmpPercent }
    initial.direction
    (Single.ofRat (betaTable ctx.config.processType ctx.config.controllerType))
    { pvIni := Single.ofRat initial.pvIni
      mvIni := Single.ofRat initial.mvIni
      mvRangeLow := Single.ofRat initial.mvRangeLow
      mvRangeHigh := Single.ofRat initial.mvRangeHigh }
    ctx.timeAnchor.utc

section Engine

open MrftEngine

variable {ctx : RunContext} {initial : InitialState}

theorem relayUp_engine32 : (engine32 ctx initial).relayUp =
    Single.ofRat initial.mvIni + amplitude32 ctx initial :=
  congrArg (Single.ofRat initial.mvIni + ·) (Single.cast_one_mul _)

theorem relayDown_engine32 : (engine32 ctx initial).relayDown =
    Single.ofRat initial.mvIni - amplitude32 ctx initial :=
  congrArg (Single.ofRat initial.mvIni + ·) (Single.cast_neg_one_mul _)

/-- The engine of a run holds the initial MV, with no switch made; the number of its switches is
odd. -/
theorem relaying_engine32 (ctx : RunContext) (initial : InitialState) :
    Relaying ctx.arith (engine32 ctx initial) where
  below := by
    show 0 < ctx.arith.u32 (ctx.arith.u32 (ctx.arith.u32 (ctx.config.numCyclesSkip.toNat * 2) + 1) +
      ctx.arith.u32 (ctx.config.numCyclesCount.toNat * 2))
    cases ctx.arith with
    | exact =>
      simp only [IntArith.u32_exact]
      omega
    | machine =>
      simp only [IntArith.u32]
      omega
  idle _ := rfl
  relayed hpos := absurd hpos (Nat.lt_irrefl 0)

/-- The first tick switches when the step it asks for reaches the threshold. -/
theorem switchRequired_first (tick : Tick Single) :
    ((engine32 ctx initial).observe tick).switchRequired tick =
      SwitchStep.reached ((engine32 ctx initial).observe tick).mvValueNextStep
        (Single.ofRat initial.mvIni) := by
  have hcounter : ((engine32 ctx initial).observe tick).counterAllSwitches = 0 := rfl
  unfold switchRequired
  rw [hcounter]
  simp only [decide_true, Bool.or_true, Bool.and_true]
  rfl

/-- What the first switch writes. -/
theorem writesAt_first {ticks : ℕ → Tick Single}
    (hs : ((engine32 ctx initial).observe (ticks 0)).switchRequired (ticks 0) = true) :
    WritesAt ctx.arith (engine32 ctx initial) ticks 0
      (if (engine32 ctx initial).FirstIsLast ctx.arith then Single.ofRat initial.mvIni
        else ((engine32 ctx initial).observe (ticks 0)).mvValueNextStep) := by
  have hmv : (((engine32 ctx initial).observe (ticks 0)).performSwitch ctx.arith (ticks 0)).2 =
      if (engine32 ctx initial).FirstIsLast ctx.arith then Single.ofRat initial.mvIni
      else ((engine32 ctx initial).observe (ticks 0)).mvValueNextStep :=
    ((relaying_engine32 ctx initial).performSwitch (ticks 0)).2
  show _ ∈ ((engine32 ctx initial).step ctx.arith (ticks 0)).2
  rw [step_of_switch rfl hs, hmv]
  unfold finishStep
  split
  · exact List.mem_append_left _ (List.mem_singleton.mpr rfl)
  · exact List.mem_singleton.mpr rfl

end Engine

/-! ### Accepted steps -/

section Accepted

open MrftEngine

variable (ctx : RunContext) (initial : InitialState)

/-- The relay step is usable for the whole run, whatever numbers are read for the PV: the first
tick switches, and each command has a tolerance against the one before. -/
def RelayStepsUsable : Prop :=
  ∀ ticks : ℕ → Tick Single, (∀ n, (ticks n).pv.isFinite = true) →
    (∃ v, WritesAt ctx.arith (engine32 ctx initial) ticks 0 v) ∧
    ∀ k v, WritesAt ctx.arith (engine32 ctx initial) ticks k v → ∃ tolerance,
      mvActuationTolerance .relay v
        ((engine32 ctx initial).stateAfter ctx.arith ticks k).mvValueCurrent
        (Single.ofRat initial.mvRangeHigh - Single.ofRat initial.mvRangeLow) = .ok tolerance

/-- What an accepted amplitude has to meet besides: the engine takes both relay steps for steps,
the step down is verifiable too, the sides are apart by a number, and the counters do not wrap so
far that the first switch is taken for the last. -/
structure UsableAmplitude : Prop where
  reachedUp : SwitchStep.reached (Single.ofRat initial.mvIni + amplitude32 ctx initial)
    (Single.ofRat initial.mvIni) = true
  reachedDown : SwitchStep.reached (Single.ofRat initial.mvIni - amplitude32 ctx initial)
    (Single.ofRat initial.mvIni) = true
  down : Verifiable (Single.ofRat initial.mvIni - amplitude32 ctx initial)
    (Single.ofRat initial.mvIni)
  apart : ((Single.ofRat initial.mvIni + amplitude32 ctx initial) -
    (Single.ofRat initial.mvIni - amplitude32 ctx initial)).isFinite = true
  counters : ¬(engine32 ctx initial).FirstIsLast ctx.arith

variable {ctx initial}

/-- What the check before a run asks. -/
theorem validateRelayActuationStep_single_iff (hdriver : ctx.driver = .opcda)
    (hfloats : ctx.floats = .single) :
    validateRelayActuationStep ctx initial = .ok () ↔
      Verifiable (Single.ofRat initial.mvIni + amplitude32 ctx initial)
        (Single.ofRat initial.mvIni) := by
  rw [← mvActuationTolerance_single_iff _ _
    (Single.ofRat initial.mvRangeHigh - Single.ofRat initial.mvRangeLow)]
  unfold validateRelayActuationStep
  rw [if_neg (not_not.mpr hdriver), hfloats]
  show Except.map _ (mvActuationTolerance .relay
    (Single.ofRat initial.mvIni + amplitude32 ctx initial) (Single.ofRat initial.mvIni) _) = _ ↔ _
  cases mvActuationTolerance .relay (Single.ofRat initial.mvIni + amplitude32 ctx initial)
    (Single.ofRat initial.mvIni)
    (Single.ofRat initial.mvRangeHigh - Single.ofRat initial.mvRangeLow) <;> simp [Except.map]

/-- The two relay steps of an accepted amplitude are on either side of the initial MV. -/
theorem sides_of_verifiable {x a : Single} (hup : Verifiable (x + a) x)
    (hdown : Verifiable (x - a) x) : x ≤ x + a ∧ x - a ≤ x ∨ x + a ≤ x ∧ x ≤ x - a := by
  obtain ⟨⟨u, hu, hup_eq⟩, v, hv, rfl⟩ := hup.exists_fin
  obtain ⟨⟨d, hd, hdown_eq⟩, -⟩ := hdown.exists_fin
  have hsum : (Single.fin v hv + a).isFinite = true := by
    rw [hup_eq]
    rfl
  obtain ⟨-, b, hb, rfl⟩ := Single.exists_fin_of_add hsum
  rw [hup_eq, hdown_eq, Single.fin_le, Single.fin_le, Single.fin_le, Single.fin_le]
  rw [Single.fin_add] at hup_eq
  rw [Single.fin_sub] at hdown_eq
  have hu_eq := Single.eq_of_ofRat_eq_fin hup_eq
  have hd_eq := Single.eq_of_ofRat_eq_fin hdown_eq
  rcases le_total 0 b with h | h
  · refine .inl ⟨?_, ?_⟩
    · calc v = toF32 v := hv.rounded.symm
        _ ≤ toF32 (v + b) := toF32_mono (by linarith)
        _ = u := hu_eq
    · calc d = toF32 (v - b) := hd_eq.symm
        _ ≤ toF32 v := toF32_mono (by linarith)
        _ = v := hv.rounded
  · refine .inr ⟨?_, ?_⟩
    · calc u = toF32 (v + b) := hu_eq.symm
        _ ≤ toF32 v := toF32_mono (by linarith)
        _ = v := hv.rounded
    · calc v = toF32 v := hv.rounded.symm
        _ ≤ toF32 (v - b) := toF32_mono (by linarith)
        _ = d := hd_eq

/-- A write of a run whose amplitude is usable is verifiable. -/
theorem UsableAmplitude.verifiable (h : UsableAmplitude ctx initial)
    (hup : Verifiable (Single.ofRat initial.mvIni + amplitude32 ctx initial)
      (Single.ofRat initial.mvIni)) {ticks : ℕ → Tick Single} {k : ℕ} {v : Single}
    (hv : WritesAt ctx.arith (engine32 ctx initial) ticks k v) :
    Verifiable v ((engine32 ctx initial).stateAfter ctx.arith ticks k).mvValueCurrent := by
  have hsetup : ((engine32 ctx initial).stateAfter ctx.arith ticks k).setup =
      (engine32 ctx initial).setup := setup_stateAfter ticks k
  have hini : ((engine32 ctx initial).stateAfter ctx.arith ticks k).mvValueIni =
      Single.ofRat initial.mvIni := congrArg Setup.mvValueIni hsetup
  have hrunning := running_of_mem hv
  have hrelaying := relaying_stateAfter (relaying_engine32 ctx initial) h.counters ticks k hrunning
  have hwrite := (hrelaying.step hrunning
    (fun hfirst => h.counters ((firstIsLast_of_setup hsetup).mp hfirst)) (ticks k)).2 v hv
  have hprevious := hrelaying.target
  unfold RelayTarget at hprevious
  rw [relayUp_of_setup hsetup, relayDown_of_setup hsetup, hini, relayUp_engine32,
    relayDown_engine32] at hwrite hprevious
  have hacross := hup.across h.down (sides_of_verifiable hup h.down) h.apart
  rcases hwrite with ⟨rfl, hfrom⟩ | ⟨hto, hreached⟩
  · -- the snap-back
    rcases hfrom with hfrom | hfrom <;> rw [hfrom]
    · exact hup.symm
    · exact h.down.symm
  · have hne : v ≠ ((engine32 ctx initial).stateAfter ctx.arith ticks k).mvValueCurrent := by
      intro heq
      rw [← heq, switchReached_self] at hreached
      cases hreached
    rcases hprevious with hfrom | hfrom | hfrom <;> rw [hfrom] at hne ⊢ <;>
      rcases hto with rfl | rfl
    · exact hup
    · exact h.down
    · exact absurd rfl hne
    · exact hacross.symm
    · exact hacross
    · exact absurd rfl hne

/-- **An accepted relay step stays usable** when its amplitude is. -/
theorem UsableAmplitude.usable (h : UsableAmplitude ctx initial) (hdriver : ctx.driver = .opcda)
    (hfloats : ctx.floats = .single)
    (haccepted : validateRelayActuationStep ctx initial = .ok ()) :
    RelayStepsUsable ctx initial := by
  intro ticks _
  have hup := (validateRelayActuationStep_single_iff hdriver hfloats).mp haccepted
  refine ⟨⟨_, writesAt_first ?_⟩, fun k v hv => ?_⟩
  · rw [switchRequired_first]
    rcases observe_next_cases (engine32 ctx initial) (ticks 0) with hnext | hnext <;> rw [hnext]
    · rw [relayUp_engine32]
      exact h.reachedUp
    · rw [relayDown_engine32]
      exact h.reachedDown
  · exact (mvActuationTolerance_single_iff _ _ _).mpr (h.verifiable hup hv)

end Accepted

/-! ### The two ways a run can go

A PV at its initial value asks for the step up, and one that is far away on the right side for the
step down. -/

section Ways

open MrftEngine

variable {e : MrftEngine Single} {p b : ℚ} {hp : IsSingle p} {hb : IsSingle b}

/-- The extrema of an engine at the start or after a switch. -/
structure AtRest (e : MrftEngine Single) : Prop where
  maxPv : e.maxPvCycle = e.pvValueIni
  minPv : e.minPvCycle = e.pvValueIni

theorem AtRest.observe_up (h : AtRest e) (hpv : e.pvValueIni = .fin p hp)
    (hbeta : e.beta = .fin b hb)
    (time : UtcTime) : (e.observe ⟨time, e.pvValueIni⟩).mvSignNextStep = 1 := by
  have hzero : e.beta * max (max e.maxPvCycle e.pvValueIni - e.pvValueIni)
      (e.pvValueIni - min e.minPvCycle e.pvValueIni) = 0 := by
    rw [h.maxPv, h.minPv, hpv, Single.max_fin_self, Single.min_fin_self, Single.sub_fin_self,
      Single.zero_eq, Single.max_fin_self, hbeta, Single.fin_mul, mul_zero,
      Single.ofRat_eq_fin Single.isSingle_zero]
  have hsign : ∀ s : ℤ, s = 1 ∨ s = -1 → ((s : ℤ) : Single) * 0 = 0 := by
    rintro s (rfl | rfl) <;> decide +kernel
  have hdiff : e.pvValueIni - e.pvValueIni = 0 := by rw [hpv, Single.sub_fin_self]
  unfold observe
  dsimp only
  rw [hzero, hdiff, hsign _ (by split_ifs <;> simp)]
  have hsum : (0 : Single) + 0 ≥ 0 ∧ (0 : Single) - 0 ≤ 0 := by decide +kernel
  rw [if_pos hsum.1, if_pos hsum.2, ite_self]

/-- The distance to a far PV. -/
theorem far_distance {y : ℚ} (hlow : 2 ^ 126 ≤ y) (hhigh : y ≤ 3 * 2 ^ 126) :
    ∃ h, Single.ofRat y = .fin (toF32 y) h ∧ 2 ^ 126 ≤ toF32 y ∧ toF32 y ≤ 3 * 2 ^ 126 := by
  have h₁ : toF32 (2 ^ 126) = 2 ^ 126 := by decide +kernel
  have h₂ : toF32 (3 * 2 ^ 126) = 3 * 2 ^ 126 := by decide +kernel
  have hlow' : 2 ^ 126 ≤ toF32 y := h₁.symm.trans_le (toF32_mono hlow)
  have hhigh' : toF32 y ≤ 3 * 2 ^ 126 := (toF32_mono hhigh).trans_eq h₂
  have hrange : |toF32 y| < 2 ^ 128 := by
    rw [abs_of_nonneg (le_trans (by norm_num) hlow')]
    exact hhigh'.trans_lt (by norm_num)
  exact ⟨_, Single.ofRat_of_lt hrange, hlow', hhigh'⟩

/-- The hysteresis of a far PV is well below its distance. -/
theorem far_hysteresis {y b : ℚ} (hb : IsSingle b) (hy : IsSingle y) (hlow : 2 ^ 126 ≤ y)
    (hhigh : y ≤ 3 * 2 ^ 126) (hb₀ : 0 ≤ b) (hb₁ : b ≤ 15 / 32) :
    ∃ z hz, Single.fin b hb * .fin y hy = .fin z hz ∧ z + 2 ^ 122 ≤ y := by
  have hy₀ : 0 ≤ y := le_trans (by norm_num) hlow
  have hhalf : b * y ≤ 15 / 32 * y := mul_le_mul_of_nonneg_right hb₁ hy₀
  have hrange : |toF32 (b * y)| < 2 ^ 128 := by
    refine lt_of_le_of_lt ?_ hy.inRange
    rw [← toF32_abs, abs_of_nonneg (mul_nonneg hb₀ hy₀), abs_of_nonneg hy₀]
    exact (toF32_mono (by linarith)).trans_eq hy.rounded
  refine ⟨toF32 (b * y), _, Single.ofRat_of_lt hrange, ?_⟩
  rcases le_total y (2 ^ 127) with h | h
  · have hround : toF32 (15 * 2 ^ 122) = 15 * 2 ^ 122 := by decide +kernel
    have hle : toF32 (b * y) ≤ 15 * 2 ^ 122 := by
      rw [← hround]
      exact toF32_mono (by linarith)
    linarith
  · have hround : toF32 (45 * 2 ^ 121) = 45 * 2 ^ 121 := by decide +kernel
    have hle : toF32 (b * y) ≤ 45 * 2 ^ 121 := by
      rw [← hround]
      exact toF32_mono (by linarith)
    linarith

/-- The PV that makes the first step go down. -/
def farPv (actionMultiplier : ℤ) : Single :=
  if actionMultiplier = 1 then .ofRat (2 ^ 127) else .ofRat (-(2 ^ 127))

theorem AtRest.observe_down (h : AtRest e) (hpv : e.pvValueIni = .fin p hp) (hnear : |p| ≤ 2 ^ 126)
    (hbeta : e.beta = .fin b hb) (hb₀ : 0 ≤ b) (hb₁ : b ≤ 15 / 32)
    (hup : e.mvValueIni ≤ e.mvValueCurrent) (time : UtcTime) :
    (e.observe ⟨time, farPv e.actionMultiplier⟩).mvSignNextStep = -1 := by
  obtain ⟨hnear₁, hnear₂⟩ := abs_le.mp hnear
  have hfar : IsSingle (2 ^ 127) := ⟨by decide +kernel, by norm_num⟩
  have hround : toF32 (2 ^ 122) = 2 ^ 122 := by decide +kernel
  have hround' : toF32 (-(2 ^ 122)) = -(2 ^ 122) := by decide +kernel
  have hpos : (0 : ℚ) < 2 ^ 122 := by norm_num
  unfold observe farPv
  dsimp only
  rw [if_pos hup, Single.cast_one_mul, h.maxPv, h.minPv, hpv]
  by_cases hdirect : e.actionMultiplier = 1
  · rw [if_pos hdirect, if_pos hdirect, Single.ofRat_eq_fin hfar]
    have hmax : max (Single.fin p hp) (.fin (2 ^ 127) hfar) = .fin (2 ^ 127) hfar := by
      obtain ⟨h', heq⟩ := Single.fin_max hp hfar
      rw [heq]
      exact Single.fin_congr _ (max_eq_right (by linarith))
    have hmin : min (Single.fin p hp) (.fin (2 ^ 127) hfar) = .fin p hp := by
      obtain ⟨h', heq⟩ := Single.fin_min hp hfar
      rw [heq]
      exact Single.fin_congr _ (min_eq_left (by linarith))
    obtain ⟨hy, hdist, hlow, hhigh⟩ :=
      far_distance (y := 2 ^ 127 - p) (by linarith) (by linarith)
    obtain ⟨z, hz, hmul, hgap⟩ := far_hysteresis hb hy hlow hhigh hb₀ hb₁
    have hlong : max (Single.fin _ hy) 0 = .fin _ hy := by
      rw [Single.zero_eq]
      obtain ⟨h', heq⟩ := Single.fin_max hy Single.isSingle_zero
      rw [heq]
      exact Single.fin_congr _ (max_eq_left (hpos.le.trans (by linarith)))
    have hdiff : Single.fin p hp - .fin (2 ^ 127) hfar = .fin (-toF32 (2 ^ 127 - p)) hy.neg := by
      rw [Single.fin_sub, ← neg_sub, Single.ofRat_neg, hdist]
      rfl
    rw [hmax, hmin, Single.sub_fin_self, hdiff, Single.fin_sub, hdist, hlong, hbeta, hmul,
      Single.fin_add]
    exact if_neg (Single.not_nonneg_ofRat hround' (by linarith) (by linarith))
  · rw [if_neg hdirect, if_neg hdirect, Single.ofRat_eq_fin hfar.neg]
    have hmax : max (Single.fin p hp) (.fin (-(2 ^ 127)) hfar.neg) = .fin p hp := by
      obtain ⟨h', heq⟩ := Single.fin_max hp hfar.neg
      rw [heq]
      exact Single.fin_congr _ (max_eq_left (by linarith))
    have hmin : min (Single.fin p hp) (.fin (-(2 ^ 127)) hfar.neg) =
        .fin (-(2 ^ 127)) hfar.neg := by
      obtain ⟨h', heq⟩ := Single.fin_min hp hfar.neg
      rw [heq]
      exact Single.fin_congr _ (min_eq_right (by linarith))
    obtain ⟨hy, hdist, hlow, hhigh⟩ :=
      far_distance (y := p - -(2 ^ 127)) (by linarith) (by linarith)
    obtain ⟨z, hz, hmul, hgap⟩ := far_hysteresis hb hy hlow hhigh hb₀ hb₁
    have hlong : max 0 (Single.fin _ hy) = .fin _ hy := by
      rw [Single.zero_eq]
      obtain ⟨h', heq⟩ := Single.fin_max Single.isSingle_zero hy
      rw [heq]
      exact Single.fin_congr _ (max_eq_right (hpos.le.trans (by linarith)))
    rw [hmax, hmin, Single.sub_fin_self, Single.fin_sub, hdist, hlong, hbeta, hmul, Single.fin_sub]
    exact if_neg (Single.not_nonpos_ofRat hround (by linarith) (by linarith))

end Ways

/-! ### Usable steps -/

section Necessary

open MrftEngine

variable {ctx : RunContext} {initial : InitialState}

theorem beta_engine32 (ctx : RunContext) (initial : InitialState) :
    ∃ b hb, (engine32 ctx initial).beta = .fin b hb ∧ 0 ≤ b ∧ b ≤ 15 / 32 := by
  have hbeta : ∀ (t : ProcessType) (c : ControllerType),
      0 ≤ toF32 (betaTable t c) ∧ toF32 (betaTable t c) ≤ 15 / 32 := by
    intro t c
    cases t <;> cases c <;> decide +kernel
  obtain ⟨h₀, h₁⟩ := hbeta ctx.config.processType ctx.config.controllerType
  refine ⟨_, _, Single.ofRat_of_lt ?_, h₀, h₁⟩
  rw [abs_of_nonneg h₀]
  exact h₁.trans_lt (by norm_num)

theorem pvIni_engine32 (ctx : RunContext) (hnear : |initial.pvIni| ≤ 2 ^ 126) :
    ∃ p hp, (engine32 ctx initial).pvValueIni = .fin p hp ∧ |p| ≤ 2 ^ 126 := by
  have hround : toF32 (2 ^ 126) = 2 ^ 126 := by decide +kernel
  have hle : |toF32 initial.pvIni| ≤ 2 ^ 126 := by
    rw [← toF32_abs, ← hround]
    exact toF32_mono hnear
  exact ⟨_, _, Single.ofRat_of_lt (hle.trans_lt (by norm_num)), hle⟩

theorem atRest_engine32 (ctx : RunContext) (initial : InitialState) :
    AtRest (engine32 ctx initial) := ⟨rfl, rfl⟩

/-- With more than one switch to make there are at least three. -/
theorem two_lt_switchTarget (hfirst : ¬(engine32 ctx initial).FirstIsLast ctx.arith) :
    2 < (engine32 ctx initial).switchTarget ctx.arith := by
  by_contra hle
  apply hfirst
  revert hle
  unfold FirstIsLast switchTarget cyclesRemaining
  show ¬2 < ctx.arith.u32 (ctx.arith.u32 (ctx.arith.u32 (ctx.config.numCyclesSkip.toNat * 2) + 1) +
      ctx.arith.u32 (ctx.config.numCyclesCount.toNat * 2)) →
    (ctx.arith.i32 (ctx.arith.i32 (ctx.arith.i32 (ctx.arith.i32
      ((ctx.arith.u32 (ctx.arith.u32 (ctx.config.numCyclesSkip.toNat * 2) + 1) : ℕ) : ℤ) +
      ctx.arith.i32 (ctx.arith.i32 ((ctx.config.numCyclesCount.toNat : ℕ) : ℤ) * 2)) -
      ctx.arith.i32 ((1 : ℕ) : ℤ)) + 1)).tdiv 2 = 0
  intro hle
  cases har : ctx.arith with
  | exact =>
    rw [har] at hle
    simp only [IntArith.u32_exact, IntArith.i32_exact] at hle ⊢
    rw [Int.tdiv_eq_ediv_of_nonneg (by omega)]
    omega
  | machine =>
    rw [har] at hle
    simp only [IntArith.u32] at hle
    simp only [IntArith.u32, IntArith.i32, Int.bmod_mul_bmod, Int.add_bmod_bmod, Int.bmod_add_bmod,
      Int.sub_bmod_bmod, Int.bmod_sub_bmod]
    rw [Int.bmod_def]
    rw [Int.tdiv_eq_ediv_of_nonneg (by omega)]
    omega

/-- In a usable run the first tick switches, whatever number is its PV. -/
theorem RelayStepsUsable.switchRequired (h : RelayStepsUsable ctx initial) {tick : Tick Single}
    (hpv : tick.pv.isFinite = true) :
    ((engine32 ctx initial).observe tick).switchRequired tick = true := by
  obtain ⟨v, hv⟩ := (h (fun _ => tick) fun _ => hpv).1
  have hv : .writeMv v ∈ ((engine32 ctx initial).step ctx.arith tick).2 := hv
  by_contra hs
  rw [step_of_no_switch rfl (by simpa using hs)] at hv
  exact absurd (mem_finishStep hv) List.not_mem_nil

/-- The tick whose PV is the initial one asks for the step up. -/
theorem observe_upTick (hnear : |initial.pvIni| ≤ 2 ^ 126) (time : UtcTime) :
    ((engine32 ctx initial).observe ⟨time, (engine32 ctx initial).pvValueIni⟩).mvValueNextStep =
      Single.ofRat initial.mvIni + amplitude32 ctx initial := by
  obtain ⟨p, hp, hpv, -⟩ := pvIni_engine32 ctx hnear
  obtain ⟨b, hb, hbeta, -, -⟩ := beta_engine32 ctx initial
  rw [observe_mvValueNextStep, (atRest_engine32 ctx initial).observe_up hpv hbeta,
    ← relayUp_engine32]
  rfl

/-- The far tick asks for the step down. -/
theorem observe_downTick (hnear : |initial.pvIni| ≤ 2 ^ 126)
    (hmv : Single.ofRat initial.mvIni ≤ Single.ofRat initial.mvIni) (time : UtcTime) :
    ((engine32 ctx initial).observe
      ⟨time, farPv (engine32 ctx initial).actionMultiplier⟩).mvValueNextStep =
      Single.ofRat initial.mvIni - amplitude32 ctx initial := by
  obtain ⟨p, hp, hpv, hsmall⟩ := pvIni_engine32 ctx hnear
  obtain ⟨b, hb, hbeta, hb₀, hb₁⟩ := beta_engine32 ctx initial
  rw [observe_mvValueNextStep, (atRest_engine32 ctx initial).observe_down hpv hsmall hbeta hb₀ hb₁ hmv,
    ← relayDown_engine32]
  rfl

theorem isFinite_upTick (ctx : RunContext) (hnear : |initial.pvIni| ≤ 2 ^ 126) :
    (⟨0, (engine32 ctx initial).pvValueIni⟩ : Tick Single).pv.isFinite = true := by
  obtain ⟨p, hp, hpv, -⟩ := pvIni_engine32 ctx hnear
  show (engine32 ctx initial).pvValueIni.isFinite = true
  rw [hpv]
  rfl

theorem isFinite_farPv (actionMultiplier : ℤ) : (farPv actionMultiplier).isFinite = true := by
  unfold farPv
  split_ifs <;> decide +kernel

/-- A step down and, as soon as the protection allows it, the step up. -/
def downUp (ctx : RunContext) (initial : InitialState) (n : ℕ) : Tick Single :=
  if n = 0 then ⟨0, farPv (engine32 ctx initial).actionMultiplier⟩
  else ⟨seconds (engine32 ctx initial).noiseProtectionSecs, (engine32 ctx initial).pvValueIni⟩

theorem isFinite_downUp (ctx : RunContext) (hnear : |initial.pvIni| ≤ 2 ^ 126) (n : ℕ) :
    (downUp ctx initial n).pv.isFinite = true := by
  unfold downUp
  split_ifs
  · exact isFinite_farPv _
  · exact isFinite_upTick ctx hnear

/-- What the switch down leaves behind. -/
structure SteppedDown (ctx : RunContext) (initial : InitialState) (e : MrftEngine Single) :
    Prop where
  setup : e.setup = (engine32 ctx initial).setup
  relaying : Relaying ctx.arith e
  running : e.completed = false
  atRest : AtRest e
  current : e.mvValueCurrent = Single.ofRat initial.mvIni - amplitude32 ctx initial
  counter : e.counterAllSwitches = 1
  switched : e.timePreviousSwitch = 0

/-- The first tick of the run that steps down and up. -/
theorem steppedDown (h : RelayStepsUsable ctx initial) (hnear : |initial.pvIni| ≤ 2 ^ 126)
    (hmv : Single.ofRat initial.mvIni ≤ Single.ofRat initial.mvIni)
    (hfirst : ¬(engine32 ctx initial).FirstIsLast ctx.arith) :
    SteppedDown ctx initial ((engine32 ctx initial).stateAfter ctx.arith (downUp ctx initial) 1) := by
  have hs := h.switchRequired (isFinite_downUp ctx hnear 0)
  have hrelaying := relaying_engine32 ctx initial
  obtain ⟨hcounter, hmvNext⟩ := hrelaying.performSwitch (downUp ctx initial 0)
  have hcounter : (((engine32 ctx initial).observe (downUp ctx initial 0)).performSwitch ctx.arith
      (downUp ctx initial 0)).1.counterAllSwitches = 1 := hcounter
  have htarget := two_lt_switchTarget hfirst
  have hincomplete : (((engine32 ctx initial).observe (downUp ctx initial 0)).performSwitch ctx.arith
      (downUp ctx initial 0)).1.isComplete ctx.arith = false := by
    refine decide_eq_false (not_le.mpr ?_)
    rw [hcounter]
    exact lt_trans (by decide) htarget
  have hstate : (engine32 ctx initial).stateAfter ctx.arith (downUp ctx initial) 1 =
      (((engine32 ctx initial).observe (downUp ctx initial 0)).performSwitch ctx.arith
        (downUp ctx initial 0)).1 := by
    rw [stateAfter_succ]
    show ((engine32 ctx initial).step ctx.arith (downUp ctx initial 0)).1 = _
    rw [step_of_switch rfl hs]
    unfold finishStep
    rw [hincomplete]
    rfl
  have hrunning : ((engine32 ctx initial).stateAfter ctx.arith (downUp ctx initial) 1).completed =
      false := by
    rw [hstate]
    rfl
  have hnext : ((engine32 ctx initial).observe (downUp ctx initial 0)).mvValueNextStep =
      Single.ofRat initial.mvIni - amplitude32 ctx initial := observe_downTick hnear hmv 0
  refine ⟨setup_stateAfter _ 1, relaying_stateAfter hrelaying hfirst _ 1 hrunning, hrunning, ?_, ?_,
    ?_, ?_⟩
  · rw [hstate]
    exact ⟨rfl, rfl⟩
  · rw [hstate]
    exact hmvNext.trans ((if_neg hfirst).trans hnext)
  · rw [hstate]
    exact hcounter
  · rw [hstate]
    rfl

/-- The sides are at least as far apart as a step the engine takes. -/
theorem reached_across {up down x : Single} (hup : Verifiable up x) (hdown : Verifiable down x)
    (hsides : x ≤ up ∧ down ≤ x ∨ up ≤ x ∧ x ≤ down) (hreached : SwitchStep.reached up x = true) :
    SwitchStep.reached up down = true := by
  obtain ⟨⟨u, hu, rfl⟩, v, hv, rfl⟩ := hup.exists_fin
  obtain ⟨⟨d, hd, rfl⟩, -⟩ := hdown.exists_fin
  rw [Single.fin_le, Single.fin_le, Single.fin_le, Single.fin_le] at hsides
  have hlong : |u - v| ≤ |u - d| := by
    rcases hsides with ⟨h₁, h₂⟩ | ⟨h₁, h₂⟩
    · rw [abs_of_nonneg (sub_nonneg.mpr h₁), abs_of_nonneg (sub_nonneg.mpr (h₂.trans h₁))]
      linarith
    · rw [abs_of_nonpos (sub_nonpos.mpr h₁), abs_of_nonpos (sub_nonpos.mpr (h₁.trans h₂))]
      linarith
  refine (reached_fin hu hd).mpr (((reached_fin hu hv).mp hreached).trans ?_)
  rw [← toF64_abs, ← toF64_abs]
  exact toF64_mono hlong

/-- From its lower side a run steps up. -/
theorem SteppedDown.writesAt_up
    (h : SteppedDown ctx initial
      ((engine32 ctx initial).stateAfter ctx.arith (downUp ctx initial) 1))
    (hnear : |initial.pvIni| ≤ 2 ^ 126)
    (hreached : SwitchStep.reached (Single.ofRat initial.mvIni + amplitude32 ctx initial)
      (Single.ofRat initial.mvIni - amplitude32 ctx initial) = true)
    (hfirst : ¬(engine32 ctx initial).FirstIsLast ctx.arith) :
    WritesAt ctx.arith (engine32 ctx initial) (downUp ctx initial) 1
      (Single.ofRat initial.mvIni + amplitude32 ctx initial) := by
  show _ ∈ (((engine32 ctx initial).stateAfter ctx.arith (downUp ctx initial) 1).step ctx.arith
    (downUp ctx initial 1)).2
  generalize (engine32 ctx initial).stateAfter ctx.arith (downUp ctx initial) 1 = e at h ⊢
  obtain ⟨p, hp, hpv, -⟩ := pvIni_engine32 ctx hnear
  obtain ⟨b, hb, hbeta, -, -⟩ := beta_engine32 ctx initial
  have hpv_e : e.pvValueIni = (engine32 ctx initial).pvValueIni :=
    congrArg Setup.pvValueIni h.setup
  have hbeta_e : e.beta = (engine32 ctx initial).beta := congrArg Setup.beta h.setup
  have hnoise_e : e.noiseProtectionSecs = (engine32 ctx initial).noiseProtectionSecs :=
    congrArg Setup.noiseProtectionSecs h.setup
  have htick : downUp ctx initial 1 = ⟨seconds e.noiseProtectionSecs, e.pvValueIni⟩ := by
    rw [hpv_e, hnoise_e]
    rfl
  have hnext : (e.observe (downUp ctx initial 1)).mvValueNextStep =
      Single.ofRat initial.mvIni + amplitude32 ctx initial := by
    rw [htick, observe_mvValueNextStep, h.atRest.observe_up (hpv_e.trans hpv) (hbeta_e.trans hbeta),
      ← relayUp_engine32, ← relayUp_of_setup h.setup]
    rfl
  have hs : (e.observe (downUp ctx initial 1)).switchRequired (downUp ctx initial 1) = true := by
    unfold switchRequired
    rw [hnext, htick]
    show (SwitchStep.reached _ e.mvValueCurrent && (decide (e.timePreviousSwitch +
      seconds e.noiseProtectionSecs ≤ seconds e.noiseProtectionSecs) || _)) = true
    rw [h.current, hreached, h.switched, zero_add, decide_eq_true le_rfl]
    rfl
  have htarget : 2 < e.switchTarget ctx.arith := by
    rw [switchTarget_of_setup h.setup]
    exact two_lt_switchTarget hfirst
  have hcycles := cyclesRemaining_ne_zero
    (fun hlast => hfirst ((firstIsLast_of_setup h.setup).mp hlast)) (by decide) htarget
  have hmv := (h.relaying.performSwitch (downUp ctx initial 1)).2
  rw [h.counter, if_neg hcycles, hnext] at hmv
  rw [step_of_switch h.running hs, hmv]
  unfold finishStep
  split
  · exact List.mem_append_left _ (List.mem_singleton.mpr rfl)
  · exact List.mem_singleton.mpr rfl

/-- **Usable steps come of a usable amplitude**: a run can step up, down, and from one side to the
other. -/
theorem RelayStepsUsable.usableAmplitude (h : RelayStepsUsable ctx initial)
    (hdriver : ctx.driver = .opcda) (hfloats : ctx.floats = .single)
    (haccepted : validateRelayActuationStep ctx initial = .ok ())
    (hnear : |initial.pvIni| ≤ 2 ^ 126) : UsableAmplitude ctx initial := by
  have hup := (validateRelayActuationStep_single_iff hdriver hfloats).mp haccepted
  obtain ⟨v, hv, hmv⟩ := hup.exists_fin.2
  have hle : Single.ofRat initial.mvIni ≤ Single.ofRat initial.mvIni := by
    rw [hmv]
    exact (Single.fin_le hv hv).mpr le_rfl
  -- the first step up
  have hreachedUp := h.switchRequired (isFinite_upTick ctx hnear)
  rw [switchRequired_first, observe_upTick hnear] at hreachedUp
  -- the first step down
  have hdownward := h.switchRequired (isFinite_downUp ctx hnear 0)
  have hnext : ((engine32 ctx initial).observe (downUp ctx initial 0)).mvValueNextStep =
      Single.ofRat initial.mvIni - amplitude32 ctx initial := observe_downTick hnear hle 0
  have hdown := (mvActuationTolerance_single_iff _ _ _).mp
    ((h (downUp ctx initial) (isFinite_downUp ctx hnear)).2 0 _ (writesAt_first hdownward))
  rw [switchRequired_first, hnext] at hdownward
  have hfirst : ¬(engine32 ctx initial).FirstIsLast ctx.arith := by
    intro hfirst
    rw [if_pos hfirst] at hdown
    exact not_verifiable_self _ hdown
  rw [if_neg hfirst, hnext] at hdown
  -- the step from the lower side to the upper one
  have hstepped := steppedDown h hnear hle hfirst
  have hwrites := hstepped.writesAt_up hnear
    (reached_across hup hdown (sides_of_verifiable hup hdown) hreachedUp) hfirst
  have hacross := (mvActuationTolerance_single_iff _ _ _).mp
    ((h (downUp ctx initial) (isFinite_downUp ctx hnear)).2 1 _ hwrites)
  rw [hstepped.current] at hacross
  exact ⟨hreachedUp, hdownward, hdown, hacross.finite, hfirst⟩

end Necessary

instance (ctx : RunContext) (initial : InitialState) : Decidable (UsableAmplitude ctx initial) :=
  decidable_of_iff
    (SwitchStep.reached (Single.ofRat initial.mvIni + amplitude32 ctx initial)
        (Single.ofRat initial.mvIni) = true ∧
      SwitchStep.reached (Single.ofRat initial.mvIni - amplitude32 ctx initial)
        (Single.ofRat initial.mvIni) = true ∧
      Verifiable (Single.ofRat initial.mvIni - amplitude32 ctx initial)
        (Single.ofRat initial.mvIni) ∧
      ((Single.ofRat initial.mvIni + amplitude32 ctx initial) -
        (Single.ofRat initial.mvIni - amplitude32 ctx initial)).isFinite = true ∧
      ¬(engine32 ctx initial).FirstIsLast ctx.arith)
    ⟨fun ⟨h₁, h₂, h₃, h₄, h₅⟩ => ⟨h₁, h₂, h₃, h₄, h₅⟩, fun h => ⟨h.1, h.2, h.3, h.4, h.5⟩⟩

/-- **An accepted relay step is usable** when its amplitude is, and only then, as long as there
are PVs on both sides of the initial one. -/
theorem relay_steps_usable_iff (ctx : RunContext) (initial : InitialState)
    (hdriver : ctx.driver = .opcda) (hfloats : ctx.floats = .single)
    (haccepted : validateRelayActuationStep ctx initial = .ok ()) :
    (UsableAmplitude ctx initial → RelayStepsUsable ctx initial) ∧
      (|initial.pvIni| ≤ 2 ^ 126 → RelayStepsUsable ctx initial → UsableAmplitude ctx initial) :=
  ⟨fun h => h.usable hdriver hfloats haccepted,
    fun hnear h => h.usableAmplitude hdriver hfloats haccepted hnear⟩

/-- FC1 in `f32`. -/
def flowContext32 : RunContext := { flowContext with floats := .single }

theorem relay_steps_usable_flow : RelayStepsUsable flowContext32 flowInitial :=
  (relay_steps_usable_iff flowContext32 flowInitial rfl rfl (by decide +kernel)).1
    (by decide +kernel)

/-- FC1 with its valve just above the lower limit. -/
def shutInitial : InitialState := { flowInitial with mvIni := f32 0.01 }

/-- A loop with a narrow MV range far below zero, and a relay of 1/64. -/
def farContext : RunContext :=
  { flowContext32 with config := { flowLoopConfig with relayAmpPercent := 25 / 64 } }

/-- Its initial state. -/
def farInitial : InitialState :=
  { flowInitial with mvIni := -8192 + 1 / 1024, mvRangeHigh := -8190, mvRangeLow := -8194 }

/-- Two accepted steps that are not usable: one between the two thresholds, and one whose step
down is lost in the precision. -/
theorem relay_steps_unusable :
    (flowContext32.config.validate = .ok () ∧ validateInitialState shutInitial = .ok () ∧
      validateRelayActuationStep flowContext32 shutInitial = .ok () ∧
      ¬RelayStepsUsable flowContext32 shutInitial) ∧
    farContext.config.validate = .ok () ∧ validateInitialState farInitial = .ok () ∧
      validateRelayActuationStep farContext farInitial = .ok () ∧
      ¬RelayStepsUsable farContext farInitial := by
  refine ⟨⟨by decide +kernel, by decide +kernel, by decide +kernel, fun h => ?_⟩, by decide +kernel,
    by decide +kernel, by decide +kernel, fun h => ?_⟩
  · have hnear : |shutInitial.pvIni| ≤ 2 ^ 126 := by decide +kernel
    have hreached := (h.usableAmplitude rfl rfl (by decide +kernel) hnear).reachedUp
    revert hreached
    decide +kernel
  · have hnear : |farInitial.pvIni| ≤ 2 ^ 126 := by decide +kernel
    have hdown := (h.usableAmplitude rfl rfl (by decide +kernel) hnear).down
    revert hdown
    decide +kernel

end Bhtune
