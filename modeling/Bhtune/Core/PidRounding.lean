import Bhtune.Core.PidTarget
import Bhtune.Library.DecimalGrid
import Bhtune.Library.DecimalText

/-!
# The law of template rounding

What the operator sees is a text, what the controller gets is a number; both come from one rounded
value.  The text is modelled as `format!` prints an `f64`: the exact value, rounded to the asked
precision with halves to even.

* `RoundedPidValue` — the value and its text;
* `roundValue_fin` — rounding as a grid of the value's own choosing;
* `parse_display` — the text is read back as the value;
* `rounding_law` — distance, idempotence, oddness, monotonicity, text, and positive active terms.
-/

namespace Bhtune

open DecimalGrid DecimalText

/-! ### The text of a rounded value -/

/-- To the nearest integer, exact halves to even. -/
def roundHalfEven (q : ℚ) : ℤ :=
  if q - ⌊q⌋ < 1 / 2 then ⌊q⌋
  else if 1 / 2 < q - ⌊q⌋ then ⌊q⌋ + 1
  else if ⌊q⌋ % 2 = 0 then ⌊q⌋ else ⌊q⌋ + 1

/-- `format!("{q:.n$}")`. -/
def formatFixed (n : ℕ) (q : ℚ) : String :=
  String.ofList (plainText (decide (q < 0)) (roundHalfEven (|q| * (10 : ℚ) ^ n)).toNat n)

/-- `format!("{q:.n$e}")`; rounding the mantissa up to ten moves the exponent. -/
def formatScientific (n : ℕ) (q : ℚ) : String :=
  let exponent := Int.log 10 |q|
  let mantissa := (roundHalfEven (|q| * (10 : ℚ) ^ (n - exponent))).toNat
  if mantissa = 10 ^ (n + 1) then
    String.ofList (plainText (decide (q < 0)) (10 ^ n) n ++ exponentText (exponent + 1))
  else String.ofList (plainText (decide (q < 0)) mantissa n ++ exponentText exponent)

/-- The display string of `round_value`, for a value that is already rounded. -/
def PidRounding.display (policy : PidRounding) (rounded : ℚ) : String :=
  match policy.kind with
  | .decimalPlaces => formatFixed policy.digits.toNat rounded
  | .significantDigits =>
    if rounded ≠ 0 then
      let exponent := Int.log 10 |rounded|
      if exponent ≥ policy.digits.toNat ∨ exponent < -4 then
        formatScientific (policy.digits.toNat - 1) rounded
      else formatFixed (policy.digits.toNat - 1 - exponent).toNat rounded
    else "0"

/-- A rounded controller value and its matching display string. -/
structure RoundedPidValue where
  value : ℚ
  display : String
  deriving DecidableEq

/-- `PidRounding::round_value`, the text included. -/
def PidRounding.roundedPidValue (policy : PidRounding) (value : XNum ℚ) :
    Except PidRoundingError RoundedPidValue :=
  (policy.roundValue value).map fun rounded => ⟨rounded, policy.display rounded⟩

example : PidRounding.roundedPidValue ⟨.significantDigits, 3⟩ (.fin 9.999)
    = .ok ⟨10, "10.0"⟩ := by decide +kernel

example : PidRounding.roundedPidValue ⟨.significantDigits, 3⟩ (.fin 999.9)
    = .ok ⟨1000, "1.00e3"⟩ := by decide +kernel

/-! ### Rounding to nearest -/

theorem roundHalfAway_of_nonneg {q : ℚ} (h : 0 ≤ q) : roundHalfAway q = ⌊q + 1 / 2⌋ := by
  rw [roundHalfAway, if_pos h]

theorem roundHalfAway_neg (q : ℚ) : roundHalfAway (-q) = -roundHalfAway q := by
  rcases lt_trichotomy q 0 with hneg | hzero | hpos
  · rw [roundHalfAway, roundHalfAway, if_pos (by linarith), if_neg (not_le.mpr hneg), neg_neg]
  · rw [hzero]
    decide +kernel
  · rw [roundHalfAway, roundHalfAway, if_neg (by linarith), if_pos hpos.le, neg_neg]

theorem roundHalfAway_nonneg {q : ℚ} (h : 0 ≤ q) : 0 ≤ roundHalfAway q := by
  rw [roundHalfAway_of_nonneg h]
  exact Int.floor_nonneg.mpr (by linarith)

theorem roundHalfAway_mono : Monotone roundHalfAway := by
  have hnonneg : ∀ {x y : ℚ}, 0 ≤ x → x ≤ y → roundHalfAway x ≤ roundHalfAway y := by
    intro x y hx hxy
    rw [roundHalfAway_of_nonneg hx, roundHalfAway_of_nonneg (hx.trans hxy)]
    exact Int.floor_le_floor (by linarith)
  intro x y hxy
  rcases le_total 0 x with hx | hx
  · exact hnonneg hx hxy
  · rcases le_total 0 y with hy | hy
    · have hleft := roundHalfAway_nonneg (q := -x) (by linarith)
      rw [roundHalfAway_neg] at hleft
      have hright := roundHalfAway_nonneg hy
      omega
    · have hmirror := hnonneg (x := -y) (y := -x) (by linarith) (by linarith)
      rw [roundHalfAway_neg, roundHalfAway_neg] at hmirror
      omega

theorem roundHalfAway_half (q : ℚ) : |(roundHalfAway q : ℚ) - q| ≤ 1 / 2 := by
  have hnonneg : ∀ {x : ℚ}, 0 ≤ x → |(roundHalfAway x : ℚ) - x| ≤ 1 / 2 := by
    intro x hx
    rw [roundHalfAway_of_nonneg hx, abs_le]
    have hlow := Int.floor_le (x + 1 / 2)
    have hhigh := Int.lt_floor_add_one (x + 1 / 2)
    constructor <;> linarith
  rcases le_total 0 q with hq | hq
  · exact hnonneg hq
  · have hmirror := hnonneg (x := -q) (by linarith)
    rw [roundHalfAway_neg, Int.cast_neg, ← neg_sub', abs_neg] at hmirror
    exact hmirror

theorem roundsToNearest_roundHalfAway : RoundsToNearest roundHalfAway :=
  ⟨roundHalfAway_half, roundHalfAway_neg, roundHalfAway_mono⟩

theorem roundHalfEven_intCast (z : ℤ) : roundHalfEven z = z := by
  rw [roundHalfEven, Int.floor_intCast, sub_self, if_pos (by norm_num)]

/-! ### The grid of a policy -/

/-- How many decimal places a policy keeps of a value. -/
def PidRounding.places (policy : PidRounding) (wide : ℚ) : ℤ :=
  match policy.kind with
  | .decimalPlaces => policy.digits.toNat
  | .significantDigits => if wide ≠ 0 then policy.digits.toNat - 1 - Int.log 10 |wide| else 0

/-- The value a policy rounds to. -/
def PidRounding.rounded (policy : PidRounding) (wide : ℚ) : ℚ :=
  onGrid roundHalfAway (policy.places wide) wide

/-- A valid policy rounds every number, an invalid one none. -/
theorem roundValue_fin (policy : PidRounding) (wide : ℚ) :
    policy.roundValue (.fin wide) = policy.validate.map fun _ => policy.rounded wide := by
  unfold PidRounding.roundValue
  cases policy.validate with
  | error reason => rfl
  | ok _ => rfl

theorem one_le_digits {policy : PidRounding} (h : policy.validate = .ok ())
    (hkind : policy.kind = .significantDigits) : 1 ≤ policy.digits.toNat := by
  unfold PidRounding.validate at h
  split_ifs at h with hinvalid
  by_contra hzero
  apply hinvalid
  have hdigits : policy.digits = 0 := by
    apply UInt8.toNat_inj.mp
    show policy.digits.toNat = 0
    omega
  simp [hkind, hdigits]

theorem rounded_of_decimalPlaces {policy : PidRounding} (h : policy.kind = .decimalPlaces)
    (wide : ℚ) : policy.rounded wide = onGrid roundHalfAway policy.digits.toNat wide := by
  rw [PidRounding.rounded, PidRounding.places, h]

theorem rounded_of_significantDigits {policy : PidRounding} (h : policy.kind = .significantDigits)
    {wide : ℚ} (hne : wide ≠ 0) :
    policy.rounded wide = significant roundHalfAway policy.digits.toNat wide := by
  rw [PidRounding.rounded, PidRounding.places, h]
  simp only [hne, ne_eq, not_false_eq_true, if_true]
  rfl

theorem rounded_zero (policy : PidRounding) : policy.rounded 0 = 0 := by
  have hmem : (0 : ℚ) * (10 : ℚ) ^ policy.places 0 = ((0 : ℤ) : ℚ) := by simp
  exact onGrid_of_mem roundsToNearest_roundHalfAway hmem

theorem places_of_significantDigits {policy : PidRounding} (h : policy.kind = .significantDigits)
    {wide : ℚ} (hne : wide ≠ 0) :
    policy.places wide = DecimalGrid.places policy.digits.toNat wide := by
  rw [PidRounding.places, h]
  simp only [hne, ne_eq, not_false_eq_true, if_true]
  rfl

theorem rounded_neg (policy : PidRounding) (wide : ℚ) :
    policy.rounded (-wide) = -policy.rounded wide := by
  have hplaces : policy.places (-wide) = policy.places wide := by
    simp only [PidRounding.places, neg_eq_zero, abs_neg, ne_eq]
  rw [PidRounding.rounded, PidRounding.rounded, hplaces]
  exact onGrid_neg roundsToNearest_roundHalfAway _ _

theorem rounded_nonneg (policy : PidRounding) {wide : ℚ} (h : 0 ≤ wide) :
    0 ≤ policy.rounded wide := by
  have hscaled : 0 ≤ wide * (10 : ℚ) ^ policy.places wide :=
    mul_nonneg h (DecimalGrid.pow_pos _).le
  exact div_nonneg (Int.cast_nonneg (roundHalfAway_nonneg hscaled)) (DecimalGrid.pow_pos _).le

section Valid

variable {policy : PidRounding} (hvalid : policy.validate = .ok ())

include hvalid

theorem rounded_idem_of_pos {wide : ℚ} (h : 0 < wide) :
    policy.rounded (policy.rounded wide) = policy.rounded wide := by
  cases hkind : policy.kind with
  | decimalPlaces =>
    rw [rounded_of_decimalPlaces hkind, rounded_of_decimalPlaces hkind]
    exact onGrid_idem roundsToNearest_roundHalfAway _ _
  | significantDigits =>
    have hdigits := one_le_digits hvalid hkind
    have hpos : 0 < policy.rounded wide := by
      rw [rounded_of_significantDigits hkind h.ne']
      exact (DecimalGrid.pow_pos _).trans_le
        (significant_bounds roundsToNearest_roundHalfAway hdigits h).1
    rw [rounded_of_significantDigits hkind hpos.ne', rounded_of_significantDigits hkind h.ne']
    exact significant_idem_of_pos roundsToNearest_roundHalfAway hdigits h

/-- Rounding a rounded value changes nothing. -/
theorem rounded_idem (wide : ℚ) : policy.rounded (policy.rounded wide) = policy.rounded wide := by
  rcases lt_trichotomy wide 0 with hneg | hzero | hpos
  · have hmirror : policy.rounded (policy.rounded (-wide)) = policy.rounded (-wide) :=
      rounded_idem_of_pos hvalid (by linarith)
    rw [rounded_neg, rounded_neg] at hmirror
    exact neg_injective hmirror
  · rw [hzero, rounded_zero, rounded_zero]
  · exact rounded_idem_of_pos hvalid hpos

theorem rounded_mono_of_nonneg {x y : ℚ} (hx : 0 ≤ x) (hxy : x ≤ y) :
    policy.rounded x ≤ policy.rounded y := by
  rcases hx.eq_or_lt with hzero | hpos
  · rw [← hzero, rounded_zero]
    exact rounded_nonneg policy (hx.trans hxy)
  · cases hkind : policy.kind with
    | decimalPlaces =>
      rw [rounded_of_decimalPlaces hkind, rounded_of_decimalPlaces hkind]
      exact onGrid_mono roundsToNearest_roundHalfAway _ hxy
    | significantDigits =>
      rw [rounded_of_significantDigits hkind hpos.ne',
        rounded_of_significantDigits hkind (hpos.trans_le hxy).ne']
      exact significant_mono_of_pos roundsToNearest_roundHalfAway (one_le_digits hvalid hkind) hpos
        hxy

theorem rounded_mono {x y : ℚ} (hxy : x ≤ y) : policy.rounded x ≤ policy.rounded y := by
  rcases le_total 0 x with hx | hx
  · exact rounded_mono_of_nonneg hvalid hx hxy
  · rcases le_total 0 y with hy | hy
    · have hleft : 0 ≤ policy.rounded (-x) := rounded_nonneg policy (by linarith)
      rw [rounded_neg] at hleft
      have hright := rounded_nonneg policy hy
      linarith
    · have hmirror := rounded_mono_of_nonneg hvalid (x := -y) (y := -x) (by linarith) (by linarith)
      rw [rounded_neg, rounded_neg] at hmirror
      linarith

omit hvalid in
theorem rounded_half (wide : ℚ) :
    |policy.rounded wide - wide| ≤ (10 : ℚ) ^ (-policy.places wide) / 2 :=
  onGrid_half roundsToNearest_roundHalfAway _ _

end Valid

/-! ### The text is the value -/

/-- The magnitude of a value on a grid, as a number of grid steps. -/
theorem abs_of_onGrid {q : ℚ} {p z : ℤ} (h : q * (10 : ℚ) ^ p = z) :
    |q| * (10 : ℚ) ^ p = ((z.natAbs : ℤ) : ℚ) := by
  rw [Int.natCast_natAbs, Int.cast_abs, ← h, abs_mul, abs_of_pos (DecimalGrid.pow_pos p)]

/-- The sign and the grid steps give the value back. -/
theorem signed_of_onGrid {q : ℚ} {p z : ℤ} (h : q * (10 : ℚ) ^ p = z) :
    signed (decide (q < 0)) ((z.natAbs : ℕ) * (10 : ℚ) ^ (-p)) = q := by
  have habs := abs_of_onGrid h
  have hvalue : ((z.natAbs : ℕ) : ℚ) * (10 : ℚ) ^ (-p) = |q| := by
    rw [← Int.cast_natCast, ← habs, mul_assoc, ← zpow_add₀ (by norm_num), add_neg_cancel, zpow_zero,
      mul_one]
  rw [hvalue, signed]
  by_cases hneg : q < 0
  · rw [abs_of_neg hneg]
    simp [hneg]
  · rw [abs_of_nonneg (not_lt.mp hneg)]
    simp [hneg]

/-- A value on the grid of `n` places is printed without loss. -/
theorem parse_formatFixed {q : ℚ} {n : ℕ} {z : ℤ} (h : q * (10 : ℚ) ^ (n : ℤ) = z) :
    parseNumber (formatFixed n q).toList = some q := by
  have hdigits : (roundHalfEven (|q| * (10 : ℚ) ^ n)).toNat = z.natAbs := by
    rw [← zpow_natCast, abs_of_onGrid h, roundHalfEven_intCast, Int.toNat_natCast]
  rw [formatFixed, String.toList_ofList, hdigits, parseNumber_plain, signed_of_onGrid h]

/-- A value with `n + 1` digits is printed without loss in scientific form. -/
theorem parse_formatScientific {q : ℚ} (hq : q ≠ 0) {n : ℕ} {z : ℤ}
    (h : q * (10 : ℚ) ^ (n - Int.log 10 |q|) = z) :
    parseNumber (formatScientific n q).toList = some q := by
  have hdigits : (roundHalfEven (|q| * (10 : ℚ) ^ (n - Int.log 10 |q|))).toNat = z.natAbs := by
    rw [abs_of_onGrid h, roundHalfEven_intCast, Int.toNat_natCast]
  have hlt : z.natAbs < 10 ^ (n + 1) := by
    have hdecade := (log_bounds (abs_pos.mpr hq)).2
    have hscaled : |q| * (10 : ℚ) ^ (n - Int.log 10 |q|) < (10 : ℚ) ^ ((n + 1 : ℕ) : ℤ) := by
      calc |q| * (10 : ℚ) ^ (n - Int.log 10 |q|)
          < (10 : ℚ) ^ (Int.log 10 |q| + 1) * (10 : ℚ) ^ (n - Int.log 10 |q|) :=
            mul_lt_mul_of_pos_right hdecade (DecimalGrid.pow_pos _)
        _ = (10 : ℚ) ^ ((n + 1 : ℕ) : ℤ) := by
            rw [← zpow_add₀ (by norm_num)]
            congr 1
            push_cast
            ring
    rw [abs_of_onGrid h, Int.cast_natCast, zpow_natCast] at hscaled
    exact_mod_cast hscaled
  have hexponent : (10 : ℚ) ^ (Int.log 10 |q| - n) = (10 : ℚ) ^ (-(n - Int.log 10 |q|)) := by
    rw [neg_sub]
  simp only [formatScientific]
  rw [hdigits, if_neg hlt.ne, String.toList_ofList, parseNumber_scientific, hexponent,
    signed_of_onGrid h]

/-- **The text of a rounded value is read back as the value.** -/
theorem parse_display {policy : PidRounding} (hvalid : policy.validate = .ok ()) (wide : ℚ) :
    parseNumber (policy.display (policy.rounded wide)).toList = some (policy.rounded wide) := by
  -- a rounded value is on its own grid, whatever grid it was rounded on
  have hmem : policy.rounded wide * (10 : ℚ) ^ policy.places (policy.rounded wide)
      = roundHalfAway (policy.rounded wide * (10 : ℚ) ^ policy.places (policy.rounded wide)) := by
    have hself := onGrid_mem (r := roundHalfAway) (policy.places (policy.rounded wide))
      (policy.rounded wide)
    rw [← PidRounding.rounded, rounded_idem hvalid] at hself
    exact hself
  unfold PidRounding.display
  cases hkind : policy.kind with
  | decimalPlaces =>
    rw [PidRounding.places, hkind] at hmem
    exact parse_formatFixed hmem
  | significantDigits =>
    by_cases hzero : policy.rounded wide = 0
    · simp only [hzero, ne_eq, not_true_eq_false, if_false]
      decide +kernel
    · have hdigits := one_le_digits hvalid hkind
      rw [places_of_significantDigits hkind hzero, DecimalGrid.places] at hmem
      simp only [hzero, ne_eq, not_false_eq_true, if_true]
      split_ifs with hform
      · apply parse_formatScientific hzero
        rw [Nat.cast_sub hdigits, Nat.cast_one]
        exact hmem
      · apply parse_formatFixed
        rw [Int.toNat_of_nonneg (by omega)]
        exact hmem

/-! ### The law -/

/-- A term that is strictly positive before and after rounding. -/
def PositiveTerm (value : XNum ℚ) (target : ℚ) : Prop :=
  ∃ v, value = .fin v ∧ 0 < v ∧ 0 < target

theorem positive_of_targets {policy : PidRounding} {value : XNum ℚ} {target : ℚ}
    (h : policy.Targets value target) : PositiveTerm value target := by
  obtain ⟨v, hv, hpos, hround, hne⟩ := h
  refine ⟨v, hv, hpos, ?_⟩
  rw [hv, roundValue_fin] at hround
  cases hvalid : policy.validate with
  | error reason =>
    rw [hvalid] at hround
    exact nomatch hround
  | ok _ =>
    rw [hvalid] at hround
    injection hround with htarget
    have hnonneg : 0 ≤ target := htarget ▸ rounded_nonneg policy hpos.le
    exact lt_of_le_of_ne hnonneg hne.symm

/-- **The rounding law.**  For every policy: a valid one rounds every finite value, to within half
a unit of the last place it keeps, to a value that rounding leaves alone and whose text is read
back as that value; rounding is odd and monotone.  And the active terms of controller targets are
positive before and after it. -/
theorem rounding_law (policy : PidRounding) :
    (policy.validate = .ok () → ∀ x, ∃ r, policy.roundedPidValue (.fin x) = .ok r) ∧
    (∀ x r, policy.roundedPidValue (.fin x) = .ok r →
      |r.value - x| ≤ (10 : ℚ) ^ (-policy.places x) / 2 ∧
        policy.roundedPidValue (.fin r.value) = .ok r ∧
        parseNumber r.display.toList = some r.value) ∧
    (∀ x r, policy.roundedPidValue (.fin x) = .ok r →
      ∃ r', policy.roundedPidValue (.fin (-x)) = .ok r' ∧ r'.value = -r.value) ∧
    (∀ x y r s, x ≤ y → policy.roundedPidValue (.fin x) = .ok r →
      policy.roundedPidValue (.fin y) = .ok s → r.value ≤ s.value) ∧
    ∀ pid controllerType template values, template.pidRounding = policy →
      controllerPidValues pid controllerType template = .ok values →
      PositiveTerm pid.proportional values.proportional ∧
        (controllerType ≠ .p → PositiveTerm pid.integral values.integral) ∧
        (controllerType = .pid → PositiveTerm pid.derivative values.derivative) := by
  have hrounds : policy.validate = .ok () → ∀ x, policy.roundedPidValue (.fin x)
      = .ok ⟨policy.rounded x, policy.display (policy.rounded x)⟩ := by
    intro hvalid x
    rw [PidRounding.roundedPidValue, roundValue_fin, hvalid]
    rfl
  have hinverts : ∀ x r, policy.roundedPidValue (.fin x) = .ok r → policy.validate = .ok () ∧
      r = ⟨policy.rounded x, policy.display (policy.rounded x)⟩ := by
    intro x r h
    cases hvalid : policy.validate with
    | error reason =>
      rw [PidRounding.roundedPidValue, roundValue_fin, hvalid] at h
      exact nomatch h
    | ok _ =>
      rw [hrounds hvalid x] at h
      injection h with h
      exact ⟨rfl, h.symm⟩
  refine ⟨?_, ?_, ?_, ?_, ?_⟩
  · intro hvalid x
    exact ⟨_, hrounds hvalid x⟩
  · intro x r h
    obtain ⟨hvalid, hr⟩ := hinverts x r h
    rw [hr, hrounds hvalid, rounded_idem hvalid]
    exact ⟨rounded_half x, rfl, parse_display hvalid x⟩
  · intro x r h
    obtain ⟨hvalid, hr⟩ := hinverts x r h
    refine ⟨_, hrounds hvalid (-x), ?_⟩
    rw [hr]
    exact rounded_neg policy x
  · intro x y r s hxy hx hy
    obtain ⟨hvalid, hr⟩ := hinverts x r hx
    obtain ⟨_, hs⟩ := hinverts y s hy
    rw [hr, hs]
    exact rounded_mono hvalid hxy
  · intro pid controllerType template values _ h
    have hcomputed := computed_of_controllerPidValues h
    refine ⟨positive_of_targets hcomputed.proportional, ?_, ?_⟩
    · intro hactive
      have hintegral := hcomputed.integral
      rw [if_neg hactive] at hintegral
      exact positive_of_targets hintegral
    · intro hactive
      have hderivative := hcomputed.derivative
      rw [if_pos hactive] at hderivative
      exact positive_of_targets hderivative

end Bhtune
