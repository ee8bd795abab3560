import Mathlib.Algebra.Order.Round
import Mathlib.Data.Int.ConditionallyCompleteOrder
import Mathlib.Data.Int.Log
import Mathlib.Data.Rat.Floor
import Mathlib.Tactic.Linarith
import Mathlib.Tactic.Positivity

/-!
# Rounding to a decimal grid

A value is scaled by a power of ten, rounded to an integer and scaled back.  The integer rounding
is a parameter: any odd and monotone rounding to nearest will do, whatever it does with halves.

* `onGrid` — the multiples of `10 ^ (-p)`: distance, oddness, monotonicity, fixed points;
* `significant` — the same with the grid chosen by the value, so that `d` digits are kept; a carry
  into the next decade leaves the value on the coarser grid it then has.
-/

namespace DecimalGrid

/-- An odd and monotone rounding to a nearest integer. -/
structure RoundsToNearest (r : ℚ → ℤ) : Prop where
  half : ∀ q, |(r q : ℚ) - q| ≤ 1 / 2
  neg : ∀ q, r (-q) = -r q
  mono : Monotone r

/-- The nearest multiple of `10 ^ (-p)`. -/
def onGrid (r : ℚ → ℤ) (p : ℤ) (q : ℚ) : ℚ := r (q * (10 : ℚ) ^ p) / (10 : ℚ) ^ p

/-- How many decimal places keep `d` digits of a value. -/
def places (d : ℕ) (q : ℚ) : ℤ := d - 1 - Int.log 10 |q|

/-- The value rounded to `d` significant digits. -/
def significant (r : ℚ → ℤ) (d : ℕ) (q : ℚ) : ℚ := onGrid r (places d q) q

variable {r : ℚ → ℤ} (hr : RoundsToNearest r)

theorem pow_pos (p : ℤ) : (0 : ℚ) < (10 : ℚ) ^ p := zpow_pos (by norm_num) p

include hr

/-- An integer is its own nearest integer. -/
theorem RoundsToNearest.intCast (z : ℤ) : r z = z := by
  have hhalf := hr.half z
  have hint : |r z - z| < 1 := by
    have hcast : |((r z - z : ℤ) : ℚ)| ≤ 1 / 2 := by
      push_cast
      exact hhalf
    have hlt : ((|r z - z| : ℤ) : ℚ) < 1 := by
      rw [Int.cast_abs]
      linarith
    exact_mod_cast hlt
  have hzero := Int.abs_lt_one_iff.mp hint
  omega

/-! ### A fixed grid -/

theorem onGrid_half (p : ℤ) (q : ℚ) : |onGrid r p q - q| ≤ (10 : ℚ) ^ (-p) / 2 := by
  have hpos := pow_pos p
  have hscaled : onGrid r p q - q = (r (q * (10 : ℚ) ^ p) - q * (10 : ℚ) ^ p) / (10 : ℚ) ^ p := by
    rw [onGrid]
    field_simp
  rw [hscaled, abs_div, abs_of_pos hpos, zpow_neg, div_le_iff₀ hpos]
  calc |(r (q * (10 : ℚ) ^ p) : ℚ) - q * (10 : ℚ) ^ p| ≤ 1 / 2 := hr.half _
    _ = ((10 : ℚ) ^ p)⁻¹ / 2 * (10 : ℚ) ^ p := by field_simp

theorem onGrid_neg (p : ℤ) (q : ℚ) : onGrid r p (-q) = -onGrid r p q := by
  rw [onGrid, onGrid, neg_mul, hr.neg, Int.cast_neg, neg_div]

theorem onGrid_mono (p : ℤ) : Monotone (onGrid r p) := by
  intro x y hxy
  have hscaled : x * (10 : ℚ) ^ p ≤ y * (10 : ℚ) ^ p :=
    mul_le_mul_of_nonneg_right hxy (pow_pos p).le
  exact div_le_div_of_nonneg_right (Int.cast_le.mpr (hr.mono hscaled)) (pow_pos p).le

/-- A value on the grid stays where it is. -/
theorem onGrid_of_mem {p : ℤ} {q : ℚ} {z : ℤ} (h : q * (10 : ℚ) ^ p = z) : onGrid r p q = q := by
  rw [onGrid, h, hr.intCast, ← h]
  exact mul_div_cancel_right₀ q (pow_pos p).ne'

omit hr in
/-- A rounded value is on its grid. -/
theorem onGrid_mem (p : ℤ) (q : ℚ) : onGrid r p q * (10 : ℚ) ^ p = r (q * (10 : ℚ) ^ p) :=
  div_mul_cancel₀ _ (pow_pos p).ne'

theorem onGrid_idem (p : ℤ) (q : ℚ) : onGrid r p (onGrid r p q) = onGrid r p q :=
  onGrid_of_mem hr (onGrid_mem p q)

/-- A power of ten is on every grid that is not coarser than it. -/
theorem onGrid_ten_pow {p e : ℤ} (h : 0 ≤ e + p) : onGrid r p ((10 : ℚ) ^ e) = (10 : ℚ) ^ e := by
  have hmem : (10 : ℚ) ^ e * (10 : ℚ) ^ p = ((10 ^ (e + p).toNat : ℤ) : ℚ) := by
    rw [← zpow_add₀ (by norm_num)]
    push_cast
    rw [← zpow_natCast, Int.toNat_of_nonneg h]
  exact onGrid_of_mem hr hmem

/-! ### The grid of a value -/

omit hr in
theorem log_bounds {q : ℚ} (hq : 0 < q) :
    (10 : ℚ) ^ Int.log 10 q ≤ q ∧ q < (10 : ℚ) ^ (Int.log 10 q + 1) :=
  ⟨Int.zpow_log_le_self (b := 10) (by norm_num) hq,
    Int.lt_zpow_succ_log_self (b := 10) (by norm_num) q⟩

/-- Rounding a positive value keeps it in its decade, the upper end included. -/
theorem significant_bounds {d : ℕ} (hd : 1 ≤ d) {q : ℚ} (hq : 0 < q) :
    (10 : ℚ) ^ Int.log 10 q ≤ significant r d q ∧
      significant r d q ≤ (10 : ℚ) ^ (Int.log 10 q + 1) := by
  obtain ⟨hlow, hhigh⟩ := log_bounds hq
  have hplaces : places d q = d - 1 - Int.log 10 q := by rw [places, abs_of_pos hq]
  constructor
  · rw [← onGrid_ten_pow hr (p := places d q) (e := Int.log 10 q) (by omega)]
    exact onGrid_mono hr _ hlow
  · rw [← onGrid_ten_pow hr (p := places d q) (e := Int.log 10 q + 1) (by omega)]
    exact onGrid_mono hr _ hhigh.le

omit hr in
theorem log_of_bounds {e : ℤ} {q : ℚ} (hlow : (10 : ℚ) ^ e ≤ q) (hhigh : q < (10 : ℚ) ^ (e + 1)) :
    Int.log 10 q = e := by
  have hq : 0 < q := (pow_pos e).trans_le hlow
  obtain ⟨hlog, hlog'⟩ := log_bounds hq
  have h₁ : (10 : ℚ) ^ e < (10 : ℚ) ^ (Int.log 10 q + 1) := hlow.trans_lt hlog'
  have h₂ : (10 : ℚ) ^ Int.log 10 q < (10 : ℚ) ^ (e + 1) := hlog.trans_lt hhigh
  have h₃ := (zpow_lt_zpow_iff_right₀ (by norm_num : (1 : ℚ) < 10)).mp h₁
  have h₄ := (zpow_lt_zpow_iff_right₀ (by norm_num : (1 : ℚ) < 10)).mp h₂
  omega

/-- **Rounding again changes nothing**, also where the first rounding carried into the next
decade. -/
theorem significant_idem_of_pos {d : ℕ} (hd : 1 ≤ d) {q : ℚ} (hq : 0 < q) :
    significant r d (significant r d q) = significant r d q := by
  obtain ⟨hlow, hhigh⟩ := significant_bounds hr hd hq
  have hpos : 0 < significant r d q := (pow_pos _).trans_le hlow
  rcases hhigh.lt_or_eq with hlt | hcarry
  · -- the decade is kept, and with it the grid
    have hlog : Int.log 10 |significant r d q| = Int.log 10 |q| := by
      rw [abs_of_pos hpos, abs_of_pos hq]
      exact log_of_bounds hlow hlt
    have hplaces : places d (significant r d q) = places d q := by rw [places, places, hlog]
    show onGrid r (places d (significant r d q)) (significant r d q) = significant r d q
    rw [hplaces]
    exact onGrid_idem hr _ _
  · rw [hcarry]
    have hlog : Int.log 10 |(10 : ℚ) ^ (Int.log 10 q + 1)| = Int.log 10 q + 1 := by
      rw [abs_of_pos (pow_pos _)]
      exact Int.log_zpow (b := 10) (by norm_num) _
    apply onGrid_ten_pow hr
    rw [places, hlog]
    omega

theorem significant_mono_of_pos {d : ℕ} (hd : 1 ≤ d) {x y : ℚ} (hx : 0 < x) (hxy : x ≤ y) :
    significant r d x ≤ significant r d y := by
  have hy : 0 < y := hx.trans_le hxy
  rcases (Int.log_mono_right hx hxy : Int.log 10 x ≤ Int.log 10 y).lt_or_eq with hlt | heq
  · -- a value of a lower decade cannot pass the end of its decade
    calc significant r d x ≤ (10 : ℚ) ^ (Int.log 10 x + 1) := (significant_bounds hr hd hx).2
      _ ≤ (10 : ℚ) ^ Int.log 10 y := zpow_le_zpow_right₀ (by norm_num) hlt
      _ ≤ significant r d y := (significant_bounds hr hd hy).1
  · have hplaces : places d x = places d y := by
      rw [places, places, abs_of_pos hx, abs_of_pos hy, heq]
    rw [significant, significant, hplaces]
    exact onGrid_mono hr _ hxy

end DecimalGrid
