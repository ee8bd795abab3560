import Mathlib.Algebra.Order.Field.Basic
import Mathlib.Data.Rat.Floor
import Mathlib.Tactic.Linarith
import Mathlib.Tactic.NormNum

/-!
# The values of a binary float format

A program that works in `f32` or `f64` never holds the decimal it is written with: the literal
`0.01` is the nearest value with a `24`- or `53`-bit significand.  `nearest p q` computes that
value exactly, as a rational, by scaling `q` to a `p`-bit integer and rounding half to even.
It is meant for literals, so positive and in the normal range.

An operation rounds its exact result in the same way, to the places that the format has for a value
of that size.

* `rounded` — the value of the format nearest to a rational, subnormal values included;
* `rounded_mono`, `rounded_neg`, `rounded_rounded` — the rounding is monotone, odd and idempotent.
-/

namespace BinaryFloat

/-- Nearest integer, exact halves going to the even neighbour. -/
def roundHalfEven (q : ℚ) : ℤ :=
  let f := q.floor
  let r := q - f
  if r < 1 / 2 then f
  else if 1 / 2 < r then f + 1
  else if f % 2 = 0 then f else f + 1

/-- `2 ^ e` as a rational, for either sign of `e`. -/
def pow2 : ℤ → ℚ
  | .ofNat n => (2 ^ n : ℕ)
  | .negSucc n => 1 / (2 ^ (n + 1) : ℕ)

/-- The largest `e` with `2 ^ e ≤ q`, for a positive `q`. -/
def exponent (q : ℚ) : ℤ :=
  let e : ℤ := (Nat.log2 q.num.toNat : ℤ) - (Nat.log2 q.den : ℤ)
  if pow2 e ≤ q then e else e - 1

/-- The value with a `p`-bit significand nearest to the positive rational `q`. -/
def nearest (p : ℕ) (q : ℚ) : ℚ :=
  let scale := (p : ℤ) - 1 - exponent q
  roundHalfEven (q * pow2 scale) * pow2 (-scale)

/-- The value of a decimal literal in IEEE single precision. -/
def f32 (q : ℚ) : ℚ := if q = 0 then 0 else nearest 24 q

/-- The value of a decimal literal in IEEE double precision. -/
def f64 (q : ℚ) : ℚ := if q = 0 then 0 else nearest 53 q

/-- The double that a parser makes of the digits of a decimal and the number of its places when
it divides the one, as a double, by a power of ten. -/
def f64Quotient (digits places : ℕ) : ℚ := f64 (f64 digits / f64 (10 ^ places))

/-- The quotient is not always the nearest double. -/
example : f64Quotient 9100000381469727 15 ≠ f64 (9100000381469727 / 10 ^ 15) := by
  decide +kernel

example : f32 (1 / 10) = 13421773 / 134217728 := by decide +kernel

example : f64 (1 / 100) = 5764607523034235 / 576460752303423488 := by decide +kernel

/-- The exponent of the last place that is kept of a value by `p` bits and no exponent below
`least`. -/
def lastPlace (p : ℕ) (least : ℤ) (q : ℚ) : ℤ := max (exponent |q|) least - ((p : ℤ) - 1)

/-- The nearest multiple of `2 ^ e`. -/
def onPlace (e : ℤ) (q : ℚ) : ℚ := roundHalfEven (q * pow2 (-e)) * pow2 e

/-- The value with `p` bits and no exponent below `least` that is nearest to `q`, subnormal values
included. -/
def rounded (p : ℕ) (least : ℤ) (q : ℚ) : ℚ := onPlace (lastPlace p least q) q

/-- The result of an operation in IEEE single precision, if it does not overflow. -/
def toF32 (q : ℚ) : ℚ := rounded 24 (-126) q

def toF64 (q : ℚ) : ℚ := rounded 53 (-1022) q

/-! ### Rounding to an integer -/

theorem floor_le_roundHalfEven (q : ℚ) : ⌊q⌋ ≤ roundHalfEven q := by
  have hfloor : q.floor = ⌊q⌋ := rfl
  unfold roundHalfEven
  dsimp only
  rw [hfloor]
  split_ifs <;> omega

theorem roundHalfEven_le_floor (q : ℚ) : roundHalfEven q ≤ ⌊q⌋ + 1 := by
  have hfloor : q.floor = ⌊q⌋ := rfl
  unfold roundHalfEven
  dsimp only
  rw [hfloor]
  split_ifs <;> omega

theorem roundHalfEven_mono {a b : ℚ} (hab : a ≤ b) : roundHalfEven a ≤ roundHalfEven b := by
  rcases (Int.floor_mono hab).lt_or_eq with hlt | heq
  · exact (roundHalfEven_le_floor a).trans ((Int.add_one_le_of_lt hlt).trans
      (floor_le_roundHalfEven b))
  · have ha : a.floor = ⌊a⌋ := rfl
    have hb : b.floor = ⌊b⌋ := rfl
    unfold roundHalfEven
    dsimp only
    rw [ha, hb, heq]
    have hsub : a - (⌊b⌋ : ℚ) ≤ b - (⌊b⌋ : ℚ) := sub_le_sub_right hab _
    split_ifs <;> first | omega | (exfalso; linarith)

theorem roundHalfEven_intCast (z : ℤ) : roundHalfEven z = z := by
  have hz : (z : ℚ).floor = z := Rat.floor_intCast z
  unfold roundHalfEven
  dsimp only
  rw [hz, sub_self, if_pos (by norm_num)]

theorem roundHalfEven_neg (q : ℚ) : roundHalfEven (-q) = -roundHalfEven q := by
  by_cases hint : (⌊q⌋ : ℚ) = q
  · rw [← hint, ← Int.cast_neg, roundHalfEven_intCast, roundHalfEven_intCast]
  · have hfloor : q.floor = ⌊q⌋ := rfl
    have hlt : (⌊q⌋ : ℚ) < q := lt_of_le_of_ne (Int.floor_le q) hint
    have hup : q < ⌊q⌋ + 1 := Int.lt_floor_add_one q
    have hneg : (-q).floor = -⌊q⌋ - 1 := by
      show ⌊-q⌋ = _
      rw [Int.floor_eq_iff]
      push_cast
      constructor <;> linarith
    unfold roundHalfEven
    dsimp only
    rw [hfloor, hneg]
    push_cast
    split_ifs <;> first | omega | (exfalso; linarith)

/-! ### Powers of two -/

theorem pow2_eq (e : ℤ) : pow2 e = (2 : ℚ) ^ e := by
  cases e with
  | ofNat n =>
    show ((2 ^ n : ℕ) : ℚ) = _
    rw [Int.ofNat_eq_natCast, zpow_natCast]
    norm_num
  | negSucc n =>
    show 1 / ((2 ^ (n + 1) : ℕ) : ℚ) = _
    rw [zpow_negSucc]
    norm_num

theorem pow2_pos (e : ℤ) : 0 < pow2 e := by
  rw [pow2_eq]
  exact zpow_pos (by norm_num) e

theorem pow2_neg_mul (e : ℤ) : pow2 (-e) * pow2 e = 1 := by
  rw [pow2_eq, pow2_eq, ← zpow_add₀ (by norm_num), neg_add_cancel, zpow_zero]

theorem pow2_mono {a b : ℤ} (h : a ≤ b) : pow2 a ≤ pow2 b := by
  rw [pow2_eq, pow2_eq]
  exact zpow_le_zpow_right₀ (by norm_num) h

theorem exponent_spec {q : ℚ} (hq : 0 < q) :
    pow2 (exponent q) ≤ q ∧ q < pow2 (exponent q + 1) := by
  have hnum : 0 < q.num := Rat.num_pos.mpr hq
  have hnat : (q.num.toNat : ℤ) = q.num := Int.toNat_of_nonneg hnum.le
  have hn : q.num.toNat ≠ 0 := by omega
  have hlow := Nat.log2_self_le hn
  have hhigh := @Nat.lt_log2_self q.num.toNat
  have hdlow := Nat.log2_self_le q.den_nz
  have hdhigh := @Nat.lt_log2_self q.den
  generalize hln : Nat.log2 q.num.toNat = ln at *
  generalize hld : Nat.log2 q.den = ld at *
  have hd : (0 : ℚ) < q.den := Nat.cast_pos.mpr q.den_pos
  have hval : q = (q.num.toNat : ℚ) / q.den := by
    have hcast : ((q.num.toNat : ℤ) : ℚ) = (q.num : ℚ) := by rw [hnat]
    rw [Int.cast_natCast] at hcast
    rw [hcast, Rat.num_div_den]
  have hlow' : (2 : ℚ) ^ ln ≤ q.num.toNat := by exact_mod_cast hlow
  have hhigh' : (q.num.toNat : ℚ) < (2 : ℚ) ^ (ln + 1) := by exact_mod_cast hhigh
  have hdlow' : (2 : ℚ) ^ ld ≤ q.den := by exact_mod_cast hdlow
  have hdhigh' : (q.den : ℚ) < (2 : ℚ) ^ (ld + 1) := by exact_mod_cast hdhigh
  have hupper : q < pow2 ((ln : ℤ) - ld + 1) := by
    rw [pow2_eq, hval, div_lt_iff₀ hd]
    calc (q.num.toNat : ℚ) < 2 ^ (ln + 1) := hhigh'
      _ = (2 : ℚ) ^ ((ln : ℤ) - ld + 1) * 2 ^ ld := by
        rw [← zpow_natCast 2 ld, ← zpow_add₀ (by norm_num), ← zpow_natCast]
        congr 1
        push_cast
        ring
      _ ≤ (2 : ℚ) ^ ((ln : ℤ) - ld + 1) * q.den :=
        mul_le_mul_of_nonneg_left hdlow' (zpow_pos (by norm_num) _).le
  have hlower : pow2 ((ln : ℤ) - ld - 1) ≤ q := by
    rw [pow2_eq, hval, le_div_iff₀ hd]
    calc (2 : ℚ) ^ ((ln : ℤ) - ld - 1) * q.den ≤ (2 : ℚ) ^ ((ln : ℤ) - ld - 1) * 2 ^ (ld + 1) :=
          mul_le_mul_of_nonneg_left hdhigh'.le (zpow_pos (by norm_num) _).le
      _ = 2 ^ ln := by
        rw [← zpow_natCast 2 (ld + 1), ← zpow_add₀ (by norm_num), ← zpow_natCast]
        congr 1
        push_cast
        ring
      _ ≤ q.num.toNat := hlow'
  unfold exponent
  dsimp only
  rw [hln, hld]
  split_ifs with h
  · exact ⟨h, hupper⟩
  · refine ⟨hlower, ?_⟩
    rw [sub_add_cancel]
    exact not_le.mp h

theorem exponent_mono {a b : ℚ} (ha : 0 < a) (hab : a ≤ b) : exponent a ≤ exponent b := by
  by_contra hlt
  have hstep : exponent b + 1 ≤ exponent a := by omega
  have hb := (exponent_spec (ha.trans_le hab)).2
  have hle := (pow2_mono hstep).trans (exponent_spec ha).1
  linarith

/-! ### Rounding to a format -/

theorem onPlace_mono (e : ℤ) : Monotone (onPlace e) := by
  intro a b hab
  unfold onPlace
  refine mul_le_mul_of_nonneg_right ?_ (pow2_pos e).le
  exact_mod_cast roundHalfEven_mono (mul_le_mul_of_nonneg_right hab (pow2_pos (-e)).le)

theorem onPlace_neg (e : ℤ) (q : ℚ) : onPlace e (-q) = -onPlace e q := by
  unfold onPlace
  rw [neg_mul, roundHalfEven_neg, Int.cast_neg, neg_mul]

/-- A power of two is on each finer place. -/
theorem onPlace_pow2 {e k : ℤ} (h : e ≤ k) : onPlace e (pow2 k) = pow2 k := by
  obtain ⟨n, hn⟩ := Int.le.dest h
  have hscaled : pow2 k * pow2 (-e) = ((2 ^ n : ℤ) : ℚ) := by
    rw [pow2_eq, pow2_eq, ← zpow_add₀ (by norm_num)]
    push_cast
    rw [← zpow_natCast]
    congr 1
    omega
  unfold onPlace
  rw [hscaled, roundHalfEven_intCast, ← hscaled, mul_assoc, pow2_neg_mul, mul_one]

variable {p : ℕ} {least : ℤ}

theorem rounded_neg (q : ℚ) : rounded p least (-q) = -rounded p least q := by
  unfold rounded lastPlace
  rw [abs_neg, onPlace_neg]

theorem rounded_zero : rounded p least 0 = 0 := by
  unfold rounded onPlace
  rw [zero_mul]
  have hzero : roundHalfEven 0 = 0 := roundHalfEven_intCast 0
  rw [hzero, Int.cast_zero, zero_mul]

theorem rounded_nonneg {q : ℚ} (hq : 0 ≤ q) : 0 ≤ rounded p least q := by
  have h := onPlace_mono (lastPlace p least q) hq
  have hzero : onPlace (lastPlace p least q) 0 = 0 := by
    unfold onPlace
    rw [zero_mul, show roundHalfEven 0 = 0 from roundHalfEven_intCast 0, Int.cast_zero, zero_mul]
  rw [hzero] at h
  exact h

theorem rounded_mono_of_pos (hp : 1 ≤ p) {a b : ℚ} (ha : 0 < a) (hab : a ≤ b) :
    rounded p least a ≤ rounded p least b := by
  have hb : 0 < b := ha.trans_le hab
  have hexp := exponent_mono ha hab
  unfold rounded
  rcases (show lastPlace p least a ≤ lastPlace p least b by
    unfold lastPlace
    rw [abs_of_pos ha, abs_of_pos hb]
    omega).lt_or_eq with hlt | heq
  · -- the values are on either side of a power of two, which is on both grids
    have hbounds : lastPlace p least a ≤ exponent b ∧ lastPlace p least b ≤ exponent b ∧
        exponent a + 1 ≤ exponent b := by
      unfold lastPlace at *
      rw [abs_of_pos ha, abs_of_pos hb] at *
      omega
    obtain ⟨hae, hbe, hab'⟩ := hbounds
    have hmid : a ≤ pow2 (exponent b) := (exponent_spec ha).2.le.trans (pow2_mono hab')
    calc onPlace (lastPlace p least a) a
        ≤ onPlace (lastPlace p least a) (pow2 (exponent b)) := onPlace_mono _ hmid
      _ = onPlace (lastPlace p least b) (pow2 (exponent b)) := by
        rw [onPlace_pow2 hae, onPlace_pow2 hbe]
      _ ≤ onPlace (lastPlace p least b) b := onPlace_mono _ (exponent_spec hb).1
  · rw [heq]
    exact onPlace_mono _ hab

theorem rounded_mono (hp : 1 ≤ p) {a b : ℚ} (hab : a ≤ b) :
    rounded p least a ≤ rounded p least b := by
  rcases lt_trichotomy a 0 with ha | rfl | ha
  · rcases lt_or_ge b 0 with hb | hb
    · have h := @rounded_mono_of_pos p least hp (-b) (-a) (neg_pos.mpr hb) (neg_le_neg hab)
      rw [rounded_neg, rounded_neg] at h
      exact neg_le_neg_iff.mp h
    · have h := @rounded_nonneg p least (-a) (neg_nonneg.mpr ha.le)
      rw [rounded_neg] at h
      exact (neg_nonneg.mp h).trans (rounded_nonneg hb)
  · rw [rounded_zero]
    exact rounded_nonneg hab
  · exact rounded_mono_of_pos hp ha hab

/-! ### Values on the grid -/

/-- A multiple of a power of two is on each finer place. -/
theorem onPlace_mul_pow2 {e k : ℤ} (h : e ≤ k) (m : ℤ) : onPlace e (m * pow2 k) = m * pow2 k := by
  obtain ⟨n, hn⟩ := Int.le.dest h
  have hscaled : (m : ℚ) * pow2 k * pow2 (-e) = ((m * 2 ^ n : ℤ) : ℚ) := by
    rw [mul_assoc, pow2_eq, pow2_eq, ← zpow_add₀ (by norm_num)]
    push_cast
    rw [← zpow_natCast]
    congr 2
    omega
  unfold onPlace
  rw [hscaled, roundHalfEven_intCast, ← hscaled, mul_assoc, pow2_neg_mul, mul_one]

theorem rounded_abs (q : ℚ) : rounded p least |q| = |rounded p least q| := by
  rcases le_total 0 q with h | h
  · rw [abs_of_nonneg h, abs_of_nonneg (rounded_nonneg h)]
  · have hneg := @rounded_nonneg p least (-q) (neg_nonneg.mpr h)
    rw [abs_of_nonpos h, rounded_neg]
    rw [rounded_neg] at hneg
    rw [abs_of_nonpos (neg_nonneg.mp hneg)]

theorem lt_of_pow2_le {a b : ℤ} (h : pow2 a ≤ pow2 b) : a ≤ b := by
  rw [pow2_eq, pow2_eq] at h
  exact (zpow_le_zpow_iff_right₀ (by norm_num)).mp h

/-- A rounded value is a value of the format. -/
theorem rounded_rounded (hp : 1 ≤ p) (q : ℚ) :
    rounded p least (rounded p least q) = rounded p least q := by
  -- the sign does not matter
  suffices hpos : ∀ q : ℚ, 0 ≤ q → rounded p least (rounded p least q) = rounded p least q by
    rcases le_total 0 q with h | h
    · exact hpos q h
    · have hneg := hpos (-q) (neg_nonneg.mpr h)
      rw [rounded_neg, rounded_neg] at hneg
      exact neg_injective hneg
  intro q hq
  rcases hq.eq_or_lt with rfl | hq
  · rw [rounded_zero, rounded_zero]
  rcases (@rounded_nonneg p least q hq.le).eq_or_lt with hzero | hround
  · rw [← hzero, rounded_zero]
  by_cases hfine : lastPlace p least (rounded p least q) ≤ lastPlace p least q
  · exact onPlace_mul_pow2 hfine _
  · -- only a power of two is rounded up to has a coarser place
    have hplaces : lastPlace p least q + ((p : ℤ) - 1) = max (exponent q) least ∧
        max (exponent q) least + 1 ≤ exponent (rounded p least q) ∧
        lastPlace p least (rounded p least q) ≤ exponent (rounded p least q) := by
      unfold lastPlace at *
      rw [abs_of_pos hq, abs_of_pos hround] at *
      omega
    obtain ⟨hplace, hexponent, hlast⟩ := hplaces
    have hbelow : q ≤ pow2 (max (exponent q) least + 1) :=
      (exponent_spec hq).2.le.trans (pow2_mono (by omega))
    have hupper : rounded p least q ≤ pow2 (max (exponent q) least + 1) := by
      have h := onPlace_mono (lastPlace p least q) hbelow
      rwa [onPlace_pow2 (by omega)] at h
    have hlower := (pow2_mono hexponent).trans (exponent_spec hround).1
    have hpower : rounded p least q = pow2 (max (exponent q) least + 1) := le_antisymm hupper hlower
    have hsame : exponent (rounded p least q) ≤ max (exponent q) least + 1 := by
      have h := (exponent_spec hround).1
      rw [hpower] at h ⊢
      exact lt_of_pow2_le h
    have hcoarse : lastPlace p least (rounded p least q) ≤ max (exponent q) least + 1 :=
      hlast.trans hsame
    calc rounded p least (rounded p least q)
        = onPlace (lastPlace p least (rounded p least q)) (rounded p least q) := rfl
      _ = onPlace (lastPlace p least (rounded p least q)) (pow2 (max (exponent q) least + 1)) := by
        rw [← hpower]
      _ = rounded p least q := by rw [onPlace_pow2 hcoarse, hpower]

end BinaryFloat
