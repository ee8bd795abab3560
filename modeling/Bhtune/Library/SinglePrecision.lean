import Bhtune.Library.BinaryFloat

/-!
# Arithmetic in IEEE single precision

`Single` has the values of the format: the rationals with a 24-bit significand, two infinities and
not-a-number, with a single zero.  The result of an addition, a subtraction, a multiplication or a
division is rounded; negation, absolute values, maxima, minima and comparisons are exact.

* `Single.ofRat` — the value nearest to a rational, an infinity where that is out of range;
* `Single.ofRat_neg`, `Single.abs_ofRat` — the rounding is odd;
* `Single.fin_add`, `Single.fin_sub`, `Single.fin_mul` — arithmetic on numbers.
-/

namespace BinaryFloat

/-- A rational is a finite value of the format. -/
structure IsSingle (v : ℚ) : Prop where
  rounded : toF32 v = v
  inRange : |v| < 2 ^ 128

/-- A value of the format. -/
inductive Single where
  | fin (v : ℚ) (h : IsSingle v)
  | inf (negative : Bool)
  | nan
  deriving DecidableEq

theorem toF32_mono {a b : ℚ} (hab : a ≤ b) : toF32 a ≤ toF32 b := rounded_mono (by decide) hab

theorem toF32_neg (q : ℚ) : toF32 (-q) = -toF32 q := rounded_neg q

theorem toF32_zero : toF32 0 = 0 := rounded_zero

theorem toF32_toF32 (q : ℚ) : toF32 (toF32 q) = toF32 q := rounded_rounded (by decide) q

theorem toF32_abs (q : ℚ) : toF32 |q| = |toF32 q| := rounded_abs q

theorem toF64_mono {a b : ℚ} (hab : a ≤ b) : toF64 a ≤ toF64 b := rounded_mono (by decide) hab

theorem toF64_abs (q : ℚ) : toF64 |q| = |toF64 q| := rounded_abs q

theorem IsSingle.neg {v : ℚ} (h : IsSingle v) : IsSingle (-v) where
  rounded := by rw [toF32_neg, h.rounded]
  inRange := by
    rw [abs_neg]
    exact h.inRange

theorem IsSingle.abs {v : ℚ} (h : IsSingle v) : IsSingle |v| where
  rounded := by rw [toF32_abs, h.rounded]
  inRange := by
    rw [abs_abs]
    exact h.inRange

namespace Single

/-- The value nearest to a rational. -/
def ofRat (q : ℚ) : Single :=
  if h : |toF32 q| < 2 ^ 128 then .fin (toF32 q) ⟨toF32_toF32 q, h⟩ else .inf (decide (q < 0))

/-- `is_finite`. -/
def isFinite : Single → Bool
  | fin _ _ => true
  | _ => false

/-- `abs`. -/
protected def abs : Single → Single
  | fin v h => fin |v| h.abs
  | inf _ => inf false
  | nan => nan

protected def neg : Single → Single
  | fin v h => fin (-v) h.neg
  | inf negative => inf !negative
  | nan => nan

instance : Neg Single := ⟨Single.neg⟩

protected def add : Single → Single → Single
  | fin a _, fin b _ => ofRat (a + b)
  | fin _ _, inf s => inf s
  | inf s, fin _ _ => inf s
  | inf s, inf t => if s = t then inf s else nan
  | _, _ => nan

instance : Add Single := ⟨Single.add⟩

instance : Sub Single := ⟨fun a b => a + -b⟩

/-- The product of a number and an infinity. -/
def scaleInf (v : ℚ) (negative : Bool) : Single :=
  if v = 0 then nan else inf (negative != decide (v < 0))

protected def mul : Single → Single → Single
  | fin a _, fin b _ => ofRat (a * b)
  | fin a _, inf s => scaleInf a s
  | inf s, fin b _ => scaleInf b s
  | inf s, inf t => inf (s != t)
  | _, _ => nan

instance : Mul Single := ⟨Single.mul⟩

protected def div : Single → Single → Single
  | fin a _, fin b _ =>
    if b = 0 then (if a = 0 then nan else inf (decide (a < 0))) else ofRat (a / b)
  | fin _ _, inf _ => ofRat 0
  | inf s, fin b _ => inf (s != decide (b < 0))
  | _, _ => nan

instance : Div Single := ⟨Single.div⟩

/-- `<=`, which not-a-number does not meet. -/
protected def le : Single → Single → Bool
  | fin a _, fin b _ => decide (a ≤ b)
  | inf s, fin _ _ => s
  | fin _ _, inf s => !s
  | inf s, inf t => s || !t
  | _, _ => false

instance : LE Single := ⟨fun a b => Single.le a b = true⟩

instance : DecidableLE Single := fun a b => inferInstanceAs (Decidable (Single.le a b = true))

/-- `<`, which not-a-number does not meet. -/
protected def lt : Single → Single → Bool
  | fin a _, fin b _ => decide (a < b)
  | inf s, fin _ _ => s
  | fin _ _, inf s => !s
  | inf s, inf t => s && !t
  | _, _ => false

instance : LT Single := ⟨fun a b => Single.lt a b = true⟩

instance : DecidableLT Single := fun a b => inferInstanceAs (Decidable (Single.lt a b = true))

/-- `f32::max`, which gives way for not-a-number. -/
protected def max : Single → Single → Single
  | nan, b => b
  | a, nan => a
  | a, b => if a ≤ b then b else a

instance : Max Single := ⟨Single.max⟩

/-- `f32::min`. -/
protected def min : Single → Single → Single
  | nan, b => b
  | a, nan => a
  | a, b => if a ≤ b then a else b

instance : Min Single := ⟨Single.min⟩

instance : Zero Single := ⟨ofRat 0⟩

instance : IntCast Single := ⟨fun z => ofRat z⟩

/-! ### Rounding -/

theorem ofRat_of_lt {q : ℚ} (h : |toF32 q| < 2 ^ 128) :
    ofRat q = fin (toF32 q) ⟨toF32_toF32 q, h⟩ := dif_pos h

theorem ofRat_of_not_lt {q : ℚ} (h : ¬|toF32 q| < 2 ^ 128) : ofRat q = inf (decide (q < 0)) :=
  dif_neg h

theorem isFinite_ofRat (q : ℚ) : (ofRat q).isFinite = true ↔ |toF32 q| < 2 ^ 128 := by
  by_cases h : |toF32 q| < 2 ^ 128
  · simp [ofRat_of_lt h, isFinite, h]
  · simp [ofRat_of_not_lt h, isFinite, h]

theorem fin_congr {a b : ℚ} {ha : IsSingle a} (hb : IsSingle b) (h : a = b) :
    fin a ha = fin b hb := by
  subst h
  rfl

/-- A value of the format is its own nearest value. -/
theorem ofRat_eq_fin {v : ℚ} (h : IsSingle v) : ofRat v = fin v h := by
  have hlt : |toF32 v| < 2 ^ 128 := by
    rw [h.rounded]
    exact h.inRange
  rw [ofRat_of_lt hlt]
  exact fin_congr h h.rounded

theorem eq_of_ofRat_eq_fin {q v : ℚ} {h : IsSingle v} (heq : ofRat q = fin v h) : toF32 q = v := by
  by_cases hlt : |toF32 q| < 2 ^ 128
  · rw [ofRat_of_lt hlt] at heq
    injection heq
  · rw [ofRat_of_not_lt hlt] at heq
    cases heq

/-- A value that is out of range is not zero. -/
theorem ne_zero_of_not_lt {q : ℚ} (h : ¬|toF32 q| < 2 ^ 128) : q ≠ 0 := by
  rintro rfl
  rw [toF32_zero, abs_zero] at h
  exact h (by norm_num)

theorem ofRat_neg (q : ℚ) : ofRat (-q) = -ofRat q := by
  have habs : |toF32 (-q)| < 2 ^ 128 ↔ |toF32 q| < 2 ^ 128 := by rw [toF32_neg, abs_neg]
  by_cases h : |toF32 q| < 2 ^ 128
  · rw [ofRat_of_lt h, ofRat_of_lt (habs.mpr h)]
    exact fin_congr _ (toF32_neg q)
  · have hne := ne_zero_of_not_lt h
    rw [ofRat_of_not_lt h, ofRat_of_not_lt (mt habs.mp h)]
    show inf _ = inf (!decide (q < 0))
    rcases lt_or_gt_of_ne hne with hneg | hpos
    · simp [hneg, hneg.le]
    · simp [hpos, hpos.le]

theorem abs_ofRat (q : ℚ) : (ofRat q).abs = ofRat |q| := by
  have habs : |toF32 (|q|)| < 2 ^ 128 ↔ |toF32 q| < 2 ^ 128 := by rw [toF32_abs, abs_abs]
  by_cases h : |toF32 q| < 2 ^ 128
  · rw [ofRat_of_lt h, ofRat_of_lt (habs.mpr h)]
    exact fin_congr _ (toF32_abs q).symm
  · rw [ofRat_of_not_lt h, ofRat_of_not_lt (mt habs.mp h)]
    show inf false = inf (decide (|q| < 0))
    simp [not_lt.mpr (abs_nonneg q)]

/-! ### Arithmetic on numbers -/

section Finite

variable {a b : ℚ} (ha : IsSingle a) (hb : IsSingle b)

theorem fin_add : fin a ha + fin b hb = ofRat (a + b) := by
  show Single.add _ _ = _
  rw [Single.add]

theorem fin_sub : fin a ha - fin b hb = ofRat (a - b) := by
  show ofRat (a + -b) = _
  rw [sub_eq_add_neg]

theorem fin_mul : fin a ha * fin b hb = ofRat (a * b) := by
  show Single.mul _ _ = _
  rw [Single.mul]

theorem fin_le : fin a ha ≤ fin b hb ↔ a ≤ b := decide_eq_true_iff

theorem fin_lt : fin a ha < fin b hb ↔ a < b := decide_eq_true_iff

theorem fin_max : ∃ h, max (fin a ha) (fin b hb) = fin (max a b) h := by
  by_cases hle : a ≤ b
  · refine ⟨(max_eq_right hle).symm ▸ hb, ?_⟩
    show (if fin a ha ≤ fin b hb then fin b hb else fin a ha) = _
    rw [if_pos ((fin_le ha hb).mpr hle)]
    exact fin_congr _ (max_eq_right hle).symm
  · refine ⟨(max_eq_left (le_of_not_ge hle)).symm ▸ ha, ?_⟩
    show (if fin a ha ≤ fin b hb then fin b hb else fin a ha) = _
    rw [if_neg (mt (fin_le ha hb).mp hle)]
    exact fin_congr _ (max_eq_left (le_of_not_ge hle)).symm

theorem fin_min : ∃ h, min (fin a ha) (fin b hb) = fin (min a b) h := by
  by_cases hle : a ≤ b
  · refine ⟨(min_eq_left hle).symm ▸ ha, ?_⟩
    show (if fin a ha ≤ fin b hb then fin a ha else fin b hb) = _
    rw [if_pos ((fin_le ha hb).mpr hle)]
    exact fin_congr _ (min_eq_left hle).symm
  · refine ⟨(min_eq_right (le_of_not_ge hle)).symm ▸ hb, ?_⟩
    show (if fin a ha ≤ fin b hb then fin a ha else fin b hb) = _
    rw [if_neg (mt (fin_le ha hb).mp hle)]
    exact fin_congr _ (min_eq_right (le_of_not_ge hle)).symm

end Finite

/-! ### Values that are numbers -/

theorem exists_fin {x : Single} (h : x.isFinite = true) : ∃ v hv, x = fin v hv := by
  cases x with
  | fin v hv => exact ⟨v, hv, rfl⟩
  | inf s => cases h
  | nan => cases h

theorem isFinite_abs (x : Single) : x.abs.isFinite = x.isFinite := by
  cases x <;> rfl

theorem ofRat_ne_nan (q : ℚ) : ofRat q ≠ nan := by
  by_cases h : |toF32 q| < 2 ^ 128
  · rw [ofRat_of_lt h]
    nofun
  · rw [ofRat_of_not_lt h]
    nofun

theorem not_le_of_lt {x y : Single} (h : x < y) : ¬y ≤ x := by
  cases x with
  | fin a ha =>
    cases y with
    | fin b hb => exact mt (fin_le hb ha).mp (not_le.mpr ((fin_lt ha hb).mp h))
    | inf t => cases t <;> first | exact Bool.false_ne_true | cases h
    | nan => cases h
  | inf s =>
    cases y with
    | fin b hb => cases s <;> first | exact Bool.false_ne_true | cases h
    | inf t => cases s <;> cases t <;> first | exact Bool.false_ne_true | cases h
    | nan => cases h
  | nan => cases y <;> cases h

/-- Where not-a-number has no part, the order is total. -/
theorem lt_of_not_le {x y : Single} (hx : x ≠ nan) (hy : y ≠ nan) (h : ¬y ≤ x) : x < y := by
  cases x with
  | fin a ha =>
    cases y with
    | fin b hb => exact (fin_lt ha hb).mpr (not_le.mp (mt (fin_le hb ha).mpr h))
    | inf t => cases t <;> first | rfl | exact absurd rfl h
    | nan => exact absurd rfl hy
  | inf s =>
    cases y with
    | fin b hb => cases s <;> first | rfl | exact absurd rfl h
    | inf t => cases s <;> cases t <;> first | rfl | exact absurd rfl h
    | nan => exact absurd rfl hy
  | nan => exact absurd rfl hx

theorem le_of_not_lt {x y : Single} (hx : x ≠ nan) (hy : y ≠ nan) (h : ¬y < x) : x ≤ y := by
  by_contra hle
  exact h (lt_of_not_le hy hx hle)

/-- A difference is finite only between numbers. -/
theorem exists_fin_of_sub {x y : Single} (h : (x - y).isFinite = true) :
    (∃ a ha, x = fin a ha) ∧ ∃ b hb, y = fin b hb := by
  cases x with
  | fin a ha =>
    cases y with
    | fin b hb => exact ⟨⟨a, ha, rfl⟩, b, hb, rfl⟩
    | inf s => cases h
    | nan => cases h
  | inf s =>
    cases y with
    | fin b hb => cases h
    | inf t => cases s <;> cases t <;> cases h
    | nan => cases h
  | nan => cases y <;> cases h

theorem exists_fin_of_add {x y : Single} (h : (x + y).isFinite = true) :
    (∃ a ha, x = fin a ha) ∧ ∃ b hb, y = fin b hb := by
  cases x with
  | fin a ha =>
    cases y with
    | fin b hb => exact ⟨⟨a, ha, rfl⟩, b, hb, rfl⟩
    | inf s => cases h
    | nan => cases h
  | inf s =>
    cases y with
    | fin b hb => cases h
    | inf t => cases s <;> cases t <;> cases h
    | nan => cases h
  | nan => cases y <;> cases h

theorem isSingle_zero : IsSingle 0 := ⟨toF32_zero, by norm_num⟩

theorem zero_eq : (0 : Single) = fin 0 isSingle_zero := ofRat_eq_fin isSingle_zero

theorem max_fin_self {v : ℚ} (h : IsSingle v) : max (fin v h) (fin v h) = fin v h := by
  obtain ⟨h', heq⟩ := fin_max h h
  rw [heq]
  exact fin_congr h (max_self v)

theorem min_fin_self {v : ℚ} (h : IsSingle v) : min (fin v h) (fin v h) = fin v h := by
  obtain ⟨h', heq⟩ := fin_min h h
  rw [heq]
  exact fin_congr h (min_self v)

theorem sub_fin_self {v : ℚ} (h : IsSingle v) : fin v h - fin v h = 0 := by
  rw [fin_sub, sub_self]
  rfl

/-- A value that is well below zero is rounded to one below zero. -/
theorem not_nonneg_ofRat {q v : ℚ} (hv : toF32 v = v) (hneg : v < 0) (hle : q ≤ v) :
    ¬(0 : Single) ≤ ofRat q := by
  have hq : toF32 q < 0 := ((toF32_mono hle).trans_eq hv).trans_lt hneg
  by_cases h : |toF32 q| < 2 ^ 128
  · rw [ofRat_of_lt h, zero_eq, fin_le]
    exact not_le.mpr hq
  · rw [ofRat_of_not_lt h, decide_eq_true (hle.trans_lt hneg), zero_eq]
    exact Bool.false_ne_true

theorem not_nonpos_ofRat {q v : ℚ} (hv : toF32 v = v) (hpos : 0 < v) (hle : v ≤ q) :
    ¬ofRat q ≤ 0 := by
  have hq : 0 < toF32 q := hpos.trans_le (hv.symm.trans_le (toF32_mono hle))
  by_cases h : |toF32 q| < 2 ^ 128
  · rw [ofRat_of_lt h, zero_eq, fin_le]
    exact not_le.mpr hq
  · rw [ofRat_of_not_lt h, decide_eq_false (not_lt.mpr (hpos.le.trans hle)), zero_eq]
    exact Bool.false_ne_true

theorem isSingle_one : IsSingle 1 := ⟨by decide +kernel, by decide +kernel⟩

theorem cast_one_mul (x : Single) : ((1 : ℤ) : Single) * x = x := by
  have hone : ((1 : ℤ) : Single) = fin 1 isSingle_one := by
    show ofRat ((1 : ℤ) : ℚ) = _
    rw [Int.cast_one, ofRat_eq_fin isSingle_one]
  rw [hone]
  cases x with
  | fin v h =>
    rw [fin_mul, one_mul, ofRat_eq_fin h]
  | inf s => cases s <;> decide
  | nan => rfl

theorem cast_neg_one_mul (x : Single) : ((-1 : ℤ) : Single) * x = -x := by
  have hone : ((-1 : ℤ) : Single) = fin (-1) isSingle_one.neg := by
    show ofRat ((-1 : ℤ) : ℚ) = _
    rw [Int.cast_neg, Int.cast_one, ofRat_eq_fin isSingle_one.neg]
  rw [hone]
  cases x with
  | fin v h =>
    rw [fin_mul, neg_mul, one_mul, ofRat_eq_fin h.neg]
    rfl
  | inf s => cases s <;> decide
  | nan => rfl

end Single

end BinaryFloat
