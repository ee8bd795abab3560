import Mathlib.Algebra.Order.Field.Basic

/-!
# Exact arithmetic with the non-finite values of a float format

`XNum K` is an ordered field with two infinities and a not-a-number, and multiplication and
division follow the float rules on them, without rounding and with a single, positive zero: a
nonzero number over zero is an infinity of its sign, `0 / 0` is not a number, a finite number over
an infinity is zero.  Code that divides first and asks `is_finite` afterwards can be read here as
it stands.
-/

/-- A number of an ordered field, an infinity of either sign, or not a number. -/
inductive XNum (K : Type*) where
  | fin (v : K)
  | inf (negative : Bool)
  | nan
  deriving DecidableEq, Repr

namespace XNum

variable {K : Type*}

/-- Whether a value is neither an infinity nor not-a-number. -/
def isFinite : XNum K → Bool
  | fin _ => true
  | _ => false

@[simp] theorem isFinite_fin (v : K) : (fin v).isFinite = true := rfl

@[simp] theorem isFinite_inf (b : Bool) : (inf b : XNum K).isFinite = false := rfl

@[simp] theorem isFinite_nan : (nan : XNum K).isFinite = false := rfl

variable [Field K] [LinearOrder K]

/-- The comparison `x <= 0.0`, false for not-a-number. -/
def leZero : XNum K → Bool
  | fin v => decide (v ≤ 0)
  | inf negative => negative
  | nan => false

@[simp] theorem leZero_fin (v : K) : (fin v).leZero = decide (v ≤ 0) := rfl

/-- The product of a number and an infinity. -/
def scaleInf (v : K) (negative : Bool) : XNum K :=
  if v = 0 then nan else inf (negative != decide (v < 0))

/-- Multiplication. -/
protected def mul : XNum K → XNum K → XNum K
  | fin a, fin b => fin (a * b)
  | fin a, inf s => scaleInf a s
  | inf s, fin b => scaleInf b s
  | inf s, inf t => inf (s != t)
  | _, _ => nan

/-- Division. -/
protected def div : XNum K → XNum K → XNum K
  | fin a, fin b => if b = 0 then (if a = 0 then nan else inf (decide (a < 0))) else fin (a / b)
  | fin _, inf _ => fin 0
  | inf s, fin b => inf (s != decide (b < 0))
  | _, _ => nan

instance : Mul (XNum K) := ⟨XNum.mul⟩

instance : Div (XNum K) := ⟨XNum.div⟩

@[simp] theorem fin_mul_fin (a b : K) : (fin a * fin b : XNum K) = fin (a * b) := rfl

theorem fin_div_fin (a b : K) :
    (fin a / fin b : XNum K) =
      if b = 0 then (if a = 0 then nan else inf (decide (a < 0))) else fin (a / b) := rfl

/-- Division by a nonzero number is the division of the field. -/
theorem fin_div_fin_of_ne (a : K) {b : K} (h : b ≠ 0) :
    (fin a / fin b : XNum K) = fin (a / b) := by
  rw [fin_div_fin, if_neg h]

/-- A quotient of numbers is a number unless the divisor is zero. -/
theorem isFinite_fin_div_fin (a b : K) : (fin a / fin b : XNum K).isFinite = decide (b ≠ 0) := by
  rw [fin_div_fin]
  by_cases hb : b = 0
  · rw [if_pos hb]
    split <;> simp [hb]
  · simp [hb]

variable [IsStrictOrderedRing K]

/-- A positive common factor of numerator and denominator cancels, zeros included. -/
theorem fin_div_fin_scale (a b : K) {c : K} (hc : 0 < c) :
    (fin (c * a) / fin (c * b) : XNum K) = fin a / fin b := by
  have hsign : (c * a < 0) ↔ a < 0 := by
    rw [mul_neg_iff]
    constructor
    · rintro (⟨_, h⟩ | ⟨h, _⟩)
      · exact h
      · exact absurd hc h.not_gt
    · exact fun h => Or.inl ⟨hc, h⟩
  simp only [fin_div_fin, mul_eq_zero, hc.ne', false_or, hsign, mul_div_mul_left _ _ hc.ne']

end XNum
