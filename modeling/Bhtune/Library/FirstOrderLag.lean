import Mathlib.Algebra.Ring.GeomSum
import Mathlib.Algebra.Order.BigOperators.Group.Finset
import Mathlib.Algebra.Order.Field.Basic
import Mathlib.Tactic.Ring

/-!
# First-order lags

The recurrence `x ↦ x * c + w` over inputs `w 0, w 1, …`, its closed form, and how far two of its
runs can drift apart.

* `response` — the closed form, a geometrically weighted sum;
* `response_succ`, `response_succ_left` — one more input at either end;
* `response_lag_le`, `le_response_lag` — a lag that moves towards targets stays between them;
* `abs_response_le`, `abs_response_eq` — what bounded disturbances add up to.
-/

namespace FirstOrderLag

variable {K : Type*}

section Closed

variable [CommRing K] (c x : K) (w : ℕ → K) (n : ℕ)

/-- The value after `n` inputs. -/
def response : K := x * c ^ n + ∑ k ∈ Finset.range n, w k * c ^ (n - 1 - k)

@[simp] theorem response_zero : response c x w 0 = x := by simp [response]

/-- **The recurrence.** -/
theorem response_succ : response c x w (n + 1) = response c x w n * c + w n := by
  have hweights : ∑ k ∈ Finset.range n, w k * c ^ (n - k) =
      (∑ k ∈ Finset.range n, w k * c ^ (n - 1 - k)) * c := by
    rw [Finset.sum_mul]
    refine Finset.sum_congr rfl fun k hk => ?_
    have hlt := Finset.mem_range.mp hk
    rw [mul_assoc, ← pow_succ, show n - 1 - k + 1 = n - k by omega]
  show x * c ^ (n + 1) + ∑ k ∈ Finset.range (n + 1), w k * c ^ (n - k) = _
  rw [Finset.sum_range_succ, hweights, Nat.sub_self]
  unfold response
  ring

/-- The first input may be taken as part of where the lag starts. -/
theorem response_succ_left :
    response c x w (n + 1) = response c (x * c + w 0) (fun k => w (k + 1)) n := by
  induction n with
  | zero => simp [response_succ]
  | succ n ih => rw [response_succ, ih, ← response_succ]

/-- The lag is linear in where it starts and in its inputs. -/
theorem response_sub (x' : K) (w' : ℕ → K) :
    response c x w n - response c x' w' n = response c (x - x') (fun k => w k - w' k) n := by
  induction n with
  | zero => simp
  | succ n ih =>
    simp only [response_succ]
    rw [← ih]
    ring

/-- Only the inputs so far matter. -/
theorem response_congr {w w' : ℕ → K} (h : ∀ k < n, w k = w' k) :
    response c x w n = response c x w' n := by
  unfold response
  congr 1
  exact Finset.sum_congr rfl fun k hk => by rw [h k (Finset.mem_range.mp hk)]

/-- A constant disturbance adds up to a geometric sum. -/
theorem response_const (a : K) :
    response c 0 (fun _ => a) n = a * ∑ k ∈ Finset.range n, c ^ k := by
  induction n with
  | zero => simp
  | succ n ih =>
    rw [response_succ, ih, Finset.sum_range_succ', pow_zero]
    have hshift : ∑ k ∈ Finset.range n, c ^ (k + 1) = (∑ k ∈ Finset.range n, c ^ k) * c := by
      rw [Finset.sum_mul]
      exact Finset.sum_congr rfl fun k _ => pow_succ c k
    rw [hshift]
    ring

end Closed

section Ordered

variable [Field K] [LinearOrder K] [IsStrictOrderedRing K] {c x a lo hi : K} {w u : ℕ → K} {n : ℕ}

/-- A lag that moves towards targets stays above what they are above. -/
theorem le_response_lag (h₀ : 0 ≤ c) (h₁ : c ≤ 1) (hx : lo ≤ x) (hu : ∀ k < n, lo ≤ u k) :
    lo ≤ response c x (fun k => (1 - c) * u k) n := by
  induction n with
  | zero => simpa using hx
  | succ n ih =>
    have hprevious := ih fun k hk => hu k (Nat.lt_succ_of_lt hk)
    have htarget := hu n (Nat.lt_succ_self n)
    rw [response_succ]
    calc lo = lo * c + (1 - c) * lo := by ring
      _ ≤ _ := add_le_add (mul_le_mul_of_nonneg_right hprevious h₀)
        (mul_le_mul_of_nonneg_left htarget (sub_nonneg.mpr h₁))

/-- A lag that moves towards targets stays below what they are below. -/
theorem response_lag_le (h₀ : 0 ≤ c) (h₁ : c ≤ 1) (hx : x ≤ hi) (hu : ∀ k < n, u k ≤ hi) :
    response c x (fun k => (1 - c) * u k) n ≤ hi := by
  induction n with
  | zero => simpa using hx
  | succ n ih =>
    have hprevious := ih fun k hk => hu k (Nat.lt_succ_of_lt hk)
    have htarget := hu n (Nat.lt_succ_self n)
    rw [response_succ]
    calc _ ≤ hi * c + (1 - c) * hi := add_le_add (mul_le_mul_of_nonneg_right hprevious h₀)
          (mul_le_mul_of_nonneg_left htarget (sub_nonneg.mpr h₁))
      _ = hi := by ring

/-- **Disturbances add up**: bounded by `a` each, they move the lag by at most a geometric sum. -/
theorem abs_response_le (h₀ : 0 ≤ c) (hw : ∀ k < n, |w k| ≤ a) :
    |response c 0 w n| ≤ a * ∑ k ∈ Finset.range n, c ^ k := by
  induction n with
  | zero => simp
  | succ n ih =>
    have hprevious := ih fun k hk => hw k (Nat.lt_succ_of_lt hk)
    have hlast := hw n (Nat.lt_succ_self n)
    rw [← response_const, response_succ, response_succ, response_const]
    calc |response c 0 w n * c + w n| ≤ |response c 0 w n * c| + |w n| := abs_add_le _ _
      _ = |response c 0 w n| * c + |w n| := by rw [abs_mul, abs_of_nonneg h₀]
      _ ≤ _ := add_le_add (mul_le_mul_of_nonneg_right hprevious h₀) hlast

/-- No number of disturbances moves a stable lag further than `a / (1 - c)`. -/
theorem abs_response_le_div (h₀ : 0 ≤ c) (h₁ : c < 1) (hw : ∀ k < n, |w k| ≤ a) (ha : 0 ≤ a) :
    |response c 0 w n| ≤ a / (1 - c) := by
  have hpos : 0 < 1 - c := sub_pos.mpr h₁
  refine (abs_response_le h₀ hw).trans ?_
  rw [le_div_iff₀ hpos, mul_assoc, geom_sum_mul_neg]
  exact mul_le_of_le_one_right ha (sub_le_self 1 (pow_nonneg h₀ n))

end Ordered

end FirstOrderLag
