import Mathlib.Algebra.Order.Group.Defs
import Mathlib.Algebra.Order.Group.Unbundled.Basic
import Mathlib.Data.List.Basic

/-!
# Sliding windows over a log of times

A quota that admits at most `limit` of something within any time `w`, over times that are only
ever added at the end.

* `Within` — no window of length `w` holds more than `limit` of the times;
* `Within.concat` — a time may be added where fewer than `limit` are younger than `w`;
* `dropWhile_eq_filter` — what expires in a sorted log expires from its front.
-/

namespace SlidingWindow

variable {τ α : Type*} [AddCommGroup τ] [LinearOrder τ] [IsOrderedAddMonoid τ]

/-- No window `[t, t + w)` holds more than `limit` of the times. -/
def Within (limit : ℕ) (w : τ) (times : List τ) : Prop :=
  ∀ t, times.countP (fun a => decide (t ≤ a) && decide (a < t + w)) ≤ limit

variable {limit : ℕ} {w now : τ} {times rest : List τ}

omit [IsOrderedAddMonoid τ] in
theorem Within.nil : Within limit w [] := fun _ => Nat.zero_le limit

omit [IsOrderedAddMonoid τ] in
theorem Within.sublist (h : Within limit w times) (hsub : rest.Sublist times) :
    Within limit w rest :=
  fun t => (hsub.countP_le).trans (h t)

/-- **The quota step.** -/
theorem Within.concat (h : Within limit w times)
    (hyoung : times.countP (fun a => decide (now - w < a)) < limit) :
    Within limit w (times ++ [now]) := by
  intro t
  rw [List.countP_append, List.countP_singleton]
  by_cases hin : t ≤ now ∧ now < t + w
  · -- What shares a window with `now` is younger than `w`.
    have hmono : times.countP (fun a => decide (t ≤ a) && decide (a < t + w)) ≤
        times.countP (fun a => decide (now - w < a)) := by
      apply List.countP_mono_left
      intro a _ ha
      simp only [Bool.and_eq_true, decide_eq_true_eq] at ha ⊢
      exact (sub_lt_iff_lt_add.mpr hin.2).trans_le ha.1
    rw [if_pos (by simpa using hin)]
    omega
  · rw [if_neg (by simpa using hin)]
    simpa using h t

omit [AddCommGroup τ] [IsOrderedAddMonoid τ] in
/-- In a sorted log the entries up to `c` are the first ones. -/
theorem dropWhile_eq_filter {f : α → τ} {l : List α} (h : l.Pairwise fun x y => f x ≤ f y) (c : τ) :
    l.dropWhile (fun x => decide (f x ≤ c)) = l.filter fun x => decide (c < f x) := by
  induction l with
  | nil => rfl
  | cons x rest ih =>
    obtain ⟨hx, hrest⟩ := List.pairwise_cons.mp h
    by_cases hc : f x ≤ c
    · rw [List.dropWhile_cons_of_pos (by simpa using hc),
        List.filter_cons_of_neg (by simpa using hc)]
      exact ih hrest
    · have hall : ∀ y ∈ x :: rest, decide (c < f y) = true := by
        intro y hy
        rcases List.mem_cons.mp hy with rfl | hy
        · simpa using hc
        · simpa using (not_le.mp hc).trans_le (hx y hy)
      rw [List.dropWhile_cons_of_neg (by simpa using hc), List.filter_eq_self.mpr hall]

end SlidingWindow
