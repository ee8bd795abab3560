import Mathlib.Data.Nat.Count
import Mathlib.Data.List.Range
import Mathlib.Order.Interval.Set.Basic
import Mathlib.Data.List.Forall2
import Mathlib.Data.List.Chain
import Mathlib.Tactic.Linarith

/-!
# Marked positions of a stream, and the window since the last mark

A mark is something that happens at some positions `0, 1, 2, …` of a stream.  A program that
resets a tracker at every mark keeps, between two marks, a value of the window that the last mark
opened.

* `afterMark` / `fromMark` — the positions before `n` since the last mark, without and with it;
* `marked` — the marked positions before `n`, in order;
* `isChain_marked` — what holds between neighbouring marks makes their list a chain.
-/

namespace Marks

variable (mark : ℕ → Bool)

/-- No position from `k` on, but before `n`, is marked. -/
def Quiet (k n : ℕ) : Prop := ∀ j, k ≤ j → j < n → mark j = false

/-- The positions before `n` that come after the last mark. -/
def afterMark (n : ℕ) : Set ℕ := {k | k < n ∧ Quiet mark k n}

/-- The positions before `n` from the last mark on. -/
def fromMark (n : ℕ) : Set ℕ := {k | k < n ∧ Quiet mark (k + 1) n}

/-- The marked positions before `n`, in order. -/
def marked (n : ℕ) : List ℕ := (List.range n).filter mark

variable {mark} {k n : ℕ}

theorem quiet_of_le (h : n ≤ k) : Quiet mark k n := by
  intro j hkj hjn
  omega

theorem quiet_succ (h : k ≤ n) : Quiet mark k (n + 1) ↔ Quiet mark k n ∧ mark n = false := by
  constructor
  · intro hquiet
    exact ⟨fun j hkj hjn => hquiet j hkj (by omega), hquiet n h (by omega)⟩
  · intro hquiet j hkj hjn
    by_cases hj : j = n
    · rw [hj]
      exact hquiet.2
    · exact hquiet.1 j hkj (by omega)

/-! ### How a window moves -/

theorem afterMark_zero : afterMark mark 0 = ∅ := by
  ext k
  simp [afterMark]

theorem afterMark_succ_of_mark (h : mark n = true) : afterMark mark (n + 1) = ∅ := by
  ext k
  simp only [afterMark, Set.mem_ofPred_eq, Set.mem_empty_iff_false, iff_false, not_and]
  intro hk hquiet
  have hn := hquiet n (by omega) (by omega)
  simp [h] at hn

theorem afterMark_succ (h : mark n = false) :
    afterMark mark (n + 1) = insert n (afterMark mark n) := by
  ext k
  simp only [afterMark, Set.mem_ofPred_eq, Set.mem_insert_iff]
  by_cases hk : k ≤ n
  · rw [quiet_succ hk]
    by_cases heq : k = n
    · simp [heq, h, quiet_of_le]
    · simp [heq, h]
      omega
  · have hne : k ≠ n := by omega
    simp only [hne, false_or]
    omega

theorem fromMark_zero : fromMark mark 0 = ∅ := by
  ext k
  simp [fromMark]

theorem fromMark_succ_of_mark (h : mark n = true) : fromMark mark (n + 1) = {n} := by
  ext k
  simp only [fromMark, Set.mem_ofPred_eq, Set.mem_singleton_iff]
  constructor
  · intro hk
    by_contra hne
    have hn := hk.2 n (by omega) (by omega)
    simp [h] at hn
  · intro hk
    rw [hk]
    exact ⟨by omega, quiet_of_le (by omega)⟩

theorem fromMark_succ (h : mark n = false) :
    fromMark mark (n + 1) = insert n (fromMark mark n) := by
  ext k
  simp only [fromMark, Set.mem_ofPred_eq, Set.mem_insert_iff]
  by_cases hk : k = n
  · simp [hk, quiet_of_le]
  · by_cases hlt : k < n
    · rw [quiet_succ (by omega)]
      simp [hk, hlt, h]
      omega
    · simp only [hk, false_or]
      omega

/-! ### The list of marked positions -/

@[simp] theorem marked_zero : marked mark 0 = [] := rfl

theorem marked_succ_of_mark (h : mark n = true) : marked mark (n + 1) = marked mark n ++ [n] := by
  rw [marked, marked, List.range_succ, List.filter_append, List.filter_singleton, h, cond_true]

theorem marked_succ (h : mark n = false) : marked mark (n + 1) = marked mark n := by
  rw [marked, marked, List.range_succ, List.filter_append, List.filter_singleton, h, cond_false,
    List.append_nil]

/-- The last marked position has no mark after it. -/
theorem quiet_of_mem_getLast? (h : k ∈ (marked mark n).getLast?) :
    k < n ∧ mark k = true ∧ Quiet mark (k + 1) n := by
  induction n with
  | zero => simp at h
  | succ n ih =>
    by_cases hn : mark n = true
    · rw [marked_succ_of_mark hn, List.getLast?_concat, Option.mem_some_iff] at h
      rw [← h]
      exact ⟨by omega, hn, quiet_of_le (by omega)⟩
    · have hn' : mark n = false := by simpa using hn
      rw [marked_succ hn'] at h
      obtain ⟨hlt, hk, hquiet⟩ := ih h
      exact ⟨by omega, hk, (quiet_succ (by omega)).mpr ⟨hquiet, hn'⟩⟩

/-! ### Gaps between neighbours -/

/-- What holds between neighbouring marks makes the list of marks a chain. -/
theorem isChain_marked {R : ℕ → ℕ → Prop}
    (hgap : ∀ i j, i < j → mark i = true → mark j = true → Quiet mark (i + 1) j → R i j) (n : ℕ) :
    (marked mark n).IsChain R := by
  induction n with
  | zero => simp
  | succ n ih =>
    by_cases hn : mark n = true
    · rw [marked_succ_of_mark hn, List.isChain_append]
      refine ⟨ih, by simp, ?_⟩
      intro i hi j hj
      obtain ⟨hlt, hmark, hquiet⟩ := quiet_of_mem_getLast? hi
      rw [List.head?_singleton, Option.mem_some_iff] at hj
      rw [← hj]
      exact hgap i n hlt hmark hn hquiet
    · rw [marked_succ (by simpa using hn)]
      exact ih

/-- Times whose neighbours are `gap` apart: the last is as many gaps after the first as there are
steps between them. -/
theorem headD_add_mul_le_getLastD {times : List ℤ} {gap : ℤ}
    (h : times.IsChain fun s t => s + gap ≤ t) (hne : times ≠ []) :
    times.headD 0 + (times.length - 1) * gap ≤ times.getLastD 0 := by
  induction times with
  | nil => exact absurd rfl hne
  | cons first rest ih =>
    cases rest with
    | nil => simp
    | cons second rest =>
      obtain ⟨hstep, hrest⟩ := List.isChain_cons_cons.mp h
      have hlast := ih hrest (List.cons_ne_nil _ _)
      simp only [List.headD_cons, List.length_cons, List.getLastD_cons] at hlast ⊢
      push_cast at hlast ⊢
      linarith

end Marks
