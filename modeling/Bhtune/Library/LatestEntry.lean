import Mathlib.Data.List.Induction
import Mathlib.Data.List.Sort

/-!
# The latest entry of a stably sorted list

A list of entries is sorted by a key, equal keys in the order of the list, and the last entry of a
kind is taken.

* `lastWhere` — the last entry of a kind;
* `Latest` — the entry whose key no earlier one exceeds and no later one reaches;
* `lastWhere_insertionSort` — of the sorted list, the last entry of the kind is the latest one;
* `maxByKey` — the last entry with the largest key.
-/

namespace Bhtune

variable {α κ : Type*}

/-- The last entry of a kind. -/
def lastWhere (p : α → Bool) (l : List α) : Option α := l.reverse.find? p

@[simp] theorem lastWhere_nil (p : α → Bool) : lastWhere p [] = none := rfl

theorem lastWhere_cons (p : α → Bool) (x : α) (l : List α) :
    lastWhere p (x :: l) = (lastWhere p l).or (if p x then some x else none) := by
  show (x :: l).reverse.find? p = (l.reverse.find? p).or _
  rw [List.reverse_cons, List.find?_append]
  congr 1
  cases h : p x <;> simp [h]

@[simp] theorem lastWhere_eq_none {p : α → Bool} {l : List α} :
    lastWhere p l = none ↔ ∀ x ∈ l, ¬p x := by
  show l.reverse.find? p = none ↔ _
  simp

section Sorted

variable [LinearOrder κ] (key : α → κ) (p : α → Bool)

/-- The latest entry of a kind: no entry of the kind before it has a larger key, and every one
behind it has a smaller one. -/
structure Latest (before : List α) (x : α) (after : List α) : Prop where
  kind : p x
  earlier : ∀ y ∈ before, p y → key y ≤ key x
  later : ∀ y ∈ after, p y → key y < key x

variable {key p}

/-- An entry with no larger key does not come behind the last one. -/
theorem lastWhere_orderedInsert_of_le {a x : α} {l : List α} (h : lastWhere p l = some x)
    (hle : p a → key a ≤ key x) :
    lastWhere p (l.orderedInsert (fun a b => key a ≤ key b) a) = some x := by
  induction l with
  | nil => simp at h
  | cons b l ih =>
    by_cases hab : key a ≤ key b
    · rw [List.orderedInsert_cons, if_pos hab, lastWhere_cons, h]
      rfl
    · rw [List.orderedInsert_cons, if_neg hab, lastWhere_cons]
      rw [lastWhere_cons] at h
      cases hl : lastWhere p l with
      | some y =>
        rw [hl] at h
        rw [ih (hl.trans h)]
        rfl
      | none =>
        rw [hl, Option.none_or] at h
        by_cases hb : p b
        · rw [if_pos hb] at h
          obtain rfl := Option.some.inj h
          have hnone : lastWhere p (l.orderedInsert (fun a b => key a ≤ key b) a) = none := by
            rw [lastWhere_eq_none] at hl ⊢
            intro y hy
            rcases (List.mem_orderedInsert _).mp hy with rfl | hy
            · exact fun hp => hab (hle hp)
            · exact hl y hy
          rw [hnone, if_pos hb]
          rfl
        · rw [if_neg hb] at h
          cases h

/-- An entry whose key exceeds all of its kind comes last. -/
theorem lastWhere_orderedInsert_of_lt {a : α} {l : List α} (ha : p a)
    (hsorted : l.Pairwise fun a b => key a ≤ key b) (hlt : ∀ y ∈ l, p y → key y < key a) :
    lastWhere p (l.orderedInsert (fun a b => key a ≤ key b) a) = some a := by
  induction l with
  | nil => simp [lastWhere_cons, ha]
  | cons b l ih =>
    obtain ⟨hb, hsorted⟩ := List.pairwise_cons.mp hsorted
    by_cases hab : key a ≤ key b
    · have hnone : lastWhere p (b :: l) = none := by
        refine lastWhere_eq_none.mpr fun y hy hp => ?_
        have hby : key b ≤ key y := by
          rcases List.mem_cons.mp hy with rfl | hy
          · exact le_rfl
          · exact hb y hy
        exact absurd (hlt y hy hp) (not_lt.mpr (hab.trans hby))
      rw [List.orderedInsert_cons, if_pos hab, lastWhere_cons, hnone, if_pos ha]
      rfl
    · rw [List.orderedInsert_cons, if_neg hab, lastWhere_cons,
        ih hsorted fun y hy => hlt y (List.mem_cons_of_mem _ hy)]
      rfl

/-- **Of the sorted list, the last entry of a kind is the latest one.** -/
theorem lastWhere_insertionSort {before after : List α} {x : α} (h : Latest key p before x after) :
    lastWhere p ((before ++ x :: after).insertionSort fun a b => key a ≤ key b) = some x := by
  induction before with
  | nil =>
    rw [List.nil_append, List.insertionSort_cons]
    refine lastWhere_orderedInsert_of_lt h.kind ?_ ?_
    · have : IsTrans α fun a b => key a ≤ key b := ⟨fun _ _ _ => le_trans⟩
      have : Std.Total fun a b : α => key a ≤ key b := ⟨fun a b => le_total (key a) (key b)⟩
      exact List.pairwise_insertionSort _ _
    · exact fun y hy => h.later y ((List.mem_insertionSort _).mp hy)
  | cons a before ih =>
    rw [List.cons_append, List.insertionSort_cons]
    refine lastWhere_orderedInsert_of_le (ih ⟨h.kind, ?_, h.later⟩) ?_
    · exact fun y hy => h.earlier y (List.mem_cons_of_mem _ hy)
    · exact h.earlier a List.mem_cons_self

/-- Where there is an entry of the kind, one is the latest. -/
theorem exists_latest {l : List α} (h : ∃ x ∈ l, p x) :
    ∃ before x after, l = before ++ x :: after ∧ Latest key p before x after := by
  induction l with
  | nil => simp at h
  | cons a l ih =>
    by_cases hl : ∃ x ∈ l, p x
    · obtain ⟨before, x, after, rfl, hlatest⟩ := ih hl
      by_cases ha : p a → key a ≤ key x
      · exact ⟨a :: before, x, after, rfl, hlatest.kind,
          List.forall_mem_cons.mpr ⟨ha, hlatest.earlier⟩, hlatest.later⟩
      · obtain ⟨hp, hlt⟩ := Classical.not_imp.mp ha
        have hlt := not_le.mp hlt
        refine ⟨[], a, before ++ x :: after, rfl, hp, List.forall_mem_nil _, fun y hy hpy => ?_⟩
        rcases List.mem_append.mp hy with hy | hy
        · exact (hlatest.earlier y hy hpy).trans_lt hlt
        · rcases List.mem_cons.mp hy with rfl | hy
          · exact hlt
          · exact (hlatest.later y hy hpy).trans hlt
    · obtain ⟨x, hx, hp⟩ := h
      rcases List.mem_cons.mp hx with rfl | hx
      · exact ⟨[], x, l, rfl, hp, List.forall_mem_nil _,
          fun y hy hpy => absurd ⟨y, hy, hpy⟩ hl⟩
      · exact absurd ⟨x, hx, hp⟩ hl

end Sorted

/-! ### The entry with the largest key -/

section Largest

variable [LinearOrder κ] (key : α → κ)

/-- The last entry with the largest key. -/
def maxByKey (l : List α) : Option α :=
  l.foldl (fun best x =>
    match best with
    | none => some x
    | some y => if key y ≤ key x then some x else some y) none

end Largest

end Bhtune
