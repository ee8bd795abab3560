import Mathlib.Data.List.Sort

/-!
# The rows of an order

`ORDER BY … LIMIT -1 OFFSET n` takes the rows after the first `n` of an order.  So does a rank in a
window: a row is past the first `n` when at least `n` rows come before it.

* `mem_drop_of_pairwise` — of a list in strict order;
* `mem_drop_insertionSort` — of a list that is sorted first;
* `lastOf_insertionSort_append` — the last row of a kind, when one more row is recorded.
-/

namespace RankedRows

variable {ρ : Type*} {lt : ρ → ρ → Prop} [DecidableRel lt] {rows : List ρ} {x : ρ} {n : ℕ}

theorem countP_cons_of_lt {a : ρ} (h : lt a x) :
    (a :: rows).countP (lt · x) = rows.countP (lt · x) + 1 := by
  rw [List.countP_cons, if_pos (decide_eq_true h)]

/-- Nothing comes before the first row. -/
theorem countP_head (hasymm : ∀ a b, lt a b → ¬lt b a) {a : ρ} (h : ∀ b ∈ rows, lt a b) :
    (a :: rows).countP (lt · a) = 0 := by
  rw [List.countP_eq_zero]
  intro b hb hlt
  rcases List.mem_cons.mp hb with rfl | hb
  · exact hasymm b b (of_decide_eq_true hlt) (of_decide_eq_true hlt)
  · exact hasymm a b (h b hb) (of_decide_eq_true hlt)

/-- **The rank of a row in a list in strict order.** -/
theorem mem_drop_of_pairwise (hasymm : ∀ a b, lt a b → ¬lt b a) (h : rows.Pairwise lt)
    (hx : x ∈ rows) : x ∈ rows.drop n ↔ n ≤ rows.countP (lt · x) := by
  induction rows generalizing n with
  | nil => exact absurd hx List.not_mem_nil
  | cons a rows ih =>
    obtain ⟨hfirst, hrest⟩ := List.pairwise_cons.mp h
    cases n with
    | zero => exact iff_of_true hx (Nat.zero_le _)
    | succ n =>
      rw [List.drop_succ_cons]
      rcases List.mem_cons.mp hx with rfl | hmem
      · rw [countP_head hasymm hfirst]
        refine iff_of_false ?_ (Nat.not_succ_le_zero n)
        intro hdrop
        have hself := hfirst x (List.mem_of_mem_drop hdrop)
        exact hasymm x x hself hself
      · rw [ih hrest hmem, countP_cons_of_lt (hfirst x hmem), Nat.succ_le_succ_iff]

/-- Sorting puts rows that are told apart in strict order. -/
theorem pairwise_insertionSort_lt (hasymm : ∀ a b, lt a b → ¬lt b a)
    (htrans : ∀ a b c, ¬lt b a → ¬lt c b → ¬lt c a) (hnodup : rows.Nodup)
    (htold : ∀ a ∈ rows, ∀ b ∈ rows, a ≠ b → lt a b ∨ lt b a) :
    (rows.insertionSort fun a b => ¬lt b a).Pairwise lt := by
  have : Std.Total fun a b : ρ => ¬lt b a :=
    ⟨fun a b => by
      by_cases hab : lt a b
      · exact .inl (hasymm a b hab)
      · exact .inr hab⟩
  have : IsTrans ρ fun a b => ¬lt b a := ⟨htrans⟩
  have hsorted := List.pairwise_insertionSort (fun a b : ρ => ¬lt b a) rows
  have hne : (rows.insertionSort fun a b => ¬lt b a).Nodup :=
    (List.perm_insertionSort _ rows).nodup_iff.mpr hnodup
  refine ((List.pairwise_iff_forall_sublist.mpr ?_))
  intro a b hab
  have hle := List.pairwise_iff_forall_sublist.mp hsorted hab
  have hdiff := List.pairwise_iff_forall_sublist.mp hne hab
  have ha : a ∈ rows := (List.mem_insertionSort _).mp (hab.subset List.mem_cons_self)
  have hb : b ∈ rows :=
    (List.mem_insertionSort _).mp (hab.subset (List.mem_cons_of_mem _ List.mem_cons_self))
  exact (htold a ha b hb hdiff).resolve_right hle

/-- **The rows past the first `n`**, in the order of the list and by their rank. -/
theorem mem_drop_insertionSort (hasymm : ∀ a b, lt a b → ¬lt b a)
    (htrans : ∀ a b c, ¬lt b a → ¬lt c b → ¬lt c a) (hnodup : rows.Nodup)
    (htold : ∀ a ∈ rows, ∀ b ∈ rows, a ≠ b → lt a b ∨ lt b a) :
    x ∈ (rows.insertionSort fun a b => ¬lt b a).drop n ↔
      x ∈ rows ∧ n ≤ rows.countP (lt · x) := by
  have hsorted := pairwise_insertionSort_lt hasymm htrans hnodup htold
  have hperm := List.perm_insertionSort (fun a b => ¬lt b a) rows
  rw [← hperm.countP_eq]
  constructor
  · intro hx
    have hmem := List.mem_of_mem_drop hx
    exact ⟨(List.mem_insertionSort _).mp hmem, (mem_drop_of_pairwise hasymm hsorted hmem).mp hx⟩
  · rintro ⟨hx, hn⟩
    exact (mem_drop_of_pairwise hasymm hsorted ((List.mem_insertionSort _).mpr hx)).mpr hn

/-! ### The last row of a kind -/

section Last

variable {ι : Type*} [LinearOrder ι] (kind : ρ → Bool) (key : ρ → ι)

/-- The last row of that kind. -/
def lastOf (rows : List ρ) : Option ρ := rows.reverse.find? kind

/-- A row that comes first goes before the last one, unless it has to come after it. -/
def laterOf (x : ρ) : Option ρ → Option ρ
  | none => if kind x then some x else none
  | some last => if kind x ∧ key last < key x then some x else some last

variable {kind key} {rows : List ρ} {x : ρ}

theorem laterOf_some {last : ρ} : laterOf kind key x (some last) =
    if kind x = true ∧ key last < key x then some x else some last := rfl

theorem lastOf_cons : lastOf kind (x :: rows) =
    (lastOf kind rows).or (if kind x then some x else none) := by
  unfold lastOf
  rw [List.reverse_cons, List.find?_append, List.find?_singleton]

theorem lastOf_mem {last : ρ} (h : lastOf kind rows = some last) :
    last ∈ rows ∧ kind last = true :=
  ⟨List.mem_reverse.mp (List.mem_of_find?_eq_some h), List.find?_some h⟩

/-- **The last row after an insertion**, by induction on the sorted rows. -/
theorem lastOf_orderedInsert (hsorted : rows.Pairwise fun a b => key a ≤ key b) (x : ρ) :
    lastOf kind (rows.orderedInsert (fun a b => key a ≤ key b) x) =
      laterOf kind key x (lastOf kind rows) := by
  induction rows with
  | nil =>
    rw [List.orderedInsert_nil, lastOf_cons]
    rfl
  | cons b rows ih =>
    obtain ⟨hfirst, hrest⟩ := List.pairwise_cons.mp hsorted
    rw [List.orderedInsert_cons]
    by_cases hle : key x ≤ key b
    · rw [if_pos hle, lastOf_cons]
      cases hlast : lastOf kind (b :: rows) with
      | none => rfl
      | some last =>
        -- whatever comes last comes after `b`
        have hx : ¬key last < key x := by
          rw [not_lt]
          rcases List.mem_cons.mp (lastOf_mem hlast).1 with rfl | hmem
          · exact hle
          · exact hle.trans (hfirst last hmem)
        have hnot : ¬(kind x = true ∧ key last < key x) := fun h => hx h.2
        rw [laterOf_some, if_neg hnot, Option.some_or]
    · rw [if_neg hle, lastOf_cons, ih hrest, lastOf_cons]
      cases lastOf kind rows with
      | some last =>
        rw [Option.some_or, laterOf_some]
        split
        · rfl
        · rfl
      | none =>
        unfold laterOf
        cases kind b <;> cases kind x <;> simp [not_le.mp hle]

variable (kind key) in
/-- The last row of the sorted rows, without sorting them. -/
theorem lastOf_insertionSort (rows : List ρ) :
    lastOf kind (rows.insertionSort fun a b => key a ≤ key b) =
      rows.foldr (laterOf kind key) none := by
  have : Std.Total fun a b : ρ => key a ≤ key b := ⟨fun a b => le_total _ _⟩
  have : IsTrans ρ fun a b => key a ≤ key b := ⟨fun _ _ _ => le_trans⟩
  induction rows with
  | nil => rfl
  | cons a rows ih =>
    rw [List.insertionSort_cons, lastOf_orderedInsert (List.pairwise_insertionSort _ rows), ih]
    rfl

/-- A row that is recorded after all others is the last one, unless an earlier one has to come
after it. -/
theorem foldr_laterOf : rows.foldr (laterOf kind key) (some x) =
    if ∀ last ∈ rows.foldr (laterOf kind key) none, key last ≤ key x then some x
    else rows.foldr (laterOf kind key) none := by
  induction rows with
  | nil => simp
  | cons a rows ih =>
    rw [List.foldr_cons, List.foldr_cons, ih]
    cases hlast : rows.foldr (laterOf kind key) none with
    | none =>
      by_cases ha : kind a = true
      · by_cases hlt : key x < key a <;> simp [laterOf, ha, hlt, not_le, not_lt.mp]
      · simp [laterOf, ha]
    | some last =>
      by_cases ha : kind a = true
      · by_cases hlt : key last < key a
        · by_cases hxa : key x < key a
          · have hnot : ¬key a ≤ key x := not_le.mpr hxa
            by_cases hle : key last ≤ key x <;> simp [laterOf, ha, hlt, hxa, hnot, hle]
          · have hle : key last ≤ key x := (hlt.trans_le (not_lt.mp hxa)).le
            simp [laterOf, ha, hlt, hxa, hle, not_lt.mp hxa]
        · by_cases hle : key last ≤ key x
          · have hxa : ¬key x < key a := not_lt.mpr ((not_lt.mp hlt).trans hle)
            simp [laterOf, ha, hlt, hle, hxa]
          · simp [laterOf, ha, hlt, hle]
      · by_cases hle : key last ≤ key x <;> simp [laterOf, ha, hle]

/-- **The last row of a kind, when one more row is recorded**: the new one, if it is of that kind
and no later row is there, and otherwise the one it was. -/
theorem lastOf_insertionSort_append (rows : List ρ) (x : ρ) :
    lastOf kind ((rows ++ [x]).insertionSort fun a b => key a ≤ key b) =
      if kind x = true ∧ ∀ last ∈ lastOf kind (rows.insertionSort fun a b => key a ≤ key b),
        key last ≤ key x then some x
      else lastOf kind (rows.insertionSort fun a b => key a ≤ key b) := by
  rw [lastOf_insertionSort, lastOf_insertionSort, List.foldr_append]
  by_cases hx : kind x = true
  · rw [show [x].foldr (laterOf kind key) none = some x from if_pos hx, foldr_laterOf]
    simp only [hx, true_and]
  · rw [show [x].foldr (laterOf kind key) none = none from if_neg hx, if_neg fun h => hx h.1]

end Last

end RankedRows
