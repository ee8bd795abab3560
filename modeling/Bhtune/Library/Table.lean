import Mathlib.Data.List.Nodup

/-!
# Tables with a primary key

A table is the list of its rows.  A statement names the rows it is about by a predicate and
reports how many there were.  Most statements of a program are about one row, so a change of a
table is described by the row it is about.

* `updateWhere`, `deleteWhere`, `affected` — the statements and the count they report;
* `PrimaryKey` — no two rows have one key;
* `Inserted`, `Replaced`, `Removed` — what becomes of the rows when a statement is about one row;
* `updateWhere_replaced`, `deleteWhere_removed` — the statement whose count is one.
-/

namespace Table

variable {ρ κ : Type}

/-- `UPDATE … SET f WHERE p`. -/
def updateWhere (p : ρ → Bool) (f : ρ → ρ) (rows : List ρ) : List ρ :=
  rows.map fun r => if p r then f r else r

/-- `DELETE … WHERE p`. -/
def deleteWhere (p : ρ → Bool) (rows : List ρ) : List ρ := rows.filter fun r => !p r

/-- The number of rows a statement is about. -/
def affected (p : ρ → Bool) (rows : List ρ) : ℕ := rows.countP p

/-- No two rows have one key. -/
def PrimaryKey (key : ρ → κ) (rows : List ρ) : Prop := (rows.map key).Nodup

instance [DecidableEq κ] (key : ρ → κ) (rows : List ρ) : Decidable (PrimaryKey key rows) :=
  inferInstanceAs (Decidable (List.Nodup _))

section Changes

variable {key : ρ → κ} {p : ρ → Bool} {f : ρ → ρ} {rows rows' : List ρ} {r r' x : ρ}

/-- The rows after one was added. -/
def Inserted (r : ρ) (rows rows' : List ρ) : Prop := ∀ x, x ∈ rows' ↔ x = r ∨ x ∈ rows

/-- The rows after `r` became `r'`. -/
structure Replaced (key : ρ → κ) (r r' : ρ) (rows rows' : List ρ) : Prop where
  was : r ∈ rows
  same : key r' = key r
  mem : ∀ x, x ∈ rows' ↔ x = r' ∨ x ∈ rows ∧ key x ≠ key r

/-- The rows after `r` was taken away. -/
structure Removed (key : ρ → κ) (r : ρ) (rows rows' : List ρ) : Prop where
  was : r ∈ rows
  mem : ∀ x, x ∈ rows' ↔ x ∈ rows ∧ key x ≠ key r

theorem PrimaryKey.eq (h : PrimaryKey key rows) (hr : r ∈ rows) (hx : x ∈ rows)
    (hkey : key r = key x) : r = x :=
  List.inj_on_of_nodup_map h hr hx hkey

theorem inserted_append (r : ρ) (rows : List ρ) : Inserted r rows (rows ++ [r]) := by
  intro x
  rw [List.mem_append, List.mem_singleton, or_comm]

/-- The row a statement is about when there is one. -/
theorem row_of_affected (h : affected p rows = 1) :
    ∃ r ∈ rows, p r = true ∧ ∀ x ∈ rows, p x = true → x = r := by
  unfold affected at h
  rw [List.countP_eq_length_filter] at h
  obtain ⟨r, hr⟩ := List.length_eq_one_iff.mp h
  have hmem : ∀ x, x ∈ rows ∧ p x = true ↔ x = r := by
    intro x
    rw [← List.mem_filter, hr, List.mem_singleton]
  exact ⟨r, ((hmem r).mpr rfl).1, ((hmem r).mpr rfl).2, fun x hx hp => (hmem x).mp ⟨hx, hp⟩⟩

theorem mem_updateWhere :
    x ∈ updateWhere p f rows ↔ ∃ r ∈ rows, (if p r then f r else r) = x := by
  unfold updateWhere
  exact List.mem_map

theorem mem_deleteWhere : x ∈ deleteWhere p rows ↔ x ∈ rows ∧ p x = false := by
  unfold deleteWhere
  rw [List.mem_filter, Bool.not_eq_true']

/-- A statement about no row changes nothing. -/
theorem updateWhere_of_none (h : ∀ x ∈ rows, p x = false) : updateWhere p f rows = rows := by
  unfold updateWhere
  conv_rhs => rw [← List.map_id rows]
  apply List.map_congr_left
  intro x hx
  rw [h x hx]
  rfl

theorem affected_le_one (hkey : PrimaryKey key rows)
    (hp : ∀ x y, p x = true → p y = true → key x = key y) : affected p rows ≤ 1 := by
  unfold affected
  induction rows with
  | nil => simp
  | cons r rows ih =>
    have hkey' : key r ∉ rows.map key ∧ (rows.map key).Nodup := List.nodup_cons.mp hkey
    by_cases hr : p r = true
    · have hnone : rows.countP p = 0 := by
        apply List.countP_eq_zero.mpr
        intro x hx hpx
        apply hkey'.1
        rw [hp r x hr hpx]
        exact List.mem_map_of_mem hx
      have hone : (r :: rows).countP p = 1 := by
        rw [List.countP_cons, hnone, if_pos hr]
      exact Nat.le_of_eq hone
    · rw [List.countP_cons, if_neg hr]
      exact ih hkey'.2

/-- A query that one row answers. -/
theorem filter_eq_singleton (hkey : PrimaryKey key rows) (hr : r ∈ rows) (hp : p r = true)
    (hone : ∀ x ∈ rows, p x = true → x = r) : rows.filter p = [r] := by
  have hmem : ∀ x, x ∈ rows.filter p ↔ x = r := by
    intro x
    rw [List.mem_filter]
    exact ⟨fun hx => hone x hx.1 hx.2, fun hx => hx ▸ ⟨hr, hp⟩⟩
  have hnodup : (rows.filter p).Nodup := (List.Nodup.of_map key hkey).filter p
  cases hrows : rows.filter p with
  | nil =>
    rw [hrows] at hmem
    exact absurd ((hmem r).mpr rfl) List.not_mem_nil
  | cons a rest =>
    rw [hrows] at hmem hnodup
    obtain rfl := (hmem a).mp List.mem_cons_self
    cases rest with
    | nil => rfl
    | cons b rest =>
      obtain rfl := (hmem b).mp (by simp)
      simp at hnodup

/-- A query by key. -/
theorem find?_eq_some_of_key [DecidableEq κ] (hkey : PrimaryKey key rows) (hr : r ∈ rows) :
    rows.find? (fun x => key x = key r) = some r := by
  cases hfind : rows.find? fun x => key x = key r with
  | none =>
    have hnone := List.find?_eq_none.mp hfind r hr
    simp at hnone
  | some x =>
    have hx : key x = key r := by simpa using List.find?_some hfind
    rw [hkey.eq (List.mem_of_find?_eq_some hfind) hr hx]

/-- **An update of one row replaces it.** -/
theorem updateWhere_replaced (hkey : PrimaryKey key rows) (h : affected p rows = 1)
    (hf : ∀ r, key (f r) = key r) :
    ∃ r, p r = true ∧ Replaced key r (f r) rows (updateWhere p f rows) := by
  obtain ⟨r, hr, hp, hone⟩ := row_of_affected h
  refine ⟨r, hp, hr, hf r, ?_⟩
  intro x
  rw [mem_updateWhere]
  constructor
  · rintro ⟨y, hy, rfl⟩
    by_cases hpy : p y = true
    · rw [if_pos hpy, hone y hy hpy]
      exact .inl rfl
    · rw [if_neg hpy]
      exact .inr ⟨hy, fun heq => hpy (by rw [hkey.eq hy hr heq]; exact hp)⟩
  · rintro (rfl | ⟨hx, hne⟩)
    · exact ⟨r, hr, if_pos hp⟩
    · exact ⟨x, hx, if_neg fun hpx => hne (congrArg key (hone x hx hpx))⟩

/-- An update by key, where the statement also returns the row. -/
theorem updateWhere_find (hkey : PrimaryKey key rows)
    (hp : ∀ x y, p x = true → p y = true → key x = key y) (hf : ∀ r, key (f r) = key r) :
    match rows.find? p with
    | none => updateWhere p f rows = rows
    | some r => p r = true ∧ Replaced key r (f r) rows (updateWhere p f rows) := by
  cases hfind : rows.find? p with
  | none =>
    apply updateWhere_of_none
    intro x hx
    exact Bool.eq_false_iff.mpr (List.find?_eq_none.mp hfind x hx)
  | some r =>
    have hr : r ∈ rows := List.mem_of_find?_eq_some hfind
    have hpr : p r = true := List.find?_some hfind
    have hle := affected_le_one hkey hp
    have hpos : 0 < affected p rows := List.countP_pos_iff.mpr ⟨r, hr, hpr⟩
    have hone : affected p rows = 1 := by omega
    obtain ⟨x, hpx, hx⟩ := updateWhere_replaced hkey hone hf
    have hxr : x = r := hkey.eq hx.was hr (hp x r hpx hpr)
    rw [hxr] at hx
    exact ⟨hpr, hx⟩

/-- **A deletion of one row removes it.** -/
theorem deleteWhere_removed (hkey : PrimaryKey key rows) (h : affected p rows = 1) :
    ∃ r, p r = true ∧ Removed key r rows (deleteWhere p rows) := by
  obtain ⟨r, hr, hp, hone⟩ := row_of_affected h
  refine ⟨r, hp, hr, ?_⟩
  intro x
  rw [mem_deleteWhere]
  constructor
  · rintro ⟨hx, hpx⟩
    refine ⟨hx, fun heq => ?_⟩
    rw [hkey.eq hx hr heq, hp] at hpx
    cases hpx
  · rintro ⟨hx, hne⟩
    refine ⟨hx, ?_⟩
    cases hpx : p x with
    | false => rfl
    | true => exact absurd (congrArg key (hone x hx hpx)) hne

theorem Replaced.mem_new (h : Replaced key r r' rows rows') : r' ∈ rows' := (h.mem r').mpr (.inl rfl)

theorem Replaced.mem_other (h : Replaced key r r' rows rows') (hx : x ∈ rows)
    (hne : key x ≠ key r) : x ∈ rows' := (h.mem x).mpr (.inr ⟨hx, hne⟩)

theorem Inserted.mem_new (h : Inserted r rows rows') : r ∈ rows' := (h r).mpr (.inl rfl)

theorem Inserted.mem_old (h : Inserted r rows rows') (hx : x ∈ rows) : x ∈ rows' :=
  (h x).mpr (.inr hx)

theorem Removed.mem_other (h : Removed key r rows rows') (hx : x ∈ rows) (hne : key x ≠ key r) :
    x ∈ rows' := (h.mem x).mpr ⟨hx, hne⟩

/-- Two replacements of one row are one. -/
theorem Replaced.trans {rows'' : List ρ} {r'' : ρ} (h : Replaced key r r' rows rows')
    (h' : Replaced key r' r'' rows' rows'') : Replaced key r r'' rows rows'' where
  was := h.was
  same := h'.same.trans h.same
  mem := by
    intro x
    rw [h'.mem, h.mem, h.same]
    constructor
    · rintro (hx | ⟨rfl | hx, hne⟩)
      · exact .inl hx
      · exact absurd h.same hne
      · exact .inr hx
    · rintro (hx | ⟨hx, hne⟩)
      · exact .inl hx
      · exact .inr ⟨.inr ⟨hx, hne⟩, hne⟩

/-- Replacements of two rows, in the order they were made. -/
theorem Replaced.both {rows'' : List ρ} {s s' : ρ} (h : Replaced key r r' rows rows')
    (h' : Replaced key s s' rows' rows'') (hne : s ≠ r') :
    s ∈ rows ∧ key s ≠ key r ∧
      ∀ x, x ∈ rows'' ↔ x = r' ∨ x = s' ∨ x ∈ rows ∧ key x ≠ key r ∧ key x ≠ key s := by
  obtain rfl | ⟨hs, hkey⟩ := (h.mem s).mp h'.was
  · exact absurd rfl hne
  · refine ⟨hs, hkey, ?_⟩
    intro x
    rw [h'.mem, h.mem]
    constructor
    · rintro (hx | ⟨hx | ⟨hx, hxr⟩, hxs⟩)
      · exact .inr (.inl hx)
      · exact .inl hx
      · exact .inr (.inr ⟨hx, hxr, hxs⟩)
    · rintro (rfl | hx | ⟨hx, hxr, hxs⟩)
      · exact .inr ⟨.inl rfl, fun heq => hkey (heq.symm.trans h.same)⟩
      · exact .inl hx
      · exact .inr ⟨.inr ⟨hx, hxr⟩, hxs⟩

/-- A row taken away and put back under its key is replaced. -/
theorem Removed.insert {rows'' : List ρ} (h : Removed key r rows rows')
    (h' : Inserted r' rows' rows'') (hkey : key r' = key r) : Replaced key r r' rows rows'' where
  was := h.was
  same := hkey
  mem := by
    intro x
    rw [h' x, h.mem]

end Changes

end Table
