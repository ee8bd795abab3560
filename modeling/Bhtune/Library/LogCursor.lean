import Mathlib.Data.List.Basic
import Mathlib.Order.Lattice

/-!
# Reading a log by a cursor

The keys of a log's entries increase.  A reader keeps the key of the last entry it was given, asks
for the entries after it, and moves on to the last of these; meanwhile the log grows.

* `Increasing` — the keys increase;
* `upTo`, `beyond` — the entries up to a cursor, and those after it;
* `advance` — the cursor after some entries were read;
* `upTo_advance` — a reader that reads what is after its cursor has read the whole log.
-/

namespace LogCursor

variable {α K : Type*}

/-- The cursor after some entries, read one after the other. -/
def advance (key : α → K) (cursor : K) (entries : List α) : K :=
  entries.foldl (fun _ e => key e) cursor

@[simp] theorem advance_nil (key : α → K) (cursor : K) : advance key cursor [] = cursor := rfl

@[simp] theorem advance_concat (key : α → K) (cursor : K) (entries : List α) (e : α) :
    advance key cursor (entries ++ [e]) = key e := by
  simp [advance]

/-- A cursor stays where it is, or points to an entry that was read. -/
theorem advance_mem (key : α → K) (cursor : K) (entries : List α) :
    advance key cursor entries = cursor ∨ ∃ e ∈ entries, advance key cursor entries = key e := by
  rcases List.eq_nil_or_concat entries with hnil | ⟨init, last, hlast⟩
  · rw [hnil]
    exact .inl rfl
  · rw [hlast, List.concat_eq_append, advance_concat]
    exact .inr ⟨last, by simp, rfl⟩

variable [LinearOrder K] {key : α → K} {log : List α} {cursor : K} {e : α}

/-- The keys of the entries increase. -/
def Increasing (key : α → K) (log : List α) : Prop := log.Pairwise fun a b => key a < key b

/-- The entries up to a cursor. -/
def upTo (key : α → K) (cursor : K) (log : List α) : List α := log.filter fun e => key e ≤ cursor

/-- The entries after a cursor. -/
def beyond (key : α → K) (cursor : K) (log : List α) : List α := log.filter fun e => cursor < key e

theorem mem_upTo : e ∈ upTo key cursor log ↔ e ∈ log ∧ key e ≤ cursor := by
  simp [upTo]

theorem mem_beyond : e ∈ beyond key cursor log ↔ e ∈ log ∧ cursor < key e := by
  simp [beyond]

theorem beyond_eq_nil : beyond key cursor log = [] ↔ ∀ e ∈ log, key e ≤ cursor := by
  simp [beyond, List.filter_eq_nil_iff]

/-- A log is what is up to a cursor, and then what is after it. -/
theorem upTo_append_beyond (h : Increasing key log) (cursor : K) :
    upTo key cursor log ++ beyond key cursor log = log := by
  induction log with
  | nil => rfl
  | cons first rest ih =>
    obtain ⟨hfirst, hrest⟩ := List.pairwise_cons.mp h
    by_cases hle : key first ≤ cursor
    · have hnot : ¬cursor < key first := not_lt.mpr hle
      simpa [upTo, beyond, hle, hnot] using ih hrest
    · have hlt : cursor < key first := not_le.mp hle
      have hall : ∀ e ∈ rest, cursor < key e := fun e he => hlt.trans (hfirst e he)
      have hnone : upTo key cursor rest = [] := by
        simpa [upTo, List.filter_eq_nil_iff] using hall
      have hsome : beyond key cursor rest = rest := by
        simpa [beyond, List.filter_eq_self] using hall
      show (first :: rest).filter _ ++ (first :: rest).filter _ = first :: rest
      rw [List.filter_cons_of_neg (by simpa using hle),
        List.filter_cons_of_pos (by simpa using hlt)]
      show upTo key cursor rest ++ first :: beyond key cursor rest = first :: rest
      rw [hnone, hsome]
      rfl

/-- Everything is up to the cursor when nothing is after it. -/
theorem upTo_eq_self (h : beyond key cursor log = []) : upTo key cursor log = log := by
  simpa [upTo, List.filter_eq_self] using beyond_eq_nil.mp h

/-- A reader that reads what is after its cursor has read the whole log. -/
theorem upTo_advance (h : Increasing key log) (cursor : K) :
    upTo key (advance key cursor (beyond key cursor log)) log = log := by
  rcases List.eq_nil_or_concat (beyond key cursor log) with hnil | ⟨init, last, hlast⟩
  · rw [hnil, advance_nil]
    exact upTo_eq_self hnil
  · rw [hlast, List.concat_eq_append, advance_concat]
    apply upTo_eq_self
    rw [beyond_eq_nil]
    have hlog := upTo_append_beyond h cursor
    rw [hlast, List.concat_eq_append, ← List.append_assoc] at hlog
    unfold Increasing at h
    rw [← hlog, List.pairwise_append] at h
    intro e he
    rw [← hlog, List.mem_append] at he
    rcases he with he | he
    · exact (h.2.2 e he last List.mem_cons_self).le
    · rw [List.mem_singleton.mp he]

/-- Reading on gives what is up to the new cursor. -/
theorem upTo_append_read (h : Increasing key log) (cursor : K) :
    upTo key cursor log ++ beyond key cursor log =
      upTo key (advance key cursor (beyond key cursor log)) log := by
  rw [upTo_append_beyond h, upTo_advance h]

/-- An entry after the cursor changes nothing up to it. -/
theorem upTo_concat (h : cursor < key e) : upTo key cursor (log ++ [e]) = upTo key cursor log := by
  simp [upTo, h]

theorem increasing_concat :
    Increasing key (log ++ [e]) ↔ Increasing key log ∧ ∀ x ∈ log, key x < key e := by
  simp [Increasing, List.pairwise_append]

end LogCursor
