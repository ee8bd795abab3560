import Mathlib.Data.List.Basic

/-!
# Runs of a system that acts

A system is a relation `step s a s'`: in the state `s` the action `a` may be taken, and leads to
`s'`.  Several parties that act in turn are one such system, whose actions say who acts.

* `Run step s actions s'` — the actions, taken one after the other from `s`, may lead to `s'`;
* `Run.invariant` — what every step preserves holds after every run;
* `Run.invariant_at` — the same for steps that know what led to them;
* `Run.split` — a run passes through a state before each of its actions;
* `run_of_exec` — the run of a system that is a function.
-/

namespace ActionRun

variable {σ α : Type*}

/-- The actions may lead from `s` to `s'`. -/
inductive Run (step : σ → α → σ → Prop) : σ → List α → σ → Prop
  | nil (s : σ) : Run step s [] s
  | cons {s s' s'' : σ} {a : α} {actions : List α} (hstep : step s a s')
      (h : Run step s' actions s'') : Run step s (a :: actions) s''

variable {step : σ → α → σ → Prop} {s s' s'' : σ} {actions rest : List α} {a : α}

namespace Run

/-- **The run rule.** -/
theorem invariant {P : σ → Prop} (h : Run step s actions s') (h₀ : P s)
    (hstep : ∀ s a s', P s → step s a s' → P s') : P s' := by
  induction h with
  | nil s => exact h₀
  | cons hs _ ih => exact ih (hstep _ _ _ h₀ hs)

/-- The run rule for the actions of a kind. -/
theorem invariant_of {P : σ → Prop} {p : α → Prop} (h : Run step s actions s')
    (hp : ∀ a ∈ actions, p a) (h₀ : P s)
    (hstep : ∀ s a s', p a → P s → step s a s' → P s') : P s' := by
  induction h with
  | nil s => exact h₀
  | cons hs _ ih =>
    refine ih (fun b hb => hp b (List.mem_cons_of_mem _ hb)) ?_
    exact hstep _ _ _ (hp _ List.mem_cons_self) h₀ hs

/-- The run rule with what led to each step. -/
theorem invariant_at {P : σ → Prop} (h : Run step s actions s') (h₀ : P s)
    (hstep : ∀ before a rest s₁ s₂, actions = before ++ a :: rest → Run step s before s₁ → P s₁ →
      step s₁ a s₂ → P s₂) : P s' := by
  induction h with
  | nil s => exact h₀
  | @cons s s₁ s' a actions hs _ ih =>
    refine ih (hstep [] a actions s s₁ rfl (.nil s) h₀ hs) ?_
    intro before b rest t t' hactions hbefore ht hb
    exact hstep (a :: before) b rest t t' (by rw [hactions]; rfl) (.cons hs hbefore) ht hb

theorem append (h : Run step s actions s') (h' : Run step s' rest s'') :
    Run step s (actions ++ rest) s'' := by
  induction h with
  | nil s => exact h'
  | cons hs _ ih => exact .cons hs (ih h')

theorem concat (h : Run step s actions s') (h' : step s' a s'') :
    Run step s (actions ++ [a]) s'' := h.append (.cons h' (.nil _))

/-- A run of two parts passes through a state in between. -/
theorem split (h : Run step s (actions ++ rest) s'') :
    ∃ s', Run step s actions s' ∧ Run step s' rest s'' := by
  induction actions generalizing s with
  | nil => exact ⟨s, .nil s, h⟩
  | cons a actions ih =>
    cases h with
    | cons hs h =>
      obtain ⟨s', hfirst, hrest⟩ := ih h
      exact ⟨s', .cons hs hfirst, hrest⟩

/-- An action of a run is taken in a state that the actions before it lead to. -/
theorem at_action (h : Run step s (actions ++ a :: rest) s'') :
    ∃ s₁ s₂, Run step s actions s₁ ∧ step s₁ a s₂ ∧ Run step s₂ rest s'' := by
  obtain ⟨s₁, hfirst, hrest⟩ := h.split
  cases hrest with
  | cons hs hrest => exact ⟨s₁, _, hfirst, hs, hrest⟩

end Run

/-! ### Systems that are functions -/

/-- The system of a function. -/
def stepOf (f : σ → α → Option σ) (s : σ) (a : α) (s' : σ) : Prop := f s a = some s'

/-- The state after some actions, where each can be taken. -/
def exec (f : σ → α → Option σ) : σ → List α → Option σ
  | s, [] => some s
  | s, a :: actions => (f s a).bind fun s' => exec f s' actions

theorem exec_append (f : σ → α → Option σ) (s : σ) (actions rest : List α) :
    exec f s (actions ++ rest) = (exec f s actions).bind fun s' => exec f s' rest := by
  induction actions generalizing s with
  | nil => rfl
  | cons a actions ih =>
    show (f s a).bind _ = ((f s a).bind _).bind _
    rw [Option.bind_assoc]
    simp only [List.append_eq, ih]

theorem run_of_exec {f : σ → α → Option σ} (h : exec f s actions = some s') :
    Run (stepOf f) s actions s' := by
  induction actions generalizing s with
  | nil =>
    cases h
    exact .nil _
  | cons a actions ih =>
    obtain ⟨s₁, hs, hrest⟩ := Option.bind_eq_some_iff.mp h
    exact .cons hs (ih hrest)

/-- A condition on each step of a run, and the state it is taken in. -/
def along (f : σ → α → Option σ) (p : σ → α → Bool) : σ → List α → Bool
  | _, [] => true
  | s, a :: actions => p s a && (f s a).all fun s' => along f p s' actions

theorem at_of_along {f : σ → α → Option σ} {p : σ → α → Bool}
    (h : along f p s (actions ++ a :: rest) = true) (hrun : Run (stepOf f) s actions s') :
    p s' a = true := by
  induction hrun with
  | nil s =>
    simp only [List.nil_append, along, Bool.and_eq_true] at h
    exact h.1
  | cons hs _ ih =>
    simp only [List.cons_append, along, Bool.and_eq_true] at h
    rw [show f _ _ = some _ from hs] at h
    exact ih h.2

/-- Where a condition fails in a run, the actions before lead to a state where it fails. -/
theorem exists_of_not_along {f : σ → α → Option σ} {p : σ → α → Bool}
    (h : ¬along f p s actions = true) :
    ∃ before a rest s', actions = before ++ a :: rest ∧ Run (stepOf f) s before s' ∧
      p s' a = false := by
  induction actions generalizing s with
  | nil => exact absurd rfl h
  | cons a actions ih =>
    simp only [along, Bool.and_eq_true, not_and, Bool.not_eq_true] at h
    by_cases hp : p s a = true
    · have hrest := h hp
      cases hs : f s a with
      | none => simp [hs] at hrest
      | some s' =>
        rw [hs, Option.all_some] at hrest
        obtain ⟨before, b, rest, s'', hactions, hrun, hb⟩ := ih (s := s') (by simp [hrest])
        exact ⟨a :: before, b, rest, s'', by rw [hactions]; rfl, .cons hs hrun, hb⟩
    · exact ⟨[], a, actions, s, rfl, .nil s, Bool.eq_false_iff.mpr hp⟩

end ActionRun
