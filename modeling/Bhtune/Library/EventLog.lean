import Mathlib.Data.List.Basic

/-!
# Temporal properties of append-only event logs

A log is a list of events, oldest first; a program only ever appends to it.  The properties here
are the ones a safety argument is made of, each with the lemma that carries it over an append.

* `Appends p`, `Brings p r` — the log grew by events that satisfy `p`, with `r` among them;
* `Guarded` — every triggering event was preceded by a log that allowed it;
* `Answered` — every event that asks for an answer got one later;
* `Outstanding` — the same, except for one last event that is still open;
* `Latest`, `LatestAnswered` — the last event that asks, and that it was answered.
-/

namespace EventLog

variable {α : Type*} {p q : α → Prop} {ask : α → Prop} {ans : α → α → Prop} {l l' l'' : List α}
variable {e r x : α}

/-- The log `l'` is `l` with events appended that satisfy `p`. -/
def Appends (p : α → Prop) (l l' : List α) : Prop := ∃ new, l' = l ++ new ∧ ∀ e ∈ new, p e

/-- The same, and `r` is one of the events appended. -/
def Brings (p : α → Prop) (r : α) (l l' : List α) : Prop :=
  ∃ new, l' = l ++ new ∧ (∀ e ∈ new, p e) ∧ r ∈ new

/-- Every event that triggers finds the log before it in order. -/
def Guarded (trigger : α → Prop) (cond : α → List α → Prop) (l : List α) : Prop :=
  ∀ pre e post, l = pre ++ e :: post → trigger e → cond e pre

/-- Every event that asks is answered by a later one. -/
def Answered (ask : α → Prop) (ans : α → α → Prop) : List α → Prop
  | [] => True
  | e :: post => (ask e → ∃ r ∈ post, ans e r) ∧ Answered ask ans post

/-- Everything is answered except possibly the last event that asks, which is `e`. -/
def Outstanding (ask : α → Prop) (ans : α → α → Prop) (e : α) (l : List α) : Prop :=
  ∃ pre mid, l = pre ++ e :: mid ∧ Answered ask ans pre ∧ ∀ x ∈ mid, ¬ask x

/-- The last event that asks is `e`. -/
def Latest (ask : α → Prop) (e : α) (l : List α) : Prop :=
  ∃ pre mid, l = pre ++ e :: mid ∧ ∀ x ∈ mid, ¬ask x

/-- The last event that asks is `e`, and `r` answered it later. -/
def LatestAnswered (ask : α → Prop) (ans : α → α → Prop) (e r : α) (l : List α) : Prop :=
  ∃ pre mid, l = pre ++ e :: mid ∧ (∀ x ∈ mid, ¬ask x) ∧ r ∈ mid ∧ ans e r

/-! ### Appending -/

namespace Appends

theorem refl (l : List α) : Appends p l l :=
  ⟨[], (List.append_nil l).symm, fun _ h => absurd h List.not_mem_nil⟩

theorem trans (h : Appends p l l') (h' : Appends p l' l'') : Appends p l l'' := by
  obtain ⟨new, rfl, hnew⟩ := h
  obtain ⟨new', rfl, hnew'⟩ := h'
  refine ⟨new ++ new', List.append_assoc _ _ _, ?_⟩
  intro e he
  rcases List.mem_append.mp he with he | he
  · exact hnew e he
  · exact hnew' e he

theorem concat (l : List α) (h : p x) : Appends p l (l ++ [x]) :=
  ⟨[x], rfl, fun _ he => List.mem_singleton.mp he ▸ h⟩

/-- Where no event is of the kind, nothing was appended. -/
theorem eq_of_none (h : Appends p l l') (hp : ∀ e, ¬p e) : l' = l := by
  obtain ⟨new, rfl, hnew⟩ := h
  cases new with
  | nil => exact List.append_nil l
  | cons e new => exact absurd (hnew e List.mem_cons_self) (hp e)

theorem mono (h : Appends p l l') (hpq : ∀ e, p e → q e) : Appends q l l' := by
  obtain ⟨new, hl, hnew⟩ := h
  exact ⟨new, hl, fun e he => hpq e (hnew e he)⟩

/-- What one event carries over, any number of events carries over. -/
theorem carry {P : List α → Prop} (hstep : ∀ l e, P l → p e → P (l ++ [e]))
    (h : Appends p l l') (hl : P l) : P l' := by
  obtain ⟨new, rfl, hnew⟩ := h
  induction new generalizing l with
  | nil => rwa [List.append_nil]
  | cons e new ih =>
    have hl' : P (l ++ [e]) := hstep l e hl (hnew e List.mem_cons_self)
    have happ := ih hl' fun x hx => hnew x (List.mem_cons_of_mem _ hx)
    rwa [List.append_assoc, List.singleton_append] at happ

end Appends

namespace Brings

theorem single (l : List α) (h : p r) : Brings p r l (l ++ [r]) :=
  ⟨[r], rfl, fun _ he => List.mem_singleton.mp he ▸ h, List.mem_singleton_self r⟩

theorem appends (h : Brings p r l l') : Appends p l l' := by
  obtain ⟨new, hl, hnew, _⟩ := h
  exact ⟨new, hl, hnew⟩

theorem mono (h : Brings p r l l') (hpq : ∀ e, p e → q e) : Brings q r l l' := by
  obtain ⟨new, hl, hnew, hr⟩ := h
  exact ⟨new, hl, fun e he => hpq e (hnew e he), hr⟩

theorem append (h : Brings p r l l') (h' : Appends p l' l'') : Brings p r l l'' := by
  obtain ⟨new, rfl, hnew, hr⟩ := h
  obtain ⟨new', rfl, hnew'⟩ := h'
  refine ⟨new ++ new', List.append_assoc _ _ _, ?_, List.mem_append_left _ hr⟩
  intro e he
  rcases List.mem_append.mp he with he | he
  · exact hnew e he
  · exact hnew' e he

theorem prepend (h : Appends p l l') (h' : Brings p r l' l'') : Brings p r l l'' := by
  obtain ⟨new, rfl, hnew⟩ := h
  obtain ⟨new', rfl, hnew', hr⟩ := h'
  refine ⟨new ++ new', List.append_assoc _ _ _, ?_, List.mem_append_right _ hr⟩
  intro e he
  rcases List.mem_append.mp he with he | he
  · exact hnew e he
  · exact hnew' e he

end Brings

/-! ### Guarded events -/

namespace Guarded

variable {trigger : α → Prop} {cond : α → List α → Prop}

theorem nil : Guarded trigger cond [] := by
  intro pre e post h
  exact absurd h.symm (List.append_ne_nil_of_right_ne_nil _ (List.cons_ne_nil e post))

theorem concat (h : Guarded trigger cond l) (hx : trigger x → cond x l) :
    Guarded trigger cond (l ++ [x]) := by
  intro pre e post hsplit htrigger
  rcases List.append_eq_append_iff.mp hsplit with ⟨c, rfl, hc⟩ | ⟨c, rfl, hc⟩
  · cases c with
    | nil =>
      obtain ⟨rfl, _⟩ := List.cons_eq_cons.mp hc
      rw [List.append_nil]
      exact hx htrigger
    | cons y c => exact absurd (List.cons_eq_cons.mp hc).2.symm (by simp)
  · cases c with
    | nil =>
      obtain ⟨rfl, _⟩ := List.cons_eq_cons.mp hc
      rw [List.append_nil] at hx
      exact hx htrigger
    | cons y c =>
      obtain ⟨rfl, _⟩ := List.cons_eq_cons.mp hc
      exact h pre e c rfl htrigger

/-- While only events of a kind are appended, the condition may be met throughout. -/
theorem append_allowed (h : Guarded trigger cond l) (happ : Appends p l l')
    (hcond : ∀ mid e, Appends p l mid → cond e mid) : Guarded trigger cond l' := by
  have hboth : Guarded trigger cond l' ∧ Appends p l l' := happ.carry
    (P := fun m => Guarded trigger cond m ∧ Appends p l m)
    (fun m e hm he => ⟨hm.1.concat fun _ => hcond m e hm.2, hm.2.trans (.concat m he)⟩)
    ⟨h, .refl l⟩
  exact hboth.1

theorem append (h : Guarded trigger cond l) (happ : Appends (fun e => ¬trigger e) l l') :
    Guarded trigger cond l' :=
  happ.carry (fun _ _ hl hx => hl.concat fun ht => absurd ht hx) h

theorem of_prefix (h : Guarded trigger cond l) (hinit : l' <+: l) : Guarded trigger cond l' := by
  obtain ⟨rest, rfl⟩ := hinit
  intro pre e post hsplit
  exact h pre e (post ++ rest) (by rw [hsplit, List.append_assoc, List.cons_append])

end Guarded

/-- Two splits of a log at its only event of a kind are the same split. -/
theorem eq_of_split {pre post pre' post' : List α} {e' : α}
    (h : pre ++ e :: post = pre' ++ e' :: post') (hpre : ∀ x ∈ pre, ¬p x)
    (hpost : ∀ x ∈ post, ¬p x) (he' : p e') : pre' = pre ∧ e' = e ∧ post' = post := by
  rcases List.append_eq_append_iff.mp h with ⟨c, rfl, hc⟩ | ⟨c, rfl, hc⟩
  · cases c with
    | nil =>
      obtain ⟨rfl, rfl⟩ := List.cons_eq_cons.mp hc
      exact ⟨List.append_nil pre, rfl, rfl⟩
    | cons y c =>
      obtain ⟨_, rfl⟩ := List.cons_eq_cons.mp hc
      exact absurd he' (hpost e' (List.mem_append_right _ List.mem_cons_self))
  · cases c with
    | nil =>
      obtain ⟨rfl, rfl⟩ := List.cons_eq_cons.mp hc
      exact ⟨(List.append_nil pre').symm, rfl, rfl⟩
    | cons y c =>
      obtain ⟨rfl, _⟩ := List.cons_eq_cons.mp hc
      exact absurd he' (hpre e' (List.mem_append_right _ List.mem_cons_self))

/-! ### Questions and answers -/

theorem answered_of_silent (h : ∀ x ∈ l, ¬ask x) : Answered ask ans l := by
  induction l with
  | nil => trivial
  | cons x l ih =>
    refine ⟨fun hask => absurd hask (h x List.mem_cons_self), ih ?_⟩
    exact fun y hy => h y (List.mem_cons_of_mem _ hy)

theorem Answered.join (h : Answered ask ans l) (h' : Answered ask ans l') :
    Answered ask ans (l ++ l') := by
  induction l with
  | nil => exact h'
  | cons x l ih =>
    refine ⟨?_, ih h.2⟩
    intro hask
    obtain ⟨r, hr, hans⟩ := h.1 hask
    exact ⟨r, List.mem_append_left _ hr, hans⟩

theorem Answered.append (h : Answered ask ans l) (happ : Appends (fun e => ¬ask e) l l') :
    Answered ask ans l' := by
  obtain ⟨new, rfl, hnew⟩ := happ
  exact h.join (answered_of_silent hnew)

/-- A question on an answered log is the one thing outstanding. -/
theorem Answered.outstanding (h : Answered ask ans l) (e : α) :
    Outstanding ask ans e (l ++ [e]) := ⟨l, [], rfl, h, fun _ hx => absurd hx List.not_mem_nil⟩

theorem Outstanding.append (h : Outstanding ask ans e l)
    (happ : Appends (fun e => ¬ask e) l l') : Outstanding ask ans e l' := by
  obtain ⟨pre, mid, rfl, hpre, hmid⟩ := h
  obtain ⟨new, rfl, hnew⟩ := happ
  refine ⟨pre, mid ++ new, by rw [List.append_assoc, List.cons_append], hpre, ?_⟩
  intro y hy
  rcases List.mem_append.mp hy with hy | hy
  · exact hmid y hy
  · exact hnew y hy

/-- **An answer closes what is outstanding.** -/
theorem Outstanding.answer (h : Outstanding ask ans e l) (hr : Brings (fun e => ¬ask e) r l l')
    (hans : ans e r) : Answered ask ans l' := by
  obtain ⟨pre, mid, rfl, hpre, hmid⟩ := h
  obtain ⟨new, rfl, hnew, hmem⟩ := hr
  rw [List.append_assoc, List.cons_append]
  refine hpre.join ⟨fun _ => ⟨r, List.mem_append_right _ hmem, hans⟩, ?_⟩
  refine answered_of_silent ?_
  intro y hy
  rcases List.mem_append.mp hy with hy | hy
  · exact hmid y hy
  · exact hnew y hy

theorem Latest.append (h : Latest ask e l) (happ : Appends (fun e => ¬ask e) l l') :
    Latest ask e l' := by
  obtain ⟨pre, mid, rfl, hmid⟩ := h
  obtain ⟨new, rfl, hnew⟩ := happ
  refine ⟨pre, mid ++ new, by rw [List.append_assoc, List.cons_append], ?_⟩
  intro y hy
  rcases List.mem_append.mp hy with hy | hy
  · exact hmid y hy
  · exact hnew y hy

theorem Latest.answer (h : Latest ask e l) (hr : Brings (fun e => ¬ask e) r l l')
    (hans : ans e r) : LatestAnswered ask ans e r l' := by
  obtain ⟨pre, mid, rfl, hmid⟩ := h
  obtain ⟨new, rfl, hnew, hmem⟩ := hr
  refine ⟨pre, mid ++ new, by rw [List.append_assoc, List.cons_append], ?_, ?_, hans⟩
  · intro y hy
    rcases List.mem_append.mp hy with hy | hy
    · exact hmid y hy
    · exact hnew y hy
  · exact List.mem_append_right _ hmem

theorem LatestAnswered.append (h : LatestAnswered ask ans e r l)
    (happ : Appends (fun e => ¬ask e) l l') : LatestAnswered ask ans e r l' := by
  obtain ⟨pre, mid, rfl, hmid, hmem, hans⟩ := h
  obtain ⟨new, rfl, hnew⟩ := happ
  refine ⟨pre, mid ++ new, by rw [List.append_assoc, List.cons_append], ?_, ?_, hans⟩
  · intro y hy
    rcases List.mem_append.mp hy with hy | hy
    · exact hmid y hy
    · exact hnew y hy
  · exact List.mem_append_left _ hmem

end EventLog
