import Mathlib.Data.Nat.Notation
import Mathlib.Logic.Basic

/-!
# Weakest preconditions of programs that keep their state when they fail

`EStateM ε σ α` is a program that ends with a value or a failure, in a state either way.  Its
weakest precondition therefore takes two postconditions, one for each way of ending.

* `wp_bind`, `wp_attempt`, `wp_iterate` — the rules of sequencing, of catching and of a loop;
* `Rounds`, `iterate_rounds` — the rounds a loop goes through;
* `Frame`, `Keeps` — what a whole program does to the state however it ends, as a reflexive and
  transitive relation, with one rule for each way of building a program;
* `wlp` — the same where failures are not looked at;
* `Keeps.and_wp`, `Keeps.wp_seq` — a frame holds on top of whatever else is known, and is enough
  to go on from;
* `Promise`, `Honors` — a frame together with what a program may fail with.
-/

namespace Effect

variable {ε σ : Type} {α β δ : Type}

/-- `x` ends in `Q` with a value or in `E` with a failure. -/
def wp (x : EStateM ε σ α) (Q : α → σ → Prop) (E : ε → σ → Prop) (s : σ) : Prop :=
  match x s with
  | .ok a s' => Q a s'
  | .error e s' => E e s'

/-- Runs `x` and hands its failure over as a value when `catchable` recognises it. -/
def attempt (catchable : ε → Option δ) (x : EStateM ε σ α) : EStateM ε σ (Except δ α) := fun s =>
  match x s with
  | .ok a s' => .ok (.ok a) s'
  | .error e s' =>
    match catchable e with
    | some d => .ok (.error d) s'
    | none => .error e s'

/-- Repeats `body` until it answers with a result; `stop` is the failure of a run that is still
going after `n` rounds. -/
def iterate (stop : ε) (body : β → EStateM ε σ (β ⊕ α)) : ℕ → β → EStateM ε σ α
  | 0, _ => throw stop
  | n + 1, b => do
    match ← body b with
    | .inl b' => iterate stop body n b'
    | .inr a => pure a

/-! ### The rules of the weakest precondition -/

section Rules

variable {Q : α → σ → Prop} {E : ε → σ → Prop} {s : σ}

@[simp] theorem wp_pure (a : α) : wp (pure a : EStateM ε σ α) Q E s ↔ Q a s := Iff.rfl

@[simp] theorem wp_throw (e : ε) : wp (throw e : EStateM ε σ α) Q E s ↔ E e s := Iff.rfl

@[simp] theorem wp_get {Q : σ → σ → Prop} : wp (get : EStateM ε σ σ) Q E s ↔ Q s s := Iff.rfl

@[simp] theorem wp_set {Q : PUnit → σ → Prop} (s' : σ) :
    wp (set s' : EStateM ε σ PUnit) Q E s ↔ Q ⟨⟩ s' := Iff.rfl

@[simp] theorem wp_modify {Q : PUnit → σ → Prop} (f : σ → σ) :
    wp (modify f : EStateM ε σ PUnit) Q E s ↔ Q ⟨⟩ (f s) := Iff.rfl

theorem wp_bind {x : EStateM ε σ β} {f : β → EStateM ε σ α} :
    wp (x >>= f) Q E s ↔ wp x (fun b => wp (f b) Q E) E s := by
  show wp (EStateM.bind x f) Q E s ↔ _
  unfold wp EStateM.bind
  cases x s <;> rfl

theorem wp_map {x : EStateM ε σ β} {f : β → α} :
    wp (f <$> x) Q E s ↔ wp x (fun b => Q (f b)) E s := by
  show wp (EStateM.map f x) Q E s ↔ _
  unfold wp EStateM.map
  cases x s <;> rfl

theorem wp_attempt {catchable : ε → Option δ} {x : EStateM ε σ α} {Q : Except δ α → σ → Prop} :
    wp (attempt catchable x) Q E s ↔
      wp x (fun a => Q (.ok a))
        (fun e s' => match catchable e with
          | some d => Q (.error d) s'
          | none => E e s') s := by
  unfold wp attempt
  cases x s with
  | ok a s' => rfl
  | error e s' => cases h : catchable e <;> simp only [h]

theorem wp_mono {x : EStateM ε σ α} {Q' : α → σ → Prop} {E' : ε → σ → Prop}
    (h : wp x Q E s) (hQ : ∀ a s', Q a s' → Q' a s') (hE : ∀ e s', E e s' → E' e s') :
    wp x Q' E' s := by
  unfold wp at *
  cases hx : x s with
  | ok a s' => rw [hx] at h; exact hQ a s' h
  | error e s' => rw [hx] at h; exact hE e s' h

theorem wp_and {x : EStateM ε σ α} {Q' : α → σ → Prop} {E' : ε → σ → Prop}
    (h : wp x Q E s) (h' : wp x Q' E' s) :
    wp x (fun a s' => Q a s' ∧ Q' a s') (fun e s' => E e s' ∧ E' e s') s := by
  unfold wp at *
  cases hx : x s with
  | ok a s' => rw [hx] at h h'; exact ⟨h, h'⟩
  | error e s' => rw [hx] at h h'; exact ⟨h, h'⟩

/-- The run itself is what is known of a program. -/
theorem wp_run (x : EStateM ε σ α) (s : σ) :
    wp x (fun a s' => x s = .ok a s') (fun e s' => x s = .error e s') s := by
  unfold wp
  cases hx : x s <;> rfl

/-- What is known of a program is known of its run. -/
theorem wp_ok {x : EStateM ε σ α} {a : α} {s' : σ} (h : wp x Q E s) (hrun : x s = .ok a s') :
    Q a s' := by
  unfold wp at h
  rw [hrun] at h
  exact h

theorem wp_error {x : EStateM ε σ α} {e : ε} {s' : σ} (h : wp x Q E s)
    (hrun : x s = .error e s') : E e s' := by
  unfold wp at h
  rw [hrun] at h
  exact h

/-- Sequencing with the intermediate assertion given. -/
theorem wp_seq {x : EStateM ε σ β} {f : β → EStateM ε σ α} {M : β → σ → Prop}
    (hx : wp x M E s) (hf : ∀ b s', M b s' → wp (f b) Q E s') : wp (x >>= f) Q E s :=
  wp_bind.mpr (wp_mono hx hf fun _ _ h => h)

theorem bind_of_ok {x : EStateM ε σ β} {f : β → EStateM ε σ α} {b : β} {s' : σ}
    (h : x s = .ok b s') : (x >>= f) s = f b s' := by
  show EStateM.bind x f s = f b s'
  unfold EStateM.bind
  rw [h]

/-- Sequencing after a program whose run is known. -/
theorem wp_of_ok {x : EStateM ε σ β} {f : β → EStateM ε σ α} {b : β} {s' : σ}
    (hx : x s = .ok b s') (h : wp (f b) Q E s') : wp (x >>= f) Q E s := by
  unfold wp
  rw [bind_of_ok hx]
  exact h

/-- **The loop rule.**  An invariant that every round keeps, and that is enough wherever a round
ends the loop. -/
theorem wp_iterate {stop : ε} {body : β → EStateM ε σ (β ⊕ α)} (Inv : β → σ → Prop)
    (hbody : ∀ b s, Inv b s →
      wp (body b) (fun r s' => match r with
        | .inl b' => Inv b' s'
        | .inr a => Q a s') E s)
    (hstop : ∀ b s, Inv b s → E stop s) (n : ℕ) (b : β) (h : Inv b s) :
    wp (iterate stop body n b) Q E s := by
  induction n generalizing b s with
  | zero => exact hstop b s h
  | succ n ih =>
    refine wp_seq (hbody b s h) ?_
    intro r s' hr
    cases r with
    | inl b' => exact ih b' hr
    | inr a => exact hr

end Rules

/-! ### The rounds of a loop -/

/-- The round that begins with `b` in `s` is one of those that begin with `b₀` in `s₀`. -/
inductive Rounds (body : β → EStateM ε σ (β ⊕ α)) (b₀ : β) (s₀ : σ) : β → σ → Prop
  | start : Rounds body b₀ s₀ b₀ s₀
  | next {b b' : β} {s s' : σ} (h : Rounds body b₀ s₀ b s) (hround : body b s = .ok (.inl b') s') :
      Rounds body b₀ s₀ b' s'

section Loop

variable {stop : ε} {body : β → EStateM ε σ (β ⊕ α)} {b₀ : β} {s₀ : σ}

/-- What the first round has and every round hands on, every round has. -/
theorem Rounds.invariant {Inv : β → σ → Prop} (h₀ : Inv b₀ s₀)
    (hround : ∀ b s b' s', Inv b s → body b s = .ok (.inl b') s' → Inv b' s') {b : β} {s : σ}
    (h : Rounds body b₀ s₀ b s) : Inv b s := by
  induction h with
  | start => exact h₀
  | next _ hr ih => exact hround _ _ _ _ ih hr

/-- The same for what is asked of the state alone. -/
theorem Rounds.state {P : σ → Prop} (h₀ : P s₀)
    (hround : ∀ b s b' s', P s → body b s = .ok (.inl b') s' → P s') {b : β} {s : σ}
    (h : Rounds body b₀ s₀ b s) : P s := by
  induction h with
  | start => exact h₀
  | next _ hr ih => exact hround _ _ _ _ ih hr

/-- The round that begins after `n` rounds, where there is one. -/
def roundAt (body : β → EStateM ε σ (β ⊕ α)) (b₀ : β) (s₀ : σ) : ℕ → Option (β × σ)
  | 0 => some (b₀, s₀)
  | n + 1 =>
    match roundAt body b₀ s₀ n with
    | none => none
    | some (b, s) =>
      match body b s with
      | .ok (.inl b') s' => some (b', s')
      | _ => none

theorem rounds_of_roundAt {n : ℕ} {b : β} {s : σ} (h : roundAt body b₀ s₀ n = some (b, s)) :
    Rounds body b₀ s₀ b s := by
  induction n generalizing b s with
  | zero =>
    cases h
    exact .start
  | succ n ih =>
    unfold roundAt at h
    cases hn : roundAt body b₀ s₀ n with
    | none =>
      rw [hn] at h
      cases h
    | some r =>
      obtain ⟨b₁, s₁⟩ := r
      rw [hn] at h
      dsimp only at h
      split at h
      · rename_i hround
        cases h
        exact (ih hn).next hround
      · cases h

/-- Every round is the one that begins after so many. -/
theorem Rounds.roundAt {b : β} {s : σ} (h : Rounds body b₀ s₀ b s) :
    ∃ n, Effect.roundAt body b₀ s₀ n = some (b, s) := by
  induction h with
  | start => exact ⟨0, rfl⟩
  | next _ hround ih =>
    obtain ⟨n, hn⟩ := ih
    refine ⟨n + 1, ?_⟩
    simp only [Effect.roundAt, hn, hround]

/-- After the last round there is none. -/
theorem roundAt_of_none {m n : ℕ} (h : roundAt body b₀ s₀ m = none) (hle : m ≤ n) :
    roundAt body b₀ s₀ n = none := by
  induction n with
  | zero => exact Nat.le_zero.mp hle ▸ h
  | succ n ih =>
    rcases Nat.le_or_eq_of_le_succ hle with hle | rfl
    · simp only [roundAt, ih hle]
    · exact h

/-- A loop ends in the round that answers with its result, or fails in one. -/
theorem iterate_rounds (n : ℕ) (b : β) (s : σ) :
    wp (iterate stop body n b)
      (fun a s' => ∃ b₁ s₁, Rounds body b s b₁ s₁ ∧ body b₁ s₁ = .ok (.inr a) s')
      (fun e s' => e = stop ∨ ∃ b₁ s₁, Rounds body b s b₁ s₁ ∧ body b₁ s₁ = .error e s') s := by
  -- generalised to a loop that has come to a later round
  suffices h : ∀ b₁ s₁, Rounds body b s b₁ s₁ → wp (iterate stop body n b₁)
      (fun a s' => ∃ b₁ s₁, Rounds body b s b₁ s₁ ∧ body b₁ s₁ = .ok (.inr a) s')
      (fun e s' => e = stop ∨ ∃ b₁ s₁, Rounds body b s b₁ s₁ ∧ body b₁ s₁ = .error e s') s₁ from
    h b s .start
  induction n with
  | zero => exact fun _ _ _ => .inl rfl
  | succ n ih =>
    intro b₁ s₁ hround
    refine wp_bind.mpr (wp_mono (wp_run (body b₁) s₁) ?_ ?_)
    · rintro (b₂ | a) s₂ h₂
      · exact ih b₂ s₂ (hround.next h₂)
      · exact ⟨b₁, s₁, hround, h₂⟩
    · exact fun _ s₂ h₂ => .inr ⟨b₁, s₁, hround, h₂⟩

end Loop

/-! ### Programs that need not succeed -/

/-- Where `x` ends with a value, it ends in `Q`; a failure is not looked at. -/
abbrev wlp (x : EStateM ε σ α) (Q : α → σ → Prop) (s : σ) : Prop := wp x Q (fun _ _ => True) s

section Partial

variable {Q : α → σ → Prop} {s : σ}

theorem wlp_mono {x : EStateM ε σ α} {Q' : α → σ → Prop} (h : wlp x Q s)
    (hQ : ∀ a s', Q a s' → Q' a s') : wlp x Q' s := wp_mono h hQ fun _ _ h => h

theorem wlp_seq {x : EStateM ε σ β} {f : β → EStateM ε σ α} {M : β → σ → Prop}
    (hx : wlp x M s) (hf : ∀ b s', M b s' → wlp (f b) Q s') : wlp (x >>= f) Q s :=
  wp_seq hx hf

theorem wlp_true (x : EStateM ε σ α) : wlp x (fun _ _ => True) s := by
  unfold wlp wp
  cases x s <;> trivial

/-- Sequencing where what comes last decides. -/
theorem wlp_last {x : EStateM ε σ β} {f : β → EStateM ε σ α} (hf : ∀ b s', wlp (f b) Q s') :
    wlp (x >>= f) Q s := wlp_seq (wlp_true x) fun b s' _ => hf b s'

theorem wlp_attempt {catchable : ε → Option δ} {x : EStateM ε σ α}
    {Q : Except δ α → σ → Prop}
    (h : wp x (fun a => Q (.ok a)) (fun e s' => ∀ d, catchable e = some d → Q (.error d) s') s) :
    wlp (attempt catchable x) Q s := by
  refine wp_attempt.mpr (wp_mono h (fun _ _ h => h) ?_)
  intro e s' he
  cases hd : catchable e with
  | none => trivial
  | some d => exact he d hd

/-- The loop rule where failures are not looked at. -/
theorem wlp_iterate {stop : ε} {body : β → EStateM ε σ (β ⊕ α)} (Inv : β → σ → Prop)
    (hbody : ∀ b s, Inv b s →
      wlp (body b) (fun r s' => match r with
        | .inl b' => Inv b' s'
        | .inr a => Q a s') s)
    (n : ℕ) (b : β) (h : Inv b s) : wlp (iterate stop body n b) Q s :=
  wp_iterate Inv hbody (fun _ _ _ => trivial) n b h

/-- What is known of the failures is added to what is known of the values. -/
theorem wp_of_wlp {x : EStateM ε σ α} {E : ε → σ → Prop} (h : wlp x Q s)
    (hE : wp x (fun _ _ => True) E s) : wp x Q E s :=
  wp_mono (wp_and h hE) (fun _ _ h => h.1) (fun _ _ h => h.2)

end Partial

/-! ### Frames -/

/-- A reflexive and transitive relation between the states before and after a program. -/
structure Frame (σ : Type) where
  rel : σ → σ → Prop
  refl : ∀ s, rel s s
  trans : ∀ {s t u}, rel s t → rel t u → rel s u

/-- The frame of an assertion: what holds before still holds after. -/
def Frame.invariant (P : σ → Prop) : Frame σ where
  rel := fun s s' => P s → P s'
  refl := fun _ h => h
  trans := fun h h' hs => h' (h hs)

/-- The frame of a part of the state that is left alone. -/
def Frame.unchanged {τ : Type} (part : σ → τ) : Frame σ where
  rel := fun s s' => part s' = part s
  refl := fun _ => rfl
  trans := fun h h' => h'.trans h

/-- Both frames at once. -/
def Frame.inf (F G : Frame σ) : Frame σ where
  rel := fun s s' => F.rel s s' ∧ G.rel s s'
  refl := fun s => ⟨F.refl s, G.refl s⟩
  trans := fun h h' => ⟨F.trans h.1 h'.1, G.trans h.2 h'.2⟩

/-- The frame of a program that starts where an assertion holds, which it keeps. -/
def Frame.given (P : σ → Prop) (F : Frame σ) : Frame σ where
  rel := fun s s' => P s → P s' ∧ F.rel s s'
  refl := fun s h => ⟨h, F.refl s⟩
  trans := fun h h' hs => ⟨(h' (h hs).1).1, F.trans (h hs).2 (h' (h hs).1).2⟩

/-- The program stays within the frame however it ends. -/
def Keeps (F : Frame σ) (x : EStateM ε σ α) : Prop :=
  ∀ s, wp x (fun _ s' => F.rel s s') (fun _ s' => F.rel s s') s

namespace Keeps

variable {F G : Frame σ}

theorem pure (a : α) : Keeps F (Pure.pure a : EStateM ε σ α) := fun s => F.refl s

theorem throw (e : ε) : Keeps F (MonadExcept.throw e : EStateM ε σ α) := fun s => F.refl s

theorem get : Keeps F (MonadState.get : EStateM ε σ σ) := fun s => F.refl s

theorem modify {f : σ → σ} (h : ∀ s, F.rel s (f s)) :
    Keeps F (modify f : EStateM ε σ PUnit) := fun s => h s

theorem bind {x : EStateM ε σ β} {f : β → EStateM ε σ α} (hx : Keeps F x)
    (hf : ∀ b, Keeps F (f b)) : Keeps F (x >>= f) := by
  intro s
  refine wp_bind.mpr (wp_mono (hx s) ?_ ?_)
  · intro b s' hs'
    exact wp_mono (hf b s') (fun _ _ h => F.trans hs' h) (fun _ _ h => F.trans hs' h)
  · exact fun _ _ h => h

/-- What follows `get` only has to be right for the state it is run in. -/
theorem bind_get {f : σ → EStateM ε σ α}
    (hf : ∀ s, wp (f s) (fun _ s' => F.rel s s') (fun _ s' => F.rel s s') s) :
    Keeps F (MonadState.get >>= f) := fun s => wp_bind.mpr (hf s)

theorem map {x : EStateM ε σ β} {f : β → α} (hx : Keeps F x) : Keeps F (f <$> x) :=
  fun s => wp_map.mpr (hx s)

theorem attempt {catchable : ε → Option δ} {x : EStateM ε σ α} (hx : Keeps F x) :
    Keeps F (Effect.attempt catchable x) := by
  intro s
  refine wp_attempt.mpr (wp_mono (hx s) (fun _ _ h => h) ?_)
  intro e s' h
  cases catchable e <;> exact h

theorem iterate {stop : ε} {body : β → EStateM ε σ (β ⊕ α)} (h : ∀ b, Keeps F (body b)) (n : ℕ)
    (b : β) : Keeps F (Effect.iterate stop body n b) := by
  intro s
  refine wp_iterate (Q := fun _ s' => F.rel s s') (E := fun _ s' => F.rel s s')
    (fun _ s' => F.rel s s') ?_ (fun _ _ h => h) n b (F.refl s)
  intro b' s' hs'
  refine wp_mono (h b' s') ?_ (fun _ _ h' => F.trans hs' h')
  intro r s'' hs''
  cases r <;> exact F.trans hs' hs''

theorem inf {x : EStateM ε σ α} (h : Keeps F x) (h' : Keeps G x) : Keeps (F.inf G) x :=
  fun s => wp_and (h s) (h' s)

theorem weaken {x : EStateM ε σ α} (h : Keeps F x) (hle : ∀ s s', F.rel s s' → G.rel s s') :
    Keeps G x := fun s => wp_mono (h s) (fun _ s' => hle s s') (fun _ s' => hle s s')

/-- What a run returns in, its frame has brought it to. -/
theorem rel_of_ok {x : EStateM ε σ α} (h : Keeps F x) {a : α} {s s' : σ}
    (hrun : x s = .ok a s') : F.rel s s' :=
  wp_ok (Q := fun _ s' => F.rel s s') (h s) hrun

theorem rel_of_error {x : EStateM ε σ α} (h : Keeps F x) {e : ε} {s s' : σ}
    (hrun : x s = .error e s') : F.rel s s' :=
  wp_error (E := fun _ s' => F.rel s s') (h s) hrun

/-- A program that goes on from a state to which the frame has led. -/
theorem goOn {x : EStateM ε σ α} {s s' : σ} (hrel : F.rel s s') (hx : Keeps F x) :
    wp x (fun _ s'' => F.rel s s'') (fun _ s'' => F.rel s s'') s' :=
  wp_mono (hx s') (fun _ _ => F.trans hrel) fun _ _ => F.trans hrel

/-- A program keeps an assertion that it keeps wherever it holds. -/
theorem of_invariant {P : σ → Prop} {x : EStateM ε σ α}
    (h : ∀ s, P s → wp x (fun _ s' => P s') (fun _ s' => P s') s) : Keeps (.invariant P) x := by
  intro s
  by_cases hs : P s
  · exact wp_mono (h s hs) (fun _ _ hs' _ => hs') fun _ _ hs' _ => hs'
  · exact wp_mono (wp_run x s) (fun _ _ _ hs' => absurd hs' hs) fun _ _ _ hs' => absurd hs' hs

/-- Sequencing after a program of which only the frame is known. -/
theorem wp_seq {x : EStateM ε σ β} {f : β → EStateM ε σ α} {Q : α → σ → Prop}
    {E : ε → σ → Prop} {s : σ} (hx : Keeps F x)
    (hf : ∀ b s', F.rel s s' → wp (f b) Q E s') (hE : ∀ e s', F.rel s s' → E e s') :
    wp (x >>= f) Q E s :=
  wp_bind.mpr (wp_mono (hx s) hf hE)

theorem wlp_seq {x : EStateM ε σ β} {f : β → EStateM ε σ α} {Q : α → σ → Prop} {s : σ}
    (hx : Keeps F x) (hf : ∀ b s', F.rel s s' → wlp (f b) Q s') : wlp (x >>= f) Q s :=
  hx.wp_seq hf fun _ _ _ => trivial

theorem and_wlp {x : EStateM ε σ α} {Q : α → σ → Prop} {s : σ} (h : Keeps F x)
    (hx : wlp x Q s) : wlp x (fun a s' => F.rel s s' ∧ Q a s') s :=
  wp_mono (wp_and (h s) hx) (fun _ _ h => h) (fun _ _ _ => trivial)

/-- The frame is what is known where the program fails. -/
theorem failures {x : EStateM ε σ α} {Q : α → σ → Prop} {s : σ} (h : Keeps F x)
    (hx : wlp x Q s) : wp x (fun a s' => F.rel s s' ∧ Q a s') (fun _ s' => F.rel s s') s :=
  wp_mono (wp_and (h s) hx) (fun _ _ h => h) (fun _ _ h => h.1)

/-- What a program keeps holds on top of whatever else is known about it. -/
theorem and_wp {x : EStateM ε σ α} {Q : α → σ → Prop} {E : ε → σ → Prop} {s : σ}
    (h : Keeps F x) (hx : wp x Q E s) :
    wp x (fun a s' => F.rel s s' ∧ Q a s') (fun e s' => F.rel s s' ∧ E e s') s :=
  wp_and (h s) hx

end Keeps

/-! ### Frames with failures -/

/-- A frame, and how a program that starts in a state may fail.  A failure is within the frame, and
one later on is one that was to be expected before. -/
structure Promise (σ ε : Type) extends Frame σ where
  fails : σ → ε → σ → Prop
  back : ∀ {s s' s'' e}, rel s s' → fails s' e s'' → fails s e s''
  within : ∀ {s s' e}, fails s e s' → rel s s'

/-- The program stays within the frame, and fails only as it may. -/
def Honors (P : Promise σ ε) (x : EStateM ε σ α) : Prop :=
  ∀ s, wp x (fun _ s' => P.rel s s') (fun e s' => P.fails s e s') s

namespace Honors

variable {P : Promise σ ε}

theorem pure (a : α) : Honors P (Pure.pure a : EStateM ε σ α) := fun s => P.refl s

theorem throw {e : ε} (h : ∀ s, P.fails s e s) :
    Honors P (MonadExcept.throw e : EStateM ε σ α) := fun s => h s

theorem get : Honors P (MonadState.get : EStateM ε σ σ) := fun s => P.refl s

theorem modify {f : σ → σ} (h : ∀ s, P.rel s (f s)) :
    Honors P (modify f : EStateM ε σ PUnit) := fun s => h s

/-- A program that goes on from a state to which the frame has led. -/
theorem goOn {x : EStateM ε σ α} {s s' : σ} (hrel : P.rel s s') (hx : Honors P x) :
    wp x (fun _ s'' => P.rel s s'') (fun e s'' => P.fails s e s'') s' :=
  wp_mono (hx s') (fun _ _ h => P.trans hrel h) fun _ _ h => P.back hrel h

theorem bind {x : EStateM ε σ β} {f : β → EStateM ε σ α} (hx : Honors P x)
    (hf : ∀ b, Honors P (f b)) : Honors P (x >>= f) := fun s =>
  wp_seq (hx s) fun b _ hrel => goOn hrel (hf b)

theorem attempt {catchable : ε → Option δ} {x : EStateM ε σ α} (hx : Honors P x) :
    Honors P (Effect.attempt catchable x) := by
  intro s
  refine wp_attempt.mpr (wp_mono (hx s) (fun _ _ h => h) ?_)
  intro e s' h
  cases catchable e with
  | some d => exact P.within h
  | none => exact h

theorem iterate {stop : ε} {body : β → EStateM ε σ (β ⊕ α)} (hstop : ∀ s, P.fails s stop s)
    (h : ∀ b, Honors P (body b)) (n : ℕ) (b : β) : Honors P (Effect.iterate stop body n b) := by
  induction n generalizing b with
  | zero => exact throw hstop
  | succ n ih =>
    refine (h b).bind fun r => ?_
    cases r with
    | inl b' => exact ih b'
    | inr a => exact pure a

end Honors

end Effect
