import Bhtune.Library.Effect

/-!
# Sessions on a transactional store

A store holds values of a type `δ` that satisfy the constraints `V` of its schema.  A statement
computes a new value from the current one; the store refuses it when the constraints would be
broken, and it may also refuse any request for a reason of its own.  A session therefore carries,
next to the store, the refusals that are still to come: whatever they are, they are part of the
start state and no theorem looks at them.

* `statement` — one statement on its own: it happens whole or not at all;
* `transaction` — several statements that all take effect at a commit, or never;
* `Ends` — what a program leaves in the store, whatever is refused on the way;
* `ends_statement`, `ends_transaction` — their rules;
* `Answers` — what a program answers when nothing is refused, with rules of the same names.
-/

namespace Transaction

open Effect

variable {δ ε α β : Type} {V : δ → Prop}

/-- A store, and which of the coming requests it refuses. -/
structure Session (V : δ → Prop) where
  store : Subtype V
  refusals : List Bool

/-- How the body of a transaction ends. -/
inductive Verdict (ε α : Type) where
  | commit (a : α)
  | rollback (result : Except ε α)

/-- A request to the store that it may refuse. -/
def request (refused : ε) : EStateM ε (Session V) Unit := fun s =>
  match s.refusals with
  | [] => .ok () s
  | refuse :: rest =>
    if refuse then .error refused { s with refusals := rest }
    else .ok () { s with refusals := rest }

/-- Gives the store a new value unless that breaks its constraints. -/
def assign [DecidablePred V] (refused : ε) (change : δ → δ × α) : EStateM ε (Session V) α := fun s =>
  if h : V (change s.store.1).1 then
    .ok (change s.store.1).2 { s with store := ⟨(change s.store.1).1, h⟩ }
  else .error refused s

/-- One statement, with the value it reports. -/
def statement [DecidablePred V] (refused : ε) (change : δ → δ × α) : EStateM ε (Session V) α := do
  request refused
  assign refused change

/-- One query. -/
def query (refused : ε) (f : δ → α) : EStateM ε (Session V) α := do
  request refused
  return f (← get).store.1

/-- The store is put back to `store`. -/
def restore (store : Subtype V) : EStateM ε (Session V) Unit :=
  modify fun s => { s with store := store }

/-- `body` between a `BEGIN` and a `COMMIT` or `ROLLBACK`; a failure of any of them is a
rollback. -/
def transaction (refused : ε) (body : EStateM ε (Session V) (Verdict ε α)) :
    EStateM ε (Session V) α := do
  request refused
  let before ← get
  match ← attempt (fun e => some e) body with
  | .error e =>
    restore before.store
    throw e
  | .ok (.rollback result) =>
    restore before.store
    request refused
    match result with
    | .ok a => return a
    | .error e => throw e
  | .ok (.commit a) =>
    match ← attempt (fun e => some e) (request refused) with
    | .error e =>
      restore before.store
      throw e
    | .ok () => return a

/-! ### What a program leaves in the store -/

/-- From the store `d`, `x` ends in `Q` with a value or in `E` with a failure, whatever is
refused. -/
def Ends (x : EStateM ε (Session V) α) (Q : α → Subtype V → Prop) (E : ε → Subtype V → Prop)
    (d : Subtype V) : Prop :=
  ∀ refusals, wp x (fun a s => Q a s.store) (fun e s => E e s.store) ⟨d, refusals⟩

section Rules

variable {Q : α → Subtype V → Prop} {E : ε → Subtype V → Prop} {d : Subtype V}

theorem ends_pure {a : α} (h : Q a d) : Ends (pure a : EStateM ε (Session V) α) Q E d :=
  fun _ => h

theorem ends_throw {e : ε} (h : E e d) : Ends (throw e : EStateM ε (Session V) α) Q E d :=
  fun _ => h

theorem ends_seq {x : EStateM ε (Session V) β} {f : β → EStateM ε (Session V) α}
    {M : β → Subtype V → Prop} (hx : Ends x M E d) (hf : ∀ b d', M b d' → Ends (f b) Q E d') :
    Ends (x >>= f) Q E d := by
  intro refusals
  apply wp_seq (hx refusals)
  intro b s hs
  exact hf b s.store hs s.refusals

theorem ends_mono {x : EStateM ε (Session V) α} {Q' : α → Subtype V → Prop}
    {E' : ε → Subtype V → Prop} (h : Ends x Q E d) (hQ : ∀ a d', Q a d' → Q' a d')
    (hE : ∀ e d', E e d' → E' e d') : Ends x Q' E' d :=
  fun refusals => wp_mono (h refusals) (fun a s => hQ a s.store) (fun e s => hE e s.store)

theorem ends_request {Q : Unit → Subtype V → Prop} {refused : ε} (hE : E refused d)
    (hQ : Q () d) : Ends (request refused) Q E d := by
  intro refusals
  unfold wp request
  cases refusals with
  | nil => exact hQ
  | cons refuse rest =>
    dsimp only
    by_cases h : refuse = true
    · rw [if_pos h]
      exact hE
    · rw [if_neg h]
      exact hQ

/-- **The rule of a statement.** -/
theorem ends_statement [DecidablePred V] {refused : ε} {change : δ → δ × α} (hE : E refused d)
    (hQ : ∀ h : V (change d.1).1, Q (change d.1).2 ⟨(change d.1).1, h⟩) :
    Ends (statement refused change) Q E d := by
  apply ends_seq (M := fun _ d' => d' = d) (ends_request hE rfl)
  rintro _ d rfl refusals
  unfold wp assign
  dsimp only
  by_cases h : V (change d.1).1
  · rw [dif_pos h]
    exact hQ h
  · rw [dif_neg h]
    exact hE

theorem ends_query {refused : ε} {f : δ → α} (hE : E refused d) (hQ : Q (f d.1) d) :
    Ends (query (V := V) refused f) Q E d := by
  apply ends_seq (M := fun _ d' => d' = d) (ends_request hE rfl)
  rintro _ _ rfl refusals
  exact hQ

/-- **The rule of a transaction.**  Nothing it did stands unless it commits. -/
theorem ends_transaction {refused : ε} {body : EStateM ε (Session V) (Verdict ε α)}
    (hE : E refused d)
    (hbody : Ends body
      (fun v d' => match v with
        | .commit a => Q a d'
        | .rollback (.ok a) => Q a d
        | .rollback (.error e) => E e d)
      (fun e _ => E e d) d) :
    Ends (transaction refused body) Q E d := by
  apply ends_seq (M := fun _ d' => d' = d) (ends_request hE rfl)
  rintro _ d rfl refusals
  apply wp_bind.mpr
  show wp (attempt (fun e => some e) body >>= _) _ _ _
  apply wp_bind.mpr
  apply wp_attempt.mpr
  apply wp_mono (hbody refusals)
  · intro v s hv
    cases v with
    | commit a =>
      apply wp_bind.mpr
      apply wp_attempt.mpr
      have hcommit : Ends (V := V) (request refused) (fun _ d' => d' = s.store)
          (fun e _ => e = refused) s.store := ends_request rfl rfl
      apply wp_mono (hcommit s.refusals)
      · intro _ s' hs'
        show Q a s'.store
        rw [hs']
        exact hv
      · rintro _ s' rfl
        exact hE
    | rollback result =>
      have hrollback : Ends (V := V) (request refused) (fun _ d' => d' = d)
          (fun e d' => e = refused ∧ d' = d) d := ends_request ⟨rfl, rfl⟩ rfl
      apply wp_bind.mpr
      apply wp_bind.mpr
      apply wp_mono (hrollback s.refusals)
      · intro _ s' hs'
        cases result with
        | ok a =>
          show Q a s'.store
          rw [hs']
          exact hv
        | error e =>
          show E e s'.store
          rw [hs']
          exact hv
      · rintro _ s' ⟨rfl, hs'⟩
        rw [hs']
        exact hE
  · intro e s he
    exact he

end Rules

/-! ### What a program answers when nothing is refused -/

/-- From the store `d`, `x` answers in `Q` when no request is refused. -/
def Answers (x : EStateM ε (Session V) α) (Q : α → Subtype V → Prop) (d : Subtype V) : Prop :=
  ∃ a d', x ⟨d, []⟩ = .ok a ⟨d', []⟩ ∧ Q a d'

section Answering

variable {Q : α → Subtype V → Prop} {d : Subtype V}

theorem answers_pure {a : α} (h : Q a d) : Answers (pure a : EStateM ε (Session V) α) Q d :=
  ⟨a, d, rfl, h⟩

theorem answers_seq {x : EStateM ε (Session V) β} {f : β → EStateM ε (Session V) α}
    {M : β → Subtype V → Prop} (hx : Answers x M d) (hf : ∀ b d', M b d' → Answers (f b) Q d') :
    Answers (x >>= f) Q d := by
  obtain ⟨b, d₁, hrun, hb⟩ := hx
  obtain ⟨a, d₂, hrest, ha⟩ := hf b d₁ hb
  refine ⟨a, d₂, ?_, ha⟩
  show EStateM.bind x f ⟨d, []⟩ = _
  unfold EStateM.bind
  rw [hrun]
  exact hrest

theorem answers_mono {x : EStateM ε (Session V) α} {Q' : α → Subtype V → Prop}
    (h : Answers x Q d) (hQ : ∀ a d', Q a d' → Q' a d') : Answers x Q' d := by
  obtain ⟨a, d', hrun, ha⟩ := h
  exact ⟨a, d', hrun, hQ a d' ha⟩

/-- A statement that keeps the constraints answers. -/
theorem answers_statement [DecidablePred V] {refused : ε} {change : δ → δ × α}
    (h : V (change d.1).1) (hQ : Q (change d.1).2 ⟨(change d.1).1, h⟩) :
    Answers (statement refused change) Q d := by
  refine ⟨_, _, ?_, hQ⟩
  show assign refused change ⟨d, []⟩ = _
  unfold assign
  rw [dif_pos h]

theorem answers_query {refused : ε} {f : δ → α} (hQ : Q (f d.1) d) :
    Answers (query (V := V) refused f) Q d := ⟨f d.1, d, rfl, hQ⟩

/-- A transaction whose body commits answers. -/
theorem answers_transaction {refused : ε} {body : EStateM ε (Session V) (Verdict ε α)}
    (h : Answers body (fun v d' => ∃ a, v = .commit a ∧ Q a d') d) :
    Answers (transaction refused body) Q d := by
  obtain ⟨v, d', hrun, a, rfl, ha⟩ := h
  refine ⟨a, d', ?_, ha⟩
  have hbody : attempt (fun e => some e) body ⟨d, []⟩ = .ok (.ok (.commit a)) ⟨d', []⟩ := by
    unfold attempt
    rw [hrun]
  show EStateM.bind (attempt (fun e => some e) body) _ ⟨d, []⟩ = _
  unfold EStateM.bind
  rw [hbody]
  rfl

/-- What answers in `Q` ends in `Q'` when every end that answers does. -/
theorem answers_ends {x : EStateM ε (Session V) α} {Q' : α → Subtype V → Prop}
    {E : ε → Subtype V → Prop} (h : Answers x Q d) (hends : Ends x Q' E d) :
    Answers x (fun a d' => Q a d' ∧ Q' a d') d := by
  obtain ⟨a, d', hrun, ha⟩ := h
  refine ⟨a, d', hrun, ha, ?_⟩
  have hx := hends []
  unfold wp at hx
  rw [hrun] at hx
  exact hx

end Answering

end Transaction
