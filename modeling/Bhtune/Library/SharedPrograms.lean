import Mathlib.Data.List.Nodup
import Mathlib.Logic.Relation

/-!
# Programs that share a state

Several parties run programs over one state.  A program calls operations one after the other.
Each of them is atomic, and between two of them the other parties go on.  A party may be dropped
at any point; however it ends, it then gives up what it holds.  All of them may also be dropped at
once, when what they run on is started anew.

* `Prog` — a program over operations, as a monad;
* `Pool.Step` — the parties take turns;
* `Safe R G p Q s` — while the others take steps of `R`, `p` takes steps of `G` and ends in `Q`;
* `safe_call`, `safe_seq`, `Safe.keep` — its rules;
* `Agreement` — what a party guarantees is within what every other one relies on;
* `Agreement.reach`, `Agreement.step` — then every run keeps the invariant, and every step of a
  party is one it guarantees;
* `Pool.Runs.turn` — the step at which something ceases to hold;
* `Pool.runs_turns` — a schedule can be computed.
-/

namespace SharedPrograms

open Relation

/-- A program over operations, where those of `ε β` answer with a `β`. -/
inductive Prog (ε : Type → Type 1) (α : Type) : Type 1
  | done (a : α)
  | call {β : Type} (o : ε β) (next : β → Prog ε α)

variable {ε : Type → Type 1} {α β σ ι : Type}

namespace Prog

def bind (p : Prog ε α) (f : α → Prog ε β) : Prog ε β :=
  match p with
  | .done a => f a
  | .call o next => .call o fun b => (next b).bind f

instance instMonad : Monad (Prog ε) where
  pure := .done
  bind := .bind

/-- The program of one operation. -/
def perform (o : ε β) : Prog ε β := .call o .done

/-- At most `n` turns of the program alone, with the answers of a function; without an answer it
waits. -/
def turns (answer : ∀ {β : Type}, ε β → σ → Option (β × σ)) : ℕ → Prog ε α → σ → Prog ε α × σ
  | 0, p, s => (p, s)
  | _ + 1, .done a, s => (.done a, s)
  | n + 1, .call o next, s =>
    match answer o s with
    | none => (.call o next, s)
    | some (b, s') => turns answer n (next b) s'

end Prog

/-! ### One program among others -/

/-- What holds goes on to hold, whatever the others do. -/
def Stable (R : σ → σ → Prop) (P : σ → Prop) : Prop := ∀ s s', P s → R s s' → P s'

theorem Stable.star {R : σ → σ → Prop} {P : σ → Prop} (h : Stable R P) {s s' : σ} (hs : P s)
    (hrely : ReflTransGen R s s') : P s' := by
  induction hrely with
  | refl => exact hs
  | tail _ hstep ih => exact h _ _ ih hstep

theorem Stable.and {R : σ → σ → Prop} {P P' : σ → Prop} (h : Stable R P) (h' : Stable R P') :
    Stable R fun s => P s ∧ P' s :=
  fun s s' hs hstep => ⟨h s s' hs.1 hstep, h' s s' hs.2 hstep⟩

/-- From `s`, while the others take steps of `R`, each operation of the program is a step of `G`,
and the program ends in `Q`. -/
def Safe (exec : ∀ {β : Type}, ε β → σ → β → σ → Prop) (R G : σ → σ → Prop) :
    Prog ε α → (α → σ → Prop) → σ → Prop
  | .done a, Q, s => Q a s
  | .call o next, Q, s => ∀ s', ReflTransGen R s s' → ∀ b s'', exec o s' b s'' →
      G s' s'' ∧ Safe exec R G (next b) Q s''

section Rules

variable {exec : ∀ {β : Type}, ε β → σ → β → σ → Prop} {R G : σ → σ → Prop}
variable {Q : α → σ → Prop} {s s' : σ}

/-- What the others do in between does no harm. -/
theorem Safe.rely {p : Prog ε α} (hQ : ∀ a, Stable R (Q a)) (h : Safe exec R G p Q s)
    (hrely : R s s') : Safe exec R G p Q s' := by
  cases p with
  | done a => exact hQ a s s' h hrely
  | call o next => exact fun s'' h' => h s'' (h'.head hrely)

/-- The rule of one operation: `P` holds when it is called. -/
theorem safe_call {o : ε β} {next : β → Prog ε α} {P : σ → Prop} (hstable : Stable R P) (h : P s)
    (hexec : ∀ s b s', P s → exec o s b s' → G s s' ∧ Safe exec R G (next b) Q s') :
    Safe exec R G (.call o next) Q s :=
  fun _ hrely b s'' hstep => hexec _ b s'' (hstable.star h hrely) hstep

theorem safe_seq {p : Prog ε β} {f : β → Prog ε α} {M : β → σ → Prop} (hp : Safe exec R G p M s)
    (hf : ∀ b s, M b s → Safe exec R G (f b) Q s) : Safe exec R G (p >>= f) Q s := by
  induction p generalizing s with
  | done b => exact hf b s hp
  | call o next ih =>
    intro s' hrely b s'' hstep
    obtain ⟨hG, hnext⟩ := hp s' hrely b s'' hstep
    exact ⟨hG, ih b hnext⟩

/-- **The frame rule**: what neither the others nor the program itself undo holds at its end. -/
theorem Safe.keep {p : Prog ε α} {P : σ → Prop} (hR : Stable R P) (hG : Stable G P)
    (h : Safe exec R G p Q s) (hs : P s) : Safe exec R G p (fun a s => P s ∧ Q a s) s := by
  induction p generalizing s with
  | done a => exact ⟨hs, h⟩
  | call o next ih =>
    intro s' hrely b s'' hstep
    obtain ⟨hguarantee, hnext⟩ := h s' hrely b s'' hstep
    exact ⟨hguarantee, ih b hnext (hG _ _ (hR.star hs hrely) hguarantee)⟩

theorem Safe.mono {p : Prog ε α} {Q' : α → σ → Prop} (h : Safe exec R G p Q s)
    (hQ : ∀ a s, Q a s → Q' a s) : Safe exec R G p Q' s := by
  induction p generalizing s with
  | done a => exact hQ a s h
  | call o next ih =>
    intro s' hrely b s'' hstep
    obtain ⟨hguarantee, hnext⟩ := h s' hrely b s'' hstep
    exact ⟨hguarantee, ih b hnext⟩

end Rules

/-! ### Programs that may give up early -/

section Early

variable {η : Type} {exec : ∀ {β : Type}, ε β → σ → β → σ → Prop} {R G : σ → σ → Prop}
variable {Q : α → σ → Prop} {s : σ}

/-- `Q`, where the program gives a value. -/
def unlessError (Q : α → σ → Prop) (r : Except η α) (s : σ) : Prop := ∀ a, r = .ok a → Q a s

/-- `Safe` for a program that may give up, with `Q` where it gives a value. -/
def SafeEx (exec : ∀ {β : Type}, ε β → σ → β → σ → Prop) (R G : σ → σ → Prop)
    (p : ExceptT η (Prog ε) α) (Q : α → σ → Prop) (s : σ) : Prop :=
  Safe exec R G p.run (unlessError Q) s

theorem safeEx_pure {a : α} (h : Q a s) :
    SafeEx exec R G (pure a : ExceptT η (Prog ε) α) Q s := by
  rintro _ ⟨⟩
  exact h

theorem safeEx_throw {e : η} : SafeEx exec R G (throw e : ExceptT η (Prog ε) α) Q s := by
  rintro _ ⟨⟩

theorem safeEx_lift {p : Prog ε α} (h : Safe exec R G p Q s) :
    SafeEx exec R G (liftM p : ExceptT η (Prog ε) α) Q s := by
  refine safe_seq h fun a s hQ => ?_
  rintro _ ⟨⟩
  exact hQ

theorem safeEx_seq {p : ExceptT η (Prog ε) β} {f : β → ExceptT η (Prog ε) α} {M : β → σ → Prop}
    (hp : SafeEx exec R G p M s) (hf : ∀ b s, M b s → SafeEx exec R G (f b) Q s) :
    SafeEx exec R G (p >>= f) Q s := by
  refine safe_seq hp fun r s' hr => ?_
  cases r with
  | ok b => exact hf b s' (hr b rfl)
  | error e => rintro _ ⟨⟩

theorem SafeEx.keep {p : ExceptT η (Prog ε) α} {P : σ → Prop} (hR : Stable R P) (hG : Stable G P)
    (h : SafeEx exec R G p Q s) (hs : P s) : SafeEx exec R G p (fun a s => P s ∧ Q a s) s :=
  (Safe.keep hR hG h hs).mono fun _ _ hkept a heq => ⟨hkept.1, hkept.2 a heq⟩

end Early

/-! ### All of them -/

/-- The parties: what an operation does when a party calls it, which programs a party may start
with, what becomes of the state when a party is gone, what happens besides, and what becomes of the
state when all parties are gone at once. -/
structure Parties (ε : Type → Type 1) (σ ι : Type) where
  exec : ι → ∀ {β : Type}, ε β → σ → β → σ → Prop
  starts : ι → Prog ε Unit → Prop
  leave : ι → σ → σ
  besides : σ → σ → Prop
  restart : σ → σ → Prop

/-- The state, and what each party still has to do. -/
structure Pool (ε : Type → Type 1) (σ ι : Type) where
  state : σ
  running : List (ι × Prog ε Unit)

/-- The parties take turns; a step is that of a party, of a new one, or of none. -/
inductive Pool.Step (M : Parties ε σ ι) : Pool ε σ ι → Option ι → Pool ε σ ι → Prop
  | start {s : σ} {running : List (ι × Prog ε Unit)} {i : ι} {p : Prog ε Unit}
      (hnew : i ∉ running.map Prod.fst) (hstarts : M.starts i p) :
      Step M ⟨s, running⟩ none ⟨s, (i, p) :: running⟩
  | call {β : Type} {s s' : σ} {before after : List (ι × Prog ε Unit)} {i : ι} {o : ε β}
      {next : β → Prog ε Unit} {b : β} (hexec : M.exec i o s b s') :
      Step M ⟨s, before ++ (i, .call o next) :: after⟩ (some i)
        ⟨s', before ++ (i, next b) :: after⟩
  | gone {s : σ} {before after : List (ι × Prog ε Unit)} {i : ι} {p : Prog ε Unit} :
      Step M ⟨s, before ++ (i, p) :: after⟩ (some i) ⟨M.leave i s, before ++ after⟩
  | besides {s s' : σ} {running : List (ι × Prog ε Unit)} (h : M.besides s s') :
      Step M ⟨s, running⟩ none ⟨s', running⟩
  | restart {s s' : σ} {running : List (ι × Prog ε Unit)} (h : M.restart s s') :
      Step M ⟨s, running⟩ none ⟨s', []⟩

/-- What each party guarantees is within what every other one relies on, and keeps `I`. -/
structure Agreement (M : Parties ε σ ι) (I : σ → Prop) (R G : ι → σ → σ → Prop) : Prop where
  starts : ∀ {i p s}, I s → M.starts i p → Safe (M.exec i) (R i) (G i) p (fun _ _ => True) s
  leave : ∀ {i s}, I s → G i s (M.leave i s)
  keeps : ∀ {i s s'}, I s → G i s s' → I s'
  besides : ∀ {s s'}, I s → M.besides s s' → I s'
  restart : ∀ {s s'}, I s → M.restart s s' → I s'
  others : ∀ {i j s s'}, i ≠ j → I s → G i s s' → R j s s'
  besidesOthers : ∀ {j s s'}, I s → M.besides s s' → R j s s'

/-- Where a run may be: `I` holds, no party is there twice, and each is safe. -/
structure Pool.Sound (M : Parties ε σ ι) (I : σ → Prop) (R G : ι → σ → σ → Prop)
    (pool : Pool ε σ ι) : Prop where
  holds : I pool.state
  once : (pool.running.map Prod.fst).Nodup
  safe : ∀ q ∈ pool.running, Safe (M.exec q.1) (R q.1) (G q.1) q.2 (fun _ _ => True) pool.state

section Runs

variable {M : Parties ε σ ι} {I : σ → Prop} {R G : ι → σ → σ → Prop} {pool pool' : Pool ε σ ι}

/-- Nobody runs. -/
def Pool.idle (s : σ) : Pool ε σ ι := ⟨s, []⟩

theorem Pool.sound_idle {s : σ} (h : I s) : Pool.Sound M I R G (Pool.idle s) where
  holds := h
  once := List.nodup_nil
  safe := fun _ hq => absurd hq List.not_mem_nil

/-- In a list without repetitions an entry differs from those around it. -/
theorem ne_of_nodup {before after : List (ι × Prog ε Unit)} {i : ι} {p : Prog ε Unit}
    (h : ((before ++ (i, p) :: after).map Prod.fst).Nodup) {q : ι × Prog ε Unit}
    (hq : q ∈ before ++ after) : i ≠ q.1 := by
  rintro rfl
  rw [List.map_append, List.map_cons] at h
  have hmem : q.1 ∈ before.map Prod.fst ++ after.map Prod.fst := by
    rw [← List.map_append]
    exact List.mem_map_of_mem hq
  exact (List.nodup_middle.mp h).notMem hmem

theorem true_stable {r : σ → σ → Prop} (_ : Unit) : Stable r fun _ => True :=
  fun _ _ _ _ => trivial

/-- **One step.**  It is within what its party guarantees, and leaves every party safe. -/
theorem Agreement.step (h : Agreement M I R G) (hsound : pool.Sound M I R G) {who : Option ι}
    (hstep : Pool.Step M pool who pool') :
    pool'.Sound M I R G ∧ (∀ i, who = some i → G i pool.state pool'.state) := by
  obtain ⟨hI, hnodup, hsafe⟩ := hsound
  cases hstep with
  | @start s running i p hnew hstarts =>
    refine ⟨⟨hI, List.nodup_cons.mpr ⟨hnew, hnodup⟩, ?_⟩, fun _ h => by cases h⟩
    intro q hq
    rcases List.mem_cons.mp hq with rfl | hq
    · exact h.starts hI hstarts
    · exact hsafe q hq
  | @call β s s' before after i o next b hexec =>
    obtain ⟨hG, hnext⟩ := hsafe (i, .call o next)
      (List.mem_append_right _ List.mem_cons_self) s .refl b s' hexec
    refine ⟨⟨h.keeps hI hG, ?_, ?_⟩, ?_⟩
    · rw [List.map_append, List.map_cons] at hnodup ⊢
      exact hnodup
    · intro q hq
      rcases List.mem_append.mp hq with hbefore | hafter
      · refine (hsafe q (List.mem_append_left _ hbefore)).rely true_stable ?_
        exact h.others (ne_of_nodup hnodup (List.mem_append_left _ hbefore)) hI hG
      · rcases List.mem_cons.mp hafter with rfl | hafter
        · exact hnext
        · refine (hsafe q (List.mem_append_right _ (List.mem_cons_of_mem _ hafter))).rely true_stable ?_
          exact h.others (ne_of_nodup hnodup (List.mem_append_right _ hafter)) hI hG
    · rintro _ ⟨⟩
      exact hG
  | @gone s before after i p =>
    have hG := h.leave (i := i) hI
    refine ⟨⟨h.keeps hI hG, ?_, ?_⟩, ?_⟩
    · rw [List.map_append, List.map_cons] at hnodup
      rw [List.map_append]
      exact (List.nodup_middle.mp hnodup).of_cons
    · intro q hq
      have hmem : q ∈ before ++ (i, p) :: after := by
        rcases List.mem_append.mp hq with hbefore | hafter
        · exact List.mem_append_left _ hbefore
        · exact List.mem_append_right _ (List.mem_cons_of_mem _ hafter)
      exact (hsafe q hmem).rely true_stable (h.others (ne_of_nodup hnodup hq) hI hG)
    · rintro _ ⟨⟩
      exact hG
  | @besides s s' running hbesides =>
    refine ⟨⟨h.besides hI hbesides, hnodup, ?_⟩, fun _ h => by cases h⟩
    exact fun q hq => (hsafe q hq).rely true_stable (h.besidesOthers hI hbesides)
  | @restart s s' running hrestart =>
    exact ⟨Pool.sound_idle (h.restart hI hrestart), fun _ h => by cases h⟩

/-- A run of any number of steps. -/
def Pool.Runs (M : Parties ε σ ι) : Pool ε σ ι → Pool ε σ ι → Prop :=
  ReflTransGen fun pool pool' => ∃ who, Pool.Step M pool who pool'

/-- **Every run.**  From a state with `I` the parties stay sound. -/
theorem Agreement.reach (h : Agreement M I R G) {s : σ} (hs : I s)
    (hrun : Pool.Runs M (Pool.idle s) pool) : pool.Sound M I R G := by
  induction hrun with
  | refl => exact Pool.sound_idle hs
  | tail _ hstep ih =>
    obtain ⟨who, hstep⟩ := hstep
    exact (h.step ih hstep).1

/-- Turns of one party are steps. -/
theorem Pool.runs_turns {answer : ∀ {β : Type}, ε β → σ → Option (β × σ)} {i : ι}
    (hanswer : ∀ {β : Type} (o : ε β) s b s', answer o s = some (b, s') → M.exec i o s b s') (n : ℕ)
    {before after : List (ι × Prog ε Unit)} {p : Prog ε Unit} {s : σ} :
    Pool.Runs M ⟨s, before ++ (i, p) :: after⟩
      ⟨(p.turns answer n s).2, before ++ (i, (p.turns answer n s).1) :: after⟩ := by
  induction n generalizing p s with
  | zero => exact .refl
  | succ n ih =>
    cases p with
    | done a => exact .refl
    | call o next =>
      unfold Prog.turns
      cases hb : answer o s with
      | none => exact .refl
      | some result =>
        obtain ⟨b, s'⟩ := result
        exact .head ⟨some i, .call (hanswer o s b s' hb)⟩ ih

/-- What holds at first and not at the end ceases to hold at some step. -/
theorem Pool.Runs.turn {P : Pool ε σ ι → Prop} (h : Pool.Runs M pool pool') (hP : P pool)
    (hnot : ¬P pool') :
    ∃ before who after, Pool.Runs M pool before ∧ Pool.Step M before who after ∧
      Pool.Runs M after pool' ∧ P before ∧ ¬P after := by
  induction h with
  | refl => exact absurd hP hnot
  | @tail mid last hruns hstep ih =>
    by_cases hmid : P mid
    · obtain ⟨who, hwho⟩ := hstep
      exact ⟨mid, who, last, hruns, hwho, .refl, hmid, hnot⟩
    · obtain ⟨before, who, after, hto, hturn, hfrom, hbefore, hafter⟩ := ih hmid
      exact ⟨before, who, after, hto, hturn, hfrom.tail hstep, hbefore, hafter⟩

end Runs

end SharedPrograms
