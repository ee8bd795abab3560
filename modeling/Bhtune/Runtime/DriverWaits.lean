import Bhtune.Runtime.Poll

/-!
# Waiting for the driver

A driver call is awaited in one of three ways: in a `bounded_driver_call`, as a part of the branch
of a `select!` against Ctrl+C and a deadline, or on its own.

* `DriverCall` — a call with the state it is made in and what its wait is raced against;
* `DriverCall.Prompt` — the wait is over after the operation timeout, and a delivered interrupt
  ends it;
* `DriverCall.Attended` — what that takes of the way the call is awaited;
* `Passage` — the driver calls made between two states of a run;
* `Attends` — a program that leads from a state to the next by a passage, and awaits a call still
  when it ends only if the driver never answers.
-/

namespace Bhtune

open Effect EventLog

/-! ### Calls and their waits -/

/-- What the wait for a driver call is raced against. -/
inductive Guarding where
  /-- Ctrl+C, the operation timeout and perhaps a `timeout_at`. -/
  | operation (limit : Option Instant)
  /-- Ctrl+C and the deadline of the `select!` that the call is a part of. -/
  | scope (deadline : Instant)
  /-- Nothing. -/
  | bare

/-- A driver call: the state it is made in, what its wait is raced against, and its record. -/
structure DriverCall where
  before : Sys
  guarding : Guarding
  event : Event

/-- A driver read or write. -/
def Event.IsCall : Event → Prop
  | .read _ => True
  | .write _ => True
  | _ => False

instance : DecidablePred Event.IsCall
  | .read _ => .isTrue trivial
  | .write _ => .isTrue trivial
  | .db _ _ => .isFalse id
  | .mark _ => .isFalse id

/-- The driver call was awaited from `started` to `ended`. -/
def Event.Spans (started ended : Instant) : Event → Prop
  | .read call => call.started = started ∧ call.ended = ended
  | .write call => call.started = started ∧ call.ended = ended
  | _ => False

/-- Which calls are awaited in which way. -/
def Guarding.Serves : Guarding → Event → Prop
  | .operation _, .read _ => True
  | .operation _, .write call =>
    (∃ tolerance pending, call.origin = .relay tolerance pending) ∨
      ∃ tolerance, call.origin = .restoreMv tolerance
  | .scope _, .write call =>
    call.origin = .restoreMode ∨ call.origin = .restoreSetpoint ∨ call.origin = .restoreModeAttribute
  | .bare, .read call => call.kind = .first
  | .bare, .write call =>
    call.origin = .programMode ∨ call.origin = .manualMode ∨ call.origin = .pid
  | _, _ => False

namespace DriverCall

/-- When the driver answers. -/
def answered (c : DriverCall) : Option Instant :=
  c.before.nextAnswer.latency.map (c.before.clock + ·)

/-- The branches of the wait. -/
def branches (opTimeoutSecs : ℕ) (c : DriverCall) : List (Option Instant) :=
  match c.guarding with
  | .operation limit =>
    [c.answered, c.before.nextSignal, some (c.before.clock + durationSecs opTimeoutSecs), limit]
  | .scope deadline => [c.answered, c.before.nextSignal, some deadline]
  | .bare => [c.answered]

/-- The wait ends at `t`. -/
def WaitsUntil (opTimeoutSecs : ℕ) (c : DriverCall) (t : Instant) : Prop :=
  ∃ first, earliest (c.branches opTimeoutSecs) = some first ∧ t = max c.before.clock first

/-- The wait ends, no later than the operation timeout, and no later than the next interrupt that
the run has not seen yet. -/
def Prompt (opTimeoutSecs : ℕ) (c : DriverCall) : Prop :=
  ∃ t, c.WaitsUntil opTimeoutSecs t ∧ t ≤ c.before.clock + durationSecs opTimeoutSecs ∧
    ∀ signal, c.before.nextSignal = some signal → t ≤ max c.before.clock signal

/-- A call in a `bounded_driver_call` needs nothing more.  A call under a deadline has to be
answered or interrupted within the operation timeout, or the deadline is no later.  A call on its own
has to be answered within the operation timeout and before an interrupt. -/
def Attended (opTimeoutSecs : ℕ) (c : DriverCall) : Prop :=
  match c.guarding with
  | .operation _ => True
  | .scope deadline =>
    ∃ t, (c.answered = some t ∨ c.before.nextSignal = some t ∨ deadline = t) ∧
      t ≤ c.before.clock + durationSecs opTimeoutSecs
  | .bare =>
    ∃ t, c.answered = some t ∧ t ≤ c.before.clock + durationSecs opTimeoutSecs ∧
      ∀ signal, c.before.nextSignal = some signal → t ≤ max c.before.clock signal

/-- The call is made in `before` and its wait ends in `s'`: at the instant it ends, or later by the
scheduling delay. -/
structure Made (opTimeoutSecs : ℕ) (c : DriverCall) (s' : Sys) : Prop where
  serves : c.guarding.Serves c.event
  environment : s'.environment = c.before.environment
  waits : ∃ t, c.WaitsUntil opTimeoutSecs t ∧ s'.clock = t + c.before.nextAnswer.lag
  spans : c.event.Spans c.before.clock s'.clock
  trace : s'.trace = c.before.trace ++ [c.event]

end DriverCall

/-! ### When a wait is prompt -/

section Prompt

variable {opTimeoutSecs : ℕ} {c : DriverCall}

/-- **When a wait is prompt.** -/
theorem DriverCall.prompt_iff (c : DriverCall) :
    c.Prompt opTimeoutSecs ↔ c.Attended opTimeoutSecs := by
  obtain ⟨before, guarding, event⟩ := c
  cases guarding with
  | operation limit =>
    refine ⟨fun _ => trivial, fun _ => ?_⟩
    let c : DriverCall := ⟨before, .operation limit, event⟩
    have htimeout : some (before.clock + durationSecs opTimeoutSecs) ∈ c.branches opTimeoutSecs := by
      simp [branches, c]
    obtain ⟨first, hfirst⟩ := earliest_isSome htimeout
    have hle := earliest_le hfirst htimeout
    refine ⟨max before.clock first, ⟨first, hfirst, rfl⟩, ?_, ?_⟩
    · exact max_le (Nat.le_add_right _ _) hle
    · intro signal hsignal
      have hmem : some signal ∈ c.branches opTimeoutSecs := by simp [branches, c, ← hsignal]
      exact max_le_max_left _ (earliest_le hfirst hmem)
  | scope deadline =>
    let c : DriverCall := ⟨before, .scope deadline, event⟩
    constructor
    · rintro ⟨t, ⟨first, hfirst, rfl⟩, hle, _⟩
      have hmem := earliest_mem hfirst
      simp only [branches, List.mem_cons, List.not_mem_nil, or_false] at hmem
      refine ⟨first, ?_, (le_max_right _ _).trans hle⟩
      rcases hmem with hanswer | hsignal | hdeadline
      · exact .inl hanswer.symm
      · exact .inr (.inl hsignal.symm)
      · exact .inr (.inr (Option.some.inj hdeadline).symm)
    · rintro ⟨t, hready, hle⟩
      have hmem : some t ∈ c.branches opTimeoutSecs := by
        rcases hready with hanswer | hsignal | hdeadline
        · simp [branches, c, ← hanswer]
        · simp [branches, c, ← hsignal]
        · simp [branches, c, hdeadline]
      obtain ⟨first, hfirst⟩ := earliest_isSome hmem
      have hfirst_le := earliest_le hfirst hmem
      refine ⟨max before.clock first, ⟨first, hfirst, rfl⟩, ?_, ?_⟩
      · exact max_le (Nat.le_add_right _ _) (hfirst_le.trans hle)
      · intro signal hsignal
        have hmem : some signal ∈ c.branches opTimeoutSecs := by simp [branches, c, ← hsignal]
        exact max_le_max_left _ (earliest_le hfirst hmem)
  | bare =>
    let c : DriverCall := ⟨before, .bare, event⟩
    constructor
    · rintro ⟨t, ⟨first, hfirst, rfl⟩, hle, hsignal⟩
      have hmem := earliest_mem hfirst
      simp only [branches, List.mem_cons, List.not_mem_nil, or_false] at hmem
      exact ⟨first, hmem.symm, (le_max_right _ _).trans hle, fun signal h =>
        (le_max_right _ _).trans (hsignal signal h)⟩
    · rintro ⟨t, hanswer, hle, hsignal⟩
      have hearliest : earliest (c.branches opTimeoutSecs) = some t := by
        show earliest [c.answered] = some t
        rw [show c.answered = some t from hanswer]
        rfl
      refine ⟨max before.clock t, ⟨t, hearliest, rfl⟩, ?_, fun signal h => ?_⟩
      · exact max_le (Nat.le_add_right _ _) hle
      · exact max_le (le_max_left _ _) (hsignal signal h)

end Prompt

/-- A prompt call is on record with no more than the operation timeout and the scheduling delay. -/
theorem DriverCall.Made.ended_le {opTimeoutSecs : ℕ} {c : DriverCall} {s' : Sys}
    {started ended : Instant} (hmade : c.Made opTimeoutSecs s') (hprompt : c.Prompt opTimeoutSecs)
    (hspans : c.event.Spans started ended) :
    ended ≤ started + durationSecs opTimeoutSecs + c.before.nextAnswer.lag := by
  obtain ⟨t, ⟨first, hfirst, rfl⟩, hle, _⟩ := hprompt
  obtain ⟨_, ⟨first', hfirst', rfl⟩, hclock⟩ := hmade.waits
  cases hfirst.symm.trans hfirst'
  have hstarted : started = c.before.clock ∧ ended = s'.clock := by
    have hmade := hmade.spans
    cases hevent : c.event with
    | read call =>
      rw [hevent] at hspans hmade
      exact ⟨hspans.1.symm.trans hmade.1, hspans.2.symm.trans hmade.2⟩
    | write call =>
      rw [hevent] at hspans hmade
      exact ⟨hspans.1.symm.trans hmade.1, hspans.2.symm.trans hmade.2⟩
    | db op result =>
      rw [hevent] at hspans
      exact hspans.elim
    | mark m =>
      rw [hevent] at hspans
      exact hspans.elim
  rw [hstarted.1, hstarted.2, hclock]
  exact Nat.add_le_add_right hle _

/-! ### The calls of a run -/

/-- The program goes on, and nothing that it records is a driver call. -/
def Sys.Quiet (s s' : Sys) : Prop :=
  s'.environment = s.environment ∧ Appends (fun e => ¬e.IsCall) s.trace s'.trace

/-- The driver calls, one after the other, that are made between two states. -/
inductive Passage (opTimeoutSecs : ℕ) : Sys → List DriverCall → Sys → Prop
  | nil (s : Sys) : Passage opTimeoutSecs s [] s
  | quiet {s s' s'' : Sys} {calls : List DriverCall} (h : Passage opTimeoutSecs s calls s')
      (hquiet : s'.Quiet s'') : Passage opTimeoutSecs s calls s''
  | call {s s' : Sys} {calls : List DriverCall} {c : DriverCall}
      (h : Passage opTimeoutSecs s calls c.before) (hmade : c.Made opTimeoutSecs s') :
      Passage opTimeoutSecs s (calls ++ [c]) s'

namespace Passage

variable {opTimeoutSecs : ℕ} {s s' s'' : Sys} {calls calls' : List DriverCall}

theorem trans (h : Passage opTimeoutSecs s calls s') (h' : Passage opTimeoutSecs s' calls' s'') :
    Passage opTimeoutSecs s (calls ++ calls') s'' := by
  induction h' with
  | nil => simpa using h
  | quiet _ hquiet ih => exact ih.quiet hquiet
  | call _ hmade ih =>
    rw [← List.append_assoc]
    exact ih.call hmade

theorem environment (h : Passage opTimeoutSecs s calls s') : s'.environment = s.environment := by
  induction h with
  | nil => rfl
  | quiet _ hquiet ih => exact hquiet.1.trans ih
  | call _ hmade ih => exact hmade.environment.trans ih

theorem made (h : Passage opTimeoutSecs s calls s') :
    ∀ c ∈ calls, c.before.environment = s.environment ∧ ∃ s', c.Made opTimeoutSecs s' := by
  induction h with
  | nil => simp
  | quiet _ _ ih => exact ih
  | call h hmade ih =>
    intro c hc
    rcases List.mem_append.mp hc with hc | hc
    · exact ih c hc
    · rw [List.mem_singleton.mp hc]
      exact ⟨h.environment, _, hmade⟩

/-- The calls are all that the run has on record of the driver. -/
theorem recorded (h : Passage opTimeoutSecs s calls s') :
    ∃ new, s'.trace = s.trace ++ new ∧
      ∀ e, e.IsCall → (e ∈ new ↔ ∃ c ∈ calls, c.event = e) := by
  induction h with
  | nil => exact ⟨[], by simp, by simp⟩
  | quiet _ hquiet ih =>
    obtain ⟨new, hnew, hcalls⟩ := ih
    obtain ⟨more, hmore, hsilent⟩ := hquiet.2
    refine ⟨new ++ more, by rw [hmore, hnew, List.append_assoc], fun e he => ?_⟩
    rw [List.mem_append, hcalls e he]
    constructor
    · rintro (h | h)
      · exact h
      · exact absurd he (hsilent e h)
    · exact .inl
  | @call s' calls c _ hmade ih =>
    obtain ⟨new, hnew, hcalls⟩ := ih
    refine ⟨new ++ [c.event], by rw [hmade.trace, hnew, List.append_assoc], fun e he => ?_⟩
    rw [List.mem_append, hcalls e he]
    simp only [List.mem_append, List.mem_singleton, or_and_right, exists_or, exists_eq_left]
    exact or_congr_right eq_comm

end Passage

/-- What a run is still awaiting when it ends with the fault: nothing, unless it waits for an answer
that never comes, of the driver or of the database. -/
def Fault.Awaiting : Fault → Sys → Option DriverCall → Prop
  | .hung, s, some c =>
    c.before = s ∧ c.guarding = .bare ∧ c.guarding.Serves c.event ∧ c.answered = none
  | .hung, s, none => s.nextAnswer.latency = none
  | _, _, awaited => awaited = none

/-- The program makes its driver calls as they are to be awaited. -/
def attending (opTimeoutSecs : ℕ) : Promise Sys Fault where
  rel s s' := ∃ calls, Passage opTimeoutSecs s calls s'
  refl := fun s => ⟨[], .nil s⟩
  trans := fun h h' => by
    obtain ⟨calls, h⟩ := h
    obtain ⟨calls', h'⟩ := h'
    exact ⟨calls ++ calls', h.trans h'⟩
  fails s f s' := ∃ calls awaited, Passage opTimeoutSecs s calls s' ∧ f.Awaiting s' awaited
  back := fun hrel hfails => by
    obtain ⟨calls, h⟩ := hrel
    obtain ⟨calls', awaited, h', hawaiting⟩ := hfails
    exact ⟨calls ++ calls', awaited, h.trans h', hawaiting⟩
  within := fun hfails => by
    obtain ⟨calls, _, h, _⟩ := hfails
    exact ⟨calls, h⟩

/-- A part of a run. -/
abbrev Attends {α : Type} (opTimeoutSecs : ℕ) (x : Io α) : Prop := Honors (attending opTimeoutSecs) x

/-! ### Quiet steps -/

section Steps

variable {α β : Type} {opTimeoutSecs : ℕ} {s s' : Sys}

theorem Sys.Quiet.attends (h : s.Quiet s') : (attending opTimeoutSecs).rel s s' :=
  ⟨[], (Passage.nil s).quiet h⟩

theorem Sys.Quiet.of_same (henvironment : s'.environment = s.environment)
    (htrace : s'.trace = s.trace) : s.Quiet s' :=
  ⟨henvironment, [], by rw [htrace, List.append_nil], by simp⟩

theorem Sys.Quiet.of_event {e : Event} (henvironment : s'.environment = s.environment)
    (htrace : s'.trace = s.trace ++ [e]) (he : ¬e.IsCall) : s.Quiet s' :=
  ⟨henvironment, [e], htrace, by simpa using he⟩

theorem attends_now : Attends opTimeoutSecs now := fun s => (attending opTimeoutSecs).refl s

/-- A fault with which nothing is left waiting. -/
theorem awaiting_none {f : Fault} (h : f ≠ .hung) : f.Awaiting s none := by
  cases f with
  | hung => exact absurd rfl h
  | err _ => rfl
  | cut _ => rfl
  | panic => rfl
  | outOfFuel => rfl

theorem fails_of_rel {f : Fault} (h : f ≠ .hung) (hrel : (attending opTimeoutSecs).rel s s') :
    (attending opTimeoutSecs).fails s f s' := by
  obtain ⟨calls, hpassage⟩ := hrel
  exact ⟨calls, none, hpassage, awaiting_none h⟩

theorem attends_throw {f : Fault} (h : f ≠ .hung) : Attends opTimeoutSecs (throw f : Io α) :=
  .throw fun s => fails_of_rel h ((attending opTimeoutSecs).refl s)

theorem attends_bail (e : Text) : Attends opTimeoutSecs (bail e : Io α) := attends_throw nofun

theorem attends_tryErr {x : Io α} (h : Attends opTimeoutSecs x) :
    Attends opTimeoutSecs (tryErr x) := h.attempt

theorem attends_requireInvariant (x : Option α) (message : String) :
    Attends opTimeoutSecs (requireInvariant x message) := by
  cases x with
  | none => exact attends_bail _
  | some a => exact .pure a

theorem attends_liftResult (r : Except Text α) : Attends opTimeoutSecs (liftResult r) := by
  cases r with
  | ok a => exact .pure a
  | error e => exact attends_bail e

theorem attends_mark (m : Mark) : Attends opTimeoutSecs (mark m) :=
  Honors.modify fun _ => Sys.Quiet.attends (.of_event rfl rfl id)

theorem attends_modifyProgram (f : Program → Program) :
    Attends opTimeoutSecs (modifyProgram f) :=
  Honors.modify fun _ => Sys.Quiet.attends (.of_same rfl rfl)

theorem attends_modifyTracker (f : MvActuationTracker → MvActuationTracker) :
    Attends opTimeoutSecs (modifyTracker f) := attends_modifyProgram _

theorem attends_setPending (pending : Option PendingMvActuation) :
    Attends opTimeoutSecs (setPending pending) := attends_modifyTracker _

theorem attends_seeSignals : Attends opTimeoutSecs (modify Sys.seeSignals : Io Unit) :=
  Honors.modify fun _ => Sys.Quiet.attends (.of_same rfl rfl)

theorem attends_consult : Attends opTimeoutSecs consult := by
  intro s
  show (attending opTimeoutSecs).rel s { s with cursor := s.cursor + 1 }
  exact Sys.Quiet.attends (.of_same rfl rfl)

theorem attends_utcNow : Attends opTimeoutSecs utcNow := attends_consult.bind fun _ => .pure _

theorem attends_getPending : Attends opTimeoutSecs getPending := Honors.get.bind fun _ => .pure _

/-- A wait ends with its first branch, or it has none. -/
theorem wake_ends (ready : List (Option Instant)) :
    wp (wake ready)
      (fun a s' => a = s.nextAnswer ∧ s'.environment = s.environment ∧ s'.trace = s.trace ∧
        s'.signalsSeen = s.signalsSeen ∧
        ∃ first, earliest ready = some first ∧ s'.clock = max s.clock first + s.nextAnswer.lag)
      (fun f s' => f = .hung ∧ s' = s ∧ earliest ready = none) s := by
  refine wp_bind.mpr (wp_get.mpr ?_)
  cases hfirst : earliest ready with
  | none => exact ⟨rfl, rfl, rfl⟩
  | some first => exact ⟨rfl, rfl, rfl, rfl, first, rfl, rfl⟩

/-- One of the ready branches is taken. -/
theorem chooseReady_isSome {t r : Instant} {b : β} (pick : ℕ)
    {branches : List (β × Option Instant)} (hmem : (b, some r) ∈ branches) (hready : r ≤ t) :
    ∃ b', chooseReady t pick branches = some b' := by
  have hmem : b ∈ readyBranches t branches :=
    List.mem_filterMap.mpr ⟨(b, some r), hmem, by simp [hready]⟩
  exact ⟨_, List.getElem?_eq_getElem (Nat.mod_lt _ (List.length_pos_of_mem hmem))⟩

/-- A wait with a branch that will be ready. -/
theorem attends_selectBiased {b : β} {r : Instant} {branches : List (β × Option Instant)}
    (hmem : (b, some r) ∈ branches) : Attends opTimeoutSecs (selectBiased branches) := by
  intro s
  have hready : some r ∈ branches.map (·.2) := List.mem_map.mpr ⟨_, hmem, rfl⟩
  refine wp_seq (wp_mono (wake_ends _) (fun _ _ h => h) ?_) ?_
  · rintro f s' ⟨rfl, rfl, hnone⟩
    obtain ⟨first, hfirst⟩ := earliest_isSome hready
    cases hnone.symm.trans hfirst
  · rintro a s' ⟨_, henvironment, htrace, _, first, hfirst, hclock⟩
    have hquiet : (attending opTimeoutSecs).rel s s' :=
      Sys.Quiet.attends (.of_same henvironment htrace)
    refine wp_bind.mpr (wp_now.mpr ?_)
    obtain ⟨b', hb'⟩ := List.mem_map.mp (earliest_mem hfirst)
    have hle : first ≤ s'.clock := by
      rw [hclock]
      exact (le_max_right _ _).trans (Nat.le_add_right _ _)
    obtain ⟨chosen, hchosen⟩ := chooseReady_isSome (b := b'.1) 0
      (by rw [← hb'.2]; exact hb'.1) hle
    rw [hchosen]
    exact hquiet

/-- A wait for one answer that does not end. -/
theorem latency_of_earliest {t : Instant} {l : Option ℕ}
    (hnone : earliest [l.map (t + ·)] = none) : l = none := by
  cases l with
  | none => rfl
  | some l => cases hnone

/-- A driver call on its own that is never answered. -/
theorem awaiting_some {e : Event} (hserves : Guarding.bare.Serves e)
    (hnone : earliest [s.nextAnswer.latency.map (s.clock + ·)] = none) :
    Fault.hung.Awaiting s (some ⟨s, .bare, e⟩) := by
  have hlatency := latency_of_earliest hnone
  refine ⟨rfl, rfl, hserves, ?_⟩
  show s.nextAnswer.latency.map (s.clock + ·) = none
  rw [hlatency, Option.map_none]

theorem attends_database (op : DbOp) : Attends opTimeoutSecs (database op) := by
  intro s
  refine wp_bind.mpr (wp_get.mpr (wp_seq (wp_mono (wake_ends _) (fun _ _ h => h) ?_) ?_))
  · rintro f s' ⟨rfl, rfl, hnone⟩
    exact ⟨[], none, .nil _, latency_of_earliest hnone⟩
  · rintro a s' ⟨rfl, henvironment, htrace, _⟩
    refine wp_bind.mpr ((wp_emit _).mpr ?_)
    have hquiet : ∀ stored, (attending opTimeoutSecs).rel s
        { s' with trace := s'.trace ++ [.db op stored] } := fun _ =>
      Sys.Quiet.attends (.of_event henvironment (congrArg (· ++ _) htrace) id)
    cases s.nextAnswer.stored with
    | ok id => exact hquiet _
    | error e => exact fails_of_rel nofun (hquiet _)

theorem attends_runStatement (op : DbOp) : Attends opTimeoutSecs (runStatement op) :=
  (attends_database op).bind fun _ => .pure _

theorem attends_bestEffort {x : Io Unit} (h : Attends opTimeoutSecs x) :
    Attends opTimeoutSecs (bestEffort x) := by
  refine (attends_tryErr h).bind fun r => ?_
  cases r <;> exact .pure _

/-- An await in a `select!` ends with the first of its branches. -/
theorem awaitScoped_ends (deadline : Instant) (done : Option Instant) :
    wp (awaitScoped (some deadline) done)
      (fun r s' => r.2 = s.nextAnswer ∧ s'.environment = s.environment ∧ s'.trace = s.trace ∧
        ∃ first, earliest [done, s.nextSignal, some deadline] = some first ∧
          s'.clock = max s.clock first + s.nextAnswer.lag)
      (fun _ _ => False) s := by
  refine wp_bind.mpr (wp_get.mpr (wp_bind.mpr (wp_mono (wake_ends _) ?_ ?_)))
  · rintro a s' ⟨rfl, henvironment, htrace, _, first, hfirst, hclock⟩
    have hle : first ≤ s'.clock := by
      rw [hclock]
      exact (le_max_right _ _).trans (Nat.le_add_right _ _)
    refine wp_bind.mpr (wp_now.mpr ?_)
    split
    · exact ⟨rfl, henvironment, htrace, first, hfirst, hclock⟩
    · exact ⟨rfl, henvironment, htrace, first, hfirst, hclock⟩
    · rename_i hnone
      let branches := [(none, done), (some Cut.interrupted, s.nextSignal),
        (some Cut.deadline, some deadline)]
      obtain ⟨cut, hmem⟩ : ∃ cut, (cut, some first) ∈ branches := by
        have hmem := earliest_mem hfirst
        simp only [List.mem_cons, List.not_mem_nil, or_false] at hmem
        rcases hmem with hdone | hsignal | hdeadline
        · exact ⟨none, by simp [branches, ← hdone]⟩
        · exact ⟨some .interrupted, by simp [branches, ← hsignal]⟩
        · exact ⟨some .deadline, by simp [branches, ← hdeadline]⟩
      obtain ⟨chosen, hchosen⟩ := chooseReady_isSome s.nextAnswer.pick hmem hle
      cases hnone.symm.trans hchosen
  · rintro f s' ⟨_, _, hnone⟩
    have hready : some deadline ∈ [done, s.nextSignal, some deadline] := by simp
    obtain ⟨first, hfirst⟩ := earliest_isSome hready
    cases hnone.symm.trans hfirst

/-- A sleep, in a `select!` or not. -/
theorem attends_sleep (scope : Option Instant) (duration : ℕ) :
    Attends opTimeoutSecs (sleep scope duration) := by
  intro s
  refine wp_bind.mpr (wp_now.mpr ?_)
  cases scope with
  | none =>
    refine wp_bind.mpr (wp_bind.mpr (wp_mono (wake_ends _) ?_ ?_))
    · rintro a s' ⟨_, henvironment, htrace, _⟩
      exact Sys.Quiet.attends (.of_same henvironment htrace)
    · rintro f s' ⟨_, _, hnone⟩
      cases hnone
  | some deadline =>
    refine wp_bind.mpr (wp_mono (awaitScoped_ends deadline _) ?_ fun _ _ h => h.elim)
    rintro ⟨cut, a⟩ s' ⟨_, henvironment, htrace, _⟩
    have hquiet : (attending opTimeoutSecs).rel s s' :=
      Sys.Quiet.attends (.of_same henvironment htrace)
    cases cut with
    | none => exact hquiet
    | some c => exact fails_of_rel nofun hquiet

/-! ### Driver calls -/

variable {c : DriverCall}

/-- The three branches of a `bounded_driver_call`, and its limit. -/
theorem raceCall_ends (limit : Option Instant) :
    wp (raceCall limit opTimeoutSecs)
      (fun r s' => r.2 = s.nextAnswer ∧ s'.environment = s.environment ∧ s'.trace = s.trace ∧
        (limit = none → r.1 ≠ .elapsed) ∧
        ∃ first, earliest [s.nextAnswer.latency.map (s.clock + ·), s.nextSignal,
          some (s.clock + durationSecs opTimeoutSecs), limit] = some first ∧
          s'.clock = max s.clock first + s.nextAnswer.lag)
      (fun _ _ => False) s := by
  refine wp_bind.mpr (wp_get.mpr (wp_bind.mpr (wp_mono (wake_ends _) ?_ ?_)))
  · rintro a s' ⟨rfl, henvironment, htrace, _, first, hfirst, hclock⟩
    have hle : first ≤ s'.clock := by
      rw [hclock]
      exact (le_max_right _ _).trans (Nat.le_add_right _ _)
    let branches := [(CallEnd.replied, s.nextAnswer.latency.map (s.clock + ·)),
      (.cancelled, s.nextSignal), (.timedOut, some (s.clock + durationSecs opTimeoutSecs))]
    -- without a limit, what came first is one of the three
    have hchosen : limit = none → ∃ ended, chooseReady s'.clock s.nextAnswer.pick branches =
        some ended := by
      rintro rfl
      obtain ⟨ended, hmem⟩ : ∃ ended, (ended, some first) ∈ branches := by
        have hmem := earliest_mem hfirst
        simp only [List.mem_cons, List.not_mem_nil, or_false, reduceCtorEq] at hmem
        rcases hmem with hcall | hsignal | htimeout
        · exact ⟨.replied, by simp [branches, ← hcall]⟩
        · exact ⟨.cancelled, by simp [branches, ← hsignal]⟩
        · exact ⟨.timedOut, by simp [branches, ← htimeout]⟩
      exact chooseReady_isSome s.nextAnswer.pick hmem hle
    refine wp_bind.mpr (wp_now.mpr ?_)
    split
    · exact ⟨rfl, henvironment, htrace, nofun, first, hfirst, hclock⟩
    · rename_i ended _ hended
      refine ⟨rfl, henvironment, htrace, ?_, first, hfirst, hclock⟩
      rintro _ rfl
      obtain ⟨r, hmem, _⟩ := ready_of_chooseReady hended
      simp at hmem
    · rename_i hnone
      refine ⟨rfl, henvironment, htrace, ?_, first, hfirst, hclock⟩
      intro hlimit
      obtain ⟨ended, hended⟩ := hchosen hlimit
      cases hnone.symm.trans hended
  · rintro f s' ⟨_, _, hnone⟩
    have hready : some (s.clock + durationSecs opTimeoutSecs) ∈
        [s.nextAnswer.latency.map (s.clock + ·), s.nextSignal,
          some (s.clock + durationSecs opTimeoutSecs), limit] := by simp
    obtain ⟨first, hfirst⟩ := earliest_isSome hready
    cases hnone.symm.trans hfirst

/-- A call that is on record was made. -/
theorem rel_of_wait (guarding : Guarding) (e : Event) (hserves : guarding.Serves e)
    (hspans : e.Spans s.clock s'.clock)
    (henvironment : s'.environment = s.environment) (htrace : s'.trace = s.trace)
    (hwait : ∃ first, earliest ((⟨s, guarding, e⟩ : DriverCall).branches opTimeoutSecs) =
      some first ∧ s'.clock = max s.clock first + s.nextAnswer.lag) :
    (attending opTimeoutSecs).rel s { s' with trace := s'.trace ++ [e] } := by
  obtain ⟨first, hfirst, hclock⟩ := hwait
  have hmade : (⟨s, guarding, e⟩ : DriverCall).Made opTimeoutSecs
      { s' with trace := s'.trace ++ [e] } :=
    ⟨hserves, henvironment, ⟨_, ⟨first, hfirst, rfl⟩, hclock⟩, hspans, congrArg (· ++ _) htrace⟩
  exact ⟨[_], (Passage.nil s).call hmade⟩

end Steps

section Calls

variable {α : Type} {opTimeoutSecs : ℕ} {s : Sys}

theorem attends_toIo (tag : String) {r : WriteResult} (h : ∀ tookEffect, r ≠ .abandoned tookEffect) :
    Attends opTimeoutSecs (r.toIo tag) := by
  cases r with
  | accepted => exact .pure _
  | rejected message => exact attends_bail _
  | failed e tookEffect => exact attends_bail _
  | abandoned tookEffect => exact absurd rfl (h tookEffect)

theorem attends_readValues (a : Answer) : Attends opTimeoutSecs a.readValues := by
  unfold Answer.readValues
  cases a.values with
  | ok values => exact .pure _
  | error e => exact attends_bail _

/-- A bounded write; without a limit it comes to one of its three ends. -/
theorem boundedWrite_attends {limit : Option Instant} {origin : Origin} {tag : String}
    {value : TagWrite} (h : (∃ tolerance pending, origin = .relay tolerance pending) ∨
      ∃ tolerance, origin = .restoreMv tolerance) :
    wp (boundedWrite limit opTimeoutSecs origin tag value)
      (fun r s' => (attending opTimeoutSecs).rel s s' ∧ (limit = none → r ≠ none))
      (fun f s' => (attending opTimeoutSecs).fails s f s') s := by
  refine wp_bind.mpr (wp_now.mpr (wp_seq (wp_mono (raceCall_ends limit) (fun _ _ h => h)
    fun _ _ h => h.elim) ?_))
  rintro ⟨ended, a⟩ s' ⟨rfl, henvironment, htrace, hlimit, hwait⟩
  have hmade : ∀ result, (attending opTimeoutSecs).rel s { s' with
      trace := s'.trace ++ [.write ⟨origin, tag, value, s.clock, s'.clock, result⟩] } := fun _ =>
    rel_of_wait (.operation limit) _ h ⟨rfl, rfl⟩ henvironment htrace hwait
  refine wp_bind.mpr (wp_now.mpr ?_)
  cases ended with
  | replied =>
    refine wp_bind.mpr ((wp_emit _).mpr (wp_bind.mpr ?_))
    have htold : Attends opTimeoutSecs (s.nextAnswer.writeResult.toIo tag) :=
      attends_toIo tag (writeResult_ne_abandoned s.nextAnswer)
    exact wp_mono (htold.goOn (hmade _)) (fun _ _ hrel => ⟨hrel, fun _ => nofun⟩) fun _ _ h => h
  | cancelled => exact ⟨hmade _, fun _ => nofun⟩
  | timedOut => exact ⟨hmade _, fun _ => nofun⟩
  | elapsed => exact ⟨hmade _, fun hnone => absurd rfl (hlimit hnone)⟩

/-- A bounded read. -/
theorem boundedRead_attends {limit : Option Instant} {kind : ReadKind} {tags : List String} :
    wp (boundedRead limit opTimeoutSecs kind tags)
      (fun r s' => (attending opTimeoutSecs).rel s s' ∧ (limit = none → r ≠ none))
      (fun f s' => (attending opTimeoutSecs).fails s f s') s := by
  refine wp_bind.mpr (wp_now.mpr (wp_seq (wp_mono (raceCall_ends limit) (fun _ _ h => h)
    fun _ _ h => h.elim) ?_))
  rintro ⟨ended, a⟩ s' ⟨rfl, henvironment, htrace, hlimit, hwait⟩
  have hmade : ∀ result, (attending opTimeoutSecs).rel s { s' with
      trace := s'.trace ++ [.read ⟨kind, tags, s.clock, s'.clock, result⟩] } := fun _ =>
    rel_of_wait (.operation limit) _ trivial ⟨rfl, rfl⟩ henvironment htrace hwait
  refine wp_bind.mpr (wp_now.mpr ?_)
  cases ended with
  | replied =>
    refine wp_bind.mpr ((wp_emit _).mpr (wp_bind.mpr ?_))
    have hvalues : Attends opTimeoutSecs s.nextAnswer.readValues := attends_readValues _
    exact wp_mono (hvalues.goOn (hmade _)) (fun _ _ hrel => ⟨hrel, fun _ => nofun⟩) fun _ _ h => h
  | cancelled => exact ⟨hmade _, fun _ => nofun⟩
  | timedOut => exact ⟨hmade _, fun _ => nofun⟩
  | elapsed => exact ⟨hmade _, fun hnone => absurd rfl (hlimit hnone)⟩

theorem attends_boundedWrite (limit : Option Instant) {origin : Origin} (tag : String)
    (value : TagWrite) (h : (∃ tolerance pending, origin = .relay tolerance pending) ∨
      ∃ tolerance, origin = .restoreMv tolerance) :
    Attends opTimeoutSecs (boundedWrite limit opTimeoutSecs origin tag value) := fun _ =>
  wp_mono (boundedWrite_attends h) (fun _ _ h => h.1) fun _ _ h => h

theorem attends_boundedRead (limit : Option Instant) (kind : ReadKind) (tags : List String) :
    Attends opTimeoutSecs (boundedRead limit opTimeoutSecs kind tags) := fun _ =>
  wp_mono boundedRead_attends (fun _ _ h => h.1) fun _ _ h => h

/-- A bounded call without a limit. -/
theorem attends_bounded {x : Io (Option (TickOperation α))}
    (h : ∀ s, wp x (fun r s' => (attending opTimeoutSecs).rel s s' ∧ r ≠ none)
      (fun f s' => (attending opTimeoutSecs).fails s f s') s) :
    Attends opTimeoutSecs (bounded x) := by
  intro s
  refine wp_seq (h s) fun r s' hr => ?_
  cases r with
  | none => exact absurd rfl hr.2
  | some operation => exact hr.1

/-- A write that is a part of no `bounded_driver_call`, on its own or in a `select!`. -/
theorem attends_driverWrite (scope : Option Instant) {origin : Origin} (tag : String)
    (value : TagWrite)
    (h : match scope with
      | none => origin = .programMode ∨ origin = .manualMode ∨ origin = .pid
      | some _ =>
        origin = .restoreMode ∨ origin = .restoreSetpoint ∨ origin = .restoreModeAttribute) :
    Attends opTimeoutSecs (driverWrite scope origin tag value) := by
  intro s
  have htold : Attends opTimeoutSecs (s.nextAnswer.writeResult.toIo tag) :=
    attends_toIo tag (writeResult_ne_abandoned s.nextAnswer)
  refine wp_bind.mpr (wp_now.mpr (wp_bind.mpr (wp_get.mpr ?_)))
  cases scope with
  | none =>
    refine wp_bind.mpr (wp_bind.mpr (wp_mono (wake_ends _) ?_ ?_))
    · rintro a s' ⟨rfl, henvironment, htrace, _, hwait⟩
      refine wp_bind.mpr (wp_now.mpr (wp_bind.mpr ((wp_emit _).mpr ?_)))
      exact htold.goOn (rel_of_wait .bare _ h ⟨rfl, rfl⟩ henvironment htrace hwait)
    · rintro f s' ⟨rfl, rfl, hnone⟩
      let call : WriteCall := ⟨origin, tag, value, s'.clock, s'.clock,
        .abandoned s'.nextAnswer.tookEffect⟩
      exact ⟨[], some ⟨s', .bare, .write call⟩, .nil _, awaiting_some h hnone⟩
  | some deadline =>
    refine wp_bind.mpr (wp_mono (awaitScoped_ends deadline _) ?_ fun _ _ h => h.elim)
    rintro ⟨cut, a⟩ s' ⟨rfl, henvironment, htrace, hwait⟩
    have hmade : ∀ result, (attending opTimeoutSecs).rel s { s' with
        trace := s'.trace ++ [.write ⟨origin, tag, value, s.clock, s'.clock, result⟩] } := fun _ =>
      rel_of_wait (.scope deadline) _ h ⟨rfl, rfl⟩ henvironment htrace hwait
    refine wp_bind.mpr (wp_now.mpr ?_)
    cases cut with
    | some c => exact fails_of_rel nofun (hmade _)
    | none => exact wp_bind.mpr ((wp_emit _).mpr (htold.goOn (hmade _)))

/-- A read of one tag on its own. -/
theorem attends_driverRead (tags : List String) :
    Attends opTimeoutSecs (driverRead .first tags) := by
  intro s
  have hvalues : Attends opTimeoutSecs s.nextAnswer.readValues := attends_readValues _
  refine wp_bind.mpr (wp_now.mpr (wp_bind.mpr (wp_get.mpr ?_)))
  refine wp_bind.mpr (wp_bind.mpr (wp_mono (wake_ends _) ?_ ?_))
  · rintro a s' ⟨rfl, henvironment, htrace, _, hwait⟩
    refine wp_bind.mpr (wp_now.mpr (wp_bind.mpr ((wp_emit _).mpr ?_)))
    exact hvalues.goOn (rel_of_wait .bare _ rfl ⟨rfl, rfl⟩ henvironment htrace hwait)
  · rintro f s' ⟨rfl, rfl, hnone⟩
    let call : ReadCall := ⟨.first, tags, s'.clock, s'.clock, .abandoned⟩
    have h : Guarding.bare.Serves (.read call) := rfl
    exact ⟨[], some ⟨s', .bare, .read call⟩, .nil _, awaiting_some h hnone⟩

end Calls


end Bhtune
