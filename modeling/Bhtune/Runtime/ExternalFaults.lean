import Bhtune.Runtime.Verification

/-!
# Failures for reasons outside

The verification path takes for granted that a pending command is where it was, and says so in the
errors it would fail with.  A failure that is none of these and no panic comes from outside: from
the driver, the database, the clock or what a reply says.

* `verificationInvariants` — what the path takes for granted, in its own words;
* `Fault.External` — a failure of the outside;
* `FailsOutside` — a program that fails in no other way, with one lemma for each primitive.
-/

namespace Bhtune

open Effect EventLog

/-- What the verification path takes for granted, in the words of its errors. -/
def verificationInvariants : List String :=
  ["called only when an MV actuation is pending",
    "pending actuation existed after the bounded read",
    "pending actuation existed before the bounded read",
    "pending actuation existed before the deadline read",
    "pending actuation existed before the verification read",
    "pending actuation existed before the verification result",
    "a verification wakeup requires a due pending actuation",
    "pending actuation existed for the batched poll",
    "a cancelled pending MV poll must abort the run",
    "a timed-out pending MV poll must abort the run",
    "the final-snapback predicate required a pending actuation"]

/-- How those errors begin. -/
def invariantStarts : List (List Char) := [['c', 'a'], ['p', 'e'], ['a', ' '], ['t', 'h']]

theorem invariantStarts_complete :
    ∀ message ∈ verificationInvariants, message.toList.take 2 ∈ invariantStarts := by
  decide +kernel

/-- The outside answered with this error. -/
def Event.FailedWith (message : String) : Event → Prop
  | .read call => call.result = .failed message
  | .write call => ∃ tookEffect, call.result = .failed message tookEffect
  | .db _ result => result = .error message
  | .mark _ => False

/-- An error that is no missing invariant: the words of one are in it only if the outside sent
them. -/
def ExternalError (e : Text) (s : Sys) : Prop :=
  ∀ message ∈ verificationInvariants, e = text message → ∃ event ∈ s.trace, event.FailedWith message

/-- A failure that is no panic and no missing invariant of the verification path. -/
def Fault.External (f : Fault) (s : Sys) : Prop :=
  match f with
  | .err e => ExternalError e s
  | .panic => False
  | _ => True

/-- However `x` fails, it is for a reason outside. -/
abbrev FailsOutside {α : Type} (x : Io α) (s : Sys) : Prop :=
  wp x (fun _ _ => True) Fault.External s

section Failures

variable {α : Type} {s s' : Sys}

theorem ExternalError.append {e : Text} {p : Event → Prop} (h : ExternalError e s)
    (happ : Appends p s.trace s'.trace) : ExternalError e s' := by
  obtain ⟨new, hnew, _⟩ := happ
  intro message hmem heq
  obtain ⟨event, hevent, hfailed⟩ := h message hmem heq
  exact ⟨event, by rw [hnew]; exact List.mem_append_left _ hevent, hfailed⟩

/-- The error of a reply that is on record. -/
theorem externalError_of_reply {message : String} (event : Event) (h : event.FailedWith message)
    (hmem : event ∈ s.trace) : ExternalError (text message) s := by
  intro message' _ heq
  obtain rfl : message = message' := by
    have hpiece : Piece.lit message = Piece.lit message' := List.head_eq_of_cons_eq heq
    exact Piece.lit.inj hpiece
  exact ⟨event, hmem, h⟩

/-- A message that begins like none of the invariants. -/
theorem externalError_of_start {start : String} (hlength : 2 ≤ start.toList.length)
    (h : start.toList.take 2 ∉ invariantStarts) (rest : String) :
    ExternalError (text (start ++ rest)) s := by
  intro message hmem heq
  have hpiece : Piece.lit (start ++ rest) = Piece.lit message := List.head_eq_of_cons_eq heq
  have hbegins : message.toList.take 2 = start.toList.take 2 := by
    rw [← Piece.lit.inj hpiece, String.toList_append, List.take_append_of_le_length hlength]
  exact absurd (hbegins ▸ invariantStarts_complete message hmem) h

/-- A fixed message that is none of the invariants. -/
theorem externalError_of_fixed {message : String} (h : message ∉ verificationInvariants) :
    ExternalError (text message) s := by
  intro message' hmem heq
  have hpiece : Piece.lit message = Piece.lit message' := List.head_eq_of_cons_eq heq
  exact absurd (Piece.lit.inj hpiece ▸ hmem) h

/-- A message of several pieces. -/
theorem externalError_of_pieces {a b : Piece} {rest : Text} :
    ExternalError (a :: b :: rest) s := by
  intro message _ heq
  cases heq

theorem failsOutside_database (op : DbOp) : FailsOutside (database op) s := by
  refine wp_mono (database_ends op) (fun _ _ _ => trivial) ?_
  rintro f s' (⟨rfl, _⟩ | ⟨e, rfl, htrace⟩)
  · trivial
  · refine externalError_of_reply (.db op (.error e)) rfl ?_
    rw [htrace]
    exact List.mem_append_right _ List.mem_cons_self

theorem failsOutside_runStatement (op : DbOp) : FailsOutside (runStatement op) s :=
  wp_seq (failsOutside_database op) fun _ _ _ => trivial

/-- With its errors handed over as values a program still fails for reasons outside, and so are
the errors. -/
theorem tryErr_external {x : Io α} (h : FailsOutside x s) :
    wp (tryErr x) (fun r s' => ∀ e, r = .error e → ExternalError e s') Fault.External s := by
  refine wp_attempt.mpr (wp_mono h (fun _ _ _ => nofun) ?_)
  intro f s' hf
  cases f with
  | err e =>
    rintro _ ⟨rfl⟩
    exact hf
  | _ => exact hf

theorem failsOutside_tryErr {x : Io α} (h : FailsOutside x s) : FailsOutside (tryErr x) s :=
  wp_mono (tryErr_external h) (fun _ _ _ => trivial) fun _ _ h => h

theorem failsOutside_bestEffort {x : Io Unit} (h : FailsOutside x s) :
    FailsOutside (bestEffort x) s := by
  refine wp_seq (failsOutside_tryErr h) fun r _ _ => ?_
  cases r <;> trivial

theorem failsOutside_durationFromStd (elapsed : ℕ) {message : Text} (h : ExternalError message s) :
    FailsOutside (durationFromStd elapsed message) s := by
  unfold durationFromStd
  split
  · trivial
  · exact h

theorem failsOutside_checkedAt (pending : PendingMvActuation) (checkedInstant : Instant) :
    FailsOutside (checkedAtForPending pending checkedInstant) s :=
  wp_seq (failsOutside_durationFromStd _ (externalError_of_fixed (by decide))) fun _ _ _ => trivial

theorem failsOutside_liftResult (r : Except Text α) (h : ∀ e, r = .error e → ExternalError e s) :
    FailsOutside (liftResult r) s := by
  cases r with
  | ok a => trivial
  | error e => exact h e rfl

/-! ### Reads and writes -/

theorem parseF32Value_external (tag : String) (value : TagValue) (e : Text)
    (h : parseF32Value tag value = .error e) : ExternalError e s := by
  have hstart : ∀ rest, ExternalError (text ("tag '" ++ rest)) s :=
    externalError_of_start (by decide) (by decide)
  unfold parseF32Value at h
  split at h
  · cases h
    rw [String.append_assoc, String.append_assoc, String.append_assoc]
    exact hstart _
  · cases h
    rw [String.append_assoc, String.append_assoc, String.append_assoc]
    exact hstart _
  · cases h

theorem noValue_external (tag : String) : ExternalError (noValue tag) s := by
  unfold noValue
  rw [String.append_assoc]
  exact externalError_of_start (by decide) (by decide) _

/-- A sample is refused because the reply lacks the tag or its value is no number. -/
theorem sample_external (tag : String) (found : Option TagValue) (e : Text)
    (h : (match found with
      | none => Except.error (noValue tag)
      | some value => (parseF32Value tag value).map fun v => (v, value.quality)) = .error e) :
    ExternalError e s := by
  cases found with
  | none =>
    cases h
    exact noValue_external tag
  | some value =>
    dsimp only at h
    cases hparse : parseF32Value tag value with
    | ok v =>
      rw [hparse] at h
      cases h
    | error e' =>
      rw [hparse] at h
      cases h
      exact parseF32Value_external tag value _ hparse

theorem failsOutside_raceCall (limit : Option Instant) (opTimeoutSecs : ℕ) :
    FailsOutside (raceCall limit opTimeoutSecs) s := by
  refine wp_mono (raceCall_spec _ _) (fun _ _ _ => trivial) ?_
  rintro f s' ⟨rfl, _⟩
  trivial

theorem failsOutside_boundedRead (limit : Option Instant) (opTimeoutSecs : ℕ) (kind : ReadKind)
    (tags : List String) : FailsOutside (boundedRead limit opTimeoutSecs kind tags) s := by
  refine wp_bind.mpr (wp_now.mpr (wp_seq (failsOutside_raceCall _ _) ?_))
  rintro ⟨ended, a⟩ s' _
  refine wp_bind.mpr (wp_now.mpr ?_)
  cases ended with
  | replied =>
    refine wp_bind.mpr ((wp_emit _).mpr (wp_bind.mpr ?_))
    unfold Answer.readValues
    cases hvalues : a.values with
    | ok values => trivial
    | error e =>
      refine externalError_of_reply (.read ⟨kind, tags, s.clock, s'.clock, a.readResult⟩)
        ?_ (List.mem_append_right _ List.mem_cons_self)
      simp only [Event.FailedWith, Answer.readResult, hvalues]
  | cancelled => trivial
  | timedOut => trivial
  | elapsed => trivial

theorem failsOutside_bounded {x : Io (Option (TickOperation α))} (h : FailsOutside x s) :
    FailsOutside (bounded x) s := by
  refine wp_seq h fun r _ _ => ?_
  cases r <;> trivial

theorem failsOutside_readNumericSample (limit : Option Instant) (opTimeoutSecs : ℕ)
    (tag : String) : FailsOutside (readNumericSample limit opTimeoutSecs tag) s := by
  refine wp_seq (failsOutside_boundedRead _ _ _ _) fun r s' _ => ?_
  match r with
  | some (.completed values) =>
    exact wp_seq (failsOutside_liftResult _ fun _ h => sample_external _ _ _ h)
      fun _ _ _ => trivial
  | some .cancelled => trivial
  | some .timedOut => trivial
  | none => trivial

theorem failsOutside_boundedWrite (limit : Option Instant) (opTimeoutSecs : ℕ) (origin : Origin)
    (tag : String) (value : TagWrite) :
    FailsOutside (boundedWrite limit opTimeoutSecs origin tag value) s := by
  refine wp_bind.mpr (wp_now.mpr (wp_seq (failsOutside_raceCall _ _) ?_))
  rintro ⟨ended, a⟩ s' _
  refine wp_bind.mpr (wp_now.mpr ?_)
  cases ended with
  | replied =>
    refine wp_bind.mpr ((wp_emit _).mpr (wp_bind.mpr ?_))
    cases hresult : a.writeResult with
    | accepted => trivial
    | rejected message =>
      show ExternalError _ _
      rw [String.append_assoc, String.append_assoc]
      exact externalError_of_start (by decide) (by decide) _
    | failed e tookEffect =>
      refine externalError_of_reply (.write ⟨origin, tag, value, s.clock, s'.clock,
        .failed e tookEffect⟩) ⟨tookEffect, rfl⟩ (List.mem_append_right _ List.mem_cons_self)
    | abandoned tookEffect => trivial
  | cancelled => trivial
  | timedOut => trivial
  | elapsed => trivial

end Failures

end Bhtune
