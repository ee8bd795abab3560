import Bhtune.Runtime.Prepare
import Bhtune.Runtime.RestoreSteps

/-!
# Restore on every exit

Once a run has entered the transition to Manual, it returns only after one restore attempt has run
to its end, whatever brought the run to its end and whatever the recording of the attempt did.

* `ExitsWith` — what the transition, the polling loop and the persistence of results came to;
* `AttemptRecord` — the record of one restore attempt, the MV step first;
* `OutcomeFits` — what the run returns, by its cause, its attempt and its later persistence;
* `restore_on_every_exit` — the whole of `execute_with_timing`.
-/

namespace Bhtune

open Effect EventLog

/-! ### What brings a run to its restore -/

/-- What brought a run to its restore. -/
inductive ExitCause where
  | failed (error : Text)
  | aborted (reason : AbortReason)
  | completed
  deriving DecidableEq

/-- The state in which a run begins to change the loop. -/
def Sys.beginRun (s : Sys) (ctx : RunContext) (initial : InitialState) : Sys :=
  { s with program := { s.program with
      guard := {}
      tracker := MvActuationTracker.forRun ctx.driver initial } }

/-- The cause with which a run that begins in `s` comes to its restore, and the state in which it
does. -/
inductive ExitsWith (fuel : ℕ) (ctx : RunContext) (initial : InitialState) (s : Sys) :
    ExitCause → Sys → Prop
  | transition {e : Text} {s₁ : Sys} (h : transitionToManual ctx initial s = .error (.err e) s₁) :
      ExitsWith fuel ctx initial s (.failed e) s₁
  | polling {e : Text} {s₁ s₂ : Sys} (h : transitionToManual ctx initial s = .ok () s₁)
      (hpoll : pollFresh fuel ctx initial s₁ = .error (.err e) s₂) :
      ExitsWith fuel ctx initial s (.failed e) s₂
  | aborted {reason : AbortReason} {s₁ s₂ : Sys}
      (h : transitionToManual ctx initial s = .ok () s₁)
      (hpoll : pollFresh fuel ctx initial s₁ = .ok (.aborted reason) s₂) :
      ExitsWith fuel ctx initial s (.aborted reason) s₂
  | persisting {action : Action ℚ} {state : MrftState ℚ} {next : ℕ} {e : Text}
      {s₁ s₂ s₃ : Sys} (h : transitionToManual ctx initial s = .ok () s₁)
      (hpoll : pollFresh fuel ctx initial s₁ = .ok (.completed action state next) s₂)
      (hpersist : persistResults ctx initial action s₂ = .error (.err e) s₃) :
      ExitsWith fuel ctx initial s (.failed e) s₃
  | completed {action : Action ℚ} {state : MrftState ℚ} {next : ℕ} {s₁ s₂ s₃ : Sys}
      (h : transitionToManual ctx initial s = .ok () s₁)
      (hpoll : pollFresh fuel ctx initial s₁ = .ok (.completed action state next) s₂)
      (hpersist : persistResults ctx initial action s₂ = .ok () s₃) :
      ExitsWith fuel ctx initial s .completed s₃

/-! ### The record of a run -/

/-- An event that is no mark of a restore attempt. -/
def Event.OutsideAttempt (e : Event) : Prop :=
  e ≠ .mark .restoreBegan ∧ ∀ attempt, e ≠ .mark (.restoreEnded attempt)

/-- What an attempt does to the outside once its MV step has come to a result. -/
def Event.AfterMv : Event → Prop
  | .read _ => True
  | .db _ _ => True
  | .write call => call.origin = .restoreMode ∨ call.origin = .restoreSetpoint ∨
      call.origin = .restoreModeAttribute
  | .mark (.settled _) => True
  | .mark (.laterSteps _) => True
  | .mark _ => False

/-- The record of one restore attempt: first the MV step, which writes nothing but the initial MV,
then, once it has come to a result, the rest. -/
def AttemptRecord (ctx : RunContext) (initial : InitialState) (record : List Event) : Prop :=
  ∃ first, (∀ e ∈ first, e.RestoresMv ctx initial.mvIni) ∧
    (record = first ∨ ∃ mv rest, record = first ++ .mark (.mvStep mv) :: rest ∧
      ∀ e ∈ rest, e.AfterMv)

/-- The database recorded the end of the run. -/
def Event.Persists : Event → Prop
  | .db (.completeRun _) (.ok _) => True
  | .db (.abortRun _ _) (.ok _) => True
  | _ => False

/-- What the run returns, by its cause, its attempt and its later persistence. -/
structure OutcomeFits (cause : ExitCause) (attempt : RestoreAttempt) (after : List Event)
    (result : Except Text RunOutcome) : Prop where
  failed : ∀ e, cause = .failed e → result = .error e
  incomplete : (∃ reason, result = .ok (.restoreIncomplete reason)) ↔
    (cause = .completed ∨ ∃ reason, cause = .aborted reason) ∧ (∃ e ∈ after, e.Persists) ∧
      ∃ reason, attempt = .incomplete reason
  completed : ∀ writeBack detail, result = .ok (.completed writeBack detail) →
    cause = .completed ∧ attempt = .confirmed
  aborted : ∀ reason, result = .ok (.aborted reason) →
    cause = .aborted reason ∧ attempt = .confirmed

/-- One restore attempt, from the state `s` in which the run comes to it, has run to its end in
`s'`. -/
def Attempts (fuel : ℕ) (ctx : RunContext) (initial : InitialState) (s : Sys)
    (attempt : RestoreAttempt) (s' : Sys) : Prop :=
  ∃ completion measuredOscillationPeriodMs,
    attemptRestore fuel ctx initial completion measuredOscillationPeriodMs .bestEffort s =
      .ok attempt s'

/-- A run that comes to its restore in `s` returns with the record `tail`: one attempt that has
run to its end, and a write-back after it at most. -/
def Finished (fuel : ℕ) (ctx : RunContext) (initial : InitialState) (cause : ExitCause) (s : Sys)
    (result : Except Text RunOutcome) (tail : List Event) : Prop :=
  ∃ record attempt after,
    tail = .mark .restoreBegan :: record ++ .mark (.restoreEnded attempt) :: after ∧
    (∃ s', Attempts fuel ctx initial s attempt s' ∧ s'.trace = s.trace ++
      (.mark .restoreBegan :: record ++ [.mark (.restoreEnded attempt)])) ∧
    AttemptRecord ctx initial record ∧ (∀ e ∈ after, e.WritesBack) ∧
    (∀ e ∈ record ++ after, e.OutsideAttempt) ∧ OutcomeFits cause attempt after result

/-- How a run returns: if it entered the transition to Manual, then after whatever it did until it
came to its restore, its record ends with `Finished`. -/
def Exited (fuel : ℕ) (ctx : RunContext) (ownership : Option LiveOperationGuard) (s : Sys)
    (result : Except Text RunOutcome) (s' : Sys) : Prop :=
  ∃ new, s'.trace = s.trace ++ new ∧ (.mark .enteredTransition ∈ new →
    ∃ initial s₀ cause s₁ before tail, prepareExecution ctx ownership s = .ok initial s₀ ∧
      ExitsWith fuel ctx initial (s₀.beginRun ctx initial) cause s₁ ∧
      s₁.trace = s.trace ++ before ∧ new = before ++ tail ∧
      (∀ e ∈ before, e.OutsideAttempt) ∧ Finished fuel ctx initial cause s₁ result tail)

variable {ctx : RunContext} {initial : InitialState} {s : Sys} {cause : ExitCause}

/-! ### The attempt -/

theorem Event.Silent.afterMv {e : Event} (h : e.Silent) : e.AfterMv := by
  cases e <;> first | exact h.elim | trivial

theorem Event.RestoresLater.afterMv {e : Event} (h : e.RestoresLater) : e.AfterMv := by
  cases e with
  | write call => exact h
  | mark m => cases m <;> first | exact h.elim | trivial
  | _ => trivial

theorem restoresLater_releasing (e : Event) (h : e.RestoresLater) (hregular : e.Regular ctx initial) :
    e.AfterMv ∧ e.Regular ctx initial := ⟨h.afterMv, hregular⟩

theorem afterMvStep_record (fuel : ℕ) (completion : Option SettlingInput)
    (measuredOscillationPeriodMs : Option (XNum ℚ)) (mv : RestoreStepOutcome) :
    wlp (afterMvStep fuel ctx initial completion measuredOscillationPeriodMs mv)
      (fun _ s' => ∃ rest, s'.trace = s.trace ++ .mark (.mvStep mv) :: rest ∧
        ∀ e ∈ rest, e.AfterMv) s := by
  refine wp_bind.mpr ((wp_mark _).mpr (wp_bind.mpr (wp_get.mpr ?_)))
  have hkeeps := @keeps_afterMark Unit _ (fun _ => ()) ctx initial restoresLater_releasing
    (fun _ => ⟨trivial, id, trivial⟩) (fun _ => ⟨trivial, id, trivial⟩) (fun _ _ => rfl)
    (fun _ _ => rfl) fuel completion measuredOscillationPeriodMs mv s.program.guard
    fun _ _ _ _ _ _ => ⟨trivial, id, trivial⟩
  refine wp_mono (hkeeps _) ?_ fun _ _ _ => trivial
  rintro _ s' ⟨⟨rest, htrace, hmem⟩, _⟩
  exact ⟨rest, by rw [htrace, List.append_assoc]; rfl, fun e he => (hmem e he).1⟩

theorem attemptRestoreBody_record (fuel : ℕ) (completion : Option SettlingInput)
    (measuredOscillationPeriodMs : Option (XNum ℚ)) (policy : ActuationAuditPolicy) :
    wlp (attemptRestoreBody fuel ctx initial completion measuredOscillationPeriodMs policy)
      (fun _ s' => ∃ record, s'.trace = s.trace ++ record ∧ AttemptRecord ctx initial record)
      s := by
  have hstart : ∀ t, Keeps (within (Event.RestoresMv ctx initial.mvIni) fun _ => ())
      (modifyProgram fun p => { p with restoreDeadline := t }) := fun _ =>
    keeps_modifyProgram fun _ => rfl
  have hstep : Keeps (within (Event.RestoresMv ctx initial.mvIni) fun _ => ())
      (tryErr (restoreMvWithVerification fuel ctx initial.mvIni policy)) :=
    within_mono (keeps_tryErr (keeps_restoreMvWithVerification (fun _ _ => rfl) (fun _ _ => rfl)
      fuel ctx initial.mvIni policy)) (fun _ h => h.1) fun _ _ h => h
  refine wp_bind.mpr (wp_now.mpr ((hstart _).wlp_seq fun _ s₁ hrel₁ =>
    hstep.wlp_seq fun r s₂ hrel₂ => ?_))
  obtain ⟨first, htrace, hfirst⟩ := hrel₁.1.trans hrel₂.1
  cases restoreMvOutcomeOrFailed r with
  | interrupted reason => exact ⟨first, htrace, first, hfirst, .inl rfl⟩
  | «continue» mv =>
    refine wlp_mono (afterMvStep_record fuel completion measuredOscillationPeriodMs mv) ?_
    rintro attempt s₃ ⟨rest, hrest, hafter⟩
    exact ⟨first ++ .mark (.mvStep mv) :: rest, by rw [hrest, htrace, List.append_assoc],
      first, hfirst, .inr ⟨mv, rest, rfl, hafter⟩⟩

/-- **The record of an attempt that has run to its end.** -/
theorem attemptRestore_record (fuel : ℕ) (completion : Option SettlingInput)
    (measuredOscillationPeriodMs : Option (XNum ℚ)) (policy : ActuationAuditPolicy) :
    wlp (attemptRestore fuel ctx initial completion measuredOscillationPeriodMs policy)
      (fun attempt s' => ∃ record, s'.trace = s.trace ++
          (.mark .restoreBegan :: record ++ [.mark (.restoreEnded attempt)]) ∧
        AttemptRecord ctx initial record) s := by
  refine wp_bind.mpr ((wp_mark _).mpr (wlp_seq (attemptRestoreBody_record fuel completion
    measuredOscillationPeriodMs policy) ?_))
  rintro attempt s₁ ⟨record, htrace, hrecord⟩
  refine wp_bind.mpr ((wp_mark _).mpr ⟨record, ?_, hrecord⟩)
  simp only [htrace, List.append_assoc, List.cons_append, List.nil_append]

/-! ### What is not of an attempt -/

theorem Event.Silent.outsideAttempt {e : Event} (h : e.Silent) : e.OutsideAttempt := by
  cases e <;> first | exact h.elim | exact ⟨nofun, nofun⟩

theorem Event.WritesBack.outsideAttempt {e : Event} (h : e.WritesBack) : e.OutsideAttempt := by
  cases e <;> first | exact h.elim | exact ⟨nofun, nofun⟩

theorem Event.EntersManual.outsideAttempt {e : Event} (h : e.EntersManual) :
    e.OutsideAttempt := by
  cases e with
  | mark m => cases m <;> first | exact h.elim | exact ⟨nofun, nofun⟩
  | _ => exact ⟨nofun, nofun⟩

theorem Event.Polls.outsideAttempt {e : Event} (h : e.Polls) : e.OutsideAttempt := by
  cases e with
  | mark m => cases m <;> first | exact h.elim | exact ⟨nofun, nofun⟩
  | _ => exact ⟨nofun, nofun⟩

theorem Event.RestoresMv.outsideAttempt {e : Event} {mv : ℚ} (h : e.RestoresMv ctx mv) :
    e.OutsideAttempt := by
  cases e with
  | mark m => cases m <;> first | exact h.elim | exact ⟨nofun, nofun⟩
  | _ => exact ⟨nofun, nofun⟩

theorem Event.AfterMv.outsideAttempt {e : Event} (h : e.AfterMv) : e.OutsideAttempt := by
  cases e with
  | mark m => cases m <;> first | exact h.elim | exact ⟨nofun, nofun⟩
  | _ => exact ⟨nofun, nofun⟩

theorem AttemptRecord.outsideAttempt {record : List Event} (h : AttemptRecord ctx initial record) :
    ∀ e ∈ record, e.OutsideAttempt := by
  obtain ⟨first, hfirst, rfl | ⟨mv, rest, rfl, hrest⟩⟩ := h
  · exact fun e he => (hfirst e he).outsideAttempt
  · intro e he
    rcases List.mem_append.mp he with he | he
    · exact (hfirst e he).outsideAttempt
    · rcases List.mem_cons.mp he with rfl | he
      · exact ⟨nofun, nofun⟩
      · exact (hrest e he).outsideAttempt

/-! ### The end of a run -/

/-- A program that has no error of its own comes first. -/
theorem NoError.returns_seq {α β : Type} {x : Io β} {f : β → Io α} {M : β → Sys → Prop}
    {Q : Except Text α → Sys → Prop} (hx : NoError x) (hM : wlp x M s)
    (hf : ∀ b s', M b s' → returns (f b) Q s') : returns (x >>= f) Q s := by
  refine wp_seq (wp_mono (wp_and (hx s) hM) (fun _ _ h => h.2) ?_) hf
  rintro fault s' ⟨hfault, _⟩ e rfl
  exact absurd hfault nofun

/-- An event that is neither a write, nor a mark, nor the recorded end of the run. -/
def Event.Ancillary (e : Event) : Prop := e.Silent ∧ ¬e.Persists

theorem Event.Ancillary.writesBack {e : Event} (h : e.Ancillary) : e.WritesBack := by
  cases e <;> first | exact h.1.elim | trivial

/-- The attempt that began in `s₁` has run to its end, and since then nothing but `after`
happened. -/
def Attempted (fuel : ℕ) (ctx : RunContext) (initial : InitialState) (s₁ : Sys)
    (attempt : RestoreAttempt) (after : List Event) (s : Sys) : Prop :=
  ∃ record s₂, Attempts fuel ctx initial s₁ attempt s₂ ∧
    s₂.trace = s₁.trace ++ (.mark .restoreBegan :: record ++ [.mark (.restoreEnded attempt)]) ∧
    AttemptRecord ctx initial record ∧ s.trace = s₂.trace ++ after

theorem Attempted.append {fuel : ℕ} {s₁ s' : Sys} {after more : List Event}
    {attempt : RestoreAttempt} (h : Attempted fuel ctx initial s₁ attempt after s)
    (hmore : s'.trace = s.trace ++ more) :
    Attempted fuel ctx initial s₁ attempt (after ++ more) s' := by
  obtain ⟨record, s₂, hrun, htrace, hrecord, hafter⟩ := h
  exact ⟨record, s₂, hrun, htrace, hrecord, by rw [hmore, hafter, List.append_assoc]⟩

theorem Attempted.finished {fuel : ℕ} {s₁ : Sys} {after : List Event} {attempt : RestoreAttempt}
    {result : Except Text RunOutcome} (h : Attempted fuel ctx initial s₁ attempt after s)
    (hafter : ∀ e ∈ after, e.WritesBack) (hfits : OutcomeFits cause attempt after result) :
    ∃ tail, s.trace = s₁.trace ++ tail ∧ Finished fuel ctx initial cause s₁ result tail := by
  obtain ⟨record, s₂, hrun, htrace, hrecord, htail⟩ := h
  refine ⟨.mark .restoreBegan :: record ++ .mark (.restoreEnded attempt) :: after, ?_, record,
    attempt, after, rfl, ⟨s₂, hrun, htrace⟩, hrecord, hafter, ?_, hfits⟩
  · simp only [htail, htrace, List.append_assoc, List.cons_append, List.nil_append]
  · intro e he
    rcases List.mem_append.mp he with he | he
    · exact hrecord.outsideAttempt e he
    · exact (hafter e he).outsideAttempt

theorem noError_bestEffort (x : Io Unit) : NoError (bestEffort x) :=
  (NoError.tryErr x).bind fun r => by cases r <;> exact .pure _

section Recorded

variable {α : Type} (fuel : ℕ) (completion : Option SettlingInput)
variable (measuredOscillationPeriodMs : Option (XNum ℚ)) (detail : String)

/-- The attempt, then its status and the rows still pending. -/
theorem recordedAttempt_spec (f : RestoreAttempt → α) :
    wlp (do
        let attempt ← attemptRestore fuel ctx initial completion measuredOscillationPeriodMs
          .bestEffort
        recordRestoreStatusBestEffort attempt
        finalizePendingForRunBestEffort detail
        return f attempt)
      (fun a s' => ∃ attempt after, a = f attempt ∧ (∀ e ∈ after, e.Ancillary) ∧
        Attempted fuel ctx initial s attempt after s') s := by
  have hstatus : ∀ attempt, Keeps (within Event.Ancillary fun _ => ())
      (recordRestoreStatusBestEffort attempt) := fun _ =>
    keeps_bestEffort (keeps_runStatement fun _ => ⟨trivial, id⟩)
  have hfinalize : Keeps (within Event.Ancillary fun _ => ())
      (finalizePendingForRunBestEffort detail) :=
    keeps_bestEffort (keeps_runStatement fun _ => ⟨trivial, id⟩)
  refine wlp_seq (wp_mono (wp_and (wp_run _ s) (attemptRestore_record fuel completion
    measuredOscillationPeriodMs .bestEffort)) (fun _ _ h => h) fun _ _ _ => trivial) ?_
  rintro attempt s₁ ⟨hrun, record, htrace, hrecord⟩
  refine (hstatus attempt).wlp_seq fun _ s₂ hrel₂ => hfinalize.wlp_seq fun _ s₃ hrel₃ => ?_
  obtain ⟨after, hafter, hancillary⟩ := hrel₂.1.trans hrel₃.1
  have hattempted : Attempted fuel ctx initial s attempt [] s₁ :=
    ⟨record, s₁, ⟨_, _, hrun⟩, htrace, hrecord, (List.append_nil _).symm⟩
  exact ⟨attempt, after, rfl, hancillary, hattempted.append hafter⟩

theorem noError_recordedAttempt (f : RestoreAttempt → α) :
    NoError (do
      let attempt ← attemptRestore fuel ctx initial completion measuredOscillationPeriodMs
        .bestEffort
      recordRestoreStatusBestEffort attempt
      finalizePendingForRunBestEffort detail
      return f attempt) :=
  (noError_attemptRestore _ _ _ _).bind fun _ => (noError_bestEffort _).bind fun _ =>
    (noError_bestEffort _).bind fun _ => .pure _

end Recorded

/-! ### What the result has to fit -/

namespace OutcomeFits

variable {attempt : RestoreAttempt} {after : List Event}

theorem ofFailed (e : Text) : OutcomeFits (.failed e) attempt after (.error e) where
  failed := by
    rintro _ ⟨rfl⟩
    rfl
  incomplete := by
    refine ⟨fun ⟨_, h⟩ => (nomatch h), ?_⟩
    rintro ⟨h | ⟨_, h⟩, _⟩ <;> cases h
  completed := nofun
  aborted := nofun

/-- An error after the attempt: the end of the run was not recorded, or the attempt succeeded. -/
theorem ofError (hcause : ∀ e, cause ≠ .failed e) (e : Text)
    (h : (∀ x ∈ after, ¬x.Persists) ∨ attempt = .confirmed) :
    OutcomeFits cause attempt after (.error e) where
  failed := fun e' h' => absurd h' (hcause e')
  incomplete := by
    refine ⟨fun ⟨_, h⟩ => (nomatch h), ?_⟩
    rintro ⟨_, ⟨x, hx, hpersists⟩, reason, hattempt⟩
    rcases h with h | rfl
    · exact absurd hpersists (h x hx)
    · cases hattempt
  completed := nofun
  aborted := nofun

theorem ofIncomplete (hcause : cause = .completed ∨ ∃ reason, cause = .aborted reason)
    (hpersists : ∃ x ∈ after, x.Persists) (reason reason' : Text) :
    OutcomeFits cause (.incomplete reason) after (.ok (.restoreIncomplete reason')) where
  failed := by
    rintro e rfl
    rcases hcause with h | ⟨_, h⟩ <;> cases h
  incomplete := ⟨fun _ => ⟨hcause, hpersists, reason, rfl⟩, fun _ => ⟨reason', rfl⟩⟩
  completed := nofun
  aborted := nofun

theorem ofCompleted (writeBack : WriteBackOutcome) (detail : Option Text) :
    OutcomeFits .completed .confirmed after (.ok (.completed writeBack detail)) where
  failed := nofun
  incomplete := ⟨fun ⟨_, h⟩ => (nomatch h), fun ⟨_, _, _, h⟩ => (nomatch h)⟩
  completed := fun _ _ _ => ⟨rfl, rfl⟩
  aborted := nofun

theorem ofAborted (reason : AbortReason) :
    OutcomeFits (.aborted reason) .confirmed after (.ok (.aborted reason)) where
  failed := nofun
  incomplete := ⟨fun ⟨_, h⟩ => (nomatch h), fun ⟨_, _, _, h⟩ => (nomatch h)⟩
  completed := nofun
  aborted := by
    rintro _ ⟨rfl⟩
    exact ⟨rfl, rfl⟩

end OutcomeFits

/-! ### The finishers -/

/-- A finisher returns with the record of one attempt. -/
abbrev finishes (fuel : ℕ) (ctx : RunContext) (initial : InitialState) (cause : ExitCause)
    (x : Io RunOutcome) (s : Sys) : Prop :=
  returns x (fun result s' =>
    ∃ tail, s'.trace = s.trace ++ tail ∧ Finished fuel ctx initial cause s result tail) s

section Finishers

variable {initial : InitialState} {fuel : ℕ}

/-- What every finisher does first. -/
theorem finishes_attempt {completion : Option SettlingInput}
    {measuredOscillationPeriodMs : Option (XNum ℚ)} {f : RestoreAttempt → Io RunOutcome}
    (hf : ∀ attempt after s', (∀ e ∈ after, e.Ancillary) →
      Attempted fuel ctx initial s attempt after s' →
      returns (f attempt) (fun result s' =>
        ∃ tail, s'.trace = s.trace ++ tail ∧ Finished fuel ctx initial cause s result tail) s') :
    finishes fuel ctx initial cause (attemptAndRecordRestore fuel ctx initial completion
      measuredOscillationPeriodMs >>= f) s := by
  refine (noError_recordedAttempt _ _ _ _ id).returns_seq
    (recordedAttempt_spec _ _ _ _ id) ?_
  rintro attempt s' ⟨_, after, rfl, hancillary, hattempted⟩
  exact hf attempt after s' hancillary hattempted

/-- A statement after the attempt, and the event it leaves. -/
theorem Attempted.statement {s₁ : Sys} {after : List Event} {attempt : RestoreAttempt} {op : DbOp}
    {f : Unit → Io RunOutcome} (h : Attempted fuel ctx initial s₁ attempt after s)
    (hafter : ∀ e ∈ after, e.Ancillary) (hcause : ∀ e, cause ≠ .failed e)
    (hf : ∀ id s', Attempted fuel ctx initial s₁ attempt (after ++ [.db op (.ok id)]) s' →
      (∀ e ∈ after ++ [.db op (.ok id)], e.WritesBack) →
      returns (f ()) (fun result s' =>
        ∃ tail, s'.trace = s₁.trace ++ tail ∧ Finished fuel ctx initial cause s₁ result tail) s') :
    returns (runStatement op >>= f) (fun result s' =>
      ∃ tail, s'.trace = s₁.trace ++ tail ∧ Finished fuel ctx initial cause s₁ result tail) s := by
  have hwrites : ∀ stored, ∀ e ∈ after ++ [.db op stored], e.WritesBack := by
    intro stored e he
    rcases List.mem_append.mp he with he | he
    · exact (hafter e he).writesBack
    · rw [List.mem_singleton.mp he]
      trivial
  refine returns_seq (runStatement_spec op) ?_ ?_
  · rintro _ s' ⟨stored, htrace, hok⟩
    obtain ⟨id, rfl⟩ := hok.mp rfl
    exact hf id s' (h.append htrace) (hwrites _)
  · rintro e s' ⟨stored, htrace, hok⟩
    refine (h.append htrace).finished (hwrites stored) (.ofError hcause e (.inl ?_))
    intro x hx
    rcases List.mem_append.mp hx with hx | hx
    · exact (hafter x hx).2
    · rw [List.mem_singleton.mp hx]
      cases stored with
      | ok id => exact absurd (hok.mpr ⟨id, rfl⟩) nofun
      | error e => cases op <;> exact id

/-- A failed run after its attempt. -/
theorem Attempted.fails {s₁ : Sys} {after : List Event} {attempt : RestoreAttempt}
    (h : Attempted fuel ctx initial s₁ attempt after s) (hafter : ∀ e ∈ after, e.Ancillary)
    (metrics : Option TimingMetrics) (error : Text) :
    returns (do
        recordTimingMetricsIfPresent metrics
        (bail error : Io RunOutcome))
      (fun result s' => ∃ tail, s'.trace = s₁.trace ++ tail ∧
        Finished fuel ctx initial (.failed error) s₁ result tail) s := by
  have hmetrics : Keeps (within Event.Ancillary fun _ => ())
      (recordTimingMetricsIfPresent metrics) := by
    cases metrics with
    | none => exact .pure _
    | some metrics => exact keeps_bestEffort (keeps_runStatement fun _ => ⟨trivial, id⟩)
  have hnoError : NoError (recordTimingMetricsIfPresent metrics) := by
    cases metrics with
    | none => exact .pure _
    | some metrics => exact noError_bestEffort _
  refine hnoError.returns_seq (hmetrics.and_wlp (wlp_true _)) ?_
  rintro _ s₁ ⟨⟨⟨more, hmore, hmem⟩, _⟩, _⟩ _ ⟨rfl⟩
  refine (h.append hmore).finished ?_ (.ofFailed _)
  intro e he
  rcases List.mem_append.mp he with he | he
  · exact (hafter e he).writesBack
  · exact (hmem e he).writesBack

theorem finishFailedRun_finishes (error : Text) (metrics : Option TimingMetrics) :
    finishes fuel ctx initial (.failed error) (finishFailedRun fuel ctx initial error metrics) s := by
  refine (noError_recordedAttempt _ _ _ _ fun _ => error).returns_seq
    (recordedAttempt_spec _ _ _ _ fun _ => error) ?_
  rintro error s' ⟨attempt, after, rfl, hancillary, hattempted⟩
  exact hattempted.fails hancillary metrics _

/-- A run whose transition to Manual failed. -/
theorem notEntered_finishes (error : Text) :
    finishes fuel ctx initial (.failed error)
      (restoreBestEffortThenPropagate fuel ctx initial error >>= bail) s := by
  refine (noError_recordedAttempt _ _ _ _ fun _ => error).returns_seq
    (recordedAttempt_spec _ _ _ _ fun _ => error) ?_
  rintro error s' ⟨attempt, after, rfl, hancillary, hattempted⟩ _ ⟨rfl⟩
  exact hattempted.finished (fun e he => (hancillary e he).writesBack) (.ofFailed _)

/-- An aborted run after its attempt and its recorded end. -/
theorem aborted_returns {s₁ : Sys} {after : List Event} {attempt : RestoreAttempt}
    (reason : AbortReason) (h : Attempted fuel ctx initial s₁ attempt after s)
    (hafter : ∀ e ∈ after, e.WritesBack)
    (hpersists : ∃ e ∈ after, e.Persists) :
    returns (match attempt with
      | .confirmed => pure (.aborted reason)
      | .incomplete restoreReason => pure (.restoreIncomplete
        (text "run aborted (" ++ [.reason reason] ++ text "); " ++ restoreReason)))
      (fun result s' => ∃ tail, s'.trace = s₁.trace ++ tail ∧
        Finished fuel ctx initial (.aborted reason) s₁ result tail) s := by
  cases attempt with
  | confirmed => exact h.finished hafter (.ofAborted reason)
  | incomplete restoreReason =>
    exact h.finished hafter (.ofIncomplete (.inr ⟨reason, rfl⟩) hpersists _ _)

theorem finishAbortedRun_finishes (reason : AbortReason) (metrics : Option TimingMetrics) :
    finishes fuel ctx initial (.aborted reason) (finishAbortedRun fuel ctx initial reason metrics)
      s := by
  refine finishes_attempt fun attempt after s₁ hancillary hattempted => ?_
  have hend : ∀ detail id s', Attempted fuel ctx initial s attempt
      (after ++ [.db (.abortRun metrics detail) (.ok id)]) s' →
      (∀ e ∈ after ++ [.db (.abortRun metrics detail) (.ok id)], e.WritesBack) → _ :=
    fun detail id s' h hwrites => aborted_returns reason h hwrites
      ⟨_, List.mem_append_right _ (List.mem_singleton_self _), trivial⟩
  cases reason with
  | mvActuationUnconfirmed tag target readback tolerance elapsedMs deadlineSecs =>
    exact hattempted.statement hancillary nofun (hend _)
  | _ => exact hattempted.statement hancillary nofun (hend none)

variable {completion : SettlingInput} {measuredOscillationPeriodMs : Option (XNum ℚ)}

theorem finishPersistedRun_finishes (writePid : Option ResponseLevel) (hasHandler : Bool)
    (ownership : Option LiveOperationGuard) :
    finishes fuel ctx initial .completed (finishPersistedRun fuel ctx initial writePid hasHandler
      ownership completion measuredOscillationPeriodMs) s := by
  refine finishes_attempt fun attempt after s₁ hancillary hattempted =>
    wp_bind.mpr (wp_get.mpr (hattempted.statement hancillary nofun ?_))
  intro id s₂ hattempted₂ hwrites
  have hpersists : ∃ e ∈ after ++ [.db (.completeRun
      (s₁.program.timing.finish measuredOscillationPeriodMs)) (.ok id)], Event.Persists e :=
    ⟨_, List.mem_append_right _ (List.mem_singleton_self _), trivial⟩
  cases attempt with
  | incomplete reason =>
    exact hattempted₂.finished hwrites (.ofIncomplete (.inl rfl) hpersists _ _)
  | confirmed =>
    have hwriteBack : Keeps (within Event.WritesBack fun _ => ())
        (maybeWriteBack ctx writePid hasHandler ownership) :=
      keeps_maybeWriteBack (fun _ => trivial) (fun _ h => h) (fun _ _ _ => trivial) _ _ _ _
    have happend : ∀ s₃ more, s₃.trace = s₂.trace ++ more → (∀ e ∈ more, e.WritesBack) →
        ∃ after', (∀ e ∈ after', e.WritesBack) ∧
          Attempted fuel ctx initial s .confirmed after' s₃ := by
      intro s₃ more hmore hmem
      refine ⟨_, ?_, hattempted₂.append hmore⟩
      intro e he
      rcases List.mem_append.mp he with he | he
      · exact hwrites e he
      · exact hmem e he
    refine hwriteBack.wp_seq ?_ ?_
    · rintro ⟨writeBack, detail⟩ s₃ ⟨⟨more, hmore, hmem⟩, _⟩
      obtain ⟨after', hafter', h⟩ := happend s₃ more hmore hmem
      exact h.finished hafter' (.ofCompleted writeBack detail)
    · rintro _ s₃ ⟨⟨more, hmore, hmem⟩, _⟩ e rfl
      obtain ⟨after', hafter', h⟩ := happend s₃ more hmore hmem
      exact h.finished hafter' (.ofError (by nofun) e (.inr rfl))

/-- A completed run whose results could not be persisted. -/
theorem unpersisted_finishes (error : Text) :
    finishes fuel ctx initial (.failed error) (do
      let _ ← attemptAndRecordRestore fuel ctx initial (some completion)
        measuredOscillationPeriodMs
      recordTimingMetricsIfPresent ((← get).program.timing.finish none)
      bail error) s := by
  exact finishes_attempt fun attempt after s₁ hancillary hattempted =>
    wp_bind.mpr (wp_get.mpr (hattempted.fails hancillary _ error))

end Finishers

/-! ### From the transition to the finishers -/

/-- From `base` on, a run comes to its restore with a cause and in a state as `P` says, and
returns. -/
def ComesToFinish (fuel : ℕ) (ctx : RunContext) (initial : InitialState)
    (P : ExitCause → Sys → Prop) (base : List Event) (result : Except Text RunOutcome)
    (s' : Sys) : Prop :=
  ∃ cause s₁ before tail, P cause s₁ ∧ s₁.trace = base ++ before ∧
    s'.trace = base ++ (before ++ tail) ∧ (∀ e ∈ before, e.OutsideAttempt) ∧
    Finished fuel ctx initial cause s₁ result tail

theorem ComesToFinish.after {fuel : ℕ} {P : ExitCause → Sys → Prop} {base base' : List Event}
    {result : Except Text RunOutcome} {s' : Sys}
    (h : ComesToFinish fuel ctx initial P base' result s')
    (hbase : Appends Event.OutsideAttempt base base') :
    ComesToFinish fuel ctx initial P base result s' := by
  obtain ⟨new, rfl, hnew⟩ := hbase
  obtain ⟨cause, s₁, before, tail, hcause, hs₁, htrace, hbefore, hfinished⟩ := h
  refine ⟨cause, s₁, new ++ before, tail, hcause, ?_, ?_, ?_, hfinished⟩
  · rw [hs₁, List.append_assoc]
  · simp only [htrace, List.append_assoc]
  · intro e he
    rcases List.mem_append.mp he with he | he
    · exact hnew e he
    · exact hbefore e he

theorem finishes.comes {fuel : ℕ} {x : Io RunOutcome} {P : ExitCause → Sys → Prop}
    (h : finishes fuel ctx initial cause x s) (hP : P cause s) :
    returns x (ComesToFinish fuel ctx initial P s.trace) s := by
  refine returns_mono h ?_
  rintro result s' ⟨tail, htrace, hfinished⟩
  exact ⟨cause, s, [], tail, hP, (List.append_nil _).symm, htrace,
    fun _ he => absurd he List.not_mem_nil, hfinished⟩

/-- What precedes the restore is caught, and its run decides how to go on. -/
theorem returns_tryErr {α β : Type} {x : Io β} {f : Except Text β → Io α}
    {Q : Except Text α → Sys → Prop} {p : Event → Prop}
    (hx : Keeps (within p fun _ => ()) x)
    (hok : ∀ b s', x s = .ok b s' → Appends p s.trace s'.trace → returns (f (.ok b)) Q s')
    (herror : ∀ e s', x s = .error (.err e) s' → Appends p s.trace s'.trace →
      returns (f (.error e)) Q s') :
    returns (tryErr x >>= f) Q s := by
  have hrun : wlp (tryErr x) (fun r s' => Appends p s.trace s'.trace ∧
      (∀ b, r = .ok b → x s = .ok b s') ∧ ∀ e, r = .error e → x s = .error (.err e) s') s := by
    refine wlp_tryErr (wp_mono (hx.and_wp (wp_run x s)) ?_ ?_)
    · rintro b s' ⟨hrel, hb⟩
      refine ⟨hrel.1, fun _ heq => ?_, fun _ heq => (by cases heq)⟩
      cases heq
      exact hb
    · rintro _ s' ⟨hrel, he⟩ e rfl
      refine ⟨hrel.1, fun _ heq => (by cases heq), fun _ heq => ?_⟩
      cases heq
      exact he
  refine (NoError.tryErr x).returns_seq hrun ?_
  rintro (e | b) s' ⟨happ, hr⟩
  · exact herror e s' (hr.2 e rfl) happ
  · exact hok b s' (hr.1 b rfl) happ

section Run

variable {initial : InitialState} {fuel : ℕ}

theorem finishCompletedRun_comes {P : ExitCause → Sys → Prop} (writePid : Option ResponseLevel)
    (hasHandler : Bool) (ownership : Option LiveOperationGuard) (action : Action ℚ)
    (completion : SettlingInput) (measuredOscillationPeriodMs : Option (XNum ℚ))
    (hok : ∀ s', persistResults ctx initial action s = .ok () s' → P .completed s')
    (herror : ∀ e s', persistResults ctx initial action s = .error (.err e) s' → P (.failed e) s') :
    returns (finishCompletedRun fuel ctx initial writePid hasHandler ownership action completion
      measuredOscillationPeriodMs) (ComesToFinish fuel ctx initial P s.trace) s := by
  refine returns_tryErr (keeps_persistResults (fun _ h _ => h.outsideAttempt) ctx initial action)
    ?_ ?_
  · intro _ s' hrun happ
    exact returns_mono (finishes.comes (finishPersistedRun_finishes _ _ _) (hok s' hrun))
      fun _ _ h => h.after happ
  · intro e s' hrun happ
    exact returns_mono (finishes.comes (unpersisted_finishes e) (herror e s' hrun))
      fun _ _ h => h.after happ

/-- The period is computed from what the loop returned, and nothing else happens. -/
theorem completedOscillationPeriodMs_spec (pollResult : Except Text PollOutcome) :
    wp (completedOscillationPeriodMs ctx initial pollResult) (fun _ s' => s' = s)
      (fun f _ => f.error? = none) s := by
  unfold completedOscillationPeriodMs
  split
  · refine wp_seq (M := fun _ s' => s' = s) ?_ fun _ _ h => h
    unfold completedOscillation
    split
    · rfl
    · split
      · rfl
      · exact rfl
  · rfl

/-- From the polling loop on. -/
theorem pollAndFinish_comes {P : ExitCause → Sys → Prop} (writePid : Option ResponseLevel)
    (hasHandler : Bool) (ownership : Option LiveOperationGuard)
    (hpoll : ∀ e s', pollFresh fuel ctx initial s = .error (.err e) s' → P (.failed e) s')
    (haborted : ∀ reason s', pollFresh fuel ctx initial s = .ok (.aborted reason) s' →
      P (.aborted reason) s')
    (hpersisting : ∀ action state next s₁ e s',
      pollFresh fuel ctx initial s = .ok (.completed action state next) s₁ →
      persistResults ctx initial action s₁ = .error (.err e) s' → P (.failed e) s')
    (hcompleted : ∀ action state next s₁ s',
      pollFresh fuel ctx initial s = .ok (.completed action state next) s₁ →
      persistResults ctx initial action s₁ = .ok () s' → P .completed s') :
    returns (pollAndFinish fuel ctx initial writePid hasHandler ownership)
      (ComesToFinish fuel ctx initial P s.trace) s := by
  have hkeeps : Keeps (within Event.OutsideAttempt fun _ => ()) (pollFresh fuel ctx initial) := by
    have hfresh : ∀ f, Keeps (within Event.OutsideAttempt fun _ => ()) (modifyProgram f) :=
      fun _ => keeps_modifyProgram fun _ => rfl
    exact (hfresh _).bind fun _ => within_mono (keeps_runPollingLoop fuel ctx)
      (fun _ h => h.1.outsideAttempt) fun _ _ _ => rfl
  have hperiod : ∀ {s₁ pollResult} {f : Option (XNum ℚ) → Io RunOutcome} {Q},
      (∀ period, returns (f period) Q s₁) →
      returns (completedOscillationPeriodMs ctx initial pollResult >>= f) Q s₁ := by
    intro s₁ pollResult f Q hf
    refine wp_seq (wp_mono (completedOscillationPeriodMs_spec pollResult) (fun _ _ h => h) ?_) ?_
    · rintro _ s' hfault e rfl
      exact absurd hfault nofun
    · rintro period _ rfl
      exact hf period
  refine returns_tryErr hkeeps ?_ ?_
  · intro outcome s₁ hrun happ
    refine hperiod fun period => wp_bind.mpr (wp_get.mpr ?_)
    cases outcome with
    | completed action state next =>
      refine returns_mono (finishCompletedRun_comes writePid hasHandler ownership action
        ⟨state, next⟩ period (fun s' h => hcompleted _ _ _ _ _ hrun h)
        (fun e s' h => hpersisting _ _ _ _ _ _ hrun h)) fun _ _ h => h.after happ
    | aborted reason =>
      exact returns_mono (finishes.comes (finishAbortedRun_finishes _ _) (haborted _ _ hrun))
        fun _ _ h => h.after happ
  · intro e s₁ hrun happ
    refine hperiod fun period => wp_bind.mpr (wp_get.mpr ?_)
    exact returns_mono (finishes.comes (finishFailedRun_finishes _ _) (hpoll _ _ hrun))
      fun _ _ h => h.after happ

theorem executeMutating_comes (writePid : Option ResponseLevel) (hasHandler : Bool)
    (ownership : Option LiveOperationGuard) :
    returns (executeMutating fuel ctx initial writePid hasHandler ownership)
      (ComesToFinish fuel ctx initial (ExitsWith fuel ctx initial (s.beginRun ctx initial)) s.trace)
      s := by
  refine wp_bind.mpr ((wp_modifyProgram _).mpr ?_)
  change returns _ _ (s.beginRun ctx initial)
  have htrace : (s.beginRun ctx initial).trace = s.trace := rfl
  rw [← htrace]
  generalize s.beginRun ctx initial = s₀
  have hkeeps : Keeps (within Event.OutsideAttempt fun _ => ()) (transitionToManual ctx initial) :=
    within_mono (keeps_transitionToManual ctx initial) (fun _ h => h.1.outsideAttempt)
      fun _ _ h => h
  refine returns_tryErr hkeeps ?_ ?_
  · intro _ s₁ hrun happ
    refine returns_mono (pollAndFinish_comes writePid hasHandler ownership
      (fun e s' h => .polling hrun h) (fun reason s' h => .aborted hrun h)
      (fun _ _ _ _ _ _ h h' => .persisting hrun h h') fun _ _ _ _ _ h h' => .completed hrun h h')
      fun _ _ h => h.after happ
  · intro e s₁ hrun happ
    exact returns_mono (finishes.comes (notEntered_finishes e)
      (ExitsWith.transition hrun)) fun _ _ h => h.after happ

end Run

/-- **Restore on every exit.**  Whatever the driver, the database, the clock and the interrupts
do, a run that entered the transition to Manual returns with exactly one restore attempt that has
run to its end.  In it the MV step comes before every other write, no relay write follows its
beginning, the error that ended the run comes back unchanged, and the result is
`RestoreIncomplete` exactly when the run completed or aborted, that was recorded, and the attempt
was incomplete. -/
theorem restore_on_every_exit (fuel : ℕ) (ctx : RunContext) (writePid : Option ResponseLevel)
    (hasHandler : Bool) (ownership : Option LiveOperationGuard) (s : Sys) :
    returns (executeWithTiming fuel ctx writePid hasHandler ownership)
      (Exited fuel ctx ownership s) s := by
  have hprepare : Keeps (within Event.Silent fun _ => ()) (prepareExecution ctx ownership) :=
    keeps_prepareExecution (fun _ h _ => h) ctx ownership
  refine wp_bind.mpr (wp_mono (hprepare.and_wp (wp_run _ s)) ?_ ?_)
  · rintro initial s₀ ⟨⟨⟨new, hnew, hsilent⟩, _⟩, hrun⟩
    refine returns_mono (executeMutating_comes writePid hasHandler ownership) ?_
    rintro result s' ⟨cause, s₁, before, tail, hcause, hs₁, htrace, hbefore, hfinished⟩
    refine ⟨new ++ (before ++ tail), by rw [htrace, hnew, List.append_assoc], fun _ => ?_⟩
    refine ⟨initial, s₀, cause, s₁, new ++ before, tail, hrun, hcause,
      by rw [hs₁, hnew, List.append_assoc], (List.append_assoc _ _ _).symm, ?_, hfinished⟩
    intro e he
    rcases List.mem_append.mp he with he | he
    · exact (hsilent e he).outsideAttempt
    · exact hbefore e he
  · rintro _ s' ⟨⟨⟨new, hnew, hsilent⟩, _⟩, _⟩ e rfl
    exact ⟨new, hnew, fun hentered => absurd (hsilent _ hentered) id⟩

end Bhtune
