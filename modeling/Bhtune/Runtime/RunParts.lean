import Bhtune.Runtime.RestoreOnExit

/-!
# The parts of a run before its write-back

Frames of everything `execute_with_timing` is made of, except the write-back and the statement
that ends the run: no part writes a PID constant, and every write goes to the tag its origin
names.
-/

namespace Bhtune

open Effect EventLog

/-- A write of a PID constant. -/
def Event.WritesPid : Event → Prop
  | .write call => call.origin = .pid
  | _ => False

/-- What the parts of a run before its write-back do to the outside. -/
def Event.Ordinary (ctx : RunContext) (initial : InitialState) (e : Event) : Prop :=
  e.Regular ctx initial ∧ ¬e.WritesPid

/-- The frame of a program of which only the passing of the outside matters. -/
abbrev passing : Frame Sys := within (fun _ => True) fun _ => ()

theorem passes_anyway {α τ : Type} {p : Event → Prop} {part : Program → τ} {x : Io α}
    (h : Keeps (within p part) x) : Keeps passing x :=
  within_mono h (fun _ _ => trivial) fun _ _ _ => rfl

variable {ctx : RunContext} {initial : InitialState}

/-! ### The kinds of events -/

theorem Event.Silent.ordinary {e : Event} (h : e.Silent) (hopen : ¬e.Closes) :
    e.Ordinary ctx initial := by
  refine ⟨h.regular hopen ctx initial, ?_⟩
  cases e with
  | write call => exact h.elim
  | _ => exact id

theorem Event.EntersManual.not_writesPid {e : Event} (h : e.EntersManual) : ¬e.WritesPid := by
  cases e with
  | write call =>
    intro (hpid : call.origin = .pid)
    rcases h with h | h <;> rw [h] at hpid <;> cases hpid
  | _ => exact id

theorem Event.Polls.not_writesPid {e : Event} (h : e.Polls) : ¬e.WritesPid := by
  cases e with
  | write call =>
    intro (hpid : call.origin = .pid)
    obtain ⟨_, _, h⟩ := h
    rw [h] at hpid
    cases hpid
  | _ => exact id

theorem Event.RestoresMv.ordinary {e : Event} (h : e.RestoresMv ctx initial.mvIni)
    (hopen : ¬e.Closes) : e.Ordinary ctx initial := by
  refine ⟨⟨hopen, h.addressed⟩, ?_⟩
  cases e with
  | write call =>
    intro (hpid : call.origin = .pid)
    obtain ⟨⟨_, h⟩, _⟩ := h
    rw [h] at hpid
    cases hpid
  | _ => exact id

theorem Event.AfterMv.not_writesPid {e : Event} (h : e.AfterMv) : ¬e.WritesPid := by
  cases e with
  | write call =>
    intro (hpid : call.origin = .pid)
    rcases h with h | h | h <;> rw [h] at hpid <;> cases hpid
  | _ => exact id

/-! ### The parts -/

section Parts

variable {p : Event → Prop} (hp : ∀ e, Event.Ordinary ctx initial e → p e)

include hp in
theorem keeps_quietStatement (op : DbOp) (hop : ¬op.Closes) :
    Keeps (within p fun _ => ()) (runStatement op) :=
  keeps_statement (fun _ h hopen => hp _ (h.ordinary hopen)) op hop

include hp in
theorem keeps_transition :
    Keeps (within p fun _ => ()) (transitionToManual ctx initial) :=
  within_mono (keeps_transitionToManual ctx initial)
    (fun _ h => hp _ ⟨h.2 initial, h.1.not_writesPid⟩) fun _ _ h => h

include hp in
theorem keeps_pollFresh (fuel : ℕ) :
    Keeps (within p fun _ => ()) (pollFresh fuel ctx initial) := by
  have hfresh : ∀ f, Keeps (within p fun _ => ()) (modifyProgram f) :=
    fun _ => keeps_modifyProgram fun _ => rfl
  exact (hfresh _).bind fun _ => within_mono (keeps_runPollingLoop fuel ctx)
    (fun _ h => hp _ ⟨h.2 initial, h.1.not_writesPid⟩) fun _ _ h => h

include hp in
theorem keeps_attemptRestore (fuel : ℕ) (completion : Option SettlingInput)
    (measuredOscillationPeriodMs : Option (XNum ℚ)) (policy : ActuationAuditPolicy) :
    Keeps (within p fun _ => ())
      (attemptRestore fuel ctx initial completion measuredOscillationPeriodMs policy) := by
  have hmark : ∀ m, Keeps (within p fun _ => ()) (mark m) := fun _ =>
    keeps_mark (hp _ ⟨⟨id, trivial⟩, id⟩)
  have hstart : ∀ f, Keeps (within p fun _ => ()) (modifyProgram f) :=
    fun _ => keeps_modifyProgram fun _ => rfl
  have hstep : Keeps (within p fun _ => ())
      (restoreMvWithVerification fuel ctx initial.mvIni policy) :=
    within_mono (keeps_restoreMvWithVerification (fun _ _ => rfl) (fun _ _ => rfl) fuel ctx
      initial.mvIni policy) (fun _ h => hp _ (h.1.ordinary h.2)) fun _ _ h => h
  refine (hmark _).bind fun _ => Keeps.bind ?_ fun attempt => (hmark _).bind fun _ => .pure _
  refine keeps_now.bind fun start => (hstart _).bind fun _ => (keeps_tryErr hstep).bind fun r => ?_
  cases restoreMvOutcomeOrFailed r with
  | interrupted reason => exact .pure _
  | «continue» mv =>
    exact keeps_afterMvStep (fun _ h hregular => hp _ ⟨hregular, h.afterMv.not_writesPid⟩)
      (fun _ => hp _ ⟨⟨id, trivial⟩, id⟩) (fun _ => hp _ ⟨⟨id, trivial⟩, id⟩)
      (fun _ => hp _ ⟨⟨id, trivial⟩, id⟩) (fun _ _ => rfl) (fun _ _ => rfl) _ _ _ _
      fun _ _ _ _ _ _ => hp _ ⟨⟨id, trivial⟩, id⟩

include hp in
theorem keeps_recordedAttempt {α : Type} (fuel : ℕ) (completion : Option SettlingInput)
    (measuredOscillationPeriodMs : Option (XNum ℚ)) (detail : String) (f : RestoreAttempt → α) :
    Keeps (within p fun _ => ()) (do
      let attempt ← attemptRestore fuel ctx initial completion measuredOscillationPeriodMs
        .bestEffort
      recordRestoreStatusBestEffort attempt
      finalizePendingForRunBestEffort detail
      return f attempt) :=
  (keeps_attemptRestore hp fuel completion measuredOscillationPeriodMs .bestEffort).bind fun _ =>
    (keeps_bestEffort (keeps_quietStatement hp _ id)).bind fun _ =>
      (keeps_bestEffort (keeps_quietStatement hp _ id)).bind fun _ => .pure _

include hp in
theorem keeps_recordTimingMetrics (metrics : Option TimingMetrics) :
    Keeps (within p fun _ => ()) (recordTimingMetricsIfPresent metrics) := by
  cases metrics with
  | none => exact .pure _
  | some metrics => exact keeps_bestEffort (keeps_quietStatement hp _ id)

include hp in
/-- A run that failed is restored, and nothing else comes of it. -/
theorem keeps_finishFailedRun (fuel : ℕ) (error : Text) (metrics : Option TimingMetrics) :
    Keeps (within p fun _ => ()) (finishFailedRun fuel ctx initial error metrics) :=
  (keeps_recordedAttempt hp fuel none none _ fun _ => error).bind fun _ =>
    (keeps_recordTimingMetrics hp metrics).bind fun _ => keeps_bail _

include hp in
/-- A completed run whose results could not be persisted is restored, and nothing else comes of
it. -/
theorem keeps_unpersisted (fuel : ℕ) (completion : SettlingInput)
    (measuredOscillationPeriodMs : Option (XNum ℚ)) (error : Text) :
    Keeps (within p fun _ => ()) (do
      let _ ← attemptAndRecordRestore fuel ctx initial (some completion)
        measuredOscillationPeriodMs
      recordTimingMetricsIfPresent ((← get).program.timing.finish none)
      (bail error : Io RunOutcome)) :=
  (keeps_recordedAttempt hp fuel _ _ _ id).bind fun _ => Keeps.get.bind fun _ =>
    (keeps_recordTimingMetrics hp _).bind fun _ => keeps_bail _

include hp in
/-- A run that did not enter Manual is restored, and nothing else comes of it. -/
theorem keeps_notEntered (fuel : ℕ) (error : Text) :
    Keeps (within p fun _ => ())
      (restoreBestEffortThenPropagate fuel ctx initial error >>= fun e =>
        (bail e : Io RunOutcome)) :=
  (keeps_recordedAttempt hp fuel none none _ fun _ => error).bind fun _ => keeps_bail _

include hp in
/-- The end of a run that aborted. -/
theorem keeps_finishAbortedRun
    (habort : ∀ metrics detail result, p (.db (.abortRun metrics detail) result)) (fuel : ℕ)
    (reason : AbortReason) (metrics : Option TimingMetrics) :
    Keeps (within p fun _ => ()) (finishAbortedRun fuel ctx initial reason metrics) := by
  refine (keeps_recordedAttempt hp fuel none none _ id).bind fun attempt => ?_
  have hend : ∀ detail, Keeps (within p fun _ => ())
      (closeAbortedRun reason metrics detail attempt) := by
    intro detail
    refine (keeps_runStatement fun result => habort _ _ _).bind fun _ => ?_
    cases attempt <;> exact .pure _
  cases reason with
  | mvActuationUnconfirmed tag target readback tolerance elapsedMs deadlineSecs => exact hend _
  | _ => exact hend none

end Parts

theorem keeps_releaseOwnership {p : Event → Prop}
    (hp : ∀ result, p (.db .releaseOwnership result)) (ownership : Option LiveOperationGuard) :
    Keeps (within p fun _ => ()) (releaseOwnership ownership) := by
  cases ownership with
  | none => exact .pure _
  | some guard => exact keeps_ensureHealthy.bind fun _ => keeps_runStatement hp

/-- A failed run is closed by statements alone. -/
theorem keeps_failReport {p : Event → Prop}
    (hp : ∀ op result, ¬op.Stores → (∀ metrics, op ≠ .completeRun metrics) → p (.db op result))
    (prepared : PreparedTune) (e : Text) :
    Keeps (within p fun _ => ()) (failReport prepared e) := by
  have hfinalize : Keeps (within p fun _ => ())
      (finalizePendingForRunBestEffort "the run failed before MV confirmation completed") :=
    keeps_bestEffort (keeps_runStatement fun _ => hp _ _ id nofun)
  have hfailed : Keeps (within p fun _ => ()) (tryErr (runStatement (.failRun e))) :=
    keeps_tryErr (keeps_runStatement fun _ => hp _ _ id nofun)
  refine hfinalize.bind fun _ => hfailed.bind fun r => ?_
  cases r with
  | error persistError => exact keeps_bail _
  | ok _ =>
    refine (keeps_tryErr (keeps_releaseOwnership (fun _ => hp _ _ id nofun) _)).bind fun r => ?_
    cases r <;> exact keeps_bail _

/-! ### The way to the restore -/

section Restore

variable {fuel : ℕ} {ctx : RunContext} {initial : InitialState} {s s' : Sys} {cause : ExitCause}

theorem passes_pollFresh : Keeps passing (pollFresh fuel ctx initial) :=
  keeps_pollFresh (fun _ _ => trivial) fuel

theorem passes_to_polling (h : transitionToManual ctx initial s = .ok () s') : s.Passes s' :=
  (Keeps.rel_of_ok (keeps_transitionToManual ctx initial) h).2.1

/-- Time passes on the way to the restore. -/
theorem ExitsWith.passes (h : ExitsWith fuel ctx initial s cause s') : s.Passes s' := by
  have hpersist : ∀ action, Keeps (within Event.Silent fun _ => ())
      (persistResults ctx initial action) := fun action =>
    keeps_persistResults (fun _ h _ => h) ctx initial action
  cases h with
  | transition h => exact (Keeps.rel_of_error (keeps_transitionToManual ctx initial) h).2.1
  | polling h hpoll =>
    exact (passes_to_polling h).trans (Keeps.rel_of_error passes_pollFresh hpoll).2.1
  | aborted h hpoll =>
    exact (passes_to_polling h).trans (Keeps.rel_of_ok passes_pollFresh hpoll).2.1
  | persisting h hpoll hresults =>
    exact ((passes_to_polling h).trans (Keeps.rel_of_ok passes_pollFresh hpoll).2.1).trans
      (Keeps.rel_of_error (hpersist _) hresults).2.1
  | completed h hpoll hresults =>
    exact ((passes_to_polling h).trans (Keeps.rel_of_ok passes_pollFresh hpoll).2.1).trans
      (Keeps.rel_of_ok (hpersist _) hresults).2.1

end Restore

end Bhtune
