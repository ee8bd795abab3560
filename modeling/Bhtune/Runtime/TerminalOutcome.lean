import Bhtune.Db.Rows
import Bhtune.Runtime.RunParts

/-!
# The terminal outcome of a run

Which statements of `drive_report` store a terminal outcome, and in which runs a stored one stays.
None of the three UPDATEs looks at the outcome it replaces, and an error of the write-back that
follows a stored completion goes on to the statement that marks the run failed.

* `Event.outcome?`, `OutcomeOnce` — the outcome an event stores, and that no later event stores
  another;
* `Blames` — a program that fails with an error only after one of its statements did;
* `CompletionStored` — the state of a run right after it stored its completion;
* `executeWithTiming_ends` — what a run leaves behind, by the way it ends;
* `terminal_outcome_once` — the whole of `drive_report`.
-/

namespace Bhtune

open Effect EventLog

/-! ### Stored outcomes -/

/-- The terminal outcome an event stores. -/
def Event.outcome? : Event → Option TuneOutcome
  | .db (.completeRun _) (.ok _) => some .completed
  | .db (.abortRun _ _) (.ok _) => some .aborted
  | .db (.failRun _) (.ok _) => some .failed
  | _ => none

/-- Once an outcome is stored, no later event stores another. -/
def OutcomeOnce (trace : List Event) : Prop :=
  trace.Pairwise fun e e' => e.outcome? ≠ none → e'.outcome? = none

/-- No outcome is stored yet. -/
def Undecided (trace : List Event) : Prop := ∀ e ∈ trace, e.outcome? = none

/-- A statement that failed; the release of the ownership is not looked at. -/
def Event.Fails : Event → Prop
  | .db op (.error _) => op ≠ .releaseOwnership
  | _ => False

/-- Every statement that follows a stored completion succeeds. -/
def StoredOnward (trace : List Event) : Prop :=
  ∀ pre metrics id post, trace = pre ++ .db (.completeRun metrics) (.ok id) :: post →
    ∀ e ∈ post, ¬e.Fails

/-- A completion was stored, and a later statement failed. -/
def FailedOnward (trace : List Event) : Prop :=
  ∃ pre metrics id post, trace = pre ++ .db (.completeRun metrics) (.ok id) :: post ∧
    Undecided pre ∧ Undecided post ∧ ∃ e ∈ post, e.Fails

variable {trace trace' : List Event} {s : Sys}

theorem outcome?_of_open {e : Event} (h : ¬e.Closes) : e.outcome? = none := by
  cases e with
  | db op result => cases op <;> first | exact absurd trivial h | rfl
  | _ => rfl

theorem Undecided.nil : Undecided [] := List.forall_mem_nil _

theorem Undecided.append (h : Undecided trace) (h' : Appends (¬·.Closes) trace trace') :
    Undecided trace' := by
  obtain ⟨new, rfl, hnew⟩ := h'
  intro e he
  rcases List.mem_append.mp he with he | he
  · exact h e he
  · exact outcome?_of_open (hnew e he)

theorem Undecided.once (h : Undecided trace) : OutcomeOnce trace := by
  refine List.Pairwise.imp_of_mem (R := fun _ _ => True) ?_ (List.pairwise_of_forall fun _ _ => trivial)
  intro e e' _ he' _ _
  exact h e' he'

theorem OutcomeOnce.append (h : OutcomeOnce trace) (h' : Appends (¬·.Closes) trace trace') :
    OutcomeOnce trace' := by
  obtain ⟨new, rfl, hnew⟩ := h'
  refine List.pairwise_append.mpr ⟨h, ?_, ?_⟩
  · exact Undecided.once fun e he => outcome?_of_open (hnew e he)
  · exact fun _ _ e' he' _ => outcome?_of_open (hnew e' he')

/-- One more event after an undecided record. -/
theorem Undecided.concat (h : Undecided trace) (e : Event) : OutcomeOnce (trace ++ [e]) := by
  refine List.pairwise_append.mpr ⟨h.once, List.pairwise_singleton _ _, ?_⟩
  intro e' he' _ _ hne
  exact absurd (h e' he') hne

/-- A statement that failed stores nothing. -/
theorem Undecided.concat_error (h : Undecided trace) (op : DbOp) (error : String) :
    Undecided (trace ++ [.db op (.error error)]) := by
  intro e he
  rcases List.mem_append.mp he with he | he
  · exact h e he
  · rw [List.mem_singleton.mp he]
    cases op <;> rfl

theorem FailedOnward.once (h : FailedOnward trace) : OutcomeOnce trace := by
  obtain ⟨pre, metrics, id, post, rfl, hpre, hpost, _⟩ := h
  refine List.pairwise_append.mpr ⟨hpre.once, List.pairwise_cons.mpr ⟨?_, hpost.once⟩, ?_⟩
  · exact fun e he _ => hpost e he
  · intro e he _ _ hne
    exact absurd (hpre e he) hne

/-- What follows a failed statement cannot undo it. -/
theorem FailedOnward.not_stored (h : FailedOnward trace) (h' : Appends (fun _ => True) trace trace') :
    ¬StoredOnward trace' := by
  obtain ⟨pre, metrics, id, post, rfl, _, _, e, he, hfails⟩ := h
  obtain ⟨new, rfl, _⟩ := h'
  intro hstored
  refine hstored pre metrics id (post ++ new) ?_ e (List.mem_append_left _ he) hfails
  simp only [List.append_assoc, List.cons_append]

/-! ### Errors that a statement is to blame for -/

/-- From now on the ownership heartbeat is found alive whenever it is asked for. -/
def Sys.Alive (s : Sys) : Prop :=
  ∀ n, s.cursor ≤ n → (s.environment.answers n).healthy = true

/-- A program that fails with an error only after one of its statements did, where the heartbeat
is alive if it is `asked` for. -/
structure Blames {α : Type} (asked : Prop) (x : Io α) : Prop where
  keeps : Keeps passing x
  blames : ∀ s : Sys, (asked → s.Alive) → wp x (fun _ _ => True)
    (fun f s' => (∃ e, f = .err e) →
      ∃ r, Event.Fails r ∧ Brings (fun _ => True) r s.trace s'.trace) s

theorem Sys.Alive.passes {s' : Sys} (h : s.Alive) (hpasses : s.Passes s') : s'.Alive := by
  intro n hn
  rw [hpasses.environment]
  exact h n (hpasses.cursor.trans hn)

namespace Blames

variable {α β : Type} {asked : Prop}

theorem ofNoError {x : Io α} (hkeeps : Keeps passing x) (h : NoError x) : Blames asked x where
  keeps := hkeeps
  blames := by
    intro s _
    refine wp_mono (h s) (fun _ _ h => h) ?_
    rintro f s' hnone ⟨e, rfl⟩
    cases hnone

theorem pure (a : α) : Blames asked (Pure.pure a : Io α) := ofNoError (.pure a) (.pure a)

theorem bind {x : Io β} {f : β → Io α} (hx : Blames asked x) (hf : ∀ b, Blames asked (f b)) :
    Blames asked (x >>= f) where
  keeps := hx.keeps.bind fun b => (hf b).keeps
  blames := by
    intro s hs
    refine wp_bind.mpr (wp_mono (hx.keeps.and_wp (hx.blames s hs)) ?_ fun _ _ h => h.2)
    rintro b s' ⟨⟨happ, hpasses, _⟩, _⟩
    refine wp_mono ((hf b).blames s' fun h => (hs h).passes hpasses) (fun _ _ h => h) ?_
    intro f s'' h herr
    obtain ⟨r, hfails, hbrings⟩ := h herr
    exact ⟨r, hfails, hbrings.prepend happ⟩

theorem statement (op : DbOp) (hop : op ≠ .releaseOwnership) : Blames asked (database op) where
  keeps := keeps_database fun _ => trivial
  blames := by
    intro s _
    refine wp_mono (database_ends op) (fun _ _ _ => trivial) ?_
    rintro f s' (⟨rfl, _⟩ | ⟨error, rfl, htrace⟩) ⟨e, he⟩
    · cases he
    · exact ⟨.db op (.error error), hop, htrace ▸ .single _ trivial⟩

theorem runStatement (op : DbOp) (hop : op ≠ .releaseOwnership) :
    Blames asked (runStatement op) := (statement op hop).bind fun _ => .pure _

theorem ensureHealthy (hasked : asked) : Blames asked ensureHealthy where
  keeps := keeps_ensureHealthy
  blames := by
    intro s hs
    have hhealthy : (s.environment.answers s.cursor).healthy = true :=
      hs hasked s.cursor le_rfl
    refine wp_bind.mpr (wp_bind.mpr (wp_get.mpr (wp_bind.mpr ((wp_set _).mpr ?_))))
    show wp (if (s.environment.answers s.cursor).healthy = true then _ else _) _ _ _
    rw [if_pos hhealthy]
    trivial

end Blames

/-! ### The write-back -/

theorem noError_consult : NoError consult := fun _ => trivial

theorem noError_writeAndVerifyPidValue (step : PidStep) (allowUncertain : Bool) :
    NoError (writeAndVerifyPidValue step allowUncertain) := by
  refine (NoError.tryErr _).bind fun r => ?_
  cases r with
  | error e => exact .pure _
  | ok _ =>
    refine (NoError.tryErr _).bind fun r => ?_
    cases r with
    | error e => exact .pure _
    | ok readback =>
      dsimp only
      split <;> exact .pure _

theorem noError_writePidSteps (allowUncertain : Bool) (done : List (PidStep × ℚ))
    (steps : List PidStep) : NoError (writePidSteps allowUncertain done steps) := by
  induction steps generalizing done with
  | nil => exact .pure _
  | cons step rest ih =>
    refine (noError_writeAndVerifyPidValue step allowUncertain).bind fun r => ?_
    cases r with
    | ok readback => exact ih _
    | error e => exact .pure _

theorem noError_rollbackPidWrites (steps : List PidStep) : NoError (rollbackPidWrites steps) := by
  induction steps with
  | nil => exact .pure _
  | cons step rest ih =>
    refine (NoError.tryErr _).bind fun r => ?_
    cases r with
    | ok _ => exact (NoError.pure _).bind fun _ => ih.bind fun _ => .pure _
    | error e => exact (NoError.pure _).bind fun _ => ih.bind fun _ => .pure _

section WriteBack

variable {asked : Prop}

theorem blames_insertWrite (row : NewTuneWrite) :
    Blames asked (runStatement (.insertWrite row)) := .runStatement _ nofun

theorem blames_failPidWrite (runId : ℕ) (kind : WriteKind) (row : NewTuneWrite)
    (done : List PidStep) (errorMessage : Text) :
    Blames asked (failPidWrite runId kind row done errorMessage) := by
  unfold failPidWrite
  dsimp only
  split
  · exact (blames_insertWrite _).bind fun _ => .pure _
  · refine (Blames.ofNoError (keeps_rollbackPidWrites (fun _ _ => trivial) done)
      (noError_rollbackPidWrites done)).bind fun failures => ?_
    cases failures with
    | nil => exact (blames_insertWrite _).bind fun _ => .pure _
    | cons failure failures => exact (blames_insertWrite _).bind fun _ => .pure _

/-- A write under the ownership of its own run. -/
theorem blames_writePidValuesInner (hasked : asked) (runId : ℕ) (pTag iTag dTag : String)
    (responseLevel : ResponseLevel) (target : WriteReadback) (kind : WriteKind)
    (allowUncertain : Bool) :
    Blames asked (writePidValuesInner runId pTag iTag dTag responseLevel target kind allowUncertain
      ⟨some runId⟩) := by
  have hutc : Blames asked utcNow :=
    .ofNoError keeps_utcNow (noError_consult.bind fun _ => .pure _)
  have hread : Blames asked (tryErr (readPreviousPidValues pTag iTag dTag allowUncertain)) :=
    .ofNoError (keeps_tryErr (keeps_readPreviousPidValues (fun _ => trivial) _ _ _ _))
      (NoError.tryErr _)
  refine (Blames.ensureHealthy hasked).bind fun _ => ?_
  rw [if_neg (not_not_intro rfl)]
  refine hutc.bind fun writtenAt => hread.bind fun r => ?_
  cases r with
  | error e => exact (blames_insertWrite _).bind fun _ => .pure _
  | ok previous =>
    refine ((Blames.runStatement .readLiveOwner nofun).bind fun _ =>
      (Blames.ensureHealthy hasked).bind fun _ =>
        Blames.runStatement (.persistPidRestoreIntent _) nofun).bind fun _ =>
          (Blames.ofNoError (keeps_writePidSteps (fun _ => trivial) (fun _ _ => trivial) _ _ _)
            (noError_writePidSteps _ _ _)).bind fun result => ?_
    obtain ⟨done, failure⟩ := result
    cases failure with
    | none => exact (blames_insertWrite _).bind fun _ => .pure _
    | some failed => exact blames_failPidWrite _ _ _ _ _

end WriteBack

/-- A response level may be chosen for the PID tags of the run: the request names one, or an
adapter is asked. -/
def PreparedTune.MayChoose (prepared : PreparedTune) (hasHandler : Bool) : Prop :=
  prepared.ctx.tags.proportionalConstant.isSome = true ∧
    prepared.ctx.tags.integralConstant.isSome = true ∧
    prepared.ctx.tags.derivativeConstant.isSome = true ∧
    (prepared.writePid.isSome = true ∨ hasHandler = true)

/-- **A write-back fails with an error only after one of its statements did.** -/
theorem blames_maybeWriteBack (prepared : PreparedTune) (hasHandler : Bool) :
    Blames (prepared.MayChoose hasHandler)
      (maybeWriteBack prepared.ctx prepared.writePid hasHandler prepared.ownership) := by
  unfold maybeWriteBack
  split
  · rename_i hp hi hd
    have hchoose : prepared.writePid.isSome = true ∨ hasHandler = true →
        prepared.MayChoose hasHandler := fun h => ⟨hp ▸ rfl, hi ▸ rfl, hd ▸ rfl, h⟩
    have howned : prepared.ownership = some ⟨some prepared.ctx.runId⟩ := by
      cases hdriver : prepared.ctx.driver with
      | opcda => exact prepared.owned hdriver
      | simulator =>
        rw [(prepared.unowned hdriver).2] at hp
        cases hp
    refine (Blames.statement .listResults nofun).bind fun a => ?_
    dsimp only
    split
    · exact .pure _
    · have hselect : ∀ {f : WriteBackSelection → Io (WriteBackOutcome × Option Text)},
          (∀ detail, Blames (prepared.MayChoose hasHandler) (f (.skipped detail))) →
          (∀ selection, prepared.MayChoose hasHandler →
            Blames (prepared.MayChoose hasHandler) (f selection)) →
          Blames (prepared.MayChoose hasHandler)
            (selectResponseLevel prepared.writePid hasHandler >>= f) := by
        intro f hskipped hasked
        unfold selectResponseLevel
        cases hw : prepared.writePid with
        | some level => exact (Blames.pure _).bind fun _ => hasked _ (hchoose (.inl (hw ▸ rfl)))
        | none =>
          cases hasHandler with
          | true =>
            exact (Blames.ofNoError (keeps_consult.bind fun _ => .pure _)
              (noError_consult.bind fun _ => .pure _)).bind fun _ => hasked _ (hchoose (.inr rfl))
          | false => exact hskipped _
      refine hselect (fun detail => .pure _) fun selection hasked => ?_
      cases selection with
      | skipped detail => exact .pure _
      | failed detail => exact .pure _
      | selected level =>
        dsimp only
        split
        · exact .pure _
        · split
          · exact .pure _
          · rw [howned]
            refine (blames_writePidValuesInner hasked _ _ _ _ _ _ _ _).bind fun outcome => ?_
            cases outcome <;> exact .pure _
  · exact .pure _

/-! ### What a run leaves behind -/

/-- The frame of what ends no run. -/
abbrev running : Frame Sys := within (¬·.Closes) fun _ => ()

theorem running_silent (e : Event) (_ : e.Silent) (hopen : ¬e.Closes) : ¬e.Closes := hopen

/-- However `x` ends, one outcome at most is stored; where it ends with an error, none is, or a
statement that followed the completion failed. -/
def EndsOnce {α : Type} (x : Io α) (s : Sys) : Prop :=
  wp x (fun _ s' => OutcomeOnce s'.trace)
    (fun f s' => OutcomeOnce s'.trace ∧
      ((∃ e, f = .err e) → Undecided s'.trace ∨ FailedOnward s'.trace)) s

section EndsOnce

variable {α β : Type}

theorem EndsOnce.open {x : Io α} (h : Undecided s.trace) (hx : Keeps running x) : EndsOnce x s :=
  wp_mono (hx s) (fun _ _ hrel => (h.append hrel.1).once) fun _ _ hrel =>
    ⟨(h.append hrel.1).once, fun _ => .inl (h.append hrel.1)⟩

/-- What ends no run comes first. -/
theorem EndsOnce.seq {x : Io β} {f : β → Io α} (h : Undecided s.trace) (hx : Keeps running x)
    (hf : ∀ b s', x s = .ok b s' → Undecided s'.trace → EndsOnce (f b) s') :
    EndsOnce (x >>= f) s := by
  refine wp_bind.mpr (wp_mono (hx.and_wp (wp_run x s)) ?_ ?_)
  · rintro b s' ⟨hrel, hrun⟩
    exact hf b s' hrun (h.append hrel.1)
  · rintro _ s' ⟨hrel, _⟩
    exact ⟨(h.append hrel.1).once, fun _ => .inl (h.append hrel.1)⟩

theorem ok_of_tryErr {x : Io β} {b : β} {s' : Sys} (h : tryErr x s = .ok (.ok b) s') :
    x s = .ok b s' := by
  unfold tryErr attempt at h
  cases hx : x s with
  | ok a t =>
    rw [hx] at h
    cases h
    rfl
  | error fault t =>
    rw [hx] at h
    cases fault <;> cases h

/-- The same for a part whose error is looked at. -/
theorem EndsOnce.seq_tryErr {x : Io β} {f : Except Text β → Io α} (h : Undecided s.trace)
    (hx : Keeps running x)
    (hok : ∀ b s', x s = .ok b s' → Undecided s'.trace → EndsOnce (f (.ok b)) s')
    (herror : ∀ e s', Undecided s'.trace → EndsOnce (f (.error e)) s') :
    EndsOnce (tryErr x >>= f) s := by
  refine .seq h (keeps_tryErr hx) fun r s' hrun hs' => ?_
  cases r with
  | error e => exact herror e s' hs'
  | ok b => exact hok b s' (ok_of_tryErr hrun) hs'

theorem EndsOnce.of_get {f : Sys → Io α} (h : EndsOnce (f s) s) : EndsOnce (get >>= f) s :=
  wp_bind.mpr (wp_get.mpr h)

/-- A statement comes first. -/
theorem EndsOnce.statement {op : DbOp} {f : Unit → Io α} (h : Undecided s.trace)
    (hf : ∀ id s', runStatement op s = .ok () s' → s'.trace = s.trace ++ [.db op (.ok id)] →
      EndsOnce (f ()) s') :
    EndsOnce (runStatement op >>= f) s := by
  refine wp_bind.mpr (wp_mono (wp_and (wp_run (runStatement op) s) (runStatement_ends op)) ?_ ?_)
  · rintro _ s' ⟨hrun, id, htrace⟩
    exact hf id s' hrun htrace
  · rintro fault s' ⟨_, ⟨_, htrace⟩ | ⟨error, _, htrace⟩⟩
    · rw [htrace]
      exact ⟨h.once, fun _ => .inl h⟩
    · have hundecided := h.concat_error op error
      rw [htrace]
      exact ⟨hundecided.once, fun _ => .inl hundecided⟩

end EndsOnce

/-! ### The run -/

/-- The run that begins in `s` has just stored its completion, with its loop restored, and goes on
from `t`. -/
inductive CompletionStored (fuel : ℕ) (prepared : PreparedTune) (s : Sys) : Sys → Prop
  | intro {initial : InitialState} {s₀ s₁ s₂ t : Sys} {completion : SettlingInput}
      {period : Option (XNum ℚ)}
      (hprepare : prepareExecution prepared.ctx prepared.ownership s = .ok initial s₀)
      (hcompleted : ExitsWith fuel prepared.ctx initial (s₀.beginRun prepared.ctx initial)
        .completed s₁)
      (hrestored : attemptAndRecordRestore fuel prepared.ctx initial (some completion) period s₁ =
        .ok .confirmed s₂)
      (hstored : runStatement (.completeRun (s₂.program.timing.finish period)) s₂ = .ok () t) :
      CompletionStored fuel prepared s t

section Run

variable {fuel : ℕ} {prepared : PreparedTune} {hasHandler : Bool} {ctx : RunContext}
variable {initial : InitialState} {s₀ s₁ : Sys}

theorem not_closes_of_ordinary (e : Event) (h : e.Ordinary ctx initial) : ¬e.Closes := h.1.1

theorem CompletionStored.passes {t : Sys} (h : CompletionStored fuel prepared s t) :
    s.Passes t := by
  obtain ⟨hprepare, hcompleted, hrestored, hstored⟩ := h
  have hread : Keeps running (prepareExecution prepared.ctx prepared.ownership) :=
    keeps_prepareExecution running_silent _ _
  have hbegun : ∀ (s : Sys) initial, s.Passes (s.beginRun prepared.ctx initial) :=
    fun _ _ => .wait le_rfl le_rfl rfl rfl
  have hattempt : ∀ initial completion period, Keeps running
      (attemptAndRecordRestore fuel prepared.ctx initial completion period) := fun _ _ _ =>
    keeps_recordedAttempt not_closes_of_ordinary fuel _ _ _ id
  have hstatement : ∀ op, Keeps passing (runStatement op) := fun _ =>
    keeps_runStatement fun _ => trivial
  have hpolled := ((hread.rel_of_ok hprepare).2.1.trans (hbegun _ _)).trans hcompleted.passes
  exact (hpolled.trans ((hattempt _ _ _).rel_of_ok hrestored).2.1).trans
    ((hstatement _).rel_of_ok hstored).2.1

theorem EndsOnce.finishAbortedRun (h : Undecided s.trace) (reason : AbortReason)
    (metrics : Option TimingMetrics) :
    EndsOnce (finishAbortedRun fuel ctx initial reason metrics) s := by
  refine .seq h (keeps_recordedAttempt not_closes_of_ordinary fuel none none _ id)
    fun attempt s₁ _ h₁ => ?_
  -- nothing follows the statement but the value that is returned
  have hend : ∀ detail, EndsOnce (closeAbortedRun reason metrics detail attempt) s₁ := by
    intro detail
    refine .statement h₁ fun id s₂ _ htrace => ?_
    have honce : OutcomeOnce s₂.trace := htrace ▸ h₁.concat _
    cases attempt <;> exact honce
  cases reason with
  | mvActuationUnconfirmed tag target readback tolerance elapsedMs deadlineSecs => exact hend _
  | _ => exact hend none

/-- The end of a completed run: what follows the stored completion fails only with a statement. -/
theorem EndsOnce.finishPersistedRun (h : Undecided s₁.trace)
    (halive : prepared.MayChoose hasHandler → ∀ t, CompletionStored fuel prepared s t → t.Alive)
    (hprepare : prepareExecution prepared.ctx prepared.ownership s = .ok initial s₀)
    (hcompleted : ExitsWith fuel prepared.ctx initial (s₀.beginRun prepared.ctx initial)
      .completed s₁)
    (completion : SettlingInput) (measuredOscillationPeriodMs : Option (XNum ℚ)) :
    EndsOnce (finishPersistedRun fuel prepared.ctx initial prepared.writePid hasHandler
      prepared.ownership completion measuredOscillationPeriodMs) s₁ := by
  refine .seq h (keeps_recordedAttempt not_closes_of_ordinary fuel _ _ _ id)
    fun attempt s₂ hrestored h₂ => .of_get ?_
  refine .statement h₂ fun id t hstored htrace => ?_
  have honce : OutcomeOnce t.trace := htrace ▸ h₂.concat _
  cases attempt with
  | incomplete reason => exact honce
  | confirmed =>
    have hopen : Keeps running
        (maybeWriteBack prepared.ctx prepared.writePid hasHandler prepared.ownership) :=
      keeps_maybeWriteBack (fun _ h => h) (fun _ _ h => h) (fun _ _ h => h.ordinary.1) _ _ _ _
    have halive' : prepared.MayChoose hasHandler → t.Alive := fun hasked =>
      halive hasked t (.intro hprepare hcompleted hrestored hstored)
    refine wp_bind.mpr (wp_mono (hopen.and_wp
      ((blames_maybeWriteBack prepared hasHandler).blames t halive')) ?_ ?_)
    · rintro result s₃ ⟨hrel, _⟩
      exact honce.append hrel.1
    · rintro fault s₃ ⟨hrel, hblames⟩
      refine ⟨honce.append hrel.1, fun herr => .inr ?_⟩
      obtain ⟨r, hfails, new, hnew, _, hr⟩ := hblames herr
      obtain ⟨new', hnew', hopen'⟩ := hrel.1
      have heq : new' = new := List.append_cancel_left (hnew'.symm.trans hnew)
      rw [htrace, List.append_assoc, List.singleton_append] at hnew
      exact ⟨_, _, _, _, hnew, h₂, fun e he => outcome?_of_open (hopen' e (heq ▸ he)),
        r, hr, hfails⟩

/-- What a run leaves behind, by the way it ends. -/
theorem executeWithTiming_ends (h : Undecided s.trace)
    (halive : prepared.MayChoose hasHandler → ∀ t, CompletionStored fuel prepared s t → t.Alive) :
    EndsOnce (executeWithTiming fuel prepared.ctx prepared.writePid hasHandler
      prepared.ownership) s := by
  have hstart : ∀ f, Keeps running (modifyProgram f) := fun _ => keeps_modifyProgram fun _ => rfl
  refine .seq h (keeps_prepareExecution running_silent _ _) fun initial s₀ hprepare h₀ => ?_
  refine .seq h₀ (hstart _) fun _ s₁ hbegin h₁ => ?_
  cases hbegin
  refine .seq_tryErr h₁ (keeps_transition not_closes_of_ordinary) ?_ fun e s₂ h₂ =>
    .open h₂ (keeps_notEntered not_closes_of_ordinary fuel e)
  intro _ s₂ hentered h₂
  refine .seq_tryErr h₂ (keeps_pollFresh not_closes_of_ordinary fuel) ?_ fun error s₃ h₃ =>
    .seq h₃ (keeps_completedOscillationPeriodMs _ _ _) fun period s₄ _ h₄ =>
      .of_get (.open h₄ (keeps_finishFailedRun not_closes_of_ordinary fuel error _))
  intro outcome s₃ hpolled h₃
  refine .seq h₃ (keeps_completedOscillationPeriodMs _ _ _) fun period s₄ hrun h₄ => .of_get ?_
  cases wp_ok (completedOscillationPeriodMs_spec _) hrun
  cases outcome with
  | aborted reason => exact .finishAbortedRun h₄ reason _
  | completed action state next =>
    refine .seq_tryErr h₄ (keeps_persistResults running_silent _ initial action) ?_
      fun error s₅ h₅ => .open h₅ (keeps_unpersisted not_closes_of_ordinary fuel _ _ error)
    intro _ s₅ hpersisted h₅
    exact .finishPersistedRun h₅ halive hprepare (.completed hentered hpolled hpersisted) _ _

end Run

/-! ### The report -/

/-- A run that failed before any outcome was stored. -/
theorem failReport_once (prepared : PreparedTune) (e : Text) (h : Undecided s.trace) :
    wp (failReport prepared e) (fun _ s' => OutcomeOnce s'.trace)
      (fun _ s' => OutcomeOnce s'.trace) s := by
  have hfinalize : Keeps running
      (finalizePendingForRunBestEffort "the run failed before MV confirmation completed") :=
    keeps_finalizePendingForRun (fun _ _ h => h.not_closes) _
  refine hfinalize.wp_seq (fun _ s₁ hrel => ?_) fun _ _ hrel => (h.append hrel.1).once
  have h₁ := h.append hrel.1
  refine wp_seq (M := fun r s' => OutcomeOnce s'.trace) (wp_attempt.mpr (wp_mono
    (runStatement_ends _) ?_ ?_)) fun r s₂ h₂ => ?_
  · rintro _ s₂ ⟨id, htrace⟩
    exact htrace ▸ h₁.concat _
  · rintro fault s₂ (⟨rfl, htrace⟩ | ⟨error, rfl, htrace⟩)
    · exact htrace ▸ h₁.once
    · exact htrace ▸ h₁.concat _
  · cases r with
    | error persistError => exact h₂
    | ok _ =>
      refine (keeps_tryErr (keeps_releaseOwnership (fun _ => id) prepared.ownership)).wp_seq
        (fun r s₃ hrel => ?_) fun _ _ hrel => h₂.append hrel.1
      cases r <;> exact h₂.append hrel.1

/-- **A terminal outcome stays.**  In every run of `drive_report` in which no statement that
follows the stored completion fails, and the heartbeat is alive from then on if a level may be
chosen for the write-back, no outcome that was stored is followed by another, whatever the driver,
the database, the clock, the handler and the interrupts do, and however the run ends. -/
theorem terminal_outcome_once (fuel : ℕ) (prepared : PreparedTune) (hasHandler : Bool) (s : Sys)
    (hnew : s.trace = [])
    (halive : prepared.MayChoose hasHandler → ∀ t, CompletionStored fuel prepared s t → t.Alive) :
    wp (driveReport fuel prepared hasHandler)
      (fun _ s' => StoredOnward s'.trace → OutcomeOnce s'.trace)
      (fun _ s' => StoredOnward s'.trace → OutcomeOnce s'.trace) s := by
  have hrelease : Keeps running _ := keeps_releaseOwnership (fun _ => id) prepared.ownership
  refine wp_seq (M := fun r s' => (∀ outcome, r = .ok outcome → OutcomeOnce s'.trace) ∧
    ∀ e, r = .error e → Undecided s'.trace ∨ FailedOnward s'.trace) (wp_attempt.mpr
      (wp_mono (executeWithTiming_ends (hnew ▸ .nil) halive) ?_ ?_)) ?_
  · exact fun _ _ h => ⟨fun _ _ => h, fun _ he => by cases he⟩
  · rintro fault s₁ ⟨honce, hends⟩
    cases fault with
    | err e => exact ⟨fun _ ho => (by cases ho), fun _ _ => hends ⟨e, rfl⟩⟩
    | _ => exact fun _ => honce
  · intro r s₁ h₁
    cases r with
    | ok outcome =>
      exact wp_mono ((hrelease.bind fun _ => .pure outcome) s₁)
        (fun _ _ hrel _ => OutcomeOnce.append (h₁.1 _ rfl) hrel.1)
        fun _ _ hrel _ => OutcomeOnce.append (h₁.1 _ rfl) hrel.1
    | error e =>
      rcases h₁.2 e rfl with h₁ | h₁
      · exact wp_mono (failReport_once prepared e h₁) (fun _ _ h _ => h) fun _ _ h _ => h
      · exact wp_mono (keeps_failReport (fun _ _ _ _ => trivial) prepared e s₁)
          (fun _ _ hrel hstored => absurd hstored (h₁.not_stored hrel.1))
          fun _ _ hrel hstored => absurd hstored (h₁.not_stored hrel.1)

/-! ### The loop FC1 -/

/-- A run on the loop FC1 that is over after three switches, and whose aggressive result is to be
written back. -/
def flowPrepared : PreparedTune where
  ctx := { flowContext with
    config := { flowLoopConfig with
      numCyclesSkip := 0
      numCyclesCount := 1
      noiseProtectionSecs := 0 }
    effectiveTiming := ⟨0, 4000, 3600, 30, 30⟩ }
  writePid := some .aggressive
  yes := true
  ownership := some ⟨some 1⟩
  confirmed := fun _ => rfl
  owned := fun _ => rfl
  unowned := nofun

/-- The loop FC1 while that run goes on: the MV follows its commands, and the PV swings about 50.
The statement that lists the results is answered with `listed`. -/
def flowLoop (listed : Except String ℕ) : Environment where
  answers := fun n =>
    { values := .ok
        [⟨"FC1.MV", "", .finite (if n < 7 then 50 else if n < 15 then 40
          else if n < 23 then 60 else 50), .good⟩,
        ⟨"FC1.PV", "", .finite (if n < 4 then 50 else if n < 7 then 55
          else if n < 15 then 45 else 55), .good⟩,
        ⟨"FC1.MODE", "MAN", .notANumber, .good⟩]
      stored := if n = 33 then listed else .ok 0 }
  signals := []
  signals_sorted := Environment.noSignals_sorted

/-- How the report of that run ends: whether with an error, and the record. -/
def flowReport (listed : Except String ℕ) : Bool × List Event :=
  match driveReport 30 flowPrepared false (flowSys (flowLoop listed)) with
  | .ok _ s => (false, s.trace)
  | .error _ s => (true, s.trace)

instance : DecidablePred OutcomeOnce := fun trace =>
  inferInstanceAs (Decidable (trace.Pairwise _))

instance : DecidablePred Event.Fails
  | .db op (.error _) => inferInstanceAs (Decidable (op ≠ .releaseOwnership))
  | .db _ (.ok _) => inferInstanceAs (Decidable False)
  | .write _ => inferInstanceAs (Decidable False)
  | .read _ => inferInstanceAs (Decidable False)
  | .mark _ => inferInstanceAs (Decidable False)

theorem storedOnward_of_none (h : ∀ e ∈ trace, ¬e.Fails) : StoredOnward trace := by
  rintro pre metrics id post rfl e he
  exact h e (List.mem_append_right _ (List.mem_cons_of_mem _ he))

/-- The run whose statements all succeed stores its completion, and nothing after it. -/
theorem terminal_outcome_once_flow :
    (flowReport (.ok 0)).2.filterMap Event.outcome? = [.completed] ∧
      OutcomeOnce (flowReport (.ok 0)).2 := by
  refine ⟨by decide +kernel, ?_⟩
  have hstored : StoredOnward (flowReport (.ok 0)).2 := storedOnward_of_none (by decide +kernel)
  have hrun := terminal_outcome_once 30 flowPrepared false (flowSys (flowLoop (.ok 0))) rfl
    fun _ t ht n _ => by
      rw [ht.passes.environment]
      rfl
  unfold flowReport at hstored ⊢
  cases hreport : driveReport 30 flowPrepared false (flowSys (flowLoop (.ok 0))) with
  | ok outcome s =>
    rw [hreport] at hstored
    exact wp_ok hrun hreport hstored
  | error fault s =>
    rw [hreport] at hstored
    exact wp_error hrun hreport hstored

/-- The results of the completed run cannot be listed, and it ends as a failed one. -/
theorem terminal_outcome_overwritten :
    (flowReport (.error "disk I/O error")).2.filterMap Event.outcome? = [.completed, .failed] ∧
      ¬OutcomeOnce (flowReport (.error "disk I/O error")).2 := by
  decide +kernel

end Bhtune
