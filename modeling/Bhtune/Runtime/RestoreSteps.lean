import Bhtune.Runtime.Restore
import Bhtune.Runtime.Verification

/-!
# What the steps of a restore establish

The steps after the MV succeed only by a write the driver accepted; an attempt that is `Confirmed`
had every step it needed.

* `Reverted` — a step that had to revert something did it by an accepted write;
* `restoreAfterMvWithDeadline_spec` — the steps after the MV;
* `restoreMvWithVerification_outcome` — the MV step succeeds or fails, it is never skipped;
* `NoError` — programs whose errors do not get out, up to `noError_attemptRestore`.
-/

namespace Bhtune

open Effect EventLog

variable {ctx : RunContext} {initial : InitialState} {s : Sys}

/-! ### What has to be reverted -/

/-- The mode was changed, and it was not Manual before. -/
def ModeNeedsRevert (ctx : RunContext) (initial : InitialState) (guard : MutationGuard)
    (tag value : String) : Prop :=
  ctx.tags.controllerMode = some tag ∧ guard.modeWritten = true ∧
    ctx.template.revertMode = true ∧ value = initial.modeRaw.getD "" ∧
    value ≠ ctx.template.modeManualValue

/-- The mode was changed, and the set point of the loop was captured. -/
def SetpointNeedsRevert (ctx : RunContext) (initial : InitialState) (guard : MutationGuard)
    (tag : String) (value : ℚ) : Prop :=
  ctx.tags.setpointVariable = some tag ∧ guard.modeWritten = true ∧
    ctx.template.revertMode = true ∧ initial.setpointIni = some value

/-- The mode attribute was changed, and it was not the program value before. -/
def AttributeNeedsRevert (ctx : RunContext) (initial : InitialState) (guard : MutationGuard)
    (tag value : String) : Prop :=
  ctx.tags.modeAttribute = some tag ∧ guard.modeAttributeWritten = true ∧
    value = initial.modeAttributeRaw.getD "" ∧
    value ≠ ctx.template.modeAttributeProgramValue.getD ""

/-- An accepted write of a value to a tag. -/
def AcceptedWrite (origin : Origin) (tag : String) (value : TagWrite) : Event → Prop
  | .write call => call.origin = origin ∧ call.tag = tag ∧ call.value = value ∧
      call.result = .accepted
  | _ => False

/-- Between two states the value was written and accepted. -/
def Reverted (origin : Origin) (tag : String) (value : TagWrite) (s s' : Sys) : Prop :=
  ∃ r, Brings Event.RestoresLater r s.trace s'.trace ∧ AcceptedWrite origin tag value r

theorem Reverted.append {origin : Origin} {tag : String} {value : TagWrite} {s s' s'' : Sys}
    (h : Reverted origin tag value s s') (hrel : later.rel s' s'') :
    Reverted origin tag value s s'' := by
  obtain ⟨r, hbrings, hr⟩ := h
  exact ⟨r, hbrings.append hrel.1, hr⟩

theorem Reverted.prepend {origin : Origin} {tag : String} {value : TagWrite} {s s' s'' : Sys}
    (hrel : later.rel s s') (h : Reverted origin tag value s' s'') :
    Reverted origin tag value s s'' := by
  obtain ⟨r, hbrings, hr⟩ := h
  exact ⟨r, .prepend hrel.1 hbrings, hr⟩

/-! ### The steps after the MV -/

/-- The outcome of a step that has to write a value. -/
def StepDone (origin : Origin) (tag : String) (value : TagWrite) (s s' : Sys)
    (outcome : RestoreStepOutcome) : Prop :=
  (∃ e, outcome = .failed e) ∨ Reverted origin tag value s s'

theorem restoreWriteStep_spec (scope : Option Instant) {origin : Origin} (tag : String)
    (value : TagWrite) (horigin : origin = .restoreMode ∨ origin = .restoreSetpoint ∨
      origin = .restoreModeAttribute) :
    wlp (restoreWriteStep (driverWrite scope origin tag value))
      (fun outcome s' => StepDone origin tag value s s' outcome) s := by
  refine wlp_seq (M := fun r s' => r = .ok () → Reverted origin tag value s s') ?_ ?_
  · refine wlp_tryErr (wp_mono (driverWrite_spec scope origin tag value) ?_ ?_)
    · rintro _ s' ⟨call, hcall, haccepted⟩ _
      refine ⟨.write call, ?_, hcall.origin, hcall.tag, hcall.value, haccepted⟩
      rw [hcall.trace]
      exact .single _ (by rw [Event.RestoresLater, hcall.origin]; exact horigin)
    · exact fun f s' _ e _ => nofun
  · intro r s' hr
    cases r with
    | ok _ => exact .inr (hr rfl)
    | error e => exact .inl ⟨e, rfl⟩

theorem restoreModeStep_spec (scope : Option Instant) :
    wlp (restoreModeStep ctx scope initial) (fun outcome s' => ∀ tag value,
      ModeNeedsRevert ctx initial s.program.guard tag value →
        StepDone .restoreMode tag (.raw value) s s' outcome) s := by
  refine wp_bind.mpr (wp_get.mpr ?_)
  cases htag : ctx.tags.controllerMode with
  | none =>
    rintro tag value ⟨hmode, _⟩
    exact absurd (htag.symm.trans hmode) nofun
  | some modeTag =>
    dsimp only
    split
    · rename_i hskip
      rintro tag value ⟨_, hwritten, hrevert, rfl, hne⟩
      simp only [hwritten, hrevert, Bool.not_true, Bool.false_eq_true, false_or] at hskip
      exact absurd hskip hne
    · refine wlp_mono (restoreWriteStep_spec scope modeTag _ (.inl rfl)) ?_
      rintro outcome s' hdone tag value ⟨hmode, _, _, rfl, _⟩
      cases htag.symm.trans hmode
      exact hdone

theorem restoreSetpointStep_spec (scope : Option Instant) :
    wlp (restoreSetpointStep ctx scope initial) (fun outcome s' => ∀ tag value,
      SetpointNeedsRevert ctx initial s.program.guard tag value →
        StepDone .restoreSetpoint tag (.float value) s s' outcome) s := by
  refine wp_bind.mpr (wp_get.mpr ?_)
  dsimp only
  split
  · rename_i hskip
    rintro tag value ⟨_, hwritten, hrevert, _⟩
    simp [hwritten, hrevert] at hskip
  · cases htag : ctx.tags.setpointVariable with
    | none =>
      rintro tag value ⟨hsetpoint, _⟩
      exact absurd (htag.symm.trans hsetpoint) nofun
    | some svTag =>
      cases hini : initial.setpointIni with
      | none =>
        rintro tag value ⟨_, _, _, hvalue⟩
        exact absurd (hini.symm.trans hvalue) nofun
      | some svIni =>
        refine (keeps_sleep _ _ : Keeps later _).wlp_seq fun _ s₁ hrel => ?_
        refine wlp_mono (restoreWriteStep_spec scope svTag _ (.inr (.inl rfl))) ?_
        rintro outcome s' hdone tag value ⟨hsetpoint, _, _, hvalue⟩
        cases htag.symm.trans hsetpoint
        cases hini.symm.trans hvalue
        exact hdone.imp_right (.prepend hrel)

theorem restoreModeAttributeStep_spec (scope : Option Instant) :
    wlp (restoreModeAttributeStep ctx scope initial) (fun outcome s' => ∀ tag value,
      AttributeNeedsRevert ctx initial s.program.guard tag value →
        StepDone .restoreModeAttribute tag (.raw value) s s' outcome) s := by
  refine wp_bind.mpr (wp_get.mpr ?_)
  cases htag : ctx.tags.modeAttribute with
  | none =>
    rintro tag value ⟨hattribute, _⟩
    exact absurd (htag.symm.trans hattribute) nofun
  | some attrTag =>
    dsimp only
    split
    · rename_i hskip
      rintro tag value ⟨_, hwritten, rfl, hne⟩
      simp only [hwritten, Bool.not_true, Bool.false_eq_true, false_or] at hskip
      exact absurd hskip hne
    · refine wlp_mono (restoreWriteStep_spec scope attrTag _ (.inr (.inr rfl))) ?_
      rintro outcome s' hdone tag value ⟨hattribute, _, rfl, _⟩
      cases htag.symm.trans hattribute
      exact hdone

/-- What the steps after the MV leave behind. -/
structure StepsDone (ctx : RunContext) (initial : InitialState) (policy : RestoreModePolicy)
    (s s' : Sys) (mode setpoint modeAttribute : RestoreStepOutcome) : Prop where
  mode : policy = .releaseToInitial → ∀ tag value,
    ModeNeedsRevert ctx initial s.program.guard tag value →
      StepDone .restoreMode tag (.raw value) s s' mode
  setpoint : ∀ tag value, SetpointNeedsRevert ctx initial s.program.guard tag value →
    StepDone .restoreSetpoint tag (.float value) s s' setpoint
  modeAttribute : ∀ tag value, AttributeNeedsRevert ctx initial s.program.guard tag value →
    StepDone .restoreModeAttribute tag (.raw value) s s' modeAttribute

theorem restoreAfterMvWithPolicy_spec (scope : Option Instant) (mv : RestoreStepOutcome)
    (policy : RestoreModePolicy) :
    wlp (restoreAfterMvWithPolicy ctx scope initial mv policy)
      (fun report s' => report.mv = mv ∧
        StepsDone ctx initial policy s s' report.mode report.setpoint report.modeAttribute) s := by
  have htail : ∀ (mode : RestoreStepOutcome) (s₁ : Sys), later.rel s s₁ →
      (policy = .releaseToInitial → ∀ tag value,
        ModeNeedsRevert ctx initial s.program.guard tag value →
          StepDone .restoreMode tag (.raw value) s s₁ mode) →
      wlp (restoreSetpointStep ctx scope initial >>= fun setpoint =>
          restoreModeAttributeStep ctx scope initial >>= fun modeAttribute =>
            pure (⟨mv, mode, setpoint, modeAttribute⟩ : RestoreReport))
        (fun report s' => report.mv = mv ∧
          StepsDone ctx initial policy s s' report.mode report.setpoint report.modeAttribute)
        s₁ := by
    intro mode s₁ hrel₁ hmode
    refine wlp_seq ((keeps_restoreSetpointStep ctx scope initial).and_wlp
      (restoreSetpointStep_spec scope)) ?_
    rintro setpoint s₂ ⟨hrel₂, hsetpoint⟩
    refine wlp_seq ((keeps_restoreModeAttributeStep ctx scope initial).and_wlp
      (restoreModeAttributeStep_spec scope)) ?_
    rintro modeAttribute s₃ ⟨hrel₃, hattribute⟩
    rw [show s₁.program = s.program from hrel₁.2.2] at hsetpoint
    rw [show s₂.program = s.program from (later.trans hrel₁ hrel₂).2.2] at hattribute
    refine ⟨rfl, ?_, ?_, ?_⟩
    · intro hpolicy tag value hneeds
      exact (hmode hpolicy tag value hneeds).imp_right fun h => (h.append hrel₂).append hrel₃
    · intro tag value hneeds
      exact (hsetpoint tag value hneeds).imp_right fun h => (h.append hrel₃).prepend hrel₁
    · intro tag value hneeds
      exact (hattribute tag value hneeds).imp_right fun h => h.prepend (later.trans hrel₁ hrel₂)
  refine (keeps_mark (m := .laterSteps policy) trivial : Keeps later _).wlp_seq
    fun _ s₁ hrel₁ => ?_
  cases policy with
  | keepManual => exact wp_bind.mpr (htail .notNeeded s₁ hrel₁ nofun)
  | releaseToInitial =>
    refine wlp_seq ((keeps_restoreModeStep ctx scope initial).and_wlp
      (restoreModeStep_spec scope)) ?_
    rintro mode s₂ ⟨hrel₂, hmode⟩
    rw [show s₁.program = s.program from hrel₁.2.2] at hmode
    refine htail mode s₂ (later.trans hrel₁ hrel₂) fun _ tag value hneeds => ?_
    exact (hmode tag value hneeds).imp_right (.prepend hrel₁)

theorem allSucceeded_iff {report : RestoreReport} :
    report.allSucceeded = true ↔ (∀ e, report.mv ≠ .failed e) ∧ (∀ e, report.mode ≠ .failed e) ∧
      (∀ e, report.setpoint ≠ .failed e) ∧ ∀ e, report.modeAttribute ≠ .failed e := by
  simp only [RestoreReport.allSucceeded, RestoreReport.steps, List.all_cons, List.all_nil,
    Bool.and_true, Bool.and_eq_true]
  refine and_congr ?_ (and_congr ?_ (and_congr ?_ ?_))
  · cases report.mv <;> simp
  · cases report.mode <;> simp
  · cases report.setpoint <;> simp
  · cases report.modeAttribute <;> simp

theorem reverted_of_stepDone {origin : Origin} {tag : String} {value : TagWrite} {s s' : Sys}
    {outcome : RestoreStepOutcome} (h : StepDone origin tag value s s' outcome)
    (hne : ∀ e, outcome ≠ .failed e) : Reverted origin tag value s s' := by
  rcases h with ⟨e, he⟩ | h
  · exact absurd he (hne e)
  · exact h

/-- What the steps after the MV leave behind where they are all right. -/
structure AllReverted (ctx : RunContext) (initial : InitialState) (policy : RestoreModePolicy)
    (s s' : Sys) : Prop where
  mode : policy = .releaseToInitial → ∀ tag value,
    ModeNeedsRevert ctx initial s.program.guard tag value →
      Reverted .restoreMode tag (.raw value) s s'
  setpoint : ∀ tag value, SetpointNeedsRevert ctx initial s.program.guard tag value →
    Reverted .restoreSetpoint tag (.float value) s s'
  modeAttribute : ∀ tag value, AttributeNeedsRevert ctx initial s.program.guard tag value →
    Reverted .restoreModeAttribute tag (.raw value) s s'

/-- **The steps after the MV.**  Where they make the attempt `Confirmed`, the MV step had not
failed and everything that had to be reverted was. -/
theorem restoreAfterMvWithDeadline_spec (mv : RestoreStepOutcome) (policy : RestoreModePolicy) :
    wlp (restoreAfterMvWithDeadline ctx initial mv policy)
      (fun attempt s' => attempt = .confirmed →
        (∀ e, mv ≠ .failed e) ∧ AllReverted ctx initial policy s s') s := by
  refine wp_bind.mpr (wp_get.mpr ?_)
  refine wlp_seq (M := fun r s' => ∀ report, r = .ok report → report.mv = mv ∧
    StepsDone ctx initial policy s s' report.mode report.setpoint report.modeAttribute) ?_ ?_
  · refine wlp_attempt (wp_mono (restoreAfterMvWithPolicy_spec _ mv policy) ?_ ?_)
    · rintro report s' hreport _ ⟨⟩
      exact hreport
    · exact fun _ _ _ _ _ _ => nofun
  · intro r s' hr
    match r with
    | .error .interrupted => exact nofun
    | .error .deadline => exact nofun
    | .ok report =>
      obtain ⟨hmv, hsteps⟩ := hr report rfl
      dsimp only
      split
      · rename_i hall
        obtain ⟨hmv', hmode, hsetpoint, hattribute⟩ := allSucceeded_iff.mp hall
        refine fun _ => ⟨hmv ▸ hmv', ?_, ?_, ?_⟩
        · exact fun hpolicy tag value h =>
            reverted_of_stepDone (hsteps.mode hpolicy tag value h) hmode
        · exact fun tag value h => reverted_of_stepDone (hsteps.setpoint tag value h) hsetpoint
        · exact fun tag value h =>
            reverted_of_stepDone (hsteps.modeAttribute tag value h) hattribute
      · exact nofun

/-! ### The outcome of the MV step -/

/-- The MV step was done or failed; it is never reported as not needed. -/
def RestoreMvOutcome.Definite (outcome : RestoreMvOutcome) : Prop :=
  ∀ mv, outcome = .continue mv → mv = .succeeded ∨ ∃ e, mv = .failed e

theorem definite_interrupted (reason : Text) :
    RestoreMvOutcome.Definite (.interrupted reason) := fun _ h => nomatch h

theorem definite_succeeded : RestoreMvOutcome.Definite (.continue .succeeded) := by
  rintro mv ⟨⟩
  exact .inl rfl

theorem definite_failed (e : Text) : RestoreMvOutcome.Definite (.continue (.failed e)) := by
  rintro mv ⟨⟩
  exact .inr ⟨e, rfl⟩

theorem restoreMvWrite_outcome (tag : String) (initialMv : ℚ) (tolerance : Option ℚ) :
    wlp (restoreMvWrite ctx tag initialMv tolerance)
      (fun r _ => ∀ outcome, r = some outcome → outcome.Definite) s := by
  refine wlp_last fun s₁ s₁' => wlp_last fun r s₂ => ?_
  match r with
  | .ok none => rintro _ ⟨⟩; exact definite_interrupted _
  | .ok (some (.completed ())) => exact nofun
  | .ok (some .cancelled) => rintro _ ⟨⟩; exact definite_interrupted _
  | .ok (some .timedOut) => rintro _ ⟨⟩; exact definite_failed _
  | .error e => rintro _ ⟨⟩; exact definite_failed _

theorem restoreVerificationRound_outcome (tag : String) (policy : ActuationAuditPolicy) :
    wlp (restoreVerificationRound ctx tag policy)
      (fun r _ => ∀ outcome, r = .inr outcome → outcome.Definite) s := by
  refine wlp_last fun t _ => wlp_last fun pending _ => wlp_last fun st _ => wlp_last fun r s₁ => ?_
  match r with
  | .ok none =>
    refine wlp_last fun held s₂ => ?_
    cases held with
    | none => rintro _ ⟨⟩; exact definite_succeeded
    | some pending => exact wlp_last fun _ _ => wlp_last fun _ _ => nofun
  | .ok (some .userInterrupt) => rintro _ ⟨⟩; exact definite_interrupted _
  | .error e => rintro _ ⟨⟩; exact definite_failed _
  | .ok (some (.timeout _)) | .ok (some (.operationTimedOut _ _)) | .ok (some (.poorQuality _ _))
  | .ok (some (.mvActuationUnconfirmed _ _ _ _ _ _)) =>
    refine wlp_last fun t s₂ => ?_
    split
    · rintro _ ⟨⟩; exact definite_interrupted _
    · rintro _ ⟨⟩; exact definite_failed _

theorem restoreMvWithVerification_outcome (fuel : ℕ) (initialMv : ℚ)
    (policy : ActuationAuditPolicy) :
    wlp (restoreMvWithVerification fuel ctx initialMv policy)
      (fun outcome _ => outcome.Definite) s := by
  refine wlp_last fun st s₁ => ?_
  cases st.program.tracker with
  | none =>
    refine wlp_seq (restoreMvWrite_outcome _ _ _) fun r s₂ hr => ?_
    cases r with
    | none => exact definite_succeeded
    | some outcome => exact hr outcome rfl
  | some tracker =>
    have hrewrite : ∀ tolerance s₁, wlp (rewriteMv fuel ctx initialMv policy tolerance)
        (fun outcome _ => outcome.Definite) s₁ := by
      intro tolerance s₁
      refine wlp_seq (restoreMvWrite_outcome _ _ _) fun r s₂ hr => ?_
      cases r with
      | some outcome => exact hr outcome rfl
      | none =>
        refine wlp_last fun _ s₃ => wlp_iterate (fun _ _ => True) (fun _ s₄ _ => ?_) _ _ trivial
        refine wlp_mono (restoreVerificationRound_outcome _ _) fun r s₅ hr => ?_
        cases r with
        | inl _ => trivial
        | inr outcome => exact hr outcome rfl
    dsimp only
    split
    · exact definite_succeeded
    · refine wlp_last fun r s₂ => ?_
      rcases r with _ | _ | _ | reason
      · exact hrewrite _ _
      · exact definite_succeeded
      · exact hrewrite _ _
      · exact definite_interrupted _

/-- The MV step as the attempt sees it. -/
theorem mvStep_outcome (fuel : ℕ) (initialMv : ℚ) (policy : ActuationAuditPolicy) :
    wlp (tryErr (restoreMvWithVerification fuel ctx initialMv policy))
      (fun r _ => (restoreMvOutcomeOrFailed r).Definite) s := by
  refine wlp_tryErr (wp_mono (restoreMvWithVerification_outcome fuel initialMv policy)
    (fun _ _ h => h) ?_)
  exact fun f s' _ e _ => definite_failed e

/-! ### Errors that do not get out -/

/-- No `anyhow` error is among the ways the program may fail. -/
def NoError {α : Type} (x : Io α) : Prop :=
  ∀ s, wp x (fun _ _ => True) (fun f _ => f.error? = none) s

namespace NoError

variable {α β : Type}

theorem pure (a : α) : NoError (Pure.pure a : Io α) := fun _ => trivial

theorem throw {f : Fault} (h : f.error? = none) : NoError (MonadExcept.throw f : Io α) :=
  fun _ => h

theorem bind {x : Io β} {f : β → Io α} (hx : NoError x) (hf : ∀ b, NoError (f b)) :
    NoError (x >>= f) := fun s => wp_seq (hx s) fun b s' _ => hf b s'

/-- Whatever `x` does, its errors are values afterwards. -/
theorem tryErr (x : Io α) : NoError (Bhtune.tryErr x) := by
  intro s
  refine wp_attempt.mpr (wp_mono (E := fun _ _ => True) (wlp_true x) (fun _ _ _ => trivial) ?_)
  intro f s' _
  cases f <;> first | exact rfl | trivial

theorem catchCut {x : Io α} (hx : NoError x) : NoError (Bhtune.catchCut x) := by
  intro s
  refine wp_attempt.mpr (wp_mono (hx s) (fun _ _ _ => trivial) ?_)
  intro f s' hf
  cases f with
  | cut c => trivial
  | _ => exact hf

end NoError

theorem noError_get : NoError (get : Io Sys) := fun _ => trivial

theorem noError_mark (m : Mark) : NoError (mark m) := fun _ => trivial

theorem noError_sleep (scope : Option Instant) (duration : ℕ) : NoError (sleep scope duration) := by
  intro s
  refine wp_bind.mpr (wp_now.mpr (wp_seq (wp_mono (awaitScoped_spec _ _) (fun _ _ h => h) ?_) ?_))
  · rintro f s' ⟨rfl, _⟩
    rfl
  · rintro ⟨cut, a⟩ s' _
    cases cut with
    | none => trivial
    | some c => exact rfl

theorem noError_restoreWriteStep (write : Io Unit) : NoError (restoreWriteStep write) :=
  (NoError.tryErr write).bind fun r => by cases r <;> exact .pure _

theorem noError_restoreAfterMvWithPolicy (scope : Option Instant) (mv : RestoreStepOutcome)
    (policy : RestoreModePolicy) :
    NoError (restoreAfterMvWithPolicy ctx scope initial mv policy) := by
  have hmode : NoError (restoreModeStep ctx scope initial) := by
    refine noError_get.bind fun s => ?_
    dsimp only
    split
    · exact .pure _
    · split
      · exact .pure _
      · exact noError_restoreWriteStep _
  have hsetpoint : NoError (restoreSetpointStep ctx scope initial) := by
    refine noError_get.bind fun s => ?_
    dsimp only
    split
    · exact .pure _
    · split
      · exact (noError_sleep _ _).bind fun _ => noError_restoreWriteStep _
      · exact .pure _
  have hattribute : NoError (restoreModeAttributeStep ctx scope initial) := by
    refine noError_get.bind fun s => ?_
    dsimp only
    split
    · exact .pure _
    · split
      · exact .pure _
      · exact noError_restoreWriteStep _
  have htail : ∀ mode, NoError (restoreSetpointStep ctx scope initial >>= fun setpoint =>
      restoreModeAttributeStep ctx scope initial >>= fun modeAttribute =>
        pure (⟨mv, mode, setpoint, modeAttribute⟩ : RestoreReport)) := fun _ =>
    hsetpoint.bind fun _ => hattribute.bind fun _ => .pure _
  refine (noError_mark _).bind fun _ => ?_
  cases policy with
  | releaseToInitial => exact hmode.bind fun _ => htail _
  | keepManual => exact (NoError.pure _).bind fun _ => htail _

theorem noError_restoreAfterMvWithDeadline (mv : RestoreStepOutcome)
    (policy : RestoreModePolicy) :
    NoError (restoreAfterMvWithDeadline ctx initial mv policy) := by
  refine noError_get.bind fun s =>
    (noError_restoreAfterMvWithPolicy _ mv policy).catchCut.bind fun r => ?_
  match r with
  | .ok report =>
    dsimp only
    split <;> exact .pure _
  | .error .interrupted => exact .pure _
  | .error .deadline => exact .pure _

theorem noError_settleThenRelease (fuel : ℕ) (completion : SettlingInput) (duration : ℕ) :
    NoError (settleThenRelease fuel ctx initial completion duration) := by
  refine (NoError.tryErr _).bind fun r => (noError_mark _).bind fun _ => ?_
  cases r with
  | ok _ => exact noError_restoreAfterMvWithDeadline _ _
  | error e =>
    refine (noError_restoreAfterMvWithDeadline _ _).bind fun attempt => ?_
    cases attempt <;> exact .pure _

theorem noError_afterMvStep (fuel : ℕ) (completion : Option SettlingInput)
    (measuredOscillationPeriodMs : Option (XNum ℚ)) (mv : RestoreStepOutcome) :
    NoError (afterMvStep fuel ctx initial completion measuredOscillationPeriodMs mv) := by
  refine (noError_mark _).bind fun _ => noError_get.bind fun s => ?_
  dsimp only
  split
  · split
    · exact noError_settleThenRelease _ _ _
    · exact noError_restoreAfterMvWithDeadline _ _
  · exact noError_restoreAfterMvWithDeadline _ _

/-- **A restore attempt is never ended by an error.** -/
theorem noError_attemptRestore (fuel : ℕ) (completion : Option SettlingInput)
    (measuredOscillationPeriodMs : Option (XNum ℚ)) (policy : ActuationAuditPolicy) :
    NoError (attemptRestore fuel ctx initial completion measuredOscillationPeriodMs policy) := by
  have hbody : NoError (attemptRestoreBody fuel ctx initial completion
      measuredOscillationPeriodMs policy) := by
    have hstart : ∀ f, NoError (modifyProgram f) := fun _ _ => trivial
    refine NoError.bind (fun _ => trivial) fun start => (hstart _).bind fun _ =>
      (NoError.tryErr _).bind fun r => ?_
    cases restoreMvOutcomeOrFailed r with
    | interrupted reason => exact .pure _
    | «continue» mv => exact noError_afterMvStep _ _ _ _
  exact (noError_mark _).bind fun _ => hbody.bind fun attempt => (noError_mark _).bind fun _ =>
    .pure _

end Bhtune
