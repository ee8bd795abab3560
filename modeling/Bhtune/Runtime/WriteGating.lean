import Bhtune.Runtime.TerminalOutcome

/-!
# What allows a run to write PID constants

`drive_report` writes PID constants in one place: after the engine completed, the restore attempt
was confirmed and the completion was stored, for a level that was chosen, when the result recorded
for that level gives the three targets.

* `Event.WritesConstant` — a write of the write-back, or to a tag that only holds a PID constant;
* `Chosen`, `Approved` — the choice of a level, and everything that has to precede such a write;
* `write_gating` — the whole of `drive_report`.
-/

namespace Bhtune

open Effect EventLog

/-! ### Writes of PID constants -/

/-- A tag that holds a PID constant. -/
def LoopTags.IsConstant (tags : LoopTags) (tag : String) : Prop :=
  tags.proportionalConstant = some tag ∨ tags.integralConstant = some tag ∨
    tags.derivativeConstant = some tag

/-- A tag that the test itself or its restore writes to. -/
def LoopTags.IsActuated (tags : LoopTags) (tag : String) : Prop :=
  tags.manipulatedVariable = tag ∨ tags.setpointVariable = some tag ∨
    tags.controllerMode = some tag ∨ tags.modeAttribute = some tag

/-- A write that the write-back issues, or to the tag of a PID constant that has no other use. -/
def Event.WritesConstant (tags : LoopTags) : Event → Prop
  | .write call => call.origin = .pid ∨ tags.IsConstant call.tag ∧ ¬tags.IsActuated call.tag
  | _ => False

variable {ctx : RunContext} {initial : InitialState}

/-- A write that is addressed as its origin says goes to a tag of the loop. -/
theorem WriteCall.Addressed.actuated {call : WriteCall} (h : call.Addressed ctx initial)
    (hpid : call.origin ≠ .pid) : ctx.tags.IsActuated call.tag := by
  unfold WriteCall.Addressed at h
  split at h
  · exact .inl h.symm
  · exact .inl h.1.symm
  · exact .inr (.inr (.inl h.1))
  · exact .inr (.inl h.1)
  · exact .inr (.inr (.inr h.1))
  · exact .inr (.inr (.inr h.1))
  · exact .inr (.inr (.inl h.1))
  · exact absurd (by assumption) hpid

theorem Event.Ordinary.not_writesConstant (e : Event) (h : e.Ordinary ctx initial) :
    ¬e.WritesConstant ctx.tags := by
  cases e with
  | write call =>
    rintro (hpid | ⟨_, hactuated⟩)
    · exact h.2 hpid
    · exact hactuated (h.1.2.actuated h.2)
  | _ => exact id

theorem Event.Silent.not_writesConstant {tags : LoopTags} {e : Event} (h : e.Silent) :
    ¬e.WritesConstant tags := by
  cases e with
  | write call => exact h.elim
  | _ => exact id

/-! ### What has to precede them -/

/-- A response level is chosen for the write-back that comes to its choice in `s`: the request
names it and was confirmed, or the adapter's handler selects it. -/
def Chosen (prepared : PreparedTune) (hasHandler : Bool) (s : Sys) (level : ResponseLevel) : Prop :=
  (prepared.writePid = some level ∧ prepared.yes = true) ∨
    (prepared.writePid = none ∧ hasHandler = true ∧ s.nextAnswer.selection = .selected level)

/-- A recorded result that is valid, with its three parameters. -/
structure TuneResultRow.Holds (row : TuneResultRow) (pid : PidParameters ℚ) : Prop where
  responseLevel : pid.responseLevel = row.responseLevel
  status : row.status = .valid
  invalidReason : row.invalidReason = none
  proportional : row.proportional = some pid.proportional
  integral : row.integral = some pid.integral
  derivative : row.derivative = some pid.derivative

/-- The record of a run that began in `s` and may now write PID constants. -/
inductive Approved (fuel : ℕ) (prepared : PreparedTune) (hasHandler : Bool) (s : Sys) :
    List Event → Prop
  | intro {initial : InitialState} {s₀ s₁ s₂ s₃ s₄ : Sys} {metrics : Option TimingMetrics} {id : ℕ}
      {answer : Answer} {level : ResponseLevel} {row : TuneResultRow} {pid : PidParameters ℚ}
      {values : ControllerPidValues} {record : List Event}
      (hprepare : prepareExecution prepared.ctx prepared.ownership s = .ok initial s₀)
      (hcompleted : ExitsWith fuel prepared.ctx initial (s₀.beginRun prepared.ctx initial)
        .completed s₁)
      (hrestored : Attempts fuel prepared.ctx initial s₁ .confirmed s₂)
      (hstored : Brings (fun _ => True) (.db (.completeRun metrics) (.ok id)) s₂.trace s₃.trace)
      (hlisted : database .listResults s₃ = .ok answer s₄)
      (hchosen : Chosen prepared hasHandler s₄ level)
      (hfound : answer.rows.find? (fun row => row.responseLevel = level) = some row)
      (hvalid : row.Holds pid)
      (hcomputed : values.Computed pid prepared.ctx.config.controllerType prepared.ctx.template)
      (hrecord : s₄.trace <+: record) : Approved fuel prepared hasHandler s record

/-- Every write of a PID constant on the record was approved. -/
def WritesApproved (fuel : ℕ) (prepared : PreparedTune) (hasHandler : Bool) (s : Sys)
    (trace : List Event) : Prop :=
  Guarded (Event.WritesConstant prepared.ctx.tags)
    (fun _ before => Approved fuel prepared hasHandler s before) trace

/-- No PID constant was written. -/
def Sys.Untouched (tags : LoopTags) (s : Sys) : Prop := ∀ e ∈ s.trace, ¬e.WritesConstant tags

theorem Sys.Untouched.append {tags : LoopTags} {s s' : Sys} (h : s.Untouched tags)
    (happ : Appends (fun e => ¬e.WritesConstant tags) s.trace s'.trace) : s'.Untouched tags := by
  obtain ⟨new, htrace, hnew⟩ := happ
  intro e he
  rw [htrace] at he
  rcases List.mem_append.mp he with he | he
  · exact h e he
  · exact hnew e he

theorem holds_of_pidParametersForResult {row : TuneResultRow} {pid : PidParameters ℚ}
    (h : pidParametersForResult row = .ok pid) : row.Holds pid := by
  unfold pidParametersForResult at h
  dsimp only at h
  split_ifs at h with hstatus hreason
  split at h
  · cases h
  · cases h
  · cases h
  · rename_i hp hi hd
    split_ifs at h
    cases h
    exact ⟨rfl, not_not.mp hstatus, by simpa using hreason, hp, hi, hd⟩

/-- A result that has a controller target is valid, and the target is computed from it. -/
theorem computed_of_controllerPidForResult {row : TuneResultRow} {controllerType : ControllerType}
    {template : DcsTemplate} {values : ControllerPidValues}
    (h : controllerPidForResult row controllerType template = .ok values) :
    ∃ pid, row.Holds pid ∧ values.Computed pid controllerType template := by
  unfold controllerPidForResult at h
  cases hpid : pidParametersForResult row with
  | error e => rw [hpid] at h; cases h
  | ok pid =>
    rw [hpid] at h
    dsimp only [bind, Except.bind] at h
    split at h
    · rename_i values' hvalues
      cases h
      exact ⟨pid, holds_of_pidParametersForResult hpid, computed_of_controllerPidValues hvalues⟩
    · cases h

/-! ### The write-back -/

section WriteBack

variable {fuel : ℕ} {prepared : PreparedTune} {hasHandler : Bool} {s t : Sys}

theorem Sys.Untouched.approved (h : t.Untouched prepared.ctx.tags) :
    WritesApproved fuel prepared hasHandler s t.trace := by
  intro before e after htrace hwrites
  refine absurd hwrites (h e ?_)
  rw [htrace]
  exact List.mem_append_right _ List.mem_cons_self

/-- The frame of what writes no PID constant. -/
abbrev sparing (tags : LoopTags) : Frame Sys :=
  within (fun e => ¬e.WritesConstant tags) fun _ => ()

/-- The level a write-back goes on with was chosen. -/
theorem selectResponseLevel_spec (prepared : PreparedTune) (hasHandler : Bool) (s : Sys) :
    wp (selectResponseLevel prepared.writePid hasHandler)
      (fun selection s' => s'.trace = s.trace ∧
        ∀ level, selection = .selected level → Chosen prepared hasHandler s level)
      (fun _ _ => False) s := by
  unfold selectResponseLevel
  cases hw : prepared.writePid with
  | some level =>
    refine ⟨rfl, ?_⟩
    rintro _ ⟨rfl⟩
    exact .inl ⟨hw, prepared.confirmed (hw ▸ rfl)⟩
  | none =>
    cases hasHandler with
    | true => exact ⟨rfl, fun level hlevel => .inr ⟨hw, rfl, hlevel⟩⟩
    | false => exact ⟨rfl, nofun⟩

/-- **The write-back.**  It writes PID constants only with what approves them, if the completion
was stored for a run whose restore was confirmed. -/
theorem maybeWriteBack_approved (h : t.Untouched prepared.ctx.tags)
    (hready : ∀ {answer t' level row pid before} {values : ControllerPidValues},
      database .listResults t = .ok answer t' →
      Chosen prepared hasHandler t' level →
      answer.rows.find? (fun row => row.responseLevel = level) = some row → row.Holds pid →
      values.Computed pid prepared.ctx.config.controllerType prepared.ctx.template →
      t'.trace <+: before → Approved fuel prepared hasHandler s before) :
    wp (maybeWriteBack prepared.ctx prepared.writePid hasHandler prepared.ownership)
      (fun _ t' => WritesApproved fuel prepared hasHandler s t'.trace)
      (fun _ t' => WritesApproved fuel prepared hasHandler s t'.trace) t := by
  unfold maybeWriteBack
  split
  · have hlist : Keeps (sparing prepared.ctx.tags) (database .listResults) :=
      keeps_database fun _ => id
    refine wp_bind.mpr (wp_mono (hlist.and_wp (wp_run _ t)) ?_ ?_)
    · rintro answer t₁ ⟨hrel, hlisted⟩
      have h₁ := h.append hrel.1
      dsimp only
      split
      · exact h₁.approved
      · refine wp_seq (wp_mono (selectResponseLevel_spec prepared hasHandler t₁)
          (fun _ _ h => h) fun _ _ h => h.elim) ?_
        rintro selection t₂ ⟨htrace, hselected⟩
        have h₂ : t₂.Untouched prepared.ctx.tags := fun e he => h₁ e (htrace ▸ he)
        cases selection with
        | skipped detail => exact h₂.approved
        | failed detail => exact h₂.approved
        | selected level =>
          dsimp only
          split
          · exact h₂.approved
          · rename_i row hfound
            split
            · exact h₂.approved
            · rename_i values hvalues
              obtain ⟨pid, hvalid, hcomputed⟩ := computed_of_controllerPidForResult hvalues
              -- from here on every record continues the one the listing left
              have hwrite : ∀ t', passing.rel t₂ t' →
                  WritesApproved fuel prepared hasHandler s t'.trace := by
                rintro t' ⟨happ, _⟩
                refine Guarded.append_allowed h₂.approved happ fun before _ hbefore => ?_
                obtain ⟨new, hnew, _⟩ := hbefore
                refine hready hlisted (hselected level rfl) hfound hvalid hcomputed ?_
                rw [hnew, htrace]
                exact List.prefix_append _ _
              have hkeeps : ∀ pTag iTag dTag, Keeps passing (writeBackResult prepared.ctx pTag iTag
                  dTag values prepared.ownership) := by
                intro pTag iTag dTag
                unfold writeBackResult
                cases prepared.ownership with
                | none => exact keeps_bail _
                | some ownership =>
                  refine (keeps_writePidValuesInner (fun _ => trivial) (fun _ _ => trivial)
                    (fun _ _ _ => trivial) _ _ _ _ _ _ _ _ _).bind fun outcome => ?_
                  cases outcome <;> exact .pure _
              exact wp_mono (hkeeps _ _ _ t₂) (fun _ => hwrite) fun _ => hwrite
    · rintro _ t₁ ⟨hrel, _⟩
      exact (h.append hrel.1).approved
  · exact h.approved

end WriteBack

/-! ### The run -/

/-- However `x` ends, every write of a PID constant was approved; a run that returns has written
none unless it completed. -/
def EndsApproved (fuel : ℕ) (prepared : PreparedTune) (hasHandler : Bool) (s : Sys)
    (x : Io RunOutcome) (t : Sys) : Prop :=
  wp x
    (fun outcome t' => WritesApproved fuel prepared hasHandler s t'.trace ∧
      (t'.Untouched prepared.ctx.tags ∨ ∃ writeBack detail, outcome = .completed writeBack detail))
    (fun _ t' => WritesApproved fuel prepared hasHandler s t'.trace) t

namespace EndsApproved

variable {fuel : ℕ} {prepared : PreparedTune} {hasHandler : Bool} {s t : Sys} {β : Type}

theorem spared {x : Io RunOutcome} (h : t.Untouched prepared.ctx.tags)
    (hx : Keeps (sparing prepared.ctx.tags) x) : EndsApproved fuel prepared hasHandler s x t :=
  wp_mono (hx t) (fun _ _ hrel => ⟨(h.append hrel.1).approved, .inl (h.append hrel.1)⟩)
    fun _ _ hrel => (h.append hrel.1).approved

/-- What writes no PID constant comes first, and its run is known. -/
theorem seq {x : Io β} {f : β → Io RunOutcome} (h : t.Untouched prepared.ctx.tags)
    (hx : Keeps (sparing prepared.ctx.tags) x)
    (hf : ∀ b t', x t = .ok b t' → t'.Untouched prepared.ctx.tags →
      EndsApproved fuel prepared hasHandler s (f b) t') :
    EndsApproved fuel prepared hasHandler s (x >>= f) t :=
  wp_bind.mpr (wp_mono (hx.and_wp (wp_run x t))
    (fun b t' hb => hf b t' hb.2 (h.append hb.1.1)) fun _ _ hb => (h.append hb.1.1).approved)

/-- What is caught comes first. -/
theorem seq_tryErr {x : Io β} {f : Except Text β → Io RunOutcome}
    (h : t.Untouched prepared.ctx.tags) (hx : Keeps (sparing prepared.ctx.tags) x)
    (hok : ∀ b t', x t = .ok b t' → t'.Untouched prepared.ctx.tags →
      EndsApproved fuel prepared hasHandler s (f (.ok b)) t')
    (herror : ∀ e t', t'.Untouched prepared.ctx.tags →
      EndsApproved fuel prepared hasHandler s (f (.error e)) t') :
    EndsApproved fuel prepared hasHandler s (tryErr x >>= f) t := by
  refine wp_seq (M := fun r t' => t'.Untouched prepared.ctx.tags ∧ ∀ b, r = .ok b → x t = .ok b t')
    (wp_attempt.mpr (wp_mono (hx.and_wp (wp_run x t)) ?_ ?_)) ?_
  · rintro b t' ⟨hrel, hrun⟩
    refine ⟨h.append hrel.1, ?_⟩
    rintro _ ⟨rfl⟩
    exact hrun
  · rintro fault t' ⟨hrel, _⟩
    cases fault with
    | err e => exact ⟨h.append hrel.1, nofun⟩
    | _ => exact (h.append hrel.1).approved
  · rintro (e | b) t' ⟨h', hrun⟩
    · exact herror e t' h'
    · exact hok b t' (hrun b rfl) h'

theorem of_get {f : Sys → Io RunOutcome} (h : EndsApproved fuel prepared hasHandler s (f t) t) :
    EndsApproved fuel prepared hasHandler s (get >>= f) t :=
  wp_bind.mpr (wp_get.mpr h)

end EndsApproved

section Run

variable {fuel : ℕ} {prepared : PreparedTune} {hasHandler : Bool} {s t : Sys}
variable {initial : InitialState}

theorem spares_statement {tags : LoopTags} (op : DbOp) : Keeps (sparing tags) (runStatement op) :=
  keeps_runStatement fun _ => id

/-- **The end of a completed run.**  Only a confirmed attempt and a stored completion lead to the
write-back. -/
theorem finishPersistedRun_approved {s₀ : Sys} (h : t.Untouched prepared.ctx.tags)
    (hprepare : prepareExecution prepared.ctx prepared.ownership s = .ok initial s₀)
    (hcompleted : ExitsWith fuel prepared.ctx initial (s₀.beginRun prepared.ctx initial)
      .completed t)
    (completion : SettlingInput) (measuredOscillationPeriodMs : Option (XNum ℚ)) :
    EndsApproved fuel prepared hasHandler s (finishPersistedRun fuel prepared.ctx initial
      prepared.writePid hasHandler prepared.ownership completion measuredOscillationPeriodMs) t := by
  refine .seq h (keeps_recordedAttempt Event.Ordinary.not_writesConstant fuel _ _ _ id)
    fun attempt t₁ hattempt h₁ => .of_get ?_
  obtain ⟨_, after, rfl, _, record, t₂, hrun, _, _, hafter⟩ :=
    wp_ok (recordedAttempt_spec fuel (some completion) measuredOscillationPeriodMs _ id) hattempt
  refine .seq h₁ (spares_statement _) fun _ t₃ hstatement h₃ => ?_
  obtain ⟨id, hstored⟩ := wp_ok (runStatement_ends _) hstatement
  cases attempt with
  | incomplete reason => exact ⟨h₃.approved, .inl h₃⟩
  | confirmed =>
    have hbrings : Brings (fun _ => True) (.db (.completeRun (t₁.program.timing.finish
        measuredOscillationPeriodMs)) (.ok id)) t₂.trace t₃.trace := by
      rw [hstored]
      exact .prepend ⟨after, hafter, fun _ _ => trivial⟩ (.single t₁.trace trivial)
    refine wp_seq (M := fun _ t₄ => WritesApproved fuel prepared hasHandler s t₄.trace)
      (maybeWriteBack_approved h₃ fun hlisted hchosen hfound hvalid hcomputed hbefore =>
        .intro hprepare hcompleted hrun hbrings hlisted hchosen hfound hvalid hcomputed hbefore) ?_
    rintro ⟨writeBack, detail⟩ t₄ h₄
    exact ⟨h₄, .inr ⟨writeBack, detail, rfl⟩⟩

theorem finishCompletedRun_approved {s₀ s₁ : Sys} {action : Action ℚ} {state : MrftState ℚ}
    {next : ℕ} (h : t.Untouched prepared.ctx.tags)
    (hprepare : prepareExecution prepared.ctx prepared.ownership s = .ok initial s₀)
    (hentered : transitionToManual prepared.ctx initial (s₀.beginRun prepared.ctx initial) =
      .ok () s₁)
    (hpolled : pollFresh fuel prepared.ctx initial s₁ = .ok (.completed action state next) t)
    (measuredOscillationPeriodMs : Option (XNum ℚ)) :
    EndsApproved fuel prepared hasHandler s (finishCompletedRun fuel prepared.ctx initial
      prepared.writePid hasHandler prepared.ownership action ⟨state, next⟩
      measuredOscillationPeriodMs) t := by
  have hpersist : Keeps (sparing prepared.ctx.tags) (persistResults prepared.ctx initial action) :=
    keeps_persistResults (fun _ h _ => h.not_writesConstant) _ initial action
  refine .seq_tryErr h hpersist ?_ ?_
  · intro _ t₁ hpersisted h₁
    exact finishPersistedRun_approved h₁ hprepare (.completed hentered hpolled hpersisted) _ _
  · intro error t₁ h₁
    exact .spared h₁ (keeps_unpersisted Event.Ordinary.not_writesConstant fuel _ _ error)

/-- A run writes PID constants only with what approves them. -/
theorem executeWithTiming_approved (h : s.Untouched prepared.ctx.tags) :
    EndsApproved fuel prepared hasHandler s (executeWithTiming fuel prepared.ctx prepared.writePid
      hasHandler prepared.ownership) s := by
  have hstart : ∀ f, Keeps (sparing prepared.ctx.tags) (modifyProgram f) :=
    fun _ => keeps_modifyProgram fun _ => rfl
  refine .seq h (keeps_prepareExecution (fun _ h _ => h.not_writesConstant) _ _)
    fun initial s₀ hprepare h₀ => ?_
  have hordinary := @Event.Ordinary.not_writesConstant prepared.ctx initial
  refine .seq h₀ (hstart _) fun _ t hbegin ht => ?_
  cases hbegin
  refine .seq_tryErr ht (keeps_transition hordinary) ?_ fun e s₁ h₁ =>
    .spared h₁ (keeps_notEntered hordinary fuel e)
  intro _ s₁ hentered h₁
  refine .seq_tryErr h₁ (keeps_pollFresh hordinary fuel) ?_ fun error s₂ h₂ =>
    .seq h₂ (keeps_completedOscillationPeriodMs _ _ _) fun period s₃ _ h₃ =>
      .of_get (.spared h₃ (keeps_finishFailedRun hordinary fuel error _))
  intro outcome s₂ hpolled h₂
  refine .seq h₂ (keeps_completedOscillationPeriodMs _ _ _) fun period s₃ hrun h₃ => .of_get ?_
  cases wp_ok (completedOscillationPeriodMs_spec _) hrun
  cases outcome with
  | aborted reason =>
    exact .spared h₃ (keeps_finishAbortedRun Event.Ordinary.not_writesConstant (fun _ _ _ => id) _
      reason _)
  | completed action state next =>
    exact finishCompletedRun_approved h₃ hprepare hentered hpolled period

end Run

/-! ### The report -/

/-- A failed run is closed without a write. -/
theorem spares_failReport (prepared : PreparedTune) (e : Text) {tags : LoopTags} :
    Keeps (sparing tags) (failReport prepared e) :=
  keeps_failReport (fun _ _ _ _ => id) prepared e

theorem failReport_fails (prepared : PreparedTune) (e : Text) (s : Sys) :
    wp (failReport prepared e) (fun _ _ => False) (fun _ _ => True) s := by
  refine wp_seq (wlp_true _) fun _ s₁ _ => wp_seq (wlp_true _) fun r s₂ _ => ?_
  cases r with
  | error persistError => trivial
  | ok _ =>
    refine wp_seq (wlp_true _) fun r s₃ _ => ?_
    cases r <;> trivial

/-- **What allows a run to write PID constants.**  In every run of `drive_report`, whatever the
driver, the database, the clock, the handler and the interrupts do, a PID constant is written only
after the engine completed, the restore attempt was confirmed, the completion was stored, a level
was chosen and the result recorded for it gave the three targets.  A run that returns as aborted or
with an incomplete restore has written none. -/
theorem write_gating (fuel : ℕ) (prepared : PreparedTune) (hasHandler : Bool) (s : Sys)
    (hnew : s.trace = []) :
    wp (driveReport fuel prepared hasHandler)
      (fun outcome s' => WritesApproved fuel prepared hasHandler s s'.trace ∧
        (s'.Untouched prepared.ctx.tags ∨ ∃ writeBack detail, outcome = .completed writeBack detail))
      (fun _ s' => WritesApproved fuel prepared hasHandler s s'.trace) s := by
  have hstart : s.Untouched prepared.ctx.tags := by
    intro e he
    rw [hnew] at he
    exact absurd he List.not_mem_nil
  have hrelease : Keeps (sparing prepared.ctx.tags) (releaseOwnership prepared.ownership) :=
    keeps_releaseOwnership (fun _ => id) prepared.ownership
  refine wp_seq (M := fun r s' => WritesApproved fuel prepared hasHandler s s'.trace ∧
      ∀ outcome, r = .ok outcome → s'.Untouched prepared.ctx.tags ∨
        ∃ writeBack detail, outcome = .completed writeBack detail) (wp_attempt.mpr
    (wp_mono (executeWithTiming_approved hstart) ?_ ?_)) ?_
  · rintro outcome s₁ ⟨happroved, hends⟩
    refine ⟨happroved, ?_⟩
    rintro _ ⟨rfl⟩
    exact hends
  · intro fault s₁ happroved
    cases fault with
    | err e => exact ⟨happroved, nofun⟩
    | _ => exact happroved
  · rintro (e | outcome) s₁ ⟨happroved, hends⟩
    · exact wp_mono (wp_and (spares_failReport prepared e s₁) (failReport_fails prepared e s₁))
        (fun _ _ h => h.2.elim) fun _ _ h => happroved.append h.1.1
    · refine hrelease.wp_seq (fun _ s₂ hrel => ⟨happroved.append hrel.1, ?_⟩) fun _ _ hrel =>
        happroved.append hrel.1
      rcases hends outcome rfl with huntouched | hcompleted
      · exact .inl (huntouched.append hrel.1)
      · exact .inr hcompleted

/-! ### The loop FC1 -/

/-- The recorded result that the run on FC1 writes back. -/
def flowResult : TuneResultRow where
  responseLevel := .aggressive
  kp := some (.fin 2)
  tiMinutes := some (.fin 1)
  tdMinutes := some (.fin 0)
  proportional := some (.fin 2)
  integral := some (.fin 1)
  derivative := some (.fin 0)
  status := .valid
  invalidReason := none

/-- The loop FC1 with that result on record; the statement that asks for the answer `failing`
fails. -/
def flowRecorded (failing : Option ℕ) : Environment :=
  { flowLoop (.ok 0) with
    answers := fun n =>
      { (flowLoop (.ok 0)).answers n with
        rows := [flowResult]
        stored := if failing = some n then .error "disk I/O error" else .ok 0 } }

/-- How the report of a run on it ends: whether with an error, and the record. -/
def recordedReport (prepared : PreparedTune) (failing : Option ℕ) : Bool × List Event :=
  match driveReport 30 prepared false (flowSys (flowRecorded failing)) with
  | .ok _ s => (false, s.trace)
  | .error _ s => (true, s.trace)

/-- The same run, whose proportional constant and MV share one tag, and that writes nothing back. -/
def sharedPrepared : PreparedTune where
  ctx := { flowPrepared.ctx with
    tags := { flowTags with proportionalConstant := some "FC1.MV" } }
  writePid := none
  yes := false
  ownership := some ⟨some 1⟩
  confirmed := nofun
  owned := fun _ => rfl
  unowned := nofun

instance (tags : LoopTags) : DecidablePred tags.IsConstant := fun _ =>
  inferInstanceAs (Decidable (_ ∨ _ ∨ _))

instance (tags : LoopTags) : DecidablePred tags.IsActuated := fun _ =>
  inferInstanceAs (Decidable (_ ∨ _ ∨ _ ∨ _))

instance (tags : LoopTags) : DecidablePred (Event.WritesConstant tags)
  | .write _ => inferInstanceAs (Decidable (_ ∨ _ ∧ _))
  | .read _ => inferInstanceAs (Decidable False)
  | .db _ _ => inferInstanceAs (Decidable False)
  | .mark _ => inferInstanceAs (Decidable False)

/-- A run that writes its aggressive result had it approved. -/
theorem write_gating_flow :
    (∃ e ∈ (recordedReport flowPrepared none).2, e.WritesConstant flowTags) ∧
      WritesApproved 30 flowPrepared false (flowSys (flowRecorded none))
        (recordedReport flowPrepared none).2 := by
  refine ⟨by decide +kernel, ?_⟩
  have hrun := write_gating 30 flowPrepared false (flowSys (flowRecorded none)) rfl
  unfold recordedReport
  cases hreport : driveReport 30 flowPrepared false (flowSys (flowRecorded none)) with
  | ok outcome s => exact (wp_ok hrun hreport).1
  | error fault s =>
    have happroved := wp_error hrun hreport
    exact happroved

/-- A relay write goes to the tag of a PID constant where the two share one, though no level was
chosen; and a run whose write-back could not be recorded ends as failed, with a constant written. -/
theorem write_gating_shared_tag :
    ((∃ e ∈ (recordedReport sharedPrepared none).2, ∃ call, e = .write call ∧
        sharedPrepared.ctx.tags.IsConstant call.tag) ∧
      ∀ s level, ¬Chosen sharedPrepared false s level) ∧
    (recordedReport flowPrepared (some 44)).1 = true ∧
      (recordedReport flowPrepared (some 44)).2.filterMap Event.outcome? = [.completed, .failed] ∧
      ∃ e ∈ (recordedReport flowPrepared (some 44)).2, e.WritesConstant flowTags := by
  have hwrite : ∃ e ∈ (recordedReport sharedPrepared none).2, ∃ call, e = .write call ∧
      sharedPrepared.ctx.tags.IsConstant call.tag := by
    have hany : (recordedReport sharedPrepared none).2.any (fun e => match e with
        | .write call => decide (sharedPrepared.ctx.tags.IsConstant call.tag)
        | _ => false) = true := by decide +kernel
    obtain ⟨e, he, hcall⟩ := List.any_eq_true.mp hany
    cases e with
    | write call => exact ⟨_, he, call, rfl, of_decide_eq_true hcall⟩
    | _ => cases hcall
  refine ⟨⟨hwrite, ?_⟩, by decide +kernel⟩
  rintro s level (⟨hlevel, _⟩ | ⟨_, hhandler, _⟩)
  · cases hlevel
  · cases hhandler

end Bhtune
