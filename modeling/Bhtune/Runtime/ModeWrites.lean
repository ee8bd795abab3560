import Bhtune.Runtime.Prepare
import Bhtune.Runtime.Request

/-!
# What is written to the controller-mode tag

`transition_to_manual` writes the template's Manual value, `restore_mode_step` the raw mode that
was read before.  A template that passes `DcsTemplate::validate` has mode values if it has a mode
suffix; an override can name a mode tag for a template that has neither.

* `ModeWritesDefined` — every mode write of the two functions writes something;
* `mode_writes_defined_iff` — when that is so.
-/

namespace Bhtune

open Effect EventLog

/-- A mode write has a value that is not blank; into Manual, it is the template's. -/
def Event.ModeDefined (ctx : RunContext) : Event → Prop
  | .write call =>
    (call.origin = .manualMode → call.value = .raw ctx.template.modeManualValue ∧
      isBlank ctx.template.modeManualValue = false) ∧
    (call.origin = .restoreMode → ∃ v, call.value = .raw v ∧ isBlank v = false)
  | _ => True

/-- The frame of programs whose mode writes are defined. -/
abbrev definingModes (ctx : RunContext) : Frame Sys := within (Event.ModeDefined ctx) fun _ => ()

/-- The mode values that `DcsTemplate::validate` asks of a template with a mode suffix. -/
def DcsTemplate.HasModeValues (template : DcsTemplate) : Prop :=
  template.modeManualValue ≠ "" ∧ template.modeAutoValue ≠ ""

/-- Whatever the driver does and whatever the guard says, the two functions that write the mode
write something, and where there is a mode tag the template has mode values. -/
structure ModeWritesDefined (ctx : RunContext) (initial : InitialState) : Prop where
  transition : Keeps (definingModes ctx) (transitionToManual ctx initial)
  restore : ∀ scope, Keeps (definingModes ctx) (restoreModeStep ctx scope initial)
  values : ctx.tags.controllerMode ≠ none → ctx.template.HasModeValues

/-- The mode values of a loop that was found in the mode `raw` are not blank where they are
written. -/
def DcsTemplate.ModesUsable (template : DcsTemplate) (raw : String) : Prop :=
  raw = template.modeManualValue ∨
    isBlank template.modeManualValue = false ∧ (template.revertMode = true → isBlank raw = false)

variable {ctx : RunContext} {initial : InitialState}

/-! ### Enough for it -/

theorem keeps_transition_defined
    (h : ctx.tags.controllerMode = none ∨
      ctx.template.ModesUsable (initial.modeRaw.getD "")) :
    Keeps (definingModes ctx) (transitionToManual ctx initial) := by
  have hguard : ∀ f, Keeps (definingModes ctx) (modifyGuard f) :=
    fun _ => keeps_modifyProgram fun _ => rfl
  have hprogram : Keeps (definingModes ctx) (enterProgramMode ctx) := by
    unfold enterProgramMode
    split
    · exact (hguard _).bind fun _ => (keeps_driverWrite fun _ _ _ => ⟨nofun, nofun⟩).bind fun _ =>
        keeps_sleep _ _
    · exact .pure _
  refine Keeps.bind (keeps_mark trivial) fun _ => hprogram.bind fun _ => ?_
  cases htag : ctx.tags.controllerMode with
  | none => exact .pure _
  | some modeTag =>
    dsimp only
    split
    · rename_i hmode
      have husable := (h.resolve_left (by simp [htag])).resolve_left hmode
      exact (hguard _).bind fun _ => keeps_driverWrite fun _ _ _ =>
        ⟨fun _ => ⟨rfl, husable.1⟩, nofun⟩
    · exact .pure _

theorem keeps_restoreMode_defined (scope : Option Instant)
    (h : ctx.tags.controllerMode = none ∨
      ctx.template.ModesUsable (initial.modeRaw.getD "")) :
    Keeps (definingModes ctx) (restoreModeStep ctx scope initial) := by
  refine Keeps.get.bind fun s => ?_
  cases htag : ctx.tags.controllerMode with
  | none => exact .pure _
  | some modeTag =>
    dsimp only
    split
    · exact .pure _
    · rename_i hneeded
      simp only [not_or, Bool.not_eq_true', Bool.not_eq_false] at hneeded
      have husable := (h.resolve_left (by simp [htag])).resolve_left hneeded.2.2
      exact keeps_restoreWriteStep (keeps_driverWrite fun _ _ _ =>
        ⟨nofun, fun _ => ⟨_, rfl, husable.2 hneeded.2.1⟩⟩)

/-! ### A driver that answers at once -/

/-- The outside answers at once, and every write succeeds. -/
def Sys.Prompt (s : Sys) : Prop := s.environment = idleEnvironment

theorem Sys.Prompt.wake {s : Sys} (h : s.Prompt) (t : Instant) :
    wp (wake [some t]) (fun a s' => a = {} ∧ s'.Prompt) (fun _ _ => False) s := by
  refine wp_bind.mpr (wp_get.mpr ?_)
  show s.nextAnswer = {} ∧ s.environment = idleEnvironment
  unfold Sys.nextAnswer
  rw [h]
  exact ⟨rfl, rfl⟩

theorem Sys.Prompt.sleep {s : Sys} (h : s.Prompt) (duration : ℕ) :
    wp (sleep none duration) (fun _ s' => s'.Prompt) (fun _ _ => False) s :=
  wp_bind.mpr (wp_now.mpr (wp_bind.mpr (wp_bind.mpr (wp_mono (h.wake _)
    (fun _ _ h => h.2) fun _ _ h => h))))

/-- A write is issued, and succeeds. -/
theorem Sys.Prompt.driverWrite {s : Sys} (h : s.Prompt) (origin : Origin) (tag : String)
    (value : TagWrite) :
    wp (driverWrite none origin tag value)
      (fun _ s' => s'.Prompt ∧ ∃ call, .write call ∈ s'.trace ∧ call.origin = origin ∧
        call.value = value) (fun _ _ => False) s := by
  refine wp_bind.mpr (wp_now.mpr (wp_bind.mpr (wp_get.mpr ?_)))
  have hready : s.nextAnswer.latency.map (s.clock + ·) = some s.clock := by
    unfold Sys.nextAnswer
    rw [h]
    rfl
  rw [hready]
  refine wp_bind.mpr (wp_bind.mpr (wp_mono (h.wake s.clock) ?_ fun _ _ h => h))
  rintro _ s' ⟨rfl, hs'⟩
  exact ⟨hs', _, List.mem_append_right _ (List.mem_singleton_self _), rfl, rfl⟩

/-! ### Needed for it -/

theorem transition_writes {modeTag : String} (htag : ctx.tags.controllerMode = some modeTag)
    (hmode : initial.modeRaw.getD "" ≠ ctx.template.modeManualValue) {s : Sys} (hs : s.Prompt) :
    wp (transitionToManual ctx initial)
      (fun _ s' => ∃ call, .write call ∈ s'.trace ∧ call.origin = .manualMode)
      (fun _ _ => False) s := by
  have hprogram : ∀ {t : Sys}, t.Prompt →
      wp (enterProgramMode ctx) (fun _ t' => t'.Prompt) (fun _ _ => False) t := by
    intro t ht
    unfold enterProgramMode
    split
    · refine wp_bind.mpr (wp_bind.mpr (wp_mono (Sys.Prompt.driverWrite ?_ _ _ _)
        (fun _ _ h => h.1.sleep _) fun _ _ h => h))
      exact ht
    · exact ht
  refine wp_bind.mpr (wp_bind.mpr (wp_mono (hprogram ?_) ?_ fun _ _ h => h))
  · exact hs
  · intro _ t ht
    rw [htag]
    dsimp only
    rw [if_pos hmode]
    refine wp_bind.mpr ((wp_modifyProgram _).mpr (wp_mono (Sys.Prompt.driverWrite ?_ _ _ _) ?_
      fun _ _ h => h))
    · exact ht
    · rintro _ t' ⟨_, call, hmem, horigin, _⟩
      exact ⟨call, hmem, horigin⟩

theorem restoreMode_writes {modeTag : String} (htag : ctx.tags.controllerMode = some modeTag)
    (hmode : initial.modeRaw.getD "" ≠ ctx.template.modeManualValue)
    (hrevert : ctx.template.revertMode = true) {s : Sys} (hs : s.Prompt)
    (hguard : s.program.guard.modeWritten = true) :
    wp (restoreModeStep ctx none initial)
      (fun _ s' => ∃ call, .write call ∈ s'.trace ∧ call.origin = .restoreMode ∧
        call.value = .raw (initial.modeRaw.getD "")) (fun _ _ => False) s := by
  refine wp_bind.mpr (wp_get.mpr ?_)
  rw [htag]
  dsimp only
  rw [if_neg (by simp [hguard, hrevert, hmode])]
  refine wp_bind.mpr (wp_attempt.mpr (wp_mono (hs.driverWrite _ _ _) ?_ fun _ _ h => h.elim))
  rintro _ s' ⟨_, hcall⟩
  exact hcall

/-- What a program that keeps the modes defined has on record, if it began with nothing. -/
theorem defined_of_keeps {α : Type} {x : Io α} {s : Sys} {P : WriteCall → Prop}
    (hkeeps : Keeps (definingModes ctx) x) (hnew : s.trace = [])
    (hx : wp x (fun _ s' => ∃ call, .write call ∈ s'.trace ∧ P call) (fun _ _ => False) s) :
    ∃ call, P call ∧ Event.ModeDefined ctx (.write call) := by
  have hboth := hkeeps.and_wp hx
  unfold wp at hboth
  split at hboth
  · obtain ⟨⟨⟨new, htrace, hdefined⟩, _⟩, call, hmem, hcall⟩ := hboth
    rw [htrace, hnew, List.nil_append] at hmem
    exact ⟨call, hcall, hdefined _ hmem⟩
  · exact hboth.2.elim

/-- **What is written to the mode tag.**  For every request, template and loop, the mode writes
have a value that is not blank, the template's Manual value on the way into Manual, and there is no
mode tag without mode values, if and only if neither the template nor the overrides name a mode tag,
or the template has mode values and either the loop was found in its Manual mode, or that value is
not blank and neither is the mode to go back to. -/
theorem mode_writes_defined_iff {args : TuneRequest}
    (htags : buildLoopTags args ctx.template = .ok ctx.tags) (initial : InitialState) :
    ModeWritesDefined ctx initial ↔
      args.NamesNoMode ctx.template ∨
        ctx.template.HasModeValues ∧ ctx.template.ModesUsable (initial.modeRaw.getD "") := by
  rw [← controllerMode_buildLoopTags_eq_none_iff htags]
  refine ⟨fun h => ?_, fun h =>
    ⟨keeps_transition_defined (h.imp_right And.right), fun scope =>
      keeps_restoreMode_defined scope (h.imp_right And.right),
      fun htag => (h.resolve_left htag).1⟩⟩
  cases htag : ctx.tags.controllerMode with
  | none => exact .inl rfl
  | some modeTag =>
    refine .inr ⟨h.values (by simp [htag]), ?_⟩
    by_cases hmode : initial.modeRaw.getD "" = ctx.template.modeManualValue
    · exact .inl hmode
    · refine .inr ⟨?_, fun hrevert => ?_⟩
      · obtain ⟨call, horigin, hdefined, _⟩ := defined_of_keeps (s := flowSys idleEnvironment)
          h.transition rfl (transition_writes htag hmode rfl)
        exact (hdefined horigin).2
      · obtain ⟨call, ⟨horigin, hvalue⟩, _, hdefined⟩ :=
          defined_of_keeps (s := flowSys idleEnvironment) (h.restore none) rfl
            (restoreMode_writes htag hmode hrevert rfl rfl)
        obtain ⟨v, hv, hblank⟩ := hdefined horigin
        rw [hvalue] at hv
        cases hv
        exact hblank

/-! ### The loop FC1 -/

/-- A request for the loop FC1 with fixed ranges. -/
def flowTuneRequest : TuneRequest where
  tagname := "FC1.PV"
  template := "Flow DCS"
  processType := .flow
  controllerType := .pi
  relayAmp := 10
  driver := .opcda
  server := some "Plant.Server"
  pvRangeHigh := some 100
  pvRangeLow := some 0
  mvRangeHigh := some 100
  mvRangeLow := some 0
  direction := some .reverse

/-- The tags of FC1 are those of the request. -/
theorem buildLoopTags_flow : buildLoopTags flowTuneRequest flowTemplate = .ok flowTags := by
  decide

/-- FC1 was found in Auto, and its template has a Manual value. -/
theorem mode_writes_defined_flow : ModeWritesDefined flowContext flowInitial :=
  (mode_writes_defined_iff buildLoopTags_flow flowInitial).mpr
    (.inr ⟨⟨by decide, by decide⟩, .inr (by decide)⟩)

/-- A template for a controller whose mode is not switched. -/
def modelessTemplate : DcsTemplate :=
  { flowTemplate with
    revertMode := false
    controllerModeSuffix := ""
    modeManualValue := ""
    modeAutoValue := "" }

/-- The same request, naming the mode tag itself. -/
def modeRequest : TuneRequest :=
  { flowTuneRequest with tagOverrides := some { controllerMode := some "FC1.MODE" } }

/-- The mode writes on the record of the transition to Manual. -/
def transitionModeWrites (ctx : RunContext) (initial : InitialState) :
    List (String × TagWrite) :=
  match transitionToManual ctx initial (flowSys idleEnvironment) with
  | .ok _ s | .error _ s => s.trace.filterMap fun
    | .write call => if call.origin = .manualMode then some (call.tag, call.value) else none
    | _ => none

/-- An overridden mode tag of a template without mode values is written with nothing. -/
theorem mode_writes_blank :
    modelessTemplate.validate = .ok () ∧ modeRequest.validate = .ok () ∧
      buildLoopTags modeRequest modelessTemplate = .ok flowTags ∧
      transitionModeWrites { flowContext with template := modelessTemplate } flowInitial =
        [("FC1.MODE", .raw "")] := by
  decide

end Bhtune
