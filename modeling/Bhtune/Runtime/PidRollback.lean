import Bhtune.Runtime.PidWrites
import Mathlib.Data.List.Nodup

/-!
# What a failed PID write leaves in the controller

A controller holds exactly the values of the writes that took effect in it.  The rollback of a PID
write puts back the constants it confirmed; the constant at which the write failed is not among
them, whether its write took effect or not.

* `WriteResult.took`, `holds` — the controller after a log;
* `holds_putBack` — an accepted rollback restores its constants;
* `pid_rollback_complete_iff` — a failure that reports a rollback, or none necessary, has all
  three constants at their pre-read values, exactly where the failing write left nothing behind.
-/

namespace Bhtune

open Effect EventLog

/-! ### The controller -/

/-- The write took effect in the controller. -/
def WriteResult.took : WriteResult → Bool
  | .accepted => true
  | .rejected _ => false
  | .failed _ tookEffect => tookEffect
  | .abandoned tookEffect => tookEffect

/-- What a controller holds after one event. -/
def holdsAfter (held : String → TagWrite) : Event → String → TagWrite
  | .write call => if call.result.took then Function.update held call.tag call.value else held
  | _ => held

/-- What a controller that held `held` holds after a log. -/
def holds (held : String → TagWrite) (log : List Event) : String → TagWrite :=
  log.foldl holdsAfter held

section Controller

variable {held : String → TagWrite} {tag : String}

theorem holds_append (held : String → TagWrite) (log log' : List Event) :
    holds held (log ++ log') = holds (holds held log) log' := List.foldl_append

theorem holds_write (held : String → TagWrite) (call : WriteCall) :
    holds held [.write call] call.tag =
      if call.result.took then call.value else held call.tag := by
  show holdsAfter held (.write call) call.tag = _
  unfold holdsAfter
  dsimp only
  cases call.result.took with
  | true => exact Function.update_self _ _ _
  | false => rfl

/-- A tag that no write names keeps its value. -/
theorem holds_untouched {log : List Event} (h : ∀ call, .write call ∈ log → call.tag ≠ tag) :
    holds held log tag = held tag := by
  induction log generalizing held with
  | nil => rfl
  | cons e log ih =>
    refine (ih fun call hmem => h call (List.mem_cons_of_mem _ hmem)).trans ?_
    cases e with
    | write call =>
      unfold holdsAfter
      dsimp only
      split
      · exact Function.update_of_ne (h call List.mem_cons_self).symm _ _
      · rfl
    | _ => rfl

theorem putsBack_of_mem {steps : List PidStep} {calls : List WriteCall}
    (h : List.Forall₂ PutsBack steps calls) {call : WriteCall} (hcall : call ∈ calls) :
    ∃ step ∈ steps, PutsBack step call := by
  induction h with
  | nil => cases hcall
  | cons hback _ ih =>
    rcases List.mem_cons.mp hcall with rfl | hcall
    · exact ⟨_, List.mem_cons_self, hback⟩
    · obtain ⟨step, hstep, hback'⟩ := ih hcall
      exact ⟨step, List.mem_cons_of_mem _ hstep, hback'⟩

/-- **An accepted rollback restores its constants.** -/
theorem holds_putBack {steps : List PidStep} {calls : List WriteCall}
    (h : List.Forall₂ PutsBack steps calls) (haccepted : ∀ call ∈ calls, call.result = .accepted)
    (htags : (steps.map PidStep.tag).Nodup) :
    ∀ step ∈ steps, holds held (calls.map .write) step.tag = .float step.previous := by
  induction h generalizing held with
  | nil => exact List.forall_mem_nil _
  | @cons step call steps calls hback hrest ih =>
    rw [List.map_cons, List.nodup_cons] at htags
    rw [List.forall_mem_cons] at haccepted
    have hfirst : holds held ((call :: calls).map .write) =
        holds (holds held [.write call]) (calls.map .write) := holds_append held [.write call] _
    rw [hfirst]
    refine List.forall_mem_cons.mpr ⟨?_, ih haccepted.2 htags.2⟩
    have hothers : ∀ call', .write call' ∈ calls.map Event.write → call'.tag ≠ step.tag := by
      intro call' hmem htag
      obtain ⟨_, hcall, ⟨⟩⟩ := List.mem_map.mp hmem
      obtain ⟨step', hstep, hback'⟩ := putsBack_of_mem hrest hcall
      exact htags.1 (List.mem_map.mpr ⟨step', hstep, hback'.tag.symm.trans htag⟩)
    rw [holds_untouched hothers, ← hback.tag, holds_write, haccepted.1]
    exact hback.value

/-- The step of a constant leaves its target behind where its write took effect. -/
theorem holds_record {record : StepRecord} (h : record.Fits) :
    holds held record.events record.step.tag =
      if record.write.result.took then .float record.step.value else held record.step.tag := by
  have hreads : ∀ call, .write call ∈ (record.read.map Event.read).toList →
      call.tag ≠ record.step.tag := by
    intro call hmem
    rw [Option.toList_map] at hmem
    obtain ⟨_, _, ⟨⟩⟩ := List.mem_map.mp hmem
  have hfirst : holds held record.events =
      holds (holds held [.write record.write]) (record.read.map Event.read).toList :=
    holds_append held [.write record.write] _
  rw [hfirst, holds_untouched hreads, ← h.tag, holds_write, h.value]

/-- Only the tags of its steps are written by a write phase. -/
theorem tag_of_write_mem {records : List StepRecord} (hfits : ∀ record ∈ records, record.Fits)
    {call : WriteCall} (hmem : .write call ∈ records.flatMap StepRecord.events) :
    call.tag ∈ records.map fun record => record.step.tag := by
  obtain ⟨record, hrecord, hmem⟩ := List.mem_flatMap.mp hmem
  refine List.mem_map.mpr ⟨record, hrecord, ?_⟩
  rcases List.mem_cons.mp hmem with hcall | hcall
  · cases hcall
    exact (hfits record hrecord).tag.symm
  · rw [Option.toList_map] at hcall
    obtain ⟨_, _, ⟨⟩⟩ := List.mem_map.mp hcall

end Controller

/-! ### The three constants -/

/-- The three constants hold what the pre-read brought; without a pre-read nothing changed. -/
def AsPreRead (request : PidWriteRequest) (row : NewTuneWrite) (held held' : String → TagWrite) :
    Prop :=
  match row.previous with
  | none => ∀ tag, held' tag = held tag
  | some previous => ∀ step ∈ request.steps previous, held' step.tag = .float step.previous

/-- The write at which the attempt failed left nothing behind: it had no effect, or its target is
the value that was there.  Where a constant was not written, the pre-read brought what the
controller held. -/
def NothingLeft (request : PidWriteRequest) (parts : PidWriteLog) (row : NewTuneWrite)
    (held : String → TagWrite) : Prop :=
  match row.previous with
  | none => True
  | some previous =>
    (∀ record, parts.failed = some record →
      if record.write.result.took then record.step.value = record.step.previous
      else held record.step.tag = .float record.step.previous) ∧
    ∀ step ∈ (request.steps previous).drop parts.attempted.length,
      held step.tag = .float step.previous

section Constants

variable {request : PidWriteRequest} {parts : PidWriteLog} {row : NewTuneWrite}
variable {previous : WriteReadback} {held : String → TagWrite}

/-- The steps of a request: the confirmed ones, the one that failed, and those not attempted. -/
theorem steps_split (h : parts.Audited request row) (hprevious : row.previous = some previous) :
    request.steps previous = parts.confirmed.map StepRecord.step ++
      (parts.failed.toList.map StepRecord.step ++
        (request.steps previous).drop parts.attempted.length) := by
  have horder := h.order
  rw [hprevious] at horder
  have hsplit := List.prefix_iff_eq_append.mp horder
  rw [List.length_map] at hsplit
  rw [← List.append_assoc, ← List.map_append]
  exact hsplit.symm

/-- The attempt leaves behind what its write phase and then its rollback leave. -/
theorem holds_events (h : parts.Audited request row) (row' : NewTuneWrite)
    (result : Except String ℕ) :
    holds held (parts.events ++ [.db (.insertWrite row') result]) =
      holds (holds held (parts.attempted.flatMap StepRecord.events))
        (parts.rollbacks.map .write) := by
  have hbefore : holds held parts.before = held := by
    funext tag
    exact holds_untouched fun call hmem => (h.before _ hmem).elim
  rw [PidWriteLog.events, holds_append, holds_append, holds_append, hbefore]
  rfl

theorem rollback_tag (h : parts.Audited request row) {call : WriteCall}
    (hmem : .write call ∈ parts.rollbacks.map Event.write) :
    call.tag ∈ (parts.confirmed.map StepRecord.step).map PidStep.tag := by
  obtain ⟨_, hcall, ⟨⟩⟩ := List.mem_map.mp hmem
  rcases h.putBack with hnil | hforall
  · rw [hnil] at hcall
    cases hcall
  · obtain ⟨step, hstep, hback⟩ := putsBack_of_mem hforall hcall
    exact List.mem_map.mpr ⟨step, hstep, hback.tag.symm⟩

/-- **Which of the three constants an attempt leaves as they were read**, when it failed at
`record` and its rollback, if any, was accepted. -/
theorem asPreRead_iff (h : parts.Audited request row) (hprevious : row.previous = some previous)
    (htags : ((request.steps previous).map PidStep.tag).Nodup)
    (hback : parts.confirmed = [] ∨
      List.Forall₂ PutsBack (parts.confirmed.map StepRecord.step) parts.rollbacks ∧
        ∀ call ∈ parts.rollbacks, call.result = .accepted)
    (hfailed : parts.failed.isSome) (result : Except String ℕ) :
    AsPreRead request row held (holds held (parts.events ++ [.db (.insertWrite row) result])) ↔
      NothingLeft request parts row held := by
  obtain ⟨record, hrecord⟩ := Option.isSome_iff_exists.mp hfailed
  have hsplit := steps_split h hprevious
  have hfits : record.Fits := h.fits record (by simp [PidWriteLog.attempted, hrecord])
  have hfitsConfirmed : ∀ record ∈ parts.confirmed, record.Fits := fun record hmem =>
    h.fits record (List.mem_append_left _ hmem)
  rw [holds_events h row result]
  unfold AsPreRead NothingLeft
  rw [hprevious]
  dsimp only
  generalize hrest : (request.steps previous).drop parts.attempted.length = rest at hsplit ⊢
  rw [hrecord, Option.toList_some, List.map_singleton] at hsplit
  rw [hsplit, List.map_append, List.map_append, List.nodup_append, List.map_singleton,
    List.singleton_append, List.nodup_cons] at htags
  obtain ⟨hconfirmedTags, ⟨hlast, -⟩, hapart⟩ := htags
  rw [hsplit, List.forall_mem_append, List.forall_mem_append]
  -- the confirmed constants are put back
  have hconfirmed : ∀ step ∈ parts.confirmed.map StepRecord.step,
      holds (holds held (parts.attempted.flatMap StepRecord.events))
        (parts.rollbacks.map .write) step.tag = .float step.previous := by
    rcases hback with hnil | ⟨hforall, haccepted⟩
    · rw [hnil]
      exact List.forall_mem_nil _
    · exact holds_putBack hforall haccepted hconfirmedTags
  -- the constant of the failing step is written by its step alone
  have hmapped : (parts.confirmed.map fun record => record.step.tag) =
      (parts.confirmed.map StepRecord.step).map PidStep.tag := by
    simp only [List.map_map, Function.comp_def]
  have hfailing : holds (holds held (parts.attempted.flatMap StepRecord.events))
      (parts.rollbacks.map .write) record.step.tag =
      if record.write.result.took then .float record.step.value else held record.step.tag := by
    have hconfirmed : ∀ call, .write call ∈ parts.confirmed.flatMap StepRecord.events →
        call.tag ≠ record.step.tag := by
      intro call hmem
      have htag := tag_of_write_mem hfitsConfirmed hmem
      rw [hmapped] at htag
      exact hapart _ htag _ List.mem_cons_self
    have hrollback : ∀ call, .write call ∈ parts.rollbacks.map Event.write →
        call.tag ≠ record.step.tag := fun call hmem =>
      hapart _ (rollback_tag h hmem) _ List.mem_cons_self
    rw [holds_untouched hrollback, PidWriteLog.attempted, hrecord, Option.toList_some,
      List.flatMap_append, List.flatMap_singleton, holds_append, holds_record hfits,
      holds_untouched hconfirmed]
  -- the others are not written at all
  have hothers : ∀ step ∈ rest, holds (holds held (parts.attempted.flatMap StepRecord.events))
      (parts.rollbacks.map .write) step.tag = held step.tag := by
    intro step hstep
    have htag : step.tag ∈ rest.map PidStep.tag := List.mem_map_of_mem hstep
    rw [holds_untouched fun call hmem =>
      hapart _ (rollback_tag h hmem) _ (List.mem_cons_of_mem _ htag)]
    refine holds_untouched fun call hmem => ?_
    have hattempted := tag_of_write_mem h.fits hmem
    rw [PidWriteLog.attempted, hrecord, Option.toList_some, List.map_append, hmapped] at hattempted
    rcases List.mem_append.mp hattempted with hmem | hmem
    · exact hapart _ hmem _ (List.mem_cons_of_mem _ htag)
    · intro hsame
      have hrecordTag : call.tag = record.step.tag := List.mem_singleton.mp hmem
      exact hlast (hrecordTag ▸ hsame ▸ htag)
  have hcondition : (holds (holds held (parts.attempted.flatMap StepRecord.events))
      (parts.rollbacks.map .write) record.step.tag = .float record.step.previous) ↔
      if record.write.result.took then record.step.value = record.step.previous
      else held record.step.tag = .float record.step.previous := by
    rw [hfailing]
    split
    · exact TagWrite.float.injEq _ _ ▸ Iff.rfl
    · rfl
  constructor
  · rintro ⟨-, hlastValue, hrestValue⟩
    refine ⟨?_, fun step hstep => (hothers step hstep).symm.trans (hrestValue step hstep)⟩
    intro record' hrecord'
    obtain rfl := Option.some.inj (hrecord.symm.trans hrecord')
    exact hcondition.mp (hlastValue record.step (List.mem_singleton_self _))
  · rintro ⟨hlastValue, hrestValue⟩
    refine ⟨hconfirmed, ?_, fun step hstep => (hothers step hstep).trans (hrestValue step hstep)⟩
    intro step hstep
    obtain rfl := List.mem_singleton.mp hstep
    exact hcondition.mpr (hlastValue record hrecord)

/-- A failed PID write, told by its audit row: unless that reports a failed rollback, the three
constants are as they were read if and only if the failing write left nothing behind. -/
def RollbackExact (request : PidWriteRequest) (s s' : Sys) : Prop :=
  ∃ parts row id,
    s'.trace = s.trace ++ (parts.events ++ [.db (.insertWrite row) (.ok id)]) ∧
    PidWriteLog.Audited parts request row ∧
    (row.rollbackState ≠ some .failed → ∀ held,
      (AsPreRead request row held (holds held (parts.events ++ [.db (.insertWrite row) (.ok id)])) ↔
        NothingLeft request parts row held))

/-- **When a failed PID write whose rollback succeeded, or was not necessary, leaves all three
constants at their pre-read values.** -/
theorem pid_rollback_complete_iff (request : PidWriteRequest) (runId : ℕ)
    (ownership : LiveOperationGuard) (s : Sys) (hkind : request.kind = .write)
    (htags : [request.pTag, request.iTag, request.dTag].Nodup) :
    returns (request.perform runId ownership)
      (fun r s' => ∀ detail, r = .ok (.failed detail) → RollbackExact request s s') s := by
  refine returns_mono (pidWriteExit_spec request runId ownership s) ?_
  rintro r s' hexit detail rfl
  cases hexit with
  | recorded _ _ parts row result _ htrace haudited houtcome =>
  obtain ⟨⟨id, rfl⟩, hfailed⟩ := houtcome _ rfl
  refine ⟨parts, row, id, htrace, haudited, fun hstate held => ?_⟩
  cases hprevious : row.previous with
  | none =>
    have hnothing : parts.attempted = [] := by
      have horder := haudited.order
      rwa [hprevious] at horder
    have hrollbacks : parts.rollbacks = [] := by
      rcases haudited.putBack with hnil | hforall
      · exact hnil
      · have hconfirmed := (List.append_eq_nil_iff.mp hnothing).1
        rw [hconfirmed] at hforall
        exact List.forall₂_nil_left_iff.mp hforall
    unfold AsPreRead NothingLeft
    rw [hprevious, holds_events haudited row, hnothing, hrollbacks]
    exact ⟨fun _ => trivial, fun _ _ => rfl⟩
  | some previous =>
    have hsome : parts.failed.isSome := by
      rcases hfailed.mp ⟨detail, rfl⟩ with hnone | hsome
      · exact nomatch hprevious.symm.trans hnone
      · exact hsome
    refine asPreRead_iff haudited hprevious htags ?_ hsome _
    cases hrolled : row.rollbackState with
    | none =>
      have hnil : parts.rollbacks = [] := by
        by_contra hne
        have hisSome := haudited.rollbackState.mpr hne
        rw [hrolled] at hisSome
        cases hisSome
      rcases haudited.nothingBack hnil with hrevert | hconfirmed | hnone
      · exact absurd (hkind.symm.trans hrevert) (by decide)
      · exact .inl hconfirmed
      · rw [hnone] at hsome
        cases hsome
    | some state =>
      have hne : parts.rollbacks ≠ [] := haudited.rollbackState.mp (by rw [hrolled]; rfl)
      cases state with
      | failed => exact absurd hrolled hstate
      | succeeded => exact .inr ⟨haudited.putBack.resolve_left hne, haudited.succeeded hrolled⟩

end Constants

/-! ### A mixed set of constants -/

/-- A write on the loop FC1 that fails at its second constant. -/
theorem pid_rollback_complete_flow : ∃ r s',
    flowPidWrite (flowSys (pidEnvironment (.ok 0) 9)) = some (r, s') ∧
    ∀ detail, r = .ok (.failed detail) →
      RollbackExact flowRequest (flowSys (pidEnvironment (.ok 0) 9)) s' := by
  have hrun : (flowPidWrite (flowSys (pidEnvironment (.ok 0) 9))).isSome = true := by
    decide +kernel
  generalize flowSys (pidEnvironment (.ok 0) 9) = s at hrun ⊢
  obtain ⟨⟨r, s'⟩, hperform⟩ := Option.isSome_iff_exists.mp hrun
  exact ⟨r, s', hperform, flowPidWrite_spec hperform
    (pid_rollback_complete_iff flowRequest 7 ⟨some 7⟩ s rfl (by decide))⟩

/-- What the controller of the loop FC1 holds at first. -/
def flowConstants (tag : String) : TagWrite :=
  .float (if tag = "FC1.P" then 5 else if tag = "FC1.I" then 6 else 7)

/-- The write of the integral constant is accepted and reads back 9 for 3: the row reports a
rollback that succeeded, and the controller holds 5, 3 and 7 instead of 5, 6 and 7. -/
theorem pid_rollback_leaves_mixed :
    (flowPidWrite (flowSys (pidEnvironment (.ok 0) 9))).map (fun run =>
      ((match run.1 with | .ok (.failed _) => true | _ => false),
        (rowsInserted run.2.trace).map fun row => (row.previous, row.rollbackState),
        ["FC1.P", "FC1.I", "FC1.D"].map (holds flowConstants run.2.trace))) =
      some (true, [(some ⟨5, 6, 7⟩, some .succeeded)], [.float 5, .float 3, .float 7]) := by
  decide +kernel

end Bhtune
