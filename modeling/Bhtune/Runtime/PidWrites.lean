import Bhtune.Runtime.Writeback

/-!
# What a PID write leaves on record

`writePidValuesInner` from its start to each of its exits: which writes it issues, which row of
`tune_writes` it inserts, and how the two belong together.

* `StepRecord`, `PidWriteLog` — the events of one constant's step, and of a whole attempt;
* `PidWriteLog.Audited` — the row tells what the attempt did;
* `writePidSteps_spec`, `rollbackPidWrites_spec`, `recordPidWrite_spec` — what the parts do;
* `pid_write_audited_iff` — every exit inserts exactly one such row, unless the restore-intent
  update fails.
-/

namespace Bhtune

open Effect EventLog

/-! ### One constant -/

/-- The step of one constant: its write, and the readback if the write was accepted. -/
structure StepRecord where
  step : PidStep
  write : WriteCall
  read : Option ReadCall

namespace StepRecord

def events (record : StepRecord) : List Event :=
  .write record.write :: (record.read.map Event.read).toList

/-- The value read back with acceptable quality. -/
def readback (record : StepRecord) (allowUncertain : Bool) : Option ℚ :=
  record.read.bind fun call => call.accepted record.step.tag allowUncertain

/-- The constant was read back with acceptable quality and within tolerance of its target. -/
def Confirmed (allowUncertain : Bool) (record : StepRecord) : Prop :=
  ∃ v, record.readback allowUncertain = some v ∧
    pidValueWithinTolerance record.step.value v = true

/-- The calls of the record are those of its step; only an accepted write is read back. -/
structure Fits (record : StepRecord) : Prop where
  origin : record.write.origin = .pid
  tag : record.write.tag = record.step.tag
  value : record.write.value = .float record.step.value
  read : ∀ call, record.read = some call →
    call.tags = [record.step.tag] ∧ record.write.result = .accepted

end StepRecord

/-- A rollback write puts the value back that was there before the step. -/
structure PutsBack (step : PidStep) (call : WriteCall) : Prop where
  origin : call.origin = .pid
  tag : call.tag = step.tag
  value : call.value = .float step.previous

section Steps

variable {s : Sys}

theorem writeValue_spec (tag : String) (value : ℚ) :
    returns (writeValue none .pid tag value)
      (fun r s' => ∃ call, Wrote .pid tag (.float value) s s' call ∧
        (r = .ok () ↔ call.result = .accepted)) s := by
  refine wp_mono (driverWrite_spec _ _ _ _) ?_ ?_
  · rintro _ s' ⟨call, hcall, haccepted⟩
    exact ⟨call, hcall, fun _ => haccepted, fun _ => rfl⟩
  · rintro f s' (⟨rfl, _⟩ | ⟨call, hcall, hnot⟩)
    · nofun
    · exact fun _ _ => ⟨call, hcall, nofun, fun h => absurd h hnot⟩

/-- **What the step of one constant did**, and that it fails exactly where it is unconfirmed. -/
theorem writeAndVerifyPidValue_spec (step : PidStep) (allowUncertain : Bool) :
    wp (writeAndVerifyPidValue step allowUncertain)
      (fun r s' => ∃ record : StepRecord, record.step = step ∧ record.Fits ∧
        s'.trace = s.trace ++ record.events ∧
        match r with
        | .ok v => record.readback allowUncertain = some v ∧
            pidValueWithinTolerance step.value v = true
        | .error _ => ¬record.Confirmed allowUncertain)
      (fun f _ => f.error? = none) s := by
  refine wp_seq (wp_tryErr (writeValue_spec _ _)) ?_
  rintro r s₁ ⟨write, hwrite, hr⟩
  cases r with
  | error e =>
    refine ⟨⟨step, write, none⟩, rfl, ⟨hwrite.origin, hwrite.tag, hwrite.value, nofun⟩,
      hwrite.trace, ?_⟩
    rintro ⟨v, hv, _⟩
    cases hv
  | ok _ =>
    refine wp_seq (wp_tryErr (readF32_spec _ _)) ?_
    rintro r s₂ ⟨read, hread, haccepted⟩
    have htrace : s₂.trace = s.trace ++ StepRecord.events ⟨step, write, some read⟩ := by
      rw [hread.trace, hwrite.trace, List.append_assoc]
      rfl
    have hfits : StepRecord.Fits ⟨step, write, some read⟩ := by
      refine ⟨hwrite.origin, hwrite.tag, hwrite.value, ?_⟩
      rintro _ ⟨rfl⟩
      exact ⟨hread.tags, hr.mp rfl⟩
    cases r with
    | error e =>
      refine ⟨_, rfl, hfits, htrace, ?_⟩
      rintro ⟨v, hv, _⟩
      exact nomatch haccepted.symm.trans hv
    | ok readback =>
      dsimp only
      split
      · rename_i hwithin
        exact ⟨_, rfl, hfits, htrace, haccepted, hwithin⟩
      · rename_i hbeyond
        refine ⟨_, rfl, hfits, htrace, ?_⟩
        rintro ⟨v, hv, hwithin⟩
        cases haccepted.symm.trans hv
        exact hbeyond hwithin

/-- The confirmed steps as the code collects them. -/
def confirmedPairs (allowUncertain : Bool) (confirmed : List StepRecord) : List (PidStep × ℚ) :=
  confirmed.map fun record => (record.step, (record.readback allowUncertain).getD 0)

/-- The confirmed constants of a write phase, and the one it failed at. -/
structure WritePhase (allowUncertain : Bool) (steps : List PidStep)
    (confirmed : List StepRecord) (failed : Option StepRecord) : Prop where
  each : ∀ record ∈ confirmed, record.Fits ∧ record.Confirmed allowUncertain
  last : ∀ record, failed = some record → record.Fits ∧ ¬record.Confirmed allowUncertain
  order : (confirmed ++ failed.toList).map StepRecord.step <+: steps
  all : failed = none → confirmed.map StepRecord.step = steps

/-- **What the write phase did**: confirmed steps, then the failing one if there is one. -/
theorem writePidSteps_spec (allowUncertain : Bool) (done : List (PidStep × ℚ))
    (steps : List PidStep) :
    wp (writePidSteps allowUncertain done steps)
      (fun r s' => ∃ (confirmed : List StepRecord) (failed : Option StepRecord),
        WritePhase allowUncertain steps confirmed failed ∧
        s'.trace = s.trace ++ (confirmed ++ failed.toList).flatMap StepRecord.events ∧
        r.1 = done ++ confirmedPairs allowUncertain confirmed ∧
        r.2.map (·.1) = failed.map StepRecord.step)
      (fun f _ => f.error? = none) s := by
  induction steps generalizing done s with
  | nil =>
    refine ⟨[], none, ⟨List.forall_mem_nil _, fun _ h => (nomatch h), List.prefix_rfl,
      fun _ => rfl⟩, ?_, ?_, rfl⟩
    · exact (List.append_nil _).symm
    · exact (List.append_nil _).symm
  | cons step rest ih =>
    refine wp_seq (writeAndVerifyPidValue_spec step allowUncertain) ?_
    rintro r s₁ ⟨record, rfl, hfits, htrace, hr⟩
    cases r with
    | error e =>
      refine ⟨[], some record, ⟨List.forall_mem_nil _, ?_, ⟨rest, rfl⟩, fun h => (nomatch h)⟩,
        by simpa using htrace, (List.append_nil _).symm, rfl⟩
      rintro _ ⟨rfl⟩
      exact ⟨hfits, hr⟩
    | ok readback =>
      refine wp_mono (ih (s := s₁) _) ?_ fun _ _ h => h
      rintro ⟨done', failure⟩ s' ⟨confirmed, failed, hphase, htrace', hdone, hstep⟩
      refine ⟨record :: confirmed, failed, ⟨?_, hphase.last, ?_, ?_⟩, ?_, ?_, hstep⟩
      · exact List.forall_mem_cons.mpr ⟨⟨hfits, readback, hr⟩, hphase.each⟩
      · rw [List.cons_append, List.map_cons]
        exact (List.prefix_cons_inj _).mpr hphase.order
      · intro hnone
        rw [List.map_cons, hphase.all hnone]
      · rw [htrace', htrace, List.append_assoc, List.cons_append, List.flatMap_cons]
      · rw [hdone, List.append_assoc, confirmedPairs, confirmedPairs, List.map_cons, hr.1]
        rfl

/-- **What the rollback did**: every step was written back, and the failures are the writes that
were not accepted. -/
theorem rollbackPidWrites_spec (steps : List PidStep) :
    wp (rollbackPidWrites steps)
      (fun failures s' => ∃ calls : List WriteCall, s'.trace = s.trace ++ calls.map .write ∧
        List.Forall₂ PutsBack steps calls ∧
        (failures = [] ↔ ∀ call ∈ calls, call.result = .accepted))
      (fun f _ => f.error? = none) s := by
  induction steps generalizing s with
  | nil =>
    exact ⟨[], (List.append_nil _).symm, .nil, fun _ => List.forall_mem_nil _, fun _ => rfl⟩
  | cons step rest ih =>
    refine wp_seq (wp_tryErr (writeValue_spec _ _)) ?_
    rintro r s₁ ⟨call, hcall, hr⟩
    have hback : PutsBack step call := ⟨hcall.origin, hcall.tag, hcall.value⟩
    have hrest := ih (s := s₁)
    cases r with
    | ok _ =>
      refine wp_bind.mpr ((wp_pure _).mpr (wp_seq hrest ?_))
      rintro failures s₂ ⟨calls, htrace, hcalls, hiff⟩
      refine ⟨call :: calls, ?_, .cons hback hcalls, ?_⟩
      · rw [htrace, hcall.trace, List.append_assoc]
        rfl
      · rw [List.forall_mem_cons]
        exact ⟨fun h => ⟨hr.mp rfl, hiff.mp h⟩, fun h => hiff.mpr h.2⟩
    | error e =>
      refine wp_bind.mpr ((wp_pure _).mpr (wp_seq hrest ?_))
      rintro failures s₂ ⟨calls, htrace, hcalls, _⟩
      refine ⟨call :: calls, ?_, .cons hback hcalls, ?_⟩
      · rw [htrace, hcall.trace, List.append_assoc]
        rfl
      · rw [List.forall_mem_cons]
        exact ⟨nofun, fun h => nomatch hr.mpr h.1⟩

end Steps

/-! ### The whole attempt -/

/-- What a PID write did before its audit row: the pre-reads and the restore-intent update, the
confirmed constants, the one it failed at, and the rollback. -/
structure PidWriteLog where
  before : List Event
  confirmed : List StepRecord
  failed : Option StepRecord
  rollbacks : List WriteCall

namespace PidWriteLog

/-- The constants whose write was attempted. -/
def attempted (parts : PidWriteLog) : List StepRecord := parts.confirmed ++ parts.failed.toList

def events (parts : PidWriteLog) : List Event :=
  parts.before ++ parts.attempted.flatMap StepRecord.events ++ parts.rollbacks.map .write

end PidWriteLog

/-- What a PID write is asked for. -/
structure PidWriteRequest where
  pTag : String
  iTag : String
  dTag : String
  responseLevel : ResponseLevel
  target : WriteReadback
  kind : WriteKind
  allowUncertain : Bool

namespace PidWriteRequest

/-- The request as it is made for a run, under the ownership of a live operation. -/
def perform (request : PidWriteRequest) (runId : ℕ) (ownership : LiveOperationGuard) :
    Io PidWriteOutcome :=
  writePidValuesInner runId request.pTag request.iTag request.dTag request.responseLevel
    request.target request.kind request.allowUncertain ownership

/-- The constants in the order in which they are written. -/
def steps (request : PidWriteRequest) (previous : WriteReadback) : List PidStep :=
  [⟨"Proportional", request.pTag, request.target.proportional, previous.proportional⟩,
    ⟨"Integral", request.iTag, request.target.integral, previous.integral⟩,
    ⟨"Derivative", request.dTag, request.target.derivative, previous.derivative⟩]

/-- The restore intent a request adds to the one of its owner. -/
def intent (request : PidWriteRequest) (previous : WriteReadback) : PidRestoreIntent :=
  ⟨request.kind, request.responseLevel, previous, request.target⟩

end PidWriteRequest

/-- Three columns of a row, filled from the left. -/
def columns (values : List ℚ) : List (Option ℚ) := [values[0]?, values[1]?, values[2]?]

def NewTuneWrite.written (row : NewTuneWrite) : List (Option ℚ) :=
  [row.proportionalWritten, row.integralWritten, row.derivativeWritten]

def NewTuneWrite.readbacks (row : NewTuneWrite) : List (Option ℚ) :=
  [row.proportionalReadback, row.integralReadback, row.derivativeReadback]

/-- An event of the preparation: a read, or a statement that inserts no audit row. -/
def Event.Prepares : Event → Prop
  | .read _ => True
  | .db (.insertWrite _) _ => False
  | .db _ _ => True
  | _ => False

/-- The event inserts an audit row, or tries to. -/
def Event.insertsRow : Event → Bool
  | .db (.insertWrite _) _ => true
  | _ => false

/-- The rows inserted into `tune_writes`. -/
def rowsInserted (log : List Event) : List NewTuneWrite :=
  log.filterMap fun
    | .db (.insertWrite row) (.ok _) => some row
    | _ => none

/-- **The row tells what the attempt did.** -/
structure PidWriteLog.Audited (parts : PidWriteLog) (request : PidWriteRequest)
    (row : NewTuneWrite) : Prop where
  before : ∀ e ∈ parts.before, e.Prepares
  /-- The calls attempted are those of their steps. -/
  fits : ∀ record ∈ parts.attempted, record.Fits
  confirmed : ∀ record ∈ parts.confirmed, record.Confirmed request.allowUncertain
  failed : ∀ record, parts.failed = some record → ¬record.Confirmed request.allowUncertain
  /-- What is attempted is a prefix of proportional, integral, derivative; without the previous
  values nothing is. -/
  order : match row.previous with
    | none => parts.attempted = []
    | some previous => parts.attempted.map StepRecord.step <+: request.steps previous
  written : row.written = columns (parts.attempted.map fun record => record.step.value)
  readbacks : row.readbacks =
    columns (parts.confirmed.filterMap fun record => record.readback request.allowUncertain)
  /-- The readbacks are those of the attempted constants, or of all but the last. -/
  shorter : parts.confirmed.length = parts.attempted.length ∨
    parts.confirmed.length + 1 = parts.attempted.length
  success : row.success = true ↔
    parts.attempted.length = 3 ∧
      ∀ record ∈ parts.attempted, record.Confirmed request.allowUncertain
  /-- The rollback puts back the confirmed constants, all of them or none. -/
  putBack : parts.rollbacks = [] ∨
    List.Forall₂ PutsBack (parts.confirmed.map StepRecord.step) parts.rollbacks
  rollbackState : row.rollbackState.isSome ↔ parts.rollbacks ≠ []
  succeeded : row.rollbackState = some .succeeded →
    ∀ call ∈ parts.rollbacks, call.result = .accepted
  nothingBack : parts.rollbacks = [] →
    request.kind = .revert ∨ parts.confirmed = [] ∨ parts.failed = none
  revert : request.kind = .revert → parts.rollbacks = []

/-- What was prepared before the write phase. -/
def PidWriteLog.after (before : List Event) (parts : PidWriteLog) : PidWriteLog :=
  { parts with before := before }

section Attempt

variable {request : PidWriteRequest} {previous : WriteReadback} {row : NewTuneWrite} {s : Sys}

theorem PidWriteLog.Audited.after {parts : PidWriteLog} {before : List Event}
    (h : parts.Audited request row) (hbefore : ∀ e ∈ before, e.Prepares) :
    (parts.after before).Audited request row :=
  { h with before := hbefore }

@[simp] theorem readback_of_confirmedPairs {confirmed : List StepRecord}
    (h : ∀ record ∈ confirmed, record.Confirmed request.allowUncertain) :
    (confirmedPairs request.allowUncertain confirmed).map (·.2) =
      confirmed.filterMap fun record => record.readback request.allowUncertain := by
  induction confirmed with
  | nil => rfl
  | cons record confirmed ih =>
    obtain ⟨⟨v, hv, _⟩, hrest⟩ := List.forall_mem_cons.mp h
    rw [List.filterMap_cons, hv, ← ih hrest]
    simp only [confirmedPairs, List.map_cons, hv, Option.getD_some]

@[simp] theorem step_of_confirmedPairs (confirmed : List StepRecord) :
    (confirmedPairs request.allowUncertain confirmed).map (·.1) = confirmed.map StepRecord.step := by
  simp only [confirmedPairs, List.map_map, Function.comp_def]

@[simp] theorem value_of_confirmedPairs (confirmed : List StepRecord) :
    (confirmedPairs request.allowUncertain confirmed).map (fun d => d.1.value) =
      confirmed.map fun record => record.step.value := by
  simp only [confirmedPairs, List.map_map, Function.comp_def]

/-- How the rollback of an attempt ended, as its row tells. -/
def RolledBack (kind : WriteKind) (confirmed : List StepRecord) (failed : Option StepRecord)
    (rollbacks : List WriteCall) : Option RollbackState → Prop
  | none => rollbacks = [] ∧ (kind = .revert ∨ confirmed = [] ∨ failed = none)
  | some state => kind = .write ∧ confirmed ≠ [] ∧
      List.Forall₂ PutsBack (confirmed.map StepRecord.step) rollbacks ∧
      (state = .succeeded → ∀ call ∈ rollbacks, call.result = .accepted)

/-- A write phase, its rollback and the row that the code fills in are an audited attempt. -/
theorem WritePhase.audited {confirmed : List StepRecord} {failed : Option StepRecord}
    (h : WritePhase request.allowUncertain (request.steps previous) confirmed failed)
    {rollbacks : List WriteCall}
    (hback : RolledBack request.kind confirmed failed rollbacks row.rollbackState)
    (hprevious : row.previous = some previous)
    (hwritten : row.written =
      columns ((confirmed ++ failed.toList).map fun record => record.step.value))
    (hreadbacks : row.readbacks =
      columns (confirmed.filterMap fun record => record.readback request.allowUncertain))
    (hsuccess : row.success = true ↔ failed = none) :
    PidWriteLog.Audited ⟨[], confirmed, failed, rollbacks⟩ request row where
  before := List.forall_mem_nil _
  fits := by
    intro record hmem
    rcases List.mem_append.mp hmem with hmem | hmem
    · exact (h.each record hmem).1
    · exact (h.last record (Option.mem_toList.mp hmem)).1
  confirmed := fun record hmem => (h.each record hmem).2
  failed := fun record hrecord => (h.last record hrecord).2
  order := by
    rw [hprevious]
    exact h.order
  written := hwritten
  readbacks := hreadbacks
  shorter := by
    cases failed with
    | none => exact .inl (by simp [PidWriteLog.attempted])
    | some record => exact .inr (by simp [PidWriteLog.attempted])
  success := by
    rw [hsuccess]
    constructor
    · rintro rfl
      have hlength := congrArg List.length (h.all rfl)
      rw [List.length_map] at hlength
      refine ⟨by simpa [PidWriteLog.attempted, PidWriteRequest.steps] using hlength, ?_⟩
      intro record hmem
      rw [PidWriteLog.attempted, Option.toList_none, List.append_nil] at hmem
      exact (h.each record hmem).2
    · rintro ⟨_, hall⟩
      cases failed with
      | none => rfl
      | some record =>
        refine absurd (hall record ?_) (h.last record rfl).2
        exact List.mem_append_right _ List.mem_cons_self
  putBack := by
    cases hstate : row.rollbackState with
    | none =>
      rw [hstate] at hback
      exact .inl hback.1
    | some state =>
      rw [hstate] at hback
      exact .inr hback.2.2.1
  rollbackState := by
    cases hstate : row.rollbackState with
    | none =>
      rw [hstate] at hback
      exact ⟨fun h => (nomatch h), fun h => absurd hback.1 h⟩
    | some state =>
      rw [hstate] at hback
      refine ⟨fun _ (hnil : rollbacks = []) => hback.2.1 ?_, fun _ => rfl⟩
      have hlength := hback.2.2.1.length_eq
      rw [hnil, List.length_map] at hlength
      exact List.length_eq_zero_iff.mp hlength
  succeeded := by
    intro hstate
    rw [hstate] at hback
    exact hback.2.2.2 rfl
  nothingBack := by
    intro (hnil : rollbacks = [])
    cases hstate : row.rollbackState with
    | none =>
      rw [hstate] at hback
      exact hback.2
    | some state =>
      rw [hstate] at hback
      have hlength := hback.2.2.1.length_eq
      rw [hnil, List.length_map] at hlength
      exact absurd (List.length_eq_zero_iff.mp hlength) hback.2.1
  revert := by
    intro hkind
    cases hstate : row.rollbackState with
    | none =>
      rw [hstate] at hback
      exact hback.1
    | some state =>
      rw [hstate] at hback
      exact absurd (hkind.symm.trans hback.1) (by decide)

/-- The events of an attempt in the order in which its parts append them. -/
theorem attempt_trace {confirmed : List StepRecord} {failed : Option StepRecord}
    (rollbacks : List WriteCall) {s₁ s₂ s' : Sys} {e : Event}
    (h₁ : s₁.trace = s.trace ++ (confirmed ++ failed.toList).flatMap StepRecord.events)
    (h₂ : s₂.trace = s₁.trace ++ rollbacks.map .write) (h' : s'.trace = s₂.trace ++ [e]) :
    s'.trace = s.trace ++ (PidWriteLog.events ⟨[], confirmed, failed, rollbacks⟩ ++ [e]) := by
  rw [h', h₂, h₁]
  simp only [PidWriteLog.events, PidWriteLog.attempted, List.nil_append, List.append_assoc]

/-- The audit row is inserted, and the outcome is returned if that went well. -/
theorem insertWrite_spec (row : NewTuneWrite) (outcome : PidWriteOutcome) :
    returns (do runStatement (.insertWrite row); return outcome)
      (fun r s' => ∃ result, s'.trace = s.trace ++ [.db (.insertWrite row) result] ∧
        ∀ outcome', r = .ok outcome' → outcome' = outcome ∧ ∃ id, result = .ok id) s := by
  refine returns_seq (runStatement_spec _) ?_ ?_
  · rintro _ s' ⟨result, htrace, hresult⟩
    refine ⟨result, htrace, ?_⟩
    rintro _ ⟨rfl⟩
    exact ⟨rfl, hresult.mp rfl⟩
  · rintro e s' ⟨result, htrace, _⟩
    exact ⟨result, htrace, nofun⟩

/-- **What the write phase, the rollback and the audit did**: one row was inserted, it tells what
happened, and the outcome is the one it tells. -/
theorem recordPidWrite_spec (runId : ℕ) (hsuccess : row.success = false)
    (hstate : row.rollbackState = none) :
    returns (recordPidWrite runId request.kind request.allowUncertain (request.steps previous)
        previous row)
      (fun r s' => ∃ (parts : PidWriteLog) (row' : NewTuneWrite) (result : Except String ℕ),
        parts.before = [] ∧
        s'.trace = s.trace ++ (parts.events ++ [.db (.insertWrite row') result]) ∧
        row'.previous = some previous ∧
        parts.Audited request row' ∧
        ∀ outcome, r = .ok outcome → (∃ id, result = .ok id) ∧
          ((∃ detail, outcome = .failed detail) ↔ parts.failed.isSome)) s := by
  refine returns_after (writePidSteps_spec _ _ _) ?_
  rintro ⟨done, failure⟩ s₁ ⟨confirmed, failed, hphase, htrace, hdone, hfailed⟩
  obtain rfl : done = confirmedPairs request.allowUncertain confirmed := hdone
  have hreadbacks := readback_of_confirmedPairs fun record h => (hphase.each record h).2
  have hvalues : (confirmedPairs request.allowUncertain confirmed).map (fun d => d.1.value) = _ :=
    value_of_confirmedPairs confirmed
  cases failure with
  | none =>
    obtain rfl : failed = none := Option.map_eq_none_iff.mp hfailed.symm
    refine returns_mono (insertWrite_spec _ _) ?_
    rintro r s' ⟨result, htrace', hr⟩
    have hlog := attempt_trace [] htrace (List.append_nil _).symm htrace'
    refine ⟨_, _, result, rfl, hlog, rfl, hphase.audited ?_ rfl ?_ ?_ ?_, ?_⟩
    · show RolledBack _ _ _ _ row.rollbackState
      rw [hstate]
      exact ⟨rfl, .inr (.inr rfl)⟩
    · rw [Option.toList_none, List.append_nil, ← hvalues]
      rfl
    · rw [← hreadbacks]
      rfl
    · exact ⟨fun _ => rfl, fun _ => rfl⟩
    · rintro outcome hok
      obtain ⟨rfl, hid⟩ := hr outcome hok
      exact ⟨hid, ⟨fun ⟨_, h⟩ => (nomatch h), fun h => (nomatch h)⟩⟩
  | some failure =>
    obtain ⟨step, e⟩ := failure
    obtain ⟨record, rfl, rfl⟩ : ∃ record, failed = some record ∧ record.step = step := by
      cases failed with
      | none => cases hfailed
      | some record => exact ⟨record, rfl, (Option.some.inj hfailed).symm⟩
    have hwritten : (confirmedPairs request.allowUncertain confirmed).map (fun d => d.1.value) ++
        [record.step.value] =
        (confirmed ++ (some record).toList).map fun record => record.step.value := by
      rw [hvalues, List.map_append]
      rfl
    have hunsuccessful : row.success = true ↔ some record = none := by
      rw [hsuccess]
      exact ⟨nofun, nofun⟩
    have hends : ∀ {detail : Text} {outcome : PidWriteOutcome}, outcome = .failed detail →
        ((∃ detail, outcome = .failed detail) ↔ (some record).isSome = true) :=
      fun h => ⟨fun _ => rfl, fun _ => ⟨_, h⟩⟩
    show returns (failPidWrite _ _ _ _ _) _ s₁
    rw [hwritten, hreadbacks, step_of_confirmedPairs]
    unfold failPidWrite
    dsimp only
    split
    · rename_i hnone
      refine returns_mono (insertWrite_spec _ _) ?_
      rintro r s' ⟨result, htrace', hr⟩
      have hlog := attempt_trace [] htrace (List.append_nil _).symm htrace'
      refine ⟨_, _, result, rfl, hlog, rfl, hphase.audited ?_ rfl rfl rfl hunsuccessful, ?_⟩
      · show RolledBack _ _ _ _ row.rollbackState
        rw [hstate]
        refine ⟨rfl, ?_⟩
        rcases hnone with hkind | hempty
        · cases hrevert : request.kind with
          | write => exact absurd hrevert hkind
          | revert => exact .inl rfl
        · rw [List.isEmpty_iff, List.map_eq_nil_iff] at hempty
          exact .inr (.inl hempty)
      · intro outcome hok
        obtain ⟨houtcome, hid⟩ := hr outcome hok
        exact ⟨hid, hends houtcome⟩
    · rename_i hsome
      obtain ⟨hkind, hne⟩ := not_or.mp hsome
      have hrolled : ∀ {rollbacks : List WriteCall} {state : RollbackState},
          List.Forall₂ PutsBack (confirmed.map StepRecord.step) rollbacks →
          (state = .succeeded → ∀ call ∈ rollbacks, call.result = .accepted) →
          RolledBack request.kind confirmed (some record) rollbacks (some state) := by
        intro rollbacks state hforall hall
        refine ⟨not_not.mp hkind, ?_, hforall, hall⟩
        rintro rfl
        exact hne rfl
      refine returns_after (rollbackPidWrites_spec _) ?_
      rintro failures s₂ ⟨rollbacks, htrace₂, hforall, hiff⟩
      cases failures with
      | nil =>
        refine returns_mono (insertWrite_spec _ _) ?_
        rintro r s' ⟨result, htrace', hr⟩
        have hlog := attempt_trace rollbacks htrace htrace₂ htrace'
        refine ⟨_, _, result, rfl, hlog, rfl,
          hphase.audited (hrolled hforall fun _ => hiff.mp rfl) rfl rfl rfl hunsuccessful, ?_⟩
        intro outcome hok
        obtain ⟨houtcome, hid⟩ := hr outcome hok
        exact ⟨hid, hends houtcome⟩
      | cons failure failures =>
        refine returns_mono (insertWrite_spec _ _) ?_
        rintro r s' ⟨result, htrace', hr⟩
        have hlog := attempt_trace rollbacks htrace htrace₂ htrace'
        refine ⟨_, _, result, rfl, hlog, rfl,
          hphase.audited (hrolled hforall fun h => (nomatch h)) rfl rfl rfl hunsuccessful, ?_⟩
        intro outcome hok
        obtain ⟨houtcome, hid⟩ := hr outcome hok
        exact ⟨hid, hends houtcome⟩

/-! ### The audit of every exit -/

theorem rowsInserted_prepares {log : List Event} (h : ∀ e ∈ log, e.Prepares) :
    rowsInserted log = [] := by
  refine List.filterMap_eq_nil_iff.mpr fun e he => ?_
  have hprepares := h e he
  split
  · exact hprepares.elim
  · rfl

theorem rowsInserted_events {parts : PidWriteLog}
    (h : parts.Audited request row) :
    rowsInserted parts.events = [] := by
  have hsteps : rowsInserted (parts.attempted.flatMap StepRecord.events) = [] := by
    refine List.filterMap_eq_nil_iff.mpr fun e he => ?_
    obtain ⟨record, _, he⟩ := List.mem_flatMap.mp he
    rcases List.mem_cons.mp he with rfl | he
    · rfl
    · rw [Option.toList_map] at he
      obtain ⟨call, _, rfl⟩ := List.mem_map.mp he
      rfl
  have hrollbacks : rowsInserted (parts.rollbacks.map .write) = [] := by
    refine List.filterMap_eq_nil_iff.mpr fun e he => ?_
    obtain ⟨call, _, rfl⟩ := List.mem_map.mp he
    rfl
  have hbefore := rowsInserted_prepares h.before
  unfold rowsInserted at *
  rw [PidWriteLog.events, List.filterMap_append, List.filterMap_append, hbefore, hsteps, hrollbacks]
  rfl

/-- **The audit of an attempt is complete**: exactly one row was inserted, last, and it tells what
the attempt did. -/
def AuditComplete (request : PidWriteRequest) (log : List Event) : Prop :=
  ∃ (parts : PidWriteLog) (row : NewTuneWrite) (id : ℕ),
    log = parts.events ++ [.db (.insertWrite row) (.ok id)] ∧ rowsInserted log = [row] ∧
      parts.Audited request row

theorem auditComplete_of_audited {parts : PidWriteLog} {id : ℕ}
    (h : parts.Audited request row) :
    AuditComplete request (parts.events ++ [.db (.insertWrite row) (.ok id)]) := by
  have hevents := rowsInserted_events h
  refine ⟨parts, row, id, rfl, ?_, h⟩
  unfold rowsInserted at *
  rw [List.filterMap_append, hevents]
  rfl

/-! ### Every exit of a PID write -/

/-- Where the pre-read comes to the restore-intent update, the update goes through. -/
def IntentUpdated (request : PidWriteRequest) (s : Sys) : Prop :=
  ∀ s₁ writtenAt s₂ previous s₃, ensureHealthy s = .ok () s₁ → utcNow s₁ = .ok writtenAt s₂ →
    readPreviousPidValues request.pTag request.iTag request.dTag request.allowUncertain s₂ =
      .ok previous s₃ →
    ∃ s₄, updateRestoreIntent (request.intent previous) s₃ = .ok () s₄

/-- The ownership checks of a PID write. -/
def OwnershipChecked (runId : ℕ) (ownership : LiveOperationGuard) (s : Sys) : Prop :=
  (∃ s₁, ensureHealthy s = .ok () s₁) ∧ ownership.runId = some runId

/-- **How a PID write ends**: its ownership checks refuse it; the restore-intent update fails,
and nothing is written or recorded; or one row is inserted, which tells what was attempted. -/
inductive PidWriteExit (request : PidWriteRequest) (runId : ℕ) (ownership : LiveOperationGuard)
    (s : Sys) : Except Text PidWriteOutcome → Sys → Prop
  | refused (e : Text) (s' : Sys) (hcheck : ¬OwnershipChecked runId ownership s) :
      PidWriteExit request runId ownership s (.error e) s'
  | notUpdated (e : Text) (s' : Sys) (before : List Event) (hintent : ¬IntentUpdated request s)
      (htrace : s'.trace = s.trace ++ before) (hbefore : ∀ e ∈ before, e.Prepares) :
      PidWriteExit request runId ownership s (.error e) s'
  | recorded (r : Except Text PidWriteOutcome) (s' : Sys) (parts : PidWriteLog)
      (row : NewTuneWrite) (result : Except String ℕ) (hintent : IntentUpdated request s)
      (htrace : s'.trace = s.trace ++ (parts.events ++ [.db (.insertWrite row) result]))
      (haudited : parts.Audited request row)
      (houtcome : ∀ outcome, r = .ok outcome → (∃ id, result = .ok id) ∧
        ((∃ detail, outcome = .failed detail) ↔ row.previous = none ∨ parts.failed.isSome)) :
      PidWriteExit request runId ownership s r s'

/-- The frame of what comes before the write phase. -/
abbrev preparing : Frame Sys := within Event.Prepares fun _ => ()

theorem preparing_statement (op : DbOp) (hop : ∀ row, op ≠ .insertWrite row) :
    Keeps preparing (runStatement op) := by
  refine keeps_runStatement fun result => ?_
  cases op with
  | insertWrite row => exact absurd rfl (hop row)
  | _ => trivial

theorem preparing_updateRestoreIntent (intent : PidRestoreIntent) :
    Keeps preparing (updateRestoreIntent intent) :=
  (preparing_statement .readLiveOwner fun _ h => nomatch h).bind fun _ =>
    keeps_ensureHealthy.bind fun _ =>
      preparing_statement (.persistPidRestoreIntent intent) fun _ h => nomatch h

theorem preparing_preRead (pTag iTag dTag : String) (allowUncertain : Bool) :
    Keeps preparing (readPreviousPidValues pTag iTag dTag allowUncertain) :=
  keeps_readPreviousPidValues (fun _ => trivial) _ _ _ _

theorem failed_preRead_trace {before : List Event} {s₁ s' : Sys} {e : Event}
    (h : s₁.trace = s.trace ++ before) (h' : s'.trace = s₁.trace ++ [e]) :
    s'.trace = s.trace ++ (PidWriteLog.events ⟨before, [], none, []⟩ ++ [e]) := by
  rw [h', h, List.append_assoc]
  simp only [PidWriteLog.events, PidWriteLog.attempted, Option.toList_none, List.append_nil,
    List.flatMap_nil, List.map_nil]

/-- An attempt that ended before its write phase. -/
theorem audited_of_failed_preRead {before : List Event} (h : ∀ e ∈ before, e.Prepares)
    (hprevious : row.previous = none) (hwritten : row.written = columns [])
    (hreadbacks : row.readbacks = columns []) (hsuccess : row.success = false)
    (hstate : row.rollbackState = none) :
    PidWriteLog.Audited ⟨before, [], none, []⟩ request row where
  before := h
  fits := List.forall_mem_nil _
  confirmed := List.forall_mem_nil _
  failed := fun _ h => nomatch h
  order := by
    rw [hprevious]
    rfl
  written := hwritten
  readbacks := hreadbacks
  shorter := .inl rfl
  success := by
    rw [hsuccess]
    exact ⟨nofun, fun h => nomatch h.1⟩
  putBack := .inl rfl
  rollbackState := by
    rw [hstate]
    exact ⟨fun h => (nomatch h), fun h => absurd rfl h⟩
  succeeded := fun _ => List.forall_mem_nil _
  nothingBack := fun _ => .inr (.inl rfl)
  revert := fun _ => rfl

theorem intentUpdated_of_run {r : Except Text WriteReadback} {s₁ s₂ s₃ : Sys} {writtenAt : UtcTime}
    (hhealthy : ensureHealthy s = .ok () s₁) (hutc : utcNow s₁ = .ok writtenAt s₂)
    (hread : match r with
      | .ok previous => readPreviousPidValues request.pTag request.iTag request.dTag
          request.allowUncertain s₂ = .ok previous s₃
      | .error e => readPreviousPidValues request.pTag request.iTag request.dTag
          request.allowUncertain s₂ = .error (.err e) s₃) :
    IntentUpdated request s ↔ ∀ previous, r = .ok previous →
      ∃ s₄, updateRestoreIntent (request.intent previous) s₃ = .ok () s₄ := by
  constructor
  · rintro h previous rfl
    exact h s₁ writtenAt s₂ previous s₃ hhealthy hutc hread
  · intro h t₁ writtenAt' t₂ previous t₃ hhealthy' hutc' hread'
    cases hhealthy.symm.trans hhealthy'
    cases hutc.symm.trans hutc'
    cases r with
    | error e => exact nomatch hread.symm.trans hread'
    | ok previous' =>
      cases hread.symm.trans hread'
      exact h previous rfl

theorem pidWriteExit_spec (request : PidWriteRequest) (runId : ℕ)
    (ownership : LiveOperationGuard) (s : Sys) :
    returns (request.perform runId ownership) (PidWriteExit request runId ownership s) s := by
  unfold PidWriteRequest.perform writePidValuesInner
  cases hhealthy : ensureHealthy s with
  | error f s₁ =>
    refine wp_bind.mpr ?_
    unfold wp
    rw [hhealthy]
    refine fun e _ => .refused e s₁ ?_
    rintro ⟨⟨s₂, h⟩, _⟩
    exact nomatch hhealthy.symm.trans h
  | ok _ s₁ =>
  refine wp_of_ok hhealthy ?_
  split
  · rename_i hne
    rintro e -
    exact .refused e s₁ fun h => hne h.2
  obtain ⟨writtenAt, s₂, hutc⟩ : ∃ writtenAt s₂, utcNow s₁ = .ok writtenAt s₂ := ⟨_, _, rfl⟩
  have hprepared₂ : preparing.rel s s₂ :=
    preparing.trans (keeps_ensureHealthy.rel_of_ok hhealthy) (keeps_utcNow.rel_of_ok hutc)
  refine wp_of_ok hutc ?_
  dsimp only
  refine returns_after (wp_tryErr (returns_run (preparing_preRead _ _ _ _) s₂)) ?_
  rintro r s₃ ⟨hprepared₃, hpreRead⟩
  obtain ⟨before, hbefore, hprepares⟩ := (preparing.trans hprepared₂ hprepared₃).1
  cases r with
  | error e =>
    refine returns_mono (insertWrite_spec _ _) ?_
    rintro r s' ⟨result, htrace, hr⟩
    refine .recorded _ _ _ _ result ?_ (failed_preRead_trace hbefore htrace)
      (audited_of_failed_preRead hprepares rfl rfl rfl rfl rfl) ?_
    · exact (intentUpdated_of_run (r := .error e) hhealthy hutc hpreRead).mpr fun _ h => nomatch h
    · intro outcome hok
      obtain ⟨rfl, hid⟩ := hr outcome hok
      exact ⟨hid, fun _ => .inl rfl, fun _ => ⟨_, rfl⟩⟩
  | ok previous =>
    have hiff := intentUpdated_of_run (r := .ok previous) hhealthy hutc hpreRead
    show returns (updateRestoreIntent (request.intent previous) >>= fun _ =>
      recordPidWrite runId request.kind request.allowUncertain (request.steps previous) previous
        { responseLevel := request.responseLevel
          writtenAt
          kind := request.kind
          allowUncertainQuality := request.allowUncertain })
      (PidWriteExit request runId ownership s) s₃
    cases hupdate : updateRestoreIntent (request.intent previous) s₃ with
    | error f s₄ =>
      refine wp_bind.mpr ?_
      unfold wp
      rw [hupdate]
      obtain ⟨update, htrace, hprepares'⟩ :=
        ((preparing_updateRestoreIntent _).rel_of_error hupdate).1
      refine fun e _ => .notUpdated e s₄ (before ++ update) ?_ ?_ ?_
      · intro hintent
        obtain ⟨s₅, h₅⟩ := hiff.mp hintent previous rfl
        exact nomatch hupdate.symm.trans h₅
      · rw [htrace, hbefore, List.append_assoc]
      · exact List.forall_mem_append.mpr ⟨hprepares, hprepares'⟩
    | ok _ s₄ =>
      refine wp_of_ok hupdate ?_
      obtain ⟨update, htrace, hprepares'⟩ :=
        ((preparing_updateRestoreIntent _).rel_of_ok hupdate).1
      refine returns_mono (recordPidWrite_spec runId rfl rfl) ?_
      rintro r s' ⟨parts, row, result, hnone, htrace', hprevious, haudited, houtcome⟩
      refine .recorded _ _ (parts.after (before ++ update)) row result ?_ ?_
        (haudited.after (List.forall_mem_append.mpr ⟨hprepares, hprepares'⟩)) ?_
      · exact hiff.mpr fun _ h => by cases h; exact ⟨s₄, hupdate⟩
      · rw [htrace', htrace, hbefore]
        simp only [PidWriteLog.events, PidWriteLog.after, PidWriteLog.attempted, hnone,
          List.nil_append, List.append_assoc]
      · intro outcome hok
        obtain ⟨hid, hends⟩ := houtcome outcome hok
        refine ⟨hid, hends.trans ⟨.inr, ?_⟩⟩
        rintro (h | h)
        · exact nomatch hprevious.symm.trans h
        · exact h

/-- Every audit row that is inserted goes in. -/
def InsertsSucceed (log : List Event) : Prop :=
  ∀ row result, .db (.insertWrite row) result ∈ log → ∃ id, result = .ok id

/-- An exit of a PID write, in a database that takes every audit row, leaves a complete audit. -/
def ExitAudited (request : PidWriteRequest) (s s' : Sys) : Prop :=
  ∀ log, s'.trace = s.trace ++ log → InsertsSucceed log → AuditComplete request log

theorem not_audited_of_prepares {log : List Event} (h : ∀ e ∈ log, e.Prepares) :
    ¬AuditComplete request log := by
  rintro ⟨_, row, _, _, hrows, _⟩
  rw [rowsInserted_prepares h] at hrows
  cases hrows

/-- **Every exit of a PID write that passed its ownership checks leaves a complete audit, if and
only if the restore-intent update does not fail.** -/
theorem pid_write_audited_iff (request : PidWriteRequest) (runId : ℕ)
    (ownership : LiveOperationGuard) (s : Sys) (hcheck : OwnershipChecked runId ownership s) :
    returns (request.perform runId ownership)
      (fun _ s' => ExitAudited request s s' ↔ IntentUpdated request s) s := by
  refine returns_mono (pidWriteExit_spec request runId ownership s) ?_
  intro r s' hexit
  cases hexit with
  | refused e _ hrefused => exact absurd hcheck hrefused
  | notUpdated e _ before hintent htrace hprepares =>
    refine ⟨fun haudited => ?_, fun h => absurd h hintent⟩
    refine absurd (haudited before htrace ?_) (not_audited_of_prepares hprepares)
    exact fun row result hmem => (hprepares _ hmem).elim
  | recorded _ _ parts row result hintent htrace haudited _ =>
    refine ⟨fun _ => hintent, fun _ log hlog hinserts => ?_⟩
    obtain rfl := List.append_cancel_left (hlog.symm.trans htrace)
    obtain ⟨id, rfl⟩ := hinserts row result (List.mem_append_right _ List.mem_cons_self)
    exact auditComplete_of_audited haudited

end Attempt

/-! ### PID writes on the loop FC1 -/

/-- The moderate result of the loop FC1, to be written for the first time. -/
def flowRequest : PidWriteRequest where
  pTag := "FC1.P"
  iTag := "FC1.I"
  dTag := "FC1.D"
  responseLevel := .moderate
  target := ⟨2, 3, 0⟩
  kind := .write
  allowUncertain := false

/-- A read of one constant. -/
def constantRead (v : ℚ) : Answer := { values := .ok [⟨"", "", .finite v, .good⟩] }

/-- An outside whose controller holds 5, 6 and 7 and accepts every write, with the result of the
restore-intent update and the readback of the integral constant. -/
def pidEnvironment (stored : Except String ℕ) (readback : ℚ) : Environment where
  answers := fun n =>
    match n with
    | 2 => constantRead 5
    | 3 => constantRead 6
    | 4 => constantRead 7
    | 7 => { stored }
    | 9 => constantRead 2
    | 11 => constantRead readback
    | 13 => constantRead 0
    | _ => {}
  signals := []
  signals_sorted := Environment.noSignals_sorted

/-- What the request comes to on the loop FC1. -/
def flowPidWrite (s : Sys) : Option (Except Text PidWriteOutcome × Sys) :=
  match flowRequest.perform 7 ⟨some 7⟩ s with
  | .ok outcome s' => some (.ok outcome, s')
  | .error (.err e) s' => some (.error e, s')
  | .error _ _ => none

theorem flowPidWrite_spec {s s' : Sys} {r : Except Text PidWriteOutcome}
    {Q : Except Text PidWriteOutcome → Sys → Prop} (hrun : flowPidWrite s = some (r, s'))
    (h : returns (flowRequest.perform 7 ⟨some 7⟩) Q s) : Q r s' := by
  unfold flowPidWrite at hrun
  unfold returns wp at h
  split at hrun
  · rename_i hperform
    cases hrun
    rwa [hperform] at h
  · rename_i hperform
    cases hrun
    rw [hperform] at h
    exact h _ rfl
  · cases hrun

theorem flow_owns (stored : Except String ℕ) (readback : ℚ) :
    OwnershipChecked 7 ⟨some 7⟩ (flowSys (pidEnvironment stored readback)) :=
  ⟨⟨{ flowSys (pidEnvironment stored readback) with cursor := 1 }, rfl⟩, rfl⟩

/-- A write whose three constants are confirmed. -/
theorem pid_write_audited_flow : ∃ r s',
    flowPidWrite (flowSys (pidEnvironment (.ok 0) 3)) = some (r, s') ∧
    (ExitAudited flowRequest (flowSys (pidEnvironment (.ok 0) 3)) s' ↔
      IntentUpdated flowRequest (flowSys (pidEnvironment (.ok 0) 3))) := by
  have hrun : (flowPidWrite (flowSys (pidEnvironment (.ok 0) 3))).isSome = true := by
    decide +kernel
  have howns := flow_owns (.ok 0) 3
  generalize flowSys (pidEnvironment (.ok 0) 3) = s at hrun howns ⊢
  obtain ⟨⟨r, s'⟩, hperform⟩ := Option.isSome_iff_exists.mp hrun
  exact ⟨r, s', hperform, flowPidWrite_spec hperform
    (pid_write_audited_iff flowRequest 7 ⟨some 7⟩ s howns)⟩

/-- The pre-read succeeds and the restore-intent update fails: the write ends with an error, and no
row is inserted. -/
theorem pid_write_not_audited : ∃ e s',
    flowPidWrite (flowSys (pidEnvironment (.error "database is locked") 3)) =
      some (.error e, s') ∧
    OwnershipChecked 7 ⟨some 7⟩ (flowSys (pidEnvironment (.error "database is locked") 3)) ∧
    ¬ExitAudited flowRequest (flowSys (pidEnvironment (.error "database is locked") 3)) s' := by
  have hrun : (flowPidWrite (flowSys (pidEnvironment (.error "database is locked") 3))).map
      (fun run => (run.1.toOption.isSome, run.2.trace.any Event.insertsRow)) =
      some (false, false) := by
    decide
  have howns := flow_owns (.error "database is locked") 3
  have hempty : (flowSys (pidEnvironment (.error "database is locked") 3)).trace = [] := rfl
  generalize flowSys (pidEnvironment (.error "database is locked") 3) = s at hrun howns hempty ⊢
  obtain ⟨⟨r, s'⟩, hperform, hnone⟩ := Option.map_eq_some_iff.mp hrun
  obtain ⟨hfailed, hnone⟩ := Prod.mk.inj hnone
  cases r with
  | ok outcome => cases hfailed
  | error e =>
    have hnever : ∀ row result, .db (.insertWrite row) result ∉ s'.trace :=
      fun row result hmem => List.any_eq_false.mp hnone _ hmem rfl
    refine ⟨e, s', hperform, howns, fun h => ?_⟩
    obtain ⟨parts, row, id, hlog, _⟩ := h s'.trace (by rw [hempty, List.nil_append])
      fun row result hmem => absurd hmem (hnever row result)
    refine hnever row (.ok id) ?_
    rw [hlog]
    exact List.mem_append_right _ List.mem_cons_self

end Bhtune
