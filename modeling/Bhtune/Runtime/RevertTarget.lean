import Bhtune.Library.LatestEntry
import Bhtune.Runtime.PidRollback
import Bhtune.Runtime.Revert

/-!
# What a revert takes as its target

The recorded attempts to write and to revert the constants of a run follow one another, and nobody
else writes them.  A revert chooses from the rows they left: it looks at the kind of a row and at
its previous values, not at what the attempt came to.

* `RecordedAttempt`, `recordedRows`, `heldAfter` — attempts, their rows and the controller;
* `LatestAttempt` — the most recent attempt to write, as the rows are listed;
* `revert_target` — its previous values are the target, and without them the revert is refused;
* `not_revertsLastChange` — so an attempt that wrote nothing stands before an earlier write.
-/

namespace Bhtune

open Effect EventLog

/-! ### Attempts on one run -/

/-- The attempt came to an outcome; a database error on the way leaves it without a row. -/
def PidWriteRequest.ends (request : PidWriteRequest) (runId : ℕ) (outside : Environment) : Bool :=
  match request.perform runId ⟨some runId⟩ (flowSys outside) with
  | .ok _ _ => true
  | .error _ _ => false

/-- An attempt to write or to revert the constants of a run that came to its outcome; `outside`
answers its calls and statements. -/
structure RecordedAttempt (runId : ℕ) where
  request : PidWriteRequest
  outside : Environment
  ends : request.ends runId outside

section Attempts

variable {runId : ℕ}

/-- The calls and statements of an attempt. -/
def RecordedAttempt.log (attempt : RecordedAttempt runId) : List Event :=
  sectionLog attempt.request runId attempt.outside

/-- **An attempt left one row, and it tells what the attempt did.** -/
theorem RecordedAttempt.audited (attempt : RecordedAttempt runId) :
    AuditComplete attempt.request attempt.log := by
  have hexit := pidWriteExit_spec attempt.request runId ⟨some runId⟩ (flowSys attempt.outside)
  have hends := attempt.ends
  unfold PidWriteRequest.ends at hends
  unfold returns wp at hexit
  show AuditComplete _ (sectionLog _ _ _)
  unfold sectionLog
  cases hrun : attempt.request.perform runId ⟨some runId⟩ (flowSys attempt.outside) with
  | error f s =>
    rw [hrun] at hends
    cases hends
  | ok outcome s =>
    rw [hrun] at hexit
    cases hexit with
    | recorded _ _ parts row result _ htrace haudited houtcome =>
      obtain ⟨⟨id, rfl⟩, _⟩ := houtcome outcome rfl
      have hlog : s.trace = parts.events ++ [.db (.insertWrite row) (.ok id)] := htrace
      dsimp only
      rw [hlog]
      exact auditComplete_of_audited haudited

theorem RecordedAttempt.rows_ne_nil (attempt : RecordedAttempt runId) :
    rowsInserted attempt.log ≠ [] := by
  obtain ⟨_, row, _, _, hrows, _⟩ := attempt.audited
  rw [hrows]
  exact List.cons_ne_nil row []

/-- The row an attempt left. -/
def RecordedAttempt.row (attempt : RecordedAttempt runId) : NewTuneWrite :=
  (rowsInserted attempt.log).head attempt.rows_ne_nil

theorem RecordedAttempt.row_audited (attempt : RecordedAttempt runId) :
    ∃ parts id, attempt.log = parts.events ++ [.db (.insertWrite attempt.row) (.ok id)] ∧
      rowsInserted attempt.log = [attempt.row] ∧
      PidWriteLog.Audited parts attempt.request attempt.row := by
  obtain ⟨parts, row, id, hlog, hrows, haudited⟩ := attempt.audited
  have hrow : attempt.row = row := by
    unfold RecordedAttempt.row
    simp only [hrows, List.head_cons]
  exact ⟨parts, id, hrow ▸ hlog, hrow ▸ hrows, hrow ▸ haudited⟩

/-- The calls and statements of attempts, one after the other. -/
def attemptsLog (attempts : List (RecordedAttempt runId)) : List Event :=
  attempts.flatMap RecordedAttempt.log

/-- The rows of `tune_writes` after the attempts. -/
def recordedRows (attempts : List (RecordedAttempt runId)) : List TuneWriteRow :=
  ((attemptsLog attempts).foldl (fun s e => RevertSystem.record s runId e)
    (RevertSystem.start [] 1)).writes

/-- What the controller holds after the attempts. -/
def heldAfter (held : String → TagWrite) (attempts : List (RecordedAttempt runId)) :
    String → TagWrite := holds held (attemptsLog attempts)

/-- The attempt leaves at least one of its constants changed. -/
def RecordedAttempt.Changes (attempt : RecordedAttempt runId) (held : String → TagWrite) : Prop :=
  ∃ tag ∈ attempt.request.targets.map Prod.fst, heldAfter held [attempt] tag ≠ held tag

/-- What a revert of the run takes from the rows that the attempts left. -/
def revertTarget (attempts : List (RecordedAttempt runId)) :
    Except Text (ResponseLevel × WriteReadback) :=
  recordedWrite runId (listForRun (recordedRows attempts) runId)

/-- The most recent of the attempts to write: by the time of the rows, and of equal times the one
recorded last. -/
abbrev LatestAttempt (before : List (RecordedAttempt runId)) (attempt : RecordedAttempt runId)
    (after : List (RecordedAttempt runId)) : Prop :=
  Latest (fun attempt : RecordedAttempt runId => attempt.row.writtenAt)
    (fun attempt => attempt.row.kind = .write) before attempt after

/-! ### The rows -/

/-- A log adds the rows it inserts. -/
theorem writes_of_record (s : RevertSystem) (log : List Event) :
    ∃ rows : List TuneWriteRow,
      (log.foldl (fun s e => RevertSystem.record s runId e) s).writes = s.writes ++ rows ∧
      rows.map TuneWriteRow.write = rowsInserted log ∧ ∀ row ∈ rows, row.runId = runId := by
  induction log generalizing s with
  | nil => exact ⟨[], (List.append_nil _).symm, rfl, List.forall_mem_nil _⟩
  | cons e log ih =>
    obtain ⟨rows, hwrites, hrows, hrun⟩ := ih (s.record runId e)
    -- an event that inserts nothing
    have hsame : s.record runId e = s → rowsInserted (e :: log) = rowsInserted log →
        ∃ rows : List TuneWriteRow,
          ((e :: log).foldl (fun s e => RevertSystem.record s runId e) s).writes =
            s.writes ++ rows ∧
          rows.map TuneWriteRow.write = rowsInserted (e :: log) ∧
            ∀ row ∈ rows, row.runId = runId := by
      intro hkept hinserted
      refine ⟨rows, ?_, hrows.trans hinserted.symm, hrun⟩
      rw [List.foldl_cons, hwrites, hkept]
    cases e with
    | db op result =>
      cases op with
      | insertWrite row =>
        cases result with
        | ok id =>
          refine ⟨⟨s.nextWrite, runId, row⟩ :: rows, ?_, ?_, List.forall_mem_cons.mpr ⟨rfl, hrun⟩⟩
          · rw [List.foldl_cons, hwrites]
            show s.writes ++ [_] ++ rows = _
            rw [List.append_assoc]
            rfl
          · rw [List.map_cons, hrows]
            rfl
        | error e => exact hsame rfl rfl
      | _ => exact hsame rfl rfl
    | _ => exact hsame rfl rfl

theorem rowsInserted_attemptsLog (attempts : List (RecordedAttempt runId)) :
    rowsInserted (attemptsLog attempts) = attempts.map RecordedAttempt.row := by
  induction attempts with
  | nil => rfl
  | cons attempt attempts ih =>
    obtain ⟨_, _, _, hrows, _⟩ := attempt.row_audited
    show rowsInserted (attempt.log ++ attemptsLog attempts) = _
    unfold rowsInserted at *
    rw [List.filterMap_append, ih, hrows]
    rfl

/-- The attempts left their rows, in their order. -/
theorem write_of_recordedRows (attempts : List (RecordedAttempt runId)) :
    (recordedRows attempts).map TuneWriteRow.write = attempts.map RecordedAttempt.row ∧
      ∀ row ∈ recordedRows attempts, row.runId = runId := by
  obtain ⟨rows, hwrites, hrows, hrun⟩ :=
    @writes_of_record runId (RevertSystem.start [] 1) (attemptsLog attempts)
  have hrecorded : recordedRows attempts = rows := hwrites
  rw [hrecorded, hrows, rowsInserted_attemptsLog]
  exact ⟨rfl, hrun⟩

/-- All rows are of the run that is reverted. -/
theorem listForRun_recordedRows (attempts : List (RecordedAttempt runId)) :
    listForRun (recordedRows attempts) runId =
      (recordedRows attempts).insertionSort fun a b => a.write.writtenAt ≤ b.write.writtenAt := by
  unfold listForRun
  congr 1
  exact List.filter_eq_self.mpr fun row hrow =>
    decide_eq_true ((write_of_recordedRows attempts).2 row hrow)

/-- **The last `Write` of the list is the row of the most recent attempt to write.** -/
theorem latestWrite_recordedRows {before after : List (RecordedAttempt runId)}
    {attempt : RecordedAttempt runId} (h : LatestAttempt before attempt after) :
    ∃ row, latestWrite (listForRun (recordedRows (before ++ attempt :: after)) runId) = some row ∧
      row.write = attempt.row := by
  obtain ⟨hwrites, -⟩ := write_of_recordedRows (before ++ attempt :: after)
  rw [List.map_append, List.map_cons] at hwrites
  obtain ⟨rowsBefore, rest, hrows, hbefore, hrest⟩ := List.map_eq_append_iff.mp hwrites
  obtain ⟨row, rowsAfter, rfl, hrow, hafter⟩ := List.map_eq_cons_iff.mp hrest
  have hlatest : Latest (fun row : TuneWriteRow => row.write.writtenAt)
      (fun row => row.write.kind = .write) rowsBefore row rowsAfter := by
    constructor
    · rw [hrow]
      exact h.kind
    · intro other hother hkind
      have hmem : other.write ∈ before.map RecordedAttempt.row :=
        hbefore ▸ List.mem_map_of_mem hother
      obtain ⟨earlier, hearlier, hsame⟩ := List.mem_map.mp hmem
      rw [← hsame] at hkind ⊢
      rw [hrow]
      exact h.earlier earlier hearlier hkind
    · intro other hother hkind
      have hmem : other.write ∈ after.map RecordedAttempt.row :=
        hafter ▸ List.mem_map_of_mem hother
      obtain ⟨later, hlater, hsame⟩ := List.mem_map.mp hmem
      rw [← hsame] at hkind ⊢
      rw [hrow]
      exact h.later later hlater hkind
  refine ⟨row, ?_, hrow⟩
  rw [listForRun_recordedRows, hrows]
  exact lastWhere_insertionSort hlatest

/-! ### The target -/

/-- An audit row is of this kind. -/
def Event.OfKind (kind : WriteKind) : Event → Prop
  | .db (.insertWrite row) _ => row.kind = kind
  | _ => True

/-- The row of a request is of its kind. -/
theorem keeps_ofKind (request : PidWriteRequest) (ownership : LiveOperationGuard) :
    Keeps (within (Event.OfKind request.kind) fun _ => ()) (request.perform runId ownership) := by
  have hinsert : ∀ row : NewTuneWrite, row.kind = request.kind →
      Keeps (within (Event.OfKind request.kind) fun _ => ()) (runStatement (.insertWrite row)) :=
    fun row hkind => keeps_runStatement fun _ => hkind
  unfold PidWriteRequest.perform writePidValuesInner
  refine keeps_ensureHealthy.bind fun _ => ?_
  split
  · exact keeps_bail _
  · refine keeps_utcNow.bind fun writtenAt =>
      (keeps_tryErr (keeps_readPreviousPidValues (fun _ => trivial) _ _ _ _)).bind fun r => ?_
    cases r with
    | error e => exact (hinsert _ rfl).bind fun _ => .pure _
    | ok previous =>
      refine ((keeps_runStatement fun _ => trivial).bind fun _ => keeps_ensureHealthy.bind fun _ =>
        keeps_runStatement fun _ => trivial).bind fun _ =>
          (keeps_writePidSteps (fun _ => trivial) (fun _ _ => trivial) _ _ _).bind fun result => ?_
      obtain ⟨done, failure⟩ := result
      cases failure with
      | none => exact (hinsert _ rfl).bind fun _ => .pure _
      | some failed =>
        show Keeps _ (failPidWrite _ _ _ _ _)
        unfold failPidWrite
        dsimp only
        split
        · exact (hinsert _ rfl).bind fun _ => .pure _
        · refine (keeps_rollbackPidWrites (fun _ _ => trivial) _).bind fun failures => ?_
          cases failures with
          | nil => exact (hinsert _ rfl).bind fun _ => .pure _
          | cons e es => exact (hinsert _ rfl).bind fun _ => .pure _

/-- So is the row of an attempt. -/
theorem RecordedAttempt.row_kind (attempt : RecordedAttempt runId) :
    attempt.row.kind = attempt.request.kind := by
  obtain ⟨parts, id, hlog, -⟩ := attempt.row_audited
  have hall : ∀ e ∈ attempt.log, e.OfKind attempt.request.kind := by
    have hkeeps := @keeps_ofKind runId attempt.request ⟨some runId⟩
    show ∀ e ∈ sectionLog _ _ _, _
    unfold sectionLog
    cases hrun : attempt.request.perform runId ⟨some runId⟩ (flowSys attempt.outside) with
    | ok outcome s =>
      obtain ⟨⟨new, htrace, hnew⟩, -⟩ := hkeeps.rel_of_ok hrun
      dsimp only
      rw [htrace]
      exact hnew
    | error f s =>
      obtain ⟨⟨new, htrace, hnew⟩, -⟩ := hkeeps.rel_of_error hrun
      dsimp only
      rw [htrace]
      exact hnew
  refine hall (.db (.insertWrite attempt.row) (.ok id)) ?_
  rw [hlog]
  exact List.mem_append_right _ List.mem_cons_self

/-- An attempt whose pre-read failed writes nothing. -/
theorem RecordedAttempt.no_write (attempt : RecordedAttempt runId)
    (h : attempt.row.previous = none) : ∀ call, .write call ∉ attempt.log := by
  obtain ⟨parts, id, hlog, -, haudited⟩ := attempt.row_audited
  have hnothing : parts.attempted = [] := by
    have horder := haudited.order
    rwa [h] at horder
  have hconfirmed : parts.confirmed = [] := (List.append_eq_nil_iff.mp hnothing).1
  have hrollbacks : parts.rollbacks = [] := by
    rcases haudited.putBack with hnil | hforall
    · exact hnil
    · rw [hconfirmed] at hforall
      exact List.forall₂_nil_left_iff.mp hforall
  intro call hmem
  rw [hlog, PidWriteLog.events, hnothing, hrollbacks] at hmem
  simp only [List.flatMap_nil, List.map_nil, List.append_nil, List.mem_append,
    List.mem_singleton, reduceCtorEq, or_false] at hmem
  exact haudited.before _ hmem

/-- A most recent attempt to write that changed a constant had read the previous values. -/
theorem RecordedAttempt.previous_of_changes (attempt : RecordedAttempt runId)
    {held : String → TagWrite} (h : attempt.Changes held) :
    ∃ previous, attempt.row.previous = some previous := by
  cases hprevious : attempt.row.previous with
  | some previous => exact ⟨previous, rfl⟩
  | none =>
    obtain ⟨tag, -, hchanged⟩ := h
    refine absurd (holds_untouched fun call hmem => ?_) hchanged
    have hlog : attemptsLog [attempt] = attempt.log := List.append_nil _
    rw [hlog] at hmem
    exact absurd hmem (attempt.no_write hprevious call)

/-- **What the target is.**  `held` is what the controller holds at first. -/
structure TakesLatest (held : String → TagWrite) (attempts : List (RecordedAttempt runId)) :
    Prop where
  /-- Without an attempt to write there is nothing to revert. -/
  none : (∀ attempt ∈ attempts, attempt.request.kind = .revert) →
    ∃ e, revertTarget attempts = .error e
  /-- Else one of them is the most recent. -/
  some : (∃ attempt ∈ attempts, attempt.request.kind = .write) →
    ∃ before attempt after, attempts = before ++ attempt :: after ∧
      LatestAttempt before attempt after
  /-- The previous values of the most recent one are the target. -/
  target : ∀ before attempt after, attempts = before ++ attempt :: after →
    LatestAttempt before attempt after → ∀ previous, attempt.row.previous = .some previous →
      revertTarget attempts = .ok (attempt.row.responseLevel, previous)
  /-- Without them the revert is refused; that attempt wrote nothing. -/
  refused : ∀ before attempt after, attempts = before ++ attempt :: after →
    LatestAttempt before attempt after → attempt.row.previous = .none →
      (∃ e, revertTarget attempts = .error e) ∧ ∀ call, .write call ∉ attempt.log
  /-- So a most recent attempt that left a change is reverted. -/
  changed : ∀ before attempt after, attempts = before ++ attempt :: after →
    LatestAttempt before attempt after → attempt.Changes (heldAfter held before) →
      ∃ previous, attempt.row.previous = .some previous ∧
        revertTarget attempts = .ok (attempt.row.responseLevel, previous)
  /-- A revert that goes on writes its target. -/
  planned : ∀ request run plan, TuneRunRow.id run = runId →
    planRevert request run (listForRun (recordedRows attempts) runId) = .ok plan →
      revertTarget attempts = .ok (plan.responseLevel, plan.target)

theorem recordedWrite_of_latest {rows : List TuneWriteRow} {row : TuneWriteRow}
    (h : latestWrite rows = some row) :
    (∀ previous, row.write.previous = some previous →
      recordedWrite runId rows = .ok (row.write.responseLevel, previous)) ∧
    (row.write.previous = none → ∃ e, recordedWrite runId rows = .error e) := by
  unfold recordedWrite
  rw [h]
  dsimp only
  cases row.write.previous with
  | none => exact ⟨nofun, fun _ => ⟨_, rfl⟩⟩
  | some previous => exact ⟨fun _ hprevious => hprevious ▸ rfl, nofun⟩

/-- A plan carries what the choice brought. -/
theorem recordedWrite_of_planRevert {request : RevertRequest} {run : TuneRunRow}
    {rows : List TuneWriteRow} {plan : RevertPlan} (h : planRevert request run rows = .ok plan) :
    recordedWrite run.id rows = .ok (plan.responseLevel, plan.target) := by
  unfold planRevert at h
  cases hrecorded : recordedWrite run.id rows with
  | error e =>
    rw [hrecorded] at h
    cases h
  | ok found =>
    rw [hrecorded] at h
    cases hconfirmed : requireConfirmed request with
    | error e =>
      rw [hconfirmed] at h
      cases h
    | ok _ =>
      rw [hconfirmed] at h
      cases htags : revertTags run with
      | error e =>
        rw [htags] at h
        cases h
      | ok tags =>
        rw [htags] at h
        cases hconnection : resolveRevertConnection run request.bridgeHost request.server with
        | error e =>
          rw [hconnection] at h
          cases h
        | ok connection =>
          rw [hconnection] at h
          cases h
          rfl

/-- **The target of a revert, after any attempts to write and to revert.**  It is the previous
values of the most recent attempt to write; the revert is refused exactly when there is none or
its pre-read failed. -/
theorem revert_target (held : String → TagWrite) (attempts : List (RecordedAttempt runId)) :
    TakesLatest held attempts := by
  have htarget : ∀ before attempt after, attempts = before ++ attempt :: after →
      LatestAttempt before attempt after → ∀ previous, attempt.row.previous = some previous →
        revertTarget attempts = .ok (attempt.row.responseLevel, previous) := by
    rintro before attempt after rfl hlatest previous hprevious
    obtain ⟨row, hrow, hsame⟩ := latestWrite_recordedRows hlatest
    have htaken := (@recordedWrite_of_latest runId _ _ hrow).1 previous
    rw [hsame] at htaken
    exact htaken hprevious
  refine ⟨?_, ?_, htarget, ?_, ?_, ?_⟩
  · intro hreverts
    have hnone : latestWrite (listForRun (recordedRows attempts) runId) = none := by
      refine lastWhere_eq_none.mpr fun row hrow hkind => ?_
      rw [listForRun_recordedRows] at hrow
      have hmem : row.write ∈ attempts.map RecordedAttempt.row :=
        (write_of_recordedRows attempts).1 ▸
          List.mem_map_of_mem ((List.mem_insertionSort _).mp hrow)
      obtain ⟨attempt, hattempt, hsame⟩ := List.mem_map.mp hmem
      rw [← hsame, attempt.row_kind, hreverts attempt hattempt] at hkind
      exact absurd hkind (by decide)
    unfold revertTarget recordedWrite
    rw [hnone]
    exact ⟨_, rfl⟩
  · rintro ⟨attempt, hattempt, hkind⟩
    exact exists_latest ⟨attempt, hattempt, decide_eq_true (attempt.row_kind.trans hkind)⟩
  · rintro before attempt after rfl hlatest hprevious
    obtain ⟨row, hrow, hsame⟩ := latestWrite_recordedRows hlatest
    exact ⟨(recordedWrite_of_latest hrow).2 (hsame ▸ hprevious), attempt.no_write hprevious⟩
  · intro before attempt after hsplit hlatest hchanges
    obtain ⟨previous, hprevious⟩ := attempt.previous_of_changes hchanges
    exact ⟨previous, hprevious, htarget before attempt after hsplit hlatest previous hprevious⟩
  · rintro request run plan rfl hplan
    exact recordedWrite_of_planRevert hplan

/-! ### An attempt that wrote nothing -/

/-- A later attempt to write does not count unless it leaves a change: the target is that of the
most recent attempt that left one. -/
def RevertsLastChange (held : String → TagWrite) (attempts : List (RecordedAttempt runId)) :
    Prop :=
  ∀ before attempt after previous, attempts = before ++ attempt :: after →
    attempt.request.kind = .write → attempt.Changes (heldAfter held before) →
    attempt.row.previous = some previous →
    (∀ between later rest, after = between ++ later :: rest → later.request.kind = .write →
      ¬later.Changes (heldAfter held (before ++ attempt :: between))) →
    revertTarget attempts = .ok (attempt.row.responseLevel, previous)

end Attempts

/-- A driver that cannot be read. -/
def unreadableOutside (now : UtcTime) : Environment where
  answers := fun n => if n = 1 then { utcNow := now } else { values := .error "timeout" }
  signals := []
  signals_sorted := Environment.noSignals_sorted

/-- The constants of FC1 are written, from 1 to 2. -/
def firstWrite : RecordedAttempt 1 where
  request := overwrite 2
  outside := constantsOutside 10 1 2
  ends := by decide +kernel

/-- Then a write whose pre-read fails. -/
def unreadWrite : RecordedAttempt 1 where
  request := overwrite 3
  outside := unreadableOutside 20
  ends := by decide

/-- The constants of FC1 all hold 1. -/
def constantsAtOne : String → TagWrite := fun _ => .float 1

/-- The first write is the one that changed the constants, and the revert is refused. -/
theorem not_revertsLastChange :
    ¬RevertsLastChange constantsAtOne [firstWrite, unreadWrite] := by
  have hrefused : (revertTarget [firstWrite, unreadWrite]).toOption = none := by decide +kernel
  have hchanged : firstWrite.Changes (@heldAfter 1 constantsAtOne []) :=
    ⟨"FC1.P", by decide, by decide +kernel⟩
  have hkept : unreadWrite.row.previous = none := by decide
  obtain ⟨previous, hprevious⟩ := firstWrite.previous_of_changes hchanged
  intro hlaw
  have htarget := hlaw [] firstWrite [unreadWrite] previous rfl rfl hchanged hprevious (by
    intro between later rest hsplit _ hchanges
    have hlater : later = unreadWrite := by
      cases between with
      | nil => exact (List.cons.inj hsplit).1.symm
      | cons e between =>
        have hrest := (List.cons.inj hsplit).2
        simp at hrest
    rw [hlater] at hchanges
    obtain ⟨previous, hsome⟩ := unreadWrite.previous_of_changes hchanges
    rw [hkept] at hsome
    cases hsome)
  rw [htarget] at hrefused
  cases hrefused

end Bhtune
