import Bhtune.Library.LatestEntry
import Bhtune.Runtime.CrashEvidence

/-!
# The rows of `tune_mv_actuations`

The rows of one run as its statements leave them, and the histories that write them: a run that
may crash, and recovery attempts that may crash too.  A statement that failed stores nothing.

* `storeMv`, `mvRows` — what one event stores, and the rows after a whole log;
* `recoveryMvTracker` — the tracker a recovery is set up with;
* `recoveryRestore` — the part of a recovery attempt that commands the MV;
* `MvHistory` — the logs of a run and of the recovery attempts after it;
* `commands_mvRows` — the commands of the rows are the ones that were inserted.
-/

namespace Bhtune

open Effect

/-! ### The table -/

/-- A row of `tune_mv_actuations`; `status` is `none` while it is pending. -/
structure TuneMvActuationRow where
  id : ℕ
  command : NewTuneMvActuation
  lastCheckedAt : Option UtcTime
  readbackMv : Option ℚ
  readbackQuality : Option SampleQuality
  attemptCount : ℕ
  status : Option MvActuationStatus
  detail : Option Text
  deriving DecidableEq

namespace TuneMvActuationRow

/-- The row that `insert_pending` makes. -/
def inserted (id : ℕ) (command : NewTuneMvActuation) : TuneMvActuationRow where
  id := id
  command := command
  lastCheckedAt := none
  readbackMv := none
  readbackQuality := none
  attemptCount := 0
  status := none
  detail := none

/-- What `record_observation` sets. -/
def observed (row : TuneMvActuationRow) (checkedAt : UtcTime) (readback : Option ℚ)
    (quality : Option SampleQuality) : TuneMvActuationRow :=
  { row with
    lastCheckedAt := some checkedAt
    readbackMv := readback
    readbackQuality := quality
    attemptCount := row.attemptCount + 1 }

/-- What `finalize` and `finalize_pending_for_run` set. -/
def settled (row : TuneMvActuationRow) (status : MvActuationStatus) (detail : Option Text) :
    TuneMvActuationRow :=
  { row with status := some status, detail := detail }

@[simp] theorem inserted_command (id : ℕ) (command : NewTuneMvActuation) :
    (inserted id command).command = command := rfl

@[simp] theorem observed_command (row : TuneMvActuationRow) (checkedAt : UtcTime)
    (readback : Option ℚ) (quality : Option SampleQuality) :
    (row.observed checkedAt readback quality).command = row.command := rfl

@[simp] theorem settled_command (row : TuneMvActuationRow) (status : MvActuationStatus)
    (detail : Option Text) : (row.settled status detail).command = row.command := rfl

end TuneMvActuationRow

/-- `UPDATE .. WHERE id = ? AND status = 'pending'`. -/
def updatePending (id : ℕ) (f : TuneMvActuationRow → TuneMvActuationRow)
    (rows : List TuneMvActuationRow) : List TuneMvActuationRow :=
  rows.map fun row => if row.id = id ∧ row.status = none then f row else row

/-- `UPDATE .. WHERE run_id = ? AND status = 'pending'`. -/
def updateAllPending (f : TuneMvActuationRow → TuneMvActuationRow)
    (rows : List TuneMvActuationRow) : List TuneMvActuationRow :=
  rows.map fun row => if row.status = none then f row else row

/-- What an event stores. -/
def storeMv (rows : List TuneMvActuationRow) : Event → List TuneMvActuationRow
  | .db (.insertPending command) (.ok id) => rows ++ [.inserted id command]
  | .db (.recordObservation id checkedAt readback quality) (.ok _) =>
    updatePending id (fun row => row.observed checkedAt readback quality) rows
  | .db (.recordFinalObservation id checkedAt readback quality status detail) (.ok _) =>
    updatePending id (fun row => (row.observed checkedAt readback quality).settled status detail)
      rows
  | .db (.finalize id status detail) (.ok _) =>
    updatePending id (fun row => row.settled status detail) rows
  | .db (.finalizePendingForRun status detail) (.ok _) =>
    updateAllPending (fun row => row.settled status detail) rows
  | _ => rows

/-- The rows of a run after a log. -/
def mvRows (log : List Event) : List TuneMvActuationRow := log.foldl storeMv []

@[simp] theorem mvRows_nil : mvRows [] = [] := rfl

@[simp] theorem mvRows_concat (log : List Event) (e : Event) :
    mvRows (log ++ [e]) = storeMv (mvRows log) e := by simp [mvRows]

theorem map_command_updatePending (id : ℕ) {f : TuneMvActuationRow → TuneMvActuationRow}
    (hf : ∀ row, (f row).command = row.command) (rows : List TuneMvActuationRow) :
    (updatePending id f rows).map (·.command) = rows.map (·.command) := by
  induction rows with
  | nil => rfl
  | cons row rows ih =>
    show (if row.id = id ∧ row.status = none then f row else row).command ::
      (updatePending id f rows).map (·.command) = _
    rw [ih]
    by_cases h : row.id = id ∧ row.status = none <;> simp [h, hf]

theorem map_command_updateAllPending {f : TuneMvActuationRow → TuneMvActuationRow}
    (hf : ∀ row, (f row).command = row.command) (rows : List TuneMvActuationRow) :
    (updateAllPending f rows).map (·.command) = rows.map (·.command) := by
  induction rows with
  | nil => rfl
  | cons row rows ih =>
    show (if row.status = none then f row else row).command ::
      (updateAllPending f rows).map (·.command) = _
    rw [ih]
    by_cases h : row.status = none <;> simp [h, hf]

/-- The command an event stores. -/
def Event.storedCommand : Event → List NewTuneMvActuation
  | .db (.insertPending command) (.ok _) => [command]
  | _ => []

/-- **No statement but an insert changes the commands of the rows.** -/
theorem map_command_storeMv (rows : List TuneMvActuationRow) (e : Event) :
    (storeMv rows e).map (·.command) = rows.map (·.command) ++ e.storedCommand := by
  cases e with
  | db op result =>
    cases result with
    | error message =>
      have hrows : storeMv rows (.db op (.error message)) = rows := by cases op <;> rfl
      have hnone : Event.storedCommand (.db op (.error message)) = [] := by cases op <;> rfl
      rw [hrows, hnone, List.append_nil]
    | ok id =>
      cases op with
      | insertPending command => simp [storeMv, Event.storedCommand]
      | recordObservation id' checkedAt readback quality =>
        have hkept := map_command_updatePending id'
          (fun row => row.observed_command checkedAt readback quality) rows
        exact hkept.trans (List.append_nil _).symm
      | recordFinalObservation id' checkedAt readback quality status detail =>
        have hkept := map_command_updatePending id'
          (fun row => (row.observed checkedAt readback quality).settled_command status detail) rows
        exact hkept.trans (List.append_nil _).symm
      | finalize id' status detail =>
        have hkept := map_command_updatePending id' (fun row => row.settled_command status detail)
          rows
        exact hkept.trans (List.append_nil _).symm
      | finalizePendingForRun status detail =>
        have hkept := map_command_updateAllPending (fun row => row.settled_command status detail)
          rows
        exact hkept.trans (List.append_nil _).symm
      | _ => exact (List.append_nil _).symm
  | _ => exact (List.append_nil _).symm

theorem commands_mvRows (log : List Event) :
    (mvRows log).map (·.command) = log.flatMap Event.storedCommand := by
  induction log using List.reverseRecOn with
  | nil => rfl
  | append_singleton log e ih =>
    rw [mvRows_concat, map_command_storeMv, ih, List.flatMap_append]
    simp

/-! ### Recovery -/

/-- The largest `i64`. -/
def i64Max : ℤ := 2 ^ 63 - 1

/-- `recovery_mv_tracker`: it goes on after the stored rows. -/
def recoveryMvTracker (runId : ℕ) (rows : List TuneMvActuationRow) (initial : InitialState) :
    Except Text MvActuationTracker :=
  let nextSequence := match (rows.map (·.command.sequence)).max? with
    | none => some 0
    | some sequence => if sequence = i64Max then none else some (sequence + 1)
  match nextSequence, MvActuationTracker.forRun .opcda initial with
  | none, _ =>
    .error (text "run " ++ [.nat runId] ++ text " MV actuation sequence is exhausted")
  | some _, none =>
    .error (text "run " ++ [.nat runId] ++ text " cannot initialize its OPC DA MV audit tracker")
  | some nextSequence, some tracker =>
    .ok { tracker with
      nextSequence := nextSequence
      previousCommandedMv := match maxByKey (·.command.sequence) rows with
        | none => initial.mvIni
        | some row => row.command.targetMv }

/-- What a recovery attempt does about the MV once it owns the claim: it says that nothing is
pending any more and restores the loop. -/
def recoveryRestore (fuel : ℕ) (ctx : RunContext) (initial : InitialState)
    (period : Option (XNum ℚ)) : Io RestoreAttempt := do
  runStatement (.finalizePendingForRun .unverified (some (text ("an interrupted tune left this " ++
    "accepted MV command unverified; a restore-loop attempt is taking over"))))
  attemptRestore fuel ctx initial none period .required

/-- The log of a run that ran to its end or crashed, and of any number of recovery attempts after
it, each of them run to its end or crashed. -/
inductive MvHistory (ctx : RunContext) : List Event → Prop
  | run {fuel : ℕ} {prepared : PreparedTune} {hasHandler : Bool} {s : Sys} {log : List Event}
      (hctx : prepared.ctx = ctx) (hnew : s.trace = [])
      (hcrash : log <+: recordOf (driveReport fuel prepared hasHandler) s) : MvHistory ctx log
  | recovered {fuel runId : ℕ} {initial : InitialState} {period : Option (XNum ℚ)}
      {tracker : MvActuationTracker} {s : Sys} {log new : List Event} (h : MvHistory ctx log)
      (hdriver : ctx.driver = .opcda)
      (hinitial : ∃ id, .db (.recordInitialReadings initial) (.ok id) ∈ log)
      (htracker : recoveryMvTracker runId (mvRows log) initial = .ok tracker)
      (hprogram : s.program.tracker = some tracker) (hnew : s.trace = [])
      (hcrash : new <+: recordOf (recoveryRestore fuel ctx initial period) s) :
      MvHistory ctx (log ++ new)

end Bhtune
