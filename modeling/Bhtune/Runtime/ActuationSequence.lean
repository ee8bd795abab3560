import Bhtune.Runtime.ActuationRuns
import Bhtune.Runtime.MvActuations
import Bhtune.Runtime.TerminalOutcome

/-!
# The sequence numbers of the MV commands

The counter of the tracker stays above the numbers of the stored rows: a command that is accepted
takes a number whether its row was stored or not, and a recovery goes on after the stored rows.

* `RisingSequences` — every row is numbered above all that were stored before it;
* `Sequenced` — the invariant of a run that goes on after a log;
* `recordRelayActuation_sequenced`, `recordRestoreAccepted_sequenced` — the two inserts;
* `risingSequences_of_history` — a run and any number of recovery attempts.
-/

namespace Bhtune

open Effect EventLog

/-! ### Numbers and the stored rows -/

/-- An attempt to insert a row. -/
def Event.InsertsMv : Event → Prop
  | .db (.insertPending _) _ => True
  | _ => False

/-- The numbers of the rows of a log are below `n`. -/
def Below (n : ℤ) (log : List Event) : Prop := ∀ row ∈ mvRows log, row.command.sequence < n

/-- A row that an event is to insert is numbered above those of the log. -/
def Event.NumberedAbove (e : Event) (log : List Event) : Prop :=
  ∀ command result, e = .db (.insertPending command) result → Below command.sequence log

/-- Every row is numbered above all that were stored before it. -/
def RisingSequences (log : List Event) : Prop := Guarded Event.InsertsMv Event.NumberedAbove log

theorem below_iff {n : ℤ} {log : List Event} :
    Below n log ↔ ∀ command ∈ log.flatMap Event.storedCommand, command.sequence < n := by
  rw [← commands_mvRows, List.forall_mem_map]
  rfl

theorem storedCommand_eq_nil {e : Event} (h : ¬e.InsertsMv) : e.storedCommand = [] := by
  cases e with
  | db op result => cases op <;> cases result <;> first | rfl | exact absurd trivial h
  | _ => rfl

theorem Below.mono {n m : ℤ} {log : List Event} (h : Below n log) (hle : n ≤ m) : Below m log :=
  fun row hrow => (h row hrow).trans_le hle

theorem Below.concat {n : ℤ} {log : List Event} {e : Event} (h : Below n log)
    (he : ∀ command ∈ e.storedCommand, command.sequence < n) : Below n (log ++ [e]) := by
  rw [below_iff] at h ⊢
  intro command hcommand
  rw [List.flatMap_append, List.mem_append] at hcommand
  rcases hcommand with hcommand | hcommand
  · exact h command hcommand
  · exact he command (by simpa using hcommand)

theorem RisingSequences.concat {log : List Event} {e : Event} (h : RisingSequences log)
    (he : e.InsertsMv → e.NumberedAbove log) : RisingSequences (log ++ [e]) := Guarded.concat h he

/-- Rows that were numbered so are in the order of their numbers. -/
theorem RisingSequences.pairwise {log : List Event} (h : RisingSequences log) :
    (mvRows log).Pairwise fun a b => a.command.sequence < b.command.sequence := by
  suffices hcommands : ((mvRows log).map (·.command)).Pairwise fun a b => a.sequence < b.sequence by
    rwa [List.pairwise_map] at hcommands
  rw [commands_mvRows]
  induction log using List.reverseRecOn with
  | nil => exact .nil
  | append_singleton log e ih =>
    rw [List.flatMap_append, List.pairwise_append]
    refine ⟨ih (Guarded.of_prefix h (List.prefix_append _ _)), ?_, ?_⟩
    · show (e.storedCommand ++ []).Pairwise _
      rw [List.append_nil]
      unfold Event.storedCommand
      split
      · exact List.pairwise_singleton _ _
      · exact .nil
    · intro a ha b hb
      have hb : b ∈ e.storedCommand := by simpa using hb
      by_cases hinserts : e.InsertsMv
      · have habove := h log e [] rfl hinserts
        unfold Event.storedCommand at hb
        split at hb
        · rename_i command id
          obtain rfl := List.mem_singleton.mp hb
          exact below_iff.mp (habove _ _ rfl) a ha
        · simp at hb
      · rw [storedCommand_eq_nil hinserts] at hb
        simp at hb

/-! ### The invariant -/

/-- The log that goes on after `base` is numbered upwards, and the tracker's counter is above it. -/
structure Sequenced (base : List Event) (s : Sys) : Prop where
  rising : RisingSequences (base ++ s.trace)
  below : ∀ tracker, s.program.tracker = some tracker →
    Below tracker.nextSequence (base ++ s.trace)

/-- The same where the number of the tracker's counter has been taken. -/
structure NumberTaken (base : List Event) (tracker : MvActuationTracker) (s : Sys) : Prop where
  rising : RisingSequences (base ++ s.trace)
  below : Below (tracker.nextSequence + 1) (base ++ s.trace)
  tracker : s.program.tracker = some tracker

/-- The frame of what inserts no row and takes no number. -/
abbrev issuing : Frame Sys :=
  within (fun e => ¬e.InsertsMv) fun a => a.tracker.map (·.issued)

variable {base : List Event} {s s' : Sys} {α : Type}

theorem not_insertsMv_of_audits (e : Event) (_ : e.Silent) (h : e.Audits) : ¬e.InsertsMv := by
  cases e with
  | db op result => cases op <;> first | exact h.elim | exact id
  | _ => exact id

theorem not_insertsMv_of_offMv {e : Event} (h : e.OffMv) : ¬e.InsertsMv := by
  cases e with
  | db op result => cases op <;> first | exact id | exact absurd trivial h
  | _ => exact id

/-- What inserts no row keeps the invariant. -/
theorem Sequenced.issuing (h : Sequenced base s) (hrel : issuing.rel s s') :
    Sequenced base s' := by
  obtain ⟨happ, _, htracker⟩ := hrel
  have hrising : RisingSequences (base ++ s'.trace) :=
    happ.carry (P := fun l => RisingSequences (base ++ l))
      (fun l e hl he => by rw [← List.append_assoc]; exact hl.concat fun hi => absurd hi he) h.rising
  refine ⟨hrising, fun tracker ht => ?_⟩
  cases hs : s.program.tracker with
  | none => simp [ht, hs] at htracker
  | some t =>
    have hissued : tracker.issued = t.issued := by simpa [ht, hs] using htracker
    have hnext : tracker.nextSequence = t.nextSequence := congrArg Prod.fst hissued
    rw [hnext]
    exact happ.carry (P := fun l => Below t.nextSequence (base ++ l)) (fun l e hl he => by
      rw [← List.append_assoc]
      exact hl.concat (by simp [storedCommand_eq_nil he])) (h.below t hs)

theorem sequenced_of_issuing {x : Io α} (hx : Keeps issuing x) :
    Keeps (.invariant (Sequenced base)) x := hx.weaken fun _ _ hrel h => h.issuing hrel

/-! ### The two inserts -/

/-- **An insert takes the number of the counter**, and stores nothing where it fails. -/
theorem database_numbered (h : Sequenced base s) {tracker : MvActuationTracker}
    (htracker : s.program.tracker = some tracker) {row : NewTuneMvActuation}
    (hrow : row.sequence = tracker.nextSequence) :
    wp (database (.insertPending row)) (fun _ s' => NumberTaken base tracker s')
      (fun _ s' => Sequenced base s' ∧ s'.program.tracker = some tracker) s := by
  have hkept : Keeps (within (fun _ => True) id) (database (.insertPending row)) :=
    keeps_database fun _ => trivial
  have hbelow := h.below tracker htracker
  have hrising : ∀ result,
      RisingSequences (base ++ (s.trace ++ [.db (.insertPending row) result])) := by
    intro result
    rw [← List.append_assoc]
    refine h.rising.concat fun _ => ?_
    rintro command result' ⟨⟩
    rwa [hrow]
  have hsame : ∀ s' : Sys, (within (fun _ => True) id).rel s s' →
      s'.program.tracker = some tracker := fun s' hrel => by
    have hprogram : s'.program = s.program := hrel.2.2
    rw [hprogram, htracker]
  refine wp_mono (hkept.and_wp (database_ends (.insertPending row))) ?_ ?_
  · rintro a s' ⟨hrel, id, -, htrace⟩
    refine ⟨htrace ▸ hrising _, ?_, hsame s' hrel⟩
    rw [htrace, ← List.append_assoc]
    refine (hbelow.mono (by omega)).concat fun command hcommand => ?_
    obtain rfl : command = row := by simpa [Event.storedCommand] using hcommand
    omega
  · rintro f s' ⟨hrel, ⟨rfl, htrace⟩ | ⟨e, rfl, htrace⟩⟩
    · exact ⟨⟨htrace ▸ h.rising, fun t ht => htrace ▸ h.below t (htracker ▸ hsame s' hrel ▸ ht)⟩,
        hsame s' hrel⟩
    · refine ⟨⟨htrace ▸ hrising _, fun t ht => ?_⟩, hsame s' hrel⟩
      obtain rfl : t = tracker := Option.some.inj (ht.symm.trans (hsame s' hrel))
      rw [htrace, ← List.append_assoc]
      exact hbelow.concat (by simp [Event.storedCommand])

/-- An accepted command takes its number, stored or not. -/
theorem acceptPending_sequenced {tracker : MvActuationTracker} (h : NumberTaken base tracker s)
    (pending : PendingMvActuation) :
    wp (acceptPending pending) (fun _ s' => Sequenced base s') (fun _ s' => Sequenced base s') s := by
  refine wp_bind.mpr ((wp_modifyTracker _).mpr ((wp_mark _).mpr ⟨?_, fun t ht => ?_⟩))
  · show RisingSequences (base ++ (s.trace ++ _))
    rw [← List.append_assoc]
    exact h.rising.concat fun hinserts => hinserts.elim
  · have ht : Option.map _ s.program.tracker = some t := ht
    rw [h.tracker] at ht
    obtain rfl := Option.some.inj ht
    show Below (tracker.nextSequence + 1) (base ++ (s.trace ++ _))
    rw [← List.append_assoc]
    exact h.below.concat (by simp [Event.storedCommand])

theorem recordRelayActuation_sequenced (target : ℚ) (switchTick : UtcTime)
    (switchInstant firstCheckAt : Instant) (elapsed : ℕ) (acceptedInstant : Instant)
    (tolerance : ℚ) :
    Keeps (.invariant (Sequenced base)) (recordRelayActuation target switchTick switchInstant
      firstCheckAt elapsed acceptedInstant tolerance) := by
  refine (keeps_utcAfterElapsed _ _).bind fun acceptedAt => Keeps.of_invariant fun s h => ?_
  refine wp_bind.mpr (wp_get.mpr ?_)
  cases htracker : s.program.tracker with
  | none => exact h
  | some tracker =>
    exact wp_bind.mpr (wp_seq (wp_mono (database_numbered h htracker rfl) (fun _ _ hs => hs)
      fun _ _ hs => hs.1) fun row s' hs' => acceptPending_sequenced hs' _)

theorem recordRestoreAccepted_sequenced (policy : ActuationAuditPolicy) (target : ℚ)
    (acceptedAt : UtcTime) (acceptedInstant : Instant) (tolerance : ℚ) :
    Keeps (.invariant (Sequenced base))
      (recordRestoreAccepted policy target acceptedAt acceptedInstant tolerance) := by
  refine Keeps.of_invariant fun s h => wp_bind.mpr (wp_get.mpr ?_)
  cases htracker : s.program.tracker with
  | none => exact h
  | some tracker =>
    have hinsert : wp (database (.insertPending (tracker.newRow .restore target acceptedAt
        tolerance))) (fun _ s' => NumberTaken base tracker s')
        (fun _ s' => Sequenced base s' ∧ s'.program.tracker = some tracker) s :=
      database_numbered h htracker rfl
    refine wp_bind.mpr ?_
    cases policy with
    | required =>
      exact wp_seq (wp_mono hinsert (fun _ _ hs => hs) fun _ _ hs => hs.1) fun row s' hs' =>
        acceptPending_sequenced hs' _
    | bestEffort =>
      -- a row that could not be stored leaves its number unused
      refine wp_seq (M := fun _ s' => NumberTaken base tracker s') ?_ fun r s' hs' => ?_
      · refine wp_attempt.mpr (wp_mono hinsert (fun _ _ hs => hs) fun fault s' hs => ?_)
        have htaken : NumberTaken base tracker s' :=
          ⟨hs.1.rising, (hs.1.below tracker hs.2).mono (by omega), hs.2⟩
        cases fault.error? with
        | none => exact hs.1
        | some e => exact htaken
      · cases r with
        | ok row => exact acceptPending_sequenced hs' _
        | error e => exact acceptPending_sequenced hs' _

/-! ### Runs and recoveries -/

theorem performWriteMv_sequenced (ctx : RunContext) (v : ℚ) (time : UtcTime)
    (observedInstant : Instant) :
    Keeps (.invariant (Sequenced base)) (performWriteMv ctx v time observedInstant) := by
  have hguard : Keeps issuing (modifyProgram fun p =>
      { p with guard := { p.guard with mvWritten := true } }) := keeps_modifyProgram fun _ => rfl
  have hwrite : ∀ tolerance pending, Keeps issuing (bounded (boundedWrite none
      ctx.effectiveTiming.opTimeoutSecs (.relay tolerance pending) ctx.tags.manipulatedVariable
      (.float v))) := fun _ _ => keeps_bounded (keeps_boundedWrite fun _ _ _ => id)
  exact fun _ => relayCommandParts (sequenced_of_issuing hguard)
    (fun _ _ _ => sequenced_of_issuing (hwrite _ _)) fun _ _ _ =>
      recordRelayActuation_sequenced _ _ _ _ _ _ _

theorem restoreMv_sequenced (fuel : ℕ) (ctx : RunContext) (initialMv : ℚ)
    (policy : ActuationAuditPolicy) :
    Keeps (.invariant (Sequenced base)) (restoreMvWithVerification fuel ctx initialMv policy) := by
  have hwrite : ∀ tolerance, Keeps issuing
      (restoreMvWrite ctx ctx.tags.manipulatedVariable initialMv tolerance) :=
    fun _ => keeps_restoreMvWrite (fun _ _ => id) _
  have hhandoff : Keeps issuing
      (tryConfirmFinalSnapbackHandoff ctx ctx.tags.manipulatedVariable initialMv) :=
    keeps_tryConfirmFinalSnapbackHandoff not_insertsMv_of_audits issued_map_tracker _ _ _
  have hround : Keeps issuing
      (restoreVerificationRound ctx ctx.tags.manipulatedVariable policy) :=
    keeps_restoreVerificationRound not_insertsMv_of_audits issued_map_tracker _ _ _
  refine keeps_mvStepParts (fun _ => sequenced_of_issuing (hwrite _))
    (sequenced_of_issuing hhandoff) (fun tolerance => ?_) (sequenced_of_issuing hround) fuel
  have hsupersede : ∀ detail, Keeps issuing (supersedePendingActuationBestEffort detail) :=
    fun _ => keeps_supersedePending not_insertsMv_of_audits issued_map_tracker _
  have hdeadline : ∀ t : Instant, Keeps issuing (modifyProgram fun p =>
      { p with restoreDeadline := max p.restoreDeadline t }) := fun _ =>
    keeps_modifyProgram fun _ => rfl
  have hutc : Keeps issuing utcNow := keeps_utcNow
  exact (sequenced_of_issuing (hsupersede _)).bind fun _ => keeps_now.bind fun _ =>
    (sequenced_of_issuing hutc).bind fun _ => (sequenced_of_issuing (hdeadline _)).bind fun _ =>
      recordRestoreAccepted_sequenced _ _ _ _ _

/-- The invariant goes along with every function that concerns the commands of the MV. -/
theorem accompanies_sequenced (base : List Event) (ctx : RunContext) (initial : InitialState) :
    Accompanies (.invariant (Sequenced base)) ctx initial where
  aside := fun _ _ hrel h => h.issuing
    ⟨hrel.1.mono fun _ => not_insertsMv_of_offMv, hrel.2.1,
      congrArg (fun part => part.1.map (·.issued)) hrel.2.2⟩
  fresh := fun _ _ => sequenced_of_issuing (keeps_modifyProgram fun _ => rfl)
  verify := fun _ => sequenced_of_issuing
    (keeps_verifyPendingMvActuation not_insertsMv_of_audits issued_map_tracker _ _ _ _ _)
  poll := fun _ _ _ => sequenced_of_issuing
    (keeps_resolvePendingMvPoll not_insertsMv_of_audits issued_map_tracker _ _ _ _)
  reject := sequenced_of_issuing
    (keeps_rejectReplacement not_insertsMv_of_audits issued_map_tracker _)
  write := fun v time observedInstant s _ _ => performWriteMv_sequenced ctx v time observedInstant s
  restore := fun fuel policy => restoreMv_sequenced fuel ctx _ policy
  finalize := fun _ => sequenced_of_issuing (keeps_bestEffort (keeps_runStatement fun _ => id))

/-- A log without an insert has no row. -/
theorem below_of_forall {n : ℤ} {log : List Event} (h : ∀ e ∈ log, ¬e.InsertsMv) : Below n log := by
  rw [below_iff]
  intro command hcommand
  obtain ⟨e, he, hcommand⟩ := List.mem_flatMap.mp hcommand
  rw [storedCommand_eq_nil (h e he)] at hcommand
  simp at hcommand

theorem Sys.Uncommanded.not_inserts (h : s.Uncommanded) : ∀ e ∈ s.trace, ¬e.InsertsMv := by
  intro e he
  rcases h e he with hoff | ⟨status, detail, result, rfl⟩
  · exact not_insertsMv_of_offMv hoff
  · exact id

theorem rising_of_forall {log : List Event} (h : ∀ e ∈ log, ¬e.InsertsMv) :
    RisingSequences log := by
  rintro pre e post rfl hinserts
  exact absurd hinserts (h e (by simp))

/-- **A run numbers its rows upwards.** -/
theorem recordOf_rising (fuel : ℕ) (prepared : PreparedTune) (hasHandler : Bool)
    (hnew : s.trace = []) : RisingSequences (recordOf (driveReport fuel prepared hasHandler) s) := by
  have hsettles : ∀ initial, PassedChecks prepared.ctx initial →
      Settles (.invariant (Sequenced [])) (fun _ => True) prepared.ctx initial := fun initial _ =>
    { accompanies_sequenced [] prepared.ctx initial with
      closes := fun _ _ => wlp_true _
      stays := fun _ _ _ => id }
  have hbegin : ∀ initial s', PassedChecks prepared.ctx initial → Sys.Uncommanded s' →
      s'.Recorded initial → Sequenced [] (s'.beginRun prepared.ctx initial) := fun _ _ _ hs' _ =>
    ⟨rising_of_forall hs'.not_inserts, fun _ _ => below_of_forall hs'.not_inserts⟩
  have hfresh : s.Uncommanded := fun e he => by simp [hnew] at he
  have hrun := driveReport_invariant hsettles hbegin rfl hfresh fuel hasHandler
  have hend : ∀ s' : Sys, (s'.Uncommanded ∨
      ∃ initial, PassedChecks prepared.ctx initial ∧ Sequenced [] s') →
      RisingSequences s'.trace := by
    rintro s' (hidle | ⟨initial, -, hs'⟩)
    · exact rising_of_forall hidle.not_inserts
    · exact hs'.rising
  exact recordOf_holds (wp_mono hrun (fun _ => hend) fun _ => hend)

/-- **A recovery attempt goes on above the stored rows.** -/
theorem recoveryRestore_rising (fuel : ℕ) (ctx : RunContext) (initial : InitialState)
    (period : Option (XNum ℚ)) {log : List Event} {runId : ℕ} {tracker : MvActuationTracker}
    (h : RisingSequences log) (htracker : recoveryMvTracker runId (mvRows log) initial = .ok tracker)
    (hprogram : s.program.tracker = some tracker) (hnew : s.trace = []) :
    RisingSequences (log ++ recordOf (recoveryRestore fuel ctx initial period) s) := by
  have hbelow : Below tracker.nextSequence log := by
    intro row hrow
    unfold recoveryMvTracker at htracker
    have hmem : row.command.sequence ∈ (mvRows log).map (·.command.sequence) :=
      List.mem_map_of_mem hrow
    cases hmax : ((mvRows log).map (·.command.sequence)).max? with
    | none =>
      rw [List.max?_eq_none_iff] at hmax
      rw [hmax] at hmem
      simp at hmem
    | some sequence =>
      have hle : row.command.sequence ≤ sequence := (List.max?_le_iff hmax).mp le_rfl _ hmem
      simp only [hmax, MvActuationTracker.forRun] at htracker
      split at htracker
      · simp_all
      · simp_all
      · obtain rfl := Except.ok.inj htracker
        simp_all
        omega
  have hstart : Sequenced log s := by
    refine ⟨by rwa [hnew, List.append_nil], fun t ht => ?_⟩
    obtain rfl : t = tracker := Option.some.inj (ht.symm.trans hprogram)
    rwa [hnew, List.append_nil]
  have hkeeps : Keeps (.invariant (Sequenced log)) (recoveryRestore fuel ctx initial period) :=
    (sequenced_of_issuing (keeps_runStatement fun _ => id)).bind fun _ =>
      (accompanies_sequenced log ctx initial).keeps_attemptRestore _ _ _ _
  exact recordOf_holds (P := fun new => RisingSequences (log ++ new))
    (wp_mono (hkeeps s) (fun _ _ hs' => (hs' hstart).rising) fun _ _ hs' => (hs' hstart).rising)

/-- **The rows of a run are numbered upwards**, over the run and any number of recovery attempts:
a row that is to be inserted has a number above those of all rows of the run, so that no two rows
share one. -/
theorem mvActuations_numbered_upwards {ctx : RunContext} {log : List Event}
    (h : MvHistory ctx log) :
    (∀ pre command result post, log = pre ++ .db (.insertPending command) result :: post →
      ∀ row ∈ mvRows pre, row.command.sequence < command.sequence) ∧
    (mvRows log).Pairwise fun a b => a.command.sequence < b.command.sequence := by
  suffices hrising : RisingSequences log from
    ⟨fun pre command result post hsplit => hrising pre _ post hsplit trivial command result rfl,
      hrising.pairwise⟩
  induction h with
  | run hctx hnew hcrash =>
    exact Guarded.of_prefix (recordOf_rising _ _ _ hnew) hcrash
  | @recovered fuel runId initial period tracker s log new h hdriver hinitial htracker hprogram
      hnew hcrash ih =>
    obtain ⟨rest, hrest⟩ := hcrash
    have hwhole := recoveryRestore_rising fuel ctx initial period ih htracker hprogram hnew
    rw [← hrest, ← List.append_assoc] at hwhole
    exact Guarded.of_prefix hwhole (List.prefix_append _ _)

/-- The initial readings of FC1 in Manual. -/
def manualInitial : InitialState := { flowInitial with modeRaw := some "MAN" }

/-- The record of a run on FC1 that dies after two relay commands. -/
def diedRecord : List Event := recordOf (driveReport 3 flowPrepared false) (flowSys (flowLoop (.ok 0)))

/-- A recovery on FC1 that goes on after those commands. -/
def resumedSys : Sys :=
  { flowSys (flowLoop (.ok 0)) with
    program := { (flowSys (flowLoop (.ok 0))).program with
      tracker := (recoveryMvTracker 1 (mvRows diedRecord) manualInitial).toOption } }

/-- The record of that recovery. -/
def resumedRecord : List Event :=
  recordOf (recoveryRestore 3 flowPrepared.ctx manualInitial none) resumedSys

/-- Its restoring write is the third command of the run. -/
theorem mvActuations_numbered_upwards_flow :
    (mvRows (diedRecord ++ resumedRecord)).map (·.command.sequence) = [0, 1, 2] ∧
      (mvRows (diedRecord ++ resumedRecord)).Pairwise fun a b =>
        a.command.sequence < b.command.sequence := by
  have hstored : Event.db (.recordInitialReadings manualInitial) (.ok 0) ∈ diedRecord := by
    decide +kernel
  have htracker : recoveryMvTracker 1 (mvRows diedRecord) manualInitial =
      .ok ⟨2, 60, none, none, 100⟩ := by decide +kernel
  have hdied : MvHistory flowPrepared.ctx diedRecord := .run rfl rfl (List.prefix_refl _)
  have hresumed : MvHistory flowPrepared.ctx (diedRecord ++ resumedRecord) :=
    hdied.recovered rfl ⟨0, hstored⟩ htracker
      (congrArg Except.toOption htracker) rfl (List.prefix_refl _)
  exact ⟨by decide +kernel, (mvActuations_numbered_upwards hresumed).2⟩

end Bhtune
