import Mathlib.Data.List.Sort
import Bhtune.Db.TuneRuns
import Bhtune.Library.ActionRun
import Bhtune.Library.LogCursor

/-!
# The event stream of a run

`GET /api/runs/{id}/stream` polls the database.  A poll reads the row of the run and then, as a
second statement, the samples after the last tick it sent.  The run records meanwhile, and may be
deleted.

* `StreamSystem.step` — the run's statements, a deletion, and the stream's reads, one at a time;
* `Transcript` — what a subscriber is to see;
* `undisturbed` — the reads that leave it so;
* `step_cases` — what a step can be.
-/

namespace Bhtune

open ActionRun LogCursor

/-! ### The rows and the events -/

/-- A row of `tune_samples`, of the run that is streamed. -/
structure TuneSampleRow where
  tickIndex : ℤ
  sample : Tick ℚ
  state : MrftState ℚ
  pvQuality : SampleQuality
  deriving DecidableEq

/-- `list_for_run_since`. -/
def listForRunSince (samples : List TuneSampleRow) (afterTick : ℤ) : List TuneSampleRow :=
  (samples.filter fun row => afterTick < row.tickIndex).insertionSort
    fun a b => a.tickIndex ≤ b.tickIndex

/-- An event of the stream. -/
inductive StreamEvent where
  | initial (readings : TuneRunInitialReadings)
  | sample (row : TuneSampleRow)
  | done (outcome : TuneOutcome)
  | error (text : String)
  deriving DecidableEq

/-- Where the loop of the stream is. -/
inductive StreamPhase where
  | notOpened
  /-- About to begin a poll. -/
  | polling
  /-- Between the two reads of a poll, with the outcome that the first one found. -/
  | sampling (runOutcome : Option TuneOutcome)
  | ended
  deriving DecidableEq

/-! ### The system -/

/-- A run on record and one stream of it. -/
structure StreamSystem where
  /-- The row of the run, unless it was deleted. -/
  run : Option TuneRunRow
  /-- Its samples in the table. -/
  samples : List TuneSampleRow := []
  /-- Every sample that was recorded, whether or not it is still in the table. -/
  recorded : List TuneSampleRow := []
  phase : StreamPhase := .notOpened
  /-- The stream has a time limit, as those of the demo have. -/
  limited : Bool := false
  lastTick : ℤ := -1
  sentInitial : Bool := false
  events : List StreamEvent := []
  /-- How many reads the stream has made since the run was over. -/
  lateReads : ℕ := 0
  deriving DecidableEq

namespace StreamSystem

/-- The run has ended, or is gone. -/
def isOver (s : StreamSystem) : Bool := s.run.all fun run => run.outcome ≠ .running

/-- The updates in the order a run makes them: the readings once, and then the outcome. -/
def allows (update : RunUpdate) (run : TuneRunRow) : Bool :=
  let updated := update.apply run
  (updated.outcome = run.outcome || run.outcome = .running) &&
    (updated.initialReadings = run.initialReadings ||
      run.outcome = .running && run.initialReadings.isNone)

/-- `TuneSampleRow::insert` of a running tune, with a tick after all those before. -/
def insertSample (s : StreamSystem) (row : TuneSampleRow) : Option StreamSystem :=
  match s.run with
  | none => none
  | some run =>
    if run.outcome = .running ∧ run.initialReadings.isSome ∧ 0 ≤ row.tickIndex ∧
        ∀ x ∈ s.recorded, x.tickIndex < row.tickIndex then
      some { s with samples := s.samples ++ [row], recorded := s.recorded ++ [row] }
    else none

/-- `TuneRunRow::delete`, which takes the samples along. -/
def deleteRun (s : StreamSystem) : StreamSystem :=
  match s.run with
  | none => s
  | some run => if run.deletable then { s with run := none, samples := [] } else s

/-- The last event of the stream. -/
def finish (s : StreamSystem) (event : StreamEvent) : StreamSystem :=
  { s with events := s.events ++ [event], phase := .ended }

/-- A read is late if the run is over. -/
def countRead (s : StreamSystem) : StreamSystem :=
  { s with lateReads := if s.isOver then s.lateReads + 1 else s.lateReads }

/-- The initial readings are sent once. -/
def sendInitial (s : StreamSystem) (run : TuneRunRow) : StreamSystem :=
  match s.sentInitial, run.initialReadings with
  | false, some initial => { s with events := s.events ++ [.initial initial], sentInitial := true }
  | _, _ => s

/-- The first read of a poll. -/
def readRun (s : StreamSystem) (failure : Option String) : StreamSystem :=
  match failure with
  | some error => s.finish (.error error)
  | none =>
    match s.run with
    | some run => { s.sendInitial run with phase := .sampling (some run.outcome) }
    -- A run that is gone is taken for one that is still running.
    | none => { s with phase := .sampling none }

/-- The samples are sent in order. -/
def sendSamples (s : StreamSystem) (samples : List TuneSampleRow) : StreamSystem :=
  { s with
    events := s.events ++ samples.map .sample
    lastTick := advance TuneSampleRow.tickIndex s.lastTick samples }

/-- The second read of a poll. -/
def readSamples (s : StreamSystem) (runOutcome : Option TuneOutcome) (failure : Option String) :
    StreamSystem :=
  match failure with
  | some error => s.finish (.error error)
  | none =>
    let s := s.sendSamples (listForRunSince s.samples s.lastTick)
    match runOutcome with
    | none | some .running => { s with phase := .polling }
    | some outcome => s.finish (.done outcome)

end StreamSystem

/-- What happens to the run and in its stream. -/
inductive StreamAction where
  | updateRun (update : RunUpdate)
  | setRecovery (state : Option TuneRecoveryState)
  | insertSample (row : TuneSampleRow)
  | deleteRun
  | subscribe (limited : Bool)
  | timeLimit
  /-- The first read of a poll, which the database may refuse. -/
  | readRun (failure : Option String)
  /-- The second. -/
  | readSamples (failure : Option String)

/-- One statement of the run, a deletion, or one step of the stream. -/
def StreamSystem.step (s : StreamSystem) (a : StreamAction) : Option StreamSystem :=
  match a with
  | .updateRun update =>
    match s.run with
    | some run =>
      if allows update run then some { s with run := some (update.apply run) } else none
    | none => none
  | .setRecovery state =>
    some { s with run := s.run.map fun run => { run with recoveryState := state } }
  | .insertSample row => s.insertSample row
  | .deleteRun => some s.deleteRun
  | .subscribe limited =>
    match s.phase, s.run with
    | .notOpened, some _ => some { s with phase := .polling, limited := limited }
    | _, _ => none
  | .timeLimit =>
    if s.phase = .polling ∧ s.limited = true then
      some (s.finish (.error "SSE demo time limit exceeded"))
    else none
  | .readRun failure =>
    match s.phase with
    | .polling => some (s.countRead.readRun failure)
    | _ => none
  | .readSamples failure =>
    match s.phase with
    | .sampling runOutcome => some (s.countRead.readSamples runOutcome failure)
    | _ => none

/-- A run that has just been started, without a subscriber. -/
def StreamSystem.start (new : NewTuneRun) (id : ℕ) : StreamSystem where
  run := some (new.row id)

/-! ### What a subscriber is to see -/

namespace StreamSystem

variable {s s' : StreamSystem} {a : StreamAction}

/-- The samples up to the last tick that was sent. -/
def sent (s : StreamSystem) : List TuneSampleRow :=
  upTo TuneSampleRow.tickIndex s.lastTick s.recorded

/-- The stream ends with an error, or with the outcome of the run when all its samples are sent. -/
def Closes (s : StreamSystem) (event : StreamEvent) : Prop :=
  (∃ error, event = .error error) ∨
    ∃ outcome, event = .done outcome ∧ outcome ≠ .running ∧ s.sent = s.recorded ∧
      ∀ run ∈ s.run, run.outcome = outcome

/-- What was seen: the readings, before any sample; the samples, each once; and what ended it. -/
structure Transcript (s : StreamSystem) (initial : Option TuneRunInitialReadings)
    (closing : Option StreamEvent) : Prop where
  events : s.events = initial.toList.map .initial ++ s.sent.map .sample ++ closing.toList
  sentInitial : s.sentInitial = initial.isSome
  initialFirst : s.sent ≠ [] → initial.isSome = true
  closed : closing.isSome = true ↔ s.phase = .ended
  closes : ∀ event ∈ closing, s.Closes event

/-- The transcript is as it should be, and once the run is over the stream makes the reads of the
poll under way and of one more poll, and no others. -/
structure Orderly (s : StreamSystem) : Prop where
  increasing : Increasing TuneSampleRow.tickIndex s.recorded
  transcript : ∃ initial closing, s.Transcript initial closing
  polling : s.phase = .polling → s.lateReads ≤ 1
  sampling : ∀ runOutcome, s.phase = .sampling runOutcome → s.lateReads ≤ 2

/-- The second read of a poll disturbs the stream if the first one found no run; if it gives samples
and the readings were not sent; and if the run had ended and samples that it would give are gone. -/
def undisturbed (s : StreamSystem) (a : StreamAction) : Bool :=
  match s.phase, a with
  | .sampling none, .readSamples none => false
  | .sampling (some outcome), .readSamples none =>
    (s.sentInitial || (listForRunSince s.samples s.lastTick).isEmpty) &&
      (outcome = .running ||
        s.recorded.all fun row => row.tickIndex ≤ s.lastTick || row ∈ s.samples)
  | _, _ => true

/-! ### One step -/

/-- The run is recorded or deleted, and the stream is where it was. -/
structure Records (s s' : StreamSystem) : Prop where
  phase : s'.phase = s.phase
  lastTick : s'.lastTick = s.lastTick
  sentInitial : s'.sentInitial = s.sentInitial
  events : s'.events = s.events
  lateReads : s'.lateReads = s.lateReads
  run : s'.run = none ∨ ∃ run run', s.run = some run ∧ s'.run = some run' ∧
    (run.outcome = .running ∨ run'.outcome = run.outcome)
  recorded : s'.recorded = s.recorded ∨ ∃ row, s'.recorded = s.recorded ++ [row] ∧
    s.isOver = false ∧ 0 ≤ row.tickIndex ∧ ∀ x ∈ s.recorded, x.tickIndex < row.tickIndex
  table : s.samples = (if s.run.isSome then s.recorded else []) →
    s'.samples = if s'.run.isSome then s'.recorded else []

/-- What a step can be. -/
inductive Stepped (s : StreamSystem) (a : StreamAction) (s' : StreamSystem) : Prop
  | records (h : s.Records s') (ha : s.undisturbed a = true)
  | opens (limited : Bool) (hphase : s.phase = .notOpened) (ha : s.undisturbed a = true)
      (h : s' = { s with phase := .polling, limited := limited })
  | stops (error : String) (hphase : s.phase = .polling) (ha : s.undisturbed a = true)
      (h : s' = s.finish (.error error))
  | readsRun (failure : Option String) (hphase : s.phase = .polling) (ha : s.undisturbed a = true)
      (h : s' = s.countRead.readRun failure)
  | readsSamples (runOutcome : Option TuneOutcome) (failure : Option String)
      (hphase : s.phase = .sampling runOutcome) (ha : a = .readSamples failure)
      (h : s' = s.countRead.readSamples runOutcome failure)

theorem over_eq_false {run : TuneRunRow} (hrun : s.run = some run) (h : run.outcome = .running) :
    s.isOver = false := by
  simp [isOver, hrun, h]

/-- A statement of the run leaves its samples and the stream alone. -/
theorem records_run {run run' : TuneRunRow} (hrun : s.run = some run)
    (h : run.outcome = .running ∨ run'.outcome = run.outcome) :
    s.Records { s with run := some run' } where
  phase := rfl
  lastTick := rfl
  sentInitial := rfl
  events := rfl
  lateReads := rfl
  run := .inr ⟨run, run', hrun, rfl, h⟩
  recorded := .inl rfl
  table := by
    intro htable
    simpa [hrun] using htable

theorem step_cases (h : s.step a = some s') : s.Stepped a s' := by
  have hfree : ∀ {b : StreamAction}, (∀ failure, b ≠ .readSamples failure) →
      s.undisturbed b = true := by
    intro b hb
    cases b with
    | readSamples failure => exact absurd rfl (hb failure)
    | _ => unfold undisturbed; split <;> simp_all
  cases a with
  | updateRun update =>
    refine .records ?_ (hfree (by simp))
    unfold step at h
    dsimp only at h
    cases hrun : s.run with
    | none => simp [hrun] at h
    | some run =>
      simp only [hrun] at h
      split at h
      · rename_i hallows
        cases h
        apply records_run hrun
        simp only [allows, Bool.and_eq_true, Bool.or_eq_true, decide_eq_true_eq] at hallows
        exact hallows.1.symm
      · cases h
  | setRecovery state =>
    refine .records ?_ (hfree (by simp))
    cases h
    cases hrun : s.run with
    | none =>
      refine ⟨rfl, rfl, rfl, rfl, rfl, .inl (by simp), .inl rfl, ?_⟩
      intro htable
      simpa [hrun] using htable
    | some run => exact records_run hrun (.inr rfl)
  | insertSample row =>
    refine .records ?_ (hfree (by simp))
    unfold step insertSample at h
    dsimp only at h
    cases hrun : s.run with
    | none => simp [hrun] at h
    | some run =>
      simp only [hrun] at h
      split at h
      · rename_i hguard
        obtain ⟨hrunning, _, hnonneg, hafter⟩ := hguard
        cases h
        refine ⟨rfl, rfl, rfl, rfl, rfl, .inr ⟨run, run, hrun, rfl, .inr rfl⟩, ?_, ?_⟩
        · exact .inr ⟨row, rfl, over_eq_false hrun hrunning, hnonneg, hafter⟩
        · intro htable
          simpa [hrun] using htable
      · cases h
  | deleteRun =>
    refine .records ?_ (hfree (by simp))
    cases h
    unfold deleteRun
    cases hrun : s.run with
    | none => exact ⟨rfl, rfl, rfl, rfl, rfl, .inl hrun, .inl rfl, id⟩
    | some run =>
      dsimp only
      by_cases hdeletable : run.deletable = true
      · rw [if_pos hdeletable]
        exact ⟨rfl, rfl, rfl, rfl, rfl, .inl rfl, .inl rfl, fun _ => rfl⟩
      · rw [if_neg hdeletable]
        exact ⟨rfl, rfl, rfl, rfl, rfl, .inr ⟨run, run, hrun, hrun, .inr rfl⟩, .inl rfl, id⟩
  | subscribe limited =>
    unfold step at h
    dsimp only at h
    split at h
    · rename_i hphase _
      cases h
      exact .opens limited hphase (hfree (by simp)) rfl
    · cases h
  | timeLimit =>
    unfold step at h
    dsimp only at h
    split at h
    · rename_i hlimited
      cases h
      exact .stops _ hlimited.1 (hfree (by simp)) rfl
    · cases h
  | readRun failure =>
    unfold step at h
    dsimp only at h
    split at h
    · rename_i hphase
      cases h
      exact .readsRun failure hphase (hfree (by simp)) rfl
    · cases h
  | readSamples failure =>
    unfold step at h
    dsimp only at h
    split at h
    · rename_i runOutcome hphase
      cases h
      exact .readsSamples runOutcome failure hphase rfl rfl
    · cases h

end StreamSystem

end Bhtune
