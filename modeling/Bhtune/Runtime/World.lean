import Mathlib.Data.List.ReduceOption
import Bhtune.Library.Effect
import Bhtune.Library.EventLog
import Bhtune.Runtime.Types

/-!
# The world of a live tune: clock, driver, database and interrupts

A runtime function is a program over `Sys`.  Everything the outside decides is read off an
`Environment`: one `Answer` for every await, and the times at which an interrupt is triggered.
Quantifying over environments covers every driver reply, latency, database failure, scheduling
delay and interrupt.  Time passes only while a program waits; a program that waits for something
that never comes is `hung`.

What happens is appended to `trace`.  A `Mark` notes a point the source passes; no program reads
the trace.

* `raceCall` — `bounded_driver_call`, optionally under a `timeout_at`;
* `awaitScoped` — an await of a future that is itself one branch of a `select!`;
* `selectBiased` — a `select!` with `biased;`;
* `within` — the frame of every function of a run: only events of a given kind are appended, the
  outside goes on (`Sys.Passes`), and a given part of the program's variables stays.
-/

namespace Bhtune

open Effect EventLog

/-! ### Events -/

/-- Which step of the program issues a write.  A relay write carries the tolerance computed for
it, if any, and the command the tracker holds when it is issued; a restoring MV write carries its
tolerance. -/
inductive Origin where
  | relay (tolerance : Option ℚ) (pending : Option PendingMvActuation)
  | restoreMv (tolerance : Option ℚ)
  | restoreMode
  | restoreSetpoint
  | restoreModeAttribute
  | programMode
  | manualMode
  | pid
  deriving DecidableEq

/-- How a driver write ended.  An abandoned write is one whose wait was given up; like a write
that was answered with an error, it may still have taken effect. -/
inductive WriteResult where
  | accepted
  | rejected (message : Option String)
  | failed (error : String) (tookEffect : Bool)
  | abandoned (tookEffect : Bool)
  deriving DecidableEq

/-- A driver write, from the moment it is issued to the end of the wait for it. -/
structure WriteCall where
  origin : Origin
  tag : String
  value : TagWrite
  started : Instant
  ended : Instant
  result : WriteResult
  deriving DecidableEq

/-- How a driver read ended. -/
inductive ReadResult where
  | values (values : List TagValue)
  | failed (error : String)
  | abandoned
  deriving DecidableEq

/-- How the reply of a read is looked at: the first value, or the value under a tag's name. -/
inductive ReadKind where
  | first
  | byName
  deriving DecidableEq

/-- A driver read. -/
structure ReadCall where
  kind : ReadKind
  tags : List String
  started : Instant
  ended : Instant
  result : ReadResult
  deriving DecidableEq

/-- A database statement of a run. -/
inductive DbOp where
  | recordInitialReadings (initial : InitialState)
  | persistRestoreIntent (intent : TuneRestoreIntent)
  | insertPending (row : NewTuneMvActuation)
  | recordObservation (id : ℕ) (checkedAt : UtcTime) (readback : Option ℚ)
      (quality : Option SampleQuality)
  | recordFinalObservation (id : ℕ) (checkedAt : UtcTime) (readback : Option ℚ)
      (quality : Option SampleQuality) (status : MvActuationStatus) (detail : Option Text)
  | finalize (id : ℕ) (status : MvActuationStatus) (detail : Option Text)
  | finalizePendingForRun (status : MvActuationStatus) (detail : Option Text)
  | insertSample (tickIndex : ℕ) (tick : Tick ℚ) (state : MrftState ℚ) (quality : SampleQuality)
  | insertResult (row : TuneResultRow)
  | listResults
  | recordRestoreStatus (attempt : RestoreAttempt)
  | completeRun (timing : Option TimingMetrics)
  | abortRun (timing : Option TimingMetrics) (reason : Option Text)
  | recordTimingMetrics (metrics : TimingMetrics)
  | readLiveOwner
  | persistPidRestoreIntent (intent : PidRestoreIntent)
  | insertWrite (row : NewTuneWrite)
  | failRun (reason : Text)
  | releaseOwnership
  deriving DecidableEq

/-- A statement that ends a run. -/
def DbOp.Closes : DbOp → Prop
  | .completeRun _ => True
  | .abortRun _ _ => True
  | .failRun _ => True
  | _ => False

/-- A statement that stores what a run is explained by afterwards. -/
def DbOp.Stores : DbOp → Prop
  | .recordInitialReadings _ => True
  | .insertSample _ _ _ _ => True
  | .insertResult _ => True
  | _ => False

/-- A point the source passes. -/
inductive Mark where
  /-- `transition_to_manual` is called. -/
  | enteredTransition
  /-- The tracker accepted a command. -/
  | commandPending (pending : PendingMvActuation)
  /-- A tick was fed to the engine while `pending` was the tracker's command; `before` is the
  engine before the tick. -/
  | evaluated (before : MrftEngine ℚ) (tick : Tick ℚ) (pending : Option PendingMvActuation)
      (actions : List (Action ℚ))
  /-- A restore attempt begins. -/
  | restoreBegan
  /-- The MV step of the attempt came to a result. -/
  | mvStep (outcome : RestoreStepOutcome)
  /-- The settling period of the attempt ended, without error or with one. -/
  | settled (result : Except Text Unit)
  /-- The later steps of the attempt run under this policy. -/
  | laterSteps (policy : RestoreModePolicy)
  /-- The restore attempt has run to its end. -/
  | restoreEnded (attempt : RestoreAttempt)
  deriving DecidableEq

/-- What a run does to the outside. -/
inductive Event where
  | write (call : WriteCall)
  | read (call : ReadCall)
  | db (op : DbOp) (result : Except String ℕ)
  | mark (m : Mark)
  deriving DecidableEq

/-! ### The environment -/

/-- Which response level an adapter wants written. -/
inductive WriteBackSelection where
  | selected (level : ResponseLevel)
  | skipped (detail : String)
  | failed (detail : String)
  deriving DecidableEq

/-- What the outside does at one await of the program. -/
structure Answer where
  /-- Scheduling delay after the wake-up. -/
  lag : ℕ := 0
  /-- Which ready branch an unbiased `select!` takes. -/
  pick : ℕ := 0
  /-- How long the driver or the database takes; `none` is for ever. -/
  latency : Option ℕ := some 0
  /-- The reply to a driver read. -/
  values : Except String (List TagValue) := .ok []
  /-- The reply to a driver write. -/
  outcome : Except String WriteOutcome := .ok ⟨true, none⟩
  /-- Whether a write that is given up, or answered with an error, takes effect all the same. -/
  tookEffect : Bool := false
  /-- The reply of the database, with the id of an inserted row. -/
  stored : Except String ℕ := .ok 0
  /-- The rows of `tune_results`. -/
  rows : List TuneResultRow := []
  /-- What `Utc::now` reads. -/
  utcNow : UtcTime := 0
  /-- Whether the ownership heartbeat is alive. -/
  healthy : Bool := true
  /-- What an adapter's handler selects. -/
  selection : WriteBackSelection := .skipped ""

/-- The outside of a run: its answers, and the times at which an interrupt is triggered. -/
structure Environment where
  answers : ℕ → Answer
  signals : List Instant
  signals_sorted : signals.Pairwise (· ≤ ·)

/-- An outside that never interrupts. -/
theorem Environment.noSignals_sorted : ([] : List Instant).Pairwise (· ≤ ·) := .nil

/-- The variables the functions of a run share by `&mut`. -/
structure Program where
  engine : MrftEngine ℚ
  tracker : Option MvActuationTracker
  guard : MutationGuard
  timing : PollTimingAccumulator
  tickTime : TickTimeSource
  restoreDeadline : Instant

/-- A run and its outside at one moment. -/
structure Sys where
  environment : Environment
  cursor : ℕ
  clock : Instant
  signalsSeen : ℕ
  trace : List Event
  program : Program

/-- An outside that answers at once, with the defaults, and never interrupts. -/
def idleEnvironment : Environment where
  answers := fun _ => {}
  signals := []
  signals_sorted := Environment.noSignals_sorted

/-- A run on the loop FC1 whose controller was put in Manual, in a given outside. -/
def flowSys (environment : Environment) : Sys where
  environment := environment
  cursor := 0
  clock := 0
  signalsSeen := 0
  trace := []
  program := {
    engine := .new .machine flowLoopConfig .reverse (BinaryFloat.f32 0.433) ⟨50, 50, 0, 100⟩ 0
    tracker := MvActuationTracker.forRun .opcda flowInitial
    guard := { modeWritten := true }
    timing := .new .liveMonotonic 800
    tickTime := .liveMonotonic ⟨0, 0⟩
    restoreDeadline := 0 }

/-- Why a future that is one branch of a `select!` was dropped. -/
inductive Cut where
  | interrupted
  | deadline
  deriving DecidableEq

/-- Why a program did not return a value. -/
inductive Fault where
  /-- An `anyhow` error. -/
  | err (e : Text)
  /-- The future was dropped. -/
  | cut (c : Cut)
  /-- It waits for something that never comes. -/
  | hung
  | panic
  /-- It is still running when the step budget is used up. -/
  | outOfFuel
  deriving DecidableEq

/-- A runtime function. -/
abbrev Io := EStateM Fault Sys

namespace Fault

/-- The error of a fault that `?` and `match` can see. -/
def error? : Fault → Option Text
  | err e => some e
  | _ => none

end Fault

/-- The `Result` of a fallible call. -/
def tryErr {α : Type} (x : Io α) : Io (Except Text α) := attempt Fault.error? x

/-- `anyhow::bail!`. -/
def bail {α : Type} (e : Text) : Io α := throw (.err e)

/-- `require_invariant`. -/
def requireInvariant {α : Type} (x : Option α) (message : String) : Io α :=
  match x with
  | some a => pure a
  | none => bail (text message)

/-- `Instant::now`. -/
def now : Io Instant := return (← get).clock

/-- Appends an event. -/
def emit (e : Event) : Io Unit := modify fun s => { s with trace := s.trace ++ [e] }

/-- Notes a point the source passes. -/
def mark (m : Mark) : Io Unit := emit (.mark m)

/-- Changes the program's own variables. -/
def modifyProgram (f : Program → Program) : Io Unit :=
  modify fun s => { s with program := f s.program }

/-! ### Waiting -/

/-- The next answer, without using it up. -/
def Sys.nextAnswer (s : Sys) : Answer := s.environment.answers s.cursor

/-- When `CtrlC::signalled` is next ready: at the first trigger this handle has not seen. -/
def Sys.nextSignal (s : Sys) : Option Instant := s.environment.signals[s.signalsSeen]?

/-- A resolved `signalled` has seen every trigger so far. -/
def Sys.seeSignals (s : Sys) : Sys :=
  { s with signalsSeen := (s.environment.signals.filter (· ≤ s.clock)).length }

/-- The earliest of the times at which a branch becomes ready. -/
def earliest (ready : List (Option Instant)) : Option Instant := ready.reduceOption.min?

section Earliest

variable {ready : List (Option Instant)} {first t : Instant}

/-- The first branch is ready first. -/
theorem earliest_le (h : earliest ready = some first) (ht : some t ∈ ready) : first ≤ t := by
  unfold earliest at h
  have hmem : t ∈ ready.reduceOption := List.reduceOption_mem_iff.mpr ht
  exact (List.min?_eq_some_iff.mp h).2 t hmem

theorem earliest_mem (h : earliest ready = some first) : some first ∈ ready := by
  unfold earliest at h
  exact List.reduceOption_mem_iff.mp (List.min?_eq_some_iff.mp h).1

/-- A wait with a branch that will be ready ends. -/
theorem earliest_isSome (ht : some t ∈ ready) : ∃ first, earliest ready = some first := by
  unfold earliest
  have hmem : t ∈ ready.reduceOption := List.reduceOption_mem_iff.mpr ht
  cases hmin : ready.reduceOption.min? with
  | none =>
    rw [List.min?_eq_none_iff.mp hmin] at hmem
    simp at hmem
  | some first => exact ⟨first, rfl⟩

end Earliest

/-- Sleeps until the first branch is ready, and uses up one answer. -/
def wake (ready : List (Option Instant)) : Io Answer := do
  let s ← get
  match earliest ready with
  | none => throw .hung
  | some t =>
    set { s with cursor := s.cursor + 1, clock := max s.clock t + s.nextAnswer.lag }
    return s.nextAnswer

/-- Which of the ready branches is taken. -/
def chooseReady {β : Type} (t : Instant) (pick : ℕ) (branches : List (β × Option Instant)) :
    Option β :=
  let ready := branches.filterMap fun b =>
    match b.2 with
    | some r => if r ≤ t then some b.1 else none
    | none => none
  ready[pick % ready.length]?

/-- The branches it is taken from. -/
def readyBranches {β : Type} (t : Instant) (branches : List (β × Option Instant)) : List β :=
  branches.filterMap fun b =>
    match b.2 with
    | some r => if r ≤ t then some b.1 else none
    | none => none

/-- The branch that was taken was ready. -/
theorem ready_of_chooseReady {β : Type} {t : Instant} {pick : ℕ}
    {branches : List (β × Option Instant)} {b : β} (h : chooseReady t pick branches = some b) :
    ∃ r, (b, some r) ∈ branches ∧ r ≤ t := by
  unfold chooseReady at h
  obtain ⟨⟨b', ready⟩, hmem, hb⟩ := List.mem_filterMap.mp (List.mem_of_getElem? h)
  cases ready with
  | none => cases hb
  | some r =>
    dsimp only at hb
    split at hb
    · cases hb
      exact ⟨r, hmem, by assumption⟩
    · cases hb

/-- `tokio::select!` with `biased;`: the first ready branch is taken. -/
def selectBiased {β : Type} (branches : List (β × Option Instant)) : Io β := do
  let _ ← wake (branches.map (·.2))
  let t ← now
  match chooseReady t 0 branches with
  | some b => return b
  | none => throw .hung

/-- The operation raced against Ctrl+C and its own timeout. -/
inductive TickOperation (α : Type) where
  | completed (a : α)
  | cancelled
  | timedOut
  deriving DecidableEq

/-- How a bounded driver call ended; `elapsed` is the outer `timeout_at`. -/
inductive CallEnd where
  | replied
  | cancelled
  | timedOut
  | elapsed
  deriving DecidableEq

/-- `bounded_driver_call` around one driver call, under a `timeout_at` when `limit` is given: the
call, Ctrl+C and the operation timeout are raced without bias, and the limit counts only when none
of them is ready. -/
def raceCall (limit : Option Instant) (opTimeoutSecs : ℕ) : Io (CallEnd × Answer) := do
  let s ← get
  let call := s.nextAnswer.latency.map (s.clock + ·)
  let cancel := s.nextSignal
  let timeout := some (s.clock + durationSecs opTimeoutSecs)
  let a ← wake [call, cancel, timeout, limit]
  let t ← now
  match chooseReady t a.pick
      [(CallEnd.replied, call), (.cancelled, cancel), (.timedOut, timeout)] with
  | some .cancelled => do
    modify Sys.seeSignals
    return (.cancelled, a)
  | some ended => return (ended, a)
  | none => return (.elapsed, a)

/-- Awaits a future that is ready at `done`.  With a scope, the awaiting future is itself one
branch of an unbiased `select!` against Ctrl+C and a deadline, and may be dropped here. -/
def awaitScoped (scope : Option Instant) (done : Option Instant) : Io (Option Cut × Answer) := do
  match scope with
  | none => do
    let a ← wake [done]
    return (none, a)
  | some deadline => do
    let cancel := (← get).nextSignal
    let a ← wake [done, cancel, some deadline]
    let t ← now
    match chooseReady t a.pick
        [(none, done), (some Cut.interrupted, cancel), (some Cut.deadline, some deadline)] with
    | some (some .interrupted) => do
      modify Sys.seeSignals
      return (some .interrupted, a)
    | some cut => return (cut, a)
    | none => throw .hung

/-- `tokio::time::sleep`. -/
def sleep (scope : Option Instant) (duration : ℕ) : Io Unit := do
  let started ← now
  let (cut, _) ← awaitScoped scope (some (started + duration))
  match cut with
  | some c => throw (.cut c)
  | none => return ()

/-! ### The driver -/

/-- The result of a write that was answered. -/
def Answer.writeResult (a : Answer) : WriteResult :=
  match a.outcome with
  | .error e => .failed e a.tookEffect
  | .ok outcome => if outcome.success then .accepted else .rejected outcome.errorMessage

/-- The `anyhow` result of `write_raw` and `write_value`. -/
def WriteResult.toIo (tag : String) : WriteResult → Io Unit
  | .accepted => pure ()
  | .rejected message =>
    bail (text ("write to '" ++ tag ++ "' was rejected: " ++ message.getD "unknown reason"))
  | .failed e _ => bail (text e)
  | .abandoned _ => throw .hung

/-- The `anyhow` result of a read that was answered. -/
def Answer.readValues (a : Answer) : Io (List TagValue) :=
  match a.values with
  | .ok values => pure values
  | .error e => bail (text e)

/-- The result of a read that was answered. -/
def Answer.readResult (a : Answer) : ReadResult :=
  match a.values with
  | .ok values => .values values
  | .error e => .failed e

/-- A bounded driver write; `none` when the outer limit came first. -/
def boundedWrite (limit : Option Instant) (opTimeoutSecs : ℕ) (origin : Origin) (tag : String)
    (value : TagWrite) : Io (Option (TickOperation Unit)) := do
  let started ← now
  let (ended, a) ← raceCall limit opTimeoutSecs
  let finished ← now
  match ended with
  | .replied => do
    emit (.write ⟨origin, tag, value, started, finished, a.writeResult⟩)
    a.writeResult.toIo tag
    return some (.completed ())
  | .cancelled => do
    emit (.write ⟨origin, tag, value, started, finished, .abandoned a.tookEffect⟩)
    return some .cancelled
  | .timedOut => do
    emit (.write ⟨origin, tag, value, started, finished, .abandoned a.tookEffect⟩)
    return some .timedOut
  | .elapsed => do
    emit (.write ⟨origin, tag, value, started, finished, .abandoned a.tookEffect⟩)
    return none

/-- A bounded driver read; `none` when the outer limit came first. -/
def boundedRead (limit : Option Instant) (opTimeoutSecs : ℕ) (kind : ReadKind)
    (tags : List String) : Io (Option (TickOperation (List TagValue))) := do
  let started ← now
  let (ended, a) ← raceCall limit opTimeoutSecs
  let finished ← now
  match ended with
  | .replied => do
    emit (.read ⟨kind, tags, started, finished, a.readResult⟩)
    let values ← a.readValues
    return some (.completed values)
  | .cancelled => do
    emit (.read ⟨kind, tags, started, finished, .abandoned⟩)
    return some .cancelled
  | .timedOut => do
    emit (.read ⟨kind, tags, started, finished, .abandoned⟩)
    return some .timedOut
  | .elapsed => do
    emit (.read ⟨kind, tags, started, finished, .abandoned⟩)
    return none

/-- `bounded_driver_call` on its own; without a limit there is nothing else to end the wait. -/
def bounded {α : Type} (x : Io (Option (TickOperation α))) : Io (TickOperation α) := do
  match ← x with
  | some operation => return operation
  | none => throw .hung

/-- An unbounded driver write, possibly inside a scope. -/
def driverWrite (scope : Option Instant) (origin : Origin) (tag : String) (value : TagWrite) :
    Io Unit := do
  let started ← now
  let (cut, a) ← awaitScoped scope ((← get).nextAnswer.latency.map (started + ·))
  let finished ← now
  match cut with
  | some c => do
    emit (.write ⟨origin, tag, value, started, finished, .abandoned a.tookEffect⟩)
    throw (.cut c)
  | none => do
    emit (.write ⟨origin, tag, value, started, finished, a.writeResult⟩)
    a.writeResult.toIo tag

/-- An unbounded driver read. -/
def driverRead (kind : ReadKind) (tags : List String) : Io (List TagValue) := do
  let started ← now
  let (_, a) ← awaitScoped none ((← get).nextAnswer.latency.map (started + ·))
  let finished ← now
  emit (.read ⟨kind, tags, started, finished, a.readResult⟩)
  a.readValues

/-! ### The database, the wall clock and the ownership heartbeat -/

/-- One database statement. -/
def database (op : DbOp) : Io Answer := do
  let s ← get
  let a ← wake [s.nextAnswer.latency.map (s.clock + ·)]
  emit (.db op a.stored)
  match a.stored with
  | .ok _ => return a
  | .error e => bail (text e)

/-- A statement whose failure is logged and otherwise ignored. -/
def bestEffort (x : Io Unit) : Io Unit := do
  match ← tryErr x with
  | .ok () => return ()
  | .error _ => return ()

/-- A statement whose answer is not used. -/
def runStatement (op : DbOp) : Io Unit := do
  let _ ← database op

/-- The id of the row a statement returned. -/
def Answer.rowId (a : Answer) : ℕ :=
  match a.stored with
  | .ok id => id
  | .error _ => 0

/-- A decision of the outside that takes no time. -/
def consult : Io Answer := do
  let s ← get
  set { s with cursor := s.cursor + 1 }
  return s.nextAnswer

/-- `Utc::now`. -/
def utcNow : Io UtcTime := return (← consult).utcNow

/-! ### Frames -/

/-- An event that is no write to the driver and no mark. -/
def Event.Silent : Event → Prop
  | .read _ => True
  | .db _ _ => True
  | .write _ => False
  | .mark _ => False

/-- A statement that ends a run, whatever the database made of it. -/
def Event.Closes : Event → Prop
  | .db op _ => op.Closes
  | _ => False

/-- An event that neither ends a run nor stores what it is explained by. -/
def Event.Minor : Event → Prop
  | .db op _ => ¬op.Closes ∧ ¬op.Stores
  | _ => True

theorem Event.Minor.not_closes {e : Event} (h : e.Minor) : ¬e.Closes := by
  cases e with
  | db op result => exact h.1
  | _ => exact id

/-- A write goes to the tag its origin names, with the value that origin sends there. -/
def WriteCall.Addressed (ctx : RunContext) (initial : InitialState) (call : WriteCall) : Prop :=
  match call.origin with
  | .relay _ _ => call.tag = ctx.tags.manipulatedVariable
  | .restoreMv _ => call.tag = ctx.tags.manipulatedVariable ∧ call.value = .float initial.mvIni
  | .restoreMode => ctx.tags.controllerMode = some call.tag ∧
      call.value = .raw (initial.modeRaw.getD "")
  | .restoreSetpoint => ctx.tags.setpointVariable = some call.tag ∧
      ∃ v, initial.setpointIni = some v ∧ call.value = .float v
  | .restoreModeAttribute => ctx.tags.modeAttribute = some call.tag ∧
      call.value = .raw (initial.modeAttributeRaw.getD "")
  | .programMode => ctx.tags.modeAttribute = some call.tag ∧
      ∃ v, ctx.template.modeAttributeProgramValue = some v ∧ call.value = .raw v
  | .manualMode => ctx.tags.controllerMode = some call.tag ∧
      call.value = .raw ctx.template.modeManualValue
  | .pid => ctx.tags.proportionalConstant = some call.tag ∨
      ctx.tags.integralConstant = some call.tag ∨ ctx.tags.derivativeConstant = some call.tag

/-- The same of an event. -/
def Event.Addressed (ctx : RunContext) (initial : InitialState) : Event → Prop
  | .write call => call.Addressed ctx initial
  | _ => True

/-- An event that ends no run, and whose write is addressed as its origin says. -/
def Event.Regular (ctx : RunContext) (initial : InitialState) (e : Event) : Prop :=
  ¬e.Closes ∧ e.Addressed ctx initial

theorem Event.Silent.regular {e : Event} (h : e.Silent) (hopen : ¬e.Closes) (ctx : RunContext)
    (initial : InitialState) : e.Regular ctx initial := by
  cases e with
  | write call => exact h.elim
  | _ => exact ⟨hopen, trivial⟩

/-- How many interrupts have been delivered by `t`. -/
def Environment.delivered (environment : Environment) (t : Instant) : ℕ :=
  (environment.signals.filter (· ≤ t)).length

theorem Environment.delivered_mono (environment : Environment) {t t' : Instant} (h : t ≤ t') :
    environment.delivered t ≤ environment.delivered t' := by
  refine (List.monotone_filter_right _ fun signal hsignal => ?_).length_le
  exact decide_eq_true ((of_decide_eq_true hsignal).trans h)

/-- What goes on outside between two states of a run: time and the answers do not go back, and the
interrupts that the run has seen are those delivered when it last looked. -/
structure Sys.Passes (s s' : Sys) : Prop where
  clock : s.clock ≤ s'.clock
  cursor : s.cursor ≤ s'.cursor
  environment : s'.environment = s.environment
  signals : s'.signalsSeen = s.signalsSeen ∨
    ∃ t, s.clock ≤ t ∧ t ≤ s'.clock ∧ s'.signalsSeen = s.environment.delivered t

theorem Sys.Passes.refl (s : Sys) : s.Passes s := ⟨le_rfl, le_rfl, rfl, .inl rfl⟩

/-- Time passes, and nothing is looked at. -/
theorem Sys.Passes.wait {s s' : Sys} (hclock : s.clock ≤ s'.clock) (hcursor : s.cursor ≤ s'.cursor)
    (henvironment : s'.environment = s.environment) (hsignals : s'.signalsSeen = s.signalsSeen) :
    s.Passes s' := ⟨hclock, hcursor, henvironment, .inl hsignals⟩

theorem Sys.Passes.see (s : Sys) : s.Passes s.seeSignals :=
  ⟨le_rfl, le_rfl, rfl, .inr ⟨s.clock, le_rfl, le_rfl, rfl⟩⟩

theorem Sys.Passes.trans {s s' s'' : Sys} (h : s.Passes s') (h' : s'.Passes s'') :
    s.Passes s'' := by
  refine ⟨h.clock.trans h'.clock, h.cursor.trans h'.cursor, h'.environment.trans h.environment,
    ?_⟩
  rcases h'.signals with hsame | ⟨t, hle, hle', hseen⟩
  · rw [hsame]
    rcases h.signals with hsame | ⟨t, hle, hle', hseen⟩
    · exact .inl hsame
    · exact .inr ⟨t, hle, hle'.trans h'.clock, hseen⟩
  · exact .inr ⟨t, h.clock.trans hle, hle', by rw [hseen, h.environment]⟩

/-- Events of the kind `p` are appended, the outside goes on, and `part` is left alone. -/
def within {τ : Type} (p : Event → Prop) (part : Program → τ) : Frame Sys where
  rel s s' := Appends p s.trace s'.trace ∧ s.Passes s' ∧ part s'.program = part s.program
  refl := fun s => ⟨.refl _, .refl s, rfl⟩
  trans := fun h h' => ⟨h.1.trans h'.1, h.2.1.trans h'.2.1, h'.2.2.trans h.2.2⟩

section Frames

variable {α τ : Type} {p q : Event → Prop} {part : Program → τ}

theorem within_mono {τ' : Type} {part' : Program → τ'} {x : Io α} (h : Keeps (within p part) x)
    (hp : ∀ e, p e → q e) (hpart : ∀ a b, part a = part b → part' a = part' b) :
    Keeps (within q part') x :=
  h.weaken fun _ _ hs => ⟨hs.1.mono hp, hs.2.1, hpart _ _ hs.2.2⟩

theorem keeps_tryErr {F : Frame Sys} {x : Io α} (h : Keeps F x) : Keeps F (tryErr x) := h.attempt

theorem keeps_bail {F : Frame Sys} (e : Text) : Keeps F (bail e : Io α) := Keeps.throw _

theorem keeps_requireInvariant {F : Frame Sys} (x : Option α) (message : String) :
    Keeps F (requireInvariant x message) := by
  cases x with
  | none => exact keeps_bail _
  | some a => exact .pure a

theorem keeps_now {F : Frame Sys} : Keeps F now := fun s => F.refl s

theorem keeps_emit {e : Event} (h : p e) : Keeps (within p part) (emit e) :=
  Keeps.modify fun _ => ⟨.concat _ h, .wait le_rfl le_rfl rfl rfl, rfl⟩

theorem keeps_mark {m : Mark} (h : p (.mark m)) : Keeps (within p part) (mark m) := keeps_emit h

theorem keeps_modifyProgram {f : Program → Program} (h : ∀ a, part (f a) = part a) :
    Keeps (within p part) (modifyProgram f) :=
  Keeps.modify fun s => ⟨.refl _, .wait le_rfl le_rfl rfl rfl, h s.program⟩

theorem keeps_wake (ready : List (Option Instant)) : Keeps (within p part) (wake ready) := by
  refine Keeps.bind_get fun s => ?_
  cases earliest ready with
  | none => exact (within p part).refl s
  | some t =>
    exact ⟨.refl _, .wait ((le_max_left _ _).trans (Nat.le_add_right _ _)) (Nat.le_succ _) rfl rfl, rfl⟩

theorem keeps_seeSignals : Keeps (within p part) (modify Sys.seeSignals : Io Unit) :=
  Keeps.modify fun s => ⟨.refl _, .see s, rfl⟩

theorem keeps_selectBiased {β : Type} (branches : List (β × Option Instant)) :
    Keeps (within p part) (selectBiased branches) := by
  refine (keeps_wake _).bind fun _ => keeps_now.bind fun t => ?_
  cases chooseReady t 0 branches with
  | none => exact .throw _
  | some b => exact .pure b

theorem keeps_raceCall (limit : Option Instant) (opTimeoutSecs : ℕ) :
    Keeps (within p part) (raceCall limit opTimeoutSecs) := by
  refine Keeps.get.bind fun s => (keeps_wake _).bind fun a => keeps_now.bind fun t => ?_
  split
  · exact keeps_seeSignals.bind fun _ => .pure _
  · exact .pure _
  · exact .pure _

theorem keeps_awaitScoped (scope done : Option Instant) :
    Keeps (within p part) (awaitScoped scope done) := by
  cases scope with
  | none => exact (keeps_wake _).bind fun _ => .pure _
  | some deadline =>
    refine Keeps.get.bind fun s => (keeps_wake _).bind fun a => keeps_now.bind fun t => ?_
    split
    · exact keeps_seeSignals.bind fun _ => .pure _
    · exact .pure _
    · exact .throw _

theorem keeps_sleep (scope : Option Instant) (duration : ℕ) :
    Keeps (within p part) (sleep scope duration) := by
  refine keeps_now.bind fun started => (keeps_awaitScoped _ _).bind fun r => ?_
  obtain ⟨cut, a⟩ := r
  cases cut with
  | none => exact .pure _
  | some c => exact .throw _

theorem keeps_toIo (tag : String) (r : WriteResult) {F : Frame Sys} : Keeps F (r.toIo tag) := by
  cases r with
  | accepted => exact .pure _
  | rejected message => exact keeps_bail _
  | failed e tookEffect => exact keeps_bail _
  | abandoned tookEffect => exact .throw _

theorem keeps_readValues (a : Answer) {F : Frame Sys} : Keeps F a.readValues := by
  unfold Answer.readValues
  cases a.values with
  | ok values => exact .pure _
  | error e => exact keeps_bail _

theorem keeps_boundedWrite {limit : Option Instant} {opTimeoutSecs : ℕ} {origin : Origin}
    {tag : String} {value : TagWrite}
    (h : ∀ started ended result, p (.write ⟨origin, tag, value, started, ended, result⟩)) :
    Keeps (within p part) (boundedWrite limit opTimeoutSecs origin tag value) := by
  refine keeps_now.bind fun started => (keeps_raceCall _ _).bind fun r =>
    keeps_now.bind fun finished => ?_
  obtain ⟨ended, a⟩ := r
  cases ended with
  | replied => exact (keeps_emit (h _ _ _)).bind fun _ => (keeps_toIo _ _).bind fun _ => .pure _
  | cancelled => exact (keeps_emit (h _ _ _)).bind fun _ => .pure _
  | timedOut => exact (keeps_emit (h _ _ _)).bind fun _ => .pure _
  | elapsed => exact (keeps_emit (h _ _ _)).bind fun _ => .pure _

theorem keeps_boundedRead {limit : Option Instant} {opTimeoutSecs : ℕ} {kind : ReadKind}
    {tags : List String} (h : ∀ call, p (.read call)) :
    Keeps (within p part) (boundedRead limit opTimeoutSecs kind tags) := by
  refine keeps_now.bind fun started => (keeps_raceCall _ _).bind fun r =>
    keeps_now.bind fun finished => ?_
  obtain ⟨ended, a⟩ := r
  cases ended with
  | replied => exact (keeps_emit (h _)).bind fun _ => (keeps_readValues _).bind fun _ => .pure _
  | cancelled => exact (keeps_emit (h _)).bind fun _ => .pure _
  | timedOut => exact (keeps_emit (h _)).bind fun _ => .pure _
  | elapsed => exact (keeps_emit (h _)).bind fun _ => .pure _

theorem keeps_bounded {F : Frame Sys} {x : Io (Option (TickOperation α))} (h : Keeps F x) :
    Keeps F (bounded x) := by
  refine h.bind fun r => ?_
  cases r with
  | none => exact .throw _
  | some operation => exact .pure _

theorem keeps_driverWrite {scope : Option Instant} {origin : Origin} {tag : String}
    {value : TagWrite}
    (h : ∀ started ended result, p (.write ⟨origin, tag, value, started, ended, result⟩)) :
    Keeps (within p part) (driverWrite scope origin tag value) := by
  refine keeps_now.bind fun started => Keeps.get.bind fun s =>
    (keeps_awaitScoped _ _).bind fun r => keeps_now.bind fun finished => ?_
  obtain ⟨cut, a⟩ := r
  cases cut with
  | none => exact (keeps_emit (h _ _ _)).bind fun _ => keeps_toIo _ _
  | some c => exact (keeps_emit (h _ _ _)).bind fun _ => .throw _

theorem keeps_driverRead {kind : ReadKind} {tags : List String} (h : ∀ call, p (.read call)) :
    Keeps (within p part) (driverRead kind tags) :=
  keeps_now.bind fun _ => Keeps.get.bind fun _ => (keeps_awaitScoped _ _).bind fun _ =>
    keeps_now.bind fun _ => (keeps_emit (h _)).bind fun _ => keeps_readValues _

theorem keeps_database {op : DbOp} (h : ∀ result, p (.db op result)) :
    Keeps (within p part) (database op) := by
  refine Keeps.get.bind fun s => (keeps_wake _).bind fun a => (keeps_emit (h _)).bind fun _ => ?_
  cases a.stored with
  | ok id => exact .pure _
  | error e => exact keeps_bail _

theorem keeps_bestEffort {F : Frame Sys} {x : Io Unit} (h : Keeps F x) : Keeps F (bestEffort x) := by
  refine (keeps_tryErr h).bind fun r => ?_
  cases r <;> exact .pure _

theorem keeps_runStatement {op : DbOp} (h : ∀ result, p (.db op result)) :
    Keeps (within p part) (runStatement op) := (keeps_database h).bind fun _ => .pure _

theorem keeps_consult : Keeps (within p part) consult :=
  Keeps.bind_get fun _ => ⟨.refl _, .wait le_rfl (Nat.le_succ _) rfl rfl, rfl⟩

theorem keeps_utcNow : Keeps (within p part) utcNow := keeps_consult.bind fun _ => .pure _

end Frames

/-! ### What the primitives establish -/

section Specs

variable {α : Type} {s : Sys}

@[simp] theorem wp_now {Q : Instant → Sys → Prop} {E : Fault → Sys → Prop} :
    wp now Q E s ↔ Q s.clock s := Iff.rfl

@[simp] theorem wp_emit {Q : Unit → Sys → Prop} {E : Fault → Sys → Prop} (e : Event) :
    wp (emit e) Q E s ↔ Q () { s with trace := s.trace ++ [e] } := Iff.rfl

@[simp] theorem wp_mark {Q : Unit → Sys → Prop} {E : Fault → Sys → Prop} (m : Mark) :
    wp (mark m) Q E s ↔ Q () { s with trace := s.trace ++ [.mark m] } := Iff.rfl

@[simp] theorem wp_modifyProgram {Q : Unit → Sys → Prop} {E : Fault → Sys → Prop}
    (f : Program → Program) :
    wp (modifyProgram f) Q E s ↔ Q () { s with program := f s.program } := Iff.rfl

@[simp] theorem wp_bail {Q : α → Sys → Prop} {E : Fault → Sys → Prop} (e : Text) :
    wp (bail e) Q E s ↔ E (.err e) s := Iff.rfl

@[simp] theorem wlp_requireInvariant {Q : α → Sys → Prop} (x : Option α) (message : String) :
    wlp (requireInvariant x message) Q s ↔ ∀ a, x = some a → Q a s := by
  cases x with
  | none => exact ⟨fun _ _ h => (nomatch h), fun _ => trivial⟩
  | some a =>
    refine ⟨fun h b hb => ?_, fun h => h a rfl⟩
    cases hb
    exact h

/-- What `x` returns, a value or an error, with the state it returns in. -/
abbrev returns (x : Io α) (Q : Except Text α → Sys → Prop) (s : Sys) : Prop :=
  wp x (fun a => Q (.ok a)) (fun f s' => ∀ e, f = .err e → Q (.error e) s') s

theorem returns_mono {x : Io α} {Q Q' : Except Text α → Sys → Prop}
    (h : returns x Q s) (hQ : ∀ r s', Q r s' → Q' r s') : returns x Q' s :=
  wp_mono h (fun _ s' h => hQ _ s' h) fun _ s' h e he => hQ _ s' (h e he)

theorem returns_seq {β : Type} {x : Io β} {f : β → Io α} {M : Except Text β → Sys → Prop}
    {Q : Except Text α → Sys → Prop} (hx : returns x M s)
    (hf : ∀ b s', M (.ok b) s' → returns (f b) Q s')
    (hE : ∀ e s', M (.error e) s' → Q (.error e) s') : returns (x >>= f) Q s :=
  wp_seq (wp_mono hx (fun _ _ h => h) fun _ s' h e he => hE e s' (h e he)) hf

theorem wlp_tryErr {x : Io α} {Q : Except Text α → Sys → Prop} (h : returns x Q s) :
    wlp (tryErr x) Q s := by
  refine wlp_attempt (wp_mono h (fun _ _ h => h) ?_)
  intro f s' hf e he
  cases f with
  | err e' =>
    cases he
    exact hf e rfl
  | _ => cases he

/-- A program whose errors are handed over as values fails in no other way than it did before. -/
theorem wp_tryErr {x : Io α} {Q : Except Text α → Sys → Prop} (h : returns x Q s) :
    wp (tryErr x) Q (fun f _ => f.error? = none) s := by
  refine wp_attempt.mpr (wp_mono h (fun _ _ h => h) ?_)
  intro f s' hf
  cases f with
  | err e => exact hf e rfl
  | _ => rfl

/-- Sequencing after a program that does not fail with an error. -/
theorem returns_after {β : Type} {x : Io β} {f : β → Io α} {M : β → Sys → Prop}
    {Q : Except Text α → Sys → Prop} (hx : wp x M (fun f _ => f.error? = none) s)
    (hf : ∀ b s', M b s' → returns (f b) Q s') : returns (x >>= f) Q s := by
  refine wp_seq (wp_mono hx (fun _ _ h => h) ?_) hf
  intro f s' hnone e he
  rw [he] at hnone
  cases hnone

/-- The frame and the run of a program, where it returns. -/
theorem returns_run {F : Frame Sys} {x : Io α} (h : Keeps F x) (s : Sys) :
    returns x (fun r s' => F.rel s s' ∧ match r with
      | .ok a => x s = .ok a s'
      | .error e => x s = .error (.err e) s') s := by
  refine wp_mono (wp_and (h s) (wp_run x s)) (fun _ _ h => h) ?_
  rintro f s' ⟨hrel, hrun⟩ e rfl
  exact ⟨hrel, hrun⟩

/-- The write `call` is what happened between two states. -/
structure Wrote (origin : Origin) (tag : String) (value : TagWrite) (s s' : Sys)
    (call : WriteCall) : Prop where
  origin : call.origin = origin
  tag : call.tag = tag
  value : call.value = value
  ended : call.ended = s'.clock
  passes : s.Passes s'
  trace : s'.trace = s.trace ++ [.write call]
  program : s'.program = s.program

/-- The read `call` is what happened between two states. -/
structure HasRead (kind : ReadKind) (tags : List String) (s s' : Sys) (call : ReadCall) :
    Prop where
  kind : call.kind = kind
  tags : call.tags = tags
  started : s.clock ≤ call.started
  ended : call.ended = s'.clock
  passes : s.Passes s'
  trace : s'.trace = s.trace ++ [.read call]
  program : s'.program = s.program

/-- A state that a program which appends nothing and changes no variable leads to. -/
structure Waited (s s' : Sys) : Prop where
  passes : s.Passes s'
  trace : s'.trace = s.trace
  program : s'.program = s.program

theorem Waited.refl (s : Sys) : Waited s s := ⟨.refl s, rfl, rfl⟩

theorem wake_spec (ready : List (Option Instant)) :
    wp (wake ready) (fun _ => Waited s) (fun f s' => f = .hung ∧ Waited s s') s := by
  refine wp_bind.mpr (wp_get.mpr ?_)
  cases earliest ready with
  | none => exact ⟨rfl, .refl s⟩
  | some t =>
    exact ⟨.wait ((le_max_left _ _).trans (Nat.le_add_right _ _)) (Nat.le_succ _) rfl rfl, rfl, rfl⟩

theorem raceCall_spec (limit : Option Instant) (opTimeoutSecs : ℕ) :
    wp (raceCall limit opTimeoutSecs) (fun _ => Waited s) (fun f s' => f = .hung ∧ Waited s s')
      s := by
  refine wp_bind.mpr (wp_get.mpr (wp_seq (wake_spec _) fun a s' hs' => ?_))
  refine wp_bind.mpr (wp_now.mpr ?_)
  split
  · exact ⟨hs'.passes.trans (.see s'), hs'.trace, hs'.program⟩
  · exact hs'
  · exact hs'

theorem awaitScoped_spec (scope done : Option Instant) :
    wp (awaitScoped scope done) (fun _ => Waited s) (fun f s' => f = .hung ∧ Waited s s') s := by
  cases scope with
  | none => exact wp_seq (wake_spec _) fun _ _ h => h
  | some deadline =>
    refine wp_bind.mpr (wp_get.mpr (wp_seq (wake_spec _) fun a s' hs' => ?_))
    refine wp_bind.mpr (wp_now.mpr ?_)
    split
    · exact ⟨hs'.passes.trans (.see s'), hs'.trace, hs'.program⟩
    · exact hs'
    · exact ⟨rfl, hs'⟩

theorem Waited.wrote {s' : Sys} (h : Waited s s') (origin : Origin) (tag : String)
    (value : TagWrite) (started : Instant) (result : WriteResult) :
    Wrote origin tag value s
      { s' with trace := s'.trace ++ [.write ⟨origin, tag, value, started, s'.clock, result⟩] }
      ⟨origin, tag, value, started, s'.clock, result⟩ :=
  ⟨rfl, rfl, rfl, rfl, h.passes.trans (.wait le_rfl le_rfl rfl rfl), congrArg (· ++ _) h.trace, h.program⟩

theorem Waited.hasRead {s' : Sys} (h : Waited s s') (kind : ReadKind) (tags : List String)
    (result : ReadResult) :
    HasRead kind tags s
      { s' with trace := s'.trace ++ [.read ⟨kind, tags, s.clock, s'.clock, result⟩] }
      ⟨kind, tags, s.clock, s'.clock, result⟩ :=
  ⟨rfl, rfl, le_rfl, rfl, h.passes.trans (.wait le_rfl le_rfl rfl rfl), congrArg (· ++ _) h.trace,
    h.program⟩

/-- How a driver answered decides between success and an error. -/
theorem wp_toIo (tag : String) (r : WriteResult) (h : ∀ tookEffect, r ≠ .abandoned tookEffect) :
    wp (r.toIo tag) (fun _ s' => s' = s ∧ r = .accepted)
      (fun _ s' => s' = s ∧ r ≠ .accepted) s := by
  cases r with
  | accepted => exact ⟨rfl, rfl⟩
  | rejected message => exact ⟨rfl, nofun⟩
  | failed e tookEffect => exact ⟨rfl, nofun⟩
  | abandoned tookEffect => exact absurd rfl (h tookEffect)

theorem writeResult_ne_abandoned (a : Answer) (tookEffect : Bool) :
    a.writeResult ≠ .abandoned tookEffect := by
  unfold Answer.writeResult
  split
  · nofun
  · split <;> nofun

/-- An error, or a wait for something that never comes. -/
def Fault.Mild : Fault → Prop
  | .err _ => True
  | .hung => True
  | _ => False

/-- **What a statement did**: it was never answered, or its answer is on record. -/
theorem database_ends (op : DbOp) :
    wp (database op)
      (fun a s' => ∃ id, a.stored = .ok id ∧ s'.trace = s.trace ++ [.db op (.ok id)])
      (fun f s' => (f = .hung ∧ s'.trace = s.trace) ∨
        ∃ e, f = .err (text e) ∧ s'.trace = s.trace ++ [.db op (.error e)]) s := by
  refine wp_bind.mpr (wp_get.mpr (wp_seq (wp_mono (wake_spec _) (fun _ _ h => h) ?_) ?_))
  · rintro f s' ⟨rfl, hs'⟩
    exact .inl ⟨rfl, hs'.trace⟩
  · intro a s' hs'
    refine wp_bind.mpr ((wp_emit _).mpr ?_)
    cases hstored : a.stored with
    | ok id => exact ⟨id, hstored, congrArg (· ++ _) hs'.trace⟩
    | error e => exact .inr ⟨e, rfl, congrArg (· ++ _) hs'.trace⟩

theorem runStatement_ends (op : DbOp) :
    wp (runStatement op) (fun _ s' => ∃ id, s'.trace = s.trace ++ [.db op (.ok id)])
      (fun f s' => (f = .hung ∧ s'.trace = s.trace) ∨
        ∃ e, f = .err (text e) ∧ s'.trace = s.trace ++ [.db op (.error e)]) s :=
  wp_seq (database_ends op) fun _ _ ⟨id, _, htrace⟩ => ⟨id, htrace⟩

theorem runStatement_faults (op : DbOp) :
    wp (runStatement op) (fun _ _ => True) (fun f _ => f.Mild) s := by
  refine wp_mono (runStatement_ends op) (fun _ _ _ => trivial) ?_
  rintro f s' (⟨rfl, _⟩ | ⟨e, rfl, _⟩) <;> trivial

theorem runStatement_spec (op : DbOp) :
    returns (runStatement op)
      (fun r s' => ∃ result, s'.trace = s.trace ++ [.db op result] ∧
        (r = .ok () ↔ ∃ id, result = .ok id)) s := by
  refine wp_mono (runStatement_ends op) ?_ ?_
  · rintro _ s' ⟨id, htrace⟩
    exact ⟨.ok id, htrace, fun _ => ⟨id, rfl⟩, fun _ => rfl⟩
  · rintro f s' (⟨rfl, _⟩ | ⟨e, rfl, htrace⟩) _ ⟨rfl⟩
    exact ⟨.error e, htrace, nofun, nofun⟩

theorem bestEffort_faults {x : Io Unit}
    (h : wp x (fun _ _ => True) (fun f _ => f.Mild) s) :
    wp (bestEffort x) (fun _ _ => True) (fun f _ => f.Mild) s := by
  refine wp_seq (M := fun _ _ => True) (wp_attempt.mpr (wp_mono h (fun _ _ h => h) ?_)) ?_
  · intro f s' hf
    cases f with
    | err e => trivial
    | hung => trivial
    | _ => exact hf.elim
  · intro r s' _
    cases r <;> trivial

/-- **What a bounded write did**: it is on record, and accepted where it returns a completion. -/
theorem boundedWrite_spec (limit : Option Instant) (opTimeoutSecs : ℕ) (origin : Origin)
    (tag : String) (value : TagWrite) :
    wp (boundedWrite limit opTimeoutSecs origin tag value)
      (fun r s' => ∃ call, Wrote origin tag value s s' call ∧
        (r = some (.completed ()) ↔ call.result = .accepted))
      (fun f s' => (f = .hung ∧ Waited s s') ∨ ∃ call, Wrote origin tag value s s' call ∧
        call.result ≠ .accepted) s := by
  refine wp_bind.mpr (wp_now.mpr (wp_seq (wp_mono (raceCall_spec _ _) (fun _ _ h => h)
    fun _ _ h => .inl h) ?_))
  rintro ⟨ended, a⟩ s' hs'
  refine wp_bind.mpr (wp_now.mpr ?_)
  cases ended with
  | replied =>
    refine wp_bind.mpr ((wp_emit _).mpr (wp_bind.mpr ?_))
    refine wp_mono (wp_toIo tag a.writeResult (writeResult_ne_abandoned a)) ?_ ?_
    · rintro _ _ ⟨rfl, hr⟩
      exact ⟨_, hs'.wrote _ _ _ _ _, fun _ => hr, fun _ => rfl⟩
    · rintro f _ ⟨rfl, hr⟩
      exact .inr ⟨_, hs'.wrote _ _ _ _ _, hr⟩
  | cancelled => exact ⟨_, hs'.wrote _ _ _ _ _, nofun, nofun⟩
  | timedOut => exact ⟨_, hs'.wrote _ _ _ _ _, nofun, nofun⟩
  | elapsed => exact ⟨_, hs'.wrote _ _ _ _ _, nofun, nofun⟩

/-- **What an unbounded write did**: it is on record, and accepted where it returns. -/
theorem driverWrite_spec (scope : Option Instant) (origin : Origin) (tag : String)
    (value : TagWrite) :
    wp (driverWrite scope origin tag value)
      (fun _ s' => ∃ call, Wrote origin tag value s s' call ∧ call.result = .accepted)
      (fun f s' => (f = .hung ∧ Waited s s') ∨ ∃ call, Wrote origin tag value s s' call ∧
        call.result ≠ .accepted) s := by
  refine wp_bind.mpr (wp_now.mpr (wp_bind.mpr (wp_get.mpr ?_)))
  refine wp_seq (wp_mono (awaitScoped_spec _ _) (fun _ _ h => h) fun _ _ h => .inl h) ?_
  rintro ⟨cut, a⟩ s' hs'
  refine wp_bind.mpr (wp_now.mpr ?_)
  cases cut with
  | some c => exact .inr ⟨_, hs'.wrote _ _ _ _ _, nofun⟩
  | none =>
    refine wp_bind.mpr ((wp_emit _).mpr ?_)
    refine wp_mono (wp_toIo tag a.writeResult (writeResult_ne_abandoned a)) ?_ ?_
    · rintro _ _ ⟨rfl, hr⟩
      exact ⟨_, hs'.wrote _ _ _ _ _, hr⟩
    · rintro f _ ⟨rfl, hr⟩
      exact .inr ⟨_, hs'.wrote _ _ _ _ _, hr⟩

theorem driverRead_spec (kind : ReadKind) (tags : List String) :
    wp (driverRead kind tags)
      (fun values s' => ∃ call, HasRead kind tags s s' call ∧ call.result = .values values)
      (fun f s' => f = .hung ∨ ∃ call, HasRead kind tags s s' call ∧
        ∃ e, call.result = .failed e) s := by
  refine wp_bind.mpr (wp_now.mpr (wp_bind.mpr (wp_get.mpr ?_)))
  refine wp_seq (wp_mono (awaitScoped_spec _ _) (fun _ _ h => h) fun _ _ h => .inl h.1) ?_
  rintro ⟨cut, a⟩ s' hs'
  refine wp_bind.mpr (wp_now.mpr (wp_bind.mpr ((wp_emit _).mpr ?_)))
  unfold Answer.readValues
  cases hv : a.values with
  | error e => exact .inr ⟨_, hs'.hasRead _ _ _, e, by simp only [Answer.readResult, hv]⟩
  | ok values => exact ⟨_, hs'.hasRead _ _ _, by simp only [Answer.readResult, hv]⟩

/-- **What a bounded read brought**: the values of the read on record. -/
theorem boundedRead_spec (limit : Option Instant) (opTimeoutSecs : ℕ) (kind : ReadKind)
    (tags : List String) :
    wlp (boundedRead limit opTimeoutSecs kind tags)
      (fun r s' => ∃ call, HasRead kind tags s s' call ∧
        ∀ values, r = some (.completed values) → call.result = .values values) s := by
  refine wp_bind.mpr (wp_now.mpr (wp_seq (wp_mono (raceCall_spec _ _) (fun _ _ h => h)
    fun _ _ _ => trivial) ?_))
  rintro ⟨ended, a⟩ s' hs'
  refine wp_bind.mpr (wp_now.mpr ?_)
  cases ended with
  | replied =>
    refine wp_bind.mpr ((wp_emit _).mpr (wp_bind.mpr ?_))
    unfold Answer.readValues
    cases hv : a.values with
    | error e => trivial
    | ok values =>
      refine ⟨_, hs'.hasRead _ _ _, ?_⟩
      rintro _ ⟨rfl⟩
      simp only [Answer.readResult, hv]
  | cancelled => exact ⟨_, hs'.hasRead _ _ _, nofun⟩
  | timedOut => exact ⟨_, hs'.hasRead _ _ _, nofun⟩
  | elapsed => exact ⟨_, hs'.hasRead _ _ _, nofun⟩

end Specs

/-! ### The record of a program -/

/-- The record of a program, however it ends. -/
def recordOf {α : Type} (x : Io α) (s : Sys) : List Event :=
  match x s with
  | .ok _ s' => s'.trace
  | .error _ s' => s'.trace

/-- What holds of the log however a program ends holds of its record. -/
theorem recordOf_holds {α : Type} {x : Io α} {s : Sys} {P : List Event → Prop}
    (h : wp x (fun _ s' => P s'.trace) (fun _ s' => P s'.trace) s) : P (recordOf x s) := by
  unfold recordOf
  cases hx : x s with
  | ok a s' => exact wp_ok (Q := fun _ s' => P s'.trace) h hx
  | error fault s' => exact wp_error (E := fun _ s' => P s'.trace) h hx

end Bhtune
