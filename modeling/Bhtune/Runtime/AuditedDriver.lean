import Bhtune.Runtime.CrashEvidence
import Bhtune.Runtime.Writeback

/-!
# The audited driver and its queue of previous values

`AuditedDriver::write` records the intent of every controller write before it forwards the write,
and takes for the record the value that was queued for the tag.  A PID write and its rollback queue
such a value before each of their writes; other writes queue none.

* `write` — `AuditedDriver::write`, with the queue of `LiveOperationGuard`;
* `writePidValuesInner`, `rollbackPidWrites` — the writes that queue a value;
* `ownValue` — the value that was queued for the write that comes next;
* `Ready`, `Paired` — the invariant before a write, and between the operations;
* `previous_values_paired` — every recorded write carries its own value, or none;
* `WriteEnd.fleet_run`, `WriteEnd.audited_run` — a write of this driver in a fleet, and in a run
  that may crash.
-/

namespace Bhtune

namespace AuditedDriver

open Effect EventLog

/-! ### The state -/

/-- What the outside does at one await. -/
structure Reply where
  /-- Whether the heartbeat fails before it. -/
  heartbeatFails : Bool := false
  /-- What `Utc::now` reads. -/
  utcNow : UtcTime := 0
  /-- The reply of the database, with the id of an inserted row. -/
  stored : Except String ℕ := .ok 0
  /-- The reply of the inner driver to a write; `none` where the wait for it is given up. -/
  outcome : Option (Except String WriteOutcome) := some (.ok ⟨true, none⟩)
  /-- The constants that are read before a PID write. -/
  previous : Except Text WriteReadback := .ok ⟨0, 0, 0⟩
  /-- The readback of one constant. -/
  readback : Except Text ℚ := .ok 0

/-- What happens at the guard and at the driver. -/
inductive AuditEvent where
  /-- `queue_previous_write_value`. -/
  | queued (tag valueJson : String)
  /-- `AuditedDriver::write` is called. -/
  | issued (tag : String) (value : TagWrite)
  /-- `LiveMutationStepRow::begin`. -/
  | begun (tag : String) (step : NewLiveMutationStep) (result : Except String ℕ)
  /-- The write is forwarded to the inner driver. -/
  | forwarded (tag : String) (value : TagWrite) (outcome : Option (Except String WriteOutcome))
  /-- `LiveMutationStepRow::finish`. -/
  | finished (id : ℕ) (status : MutationStepStatus) (detail : String) (result : Except String ℕ)

/-- The guard, and what has happened so far. -/
structure GuardSys where
  replies : ℕ → Reply
  cursor : ℕ
  ownerId : ℕ
  runId : Option ℕ
  heartbeatFailed : Bool
  previousWriteValues : String → List String
  log : List AuditEvent

/-- A guard that was acquired just now. -/
def GuardSys.acquired (replies : ℕ → Reply) (ownerId : ℕ) (runId : Option ℕ) : GuardSys where
  replies := replies
  cursor := 0
  ownerId := ownerId
  runId := runId
  heartbeatFailed := false
  previousWriteValues := fun _ => []
  log := []

/-- A program at the guard; it fails with an error. -/
abbrev GuardIo := EStateM Text GuardSys

/-- The error of a program as a value. -/
def tryErr {α : Type} (x : GuardIo α) : GuardIo (Except Text α) := attempt some x

/-- The next await. -/
def reply : GuardIo Reply := do
  let s ← get
  set { s with
    cursor := s.cursor + 1
    heartbeatFailed := s.heartbeatFailed || (s.replies s.cursor).heartbeatFails }
  return s.replies s.cursor

/-- Records an event. -/
def record (e : AuditEvent) : GuardIo Unit := modify fun s => { s with log := s.log ++ [e] }

/-! ### The guard -/

/-- `ensure_healthy`. -/
def ensureHealthy : GuardIo Unit := do
  let _ ← reply
  if (← get).heartbeatFailed then
    throw (text ("live controller ownership heartbeat failed; refusing further mutations and " ++
      "retaining the pre-write audit intent"))
  else return ()

/-- The queue of a tag with a value behind the others. -/
def pushBack (tag valueJson : String) (values : String → List String) : String → List String :=
  fun t => if t = tag then values t ++ [valueJson] else values t

/-- The queue of a tag without its first value. -/
def popFront (tag : String) (values : String → List String) : String → List String :=
  fun t => if t = tag then (values t).tail else values t

/-- `queue_previous_write_value`. -/
def queuePreviousWriteValue (tag valueJson : String) : GuardIo Unit := do
  modify fun s => { s with previousWriteValues := pushBack tag valueJson s.previousWriteValues }
  record (.queued tag valueJson)

/-- `take_previous_write_value`. -/
def takePreviousWriteValue (tag : String) : GuardIo (Option String) := do
  let value := ((← get).previousWriteValues tag).head?
  modify fun s => { s with previousWriteValues := popFront tag s.previousWriteValues }
  return value

/-! ### The driver -/

/-- The status and the detail with which the step of a write is finished. -/
def finalStatus : Except String WriteOutcome → MutationStepStatus × String
  | .ok outcome =>
    if outcome.success then
      (.confirmed,
        "the driver accepted the write; value confirmation is recorded separately")
    else (.failed, outcome.errorMessage.getD "the driver rejected the write")
  | .error e => (.failed, e)

/-- What follows the recorded intent: the write itself, and the status of its step. -/
def forward (id : ℕ) (tag : String) (value : TagWrite) : GuardIo WriteOutcome := do
  let outcome := (← reply).outcome
  record (.forwarded tag value outcome)
  match outcome with
  | none => throw (text "the wait for the write was given up")
  | some result => do
    let stored := (← reply).stored
    record (.finished id (finalStatus result).1 (finalStatus result).2 stored)
    match stored, result with
    | .error e, _ => throw (text e)
    | .ok _, .error e => throw (text e)
    | .ok _, .ok outcome => return outcome

variable (encode : String → TagWrite → String)

/-- The step that is recorded before a write. -/
def newStep (s : GuardSys) (tag : String) (value : TagWrite) (previousJson : Option String)
    (startedAt : UtcTime) : NewLiveMutationStep where
  ownerId := s.ownerId
  runId := s.runId
  step := "controller_write"
  targetJson := encode tag value
  previousJson := previousJson
  startedAt := startedAt

/-- `AuditedDriver::write`; `encode` is `write_target_json`. -/
def write (tag : String) (value : TagWrite) : GuardIo WriteOutcome := do
  record (.issued tag value)
  ensureHealthy
  let previousJson ← takePreviousWriteValue tag
  let answer ← reply
  let step := newStep encode (← get) tag value previousJson answer.utcNow
  record (.begun tag step answer.stored)
  match answer.stored with
  | .error e => throw (text e)
  | .ok id => forward id tag value

/-- `write_value`. -/
def writeValue (tag : String) (value : ℚ) : GuardIo Unit := do
  let outcome ← write encode tag (.float value)
  if outcome.success then return ()
  else
    throw (text ("write to '" ++ tag ++ "' was rejected: " ++
      outcome.errorMessage.getD "unknown reason"))

/-! ### The PID writes -/

-- how `serde_json` prints an `f32` and an `f64`
variable (f32Json f64Json : ℚ → String)

/-- `write_and_verify_pid_value`. -/
def writeAndVerifyPidValue (step : PidStep) : GuardIo (Except Text ℚ) := do
  match ← tryErr (writeValue encode step.tag step.value) with
  | .error e =>
    return .error (text (step.label ++ " write to '" ++ step.tag ++ "' failed: ") ++ e)
  | .ok () =>
    match (← reply).readback with
    | .error e =>
      return .error (text (step.label ++ " readback from '" ++ step.tag ++ "' failed: ") ++ e)
    | .ok readback =>
      if pidValueWithinTolerance step.value readback then return .ok readback
      else
        return .error (text (step.label ++ " readback ") ++ [.num readback] ++
          text (" from '" ++ step.tag ++ "' is outside tolerance of requested ") ++
          [.num step.value])

/-- The steps of a PID write in order, up to the first failure: each queues the value that was read
before. -/
def writePidSteps (done : List PidStep) : List PidStep → GuardIo (List PidStep × Option Text)
  | [] => return (done, none)
  | step :: rest => do
    queuePreviousWriteValue step.tag (f32Json step.previous)
    match ← writeAndVerifyPidValue encode step with
    | .ok _ => writePidSteps (done ++ [step]) rest
    | .error e => return (done, some e)

/-- `rollback_pid_writes`: each write queues the value that it replaces. -/
def rollbackPidWrites : List PidStep → GuardIo (List Text)
  | [] => return []
  | step :: rest => do
    queuePreviousWriteValue step.tag (f64Json step.value)
    let failure ←
      match ← tryErr (writeValue encode step.tag step.previous) with
      | .ok () => pure []
      | .error e =>
        pure [text (step.label ++ " rollback write to '" ++ step.tag ++ "' failed: ") ++ e]
    let failures ← rollbackPidWrites rest
    return failure ++ failures

/-- A statement of the database. -/
def statement : GuardIo Unit := do
  match (← reply).stored with
  | .ok _ => return ()
  | .error e => throw (text e)

/-- `write_pid_values_inner`, as far as it comes to the guard and the driver. -/
def writePidValuesInner (runId : ℕ) (pTag iTag dTag : String) (target : WriteReadback)
    (kind : WriteKind) : GuardIo Unit := do
  ensureHealthy
  if (← get).runId ≠ some runId then
    throw (text "live ownership does not match PID write run " ++ [.nat runId])
  else
    match (← reply).previous with
    | .error _ => statement
    | .ok previous => do
      -- `persist_pid_restore_intent`
      ensureHealthy
      statement
      let steps : List PidStep :=
        [⟨"Proportional", pTag, target.proportional, previous.proportional⟩,
          ⟨"Integral", iTag, target.integral, previous.integral⟩,
          ⟨"Derivative", dTag, target.derivative, previous.derivative⟩]
      match ← writePidSteps encode f32Json [] steps with
      | (_, none) => statement
      | (done, some _) => do
        if kind = .write ∧ done.isEmpty = false then
          let _ ← rollbackPidWrites encode f64Json done
        statement

/-- What an operation asks of the driver. -/
inductive ControllerOp where
  | writePid (runId : ℕ) (pTag iTag dTag : String) (target : WriteReadback) (kind : WriteKind)
  | rollback (targets : List PidStep)
  | write (tag : String) (value : TagWrite)

/-- One operation. -/
def ControllerOp.run : ControllerOp → GuardIo Unit
  | .writePid runId pTag iTag dTag target kind =>
    writePidValuesInner encode f32Json f64Json runId pTag iTag dTag target kind
  | .rollback targets => do
    let _ ← rollbackPidWrites encode f64Json targets
  | .write tag value => do
    let _ ← AuditedDriver.write encode tag value

/-- Operations one after another, whatever becomes of each. -/
def runAll : List ControllerOp → GuardIo Unit
  | [] => return ()
  | op :: rest => do
    let _ ← tryErr (op.run encode f32Json f64Json)
    runAll rest

/-- What the guard has come to. -/
def GuardSys.after {α : Type} (s : GuardSys) (x : GuardIo α) : GuardSys :=
  match x s with
  | .ok _ s' => s'
  | .error _ s' => s'

/-! ### What a recorded write carries -/

/-- The value that was queued for the write of `tag` that comes next: the one queued last, where
nothing has happened since. -/
def ownValue (log : List AuditEvent) (tag : String) : Option String :=
  match log.getLast? with
  | some (.queued t valueJson) => if t = tag then some valueJson else none
  | _ => none

/-- The values queued for a tag, in order. -/
def queuedValues (tag : String) (log : List AuditEvent) : List String :=
  log.filterMap fun
    | .queued t valueJson => if t = tag then some valueJson else none
    | _ => none

/-- The values that the writes of a tag have taken, in order. -/
def takenValues (tag : String) (log : List AuditEvent) : List String :=
  log.filterMap fun
    | .begun t step _ => if t = tag then step.previousJson else none
    | _ => none

/-- The record of a write. -/
def AuditEvent.Begins : AuditEvent → Prop
  | .begun _ _ _ => True
  | _ => False

/-- What is recorded of a write is its target and the value queued for it. -/
def AuditEvent.Pairs (e : AuditEvent) (before : List AuditEvent) : Prop :=
  ∀ tag step result, e = .begun tag step result → ∃ earlier value,
    before = earlier ++ [.issued tag value] ∧ step.targetJson = encode tag value ∧
      step.previousJson = ownValue earlier tag

/-- Every recorded write carries the value queued for it, or none where none was. -/
def RowsPaired (log : List AuditEvent) : Prop :=
  Guarded AuditEvent.Begins (AuditEvent.Pairs encode) log

/-- The invariant before a write of `tag`, with the value queued for it. -/
structure Ready (tag : String) (own : Option String) (s : GuardSys) : Prop where
  rows : RowsPaired encode s.log
  fifo : ∀ t, takenValues t s.log ++ s.previousWriteValues t = queuedValues t s.log
  last : ownValue s.log tag = own
  queue : s.heartbeatFailed = false →
    ∀ t, s.previousWriteValues t = if t = tag then own.toList else []

/-- The invariant between the operations: nothing is queued, unless the heartbeat has failed and no
write will be recorded any more. -/
structure Paired (s : GuardSys) : Prop where
  rows : RowsPaired encode s.log
  fifo : ∀ t, takenValues t s.log ++ s.previousWriteValues t = queuedValues t s.log
  last : ∀ tag, ownValue s.log tag = none
  drained : s.heartbeatFailed = false → ∀ t, s.previousWriteValues t = []

section Pairing

variable {encode} {s : GuardSys} {tag : String} {own : Option String}

theorem ownValue_concat_queued (log : List AuditEvent) (tag valueJson : String) :
    ownValue (log ++ [.queued tag valueJson]) tag = some valueJson := by simp [ownValue]

theorem Paired.ready (h : Paired encode s) (tag : String) : Ready encode tag none s where
  rows := h.rows
  fifo := h.fifo
  last := h.last tag
  queue := fun healthy t => by simp [h.drained healthy]

/-! ### One step at a time -/

/-- An event that neither queues nor takes. -/
def AuditEvent.Aside : AuditEvent → Prop
  | .queued _ _ => False
  | .begun _ _ _ => False
  | _ => True

theorem ownValue_concat_aside {e : AuditEvent} (he : e.Aside) (log : List AuditEvent)
    (tag : String) : ownValue (log ++ [e]) tag = none := by
  cases e <;> first | exact he.elim | simp [ownValue]

theorem queuedValues_concat_aside {e : AuditEvent} (he : e.Aside) (log : List AuditEvent)
    (tag : String) : queuedValues tag (log ++ [e]) = queuedValues tag log := by
  cases e <;> first | exact he.elim | simp [queuedValues]

theorem takenValues_concat_aside {e : AuditEvent} (he : e.Aside) (log : List AuditEvent)
    (tag : String) : takenValues tag (log ++ [e]) = takenValues tag log := by
  cases e <;> first | exact he.elim | simp [takenValues]

theorem RowsPaired.concat_aside {log : List AuditEvent} (h : RowsPaired encode log) {e : AuditEvent}
    (he : e.Aside) : RowsPaired encode (log ++ [e]) :=
  Guarded.concat h fun hbegins => by cases e <;> first | exact he.elim | exact hbegins.elim

/-- An event aside keeps the invariant. -/
theorem Paired.record (h : Paired encode s) {e : AuditEvent} (he : e.Aside) :
    Paired encode { s with log := s.log ++ [e] } where
  rows := h.rows.concat_aside he
  fifo := fun t => by
    show takenValues t (s.log ++ [e]) ++ _ = queuedValues t (s.log ++ [e])
    rw [takenValues_concat_aside he, queuedValues_concat_aside he]
    exact h.fifo t
  last := ownValue_concat_aside he s.log
  drained := h.drained

/-- The next await of the guard. -/
def GuardSys.awaited (s : GuardSys) : GuardSys :=
  { s with
    cursor := s.cursor + 1
    heartbeatFailed := s.heartbeatFailed || (s.replies s.cursor).heartbeatFails }

theorem GuardSys.healthy_of_awaited (h : s.awaited.heartbeatFailed = false) :
    s.heartbeatFailed = false := (Bool.or_eq_false_iff.mp h).1

theorem Paired.awaited (h : Paired encode s) : Paired encode s.awaited where
  rows := h.rows
  fifo := h.fifo
  last := h.last
  drained := fun healthy => h.drained (GuardSys.healthy_of_awaited healthy)

@[simp] theorem wp_reply {Q : Reply → GuardSys → Prop} {E : Text → GuardSys → Prop} :
    wp reply Q E s ↔ Q (s.replies s.cursor) s.awaited := Iff.rfl

@[simp] theorem wp_record {Q : Unit → GuardSys → Prop} {E : Text → GuardSys → Prop}
    (e : AuditEvent) : wp (record e) Q E s ↔ Q () { s with log := s.log ++ [e] } := Iff.rfl

@[simp] theorem wp_takePreviousWriteValue {Q : Option String → GuardSys → Prop}
    {E : Text → GuardSys → Prop} (tag : String) :
    wp (takePreviousWriteValue tag) Q E s ↔ Q (s.previousWriteValues tag).head?
      { s with previousWriteValues := popFront tag s.previousWriteValues } := Iff.rfl

@[simp] theorem wp_queuePreviousWriteValue {Q : Unit → GuardSys → Prop}
    {E : Text → GuardSys → Prop} (tag valueJson : String) :
    wp (queuePreviousWriteValue tag valueJson) Q E s ↔ Q () { s with
      previousWriteValues := pushBack tag valueJson s.previousWriteValues
      log := s.log ++ [.queued tag valueJson] } := Iff.rfl

/-- A guard that is not healthy refuses. -/
theorem ensureHealthy_spec (s : GuardSys) :
    wp ensureHealthy (fun _ s' => s' = s.awaited ∧ s'.heartbeatFailed = false)
      (fun _ s' => s' = s.awaited ∧ s'.heartbeatFailed = true) s := by
  refine wp_bind.mpr (wp_reply.mpr (wp_bind.mpr (wp_get.mpr ?_)))
  cases hfailed : s.awaited.heartbeatFailed with
  | true => exact ⟨rfl, hfailed⟩
  | false => exact ⟨rfl, hfailed⟩

theorem keeps_reply : Keeps (.invariant (Paired encode)) reply := fun _ h => h.awaited

theorem keeps_record {e : AuditEvent} (he : e.Aside) :
    Keeps (.invariant (Paired encode)) (record e) := fun _ h => h.record he

theorem keeps_guardHealthy : Keeps (.invariant (Paired encode)) ensureHealthy := by
  refine keeps_reply.bind fun _ => Keeps.get.bind fun s => ?_
  split
  · exact .throw _
  · exact .pure _

theorem keeps_forward (id : ℕ) (tag : String) (value : TagWrite) :
    Keeps (.invariant (Paired encode)) (forward id tag value) := by
  refine keeps_reply.bind fun answer =>
    (keeps_record (e := .forwarded tag value answer.outcome) trivial).bind fun _ => ?_
  cases answer.outcome with
  | none => exact .throw _
  | some result =>
    refine keeps_reply.bind fun answer =>
      (keeps_record (e := .finished id _ _ answer.stored) trivial).bind fun _ => ?_
    match answer.stored, result with
    | .error e, _ => exact .throw _
    | .ok _, .error e => exact .throw _
    | .ok _, .ok outcome => exact .pure _

/-- The value is queued for the write that comes next. -/
theorem Paired.queued (h : Paired encode s) (tag valueJson : String) :
    Ready encode tag (some valueJson) { s with
      previousWriteValues := pushBack tag valueJson s.previousWriteValues
      log := s.log ++ [.queued tag valueJson] } where
  rows := Guarded.concat h.rows fun hbegins => hbegins.elim
  fifo := fun t => by
    have hfifo := h.fifo t
    by_cases ht : t = tag
    · subst ht
      simp [takenValues, queuedValues, pushBack] at hfifo ⊢
      rw [← hfifo, List.append_assoc]
    · simp [takenValues, queuedValues, pushBack, ht, Ne.symm ht] at hfifo ⊢
      exact hfifo
  last := ownValue_concat_queued _ _ _
  queue := fun healthy t => by
    by_cases ht : t = tag <;> simp [pushBack, ht, h.drained healthy]

/-- **The step that is recorded carries the value queued for its write**, and leaves the queue
empty. -/
theorem Ready.begun (h : Ready encode tag own s) (healthy : s.heartbeatFailed = false)
    (value : TagWrite) (step : NewLiveMutationStep) (hstep : step.targetJson = encode tag value)
    (hprevious : step.previousJson = own) (result : Except String ℕ) (cursor : ℕ) (failed : Bool) :
    Paired encode { s with
      cursor := cursor
      heartbeatFailed := failed
      previousWriteValues := popFront tag s.previousWriteValues
      log := s.log ++ [.issued tag value] ++ [.begun tag step result] } where
  rows := by
    refine Guarded.concat (h.rows.concat_aside trivial) fun _ => ?_
    rintro tag' step' result' ⟨⟩
    exact ⟨s.log, value, rfl, hstep, hprevious.trans h.last.symm⟩
  fifo := fun t => by
    have hfifo := h.fifo t
    have hqueue := h.queue healthy t
    by_cases ht : t = tag
    · subst ht
      rw [if_pos rfl] at hqueue
      cases own <;> simp_all [takenValues, queuedValues, popFront]
    · simp_all [takenValues, queuedValues, popFront, Ne.symm ht]
  last := fun t => by simp [ownValue]
  drained := fun _ t => by
    have hqueue := h.queue healthy t
    by_cases ht : t = tag
    · cases own <;> simp_all [popFront]
    · simp_all [popFront]

/-- A write that is refused leaves its value queued, and no write is recorded any more. -/
theorem Ready.refused (h : Ready encode tag own s) (value : TagWrite) (cursor : ℕ) :
    Paired encode { s with
      cursor := cursor
      heartbeatFailed := true
      log := s.log ++ [.issued tag value] } where
  rows := h.rows.concat_aside trivial
  fifo := fun t => by
    show takenValues t (s.log ++ [_]) ++ _ = queuedValues t (s.log ++ [_])
    rw [takenValues_concat_aside (e := .issued tag value) trivial,
      queuedValues_concat_aside (e := .issued tag value) trivial]
    exact h.fifo t
  last := fun t => by simp [ownValue]
  drained := nofun

/-- **`AuditedDriver::write`**: whatever becomes of it, its record carries its own value. -/
theorem write_paired (h : Ready encode tag own s) (value : TagWrite) :
    wp (write encode tag value) (fun _ s' => Paired encode s') (fun _ s' => Paired encode s') s := by
  refine wp_bind.mpr ((wp_record _).mpr ?_)
  refine wp_seq (wp_mono (ensureHealthy_spec _) (fun _ _ hs => hs) ?_) ?_
  · rintro _ _ ⟨rfl, hfailed⟩
    have hrefused := h.refused value (s.cursor + 1)
    rw [← hfailed] at hrefused
    exact hrefused
  · rintro _ _ ⟨rfl, hhealthy⟩
    have healthy : s.heartbeatFailed = false := (Bool.or_eq_false_iff.mp hhealthy).1
    have htaken : (s.previousWriteValues tag).head? = own := by
      rw [h.queue healthy tag, if_pos rfl]
      cases own <;> rfl
    refine wp_bind.mpr ((wp_takePreviousWriteValue _).mpr (wp_bind.mpr (wp_reply.mpr
      (wp_bind.mpr (wp_get.mpr (wp_bind.mpr ((wp_record _).mpr ?_)))))))
    have hbegun := h.begun healthy value
      (newStep encode s tag value (s.previousWriteValues tag).head? (s.replies (s.cursor + 1)).utcNow)
      rfl htaken (s.replies (s.cursor + 1)).stored (s.cursor + 2)
    split
    · exact hbegun _
    · exact wp_mono (keeps_forward _ tag value _) (fun _ _ hs => hs (hbegun _)) fun _ _ hs =>
        hs (hbegun _)

theorem writeValue_paired (h : Ready encode tag own s) (value : ℚ) :
    wp (tryErr (writeValue encode tag value)) (fun _ s' => Paired encode s')
      (fun _ s' => Paired encode s') s := by
  have hwrite : wp (writeValue encode tag value) (fun _ s' => Paired encode s')
      (fun _ s' => Paired encode s') s := wp_seq (write_paired h (.float value)) fun _ _ hs' => by
    split
    · exact hs'
    · exact hs'
  exact wp_attempt.mpr hwrite

theorem writeAndVerifyPidValue_paired {step : PidStep} (h : Ready encode step.tag own s) :
    wp (writeAndVerifyPidValue encode step) (fun _ s' => Paired encode s')
      (fun _ s' => Paired encode s') s := by
  refine wp_seq (writeValue_paired h step.value) fun r s' hs' => ?_
  cases r with
  | error e => exact hs'
  | ok _ =>
    refine wp_bind.mpr (wp_reply.mpr ?_)
    have hawaited := hs'.awaited
    split
    · exact hawaited
    · split
      · exact hawaited
      · exact hawaited

/-! ### Whole operations -/

theorem keeps_tryError {α : Type} {F : Frame GuardSys} {x : GuardIo α} (h : Keeps F x) :
    Keeps F (tryErr x) := h.attempt

/-- A value is queued, and a write takes it. -/
theorem keeps_queued {α : Type} {x : GuardIo α} {valueJson : String}
    (hx : ∀ s, Ready encode tag (some valueJson) s →
      wp x (fun _ s' => Paired encode s') (fun _ s' => Paired encode s') s) :
    Keeps (.invariant (Paired encode)) (queuePreviousWriteValue tag valueJson >>= fun _ => x) :=
  .of_invariant fun _ h =>
    wp_bind.mpr ((wp_queuePreviousWriteValue _ _).mpr (hx _ (h.queued _ _)))

/-- What comes after a write keeps the invariant that the write has established. -/
theorem paired_then {α β : Type} {x : GuardIo α} {f : α → GuardIo β}
    (hx : wp x (fun _ s' => Paired encode s') (fun _ s' => Paired encode s') s)
    (hf : ∀ a, Keeps (.invariant (Paired encode)) (f a)) :
    wp (x >>= f) (fun _ s' => Paired encode s') (fun _ s' => Paired encode s') s :=
  wp_seq hx fun a s' hs' => wp_mono (hf a s') (fun _ _ h => h hs') fun _ _ h => h hs'

theorem keeps_rollbackPidWrites (f64Json : ℚ → String) (targets : List PidStep) :
    Keeps (.invariant (Paired encode)) (rollbackPidWrites encode f64Json targets) := by
  induction targets with
  | nil => exact .pure _
  | cons step rest ih =>
    refine keeps_queued fun s h => paired_then (writeValue_paired h _) fun r => ?_
    cases r with
    | ok _ => exact (Keeps.pure _).bind fun _ => ih.bind fun _ => .pure _
    | error e => exact (Keeps.pure _).bind fun _ => ih.bind fun _ => .pure _

theorem keeps_writePidSteps (f32Json : ℚ → String) (done steps : List PidStep) :
    Keeps (.invariant (Paired encode)) (writePidSteps encode f32Json done steps) := by
  induction steps generalizing done with
  | nil => exact .pure _
  | cons step rest ih =>
    refine keeps_queued fun s h => paired_then (writeAndVerifyPidValue_paired h) fun r => ?_
    cases r with
    | ok _ => exact ih _
    | error e => exact .pure _

theorem keeps_guardStatement : Keeps (.invariant (Paired encode)) statement := by
  refine keeps_reply.bind fun answer => ?_
  split
  · exact .pure _
  · exact .throw _

theorem keeps_writePidValues (f32Json f64Json : ℚ → String) (runId : ℕ) (pTag iTag dTag : String)
    (target : WriteReadback) (kind : WriteKind) :
    Keeps (.invariant (Paired encode))
      (writePidValuesInner encode f32Json f64Json runId pTag iTag dTag target kind) := by
  refine keeps_guardHealthy.bind fun _ => Keeps.get.bind fun s => ?_
  split
  · exact .throw _
  · refine keeps_reply.bind fun answer => ?_
    cases answer.previous with
    | error e => exact keeps_guardStatement
    | ok previous =>
      refine keeps_guardHealthy.bind fun _ => keeps_guardStatement.bind fun _ =>
        (keeps_writePidSteps _ _ _).bind fun result => ?_
      match result with
      | (_, none) => exact keeps_guardStatement
      | (done, some _) =>
        dsimp only
        split
        · exact (keeps_rollbackPidWrites _ _).bind fun _ => keeps_guardStatement
        · exact keeps_guardStatement

/-- **Every operation, with or without a value of its own, leaves nothing to the next.** -/
theorem keeps_controllerOp (f32Json f64Json : ℚ → String) (op : ControllerOp) :
    Keeps (.invariant (Paired encode)) (op.run encode f32Json f64Json) := by
  cases op with
  | writePid runId pTag iTag dTag target kind => exact keeps_writePidValues _ _ _ _ _ _ _ _
  | rollback targets => exact (keeps_rollbackPidWrites _ _).bind fun _ => .pure _
  | write tag value =>
    exact (.of_invariant fun _ h => write_paired (h.ready tag) value : Keeps _ _).bind
      fun _ => .pure _

theorem keeps_runAll (f32Json f64Json : ℚ → String) (ops : List ControllerOp) :
    Keeps (.invariant (Paired encode)) (runAll encode f32Json f64Json ops) := by
  induction ops with
  | nil => exact .pure _
  | cons op rest ih => exact (keeps_tryError (keeps_controllerOp _ _ op)).bind fun _ => ih

theorem paired_acquired (replies : ℕ → Reply) (ownerId : ℕ) (runId : Option ℕ) :
    Paired encode (.acquired replies ownerId runId) where
  rows := .nil
  fifo := fun _ => rfl
  last := fun _ => rfl
  drained := fun _ _ => rfl

end Pairing

/-- **Every recorded write carries the value queued for it**: the one that was queued right before
it for its tag, and none where none was.  The values of a tag are taken in the order in which they
were queued. -/
theorem previous_values_paired (f32Json f64Json : ℚ → String) (replies : ℕ → Reply) (ownerId : ℕ)
    (runId : Option ℕ) (ops : List ControllerOp) :
    let s := (GuardSys.acquired replies ownerId runId).after (runAll encode f32Json f64Json ops)
    (∀ before tag step result later, s.log = before ++ .begun tag step result :: later →
      ∃ earlier value, before = earlier ++ [.issued tag value] ∧
        step.targetJson = encode tag value ∧ step.previousJson = ownValue earlier tag) ∧
    ∀ tag, takenValues tag s.log ++ s.previousWriteValues tag = queuedValues tag s.log := by
  have hkeeps : Keeps (.invariant (Paired encode)) (runAll encode f32Json f64Json ops) :=
    keeps_runAll f32Json f64Json ops
  have hrun := hkeeps (.acquired replies ownerId runId)
  have hstart : Paired encode (.acquired replies ownerId runId) := paired_acquired _ _ _
  intro s
  have hs : Paired encode s := by
    show Paired encode (GuardSys.after _ _)
    unfold GuardSys.after
    cases hx : runAll encode f32Json f64Json ops (.acquired replies ownerId runId) with
    | ok _ s' => exact wp_ok (Q := fun _ s' => _ → Paired encode s') hrun hx hstart
    | error _ s' => exact wp_error (E := fun _ s' => _ → Paired encode s') hrun hx hstart
  exact ⟨fun before tag step result later hsplit =>
    hs.rows before _ later hsplit trivial tag step result rfl, hs.fifo⟩

/-- A driver that rejects the third write: two constants under one tag are written and rolled
back, and each record carries its own value. -/
example :
    let s := (GuardSys.acquired (fun n => if n = 16 then { outcome := some (.ok ⟨false, none⟩) } else
      { previous := .ok ⟨1, 2, 3⟩, readback := .ok (if n ≤ 8 then 4 else 5) }) 1 (some 1)).after
      (runAll (fun tag _ => tag) (fun v => toString v) (fun v => toString v)
        [.writePid 1 "FC1.K" "FC1.K" "FC1.TD" ⟨4, 5, 6⟩ .write])
    takenValues "FC1.K" s.log = ["1", "2", "4", "5"] ∧ takenValues "FC1.TD" s.log = ["3"] := by
  decide +kernel

/-! ### One write in the other models -/

section OtherModels

open ActionRun Transaction

/-- How a call of `AuditedDriver::write` ends: the heartbeat has failed, the intent is not recorded,
the write is dropped after it was forwarded, or its step is finished. -/
inductive WriteEnd where
  | refused
  | unrecorded (previousJson : Option String) (startedAt : UtcTime) (e : String)
  | dropped (previousJson : Option String) (startedAt : UtcTime) (id : ℕ)
  | finished (previousJson : Option String) (startedAt : UtcTime) (id : ℕ)
      (result : Except String WriteOutcome) (stored : Except String ℕ)

/-- Whether the inner driver took the write. -/
def accepted : Except String WriteOutcome → Bool
  | .ok outcome => outcome.success
  | .error _ => false

/-- The statement that finishes the step is that of a fleet. -/
theorem finishWrite_accepted (id : ℕ) (result : Except String WriteOutcome) (now : UtcTime) :
    finishWrite id (accepted result) now (finalStatus result).2 =
      LiveMutationStepRow.finish id (finalStatus result).1 now none
        (some (finalStatus result).2) := by
  cases result with
  | error e => rfl
  | ok outcome =>
    unfold finishWrite finalStatus accepted
    cases h : outcome.success <;> simp [h]

namespace WriteEnd

variable (s : GuardSys) (tag : String) (value : TagWrite)

/-- What the call adds to the log. -/
def log : WriteEnd → List AuditEvent
  | .refused => [.issued tag value]
  | .unrecorded previousJson startedAt e =>
    [.issued tag value, .begun tag (newStep encode s tag value previousJson startedAt) (.error e)]
  | .dropped previousJson startedAt id =>
    [.issued tag value, .begun tag (newStep encode s tag value previousJson startedAt) (.ok id),
      .forwarded tag value none]
  | .finished previousJson startedAt id result stored =>
    [.issued tag value, .begun tag (newStep encode s tag value previousJson startedAt) (.ok id),
      .forwarded tag value (some result),
      .finished id (finalStatus result).1 (finalStatus result).2 stored]

variable {encode} in
theorem log_finished (previousJson : Option String) (startedAt : UtcTime) (id : ℕ)
    (result : Except String WriteOutcome) (stored : Except String ℕ) :
    s.log ++ [.issued tag value] ++
      [.begun tag (newStep encode s tag value previousJson startedAt) (.ok id)] ++
      [.forwarded tag value (some result)] ++
      [.finished id (finalStatus result).1 (finalStatus result).2 stored] =
    s.log ++ (finished previousJson startedAt id result stored).log encode s tag value := by
  simp [log]

/-- What the party `i` of a fleet does meanwhile; its step is finished at `now`. -/
def actions (i : ℕ) (now : UtcTime) (refusals : List Bool) : WriteEnd → List FleetAction
  | .refused => []
  | .unrecorded previousJson startedAt _ =>
    [.begin i s.runId tag value previousJson startedAt refusals]
  | .dropped previousJson startedAt id =>
    [.begin i s.runId tag value previousJson startedAt refusals, .hand i id, .dropWrite i id]
  | .finished previousJson startedAt id result _ =>
    [.begin i s.runId tag value previousJson startedAt refusals, .hand i id,
      .finish i id (accepted result) now (finalStatus result).2 refusals]

/-- The database answers the intent in this way. -/
def StoredIn (d : Db) (refusals : List Bool) : WriteEnd → Prop
  | .refused => True
  | .unrecorded previousJson startedAt _ =>
    answer (LiveMutationStepRow.begin (newStep encode s tag value previousJson startedAt)) d
      refusals = none
  | .dropped previousJson startedAt id | .finished previousJson startedAt id _ _ =>
    ∃ row, answer (LiveMutationStepRow.begin (newStep encode s tag value previousJson startedAt)) d
      refusals = some row ∧ row.id = id

/-- The write was forwarded. -/
def Forwards : WriteEnd → Prop
  | .refused | .unrecorded .. => False
  | .dropped .. | .finished .. => True

end WriteEnd

/-- **Every call of `AuditedDriver::write` ends in one of these ways.** -/
theorem write_ends (s : GuardSys) (tag : String) (value : TagWrite) :
    wp (write encode tag value)
      (fun _ s' => ∃ e : WriteEnd, s'.log = s.log ++ e.log encode s tag value)
      (fun _ s' => ∃ e : WriteEnd, s'.log = s.log ++ e.log encode s tag value) s := by
  refine wp_bind.mpr ((wp_record _).mpr ?_)
  refine wp_seq (wp_mono (ensureHealthy_spec _) (fun _ _ hs => hs) ?_) ?_
  · rintro _ _ ⟨rfl, _⟩
    exact ⟨.refused, rfl⟩
  · rintro _ _ ⟨rfl, _⟩
    refine wp_bind.mpr ((wp_takePreviousWriteValue _).mpr (wp_bind.mpr (wp_reply.mpr
      (wp_bind.mpr (wp_get.mpr (wp_bind.mpr ((wp_record _).mpr ?_)))))))
    dsimp only [GuardSys.awaited]
    cases (s.replies (s.cursor + 1)).stored with
    | error e => exact ⟨.unrecorded _ _ e, List.append_assoc s.log [_] [_]⟩
    | ok id =>
      refine wp_bind.mpr (wp_reply.mpr (wp_bind.mpr ((wp_record _).mpr ?_)))
      dsimp only [GuardSys.awaited]
      cases (s.replies (s.cursor + 1 + 1)).outcome with
      | none =>
        refine ⟨.dropped (s.previousWriteValues tag).head? (s.replies (s.cursor + 1)).utcNow id, ?_⟩
        simp only [List.append_assoc]
        rfl
      | some result =>
        refine wp_bind.mpr (wp_reply.mpr (wp_bind.mpr ((wp_record _).mpr ?_)))
        dsimp only [GuardSys.awaited]
        match (s.replies (s.cursor + 1 + 1 + 1)).stored, result with
        | .error e, _ => exact ⟨_, WriteEnd.log_finished s tag value _ _ id _ _⟩
        | .ok _, .error e => exact ⟨_, WriteEnd.log_finished s tag value _ _ id _ _⟩
        | .ok _, .ok outcome => exact ⟨_, WriteEnd.log_finished s tag value _ _ id _ _⟩

namespace WriteEnd

section Fleets

variable {encode} {s : GuardSys} {tag : String} {value : TagWrite} {fleet : Fleet} {i : ℕ}
variable {guard : HeldGuard} {refusals : List Bool}

/-- A guard records the intent of a write, and has it in flight. -/
theorem fleet_begin (hparty : fleet.parties i = .guarding guard)
    (howner : guard.ownerId = s.ownerId) (healthy : guard.heartbeatFailed = false)
    (previousJson : Option String) (startedAt : UtcTime) :
    ∃ fleet', FleetStep encode fleet
      (.begin i s.runId tag value previousJson startedAt refusals) fleet' ∧
      ∀ row, answer (LiveMutationStepRow.begin (newStep encode s tag value previousJson startedAt))
          fleet.live.db refusals = some row →
        ∃ guard', fleet'.parties i = .guarding guard' ∧ guard'.inFlight row.id false = true := by
  have hintent : Fleet.intent encode guard s.runId tag value previousJson startedAt =
      newStep encode s tag value previousJson startedAt := by
    unfold Fleet.intent newStep
    rw [howner]
  unfold FleetStep stepOf
  simp only [Fleet.step, Fleet.actor, hparty, Fleet.guardStep, healthy, hintent]
  cases hanswer : answer (LiveMutationStepRow.begin (newStep encode s tag value previousJson
      startedAt)) fleet.live.db refusals with
  | none => exact ⟨_, rfl, fun row hrow => by cases hrow⟩
  | some row =>
    refine ⟨_, rfl, ?_⟩
    rintro _ ⟨⟩
    exact ⟨_, if_pos rfl, by simp [HeldGuard.inFlight]⟩

/-- A write in flight is given to the inner driver. -/
theorem fleet_hand {id : ℕ} (hparty : fleet.parties i = .guarding guard)
    (hflight : guard.inFlight id false = true) :
    FleetStep encode fleet (.hand i id) (fleet.move i (.guarding (guard.hand id))) := by
  unfold FleetStep stepOf
  simp only [Fleet.step, Fleet.actor, hparty, Fleet.guardStep]
  exact if_pos hflight

/-- It may be dropped. -/
theorem fleet_dropWrite (hparty : fleet.parties i = .guarding guard) (id : ℕ) :
    ∃ fleet', FleetStep encode fleet (.dropWrite i id) fleet' := by
  unfold FleetStep stepOf
  simp only [Fleet.step, Fleet.actor, hparty, Fleet.guardStep]
  exact ⟨_, rfl⟩

/-- Its step is finished. -/
theorem fleet_finish {id : ℕ} (hparty : fleet.parties i = .guarding guard)
    (hflight : guard.inFlight id true = true) (taken : Bool) (now : UtcTime) (detail : String) :
    ∃ fleet', FleetStep encode fleet (.finish i id taken now detail refusals) fleet' := by
  unfold FleetStep stepOf
  simp only [Fleet.step, Fleet.actor, hparty, Fleet.guardStep]
  exact ⟨_, if_pos hflight⟩

theorem inFlight_hand {id : ℕ} (hflight : guard.inFlight id false = true) :
    (guard.hand id).inFlight id true = true := by
  unfold HeldGuard.inFlight HeldGuard.hand at *
  simp only [List.any_eq_true, List.mem_map, Bool.and_eq_true, decide_eq_true_eq] at *
  obtain ⟨w, hw, hid, _⟩ := hflight
  exact ⟨_, ⟨w, hw, rfl⟩, by rw [if_pos hid]; exact ⟨hid, rfl⟩⟩

/-- **A write is a run of the fleet**: the party that holds the guard takes its actions one after
the other. -/
theorem fleet_run (e : WriteEnd) (hparty : fleet.parties i = .guarding guard)
    (howner : guard.ownerId = s.ownerId) (healthy : guard.heartbeatFailed = false)
    (hstored : e.StoredIn encode s tag value fleet.live.db refusals) (now : UtcTime) :
    ∃ fleet', Run (FleetStep encode) fleet (e.actions s tag value i now refusals) fleet' := by
  have hbegin := fun previousJson startedAt => @fleet_begin encode s tag value fleet i guard
    refusals hparty howner healthy previousJson startedAt
  cases e with
  | refused => exact ⟨fleet, .nil _⟩
  | unrecorded previousJson startedAt e =>
    obtain ⟨fleet', hstep, _⟩ := hbegin previousJson startedAt
    exact ⟨fleet', .cons hstep (.nil _)⟩
  | dropped previousJson startedAt id =>
    obtain ⟨row, hrow, rfl⟩ := hstored
    obtain ⟨fleet₁, hstep, hflight⟩ := hbegin previousJson startedAt
    obtain ⟨guard₁, hparty₁, hflight₁⟩ := hflight row hrow
    obtain ⟨fleet₂, hdrop⟩ := @fleet_dropWrite encode
      (fleet₁.move i (.guarding (guard₁.hand row.id))) i _ (if_pos rfl) row.id
    exact ⟨fleet₂, .cons hstep (.cons (fleet_hand hparty₁ hflight₁) (.cons hdrop (.nil _)))⟩
  | finished previousJson startedAt id result stored =>
    obtain ⟨row, hrow, rfl⟩ := hstored
    obtain ⟨fleet₁, hstep, hflight⟩ := hbegin previousJson startedAt
    obtain ⟨guard₁, hparty₁, hflight₁⟩ := hflight row hrow
    obtain ⟨fleet₂, hfinish⟩ := @fleet_finish encode
      (fleet₁.move i (.guarding (guard₁.hand row.id))) i _ refusals row.id (if_pos rfl)
      (inFlight_hand hflight₁) (accepted result) now (finalStatus result).2
    exact ⟨fleet₂, .cons hstep (.cons (fleet_hand hparty₁ hflight₁) (.cons hfinish (.nil _)))⟩

end Fleets

section Runs

variable {encode} {s : GuardSys} {tag : String} {value : TagWrite} {r : AuditedRun}
variable {refusals : List Bool}

/-- **A write is a part of an audited run**, which has handed it over exactly when it was
forwarded. -/
theorem audited_run (e : WriteEnd) {runId : ℕ} (hrun : s.runId = some runId) {call : WriteCall}
    {rest : List Event} (htodo : r.todo = .write call :: rest) (hflight : r.flight = none)
    (htag : call.tag = tag) (hvalue : call.value = value)
    (hstored : e.StoredIn encode s tag value r.live.db refusals) :
    ∃ r', Relation.ReflTransGen (AuditedRun.Step encode s.ownerId runId) r r' ∧
      r'.todo = rest ∧ r'.flight = none ∧
      (e.Forwards → r'.handed = call :: r.handed) ∧ (¬e.Forwards → r'.handed = r.handed) := by
  subst htag hvalue
  have hintent : ∀ previousJson startedAt,
      newStep encode s call.tag call.value previousJson startedAt =
        auditIntent encode s.ownerId runId call previousJson startedAt := by
    intro previousJson startedAt
    unfold newStep auditIntent Fleet.intent
    rw [hrun]
  have hbegun : ∀ previousJson startedAt row,
      answer (LiveMutationStepRow.begin (newStep encode s call.tag call.value previousJson
        startedAt)) r.live.db refusals = some row →
      ∃ r', Relation.ReflTransGen (AuditedRun.Step encode s.ownerId runId) r r' ∧
        r'.todo = r.todo ∧ r'.flight = some (row.id, true) ∧ r'.handed = call :: r.handed := by
    intro previousJson startedAt row hrow
    rw [hintent] at hrow
    have hbegin := AuditedRun.Step.begun previousJson startedAt refusals htodo hflight hrow
    refine ⟨_, (Relation.ReflTransGen.single hbegin).tail (.handed htodo rfl), rfl, rfl, rfl⟩
  cases e with
  | refused =>
    exact ⟨_, .single (.passed htodo hflight), rfl, hflight, fun h => h.elim, fun _ => rfl⟩
  | unrecorded previousJson startedAt e =>
    exact ⟨_, .single (.passed htodo hflight), rfl, hflight, fun h => h.elim, fun _ => rfl⟩
  | dropped previousJson startedAt id =>
    obtain ⟨row, hrow, rfl⟩ := hstored
    obtain ⟨r', hsteps, htodo', hflight', hhanded⟩ := hbegun previousJson startedAt row hrow
    exact ⟨_, hsteps.tail (.dropped (htodo'.trans htodo) hflight'), rfl, rfl, fun _ => hhanded,
      fun h => absurd trivial h⟩
  | finished previousJson startedAt id result stored =>
    obtain ⟨row, hrow, rfl⟩ := hstored
    obtain ⟨r', hsteps, htodo', hflight', hhanded⟩ := hbegun previousJson startedAt row hrow
    exact ⟨_, hsteps.tail (.finished (accepted result) 0 (finalStatus result).2 refusals
      (htodo'.trans htodo) hflight'), rfl, rfl, fun _ => hhanded, fun h => absurd trivial h⟩

end Runs
end WriteEnd

end OtherModels

end AuditedDriver

end Bhtune
