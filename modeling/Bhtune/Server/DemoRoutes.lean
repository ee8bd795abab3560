import Bhtune.Core.Tags
import Bhtune.Db.DemoSessions
import Bhtune.Library.SharedPrograms
import Bhtune.Server.OriginCheck
import Bhtune.Server.StartQuota

/-!
# The routes of a Demo server

Visitors of a Demo server are told apart by the token of a cookie.  Each request is a program over
one database and one server; other requests, the tunes and the periodic cleanup go on between any
two of its operations, and it may be dropped at any of them.

* `cookieToken`, `parsedTokenHash` — who a request comes from;
* `listRuns` … `startRun` — the handlers;
* `DemoOp`, `demoExec` — what they are made of;
* `demoParties` — all requests, the tunes, the cleanup and the restarts together.
-/

namespace Bhtune

open SharedPrograms

/-! ### Requests and answers -/

/-- The limits of a Demo server, with those of its quota. -/
structure DemoLimits extends DemoPolicy where
  sessionTtlSecs : ℕ
  runTimeoutSecs : ℕ
  maxActiveRunsPerVisitor : ℕ
  retainedRunsPerVisitor : ℕ
  maxRunsPerSession : ℕ
  maxTuneRunRowsGlobal : ℕ
  sseLifetimeSecs : ℕ
  ordinaryRequestTimeoutSecs : ℕ
  cleanupIntervalSecs : ℕ

/-- `ApiError`. -/
inductive ApiError where
  | notFound (message : Text)
  | badRequest (message : Text)
  | unauthorized (message : Text)
  | conflict (message : Text)
  | tooManyRequests (message : Text) (retryAfterSecs : ℕ)
  | globalCapacity (message : Text) (retryAfterSecs : ℕ)
  | internal
  deriving DecidableEq

/-- `RunListQuery`; the filter is what `filter_from_query` makes of it. -/
structure RunListQuery where
  filter : TuneRunFilter
  limit : Option ℤ
  offset : Option ℤ

/-- A request. -/
inductive DemoRequest where
  | listRuns (query : RunListQuery)
  | lastRequest
  | getRun (runId : ℕ)
  /-- `polls` is how often the stream polls at most before its client is gone. -/
  | streamRun (runId polls : ℕ)
  | cancelRun (runId : ℕ)
  | deleteRun (runId : ℕ)
  | exportRun (runId : ℕ)
  /-- With what `parse_demo_request` and the validation make of the body. -/
  | startRun (valid : Except Text Unit)

variable {κ : Type}

/-- What a visitor is sent: a response, or one event of a stream. -/
inductive DemoEvent (κ : Type) where
  | runs (page : List TuneRunRow) (total : ℕ)
  | lastRequest (run : Option TuneRunRow)
  | detail (run : TuneRunRow) (samples results writes mvActuations : List (RunChild κ))
  | exported (samples : List (RunChild κ))
  | noContent
  | initial (run : TuneRunRow)
  | sample (row : RunChild κ)
  | done (run : TuneRunRow)
  | streamError (message : String)
  | refused (e : ApiError)

/-- The runs whose data it holds. -/
def DemoEvent.about : DemoEvent κ → List ℕ
  | .runs page _ => page.map TuneRunRow.id
  | .lastRequest run => run.toList.map TuneRunRow.id
  | .detail run samples results writes mvActuations =>
    run.id :: (samples ++ results ++ writes ++ mvActuations).map RunChild.runId
  | .exported samples => samples.map RunChild.runId
  | .initial run | .done run => [run.id]
  | .sample row => [row.runId]
  | .noContent | .streamError _ | .refused _ => []

/-! ### Cookies -/

/-- `DEMO_COOKIE_NAME`. -/
def demoCookieName : String := "__Host-bhtune_demo_session"

/-- `valid_token`. -/
def validToken (token : String) : Bool :=
  token.utf8ByteSize = 64 && token.toList.all fun c => c ∈ "0123456789abcdef".toList

/-- One part of a cookie header, between semicolons. -/
def cookiePart (found : Option String) (part : String) : Except Unit (Option String) :=
  match splitOnce ['='] (trimmed part).toList with
  | none => .ok found
  | some (name, value) =>
    if String.ofList name ≠ demoCookieName then .ok found
    else if found.isSome || !validToken (String.ofList value) then .error ()
    else .ok (some (String.ofList value))

/-- `cookie_token`, of the cookie headers; one that is not text is `none`. -/
def cookieToken (cookies : List (Option String)) : Except Unit (Option String) :=
  cookies.foldlM (fun found header =>
    match header with
    | none => .error ()
    | some value => ((value.toList.splitOn ';').map String.ofList).foldlM cookiePart found) none

/-- `parsed_token_hash`; `hash` is `token_hash`. -/
def parsedTokenHash (hash : String → String) (cookies : List (Option String)) :
    Except ApiError String :=
  match cookieToken cookies with
  | .error () => .error (.unauthorized (text "invalid demo session cookie"))
  | .ok none => .error (.unauthorized (text "a demo session cookie is required"))
  | .ok (some token) => .ok (hash token)

/-! ### Operations -/

/-- What `prepare_owned` works out before it starts a run. -/
structure RunPlan where
  config : LoopConfig ℚ
  templateOrigin : TemplateOrigin
  template : DcsTemplate
  tags : LoopTags
  tuning : EffectiveTuning
  allowUncertainQuality : Bool

/-- An operation of a request.  The answers of those that only look at the outside, such as a permit
that may be granted, are free. -/
inductive DemoOp (κ : Type) : Type → Type 1
  | db {β : Type} (f : DemoStatement κ β) : DemoOp κ (Except DemoDbError β)
  | startRun (new : NewTuneRun) : DemoOp κ (Except DemoDbError TuneRunRow)
  | now : DemoOp κ UtcTime
  | permit : DemoOp κ Bool
  | lockStartAdmission : DemoOp κ Unit
  | reserveAcceptedStart : DemoOp κ (Except ℕ Unit)
  | releaseAcceptedStart : DemoOp κ Unit
  | configSnapshot : DemoOp κ Bool
  | plan : DemoOp κ (Except String RunPlan)
  | driverSetup : DemoOp κ (Except String Unit)
  | activeStart (runId : ℕ) : DemoOp κ Bool
  | activeCancel (runId : ℕ) : DemoOp κ Bool
  | deadline : DemoOp κ Bool
  | send (event : DemoEvent κ) : DemoOp κ Unit

abbrev DemoProg (κ : Type) := Prog (DemoOp κ)

/-- A handler: it may end early with an error. -/
abbrev DemoM (κ : Type) := ExceptT ApiError (DemoProg κ)

def ask {β : Type} (o : DemoOp κ β) : DemoM κ β := liftM (Prog.perform o)

def liftExcept {β : Type} (x : Except ApiError β) : DemoM κ β := ExceptT.mk (pure x)

/-- A part of a handler whose error is a value. -/
def caught {β : Type} (x : DemoM κ β) : DemoM κ (Except ApiError β) := liftM x.run

/-- A statement with `?`. -/
def query {β : Type} (f : DemoStatement κ β) : DemoM κ β := do
  match ← ask (.db f) with
  | .ok b => return b
  | .error _ => throw .internal

/-! ### Helpers -/

section Handlers

/-! `presented` is what `parsed_token_hash` makes of the headers of the request. -/

variable (presented : Except ApiError String) (mode : ServerMode) (limits : DemoLimits)

/-- Who a request comes from. -/
structure DemoIdentity where
  tokenHash : String
  persisted : Option DemoSessionRow

/-- `ensure_demo`. -/
def ensureDemo : DemoM κ Unit :=
  if mode = .demo then pure () else throw (.notFound (text "demo mode is not enabled"))

/-- A permit that is granted, or an error. -/
def permitOr (e : ApiError) : DemoM κ Unit := do
  if ← ask .permit then return () else throw e

/-- `ordinary_request_permit`. -/
def ordinaryRequestPermit : DemoM κ Unit :=
  permitOr (.globalCapacity (text "demo request capacity is temporarily exhausted")
    limits.ordinaryRequestTimeoutSecs)

/-- `identify`. -/
def identify : DemoM κ DemoIdentity := do
  let tokenHash ← liftExcept presented
  let now ← ask .now
  let persisted ← query (DemoSessionRow.getByTokenHash tokenHash now)
  return ⟨tokenHash, persisted⟩

def noDemoRun (runId : ℕ) : ApiError := .notFound (text "no demo run with id " ++ [.nat runId])

/-- `owner_id`. -/
def ownerId (identity : DemoIdentity) (runId : ℕ) : Except ApiError ℕ :=
  match identity.persisted with
  | some session => .ok session.id
  | none => .error (noDemoRun runId)

/-- The run, if it belongs to the session. -/
def ownedRun (runId ownerId : ℕ) : DemoM κ TuneRunRow := do
  match ← query (DemoRun.getForDemoSession runId ownerId) with
  | some run => return run
  | none => throw (noDemoRun runId)

/-- `build_owned_run_detail`. -/
def buildOwnedRunDetail (runId ownerId : ℕ) : DemoM κ (Option (DemoEvent κ)) := do
  match ← query (DemoRun.getForDemoSession runId ownerId) with
  | none => return none
  | some run => do
    let samples ← query (DemoRun.listForRun .samples runId)
    let results ← query (DemoRun.listForRun .results runId)
    let writes ← query (DemoRun.listForRun .writes runId)
    let mvActuations ← query (DemoRun.listForRun .mvActuations runId)
    return some (.detail run samples results writes mvActuations)

/-- `trim_owned_history`. -/
def trimOwnedHistory (ownerId : ℕ) : DemoM κ Unit := do
  let _ ← ask (.db (DemoRun.pruneTerminalForDemoSession ownerId limits.retainedRunsPerVisitor))
  return ()

/-- What a request is identified by before it asks for the data of a run. -/
def identifyOwner (runId : ℕ) : DemoM κ ℕ := do
  let identity ← identify presented
  liftExcept (ownerId identity runId)

/-! ### Handlers -/

/-- The page of `list_runs`. -/
def listPage (q : RunListQuery) (ownerId : ℕ) : DemoM κ (DemoEvent κ) := do
  let maxPage := limits.retainedRunsPerVisitor + limits.maxActiveRunsPerVisitor
  let filter := { q.filter with demoSessionId := some ownerId }
  let runs ← query (DemoRun.list filter (min (q.limit.getD maxPage).toNat maxPage)
    (q.offset.getD 0).toNat)
  let total ← query (DemoRun.count filter)
  return .runs runs total

/-- `list_runs`. -/
def listRuns (q : RunListQuery) : DemoM κ (DemoEvent κ) := do
  ensureDemo mode
  ordinaryRequestPermit limits
  let identity ← identify presented
  match identity.persisted with
  | none => return .runs [] 0
  | some session =>
    if q.offset.any (· < 0) || q.limit.any (· < 1) then
      throw (.badRequest (text "demo run pagination requires limit >= 1 and offset >= 0"))
    else listPage limits q session.id

/-- `last_request`. -/
def lastRequest : DemoM κ (DemoEvent κ) := do
  ensureDemo mode
  ordinaryRequestPermit limits
  let identity ← identify presented
  match identity.persisted with
  | none => return .lastRequest none
  | some session => do
    let run ← query (DemoRun.newestForDemoSession session.id)
    return .lastRequest run

/-- `get_run`. -/
def getRun (runId : ℕ) : DemoM κ (DemoEvent κ) := do
  ensureDemo mode
  ordinaryRequestPermit limits
  let ownerId ← identifyOwner presented runId
  match ← buildOwnedRunDetail runId ownerId with
  | some detail => return detail
  | none => throw (noDemoRun runId)

/-- `cancel_run`. -/
def cancelRun (runId : ℕ) : DemoM κ (DemoEvent κ) := do
  ensureDemo mode
  ordinaryRequestPermit limits
  let ownerId ← identifyOwner presented runId
  let run ← ownedRun runId ownerId
  if run.outcome ≠ .running then return .noContent
  else do
    let _ ← ask (.activeCancel runId)
    return .noContent

/-- `delete_run`. -/
def deleteRun (runId : ℕ) : DemoM κ (DemoEvent κ) := do
  ensureDemo mode
  ordinaryRequestPermit limits
  let ownerId ← identifyOwner presented runId
  let run ← ownedRun runId ownerId
  if run.outcome = .running then
    throw (.conflict (text "cancel the demo run before deleting it"))
  else do
    let deleted ← query (DemoRun.deleteForDemoSession runId ownerId)
    if deleted then return .noContent else throw (noDemoRun runId)

/-- `export_run`. -/
def exportRun (runId : ℕ) : DemoM κ (DemoEvent κ) := do
  ensureDemo mode
  ordinaryRequestPermit limits
  let ownerId ← identifyOwner presented runId
  let _ ← ownedRun runId ownerId
  let samples ← query (DemoRun.listForRun .samples runId)
  if samples.isEmpty then
    throw (.notFound (text "demo run " ++ [.nat runId] ++ text " has no samples"))
  else return .exported samples

/-- `stream_run` up to its first event: the session whose run it follows. -/
def openStream (runId : ℕ) : DemoM κ ℕ := do
  ensureDemo mode
  let ownerId ← identifyOwner presented runId
  let _ ← ownedRun runId ownerId
  permitOr (.globalCapacity (text "demo SSE capacity is temporarily exhausted")
    limits.sseLifetimeSecs)
  permitOr (.tooManyRequests (text "demo SSE connection limit exceeded for this visitor")
    limits.sseLifetimeSecs)
  return ownerId

def send (event : DemoEvent κ) : DemoProg κ Unit := .perform (.send event)

def sendSamples : List (RunChild κ) → DemoProg κ Unit
  | [] => pure ()
  | row :: rows => do
    send (.sample row)
    sendSamples rows

def lifetimeExceeded : DemoProg κ Unit := send (.streamError "demo stream lifetime exceeded")

def streamUnavailable : DemoProg κ Unit := send (.streamError "demo stream unavailable")

/-- The first event of a stream, once there are initial readings. -/
def sendInitial (run : TuneRunRow) (sentInitial : Bool) : DemoProg κ Unit :=
  if !sentInitial && run.initialReadings.isSome then send (.initial run) else pure ()

/-- The loop of `stream_run`. -/
def streamLoop (runId ownerId : ℕ) : ℕ → ℤ → Bool → DemoProg κ Unit
  | 0, _, _ => pure ()
  | polls + 1, lastTick, sentInitial => do
    if ← .perform .deadline then lifetimeExceeded
    else
      match ← .perform (.db (DemoRun.getForDemoSession runId ownerId)) with
      | .error _ => streamUnavailable
      | .ok none => send (.streamError "demo run is no longer available")
      | .ok (some run) => do
        sendInitial run sentInitial
        if ← .perform .deadline then lifetimeExceeded
        else
          match ← .perform (.db (DemoRun.listForRunSince runId lastTick)) with
          | .error _ => streamUnavailable
          | .ok samples => do
            sendSamples samples
            if run.terminal then send (.done run)
            else if ← .perform .deadline then lifetimeExceeded
            else
              streamLoop runId ownerId polls ((samples.getLast?.map RunChild.order).getD lastTick)
                (sentInitial || run.initialReadings.isSome)

/-- `stream_run`. -/
def streamRun (runId polls : ℕ) : DemoProg κ Unit := do
  match ← (openStream presented mode limits runId).run with
  | .error e => send (.refused e)
  | .ok ownerId =>
    if limits.sseLifetimeSecs = 0 then lifetimeExceeded
    else streamLoop runId ownerId polls (-1) false

/-! ### Starting a run -/

def DemoDbError.message : DemoDbError → String
  | .rowLimit => "demo tune run row limit reached"
  | .rowNotFound => "no rows returned by a query that expected to return at least one row"
  | .other reason => reason

/-- The updates that `prepare_internal` makes of a new run, up to the first that fails. -/
def recordMetadata (runId : ℕ) (plan : RunPlan) : ExceptT DemoDbError (DemoProg κ) Unit := do
  let _ ← ExceptT.mk (.perform (.db (DemoRun.update runId (.effectiveTuning plan.tuning))))
  let _ ← ExceptT.mk (.perform (.db
    (DemoRun.update runId (.allowUncertainQuality plan.allowUncertainQuality))))
  let _ ← ExceptT.mk (.perform (.db (DemoRun.update runId (.connection none none))))
  let _ ← ExceptT.mk (.perform (.db (DemoRun.updateNotes runId)))
  return ()

def metadata (runId : ℕ) (plan : RunPlan) : DemoM κ (Except DemoDbError Unit) :=
  liftM (recordMetadata (κ := κ) runId plan).run

/-- `finalize_preparation_failure`. -/
def finalizePreparationFailure (runId : ℕ) (reason : String) : DemoM κ Unit := do
  let now ← ask .now
  match ← ask (.db (DemoRun.update runId (.failed now reason))) with
  | .ok _ => return ()
  | .error _ => do
    let _ ← ask (.db (DemoRun.delete runId))
    return ()

/-- `complete_driver_setup` of a simulator run. -/
def completeDriverSetup (runId : ℕ) : DemoM κ Unit := do
  match ← ask .driverSetup with
  | .ok () => return ()
  | .error reason => do
    let now ← ask .now
    let _ ← ask (.db (DemoRun.update runId (.failed now reason)))
    throw .internal

/-- `prepare_owned`, with `prepare_error`: the number of the new run. -/
def prepareOwned (sessionId : ℕ) : DemoM κ ℕ := do
  match ← ask .plan with
  | .error _ => throw .internal
  | .ok plan => do
    let startedAt ← ask .now
    match ← ask (.startRun ⟨some sessionId, none, .simulator, plan.config, plan.templateOrigin,
        plan.template, plan.tags, startedAt⟩) with
    | .error .rowLimit =>
      throw (.globalCapacity (text "demo history capacity is temporarily exhausted")
        limits.cleanupIntervalSecs)
    | .error _ => throw .internal
    | .ok run => do
      match ← metadata run.id plan with
      | .error e => do
        finalizePreparationFailure run.id e.message
        throw .internal
      | .ok () => do
        completeDriverSetup run.id
        return run.id

/-- `ensure_global_run_capacity`. -/
def ensureGlobalRunCapacity : DemoM κ Unit := do
  let current ← query DemoRun.countDemoOwned
  if limits.maxTuneRunRowsGlobal ≤ current then
    throw (.globalCapacity (text "demo history capacity is temporarily exhausted")
      limits.cleanupIntervalSecs)
  else return ()

/-- `DemoSessionRow::get_or_create`. -/
def getOrCreate (tokenHash : String) (now expiresAt : UtcTime) : DemoM κ DemoSessionRow := do
  match ← query (DemoSessionRow.insert tokenHash now expiresAt) with
  | some row => return row
  | none => do
    match ← query (DemoSessionRow.getByTokenHash tokenHash now) with
    | some row => return row
    | none => throw .internal

/-- The session of a start. -/
def startSession (tokenHash : String) (now : UtcTime) : DemoM κ DemoSessionRow := do
  match ← query (DemoSessionRow.getByTokenHash tokenHash now) with
  | some session => return session
  | none => getOrCreate tokenHash now (now + seconds limits.sessionTtlSecs)

/-- The `preparation` of `start_run`: the session and the new run. -/
def prepareStart (tokenHash : String) (now : UtcTime) : DemoM κ (ℕ × ℕ) := do
  let _ ← query (DemoSessionRow.cleanupExpired now)
  let _ ← query (DemoRun.pruneTerminalDemoOwned limits.retainedRunsPerVisitor)
  ensureGlobalRunCapacity limits
  let session ← startSession limits tokenHash now
  trimOwnedHistory limits session.id
  let acceptedRuns ← query (DemoRun.countForDemoSession session.id)
  if limits.maxRunsPerSession ≤ acceptedRuns then
    throw (.tooManyRequests (text "maximum demo runs for this session has been reached")
      limits.acceptedStartWindowSecs)
  else do
    if ← ask .configSnapshot then do
      let runId ← prepareOwned limits session.id
      return (session.id, runId)
    else throw .internal

/-- The end of `start_run`: the task is registered and the run is shown. -/
def scheduleRun (sessionId runId : ℕ) : DemoM κ (DemoEvent κ) := do
  if ← ask (.activeStart runId) then do
    match ← buildOwnedRunDetail runId sessionId with
    | some detail => return detail
    | none => throw .internal
  else do
    ask .releaseAcceptedStart
    let _ ← ask (.db (DemoRun.deleteForDemoSession runId sessionId))
    throw (.globalCapacity (text "demo run could not be scheduled; retry shortly")
      limits.runTimeoutSecs)

/-- `start_run` once it has its permits. -/
def admittedStart (tokenHash : String) : DemoM κ (DemoEvent κ) := do
  let now ← ask .now
  match ← ask .reserveAcceptedStart with
  | .error retryAfterSecs =>
    throw (.tooManyRequests
      (text "demo accepted-start quota exceeded; wait before starting another tune")
      retryAfterSecs)
  | .ok () => do
    match ← caught (prepareStart limits tokenHash now) with
    | .error e => do
      ask .releaseAcceptedStart
      throw e
    | .ok (sessionId, runId) => scheduleRun limits sessionId runId

/-- `start_run`. -/
def startRun (valid : Except Text Unit) : DemoM κ (DemoEvent κ) := do
  ensureDemo mode
  match valid with
  | .error e => throw (.badRequest e)
  | .ok () => do
    ordinaryRequestPermit limits
    let tokenHash ← liftExcept presented
    ask .lockStartAdmission
    permitOr (.globalCapacity (text "demo run capacity is temporarily exhausted")
      limits.runTimeoutSecs)
    permitOr (.tooManyRequests (text "a demo tune is already active for this visitor")
      limits.runTimeoutSecs)
    admittedStart limits tokenHash

/-- A handler that answers with one response. -/
def respond (handler : DemoM κ (DemoEvent κ)) : DemoProg κ Unit := do
  match ← handler.run with
  | .ok response => send response
  | .error e => send (.refused e)

/-- The routes. -/
def serve : DemoRequest → DemoProg κ Unit
  | .listRuns q => respond (listRuns presented mode limits q)
  | .lastRequest => respond (lastRequest presented mode limits)
  | .getRun runId => respond (getRun presented mode limits runId)
  | .streamRun runId polls => streamRun presented mode limits runId polls
  | .cancelRun runId => respond (cancelRun presented mode limits runId)
  | .deleteRun runId => respond (deleteRun presented mode limits runId)
  | .exportRun runId => respond (exportRun presented mode limits runId)
  | .startRun valid => respond (startRun presented mode limits valid)

end Handlers

/-! ### The server -/

/-- A request under way: its number, and the hash of the token it presents. -/
structure Visit where
  number : ℕ
  token : Option String
  deriving DecidableEq

/-- The server: its database, the time, the tunes that run, and who holds the lock of starts.  The
last three fields record which visit's token started a run, which runs were cancelled, and what was
sent to whom. -/
structure DemoServer (κ : Type) where
  db : DemoTables κ
  clock : UtcTime
  active : List ℕ
  admission : Option Visit
  started : List (ℕ × Option String)
  cancelled : List (Visit × ℕ)
  sent : List (Visit × DemoEvent κ)

/-- One operation.  A statement may fail for reasons of its own, and then does nothing. -/
def demoExec (i : Visit) : ∀ {β : Type}, DemoOp κ β → DemoServer κ → β → DemoServer κ → Prop
  | _, .db f, s, r, s' => (∃ e, r = .error e ∧ s' = s) ∨
      ∃ t b, f s.db = .ok (t, b) ∧ r = .ok b ∧ s' = { s with db := t }
  | _, .startRun new, s, r, s' => (∃ e, r = .error e ∧ s' = s) ∨
      ∃ t run, DemoRun.start new s.db = .ok (t, run) ∧ r = .ok run ∧
        s' = { s with db := t, started := (run.id, i.token) :: s.started }
  | _, .now, s, r, s' => r = s.clock ∧ s' = s
  | _, .lockStartAdmission, s, _, s' => s.admission = none ∧ s' = { s with admission := some i }
  | _, .activeStart runId, s, r, s' =>
    s' = if r then { s with active := runId :: s.active } else s
  | _, .activeCancel runId, s, r, s' => r = decide (runId ∈ s.active) ∧
      s' = if r then { s with cancelled := (i, runId) :: s.cancelled } else s
  | _, .send event, s, _, s' => s' = { s with sent := (i, event) :: s.sent }
  | _, .permit, s, _, s' | _, .reserveAcceptedStart, s, _, s' | _, .releaseAcceptedStart, s, _, s'
  | _, .configSnapshot, s, _, s' | _, .plan, s, _, s' | _, .driverSetup, s, _, s'
  | _, .deadline, s, _, s' => s' = s

/-- A request that is gone gives up the lock of starts. -/
def DemoServer.leave (i : Visit) (s : DemoServer κ) : DemoServer κ :=
  { s with admission := if s.admission = some i then none else s.admission }

/-- The server makes a statement of its own. -/
def DemoServer.statement {β : Type} (s : DemoServer κ) (f : DemoStatement κ β) : DemoServer κ :=
  match f s.db with
  | .ok (t, _) => { s with db := t }
  | .error _ => s

/-- What goes on besides the requests: time passes, the tunes of active runs record what they do
and end, and old runs and sessions are cleared away. -/
inductive DemoBackground (limits : DemoLimits) (retentionDays : Option UInt32) (s : DemoServer κ) :
    DemoServer κ → Prop
  | tick {t : UtcTime} (h : s.clock ≤ t) : DemoBackground limits retentionDays s { s with clock := t }
  | record (runId : ℕ) (u : RunUpdate) (hactive : runId ∈ s.active) :
      DemoBackground limits retentionDays s (s.statement (DemoRun.update runId u))
  | children (children : List (RunChild κ)) :
      DemoBackground limits retentionDays s { s with db := { s.db with children } }
  | trim (sessionId : ℕ) :
      DemoBackground limits retentionDays s (s.statement
        (DemoRun.pruneTerminalForDemoSession sessionId limits.retainedRunsPerVisitor))
  | tuneOver (runId : ℕ) :
      DemoBackground limits retentionDays s { s with active := s.active.erase runId }
  | cleanupSessions : DemoBackground limits retentionDays s
      (s.statement (DemoSessionRow.cleanupExpired s.clock))
  | cleanupRuns : DemoBackground limits retentionDays s
      (s.statement (DemoRun.pruneTerminalDemoOwned limits.retainedRunsPerVisitor))
  | sweep (days : UInt32) (h : retentionDays = some days) :
      DemoBackground limits retentionDays s (s.statement
        (DemoRun.deleteMatching { startedBefore := some (cutoffFor days s.clock) }))

/-- What a new process starts with: no tune runs, and the lock of starts is free. -/
def DemoServer.restarted (s : DemoServer κ) : DemoServer κ := { s with active := [], admission := none }

/-- The process ends, or is killed, and a new one starts: it fails the runs whose tunes are lost.
The other statements of a start are those of the background. -/
inductive DemoRestart (s : DemoServer κ) : DemoServer κ → Prop
  | ended : DemoRestart s s.restarted
  | recovered : DemoRestart s
      (s.restarted.statement (DemoSessionRow.recoverRunningDemoRuns s.clock))

/-- A Demo server with all its visitors. -/
def demoParties (κ : Type) (hash : String → String) (mode : ServerMode) (limits : DemoLimits)
    (retentionDays : Option UInt32) : Parties (DemoOp κ) (DemoServer κ) Visit where
  exec := demoExec
  starts i p := ∃ cookies request, i.token = (parsedTokenHash hash cookies).toOption ∧
    p = serve (parsedTokenHash hash cookies) mode limits request
  leave := DemoServer.leave
  besides := DemoBackground limits retentionDays
  restart := DemoRestart

end Bhtune
