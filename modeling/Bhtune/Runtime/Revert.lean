import Mathlib.Data.List.Sort
import Bhtune.Db.Rows
import Bhtune.Library.ActionRun
import Bhtune.Library.RankedRows
import Bhtune.Runtime.PidWrites

/-!
# PID reverts among PID writes

`revert_run_with_progress` reads the run and its rows of `tune_writes`, chooses what to put back,
and only then acquires the live ownership under which it writes.  Several processes do this on one
database; their guarded sections exclude each other, the reads before them do not.

* `planRevert` — what a revert chooses from the rows it listed;
* `RevertSystem` — processes that revert and write, each driver call and statement a step;
* `RevertsLatest` — what a revert writes is what the latest write replaced;
* `Overtakes` — a write is recorded between the choice and the ownership of a revert;
* `reverts_latest` — the law holds of every run in which that does not happen, and of no other.
-/

namespace Bhtune

open ActionRun Effect RankedRows

/-! ### What a revert chooses -/

/-- A row of `tune_writes`. -/
structure TuneWriteRow where
  id : ℕ
  runId : ℕ
  write : NewTuneWrite
  deriving DecidableEq

/-- `list_for_run`: oldest first. -/
def listForRun (writes : List TuneWriteRow) (runId : ℕ) : List TuneWriteRow :=
  (writes.filter fun row => row.runId = runId).insertionSort
    fun a b => a.write.writtenAt ≤ b.write.writtenAt

/-- `RevertRequest`. -/
structure RevertRequest where
  runId : ℕ
  bridgeHost : Option String := none
  server : Option String := none
  confirmed : Bool := true

/-- `RevertRunError`. -/
inductive RevertRunError where
  | invalid (error : Text)
  | connection (error : Text)
  | gateway (error : Text)
  | persistence (error : Text)

/-- The last `Write` of a list of rows. -/
def latestWrite (rows : List TuneWriteRow) : Option TuneWriteRow :=
  rows.reverse.find? fun row => row.write.kind = .write

/-- The values that the last `Write` of a list of rows found. -/
def latestPrevious (rows : List TuneWriteRow) : Option WriteReadback :=
  (latestWrite rows).bind fun row => row.write.previous

/-- A recorded part of the connection of a run. -/
def requireRecorded (run : TuneRunRow) (recorded : Option String) (what which : String) :
    Except Text String :=
  match recorded with
  | some value => .ok value
  | none => .error (text "run " ++ [.nat run.id] ++ text ("'s recorded " ++ what ++
      " is missing; refusing to guess which " ++ which ++ " to revert against"))

/-- A flag that names another part than the recorded one is refused. -/
def crossCheck (run : TuneRunRow) (given : Option String) (recorded flag what refusal : String) :
    Except Text Unit :=
  match given with
  | none => .ok ()
  | some value =>
    if value = recorded then .ok ()
    else .error (text (flag ++ " " ++ value.quote ++ " contradicts run ") ++ [.nat run.id] ++
      text ("'s recorded " ++ what ++ " " ++ recorded.quote ++ "; refusing to revert " ++ refusal ++
        " than the run actually used -- omit " ++ flag ++ " to use the recorded value"))

/-- `resolve_revert_connection`. -/
def resolveRevertConnection (run : TuneRunRow) (bridgeHostFlag serverFlag : Option String) :
    Except Text (String × String) := do
  let server ← requireRecorded run run.opcServer "OPC server" "server"
  let bridgeHost ← requireRecorded run run.bridgeHost "bridge host" "gateway"
  crossCheck run serverFlag server "--server" "OPC server" "against a different server"
  crossCheck run bridgeHostFlag bridgeHost "--bridge-host" "bridge host"
    "through a different gateway"
  return (bridgeHost, server)

/-- What a revert will do once it owns the loop. -/
structure RevertPlan where
  runId : ℕ
  pTag : String
  iTag : String
  dTag : String
  responseLevel : ResponseLevel
  target : WriteReadback
  bridgeHost : String
  server : String

/-- The last write-back of a run, with the values it found. -/
def recordedWrite (runId : ℕ) (rows : List TuneWriteRow) :
    Except Text (ResponseLevel × WriteReadback) :=
  match latestWrite rows with
  | none => .error (text "run " ++ [.nat runId] ++
      text " has no recorded PID write-back to revert")
  | some row =>
    match row.write.previous with
    | none => .error (text "run " ++ [.nat runId] ++ text ("'s " ++
        row.write.responseLevel.debug ++ " PID write-back never recorded pre-write values (its " ++
        "pre-read failed at the time); nothing to revert to"))
    | some previous => .ok (row.write.responseLevel, previous)

/-- The tags of the three constants. -/
def revertTags (run : TuneRunRow) : Except Text (String × String × String) :=
  match run.tags.proportionalConstant, run.tags.integralConstant, run.tags.derivativeConstant with
  | some pTag, some iTag, some dTag => .ok (pTag, iTag, dTag)
  | _, _, _ => .error (text "run " ++ [.nat run.id] ++
      text "'s snapshotted tags have no PID constant tags configured")

/-- A revert has to be confirmed. -/
def requireConfirmed (request : RevertRequest) : Except Text Unit :=
  if request.confirmed then .ok ()
  else .error (text "reverting writes PID constants back to a live loop; pass --yes to confirm")

/-- The part of `revert_run_with_progress` between its list of writes and its ownership. -/
def planRevert (request : RevertRequest) (run : TuneRunRow) (rows : List TuneWriteRow) :
    Except Text RevertPlan := do
  let (responseLevel, target) ← recordedWrite run.id rows
  requireConfirmed request
  let (pTag, iTag, dTag) ← revertTags run
  let (bridgeHost, server) ← resolveRevertConnection run request.bridgeHost request.server
  return ⟨run.id, pTag, iTag, dTag, responseLevel, target, bridgeHost, server⟩

/-- The write of a plan. -/
def RevertPlan.request (plan : RevertPlan) (allowUncertain : Bool) : PidWriteRequest where
  pTag := plan.pTag
  iTag := plan.iTag
  dTag := plan.dTag
  responseLevel := plan.responseLevel
  target := plan.target
  kind := .revert
  allowUncertain := allowUncertain

/-- A plan puts back what the latest write of its list found. -/
theorem target_of_planRevert {request : RevertRequest} {run : TuneRunRow}
    {rows : List TuneWriteRow} {plan : RevertPlan} (h : planRevert request run rows = .ok plan) :
    plan.runId = run.id ∧ latestPrevious rows = some plan.target := by
  unfold planRevert at h
  cases hrecorded : recordedWrite run.id rows with
  | error e =>
    rw [hrecorded] at h
    cases h
  | ok found =>
    obtain ⟨responseLevel, target⟩ := found
    have hlatest : latestPrevious rows = some target := by
      unfold recordedWrite at hrecorded
      unfold latestPrevious
      cases hrow : latestWrite rows with
      | none =>
        rw [hrow] at hrecorded
        cases hrecorded
      | some row =>
        rw [hrow] at hrecorded
        dsimp only at hrecorded
        cases hprevious : row.write.previous with
        | none =>
          rw [hprevious] at hrecorded
          cases hrecorded
        | some previous =>
          rw [hprevious] at hrecorded
          cases hrecorded
          exact hprevious
    rw [hrecorded] at h
    cases hconfirmed : requireConfirmed request with
    | error e =>
      rw [hconfirmed] at h
      cases h
    | ok _ =>
      rw [hconfirmed] at h
      cases htags : revertTags run with
      | error e =>
        rw [htags] at h
        cases h
      | ok tags =>
        rw [htags] at h
        cases hconnection : resolveRevertConnection run request.bridgeHost request.server with
        | error e =>
          rw [hconnection] at h
          cases h
        | ok connection =>
          rw [hconnection] at h
          cases h
          exact ⟨rfl, hlatest⟩

/-! ### The guarded section -/

/-- The values of a request under their tags, as they are written. -/
def PidWriteRequest.targets (request : PidWriteRequest) : List (String × TagWrite) :=
  [(request.pTag, .float request.target.proportional),
    (request.iTag, .float request.target.integral),
    (request.dTag, .float request.target.derivative)]

/-- A write sends one of the values of a request to its tag. -/
def Event.WritesTarget (request : PidWriteRequest) : Event → Prop
  | .write call => (call.tag, call.value) ∈ request.targets
  | _ => True

/-- What the section does to the driver and the database, in an outside of its own. -/
def sectionLog (request : PidWriteRequest) (runId : ℕ) (outside : Environment) : List Event :=
  match request.perform runId ⟨some runId⟩ (flowSys outside) with
  | .ok _ s => s.trace
  | .error _ s => s.trace

/-- A revert writes nothing but its target: it takes no failure back. -/
theorem keeps_perform_revert {request : PidWriteRequest} (hkind : request.kind = .revert)
    (runId : ℕ) (ownership : LiveOperationGuard) :
    Keeps (within (Event.WritesTarget request) fun _ => ()) (request.perform runId ownership) := by
  have hread : ∀ call, Event.WritesTarget request (.read call) := fun _ => trivial
  have hdb : ∀ op, Keeps (within (Event.WritesTarget request) fun _ => ()) (runStatement op) :=
    fun op => keeps_runStatement fun _ => trivial
  have hsteps : ∀ (steps : List PidStep) (done : List (PidStep × ℚ)),
      (∀ step ∈ steps, (step.tag, .float step.value) ∈ request.targets) →
      Keeps (within (Event.WritesTarget request) fun _ => ())
        (writePidSteps request.allowUncertain done steps) := by
    intro steps
    induction steps with
    | nil => exact fun _ _ => .pure _
    | cons step rest ih =>
      intro done htargets
      have hstep : Keeps (within (Event.WritesTarget request) fun _ => ())
          (writeAndVerifyPidValue step request.allowUncertain) := by
        refine (keeps_tryErr (keeps_driverWrite fun _ _ _ =>
          htargets step List.mem_cons_self)).bind fun r => ?_
        cases r with
        | error e => exact .pure _
        | ok _ =>
          refine (keeps_tryErr (keeps_readF32 hread _ _)).bind fun r => ?_
          cases r with
          | error e => exact .pure _
          | ok readback =>
            dsimp only
            split <;> exact .pure _
      refine hstep.bind fun r => ?_
      cases r with
      | error e => exact .pure _
      | ok readback => exact ih _ fun s hs => htargets s (List.mem_cons_of_mem _ hs)
  unfold PidWriteRequest.perform writePidValuesInner
  refine keeps_ensureHealthy.bind fun _ => ?_
  split
  · exact keeps_bail _
  · refine keeps_utcNow.bind fun writtenAt =>
      (keeps_tryErr (keeps_readPreviousPidValues hread _ _ _ _)).bind fun r => ?_
    cases r with
    | error e => exact (hdb _).bind fun _ => .pure _
    | ok previous =>
      refine ((hdb _).bind fun _ => keeps_ensureHealthy.bind fun _ => hdb _).bind fun _ =>
        (hsteps _ _ ?_).bind fun result => ?_
      · intro step hstep
        simp only [List.mem_cons, List.not_mem_nil, or_false] at hstep
        rcases hstep with rfl | rfl | rfl <;> simp [PidWriteRequest.targets]
      · obtain ⟨done, failure⟩ := result
        cases failure with
        | none => exact (hdb _).bind fun _ => .pure _
        | some failed =>
          dsimp only
          unfold failPidWrite
          rw [if_pos (.inl (by rw [hkind]; decide))]
          exact (hdb _).bind fun _ => .pure _

theorem writesTarget_sectionLog {request : PidWriteRequest} (hkind : request.kind = .revert)
    (runId : ℕ) (outside : Environment) :
    ∀ e ∈ sectionLog request runId outside, e.WritesTarget request := by
  have hkeeps := keeps_perform_revert hkind runId ⟨some runId⟩
  unfold sectionLog
  cases hrun : request.perform runId ⟨some runId⟩ (flowSys outside) with
  | ok outcome s =>
    obtain ⟨⟨new, htrace, hnew⟩, _⟩ := hkeeps.rel_of_ok hrun
    dsimp only
    rw [htrace]
    exact hnew
  | error f s =>
    obtain ⟨⟨new, htrace, hnew⟩, _⟩ := hkeeps.rel_of_error hrun
    dsimp only
    rw [htrace]
    exact hnew

/-! ### Several processes -/

/-- What a process holds while it owns the loop: its request, and what it still has to do. -/
structure GuardedSection where
  runId : ℕ
  request : PidWriteRequest
  pending : List Event

/-- Where a process is. -/
inductive PidPhase where
  | idle
  /-- A revert that has read its run. -/
  | looked (request : RevertRequest) (allowUncertain : Bool) (run : TuneRunRow)
  /-- A revert that has listed the writes, and chosen. -/
  | chosen (rows : List TuneWriteRow) (plan : RevertPlan) (allowUncertain : Bool)
  | owning (guarded : GuardedSection)

/-- The writes on record, the process that holds the lock and the claim, and where each is. -/
structure RevertSystem where
  writes : List TuneWriteRow
  nextWrite : ℕ
  holder : Option ℕ := none
  phase : ℕ → PidPhase := fun _ => .idle

namespace RevertSystem

/-- A process goes on. -/
def move (s : RevertSystem) (process : ℕ) (phase : PidPhase) : RevertSystem :=
  { s with phase := fun q => if q = process then phase else s.phase q }

/-- A process asks for the ownership; while another holds it, it is refused. -/
def acquire (s : RevertSystem) (process : ℕ) (guarded : GuardedSection) : RevertSystem :=
  match s.holder with
  | some _ => s.move process .idle
  | none => { s.move process (.owning guarded) with holder := some process }

/-- What an event of a guarded section leaves in the database. -/
def record (s : RevertSystem) (runId : ℕ) : Event → RevertSystem
  | .db (.insertWrite row) (.ok _) =>
    { s with
      writes := s.writes ++ [⟨s.nextWrite, runId, row⟩]
      nextWrite := s.nextWrite + 1 }
  | _ => s

end RevertSystem

/-- What a process does next. -/
inductive RevertAction where
  /-- A revert reads its run. -/
  | look (process : ℕ) (request : RevertRequest) (allowUncertain : Bool)
  /-- It lists the writes of the run, and chooses. -/
  | list (process : ℕ)
  /-- It asks for the ownership; `outside` answers its driver calls and statements. -/
  | acquire (process : ℕ) (outside : Environment)
  /-- A PID write asks for the ownership. -/
  | write (process runId : ℕ) (request : PidWriteRequest) (outside : Environment)
  /-- The next driver call or statement of a guarded section. -/
  | act (process : ℕ)
  /-- The process gives up, ends or dies; the lock it holds is free. -/
  | stop (process : ℕ)

/-- The state after an action, where it can be taken; `runs` are the recorded runs. -/
def RevertSystem.step (runs : ℕ → Option TuneRunRow) (s : RevertSystem) :
    RevertAction → Option RevertSystem
  | .look process request allowUncertain =>
    match s.phase process with
    | .idle =>
      match runs request.runId with
      | some run =>
        if run.driver = .opcda then some (s.move process (.looked request allowUncertain run))
        else some s
      | none => some s
    | _ => none
  | .list process =>
    match s.phase process with
    | .looked request allowUncertain run =>
      let rows := listForRun s.writes run.id
      match planRevert request run rows with
      | .ok plan => some (s.move process (.chosen rows plan allowUncertain))
      | .error _ => some (s.move process .idle)
    | _ => none
  | .acquire process outside =>
    match s.phase process with
    | .chosen _ plan allowUncertain =>
      let request := plan.request allowUncertain
      some (s.acquire process ⟨plan.runId, request, sectionLog request plan.runId outside⟩)
    | _ => none
  | .write process runId request outside =>
    match s.phase process with
    | .idle =>
      if request.kind = .write then
        some (s.acquire process ⟨runId, request, sectionLog request runId outside⟩)
      else none
    | _ => none
  | .act process =>
    match s.phase process with
    | .owning guarded =>
      match guarded.pending with
      | [] => none
      | e :: rest => some ((s.record guarded.runId e).move process
          (.owning { guarded with pending := rest }))
    | _ => none
  | .stop process =>
    some { s.move process .idle with
      holder := if s.holder = some process then none else s.holder }

/-- The step relation of the recorded runs. -/
abbrev RevertStep (runs : ℕ → Option TuneRunRow) :
    RevertSystem → RevertAction → RevertSystem → Prop := stepOf (RevertSystem.step runs)

/-- A database with some writes on record, and no process at work. -/
def RevertSystem.start (writes : List TuneWriteRow) (nextWrite : ℕ) : RevertSystem where
  writes := writes
  nextWrite := nextWrite

/-! ### The invariant -/

/-- A chosen plan has the values of the list it was chosen from; an owner that reverts has only
its target left to write. -/
structure RevertInv (s : RevertSystem) : Prop where
  chosen : ∀ process rows plan allowUncertain,
    s.phase process = .chosen rows plan allowUncertain → latestPrevious rows = some plan.target
  owning : ∀ process guarded, s.phase process = .owning guarded →
    guarded.request.kind = .revert → ∀ e ∈ guarded.pending, e.WritesTarget guarded.request

variable {runs : ℕ → Option TuneRunRow} {s s' : RevertSystem} {a : RevertAction}

theorem revertInv_start (writes : List TuneWriteRow) (nextWrite : ℕ) :
    RevertInv (.start writes nextWrite) where
  chosen := nofun
  owning := nofun

/-- A process may go on to any phase that is in order. -/
theorem RevertInv.move (inv : RevertInv s) (process : ℕ) {phase : PidPhase}
    (hchosen : ∀ rows plan allowUncertain, phase = .chosen rows plan allowUncertain →
      latestPrevious rows = some plan.target)
    (howning : ∀ guarded, phase = .owning guarded → guarded.request.kind = .revert →
      ∀ e ∈ guarded.pending, e.WritesTarget guarded.request) :
    RevertInv (s.move process phase) := by
  constructor
  · intro q rows plan allowUncertain hq
    unfold RevertSystem.move at hq
    dsimp only at hq
    split at hq
    · exact hchosen rows plan allowUncertain hq
    · exact inv.chosen q rows plan allowUncertain hq
  · intro q guarded hq
    unfold RevertSystem.move at hq
    dsimp only at hq
    split at hq
    · exact howning guarded hq
    · exact inv.owning q guarded hq

/-- Only the phases matter. -/
theorem RevertInv.of_phase (inv : RevertInv s) (h : s'.phase = s.phase) : RevertInv s' where
  chosen := h ▸ inv.chosen
  owning := h ▸ inv.owning

theorem RevertInv.idle (inv : RevertInv s) (process : ℕ) : RevertInv (s.move process .idle) :=
  inv.move process nofun nofun

theorem RevertInv.acquire (inv : RevertInv s) (process : ℕ) {guarded : GuardedSection}
    (h : guarded.request.kind = .revert →
      ∀ e ∈ guarded.pending, e.WritesTarget guarded.request) :
    RevertInv (s.acquire process guarded) := by
  unfold RevertSystem.acquire
  split
  · exact inv.idle process
  · have hmove : RevertInv (s.move process (.owning guarded)) := by
      refine inv.move process nofun ?_
      rintro _ ⟨rfl⟩
      exact h
    exact hmove.of_phase rfl

theorem record_phase (s : RevertSystem) (runId : ℕ) (e : Event) :
    (s.record runId e).phase = s.phase := by
  unfold RevertSystem.record
  split <;> rfl

/-- **Every step keeps the invariant.** -/
theorem RevertInv.step (inv : RevertInv s) (h : RevertStep runs s a s') : RevertInv s' := by
  unfold RevertStep stepOf RevertSystem.step at h
  cases a with
  | look process request allowUncertain =>
    dsimp only at h
    split at h
    · split at h
      · split at h
        · cases h
          exact inv.move process nofun nofun
        · cases h
          exact inv
      · cases h
        exact inv
    · cases h
  | list process =>
    dsimp only at h
    split at h
    · split at h
      · rename_i plan hplan
        cases h
        refine inv.move process ?_ nofun
        rintro rows plan' allowUncertain ⟨rfl, rfl, rfl⟩
        exact (target_of_planRevert hplan).2
      · cases h
        exact inv.idle process
    · cases h
  | acquire process outside =>
    dsimp only at h
    split at h
    · cases h
      exact inv.acquire process fun _ => writesTarget_sectionLog rfl _ _
    · cases h
  | write process runId request outside =>
    dsimp only at h
    split at h
    · split at h
      · rename_i hkind
        cases h
        refine inv.acquire process fun hrevert => ?_
        rw [hkind] at hrevert
        cases hrevert
      · cases h
    · cases h
  | act process =>
    dsimp only at h
    split at h
    · rename_i guarded hphase
      split at h
      · cases h
      · rename_i e rest hpending
        cases h
        refine (inv.of_phase (record_phase s guarded.runId e)).move process nofun ?_
        rintro _ ⟨rfl⟩ hrevert e' he'
        have hall := inv.owning process guarded hphase hrevert
        rw [hpending] at hall
        exact hall e' (List.mem_cons_of_mem _ he')
    · cases h
  | stop process =>
    cases h
    exact (inv.idle process).of_phase rfl

/-! ### What a revert puts back -/

section Law

variable (runs : ℕ → Option TuneRunRow) (start : RevertSystem) (actions : List RevertAction)

/-- Throughout a run of the processes, a revert that acquires the ownership is to write what the
latest write of its run had found, of those on record at that moment; and it writes nothing else. -/
structure RevertsLatest : Prop where
  acquired : ∀ before process outside after s s' guarded,
    actions = before ++ .acquire process outside :: after →
    Run (RevertStep runs) start before s → RevertStep runs s (.acquire process outside) s' →
    s'.phase process = .owning guarded →
    latestPrevious (listForRun s.writes guarded.runId) = some guarded.request.target
  written : ∀ before process after s s' guarded call rest,
    actions = before ++ .act process :: after →
    Run (RevertStep runs) start before s → RevertStep runs s (.act process) s' →
    s.phase process = .owning guarded → guarded.request.kind = .revert →
    guarded.pending = .write call :: rest → (call.tag, call.value) ∈ guarded.request.targets

variable {runs start actions}

/-- A revert that is granted the ownership owns what it had planned. -/
theorem step_acquire {process : ℕ} {outside : Environment} {guarded : GuardedSection}
    (h : RevertStep runs s (.acquire process outside) s')
    (howning : s'.phase process = .owning guarded) :
    s.holder = none ∧ ∃ rows plan allowUncertain, s.phase process = .chosen rows plan allowUncertain ∧
      guarded.runId = plan.runId ∧ guarded.request = plan.request allowUncertain := by
  unfold RevertStep stepOf RevertSystem.step at h
  dsimp only at h
  split at h
  · rename_i rows plan allowUncertain hphase
    cases h
    unfold RevertSystem.acquire at howning
    split at howning
    · simp [RevertSystem.move] at howning
    · rename_i hfree
      simp only [RevertSystem.move, if_true] at howning
      cases howning
      exact ⟨hfree, rows, plan, allowUncertain, hphase, rfl, rfl⟩
  · cases h

/-! ### What overtakes a revert -/

/-- The latest write, when one more row is recorded: the new one, if it is a write and no later one
is on record. -/
theorem latestWrite_append (writes : List TuneWriteRow) (row : TuneWriteRow) (runId : ℕ) :
    latestWrite (listForRun (writes ++ [row]) runId) =
      if row.runId = runId ∧ row.write.kind = .write ∧
          ∀ latest ∈ latestWrite (listForRun writes runId),
            latest.write.writtenAt ≤ row.write.writtenAt then some row
      else latestWrite (listForRun writes runId) := by
  unfold listForRun
  rw [List.filter_append]
  by_cases hrun : row.runId = runId
  · have hone : [row].filter (fun row => row.runId = runId) = [row] :=
      List.filter_cons_of_pos (decide_eq_true hrun)
    rw [hone]
    have hlast := @lastOf_insertionSort_append TuneWriteRow ℤ _ (fun row => row.write.kind = .write)
      (fun row => row.write.writtenAt) (writes.filter fun row => row.runId = runId) row
    simp only [hrun, true_and]
    simp only [decide_eq_true_eq] at hlast
    exact hlast
  · have hnone : [row].filter (fun row => row.runId = runId) = [] :=
      List.filter_cons_of_neg (by simpa using hrun)
    rw [hnone, List.append_nil, if_neg fun h => hrun h.1]

/-- The next event of the guarded section of a process records a row of the run. -/
def RevertSystem.Records (s : RevertSystem) (process runId : ℕ) (row : NewTuneWrite) : Prop :=
  ∃ guarded id rest, s.phase process = .owning guarded ∧ guarded.runId = runId ∧
    guarded.pending = .db (.insertWrite row) (.ok id) :: rest

/-- The action overtakes a revert: a write of its run is recorded when it has chosen and does not
own the loop yet.  The write is the latest one, and it found other values than the one before. -/
def RevertSystem.Overtakes (s : RevertSystem) (a : RevertAction) : Prop :=
  ∃ process runId row, a = .act process ∧ s.Records process runId row ∧ row.kind = .write ∧
    (∀ latest ∈ latestWrite (listForRun s.writes runId),
      latest.write.writtenAt ≤ row.writtenAt) ∧
    row.previous ≠ latestPrevious (listForRun s.writes runId) ∧
    ∃ revert rows plan allowUncertain,
      s.phase revert = .chosen rows plan allowUncertain ∧ plan.runId = runId

variable (runs start actions) in
/-- No step of the run overtakes a revert. -/
def NeverOvertaken : Prop :=
  ∀ before a after s, actions = before ++ a :: after → Run (RevertStep runs) start before s →
    ¬s.Overtakes a

/-- Every revert that has chosen would still choose the same, and who owns holds the lock. -/
structure Current (s : RevertSystem) : Prop where
  chosen : ∀ process rows plan allowUncertain,
    s.phase process = .chosen rows plan allowUncertain →
      latestPrevious (listForRun s.writes plan.runId) = some plan.target
  held : ∀ process guarded, s.phase process = .owning guarded → s.holder = some process

theorem current_start (writes : List TuneWriteRow) (nextWrite : ℕ) :
    Current (.start writes nextWrite) where
  chosen := nofun
  held := nofun

/-- A process goes on to a phase that is in order, and gives up the lock at most. -/
theorem Current.move (current : Current s) (process : ℕ) {phase : PidPhase}
    (hchosen : ∀ rows plan allowUncertain, phase = .chosen rows plan allowUncertain →
      latestPrevious (listForRun s.writes plan.runId) = some plan.target)
    (hheld : ∀ guarded, phase = .owning guarded → s.holder = some process) :
    Current (s.move process phase) := by
  constructor
  · intro q rows plan allowUncertain hq
    unfold RevertSystem.move at hq
    dsimp only at hq
    split at hq
    · exact hchosen rows plan allowUncertain hq
    · exact current.chosen q rows plan allowUncertain hq
  · intro q guarded hq
    unfold RevertSystem.move at hq
    dsimp only at hq
    split at hq
    · rename_i heq
      rw [heq]
      exact hheld guarded hq
    · exact current.held q guarded hq

theorem Current.idle (current : Current s) (process : ℕ) : Current (s.move process .idle) :=
  current.move process nofun nofun

theorem Current.acquire (current : Current s) (process : ℕ) (guarded : GuardedSection) :
    Current (s.acquire process guarded) := by
  unfold RevertSystem.acquire
  split
  · exact current.idle process
  · rename_i hfree
    constructor
    · intro q rows plan allowUncertain hq
      unfold RevertSystem.move at hq
      dsimp only at hq
      split at hq
      · cases hq
      · exact current.chosen q rows plan allowUncertain hq
    · intro q other hq
      unfold RevertSystem.move at hq
      dsimp only at hq
      split at hq
      · rename_i heq
        rw [heq]
      · -- nobody else owns while the lock is free
        have hheld := current.held q other hq
        rw [hfree] at hheld
        cases hheld

/-- What is recorded leaves the latest write of every run with a chosen revert as it was. -/
theorem Current.record (current : Current s) {process : ℕ} {guarded : GuardedSection} {e : Event}
    {rest : List Event} (howning : s.phase process = .owning guarded)
    (hpending : guarded.pending = e :: rest) (hnot : ¬s.Overtakes (.act process)) :
    Current (s.record guarded.runId e) := by
  refine ⟨fun q rows plan allowUncertain hq => ?_, fun q other hq => ?_⟩
  · rw [record_phase] at hq
    have hlatest := current.chosen q rows plan allowUncertain hq
    unfold RevertSystem.record
    split
    · rename_i row id
      unfold latestPrevious at hlatest ⊢
      dsimp only
      rw [latestWrite_append]
      split
      · rename_i hnew
        obtain ⟨hrun, hkind, hlater⟩ := hnew
        rw [Option.bind_some]
        by_contra hne
        refine hnot ⟨process, guarded.runId, row, rfl, ⟨guarded, id, rest, howning, rfl, hpending⟩,
          hkind, ?_, ?_, q, rows, plan, allowUncertain, hq, hrun.symm⟩
        · rw [show guarded.runId = plan.runId from hrun]
          exact hlater
        · rw [show guarded.runId = plan.runId from hrun]
          unfold latestPrevious
          rw [hlatest]
          exact hne
      · exact hlatest
    · exact hlatest
  · rw [record_phase] at hq
    have hholder : (s.record guarded.runId e).holder = s.holder := by
      unfold RevertSystem.record
      split <;> rfl
    rw [hholder]
    exact current.held q other hq

/-- **Every step that does not overtake keeps what was chosen current.** -/
theorem Current.step (current : Current s) (h : RevertStep runs s a s') (hnot : ¬s.Overtakes a) :
    Current s' := by
  unfold RevertStep stepOf RevertSystem.step at h
  cases a with
  | look process request allowUncertain =>
    dsimp only at h
    split at h
    · split at h
      · split at h
        · cases h
          exact current.move process nofun nofun
        · cases h
          exact current
      · cases h
        exact current
    · cases h
  | list process =>
    dsimp only at h
    split at h
    · split at h
      · rename_i plan hplan
        cases h
        refine current.move process ?_ nofun
        rintro rows plan' allowUncertain ⟨rfl, rfl, rfl⟩
        obtain ⟨hrun, htarget⟩ := target_of_planRevert hplan
        rw [hrun]
        exact htarget
      · cases h
        exact current.idle process
    · cases h
  | acquire process outside =>
    dsimp only at h
    split at h
    · cases h
      exact current.acquire process _
    · cases h
  | write process runId request outside =>
    dsimp only at h
    split at h
    · split at h
      · cases h
        exact current.acquire process _
      · cases h
    · cases h
  | act process =>
    dsimp only at h
    split at h
    · rename_i guarded hphase
      split at h
      · cases h
      · rename_i e rest hpending
        cases h
        refine (current.record hphase hpending hnot).move process nofun fun _ _ => ?_
        exact (current.record hphase hpending hnot).held process guarded
          ((congrFun (record_phase s guarded.runId e) process).trans hphase)
    · cases h
  | stop process =>
    cases h
    refine ⟨(current.idle process).chosen, fun q guarded hq => ?_⟩
    have hheld := (current.idle process).held q guarded hq
    have hne : q ≠ process := by
      rintro rfl
      unfold RevertSystem.move at hq
      dsimp only at hq
      rw [if_pos rfl] at hq
      cases hq
    show (if s.holder = some process then none else s.holder) = some q
    rw [show s.holder = some q from hheld, if_neg fun heq => hne (Option.some.inj heq)]

theorem NeverOvertaken.current {writes : List TuneWriteRow} {nextWrite : ℕ}
    (h : NeverOvertaken runs (.start writes nextWrite) actions) {before after : List RevertAction}
    (hactions : actions = before ++ after)
    (hrun : Run (RevertStep runs) (.start writes nextWrite) before s) : Current s := by
  refine hrun.invariant_at (current_start writes nextWrite) ?_
  intro first a rest s₁ s₂ hbefore hfirst current hstep
  refine current.step hstep (h first a (rest ++ after) s₁ ?_ hfirst)
  rw [hactions, hbefore, List.append_assoc, List.cons_append]

/-- A revert that was overtaken acquires the ownership once the writer has stopped. -/
theorem exists_violation (current : Current s) (hrun : Run (RevertStep runs) start actions s)
    (hstep : RevertStep runs s a s') (hovertakes : s.Overtakes a) :
    ∃ more, ¬RevertsLatest runs start (actions ++ a :: more) := by
  obtain ⟨process, runId, row, rfl, ⟨guarded, id, rest, howning, hguarded, hpending⟩, hkind, hlater,
    hprevious, revert, rows, plan, allowUncertain, hchosen, hplan⟩ := hovertakes
  subst hplan
  have hheld := current.held process guarded howning
  have hne : revert ≠ process := by
    rintro rfl
    rw [hchosen] at howning
    cases howning
  -- the row is recorded, and the writer stops
  have hrecorded : s' = (s.record guarded.runId (.db (.insertWrite row) (.ok id))).move process
      (.owning { guarded with pending := rest }) := by
    unfold RevertStep stepOf RevertSystem.step at hstep
    dsimp only at hstep
    rw [howning] at hstep
    dsimp only at hstep
    rw [hpending] at hstep
    exact (Option.some.inj hstep).symm
  let stopped : RevertSystem := { s'.move process .idle with holder := none }
  have hstop : RevertStep runs s' (.stop process) stopped := by
    unfold RevertStep stepOf RevertSystem.step
    dsimp only
    have hholder : s'.holder = some process := by
      rw [hrecorded]
      exact hheld
    rw [hholder, if_pos rfl]
  have hstill : stopped.phase revert = .chosen rows plan allowUncertain := by
    show (if revert = process then _ else s'.phase revert) = _
    rw [if_neg hne, hrecorded]
    show (if revert = process then _ else _) = _
    rw [if_neg hne, record_phase]
    exact hchosen
  have hlatest : latestPrevious (listForRun stopped.writes plan.runId) = row.previous := by
    have hwrites : stopped.writes = s.writes ++ [⟨s.nextWrite, guarded.runId, row⟩] := by
      show s'.writes = _
      rw [hrecorded]
      rfl
    unfold latestPrevious
    rw [hwrites, latestWrite_append, if_pos ⟨hguarded, hkind, hlater⟩]
    rfl
  let outside := idleEnvironment
  let request := plan.request allowUncertain
  let owned : GuardedSection := ⟨plan.runId, request, sectionLog request plan.runId outside⟩
  have hacquire : RevertStep runs stopped (.acquire revert outside)
      (stopped.acquire revert owned) := by
    unfold RevertStep stepOf RevertSystem.step
    dsimp only
    rw [hstill]
  have howned : (stopped.acquire revert owned).phase revert = .owning owned := by
    show (if revert = revert then _ else _) = _
    rw [if_pos rfl]
  refine ⟨[.stop process, .acquire revert outside], fun hlaw => hprevious ?_⟩
  have hto : Run (RevertStep runs) start (actions ++ [.act process, .stop process]) stopped :=
    hrun.append (.cons hstep (.cons hstop (.nil _)))
  have hput := hlaw.acquired (actions ++ [.act process, .stop process]) revert outside [] stopped _
    owned (by rw [List.append_assoc]; rfl) hto hacquire howned
  rw [hlatest] at hput
  rw [hput]
  exact (current.chosen revert rows plan allowUncertain hchosen).symm

/-- **What a revert puts back.**  Whatever is on record, and however the driver calls and
statements of the processes interleave: if no step of the run overtakes a revert, every revert writes
what the latest write of its run had found, as of the moment it acquired the ownership.  And the
first step that does overtake one can be continued to a run of which that is false. -/
theorem reverts_latest {writes : List TuneWriteRow} {nextWrite : ℕ}
    (hnever : NeverOvertaken runs (.start writes nextWrite) actions) :
    RevertsLatest runs (.start writes nextWrite) actions ∧
      ∀ s a s', Run (RevertStep runs) (.start writes nextWrite) actions s →
        RevertStep runs s a s' → s.Overtakes a →
        ∃ more, ¬RevertsLatest runs (.start writes nextWrite) (actions ++ a :: more) := by
  have hinv : ∀ {before : List RevertAction} {s : RevertSystem},
      Run (RevertStep runs) (.start writes nextWrite) before s → RevertInv s :=
    fun h => h.invariant (revertInv_start writes nextWrite) fun _ _ _ inv hstep => inv.step hstep
  refine ⟨⟨?_, ?_⟩, ?_⟩
  · rintro before process outside after s s' guarded hactions hbefore hstep howning
    obtain ⟨hfree, rows, plan, allowUncertain, hphase, hrun, hrequest⟩ :=
      step_acquire hstep howning
    rw [hrun, hrequest]
    exact (hnever.current hactions hbefore).chosen process rows plan allowUncertain hphase
  · rintro before process after s s' guarded call rest hactions hbefore _ hphase hkind hpending
    refine (hinv hbefore).owning process guarded hphase hkind (.write call) ?_
    rw [hpending]
    exact List.mem_cons_self
  · intro s a s' hrun hstep hovertakes
    exact exists_violation (hnever.current (List.append_nil _).symm hrun) hrun hstep hovertakes

end Law

/-- No revert has chosen. -/
def RevertSystem.Unchosen (s : RevertSystem) : Prop :=
  ∀ process rows plan allowUncertain, s.phase process ≠ .chosen rows plan allowUncertain

theorem RevertSystem.Unchosen.move (h : s.Unchosen) {process : ℕ} {phase : PidPhase}
    (hphase : ∀ rows plan allowUncertain, phase ≠ .chosen rows plan allowUncertain) :
    (s.move process phase).Unchosen := by
  intro q rows plan allowUncertain hq
  unfold RevertSystem.move at hq
  dsimp only at hq
  split at hq
  · exact hphase rows plan allowUncertain hq
  · exact h q rows plan allowUncertain hq

theorem RevertSystem.Unchosen.acquire (h : s.Unchosen) (process : ℕ) (guarded : GuardedSection) :
    (s.acquire process guarded).Unchosen := by
  unfold RevertSystem.acquire
  split
  · exact h.move nofun
  · exact h.move nofun

/-- Without a list of writes no revert has chosen. -/
theorem unchosen_of_no_list {writes : List TuneWriteRow} {nextWrite : ℕ}
    (hrun : Run (RevertStep runs) (.start writes nextWrite) actions s)
    (hnone : ∀ a ∈ actions, ∀ process, a ≠ .list process) : s.Unchosen := by
  refine hrun.invariant_of (P := RevertSystem.Unchosen) hnone nofun ?_
  intro s a s' ha hs hstep
  unfold RevertStep stepOf RevertSystem.step at hstep
  cases a with
  | list process => exact absurd rfl (ha process)
  | look process request allowUncertain =>
    dsimp only at hstep
    split at hstep
    · split at hstep
      · split at hstep
        · cases hstep
          exact hs.move nofun
        · cases hstep
          exact hs
      · cases hstep
        exact hs
    · cases hstep
  | acquire process outside =>
    dsimp only at hstep
    split at hstep
    · cases hstep
      exact hs.acquire process _
    · cases hstep
  | write process runId request outside =>
    dsimp only at hstep
    split at hstep
    · split at hstep
      · cases hstep
        exact hs.acquire process _
      · cases hstep
    · cases hstep
  | act process =>
    dsimp only at hstep
    split at hstep
    · split at hstep
      · cases hstep
      · cases hstep
        refine RevertSystem.Unchosen.move ?_ nofun
        unfold RevertSystem.Unchosen
        rw [record_phase]
        exact hs
    · cases hstep
  | stop process =>
    cases hstep
    exact hs.move nofun

/-- Where no section goes on once a revert has listed the writes, no revert is overtaken. -/
theorem neverOvertaken_of_list_last {writes : List TuneWriteRow} {nextWrite : ℕ}
    {first last : List RevertAction} (hfirst : ∀ a ∈ first, ∀ process, a ≠ .list process)
    (hlast : ∀ a ∈ last, ∀ process, a ≠ .act process) :
    NeverOvertaken runs (.start writes nextWrite) (first ++ last) := by
  rintro before a after s hactions hbefore ⟨process, runId, row, rfl, -, -, -, -, revert, rows, plan,
    allowUncertain, hchosen, -⟩
  rcases List.append_eq_append_iff.mp hactions with ⟨rest, rfl, hrest⟩ | ⟨rest, hfirsts, hrest⟩
  · refine absurd rfl (hlast (.act process) ?_ process)
    rw [hrest]
    exact List.mem_append_right _ List.mem_cons_self
  · refine unchosen_of_no_list hbefore (fun a ha => hfirst a ?_) revert rows plan allowUncertain
      hchosen
    rw [hfirsts]
    exact List.mem_append_left _ ha

/-! ### A write between the choice and the ownership -/

/-- The run of FC1, as it is recorded. -/
def recordedFlowRun : TuneRunRow where
  id := 1
  loopId := none
  demoSessionId := none
  driver := .opcda
  opcServer := some "Plant.Server"
  bridgeHost := some "localhost:50051"
  startedAt := 0
  completedAt := none
  outcome := .completed
  failureReason := none
  config := flowLoopConfig
  templateOrigin := .builtin
  template := flowTemplate
  tags := flowTags
  initialReadings := none
  allowUncertainQuality := false
  effectiveTuning := none
  gatewayCompatibilityJson := none
  restoreStatus := none
  restoreDetail := none
  recoveryState := none
  recoveryEvidenceJson := none

/-- A write of one value to the three constants of FC1. -/
def overwrite (value : ℚ) : PidWriteRequest where
  pTag := "FC1.P"
  iTag := "FC1.I"
  dTag := "FC1.D"
  responseLevel := .moderate
  target := ⟨value, value, value⟩
  kind := .write
  allowUncertain := false

/-- A driver whose constants all hold `found`, and then `written`. -/
def constantsOutside (now : UtcTime) (found written : ℚ) : Environment where
  answers := fun n =>
    if n = 1 then { utcNow := now }
    else if n ∈ [2, 3, 4] then constantRead found
    else if n ∈ [9, 11, 13] then constantRead written
    else {}
  signals := []
  signals_sorted := Environment.noSignals_sorted

/-- FC1 after one write, over constants that were 1. -/
def writtenOnce : RevertSystem :=
  .start [⟨1, 1, {
    responseLevel := .moderate
    writtenAt := 0
    kind := .write
    allowUncertainQuality := false
    previous := some ⟨1, 1, 1⟩ }⟩] 2

/-- A revert chooses, and a write from 2 to 3 is made from its first to its last step. -/
def overtaken : List RevertAction :=
  [.look 0 { runId := 1 } false, .list 0, .write 1 1 (overwrite 3) (constantsOutside 10 2 3)] ++
    List.replicate 12 (.act 1) ++ [.stop 1]

/-- A write from 2 to 3 is made, and then a revert looks, chooses and acquires the ownership. -/
def undisturbed : List RevertAction :=
  ([.write 1 1 (overwrite 3) (constantsOutside 10 2 3)] ++ List.replicate 12 (.act 1)) ++
    [.stop 1, .look 0 { runId := 1 } false, .list 0, .acquire 0 (constantsOutside 20 3 1)]

/-- The law holds where the revert chooses after the write. -/
theorem reverts_latest_undisturbed :
    RevertsLatest (fun _ => some recordedFlowRun) writtenOnce undisturbed ∧
      ∀ s a s', Run (RevertStep fun _ => some recordedFlowRun) writtenOnce undisturbed s →
        RevertStep (fun _ => some recordedFlowRun) s a s' → s.Overtakes a →
        ∃ more, ¬RevertsLatest (fun _ => some recordedFlowRun) writtenOnce
          (undisturbed ++ a :: more) := by
  refine reverts_latest (neverOvertaken_of_list_last ?_ ?_)
  · intro a ha process
    rcases List.mem_append.mp ha with ha | ha
    · rw [List.mem_singleton.mp ha]
      nofun
    · rw [List.eq_of_mem_replicate ha]
      nofun
  · intro a ha process
    simp only [List.mem_cons, List.not_mem_nil, or_false] at ha
    rcases ha with rfl | rfl | rfl | rfl <;> nofun

/-- What a revert that then acquires the ownership should put back, what it is to put back, and
what it writes. -/
def acquiredValues (start : RevertSystem) (before : List RevertAction) (process : ℕ)
    (outside : Environment) :
    Option (Option WriteReadback × WriteReadback × List (String × TagWrite)) :=
  (exec (RevertSystem.step fun _ => some recordedFlowRun) start before).bind fun s =>
    (s.step (fun _ => some recordedFlowRun) (.acquire process outside)).bind fun s' =>
      match s'.phase process with
      | .owning guarded =>
        some (latestPrevious (listForRun s.writes guarded.runId), guarded.request.target,
          guarded.pending.filterMap fun
            | .write call => some (call.tag, call.value)
            | _ => none)
      | _ => none

/-- The revert puts 1 back, where the write in between had found 2. -/
theorem acquiredValues_overtaken :
    acquiredValues writtenOnce overtaken 0 (constantsOutside 20 3 1) =
      some (some ⟨2, 2, 2⟩, ⟨1, 1, 1⟩,
        [("FC1.P", .float 1), ("FC1.I", .float 1), ("FC1.D", .float 1)]) := by
  decide +kernel

/-- So the law fails on this run. -/
theorem not_revertsLatest_overtaken :
    ¬RevertsLatest (fun _ => some recordedFlowRun) writtenOnce
      (overtaken ++ [.acquire 0 (constantsOutside 20 3 1)]) := by
  intro hlaw
  have hvalues := acquiredValues_overtaken
  unfold acquiredValues at hvalues
  obtain ⟨s, hs, hvalues⟩ := Option.bind_eq_some_iff.mp hvalues
  obtain ⟨s', hstep, hvalues⟩ := Option.bind_eq_some_iff.mp hvalues
  split at hvalues
  · rename_i guarded howning
    simp only [Option.some.injEq, Prod.mk.injEq] at hvalues
    have hlatest := hlaw.acquired _ 0 _ [] s s' guarded rfl (run_of_exec hs) hstep howning
    rw [hvalues.1, hvalues.2.1] at hlatest
    revert hlatest
    decide +kernel
  · cases hvalues

end Bhtune
