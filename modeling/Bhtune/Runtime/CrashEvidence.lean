import Bhtune.Runtime.RestoreIntent
import Bhtune.Runtime.WriteAuthority
import Bhtune.Runtime.WriteGating

/-!
# The evidence that a crash leaves behind

A live tune issues its writes through an `AuditedDriver`.  Its process may stop at any point: before
or after an intent is recorded, a write is handed to the inner driver, or its step is finished.

* `keeps_driveReport` — the frame of a whole run;
* `Meanwhile` — what else happens to the database, during the run and after it;
* `AuditedRun` — a run whose writes are audited one by one;
* `crash_evidence` — the mutation guard that a recovery infers misses no write that was handed over.
-/

namespace Bhtune

open Effect EventLog Json Table Transaction

/-! ### The events of a whole run -/

section WholeRun

variable {prepared : PreparedTune} {p : Event → Prop}
  (hordinary : ∀ initial e, Event.Ordinary prepared.ctx initial e → p e)
  (hread : ∀ call, p (.read call)) (hdb : ∀ op result, p (.db op result))
  (hpid : ∀ call : WriteCall, call.origin = .pid → p (.write call))

include hread hdb in
theorem silent_of_parts (e : Event) (h : e.Silent) (_ : ¬e.Closes) : p e := by
  cases e with
  | read call => exact hread call
  | db op result => exact hdb op result
  | write call => exact h.elim
  | mark m => exact h.elim

include hordinary hread hdb hpid in
theorem keeps_finishCompletedRun (fuel : ℕ) (initial : InitialState) (hasHandler : Bool)
    (action : Action ℚ) (completion : SettlingInput) (period : Option (XNum ℚ)) :
    Keeps (within p fun _ => ()) (finishCompletedRun fuel prepared.ctx initial prepared.writePid
      hasHandler prepared.ownership action completion period) := by
  refine (keeps_tryErr (keeps_persistResults (silent_of_parts hread hdb) _ initial action)).bind
    fun r => ?_
  cases r with
  | error error => exact keeps_unpersisted (hordinary initial) fuel _ _ error
  | ok _ =>
    refine (keeps_recordedAttempt (hordinary initial) fuel _ _ _ id).bind fun attempt =>
      Keeps.get.bind fun _ => (keeps_runStatement (hdb _)).bind fun _ => ?_
    cases attempt with
    | incomplete reason => exact .pure _
    | confirmed =>
      exact (keeps_maybeWriteBack hread hpid (fun op result _ => hdb op result) _ _ _ _).bind
        fun _ => .pure _

include hordinary hread hdb hpid in
theorem keeps_executeMutating (fuel : ℕ) (initial : InitialState) (hasHandler : Bool) :
    Keeps (within p fun _ => ()) (executeMutating fuel prepared.ctx initial prepared.writePid
      hasHandler prepared.ownership) := by
  have hstart : ∀ f, Keeps (within p fun _ => ()) (modifyProgram f) :=
    fun _ => keeps_modifyProgram fun _ => rfl
  refine (hstart _).bind fun _ =>
    (keeps_tryErr (keeps_transition (hordinary initial))).bind fun entered => ?_
  cases entered with
  | error e => exact keeps_notEntered (hordinary initial) fuel e
  | ok _ =>
    refine (keeps_tryErr (keeps_pollFresh (hordinary initial) fuel)).bind fun pollResult =>
      (keeps_completedOscillationPeriodMs _ _ _).bind fun period => Keeps.get.bind fun _ => ?_
    match pollResult with
    | .error error => exact keeps_finishFailedRun (hordinary initial) fuel error _
    | .ok (.aborted reason) =>
      exact keeps_finishAbortedRun (hordinary initial) (fun _ _ => hdb _) fuel reason _
    | .ok (.completed action state next) =>
      exact keeps_finishCompletedRun hordinary hread hdb hpid fuel initial hasHandler action _ _

include hordinary hread hdb hpid in
/-- **The frame of a whole run.**  It does nothing but what its parts do, write PID constants, and
make statements. -/
theorem keeps_driveReport (fuel : ℕ) (hasHandler : Bool) :
    Keeps (within p fun _ => ()) (driveReport fuel prepared hasHandler) := by
  have hexecute : Keeps (within p fun _ => ()) (executeWithTiming fuel prepared.ctx
      prepared.writePid hasHandler prepared.ownership) :=
    (keeps_prepareExecution (silent_of_parts hread hdb) _ _).bind fun initial =>
      keeps_executeMutating hordinary hread hdb hpid fuel initial hasHandler
  refine (keeps_tryErr hexecute).bind fun r => ?_
  cases r with
  | error e => exact keeps_failReport (fun op result _ _ => hdb op result) prepared e
  | ok outcome => exact (keeps_releaseOwnership (hdb _) _).bind fun _ => .pure _

end WholeRun

/-- A write of the write-back, or one that is addressed as its origin says. -/
def Event.Attributed (ctx : RunContext) (e : Event) : Prop :=
  e.WritesPid ∨ ∃ initial, e.Addressed ctx initial

theorem attributed_of_ordinary {ctx : RunContext} (initial : InitialState) (e : Event)
    (h : e.Ordinary ctx initial) : e.Attributed ctx := .inr ⟨initial, h.1.2⟩

/-- Every write of a run is attributed. -/
theorem recordOf_attributed (fuel : ℕ) (prepared : PreparedTune) (hasHandler : Bool) {s : Sys}
    (hnew : s.trace = []) :
    ∀ e ∈ recordOf (driveReport fuel prepared hasHandler) s, e.Attributed prepared.ctx := by
  have hquiet : ∀ e : Event, (∀ initial, e.Addressed prepared.ctx initial) →
      e.Attributed prepared.ctx := fun e h => .inr ⟨flowInitial, h _⟩
  have hkeeps : Keeps (within (Event.Attributed prepared.ctx) fun _ => ())
      (driveReport fuel prepared hasHandler) :=
    keeps_driveReport attributed_of_ordinary (fun call => hquiet (.read call) fun _ => trivial)
      (fun op result => hquiet (.db op result) fun _ => trivial) (fun _ h => .inl h) fuel hasHandler
  have happended : ∀ s' : Sys, (within (Event.Attributed prepared.ctx) fun _ => ()).rel s s' →
      ∀ e ∈ s'.trace, e.Attributed prepared.ctx := by
    rintro s' ⟨⟨new, htrace, hall⟩, _⟩ e he
    rw [htrace, hnew, List.nil_append] at he
    exact hall e he
  exact recordOf_holds (P := fun log => ∀ e ∈ log, e.Attributed prepared.ctx)
    (wp_mono (hkeeps s) (fun _ => happended) fun _ => happended)

/-! ### What happens meanwhile -/

/-- What else happens to the database while the run goes on, and after its process has died.  The
run itself is not deleted. -/
inductive Meanwhile (runId : ℕ) (s : LiveSystem) : LiveSystem → Prop
  | change {s' : LiveSystem} (h : LiveChange s s') : Meanwhile runId s s'
  | delete (id : ℕ) (refusals : List Bool) (h : id ≠ runId) :
      Meanwhile runId s (s.statement (TuneRunRow.delete id) refusals)
  | deleteMatching (filter : TuneRunFilter) (refusals : List Bool)
      (h : ∀ r ∈ s.db.1.runs, r.id = runId → filter.matches r = true → r.deletable = false) :
      Meanwhile runId s (s.statement (TuneRunRow.deleteMatching filter) refusals)

/-- The run is on record, with its tags and its template. -/
def RunOnRecord (ctx : RunContext) (t : Tables) : Prop :=
  ∃ r ∈ t.runs, r.id = ctx.runId ∧ r.tags = ctx.tags ∧ r.template = ctx.template

/-- The intent of the write is on record, under this owner of the run, and counts. -/
def Evident (encode : String → TagWrite → String) (ownerId runId : ℕ) (call : WriteCall)
    (t : Tables) : Prop :=
  ∃ x ∈ t.steps, x.ownerId = ownerId ∧ x.runId = some runId ∧ x.counts = true ∧
    x.targetJson = encode call.tag call.value

section Kept

variable {ctx : RunContext} {encode : String → TagWrite → String} {ownerId runId : ℕ}
  {call : WriteCall} {t t' : Tables} {s s' : LiveSystem} {d : Db} {refusals : List Bool}

theorem tags_of_evidence {r r' : TuneRunRow} (h : r'.evidence = r.evidence) :
    r'.tags = r.tags ∧ r'.template = r.template := by
  show r'.evidence.tags = r.evidence.tags ∧ r'.evidence.template = r.evidence.template
  rw [h]
  exact ⟨rfl, rfl⟩

theorem RunOnRecord.replaced (h : RunOnRecord ctx t) (keyed : Keyed t) {r r' : TuneRunRow}
    (hruns : Replaced TuneRunRow.id r r' t.runs t'.runs)
    (hsame : r'.tags = r.tags ∧ r'.template = r.template) : RunOnRecord ctx t' := by
  obtain ⟨x, hx, hid, htags, htemplate⟩ := h
  by_cases hxr : x.id = r.id
  · have hr : x = r := keyed.run x hx r hruns.was hxr
    subst hr
    exact ⟨r', hruns.mem_new, hruns.same.trans hid, hsame.1.trans htags,
      hsame.2.trans htemplate⟩
  · exact ⟨x, hruns.mem_other hx hxr, hid, htags, htemplate⟩

/-- No move changes the tags or the template of a run. -/
theorem RunOnRecord.move {acquires : Option ℕ → Prop} {settles : ℕ → Prop}
    (h : RunOnRecord ctx t) (keyed : Keyed t) (hmove : OwnershipMove acquires settles t t') :
    RunOnRecord ctx t' := by
  have hsame : t'.runs = t.runs → RunOnRecord ctx t' := by
    intro hruns
    unfold RunOnRecord
    rw [hruns]
    exact h
  cases hmove with
  | unmoved h' => exact hsame h'.runs
  | claimed o h' _ _ => exact hsame h'.runs
  | touched o o' h' => exact hsame h'.runs
  | retired o o' h' _ =>
    rcases h'.runs with hruns | ⟨r, r', hfailed, hruns⟩
    · exact hsame hruns
    · exact h.replaced keyed hruns (tags_of_evidence hfailed.evidence)
  | orphaned o o' h' =>
    obtain ⟨r, r', _, _, _, _, hevidence, hruns⟩ := h'.runs
    exact h.replaced keyed hruns (tags_of_evidence hevidence)
  | takenOver s o a h' =>
    obtain ⟨r, r', _, _, _, _, _, hevidence, hruns⟩ := h'.runs
    exact h.replaced keyed hruns (tags_of_evidence hevidence)
  | returned s s' o o' a a' state h' =>
    obtain ⟨r, r', _, _, _, _, hevidence, hruns⟩ := h'.concluded.runs
    exact h.replaced keyed hruns (tags_of_evidence hevidence)
  | settled s s' o o' a a' h' _ =>
    obtain ⟨r, r', _, _, _, _, hevidence, hruns⟩ := h'.concluded.runs
    exact h.replaced keyed hruns (tags_of_evidence hevidence)

theorem RunUpdate.apply_loop (u : RunUpdate) (r : TuneRunRow) :
    (u.apply r).tags = r.tags ∧ (u.apply r).template = r.template := by
  cases u <;> simp [RunUpdate.apply]

theorem RunOnRecord.change (h : RunOnRecord ctx s.db.1) (hreach : Reach s)
    (hchange : LiveChange s s') : RunOnRecord ctx s'.db.1 := by
  have hsame : s'.db.1.runs = s.db.1.runs → RunOnRecord ctx s'.db.1 := by
    intro hruns
    unfold RunOnRecord
    rw [hruns]
    exact h
  cases hchange with
  | same => exact h
  | call call refusals hpass =>
    rcases after_of_ends (call.ends s hpass (reach_inv hreach).unowned) refusals with
      ⟨_, hmoved⟩ | ⟨_, heq⟩
    · exact h.move s.db.2.keyed hmoved.1
    · exact hsame (congrArg (fun d : Db => d.1.runs) heq)
  | begun new refusals =>
    rcases after_of_ends (beginStep_ends new s.db) refusals with ⟨_, _, _, hunmoved, _⟩ | ⟨_, heq⟩
    · exact hsame hunmoved.runs
    · exact hsame (congrArg (fun d : Db => d.1.runs) heq)
  | finished stepId accepted now detail refusals =>
    rcases after_of_ends (finishWrite_ends stepId accepted now detail s.db) refusals with
      ⟨_, hunmoved, _⟩ | ⟨_, heq⟩
    · exact hsame hunmoved.runs
    · exact hsame (congrArg (fun d : Db => d.1.runs) heq)
  | started new refusals =>
    have hends := startWithDemoSession_ends new s.db refusals
    unfold Effect.wp at hends
    unfold LiveSystem.startRun at hsame ⊢
    cases hstart : TuneRunRow.startWithDemoSession new ⟨s.db, refusals⟩ with
    | ok row s₁ =>
      rw [hstart] at hends
      obtain ⟨r, hr, hkept⟩ := h
      exact ⟨r, hends.2.runs.mem_old hr, hkept⟩
    | error e s₁ =>
      rw [hstart] at hends hsame
      exact hsame (congrArg (fun d : Db => d.1.runs) hends)
  | updated runId update refusals =>
    rcases after_of_ends (updateRow_ends runId update s.db) refusals with ⟨_, r, _, h'⟩ | ⟨_, heq⟩
    · exact h.replaced s.db.2.keyed h'.runs (update.apply_loop r)
    · exact hsame (congrArg (fun d : Db => d.1.runs) heq)

theorem Evident.of_steps (h : Evident encode ownerId runId call t)
    (hsteps : ∀ x ∈ t.steps, x ∈ t'.steps) : Evident encode ownerId runId call t' := by
  obtain ⟨x, hx, hkept⟩ := h
  exact ⟨x, hsteps x hx, hkept⟩

/-- A step that the audited driver finishes goes on to count. -/
theorem Evident.finished {stepId : ℕ} {accepted : Bool} {now : UtcTime} {detail : String}
    (h : Evident encode ownerId runId call d.1) :
    Evident encode ownerId runId call
      (after (finishWrite stepId accepted now detail) d refusals).1 := by
  rcases after_of_ends (finishStep_ends stepId _ now none (some detail) d) refusals with
    ⟨row, y, _, hintent, _, hrow, _, hreplaced⟩ | ⟨_, heq⟩
  · obtain ⟨x, hx, howner, hrun, hcounts, htarget⟩ := h
    by_cases hid : x.id = y.id
    · have hxy : x = y := d.2.steps.primaryKey.eq hx hreplaced.was hid
      subst hxy
      refine ⟨row, hreplaced.mem_new, ?_⟩
      rw [hrow]
      refine ⟨howner, hrun, ?_, htarget⟩
      simp only [LiveMutationStepRow.counts, Bool.and_eq_true, decide_eq_true_eq] at hcounts ⊢
      refine ⟨hcounts.1, ?_⟩
      cases accepted <;> simp
    · exact ⟨x, hreplaced.mem_other hx hid, howner, hrun, hcounts, htarget⟩
  · show Evident encode ownerId runId call
      (after (LiveMutationStepRow.finish stepId _ now none (some detail)) d refusals).1
    rw [heq]
    exact h

theorem Evident.change (h : Evident encode ownerId runId call s.db.1) (hreach : Reach s)
    (hchange : LiveChange s s') : Evident encode ownerId runId call s'.db.1 := by
  have hsame : s'.db.1.steps = s.db.1.steps → Evident encode ownerId runId call s'.db.1 := by
    intro hsteps
    apply h.of_steps
    rw [hsteps]
    exact fun _ hx => hx
  cases hchange with
  | same => exact h
  | call call refusals hpass => exact hsame (callWith_steps (reach_inv hreach) hpass)
  | begun new refusals =>
    rcases after_of_ends (beginStep_ends new s.db) refusals with
      ⟨_, _, _, _, hinserted⟩ | ⟨_, heq⟩
    · exact h.of_steps fun _ hx => hinserted.mem_old hx
    · exact hsame (congrArg (fun d : Db => d.1.steps) heq)
  | finished stepId accepted now detail refusals => exact h.finished
  | started new refusals => exact hsame (runs_only new).2.2
  | updated runId update refusals => exact hsame (run_updated_only runId update).2.2

/-- What a deletion that leaves the run keeps. -/
theorem kept_of_deleted (hrun : RunOnRecord ctx s.db.1) (hreach : Reach s)
    {p : TuneRunRow → Bool} (hdb : s'.db.1 = s.db.1.deleteRuns p)
    (hnot : ¬s.db.1.gone p ctx.runId) :
    RunOnRecord ctx s'.db.1 ∧ ∀ call, Evident encode ownerId ctx.runId call s.db.1 →
      Evident encode ownerId ctx.runId call s'.db.1 := by
  constructor
  · obtain ⟨r, hr, hid, hkept⟩ := hrun
    refine ⟨r, ?_, hid, hkept⟩
    rw [hdb, (deleteRuns_deleted s.db p).runs, hid]
    exact ⟨hr, hnot⟩
  · rintro call ⟨x, hx, howner, hxrun, hcounts⟩
    refine ⟨x, ?_, howner, hxrun, hcounts⟩
    rw [hdb]
    exact mem_steps_deleteRuns s.db (reach_stepsOfRun hreach) hnot x hx hxrun

/-- **What happens meanwhile takes away no evidence.** -/
theorem Meanwhile.keeps (h : Meanwhile ctx.runId s s') (hreach : Reach s)
    (hrun : RunOnRecord ctx s.db.1) :
    Reach s' ∧ RunOnRecord ctx s'.db.1 ∧ ∀ call, Evident encode ownerId ctx.runId call s.db.1 →
      Evident encode ownerId ctx.runId call s'.db.1 := by
  cases h with
  | change hchange =>
    exact ⟨hchange.reach hreach, hrun.change hreach hchange, fun _ h => h.change hreach hchange⟩
  | delete id refusals hid =>
    refine ⟨hreach.step (.delete id refusals), ?_⟩
    rcases after_of_ends (delete_ends id s.db) refusals with ⟨_, hdb⟩ | ⟨_, heq⟩
    · refine kept_of_deleted hrun hreach hdb ?_
      rintro ⟨r, _, hr, hp⟩
      apply hid
      simp only [Bool.and_eq_true, decide_eq_true_eq] at hp
      exact hp.1.symm.trans hr
    · show RunOnRecord ctx (after (TuneRunRow.delete id) s.db refusals).1 ∧ ∀ call, _ → Evident
        encode ownerId ctx.runId call (after (TuneRunRow.delete id) s.db refusals).1
      rw [heq]
      exact ⟨hrun, fun _ h => h⟩
  | deleteMatching filter refusals hkept =>
    refine ⟨hreach.step (.deleteMatching filter refusals), ?_⟩
    rcases after_of_ends (deleteMatching_ends filter s.db) refusals with ⟨_, hdb⟩ | ⟨_, heq⟩
    · refine kept_of_deleted hrun hreach hdb ?_
      rintro ⟨r, hr, hid, hp⟩
      simp only [Bool.and_eq_true] at hp
      rw [hkept r hr hid hp.1] at hp
      cases hp.2
    · show RunOnRecord ctx (after (TuneRunRow.deleteMatching filter) s.db refusals).1 ∧
        ∀ call, _ → Evident encode ownerId ctx.runId call
          (after (TuneRunRow.deleteMatching filter) s.db refusals).1
      rw [heq]
      exact ⟨hrun, fun _ h => h⟩

end Kept

/-! ### An audited run -/

/-- A run whose writes are audited, at one moment: the database, what of the run's record is still
to come, the step of the write under way and whether it was given to the inner driver, and all
writes that were. -/
structure AuditedRun where
  live : LiveSystem
  todo : List Event
  flight : Option (ℕ × Bool) := none
  handed : List WriteCall := []

/-- The step for which `AuditedDriver::write` records its intent. -/
def auditIntent (encode : String → TagWrite → String) (ownerId runId : ℕ) (call : WriteCall)
    (previousJson : Option String) (now : UtcTime) : NewLiveMutationStep :=
  Fleet.intent encode { ownerId := ownerId } (some runId) call.tag call.value previousJson now

/-- What happens next to an audited run.  Its process may stop in any state, and from then on only
`meanwhile` happens. -/
inductive AuditedRun.Step (encode : String → TagWrite → String) (ownerId runId : ℕ)
    (r : AuditedRun) : AuditedRun → Prop
  | meanwhile {live : LiveSystem} (h : Meanwhile runId r.live live) :
      Step encode ownerId runId r { r with live := live }
  /-- The run goes on without a write being recorded: its next event is none, or the heartbeat has
  failed, the intent was refused, or the write was dropped before that. -/
  | passed {e : Event} {rest : List Event} (htodo : r.todo = e :: rest)
      (hflight : r.flight = none) :
      Step encode ownerId runId r { r with todo := rest }
  | begun {call : WriteCall} {rest : List Event} {row : LiveMutationStepRow}
      (previousJson : Option String) (now : UtcTime) (refusals : List Bool)
      (htodo : r.todo = .write call :: rest) (hflight : r.flight = none)
      (h : answer (LiveMutationStepRow.begin (auditIntent encode ownerId runId call previousJson
        now)) r.live.db refusals = some row) :
      Step encode ownerId runId r { r with
        live := r.live.statement (LiveMutationStepRow.begin (auditIntent encode ownerId runId call
          previousJson now)) refusals
        flight := some (row.id, false) }
  | handed {call : WriteCall} {rest : List Event} {stepId : ℕ}
      (htodo : r.todo = .write call :: rest) (hflight : r.flight = some (stepId, false)) :
      Step encode ownerId runId r { r with
        flight := some (stepId, true)
        handed := call :: r.handed }
  | finished {call : WriteCall} {rest : List Event} {stepId : ℕ} (accepted : Bool) (now : UtcTime)
      (detail : String) (refusals : List Bool) (htodo : r.todo = .write call :: rest)
      (hflight : r.flight = some (stepId, true)) :
      Step encode ownerId runId r { r with
        live := r.live.statement (finishWrite stepId accepted now detail) refusals
        todo := rest
        flight := none }
  /-- A timeout or an interrupt drops the write. -/
  | dropped {call : WriteCall} {rest : List Event} {flight : ℕ × Bool}
      (htodo : r.todo = .write call :: rest) (hflight : r.flight = some flight) :
      Step encode ownerId runId r { r with todo := rest, flight := none }

/-- What a run leaves behind at every moment: the write under way and those that were handed over
have their evidence. -/
structure EvidenceInv (encode : String → TagWrite → String) (ownerId : ℕ) (ctx : RunContext)
    (record : List Event) (r : AuditedRun) : Prop where
  reach : Reach r.live
  run : RunOnRecord ctx r.live.db.1
  todo : ∀ e ∈ r.todo, e ∈ record
  flight : ∀ flight call rest, r.flight = some flight → r.todo = .write call :: rest →
    Evident encode ownerId ctx.runId call r.live.db.1
  handed : ∀ call ∈ r.handed, .write call ∈ record ∧
    Evident encode ownerId ctx.runId call r.live.db.1

section Audited

variable {encode : String → TagWrite → String} {ownerId : ℕ} {ctx : RunContext}
  {record : List Event} {r r' : AuditedRun}

namespace EvidenceInv

/-- The database goes on; the run does not. -/
theorem meanwhile (inv : EvidenceInv encode ownerId ctx record r) {live : LiveSystem}
    (h : Meanwhile ctx.runId r.live live) :
    EvidenceInv encode ownerId ctx record { r with live := live } := by
  obtain ⟨hreach, hrun, hkept⟩ :=
    @Meanwhile.keeps ctx encode ownerId r.live live h inv.reach inv.run
  exact {
    reach := hreach
    run := hrun
    todo := inv.todo
    flight := fun flight call rest hflight htodo =>
      hkept call (inv.flight flight call rest hflight htodo)
    handed := fun call hcall => ⟨(inv.handed call hcall).1, hkept call (inv.handed call hcall).2⟩ }

/-- The run goes on to its next event. -/
theorem next (inv : EvidenceInv encode ownerId ctx record r) {e : Event} {rest : List Event}
    (htodo : r.todo = e :: rest) :
    EvidenceInv encode ownerId ctx record { r with todo := rest, flight := none } where
  reach := inv.reach
  run := inv.run
  todo := by
    intro e' he'
    apply inv.todo
    rw [htodo]
    exact List.mem_cons_of_mem _ he'
  flight := by
    intro flight call rest' hflight
    cases hflight
  handed := inv.handed

/-- The intent that was just recorded is the evidence of its write. -/
theorem begun (inv : EvidenceInv encode ownerId ctx record r) {call : WriteCall} {rest : List Event}
    {row : LiveMutationStepRow} {previousJson : Option String} {now : UtcTime}
    {refusals : List Bool} (htodo : r.todo = .write call :: rest)
    (h : answer (LiveMutationStepRow.begin (auditIntent encode ownerId ctx.runId call previousJson
      now)) r.live.db refusals = some row) :
    EvidenceInv encode ownerId ctx record { r with
      live := r.live.statement (LiveMutationStepRow.begin (auditIntent encode ownerId ctx.runId call
        previousJson now)) refusals
      flight := some (row.id, false) } := by
  have hkept := inv.meanwhile (.change (.begun (auditIntent encode ownerId ctx.runId call
    previousJson now) refusals))
  refine { hkept with flight := ?_ }
  intro flight call' rest' _ htodo'
  obtain ⟨hrow, _, _, hinserted⟩ := answer_of_ends (beginStep_ends _ _) h
  have hcall : call = call' := by
    have heq := htodo.symm.trans htodo'
    simp only [List.cons.injEq, Event.write.injEq] at heq
    exact heq.1
  subst hcall
  refine ⟨row, hinserted.mem_new, ?_⟩
  rw [hrow]
  exact ⟨rfl, rfl, rfl, rfl⟩

/-- **Every step keeps the evidence.** -/
theorem step (inv : EvidenceInv encode ownerId ctx record r)
    (h : AuditedRun.Step encode ownerId ctx.runId r r') :
    EvidenceInv encode ownerId ctx record r' := by
  cases h with
  | meanwhile hlive => exact inv.meanwhile hlive
  | passed htodo hflight =>
    have hnext := inv.next htodo
    rw [← hflight] at hnext
    exact hnext
  | begun previousJson now refusals htodo _ h => exact inv.begun htodo h
  | @handed call rest stepId htodo hflight =>
    have hevident := inv.flight _ call rest hflight htodo
    have hrecorded : .write call ∈ record := by
      apply inv.todo
      rw [htodo]
      exact List.mem_cons_self
    constructor
    · exact inv.reach
    · exact inv.run
    · exact inv.todo
    · intro flight call' rest' _ htodo'
      exact inv.flight _ call' rest' hflight htodo'
    · intro call' hcall'
      rcases List.mem_cons.mp hcall' with heq | hcall'
      · rw [heq]
        exact ⟨hrecorded, hevident⟩
      · exact inv.handed call' hcall'
  | finished accepted now detail refusals htodo hflight =>
    exact (inv.meanwhile (.change (.finished _ accepted now detail refusals))).next htodo
  | dropped htodo hflight => exact inv.next htodo

end EvidenceInv

theorem evidenceInv_run (h : Relation.ReflTransGen (AuditedRun.Step encode ownerId ctx.runId) r r')
    (inv : EvidenceInv encode ownerId ctx record r) : EvidenceInv encode ownerId ctx record r' := by
  induction h with
  | refl => exact inv
  | tail _ hstep ih => exact ih.step hstep

end Audited

/-! ### The guard that a recovery infers -/

/-- What a run takes from where it found it. -/
inductive Aspect where
  | mode
  | modeAttribute
  | mv
  deriving DecidableEq

/-- The aspect that a write mutates.  The later steps of a restore put back what was captured. -/
def Origin.mutates : Origin → Option Aspect
  | .manualMode => some .mode
  | .programMode => some .modeAttribute
  | .relay _ _ | .restoreMv _ => some .mv
  | .restoreMode | .restoreSetpoint | .restoreModeAttribute | .pid => none

/-- Whether the guard says that an aspect was mutated. -/
def MutationGuard.written (guard : MutationGuard) : Aspect → Bool
  | .mode => guard.modeWritten
  | .modeAttribute => guard.modeAttributeWritten
  | .mv => guard.mvWritten

/-- `write_target_json`. -/
def writeTargetJson (codec : Codec) (tag : String) (value : TagWrite) : String :=
  codec.print (value.target tag)

section Guard

variable {codec : Codec} {ctx : RunContext} {ownerId : ℕ} {call : WriteCall} {t : Tables}
  {run : TuneRunRow}

/-- The value of an audited write, as it is read back. -/
def TagWrite.readBack (codec : Codec) : TagWrite → Json
  | .float v => jsonF32 (codec.read v)
  | .raw s => .string s

theorem parseWriteTarget_print (hreads : codec.ReadsBack (call.value.target call.tag)) :
    parseWriteTarget codec.parse (writeTargetJson codec call.tag call.value) =
      some (call.tag, call.value.readBack codec) := by
  unfold parseWriteTarget writeTargetJson
  rw [hreads]
  unfold TagWrite.target TagWrite.readBack
  rw [mapFloats_ofMembers]
  cases call.value <;> simp [get_ofMembers, List.lookup_cons, asStr, mapFloats, jsonF32]

/-- A write that is evident is one that the guard looks for. -/
theorem Evident.any (h : Evident (writeTargetJson codec) ownerId ctx.runId call t)
    (hreads : codec.ReadsBack (call.value.target call.tag)) (expected : Option Json)
    (hexpected : expected.all (· = call.value.readBack codec) = true) :
    (t.stepsOfOwner ownerId).any (fun x =>
      x.counts && (parseWriteTarget codec.parse x.targetJson).any fun (writtenTag, writtenValue) =>
        writtenTag = call.tag && expected.all (· = writtenValue)) = true := by
  obtain ⟨x, hx, howner, _, hcounts, htarget⟩ := h
  refine List.any_eq_true.mpr ⟨x, ?_, ?_⟩
  · unfold Tables.stepsOfOwner
    rw [List.mem_filter]
    exact ⟨hx, decide_eq_true howner⟩
  · rw [hcounts, htarget, parseWriteTarget_print hreads]
    simp [hexpected]

/-- **The guard reports every write with evidence.** -/
theorem guard_of_evident (h : Evident (writeTargetJson codec) ownerId ctx.runId call t)
    (hreads : codec.ReadsBack (call.value.target call.tag)) (hattributed :
      (Event.write call).Attributed ctx) (htags : run.tags = ctx.tags)
    (htemplate : run.template = ctx.template) {aspect : Aspect}
    (hmutates : call.origin.mutates = some aspect) :
    (mutationGuard codec.parse run (t.stepsOfOwner ownerId)).written aspect = true := by
  rcases hattributed with (hpid : call.origin = .pid) | ⟨initial, haddressed⟩
  · rw [hpid] at hmutates
    cases hmutates
  · have haddressed' : call.Addressed ctx initial := haddressed
    unfold WriteCall.Addressed at haddressed'
    have hwritten := h.any hreads
    cases horigin : call.origin with
    | relay tolerance pending =>
      rw [horigin] at haddressed' hmutates
      cases hmutates
      unfold MutationGuard.written mutationGuard
      simp only [Option.any_some]
      rw [htags, ← haddressed']
      exact hwritten none rfl
    | restoreMv tolerance =>
      rw [horigin] at haddressed' hmutates
      cases hmutates
      unfold MutationGuard.written mutationGuard
      simp only [Option.any_some]
      rw [htags, ← haddressed'.1]
      exact hwritten none rfl
    | manualMode =>
      rw [horigin] at haddressed' hmutates
      cases hmutates
      show Option.any _ run.tags.controllerMode = true
      rw [htags, htemplate, haddressed'.1]
      refine hwritten _ ?_
      rw [haddressed'.2]
      exact decide_eq_true rfl
    | programMode =>
      rw [horigin] at haddressed' hmutates
      cases hmutates
      obtain ⟨htag, v, hv, hvalue⟩ := haddressed'
      show Option.any _ run.tags.modeAttribute = true
      rw [htags, htemplate, htag, hv]
      refine hwritten _ ?_
      rw [hvalue]
      exact decide_eq_true rfl
    | _ =>
      rw [horigin] at hmutates
      cases hmutates

end Guard

/-- **A crash never hides a mutation.**  For every run of a live tune, every interleaving of its
audited writes with what else happens to the database, and every point at which its process stops:
the run is on record, and the guard that a recovery infers for it reports every aspect of which a
write was handed to the inner driver. -/
theorem crash_evidence (codec : Codec) (fuel : ℕ) (prepared : PreparedTune) (hasHandler : Bool)
    (s : Sys) (hnew : s.trace = []) (ownerId : ℕ) (live : LiveSystem) (hlive : Reach live)
    (hrecord : RunOnRecord prepared.ctx live.db.1)
    (hreads : ∀ call, .write call ∈ recordOf (driveReport fuel prepared hasHandler) s →
      codec.ReadsBack (call.value.target call.tag))
    {r : AuditedRun} (hrun : Relation.ReflTransGen
      (AuditedRun.Step (writeTargetJson codec) ownerId prepared.ctx.runId)
      { live := live, todo := recordOf (driveReport fuel prepared hasHandler) s } r) :
    ∃ run, r.live.db.1.runs.find? (fun x => x.id = prepared.ctx.runId) = some run ∧
      ∀ call ∈ r.handed, ∀ aspect, call.origin.mutates = some aspect →
        (mutationGuard codec.parse run (r.live.db.1.stepsOfOwner ownerId)).written aspect =
          true := by
  have inv := evidenceInv_run hrun {
    reach := hlive
    run := hrecord
    todo := fun _ he => he
    flight := fun _ _ _ hflight => nomatch hflight
    handed := fun _ hcall => nomatch hcall }
  obtain ⟨run, hmem, hid, htags, htemplate⟩ := inv.run
  refine ⟨run, ?_, ?_⟩
  · rw [← hid]
    exact find?_eq_some_of_key r.live.db.2.runs.primaryKey hmem
  · intro call hcall aspect hmutates
    obtain ⟨hfrom, hevident⟩ := inv.handed call hcall
    have hattributed := recordOf_attributed fuel prepared hasHandler hnew _ hfrom
    exact guard_of_evident hevident (hreads call hfrom) hattributed htags htemplate hmutates

/-! ### The loop FC1 -/

/-- The loop FC1 in Auto, whose writes are answered with an error. -/
def stalledLoop : Environment where
  answers := fun _ =>
    { values := .ok
        [⟨"FC1.MV", "", .finite 50, .good⟩, ⟨"FC1.PV", "", .finite 50, .good⟩,
          ⟨"FC1.MODE", "AUTO", .notANumber, .good⟩]
      outcome := .error "timed out" }
  signals := []
  signals_sorted := Environment.noSignals_sorted

/-- The record of a run on it. -/
def stalledRecord : List Event :=
  recordOf (driveReport 5 flowPrepared false) (flowSys stalledLoop)

/-- Whether the target of a write is read back as it is printed. -/
def Event.readsBackIn (codec : Codec) : Event → Bool
  | .write call => decide (codec.parse (codec.print (call.value.target call.tag)) =
      some ((call.value.target call.tag).mapFloats codec.read))
  | _ => true

/-- The write that puts the controller in Manual. -/
def stalledCall : WriteCall :=
  ⟨.manualMode, "FC1.MODE", .raw "MAN", 0, 0, .failed "timed out" false⟩

/-- A printer and a parser on the targets of its writes. -/
def targetCodec : Codec where
  print v :=
    if v = TagWrite.target "FC1.MODE" (.raw "MAN") then
      "\x7b\"tag\":\"FC1.MODE\",\"value\":\"MAN\"\x7d"
    else if v = TagWrite.target "FC1.MV" (.float 50) then
      "\x7b\"tag\":\"FC1.MV\",\"value\":50.0\x7d"
    else ""
  parse s :=
    if s = "\x7b\"tag\":\"FC1.MODE\",\"value\":\"MAN\"\x7d" then
      some (TagWrite.target "FC1.MODE" (.raw "MAN"))
    else if s = "\x7b\"tag\":\"FC1.MV\",\"value\":50.0\x7d" then
      some (TagWrite.target "FC1.MV" (.float 50))
    else none
  read := id

/-- A run goes past events that it records nothing for. -/
theorem passed_all {encode : String → TagWrite → String} {ownerId runId : ℕ} (live : LiveSystem)
    (before rest : List Event) :
    Relation.ReflTransGen (AuditedRun.Step encode ownerId runId)
      { live := live, todo := before ++ rest } { live := live, todo := rest } := by
  induction before with
  | nil => exact .refl
  | cons e before ih => exact .head (.passed rfl rfl) ih

/-- The step of the mode write. -/
def stalledIntent : NewLiveMutationStep :=
  auditIntent (writeTargetJson targetCodec) 1 1 stalledCall none 0

/-- The database once that step is recorded. -/
def stalledSystem : LiveSystem :=
  tuningSystem.statement (LiveMutationStepRow.begin stalledIntent) []

/-- The sweep that orphans the tune. -/
def stalledSweep : LiveCall := .markOrphaned ⟨1, 0, flowClaimKey, 60, "{}", true, "died"⟩

/-- The process dies in the midst of its mode write, and the sweep orphans the tune. -/
theorem crash_evidence_stalled :
    ∃ run, (stalledSystem.callWith stalledSweep []).db.1.runs.find? (fun x => x.id = 1) =
        some run ∧ run.recoveryState = some .eligible ∧
      (mutationGuard targetCodec.parse run
        ((stalledSystem.callWith stalledSweep []).db.1.stepsOfOwner 1)).written .mode = true := by
  have hmem : .write stalledCall ∈ stalledRecord := by decide +kernel
  obtain ⟨before, rest, hrecord⟩ := List.append_of_mem hmem
  have hstep : ∃ row, answer (LiveMutationStepRow.begin stalledIntent) tuningSystem.db [] =
      some row := Option.isSome_iff_exists.mp (by decide)
  obtain ⟨row, hrow⟩ := hstep
  have hwritten : Relation.ReflTransGen (AuditedRun.Step (writeTargetJson targetCodec) 1 1)
      { live := tuningSystem, todo := stalledRecord }
      { live := stalledSystem.callWith stalledSweep []
        todo := .write stalledCall :: rest
        flight := some (row.id, true)
        handed := [stalledCall] } := by
    rw [hrecord]
    refine (passed_all tuningSystem before _).trans ?_
    refine .head (.begun none 0 [] rfl rfl hrow) ?_
    refine .head (.handed rfl rfl) ?_
    exact .single (.meanwhile (.change (.call stalledSweep [] trivial)))
  have hreads : stalledRecord.all (Event.readsBackIn targetCodec) = true := by decide +kernel
  have hbacks : ∀ call, .write call ∈ stalledRecord →
      targetCodec.ReadsBack (call.value.target call.tag) := by
    intro call hcall
    have hread := List.all_eq_true.mp hreads _ hcall
    unfold Event.readsBackIn at hread
    rw [decide_eq_true_eq] at hread
    exact hread
  have honrecord : RunOnRecord flowPrepared.ctx tuningSystem.db.1 := by
    unfold RunOnRecord
    decide
  obtain ⟨run, hfind, hguard⟩ := crash_evidence targetCodec 5 flowPrepared false
    (flowSys stalledLoop) rfl 1 tuningSystem reach_tuning honrecord hbacks hwritten
  refine ⟨run, hfind, ?_, hguard stalledCall List.mem_cons_self .mode rfl⟩
  have hstate : ((stalledSystem.callWith stalledSweep []).db.1.runs.find? fun x => x.id = 1).map
      (·.recoveryState) = some (some .eligible) := by decide +kernel
  have hfind' : (stalledSystem.callWith stalledSweep []).db.1.runs.find? (fun x => x.id = 1) =
    some run := hfind
  rw [hfind'] at hstate
  exact Option.some.inj hstate

end Bhtune
