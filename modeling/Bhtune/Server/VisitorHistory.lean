import Bhtune.Server.VisitorIsolation

/-!
# The runs of visitors

All requests of a Demo server, its tunes, its cleanup and its restarts together.

* `agreement_demo` — what a request may do is what all others put up with;
* `visitors_isolated` — a visitor is sent nothing of the runs of others, and cancels none of them;
* `history_kept` — nobody else changes or removes the runs of a visitor before their time;
* `run_limits` — the limits of runs hold at every moment;
* `demoAnswer` — answers by which such runs can be computed.
-/

namespace Bhtune

open SharedPrograms Relation Table

variable {κ : Type} {limits : DemoLimits}

/-! ### What goes on besides the requests -/

section Together

variable {hash : String → String} {mode : ServerMode} {retentionDays : Option UInt32}
variable {s s' : DemoServer κ} {t : DemoTables κ} {i : Visit}

/-- Why the server itself changes or removes a run: its tune records something, retention takes it
away, or it is older than the general retention. -/
inductive Housekeeping (limits : DemoLimits) (retentionDays : Option UInt32) (s : DemoServer κ)
    (t : DemoTables κ) (r : TuneRunRow) : Prop
  | tune (u : RunUpdate) (hactive : r.id ∈ s.active)
      (hruns : t.tables.runs = updateWhere (fun x => x.id = r.id) u.apply s.db.tables.runs)
  | retention (h : Pruned limits s t r)
  | sweep (days : UInt32) (hdays : days ∈ retentionDays)
      (hold : r.startedAt ≤ cutoffFor days s.clock) (hended : r.deletable = true) (hgone : Gone t r)

/-- What the background does. -/
structure Housekept (limits : DemoLimits) (retentionDays : Option UInt32) (s s' : DemoServer κ) :
    Prop where
  does : Does (Housekeeping limits retentionDays s s'.db) s.db s'.db
  clock : s.clock ≤ s'.clock
  admission : s'.admission = s.admission
  started : s'.started = s.started
  cancelled : s'.cancelled = s.cancelled
  sent : s'.sent = s.sent

theorem housekept_statement {β : Type} {f : DemoStatement κ β}
    (h : ∀ t b, f s.db = .ok (t, b) → Does (Housekeeping limits retentionDays s t) s.db t) :
    Housekept limits retentionDays s (s.statement f) := by
  unfold DemoServer.statement
  split
  · exact ⟨h _ _ ‹_›, le_rfl, rfl, rfl, rfl, rfl⟩
  · exact ⟨.refl _ _, le_rfl, rfl, rfl, rfl, rfl⟩

theorem DemoBackground.housekept (h : s.Inv limits)
    (hstep : DemoBackground limits retentionDays s s') : Housekept limits retentionDays s s' := by
  cases hstep with
  | tick hle => exact ⟨.refl _ _, hle, rfl, rfl, rfl, rfl⟩
  | record runId u hactive =>
    refine housekept_statement fun t row hupdate => (DemoRun.update_spec hupdate).mono ?_
    rintro r _ rfl
    exact .tune u hactive (DemoRun.update_runs hupdate)
  | children children =>
    refine ⟨⟨?_, fun _ hr => .inl hr⟩, le_rfl, rfl, rfl, rfl, rfl⟩
    exact .touched id SameSession.refl rfl rfl (List.map_id _).symm rfl
  | trim sessionId =>
    refine housekept_statement fun t n hprune =>
      (DemoRun.pruneTerminalForDemoSession_spec h.valid hprune).mono fun r _ hreason => ?_
    exact .retention ⟨hreason.1.1, .inl hreason.1.2, hreason.2⟩
  | tuneOver runId => exact ⟨.refl _ _, le_rfl, rfl, rfl, rfl, rfl⟩
  | cleanupSessions =>
    refine housekept_statement fun t n hcleanup =>
      (DemoSessionRow.cleanupExpired_spec h.valid hcleanup).mono fun r _ hreason => ?_
    exact .retention ⟨hreason.1.1, .inr hreason.1.2, hreason.2⟩
  | cleanupRuns =>
    refine housekept_statement fun t n hprune =>
      (DemoRun.pruneTerminalDemoOwned_spec h.valid hprune).mono fun r _ hreason => ?_
    exact .retention ⟨hreason.1.1, .inl hreason.1.2, hreason.2⟩
  | sweep days hdays =>
    refine housekept_statement fun t n hdelete =>
      (DemoRun.deleteMatching_spec h.valid hdelete).mono fun r _ hreason => ?_
    have hold := hreason.1.1
    rw [matches_startedBefore] at hold
    exact .sweep days hdays (of_decide_eq_true hold) hreason.1.2 hreason.2

theorem Housekept.inv (h : s.Inv limits) (hkept : Housekept limits retentionDays s s') :
    s'.Inv limits := by
  obtain ⟨hvalid, honce, hbelow, hby, hsent, hcancelled, hper, hglobal⟩ := h.change hkept.does.change
  refine ⟨hvalid, ?_, ?_, ?_, ?_, ?_, hper, hglobal⟩
  · rw [hkept.started]
    exact honce
  · rw [hkept.started]
    exact hbelow
  · rw [hkept.started]
    exact hby
  · rw [hkept.sent, hkept.started]
    exact hsent
  · rw [hkept.cancelled, hkept.started]
    exact hcancelled

theorem Housekept.within (h : s.Inv limits) (hkept : Housekept limits retentionDays s s') :
    Within limits i s s' where
  inv := hkept.inv h
  sessions := hkept.does.change.sessionsKept
  started := by
    rw [hkept.started]
    exact fun _ he => he
  clock := hkept.clock
  lock hlock := ⟨hkept.admission.trans hlock, hkept.does.change.noMoreRuns⟩

theorem DemoServer.Inv.restarted (h : s.Inv limits) : s.restarted.Inv limits :=
  ⟨h.valid, h.startedOnce, h.startedBelow, h.startedBy, h.sentOwn, h.cancelledOwn, h.perSession,
    h.global⟩

theorem DemoRestart.inv (h : s.Inv limits) (hrestart : DemoRestart s s') : s'.Inv limits := by
  cases hrestart with
  | ended => exact h.restarted
  | recovered =>
    unfold DemoServer.statement
    split
    · exact h.restarted.change (DemoSessionRow.recoverRunningDemoRuns_spec ‹_›).change
    · exact h.restarted

theorem Guarantee.leave (h : s.Inv limits) : Guarantee limits i s (s.leave i) where
  inv := ⟨h.valid, h.startedOnce, h.startedBelow, h.startedBy, h.sentOwn, h.cancelledOwn,
    h.perSession, h.global⟩
  sessions := .refl s.db
  started := fun _ he => he
  clock := rfl
  lock := by
    intro j hj hlock
    unfold DemoServer.leave
    rw [hlock]
    exact if_neg fun heq => hj (Option.some.inj heq)
  noMore := fun _ => .of_eq rfl
  rows := fun _ hr => .inl hr

/-! ### Runs that are computed -/

section Schedule

/-- One answer of each operation: nothing fails, permits are granted, and a start waits for the lock
while another one has it. -/
def demoAnswer (plan : RunPlan) (i : Visit) :
    ∀ {β : Type}, DemoOp κ β → DemoServer κ → Option (β × DemoServer κ)
  | _, .db f, s =>
    match f s.db with
    | .ok (t, b) => some (.ok b, { s with db := t })
    | .error e => some (.error e, s)
  | _, .startRun new, s =>
    match DemoRun.start new s.db with
    | .ok (t, run) => some (.ok run, { s with db := t, started := (run.id, i.token) :: s.started })
    | .error e => some (.error e, s)
  | _, .now, s => some (s.clock, s)
  | _, .permit, s => some (true, s)
  | _, .lockStartAdmission, s =>
    if s.admission = none then some ((), { s with admission := some i }) else none
  | _, .reserveAcceptedStart, s => some (.ok (), s)
  | _, .releaseAcceptedStart, s => some ((), s)
  | _, .configSnapshot, s => some (true, s)
  | _, .plan, s => some (.ok plan, s)
  | _, .driverSetup, s => some (.ok (), s)
  | _, .activeStart runId, s => some (true, { s with active := runId :: s.active })
  | _, .activeCancel runId, s =>
    let running := decide (runId ∈ s.active)
    some (running, if running then { s with cancelled := (i, runId) :: s.cancelled } else s)
  | _, .deadline, s => some (false, s)
  | _, .send event, s => some ((), { s with sent := (i, event) :: s.sent })

theorem demoAnswer_exec {plan : RunPlan} {i : Visit} {β : Type} (o : DemoOp κ β)
    (s : DemoServer κ) (b : β) (s' : DemoServer κ) (h : demoAnswer plan i o s = some (b, s')) :
    demoExec i o s b s' := by
  cases o with
  | db f =>
    dsimp only [demoAnswer] at h
    split at h
    · cases h
      exact .inr ⟨_, _, ‹_›, rfl, rfl⟩
    · cases h
      exact .inl ⟨_, rfl, rfl⟩
  | startRun new =>
    dsimp only [demoAnswer] at h
    split at h
    · cases h
      exact .inr ⟨_, _, ‹_›, rfl, rfl⟩
    · cases h
      exact .inl ⟨_, rfl, rfl⟩
  | lockStartAdmission =>
    dsimp only [demoAnswer] at h
    split at h
    · cases h
      exact ⟨‹_›, rfl⟩
    · cases h
  | now =>
    cases h
    exact ⟨rfl, rfl⟩
  | activeCancel runId =>
    cases h
    exact ⟨rfl, rfl⟩
  | _ =>
    cases h
    rfl

variable (mode : ServerMode) (limits : DemoLimits) (plan : RunPlan)

/-- A visit: who comes, and what for. -/
structure DemoVisit where
  who : Visit
  presented : Except ApiError String
  request : DemoRequest

/-- The visit presents the token it is known by, in some cookies. -/
def DemoVisit.Genuine (hash : String → String) (v : DemoVisit) : Prop :=
  v.who.token = v.presented.toOption ∧ ∃ cookies, parsedTokenHash hash cookies = v.presented

/-- At most `n` operations of a visit. -/
def DemoVisit.begin (v : DemoVisit) (n : ℕ) (s : DemoServer κ) : DemoProg κ Unit × DemoServer κ :=
  (serve v.presented mode limits v.request).turns (demoAnswer plan v.who) n s

/-- Visits one after the other, none with more than a hundred operations. -/
def afterVisits (visits : List DemoVisit) (s : DemoServer κ) : DemoServer κ :=
  visits.foldl (fun s v => (v.begin mode limits plan 100 s).2.leave v.who) s

variable {hash : String → String} {mode limits plan} {retentionDays : Option UInt32}
variable {before after : List (Visit × DemoProg κ Unit)} {s : DemoServer κ}

theorem runs_demoAnswer (i : Visit) (n : ℕ) (p : DemoProg κ Unit) :
    Pool.Runs (demoParties κ hash mode limits retentionDays) ⟨s, before ++ (i, p) :: after⟩
      ⟨(p.turns (demoAnswer plan i) n s).2,
        before ++ (i, (p.turns (demoAnswer plan i) n s).1) :: after⟩ :=
  Pool.runs_turns demoAnswer_exec n

/-- A visit that comes and goes. -/
theorem runs_begin {v : DemoVisit} (hv : v.Genuine hash)
    (hnew : v.who ∉ after.map Prod.fst) (n : ℕ) :
    Pool.Runs (demoParties κ hash mode limits retentionDays) ⟨s, after⟩
      ⟨(v.begin mode limits plan n s).2,
        (v.who, (v.begin mode limits plan n s).1) :: after⟩ := by
  have hstart : Pool.Step (demoParties κ hash mode limits retentionDays) ⟨s, after⟩ none
      ⟨s, (v.who, serve v.presented mode limits v.request) :: after⟩ := by
    obtain ⟨htoken, cookies, hcookies⟩ := hv
    rw [← hcookies] at htoken ⊢
    exact .start hnew ⟨cookies, v.request, htoken, rfl⟩
  exact (ReflTransGen.single ⟨none, hstart⟩).trans (@runs_demoAnswer _ _ _ _ _ _ [] after s v.who n _)

theorem runs_gone (i : Visit) (p : DemoProg κ Unit) :
    Pool.Runs (demoParties κ hash mode limits retentionDays) ⟨s, before ++ (i, p) :: after⟩
      ⟨s.leave i, before ++ after⟩ :=
  .single ⟨some i, .gone⟩

theorem runs_afterVisits {visits : List DemoVisit}
    (hvisits : ∀ v ∈ visits, v.Genuine hash)
    (s : DemoServer κ) :
    Pool.Runs (demoParties κ hash mode limits retentionDays) (Pool.idle s)
      (Pool.idle (afterVisits mode limits plan visits s)) := by
  induction visits generalizing s with
  | nil => exact .refl
  | cons v visits ih =>
    have hbegin : Pool.Runs (demoParties κ hash mode limits retentionDays) (Pool.idle s)
        ⟨(v.begin mode limits plan 100 s).2,
          [(v.who, (v.begin mode limits plan 100 s).1)]⟩ :=
      runs_begin (hvisits v List.mem_cons_self) List.not_mem_nil 100
    have hgone : Pool.Runs (demoParties κ hash mode limits retentionDays)
        ⟨(v.begin mode limits plan 100 s).2,
          [(v.who, (v.begin mode limits plan 100 s).1)]⟩
        (Pool.idle ((v.begin mode limits plan 100 s).2.leave v.who)) :=
      @runs_gone _ _ _ _ _ [] [] _ v.who _
    exact (hbegin.trans hgone).trans
      (ih (fun w hw => hvisits w (List.mem_cons_of_mem _ hw)) _)

variable (mode limits plan) in
/-- The visit `v` stops after `n` operations, `w` comes and goes on as far as it can, and then first
`v` is done and then `w`. -/
def afterOvertaking (v w : DemoVisit) (n : ℕ) (s : DemoServer κ) : DemoServer κ :=
  let first := v.begin mode limits plan n s
  let second := w.begin mode limits plan 100 first.2
  let last := first.1.turns (demoAnswer plan v.who) 100 second.2
  (second.1.turns (demoAnswer plan w.who) 100 (last.2.leave v.who)).2.leave w.who

theorem runs_afterOvertaking {v w : DemoVisit} (hvw : w.who ≠ v.who)
    (hv : v.Genuine hash)
    (hw : w.Genuine hash) (n : ℕ) (s : DemoServer κ) :
    Pool.Runs (demoParties κ hash mode limits retentionDays) (Pool.idle s)
      (Pool.idle (afterOvertaking mode limits plan v w n s)) := by
  let first := v.begin mode limits plan n s
  let second := w.begin mode limits plan 100 first.2
  let last := first.1.turns (demoAnswer plan v.who) 100 second.2
  let rest := second.1.turns (demoAnswer plan w.who) 100 (last.2.leave v.who)
  have hnew : w.who ∉ [(v.who, first.1)].map Prod.fst := fun hmem => hvw (List.mem_singleton.mp hmem)
  have hfirst : Pool.Runs (demoParties κ hash mode limits retentionDays) (Pool.idle s)
      ⟨first.2, [(v.who, first.1)]⟩ := runs_begin hv List.not_mem_nil n
  have hsecond : Pool.Runs (demoParties κ hash mode limits retentionDays)
      ⟨first.2, [(v.who, first.1)]⟩ ⟨second.2, [(w.who, second.1), (v.who, first.1)]⟩ :=
    runs_begin hw hnew 100
  have hlast : Pool.Runs (demoParties κ hash mode limits retentionDays)
      ⟨second.2, [(w.who, second.1), (v.who, first.1)]⟩ ⟨last.2, [(w.who, second.1), (v.who, last.1)]⟩ :=
    @runs_demoAnswer _ _ _ _ _ _ [(w.who, second.1)] [] _ v.who 100 first.1
  have hleft : Pool.Runs (demoParties κ hash mode limits retentionDays)
      ⟨last.2, [(w.who, second.1), (v.who, last.1)]⟩ ⟨last.2.leave v.who, [(w.who, second.1)]⟩ :=
    @runs_gone _ _ _ _ _ [(w.who, second.1)] [] _ v.who last.1
  have hrest : Pool.Runs (demoParties κ hash mode limits retentionDays)
      ⟨last.2.leave v.who, [(w.who, second.1)]⟩ ⟨rest.2, [(w.who, rest.1)]⟩ :=
    @runs_demoAnswer _ _ _ _ _ _ [] [] _ w.who 100 second.1
  have hempty : Pool.Runs (demoParties κ hash mode limits retentionDays)
      ⟨rest.2, [(w.who, rest.1)]⟩ (Pool.idle (rest.2.leave w.who)) :=
    @runs_gone _ _ _ _ _ [] [] _ w.who rest.1
  exact hfirst.trans (hsecond.trans (hlast.trans (hleft.trans (hrest.trans hempty))))

end Schedule

/-! ### Two visitors -/

/-- Limits of a few runs. -/
def narrowLimits : DemoLimits where
  toDemoPolicy := demoPolicy
  sessionTtlSecs := 3600
  runTimeoutSecs := 60
  maxActiveRunsPerVisitor := 1
  retainedRunsPerVisitor := 1
  maxRunsPerSession := 2
  maxTuneRunRowsGlobal := 3
  sseLifetimeSecs := 60
  ordinaryRequestTimeoutSecs := 5
  cleanupIntervalSecs := 60

/-- A server that nobody has visited. -/
def quietServer : DemoServer Unit where
  db := { tables := Tables.empty, children := [], sessions := [], nextSession := 1 }
  clock := 0
  active := []
  admission := none
  started := []
  cancelled := []
  sent := []

theorem quietServer_inv : quietServer.Inv narrowLimits where
  valid := ⟨⟨List.nodup_nil, fun _ hr => absurd hr List.not_mem_nil⟩,
    ⟨List.nodup_nil, fun _ hx => absurd hx List.not_mem_nil⟩,
    fun _ hr => absurd hr List.not_mem_nil⟩
  startedOnce := List.nodup_nil
  startedBelow := fun _ he => absurd he List.not_mem_nil
  startedBy := fun _ _ _ hx => absurd hx List.not_mem_nil
  sentOwn := fun _ he => absurd he List.not_mem_nil
  cancelledOwn := fun _ he => absurd he List.not_mem_nil
  perSession := fun _ => Nat.zero_le _
  global := Nat.zero_le _

/-- What a start of the loop FC1 works out. -/
def flowPlan : RunPlan where
  config := flowLoopConfig
  templateOrigin := .builtin
  template := flowTemplate
  tags := flowTags
  tuning := ⟨5, 500, 1800, 10, 30⟩
  allowUncertainQuality := true

def aliceToken : String := String.ofList (List.replicate 64 'a')

def bobToken : String := String.ofList (List.replicate 64 'b')

def alice (number : ℕ) (request : DemoRequest) : DemoVisit :=
  ⟨⟨number, some aliceToken⟩, .ok aliceToken, request⟩

def bob (number : ℕ) (request : DemoRequest) : DemoVisit :=
  ⟨⟨number, some bobToken⟩, .ok bobToken, request⟩

/-- A cookie header with a token. -/
def cookieOf (token : String) : List (Option String) := [some (demoCookieName ++ "=" ++ token)]

theorem alice_genuine (number : ℕ) (request : DemoRequest) : (alice number request).Genuine id := by
  have hcookie : parsedTokenHash id (cookieOf aliceToken) = .ok aliceToken := by decide +kernel
  exact ⟨rfl, _, hcookie⟩

theorem bob_genuine (number : ℕ) (request : DemoRequest) : (bob number request).Genuine id := by
  have hcookie : parsedTokenHash id (cookieOf bobToken) = .ok bobToken := by decide +kernel
  exact ⟨rfl, _, hcookie⟩

/-- Alice has counted the runs and has not yet inserted hers when Bob comes to start one. -/
def bothStarted : DemoServer Unit :=
  afterOvertaking .demo narrowLimits flowPlan (alice 1 (.startRun (.ok ())))
    (bob 2 (.startRun (.ok ()))) 16
    quietServer

/-- The tune of a run is aborted. -/
def afterTune (runId : ℕ) (s : DemoServer Unit) : DemoServer Unit :=
  { s.statement (DemoRun.update runId (.aborted s.clock)) with active := s.active.erase runId }

/-- Alice asks for Bob's run, each of them cancels hers, and its tune ends. -/
def cancelledOnce : DemoServer Unit :=
  afterTune 1 (afterVisits .demo narrowLimits flowPlan
    [alice 3 (.getRun 2), bob 4 (.cancelRun 1), alice 5 (.cancelRun 1)] bothStarted)

/-- Alice reads the end of her run from a stream and starts another one. -/
def startedAgain : DemoServer Unit :=
  afterVisits .demo narrowLimits flowPlan [alice 6 (.streamRun 1 2), alice 7 (.startRun (.ok ()))]
    cancelledOnce

/-- That one ends too, and Bob starts another one. -/
def prunedByBob : DemoServer Unit :=
  afterVisits .demo narrowLimits flowPlan [bob 8 (.startRun (.ok ()))] (afterTune 3 startedAgain)

theorem runs_afterTune {s : DemoServer Unit} {runId : ℕ} (hactive : runId ∈ s.active) :
    Pool.Runs (demoParties Unit id .demo narrowLimits none) (Pool.idle s)
      (Pool.idle (afterTune runId s)) := by
  have hkept : (s.statement (DemoRun.update runId (.aborted s.clock))).active = s.active := by
    unfold DemoServer.statement
    split <;> rfl
  refine (ReflTransGen.single ⟨none, .besides (.record runId (.aborted s.clock) hactive)⟩).tail
    ⟨none, .besides ?_⟩
  unfold afterTune
  rw [← hkept]
  exact .tuneOver runId

theorem runs_cancelledOnce :
    Pool.Runs (demoParties Unit id .demo narrowLimits none) (Pool.idle quietServer)
      (Pool.idle cancelledOnce) := by
  have hboth : Pool.Runs (demoParties Unit id .demo narrowLimits none) (Pool.idle quietServer)
      (Pool.idle bothStarted) :=
    runs_afterOvertaking (by decide) (alice_genuine _ _) (bob_genuine _ _) 16 quietServer
  have hvisits : ∀ v ∈ [alice 3 (.getRun 2), bob 4 (.cancelRun 1), alice 5 (.cancelRun 1)],
      v.Genuine id :=
    List.forall_mem_cons.mpr ⟨alice_genuine _ _, List.forall_mem_cons.mpr ⟨bob_genuine _ _,
      List.forall_mem_singleton.mpr (alice_genuine _ _)⟩⟩
  exact hboth.trans ((runs_afterVisits hvisits bothStarted).trans
    (runs_afterTune (by decide +kernel)))

theorem runs_startedAgain :
    Pool.Runs (demoParties Unit id .demo narrowLimits none) (Pool.idle cancelledOnce)
      (Pool.idle startedAgain) := by
  have hvisits : ∀ v ∈ [alice 6 (.streamRun 1 2), alice 7 (.startRun (.ok ()))], v.Genuine id :=
    List.forall_mem_cons.mpr ⟨alice_genuine _ _, List.forall_mem_singleton.mpr (alice_genuine _ _)⟩
  exact runs_afterVisits hvisits cancelledOnce

theorem runs_prunedByBob :
    Pool.Runs (demoParties Unit id .demo narrowLimits none) (Pool.idle startedAgain)
      (Pool.idle prunedByBob) := by
  have hvisits : ∀ v ∈ [bob 8 (.startRun (.ok ()))], v.Genuine id :=
    List.forall_mem_singleton.mpr (bob_genuine _ _)
  exact (runs_afterTune (by decide +kernel)).trans (runs_afterVisits hvisits _)

/-! ### All of them -/

/-- **The visitors get along**: what a request may do is what all others put up with. -/
theorem agreement_demo :
    Agreement (demoParties κ hash mode limits retentionDays) (DemoServer.Inv limits) (Within limits)
      (Guarantee limits) where
  starts := by
    rintro i _ s h ⟨cookies, request, hi, rfl⟩
    exact keeps_serve hi h request
  leave := fun h => .leave h
  keeps := fun _ h => h.inv
  besides := fun h hstep => (hstep.housekept h).inv h
  restart := fun h hrestart => hrestart.inv h
  others := fun hij _ h => h.within hij
  besidesOthers := fun h hstep => (hstep.housekept h).within h

/-- The run was started with the token of the visit, and with no other. -/
def OnlyHis (s : DemoServer κ) (i : Visit) (runId : ℕ) : Prop :=
  ∀ token, (runId, token) ∈ s.started ↔ token = i.token

theorem DemoServer.Inv.onlyHis (h : s.Inv limits) {runId : ℕ} (hstarted : Started i runId s) :
    OnlyHis s i runId := by
  intro token
  constructor
  · intro htoken
    exact congrArg Prod.snd (List.inj_on_of_nodup_map h.startedOnce htoken hstarted rfl)
  · rintro rfl
    exact hstarted

/-- **A visitor is sent nothing of the runs of others**, and cancels none of them, however the
requests, the tunes, the cleanup and the restarts take turns. -/
theorem visitors_isolated {s₀ : DemoServer κ} (h : s₀.Inv limits)
    {pool : Pool (DemoOp κ) (DemoServer κ) Visit}
    (hrun : Pool.Runs (demoParties κ hash mode limits retentionDays) (Pool.idle s₀) pool) :
    (∀ e ∈ pool.state.sent, ∀ id ∈ e.2.about, OnlyHis pool.state e.1 id) ∧
      ∀ e ∈ pool.state.cancelled, OnlyHis pool.state e.1 e.2 := by
  have hinv := (agreement_demo.reach h hrun).holds
  constructor
  · exact fun e he id hid => hinv.onlyHis (hinv.sentOwn e he id hid)
  · exact fun e he => hinv.onlyHis (hinv.cancelledOwn e he)

/-- Alice was sent her own run, and nothing of Bob's; she cancelled hers, and Bob did not. -/
theorem visitors_isolated_two :
    startedAgain.started = [(3, some aliceToken), (2, some bobToken), (1, some aliceToken)] ∧
      (startedAgain.sent.map fun e => (e.1.number, e.2.about)) =
        [(7, [3]), (6, [1]), (5, []), (4, []), (3, []), (2, [2]), (1, [1])] ∧
      (startedAgain.cancelled.map fun e => (e.1.number, e.2)) = [(5, 1)] ∧
      (∀ e ∈ startedAgain.sent, ∀ id ∈ e.2.about, OnlyHis startedAgain e.1 id) ∧
      ∀ e ∈ startedAgain.cancelled, OnlyHis startedAgain e.1 e.2 := by
  have hisolated := visitors_isolated quietServer_inv (runs_cancelledOnce.trans runs_startedAgain)
  exact ⟨by decide +kernel, by decide +kernel, by decide +kernel, hisolated⟩

/-- Why a run is no longer there as it was. -/
inductive TouchedBy (limits : DemoLimits) (retentionDays : Option UInt32)
    (before : Pool (DemoOp κ) (DemoServer κ) Visit) (who : Option Visit)
    (after : Pool (DemoOp κ) (DemoServer κ) Visit) (r : TuneRunRow) : Prop
  /-- A request with the token the run was started with. -/
  | visitor (i : Visit) (hwho : who = some i) (hhis : OnlyHis before.state i r.id)
  | retention (h : Pruned limits before.state after.state.db r)
  | server (hwho : who = none)
      (h : Housekeeping limits retentionDays before.state after.state.db r)
  /-- A new process fails the runs that were left running. -/
  | restart (hwho : who = none) (hnobody : after.running = []) (hrunning : r.outcome = .running)
      (hruns : after.state.db.tables.runs =
        updateWhere (fun x => x.demoSessionId.isSome && x.outcome = .running)
          (RunUpdate.failed before.state.clock demoRestartInterruptedReason).apply
          before.state.db.tables.runs)

/-- **One step.**  A row that it changes or removes has a reason. -/
theorem touchedBy_of_step {before after : Pool (DemoOp κ) (DemoServer κ) Visit} {who : Option Visit}
    (hsound : before.Sound (demoParties κ hash mode limits retentionDays) (DemoServer.Inv limits)
      (Within limits) (Guarantee limits))
    (hstep : Pool.Step (demoParties κ hash mode limits retentionDays) before who after)
    {r : TuneRunRow} (hbefore : r ∈ before.state.db.tables.runs)
    (hafter : r ∉ after.state.db.tables.runs) :
    TouchedBy limits retentionDays before who after r := by
  cases hwho : who with
  | some i =>
    have hG := (agreement_demo.step hsound hstep).2 i hwho
    rcases hG.rows r hbefore with hkept | hstarted | hpruned
    · exact absurd hkept hafter
    · exact .visitor i rfl (hsound.holds.onlyHis hstarted)
    · exact .retention hpruned
  | none =>
    subst hwho
    cases hstep with
    | start => exact absurd hbefore hafter
    | besides hbesides =>
      have hdoes := (hbesides.housekept hsound.holds).does
      exact .server rfl ((hdoes.rows r hbefore).resolve_left hafter)
    | @restart s s' running hrestart =>
      cases hrestart with
      | ended => exact absurd hbefore hafter
      | recovered =>
        have hrecover : DemoSessionRow.recoverRunningDemoRuns s.clock s.db = .ok (_, _) := rfl
        have hdoes := DemoSessionRow.recoverRunningDemoRuns_spec hrecover
        exact .restart rfl rfl ((hdoes.rows r hbefore).resolve_left hafter).2 rfl

/-- **Nobody else touches the runs of a visitor before their time.**  Where a row is no longer there
as it was, some step changed or removed it: one of a request with the token the run was started
with; or retention, which only takes away a run that has ended; or what its own tune recorded; or a
restart, which fails it if it was running. -/
theorem history_kept {s₀ : DemoServer κ} (h : s₀.Inv limits)
    {pool pool' : Pool (DemoOp κ) (DemoServer κ) Visit}
    (hrun : Pool.Runs (demoParties κ hash mode limits retentionDays) (Pool.idle s₀) pool)
    (hlater : Pool.Runs (demoParties κ hash mode limits retentionDays) pool pool')
    {r : TuneRunRow} (hr : r ∈ pool.state.db.tables.runs)
    (hgone : r ∉ pool'.state.db.tables.runs) :
    ∃ before who after, Pool.Runs (demoParties κ hash mode limits retentionDays) pool before ∧
      Pool.Step (demoParties κ hash mode limits retentionDays) before who after ∧
      Pool.Runs (demoParties κ hash mode limits retentionDays) after pool' ∧
      r ∈ before.state.db.tables.runs ∧ r ∉ after.state.db.tables.runs ∧
      TouchedBy limits retentionDays before who after r := by
  obtain ⟨before, who, after, hto, hstep, hfrom, hbefore, hafter⟩ :=
    hlater.turn (P := fun pool => r ∈ pool.state.db.tables.runs) hr hgone
  have hsound := agreement_demo.reach h (hrun.trans hto)
  exact ⟨before, who, after, hto, hstep, hfrom, hbefore, hafter,
    touchedBy_of_step hsound hstep hbefore hafter⟩

/-- A start of Bob's takes away the older of Alice's two runs that have ended. -/
theorem history_kept_pruned :
    ∃ r ∈ cancelledOnce.db.tables.runs, r.id = 1 ∧ r ∉ prunedByBob.db.tables.runs ∧
      ∃ before who after,
        Pool.Runs (demoParties Unit id .demo narrowLimits none) (Pool.idle cancelledOnce) before ∧
        Pool.Step (demoParties Unit id .demo narrowLimits none) before who after ∧
        Pool.Runs (demoParties Unit id .demo narrowLimits none) after (Pool.idle prunedByBob) ∧
        r ∈ before.state.db.tables.runs ∧ r ∉ after.state.db.tables.runs ∧
        TouchedBy narrowLimits none before who after r := by
  have hexists : ∃ r ∈ cancelledOnce.db.tables.runs, r.id = 1 ∧
      r ∉ prunedByBob.db.tables.runs := by decide +kernel
  obtain ⟨r, hr, hid, hgone⟩ := hexists
  exact ⟨r, hr, hid, hgone, history_kept quietServer_inv runs_cancelledOnce
    (runs_startedAgain.trans runs_prunedByBob) hr hgone⟩

/-- **The limits of runs hold at every moment**, for each session and for all of them together,
although a start counts first and inserts later. -/
theorem run_limits {s₀ : DemoServer κ} (h : s₀.Inv limits)
    {pool : Pool (DemoOp κ) (DemoServer κ) Visit}
    (hrun : Pool.Runs (demoParties κ hash mode limits retentionDays) (Pool.idle s₀) pool) :
    (∀ sessionId, pool.state.ownedRuns sessionId ≤ limits.maxRunsPerSession) ∧
      pool.state.demoRuns ≤ limits.maxTuneRunRowsGlobal :=
  have hinv := (agreement_demo.reach h hrun).holds
  ⟨hinv.perSession, hinv.global⟩

/-- Both limits are reached. -/
theorem run_limits_two :
    startedAgain.ownedRuns 1 = narrowLimits.maxRunsPerSession ∧
      startedAgain.demoRuns = narrowLimits.maxTuneRunRowsGlobal ∧
      (∀ sessionId, startedAgain.ownedRuns sessionId ≤ narrowLimits.maxRunsPerSession) ∧
      startedAgain.demoRuns ≤ narrowLimits.maxTuneRunRowsGlobal := by
  have hlimits := run_limits quietServer_inv (runs_cancelledOnce.trans runs_startedAgain)
  exact ⟨by decide +kernel, by decide +kernel, hlimits⟩

end Together

end Bhtune
