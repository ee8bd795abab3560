import Bhtune.Db.Deletion
import Bhtune.Server.DemoRoutes

/-!
# Visitors among each other

What one request of a Demo server guarantees to all others, and what it relies on of them.

* `DemoServer.Inv` — the invariant of the server;
* `Guarantee`, `Within` — what a request does, and what the others may do meanwhile;
* `keeps_serve` — every handler keeps to it.
-/

namespace Bhtune

open SharedPrograms Relation Table

variable {κ : Type} {limits : DemoLimits}

/-! ### The invariant -/

/-- The runs of a session. -/
def DemoServer.ownedRuns (s : DemoServer κ) (sessionId : ℕ) : ℕ :=
  affected (fun r => r.ownedBy sessionId) s.db.tables.runs

/-- The runs of all sessions. -/
def DemoServer.demoRuns (s : DemoServer κ) : ℕ :=
  affected (fun r : TuneRunRow => r.demoSessionId.isSome) s.db.tables.runs

/-- What holds of a Demo server at every moment. -/
structure DemoServer.Inv (limits : DemoLimits) (s : DemoServer κ) : Prop where
  valid : s.db.Valid
  startedOnce : (s.started.map Prod.fst).Nodup
  startedBelow : ∀ e ∈ s.started, e.1 < s.db.tables.nextRun
  startedBy : ∀ r ∈ s.db.tables.runs, ∀ x ∈ s.db.sessions, r.demoSessionId = some x.id →
    (r.id, some x.tokenHash) ∈ s.started
  sentOwn : ∀ e ∈ s.sent, ∀ id ∈ e.2.about, (id, e.1.token) ∈ s.started
  cancelledOwn : ∀ e ∈ s.cancelled, (e.2, e.1.token) ∈ s.started
  perSession : ∀ id, s.ownedRuns id ≤ limits.maxRunsPerSession
  global : s.demoRuns ≤ limits.maxTuneRunRowsGlobal

/-- Retention took the run away: it had ended, and there were enough newer ones of its session or
the session was over. -/
structure Pruned (limits : DemoLimits) (s : DemoServer κ) (t : DemoTables κ) (r : TuneRunRow) :
    Prop where
  ended : r.terminal = true
  surplus : Excess s.db limits.retainedRunsPerVisitor r ∨ SessionOver s.db s.clock r
  gone : Gone t r

/-- What a request does to the server. -/
structure Guarantee (limits : DemoLimits) (i : Visit) (s s' : DemoServer κ) : Prop where
  inv : s'.Inv limits
  sessions : SessionsKept s.db s'.db
  started : ∀ e ∈ s.started, e ∈ s'.started
  clock : s'.clock = s.clock
  lock : ∀ j, j ≠ i → s.admission = some j → s'.admission = some j
  noMore : s.admission ≠ some i → NoMoreRuns s.db s'.db
  rows : ∀ r ∈ s.db.tables.runs,
    r ∈ s'.db.tables.runs ∨ (r.id, i.token) ∈ s.started ∨ Pruned limits s s'.db r

/-- What the others may do during a request. -/
structure Within (limits : DemoLimits) (i : Visit) (s s' : DemoServer κ) : Prop where
  inv : s'.Inv limits
  sessions : SessionsKept s.db s'.db
  started : ∀ e ∈ s.started, e ∈ s'.started
  clock : s.clock ≤ s'.clock
  lock : s.admission = some i → s'.admission = some i ∧ NoMoreRuns s.db s'.db

section Steps

variable {s s' : DemoServer κ} {t : DemoTables κ} {i j : Visit}

theorem Guarantee.within (h : Guarantee limits i s s') (hij : i ≠ j) : Within limits j s s' where
  inv := h.inv
  sessions := h.sessions
  started := h.started
  clock := le_of_eq h.clock.symm
  lock := by
    intro hlock
    refine ⟨h.lock j hij.symm hlock, h.noMore ?_⟩
    rw [hlock]
    exact fun heq => hij (Option.some.inj heq).symm

theorem SessionsKept.refl (t : DemoTables κ) : SessionsKept t t :=
  ⟨le_rfl, fun x hx => .inr ⟨x, hx, .refl x⟩⟩

/-- A statement that starts no run keeps the invariant. -/
theorem DemoServer.Inv.change (h : s.Inv limits) (hchange : DemoChange s.db t) :
    ({ s with db := t } : DemoServer κ).Inv limits := by
  have hvalid := hchange.valid h.valid
  have hnoMore := hchange.noMoreRuns
  refine ⟨hvalid, h.startedOnce, ?_, ?_, h.sentOwn, h.cancelledOwn,
    fun id => (hnoMore.session id).trans (h.perSession id), hnoMore.all.trans h.global⟩
  · have hnext : t.tables.nextRun = s.db.tables.nextRun := by
      cases hchange <;> assumption
    intro e he
    show e.1 < t.tables.nextRun
    rw [hnext]
    exact h.startedBelow e he
  · intro r hr x hx hown
    show (r.id, some x.tokenHash) ∈ s.started
    cases hchange with
    | touched f hf hruns _ hsessions _ =>
      rw [hruns] at hr
      rw [hsessions] at hx
      obtain ⟨y, hy, rfl⟩ := List.mem_map.mp hx
      rw [(hf y).tokenHash]
      exact h.startedBy r hr y hy (by rw [hown, (hf y).id])
    | registered z hid hruns _ hsessions _ =>
      rw [hruns] at hr
      rw [hsessions] at hx
      rcases List.mem_append.mp hx with hx | hx
      · exact h.startedBy r hr x hx hown
      · -- no run belongs to a session that was not there
        obtain ⟨y, hy, hyid⟩ := h.valid.owned r hr x.id hown
        have hlt := h.valid.sessions.below y hy
        rw [hyid, List.mem_singleton.mp hx, hid] at hlt
        exact absurd hlt (lt_irrefl _)
    | updated p u hruns _ hsessions _ =>
      rw [hruns] at hr
      rw [hsessions] at hx
      obtain ⟨r₀, hr₀, rfl⟩ := mem_updateWhere.mp hr
      split at hown
      · rw [if_pos ‹_›, (u.apply_session r₀).1]
        rw [(u.apply_session r₀).2] at hown
        exact h.startedBy r₀ hr₀ x hx hown
      · rw [if_neg ‹_›]
        exact h.startedBy r₀ hr₀ x hx hown
    | deleted p q hruns _ hsessions _ _ =>
      rw [hruns] at hr
      rw [hsessions] at hx
      exact h.startedBy r (mem_deleteWhere.mp hr).1 x (mem_deleteWhere.mp hx).1 hown

theorem Guarantee.refl (h : s.Inv limits) : Guarantee limits i s s where
  inv := h
  sessions := .refl s.db
  started := fun _ he => he
  clock := rfl
  lock := fun _ _ hlock => hlock
  noMore := fun _ => .of_eq rfl
  rows := fun _ hr => .inl hr

/-- A statement whose changes of runs have a reason. -/
theorem Guarantee.statement {reason : TuneRunRow → Prop} (h : s.Inv limits)
    (hdoes : Does reason s.db t)
    (hreason : ∀ r ∈ s.db.tables.runs, reason r →
      (r.id, i.token) ∈ s.started ∨ Pruned limits s t r) :
    Guarantee limits i s { s with db := t } where
  inv := h.change hdoes.change
  sessions := hdoes.change.sessionsKept
  started := fun _ he => he
  clock := rfl
  lock := fun _ _ hlock => hlock
  noMore := fun _ => hdoes.change.noMoreRuns
  rows := fun r hr => (hdoes.rows r hr).imp_right (hreason r hr)

theorem affected_append_singleton {ρ : Type} (p : ρ → Bool) (rows : List ρ) (r : ρ) :
    affected p (rows ++ [r]) = affected p rows + if p r then 1 else 0 := by
  unfold affected
  rw [List.countP_append, List.countP_singleton]

/-- **A start keeps the invariant**: there is room for one more run, and the session is that of the
visitor. -/
theorem DemoServer.Inv.start {new : NewTuneRun} {run : TuneRunRow} {sessionId : ℕ}
    (h : s.Inv limits) (hstarts : Starts new s.db t run) (hnew : new.demoSessionId = some sessionId)
    (htoken : ∀ x ∈ s.db.sessions, x.id = sessionId → some x.tokenHash = i.token)
    (hroom : s.ownedRuns sessionId < limits.maxRunsPerSession)
    (hglobal : s.demoRuns < limits.maxTuneRunRowsGlobal) :
    ({ s with db := t, started := (run.id, i.token) :: s.started } : DemoServer κ).Inv limits := by
  have hid : run.id = s.db.tables.nextRun := by
    rw [hstarts.row]
    rfl
  have hown : run.demoSessionId = some sessionId := by
    rw [hstarts.row]
    exact hnew
  refine ⟨⟨?_, ?_, ?_⟩, ?_, ?_, ?_, ?_, ?_, ?_, ?_⟩
  · show Numbered TuneRunRow.id t.tables.nextRun t.tables.runs
    rw [hstarts.runs, hstarts.nextRun]
    exact numbered_append h.valid.runs hid
  · show Numbered DemoSessionRow.id t.nextSession t.sessions
    rw [hstarts.sessions, hstarts.nextSession]
    exact h.valid.sessions
  · intro r hr id hrid
    show ∃ x ∈ t.sessions, x.id = id
    rw [hstarts.sessions]
    replace hr : r ∈ t.tables.runs := hr
    rw [hstarts.runs] at hr
    rcases List.mem_append.mp hr with hr | hr
    · exact h.valid.owned r hr id hrid
    · rw [List.mem_singleton.mp hr, hown, ← hnew] at hrid
      exact hstarts.owner id hrid
  · refine List.nodup_cons.mpr ⟨?_, h.startedOnce⟩
    intro hmem
    obtain ⟨e, he, heq⟩ := List.mem_map.mp hmem
    have hlt := h.startedBelow e he
    rw [heq, hid] at hlt
    exact lt_irrefl _ hlt
  · intro e he
    show e.1 < t.tables.nextRun
    rw [hstarts.nextRun]
    rcases List.mem_cons.mp he with rfl | he
    · rw [hid]
      exact Nat.lt_succ_self _
    · exact (h.startedBelow e he).trans (Nat.lt_succ_self _)
  · intro r hr x hx hrown
    replace hr : r ∈ t.tables.runs := hr
    replace hx : x ∈ t.sessions := hx
    rw [hstarts.runs] at hr
    rw [hstarts.sessions] at hx
    rcases List.mem_append.mp hr with hr | hr
    · exact List.mem_cons_of_mem _ (h.startedBy r hr x hx hrown)
    · rw [List.mem_singleton.mp hr, hown] at hrown
      rw [List.mem_singleton.mp hr, htoken x hx (Option.some.inj hrown).symm]
      exact List.mem_cons_self
  · exact fun e he id hmem => List.mem_cons_of_mem _ (h.sentOwn e he id hmem)
  · exact fun e he => List.mem_cons_of_mem _ (h.cancelledOwn e he)
  · intro id
    show affected _ t.tables.runs ≤ _
    rw [hstarts.runs, affected_append_singleton]
    have hbound := h.perSession id
    unfold DemoServer.ownedRuns at hbound hroom
    by_cases heq : id = sessionId
    · subst heq
      split <;> omega
    · have hnot : run.ownedBy id = false := by
        unfold TuneRunRow.ownedBy
        rw [hown]
        exact decide_eq_false fun h => heq (Option.some.inj h).symm
      rw [if_neg (by rw [hnot]; decide)]
      exact hbound
  · show affected _ t.tables.runs ≤ _
    rw [hstarts.runs, affected_append_singleton]
    unfold DemoServer.demoRuns at hglobal
    split <;> omega

end Steps

/-! ### What lasts -/

/-- Neither the request nor the others undo it. -/
structure Lasting (limits : DemoLimits) (i : Visit) (P : DemoServer κ → Prop) : Prop where
  others : Stable (Within limits i) P
  own : Stable (Guarantee limits i) P

theorem Lasting.and {P P' : DemoServer κ → Prop} {i : Visit} (h : Lasting limits i P)
    (h' : Lasting limits i P') : Lasting limits i fun s => P s ∧ P' s :=
  ⟨h.others.and h'.others, h.own.and h'.own⟩

/-- The run was started with the token that the visit presents. -/
def Started (i : Visit) (id : ℕ) (s : DemoServer κ) : Prop := (id, i.token) ∈ s.started

/-- The session has the token that the visit presents, as long as it is there. -/
def Owns (i : Visit) (sessionId : ℕ) (s : DemoServer κ) : Prop :=
  sessionId < s.db.nextSession ∧
    ∀ x ∈ s.db.sessions, x.id = sessionId → some x.tokenHash = i.token

/-- All runs it is about were started with the token of the visit. -/
def AboutOwn (i : Visit) (event : DemoEvent κ) (s : DemoServer κ) : Prop :=
  ∀ id ∈ event.about, Started i id s

section Lasts

variable {s s' : DemoServer κ} {i : Visit} {runId sessionId : ℕ}

theorem lasting_inv : Lasting limits i (DemoServer.Inv (κ := κ) limits) :=
  ⟨fun _ _ _ h => h.inv, fun _ _ _ h => h.inv⟩

theorem lasting_started : Lasting limits i (Started (κ := κ) i runId) :=
  ⟨fun _ _ hs h => h.started _ hs, fun _ _ hs h => h.started _ hs⟩

theorem lasting_aboutOwn {event : DemoEvent κ} : Lasting limits i (AboutOwn i event) :=
  ⟨fun _ _ hs h id hid => h.started _ (hs id hid), fun _ _ hs h id hid => h.started _ (hs id hid)⟩

theorem Owns.kept (h : Owns i sessionId s) (hkept : SessionsKept s.db s'.db) :
    Owns i sessionId s' := by
  refine ⟨h.1.trans_le hkept.next, fun x hx hid => ?_⟩
  rcases hkept.origin x hx with hnew | ⟨y, hy, hsame⟩
  · rw [hid] at hnew
    exact absurd h.1 (not_lt_of_ge hnew)
  · rw [hsame.tokenHash]
    exact h.2 y hy (hsame.id.symm.trans hid)

theorem lasting_owns : Lasting limits i (Owns (κ := κ) i sessionId) :=
  ⟨fun _ _ hs h => hs.kept h.sessions, fun _ _ hs h => hs.kept h.sessions⟩

/-- The session of a row. -/
theorem DemoServer.Inv.owns (h : s.Inv limits) {x : DemoSessionRow} (hx : x ∈ s.db.sessions)
    (htoken : some x.tokenHash = i.token) : Owns i x.id s := by
  refine ⟨h.valid.sessions.below x hx, fun y hy hid => ?_⟩
  rw [h.valid.sessions.primaryKey.eq hy hx hid]
  exact htoken

/-- The runs of the session of a visit were started with its token. -/
theorem DemoServer.Inv.started (h : s.Inv limits) (howns : Owns i sessionId s) {r : TuneRunRow}
    (hr : r ∈ s.db.tables.runs) (hown : r.demoSessionId = some sessionId) : Started i r.id s := by
  obtain ⟨x, hx, hid⟩ := h.valid.owned r hr sessionId hown
  unfold Started
  rw [← howns.2 x hx hid]
  refine h.startedBy r hr x hx ?_
  rw [hid]
  exact hown

end Lasts

/-! ### Rules for the handlers -/

/-- `p` keeps to the guarantee of the request and ends in `Q`. -/
def Keeps (limits : DemoLimits) (i : Visit) {α : Type} (p : DemoProg κ α)
    (Q : α → DemoServer κ → Prop) (s : DemoServer κ) : Prop :=
  Safe (demoExec i) (Within limits i) (Guarantee limits i) p Q s

/-- The same of a handler that may end early. -/
def Handles (limits : DemoLimits) (i : Visit) {α : Type} (p : DemoM κ α)
    (Q : α → DemoServer κ → Prop) (s : DemoServer κ) : Prop :=
  SafeEx (demoExec i) (Within limits i) (Guarantee limits i) p Q s

section Rules

variable {α β : Type} {i : Visit} {s : DemoServer κ}

theorem keeps_pure {a : α} {Q : α → DemoServer κ → Prop} (h : Q a s) :
    Keeps limits i (pure a) Q s := h

theorem keeps_perform {o : DemoOp κ β} {P : DemoServer κ → Prop} {Q : β → DemoServer κ → Prop}
    (hstable : Stable (Within limits i) P) (h : s.Inv limits) (hs : P s)
    (hexec : ∀ s b s', s.Inv limits → P s → demoExec i o s b s' → Guarantee limits i s s' ∧ Q b s') :
    Keeps limits i (.perform o) Q s :=
  safe_call (lasting_inv.others.and hstable) ⟨h, hs⟩ fun s b s' hs hstep =>
    hexec s b s' hs.1 hs.2 hstep

theorem keeps_seq {p : DemoProg κ β} {f : β → DemoProg κ α} {M : β → DemoServer κ → Prop}
    {Q : α → DemoServer κ → Prop} (h : s.Inv limits) (hp : Keeps limits i p M s)
    (hf : ∀ b s, s.Inv limits → M b s → Keeps limits i (f b) Q s) :
    Keeps limits i (p >>= f) Q s :=
  safe_seq (hp.keep lasting_inv.others lasting_inv.own h) fun b s hs => hf b s hs.1 hs.2

/-- What lasts need not be carried through a program. -/
theorem Keeps.frame {p : DemoProg κ α} {P : DemoServer κ → Prop} {Q : α → DemoServer κ → Prop}
    (hlasting : Lasting limits i P) (h : Keeps limits i p Q s) (hs : P s) :
    Keeps limits i p (fun a s => P s ∧ Q a s) s :=
  Safe.keep hlasting.others hlasting.own h hs

theorem handles_pure {a : α} {Q : α → DemoServer κ → Prop} (h : Q a s) :
    Handles limits i (pure a) Q s := safeEx_pure h

theorem handles_throw {e : ApiError} {Q : α → DemoServer κ → Prop} :
    Handles limits i (throw e) Q s := safeEx_throw

theorem handles_lift {p : DemoProg κ α} {Q : α → DemoServer κ → Prop} (h : Keeps limits i p Q s) :
    Handles limits i (liftM p) Q s := safeEx_lift h

theorem handles_seq {p : DemoM κ β} {f : β → DemoM κ α} {M : β → DemoServer κ → Prop}
    {Q : α → DemoServer κ → Prop} (h : s.Inv limits) (hp : Handles limits i p M s)
    (hf : ∀ b s, s.Inv limits → M b s → Handles limits i (f b) Q s) :
    Handles limits i (p >>= f) Q s :=
  safeEx_seq (SafeEx.keep lasting_inv.others lasting_inv.own hp h) fun b s hs => hf b s hs.1 hs.2

theorem Handles.frame {p : DemoM κ α} {P : DemoServer κ → Prop} {Q : α → DemoServer κ → Prop}
    (hlasting : Lasting limits i P) (h : Handles limits i p Q s) (hs : P s) :
    Handles limits i p (fun a s => P s ∧ Q a s) s :=
  SafeEx.keep hlasting.others hlasting.own h hs

/-- An operation that only looks. -/
theorem keeps_look {o : DemoOp κ β} {Q : β → DemoServer κ → Prop} (h : s.Inv limits)
    (hlook : ∀ s b s', demoExec i o s b s' → s' = s)
    (hQ : ∀ s b, s.Inv limits → demoExec i o s b s → Q b s) : Keeps limits i (.perform o) Q s := by
  refine keeps_perform (P := fun _ => True) (fun _ _ _ _ => trivial) h trivial ?_
  intro s b s' h _ hexec
  cases hlook s b s' hexec
  exact ⟨.refl h, hQ s b h hexec⟩

theorem handles_idle {o : DemoOp κ β} (h : s.Inv limits)
    (hidle : ∀ s b s', demoExec i o s b s' → s' = s) :
    Handles limits i (ask o) (fun _ _ => True) s :=
  handles_lift (keeps_look h hidle fun _ _ _ _ => trivial)

theorem handles_liftExcept {x : Except ApiError β} :
    Handles limits i (liftExcept x) (fun b _ => x = .ok b) s := by
  rintro b rfl
  rfl

theorem handles_permit (h : s.Inv limits) {e : ApiError} :
    Handles limits i (permitOr e) (fun _ _ => True) s := by
  refine handles_seq h (handles_idle h fun _ _ _ hexec => hexec) fun granted s _ _ => ?_
  split
  · exact handles_pure trivial
  · exact handles_throw

/-- A statement, where `P` holds when it is made. -/
theorem keeps_db {f : DemoStatement κ β} {P : DemoServer κ → Prop}
    {Q : Except DemoDbError β → DemoServer κ → Prop}
    (hstable : Stable (Within limits i) P) (h : s.Inv limits) (hs : P s)
    (hfails : ∀ s e, P s → Q (.error e) s)
    (hdoes : ∀ s t b, s.Inv limits → P s → f s.db = .ok (t, b) →
      Guarantee limits i s { s with db := t } ∧ Q (.ok b) { s with db := t }) :
    Keeps limits i (.perform (.db f)) Q s := by
  refine keeps_perform hstable h hs fun s r s' h hs hexec => ?_
  rcases hexec with ⟨e, rfl, rfl⟩ | ⟨t, b, hf, rfl, rfl⟩
  · exact ⟨.refl h, hfails s' e hs⟩
  · exact hdoes s t b h hs hf

theorem handles_query {f : DemoStatement κ β} {P : DemoServer κ → Prop} {Q : β → DemoServer κ → Prop}
    (hstable : Stable (Within limits i) P) (h : s.Inv limits) (hs : P s)
    (hdoes : ∀ s t b, s.Inv limits → P s → f s.db = .ok (t, b) →
      Guarantee limits i s { s with db := t } ∧ Q b { s with db := t }) :
    Handles limits i (query f) Q s := by
  refine handles_seq (M := fun r s => ∀ b, r = .ok b → Q b s) h (handles_lift ?_) fun r s _ hr => ?_
  · refine keeps_db hstable h hs (fun _ _ _ => by rintro _ ⟨⟩) fun s t b h hs hf => ?_
    refine ⟨(hdoes s t b h hs hf).1, ?_⟩
    rintro _ ⟨⟩
    exact (hdoes s t b h hs hf).2
  · cases r with
    | ok b => exact handles_pure (hr b rfl)
    | error e => exact handles_throw

/-- A statement that only reads. -/
theorem handles_read {f : DemoStatement κ β} {P : DemoServer κ → Prop} {Q : β → DemoServer κ → Prop}
    (hread : ∀ t t' b, f t = .ok (t', b) → t' = t) (hstable : Stable (Within limits i) P)
    (h : s.Inv limits) (hs : P s) (hQ : ∀ s b, s.Inv limits → P s → f s.db = .ok (s.db, b) → Q b s) :
    Handles limits i (query f) Q s := by
  refine handles_query hstable h hs fun s t b h hs hf => ?_
  cases hread _ _ _ hf
  exact ⟨.refl h, hQ s b h hs hf⟩

end Rules

/-! ### The handlers -/

section Handlers

variable {presented : Except ApiError String} {mode : ServerMode}
variable {i : Visit} {s : DemoServer κ} {runId sessionId : ℕ}

theorem handles_ensureDemo : Handles limits i (ensureDemo mode) (fun _ _ => True) s := by
  unfold ensureDemo
  split
  · exact handles_pure trivial
  · exact handles_throw

theorem handles_identify (hi : i.token = presented.toOption)
    (h : s.Inv limits) :
    Handles limits i (identify presented)
      (fun identity s => ∀ x ∈ identity.persisted, Owns i x.id s) s := by
  refine handles_seq h handles_liftExcept fun tokenHash s h htoken => ?_
  rw [htoken] at hi
  refine handles_seq h (handles_idle h fun _ _ _ hexec => hexec.2) fun now s h _ => ?_
  refine handles_seq (M := fun persisted s => ∀ x ∈ persisted, Owns i x.id s) h ?_
    fun persisted s _ howns => handles_pure howns
  refine handles_query (P := fun _ => True) (fun _ _ _ _ => trivial) h trivial ?_
  intro s t persisted h _ hquery
  obtain ⟨hdoes, hrow⟩ := DemoSessionRow.getByTokenHash_spec hquery
  refine ⟨.statement h hdoes fun _ _ hfalse => hfalse.elim, fun x hx => ?_⟩
  obtain ⟨hmem, hhash⟩ := hrow x hx
  refine (h.change hdoes.change).owns hmem ?_
  rw [hhash, hi]
  rfl

theorem handles_identifyOwner (hi : i.token = presented.toOption)
    (h : s.Inv limits) :
    Handles limits i (identifyOwner presented runId) (fun ownerId s => Owns i ownerId s) s := by
  refine handles_seq h (handles_identify hi h) fun identity s h hidentity => ?_
  unfold ownerId
  split
  · intro ownerId hok
    cases hok
    exact hidentity _ ‹_›
  · rintro _ ⟨⟩

/-- What `get_for_demo_session` gives is the visitor's own. -/
theorem DemoServer.Inv.getForDemoSession (h : s.Inv limits) (howns : Owns i sessionId s)
    {run : Option TuneRunRow}
    (hget : DemoRun.getForDemoSession runId sessionId s.db = .ok (s.db, run)) :
    ∀ r ∈ run, r.id = runId ∧ Started i runId s := by
  cases hget
  intro r hr
  have hmem := List.mem_of_find?_eq_some hr
  have hfound := List.find?_some hr
  rw [Bool.and_eq_true] at hfound
  cases of_decide_eq_true hfound.1
  exact ⟨rfl, h.started howns hmem (of_decide_eq_true hfound.2)⟩

theorem handles_ownedRun (h : s.Inv limits) (howns : Owns i sessionId s) :
    Handles limits i (ownedRun runId sessionId)
      (fun run s => run.id = runId ∧ Started i runId s) s := by
  refine handles_seq (M := fun run s => ∀ r ∈ run, r.id = runId ∧ Started i runId s) h ?_
    fun run s _ hrun => ?_
  · refine handles_read (fun _ _ _ hread => by cases hread; rfl) lasting_owns.others h howns ?_
    exact fun s run h howns hget => h.getForDemoSession howns hget
  · cases run with
    | some run => exact handles_pure (hrun run rfl)
    | none => exact handles_throw

/-- The rows that are listed for a run are about it. -/
theorem handles_listForRun (h : s.Inv limits) (table : RunTable) :
    Handles limits i (query (DemoRun.listForRun table runId))
      (fun rows _ => ∀ c ∈ rows, c.runId = runId) s := by
  refine handles_read (P := fun _ => True) (fun _ _ _ hread => by cases hread; rfl)
    (fun _ _ _ _ => trivial) h trivial fun s rows _ _ hlist => ?_
  cases hlist
  intro c hc
  have hmatch := List.of_mem_filter ((List.perm_insertionSort _ _).mem_iff.mp hc)
  rw [Bool.and_eq_true] at hmatch
  exact of_decide_eq_true hmatch.2

theorem handles_buildOwnedRunDetail (h : s.Inv limits) (howns : Owns i sessionId s) :
    Handles limits i (buildOwnedRunDetail runId sessionId)
      (fun detail s => ∀ event ∈ detail, AboutOwn i event s) s := by
  refine handles_seq (M := fun run s => ∀ r ∈ run, r.id = runId ∧ Started i runId s) h ?_
    fun run s h hrun => ?_
  · refine handles_read (fun _ _ _ hread => by cases hread; rfl) lasting_owns.others h howns ?_
    exact fun s run h howns hget => h.getForDemoSession howns hget
  cases run with
  | none => exact handles_pure fun event hnone => by cases hnone
  | some run =>
    obtain ⟨hid, hstarted⟩ := hrun run rfl
    refine handles_seq h ((handles_listForRun h .samples).frame lasting_started hstarted)
      fun samples s h hs => ?_
    obtain ⟨hstarted, hsamples⟩ := hs
    refine handles_seq h ((handles_listForRun h .results).frame lasting_started hstarted)
      fun results s h hs => ?_
    obtain ⟨hstarted, hresults⟩ := hs
    refine handles_seq h ((handles_listForRun h .writes).frame lasting_started hstarted)
      fun writes s h hs => ?_
    obtain ⟨hstarted, hwrites⟩ := hs
    refine handles_seq h ((handles_listForRun h .mvActuations).frame lasting_started hstarted)
      fun mvActuations s h hs => ?_
    obtain ⟨hstarted, hmvActuations⟩ := hs
    refine handles_pure ?_
    rintro _ ⟨⟩ id hmem
    have hrun : id = runId := by
      rcases List.mem_cons.mp hmem with rfl | hmem
      · exact hid
      · obtain ⟨c, hc, rfl⟩ := List.mem_map.mp hmem
        rw [List.mem_append, List.mem_append, List.mem_append] at hc
        rcases hc with ((hc | hc) | hc) | hc
        · exact hsamples c hc
        · exact hresults c hc
        · exact hwrites c hc
        · exact hmvActuations c hc
    rw [hrun]
    exact hstarted

/-- Runs of the session are the visitor's own. -/
theorem DemoServer.Inv.aboutOwn (h : s.Inv limits) (howns : Owns i sessionId s)
    {runs : List TuneRunRow}
    (hruns : ∀ r ∈ runs, r ∈ s.db.tables.runs ∧ r.demoSessionId = some sessionId) :
    ∀ id ∈ runs.map TuneRunRow.id, Started i id s := by
  intro id hid
  obtain ⟨r, hr, rfl⟩ := List.mem_map.mp hid
  exact h.started howns (hruns r hr).1 (hruns r hr).2

theorem matches_demoSession {filter : TuneRunFilter} {r : TuneRunRow}
    (h : { filter with demoSessionId := some sessionId }.matches r = true) :
    r.demoSessionId = some sessionId := by
  unfold TuneRunFilter.matches at h
  simp only [Bool.and_eq_true] at h
  have hsession : filterEq (some sessionId) r.demoSessionId = true := by
    tauto
  exact of_decide_eq_true hsession

theorem handles_listPage (q : RunListQuery) (h : s.Inv limits) (howns : Owns i sessionId s) :
    Handles limits i (listPage limits q sessionId) (AboutOwn i) s := by
  refine handles_seq (M := fun runs s => ∀ id ∈ runs.map TuneRunRow.id, Started i id s) h ?_
    fun runs s h hruns => ?_
  · refine handles_read (fun _ _ _ hread => by cases hread; rfl) lasting_owns.others h howns ?_
    intro s runs h howns hlist
    cases hlist
    refine h.aboutOwn howns fun r hr => ?_
    have hmem := (List.perm_insertionSort _ _).mem_iff.mp
      (List.mem_of_mem_drop (List.mem_of_mem_take hr))
    exact ⟨List.mem_of_mem_filter hmem, matches_demoSession (List.of_mem_filter hmem)⟩
  · refine handles_seq h (Handles.frame (P := AboutOwn i (.runs runs 0)) lasting_aboutOwn
      (handles_read (P := fun _ => True) (Q := fun _ _ => True)
        (fun _ _ _ hread => by cases hread; rfl) (fun _ _ _ _ => trivial) h trivial
        fun _ _ _ _ _ => trivial) hruns) fun total s _ hs => ?_
    exact handles_pure hs.1

theorem handles_listRuns (hi : i.token = presented.toOption)
    (h : s.Inv limits) (q : RunListQuery) :
    Handles limits i (listRuns presented mode limits q) (AboutOwn i) s := by
  refine handles_seq h handles_ensureDemo fun _ s h _ => ?_
  refine handles_seq h (handles_permit h) fun _ s h _ => ?_
  refine handles_seq h (handles_identify hi h) fun identity s h hidentity => ?_
  split
  · exact handles_pure fun id hid => absurd hid List.not_mem_nil
  · split
    · exact handles_throw
    · exact handles_listPage q h (hidentity _ ‹_›)

theorem handles_lastRequest (hi : i.token = presented.toOption)
    (h : s.Inv limits) :
    Handles limits i (lastRequest presented mode limits) (AboutOwn i) s := by
  refine handles_seq h handles_ensureDemo fun _ s h _ => ?_
  refine handles_seq h (handles_permit h) fun _ s h _ => ?_
  refine handles_seq h (handles_identify hi h) fun identity s h hidentity => ?_
  split
  · exact handles_pure fun id hid => absurd hid List.not_mem_nil
  · refine handles_seq (M := fun run s => AboutOwn i (.lastRequest run) s) h ?_
      fun run s _ hrun => handles_pure hrun
    refine handles_read (fun _ _ _ hread => by cases hread; rfl) lasting_owns.others h
      (hidentity _ ‹_›) ?_
    intro s run h howns hnewest
    cases hnewest
    refine h.aboutOwn howns fun r hr => ?_
    have hmem := (List.perm_insertionSort _ _).mem_iff.mp
      (List.mem_of_mem_head? (Option.mem_toList.mp hr))
    have hown := List.of_mem_filter hmem
    exact ⟨List.mem_of_mem_filter hmem, of_decide_eq_true hown⟩

theorem handles_getRun (hi : i.token = presented.toOption)
    (h : s.Inv limits) :
    Handles limits i (getRun presented mode limits runId) (AboutOwn i) s := by
  refine handles_seq h handles_ensureDemo fun _ s h _ => ?_
  refine handles_seq h (handles_permit h) fun _ s h _ => ?_
  refine handles_seq h (handles_identifyOwner hi h) fun ownerId s h howns => ?_
  refine handles_seq h (handles_buildOwnedRunDetail h howns) fun detail s _ hdetail => ?_
  split
  · exact handles_pure (hdetail _ rfl)
  · exact handles_throw

/-- Only a run that the visitor started is cancelled. -/
theorem Guarantee.cancel (h : s.Inv limits) (hstarted : Started i runId s) :
    Guarantee limits i s { s with cancelled := (i, runId) :: s.cancelled } where
  inv := ⟨h.valid, h.startedOnce, h.startedBelow, h.startedBy, h.sentOwn,
    List.forall_mem_cons.mpr ⟨hstarted, h.cancelledOwn⟩, h.perSession, h.global⟩
  sessions := .refl s.db
  started := fun _ he => he
  clock := rfl
  lock := fun _ _ hlock => hlock
  noMore := fun _ => .of_eq rfl
  rows := fun _ hr => .inl hr

theorem handles_cancelRun (hi : i.token = presented.toOption)
    (h : s.Inv limits) :
    Handles limits i (cancelRun presented mode limits runId) (AboutOwn i) s := by
  refine handles_seq h handles_ensureDemo fun _ s h _ => ?_
  refine handles_seq h (handles_permit h) fun _ s h _ => ?_
  refine handles_seq h (handles_identifyOwner hi h) fun ownerId s h howns => ?_
  refine handles_seq h (handles_ownedRun h howns) fun run s h hrun => ?_
  split
  · exact handles_pure fun id hid => absurd hid List.not_mem_nil
  · refine handles_seq (M := fun _ _ => True) h (handles_lift ?_) fun _ s _ _ =>
      handles_pure fun id hid => absurd hid List.not_mem_nil
    refine keeps_perform lasting_started.others h hrun.2 fun s b s' h hstarted hexec => ?_
    obtain ⟨-, rfl⟩ := hexec
    refine ⟨?_, trivial⟩
    split
    · exact .cancel h hstarted
    · exact .refl h

theorem handles_deleteRun (hi : i.token = presented.toOption)
    (h : s.Inv limits) :
    Handles limits i (deleteRun presented mode limits runId) (AboutOwn i) s := by
  refine handles_seq h handles_ensureDemo fun _ s h _ => ?_
  refine handles_seq h (handles_permit h) fun _ s h _ => ?_
  refine handles_seq h (handles_identifyOwner hi h) fun ownerId s h howns => ?_
  refine handles_seq h ((handles_ownedRun h howns).frame lasting_owns howns)
    fun run s h hs => ?_
  obtain ⟨howns, _⟩ := hs
  split
  · exact handles_throw
  refine handles_seq (M := fun _ _ => True) h ?_ fun deleted s _ _ => ?_
  · refine handles_query lasting_owns.others h howns fun s t b h howns hdelete => ?_
    refine ⟨.statement h (DemoRun.deleteForDemoSession_spec hdelete) ?_, trivial⟩
    exact fun r hr hreason => .inl (h.started howns hr hreason.2)
  · split
    · exact handles_pure fun id hid => absurd hid List.not_mem_nil
    · exact handles_throw

theorem handles_exportRun (hi : i.token = presented.toOption)
    (h : s.Inv limits) :
    Handles limits i (exportRun presented mode limits runId) (AboutOwn i) s := by
  refine handles_seq h handles_ensureDemo fun _ s h _ => ?_
  refine handles_seq h (handles_permit h) fun _ s h _ => ?_
  refine handles_seq h (handles_identifyOwner hi h) fun ownerId s h howns => ?_
  refine handles_seq h (handles_ownedRun h howns) fun run s h hrun => ?_
  refine handles_seq h ((handles_listForRun h .samples).frame lasting_started hrun.2)
    fun samples s _ hs => ?_
  obtain ⟨hstarted, hsamples⟩ := hs
  split
  · exact handles_throw
  · refine handles_pure fun id hid => ?_
    obtain ⟨c, hc, rfl⟩ := List.mem_map.mp hid
    rw [hsamples c hc]
    exact hstarted

/-! ### Streams -/

/-- What is sent is the visitor's own. -/
theorem Guarantee.send {event : DemoEvent κ} (h : s.Inv limits) (hown : AboutOwn i event s) :
    Guarantee limits i s { s with sent := (i, event) :: s.sent } where
  inv := ⟨h.valid, h.startedOnce, h.startedBelow, h.startedBy,
    List.forall_mem_cons.mpr ⟨hown, h.sentOwn⟩, h.cancelledOwn, h.perSession, h.global⟩
  sessions := .refl s.db
  started := fun _ he => he
  clock := rfl
  lock := fun _ _ hlock => hlock
  noMore := fun _ => .of_eq rfl
  rows := fun _ hr => .inl hr

theorem keeps_send {event : DemoEvent κ} (h : s.Inv limits) (hown : AboutOwn i event s) :
    Keeps limits i (send event) (fun _ _ => True) s := by
  refine keeps_perform (P := AboutOwn i event) lasting_aboutOwn.others h hown ?_
  rintro s _ _ h hown rfl
  exact ⟨.send h hown, trivial⟩

theorem keeps_sendNone {event : DemoEvent κ} (h : s.Inv limits) (hnone : event.about = []) :
    Keeps limits i (send event) (fun _ _ => True) s := by
  refine keeps_send h fun id hid => ?_
  rw [hnone] at hid
  exact absurd hid List.not_mem_nil

theorem keeps_sendSamples {samples : List (RunChild κ)} (h : s.Inv limits)
    (hstarted : Started i runId s) (hsamples : ∀ c ∈ samples, c.runId = runId) :
    Keeps limits i (sendSamples samples) (fun _ _ => True) s := by
  induction samples generalizing s with
  | nil => exact keeps_pure trivial
  | cons row rows ih =>
    have hown : AboutOwn i (.sample row) s := by
      intro id hid
      rw [List.mem_singleton.mp hid, hsamples row List.mem_cons_self]
      exact hstarted
    refine keeps_seq h ((keeps_send h hown).frame lasting_started hstarted) fun _ s h hs => ?_
    exact ih h hs.1 fun c hc => hsamples c (List.mem_cons_of_mem _ hc)

theorem keeps_sendInitial {run : TuneRunRow} {sentInitial : Bool} (h : s.Inv limits)
    (hid : run.id = runId) (hstarted : Started i runId s) :
    Keeps limits i (sendInitial run sentInitial) (fun _ _ => True) s := by
  unfold sendInitial
  split
  · refine keeps_send h fun id hmem => ?_
    rw [List.mem_singleton.mp hmem, hid]
    exact hstarted
  · exact keeps_pure trivial

/-- The deadline is looked at, and what was known is still known. -/
theorem keeps_deadline {P : DemoServer κ → Prop} (hlasting : Lasting limits i P) (h : s.Inv limits)
    (hs : P s) : Keeps limits i (.perform .deadline) (fun _ s => P s ∧ True) s :=
  Keeps.frame hlasting (keeps_look h (fun _ _ _ hexec => hexec) fun _ _ _ _ => trivial) hs

/-- What a poll of the run gives. -/
theorem keeps_poll (h : s.Inv limits) (howns : Owns i sessionId s) :
    Keeps limits i (.perform (.db (DemoRun.getForDemoSession runId sessionId)))
      (fun run s => ∀ r, run = .ok (some r) → r.id = runId ∧ Started i runId s) s := by
  refine keeps_db lasting_owns.others h howns ?_ fun s t run h howns hget => ?_
  · rintro _ _ _ _ ⟨⟩
  · cases hget
    refine ⟨.refl h, ?_⟩
    intro r hr
    exact h.getForDemoSession howns rfl r (Except.ok.inj hr)

/-- What a poll of its samples gives. -/
theorem keeps_newSamples (h : s.Inv limits) (lastTick : ℤ) :
    Keeps limits i (.perform (.db (DemoRun.listForRunSince runId lastTick)))
      (fun samples _ => ∀ rows, samples = .ok rows → ∀ c ∈ rows, c.runId = runId) s := by
  refine keeps_db (P := fun _ => True) (fun _ _ _ _ => trivial) h trivial ?_
    fun s t samples h _ hlist => ?_
  · rintro _ _ _ _ ⟨⟩
  · cases hlist
    refine ⟨.refl h, ?_⟩
    rintro _ ⟨⟩ c hc
    have hmatch := List.of_mem_filter ((List.perm_insertionSort _ _).mem_iff.mp hc)
    rw [Bool.and_eq_true, Bool.and_eq_true] at hmatch
    exact of_decide_eq_true hmatch.1.2

/-- **The loop**, by induction on the polls that are left: the session stays the visitor's. -/
theorem keeps_streamLoop {polls : ℕ} {lastTick : ℤ} {sentInitial : Bool} (h : s.Inv limits)
    (howns : Owns i sessionId s) :
    Keeps limits i (streamLoop runId sessionId polls lastTick sentInitial) (fun _ _ => True) s := by
  induction polls generalizing s lastTick sentInitial with
  | zero => exact keeps_pure trivial
  | succ polls ih =>
    unfold streamLoop
    refine keeps_seq h (keeps_deadline lasting_owns h howns) fun late s h hs => ?_
    obtain ⟨howns, _⟩ := hs
    split
    · exact keeps_sendNone h rfl
    refine keeps_seq h ((keeps_poll h howns).frame lasting_owns howns) fun run s h hs => ?_
    obtain ⟨howns, hrun⟩ := hs
    split
    · exact keeps_sendNone h rfl
    · exact keeps_sendNone h rfl
    · obtain ⟨hid, hstarted⟩ := hrun _ rfl
      have hlasting : Lasting limits i fun s : DemoServer κ =>
          Owns i sessionId s ∧ Started i runId s := lasting_owns.and lasting_started
      refine keeps_seq h ((keeps_sendInitial h hid hstarted).frame hlasting ⟨howns, hstarted⟩)
        fun _ s h hs => ?_
      obtain ⟨hs, _⟩ := hs
      refine keeps_seq h (keeps_deadline hlasting h hs) fun late s h hs => ?_
      obtain ⟨hs, _⟩ := hs
      split
      · exact keeps_sendNone h rfl
      refine keeps_seq h ((keeps_newSamples h lastTick).frame hlasting hs)
        fun samples s h hs => ?_
      obtain ⟨hs, hsamples⟩ := hs
      split
      · exact keeps_sendNone h rfl
      refine keeps_seq h ((keeps_sendSamples h hs.2 (hsamples _ rfl)).frame hlasting hs)
        fun _ s h hs => ?_
      obtain ⟨hs, _⟩ := hs
      split
      · refine keeps_send h fun id hmem => ?_
        rw [List.mem_singleton.mp hmem, hid]
        exact hs.2
      refine keeps_seq h (keeps_deadline hlasting h hs) fun late s h hs => ?_
      obtain ⟨hs, _⟩ := hs
      split
      · exact keeps_sendNone h rfl
      · exact ih h hs.1

theorem handles_openStream (hi : i.token = presented.toOption)
    (h : s.Inv limits) :
    Handles limits i (openStream presented mode limits runId)
      (fun ownerId s => Owns i ownerId s) s := by
  refine handles_seq h handles_ensureDemo fun _ s h _ => ?_
  refine handles_seq h (handles_identifyOwner hi h) fun ownerId s h howns => ?_
  refine handles_seq h ((handles_ownedRun h howns).frame lasting_owns howns)
    fun run s h hs => ?_
  obtain ⟨howns, _⟩ := hs
  refine handles_seq h ((handles_permit h).frame lasting_owns howns) fun _ s h hs => ?_
  obtain ⟨howns, _⟩ := hs
  refine handles_seq h ((handles_permit h).frame lasting_owns howns) fun _ s _ hs => ?_
  obtain ⟨howns, _⟩ := hs
  exact handles_pure howns

theorem keeps_streamRun (hi : i.token = presented.toOption)
    (h : s.Inv limits) (polls : ℕ) :
    Keeps limits i (streamRun presented mode limits runId polls) (fun _ _ => True) s := by
  refine keeps_seq h (handles_openStream hi h) fun opened s h hopened => ?_
  split
  · exact keeps_sendNone h rfl
  · split
    · exact keeps_sendNone h rfl
    · exact keeps_streamLoop h (hopened _ rfl)

/-! ### Starts -/

/-- It goes on to hold while the visit has the lock of starts and no run is added. -/
structure UnderLock (i : Visit) (P : DemoServer κ → Prop) : Prop where
  held : ∀ s, P s → s.admission = some i
  fewer : ∀ s s', P s → s'.admission = some i → NoMoreRuns s.db s'.db → P s'

def HasLock (i : Visit) (s : DemoServer κ) : Prop := s.admission = some i

/-- With the lock held, there is room for one more run. -/
def RoomLeft (limits : DemoLimits) (i : Visit) (s : DemoServer κ) : Prop :=
  HasLock i s ∧ s.demoRuns < limits.maxTuneRunRowsGlobal

/-- There is room for one more run of the session. -/
def RoomFor (limits : DemoLimits) (i : Visit) (sessionId : ℕ) (s : DemoServer κ) : Prop :=
  RoomLeft limits i s ∧ s.ownedRuns sessionId < limits.maxRunsPerSession

theorem underLock_hasLock : UnderLock i (HasLock (κ := κ) i) :=
  ⟨fun _ hs => hs, fun _ _ _ hlock _ => hlock⟩

theorem underLock_roomLeft : UnderLock i (RoomLeft (κ := κ) limits i) :=
  ⟨fun _ hs => hs.1, fun _ _ hs hlock hfewer => ⟨hlock, hfewer.all.trans_lt hs.2⟩⟩

theorem underLock_roomFor : UnderLock i (RoomFor (κ := κ) limits i sessionId) :=
  ⟨fun _ hs => hs.1.1, fun s s' hs hlock hfewer =>
    ⟨underLock_roomLeft.fewer s s' hs.1 hlock hfewer, (hfewer.session sessionId).trans_lt hs.2⟩⟩

/-- While a visit has the lock, the others add no run. -/
theorem UnderLock.stable {P : DemoServer κ → Prop} (h : UnderLock i P) :
    Stable (Within limits i) P := by
  intro s s' hs hothers
  obtain ⟨hlock, hfewer⟩ := hothers.lock (h.held s hs)
  exact h.fewer s s' hs hlock hfewer

theorem handles_idleLocked {β : Type} {o : DemoOp κ β} {P : DemoServer κ → Prop}
    (hP : UnderLock i P) (h : s.Inv limits) (hs : P s)
    (hidle : ∀ s b s', demoExec i o s b s' → s' = s) :
    Handles limits i (ask o) (fun _ s => P s) s := by
  refine handles_lift (keeps_perform hP.stable h hs fun s b s' h hs hexec => ?_)
  cases hidle s b s' hexec
  exact ⟨.refl h, hs⟩

/-- A statement under the lock; `L` are the facts it needs. -/
theorem keeps_dbLocked {β : Type} {f : DemoStatement κ β} {P L : DemoServer κ → Prop}
    {Q : β → DemoServer κ → Prop} (hP : UnderLock i P) (hL : Lasting limits i L) (h : s.Inv limits)
    (hs : P s) (hfacts : L s)
    (hdoes : ∀ s t b, s.Inv limits → P s → L s → f s.db = .ok (t, b) →
      Does (fun r => Started i r.id s ∨ Pruned limits s t r) s.db t ∧ Q b { s with db := t }) :
    Keeps limits i (.perform (.db f)) (fun r s => P s ∧ L s ∧ ∀ b, r = .ok b → Q b s) s := by
  refine keeps_db (P := fun s => P s ∧ L s) (hP.stable.and hL.others) h ⟨hs, hfacts⟩ ?_ ?_
  · exact fun s e hs => ⟨hs.1, hs.2, by rintro _ ⟨⟩⟩
  · intro s t b h hs hf
    obtain ⟨hdo, hQ⟩ := hdoes s t b h hs.1 hs.2 hf
    have hguarantee : Guarantee limits i s { s with db := t } :=
      .statement h hdo fun _ _ hreason => hreason
    refine ⟨hguarantee, ?_, hL.own s _ hs.2 hguarantee, ?_⟩
    · exact hP.fewer s _ hs.1 (hP.held s hs.1) hdo.change.noMoreRuns
    · rintro _ ⟨⟩
      exact hQ

theorem handles_queryLocked {β : Type} {f : DemoStatement κ β} {P L : DemoServer κ → Prop}
    {Q : β → DemoServer κ → Prop} (hP : UnderLock i P) (hL : Lasting limits i L) (h : s.Inv limits)
    (hs : P s) (hfacts : L s)
    (hdoes : ∀ s t b, s.Inv limits → P s → L s → f s.db = .ok (t, b) →
      Does (fun r => Started i r.id s ∨ Pruned limits s t r) s.db t ∧ Q b { s with db := t }) :
    Handles limits i (query f) (fun b s => P s ∧ L s ∧ Q b s) s := by
  refine handles_seq h (handles_lift (keeps_dbLocked hP hL h hs hfacts hdoes)) fun r s _ hr => ?_
  cases r with
  | ok b => exact handles_pure ⟨hr.1, hr.2.1, hr.2.2 b rfl⟩
  | error e => exact handles_throw

theorem lasting_true : Lasting limits i fun _ : DemoServer κ => True :=
  ⟨fun _ _ _ _ => trivial, fun _ _ _ _ => trivial⟩

/-- The time that was read is past. -/
theorem lasting_clock {now : UtcTime} : Lasting limits i fun s : DemoServer κ => now ≤ s.clock :=
  ⟨fun _ _ hs h => hs.trans h.clock, fun _ _ hs h => hs.trans (le_of_eq h.clock.symm)⟩

theorem SessionOver.mono {t : DemoTables κ} {now later : UtcTime} {r : TuneRunRow}
    (h : SessionOver t now r) (hle : now ≤ later) : SessionOver t later r := by
  obtain ⟨x, hx, hown, hover⟩ := h
  exact ⟨x, hx, hown, hover.imp_left fun hexpired => hexpired.trans hle⟩

/-- The number of all runs of sessions is below the limit when it is looked at. -/
theorem handles_ensureGlobalRunCapacity (h : s.Inv limits) (hs : HasLock i s) :
    Handles limits i (ensureGlobalRunCapacity limits) (fun _ s => RoomLeft limits i s) s := by
  refine handles_seq h (handles_queryLocked (Q := fun current s => current = s.demoRuns)
    underLock_hasLock lasting_true h hs trivial ?_) fun current s _ hcurrent => ?_
  · intro s t current _ _ _ hcount
    cases hcount
    exact ⟨.refl _ _, rfl⟩
  · split
    · exact handles_throw
    · refine handles_pure ⟨hcurrent.1, ?_⟩
      rw [← hcurrent.2.2]
      exact not_le.mp ‹_›

/-- The session of a start is the visitor's. -/
theorem handles_startSession {tokenHash : String} {now : UtcTime} (hi : i.token = some tokenHash)
    (h : s.Inv limits) (hs : RoomLeft limits i s) :
    Handles limits i (startSession limits tokenHash now)
      (fun session s => RoomLeft limits i s ∧ Owns i session.id s) s := by
  have hget : ∀ {s : DemoServer κ}, s.Inv limits → RoomLeft limits i s →
      Handles limits i (query (DemoSessionRow.getByTokenHash tokenHash now))
        (fun row s => RoomLeft limits i s ∧ True ∧ ∀ x ∈ row, Owns i x.id s) s := by
    intro s h hs
    refine handles_queryLocked underLock_roomLeft lasting_true h hs trivial ?_
    intro s t row h _ _ hquery
    obtain ⟨hdoes, hrow⟩ := DemoSessionRow.getByTokenHash_spec hquery
    refine ⟨hdoes.mono fun _ _ hfalse => hfalse.elim, fun x hx => ?_⟩
    refine (h.change hdoes.change).owns (hrow x hx).1 ?_
    rw [(hrow x hx).2, hi]
  refine handles_seq h (hget h hs) fun row s h hs => ?_
  split
  · exact handles_pure ⟨hs.1, hs.2.2 _ rfl⟩
  · refine handles_seq h (handles_queryLocked (Q := fun row s => ∀ x ∈ row, Owns i x.id s)
      underLock_roomLeft lasting_true h hs.1 trivial ?_) fun row s h hs => ?_
    · intro s t row h _ _ hinsert
      obtain ⟨hdoes, hrow⟩ := DemoSessionRow.insert_spec hinsert
      refine ⟨hdoes.mono fun _ _ hfalse => hfalse.elim, fun x hx => ?_⟩
      refine (h.change hdoes.change).owns (hrow x hx).1 ?_
      rw [(hrow x hx).2, hi]
    · split
      · exact handles_pure ⟨hs.1, hs.2.2 _ rfl⟩
      · refine handles_seq h (hget h hs.1) fun row s _ hs => ?_
        split
        · exact handles_pure ⟨hs.1, hs.2.2 _ rfl⟩
        · exact handles_throw

theorem handles_trimOwnedHistory (h : s.Inv limits) (hs : RoomLeft limits i s)
    (howns : Owns i sessionId s) :
    Handles limits i (trimOwnedHistory limits sessionId)
      (fun _ s => RoomLeft limits i s ∧ Owns i sessionId s) s := by
  refine handles_seq h (handles_lift (keeps_dbLocked (Q := fun _ _ => True) underLock_roomLeft
    lasting_owns h hs howns ?_)) fun _ s _ hs => handles_pure ⟨hs.1, hs.2.1⟩
  intro s t n h _ _ hprune
  refine ⟨(DemoRun.pruneTerminalForDemoSession_spec h.valid hprune).mono ?_, trivial⟩
  exact fun r _ hreason => .inr ⟨hreason.1.1, .inl hreason.1.2, hreason.2⟩

/-- A statement about a run that the visitor started, whatever it answers. -/
theorem keeps_dbOwn {β : Type} {f : DemoStatement κ β} (h : s.Inv limits)
    (hstarted : Started i runId s)
    (hdoes : ∀ t t' b, f t = .ok (t', b) → Does (fun r => r.id = runId) t t') :
    Keeps limits i (.perform (.db f)) (fun _ s => Started i runId s) s := by
  refine keeps_db lasting_started.others h hstarted (fun _ _ hs => hs) fun s t b h hs hf => ?_
  refine ⟨.statement h (hdoes _ t b hf) fun r _ hid => .inl ?_, hs⟩
  rw [hid]
  exact hs

theorem keeps_recordMetadata (plan : RunPlan) (h : s.Inv limits) (hstarted : Started i runId s) :
    Keeps limits i (recordMetadata runId plan).run (fun _ s => Started i runId s) s := by
  have hnext : ∀ {s : DemoServer κ} {u : RunUpdate} {p : ExceptT DemoDbError (DemoProg κ) Unit},
      s.Inv limits → Started i runId s →
      (∀ s, s.Inv limits → Started i runId s →
        Keeps limits i p.run (fun _ s => Started i runId s) s) →
      Keeps limits i (do
        let _ ← ExceptT.mk (.perform (.db (DemoRun.update runId u)))
        p : ExceptT DemoDbError (DemoProg κ) Unit).run (fun _ s => Started i runId s) s := by
    intro s u p h hs hp
    refine keeps_seq h (keeps_dbOwn h hs fun _ _ _ => DemoRun.update_spec) fun r s h hs => ?_
    cases r with
    | ok row => exact hp s h hs
    | error e => exact keeps_pure hs
  refine hnext h hstarted fun s h hs => hnext h hs fun s h hs => hnext h hs fun s h hs => ?_
  refine keeps_seq h (keeps_dbOwn h hs ?_) fun r s _ hs => ?_
  · intro t t' row hnotes
    rw [DemoRun.updateNotes_spec hnotes]
    exact .refl _ _
  · cases r with
    | ok row => exact keeps_pure hs
    | error e => exact keeps_pure hs

theorem handles_finalizePreparationFailure {reason : String} (h : s.Inv limits)
    (hstarted : Started i runId s) :
    Handles limits i (finalizePreparationFailure runId reason) (fun _ _ => True) s := by
  refine handles_seq h
    ((handles_idle (o := .now) h fun _ _ _ hexec => hexec.2).frame lasting_started hstarted)
    fun now s h hs => ?_
  refine handles_seq h (handles_lift (keeps_dbOwn h hs.1 fun _ _ _ => DemoRun.update_spec))
    fun r s h hs => ?_
  split
  · exact handles_pure trivial
  · exact handles_seq h (handles_lift (keeps_dbOwn h hs fun _ _ _ => DemoRun.delete_spec))
      fun _ s _ _ => handles_pure trivial

theorem handles_completeDriverSetup (h : s.Inv limits) (hstarted : Started i runId s) :
    Handles limits i (completeDriverSetup runId) (fun _ s => Started i runId s) s := by
  refine handles_seq h
    ((handles_idle (o := .driverSetup) h fun _ _ _ hexec => hexec).frame lasting_started hstarted)
    fun r s h hs => ?_
  split
  · exact handles_pure hs.1
  · refine handles_seq h
      ((handles_idle (o := .now) h fun _ _ _ hexec => hexec.2).frame lasting_started hs.1)
      fun now s h hs => ?_
    exact handles_seq h (handles_lift (keeps_dbOwn h hs.1 fun _ _ _ => DemoRun.update_spec))
      fun _ s _ _ => handles_throw

/-- The new run is the visitor's, and there was room for it. -/
theorem Guarantee.start {new : NewTuneRun} {t : DemoTables κ} {run : TuneRunRow}
    (h : s.Inv limits) (hs : RoomFor limits i sessionId s) (howns : Owns i sessionId s)
    (hnew : new.demoSessionId = some sessionId) (hstarts : Starts new s.db t run) :
    Guarantee limits i s { s with db := t, started := (run.id, i.token) :: s.started } where
  inv := h.start hstarts hnew (fun x hx hid => howns.2 x hx hid) hs.2 hs.1.2
  sessions := ⟨le_of_eq hstarts.nextSession.symm, fun x hx => .inr ⟨x, hstarts.sessions ▸ hx, .refl x⟩⟩
  started := fun _ he => List.mem_cons_of_mem _ he
  clock := rfl
  lock := fun _ _ hlock => hlock
  noMore := fun hnot => absurd hs.1.1 hnot
  rows := fun _ hr => .inl (hstarts.runs ▸ List.mem_append_left _ hr)

theorem handles_start {new : NewTuneRun} (hnew : new.demoSessionId = some sessionId)
    (h : s.Inv limits) (hs : RoomFor limits i sessionId s) (howns : Owns i sessionId s) :
    Handles limits i (ask (.startRun new))
      (fun r s => ∀ run, r = .ok run → Started i run.id s) s := by
  refine handles_lift (keeps_perform (P := fun s => RoomFor limits i sessionId s ∧
    Owns i sessionId s) (underLock_roomFor.stable.and lasting_owns.others) h ⟨hs, howns⟩ ?_)
  intro s r s' h hs hexec
  rcases hexec with ⟨e, rfl, rfl⟩ | ⟨t, run, hstart, rfl, rfl⟩
  · exact ⟨.refl h, by rintro _ ⟨⟩⟩
  · refine ⟨.start h hs.1 hs.2 hnew (DemoRun.start_spec hstart), ?_⟩
    rintro _ ⟨⟩
    exact List.mem_cons_self

theorem handles_prepareOwned (h : s.Inv limits) (hs : RoomFor limits i sessionId s)
    (howns : Owns i sessionId s) :
    Handles limits i (prepareOwned limits sessionId) (fun runId s => Started i runId s) s := by
  refine handles_seq h ((handles_idleLocked (o := .plan) underLock_roomFor h hs
    fun _ _ _ hexec => hexec).frame lasting_owns howns) fun plan s h hs => ?_
  split
  · exact handles_throw
  refine handles_seq h ((handles_idleLocked (o := .now) underLock_roomFor h hs.2
    fun _ _ _ hexec => hexec.2).frame lasting_owns hs.1) fun startedAt s h hs => ?_
  refine handles_seq h (handles_start rfl h hs.2 hs.1) fun run s h hrun => ?_
  split
  · exact handles_throw
  · exact handles_throw
  refine handles_seq h (handles_lift (keeps_recordMetadata _ h (hrun _ rfl))) fun r s h hs => ?_
  split
  · exact handles_seq h (handles_finalizePreparationFailure h hs) fun _ s _ _ => handles_throw
  · exact handles_seq h (handles_completeDriverSetup h hs) fun _ s _ hs => handles_pure hs

theorem handles_prepareStart {tokenHash : String} {now : UtcTime} (hi : i.token = some tokenHash)
    (h : s.Inv limits) (hs : HasLock i s) (hnow : now ≤ s.clock) :
    Handles limits i (prepareStart limits tokenHash now)
      (fun prepared s => Owns i prepared.1 s ∧ Started i prepared.2 s) s := by
  refine handles_seq h (handles_queryLocked (Q := fun _ _ => True) underLock_hasLock lasting_clock
    h hs hnow ?_) fun _ s h hs => ?_
  · intro s t n h _ hnow hcleanup
    refine ⟨(DemoSessionRow.cleanupExpired_spec h.valid hcleanup).mono fun r _ hreason => ?_,
      trivial⟩
    exact .inr ⟨hreason.1.1, .inr (hreason.1.2.mono hnow), hreason.2⟩
  refine handles_seq h (handles_queryLocked (Q := fun _ _ => True) underLock_hasLock lasting_true
    h hs.1 trivial ?_) fun _ s h hs => ?_
  · intro s t n h _ _ hprune
    refine ⟨(DemoRun.pruneTerminalDemoOwned_spec h.valid hprune).mono fun r _ hreason => ?_,
      trivial⟩
    exact .inr ⟨hreason.1.1, .inl hreason.1.2, hreason.2⟩
  refine handles_seq h (handles_ensureGlobalRunCapacity h hs.1) fun _ s h hs => ?_
  refine handles_seq h (handles_startSession hi h hs) fun session s h hs => ?_
  refine handles_seq h (handles_trimOwnedHistory h hs.1 hs.2) fun _ s h hs => ?_
  refine handles_seq h (handles_queryLocked (Q := fun n s => n = s.ownedRuns session.id)
    underLock_roomLeft lasting_owns h hs.1 hs.2 ?_) fun acceptedRuns s h hs => ?_
  · intro s t n h _ _ hcount
    cases hcount
    exact ⟨.refl _ _, rfl⟩
  split
  · exact handles_throw
  · have hroom : RoomFor limits i session.id s := by
      refine ⟨hs.1, ?_⟩
      rw [← hs.2.2]
      exact not_le.mp ‹_›
    refine handles_seq h ((handles_idleLocked (o := .configSnapshot) underLock_roomFor h hroom
      fun _ _ _ hexec => hexec).frame lasting_owns hs.2.1) fun ready s h hs => ?_
    split
    · refine handles_seq h ((handles_prepareOwned h hs.2 hs.1).frame lasting_owns hs.1)
        fun runId s _ hs => handles_pure hs
    · exact handles_throw

theorem Guarantee.activate (h : s.Inv limits) :
    Guarantee limits i s { s with active := runId :: s.active } where
  inv := ⟨h.valid, h.startedOnce, h.startedBelow, h.startedBy, h.sentOwn, h.cancelledOwn,
    h.perSession, h.global⟩
  sessions := .refl s.db
  started := fun _ he => he
  clock := rfl
  lock := fun _ _ hlock => hlock
  noMore := fun _ => .of_eq rfl
  rows := fun _ hr => .inl hr

theorem handles_activeStart (h : s.Inv limits) :
    Handles limits i (ask (.activeStart runId)) (fun _ _ => True) s := by
  refine handles_lift (keeps_perform (P := fun _ => True) (fun _ _ _ _ => trivial) h trivial ?_)
  intro s r s' h _ hexec
  cases hexec
  refine ⟨?_, trivial⟩
  split
  · exact .activate h
  · exact .refl h

theorem handles_scheduleRun (h : s.Inv limits) (howns : Owns i sessionId s) :
    Handles limits i (scheduleRun limits sessionId runId) (AboutOwn i) s := by
  refine handles_seq h ((handles_activeStart h).frame lasting_owns howns) fun accepted s h hs => ?_
  split
  · refine handles_seq h (handles_buildOwnedRunDetail h hs.1) fun detail s _ hdetail => ?_
    split
    · exact handles_pure (hdetail _ rfl)
    · exact handles_throw
  · refine handles_seq h ((handles_idle (o := .releaseAcceptedStart) h
      fun _ _ _ hexec => hexec).frame lasting_owns hs.1) fun _ s h hs => ?_
    refine handles_seq (M := fun _ _ => True) h (handles_lift ?_) fun _ s _ _ => handles_throw
    refine keeps_db lasting_owns.others h hs.1 (fun _ _ _ => trivial) ?_
    intro s t deleted h howns hdelete
    refine ⟨.statement h (DemoRun.deleteForDemoSession_spec hdelete) ?_, trivial⟩
    exact fun r hr hreason => .inl (h.started howns hr hreason.2)

theorem handles_admittedStart {tokenHash : String} (hi : i.token = some tokenHash)
    (h : s.Inv limits) (hs : HasLock i s) :
    Handles limits i (admittedStart limits tokenHash) (AboutOwn i) s := by
  refine handles_seq (M := fun now s => HasLock i s ∧ now ≤ s.clock) h
    (handles_lift (keeps_perform underLock_hasLock.stable h hs ?_)) fun now s h hs => ?_
  · rintro s now s' h hs ⟨rfl, rfl⟩
    exact ⟨.refl h, hs, le_rfl⟩
  refine handles_seq h ((handles_idleLocked (o := .reserveAcceptedStart) underLock_hasLock h hs.1
    fun _ _ _ hexec => hexec).frame lasting_clock hs.2) fun reserved s h hs => ?_
  split
  · exact handles_throw
  refine handles_seq h (handles_lift (handles_prepareStart hi h hs.2 hs.1)) fun prepared s h hs => ?_
  split
  · exact handles_seq h (handles_idle h fun _ _ _ hexec => hexec) fun _ s _ _ => handles_throw
  · exact handles_scheduleRun h (hs _ rfl).1

theorem Guarantee.lockStartAdmission (h : s.Inv limits) (hfree : s.admission = none) :
    Guarantee limits i s { s with admission := some i } where
  inv := ⟨h.valid, h.startedOnce, h.startedBelow, h.startedBy, h.sentOwn, h.cancelledOwn,
    h.perSession, h.global⟩
  sessions := .refl s.db
  started := fun _ he => he
  clock := rfl
  lock := by
    intro j _ hlock
    rw [hfree] at hlock
    cases hlock
  noMore := fun _ => .of_eq rfl
  rows := fun _ hr => .inl hr

theorem handles_startRun (hi : i.token = presented.toOption)
    (h : s.Inv limits) (valid : Except Text Unit) :
    Handles limits i (startRun presented mode limits valid) (AboutOwn i) s := by
  refine handles_seq h handles_ensureDemo fun _ s h _ => ?_
  split
  · exact handles_throw
  refine handles_seq h (handles_permit h) fun _ s h _ => ?_
  refine handles_seq h handles_liftExcept fun tokenHash s h htoken => ?_
  rw [htoken] at hi
  refine handles_seq (M := fun _ s => HasLock i s) h (handles_lift (keeps_perform
    (P := fun _ => True) (fun _ _ _ _ => trivial) h trivial ?_)) fun _ s h hs => ?_
  · rintro s _ s' h _ ⟨hfree, rfl⟩
    exact ⟨.lockStartAdmission h hfree, rfl⟩
  have hpermit : ∀ {s : DemoServer κ} {e : ApiError}, s.Inv limits → HasLock i s →
      Handles limits i (permitOr e) (fun _ s => HasLock i s) s := by
    intro s e h hs
    refine handles_seq h (handles_idleLocked underLock_hasLock h hs fun _ _ _ hexec => hexec)
      fun granted s _ hs => ?_
    split
    · exact handles_pure hs
    · exact handles_throw
  refine handles_seq h (hpermit h hs) fun _ s h hs => ?_
  refine handles_seq h (hpermit h hs) fun _ s h hs => ?_
  exact handles_admittedStart hi h hs

/-- **Every request** keeps to its guarantee. -/
theorem keeps_serve (hi : i.token = presented.toOption) (h : s.Inv limits)
    (request : DemoRequest) :
    Keeps limits i (serve presented mode limits request) (fun _ _ => True) s := by
  have hrespond : ∀ {handler : DemoM κ (DemoEvent κ)}, Handles limits i handler (AboutOwn i) s →
      Keeps limits i (respond handler) (fun _ _ => True) s := by
    intro handler hhandler
    refine keeps_seq h hhandler fun r s h hs => ?_
    split
    · exact keeps_send h (hs _ rfl)
    · exact keeps_sendNone h rfl
  cases request with
  | listRuns q => exact hrespond (handles_listRuns hi h q)
  | lastRequest => exact hrespond (handles_lastRequest hi h)
  | getRun runId => exact hrespond (handles_getRun hi h)
  | streamRun runId polls => exact keeps_streamRun hi h polls
  | cancelRun runId => exact hrespond (handles_cancelRun hi h)
  | deleteRun runId => exact hrespond (handles_deleteRun hi h)
  | exportRun runId => exact hrespond (handles_exportRun hi h)
  | startRun valid => exact hrespond (handles_startRun hi h valid)

end Handlers

end Bhtune
