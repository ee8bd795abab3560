import Bhtune.Db.TuneRuns
import Bhtune.Library.RankedRows
import Mathlib.Data.Prod.Lex

/-!
# Demo sessions and the runs they own

The functions of `models/demo_sessions.rs` and those of `models/tune_runs.rs` that are about the
runs of a session, with the triggers and foreign keys of the schema.  Each is one statement, which
the schema may refuse.

* `TuneRunRow.newestFirst` — the order of the history;
* `pruneTerminalForDemoSession`, `pruneTerminalDemoOwned` — the two forms of retention;
* `mem_expiredHistory` — they are about the same rows of a session;
* `DemoChange` — what a statement does to the runs and the sessions, and `demoChange_…` for each.
-/

namespace Bhtune

open Table RankedRows

/-! ### The tables -/

/-- A row of `demo_sessions`. -/
structure DemoSessionRow where
  id : ℕ
  tokenHash : String
  createdAt : UtcTime
  lastSeenAt : UtcTime
  expiresAt : UtcTime
  revokedAt : Option UtcTime
  deriving DecidableEq

/-- The tables whose rows belong to a run. -/
inductive RunTable where
  | samples
  | results
  | writes
  | mvActuations
  deriving DecidableEq

/-- A row that belongs to a run.  `order` is what its table is listed by: the tick, the response
level, the time of the write or the sequence.  `κ` are its other columns. -/
structure RunChild (κ : Type) where
  table : RunTable
  runId : ℕ
  order : ℤ
  columns : κ

/-- The database of a Demo server. -/
structure DemoTables (κ : Type) where
  tables : Tables
  children : List (RunChild κ)
  sessions : List DemoSessionRow
  nextSession : ℕ

/-- Why a statement failed. -/
inductive DemoDbError where
  | rowLimit
  | rowNotFound
  | other (reason : String)
  deriving DecidableEq

/-- One statement, unless the schema refuses it. -/
abbrev DemoStatement (κ β : Type) := DemoTables κ → Except DemoDbError (DemoTables κ × β)

variable {κ : Type}

/-- Neither revoked nor expired. -/
def DemoSessionRow.valid (now : UtcTime) (x : DemoSessionRow) : Bool :=
  x.revokedAt.isNone && now < x.expiresAt

/-- `length(token_hash) = 64 AND token_hash NOT GLOB '*[^0-9a-f]*'`. -/
def checkedTokenHash (tokenHash : String) : Bool :=
  tokenHash.length = 64 && tokenHash.toList.all fun c => c ∈ "0123456789abcdef".toList

/-- `DELETE FROM tune_runs WHERE p`, with the rows that belong to those runs. -/
def DemoTables.deleteRuns (t : DemoTables κ) (p : TuneRunRow → Bool) : DemoTables κ :=
  { t with
    tables := t.tables.deleteRuns p
    children := deleteWhere (fun c => t.tables.runs.any fun r => r.id = c.runId && p r) t.children }

/-- The run belongs to that session. -/
def TuneRunRow.ownedBy (sessionId : ℕ) (r : TuneRunRow) : Bool := r.demoSessionId = some sessionId

/-- `outcome <> 'running'`. -/
def TuneRunRow.terminal (r : TuneRunRow) : Bool := r.outcome ≠ .running

/-- `a` comes before `b` in `ORDER BY started_at DESC, id DESC`. -/
def TuneRunRow.newerThan (a b : TuneRunRow) : Prop :=
  b.startedAt < a.startedAt ∨ b.startedAt = a.startedAt ∧ b.id < a.id

instance TuneRunRow.decidableNewerThan : DecidableRel TuneRunRow.newerThan :=
  fun _ _ => inferInstanceAs (Decidable (_ ∨ _))

/-- `ORDER BY started_at DESC, id DESC`. -/
def newestFirst (runs : List TuneRunRow) : List TuneRunRow :=
  runs.insertionSort fun a b => ¬b.newerThan a

/-! ### Sessions -/

namespace DemoSessionRow

/-- The `INSERT … ON CONFLICT(token_hash) DO NOTHING RETURNING *` of `get_or_create`. -/
def insert (tokenHash : String) (now expiresAt : UtcTime) :
    DemoStatement κ (Option DemoSessionRow) := fun t =>
  if !checkedTokenHash tokenHash || expiresAt ≤ now then .error (.other "CHECK constraint failed")
  else if t.sessions.any fun x => x.tokenHash = tokenHash then .ok (t, none)
  else
    let row : DemoSessionRow := ⟨t.nextSession, tokenHash, now, now, expiresAt, none⟩
    .ok ({ t with sessions := t.sessions ++ [row], nextSession := t.nextSession + 1 }, some row)

/-- `DemoSessionRow::get_by_token_hash`. -/
def getByTokenHash (tokenHash : String) (now : UtcTime) :
    DemoStatement κ (Option DemoSessionRow) := fun t =>
  let p (x : DemoSessionRow) : Bool := x.tokenHash = tokenHash && x.valid now
  let touch (x : DemoSessionRow) : DemoSessionRow := { x with lastSeenAt := max x.lastSeenAt now }
  .ok ({ t with sessions := updateWhere p touch t.sessions }, (t.sessions.find? p).map touch)

/-- The rows that `cleanup_expired` deletes. -/
def removable (t : DemoTables κ) (now : UtcTime) (x : DemoSessionRow) : Bool :=
  (x.expiresAt ≤ now || x.revokedAt.isSome) &&
    !(t.tables.runs.any fun r => r.ownedBy x.id && r.outcome = .running)

/-- `DemoSessionRow::cleanup_expired`; the runs of a session go with it. -/
def cleanupExpired (now : UtcTime) : DemoStatement κ ℕ := fun t =>
  .ok ({ t.deleteRuns (fun r => t.sessions.any fun x => removable t now x && r.ownedBy x.id) with
    sessions := deleteWhere (removable t now) t.sessions }, affected (removable t now) t.sessions)

end DemoSessionRow

/-- `DEMO_RESTART_INTERRUPTED_REASON`. -/
def demoRestartInterruptedReason : String := "demo run was interrupted by a server restart"

/-- `DemoSessionRow::recover_running_demo_runs`. -/
def DemoSessionRow.recoverRunningDemoRuns (now : UtcTime) : DemoStatement κ ℕ := fun t =>
  let p (r : TuneRunRow) : Bool := r.demoSessionId.isSome && r.outcome = .running
  let fail := (RunUpdate.failed now demoRestartInterruptedReason).apply
  .ok ({ t with tables := { t.tables with runs := updateWhere p fail t.tables.runs } },
    affected p t.tables.runs)

/-! ### Runs -/

namespace DemoRun

/-- `tune_runs_demo_global_limit_insert`. -/
def rowLimit : ℕ := 5000

/-- `TuneRunRow::start_with_demo_session`: the `WHERE` of the statement, then its triggers. -/
def start (new : NewTuneRun) : DemoStatement κ TuneRunRow := fun t =>
  let valid := new.demoSessionId.all fun id => t.sessions.any fun x => x.id = id && x.valid new.now
  let started := new.demoSessionId.all fun id =>
    t.sessions.any fun x => x.id = id && x.valid new.now && x.createdAt ≤ new.now
  if !valid then .error .rowNotFound
  else if new.demoSessionId.isSome &&
      rowLimit ≤ affected (fun r : TuneRunRow => r.demoSessionId.isSome) t.tables.runs then
    .error .rowLimit
  else if new.demoSessionId.isSome && new.driver ≠ .simulator then
    .error (.other "demo_session_id requires simulator driver")
  else if !started then .error (.other "demo_session_id requires an active demo session")
  else
    let row := new.row t.tables.nextRun
    .ok ({ t with tables := { t.tables with
      runs := t.tables.runs ++ [row], nextRun := t.tables.nextRun + 1 } }, row)

/-- `UPDATE tune_runs SET … WHERE id = ? RETURNING *`. -/
def update (runId : ℕ) (u : RunUpdate) : DemoStatement κ TuneRunRow := fun t =>
  match t.tables.runs.find? fun r => r.id = runId with
  | none => .error .rowNotFound
  | some row =>
    .ok ({ t with tables := { t.tables with
      runs := updateWhere (fun r => r.id = runId) u.apply t.tables.runs } }, u.apply row)

/-- `TuneRunRow::update_notes`; the column is not among those of a row here. -/
def updateNotes (runId : ℕ) : DemoStatement κ TuneRunRow := fun t =>
  match t.tables.runs.find? fun r => r.id = runId with
  | none => .error .rowNotFound
  | some row => .ok (t, row)

/-- `TuneRunRow::get_for_demo_session`. -/
def getForDemoSession (runId sessionId : ℕ) : DemoStatement κ (Option TuneRunRow) := fun t =>
  .ok (t, t.tables.runs.find? fun r => r.id = runId && r.ownedBy sessionId)

/-- `TuneRunRow::newest_for_demo_session`. -/
def newestForDemoSession (sessionId : ℕ) : DemoStatement κ (Option TuneRunRow) := fun t =>
  .ok (t, (newestFirst (t.tables.runs.filter fun r => r.ownedBy sessionId)).head?)

/-- `TuneRunRow::list`, which orders by the start alone. -/
def list (filter : TuneRunFilter) (limit offset : ℕ) : DemoStatement κ (List TuneRunRow) := fun t =>
  let rows := (t.tables.runs.filter filter.matches).insertionSort
    fun a b => b.startedAt ≤ a.startedAt
  .ok (t, (rows.drop offset).take limit)

/-- `TuneRunRow::count`. -/
def count (filter : TuneRunFilter) : DemoStatement κ ℕ := fun t =>
  .ok (t, affected filter.matches t.tables.runs)

/-- `TuneRunRow::count_for_demo_session`. -/
def countForDemoSession (sessionId : ℕ) : DemoStatement κ ℕ := fun t =>
  .ok (t, affected (fun r => r.ownedBy sessionId) t.tables.runs)

/-- `TuneRunRow::count_demo_owned`. -/
def countDemoOwned : DemoStatement κ ℕ := fun t =>
  .ok (t, affected (fun r : TuneRunRow => r.demoSessionId.isSome) t.tables.runs)

/-- The terminal runs of a session past the newest `retain`, as `ORDER BY … OFFSET` has them. -/
def expiredHistory (runs : List TuneRunRow) (sessionId retain : ℕ) : List TuneRunRow :=
  (newestFirst (runs.filter fun r => r.ownedBy sessionId && r.terminal)).drop retain

/-- How many terminal runs of its session are newer: `ROW_NUMBER() OVER (PARTITION BY
demo_session_id …)`, less one. -/
def newerTerminal (runs : List TuneRunRow) (r : TuneRunRow) : ℕ :=
  affected (fun r' => r'.demoSessionId = r.demoSessionId && r'.terminal && r'.newerThan r) runs

/-- `TuneRunRow::prune_terminal_for_demo_session`. -/
def pruneTerminalForDemoSession (sessionId retain : ℕ) : DemoStatement κ ℕ := fun t =>
  let p (r : TuneRunRow) : Bool :=
    (expiredHistory t.tables.runs sessionId retain).any fun x => x.id = r.id
  .ok (t.deleteRuns p, affected p t.tables.runs)

/-- `TuneRunRow::prune_terminal_demo_owned`. -/
def pruneTerminalDemoOwned (retain : ℕ) : DemoStatement κ ℕ := fun t =>
  let p (r : TuneRunRow) : Bool :=
    r.demoSessionId.isSome && r.terminal && retain < newerTerminal t.tables.runs r + 1
  .ok (t.deleteRuns p, affected p t.tables.runs)

/-- `TuneRunRow::delete_for_demo_session`. -/
def deleteForDemoSession (runId sessionId : ℕ) : DemoStatement κ Bool := fun t =>
  let p (r : TuneRunRow) : Bool := r.id = runId && r.ownedBy sessionId
  .ok (t.deleteRuns p, 0 < affected p t.tables.runs)

/-- `TuneRunRow::delete`. -/
def delete (runId : ℕ) : DemoStatement κ Bool := fun t =>
  let p (r : TuneRunRow) : Bool := r.id = runId && r.deletable
  .ok (t.deleteRuns p, 0 < affected p t.tables.runs)

/-- `TuneRunRow::delete_matching`. -/
def deleteMatching (filter : TuneRunFilter) : DemoStatement κ ℕ := fun t =>
  let p (r : TuneRunRow) : Bool := filter.matches r && r.deletable
  .ok (t.deleteRuns p, affected p t.tables.runs)

/-- `list_for_run` of the rows that belong to a run. -/
def listForRun (table : RunTable) (runId : ℕ) : DemoStatement κ (List (RunChild κ)) := fun t =>
  .ok (t, (t.children.filter fun c => c.table = table && c.runId = runId).insertionSort
    fun a b => a.order ≤ b.order)

/-- `TuneSampleRow::list_for_run_since`. -/
def listForRunSince (runId : ℕ) (afterTick : ℤ) : DemoStatement κ (List (RunChild κ)) := fun t =>
  .ok (t, (t.children.filter fun c =>
    c.table = .samples && c.runId = runId && afterTick < c.order).insertionSort
      fun a b => a.order ≤ b.order)

end DemoRun

/-! ### Retention -/

/-- The start, then the number. -/
def TuneRunRow.age (r : TuneRunRow) : Lex (ℤ × ℕ) := toLex (r.startedAt, r.id)

theorem newerThan_iff (a b : TuneRunRow) : a.newerThan b ↔ b.age < a.age := by
  unfold TuneRunRow.age
  rw [Prod.Lex.toLex_lt_toLex]
  rfl

theorem newerThan_asymm (a b : TuneRunRow) (h : a.newerThan b) : ¬b.newerThan a := by
  rw [newerThan_iff] at h ⊢
  exact lt_asymm h

theorem newerThan_trans_not (a b c : TuneRunRow) (h : ¬b.newerThan a) (h' : ¬c.newerThan b) :
    ¬c.newerThan a := by
  rw [newerThan_iff, not_lt] at h h' ⊢
  exact h'.trans h

theorem newerThan_or (a b : TuneRunRow) (h : a.id ≠ b.id) : a.newerThan b ∨ b.newerThan a := by
  rw [newerThan_iff, newerThan_iff]
  have hne : a.age ≠ b.age := fun hage => h (congrArg (fun k => (ofLex k).2) hage)
  exact (lt_or_gt_of_ne hne).symm

/-- **The two forms of retention agree.**  The terminal runs of a session past the newest `retain`
are those with at least `retain` newer ones. -/
theorem mem_expiredHistory {runs : List TuneRunRow} (hkey : PrimaryKey TuneRunRow.id runs)
    {sessionId retain : ℕ} {r : TuneRunRow} :
    r ∈ DemoRun.expiredHistory runs sessionId retain ↔
      r ∈ runs ∧ r.demoSessionId = some sessionId ∧ r.terminal = true ∧
        retain ≤ DemoRun.newerTerminal runs r := by
  have hnodup : runs.Nodup := List.Nodup.of_map TuneRunRow.id hkey
  unfold DemoRun.expiredHistory newestFirst
  rw [mem_drop_insertionSort newerThan_asymm newerThan_trans_not (hnodup.filter _)
    (fun a ha b hb hne => newerThan_or a b fun hid => hne (hkey.eq (List.mem_of_mem_filter ha)
      (List.mem_of_mem_filter hb) hid))]
  rw [List.mem_filter, Bool.and_eq_true, List.countP_filter]
  unfold TuneRunRow.ownedBy DemoRun.newerTerminal affected
  simp only [decide_eq_true_eq]
  constructor
  · rintro ⟨⟨hr, hown, hterminal⟩, hn⟩
    refine ⟨hr, hown, hterminal, le_of_le_of_eq hn ?_⟩
    apply List.countP_congr
    intro x _
    rw [hown]
    simp [Bool.and_comm]
  · rintro ⟨hr, hown, hterminal, hn⟩
    refine ⟨⟨hr, hown, hterminal⟩, le_of_le_of_eq hn ?_⟩
    apply List.countP_congr
    intro x _
    rw [hown]
    simp [Bool.and_comm]

/-! ### What a statement does -/

/-- The constraints of the schema that are about runs and sessions. -/
structure DemoTables.Valid (t : DemoTables κ) : Prop where
  runs : Numbered TuneRunRow.id t.tables.nextRun t.tables.runs
  sessions : Numbered DemoSessionRow.id t.nextSession t.sessions
  owned : ∀ r ∈ t.tables.runs, ∀ id ∈ r.demoSessionId, ∃ x ∈ t.sessions, x.id = id

/-- The same session, but for its last activity. -/
def SameSession (x y : DemoSessionRow) : Prop := y = { x with lastSeenAt := y.lastSeenAt }

theorem SameSession.refl (x : DemoSessionRow) : SameSession x x := rfl

theorem SameSession.id {x y : DemoSessionRow} (h : SameSession x y) : y.id = x.id := by
  rw [h]

theorem SameSession.tokenHash {x y : DemoSessionRow} (h : SameSession x y) :
    y.tokenHash = x.tokenHash := by
  rw [h]

/-- Sessions keep their number and their token, and new ones get new numbers. -/
structure SessionsKept (t t' : DemoTables κ) : Prop where
  next : t.nextSession ≤ t'.nextSession
  origin : ∀ x ∈ t'.sessions, t.nextSession ≤ x.id ∨ ∃ y ∈ t.sessions, SameSession y x

/-- What a statement may do to the runs and the sessions. -/
inductive DemoChange (t t' : DemoTables κ) : Prop
  | touched (f : DemoSessionRow → DemoSessionRow) (hf : ∀ x, SameSession x (f x))
      (hruns : t'.tables.runs = t.tables.runs) (hnextRun : t'.tables.nextRun = t.tables.nextRun)
      (hsessions : t'.sessions = t.sessions.map f) (hnext : t'.nextSession = t.nextSession)
  | registered (x : DemoSessionRow) (hid : x.id = t.nextSession)
      (hruns : t'.tables.runs = t.tables.runs) (hnextRun : t'.tables.nextRun = t.tables.nextRun)
      (hsessions : t'.sessions = t.sessions ++ [x]) (hnext : t'.nextSession = t.nextSession + 1)
  | updated (p : TuneRunRow → Bool) (u : RunUpdate)
      (hruns : t'.tables.runs = updateWhere p u.apply t.tables.runs)
      (hnextRun : t'.tables.nextRun = t.tables.nextRun)
      (hsessions : t'.sessions = t.sessions) (hnext : t'.nextSession = t.nextSession)
  | deleted (p : TuneRunRow → Bool) (q : DemoSessionRow → Bool)
      (hruns : t'.tables.runs = deleteWhere p t.tables.runs)
      (hnextRun : t'.tables.nextRun = t.tables.nextRun)
      (hsessions : t'.sessions = deleteWhere q t.sessions) (hnext : t'.nextSession = t.nextSession)
      (howned : ∀ r x, x ∈ t.sessions → q x = true → r.demoSessionId = some x.id → p r = true)

section Changes

variable {t t' : DemoTables κ}

theorem RunUpdate.apply_session (u : RunUpdate) (r : TuneRunRow) :
    (u.apply r).id = r.id ∧ (u.apply r).demoSessionId = r.demoSessionId := by
  cases u <;> exact ⟨rfl, rfl⟩

theorem DemoChange.refl (t : DemoTables κ) : DemoChange t t :=
  .touched id SameSession.refl rfl rfl (List.map_id _).symm rfl

theorem numbered_map {ρ : Type} {id : ρ → ℕ} {next : ℕ} {rows : List ρ} {f : ρ → ρ}
    (h : Numbered id next rows) (hf : ∀ x, id (f x) = id x) : Numbered id next (rows.map f) where
  primaryKey := by
    unfold PrimaryKey
    rw [List.map_map, show id ∘ f = id from funext hf]
    exact h.primaryKey
  below := by
    intro r hr
    obtain ⟨x, hx, rfl⟩ := List.mem_map.mp hr
    rw [hf]
    exact h.below x hx

theorem numbered_append {ρ : Type} {id : ρ → ℕ} {next : ℕ} {rows : List ρ} {r : ρ}
    (h : Numbered id next rows) (hr : id r = next) : Numbered id (next + 1) (rows ++ [r]) where
  primaryKey := by
    unfold PrimaryKey
    rw [List.map_append, List.map_singleton]
    refine List.nodup_append.mpr ⟨h.primaryKey, List.nodup_singleton _, ?_⟩
    intro a ha b hb
    obtain ⟨x, hx, rfl⟩ := List.mem_map.mp ha
    rw [List.mem_singleton.mp hb, hr]
    exact (h.below x hx).ne
  below := by
    intro x hx
    rcases List.mem_append.mp hx with hx | hx
    · exact (h.below x hx).trans (Nat.lt_succ_self _)
    · rw [List.mem_singleton.mp hx, hr]
      exact Nat.lt_succ_self _

theorem numbered_delete {ρ : Type} {id : ρ → ℕ} {next : ℕ} {rows : List ρ} {p : ρ → Bool}
    (h : Numbered id next rows) : Numbered id next (deleteWhere p rows) where
  primaryKey := h.primaryKey.sublist (List.filter_sublist.map id)
  below := fun r hr => h.below r (mem_deleteWhere.mp hr).1

theorem DemoChange.valid (h : DemoChange t t') (hvalid : t.Valid) : t'.Valid := by
  obtain ⟨hr, hs, ho⟩ := hvalid
  cases h with
  | touched f hf hruns hnextRun hsessions hnext =>
    refine ⟨by rw [hruns, hnextRun]; exact hr, ?_, ?_⟩
    · rw [hsessions, hnext]
      exact numbered_map hs fun x => (hf x).id
    · intro r hmem id hid
      rw [hruns] at hmem
      obtain ⟨x, hx, hxid⟩ := ho r hmem id hid
      refine ⟨f x, ?_, (hf x).id.trans hxid⟩
      rw [hsessions]
      exact List.mem_map_of_mem hx
  | registered x hid hruns hnextRun hsessions hnext =>
    refine ⟨by rw [hruns, hnextRun]; exact hr, ?_, ?_⟩
    · rw [hsessions, hnext]
      exact numbered_append hs hid
    · intro r hmem id hown
      rw [hruns] at hmem
      obtain ⟨y, hy, hyid⟩ := ho r hmem id hown
      refine ⟨y, ?_, hyid⟩
      rw [hsessions]
      exact List.mem_append_left _ hy
  | updated p u hruns hnextRun hsessions hnext =>
    refine ⟨?_, by rw [hsessions, hnext]; exact hs, ?_⟩
    · rw [hruns, hnextRun]
      refine numbered_map hr fun r => ?_
      split
      · exact (u.apply_session r).1
      · rfl
    · intro r hmem id hown
      rw [hruns] at hmem
      obtain ⟨r₀, hr₀, rfl⟩ := mem_updateWhere.mp hmem
      rw [hsessions]
      refine ho r₀ hr₀ id ?_
      split at hown
      · rw [← (u.apply_session r₀).2]
        exact hown
      · exact hown
  | deleted p q hruns hnextRun hsessions hnext howned =>
    refine ⟨by rw [hruns, hnextRun]; exact numbered_delete hr,
      by rw [hsessions, hnext]; exact numbered_delete hs, ?_⟩
    intro r hmem id hown
    rw [hruns] at hmem
    obtain ⟨hmem, hnot⟩ := mem_deleteWhere.mp hmem
    obtain ⟨x, hx, rfl⟩ := ho r hmem id hown
    refine ⟨x, ?_, rfl⟩
    rw [hsessions, mem_deleteWhere]
    refine ⟨hx, ?_⟩
    by_contra hq
    rw [howned r x hx (Bool.eq_true_of_not_eq_false hq) hown] at hnot
    cases hnot

theorem DemoChange.sessionsKept (h : DemoChange t t') : SessionsKept t t' := by
  have hsame : t'.sessions = t.sessions → t'.nextSession = t.nextSession → SessionsKept t t' := by
    intro hsessions hnext
    refine ⟨le_of_eq hnext.symm, fun x hx => .inr ⟨x, ?_, .refl x⟩⟩
    rw [← hsessions]
    exact hx
  cases h with
  | touched f hf _ _ hsessions hnext =>
    refine ⟨le_of_eq hnext.symm, fun x hx => ?_⟩
    rw [hsessions] at hx
    obtain ⟨y, hy, rfl⟩ := List.mem_map.mp hx
    exact .inr ⟨y, hy, hf y⟩
  | registered x hid _ _ hsessions hnext =>
    refine ⟨by rw [hnext]; exact Nat.le_succ _, fun y hy => ?_⟩
    rw [hsessions] at hy
    rcases List.mem_append.mp hy with hy | hy
    · exact .inr ⟨y, hy, .refl y⟩
    · rw [List.mem_singleton.mp hy, hid]
      exact .inl le_rfl
  | updated p u _ _ hsessions hnext => exact hsame hsessions hnext
  | deleted p q _ _ hsessions hnext _ =>
    refine ⟨le_of_eq hnext.symm, fun x hx => .inr ⟨x, ?_, .refl x⟩⟩
    rw [hsessions] at hx
    exact (mem_deleteWhere.mp hx).1

/-- No session has more runs than before, and there are no more in all. -/
structure NoMoreRuns (t t' : DemoTables κ) : Prop where
  session : ∀ id, affected (fun r => r.ownedBy id) t'.tables.runs ≤
    affected (fun r => r.ownedBy id) t.tables.runs
  all : affected (fun r : TuneRunRow => r.demoSessionId.isSome) t'.tables.runs ≤
    affected (fun r : TuneRunRow => r.demoSessionId.isSome) t.tables.runs

theorem NoMoreRuns.of_eq (h : t'.tables.runs = t.tables.runs) : NoMoreRuns t t' :=
  ⟨fun _ => by rw [h], by rw [h]⟩

theorem affected_updateWhere {ρ : Type} {p q : ρ → Bool} {f : ρ → ρ} {rows : List ρ}
    (h : ∀ r, q (f r) = q r) : affected q (updateWhere p f rows) = affected q rows := by
  unfold affected updateWhere
  rw [List.countP_map]
  apply List.countP_congr
  intro r _
  show q (if p r then f r else r) = true ↔ q r = true
  split
  · rw [h]
  · exact Iff.rfl

theorem affected_deleteWhere_le {ρ : Type} {p q : ρ → Bool} {rows : List ρ} :
    affected q (deleteWhere p rows) ≤ affected q rows :=
  List.filter_sublist.countP_le

theorem DemoChange.noMoreRuns (h : DemoChange t t') : NoMoreRuns t t' := by
  cases h with
  | touched f hf hruns _ _ _ => exact .of_eq hruns
  | registered x hid hruns _ _ _ => exact .of_eq hruns
  | updated p u hruns _ _ _ =>
    constructor
    · intro id
      rw [hruns, affected_updateWhere fun r => ?_]
      unfold TuneRunRow.ownedBy
      rw [(u.apply_session r).2]
    · rw [hruns, affected_updateWhere fun r => ?_]
      rw [(u.apply_session r).2]
  | deleted p q hruns _ _ _ _ =>
    exact ⟨fun id => by rw [hruns]; exact affected_deleteWhere_le,
      by rw [hruns]; exact affected_deleteWhere_le⟩

end Changes

/-! ### Statement by statement -/

section Statements

variable {t t' : DemoTables κ} {sessionId runId retain : ℕ} {now : UtcTime}

/-- A statement does no more than `DemoChange` says, and a run that it changes or deletes has the
reason. -/
structure Does (reason : TuneRunRow → Prop) (t t' : DemoTables κ) : Prop where
  change : DemoChange t t'
  rows : ∀ r ∈ t.tables.runs, r ∈ t'.tables.runs ∨ reason r

theorem Does.refl (reason : TuneRunRow → Prop) (t : DemoTables κ) : Does reason t t :=
  ⟨.refl t, fun _ hr => .inl hr⟩

theorem Does.mono {reason reason' : TuneRunRow → Prop} (h : Does reason t t')
    (himp : ∀ r ∈ t.tables.runs, reason r → reason' r) : Does reason' t t' :=
  ⟨h.change, fun r hr => (h.rows r hr).imp_right (himp r hr)⟩

/-- No run has its number any more. -/
def Gone (t : DemoTables κ) (r : TuneRunRow) : Prop := ∀ x ∈ t.tables.runs, x.id ≠ r.id

/-- What does not change a run deletes it. -/
theorem Does.gone {reason : TuneRunRow → Prop} (h : Does reason t t')
    (hkey : PrimaryKey TuneRunRow.id t.tables.runs)
    (hfewer : ∀ x ∈ t'.tables.runs, x ∈ t.tables.runs) :
    Does (fun r => reason r ∧ Gone t' r) t t' := by
  refine ⟨h.change, fun r hr => ?_⟩
  by_cases hkept : r ∈ t'.tables.runs
  · exact .inl hkept
  · refine .inr ⟨(h.rows r hr).resolve_left hkept, fun x hx hid => hkept ?_⟩
    rw [← hkey.eq (hfewer x hx) hr hid]
    exact hx

theorem does_delete {p : TuneRunRow → Bool} {q : DemoSessionRow → Bool}
    (hruns : t'.tables.runs = deleteWhere p t.tables.runs)
    (hnextRun : t'.tables.nextRun = t.tables.nextRun)
    (hsessions : t'.sessions = deleteWhere q t.sessions) (hnext : t'.nextSession = t.nextSession)
    (howned : ∀ r x, x ∈ t.sessions → q x = true → r.demoSessionId = some x.id → p r = true) :
    Does (fun r => p r = true) t t' := by
  refine ⟨.deleted p q hruns hnextRun hsessions hnext howned, fun r hr => ?_⟩
  cases hp : p r with
  | true => exact .inr rfl
  | false =>
    left
    rw [hruns, mem_deleteWhere]
    exact ⟨hr, hp⟩

theorem does_deleteRuns (t : DemoTables κ) (p : TuneRunRow → Bool) :
    Does (fun r => p r = true) t (t.deleteRuns p) := by
  refine does_delete (q := fun _ => false) rfl rfl ?_ rfl fun _ _ _ h => by cases h
  exact (List.filter_eq_self.mpr fun _ _ => rfl).symm

theorem DemoSessionRow.insert_spec {tokenHash : String} {expiresAt : UtcTime}
    {row : Option DemoSessionRow}
    (h : insert tokenHash now expiresAt t = .ok (t', row)) :
    Does (fun _ => False) t t' ∧ ∀ x, row = some x → x ∈ t'.sessions ∧ x.tokenHash = tokenHash := by
  unfold insert at h
  split at h
  · cases h
  split at h
  · cases h
    exact ⟨.refl _ t, fun x hx => by cases hx⟩
  · cases h
    refine ⟨⟨.registered _ rfl rfl rfl rfl rfl, fun _ hr => .inl hr⟩, ?_⟩
    rintro x ⟨⟩
    exact ⟨List.mem_append_right _ List.mem_cons_self, rfl⟩

theorem DemoSessionRow.getByTokenHash_spec {tokenHash : String} {row : Option DemoSessionRow}
    (h : getByTokenHash tokenHash now t = .ok (t', row)) :
    Does (fun _ => False) t t' ∧ ∀ x, row = some x → x ∈ t'.sessions ∧ x.tokenHash = tokenHash := by
  cases h
  refine ⟨⟨.touched (fun x => if x.tokenHash = tokenHash && x.valid now then
    { x with lastSeenAt := max x.lastSeenAt now } else x) ?_ rfl rfl rfl rfl,
    fun _ hr => .inl hr⟩, ?_⟩
  · intro x
    split <;> rfl
  · intro x hx
    obtain ⟨y, hfind, rfl⟩ := Option.map_eq_some_iff.mp hx
    have hy := List.find?_some hfind
    refine ⟨mem_updateWhere.mpr ⟨y, List.mem_of_find?_eq_some hfind, if_pos hy⟩, ?_⟩
    rw [Bool.and_eq_true] at hy
    exact of_decide_eq_true hy.1

/-- The session of the run has expired or was revoked. -/
def SessionOver (t : DemoTables κ) (now : UtcTime) (r : TuneRunRow) : Prop :=
  ∃ x ∈ t.sessions, r.demoSessionId = some x.id ∧ (x.expiresAt ≤ now ∨ x.revokedAt.isSome = true)

/-- There are `retain` newer terminal runs of its session. -/
def Excess (t : DemoTables κ) (retain : ℕ) (r : TuneRunRow) : Prop :=
  r.demoSessionId.isSome = true ∧ retain ≤ DemoRun.newerTerminal t.tables.runs r

theorem DemoSessionRow.cleanupExpired_spec {n : ℕ} (hvalid : t.Valid)
    (h : cleanupExpired now t = .ok (t', n)) :
    Does (fun r => (r.terminal = true ∧ SessionOver t now r) ∧ Gone t' r) t t' := by
  cases h
  refine Does.gone (Does.mono (does_delete (q := removable t now) rfl rfl rfl rfl ?_) ?_)
    hvalid.runs.primaryKey fun x hx => (mem_deleteWhere.mp hx).1
  · intro r x hx hover hown
    refine List.any_eq_true.mpr ⟨x, hx, ?_⟩
    rw [Bool.and_eq_true]
    exact ⟨hover, decide_eq_true hown⟩
  · intro r hr hp
    obtain ⟨x, hx, hp⟩ := List.any_eq_true.mp hp
    rw [Bool.and_eq_true] at hp
    obtain ⟨hover, hown⟩ := hp
    unfold removable at hover
    rw [Bool.and_eq_true, Bool.or_eq_true, Bool.not_eq_true'] at hover
    refine ⟨?_, x, hx, of_decide_eq_true hown, hover.1.imp_left of_decide_eq_true⟩
    have hnone := List.any_eq_false.mp hover.2 r hr
    rw [hown, Bool.true_and] at hnone
    unfold TuneRunRow.terminal
    simpa using hnone

theorem DemoRun.pruneTerminalForDemoSession_spec {n : ℕ} (hvalid : t.Valid)
    (h : pruneTerminalForDemoSession sessionId retain t = .ok (t', n)) :
    Does (fun r => (r.terminal = true ∧ Excess t retain r) ∧ Gone t' r) t t' := by
  cases h
  refine ((does_deleteRuns t _).mono fun r hr hp => ?_).gone hvalid.runs.primaryKey
    fun x hx => (mem_deleteWhere.mp hx).1
  obtain ⟨x, hx, hid⟩ := List.any_eq_true.mp hp
  obtain ⟨hmem, hown, hterminal, hretain⟩ := (mem_expiredHistory hvalid.runs.primaryKey).mp hx
  cases hvalid.runs.primaryKey.eq hmem hr (of_decide_eq_true hid)
  exact ⟨hterminal, by rw [hown]; rfl, hretain⟩

theorem DemoRun.pruneTerminalDemoOwned_spec {n : ℕ} (hvalid : t.Valid)
    (h : pruneTerminalDemoOwned retain t = .ok (t', n)) :
    Does (fun r => (r.terminal = true ∧ Excess t retain r) ∧ Gone t' r) t t' := by
  cases h
  refine ((does_deleteRuns t _).mono fun r _ hp => ?_).gone hvalid.runs.primaryKey
    fun x hx => (mem_deleteWhere.mp hx).1
  rw [Bool.and_eq_true, Bool.and_eq_true] at hp
  exact ⟨hp.1.2, hp.1.1, Nat.lt_succ_iff.mp (of_decide_eq_true hp.2)⟩

theorem DemoRun.deleteForDemoSession_spec {deleted : Bool}
    (h : deleteForDemoSession runId sessionId t = .ok (t', deleted)) :
    Does (fun r => r.id = runId ∧ r.demoSessionId = some sessionId) t t' := by
  cases h
  refine (does_deleteRuns t _).mono fun r _ hp => ?_
  rw [Bool.and_eq_true] at hp
  exact ⟨of_decide_eq_true hp.1, of_decide_eq_true hp.2⟩

theorem DemoRun.delete_spec {deleted : Bool} (h : delete runId t = .ok (t', deleted)) :
    Does (fun r => r.id = runId) t t' := by
  cases h
  refine (does_deleteRuns t _).mono fun r _ hp => ?_
  rw [Bool.and_eq_true] at hp
  exact of_decide_eq_true hp.1

theorem DemoRun.deleteMatching_spec {filter : TuneRunFilter} {n : ℕ} (hvalid : t.Valid)
    (h : deleteMatching filter t = .ok (t', n)) :
    Does (fun r => (filter.matches r = true ∧ r.deletable = true) ∧ Gone t' r) t t' := by
  cases h
  refine ((does_deleteRuns t _).mono fun r _ hp => ?_).gone hvalid.runs.primaryKey
    fun x hx => (mem_deleteWhere.mp hx).1
  rw [Bool.and_eq_true] at hp
  exact hp

theorem DemoRun.update_spec {u : RunUpdate} {row : TuneRunRow}
    (h : update runId u t = .ok (t', row)) : Does (fun r => r.id = runId) t t' := by
  unfold update at h
  split at h
  · cases h
  · cases h
    refine ⟨.updated (fun r => decide (r.id = runId)) u rfl rfl rfl rfl, fun r hr => ?_⟩
    by_cases hid : r.id = runId
    · exact .inr hid
    · exact .inl (mem_updateWhere.mpr ⟨r, hr, if_neg (by rw [decide_eq_false hid]; decide)⟩)

/-- The run is updated, and no other. -/
theorem DemoRun.update_runs {u : RunUpdate} {row : TuneRunRow}
    (h : update runId u t = .ok (t', row)) :
    t'.tables.runs = updateWhere (fun r => r.id = runId) u.apply t.tables.runs := by
  unfold update at h
  split at h
  · cases h
  · cases h
    rfl

theorem DemoSessionRow.recoverRunningDemoRuns_spec {n : ℕ}
    (h : recoverRunningDemoRuns now t = .ok (t', n)) :
    Does (fun r => r.demoSessionId.isSome = true ∧ r.outcome = .running) t t' := by
  cases h
  refine ⟨.updated _ _ rfl rfl rfl rfl, fun r hr => ?_⟩
  cases hp : r.demoSessionId.isSome && decide (r.outcome = .running) with
  | true =>
    rw [Bool.and_eq_true] at hp
    exact .inr ⟨hp.1, of_decide_eq_true hp.2⟩
  | false => exact .inl (mem_updateWhere.mpr ⟨r, hr, if_neg (by rw [hp]; decide)⟩)

theorem DemoRun.updateNotes_spec {row : TuneRunRow} (h : updateNotes runId t = .ok (t', row)) :
    t' = t := by
  unfold updateNotes at h
  split at h
  · cases h
  · cases h
    rfl

/-- What `start` does. -/
structure Starts (new : NewTuneRun) (t t' : DemoTables κ) (run : TuneRunRow) : Prop where
  row : run = new.row t.tables.nextRun
  owner : ∀ id ∈ new.demoSessionId, ∃ x ∈ t.sessions, x.id = id
  runs : t'.tables.runs = t.tables.runs ++ [run]
  nextRun : t'.tables.nextRun = t.tables.nextRun + 1
  sessions : t'.sessions = t.sessions
  nextSession : t'.nextSession = t.nextSession

theorem DemoRun.start_spec {new : NewTuneRun} {run : TuneRunRow}
    (h : start new t = .ok (t', run)) : Starts new t t' run := by
  unfold start at h
  dsimp only at h
  split at h
  · cases h
  rename_i hvalid
  split at h
  · cases h
  split at h
  · cases h
  split at h
  · cases h
  cases h
  refine ⟨rfl, ?_, rfl, rfl, rfl, rfl⟩
  intro id hid
  rw [Option.mem_def.mp hid] at hvalid
  simp only [Option.all_some, Bool.not_eq_true', Bool.not_eq_false, List.any_eq_true,
    Bool.and_eq_true, decide_eq_true_eq] at hvalid
  obtain ⟨x, hx, hxid, _⟩ := hvalid
  exact ⟨x, hx, hxid⟩

end Statements

end Bhtune
