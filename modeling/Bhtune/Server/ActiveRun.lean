import Mathlib.Data.Nat.Notation
import Mathlib.Tactic.Tauto
import Bhtune.Library.ActionRun

/-!
# The server's registry of tunes and of the exclusive reservation

`ActiveRun` holds the tunes that run in a background task and at most one reservation, for a PID
write or revert that its HTTP handler awaits itself.  All its functions run under one mutex.  A
monitor releases a tune after it has ended.  A handler releases its own reservation, unless it is
dropped before.

* `ActiveRunState` — the registry and its functions;
* `Server` — the registry, the tunes that were started and the operations in progress;
* `ServerInv` — what every run of the server keeps;
* `tune_write_exclusion_iff` — the mutual exclusion, and when the reservation is given back.
-/

namespace Bhtune

open ActionRun

/-! ### The registry -/

/-- A registered tune task, and whether its cancellation was triggered. -/
structure ActiveTask where
  runId : ℕ
  cancelled : Bool := false
  deriving DecidableEq

/-- `ActiveRunState`; the tasks in the order of their run ids. -/
structure ActiveRunState where
  tasks : List ActiveTask := []
  exclusive : Option ℕ := none
  deriving DecidableEq

/-- `RunAlreadyActive`. -/
structure RunAlreadyActive where
  runId : ℕ
  deriving DecidableEq

/-- Inserts a task whose run id is not registered. -/
def insertTask (task : ActiveTask) : List ActiveTask → List ActiveTask
  | [] => [task]
  | first :: rest =>
    if task.runId < first.runId then task :: first :: rest else first :: insertTask task rest

namespace ActiveRunState

/-- `contains_key`. -/
def contains (registry : ActiveRunState) (runId : ℕ) : Bool :=
  registry.tasks.any fun task => task.runId = runId

/-- `start`. -/
def start (registry : ActiveRunState) (runId : ℕ) : Except RunAlreadyActive ActiveRunState :=
  match registry.exclusive with
  | some existing => .error ⟨existing⟩
  | none =>
    if registry.contains runId then .error ⟨runId⟩
    else .ok { registry with tasks := insertTask ⟨runId, false⟩ registry.tasks }

/-- `reserve`. -/
def reserve (registry : ActiveRunState) (runId : ℕ) : Except RunAlreadyActive ActiveRunState :=
  match registry.exclusive with
  | some existing => .error ⟨existing⟩
  | none =>
    match registry.tasks.head? with
    | some task => .error ⟨task.runId⟩
    | none => .ok { registry with exclusive := some runId }

/-- `cancel`: whether a tune or the reservation was found. -/
def cancel (registry : ActiveRunState) (runId : ℕ) : Bool × ActiveRunState :=
  if registry.contains runId then
    (true, { registry with
      tasks := registry.tasks.map fun task =>
        if task.runId = runId then { task with cancelled := true } else task })
  else (decide (registry.exclusive = some runId), registry)

/-- `release`: the reservation if it is for `runId`, else the tune. -/
def release (registry : ActiveRunState) (runId : ℕ) : ActiveRunState :=
  if registry.exclusive = some runId then { registry with exclusive := none }
  else { registry with tasks := registry.tasks.filter fun task => task.runId ≠ runId }

/-- A run is registered as a tune. -/
def Registered (registry : ActiveRunState) (runId : ℕ) : Prop :=
  ∃ task ∈ registry.tasks, task.runId = runId

/-! ### What the functions do -/

variable {registry registry' : ActiveRunState} {runId : ℕ}

theorem contains_iff : registry.contains runId = true ↔ registry.Registered runId := by
  simp [contains, Registered]

theorem mem_insertTask {task other : ActiveTask} {tasks : List ActiveTask} :
    other ∈ insertTask task tasks ↔ other = task ∨ other ∈ tasks := by
  induction tasks with
  | nil => simp [insertTask]
  | cons first rest ih =>
    unfold insertTask
    split
    · simp
    · simp only [List.mem_cons, ih]
      tauto

/-- A tune is started only while nothing is reserved, and is registered by it. -/
theorem start_ok (h : registry.start runId = .ok registry') :
    registry.exclusive = none ∧ registry'.exclusive = none ∧ ¬registry.Registered runId ∧
      ∀ r, registry'.Registered r ↔ r = runId ∨ registry.Registered r := by
  unfold start at h
  split at h
  · cases h
  · rename_i hfree
    split at h
    · cases h
    · rename_i hnew
      rw [contains_iff] at hnew
      cases h
      refine ⟨hfree, hfree, hnew, fun r => ?_⟩
      simp only [Registered, mem_insertTask]
      constructor
      · rintro ⟨task, rfl | hmem, rfl⟩
        · exact .inl rfl
        · exact .inr ⟨task, hmem, rfl⟩
      · rintro (rfl | ⟨task, hmem, rfl⟩)
        · exact ⟨⟨r, false⟩, .inl rfl, rfl⟩
        · exact ⟨task, .inr hmem, rfl⟩

/-- A reservation is granted only while nothing else is registered. -/
theorem reserve_ok (h : registry.reserve runId = .ok registry') :
    registry.exclusive = none ∧ registry.tasks = [] ∧
      registry' = { registry with exclusive := some runId } := by
  unfold reserve at h
  split at h
  · cases h
  · rename_i hfree
    split at h
    · cases h
    · rename_i hnone
      cases h
      exact ⟨hfree, List.head?_eq_none_iff.mp hnone, rfl⟩

/-- A cancellation registers and releases nothing. -/
theorem cancel_keeps (registry : ActiveRunState) (runId : ℕ) :
    (registry.cancel runId).2.exclusive = registry.exclusive ∧
      ∀ r, (registry.cancel runId).2.Registered r ↔ registry.Registered r := by
  unfold cancel
  split
  · refine ⟨rfl, fun r => ?_⟩
    have hid : ∀ task : ActiveTask,
        (if task.runId = runId then { task with cancelled := true } else task).runId =
          task.runId := by
      intro task
      split <;> rfl
    simp only [Registered, List.mem_map]
    constructor
    · rintro ⟨_, ⟨task, hmem, rfl⟩, hrun⟩
      exact ⟨task, hmem, (hid task).symm.trans hrun⟩
    · rintro ⟨task, hmem, hrun⟩
      exact ⟨_, ⟨task, hmem, rfl⟩, (hid task).trans hrun⟩
  · exact ⟨rfl, fun r => Iff.rfl⟩

/-- Without a reservation for the run, a release takes the run's tune, and no other. -/
theorem release_tune (h : registry.exclusive ≠ some runId) :
    (registry.release runId).exclusive = registry.exclusive ∧
      ∀ r, (registry.release runId).Registered r ↔ registry.Registered r ∧ r ≠ runId := by
  unfold release
  rw [if_neg h]
  refine ⟨rfl, fun r => ?_⟩
  simp only [Registered, List.mem_filter, decide_not, Bool.not_eq_true', decide_eq_false_iff_not]
  constructor
  · rintro ⟨task, ⟨hmem, hne⟩, rfl⟩
    exact ⟨⟨task, hmem, rfl⟩, hne⟩
  · rintro ⟨⟨task, hmem, rfl⟩, hne⟩
    exact ⟨task, ⟨hmem, hne⟩, rfl⟩

/-- With one, it takes the reservation, and no tune. -/
theorem release_reservation (h : registry.exclusive = some runId) :
    registry.release runId = { registry with exclusive := none } := if_pos h

end ActiveRunState

/-! ### The server -/

/-- A tune that was started, until its monitor has released it; ended when its task has returned
or panicked. -/
structure BackgroundTune where
  runId : ℕ
  ended : Bool
  deriving DecidableEq

/-- A PID write or revert between the reservation its handler was granted and the release. -/
structure ReservedOperation where
  handler : ℕ
  runId : ℕ
  deriving DecidableEq

/-- The registry and what it is there for. -/
structure Server where
  registry : ActiveRunState := {}
  tunes : List BackgroundTune := []
  operations : List ReservedOperation := []
  deriving DecidableEq

/-- What happens in the server. -/
inductive ServerAction where
  /-- A handler asks for a tune to be started. -/
  | start (runId : ℕ)
  /-- The task of a tune returns or panics. -/
  | tuneEnds (runId : ℕ)
  /-- The monitor of an ended tune releases it. -/
  | monitorReleases (runId : ℕ)
  | cancel (runId : ℕ)
  /-- A handler asks for the reservation. -/
  | reserve (handler : ℕ) (runId : ℕ)
  /-- A handler whose operation is over releases the reservation. -/
  | release (handler : ℕ)
  /-- The future of a handler that was granted the reservation is dropped before its release. -/
  | dropped (handler : ℕ)
  deriving DecidableEq

/-- The state after an action, where it can happen. -/
def Server.step (s : Server) : ServerAction → Option Server
  | .start runId =>
    match s.registry.start runId with
    | .ok registry => some { s with registry := registry, tunes := ⟨runId, false⟩ :: s.tunes }
    | .error _ => some s
  | .tuneEnds runId =>
    if ⟨runId, false⟩ ∈ s.tunes then
      some { s with tunes := s.tunes.map fun tune =>
        if tune.runId = runId then { tune with ended := true } else tune }
    else none
  | .monitorReleases runId =>
    if ⟨runId, true⟩ ∈ s.tunes then
      some { s with
        registry := s.registry.release runId
        tunes := s.tunes.filter fun tune => tune.runId ≠ runId }
    else none
  | .cancel runId => some { s with registry := (s.registry.cancel runId).2 }
  | .reserve handler runId =>
    if s.operations.any fun op => op.handler = handler then none
    else
      match s.registry.reserve runId with
      | .ok registry =>
        some { s with registry := registry, operations := ⟨handler, runId⟩ :: s.operations }
      | .error _ => some s
  | .release handler =>
    match s.operations.find? fun op => op.handler = handler with
    | none => none
    | some op => some { s with
        registry := s.registry.release op.runId
        operations := s.operations.filter fun other => other.handler ≠ handler }
  | .dropped handler =>
    if s.operations.any fun op => op.handler = handler then
      some { s with operations := s.operations.filter fun op => op.handler ≠ handler }
    else none

/-- The server takes this step. -/
abbrev ServerStep : Server → ServerAction → Server → Prop := stepOf Server.step

/-! ### The invariant -/

/-- The registry knows the tunes; a reservation and a tune exclude each other; an operation in
progress is the only one, and the reservation is its own. -/
structure ServerInv (s : Server) : Prop where
  registered : ∀ r, s.registry.Registered r ↔ ∃ tune ∈ s.tunes, tune.runId = r
  alone : s.registry.exclusive = none ∨ s.tunes = []
  single : s.operations = [] ∨
    ∃ op, s.operations = [op] ∧ s.registry.exclusive = some op.runId

theorem serverInv_initial : ServerInv {} where
  registered := fun r => by simp [ActiveRunState.Registered]
  alone := .inl rfl
  single := .inl rfl

variable {s s' : Server} {a : ServerAction}

namespace ServerInv

/-- Where nothing is reserved, no operation is in progress. -/
theorem idle (inv : ServerInv s) (h : s.registry.exclusive = none) : s.operations = [] := by
  rcases inv.single with hnone | ⟨op, _, hheld⟩
  · exact hnone
  · rw [h] at hheld
    cases hheld

/-- What an operation in progress says. -/
theorem held (inv : ServerInv s) {op : ReservedOperation} (h : op ∈ s.operations) :
    s.operations = [op] ∧ s.registry.exclusive = some op.runId := by
  rcases inv.single with hnone | ⟨only, honly, hheld⟩
  · rw [hnone] at h
    cases h
  · rw [honly] at h
    cases List.mem_singleton.mp h
    exact ⟨honly, hheld⟩

/-- Where a tune is registered, nothing is reserved. -/
theorem free_of_tune (inv : ServerInv s) {tune : BackgroundTune} (h : tune ∈ s.tunes) :
    s.registry.exclusive = none := by
  refine inv.alone.resolve_right fun hnone => ?_
  rw [hnone] at h
  cases h

theorem tunes_of_tasks (inv : ServerInv s) (h : s.registry.tasks = []) : s.tunes = [] := by
  refine List.eq_nil_iff_forall_not_mem.mpr fun tune htune => ?_
  obtain ⟨task, htask, _⟩ := (inv.registered tune.runId).mpr ⟨tune, htune, rfl⟩
  rw [h] at htask
  cases htask

/-- **Every step keeps the invariant.** -/
theorem step (inv : ServerInv s) (h : ServerStep s a s') : ServerInv s' := by
  unfold ServerStep stepOf Server.step at h
  cases a with
  | start runId =>
    dsimp only at h
    split at h
    · rename_i registry hstart
      cases h
      obtain ⟨hfree, hfree', _, hregistered⟩ := ActiveRunState.start_ok hstart
      refine ⟨fun r => ?_, .inl hfree', .inl (inv.idle hfree)⟩
      rw [hregistered, inv.registered]
      simp only [List.mem_cons, exists_eq_or_imp]
      exact or_congr ⟨Eq.symm, Eq.symm⟩ Iff.rfl
    · cases h
      exact inv
  | tuneEnds runId =>
    dsimp only at h
    split at h
    · cases h
      have hid : ∀ tune : BackgroundTune,
          (if tune.runId = runId then { tune with ended := true } else tune).runId =
            tune.runId := by
        intro tune
        split <;> rfl
      refine ⟨fun r => ?_, inv.alone.imp_right fun hnone => ?_, inv.single⟩
      · rw [inv.registered]
        simp only [List.mem_map, exists_exists_and_eq_and, hid]
      · show s.tunes.map _ = []
        rw [hnone]
        rfl
    · cases h
  | monitorReleases runId =>
    dsimp only at h
    split at h
    · rename_i hended
      cases h
      have hfree := inv.free_of_tune hended
      obtain ⟨hexclusive, hregistered⟩ := @ActiveRunState.release_tune s.registry runId
        (by rw [hfree]; nofun)
      refine ⟨fun r => ?_, .inl (hexclusive.trans hfree), .inl (inv.idle hfree)⟩
      rw [hregistered, inv.registered]
      simp only [List.mem_filter, decide_not, Bool.not_eq_true', decide_eq_false_iff_not]
      constructor
      · rintro ⟨⟨tune, htune, rfl⟩, hne⟩
        exact ⟨tune, ⟨htune, hne⟩, rfl⟩
      · rintro ⟨tune, ⟨htune, hne⟩, rfl⟩
        exact ⟨⟨tune, htune, rfl⟩, hne⟩
    · cases h
  | cancel runId =>
    cases h
    obtain ⟨hexclusive, hregistered⟩ := s.registry.cancel_keeps runId
    refine ⟨fun r => (hregistered r).trans (inv.registered r), ?_, ?_⟩
    · show (s.registry.cancel runId).2.exclusive = none ∨ _
      rw [hexclusive]
      exact inv.alone
    · show _ ∨ ∃ op, _ ∧ (s.registry.cancel runId).2.exclusive = _
      rw [hexclusive]
      exact inv.single
  | reserve handler runId =>
    dsimp only at h
    split at h
    · cases h
    · split at h
      · rename_i registry hreserve
        cases h
        obtain ⟨hfree, htasks, rfl⟩ := ActiveRunState.reserve_ok hreserve
        refine ⟨inv.registered, .inr (inv.tunes_of_tasks htasks), .inr ⟨⟨handler, runId⟩, ?_, rfl⟩⟩
        show _ :: s.operations = _
        rw [inv.idle hfree]
      · cases h
        exact inv
  | release handler =>
    dsimp only at h
    split at h
    · cases h
    · rename_i op hfind
      cases h
      obtain ⟨honly, hheld⟩ := inv.held (List.mem_of_find?_eq_some hfind)
      rw [ActiveRunState.release_reservation hheld]
      refine ⟨inv.registered, .inl rfl, .inl ?_⟩
      have hhandler := List.find?_some hfind
      rw [honly]
      simpa using hhandler
  | dropped handler =>
    dsimp only at h
    split at h
    · rename_i hany
      cases h
      refine ⟨inv.registered, inv.alone, .inl ?_⟩
      obtain ⟨op, hop, hhandler⟩ := List.any_eq_true.mp hany
      rw [(inv.held hop).1]
      simpa using hhandler
    · cases h

end ServerInv

/-! ### Mutual exclusion -/

/-- A step in which a reservation is granted, a tune is started or something is released. -/
structure Orderly (s : Server) (a : ServerAction) (s' : Server) : Prop where
  /-- A reservation is granted while no tune is registered and no operation is in progress. -/
  reserved : ∀ handler runId, a = .reserve handler runId → s'.operations ≠ s.operations →
    s.tunes = [] ∧ s.operations = []
  /-- A tune is started while no operation is in progress. -/
  started : ∀ runId, a = .start runId → s'.tunes ≠ s.tunes → s.operations = []
  /-- A monitor takes its own tune, and nothing else. -/
  monitored : ∀ runId, a = .monitorReleases runId →
    s'.registry.exclusive = s.registry.exclusive ∧
      ∀ r, r ≠ runId → (s'.registry.Registered r ↔ s.registry.Registered r)
  /-- A handler takes the reservation of its own operation, and nothing else. -/
  released : ∀ handler, a = .release handler →
    (∃ op ∈ s.operations, op.handler = handler ∧ s.registry.exclusive = some op.runId) ∧
      s'.registry.tasks = s.registry.tasks

/-- While no operation is in progress, nothing is reserved. -/
def Server.Free (s : Server) : Prop := s.operations = [] → s.registry.exclusive = none

/-- The law of the registry, throughout a run of the server. -/
structure TuneWriteExclusion (actions : List ServerAction) : Prop where
  orderly : ∀ before a after s s', actions = before ++ a :: after →
    Run ServerStep {} before s → ServerStep s a s' → Orderly s a s'
  free : ∀ before after s, actions = before ++ after → Run ServerStep {} before s → s.Free

theorem ServerInv.orderly (inv : ServerInv s) (h : ServerStep s a s') : Orderly s a s' := by
  unfold ServerStep stepOf Server.step at h
  constructor
  · rintro handler runId rfl hgranted
    dsimp only at h
    split at h
    · cases h
    · split at h
      · rename_i registry hreserve
        obtain ⟨hfree, htasks, _⟩ := ActiveRunState.reserve_ok hreserve
        exact ⟨inv.tunes_of_tasks htasks, inv.idle hfree⟩
      · cases h
        exact absurd rfl hgranted
  · rintro runId rfl hstarted
    dsimp only at h
    split at h
    · rename_i registry hstart
      exact inv.idle (ActiveRunState.start_ok hstart).1
    · cases h
      exact absurd rfl hstarted
  · rintro runId rfl
    dsimp only at h
    split at h
    · rename_i hended
      cases h
      obtain ⟨hexclusive, hregistered⟩ := @ActiveRunState.release_tune s.registry runId
        (by rw [inv.free_of_tune hended]; nofun)
      exact ⟨hexclusive, fun r hne => (hregistered r).trans (and_iff_left hne)⟩
    · cases h
  · rintro handler rfl
    dsimp only at h
    split at h
    · cases h
    · rename_i op hfind
      cases h
      have hmem := List.mem_of_find?_eq_some hfind
      have hhandler := List.find?_some hfind
      have hheld := (inv.held hmem).2
      refine ⟨⟨op, hmem, by simpa using hhandler, hheld⟩, ?_⟩
      show (s.registry.release op.runId).tasks = _
      rw [ActiveRunState.release_reservation hheld]

theorem serverInv_run {actions : List ServerAction} (h : Run ServerStep {} actions s) :
    ServerInv s := h.invariant serverInv_initial fun _ _ _ inv hstep => inv.step hstep

/-- A step that drops no handler leaves nothing reserved behind. -/
theorem Server.Free.step (inv : ServerInv s) (hfree : s.Free) (h : ServerStep s a s')
    (ha : ∀ handler, a ≠ .dropped handler) : s'.Free := by
  unfold ServerStep stepOf Server.step at h
  intro hnone
  cases a with
  | start runId =>
    dsimp only at h
    split at h
    · rename_i registry hstart
      cases h
      exact (ActiveRunState.start_ok hstart).2.1
    · cases h
      exact hfree hnone
  | tuneEnds runId =>
    dsimp only at h
    split at h
    · cases h
      exact hfree hnone
    · cases h
  | monitorReleases runId =>
    dsimp only at h
    split at h
    · rename_i hended
      cases h
      have hnotheld := inv.free_of_tune hended
      exact ((@ActiveRunState.release_tune s.registry runId (by rw [hnotheld]; nofun)).1).trans
        hnotheld
    · cases h
  | cancel runId =>
    cases h
    exact (s.registry.cancel_keeps runId).1.trans (hfree hnone)
  | reserve handler runId =>
    dsimp only at h
    split at h
    · cases h
    · split at h
      · cases h
        cases hnone
      · cases h
        exact hfree hnone
  | release handler =>
    dsimp only at h
    split at h
    · cases h
    · rename_i op hfind
      cases h
      rw [ActiveRunState.release_reservation (inv.held (List.mem_of_find?_eq_some hfind)).2]
  | dropped handler => exact absurd rfl (ha handler)

/-- A dropped handler leaves its reservation behind. -/
theorem ServerInv.not_free_of_dropped (inv : ServerInv s) {handler : ℕ}
    (h : ServerStep s (.dropped handler) s') : ¬s'.Free := by
  intro hfree
  have inv' := inv.step h
  unfold ServerStep stepOf Server.step at h
  dsimp only at h
  split at h
  · rename_i hany
    cases h
    obtain ⟨op, hop, hhandler⟩ := List.any_eq_true.mp hany
    obtain ⟨honly, hheld⟩ := inv.held hop
    have hnone : s.operations.filter (fun op => op.handler ≠ handler) = [] := by
      rw [honly]
      simpa using hhandler
    have hfree := hfree hnone
    rw [hheld] at hfree
    cases hfree
  · cases h

/-- **Tunes and writes exclude each other, and when the reservation is given back.**  Over every
run of the server before its shutdown, reservations, starts and releases are in order, and nothing
stays reserved while no operation is in progress, if and only if no handler is dropped between its
reservation and its release. -/
theorem tune_write_exclusion_iff {actions : List ServerAction} (h : Run ServerStep {} actions s) :
    TuneWriteExclusion actions ↔ ∀ handler, .dropped handler ∉ actions := by
  constructor
  · intro hlaw handler hmem
    obtain ⟨before, after, rfl⟩ := List.append_of_mem hmem
    obtain ⟨s₁, s₂, hbefore, hdropped, hafter⟩ := h.at_action
    refine (serverInv_run hbefore).not_free_of_dropped hdropped ?_
    exact hlaw.free (before ++ [.dropped handler]) after s₂ (by simp) (hbefore.concat hdropped)
  · intro hkept
    constructor
    · rintro before a after s₁ s₂ rfl hbefore hstep
      exact (serverInv_run hbefore).orderly hstep
    · rintro before after s₁ rfl hbefore
      have hboth : ServerInv s₁ ∧ s₁.Free := by
        refine hbefore.invariant_of (P := fun t => ServerInv t ∧ t.Free)
          (p := fun a => ∀ handler, a ≠ .dropped handler) ?_ ⟨serverInv_initial, fun _ => rfl⟩ ?_
        · rintro a ha handler rfl
          exact hkept handler (List.mem_append_left _ ha)
        · intro t a t' ha ht hstep
          exact ⟨ht.1.step hstep, ht.2.step ht.1 hstep ha⟩
      exact hboth.2

/-- A tune, and after it a write. -/
def tuneThenWrite : List ServerAction :=
  [.start 1, .reserve 7 2, .tuneEnds 1, .monitorReleases 1, .reserve 7 2, .start 3, .release 7]

theorem tune_write_exclusion_tuneThenWrite : TuneWriteExclusion tuneThenWrite :=
  (tune_write_exclusion_iff (s := {}) (run_of_exec (by decide))).mpr
    fun handler => by simp [tuneThenWrite]

/-- A write whose client goes away. -/
def droppedWrite : List ServerAction := [.reserve 7 2, .dropped 7]

/-- The reservation of a dropped handler keeps every tune and every write away. -/
theorem tune_write_exclusion_droppedWrite :
    ∃ s, exec Server.step {} droppedWrite = some s ∧ s.operations = [] ∧ s.tunes = [] ∧
      ¬s.Free ∧ ∀ runId, s.registry.start runId = .error ⟨2⟩ ∧
        s.registry.reserve runId = .error ⟨2⟩ :=
  ⟨⟨⟨[], some 2⟩, [], []⟩, by decide, rfl, rfl, fun h => (nomatch h rfl),
    fun _ => ⟨rfl, rfl⟩⟩

end Bhtune
