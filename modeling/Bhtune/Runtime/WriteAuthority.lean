import Bhtune.Runtime.Fleet

/-!
# Write authority

The check that an owner may write is made by the insert of the intent; the write is given to the
inner driver later.  In between the lock keeps every party away that could end the owner.

* `Backed` — the intent of a write is on record, for an owner that is active and has its claim;
* `LiveChange`, `StepsKept` — what a step makes of the database, and of the recorded steps;
* `FleetInv` — what every interleaving keeps;
* `write_authority` — a write that is handed over has its own intent, of an active owner.
-/

namespace Bhtune

open ActionRun Table Transaction

/-! ### What a write rests on -/

/-- An owner of the run is active, and has the claim of its loop. -/
def Authorized (t : Tables) (ownerId : ℕ) (runId : Option ℕ) : Prop :=
  ∃ o ∈ t.owners, o.id = ownerId ∧ o.runId = runId ∧ o.state = .active ∧
    ∃ c ∈ t.claims, c.ownerId = o.id ∧ c.claimKey = o.claimKey

/-- The intent of a write is on record, for an owner that is active and has its claim. -/
structure Backed (encode : String → TagWrite → String) (t : Tables) (ownerId : ℕ)
    (w : AuditedWrite) : Prop where
  row : ∃ x ∈ t.steps, x.id = w.stepId ∧ x.status = .intent ∧ x.ownerId = ownerId ∧
    x.runId = w.runId ∧ x.step = "controller_write" ∧ x.targetJson = encode w.tag w.value
  owner : Authorized t ownerId w.runId

/-- Each step is as it was, or has left its intent. -/
def StepsKept (t t' : Tables) : Prop :=
  ∀ x ∈ t.steps, x ∈ t'.steps ∨
    x.status = .intent ∧ ∃ x' ∈ t'.steps, x'.id = x.id ∧ x'.status ≠ .intent

section Tables

variable {t t' t'' : Tables} {ownerId : ℕ} {runId : Option ℕ}

theorem stepsKept_of_eq (h : t'.steps = t.steps) : StepsKept t t' := fun _ hx => .inl (h ▸ hx)

theorem StepsKept.trans (h : StepsKept t t') (h' : StepsKept t' t'') : StepsKept t t'' := by
  intro x hx
  rcases h x hx with hx' | ⟨hintent, x', hx', hid, hended⟩
  · exact h' x hx'
  · rcases h' x' hx' with hx'' | ⟨hintent', _⟩
    · exact .inr ⟨hintent, x', hx'', hid, hended⟩
    · exact absurd hintent' hended

/-- A step that is on record stays on record. -/
theorem StepsKept.id (h : StepsKept t t') {stepId : ℕ} (hx : ∃ x ∈ t.steps, x.id = stepId) :
    ∃ x ∈ t'.steps, x.id = stepId := by
  obtain ⟨x, hx, rfl⟩ := hx
  rcases h x hx with hx' | ⟨_, x', hx', hid, _⟩
  · exact ⟨x, hx', rfl⟩
  · exact ⟨x', hx', hid⟩

theorem Authorized.of_eq (h : Authorized t ownerId runId) (howners : t'.owners = t.owners)
    (hclaims : t'.claims = t.claims) : Authorized t' ownerId runId := by
  unfold Authorized
  rw [howners, hclaims]
  exact h

/-- A heartbeat or a new restore intent leaves an owner its authority. -/
theorem Authorized.touched {o o' : LiveOwnershipRow} (keyed : Keyed t)
    (h : Authorized t ownerId runId) (htouched : Touched o o' t t') :
    Authorized t' ownerId runId := by
  obtain ⟨x, hx, hid, hrun, hactive, c, hc, hco, hkey⟩ := h
  have hc' : c ∈ t'.claims := by
    rw [htouched.claims]
    exact hc
  by_cases hsame : x.id = o.id
  · have hxo : x = o := keyed.owner x hx o htouched.owners.was hsame
    subst hxo
    obtain ⟨hid', hrun', _, hkey'⟩ := LiveOwnershipRow.identity_parts htouched.identity
    exact ⟨o', htouched.owners.mem_new, hid'.trans hid, hrun'.trans hrun, htouched.active, c, hc',
      hco.trans hid'.symm, hkey.trans hkey'.symm⟩
  · exact ⟨x, htouched.owners.mem_other hx hsame, hid, hrun, hactive, c, hc', hco, hkey⟩

/-- What may record a mutation is authorized. -/
theorem authorized_of_mayMutate (inv : OwnershipInv t) (keyed : Keyed t)
    (h : t.mayMutate ownerId runId = true) : Authorized t ownerId runId := by
  simp only [Tables.mayMutate, Bool.and_eq_true, List.any_eq_true, decide_eq_true_eq] at h
  obtain ⟨⟨o, ho, ⟨hid, hrun⟩, hactive⟩, hclaimed⟩ := h
  obtain ⟨c, hc, hco⟩ := claimed_iff.mp hclaimed
  have hown : c.ownerId = o.id := hco.trans hid.symm
  exact ⟨o, ho, hid, hrun, hactive, c, hc, hown, inv.claimKey_eq keyed hc ho hown⟩

end Tables

/-! ### What the calls leave alone -/

section Calls

variable {encode : String → TagWrite → String} {s : LiveSystem} {d : Db} {refusals : List Bool}
  {ownerId : ℕ} {w : AuditedWrite}

theorem answer_of_ends {α : Type} {x : DbM α} {Q : α → Db → Prop} {E : DbError → Db → Prop} {a : α}
    (h : Ends x Q E d) (ha : answer x d refusals = some a) : Q a (after x d refusals) := by
  have hrun := h refusals
  unfold Effect.wp at hrun
  unfold answer at ha
  unfold Bhtune.after
  cases hx : x ⟨d, refusals⟩ with
  | ok b s =>
    rw [hx] at hrun ha
    cases ha
    exact hrun
  | error e s =>
    rw [hx] at ha
    cases ha

/-- The ownership calls leave the steps alone. -/
theorem callWith_steps (inv : SystemInv s) {call : LiveCall} (h : call.Passes s) :
    (s.callWith call refusals).db.1.steps = s.db.1.steps := by
  rcases after_of_ends (call.ends s h inv.unowned) refusals with ⟨_, hmoved⟩ | ⟨_, hsame⟩
  · exact hmoved.2
  · exact congrArg (fun d : Db => d.1.steps) hsame

/-- A call that touches its owner at most leaves a write its backing. -/
theorem Backed.touching {α : Type} {x : DbM α}
    (h : Ends x (fun _ d' => ∃ o o', Touched o o' d.1 d'.1) (fun _ d' => d' = d) d)
    (hback : Backed encode d.1 ownerId w) : Backed encode (after x d refusals).1 ownerId w := by
  rcases after_of_ends h refusals with ⟨_, o, o', htouched⟩ | ⟨_, hsame⟩
  · constructor
    · rw [htouched.steps]
      exact hback.row
    · exact hback.owner.touched d.2.keyed htouched
  · rw [hsame]
    exact hback

/-- A statement that moves nothing and replaces no intent of the write leaves it its backing. -/
theorem Backed.unmoved {d' : Db} (hback : Backed encode d.1 ownerId w) (h : Unmoved d.1 d'.1)
    (hsteps : ∀ x ∈ d.1.steps, x.id = w.stepId → x ∈ d'.1.steps) :
    Backed encode d'.1 ownerId w := by
  obtain ⟨⟨x, hx, hid, hrow⟩, howner⟩ := hback
  exact ⟨⟨x, hsteps x hx hid, hid, hrow⟩, howner.of_eq h.owners h.claims⟩

theorem finishWrite_ends (stepId : ℕ) (accepted : Bool) (now : UtcTime) (detail : String) (d : Db) :
    Ends (finishWrite stepId accepted now detail)
      (fun _ d' => Unmoved d.1 d'.1 ∧ ∃ x x' : LiveMutationStepRow, x.id = stepId ∧
        x.status = .intent ∧ x'.status ≠ .intent ∧
        Replaced LiveMutationStepRow.id x x' d.1.steps d'.1.steps)
      (fun _ d' => d' = d) d := by
  refine ends_mono (finishStep_ends stepId _ now none (some detail) d) ?_ (fun _ _ h => h)
  rintro row d' ⟨x, hid, hintent, hended, _, hunmoved, hreplaced⟩
  exact ⟨hunmoved, x, row, hid, hintent, hended, hreplaced⟩

/-- Finishing a step leaves the other writes their backing. -/
theorem Backed.finished {stepId : ℕ} {accepted : Bool} {now : UtcTime} {detail : String}
    (hback : Backed encode d.1 ownerId w) (hne : w.stepId ≠ stepId) :
    Backed encode (after (finishWrite stepId accepted now detail) d refusals).1 ownerId w := by
  rcases after_of_ends (finishWrite_ends stepId accepted now detail d) refusals with
    ⟨_, hunmoved, x, x', hid, _, _, hreplaced⟩ | ⟨_, hsame⟩
  · refine hback.unmoved hunmoved fun y hy hyid => hreplaced.mem_other hy ?_
    rw [hyid, hid]
    exact hne
  · rw [hsame]
    exact hback

theorem stepsKept_finished (stepId : ℕ) (accepted : Bool) (now : UtcTime) (detail : String) :
    StepsKept d.1 (after (finishWrite stepId accepted now detail) d refusals).1 := by
  rcases after_of_ends (finishWrite_ends stepId accepted now detail d) refusals with
    ⟨_, _, x, x', _, hintent, hended, hreplaced⟩ | ⟨_, hsame⟩
  · intro y hy
    by_cases hyx : y.id = x.id
    · rw [d.2.steps.primaryKey.eq hy hreplaced.was hyx]
      exact .inr ⟨hintent, x', hreplaced.mem_new, hreplaced.same, hended⟩
    · exact .inl (hreplaced.mem_other hy hyx)
  · rw [hsame]
    exact stepsKept_of_eq rfl

/-- A new intent leaves every write its backing. -/
theorem Backed.begun {new : NewLiveMutationStep} (hback : Backed encode d.1 ownerId w) :
    Backed encode (after (LiveMutationStepRow.begin new) d refusals).1 ownerId w := by
  rcases after_of_ends (beginStep_ends new d) refusals with ⟨_, _, _, h, hinserted⟩ | ⟨_, hsame⟩
  · exact hback.unmoved h fun x hx _ => hinserted.mem_old hx
  · rw [hsame]
    exact hback

theorem stepsKept_begun (new : NewLiveMutationStep) :
    StepsKept d.1 (after (LiveMutationStepRow.begin new) d refusals).1 := by
  rcases after_of_ends (beginStep_ends new d) refusals with ⟨_, _, _, _, hinserted⟩ | ⟨_, hsame⟩
  · exact fun x hx => .inl (hinserted.mem_old hx)
  · rw [hsame]
    exact stepsKept_of_eq rfl

/-- The start and the update of a run move no owner, claim or step. -/
theorem runs_only (new : NewTuneRun) :
    (s.startRun new refusals).db.1.owners = s.db.1.owners ∧
      (s.startRun new refusals).db.1.claims = s.db.1.claims ∧
      (s.startRun new refusals).db.1.steps = s.db.1.steps := by
  have hrun := startWithDemoSession_ends new s.db refusals
  unfold Effect.wp at hrun
  unfold LiveSystem.startRun
  cases hx : TuneRunRow.startWithDemoSession new ⟨s.db, refusals⟩ with
  | ok row s' =>
    rw [hx] at hrun
    exact ⟨hrun.2.owners, hrun.2.claims, hrun.2.steps⟩
  | error e s' =>
    rw [hx] at hrun
    show s'.store.1.owners = _ ∧ s'.store.1.claims = _ ∧ s'.store.1.steps = _
    rw [show s'.store = s.db from hrun]
    exact ⟨rfl, rfl, rfl⟩

theorem run_updated_only (runId : ℕ) (update : RunUpdate) :
    (after (TuneRunRow.updateRow runId update) d refusals).1.owners = d.1.owners ∧
      (after (TuneRunRow.updateRow runId update) d refusals).1.claims = d.1.claims ∧
      (after (TuneRunRow.updateRow runId update) d refusals).1.steps = d.1.steps := by
  rcases after_of_ends (updateRow_ends runId update d) refusals with ⟨_, r, _, h⟩ | ⟨_, hsame⟩
  · exact ⟨h.owners, h.claims, h.steps⟩
  · rw [hsame]
    exact ⟨rfl, rfl, rfl⟩

theorem Backed.runsOnly {d' : Db} (hback : Backed encode d.1 ownerId w)
    (h : d'.1.owners = d.1.owners ∧ d'.1.claims = d.1.claims ∧ d'.1.steps = d.1.steps) :
    Backed encode d'.1 ownerId w := by
  constructor
  · rw [h.2.2]
    exact hback.row
  · exact hback.owner.of_eq h.1 h.2.1

/-- A write whose intent was just recorded is backed, under a step of its own. -/
theorem backed_of_begin {guard : HeldGuard} {runId : Option ℕ} {tag : String} {value : TagWrite}
    {previousJson : Option String} {now : UtcTime} {row : LiveMutationStepRow}
    (inv : OwnershipInv d.1)
    (h : answer (LiveMutationStepRow.begin
      (Fleet.intent encode guard runId tag value previousJson now)) d refusals = some row) :
    (∀ x ∈ d.1.steps, x.id ≠ row.id) ∧
      Backed encode (after (LiveMutationStepRow.begin
        (Fleet.intent encode guard runId tag value previousJson now)) d refusals).1
        guard.ownerId ⟨row.id, runId, tag, value, false⟩ := by
  obtain ⟨hrow, hmay, hunmoved, hinserted⟩ := answer_of_ends (beginStep_ends _ d) h
  constructor
  · intro x hx hid
    have hlt := d.2.steps.below x hx
    rw [hid, hrow] at hlt
    exact absurd hlt (Nat.lt_irrefl _)
  · constructor
    · refine ⟨row, hinserted.mem_new, rfl, ?_⟩
      rw [hrow]
      exact ⟨rfl, rfl, rfl, rfl, rfl⟩
    · have howner := authorized_of_mayMutate inv d.2.keyed hmay
      exact howner.of_eq hunmoved.owners hunmoved.claims

/-- What a step makes of the database. -/
inductive LiveChange (s : LiveSystem) : LiveSystem → Prop
  | same : LiveChange s s
  | call (call : LiveCall) (refusals : List Bool) (h : call.Passes s) :
      LiveChange s (s.callWith call refusals)
  | begun (new : NewLiveMutationStep) (refusals : List Bool) :
      LiveChange s (s.statement (LiveMutationStepRow.begin new) refusals)
  | finished (stepId : ℕ) (accepted : Bool) (now : UtcTime) (detail : String)
      (refusals : List Bool) :
      LiveChange s (s.statement (finishWrite stepId accepted now detail) refusals)
  | started (new : NewTuneRun) (refusals : List Bool) : LiveChange s (s.startRun new refusals)
  | updated (runId : ℕ) (update : RunUpdate) (refusals : List Bool) :
      LiveChange s (s.statement (TuneRunRow.updateRow runId update) refusals)

theorem LiveChange.reach {s' : LiveSystem} (h : LiveChange s s') (hreach : Reach s) :
    Reach s' := by
  cases h with
  | same => exact hreach
  | call call refusals hpass => exact hreach.step (.live call hpass refusals)
  | begun new refusals => exact hreach.step (.beginStep new refusals)
  | finished stepId accepted now detail refusals =>
    exact hreach.step (.finishStep stepId _ now none (some detail) refusals)
  | started new refusals => exact hreach.step (.start new refusals)
  | updated runId update refusals => exact hreach.step (.updateRun runId update refusals)

theorem LiveChange.kept {s' : LiveSystem} (h : LiveChange s s') (hreach : Reach s) :
    StepsKept s.db.1 s'.db.1 := by
  cases h with
  | same => exact stepsKept_of_eq rfl
  | call call refusals hpass => exact stepsKept_of_eq (callWith_steps (reach_inv hreach) hpass)
  | begun new refusals => exact stepsKept_begun new
  | finished stepId accepted now detail refusals =>
    exact stepsKept_finished stepId accepted now detail
  | started new refusals => exact stepsKept_of_eq (runs_only new).2.2
  | updated runId update refusals => exact stepsKept_of_eq (run_updated_only runId update).2.2

end Calls

/-! ### The invariant -/

/-- Only the holder of the lock is at work; its writes in flight are backed, each by a step of its
own; a dropped write has none of their steps. -/
structure FleetInv (encode : String → TagWrite → String) (s : Fleet) : Prop where
  reach : Reach s.live
  lock : ∀ i, s.parties i ≠ .idle → s.lock = some i
  backed : ∀ i guard, s.parties i = .guarding guard → ∀ w ∈ guard.writes,
    Backed encode s.live.db.1 guard.ownerId w
  distinct : ∀ i guard, s.parties i = .guarding guard →
    (guard.writes.map AuditedWrite.stepId).Nodup
  recorded : ∀ id ∈ s.dropped, ∃ x ∈ s.live.db.1.steps, x.id = id
  dropped : ∀ id ∈ s.dropped, ∀ i guard, s.parties i = .guarding guard → ∀ w ∈ guard.writes,
    w.stepId ≠ id

/-- A write in flight. -/
def Fleet.Flies (s : Fleet) (i : ℕ) (w : AuditedWrite) : Prop :=
  ∃ guard, s.parties i = .guarding guard ∧ w ∈ guard.writes

/-- What a step keeps.  A write that has not been given to the inner driver was in flight before,
or its step is new. -/
structure FleetMoved (encode : String → TagWrite → String) (s s' : Fleet) : Prop where
  inv : FleetInv encode s'
  change : LiveChange s.live s'.live
  pending : ∀ i w, s'.Flies i w → w.handed = false →
    s.Flies i w ∨ ∀ x ∈ s.live.db.1.steps, x.id ≠ w.stepId

section Invariant

variable {encode : String → TagWrite → String} {s s' : Fleet} {a : FleetAction} {i : ℕ}

theorem fleetInv_initial : FleetInv encode .initial where
  reach := .initial
  lock := fun i h => absurd rfl h
  backed := fun i guard h => by cases h
  distinct := fun i guard h => by cases h
  recorded := fun id h => by cases h
  dropped := fun id h => by cases h

namespace FleetInv

/-- **The lock excludes the other parties.** -/
theorem alone (inv : FleetInv encode s) {j : ℕ} (hi : s.parties i ≠ .idle) (hne : j ≠ i) :
    s.parties j = .idle := by
  by_contra hj
  have hlock := inv.lock i hi
  rw [inv.lock j hj] at hlock
  exact hne (Option.some.inj hlock)

/-- What keeps the parties where they are keeps the invariant when the writes in flight stay
backed. -/
theorem background (inv : FleetInv encode s) {live : LiveSystem}
    (change : LiveChange s.live live)
    (backed : ∀ i guard, s.parties i = .guarding guard → ∀ w ∈ guard.writes,
      Backed encode s.live.db.1 guard.ownerId w → Backed encode live.db.1 guard.ownerId w) :
    FleetMoved encode s { s with live := live } where
  inv :=
    { reach := change.reach inv.reach
      lock := inv.lock
      backed := fun i guard h w hw => backed i guard h w hw (inv.backed i guard h w hw)
      distinct := inv.distinct
      recorded := fun id hid => (change.kept inv.reach).id (inv.recorded id hid)
      dropped := inv.dropped }
  change := change
  pending := fun _ _ hw _ => .inl hw

/-- Nothing happens. -/
theorem stay (inv : FleetInv encode s) : FleetMoved encode s s :=
  inv.background .same fun _ _ _ _ _ h => h

/-- The party at work goes on with these writes in flight. -/
theorem act (inv : FleetInv encode s) (hi : s.parties i ≠ .idle) {live : LiveSystem}
    (change : LiveChange s.live live) {party : Party}
    {dropped : List ℕ} {lock : Option ℕ} (hlock : party ≠ .idle → lock = some i)
    (writes : ∀ guard, party = .guarding guard →
      (∀ w ∈ guard.writes, Backed encode live.db.1 guard.ownerId w) ∧
        (guard.writes.map AuditedWrite.stepId).Nodup ∧ ∀ w ∈ guard.writes, w.stepId ∉ dropped)
    (recorded : ∀ id ∈ dropped, id ∈ s.dropped ∨ ∃ x ∈ s.live.db.1.steps, x.id = id)
    (pending : ∀ guard, party = .guarding guard → ∀ w ∈ guard.writes, w.handed = false →
      s.Flies i w ∨ ∀ x ∈ s.live.db.1.steps, x.id ≠ w.stepId) :
    FleetMoved encode s
      { s.move i party with live := live, lock := lock, dropped := dropped } := by
  have hwhere : ∀ j, (s.move i party).parties j = if j = i then party else .idle := by
    intro j
    by_cases hj : j = i
    · simp [Fleet.move, hj]
    · simp [Fleet.move, hj, inv.alone hi hj]
  have hguard : ∀ j guard, (s.move i party).parties j = .guarding guard →
      j = i ∧ party = .guarding guard := by
    intro j guard h
    rw [hwhere j] at h
    by_cases hj : j = i
    · rw [if_pos hj] at h
      exact ⟨hj, h⟩
    · rw [if_neg hj] at h
      cases h
  have kept := change.kept inv.reach
  refine ⟨?_, change, ?_⟩
  · constructor
    · exact change.reach inv.reach
    · intro j hj
      have hj' : (s.move i party).parties j ≠ .idle := hj
      rw [hwhere j] at hj'
      by_cases hji : j = i
      · rw [if_pos hji] at hj'
        rw [hji]
        exact hlock hj'
      · rw [if_neg hji] at hj'
        exact absurd rfl hj'
    · exact fun j guard h => (writes guard (hguard j guard h).2).1
    · exact fun j guard h => (writes guard (hguard j guard h).2).2.1
    · intro id hid
      rcases recorded id hid with hold | hnew
      · exact kept.id (inv.recorded id hold)
      · exact kept.id hnew
    · intro id hid j guard h w hw heq
      exact (writes guard (hguard j guard h).2).2.2 w hw (heq ▸ hid)
  · rintro j w ⟨guard, h, hw⟩ hnot
    obtain ⟨rfl, hparty⟩ := hguard j guard h
    exact pending guard hparty w hw hnot

/-- A party that holds the lock drops it, or gets a guard under which it has not written. -/
theorem start (inv : FleetInv encode s) (hi : s.parties i = .locked) {live : LiveSystem}
    (change : LiveChange s.live live) (owner : Option LiveOwnershipRow) :
    FleetMoved encode s (Fleet.start { s with live := live } i owner) := by
  have hbusy : s.parties i ≠ .idle := by simp [hi]
  have hlock := inv.lock i hbusy
  cases owner with
  | some owner =>
    show FleetMoved encode s { s.move i (.guarding { ownerId := owner.id }) with
      live := live, lock := s.lock, dropped := s.dropped }
    exact inv.act hbusy change (fun _ => hlock) (fun guard h => by cases h; simp)
      (fun id hid => .inl hid) (fun guard h => by cases h; simp)
  | none =>
    have h : FleetMoved encode s { s.move i .idle with
        live := live, lock := none, dropped := s.dropped } :=
      inv.act hbusy change (fun h => absurd rfl h) (fun guard h => by cases h)
        (fun id hid => .inl hid) (fun guard h => by cases h)
    simpa [Fleet.start, Fleet.drop, Fleet.move, hi, hlock] using h

/-- A party that drops what it holds leaves nothing in flight. -/
theorem drop (inv : FleetInv encode s) (i : ℕ) {live : LiveSystem}
    (change : LiveChange s.live live) (hidle : s.parties i = .idle → live = s.live) :
    FleetMoved encode s { s.drop i with live := live } := by
  by_cases hi : s.parties i = .idle
  · have hsame : (fun j => if j = i then Party.idle else s.parties j) = s.parties := by
      funext j
      by_cases hj : j = i <;> simp [hj, hi]
    have hstay : FleetMoved encode s
        { s with lock := if s.lock = some i then none else s.lock } := by
      refine ⟨⟨inv.reach, fun j hj => ?_, inv.backed, inv.distinct, inv.recorded, inv.dropped⟩,
        .same, fun _ _ hw _ => .inl hw⟩
      have hlock := inv.lock j hj
      have hne : j ≠ i := by
        rintro rfl
        exact hj hi
      simp [hlock, hne]
    rw [hidle hi]
    simpa [Fleet.drop, Fleet.move, hi, hsame] using hstay
  · have hlock := inv.lock i hi
    have hrecorded : ∀ id ∈ (s.drop i).dropped,
        id ∈ s.dropped ∨ ∃ x ∈ s.live.db.1.steps, x.id = id := by
      intro id hid
      simp only [Fleet.drop] at hid
      cases hp : s.parties i with
      | idle => exact absurd hp hi
      | locked =>
        rw [hp] at hid
        exact .inl hid
      | guarding guard =>
        rw [hp] at hid
        rcases List.mem_append.mp hid with hhanded | hold
        · obtain ⟨w, hw, rfl⟩ := List.mem_map.mp hhanded
          obtain ⟨x, hx, hxid, _⟩ := (inv.backed i guard hp w (List.mem_of_mem_filter hw)).row
          exact .inr ⟨x, hx, hxid⟩
        · exact .inl hold
    have h : FleetMoved encode s { s.move i .idle with
        live := live, lock := none, dropped := (s.drop i).dropped } :=
      inv.act hi change (fun h => absurd rfl h) (fun guard h => by cases h) hrecorded
        (fun guard h => by cases h)
    simpa [Fleet.drop, Fleet.move, hlock] using h

end FleetInv

/-! ### Every step keeps it -/

theorem mem_hand {guard : HeldGuard} {stepId : ℕ} {w : AuditedWrite}
    (hw : w ∈ (guard.hand stepId).writes) : ∃ w₀ ∈ guard.writes, w.stepId = w₀.stepId ∧
      w.runId = w₀.runId ∧ w.tag = w₀.tag ∧ w.value = w₀.value := by
  obtain ⟨w₀, hw₀, rfl⟩ := List.mem_map.mp hw
  refine ⟨w₀, hw₀, ?_⟩
  by_cases hid : w₀.stepId = stepId <;> simp [hid]

/-- Only the write that is given away is not pending any more. -/
theorem pending_of_hand {guard : HeldGuard} {stepId : ℕ} {w : AuditedWrite}
    (hw : w ∈ (guard.hand stepId).writes) (hnot : w.handed = false) :
    w ∈ guard.writes ∧ w.stepId ≠ stepId := by
  obtain ⟨w₀, hw₀, rfl⟩ := List.mem_map.mp hw
  by_cases hid : w₀.stepId = stepId
  · simp [hid] at hnot
  · simp only [hid, if_false]
    exact ⟨hw₀, hid⟩

theorem hand_stepIds (guard : HeldGuard) (stepId : ℕ) :
    (guard.hand stepId).writes.map AuditedWrite.stepId = guard.writes.map AuditedWrite.stepId := by
  unfold HeldGuard.hand
  rw [List.map_map]
  refine List.map_congr_left fun w _ => ?_
  by_cases hid : w.stepId = stepId <;> simp [hid]

theorem mem_without {guard : HeldGuard} {stepId : ℕ} {w : AuditedWrite} :
    w ∈ (guard.without stepId).writes ↔ w ∈ guard.writes ∧ w.stepId ≠ stepId := by
  simp [HeldGuard.without]

theorem without_nodup {guard : HeldGuard} (stepId : ℕ)
    (h : (guard.writes.map AuditedWrite.stepId).Nodup) :
    ((guard.without stepId).writes.map AuditedWrite.stepId).Nodup :=
  (List.filter_sublist.map AuditedWrite.stepId).nodup h

theorem inFlight_iff {guard : HeldGuard} {stepId : ℕ} {handed : Bool} :
    guard.inFlight stepId handed = true ↔
      ∃ w ∈ guard.writes, w.stepId = stepId ∧ w.handed = handed := by
  simp [HeldGuard.inFlight]

namespace FleetInv

/-- While a guard's party goes on, its writes in flight have to stay in order. -/
theorem guarding (inv : FleetInv encode s) {guard guard' : HeldGuard}
    (hi : s.parties i = .guarding guard) {live : LiveSystem}
    (change : LiveChange s.live live) {dropped : List ℕ}
    (hbacked : ∀ w ∈ guard'.writes, Backed encode live.db.1 guard'.ownerId w)
    (hdistinct : (guard'.writes.map AuditedWrite.stepId).Nodup)
    (hfree : ∀ w ∈ guard'.writes, w.stepId ∉ dropped)
    (recorded : ∀ id ∈ dropped, id ∈ s.dropped ∨ ∃ x ∈ s.live.db.1.steps, x.id = id)
    (pending : ∀ w ∈ guard'.writes, w.handed = false →
      w ∈ guard.writes ∨ ∀ x ∈ s.live.db.1.steps, x.id ≠ w.stepId) :
    FleetMoved encode s
      { s.move i (.guarding guard') with live := live, dropped := dropped } := by
  have hbusy : s.parties i ≠ .idle := by simp [hi]
  refine inv.act hbusy change (fun _ => inv.lock i hbusy) ?_ recorded ?_
  · intro g hg
    cases hg
    exact ⟨hbacked, hdistinct, hfree⟩
  · intro g hg w hw hnot
    cases hg
    exact (pending w hw hnot).imp_left fun hold => ⟨guard, hi, hold⟩

theorem free (inv : FleetInv encode s) {guard : HeldGuard} (hi : s.parties i = .guarding guard) :
    ∀ w ∈ guard.writes, w.stepId ∉ s.dropped :=
  fun w hw hid => inv.dropped w.stepId hid i guard hi w hw rfl

/-- `AuditedDriver::write` records its intent. -/
theorem begun (inv : FleetInv encode s) {guard : HeldGuard} (hi : s.parties i = .guarding guard)
    {runId : Option ℕ} {tag : String} {value : TagWrite} {previousJson : Option String}
    {now : UtcTime} {refusals : List Bool} {row : LiveMutationStepRow}
    (hrow : answer (LiveMutationStepRow.begin
      (Fleet.intent encode guard runId tag value previousJson now)) s.live.db refusals =
        some row) :
    FleetMoved encode s { s.move i (.guarding { guard with
      writes := ⟨row.id, runId, tag, value, false⟩ :: guard.writes }) with
        live := s.live.statement (LiveMutationStepRow.begin
          (Fleet.intent encode guard runId tag value previousJson now)) refusals } := by
  obtain ⟨hnew, hback⟩ := backed_of_begin (reach_inv inv.reach).ownership hrow
  refine inv.guarding hi (.begun _ refusals) ?_ ?_ ?_
    (fun id hid => .inl hid) ?_
  · intro w hw
    rcases List.mem_cons.mp hw with rfl | hw
    · exact hback
    · exact (inv.backed i guard hi w hw).begun
  · rw [List.map_cons, List.nodup_cons]
    refine ⟨fun hmem => ?_, inv.distinct i guard hi⟩
    obtain ⟨w, hw, hid⟩ := List.mem_map.mp hmem
    obtain ⟨x, hx, hxid, _⟩ := (inv.backed i guard hi w hw).row
    exact hnew x hx (hxid.trans hid)
  · intro w hw hid
    rcases List.mem_cons.mp hw with rfl | hw
    · obtain ⟨x, hx, hxid⟩ := inv.recorded _ hid
      exact hnew x hx hxid
    · exact inv.free hi w hw hid
  · intro w hw _
    rcases List.mem_cons.mp hw with rfl | hw
    · exact .inr hnew
    · exact .inl hw

/-- It gives the write to the inner driver. -/
theorem handed (inv : FleetInv encode s) {guard : HeldGuard} (hi : s.parties i = .guarding guard)
    (stepId : ℕ) : FleetMoved encode s (s.move i (.guarding (guard.hand stepId))) := by
  refine inv.guarding hi .same ?_ ?_ ?_ (fun id hid => .inl hid)
    (fun w hw hnot => .inl (pending_of_hand hw hnot).1)
  · intro w hw
    obtain ⟨w₀, hw₀, hid, hrun, htag, hvalue⟩ := mem_hand hw
    obtain ⟨hrow, howner⟩ := inv.backed i guard hi w₀ hw₀
    constructor
    · rw [hid, hrun, htag, hvalue]
      exact hrow
    · rw [hrun]
      exact howner
  · rw [hand_stepIds]
    exact inv.distinct i guard hi
  · intro w hw
    obtain ⟨w₀, hw₀, hid, _⟩ := mem_hand hw
    rw [hid]
    exact inv.free hi w₀ hw₀

/-- It records how the inner driver answered. -/
theorem finished (inv : FleetInv encode s) {guard : HeldGuard} (hi : s.parties i = .guarding guard)
    (stepId : ℕ) (accepted : Bool) (now : UtcTime) (detail : String) (refusals : List Bool) :
    FleetMoved encode s { s.move i (.guarding (guard.without stepId)) with
      live := s.live.statement (finishWrite stepId accepted now detail) refusals } := by
  refine inv.guarding hi (.finished stepId accepted now detail refusals) ?_
    (without_nodup stepId (inv.distinct i guard hi))
    (fun w hw => inv.free hi w (mem_without.mp hw).1) (fun id hid => .inl hid)
    (fun w hw _ => .inl (mem_without.mp hw).1)
  intro w hw
  obtain ⟨hw, hne⟩ := mem_without.mp hw
  exact (inv.backed i guard hi w hw).finished hne

/-- A timeout or an interrupt drops the write. -/
theorem writeDropped (inv : FleetInv encode s) {guard : HeldGuard}
    (hi : s.parties i = .guarding guard) (stepId : ℕ) :
    FleetMoved encode s { s.move i (.guarding (guard.without stepId)) with
      dropped := if guard.inFlight stepId true then stepId :: s.dropped else s.dropped } := by
  refine inv.guarding hi .same
    (fun w hw => inv.backed i guard hi w (mem_without.mp hw).1)
    (without_nodup stepId (inv.distinct i guard hi)) ?_ ?_
    (fun w hw _ => .inl (mem_without.mp hw).1)
  · intro w hw hid
    obtain ⟨hw, hne⟩ := mem_without.mp hw
    by_cases hgiven : guard.inFlight stepId true = true
    · rw [if_pos hgiven] at hid
      rcases List.mem_cons.mp hid with hsame | hid
      · exact hne hsame
      · exact inv.free hi w hw hid
    · rw [if_neg hgiven] at hid
      exact inv.free hi w hw hid
  · intro id hid
    by_cases hgiven : guard.inFlight stepId true = true
    · rw [if_pos hgiven] at hid
      rcases List.mem_cons.mp hid with rfl | hid
      · obtain ⟨w, hw, rfl, _⟩ := inFlight_iff.mp hgiven
        obtain ⟨x, hx, hxid, _⟩ := (inv.backed i guard hi w hw).row
        exact .inr ⟨x, hx, hxid⟩
      · exact .inl hid
    · rw [if_neg hgiven] at hid
      exact .inl hid

/-- A guard's own steps keep the invariant. -/
theorem guardStep (inv : FleetInv encode s) {guard : HeldGuard} (hi : s.parties i = .guarding guard)
    (h : Fleet.guardStep encode s i guard a = some s') : FleetMoved encode s s' := by
  have hbusy : s.parties i ≠ .idle := by simp [hi]
  unfold Fleet.guardStep at h
  cases a with
  | heartbeatFails party =>
    cases h
    show FleetMoved encode s { s.move i (.guarding { guard with heartbeatFailed := true }) with
      live := s.live, dropped := s.dropped }
    refine inv.guarding hi .same (inv.backed i guard hi) (inv.distinct i guard hi) ?_
      (fun id hid => .inl hid) (fun w hw _ => .inl hw)
    exact fun w hw => inv.free hi w hw
  | setRestoreIntent party intentJson refusals =>
    have hpass : (LiveCall.setRestoreIntent guard.ownerId intentJson).Passes s.live := trivial
    dsimp only at h
    split at h
    · cases h
    · cases h
      refine inv.background (.call _ refusals hpass) ?_
      intro j g _ w _ hback
      refine hback.touching (ends_mono (setRestoreIntent_ends guard.ownerId intentJson _) ?_
        (fun _ _ h => h))
      rintro _ d' ⟨o, _, htouched⟩
      exact ⟨o, _, htouched⟩
  | complete party update refusals =>
    have hpass : (LiveCall.completeWithOwnership update).Passes s.live := trivial
    dsimp only at h
    split at h
    · rename_i hdone
      cases h
      refine inv.background (.call _ refusals hpass) ?_
      intro j g hg w hw
      by_cases hj : j = i
      · rw [hj, hi] at hg
        cases hg
        rw [hdone.1] at hw
        cases hw
      · rw [inv.alone hbusy hj] at hg
        cases hg
    · cases h
  | release party now refusals =>
    dsimp only at h
    split at h
    · rename_i hdone
      cases h
      exact inv.drop i (.call _ refusals hdone.2.2) (fun h => absurd h hbusy)
    · cases h
  | begin party runId tag value previousJson now refusals =>
    dsimp only at h
    split at h
    · cases h
    · split at h
      · rename_i row hrow
        cases h
        exact inv.begun hi hrow
      · cases h
        exact inv.background (.begun _ refusals)
          (fun j g _ w _ hback => hback.begun)
  | hand party stepId =>
    dsimp only at h
    split at h
    · cases h
      exact inv.handed hi stepId
    · cases h
  | finish party stepId accepted now detail refusals =>
    dsimp only at h
    split at h
    · cases h
      exact inv.finished hi stepId accepted now detail refusals
    · cases h
  | dropWrite party stepId =>
    cases h
    exact inv.writeDropped hi stepId
  | _ => cases h

/-- So do those of a party that holds nothing but the lock. -/
theorem lockedStep (inv : FleetInv encode s) (hi : s.parties i = .locked)
    (h : Fleet.lockedStep s i a = some s') : FleetMoved encode s s' := by
  unfold Fleet.lockedStep at h
  cases a with
  | claim party new refusals =>
    dsimp only at h
    split at h
    · rename_i hpass
      cases h
      exact inv.start hi (.call _ refusals hpass) _
    · cases h
  | takeOver party newOwner claimKey sourceOwnerId runId exportPath evidenceJson refusals =>
    have hpass : (LiveCall.startWithClaim newOwner claimKey sourceOwnerId runId exportPath
      evidenceJson).Passes s.live := trivial
    cases h
    exact inv.start hi (.call _ refusals hpass) _
  | sweep party call refusals =>
    dsimp only at h
    split at h
    · rename_i hpass
      cases h
      refine inv.background (.call _ refusals hpass.2) ?_
      intro j guard hguard
      by_cases hj : j = i
      · rw [hj, hi] at hguard
        cases hguard
      · rw [inv.alone (by simp [hi]) hj] at hguard
        cases hguard
    · cases h
  | _ => cases h

/-- And what happens without a party. -/
theorem backgroundStep (inv : FleetInv encode s) (h : s.backgroundStep a = some s') :
    FleetMoved encode s s' := by
  unfold Fleet.backgroundStep at h
  cases a with
  | heartbeat ownerId now refusals =>
    have hpass : (LiveCall.heartbeat ownerId now).Passes s.live := trivial
    cases h
    refine inv.background (.call _ refusals hpass) ?_
    intro j guard _ w _ hback
    refine hback.touching (ends_mono (heartbeat_ends ownerId now _) ?_ (fun _ _ h => h))
    rintro _ d' ⟨o, _, htouched⟩
    exact ⟨o, _, htouched⟩
  | lateBegin new refusals =>
    cases h
    exact inv.background (.begun _ refusals)
      (fun j g _ w _ hback => hback.begun)
  | lateFinish stepId accepted now detail refusals =>
    dsimp only at h
    split at h
    · rename_i hdropped
      cases h
      refine inv.background (.finished stepId accepted now detail refusals) ?_
      intro j guard hguard w hw hback
      exact hback.finished (inv.dropped stepId hdropped j guard hguard w hw)
    · cases h
  | startRun new refusals =>
    cases h
    have honly := @runs_only s.live refusals new
    exact inv.background (.started new refusals)
      (fun j g _ w _ hback => hback.runsOnly honly)
  | updateRun runId update refusals =>
    cases h
    have honly := @run_updated_only s.live.db refusals runId update
    exact inv.background (.updated runId update refusals)
      (fun j g _ w _ hback => hback.runsOnly honly)
  | _ => cases h

/-- A party that holds the lock alone was given it while it was free. -/
theorem locks (inv : FleetInv encode s) (hfree : s.lock = none) (i : ℕ) :
    FleetMoved encode s { s.move i .locked with lock := some i } := by
  have hidle : ∀ j, s.parties j = .idle := by
    intro j
    by_contra hj
    rw [inv.lock j hj] at hfree
    cases hfree
  have hnone : ∀ j guard, (s.move i .locked).parties j ≠ .guarding guard := by
    intro j guard
    by_cases hj : j = i <;> simp [Fleet.move, hj, hidle]
  refine ⟨?_, .same, ?_⟩
  · constructor
    · exact inv.reach
    · intro j hj
      by_cases hji : j = i
      · rw [hji]
      · exact absurd (by simp [Fleet.move, hji, hidle]) hj
    · exact fun j guard h => absurd h (hnone j guard)
    · exact fun j guard h => absurd h (hnone j guard)
    · exact inv.recorded
    · exact fun id _ j guard h => absurd h (hnone j guard)
  · rintro j w ⟨guard, h, _⟩
    exact absurd h (hnone j guard)

/-- **Every step keeps the invariant.** -/
theorem step (inv : FleetInv encode s) (h : Fleet.step encode s a = some s') :
    FleetMoved encode s s' := by
  unfold Fleet.step at h
  split at h
  · exact inv.backgroundStep h
  · rename_i i hactor
    split at h
    · cases h
      exact inv.drop i .same (fun _ => rfl)
    · split at h
      · rename_i hfree
        cases h
        exact inv.locks hfree i
      · cases h
        exact inv.stay
    · rename_i hparty
      exact inv.lockedStep hparty h
    · rename_i guard hparty
      exact inv.guardStep hparty h
    · cases h

end FleetInv

/-! ### Every run -/

theorem fleetInv_run {actions : List FleetAction} (h : Run (FleetStep encode) .initial actions s) :
    FleetInv encode s := h.invariant fleetInv_initial fun _ _ _ inv hstep => (inv.step hstep).inv

/-- Every step stays as it is once it has left its intent. -/
theorem stepsKept_run {actions : List FleetAction} (inv : FleetInv encode s)
    (h : Run (FleetStep encode) s actions s') : StepsKept s.live.db.1 s'.live.db.1 := by
  induction h with
  | nil s => exact stepsKept_of_eq rfl
  | cons hstep _ ih =>
    have hmoved := inv.step hstep
    exact (hmoved.change.kept inv.reach).trans (ih hmoved.inv)

/-- A step is on record, and no write waits to be given away under it. -/
def Fleet.Spent (s : Fleet) (stepId : ℕ) : Prop :=
  (∃ x ∈ s.live.db.1.steps, x.id = stepId) ∧
    ∀ i w, s.Flies i w → w.stepId = stepId → w.handed = true

theorem FleetMoved.spent (inv : FleetInv encode s) (h : FleetMoved encode s s') {stepId : ℕ}
    (hspent : s.Spent stepId) : s'.Spent stepId := by
  obtain ⟨hrow, hflies⟩ := hspent
  refine ⟨(h.change.kept inv.reach).id hrow, ?_⟩
  intro i w hw hid
  by_contra hnot
  rcases h.pending i w hw (Bool.eq_false_of_not_eq_true hnot) with hold | hnew
  · exact hnot (hflies i w hold hid)
  · obtain ⟨x, hx, hxid⟩ := hrow
    exact hnew x hx (hxid.trans hid.symm)

/-- What is handed over is in flight, and not yet given away. -/
theorem hand_step {stepId : ℕ} (h : FleetStep encode s (.hand i stepId) s') :
    ∃ guard, s.parties i = .guarding guard ∧ s' = s.move i (.guarding (guard.hand stepId)) ∧
      ∃ w ∈ guard.writes, w.stepId = stepId ∧ w.handed = false := by
  unfold FleetStep stepOf Fleet.step at h
  simp only [Fleet.actor] at h
  cases hi : s.parties i with
  | idle =>
    rw [hi] at h
    cases h
  | locked =>
    rw [hi] at h
    cases h
  | guarding guard =>
    rw [hi] at h
    simp only [Fleet.guardStep] at h
    split at h
    · rename_i hflight
      cases h
      exact ⟨guard, rfl, rfl, inFlight_iff.mp hflight⟩
    · cases h

/-- A write that was given away is not given away again. -/
theorem spent_of_hand (inv : FleetInv encode s) {stepId : ℕ}
    (h : FleetStep encode s (.hand i stepId) s') : s'.Spent stepId := by
  have hmoved := inv.step h
  obtain ⟨guard, hi, rfl, w, hw, hid, _⟩ := hand_step h
  obtain ⟨x, hx, hxid, _⟩ := (inv.backed i guard hi w hw).row
  refine ⟨⟨x, hx, hxid.trans hid⟩, ?_⟩
  rintro j w' ⟨guard', hj, hw'⟩ hid'
  by_contra hnot
  by_cases hji : j = i
  · simp only [Fleet.move, hji, if_true, Party.guarding.injEq] at hj
    rw [← hj] at hw'
    exact (pending_of_hand hw' (Bool.eq_false_of_not_eq_true hnot)).2 hid'
  · simp only [Fleet.move, hji, if_false] at hj
    rw [inv.alone (by simp [hi]) hji] at hj
    cases hj

/-- At most one active owner goes by a claim key. -/
def OneActive (t : Tables) : Prop :=
  ∀ o ∈ t.owners, ∀ o' ∈ t.owners, o.state = .active → o'.state = .active →
    o.claimKey = o'.claimKey → o = o'

theorem oneActive_of_inv {t : Tables} (inv : OwnershipInv t) (keyed : Keyed t) : OneActive t := by
  intro o ho o' ho' hactive hactive' hkey
  obtain ⟨c, hc, hco⟩ := inv.activeClaim o ho hactive
  obtain ⟨c', hc', hco'⟩ := inv.activeClaim o' ho' hactive'
  have hsame : c = c' := by
    apply keyed.claim c hc c' hc'
    rw [inv.claimKey_eq keyed hc ho hco, inv.claimKey_eq keyed hc' ho' hco', hkey]
  exact keyed.owner o ho o' ho' (by rw [← hco, ← hco', hsame])

end Invariant

/-- **Write authority.**  Over every run of the parties: no two active owners go by one claim key;
a write that is handed to the inner driver has its intent on record under a step that no write
before it had, for an owner that is active and has its claim; and a step that has left its intent
is never changed. -/
theorem write_authority {encode : String → TagWrite → String} {actions : List FleetAction}
    {s : Fleet} (h : Run (FleetStep encode) .initial actions s) :
    OneActive s.live.db.1 ∧
      (∀ before i stepId rest, actions = before ++ .hand i stepId :: rest →
        (∃ s₁ guard w, Run (FleetStep encode) .initial before s₁ ∧
          s₁.parties i = .guarding guard ∧ w ∈ guard.writes ∧ w.stepId = stepId ∧
          Backed encode s₁.live.db.1 guard.ownerId w) ∧
        ∀ j, .hand j stepId ∉ before) ∧
      ∀ later s', Run (FleetStep encode) s later s' → StepsKept s.live.db.1 s'.live.db.1 := by
  have inv := fleetInv_run h
  refine ⟨?_, ?_, fun later s' hlater => stepsKept_run inv hlater⟩
  · exact oneActive_of_inv (reach_inv inv.reach).ownership s.live.db.2.keyed
  · rintro before i stepId rest rfl
    obtain ⟨s₁, s₂, hbefore, hhand, _⟩ := h.at_action
    have inv₁ := fleetInv_run hbefore
    obtain ⟨guard, hi, _, w, hw, hid, hnot⟩ := hand_step hhand
    refine ⟨⟨s₁, guard, w, hbefore, hi, hw, hid, inv₁.backed i guard hi w hw⟩, ?_⟩
    intro j hmem
    obtain ⟨first, second, rfl⟩ := List.append_of_mem hmem
    obtain ⟨s₃, s₄, hfirst, hearlier, hsecond⟩ := hbefore.at_action
    have inv₃ := fleetInv_run hfirst
    have hspent : FleetInv encode s₁ ∧ s₁.Spent stepId := by
      refine hsecond.invariant (P := fun t => FleetInv encode t ∧ t.Spent stepId)
        ⟨(inv₃.step hearlier).inv, spent_of_hand inv₃ hearlier⟩ ?_
      intro t a t' ht hstep
      have hmoved := ht.1.step hstep
      exact ⟨hmoved.inv, hmoved.spent ht.1 ht.2⟩
    have hgiven := hspent.2.2 i w ⟨guard, hi, hw⟩ hid
    rw [hnot] at hgiven
    cases hgiven

/-- A tune writes its MV, and is dropped in the midst of its mode write; the sweep then retires it
and a late statement still arrives. -/
def droppedTune : List FleetAction :=
  [.startRun flowRun [], .acquireLock 0, .claim 0 (flowOwner .tune) [], .acquireLock 1,
    .begin 0 (some 1) "FC1.MV" (.float 50) none 0 [], .hand 0 1, .finish 0 1 true 1 "accepted" [],
    .begin 0 (some 1) "FC1.MODE" (.raw "MAN") none 2 [], .hand 0 2, .drop 0, .acquireLock 1,
    .sweep 1 (.markOrphaned ⟨1, 0, flowClaimKey, 60, "{}", true, "died"⟩) [],
    .lateFinish 2 true 61 "accepted" []]

theorem droppedTune_runs :
    (exec (Fleet.step fun tag _ => tag) .initial droppedTune).isSome = true := by
  decide +kernel

/-- The mode write had its intent, for the tune that was active. -/
theorem write_authority_droppedTune :
    OneActive ((exec (Fleet.step fun tag _ => tag) .initial droppedTune).get
        droppedTune_runs).live.db.1 ∧
      ∃ s₁ guard w, Run (FleetStep fun tag _ => tag) .initial (droppedTune.take 8) s₁ ∧
        s₁.parties 0 = .guarding guard ∧ w ∈ guard.writes ∧ w.stepId = 2 ∧
        Backed (fun tag _ => tag) s₁.live.db.1 guard.ownerId w :=
  have h := write_authority (run_of_exec (Option.some_get droppedTune_runs).symm)
  ⟨h.1, (h.2.1 (droppedTune.take 8) 0 2 (droppedTune.drop 9) rfl).1⟩

end Bhtune
