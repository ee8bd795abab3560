import Bhtune.Runtime.StartupSweep

/-!
# What a sweep comes to

A sweep ends one dead owner after the other.  Wherever it fails, it has ended the first of them and
no one else; when it answers, it has ended all of them.

* `SweepKeeps` — what it leaves alone, one owner's end after the other;
* `SweepRun` — what it does for one owner after the other;
* `sweepOwners_ends` — where it fails, it has done so for the first of them;
* `sweep_spares` — whatever is refused, it touches nothing but dead owners and their runs;
* `sweep_settles` — when it answers, nobody dead is left, and what it says may be restored is
  accepted by `restore-loop`.
-/

namespace Bhtune

open Table Transaction

section Sweep

variable (st : Startup)

/-! ### What one owner's end leaves alone -/

section Steps

variable {st} {o x : LiveOwnershipRow} {d d' : Db}

theorem mem_iff_of_replaced {ρ κ : Type} {key : ρ → κ} {r r' x : ρ} {rows rows' : List ρ}
    (h : Replaced key r r' rows rows') (hne : key x ≠ key r) : x ∈ rows' ↔ x ∈ rows := by
  refine ⟨fun hx => ?_, fun hx => h.mem_other hx hne⟩
  rcases (h.mem x).mp hx with rfl | ⟨hx, _⟩
  · exact absurd h.same hne
  · exact hx

theorem SweepMove.others (h : SweepMove st o d d') (hx : x ∈ d.1.owners) (hne : x.id ≠ o.id) :
    x ∈ d'.1.owners := by
  cases h with
  | orphaned run o' _ _ hmove _ => exact hmove.owners.mem_other hx hne
  | retired o' _ _ hmove => exact hmove.owners.mem_other hx hne
  | interrupted s o' a a' _ hmove =>
    rw [hmove.concluded.owners]
    by_cases hs : x.id = s.id
    · exact .inr (.inl (d.2.keyed.owner x hx s hmove.concluded.source hs))
    · exact .inr (.inr ⟨hx, hne, hs⟩)

/-- No owner becomes active, and the one that ends is active no more. -/
theorem SweepMove.active (h : SweepMove st o d d') (hx : x ∈ d'.1.owners)
    (hactive : x.state = .active) : x ∈ d.1.owners ∧ x.id ≠ o.id := by
  cases h with
  | orphaned run o' _ _ hmove _ =>
    rcases (hmove.owners.mem x).mp hx with rfl | hx
    · exact absurd (hactive.symm.trans (not_active_of_recoverable hmove.recoverable).1) nofun
    · exact hx
  | retired o' _ _ hmove =>
    rcases (hmove.owners.mem x).mp hx with rfl | hx
    · exact absurd hactive hmove.ended
    · exact hx
  | interrupted s o' a a' _ hmove =>
    rcases (hmove.concluded.owners x).mp hx with rfl | rfl | ⟨hx, hne, _⟩
    · exact absurd (hactive.symm.trans hmove.concluded.released) nofun
    · exact absurd (hactive.symm.trans
        (not_active_of_recoverable hmove.concluded.recoverable).1) nofun
    · exact ⟨hx, hne⟩

theorem SweepMove.claims (h : SweepMove st o d d') {c : LiveOperationClaim}
    (hc : c ∈ d.1.claims) (hne : c.ownerId ≠ o.id) : c ∈ d'.1.claims := by
  have hother : ∀ c' ∈ d.1.claims, c'.ownerId = o.id → c.claimKey ≠ c'.claimKey := by
    intro c' hc' hco heq
    rw [d.2.keyed.claim c hc c' hc' heq] at hne
    exact hne hco
  cases h with
  | orphaned run o' _ _ hmove _ => exact hmove.claims ▸ hc
  | retired o' _ _ hmove =>
    obtain ⟨c', hco, hclaims⟩ := hmove.claims
    exact hclaims.mem_other hc (hother c' hclaims.was hco)
  | interrupted s o' a a' _ hmove =>
    obtain ⟨c', _, hco, _, hclaims⟩ := hmove.claims
    exact hclaims.mem_other hc (hother c' hclaims.was hco)

/-- No claim key is new. -/
theorem SweepMove.claimKeys (h : SweepMove st o d d') {c : LiveOperationClaim}
    (hc : c ∈ d'.1.claims) : ∃ c₀ ∈ d.1.claims, c₀.claimKey = c.claimKey := by
  cases h with
  | orphaned run o' _ _ hmove _ => exact ⟨c, hmove.claims ▸ hc, rfl⟩
  | retired o' _ _ hmove =>
    obtain ⟨_, _, hclaims⟩ := hmove.claims
    exact ⟨c, ((hclaims.mem c).mp hc).1, rfl⟩
  | interrupted s o' a a' _ hmove =>
    obtain ⟨c₀, _, _, _, hclaims⟩ := hmove.claims
    rcases (hclaims.mem c).mp hc with rfl | ⟨hc, _⟩
    · exact ⟨c₀, hclaims.was, hclaims.same.symm⟩
    · exact ⟨c, hc, rfl⟩

theorem SweepMove.attempts (h : SweepMove st o d d') {a : TuneRecoveryAttemptRow}
    (ha : a ∈ d.1.attempts) (hne : a.recoveryOwnerId ≠ o.id) : a ∈ d'.1.attempts := by
  cases h with
  | orphaned run o' _ _ hmove _ => exact hmove.attempts ▸ ha
  | retired o' _ _ hmove => exact hmove.attempts ▸ ha
  | interrupted s o' a₀ a' _ hmove =>
    refine hmove.concluded.attempts.mem_other ha fun heq => ?_
    rw [d.2.keyed.attempt a ha a₀ hmove.concluded.attempts.was heq] at hne
    exact hne hmove.concluded.attemptOwner

theorem SweepMove.steps (h : SweepMove st o d d') : d'.1.steps = d.1.steps := by
  cases h with
  | orphaned run o' _ _ hmove _ => exact hmove.steps
  | retired o' _ _ hmove => exact hmove.steps
  | interrupted s o' a a' _ hmove => exact hmove.concluded.steps

/-- A run stays as it is unless it was running, or under recovery by the owner that ends. -/
theorem SweepMove.runs (h : SweepMove st o d d') (id : ℕ)
    (hended : ∀ r ∈ d.1.runs, r.id = id → r.outcome ≠ .running)
    (hother : ∀ a ∈ d.1.attempts, a.recoveryOwnerId = o.id → a.status = .running → a.runId ≠ id)
    {r : TuneRunRow} (hr : r.id = id) : r ∈ d'.1.runs ↔ r ∈ d.1.runs := by
  cases h with
  | orphaned run o' _ _ hmove _ =>
    obtain ⟨r₀, _, _, hrunning, _, _, _, hruns⟩ := hmove.runs
    refine mem_iff_of_replaced hruns fun heq => ?_
    exact hended r₀ hruns.was (heq.symm.trans hr) hrunning
  | retired o' _ _ hmove =>
    rcases hmove.runs with hruns | ⟨r₀, _, hfailed, hruns⟩
    · rw [hruns]
    · refine mem_iff_of_replaced hruns fun heq => ?_
      exact hended r₀ hruns.was (heq.symm.trans hr) hfailed.wasRunning
  | interrupted s o' a a' _ hmove =>
    obtain ⟨r₀, _, hid, _, _, _, _, hruns⟩ := hmove.concluded.runs
    refine mem_iff_of_replaced hruns fun heq => ?_
    exact hother a hmove.concluded.attempts.was hmove.concluded.attemptOwner
      hmove.concluded.wasRunning (hid.symm.trans (heq.symm.trans hr))

end Steps

/-! ### What the sweep leaves alone -/

/-- What a sweep of the owners `cs` leaves alone, and that it goes by the ownership calls. -/
structure SweepSpares (cs : List LiveOwnershipRow) (d d' : Db) : Prop where
  reach : ∀ unowned, Reach ⟨d, unowned⟩ → Reach ⟨d', unowned⟩
  owners : ∀ x ∈ d.1.owners, (∀ o ∈ cs, x.id ≠ o.id) → x ∈ d'.1.owners
  active : ∀ x ∈ d'.1.owners, x.state = .active → x ∈ d.1.owners
  claims : ∀ c ∈ d.1.claims, (∀ o ∈ cs, c.ownerId ≠ o.id) → c ∈ d'.1.claims
  claimKeys : ∀ c ∈ d'.1.claims, ∃ c₀ ∈ d.1.claims, c₀.claimKey = c.claimKey
  attempts : ∀ a ∈ d.1.attempts, (∀ o ∈ cs, a.recoveryOwnerId ≠ o.id) → a ∈ d'.1.attempts
  steps : d'.1.steps = d.1.steps
  runs : ∀ r, (∀ o ∈ cs, o.runId ≠ some r.id) → (r ∈ d'.1.runs ↔ r ∈ d.1.runs)
  running : ∀ r ∈ d'.1.runs, r.outcome = .running → r ∈ d.1.runs
  exported : ∀ x ∈ d.1.owners, x ∈ d'.1.owners ∨ ∃ path, st.Exported d.1 x path

/-- What the rest of a sweep relies on. -/
structure SweepKeeps (cs : List LiveOwnershipRow) (d d' : Db) : Prop where
  spares : SweepSpares st cs d d'
  sweepable : ∀ x, Sweepable x d → (∀ o ∈ cs, x.id ≠ o.id) → Sweepable x d'
  rested : ∀ r ∈ d.1.runs, r.outcome ≠ .running → r.recoveryState ≠ some .running → r ∈ d'.1.runs
  recovering : ∀ x, Sweepable x d → x.operationKind = .recovery → (∀ o ∈ cs, x.id ≠ o.id) →
    ∀ r, x.runId = some r.id → (r ∈ d'.1.runs ↔ r ∈ d.1.runs)

section Spares

variable {st} {o : LiveOwnershipRow} {cs cs' : List LiveOwnershipRow} {d d' d'' : Db}
variable {report report' : StartupOrphanSweepReport}

theorem Startup.Exported.of_steps {path : String} (h : st.Exported d'.1 o path)
    (hsteps : d'.1.steps = d.1.steps) : st.Exported d.1 o path := by
  obtain ⟨e, hwrite, hid, hrun, hmem, hall⟩ := h
  exact ⟨e, hwrite, hid, hrun, hmem, hsteps ▸ hall⟩

theorem SweepStep.spares (h : SweepStep st o report d report' d') (ho : Sweepable o d) :
    SweepSpares st [o] d d' where
  reach := fun unowned hreach => hreach.step (h.call.step 0 unowned).step
  owners := fun x hx hne => h.move.others hx (hne o (List.mem_singleton_self o))
  active := fun x hx hactive => (h.move.active hx hactive).1
  claims := fun c hc hne => h.move.claims hc (hne o (List.mem_singleton_self o))
  claimKeys := fun c hc => h.move.claimKeys hc
  attempts := fun a ha hne => h.move.attempts ha (hne o (List.mem_singleton_self o))
  steps := h.move.steps
  runs := fun r hne => h.run.others r (hne o (List.mem_singleton_self o))
  running := by
    intro r hr hrunning
    by_cases hrun : o.runId = some r.id
    · exact absurd hrunning (h.run.closed r hr hrun)
    · exact (h.run.others r hrun).mp hr
  exported := by
    intro x hx
    by_cases hne : x.id = o.id
    · obtain ⟨path, hexported, _⟩ := h.exported
      rw [d.2.keyed.owner x hx o ho.present hne]
      exact .inr ⟨path, hexported⟩
    · exact .inl (h.move.others hx hne)

/-- The attempt of an active recovery owner runs, on a run that does not. -/
theorem Sweepable.recovery {x : LiveOwnershipRow} (h : Sweepable x d)
    (hkind : x.operationKind = .recovery) :
    ∃ a ∈ d.1.attempts, a.recoveryOwnerId = x.id ∧ a.status = .running ∧
      x.runId = some a.runId ∧
      ∃ r ∈ d.1.runs, r.id = a.runId ∧ r.recoveryState = some .running ∧ r.outcome ≠ .running := by
  obtain ⟨a, ha, hax, hrunning⟩ := h.ownership.recoveryOwner x h.present h.active hkind
  obtain ⟨⟨r, hr, hid, hstate⟩, _, _, y, hy, _, _, hyid, _, _, hyrun, _⟩ :=
    h.ownership.attempt a ha hrunning
  rw [d.2.keyed.owner y hy x h.present (hyid.trans hax)] at hyrun
  exact ⟨a, ha, hax, hrunning, hyrun, r, hr, hid, hstate,
    h.ownership.unresolvedEnded r hr (.inr hstate)⟩

theorem SweepStep.keeps (h : SweepStep st o report d report' d') (ho : Sweepable o d) :
    SweepKeeps st [o] d d' where
  spares := h.spares ho
  sweepable := by
    intro x hx hne
    have hinv : SystemInv ⟨d, []⟩ := ⟨ho.ownership, fun id hid => by cases hid⟩
    have hstep : Step ⟨d, []⟩ ⟨d', []⟩ := (h.call.step 0 []).step
    exact ⟨(hinv.step hstep).ownership, StepsOfRun.step hinv ho.steps hstep,
      h.move.others hx.present (hne o (List.mem_singleton_self o)), hx.active⟩
  rested := by
    intro r hr hended hrested
    refine (h.move.runs r.id ?_ ?_ rfl).mpr hr
    · intro r' hr' hid
      rw [d.2.keyed.run r' hr' r hr hid]
      exact hended
    · intro a ha _ hrunning hid
      obtain ⟨⟨r', hr', hrid, hstate⟩, _⟩ := ho.ownership.attempt a ha hrunning
      rw [d.2.keyed.run r' hr' r hr (hrid.trans hid)] at hstate
      exact hrested hstate
  recovering := by
    intro x hx hkind hne r hr
    obtain ⟨a, ha, hax, hrunning, hxrun, r', hr', hid, _, hended⟩ := hx.recovery hkind
    have hra : r.id = a.runId := Option.some.inj (hr.symm.trans hxrun)
    refine h.move.runs a.runId ?_ ?_ hra
    · intro r'' hr'' hid'
      rw [d.2.keyed.run r'' hr'' r' hr' (hid'.trans hid.symm)]
      exact hended
    · intro a' ha' hao hrunning' hid'
      refine hne o (List.mem_singleton_self o) ?_
      rw [← hax, ← hao, ho.ownership.oneAttempt d.2.keyed ha ha' hrunning hrunning' hid'.symm]

theorem SweepKeeps.nil (d : Db) : SweepKeeps st [] d d where
  spares := {
    reach := fun _ h => h
    owners := fun _ h _ => h
    active := fun _ h _ => h
    claims := fun _ h _ => h
    claimKeys := fun c h => ⟨c, h, rfl⟩
    attempts := fun _ h _ => h
    steps := rfl
    runs := fun _ _ => Iff.rfl
    running := fun _ h _ => h
    exported := fun _ h => .inl h }
  sweepable := fun _ h _ => h
  rested := fun _ h _ _ => h
  recovering := fun _ _ _ _ _ _ => Iff.rfl

theorem SweepSpares.cons (h : SweepSpares st [o] d d') (h' : SweepSpares st cs d' d'') :
    SweepSpares st (o :: cs) d d'' where
  reach := fun unowned hreach => h'.reach unowned (h.reach unowned hreach)
  owners := by
    intro x hx hne
    obtain ⟨ho, hcs⟩ := List.forall_mem_cons.mp hne
    exact h'.owners x (h.owners x hx (List.forall_mem_singleton.mpr ho)) hcs
  active := fun x hx hactive => h.active x (h'.active x hx hactive) hactive
  claims := by
    intro c hc hne
    obtain ⟨ho, hcs⟩ := List.forall_mem_cons.mp hne
    exact h'.claims c (h.claims c hc (List.forall_mem_singleton.mpr ho)) hcs
  claimKeys := by
    intro c hc
    obtain ⟨c', hc', hkey'⟩ := h'.claimKeys c hc
    obtain ⟨c₀, hc₀, hkey⟩ := h.claimKeys c' hc'
    exact ⟨c₀, hc₀, hkey.trans hkey'⟩
  attempts := by
    intro a ha hne
    obtain ⟨ho, hcs⟩ := List.forall_mem_cons.mp hne
    exact h'.attempts a (h.attempts a ha (List.forall_mem_singleton.mpr ho)) hcs
  steps := h'.steps.trans h.steps
  runs := by
    intro r hne
    obtain ⟨ho, hcs⟩ := List.forall_mem_cons.mp hne
    exact (h'.runs r hcs).trans (h.runs r (List.forall_mem_singleton.mpr ho))
  running := fun r hr hrunning => h.running r (h'.running r hr hrunning) hrunning
  exported := by
    intro x hx
    rcases h.exported x hx with hx | hexported
    · rcases h'.exported x hx with hx | ⟨path, hexported⟩
      · exact .inl hx
      · exact .inr ⟨path, hexported.of_steps h.steps⟩
    · exact .inr hexported

theorem SweepKeeps.cons (h : SweepKeeps st [o] d d') (h' : SweepKeeps st cs d' d'') :
    SweepKeeps st (o :: cs) d d'' where
  spares := h.spares.cons h'.spares
  sweepable := by
    intro x hx hne
    obtain ⟨ho, hcs⟩ := List.forall_mem_cons.mp hne
    exact h'.sweepable x (h.sweepable x hx (List.forall_mem_singleton.mpr ho)) hcs
  rested := by
    intro r hr hended hrested
    exact h'.rested r (h.rested r hr hended hrested) hended hrested
  recovering := by
    intro x hx hkind hne r hr
    obtain ⟨ho, hcs⟩ := List.forall_mem_cons.mp hne
    replace ho : ∀ o' ∈ [o], x.id ≠ o'.id := List.forall_mem_singleton.mpr ho
    exact (h'.recovering x (h.sweepable x hx ho) hkind hcs r hr).trans
      (h.recovering x hx hkind ho r hr)

/-- A sweep that ends early spares what the whole sweep spares. -/
theorem SweepSpares.mono (h : SweepSpares st cs d d') (hsub : ∀ o ∈ cs, o ∈ cs') :
    SweepSpares st cs' d d' where
  reach := h.reach
  owners := fun x hx hne => h.owners x hx fun o ho => hne o (hsub o ho)
  active := h.active
  claims := fun c hc hne => h.claims c hc fun o ho => hne o (hsub o ho)
  claimKeys := h.claimKeys
  attempts := fun a ha hne => h.attempts a ha fun o ho => hne o (hsub o ho)
  steps := h.steps
  runs := fun r hne => h.runs r fun o ho => hne o (hsub o ho)
  running := h.running
  exported := h.exported

end Spares

/-! ### The whole sweep -/

/-- The sweep of one owner after the other. -/
inductive SweepRun : List LiveOwnershipRow → StartupOrphanSweepReport → Db →
    StartupOrphanSweepReport → Db → Prop
  | nil (report : StartupOrphanSweepReport) (d : Db) : SweepRun [] report d report d
  | cons {o : LiveOwnershipRow} {cs : List LiveOwnershipRow}
      {report report₁ report' : StartupOrphanSweepReport} {d d₁ d' : Db}
      (hstep : SweepStep st o report d report₁ d₁) (hrest : SweepRun cs report₁ d₁ report' d') :
      SweepRun (o :: cs) report d report' d'

/-- Different owners that the sweep may end. -/
structure SweepList (cs : List LiveOwnershipRow) (d : Db) : Prop where
  each : ∀ o ∈ cs, Sweepable o d
  distinct : cs.Pairwise fun o x => x.id ≠ o.id

section Runs

variable {st} {o : LiveOwnershipRow} {cs : List LiveOwnershipRow} {d d' : Db}
variable {report report' : StartupOrphanSweepReport}

theorem SweepList.head (h : SweepList (o :: cs) d) : Sweepable o d :=
  h.each o List.mem_cons_self

theorem SweepList.tail (h : SweepList (o :: cs) d) (hkeeps : SweepKeeps st [o] d d') :
    SweepList cs d' := by
  obtain ⟨hne, hdistinct⟩ := List.pairwise_cons.mp h.distinct
  refine ⟨fun x hx => ?_, hdistinct⟩
  exact hkeeps.sweepable x (h.each x (List.mem_cons_of_mem o hx))
    (List.forall_mem_singleton.mpr (hne x hx))

theorem SweepRun.keeps (h : SweepRun st cs report d report' d') (hcs : SweepList cs d) :
    SweepKeeps st cs d d' := by
  induction h with
  | nil report d => exact .nil d
  | cons hstep _ ih =>
    have hkeeps := hstep.keeps hcs.head
    exact hkeeps.cons (ih (hcs.tail hkeeps))

/-- **The sweep ends one owner after the other**; where it fails, it has done so for the first of
them. -/
theorem sweepOwners_ends (hcs : SweepList cs d) (report : StartupOrphanSweepReport) :
    Ends (sweepOwners st report cs) (fun report' d' => SweepRun st cs report d report' d')
      (fun _ d' => ∃ done rest report', cs = done ++ rest ∧ SweepRun st done report d report' d')
      d := by
  induction cs generalizing report d with
  | nil => exact ends_pure (.nil report d)
  | cons o cs ih =>
    refine ends_seq (ends_mono (sweepOwner_sweeps hcs.head report) (fun _ _ h => h) ?_) ?_
    · rintro e d' rfl
      exact ⟨[], o :: cs, report, rfl, .nil report d'⟩
    · intro report₁ d₁ hstep
      refine ends_mono (ih (hcs.tail (hstep.keeps hcs.head)) report₁) ?_ ?_
      · exact fun _ _ hrest => .cons hstep hrest
      · rintro e d' ⟨done, rest, report', rfl, hrest⟩
        exact ⟨o :: done, rest, report', rfl, .cons hstep hrest⟩

/-- The owners that the sweep examines. -/
theorem mem_staleActiveOwners {t : Tables} {staleBefore : UtcTime} :
    o ∈ t.staleActiveOwners staleBefore ↔ o ∈ t.owners ∧ o.stale staleBefore t = true := by
  unfold Tables.staleActiveOwners
  rw [mem_orderedBy, List.mem_filter]

theorem sweepList_stale (inv : OwnershipInv d.1) (hsteps : StepsOfRun d.1)
    (staleBefore : UtcTime) : SweepList (d.1.staleActiveOwners staleBefore) d := by
  constructor
  · intro o ho
    obtain ⟨hmem, hstale⟩ := mem_staleActiveOwners.mp ho
    simp only [LiveOwnershipRow.stale, Bool.and_eq_true, decide_eq_true_eq] at hstale
    exact ⟨inv, hsteps, hmem, hstale.1.1⟩
  · have hkeys : ((d.1.staleActiveOwners staleBefore).map LiveOwnershipRow.id).Nodup := by
      refine (List.Perm.map _ (List.perm_insertionSort _ _)).nodup_iff.mpr ?_
      exact (List.filter_sublist.map LiveOwnershipRow.id).nodup d.2.owners.primaryKey
    exact (List.pairwise_map.mp hkeys).imp fun h heq => h heq.symm

end Runs

section Spares

variable {st}

variable (st) in
/-- However a sweep ends, it has gone through some of the dead owners. -/
theorem recoverStartupOrphans_sweeps {s : LiveSystem} (h : Reach s) (locked : Bool) :
    let swept := fun d' => ∃ done report report', (∀ o ∈ done, o ∈ s.db.1.staleActiveOwners
      st.staleBefore) ∧ SweepList done s.db ∧ SweepRun st done report s.db report' d'
    Ends (recoverStartupOrphans st locked) (fun _ => swept) (fun _ => swept) s.db := by
  intro swept
  have hcs := sweepList_stale (reach_inv h).ownership (reach_stepsOfRun h) st.staleBefore
  have hnone : swept s.db :=
    ⟨[], {}, {}, fun _ ho => absurd ho List.not_mem_nil,
      ⟨fun _ ho => absurd ho List.not_mem_nil, .nil⟩, .nil {} s.db⟩
  unfold recoverStartupOrphans
  cases locked with
  | false => exact ends_pure hnone
  | true =>
    rw [if_pos rfl]
    refine ends_viaQuery (fun _ => hnone) ?_
    refine ends_mono (sweepOwners_ends hcs _) ?_ ?_
    · exact fun report' d' hrun => ⟨_, _, report', fun o ho => ho, hcs, hrun⟩
    · rintro e d' ⟨done, rest, report', hsplit, hrun⟩
      refine ⟨done, _, report', fun o ho => ?_, ⟨fun o ho => ?_, ?_⟩, hrun⟩
      · exact hsplit ▸ List.mem_append_left rest ho
      · exact hcs.each o (hsplit ▸ List.mem_append_left rest ho)
      · exact (List.pairwise_append.mp (hsplit ▸ hcs.distinct)).1

/-- **Whatever is refused or cannot be written, a sweep touches nobody but dead owners.**  It goes
by the ownership calls alone; every other owner, its claim and its attempt stay as they are, and so
do all runs without a dead owner and all audited mutations; nobody becomes active and no run
starts again; and an owner that is not as it was is in an export, with all its mutations. -/
theorem sweep_spares {s : LiveSystem} (h : Reach s) (locked : Bool) :
    Ends (recoverStartupOrphans st locked)
      (fun _ d' => SweepSpares st (s.db.1.staleActiveOwners st.staleBefore) s.db d')
      (fun _ d' => SweepSpares st (s.db.1.staleActiveOwners st.staleBefore) s.db d') s.db := by
  refine ends_mono (recoverStartupOrphans_sweeps st h locked) ?_ ?_
  · rintro report d' ⟨done, _, _, hsub, hdone, hrun⟩
    exact (hrun.keeps hdone).spares.mono hsub
  · rintro e d' ⟨done, _, _, hsub, hdone, hrun⟩
    exact (hrun.keeps hdone).spares.mono hsub

end Spares

/-! ### A sweep that answers -/

/-- What a sweep of the owners `cs` has come to when it answers. -/
structure SweepSettles (cs : List LiveOwnershipRow) (d : Db) (report : StartupOrphanSweepReport)
    (d' : Db) : Prop where
  fits : ∀ o ∈ cs, st.Fits d.1 o
  ended : ∀ x ∈ d'.1.owners, x.state = .active → ∀ o ∈ cs, x.id ≠ o.id
  closed : ∀ o ∈ cs, ∀ r ∈ d'.1.runs, o.runId = some r.id → r.outcome ≠ .running
  tunes : ∀ o ∈ cs, ∀ run ∈ d.1.runs, o.runId = some run.id → st.Recoverable d.1 run o →
    (∀ x ∈ cs, x.runId = some run.id → x = o) → Accepted st.parse run o d'.1
  freed : ∀ o ∈ cs, o.operationKind ≠ .recovery →
    (∀ run ∈ d.1.runs, o.runId = some run.id → ¬st.Recoverable d.1 run o) →
    ∀ c ∈ d'.1.claims, c.claimKey ≠ o.claimKey
  recoveries : ∀ o ∈ cs, o.operationKind = .recovery → ∃ r ∈ d'.1.runs, o.runId = some r.id ∧
    r.recoveryState = some .incomplete ∧ ∃ s ∈ d'.1.owners, s.runId = some r.id ∧
      s.recoverable = true ∧ ∃ c ∈ d'.1.claims, c.ownerId = s.id
  exported : ∀ o ∈ cs, ∃ path ∈ report.exports, st.Exported d.1 o path
  counted : report.examined = cs.length ∧ report.skippedForLiveOwner = false ∧
    report.markedOrphaned + report.interruptedRecoveries + report.retiredUnrecoverable =
      cs.length ∧ report.exports.length = cs.length

section Settles

variable {st} {o : LiveOwnershipRow} {cs : List LiveOwnershipRow} {d d' : Db}
variable {report report' : StartupOrphanSweepReport}

variable (st) in
/-- The sweep up to an owner, of the owner, and after it. -/
structure SweptAt (o : LiveOwnershipRow) (cs : List LiveOwnershipRow) (d d' : Db)
    (report' : StartupOrphanSweepReport) (before after : List LiveOwnershipRow) (d₁ d₂ : Db)
    (report₁ report₂ : StartupOrphanSweepReport) : Prop where
  split : cs = before ++ o :: after
  keeps : SweepKeeps st before d d₁
  sweepable : Sweepable o d₁
  others : ∀ x ∈ before, o.id ≠ x.id
  step : SweepStep st o report₁ d₁ report₂ d₂
  list : SweepList after d₂
  rest : SweepRun st after report₂ d₂ report' d'

theorem SweepRun.at (h : SweepRun st cs report d report' d') (hcs : SweepList cs d)
    (ho : o ∈ cs) : ∃ before after d₁ d₂ report₁ report₂,
      SweptAt st o cs d d' report' before after d₁ d₂ report₁ report₂ := by
  induction h with
  | nil report d => cases ho
  | cons hstep hrest ih =>
    have hkeeps := hstep.keeps hcs.head
    have htail := hcs.tail hkeeps
    rename_i x cs report report₁ report' d d₁ d'
    by_cases hx : o = x
    · subst hx
      exact ⟨[], cs, d, d₁, report, report₁, rfl, .nil d, hcs.head,
        fun y hy => absurd hy List.not_mem_nil, hstep, htail, hrest⟩
    · have hmem : o ∈ cs := (List.mem_cons.mp ho).resolve_left hx
      obtain ⟨before, after, d₂, d₃, report₂, report₃, hat⟩ := ih htail hmem
      obtain ⟨hne, _⟩ := List.pairwise_cons.mp hcs.distinct
      exact ⟨x :: before, after, d₂, d₃, report₂, report₃, by rw [hat.split]; rfl,
        hkeeps.cons hat.keeps, hat.sweepable, List.forall_mem_cons.mpr ⟨hne o hmem, hat.others⟩,
        hat.step, hat.list, hat.rest⟩

/-- The report grows by one export and one count for each owner. -/
theorem SweepRun.counted (h : SweepRun st cs report d report' d') :
    report'.examined = report.examined ∧
    report'.skippedForLiveOwner = report.skippedForLiveOwner ∧
    report'.markedOrphaned + report'.interruptedRecoveries + report'.retiredUnrecoverable =
      report.markedOrphaned + report.interruptedRecoveries + report.retiredUnrecoverable +
        cs.length ∧
    ∃ paths, report'.exports = report.exports ++ paths ∧ paths.length = cs.length := by
  induction h with
  | nil report d => exact ⟨rfl, rfl, rfl, [], (List.append_nil _).symm, rfl⟩
  | cons hstep _ ih =>
    obtain ⟨hexamined, hskipped, hsum, paths, hpaths, hlength⟩ := ih
    obtain ⟨hexamined₁, hskipped₁, hsum₁⟩ := hstep.counted
    obtain ⟨path, _, hpath⟩ := hstep.exported
    refine ⟨hexamined.trans hexamined₁, hskipped.trans hskipped₁, ?_, path :: paths, ?_, ?_⟩
    · rw [List.length_cons]
      omega
    · rw [hpaths, hpath, List.append_assoc]
      rfl
    · rw [List.length_cons, List.length_cons, hlength]

/-- What a recovery needs of a dead tune outlasts the rest of the sweep. -/
theorem SweepRun.retryable (h : SweepRun st cs report d report' d') (hcs : SweepList cs d)
    {parse : String → Option Json} {run : TuneRunRow} (inv : OwnershipInv d.1)
    (hsteps : StepsOfRun d.1) (hretry : Retryable parse run o d.1) :
    OwnershipInv d'.1 ∧ Retryable parse run o d'.1 := by
  induction h with
  | nil report d => exact ⟨inv, hretry⟩
  | cons hstep hrest ih =>
    have hkeeps := hstep.keeps hcs.head
    rename_i x cs report report₁ report' d d₁ d'
    have hinv : SystemInv ⟨d, []⟩ := ⟨inv, fun id hid => by cases hid⟩
    have hrecovery : RecoveryStep run.id ⟨d, []⟩ ⟨d₁, []⟩ := hstep.call.step run.id []
    refine ih (hcs.tail hkeeps) (hinv.step hrecovery.step).ownership
      (StepsOfRun.step hinv hsteps hrecovery.step) ?_
    exact ⟨hretry.driver, hretry.tune, hretry.ownerRun, hretry.evidence,
      Kept.step hretry.kept hinv hretry.ownerRun hrecovery,
      MutationsKept.step hretry.mutations hretry.kept hinv hsteps hretry.ownerRun hrecovery⟩

theorem SweptAt.fits {before after : List LiveOwnershipRow} {d₁ d₂ : Db}
    {report₁ report₂ : StartupOrphanSweepReport}
    (h : SweptAt st o cs d d' report' before after d₁ d₂ report₁ report₂)
    (ho : Sweepable o d) : st.Fits d.1 o := by
  obtain ⟨hdb, hrecovery⟩ := h.step.fits
  refine ⟨hdb, fun hkind => ?_⟩
  obtain ⟨r, hr, hrun, hfailed, hresource⟩ := hrecovery hkind
  exact ⟨r, (h.keeps.recovering o ho hkind h.others r hrun).mp hr, hrun, hfailed, hresource⟩

/-- A dead tune is as recoverable when its turn comes as it was in the beginning. -/
theorem SweptAt.recoverable {before after : List LiveOwnershipRow} {d₁ d₂ : Db}
    {report₁ report₂ : StartupOrphanSweepReport}
    (h : SweptAt st o cs d d' report' before after d₁ d₂ report₁ report₂)
    {run : TuneRunRow} : st.Recoverable d₁.1 run o ↔ st.Recoverable d.1 run o := by
  unfold Startup.Recoverable Tables.stepsOfOwner
  rw [h.keeps.spares.steps]

/-- **A dead tune with all its evidence is accepted for recovery** after the sweep. -/
theorem SweepRun.accepted (h : SweepRun st cs report d report' d') (hcs : SweepList cs d)
    (ho : o ∈ cs) {run : TuneRunRow} (hmem : run ∈ d.1.runs) (hrun : o.runId = some run.id)
    (hrecoverable : st.Recoverable d.1 run o)
    (hsole : ∀ x ∈ cs, x.runId = some run.id → x = o) : Accepted st.parse run o d'.1 := by
  have hpresent := hcs.each o ho
  have hspares := (h.keeps hcs).spares
  obtain ⟨before, after, d₁, d₂, report₁, report₂, hat⟩ := h.at hcs ho
  have hmem₁ : run ∈ d₁.1.runs := by
    refine (hat.keeps.spares.runs run fun x hx hxrun => ?_).mpr hmem
    have hxcs : x ∈ cs := hat.split ▸ List.mem_append_left _ hx
    exact hat.others x hx (by rw [hsole x hxcs hxrun])
  have hretry : Retryable st.parse run o d₂.1 := by
    cases hat.step.move with
    | orphaned run' o' hrun' _ _ hretry =>
      rw [d₁.2.keyed.run run hmem₁ run' hrun'
        (Option.some.inj (hrun.symm.trans hretry.ownerRun))]
      exact hretry
    | retired o' _ hnot _ =>
      exact absurd (hat.recoverable.mpr hrecoverable) (hnot run hmem₁ hrun)
    | interrupted s o' a a' hkind _ => exact absurd (hkind.symm.trans hrecoverable.1.1) nofun
  have hkeeps := hat.step.keeps hat.sweepable
  have hstep : Step ⟨d₁, []⟩ ⟨d₂, []⟩ := (hat.step.call.step 0 []).step
  have hinv : SystemInv ⟨d₁, []⟩ := ⟨hat.sweepable.ownership, fun id hid => by cases hid⟩
  obtain ⟨inv, hretry'⟩ := hat.rest.retryable hat.list (hinv.step hstep).ownership
    (StepsOfRun.step hinv hat.sweepable.steps hstep) hretry
  refine accepted_of_kept d'.2 inv hretry'.driver hretry'.tune hretry'.ownerRun hretry'.evidence
    hretry'.kept hretry'.mutations ?_
  -- a running attempt would have an owner that was there before, when the run was still running
  intro a ha harun hrunning
  obtain ⟨_, _, _, w, hw, _, _, _, hactive, hkind, hwrun, _⟩ := inv.attempt a ha hrunning
  have hwas : Sweepable w d :=
    ⟨hpresent.ownership, hpresent.steps, hspares.active w hw hactive, hactive⟩
  obtain ⟨a', _, _, _, hwrun', r, hr, hrid, _, hended⟩ := hwas.recovery hkind
  have hsame : r = run := by
    refine d.2.keyed.run r hr run hmem ?_
    rw [hrid, ← harun]
    exact Option.some.inj (hwrun'.symm.trans hwrun)
  rw [hsame] at hended
  exact hended hrecoverable.1.2.2

end Settles

section Answered

variable {st} {o : LiveOwnershipRow} {cs : List LiveOwnershipRow} {d d' : Db}
variable {report' : StartupOrphanSweepReport}

/-- Nobody that the sweep ended is active. -/
theorem SweepRun.ended {report : StartupOrphanSweepReport}
    (h : SweepRun st cs report d report' d') (hcs : SweepList cs d) {x : LiveOwnershipRow}
    (hx : x ∈ d'.1.owners) (hactive : x.state = .active) : ∀ o ∈ cs, x.id ≠ o.id := by
  intro o ho
  obtain ⟨before, after, d₁, d₂, report₁, report₂, hat⟩ := h.at hcs ho
  have hx₂ := (hat.rest.keeps hat.list).spares.active x hx hactive
  exact (hat.step.move.active hx₂ hactive).2

/-- No claim is left on what a dead owner held, unless it waits for a recovery. -/
theorem SweepRun.freed {report : StartupOrphanSweepReport}
    (h : SweepRun st cs report d report' d') (hcs : SweepList cs d) (ho : o ∈ cs)
    (hkind : o.operationKind ≠ .recovery)
    (hnot : ∀ run ∈ d.1.runs, o.runId = some run.id → ¬st.Recoverable d.1 run o)
    {c : LiveOperationClaim} (hc : c ∈ d'.1.claims) : c.claimKey ≠ o.claimKey := by
  obtain ⟨before, after, d₁, d₂, report₁, report₂, hat⟩ := h.at hcs ho
  obtain ⟨c₂, hc₂, hkey⟩ := (hat.rest.keeps hat.list).spares.claimKeys c hc
  cases hat.step.move with
  | orphaned run o' hrun hrecoverable _ hretry =>
    have hmem := hat.keeps.spares.running run hrun hrecoverable.1.2.2
    exact absurd (hat.recoverable.mp hrecoverable) (hnot run hmem hretry.ownerRun)
  | retired o' _ _ hmove =>
    obtain ⟨c₀, hco, hclaims⟩ := hmove.claims
    rw [← hkey, ← hat.sweepable.ownership.claimKey_eq d₁.2.keyed hclaims.was
      hat.sweepable.present hco]
    exact ((hclaims.mem c₂).mp hc₂).2
  | interrupted s o' a a' hrecovery _ => exact absurd hrecovery hkind

/-- **An interrupted recovery can be tried again**: its run waits, with an orphan that has the
claim. -/
theorem SweepRun.recoveries {report : StartupOrphanSweepReport}
    (h : SweepRun st cs report d report' d') (hcs : SweepList cs d) (inv : OwnershipInv d'.1)
    (ho : o ∈ cs) (hkind : o.operationKind = .recovery) :
    ∃ r ∈ d'.1.runs, o.runId = some r.id ∧ r.recoveryState = some .incomplete ∧
      ∃ s ∈ d'.1.owners, s.runId = some r.id ∧ s.recoverable = true ∧
        ∃ c ∈ d'.1.claims, c.ownerId = s.id := by
  obtain ⟨before, after, d₁, d₂, report₁, report₂, hat⟩ := h.at hcs ho
  cases hat.step.move with
  | orphaned run o' _ hrecoverable _ _ =>
    exact absurd (hkind.symm.trans hrecoverable.1.1) nofun
  | retired o' hnot _ _ => exact absurd hkind hnot
  | interrupted s o' a a' _ hmove =>
    obtain ⟨r, r', hrid, _, hfailed, hstate, _, hruns⟩ := hmove.concluded.runs
    have hkept : r' ∈ d'.1.runs :=
      (hat.rest.keeps hat.list).rested r' hruns.mem_new (by rw [hfailed]; nofun)
        (by rw [hstate]; nofun)
    refine ⟨r', hkept, ?_, hstate, inv.waiting r' hkept (by rw [hstate]; trivial)⟩
    rw [hmove.concluded.ownerRun hat.sweepable.ownership, hruns.same, hrid]

variable (st) in
/-- A sweep that answers has gone through all dead owners. -/
theorem recoverStartupOrphans_ends {s : LiveSystem} (h : Reach s) :
    Ends (recoverStartupOrphans st true)
      (fun report d' => SweepRun st (s.db.1.staleActiveOwners st.staleBefore)
        { examined := (s.db.1.staleActiveOwners st.staleBefore).length } s.db report d')
      (fun _ _ => True) s.db := by
  have hcs := sweepList_stale (reach_inv h).ownership (reach_stepsOfRun h) st.staleBefore
  unfold recoverStartupOrphans
  rw [if_pos rfl]
  refine ends_viaQuery (fun _ => trivial) ?_
  exact ends_mono (sweepOwners_ends hcs _) (fun _ _ h => h) fun _ _ _ => trivial

/-- **What a sweep that answers has come to.**  It has found nothing amiss with any dead owner, and
none is left; no run of one still runs; a tune that left all its evidence is accepted by
`restore-loop`, what other operations held is free, and an interrupted recovery can be tried again;
and every one of them is in an export and in the counts. -/
theorem sweep_settles {s : LiveSystem} (h : Reach s) :
    Ends (recoverStartupOrphans st true)
      (fun report d' => SweepSettles st (s.db.1.staleActiveOwners st.staleBefore) s.db report d')
      (fun _ _ => True) s.db := by
  have hcs := sweepList_stale (reach_inv h).ownership (reach_stepsOfRun h) st.staleBefore
  refine ends_mono (recoverStartupOrphans_ends st h) ?_ fun _ _ h => h
  intro report d' hrun
  have hspares := (hrun.keeps hcs).spares
  have inv := (reach_inv (hspares.reach s.unowned h)).ownership
  obtain ⟨hexamined, hskipped, hsum, paths, hpaths, hlength⟩ := hrun.counted
  constructor
  · intro o ho
    obtain ⟨before, after, d₁, d₂, report₁, report₂, hat⟩ := hrun.at hcs ho
    exact hat.fits (hcs.each o ho)
  · exact fun x hx hactive => hrun.ended hcs hx hactive
  · intro o ho r hr hid hrunning
    obtain ⟨before, after, d₁, d₂, report₁, report₂, hat⟩ := hrun.at hcs ho
    have hr₂ := (hat.rest.keeps hat.list).spares.running r hr hrunning
    exact hat.step.run.closed r hr₂ hid hrunning
  · exact fun o ho run hmem hid hrecoverable hsole =>
      hrun.accepted hcs ho hmem hid hrecoverable hsole
  · exact fun o ho hkind hnot c hc => hrun.freed hcs ho hkind hnot hc
  · exact fun o ho hkind => hrun.recoveries hcs inv ho hkind
  · intro o ho
    obtain ⟨before, after, d₁, d₂, report₁, report₂, hat⟩ := hrun.at hcs ho
    obtain ⟨path, hexported, hpath⟩ := hat.step.exported
    obtain ⟨_, _, _, later, hlater, _⟩ := hat.rest.counted
    refine ⟨path, ?_, hexported.of_steps hat.keeps.spares.steps⟩
    rw [hlater, hpath]
    exact List.mem_append_left _ (List.mem_append_right _ (List.mem_singleton_self path))
  · refine ⟨hexamined, hskipped, ?_, ?_⟩
    · rw [hsum]
      simp
    · rw [hpaths]
      exact hlength

end Answered

end Sweep

/-! ### The loop FC1 -/

/-- The database is opened two minutes after the tune of FC1 died. -/
def flowStartup : Startup where
  databaseKey := "bhtune.db"
  startedAt := seconds 120
  parse := flowParse
  encode := fun _ => "{}"
  mvActuationsOfRun := fun _ => []
  write := fun _ => .ok "export.json"
  observedAt := fun _ => seconds 120
  changedAt := fun _ => seconds 121

theorem flowStartup_stale :
    deadSystem.db.1.staleActiveOwners flowStartup.staleBefore = [flowRecordedOwner] := by
  decide +kernel

/-- What a sweep reports. -/
def sweptReport (st : Startup) (d : Db) : Option StartupOrphanSweepReport :=
  match recoverStartupOrphans st true ⟨d, []⟩ with
  | .ok report _ => some report
  | .error _ _ => none

/-- Nothing but the dead tune of FC1 is touched. -/
theorem sweep_spares_flow :
    Ends (recoverStartupOrphans flowStartup true)
      (fun _ d' => SweepSpares flowStartup [flowRecordedOwner] deadSystem.db d')
      (fun _ d' => SweepSpares flowStartup [flowRecordedOwner] deadSystem.db d') deadSystem.db := by
  have hends := @sweep_spares flowStartup _ reach_dead true
  rw [flowStartup_stale] at hends
  exact hends

/-- The dead tune of FC1 is marked recoverable. -/
theorem sweep_settles_flow :
    ∃ report s', recoverStartupOrphans flowStartup true ⟨deadSystem.db, []⟩ = .ok report s' ∧
      report.recoverable = 1 ∧
      SweepSettles flowStartup [flowRecordedOwner] deadSystem.db report s'.store := by
  have hends := @sweep_settles flowStartup _ reach_dead []
  rw [flowStartup_stale] at hends
  have hreport : (sweptReport flowStartup deadSystem.db).map
      StartupOrphanSweepReport.recoverable = some 1 := by decide +kernel
  unfold Effect.wp at hends
  unfold sweptReport at hreport
  cases hrun : recoverStartupOrphans flowStartup true ⟨deadSystem.db, []⟩ with
  | error e s' =>
    rw [hrun] at hreport
    cases hreport
  | ok report s' =>
    rw [hrun] at hends hreport
    exact ⟨report, s', rfl, Option.some.inj hreport, hends⟩

end Bhtune
