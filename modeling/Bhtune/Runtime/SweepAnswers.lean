import Bhtune.Runtime.SweepOutcome

/-!
# Which databases a start can open

A sweep has many tests on which it may refuse.  In a database that the calls have made, all but a
few of them succeed, and those still do so after a sweep that failed.

* `sweepOwner_answers` — a dead owner that fits is ended;
* `sweep_answers_iff` — for which databases a sweep answers when nothing is refused;
* `sweep_resumes` — a sweep that fails leaves a database for which the next one can answer.
-/

namespace Bhtune

open Table Transaction

section Sweep

variable (st : Startup)

/-! ### When a sweep answers -/

section AnswerRules

variable {st} {α β : Type} {Q : α → Db → Prop} {d : Db}

theorem answers_viaDb {x : DbM α} (h : Answers x Q d) : Answers (viaDb x) Q d := by
  obtain ⟨a, d', hrun, ha⟩ := h
  refine ⟨a, d', ?_, ha⟩
  unfold viaDb
  rw [hrun]

theorem answers_viaQuery {f : Tables → β} {g : β → SweepM α} (h : Answers (g (f d.1)) Q d) :
    Answers (viaDb (query .query f) >>= g) Q d := by
  refine answers_seq (M := fun b d' => d' = d ∧ b = f d.1)
    (answers_viaDb (answers_query ⟨rfl, rfl⟩)) ?_
  rintro _ _ ⟨rfl, rfl⟩
  exact h

theorem answers_orBail {reason : Text} {a : Option β} {b : β} {f : β → SweepM α} (ha : a = some b)
    (h : Answers (f b) Q d) : Answers (orBail reason a >>= f) Q d := by
  rw [ha]
  refine answers_seq (M := fun b' d' => d' = d ∧ b' = b) (answers_pure ⟨rfl, rfl⟩) ?_
  rintro _ _ ⟨rfl, rfl⟩
  exact h

theorem answers_ensure {p : Prop} [Decidable p] {reason : Text} {f : Unit → SweepM α} (hp : p)
    (h : Answers (f ()) Q d) : Answers (ensure p reason >>= f) Q d := by
  unfold ensure
  rw [if_pos hp]
  refine answers_seq (M := fun _ d' => d' = d) (answers_pure rfl) ?_
  rintro _ _ rfl
  exact h

/-- Every export can be written. -/
def Startup.Writes : Prop := ∀ e, ∃ path, st.write e = .ok path

theorem writeRecoveryExport_answers (hwrite : st.Writes) (e : RecoveryExport) :
    Answers (writeRecoveryExport st e) (fun _ d' => d' = d) d := by
  obtain ⟨path, hpath⟩ := hwrite e
  unfold writeRecoveryExport
  rw [hpath]
  exact answers_pure rfl

theorem exportRunEvidence_answers (hwrite : st.Writes) (run : TuneRunRow) (id : ℕ)
    (reason : String) :
    Answers (exportRunEvidence st run id reason) (fun _ d' => d' = d) d :=
  answers_viaQuery (answers_viaQuery (answers_viaQuery (answers_viaQuery
    (writeRecoveryExport_answers hwrite _))))

theorem exportEvidence_answers (hwrite : st.Writes) (o : LiveOwnershipRow)
    (run : Option TuneRunRow) (reason : String) :
    Answers (exportEvidence st o run reason) (fun _ d' => d' = d) d := by
  cases run with
  | some run => exact exportRunEvidence_answers hwrite run o.id reason
  | none => exact answers_viaQuery (writeRecoveryExport_answers hwrite _)

end AnswerRules

section Answers

variable {st} {o : LiveOwnershipRow} {d : Db}

/-- A dead owner still has its claim, under its own key. -/
theorem Sweepable.claim (h : Sweepable o d) :
    ∃ c ∈ d.1.claims, c.ownerId = o.id ∧ c.claimKey = o.claimKey := by
  obtain ⟨c, hc, hco⟩ := h.ownership.activeClaim o h.present h.active
  exact ⟨c, hc, hco, h.ownership.claimKey_eq d.2.keyed hc h.present hco⟩

theorem retire_answers (h : Sweepable o d) (hwrite : st.Writes) {run : Option TuneRunRow}
    (hrun : OwnRun o run d.1) :
    Answers (retireStaleUnrecoverableOwner st o run o.claimKey) (fun _ _ => True) d := by
  unfold retireStaleUnrecoverableOwner
  refine answers_seq (exportEvidence_answers hwrite o run _) ?_
  rintro path _ rfl
  refine answers_seq (answers_viaDb (markOrphanedUnrecoverable_answers h.present rfl h.active rfl
    h.claim ?_)) fun retired d' hretired => answers_ensure hretired (answers_pure trivial)
  intro runId hfail
  obtain ⟨r, hr, rfl⟩ := Option.map_eq_some_iff.mp hfail
  obtain ⟨hr, hrunning⟩ := Option.filter_eq_some_iff.mp hr
  exact ⟨by rw [hrun.1, hr]; rfl, r, hrun.2 r hr, rfl, of_decide_eq_true hrunning⟩

theorem exportStaleTuneOrphan_answers (h : Sweepable o d) (hwrite : st.Writes) {run : TuneRunRow}
    (hmem : run ∈ d.1.runs) (hrun : o.runId = some run.id) (hdead : isDeadTune o run) :
    Answers (exportStaleTuneOrphan st run o o.claimKey) (fun _ _ => True) d := by
  unfold exportStaleTuneOrphan
  refine answers_viaQuery (answers_viaQuery (answers_viaQuery ?_))
  refine answers_viaQuery (answers_seq (writeRecoveryExport_answers hwrite _) ?_)
  rintro path d' rfl
  refine answers_seq (M := fun marked _ => ∃ eligible, marked = some eligible)
    (answers_viaDb ?_) ?_
  · unfold markTuneOrphan
    refine answers_seq (markOrphaned_answers h.present rfl h.active rfl hdead.1 hmem hrun
      hdead.2.1 hdead.2.2 h.claim) fun marked d'' hmarked => answers_pure ?_
    rw [if_pos hmarked]
    exact ⟨_, rfl⟩
  · rintro marked d'' ⟨eligible, hmarked⟩
    exact answers_orBail hmarked (answers_pure trivial)

/-- **A dead recovery that fits is abandoned.** -/
theorem abandonInterruptedRecovery_answers (h : Sweepable o d) (hwrite : st.Writes)
    (hkind : o.operationKind = .recovery) {r : TuneRunRow} (hr : r ∈ d.1.runs)
    (hrun : o.runId = some r.id) (hfailed : r.outcome = .failed)
    (hresource : r.recordedResource = some o.resourceKey) :
    Answers (abandonInterruptedRecovery st o o.claimKey) (fun _ _ => True) d := by
  obtain ⟨a, ha, hao, hrunning⟩ := h.ownership.recoveryOwner o h.present h.active hkind
  obtain ⟨⟨r', hr', hid, hstate⟩, s, hs, y, hy, hrecoverable, hsrun, hyid, _, _, hyrun, hkey⟩ :=
    h.ownership.attempt a ha hrunning
  obtain rfl := d.2.keyed.owner y hy o h.present (hyid.trans hao)
  have harun : a.runId = r.id := Option.some.inj (hyrun.symm.trans hrun)
  obtain rfl := d.2.keyed.run r' hr' r hr (hid.trans harun)
  have htune := (h.ownership.orphan s hs hrecoverable).1
  obtain ⟨hstate', heligible⟩ := not_active_of_recoverable hrecoverable
  rw [harun] at hsrun
  have hsource : s.eligibleSource r'.id = true := by
    simp [LiveOwnershipRow.eligibleSource, htune, hsrun, hstate', heligible]
  have hne : s.id ≠ y.id := recoverable_ne d.2.keyed hs h.present hrecoverable h.active
  -- the orphan has no claim of its own: the recovery has the one of their key
  have hfree : ∀ c ∈ d.1.claims, c.ownerId ≠ s.id := by
    intro c hc hcs
    obtain ⟨c', hc', hco', hkey'⟩ := h.claim
    have hsame : c = c' := d.2.keyed.claim c hc c' hc' (by
      rw [h.ownership.claimKey_eq d.2.keyed hc hs hcs, hkey', hkey])
    rw [hsame] at hcs
    exact hne (hcs.symm.trans hco')
  have hfind : d.1.runs.find? (fun r => r.id = r'.id) = some r' :=
    find?_eq_some_of_key d.2.runs.primaryKey hr
  have hsources : (d.1.ownersOfRun r'.id).filter (LiveOwnershipRow.eligibleSource r'.id) = [s] := by
    have hkeys : PrimaryKey LiveOwnershipRow.id (d.1.ownersOfRun r'.id) := by
      refine (List.Perm.map _ (List.perm_insertionSort _ _)).nodup_iff.mpr ?_
      exact (List.filter_sublist.map LiveOwnershipRow.id).nodup d.2.owners.primaryKey
    refine filter_eq_singleton hkeys ?_ hsource ?_
    · exact mem_orderedBy.mpr (List.mem_filter.mpr ⟨hs, decide_eq_true hsrun⟩)
    · intro x hx hp
      have hxmem := (List.mem_filter.mp (mem_orderedBy.mp hx)).1
      simp only [LiveOwnershipRow.eligibleSource, Bool.and_eq_true, decide_eq_true_eq] at hp
      exact d.2.keyed.owner x hxmem s hs (h.ownership.oneTune x hxmem s hs hp.1.1.1 htune
        (hp.1.1.2.trans hsrun.symm))
  obtain ⟨hdb, hres⟩ := ClaimKey.mk.inj hkey
  have hattempts : ∃ x, (d.1.attemptsOfRun r'.id).find?
      (fun x => x.recoveryOwnerId = y.id && x.status = .running) = some x := by
    refine Option.isSome_iff_exists.mp (List.find?_isSome.mpr ⟨a, ?_, ?_⟩)
    · exact mem_orderedBy.mpr (List.mem_filter.mpr ⟨ha, decide_eq_true harun⟩)
    · simp [hao, hrunning]
  obtain ⟨x, hx⟩ := hattempts
  have hxmem := List.mem_filter.mp (mem_orderedBy.mp (List.mem_of_find?_eq_some hx))
  have hxfound := List.find?_some hx
  simp only [Bool.and_eq_true, decide_eq_true_eq] at hxfound
  unfold abandonInterruptedRecovery
  refine answers_orBail hrun (answers_viaQuery (answers_orBail hfind ?_))
  refine answers_ensure ⟨hkind, hfailed, hstate⟩ (answers_viaQuery ?_)
  refine answers_orBail (b := s) (by rw [hsources]; rfl) (answers_orBail hresource ?_)
  refine answers_ensure ⟨hsrun, hdb.symm, hres.symm, rfl⟩ (answers_viaQuery ?_)
  refine answers_ensure (claimedAs_iff.mpr h.claim) (answers_viaQuery (answers_orBail hx ?_))
  refine answers_seq (exportRunEvidence_answers hwrite r' y.id _) ?_
  rintro path _ rfl
  refine answers_seq (answers_viaDb (abandonAfterRestart_answers hxmem.1 ?_ hr rfl hfailed hstate hs
    rfl hsrun htune hrecoverable h.present rfl hrun hkind h.active rfl h.claim hfree))
    fun abandoned d' habandoned => answers_ensure habandoned (answers_pure trivial)
  exact runningAttempt_iff.mpr ⟨rfl, of_decide_eq_true hxmem.2, hxfound⟩

/-- **A dead owner that fits is swept** when nothing is refused and its export can be written. -/
theorem sweepOwner_answers (h : Sweepable o d) (hfits : st.Fits d.1 o) (hwrite : st.Writes)
    (report : StartupOrphanSweepReport) :
    Answers (sweepOwner st report o) (fun report' d' => SweepStep st o report d report' d') d := by
  have hanswers : Answers (sweepOwner st report o) (fun _ _ => True) d := by
    unfold sweepOwner
    refine answers_ensure hfits.1 (answers_viaQuery ?_)
    refine answers_ensure (claimedAs_iff.mpr h.claim) ?_
    by_cases hkind : o.operationKind = .recovery
    · rw [if_pos hkind]
      obtain ⟨r, hr, hrun, hfailed, hresource⟩ := hfits.2 hkind
      exact answers_seq (abandonInterruptedRecovery_answers h hwrite hkind hr hrun hfailed hresource)
        fun _ _ _ => answers_pure trivial
    rw [if_neg hkind]
    refine answers_seq (M := fun run d' => d' = d ∧ OwnRun o run d.1) ?_ ?_
    · unfold ownerRun
      cases horun : o.runId with
      | none => exact answers_pure ⟨rfl, horun, fun r hr => by cases hr⟩
      | some runId =>
        obtain ⟨r, hr, hid⟩ := d.2.ownerRuns o h.present runId horun
        have hfind : d.1.runs.find? (fun r => r.id = runId) = some r := by
          rw [← hid]
          exact find?_eq_some_of_key d.2.runs.primaryKey hr
        refine answers_viaQuery (answers_orBail hfind (answers_pure ⟨rfl, ?_, ?_⟩))
        · rw [horun, ← hid]
          rfl
        · rintro x ⟨⟩
          exact hr
    · rintro run d' ⟨hsame, hrun⟩
      rw [hsame]
      unfold sweepOperation
      cases hdead : run.filter (isDeadTune o) with
      | some r =>
        obtain ⟨hr, hdead⟩ := Option.filter_eq_some_iff.mp hdead
        exact answers_seq (exportStaleTuneOrphan_answers h hwrite (hrun.2 r hr)
          (by rw [hrun.1, hr]; rfl) (of_decide_eq_true hdead)) fun _ _ _ => answers_pure trivial
      | none =>
        exact answers_seq (retire_answers h hwrite hrun) fun _ _ _ => answers_pure trivial
  exact answers_mono (answers_ends hanswers (sweepOwner_sweeps h report)) fun _ _ h => h.2

theorem sweepOwners_answers {cs : List LiveOwnershipRow} (hcs : SweepList cs d)
    (hfits : ∀ o ∈ cs, st.Fits d.1 o) (hwrite : st.Writes) (report : StartupOrphanSweepReport) :
    Answers (sweepOwners st report cs) (fun _ _ => True) d := by
  induction cs generalizing report d with
  | nil => exact answers_pure trivial
  | cons o cs ih =>
    refine answers_seq (sweepOwner_answers hcs.head (hfits o List.mem_cons_self) hwrite report) ?_
    intro report₁ d₁ hstep
    have hkeeps := hstep.keeps hcs.head
    obtain ⟨hne, _⟩ := List.pairwise_cons.mp hcs.distinct
    refine ih (hcs.tail hkeeps) (fun x hx => ?_) report₁
    obtain ⟨hdb, hrecovery⟩ := hfits x (List.mem_cons_of_mem o hx)
    refine ⟨hdb, fun hkind => ?_⟩
    obtain ⟨r, hr, hrun, hrest⟩ := hrecovery hkind
    exact ⟨r, (hkeeps.recovering x (hcs.each x (List.mem_cons_of_mem o hx)) hkind
      (List.forall_mem_singleton.mpr (hne x hx)) r hrun).mpr hr, hrun, hrest⟩

/-- A sweep of dead owners that all fit answers. -/
theorem recoverStartupOrphans_answers {s : LiveSystem} (h : Reach s)
    (hfits : ∀ o ∈ s.db.1.staleActiveOwners st.staleBefore, st.Fits s.db.1 o)
    (hwrite : st.Writes) :
    Answers (recoverStartupOrphans st true)
      (fun report d' => SweepRun st (s.db.1.staleActiveOwners st.staleBefore)
        { examined := (s.db.1.staleActiveOwners st.staleBefore).length } s.db report d') s.db := by
  have hcs := sweepList_stale (reach_inv h).ownership (reach_stepsOfRun h) st.staleBefore
  have hanswers : Answers (recoverStartupOrphans st true) (fun _ _ => True) s.db := by
    unfold recoverStartupOrphans
    rw [if_pos rfl]
    exact answers_viaQuery (sweepOwners_answers hcs hfits hwrite _)
  exact answers_mono (answers_ends hanswers (recoverStartupOrphans_ends st h)) fun _ _ h => h.2

/-- **When a database can be opened.**  With nothing refused and every export written, the sweep
answers exactly if every dead owner fits: it is of this database, and the run of a dead recovery
failed on the controller and tag that the owner claims. -/
theorem sweep_answers_iff {s : LiveSystem} (h : Reach s) (hwrite : st.Writes) :
    (∃ report s', recoverStartupOrphans st true ⟨s.db, []⟩ = .ok report s') ↔
      ∀ o ∈ s.db.1.staleActiveOwners st.staleBefore, st.Fits s.db.1 o := by
  have hcs := sweepList_stale (reach_inv h).ownership (reach_stepsOfRun h) st.staleBefore
  constructor
  · rintro ⟨report, s', hrun⟩ o ho
    have hswept := recoverStartupOrphans_ends st h []
    unfold Effect.wp at hswept
    rw [hrun] at hswept
    obtain ⟨before, after, d₁, d₂, report₁, report₂, hat⟩ := hswept.at hcs ho
    exact hat.fits (hcs.each o ho)
  · intro hfits
    obtain ⟨report, d', hrun, _⟩ := recoverStartupOrphans_answers h hfits hwrite
    exact ⟨report, _, hrun⟩

end Answers

/-! ### Starts that fail -/

section Starts

variable {st}

variable (st) in
/-- The database after a sweep, however it ended. -/
def afterSweep (locked : Bool) (d : Db) (refusals : List Bool) : Db :=
  match recoverStartupOrphans st locked ⟨d, refusals⟩ with
  | .ok _ s => s.store
  | .error _ s => s.store

/-- A start, whose sweep may fail anywhere. -/
def SweepAttempt (d d' : Db) : Prop :=
  ∃ (st : Startup) (locked : Bool) (refusals : List Bool), d' = afterSweep st locked d refusals

variable (st) in
/-- Every active owner would pass the sweep if it died. -/
def Startup.AllFit (t : Tables) : Prop := ∀ o ∈ t.owners, o.state = .active → st.Fits t o

/-- The owners that a sweep has not come to would still pass it. -/
theorem SweepRun.allFit {st' : Startup} {cs : List LiveOwnershipRow}
    {report report' : StartupOrphanSweepReport} {d d' : Db}
    (h : SweepRun st' cs report d report' d') (hcs : SweepList cs d) (inv : OwnershipInv d.1)
    (hsteps : StepsOfRun d.1) (hfit : st.AllFit d.1) : st.AllFit d'.1 := by
  intro x hx hactive
  have hkeeps := h.keeps hcs
  have hwas := hkeeps.spares.active x hx hactive
  obtain ⟨hdb, hrecovery⟩ := hfit x hwas hactive
  refine ⟨hdb, fun hkind => ?_⟩
  obtain ⟨r, hr, hrun, hrest⟩ := hrecovery hkind
  exact ⟨r, (hkeeps.recovering x ⟨inv, hsteps, hwas, hactive⟩ hkind (h.ended hcs hx hactive) r
    hrun).mpr hr, hrun, hrest⟩

variable (st) in
theorem afterSweep_sweeps {s : LiveSystem} (h : Reach s) (locked : Bool) (refusals : List Bool) :
    ∃ done report report', SweepList done s.db ∧
      SweepRun st done report s.db report' (afterSweep st locked s.db refusals) := by
  have hends := recoverStartupOrphans_sweeps st h locked refusals
  unfold Effect.wp at hends
  unfold afterSweep
  cases hrun : recoverStartupOrphans st locked ⟨s.db, refusals⟩ with
  | ok report s' =>
    rw [hrun] at hends
    obtain ⟨done, report, report', _, hswept⟩ := hends
    exact ⟨done, report, report', hswept⟩
  | error e s' =>
    rw [hrun] at hends
    obtain ⟨done, report, report', _, hswept⟩ := hends
    exact ⟨done, report, report', hswept⟩

theorem SweepAttempt.keeps {d d' : Db} (hstart : SweepAttempt d d') {unowned : List ℕ}
    (h : Reach ⟨d, unowned⟩) (hfit : st.AllFit d.1) :
    Reach ⟨d', unowned⟩ ∧ st.AllFit d'.1 := by
  obtain ⟨st', locked, refusals, rfl⟩ := hstart
  obtain ⟨done, report, report', hdone, hswept⟩ := afterSweep_sweeps st' h locked refusals
  exact ⟨(hswept.keeps hdone).spares.reach unowned h,
    hswept.allFit hdone (reach_inv h).ownership (reach_stepsOfRun h) hfit⟩

/-- **A start that fails does not block the next one.**  After any number of starts whose sweep
failed anywhere, a sweep that is refused nothing answers, and leaves nobody active with an old
heartbeat. -/
theorem sweep_resumes {s : LiveSystem} (h : Reach s) (hfit : st.AllFit s.db.1) {d' : Db}
    (hstarts : Relation.ReflTransGen SweepAttempt s.db d') (hwrite : st.Writes) :
    ∃ report s', recoverStartupOrphans st true ⟨d', []⟩ = .ok report s' ∧
      ∀ x ∈ s'.store.1.owners, x.state = .active → st.staleBefore ≤ x.heartbeatAt := by
  have hkept : Reach ⟨d', s.unowned⟩ ∧ st.AllFit d'.1 := by
    induction hstarts with
    | refl => exact ⟨h, hfit⟩
    | tail _ hstart ih => exact hstart.keeps ih.1 ih.2
  obtain ⟨hreach, hfit'⟩ := hkept
  have inv := (reach_inv hreach).ownership
  have hcs := sweepList_stale inv (reach_stepsOfRun hreach) st.staleBefore
  have hfits : ∀ o ∈ d'.1.staleActiveOwners st.staleBefore, st.Fits d'.1 o :=
    fun o ho => hfit' o (hcs.each o ho).present (hcs.each o ho).active
  obtain ⟨report, d'', hrun, hswept⟩ := recoverStartupOrphans_answers hreach hfits hwrite
  refine ⟨report, _, hrun, fun x hx hactive => ?_⟩
  by_contra hold
  have hwas := (hswept.keeps hcs).spares.active x hx hactive
  obtain ⟨c, hc, hcx⟩ := inv.activeClaim x hwas hactive
  have hstale : x.stale st.staleBefore d'.1 = true := by
    simp only [LiveOwnershipRow.stale, Bool.and_eq_true, decide_eq_true_eq]
    exact ⟨⟨hactive, Int.not_le.mp hold⟩, claimed_iff.mpr ⟨c, hc, hcx⟩⟩
  exact hswept.ended hcs hx hactive x (mem_staleActiveOwners.mpr ⟨hwas, hstale⟩) rfl

end Starts

end Sweep

/-! ### The loop FC1 -/

/-- The database with the dead tune of FC1 can be opened. -/
theorem sweep_answers_flow :
    ∃ report s', recoverStartupOrphans flowStartup true ⟨deadSystem.db, []⟩ = .ok report s' := by
  refine (sweep_answers_iff reach_dead fun _ => ⟨"export.json", rfl⟩).mpr ?_
  rw [flowStartup_stale]
  intro o ho
  rw [List.mem_singleton.mp ho]
  exact ⟨rfl, nofun⟩

/-- A start whose exports do not fit on the disk. -/
def fullDiskStartup : Startup := { flowStartup with write := fun _ => .error (text "disk full") }

/-- The disk is full at the first start after the tune of FC1 died. -/
theorem sweep_resumes_flow :
    ∃ report s', recoverStartupOrphans flowStartup true
        ⟨afterSweep fullDiskStartup true deadSystem.db [], []⟩ = .ok report s' ∧
      ∀ x ∈ s'.store.1.owners, x.state = .active → flowStartup.staleBefore ≤ x.heartbeatAt := by
  refine sweep_resumes reach_dead ?_ (.single ⟨fullDiskStartup, true, [], rfl⟩)
    fun _ => ⟨"export.json", rfl⟩
  have howners : deadSystem.db.1.owners = [flowRecordedOwner] := by decide +kernel
  intro o ho _
  rw [howners] at ho
  rw [List.mem_singleton.mp ho]
  exact ⟨rfl, nofun⟩

end Bhtune
