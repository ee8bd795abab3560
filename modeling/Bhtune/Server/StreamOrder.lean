import Bhtune.Db.LiveSystem
import Bhtune.Server.RunStream

/-!
# What a subscriber of a run sees

* `StreamInv` — what every step keeps;
* `Orderly.step` — an undisturbed step keeps the stream orderly;
* `not_orderly` — a disturbed one does not;
* `stream_orderly_iff` — so every state of a run of the system is orderly exactly if no read
  disturbs it.
-/

namespace Bhtune

open ActionRun LogCursor

/-! ### What every state keeps -/

namespace StreamSystem

variable {s s' : StreamSystem} {a : StreamAction}

/-- The table, the cursor and the count of late reads, wherever the stream is. -/
structure RecordInv (s : StreamSystem) : Prop where
  increasing : Increasing TuneSampleRow.tickIndex s.recorded
  nonneg : ∀ row ∈ s.recorded, 0 ≤ row.tickIndex
  cursor : s.lastTick = -1 ∨ ∃ row ∈ s.recorded, s.lastTick = row.tickIndex
  table : s.samples = if s.run.isSome then s.recorded else []
  early : s.isOver = false → s.lateReads = 0

/-- What every step keeps, undisturbed or not. -/
structure StreamInv (s : StreamSystem) : Prop extends RecordInv s where
  running : s.phase = .sampling (some .running) → s.lateReads = 0
  gone : s.phase = .sampling none → 1 ≤ s.lateReads
  terminal : ∀ outcome, s.phase = .sampling (some outcome) → outcome ≠ .running →
    ∀ run ∈ s.run, run.outcome = outcome
  notOpened : s.phase = .notOpened →
    s.events = [] ∧ s.lastTick = -1 ∧ s.sentInitial = false ∧ s.lateReads = 0

theorem streamInv_start (new : NewTuneRun) (id : ℕ) : StreamInv (.start new id) where
  increasing := .nil
  nonneg := by simp [start]
  cursor := .inl rfl
  table := rfl
  early := fun _ => rfl
  running := by simp [start]
  gone := by simp [start]
  terminal := by simp [start]
  notOpened := fun _ => ⟨rfl, rfl, rfl, rfl⟩

/-! ### A statement of the run -/

/-- A run that is over stays over. -/
theorem Records.isOver (h : s.Records s') (hover : s'.isOver = false) : s.isOver = false := by
  rcases h.run with hnone | ⟨run, run', hrun, hrun', houtcome⟩
  · simp [StreamSystem.isOver, hnone] at hover
  · simp only [StreamSystem.isOver, hrun', Option.all_some, ne_eq, decide_not, Bool.not_eq_false',
      decide_eq_true_eq] at hover
    rcases houtcome with hrunning | hsame
    · exact over_eq_false hrun hrunning
    · exact over_eq_false hrun (hsame.symm.trans hover)

/-- The outcome of a run that has ended stays. -/
theorem Records.outcome (h : s.Records s') {outcome : TuneOutcome} (hended : outcome ≠ .running)
    (hrun : ∀ run ∈ s.run, run.outcome = outcome) : ∀ run ∈ s'.run, run.outcome = outcome := by
  intro run' hrun'
  rcases h.run with hnone | ⟨run, run'', hwas, his, houtcome⟩
  · simp [hnone] at hrun'
  · rw [his] at hrun'
    cases hrun'
    have hwas := hrun run hwas
    rcases houtcome with hrunning | hsame
    · exact absurd (hwas.symm.trans hrunning) hended
    · rw [hsame, hwas]

/-- A new sample is after the cursor. -/
theorem StreamInv.after_cursor (inv : StreamInv s) {row : TuneSampleRow}
    (hnonneg : 0 ≤ row.tickIndex) (hafter : ∀ x ∈ s.recorded, x.tickIndex < row.tickIndex) :
    s.lastTick < row.tickIndex := by
  rcases inv.cursor with hstart | ⟨x, hx, hcursor⟩
  · omega
  · rw [hcursor]
    exact hafter x hx

/-- What is up to the cursor stays. -/
theorem Records.sent (inv : StreamInv s) (h : s.Records s') : s'.sent = s.sent := by
  unfold StreamSystem.sent
  rw [h.lastTick]
  rcases h.recorded with hsame | ⟨row, hnew, _, hnonneg, hafter⟩
  · rw [hsame]
  · rw [hnew]
    exact upTo_concat (inv.after_cursor hnonneg hafter)

theorem StreamInv.records (inv : StreamInv s) (h : s.Records s') : StreamInv s' where
  increasing := by
    rcases h.recorded with hsame | ⟨row, hnew, _, _, hafter⟩
    · rw [hsame]
      exact inv.increasing
    · rw [hnew, increasing_concat]
      exact ⟨inv.increasing, hafter⟩
  nonneg := by
    rcases h.recorded with hsame | ⟨row, hnew, _, hnonneg, _⟩
    · rw [hsame]
      exact inv.nonneg
    · rw [hnew]
      intro x hx
      rcases List.mem_append.mp hx with hx | hx
      · exact inv.nonneg x hx
      · rwa [List.mem_singleton.mp hx]
  cursor := by
    rw [h.lastTick]
    rcases inv.cursor with hstart | ⟨x, hx, hcursor⟩
    · exact .inl hstart
    · refine .inr ⟨x, ?_, hcursor⟩
      rcases h.recorded with hsame | ⟨row, hnew, _⟩
      · rwa [hsame]
      · rw [hnew]
        exact List.mem_append_left _ hx
  table := h.table inv.table
  early := by
    intro hover
    rw [h.lateReads]
    exact inv.early (h.isOver hover)
  running := by
    rw [h.phase, h.lateReads]
    exact inv.running
  gone := by
    rw [h.phase, h.lateReads]
    exact inv.gone
  terminal := by
    intro outcome hphase hended
    rw [h.phase] at hphase
    exact h.outcome hended (inv.terminal outcome hphase hended)
  notOpened := by
    rw [h.phase, h.events, h.lastTick, h.sentInitial, h.lateReads]
    exact inv.notOpened

theorem Orderly.records (inv : StreamInv s) (horderly : s.Orderly) (h : s.Records s') :
    s'.Orderly where
  increasing := (inv.records h).increasing
  transcript := by
    obtain ⟨initial, closing, t⟩ := horderly.transcript
    have hsent := h.sent inv
    refine ⟨initial, closing, ?_, ?_, ?_, ?_, ?_⟩
    · rw [h.events, hsent]
      exact t.events
    · rw [h.sentInitial]
      exact t.sentInitial
    · rw [hsent]
      exact t.initialFirst
    · rw [h.phase]
      exact t.closed
    · intro event hevent
      rcases t.closes event hevent with herror | ⟨outcome, hdone, hended, hall, hrun⟩
      · exact .inl herror
      · refine .inr ⟨outcome, hdone, hended, ?_, h.outcome hended hrun⟩
        rw [hsent, hall]
        rcases h.recorded with hsame | ⟨row, _, hover, _⟩
        · exact hsame.symm
        · -- Nothing is recorded any more: the run has ended.
          cases hs : s.run with
          | none => simp [StreamSystem.isOver, hs] at hover
          | some run =>
            have hrunning : run.outcome = .running := by simpa [StreamSystem.isOver, hs] using hover
            exact absurd ((hrun run hs).symm.trans hrunning) hended
  polling := by
    rw [h.phase, h.lateReads]
    exact horderly.polling
  sampling := by
    rw [h.phase, h.lateReads]
    exact horderly.sampling

end StreamSystem


/-! ### A step of the stream -/

namespace StreamSystem

variable {s s' : StreamSystem} {a : StreamAction}

theorem RecordInv.countRead (inv : RecordInv s) : RecordInv s.countRead where
  increasing := inv.increasing
  nonneg := inv.nonneg
  cursor := inv.cursor
  table := inv.table
  early := by
    intro hover
    have hover : s.isOver = false := hover
    simpa [StreamSystem.countRead, hover] using inv.early hover

theorem RecordInv.at_phase (inv : RecordInv s) (phase : StreamPhase) :
    RecordInv { s with phase := phase } :=
  ⟨inv.increasing, inv.nonneg, inv.cursor, inv.table, inv.early⟩

theorem RecordInv.finish (inv : RecordInv s) (event : StreamEvent) :
    StreamInv (s.finish event) where
  toRecordInv := ⟨inv.increasing, inv.nonneg, inv.cursor, inv.table, inv.early⟩
  running := nofun
  gone := nofun
  terminal := nofun
  notOpened := nofun

theorem RecordInv.sendInitial (inv : RecordInv s) (run : TuneRunRow) :
    RecordInv (s.sendInitial run) := by
  unfold StreamSystem.sendInitial
  split
  · exact ⟨inv.increasing, inv.nonneg, inv.cursor, inv.table, inv.early⟩
  · exact inv

/-- The samples in the table were recorded. -/
theorem RecordInv.mem_recorded (inv : RecordInv s) {row : TuneSampleRow} (h : row ∈ s.samples) :
    row ∈ s.recorded := by
  rw [inv.table] at h
  split at h
  · exact h
  · simp at h

/-- The samples are listed as they are in the table, from the cursor on. -/
theorem RecordInv.listForRunSince (inv : RecordInv s) :
    listForRunSince s.samples s.lastTick = beyond TuneSampleRow.tickIndex s.lastTick s.samples := by
  apply List.Pairwise.insertionSort_eq
  have hincreasing : s.samples.Pairwise fun a b => a.tickIndex ≤ b.tickIndex := by
    rw [inv.table]
    split
    · exact inv.increasing.imp fun h => h.le
    · exact .nil
  exact hincreasing.filter _

theorem RecordInv.sendSamples (inv : RecordInv s) :
    RecordInv (s.sendSamples (Bhtune.listForRunSince s.samples s.lastTick)) where
  increasing := inv.increasing
  nonneg := inv.nonneg
  cursor := by
    rw [inv.listForRunSince]
    rcases advance_mem TuneSampleRow.tickIndex s.lastTick
      (beyond TuneSampleRow.tickIndex s.lastTick s.samples) with hsame | ⟨row, hrow, hcursor⟩
    · rcases inv.cursor with hstart | ⟨row, hrow, hcursor⟩
      · exact .inl (hsame.trans hstart)
      · exact .inr ⟨row, hrow, hsame.trans hcursor⟩
    · exact .inr ⟨row, inv.mem_recorded (mem_beyond.mp hrow).1, hcursor⟩
  table := inv.table
  early := inv.early

/-- The samples that are listed come right after those that were sent. -/
theorem RecordInv.sent_sendSamples (inv : RecordInv s) :
    (s.sendSamples (Bhtune.listForRunSince s.samples s.lastTick)).sent =
      s.sent ++ Bhtune.listForRunSince s.samples s.lastTick := by
  rw [inv.listForRunSince]
  show upTo _ (advance _ _ _) s.recorded = upTo _ s.lastTick s.recorded ++ _
  rw [inv.table]
  cases hrun : s.run with
  | none => simp [beyond]
  | some run => exact (upTo_append_read inv.increasing s.lastTick).symm

/-- Everything is sent that is recorded, unless some of it is gone. -/
theorem RecordInv.all_sent (inv : RecordInv s)
    (h : ∀ row ∈ s.recorded, row.tickIndex ≤ s.lastTick ∨ row ∈ s.samples) :
    (s.sendSamples (Bhtune.listForRunSince s.samples s.lastTick)).sent = s.recorded := by
  have htable := inv.table
  cases hrun : s.run with
  | none =>
    rw [hrun] at htable
    rw [inv.sent_sendSamples, inv.listForRunSince, show s.samples = [] from htable]
    show upTo _ _ _ ++ [] = s.recorded
    rw [List.append_nil]
    apply upTo_eq_self
    rw [beyond_eq_nil]
    intro row hrow
    rcases h row hrow with hle | hmem
    · exact hle
    · rw [show s.samples = [] from htable] at hmem
      simp at hmem
  | some run =>
    rw [hrun] at htable
    rw [inv.listForRunSince, show s.samples = s.recorded from htable]
    exact upTo_advance inv.increasing s.lastTick

theorem StreamInv.readRun (inv : StreamInv s) (failure : Option String) :
    StreamInv (s.countRead.readRun failure) := by
  have hcounted := inv.toRecordInv.countRead
  cases failure with
  | some error => exact hcounted.finish _
  | none =>
    unfold StreamSystem.readRun
    dsimp only
    split
    · rename_i run hrun
      have hrun : s.run = some run := hrun
      refine ⟨(hcounted.sendInitial run).at_phase _, ?_, nofun, ?_, nofun⟩
      · intro hphase
        have hrunning : run.outcome = .running := by simpa using hphase
        have hover := over_eq_false hrun hrunning
        have hcount : s.countRead.lateReads = 0 := hcounted.early hover
        unfold StreamSystem.sendInitial
        split <;> exact hcount
      · intro outcome hphase _ run' hrun'
        have houtcome : run.outcome = outcome := by simpa using hphase
        have hsame : (s.countRead.sendInitial run).run = some run := by
          unfold StreamSystem.sendInitial
          split <;> exact hrun
        change run' ∈ (s.countRead.sendInitial run).run at hrun'
        rw [hsame] at hrun'
        cases hrun'
        exact houtcome
    · rename_i hrun
      have hrun : s.run = none := hrun
      refine ⟨hcounted.at_phase _, nofun, ?_, nofun, nofun⟩
      intro _
      show 1 ≤ if s.isOver then s.lateReads + 1 else s.lateReads
      rw [show s.isOver = true by simp [StreamSystem.isOver, hrun]]
      simp

theorem StreamInv.readSamples (inv : StreamInv s) (runOutcome : Option TuneOutcome)
    (failure : Option String) : StreamInv (s.countRead.readSamples runOutcome failure) := by
  have hcounted := inv.toRecordInv.countRead
  cases failure with
  | some error => exact hcounted.finish _
  | none =>
    have hsent := hcounted.sendSamples
    unfold StreamSystem.readSamples
    dsimp only
    split
    · exact ⟨hsent.at_phase _, nofun, nofun, nofun, nofun⟩
    · exact ⟨hsent.at_phase _, nofun, nofun, nofun, nofun⟩
    · exact hsent.finish _

/-- **The step lemma.** -/
theorem StreamInv.step (inv : StreamInv s) (h : s.step a = some s') : StreamInv s' := by
  cases step_cases h with
  | records h _ => exact inv.records h
  | opens limited _ _ h =>
    rw [h]
    exact ⟨⟨inv.increasing, inv.nonneg, inv.cursor, inv.table, inv.early⟩,
      nofun, nofun, nofun, nofun⟩
  | stops error _ _ h =>
    rw [h]
    exact inv.toRecordInv.finish _
  | readsRun failure _ _ h =>
    rw [h]
    exact inv.readRun failure
  | readsSamples runOutcome failure _ _ h =>
    rw [h]
    exact inv.readSamples runOutcome failure

end StreamSystem


/-! ### A read that leaves the stream as it should be -/

namespace StreamSystem

variable {s s' : StreamSystem} {a : StreamAction}
variable {initial : Option TuneRunInitialReadings} {closing : Option StreamEvent}

theorem lateReads_countRead (s : StreamSystem) : s.countRead.lateReads ≤ s.lateReads + 1 := by
  unfold countRead
  dsimp only
  split <;> omega

/-- A stream that is open has not been closed. -/
theorem Transcript.open (t : s.Transcript initial closing) (h : s.phase ≠ .ended) :
    closing = none := by
  cases closing with
  | none => rfl
  | some event => exact absurd (t.closed.mp rfl) h

/-- A stream that is open may be closed. -/
theorem Transcript.finish (t : s.Transcript initial none)
    {event : StreamEvent} (hcloses : s.Closes event) :
    (s.finish event).Transcript initial (some event) where
  events := by
    show s.events ++ [event] = _
    rw [t.events]
    simp [sent, StreamSystem.finish]
  sentInitial := t.sentInitial
  initialFirst := t.initialFirst
  closed := by simp [StreamSystem.finish]
  closes := by
    intro e he
    cases he
    exact hcloses

/-- A stream that is open goes on to a phase where it is open. -/
theorem Transcript.at_phase (t : s.Transcript initial none)
    {phase : StreamPhase} (hopen : phase ≠ .ended) :
    ({ s with phase := phase } : StreamSystem).Transcript initial none where
  events := t.events
  sentInitial := t.sentInitial
  initialFirst := t.initialFirst
  closed := by simp [hopen]
  closes := by simp

theorem Transcript.countRead (t : s.Transcript initial closing) :
    s.countRead.Transcript initial closing :=
  ⟨t.events, t.sentInitial, t.initialFirst, t.closed, t.closes⟩

theorem Transcript.sendInitial
    (t : s.Transcript initial none) (run : TuneRunRow) :
    ∃ initial', (s.sendInitial run).Transcript initial' none := by
  unfold StreamSystem.sendInitial
  split
  · rename_i readings hnot _
    -- Nothing was sent before the readings.
    have hinitial : initial = none := by simpa [hnot] using t.sentInitial
    have hsent : s.sent = [] := by
      by_contra hne
      simpa [hinitial] using t.initialFirst hne
    refine ⟨some readings, ?_, rfl, fun _ => rfl, t.closed, by simp⟩
    have hevents : s.events = [] := by simpa [hinitial, hsent] using t.events
    have hsame : ({ s with
        events := s.events ++ [.initial readings]
        sentInitial := true } : StreamSystem).sent = [] := hsent
    rw [hsame]
    simp [hevents]
  · exact ⟨initial, t⟩

theorem Orderly.readRun (inv : StreamInv s) (horderly : s.Orderly) (hphase : s.phase = .polling)
    (failure : Option String) : (s.countRead.readRun failure).Orderly := by
  obtain ⟨initial, closing, t⟩ := horderly.transcript
  have hopen := t.open (by simp [hphase])
  subst hopen
  have hcount : s.countRead.lateReads ≤ 2 := by
    have hone := horderly.polling hphase
    have hmore := lateReads_countRead s
    omega
  cases failure with
  | some error =>
    exact ⟨inv.increasing, ⟨initial, _, t.countRead.finish (.inl ⟨error, rfl⟩)⟩, nofun, nofun⟩
  | none =>
    unfold StreamSystem.readRun
    dsimp only
    split
    · rename_i run _
      obtain ⟨initial', t'⟩ := t.countRead.sendInitial run
      refine ⟨(inv.toRecordInv.countRead.sendInitial run).increasing,
        ⟨initial', none, t'.at_phase nofun⟩, nofun, ?_⟩
      intro _ _
      show (s.countRead.sendInitial run).lateReads ≤ 2
      unfold StreamSystem.sendInitial
      split <;> exact hcount
    · exact ⟨inv.increasing, ⟨initial, none, t.countRead.at_phase nofun⟩, nofun, fun _ _ => hcount⟩

/-- The samples are sent, if the readings were or there are none to send. -/
theorem Transcript.sendSamples (inv : RecordInv s)
    (t : s.Transcript initial none)
    (hinitial : s.sentInitial = true ∨ listForRunSince s.samples s.lastTick = []) :
    (s.sendSamples (listForRunSince s.samples s.lastTick)).Transcript initial none where
  events := by
    rw [inv.sent_sendSamples]
    show s.events ++ _ = _
    rw [t.events]
    simp
  sentInitial := t.sentInitial
  initialFirst := by
    rw [inv.sent_sendSamples]
    intro hne
    rcases hinitial with hsent | hnone
    · exact t.sentInitial.symm.trans hsent
    · rw [hnone, List.append_nil] at hne
      exact t.initialFirst hne
  closed := t.closed
  closes := by simp

theorem Orderly.readSamples (inv : StreamInv s) (horderly : s.Orderly)
    {runOutcome : Option TuneOutcome} (hphase : s.phase = .sampling runOutcome)
    {failure : Option String} (hundisturbed : s.undisturbed (.readSamples failure) = true) :
    (s.countRead.readSamples runOutcome failure).Orderly := by
  obtain ⟨initial, closing, t⟩ := horderly.transcript
  have hopen := t.open (by simp [hphase])
  subst hopen
  cases failure with
  | some error =>
    exact ⟨inv.increasing, ⟨initial, _, t.countRead.finish (.inl ⟨error, rfl⟩)⟩, nofun, nofun⟩
  | none =>
    have hcounted := inv.toRecordInv.countRead
    unfold undisturbed at hundisturbed
    rw [hphase] at hundisturbed
    cases runOutcome with
    | none => cases hundisturbed
    | some outcome =>
      simp only [Bool.and_eq_true, Bool.or_eq_true, List.isEmpty_iff, decide_eq_true_eq,
        List.all_eq_true] at hundisturbed
      have t' := t.countRead.sendSamples hcounted hundisturbed.1
      unfold StreamSystem.readSamples
      dsimp only
      split
      · rename_i hnone
        cases hnone
      · rename_i hrunning
        cases hrunning
        refine ⟨inv.increasing, ⟨initial, none, t'.at_phase nofun⟩, ?_, nofun⟩
        intro _
        have hearly := inv.running hphase
        show s.countRead.lateReads ≤ 1
        have hmore := lateReads_countRead s
        omega
      · rename_i outcome' hended houtcome
        cases houtcome
        have hended : outcome ≠ .running := by
          intro hrunning
          exact hended (by rw [hrunning])
        refine ⟨inv.increasing, ⟨initial, _, t'.finish (.inr ⟨outcome, rfl, hended, ?_, ?_⟩)⟩,
          nofun, nofun⟩
        · apply hcounted.all_sent
          rcases hundisturbed.2 with hrunning | hall
          · exact absurd hrunning hended
          · exact hall
        · exact inv.terminal outcome hphase hended

/-- An undisturbed step keeps the stream orderly. -/
theorem Orderly.step (inv : StreamInv s) (horderly : s.Orderly) (h : s.step a = some s')
    (hundisturbed : s.undisturbed a = true) : s'.Orderly := by
  cases step_cases h with
  | records h _ => exact horderly.records inv h
  | opens limited hphase _ h =>
    rw [h]
    obtain ⟨initial, closing, t⟩ := horderly.transcript
    have hopen := t.open (by simp [hphase])
    subst hopen
    have t' := t.at_phase (show StreamPhase.polling ≠ .ended from nofun)
    refine ⟨inv.increasing, ⟨initial, none, t'.events, t'.sentInitial, t'.initialFirst, t'.closed,
      t'.closes⟩, ?_, nofun⟩
    intro _
    have hnone := (inv.notOpened hphase).2.2.2
    show s.lateReads ≤ 1
    omega
  | stops error hphase _ h =>
    rw [h]
    obtain ⟨initial, closing, t⟩ := horderly.transcript
    have hopen := t.open (by simp [hphase])
    subst hopen
    exact ⟨inv.increasing, ⟨initial, _, t.finish (.inl ⟨error, rfl⟩)⟩, nofun, nofun⟩
  | readsRun failure hphase _ h =>
    rw [h]
    exact horderly.readRun inv hphase failure
  | readsSamples runOutcome failure hphase ha h =>
    rw [h]
    rw [ha] at hundisturbed
    exact horderly.readSamples inv hphase hundisturbed

end StreamSystem


/-! ### A read that does not -/

namespace StreamSystem

variable {s s' : StreamSystem} {a : StreamAction}

/-- What disturbs the stream. -/
theorem disturbs (h : s.undisturbed a = false) :
    a = .readSamples none ∧ (s.phase = .sampling none ∨
      ∃ outcome, s.phase = .sampling (some outcome) ∧
        (s.sentInitial = false ∧ listForRunSince s.samples s.lastTick ≠ [] ∨
          outcome ≠ .running ∧
            ∃ row ∈ s.recorded, s.lastTick < row.tickIndex ∧ row ∉ s.samples)) := by
  unfold undisturbed at h
  split at h
  · rename_i hphase
    exact ⟨rfl, .inl hphase⟩
  · rename_i outcome hphase
    refine ⟨rfl, .inr ⟨outcome, hphase, ?_⟩⟩
    by_contra hnot
    simp only [not_or, not_and, not_exists] at hnot
    have hfirst : s.sentInitial = true ∨ listForRunSince s.samples s.lastTick = [] := by
      by_cases hsent : s.sentInitial = true
      · exact .inl hsent
      · exact .inr (not_not.mp (hnot.1 (Bool.eq_false_iff.mpr hsent)))
    have hlast : outcome = .running ∨
        ∀ row ∈ s.recorded, row.tickIndex ≤ s.lastTick ∨ row ∈ s.samples := by
      by_cases hrunning : outcome = .running
      · exact .inl hrunning
      · refine .inr fun row hrow => ?_
        by_cases hle : row.tickIndex ≤ s.lastTick
        · exact .inl hle
        · exact .inr (not_not.mp (hnot.2 hrunning row hrow (not_le.mp hle)))
    have htrue : ((s.sentInitial || (listForRunSince s.samples s.lastTick).isEmpty) &&
        (outcome = .running ||
          s.recorded.all fun row => row.tickIndex ≤ s.lastTick || row ∈ s.samples)) = true := by
      simpa using ⟨hfirst, hlast⟩
    rw [htrue] at h
    cases h
  · cases h

/-- Such a read can be made. -/
theorem step_of_disturbs (h : s.undisturbed a = false) : ∃ s', s.step a = some s' := by
  obtain ⟨rfl, hphase | ⟨outcome, hphase, _⟩⟩ := disturbs h
  · exact ⟨s.countRead.readSamples none none, by simp only [step, hphase]⟩
  · exact ⟨s.countRead.readSamples (some outcome) none, by simp only [step, hphase]⟩

/-- After a read that disturbs it, the stream is not as it should be. -/
theorem not_orderly (inv : StreamInv s) (h : s.step a = some s')
    (hdisturbed : s.undisturbed a = false) : ¬s'.Orderly := by
  intro horderly
  have hcounted := inv.toRecordInv.countRead
  obtain ⟨rfl, hcase⟩ := disturbs hdisturbed
  unfold step at h
  rcases hcase with hphase | ⟨outcome, hphase, hcase⟩
  · -- The stream polls on, for a run that is gone.
    simp only [hphase, Option.some.injEq] at h
    subst h
    have hlate := inv.gone hphase
    have hover : s.isOver = true := by
      by_contra hnot
      have hearly := inv.early (Bool.eq_false_iff.mpr hnot)
      omega
    have hpolling := horderly.polling rfl
    change (if s.isOver then s.lateReads + 1 else s.lateReads) ≤ 1 at hpolling
    rw [hover, if_pos rfl] at hpolling
    omega
  · simp only [hphase, Option.some.injEq] at h
    have hsent := hcounted.sent_sendSamples
    rcases hcase with ⟨hnot, hsome⟩ | ⟨hended, row, hrow, hafter, hgone⟩
    · -- A sample is sent, and the readings were not.
      obtain ⟨initial, closing, t⟩ := horderly.transcript
      have hsame : s'.sentInitial = false ∧
          s'.sent = (s.countRead.sendSamples (listForRunSince s.samples s.lastTick)).sent := by
        rw [← h]
        unfold readSamples
        dsimp only
        split
        · exact ⟨hnot, rfl⟩
        · exact ⟨hnot, rfl⟩
        · exact ⟨hnot, rfl⟩
      have hne : s'.sent ≠ [] := by
        rw [hsame.2]
        intro hnil
        exact hsome (List.append_eq_nil_iff.mp (hsent.symm.trans hnil)).2
      have hinitial := t.initialFirst hne
      rw [← t.sentInitial, hsame.1] at hinitial
      cases hinitial
    · -- The outcome is sent, and a sample is missing.
      have hdone : s' = (s.countRead.sendSamples
          (listForRunSince s.samples s.lastTick)).finish (.done outcome) := by
        rw [← h]
        unfold readSamples
        dsimp only
        split
        · rename_i hnone
          cases hnone
        · rename_i hrunning
          cases hrunning
          exact absurd rfl hended
        · rename_i houtcome
          cases houtcome
          rfl
      obtain ⟨initial, closing, t⟩ := horderly.transcript
      have hclosed : closing.isSome = true := t.closed.mpr (by rw [hdone]; rfl)
      obtain ⟨event, rfl⟩ := Option.isSome_iff_exists.mp hclosed
      have hevent : event = .done outcome := by
        have hevents := t.events
        rw [hdone] at hevents
        have hlast := congrArg List.getLast? hevents
        simpa [finish] using hlast.symm
      rcases t.closes event rfl with ⟨error, herror⟩ | ⟨_, _, _, hall, _⟩
      · rw [hevent] at herror
        cases herror
      · -- The table is empty, so the sample stays unsent.
        have hsamples : s.samples = [] := by
          have htable := inv.table
          split at htable
          · rw [htable] at hgone
            exact absurd hrow hgone
          · exact htable
        have hsame : s'.sent = s.sent := by
          rw [hdone]
          show (s.countRead.sendSamples (listForRunSince s.samples s.lastTick)).sent = s.sent
          refine hsent.trans ?_
          show s.sent ++ listForRunSince s.samples s.lastTick = s.sent
          rw [hsamples]
          exact List.append_nil _
        have hrecorded : s'.recorded = s.recorded := by
          rw [hdone]
          rfl
        rw [hsame, hrecorded] at hall
        rw [← hall] at hrow
        exact absurd (mem_upTo.mp hrow).2 (not_le.mpr hafter)

end StreamSystem

/-! ### The stream -/

section Stream

variable {new : NewTuneRun} {id : ℕ} {actions : List StreamAction} {s : StreamSystem}

theorem orderly_start (new : NewTuneRun) (id : ℕ) : (StreamSystem.start new id).Orderly where
  increasing := .nil
  transcript := ⟨none, none, rfl, rfl, by simp [StreamSystem.sent, StreamSystem.start, upTo],
    by simp [StreamSystem.start], by simp⟩
  polling := nofun
  sampling := nofun

theorem streamInv_of_run (h : Run (stepOf StreamSystem.step) (.start new id) actions s) :
    s.StreamInv :=
  h.invariant (StreamSystem.streamInv_start new id) fun _ _ _ inv hstep => inv.step hstep

/-- **The event stream of a run.**  However the statements of the run, its deletion and the reads of
the stream interleave: a subscriber sees what it should, and the stream ends with the run, in every
state that is reached, if and only if no second read of a poll disturbs it. -/
theorem stream_orderly_iff (new : NewTuneRun) (id : ℕ) (actions : List StreamAction) :
    (∀ before rest s, actions = before ++ rest →
        Run (stepOf StreamSystem.step) (.start new id) before s → s.Orderly) ↔
      along StreamSystem.step StreamSystem.undisturbed (.start new id) actions = true := by
  constructor
  · intro horderly
    by_contra hnot
    obtain ⟨before, a, rest, s, hactions, hbefore, hdisturbed⟩ := exists_of_not_along hnot
    have inv := streamInv_of_run hbefore
    obtain ⟨s', hstep⟩ := StreamSystem.step_of_disturbs hdisturbed
    refine StreamSystem.not_orderly inv hstep hdisturbed ?_
    exact horderly (before ++ [a]) rest s' (by simp [hactions]) (hbefore.concat hstep)
  · rintro hundisturbed before rest s rfl hbefore
    -- The induction is on the actions before, whose last is undisturbed like all of them.
    refine hbefore.invariant_at (orderly_start new id) ?_
    intro before' a rest' s₁ s₂ hbefore' hrun horderly hstep
    have inv := streamInv_of_run hrun
    rw [hbefore', List.append_assoc, List.cons_append] at hundisturbed
    exact horderly.step inv hstep (at_of_along hundisturbed hrun)

end Stream


/-! ### Streams that a read disturbs -/

/-- The readings of FC1 before its tune. -/
def flowReadings : TuneRunInitialReadings where
  pvIni := 20
  mvIni := 40
  mvRangeLow := 0
  mvRangeHigh := 100
  pvRangeHigh := 100
  pvRangeLow := 0
  controllerDirection := .reverse
  modeRaw := none
  modeAttributeRaw := none
  setpointIni := none

/-- The first sample of FC1. -/
def flowSample : TuneSampleRow where
  tickIndex := 0
  sample := ⟨1, 20⟩
  state := ⟨0, 40, 1, 0, 0, 4⟩
  pvQuality := .good

/-- The run is deleted while its stream is open. -/
def vanishes : List StreamAction :=
  [.subscribe false, .readRun none, .readSamples none, .deleteRun]

/-- One poll. -/
def wholePoll : List StreamAction := [.readRun none, .readSamples none]

/-- The readings and a sample are recorded between the two reads of a poll. -/
def overtakes : List StreamAction :=
  [.subscribe false, .readRun none, .updateRun (.initialReadings flowReadings),
    .insertSample flowSample, .readSamples none]

/-- The run is deleted between the two reads of the last poll. -/
def leavesOut : List StreamAction :=
  [.updateRun (.initialReadings flowReadings), .subscribe false, .readRun none, .readSamples none,
    .insertSample flowSample, .updateRun (.completed 2), .readRun none, .deleteRun,
    .readSamples none]

/-- A poll of a run that is gone changes nothing but the count of late reads. -/
theorem exec_polls_gone (n : ℕ) (s : StreamSystem) (hrun : s.run = none) (hsamples : s.samples = [])
    (hphase : s.phase = .polling) :
    ∃ s', exec StreamSystem.step s (List.replicate n wholePoll).flatten = some s' ∧
      s'.phase = .polling ∧ s'.run = none ∧ s'.events = s.events := by
  induction n generalizing s with
  | zero => exact ⟨s, rfl, hphase, hrun, rfl⟩
  | succ n ih =>
    have hover : s.isOver = true := by simp [StreamSystem.isOver, hrun]
    let s' : StreamSystem := { s with lateReads := s.lateReads + 2 }
    obtain ⟨s'', hexec, hpolling, hgone, hevents⟩ := ih s' hrun hsamples hphase
    have hpoll : exec StreamSystem.step s (wholePoll ++ (List.replicate n wholePoll).flatten) =
        exec StreamSystem.step s' (List.replicate n wholePoll).flatten := by
      obtain ⟨run, samples, recorded, phase, limited, lastTick, sentInitial, events, late⟩ := s
      cases hrun
      cases hsamples
      cases hphase
      simp [exec, wholePoll, StreamSystem.step, StreamSystem.countRead, StreamSystem.readRun,
        StreamSystem.readSamples, StreamSystem.sendSamples, listForRunSince, StreamSystem.isOver, s']
    refine ⟨s'', ?_, hpolling, hgone, hevents⟩
    rw [List.replicate_succ, List.flatten_cons, hpoll]
    exact hexec

/-- A stream whose run is deleted polls on for ever without an event; a sample is seen and no
readings were; an outcome is seen without the sample that was recorded before it. -/
theorem stream_disturbed :
    (∀ n, ∃ s, exec StreamSystem.step (.start flowRun 1)
        (vanishes ++ (List.replicate n wholePoll).flatten) = some s ∧
        s.run = none ∧ s.phase = .polling ∧ s.events = []) ∧
      (exec StreamSystem.step (.start flowRun 1) overtakes).map StreamSystem.events =
        some [.sample flowSample] ∧
      (exec StreamSystem.step (.start flowRun 1) leavesOut).map StreamSystem.events =
        some [.initial flowReadings, .done .completed] := by
  refine ⟨?_, by decide, by decide⟩
  intro n
  rw [exec_append]
  let s : StreamSystem :=
    { run := none, phase := .polling }
  have hvanishes : exec StreamSystem.step (.start flowRun 1) vanishes = some s := by decide
  obtain ⟨s', hexec, hpolling, hrun, hevents⟩ := exec_polls_gone n s rfl rfl rfl
  exact ⟨s', by rw [hvanishes]; exact hexec, hrun, hpolling, hevents⟩

end Bhtune
