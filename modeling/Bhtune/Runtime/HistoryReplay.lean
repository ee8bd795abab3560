import Mathlib.Data.List.TakeWhile
import Bhtune.Runtime.RecordedHistory
import Bhtune.Runtime.TerminalOutcome

/-!
# The history of a completed run replays

The polling loop stores a replay; the results are stored before the restore begins, and nothing the
run does afterwards is a part of its history.

* `ExplainsRun` — what the history of a run explains;
* `EndsExplained` — how every part of a run leaves the record;
* `history_replays` — the whole run.
-/

namespace Bhtune

open Effect EventLog

/-! ### What a history explains -/

/-- The run is on record as completed. -/
def Event.Completes : Event → Prop
  | .db (.completeRun _) (.ok _) => True
  | _ => False

instance : DecidablePred Event.Completes
  | .db (.completeRun _) (.ok _) => .isTrue trivial
  | .db (.completeRun _) (.error _) => .isFalse id
  | .db (.recordInitialReadings _) _ | .db (.persistRestoreIntent _) _ | .db (.insertPending _) _
  | .db (.recordObservation _ _ _ _) _ | .db (.recordFinalObservation _ _ _ _ _ _) _
  | .db (.finalize _ _ _) _ | .db (.finalizePendingForRun _ _) _
  | .db (.insertSample _ _ _ _) _ | .db (.insertResult _) _ | .db .listResults _
  | .db (.recordRestoreStatus _) _ | .db (.abortRun _ _) _ | .db (.recordTimingMetrics _) _
  | .db .readLiveOwner _ | .db (.persistPidRestoreIntent _) _ | .db (.insertWrite _) _
  | .db (.failRun _) _ | .db .releaseOwnership _ => .isFalse id
  | .read _ => .isFalse id
  | .write _ => .isFalse id
  | .mark _ => .isFalse id

/-- **The history explains the run.**  With the samples of the polling loop in tick order, a fresh
engine on those at or after the pre-delay goes through the stored states and does at each tick what
the engine of the run did.  It completes once, and the stored results are those of its
completion. -/
structure ExplainsRun (ctx : RunContext) (initial : InitialState) (record : List Event) : Prop where
  order : (pollSamples record).map (·.tickIndex) = List.range (pollSamples record).length
  early : ∀ x ∈ pollSamples record, x.tick.time < ctx.relayStart →
    x.state = (runEngine ctx initial).state ctx.arith
  states : (replay ctx initial ((ctx.fed (pollSamples record)).map (·.tick))).map
    (fun r => r.1.state ctx.arith) = (ctx.fed (pollSamples record)).map (·.state)
  actions : record.filterMap Event.evaluation? =
    ((ctx.fed (pollSamples record)).map (·.tick)).zip
      ((replay ctx initial ((ctx.fed (pollSamples record)).map (·.tick))).map (·.2))
  results : ∃ peaks troughs switchTimes mvSignInit results,
    ((replay ctx initial ((ctx.fed (pollSamples record)).map (·.tick))).flatMap (·.2)).filter
        Action.isCompletion = [.complete peaks troughs switchTimes mvSignInit] ∧
      calculateAllChecked peaks troughs switchTimes mvSignInit initial.direction ctx.config
        ⟨initial.pvRangeHigh, initial.pvRangeLow⟩ ctx.template = .ok results ∧
      record.filterMap Event.result? = results.map TuneResultRow.fromChecked

section Record

variable {ctx : RunContext} {initial : InitialState} {record new : List Event}

/-- An event that comes before the loop. -/
structure Event.Leads (e : Event) : Prop where
  sample : e.sample? = none
  result : e.result? = none
  evaluation : e.evaluation? = none
  polling : e ≠ .mark .restoreBegan

/-- An event that comes after the beginning of the restore. -/
structure Event.Trails (e : Event) : Prop where
  result : e.result? = none
  readings : e.readings? = none
  evaluation : e.evaluation? = none

theorem leads_of_not_telling {e : Event} (h : ¬e.Telling) : e.Leads :=
  ⟨sample?_of_not_telling h, (ofLoop_of_not_telling h).result, evaluation?_of_not_telling h,
    (ofLoop_of_not_telling h).polling⟩

theorem trails_of_not_telling {e : Event} (h : ¬e.Telling) : e.Trails :=
  ⟨(ofLoop_of_not_telling h).result, (ofLoop_of_not_telling h).readings,
    evaluation?_of_not_telling h⟩

theorem filterMap_nil {β : Type} {f : Event → Option β} (h : ∀ e ∈ new, f e = none) :
    new.filterMap f = [] := List.filterMap_eq_nil_iff.mpr h

theorem pollSamples_lead (h : ∀ e ∈ new, e.Leads) :
    pollSamples (new ++ record) = pollSamples record := by
  have hall : ∀ e ∈ new, decide (e ≠ .mark .restoreBegan) = true := fun e he =>
    decide_eq_true (h e he).polling
  unfold pollSamples
  rw [List.takeWhile_append_of_pos hall, List.filterMap_append,
    filterMap_nil fun e he => (h e he).sample]
  rfl

/-- The samples before the restore are those before its beginning. -/
theorem pollSamples_restore (h : ∀ e ∈ record, e ≠ .mark .restoreBegan) (rest : List Event) :
    pollSamples (record ++ .mark .restoreBegan :: rest) = record.filterMap Event.sample? := by
  have hall : ∀ e ∈ record, decide (e ≠ .mark .restoreBegan) = true := fun e he =>
    decide_eq_true (h e he)
  unfold pollSamples
  rw [List.takeWhile_append_of_pos hall, List.takeWhile_cons_of_neg (by simp), List.append_nil]

theorem pollSamples_quiet (h : ∀ e ∈ new, ¬e.Telling) :
    pollSamples (record ++ new) = pollSamples record := by
  have hnew : ∀ e ∈ new, decide (e ≠ .mark .restoreBegan) = true := fun e he =>
    decide_eq_true (ofLoop_of_not_telling (h e he)).polling
  unfold pollSamples
  rw [List.takeWhile_append]
  split
  · rw [List.takeWhile_eq_self_iff.mpr hnew, List.filterMap_append, samples_of_quiet h,
      List.append_nil]
    rename_i hlength
    rw [(List.takeWhile_prefix _).eq_of_length hlength]
  · rfl

theorem ExplainsRun.lead (h : ExplainsRun ctx initial record) (hnew : ∀ e ∈ new, e.Leads) :
    ExplainsRun ctx initial (new ++ record) := by
  have hsamples : pollSamples (new ++ record) = pollSamples record := pollSamples_lead hnew
  have hevaluations : (new ++ record).filterMap Event.evaluation? =
      record.filterMap Event.evaluation? := by
    rw [List.filterMap_append, filterMap_nil fun e he => (hnew e he).evaluation]
    rfl
  have hresults : (new ++ record).filterMap Event.result? = record.filterMap Event.result? := by
    rw [List.filterMap_append, filterMap_nil fun e he => (hnew e he).result]
    rfl
  constructor
  · rw [hsamples]
    exact h.order
  · rw [hsamples]
    exact h.early
  · rw [hsamples]
    exact h.states
  · rw [hsamples, hevaluations]
    exact h.actions
  · rw [hsamples, hresults]
    exact h.results

theorem ExplainsRun.quiet (h : ExplainsRun ctx initial record) (hnew : ∀ e ∈ new, ¬e.Telling) :
    ExplainsRun ctx initial (record ++ new) := by
  have hsamples : pollSamples (record ++ new) = pollSamples record := pollSamples_quiet hnew
  have hevaluations : (record ++ new).filterMap Event.evaluation? =
      record.filterMap Event.evaluation? := by
    rw [List.filterMap_append, evaluations_of_quiet hnew, List.append_nil]
  have hresults : (record ++ new).filterMap Event.result? = record.filterMap Event.result? := by
    rw [List.filterMap_append,
      filterMap_nil fun e he => (ofLoop_of_not_telling (hnew e he)).result, List.append_nil]
  constructor
  · rw [hsamples]
    exact h.order
  · rw [hsamples]
    exact h.early
  · rw [hsamples]
    exact h.states
  · rw [hsamples, hevaluations]
    exact h.actions
  · rw [hsamples, hresults]
    exact h.results

end Record

/-! ### The parts of the run -/

section Parts

variable {ctx : RunContext} {initial : InitialState} {s : Sys} {base : List Event}

theorem not_completes_of_open {e : Event} (h : ¬e.Closes) : ¬e.Completes := by
  cases e with
  | db op result => cases op <;> first | exact absurd trivial h | exact id
  | _ => exact id

theorem not_completes_of_ordinary (e : Event) (h : e.Ordinary ctx initial) : ¬e.Completes :=
  not_completes_of_open h.1.1

theorem Event.EntersManual.not_telling {e : Event} (h : e.EntersManual) : ¬e.Telling := by
  cases e with
  | db op result => exact h.elim
  | read call => exact h.elim
  | write call => exact id
  | mark m => cases m <;> first | exact h.elim | exact id

/-- The frame of what does not complete the run. -/
abbrev uncompleted : Frame Sys := within (fun e => ¬e.Completes) fun _ => ()

/-- The frame of what comes after the beginning of the restore. -/
abbrev trailing : Frame Sys := within Event.Trails fun _ => ()

theorem trailing_audits (e : Event) (hsilent : e.Silent) (haudits : e.Audits) : e.Trails :=
  trails_of_not_telling (haudits.minor.not_telling hsilent)

theorem trails_write (call : WriteCall) : Event.Trails (.write call) :=
  trails_of_not_telling id

/-- What is stored between the loop and the restore: the results of the action, one by one. -/
theorem insertResults_stores (results : List (CheckedTuningResult ℚ)) :
    wlp (insertResults results) (fun _ s' => ∃ new, s'.trace = s.trace ++ new ∧
      new.filterMap Event.result? = results.map TuneResultRow.fromChecked ∧
      ∀ e ∈ new, ∃ row id, e = .db (.insertResult row) (.ok id)) s := by
  induction results generalizing s with
  | nil => exact ⟨[], (List.append_nil _).symm, rfl, by simp⟩
  | cons result rest ih =>
    refine wlp_seq (wp_mono (runStatement_ends _) (fun _ _ h => h) fun _ _ _ => trivial) ?_
    rintro _ s₁ ⟨id, hfirst⟩
    refine wlp_mono ih ?_
    rintro _ s₂ ⟨new, htrace, hrows, hnew⟩
    refine ⟨.db (.insertResult (TuneResultRow.fromChecked result)) (.ok id) :: new, ?_, ?_, ?_⟩
    · rw [htrace, hfirst, List.append_assoc]
      rfl
    · rw [List.map_cons, ← hrows]
      rfl
    · intro e he
      rcases List.mem_cons.mp he with heq | he
      · exact ⟨_, _, heq⟩
      · exact hnew e he

theorem persistResults_stores (action : Action ℚ) :
    wlp (persistResults ctx initial action) (fun _ s' =>
      ∃ peaks troughs switchTimes mvSignInit results new,
        action = .complete peaks troughs switchTimes mvSignInit ∧
        calculateAllChecked peaks troughs switchTimes mvSignInit initial.direction ctx.config
          ⟨initial.pvRangeHigh, initial.pvRangeLow⟩ ctx.template = .ok results ∧
        s'.trace = s.trace ++ new ∧
        new.filterMap Event.result? = results.map TuneResultRow.fromChecked ∧
        ∀ e ∈ new, ∃ row id, e = .db (.insertResult row) (.ok id)) s := by
  cases action with
  | writeMv v => trivial
  | complete peaks troughs switchTimes mvSignInit =>
    unfold persistResults
    dsimp only
    split
    · rename_i results hresults
      refine wlp_mono (insertResults_stores results) ?_
      rintro _ s' ⟨new, hnew⟩
      exact ⟨peaks, troughs, switchTimes, mvSignInit, results, new, rfl, hresults, hnew⟩
    · trivial

/-! ### The restore and what follows it -/

theorem trails_mark (m : Mark) (h : Event.evaluation? (.mark m) = none) :
    Event.Trails (.mark m) := ⟨rfl, rfl, h⟩

theorem trails_later (e : Event) (h : e.RestoresLater) : e.Trails := by
  cases e with
  | read call => exact h.elim
  | db op result => exact h.elim
  | write call => exact trails_write call
  | mark m =>
    cases m with
    | laterSteps policy => exact trails_mark _ rfl
    | _ => exact h.elim

/-- However `x` ends, it began the restore, and nothing after that is of the loop. -/
def OpensRestore {α : Type} (x : Io α) : Prop :=
  ∀ s : Sys, wp x
    (fun _ s' => ∃ rest, s'.trace = s.trace ++ .mark .restoreBegan :: rest ∧ ∀ e ∈ rest, e.Trails)
    (fun _ s' => ∃ rest, s'.trace = s.trace ++ .mark .restoreBegan :: rest ∧ ∀ e ∈ rest, e.Trails)
    s

namespace OpensRestore

variable {α β : Type}

theorem mark {f : Unit → Io α} (hf : Keeps trailing (f ())) :
    OpensRestore (Bhtune.mark .restoreBegan >>= f) := by
  intro s
  have hrest : ∀ s' : Sys, trailing.rel { s with trace := s.trace ++ [.mark .restoreBegan] } s' →
      ∃ rest, s'.trace = s.trace ++ .mark .restoreBegan :: rest ∧ ∀ e ∈ rest, e.Trails := by
    intro s' hrel
    obtain ⟨rest, htrace, hmem⟩ := hrel.1
    exact ⟨rest, by rw [htrace, List.append_assoc]; rfl, hmem⟩
  exact wp_bind.mpr ((wp_mark _).mpr (wp_mono (hf _) (fun _ => hrest) fun _ => hrest))

theorem bind {x : Io β} {f : β → Io α} (hx : OpensRestore x) (hf : ∀ b, Keeps trailing (f b)) :
    OpensRestore (x >>= f) := by
  intro s
  refine wp_bind.mpr (wp_mono (hx s) ?_ fun _ _ h => h)
  intro b s₁ hopened
  obtain ⟨rest, htrace, hmem⟩ := hopened
  have hmore : ∀ s' : Sys, trailing.rel s₁ s' →
      ∃ rest, s'.trace = s.trace ++ .mark .restoreBegan :: rest ∧ ∀ e ∈ rest, e.Trails := by
    intro s' hrel
    obtain ⟨more, hmore, hmem'⟩ := hrel.1
    refine ⟨rest ++ more, by rw [hmore, htrace, List.append_assoc]; rfl, ?_⟩
    intro e he
    rcases List.mem_append.mp he with he | he
    · exact hmem e he
    · exact hmem' e he
  exact wp_mono (hf b s₁) (fun _ => hmore) fun _ => hmore

end OpensRestore

theorem opens_attemptRestore (fuel : ℕ) (completion : Option SettlingInput)
    (measuredOscillationPeriodMs : Option (XNum ℚ)) (policy : ActuationAuditPolicy) :
    OpensRestore (attemptRestore fuel ctx initial completion measuredOscillationPeriodMs
      policy) := by
  have hstart : ∀ f, Keeps trailing (modifyProgram f) := fun _ => keeps_modifyProgram fun _ => rfl
  have hstep : Keeps trailing (restoreMvWithVerification fuel ctx initial.mvIni policy) :=
    keeps_mvStep trailing_audits (fun _ _ => trails_of_not_telling id) (fun _ _ => rfl)
      (fun _ _ => rfl) (fun call _ => trails_write call)
      (fun _ => trails_mark _ rfl) fuel policy
  refine .mark (Keeps.bind ?_ fun attempt => (keeps_mark (trails_mark _ rfl)).bind fun _ => .pure _)
  refine keeps_now.bind fun start => (hstart _).bind fun _ => (keeps_tryErr hstep).bind fun r => ?_
  cases restoreMvOutcomeOrFailed r with
  | interrupted reason => exact .pure _
  | «continue» mv =>
    exact keeps_afterMvStep (fun e h _ => trails_later e h) (fun _ => trails_of_not_telling id)
      (fun _ => trails_mark _ rfl) (fun _ => trails_mark _ rfl) (fun _ _ => rfl) (fun _ _ => rfl)
      _ _ _ _ fun _ _ _ _ _ _ => ⟨rfl, rfl, rfl⟩

/-- **The end of a completed run** begins with the restore. -/
theorem opens_finishPersistedRun (fuel : ℕ) (writePid : Option ResponseLevel)
    (hasHandler : Bool) (ownership : Option LiveOperationGuard) (completion : SettlingInput)
    (measuredOscillationPeriodMs : Option (XNum ℚ)) :
    OpensRestore (finishPersistedRun fuel ctx initial writePid hasHandler ownership completion
      measuredOscillationPeriodMs) := by
  have hstatement : ∀ op, ¬op.Stores → Keeps trailing (runStatement op) := fun op hop =>
    keeps_runStatement fun _ => trails_of_not_telling hop
  refine OpensRestore.bind ((opens_attemptRestore _ _ _ _).bind fun _ =>
    (keeps_bestEffort (hstatement _ id)).bind fun _ =>
      (keeps_bestEffort (hstatement _ id)).bind fun _ => .pure _) fun attempt =>
    Keeps.get.bind fun _ => (hstatement _ id).bind fun _ => ?_
  cases attempt with
  | confirmed =>
    have hback : Keeps trailing (maybeWriteBack ctx writePid hasHandler ownership) :=
      keeps_maybeWriteBack (fun _ => trails_of_not_telling id) (fun call _ => trails_write call)
        (fun _ _ h => trails_of_not_telling h.ordinary.2) _ _ _ _
    exact hback.bind fun _ => .pure _
  | incomplete reason => exact .pure _

/-! ### What a completed run leaves -/

/-- The samples of the loop, the results of its completion and a restore make a history that
explains the run. -/
theorem explainsRun_of_replayed {record rows rest : List Event} {tickIndex : ℕ}
    {peaks troughs : List ℚ} {switchTimes : List UtcTime} {mvSignInit : ℤ}
    {results : List (CheckedTuningResult ℚ)} {engine : MrftEngine ℚ} {floor : UtcTime}
    (hloop : ∀ e ∈ record, e.OfLoop)
    (hreplayed : Replayed ctx initial (record.filterMap Event.sample?)
      (record.filterMap Event.evaluation?) tickIndex
      (some (.complete peaks troughs switchTimes mvSignInit)) engine floor)
    (hresults : calculateAllChecked peaks troughs switchTimes mvSignInit initial.direction
      ctx.config ⟨initial.pvRangeHigh, initial.pvRangeLow⟩ ctx.template = .ok results)
    (hrows : rows.filterMap Event.result? = results.map TuneResultRow.fromChecked)
    (hinserts : ∀ e ∈ rows, ∃ row id, e = .db (.insertResult row) (.ok id))
    (hrest : ∀ e ∈ rest, e.Trails) :
    ExplainsRun ctx initial (record ++ rows ++ .mark .restoreBegan :: rest) := by
  have hpolling : ∀ e ∈ record ++ rows, e ≠ .mark .restoreBegan := by
    intro e he
    rcases List.mem_append.mp he with he | he
    · exact (hloop e he).polling
    · obtain ⟨row, id, heq⟩ := hinserts e he
      rw [heq]
      exact nofun
  have hsilent : ∀ {β : Type} {f : Event → Option β},
      (∀ row id, f (.db (.insertResult row) (.ok id)) = none) → rows.filterMap f = [] := by
    intro β f hf
    refine filterMap_nil fun e he => ?_
    obtain ⟨row, id, heq⟩ := hinserts e he
    rw [heq]
    exact hf row id
  have hsamples : pollSamples (record ++ rows ++ .mark .restoreBegan :: rest) =
      record.filterMap Event.sample? := by
    rw [pollSamples_restore hpolling, List.filterMap_append, hsilent fun _ _ => rfl,
      List.append_nil]
  have hevaluations : (record ++ rows ++ .mark .restoreBegan :: rest).filterMap
      Event.evaluation? = record.filterMap Event.evaluation? := by
    rw [List.filterMap_append, List.filterMap_append, hsilent fun _ _ => rfl, List.append_nil,
      List.filterMap_cons_none rfl, filterMap_nil fun e he => (hrest e he).evaluation,
      List.append_nil]
  have hstored : (record ++ rows ++ .mark .restoreBegan :: rest).filterMap Event.result? =
      results.map TuneResultRow.fromChecked := by
    rw [List.filterMap_append, List.filterMap_append, filterMap_nil fun e he => (hloop e he).result,
      hrows, List.filterMap_cons_none rfl, filterMap_nil fun e he => (hrest e he).result,
      List.append_nil]
    rfl
  have hlength : (record.filterMap Event.sample?).length = tickIndex := by
    simpa using congrArg List.length hreplayed.order
  constructor
  · rw [hsamples, hlength]
    exact hreplayed.order
  · rw [hsamples]
    exact hreplayed.early
  · rw [hsamples]
    exact hreplayed.states
  · rw [hsamples, hevaluations]
    exact hreplayed.actions
  · rw [hsamples, hstored]
    exact ⟨peaks, troughs, switchTimes, mvSignInit, results, hreplayed.completes, hresults, rfl⟩

/-- From `base` on the run has not completed, or its history explains it. -/
def Explained (ctx : RunContext) (initial : InitialState) (base trace : List Event) : Prop :=
  ∃ new, trace = base ++ new ∧ ((∀ e ∈ new, ¬e.Completes) ∨
    ExplainsRun ctx initial new ∧ ∀ e ∈ new, e.readings? = none)

/-- However `x` ends, the run has not completed, or its history explains it. -/
def EndsExplained {α : Type} (ctx : RunContext) (initial : InitialState) (base : List Event)
    (x : Io α) (s : Sys) : Prop :=
  wp x (fun _ s' => Explained ctx initial base s'.trace)
    (fun _ s' => Explained ctx initial base s'.trace) s

section EndsExplained

variable {α β : Type}

theorem EndsExplained.open {x : Io α} (h : Appends (fun e => ¬e.Completes) base s.trace)
    (hx : Keeps uncompleted x) : EndsExplained ctx initial base x s := by
  have hends : ∀ s' : Sys, uncompleted.rel s s' → Explained ctx initial base s'.trace := by
    intro s' hrel
    obtain ⟨new, htrace, hnew⟩ := h.trans hrel.1
    exact ⟨new, htrace, .inl hnew⟩
  exact wp_mono (hx s) (fun _ => hends) fun _ => hends

theorem EndsExplained.seq {x : Io β} {f : β → Io α} {M : β → Sys → Prop}
    (h : Appends (fun e => ¬e.Completes) base s.trace) (hx : Keeps uncompleted x)
    (hm : wlp x M s)
    (hf : ∀ b s', M b s' → Appends (fun e => ¬e.Completes) base s'.trace →
      EndsExplained ctx initial base (f b) s') :
    EndsExplained ctx initial base (x >>= f) s := by
  refine wp_bind.mpr (wp_mono (hx.and_wp hm) ?_ ?_)
  · intro b s' hb
    exact hf b s' hb.2 (h.trans hb.1.1)
  · intro fault s' hfault
    obtain ⟨new, htrace, hnew⟩ := h.trans hfault.1.1
    exact ⟨new, htrace, .inl hnew⟩

end EndsExplained

variable {before : List Event} {fuel tickIndex : ℕ} {floor : UtcTime} {hasHandler : Bool}
variable {writePid : Option ResponseLevel} {ownership : Option LiveOperationGuard}

/-- A restore that follows the results of a replay. -/
theorem explained_of_restore {record rows rest trace : List Event} (hbefore : ∀ e ∈ before, ¬e.Telling)
    (htrace : trace = base ++ before ++ record ++ rows ++ .mark .restoreBegan :: rest)
    (hloop : ∀ e ∈ record, e.OfLoop)
    (hinserts : ∀ e ∈ rows, ∃ row id, e = .db (.insertResult row) (.ok id))
    (hrest : ∀ e ∈ rest, e.Trails)
    (hexplains : ExplainsRun ctx initial (record ++ rows ++ .mark .restoreBegan :: rest)) :
    Explained ctx initial base trace := by
  refine ⟨before ++ (record ++ rows ++ .mark .restoreBegan :: rest), ?_, .inr ⟨?_, ?_⟩⟩
  · simp only [htrace, List.append_assoc]
  · exact hexplains.lead fun e he => leads_of_not_telling (hbefore e he)
  · intro e he
    rcases List.mem_append.mp he with he | he
    · exact (ofLoop_of_not_telling (hbefore e he)).readings
    · rcases List.mem_append.mp he with he | he
      · rcases List.mem_append.mp he with he | he
        · exact (hloop e he).readings
        · obtain ⟨row, id, heq⟩ := hinserts e he
          rw [heq]
          rfl
      · rcases List.mem_cons.mp he with heq | he
        · rw [heq]
          rfl
        · exact (hrest e he).readings

theorem finishCompletedRun_explained {action : Action ℚ} (hbefore : ∀ e ∈ before, ¬e.Telling)
    (hrecorded : Recorded ctx initial (base ++ before) tickIndex (some action) floor s)
    (hopen : Appends (fun e => ¬e.Completes) base s.trace) (completion : SettlingInput)
    (period : Option (XNum ℚ)) :
    EndsExplained ctx initial base (finishCompletedRun fuel ctx initial writePid hasHandler
      ownership action completion period) s := by
  obtain ⟨record, htrace, hloop, hreplayed⟩ := hrecorded.record
  refine .seq hopen (keeps_tryErr (keeps_persistResults
    (fun _ _ hclosed => not_completes_of_open hclosed) ctx initial action))
    (wlp_tryErr (wp_mono (persistResults_stores action) (fun _ _ hstored => hstored)
      fun _ _ _ _ _ => trivial) : wlp _ (fun r s' => match r with
        | .ok _ => ∃ peaks troughs switchTimes mvSignInit results new,
          action = .complete peaks troughs switchTimes mvSignInit ∧
          calculateAllChecked peaks troughs switchTimes mvSignInit initial.direction ctx.config
            ⟨initial.pvRangeHigh, initial.pvRangeLow⟩ ctx.template = .ok results ∧
          s'.trace = s.trace ++ new ∧
          new.filterMap Event.result? = results.map TuneResultRow.fromChecked ∧
          ∀ e ∈ new, ∃ row id, e = .db (.insertResult row) (.ok id)
        | .error _ => True) s) ?_
  intro r s₁ hr hopen₁
  cases r with
  | error e => exact .open hopen₁ (keeps_unpersisted not_completes_of_ordinary fuel _ _ e)
  | ok _ =>
    obtain ⟨peaks, troughs, switchTimes, mvSignInit, results, rows, rfl, hresults, hstored, hrows,
      hinserts⟩ := hr
    have hends : ∀ s' : Sys, (∃ rest, s'.trace = s₁.trace ++ .mark .restoreBegan :: rest ∧
        ∀ e ∈ rest, e.Trails) → Explained ctx initial base s'.trace := by
      intro s' hopened
      obtain ⟨rest, hafter, hrest⟩ := hopened
      refine explained_of_restore hbefore ?_ hloop hinserts hrest
        (explainsRun_of_replayed hloop hreplayed hresults hrows hinserts hrest)
      rw [hafter, hstored, htrace]
    exact wp_mono (opens_finishPersistedRun _ _ _ _ _ _ s₁) (fun _ => hends) fun _ => hends

theorem pollAndFinish_explained (hbefore : ∀ e ∈ before, ¬e.Telling)
    (htrace : s.trace = base ++ before)
    (hopen : Appends (fun e => ¬e.Completes) base s.trace) :
    EndsExplained ctx initial base (pollAndFinish fuel ctx initial writePid hasHandler ownership)
      s := by
  refine .seq hopen (keeps_tryErr (keeps_pollFresh not_completes_of_ordinary fuel))
    (wlp_tryErr (wp_mono (pollFresh_ends fuel) (fun _ _ hpolled => hpolled)
      fun _ _ _ _ _ => trivial) : wlp _ (fun r s' => match r with
        | .ok outcome => ∀ action state next, outcome = .completed action state next →
          ∃ tickIndex floor, Recorded ctx initial s.trace tickIndex (some action) floor s'
        | .error _ => True) s) ?_
  intro pollResult s₁ hpolled hopen₁
  refine .seq hopen₁ (keeps_completedOscillationPeriodMs _ _ _)
    (wp_mono (completedOscillationPeriodMs_spec pollResult) (fun _ _ heq => heq)
      fun _ _ _ => trivial) ?_
  rintro period s₂ rfl hopen₂
  refine wp_bind.mpr (wp_get.mpr ?_)
  match pollResult with
  | .error error =>
    exact EndsExplained.open hopen₂ (keeps_finishFailedRun not_completes_of_ordinary fuel error _)
  | .ok (.aborted reason) =>
    exact EndsExplained.open hopen₂ (keeps_finishAbortedRun not_completes_of_ordinary
      (fun _ _ _ => id) fuel reason _)
  | .ok (.completed action state next) =>
    obtain ⟨tickIndex, floor, hrecorded⟩ := hpolled action state next rfl
    rw [htrace] at hrecorded
    exact finishCompletedRun_explained hbefore hrecorded hopen₂ _ period

/-- **The part of the run that mutates the loop.** -/
theorem executeMutating_explained :
    EndsExplained ctx initial s.trace (executeMutating fuel ctx initial writePid hasHandler
      ownership) s := by
  refine wp_bind.mpr ((wp_modifyProgram _).mpr ?_)
  have hentering : Keeps (within (fun e => ¬e.Telling ∧ ¬e.Completes) fun _ => ())
      (tryErr (transitionToManual ctx initial)) :=
    keeps_tryErr (within_mono (keeps_transitionToManual ctx initial)
      (fun _ hentered => ⟨hentered.1.not_telling, not_completes_of_open (hentered.2 initial).1⟩)
      fun _ _ h => h)
  refine EndsExplained.seq (.refl _) (within_mono hentering (fun _ h => h.2) fun _ _ h => h)
    (wp_mono (hentering _) (fun _ _ hrel => hrel.1.mono fun _ h => h.1) fun _ _ _ => trivial) ?_
  intro entered s₁ hbefore hopen
  cases entered with
  | error e => exact .open hopen (keeps_notEntered not_completes_of_ordinary fuel e)
  | ok _ =>
    obtain ⟨before, htrace, hbefore⟩ := hbefore
    exact pollAndFinish_explained hbefore htrace hopen

/-- The frame of what tells nothing of the history and does not complete the run. -/
abbrev aside : Frame Sys := within (fun e => ¬e.Telling ∧ ¬e.Completes) fun _ => ()

/-- The initial readings are recorded, and nothing else that tells. -/
def Introduced (initial : InitialState) (base trace : List Event) : Prop :=
  ∃ new, trace = base ++ new ∧ new.filterMap Event.readings? = [initial] ∧
    ∀ e ∈ new, e.Leads ∧ ¬e.Completes

theorem Introduced.aside {s' : Sys} (h : Introduced initial base s.trace)
    (hrel : aside.rel s s') : Introduced initial base s'.trace := by
  obtain ⟨new, htrace, hreadings, hnew⟩ := h
  obtain ⟨more, hmore, hquiet⟩ := hrel.1
  refine ⟨new ++ more, by rw [hmore, htrace, List.append_assoc], ?_, ?_⟩
  · rw [List.filterMap_append, hreadings,
      filterMap_nil fun e he => (ofLoop_of_not_telling (hquiet e he).1).readings]
    rfl
  · intro e he
    rcases List.mem_append.mp he with he | he
    · exact hnew e he
    · exact ⟨leads_of_not_telling (hquiet e he).1, (hquiet e he).2⟩

/-- **What is recorded before the loop is mutated.** -/
theorem prepareExecution_introduces :
    wlp (prepareExecution ctx ownership)
      (fun initial s' => Introduced initial s.trace s'.trace) s := by
  have hread : Keeps aside (readInitialValues ctx) :=
    keeps_readInitialValues (fun _ => ⟨id, id⟩) ctx
  refine hread.wlp_seq fun initial s₁ hrel => wp_bind.mpr ((wlp_liftResult _).mpr fun _ _ =>
    wp_bind.mpr ((wlp_liftResult _).mpr fun _ _ => ?_))
  refine wlp_seq (wp_mono (runStatement_ends _) (fun _ _ h => h) fun _ _ _ => trivial) ?_
  rintro _ s₂ ⟨id, hrecorded⟩
  have hintroduced : Introduced initial s.trace s₂.trace := by
    obtain ⟨reads, htrace, hreads⟩ := hrel.1
    refine ⟨reads ++ [.db (.recordInitialReadings initial) (.ok id)], ?_, ?_, ?_⟩
    · rw [hrecorded, htrace, List.append_assoc]
    · rw [List.filterMap_append,
        filterMap_nil fun e he => (ofLoop_of_not_telling (hreads e he).1).readings]
      rfl
    · intro e he
      rcases List.mem_append.mp he with he | he
      · exact ⟨leads_of_not_telling (hreads e he).1, (hreads e he).2⟩
      · rw [List.mem_singleton.mp he]
        exact ⟨⟨rfl, rfl, rfl, nofun⟩, not_completes_of_open not_false⟩
  cases ownership with
  | none => exact hintroduced
  | some guard =>
    have hintent : Keeps aside
        (runStatement (.persistRestoreIntent (tuneRestoreIntent ctx initial))) :=
      keeps_runStatement fun _ => ⟨not_false, not_completes_of_open not_false⟩
    refine (keeps_ensureHealthy : Keeps aside _).wlp_seq fun _ s₃ hrel₃ =>
      hintent.wlp_seq fun _ s₄ hrel₄ => ?_
    exact (hintroduced.aside hrel₃).aside hrel₄

/-- From `base` on: where the run has completed, its initial readings were recorded once, and the
history explains the run. -/
def Replays (ctx : RunContext) (base trace : List Event) : Prop :=
  ∃ new, trace = base ++ new ∧ ((∃ e ∈ new, e.Completes) →
    ∃ initial, new.filterMap Event.readings? = [initial] ∧ ExplainsRun ctx initial new)

theorem Replays.of_uncompleted {trace : List Event}
    (h : Appends (fun e => ¬e.Completes) base trace) : Replays ctx base trace := by
  obtain ⟨new, htrace, hnew⟩ := h
  refine ⟨new, htrace, ?_⟩
  rintro ⟨e, he, hcompletes⟩
  exact absurd hcompletes (hnew e he)

theorem Introduced.replays {mid trace : List Event} (h : Introduced initial base mid)
    (hexplained : Explained ctx initial mid trace) : Replays ctx base trace := by
  obtain ⟨lead, rfl, hreadings, hlead⟩ := h
  obtain ⟨new, rfl, hnew⟩ := hexplained
  refine ⟨lead ++ new, List.append_assoc _ _ _, ?_⟩
  rintro ⟨e, he, hcompletes⟩
  rcases hnew with hopen | ⟨hexplains, hnone⟩
  · rcases List.mem_append.mp he with he | he
    · exact absurd hcompletes (hlead e he).2
    · exact absurd hcompletes (hopen e he)
  · refine ⟨initial, ?_, hexplains.lead fun e he => (hlead e he).1⟩
    rw [List.filterMap_append, hreadings, filterMap_nil hnone]
    rfl

theorem Replays.aside {s' : Sys} (h : Replays ctx base s.trace) (hrel : aside.rel s s') :
    Replays ctx base s'.trace := by
  obtain ⟨new, htrace, hnew⟩ := h
  obtain ⟨more, hmore, hquiet⟩ := hrel.1
  refine ⟨new ++ more, by rw [hmore, htrace, List.append_assoc], ?_⟩
  rintro ⟨e, he, hcompletes⟩
  rcases List.mem_append.mp he with he | he
  · obtain ⟨initial, hreadings, hexplains⟩ := hnew ⟨e, he, hcompletes⟩
    refine ⟨initial, ?_, hexplains.quiet fun e he => (hquiet e he).1⟩
    rw [List.filterMap_append, hreadings,
      filterMap_nil fun e he => (ofLoop_of_not_telling (hquiet e he).1).readings]
    rfl
  · exact absurd hcompletes (hquiet e he).2

theorem executeWithTiming_replays :
    wp (executeWithTiming fuel ctx writePid hasHandler ownership)
      (fun _ s' => Replays ctx s.trace s'.trace) (fun _ s' => Replays ctx s.trace s'.trace) s := by
  have hprepare : Keeps uncompleted (prepareExecution ctx ownership) :=
    keeps_prepareExecution (fun _ _ h => not_completes_of_open h) ctx ownership
  refine wp_bind.mpr (wp_mono (hprepare.and_wp prepareExecution_introduces) ?_ ?_)
  · intro initial s₁ hprepared
    exact wp_mono executeMutating_explained (fun _ _ h => hprepared.2.replays h)
      fun _ _ h => hprepared.2.replays h
  · intro fault s₁ hfault
    exact .of_uncompleted hfault.1.1

end Parts

/-! ### Every run -/

/-- **The recorded history of a completed run replays.**  However a run of `drive_report` ends and
whatever the driver, the database, the clock and the interrupts do: where it has been recorded as
completed, the record of the run holds its initial readings once, and a fresh engine on the stored
samples of the polling loop from the end of the pre-delay on goes through the stored states, does
what the engine of the run did, and completes once, with the action from which exactly the stored
results are calculated. -/
theorem history_replays (fuel : ℕ) (prepared : PreparedTune) (hasHandler : Bool) (s : Sys) :
    wp (driveReport fuel prepared hasHandler)
      (fun _ s' => Replays prepared.ctx s.trace s'.trace)
      (fun _ s' => Replays prepared.ctx s.trace s'.trace) s := by
  have hrelease : Keeps aside (releaseOwnership prepared.ownership) :=
    keeps_releaseOwnership (fun _ => ⟨id, not_completes_of_open not_false⟩) _
  have hfail : ∀ e, Keeps aside (failReport prepared e) := fun e => by
    refine keeps_failReport (fun op result hop hcomplete => ⟨hop, ?_⟩) prepared e
    cases op with
    | completeRun metrics => exact absurd rfl (hcomplete metrics)
    | _ => exact id
  refine wp_bind.mpr (wp_attempt.mpr (wp_mono executeWithTiming_replays ?_ ?_))
  · intro outcome s₁ h
    exact wp_mono ((hrelease.bind fun _ => .pure outcome) s₁) (fun _ _ => h.aside)
      fun _ _ => h.aside
  · intro fault s₁ h
    cases fault with
    | err e => exact wp_mono (hfail e s₁) (fun _ _ => h.aside) fun _ _ => h.aside
    | _ => exact h

/-- The run of the loop FC1 completes, and a fresh engine has samples to be fed with. -/
example : (∃ e ∈ (flowReport (.ok 0)).2, e.Completes) ∧
    flowPrepared.ctx.fed (pollSamples (flowReport (.ok 0)).2) ≠ [] := by
  decide +kernel

end Bhtune
