import Bhtune.Runtime.RestoreSteps

/-!
# The release to Auto

A restore that has to settle first returns the mode tag to Auto only after its own MV step
succeeded and its settling period, if one was due, ended without error; and an attempt that kept
the loop in Manual is never `Confirmed`.

* `ReadyToRelease` — what the record of an attempt shows before the mode is released;
* `release_spec`, `keepManual_spec` — the two ways the later steps may run;
* `auto_release` — the whole attempt.
-/

namespace Bhtune

open Effect EventLog

/-- The write that returns the mode tag to its initial value. -/
def Event.ReleasesMode : Event → Prop
  | .write call => call.origin = .restoreMode
  | _ => False

/-- What the record of an attempt shows before the mode is released: the MV step succeeded, every
settling period that was run ended without error, and one was run if it was due. -/
structure ReadyToRelease (due : Prop) (before : List Event) : Prop where
  mv : .mark (.mvStep .succeeded) ∈ before
  settled : ∀ result, .mark (.settled result) ∈ before → result = .ok ()
  due : due → .mark (.settled (.ok ())) ∈ before

/-- In the record since `base` the mode is released only when it may be. -/
def ReleaseGuarded (due : Prop) (base : List Event) (s : Sys) : Prop :=
  ∃ new, s.trace = base ++ new ∧
    Guarded Event.ReleasesMode (fun _ before => ReadyToRelease due before) new

/-- In the record since `base` the loop was not kept in Manual, and the write of the Auto value
was accepted unless Auto and Manual are the same value. -/
def ReleasedToAuto (ctx : RunContext) (base : List Event) (s : Sys) : Prop :=
  ∃ new, s.trace = base ++ new ∧ .mark (.laterSteps .keepManual) ∉ new ∧
    (ctx.template.modeAutoValue ≠ ctx.template.modeManualValue →
      ∀ tag, ctx.tags.controllerMode = some tag →
        ∃ e ∈ new, AcceptedWrite .restoreMode tag (.raw ctx.template.modeAutoValue) e)

/-- A settling period is due: the oscillation was measured and its state handed over. -/
def SettlingDue (completion : Option SettlingInput)
    (measuredOscillationPeriodMs : Option (XNum ℚ)) : Prop :=
  (settlingDuration measuredOscillationPeriodMs).isSome = true ∧ completion.isSome = true

/-! ### The record before the later steps -/

/-- An event of an attempt that is neither a release nor one of its later marks. -/
def Event.Early (e : Event) : Prop :=
  ¬e.ReleasesMode ∧ (∀ result, e ≠ .mark (.settled result)) ∧
    ∀ policy, e ≠ .mark (.laterSteps policy)

theorem Event.Silent.early {e : Event} (h : e.Silent) : e.Early := by
  cases e with
  | read call => exact ⟨id, nofun, nofun⟩
  | db op result => exact ⟨id, nofun, nofun⟩
  | write call => exact h.elim
  | mark m => exact h.elim

theorem Event.RestoresMv.early {e : Event} {ctx : RunContext} {initialMv : ℚ}
    (h : e.RestoresMv ctx initialMv) : e.Early := by
  cases e with
  | read call => exact ⟨id, nofun, nofun⟩
  | db op result => exact ⟨id, nofun, nofun⟩
  | write call =>
    obtain ⟨⟨tolerance, horigin⟩, _⟩ := h
    refine ⟨fun hmode => ?_, nofun, nofun⟩
    exact absurd (horigin.symm.trans hmode) nofun
  | mark m => cases m <;> first | exact h.elim | exact ⟨id, nofun, nofun⟩

/-- The record since `base` holds no release, no kept Manual, and is ready for a release. -/
def Staged (due : Prop) (base : List Event) (s : Sys) : Prop :=
  ∃ new, s.trace = base ++ new ∧
    (∀ e ∈ new, ¬e.ReleasesMode ∧ ∀ policy, e ≠ .mark (.laterSteps policy)) ∧
    ReadyToRelease due new

theorem guarded_of_none {p : Event → Prop} {cond : Event → List Event → Prop} {l : List Event}
    (h : ∀ e ∈ l, ¬p e) : Guarded p cond l := by
  intro pre e post hsplit htrigger
  exact absurd htrigger (h e (by rw [hsplit]; exact List.mem_append_right _ List.mem_cons_self))

theorem releaseGuarded_of_appends {due : Prop} {base : List Event} {s : Sys}
    (h : Appends (fun e => ¬e.ReleasesMode) base s.trace) : ReleaseGuarded due base s := by
  obtain ⟨new, htrace, hnew⟩ := h
  exact ⟨new, htrace, guarded_of_none hnew⟩

theorem ReleaseGuarded.append {due : Prop} {base : List Event} {s s' : Sys}
    (h : ReleaseGuarded due base s)
    (happ : Appends (fun e => ¬e.ReleasesMode) s.trace s'.trace) :
    ReleaseGuarded due base s' := by
  obtain ⟨new, htrace, hguarded⟩ := h
  obtain ⟨more, htrace', hmore⟩ := happ
  refine ⟨new ++ more, by rw [htrace', htrace, List.append_assoc], ?_⟩
  exact hguarded.append ⟨more, rfl, hmore⟩

variable {ctx : RunContext} {initial : InitialState} {s : Sys} {due : Prop} {base : List Event}

/-! ### The later steps -/

theorem Event.RestoresUnder.not_settled {policy : RestoreModePolicy} {e : Event}
    (h : e.RestoresUnder policy) (result : Except Text Unit) : e ≠ .mark (.settled result) := by
  rintro rfl
  exact h

theorem Event.RestoresUnder.not_kept {e : Event} (h : e.RestoresUnder .releaseToInitial) :
    e ≠ .mark (.laterSteps .keepManual) := by
  rintro rfl
  cases h

theorem Event.RestoresUnder.not_release {e : Event} (h : e.RestoresUnder .keepManual) :
    ¬e.ReleasesMode := by
  intro hmode
  cases e with
  | write call =>
    rcases h with ⟨hpolicy, _⟩ | horigin | horigin
    · cases hpolicy
    · exact absurd (horigin.symm.trans hmode) nofun
    · exact absurd (horigin.symm.trans hmode) nofun
  | _ => exact hmode

theorem ReadyToRelease.append {new more : List Event} (h : ReadyToRelease due new)
    (hmore : ∀ e ∈ more, ∀ result, e ≠ .mark (.settled result)) :
    ReadyToRelease due (new ++ more) := by
  refine ⟨List.mem_append_left _ h.mv, ?_, fun hdue => List.mem_append_left _ (h.due hdue)⟩
  intro result hmem
  rcases List.mem_append.mp hmem with hmem | hmem
  · exact h.settled result hmem
  · exact absurd rfl (hmore _ hmem result)

/-- **The later steps of a release.** -/
theorem release_spec (h : Staged due base s)
    (hauto : initial.modeRaw = some ctx.template.modeAutoValue)
    (hwritten : s.program.guard.modeWritten = true) (hrevert : ctx.template.revertMode = true) :
    wp (restoreAfterMvWithDeadline ctx initial .succeeded .releaseToInitial)
      (fun attempt s' => ReleaseGuarded due base s' ∧
        (attempt = .confirmed → ReleasedToAuto ctx base s'))
      (fun _ s' => ReleaseGuarded due base s') s := by
  obtain ⟨new, htrace, hnew, hready⟩ := h
  have hguarded : ∀ s', Appends (Event.RestoresUnder .releaseToInitial) s.trace s'.trace →
      ReleaseGuarded due base s' := by
    rintro s' ⟨more, hmore, hunder⟩
    refine ⟨new ++ more, by rw [hmore, htrace, List.append_assoc], ?_⟩
    refine (guarded_of_none fun e he => (hnew e he).1).append_allowed
      (p := Event.RestoresUnder .releaseToInitial) ⟨more, rfl, hunder⟩ ?_
    rintro _ _ ⟨mid, rfl, hmid⟩
    exact hready.append fun e he => (hmid e he).not_settled
  have hunder : Keeps (within (Event.RestoresUnder .releaseToInitial) id)
      (restoreAfterMvWithDeadline ctx initial .succeeded .releaseToInitial) :=
    within_mono (keeps_underDeadline ctx initial .succeeded .releaseToInitial) (fun _ h => h.1)
      fun _ _ h => h
  refine wp_mono (hunder.failures
    (restoreAfterMvWithDeadline_spec .succeeded .releaseToInitial)) ?_
    fun _ s' hrel => hguarded s' hrel.1
  rintro attempt s' ⟨hrel, hspec⟩
  refine ⟨hguarded s' hrel.1, fun hconfirmed => ?_⟩
  obtain ⟨_, hreverted⟩ := hspec hconfirmed
  obtain ⟨more, hmore, hunder⟩ := hrel.1
  refine ⟨new ++ more, by rw [hmore, htrace, List.append_assoc], ?_, ?_⟩
  · intro hkept
    rcases List.mem_append.mp hkept with hkept | hkept
    · exact (hnew _ hkept).2 _ rfl
    · exact (hunder _ hkept).not_kept rfl
  · intro hne tag htag
    obtain ⟨r, ⟨brought, hbrought, _, hr⟩, haccepted⟩ := hreverted.mode rfl tag _
      ⟨htag, hwritten, hrevert, rfl, by rw [hauto]; exact hne⟩
    obtain rfl := List.append_cancel_left (hbrought.symm.trans hmore)
    rw [hauto] at haccepted
    exact ⟨r, List.mem_append_right _ hr, haccepted⟩

/-- **The later steps with the loop kept in Manual.** -/
theorem keepManual_spec (h : Appends (fun e => ¬e.ReleasesMode) base s.trace)
    (mv : RestoreStepOutcome) :
    wp (restoreAfterMvWithDeadline ctx initial mv .keepManual)
      (fun attempt s' => ReleaseGuarded due base s' ∧
        (attempt = .confirmed → ∀ e, mv ≠ .failed e))
      (fun _ s' => ReleaseGuarded due base s') s := by
  have hguarded : ∀ s', Appends (Event.RestoresUnder .keepManual) s.trace s'.trace →
      ReleaseGuarded due base s' := fun s' happ =>
    releaseGuarded_of_appends (h.trans (happ.mono fun _ he => he.not_release))
  have hunder : Keeps (within (Event.RestoresUnder .keepManual) id)
      (restoreAfterMvWithDeadline ctx initial mv .keepManual) :=
    within_mono (keeps_underDeadline ctx initial mv .keepManual) (fun _ h => h.1) fun _ _ h => h
  refine wp_mono (hunder.failures
    (restoreAfterMvWithDeadline_spec mv .keepManual)) ?_ fun _ s' hrel => hguarded s' hrel.1
  rintro attempt s' ⟨hrel, hspec⟩
  exact ⟨hguarded s' hrel.1, fun hconfirmed => (hspec hconfirmed).1⟩

/-! ### The attempt -/

/-- How an attempt ends, as far as the release is concerned. -/
def ReleaseEnds (ctx : RunContext) (due : Prop) (base : List Event) (attempt : RestoreAttempt)
    (s : Sys) : Prop :=
  ReleaseGuarded due base s ∧ (attempt = .confirmed → ReleasedToAuto ctx base s)

/-- A loop that has to be settled before it is released. -/
structure SettlesFirst (ctx : RunContext) (initial : InitialState) (guard : MutationGuard) :
    Prop where
  auto : initial.modeRaw = some ctx.template.modeAutoValue
  written : guard.modeWritten = true
  revert : ctx.template.revertMode = true

theorem settlesFirst_of_shouldSettle {guard : MutationGuard}
    (h : shouldSettleBeforeAutoRelease ctx initial guard = true) :
    SettlesFirst ctx initial guard := by
  simp only [shouldSettleBeforeAutoRelease, Bool.and_eq_true, decide_eq_true_eq] at h
  exact ⟨h.2, h.1.2, h.1.1.2⟩

/-- The record since `base`, with the MV step that succeeded in it. -/
structure MvDone (base : List Event) (s : Sys) : Prop where
  early : Appends Event.Early base s.trace
  mv : ∃ pre post, s.trace = base ++ pre ++ .mark (.mvStep .succeeded) :: post

theorem MvDone.staged {s' : Sys} (h : MvDone base s) (marks : List Event)
    (hmarks : s'.trace = s.trace ++ marks)
    (hearly : ∀ e ∈ marks, e.Early ∨ e = .mark (.settled (.ok ())))
    (hdue : due → .mark (.settled (.ok ())) ∈ marks) : Staged due base s' := by
  obtain ⟨new, htrace, hnew⟩ := h.early
  obtain ⟨pre, post, hmv⟩ := h.mv
  have hmem : .mark (.mvStep .succeeded) ∈ new := by
    rw [htrace, List.append_assoc] at hmv
    rw [List.append_cancel_left hmv]
    exact List.mem_append_right _ List.mem_cons_self
  refine ⟨new ++ marks, by rw [hmarks, htrace, List.append_assoc], ?_, ?_⟩
  · intro e he
    rcases List.mem_append.mp he with he | he
    · exact ⟨(hnew e he).1, (hnew e he).2.2⟩
    · rcases hearly e he with h | rfl
      · exact ⟨h.1, h.2.2⟩
      · exact ⟨id, nofun⟩
  · refine ⟨List.mem_append_left _ hmem, ?_, fun h => List.mem_append_right _ (hdue h)⟩
    intro result hresult
    rcases List.mem_append.mp hresult with hresult | hresult
    · exact absurd rfl ((hnew _ hresult).2.1 result)
    · rcases hearly _ hresult with h | h
      · exact absurd rfl (h.2.1 result)
      · cases h
        rfl

theorem not_releases_of_early {l l' : List Event} (h : Appends Event.Early l l') :
    Appends (fun e => ¬e.ReleasesMode) l l' := h.mono fun _ he => he.1

/-- **The settling period and what follows it.** -/
theorem settleThenRelease_spec (fuel : ℕ) (h : MvDone base s)
    (hfirst : SettlesFirst ctx initial s.program.guard) (completion : SettlingInput)
    (duration : ℕ) :
    wp (settleThenRelease fuel ctx initial completion duration) (ReleaseEnds ctx due base)
      (fun _ s' => ReleaseGuarded due base s') s := by
  have hsettling : Keeps (within Event.Silent (·.guard)) (tryErr (runAutoReleaseSettling fuel ctx
      completion.state completion.nextTickIndex duration)) :=
    keeps_tryErr (keeps_runAutoReleaseSettling (fun _ => trivial) (fun _ _ _ _ => trivial)
      (fun _ _ => rfl) (fun _ _ => rfl) _ _ _ _)
  refine hsettling.wp_seq (fun result s₁ hrel => wp_bind.mpr ((wp_mark _).mpr ?_)) fun _ s₁ hrel =>
    releaseGuarded_of_appends (not_releases_of_early (h.early.trans (hrel.1.mono fun _ he =>
      he.early)))
  obtain ⟨new, htrace, hnew⟩ := hrel.1
  have hguard : s₁.program.guard = s.program.guard := hrel.2.2
  cases result with
  | ok _ =>
    have hstaged : Staged due base { s₁ with
        trace := s₁.trace ++ [.mark (.settled (.ok ()))] } := by
      refine h.staged (new ++ [.mark (.settled (.ok ()))]) ?_ ?_ ?_
      · rw [← List.append_assoc, ← htrace]
      · intro e he
        rcases List.mem_append.mp he with he | he
        · exact .inl (hnew e he).early
        · exact .inr (List.mem_singleton.mp he)
      · exact fun _ => List.mem_append_right _ (List.mem_singleton_self _)
    exact release_spec hstaged hfirst.auto (by rw [← hfirst.written]; exact congrArg _ hguard)
      hfirst.revert
  | error e =>
    have happ : Appends (fun e => ¬e.ReleasesMode) base
        (s₁.trace ++ [.mark (.settled (.error e))]) :=
      ((not_releases_of_early h.early).trans (hrel.1.mono fun _ he => he.early.1)).trans
        (.concat _ id)
    refine wp_seq (wp_mono (keepManual_spec happ .succeeded) (fun _ _ h => h) fun _ _ h => h) ?_
    rintro attempt s₂ ⟨hguarded, _⟩
    cases attempt <;> exact ⟨hguarded, nofun⟩

/-- **What follows the MV step.** -/
theorem afterMvStep_spec (fuel : ℕ) (h : Appends Event.Early base s.trace)
    (hsettle : shouldSettleBeforeAutoRelease ctx initial s.program.guard = true)
    (completion : Option SettlingInput) (measuredOscillationPeriodMs : Option (XNum ℚ))
    (mv : RestoreStepOutcome) (hmv : mv = .succeeded ∨ ∃ e, mv = .failed e) :
    wp (afterMvStep fuel ctx initial completion measuredOscillationPeriodMs mv)
      (ReleaseEnds ctx (SettlingDue completion measuredOscillationPeriodMs) base)
      (fun _ s' => ReleaseGuarded (SettlingDue completion measuredOscillationPeriodMs) base s')
      s := by
  have hfirst := settlesFirst_of_shouldSettle hsettle
  refine wp_bind.mpr ((wp_mark _).mpr (wp_bind.mpr (wp_get.mpr ?_)))
  generalize hs₁ : ({ s with trace := s.trace ++ [.mark (.mvStep mv)] } : Sys) = s₁
  have htrace : s₁.trace = s.trace ++ [.mark (.mvStep mv)] := by rw [← hs₁]
  have hguard : s₁.program.guard = s.program.guard := by rw [← hs₁]
  have hearly : Appends Event.Early base s₁.trace := by
    rw [htrace]
    exact h.trans (.concat _ ⟨id, nofun, nofun⟩)
  rw [hguard, hsettle]
  rcases hmv with rfl | ⟨e, rfl⟩
  · have hdone : MvDone base s₁ := by
      obtain ⟨new, hnew, _⟩ := h
      exact ⟨hearly, new, [], by rw [htrace, hnew]⟩
    have hfirst₁ : SettlesFirst ctx initial s₁.program.guard := by rw [hguard]; exact hfirst
    rw [if_pos ⟨rfl, rfl⟩]
    split
    · exact settleThenRelease_spec fuel hdone hfirst₁ _ _
    · rename_i hnone
      refine release_spec (hdone.staged [] (List.append_nil _).symm
        (fun e he => absurd he List.not_mem_nil) ?_) hfirst₁.auto hfirst₁.written hfirst₁.revert
      rintro ⟨hduration, hcompletion⟩
      obtain ⟨duration, hduration⟩ := Option.isSome_iff_exists.mp hduration
      obtain ⟨input, hcompletion⟩ := Option.isSome_iff_exists.mp hcompletion
      exact (hnone duration input hduration hcompletion).elim
  · rw [if_neg (by rintro ⟨_, h⟩; cases h), if_pos rfl]
    refine wp_mono (keepManual_spec (not_releases_of_early hearly) (.failed e)) ?_
      fun _ _ h => h
    rintro attempt s₂ ⟨hguarded, hconfirmed⟩
    exact ⟨hguarded, fun h => absurd rfl (hconfirmed h e)⟩

theorem attemptRestoreBody_release (fuel : ℕ) (completion : Option SettlingInput)
    (measuredOscillationPeriodMs : Option (XNum ℚ)) (policy : ActuationAuditPolicy)
    (hbase : Appends Event.Early base s.trace)
    (hsettle : shouldSettleBeforeAutoRelease ctx initial s.program.guard = true) :
    wp (attemptRestoreBody fuel ctx initial completion measuredOscillationPeriodMs policy)
      (ReleaseEnds ctx (SettlingDue completion measuredOscillationPeriodMs) base)
      (fun _ s' => ReleaseGuarded (SettlingDue completion measuredOscillationPeriodMs) base s')
      s := by
  have hstart : ∀ t, Keeps (within Event.Silent (·.guard))
      (modifyProgram fun p => { p with restoreDeadline := t }) := fun _ =>
    keeps_modifyProgram fun _ => rfl
  have hstep : Keeps (within (Event.RestoresMv ctx initial.mvIni) (·.guard))
      (tryErr (restoreMvWithVerification fuel ctx initial.mvIni policy)) :=
    within_mono (keeps_tryErr (keeps_restoreMvWithVerification (fun _ _ => rfl) (fun _ _ => rfl)
      fuel ctx initial.mvIni policy)) (fun _ h => h.1) fun _ _ h => h
  refine wp_bind.mpr (wp_now.mpr ((hstart _).wp_seq (fun _ s₁ hrel₁ => ?_)
    fun _ s₁ hrel₁ => ?_))
  · have hearly₁ := hbase.trans (hrel₁.1.mono fun _ he => he.early)
    have hguard₁ : s₁.program.guard = s.program.guard := hrel₁.2.2
    refine wp_seq (wp_mono (hstep.failures (mvStep_outcome fuel initial.mvIni policy))
      (fun _ _ h => h) fun _ s₂ hrel => releaseGuarded_of_appends (not_releases_of_early
        (hearly₁.trans (hrel.1.mono fun _ he => he.early)))) ?_
    rintro r s₂ ⟨hrel, hdefinite⟩
    have hearly := hearly₁.trans (hrel.1.mono fun _ he => he.early)
    have hguard : s₂.program.guard = s₁.program.guard := hrel.2.2
    cases hr : restoreMvOutcomeOrFailed r with
    | interrupted reason =>
      exact ⟨releaseGuarded_of_appends (not_releases_of_early hearly), nofun⟩
    | «continue» mv =>
      refine afterMvStep_spec fuel hearly ?_ _ _ mv (hdefinite mv hr)
      rw [hguard, hguard₁]
      exact hsettle
  · exact releaseGuarded_of_appends (not_releases_of_early
      (hbase.trans (hrel₁.1.mono fun _ he => he.early)))

theorem ReleasedToAuto.ended {attempt : RestoreAttempt} (h : ReleasedToAuto ctx base s) {s' : Sys}
    (htrace : s'.trace = s.trace ++ [.mark (.restoreEnded attempt)]) :
    ReleasedToAuto ctx base s' := by
  obtain ⟨new, hnew, hkept, haccepted⟩ := h
  refine ⟨new ++ [.mark (.restoreEnded attempt)], ?_, ?_, ?_⟩
  · rw [htrace, hnew, List.append_assoc]
  · intro hmem
    rcases List.mem_append.mp hmem with hmem | hmem
    · exact hkept hmem
    · exact absurd (List.mem_singleton.mp hmem) nofun
  · intro hne tag htag
    obtain ⟨e, he, hwrite⟩ := haccepted hne tag htag
    exact ⟨e, List.mem_append_left _ he, hwrite⟩

/-- **The release to Auto.**  In an attempt that has to settle first, however it ends, the mode
is returned to Auto only after the MV step of that attempt succeeded and every settling period of
it ended without error, one having been run if it was due; and where the attempt is `Confirmed`,
the loop was not kept in Manual and the write of the Auto value was accepted. -/
theorem auto_release (fuel : ℕ) (ctx : RunContext) (initial : InitialState)
    (completion : Option SettlingInput) (measuredOscillationPeriodMs : Option (XNum ℚ))
    (policy : ActuationAuditPolicy) (s : Sys)
    (hsettle : shouldSettleBeforeAutoRelease ctx initial s.program.guard = true) :
    wp (attemptRestore fuel ctx initial completion measuredOscillationPeriodMs policy)
      (ReleaseEnds ctx (SettlingDue completion measuredOscillationPeriodMs) s.trace)
      (fun _ s' =>
        ReleaseGuarded (SettlingDue completion measuredOscillationPeriodMs) s.trace s') s := by
  refine wp_bind.mpr ((wp_mark _).mpr (wp_seq (attemptRestoreBody_release fuel completion
    measuredOscillationPeriodMs policy (.concat _ ⟨id, nofun, nofun⟩) hsettle) ?_))
  rintro attempt s₁ ⟨hguarded, hconfirmed⟩
  exact ⟨hguarded.append (.concat _ id), fun h => (hconfirmed h).ended rfl⟩

/-! ### The loop FC1 -/

/-- The loop FC1 at rest, with its controller in Manual. -/
def restingLoop : Environment where
  answers := fun _ =>
    { values := .ok
        [⟨"FC1.MV", "", .finite 50, .good⟩, ⟨"FC1.PV", "", .finite 50, .good⟩,
        ⟨"FC1.MODE", "MAN", .notANumber, .good⟩] }
  signals := []
  signals_sorted := Environment.noSignals_sorted

/-- What a run on it hands over. -/
def restingInput : SettlingInput where
  state := (flowSys restingLoop).program.engine.state .machine
  nextTickIndex := 40

/-- The record of the restore, after an oscillation with a period of three seconds. -/
def settlingRecord : List Event :=
  recordOf (attemptRestore 8 flowContext flowInitial (some restingInput) (some (.fin 3000))
    .bestEffort) (flowSys restingLoop)

/-- The settling period is due and is run before the release. -/
theorem auto_release_flow :
    SettlingDue (some restingInput) (some (.fin 3000)) ∧
      Guarded Event.ReleasesMode
        (fun _ before => ReadyToRelease (SettlingDue (some restingInput) (some (.fin 3000))) before)
        settlingRecord ∧
      .mark (.settled (.ok ())) ∈ settlingRecord ∧
      .write ⟨.restoreMode, "FC1.MODE", .raw "AUTO", 1600000000, 1600000000, .accepted⟩ ∈
        settlingRecord := by
  refine ⟨⟨by decide +kernel, rfl⟩, ?_, by decide +kernel, by decide +kernel⟩
  have hlog : ∀ s' : Sys, ReleaseGuarded (SettlingDue (some restingInput) (some (.fin 3000)))
      (flowSys restingLoop).trace s' → Guarded Event.ReleasesMode (fun _ before =>
        ReadyToRelease (SettlingDue (some restingInput) (some (.fin 3000))) before) s'.trace := by
    rintro s' ⟨new, htrace, hguarded⟩
    rw [htrace]
    exact hguarded
  exact recordOf_holds (wp_mono (auto_release 8 flowContext flowInitial (some restingInput)
    (some (.fin 3000)) .bestEffort (flowSys restingLoop) (by decide)) (fun _ s' h => hlog s' h.1)
      fun _ s' h => hlog s' h)

end Bhtune
