import Bhtune.Library.BinaryFloat
import Bhtune.Runtime.RecoveryRetry

/-!
# The restore intent, written and read back

A tune stores its restore intent as JSON text and its initial readings as columns; a PID write
adds a member to the text.  After a crash `validateRestoreIntent` compares the two.  The columns
give an `f32` back exactly, while the text passes through a JSON printer and parser.

* `persistPidRestoreIntent` — the text with the member `pid_restore`;
* `IntentMatches` — what the check asks of the parsed intent;
* `restore_intent_accepted_iff` — the intent is accepted exactly when the parser reads every
  recorded value back.
-/

namespace Bhtune

open Json BinaryFloat

/-! ### The PID part of the intent -/

/-- `json!(kind)`. -/
def WriteKind.json : WriteKind → Json
  | .write => .string "write"
  | .revert => .string "revert"

/-- `json!(response_level)`. -/
def ResponseLevel.json : ResponseLevel → Json
  | .aggressive => .string "aggressive"
  | .moderate => .string "moderate"
  | .sluggish => .string "sluggish"

/-- The JSON of three PID constants. -/
def WriteReadback.json (values : WriteReadback) : Json :=
  .ofMembers [
    ("proportional", jsonF32 values.proportional),
    ("integral", jsonF32 values.integral),
    ("derivative", jsonF32 values.derivative)]

/-- The member `pid_restore` of a restore intent. -/
def PidRestoreIntent.json (runId : ℕ) (intent : PidRestoreIntent) : Json :=
  .ofMembers [
    ("run_id", .number (.posInt runId)),
    ("write_kind", intent.writeKind.json),
    ("response_level", intent.responseLevel.json),
    ("previous", intent.previous.json),
    ("target", intent.target.json)]

/-- `persist_pid_restore_intent`: the text that replaces the stored one. -/
def persistPidRestoreIntent (codec : Codec) (restoreIntentJson : Option String) (runId : ℕ)
    (intent : PidRestoreIntent) : Except Text String :=
  match restoreIntentJson.elim (some (.ofMembers [])) codec.parse with
  | none => .error (text "persisted restore intent is not valid JSON")
  | some root =>
    match Json.insert "pid_restore" (intent.json runId) root with
    | none => .error (text "persisted live restore intent is not a JSON object")
    | some changed => .ok (codec.print changed)

/-! ### What the check compares -/

/-- The recorded values of an initial state that are floats. -/
def InitialState.floats (initial : InitialState) : List ℚ :=
  [initial.pvIni, initial.mvIni, initial.mvRangeLow, initial.mvRangeHigh, initial.pvRangeHigh,
    initial.pvRangeLow] ++ initial.setpointIni.toList

/-- A parsed intent that the check accepts. -/
structure IntentMatches (run : TuneRunRow) (initial : TuneRunInitialReadings) (intent : Json) :
    Prop where
  version : (intent.get "version").bind asU64 = some 1
  kind : (intent.get "kind").bind asStr = some "tune_restore"
  runId : (intent.get "run_id").bind asI64 = some (run.id : ℤ)
  state : (intent.get "state").bind asStr = some "ready_to_restore"
  mvTag : (intent.get "mv_tag").bind asStr = some run.tags.manipulatedVariable
  initialReadings : intent.get "initial_readings" = some initial.json
  templatePolicy : intent.get "template_policy" = some run.template.restorePolicy

theorem validateRestoreIntent_iff (parse : String → Option Json) (run : TuneRunRow)
    (intentJson : String) (initial : TuneRunInitialReadings) :
    validateRestoreIntent parse run intentJson initial = .ok () ↔
      ∃ intent, parse intentJson = some intent ∧ IntentMatches run initial intent := by
  unfold validateRestoreIntent
  cases hparse : parse intentJson with
  | none => simp
  | some intent =>
    dsimp only
    split_ifs with hmismatch
    · constructor
      · intro h
        cases h
      · rintro ⟨_, ⟨rfl⟩, m⟩
        simp [m.version, m.kind, m.runId, m.state, m.mvTag, m.initialReadings,
          m.templatePolicy] at hmismatch
    · simp only [not_or, not_not] at hmismatch
      obtain ⟨h₁, h₂, h₃, h₄, h₅, h₆, h₇⟩ := hmismatch
      exact ⟨fun _ => ⟨intent, rfl, h₁, h₂, h₃, h₄, h₅, h₆, h₇⟩, fun _ => rfl⟩

section Floats

variable {run : TuneRunRow} {initial : TuneRunInitialReadings} {intent : Json}

theorem bind_mapFloats {α : Type} {look : Json → Option α} {f : ℚ → ℚ}
    (hlook : ∀ v, look (v.mapFloats f) = look v) (k : String) (v : Json) :
    ((v.mapFloats f).get k).bind look = (v.get k).bind look := by
  rw [get_mapFloats]
  cases v.get k with
  | none => rfl
  | some w => exact hlook w

/-- The template policy has no floats. -/
theorem mapFloats_restorePolicy (f : ℚ → ℚ) (template : DcsTemplate) :
    template.restorePolicy.mapFloats f = template.restorePolicy := by
  unfold DcsTemplate.restorePolicy
  rw [mapFloats_ofMembers]
  cases template.modeAttributeProgramValue <;> rfl

/-- A change of the floats of a matching intent matches when it changes no recorded reading. -/
theorem IntentMatches.mapFloats_iff (m : IntentMatches run initial intent) (f : ℚ → ℚ) :
    IntentMatches run initial (intent.mapFloats f) ↔ initial.json.mapFloats f = initial.json := by
  constructor
  · intro h
    have hreadings := h.initialReadings
    rw [get_mapFloats, m.initialReadings] at hreadings
    exact Option.some.inj hreadings
  · intro h
    exact {
      version := (bind_mapFloats (asU64_mapFloats f) _ _).trans m.version
      kind := (bind_mapFloats (asStr_mapFloats f) _ _).trans m.kind
      runId := (bind_mapFloats (asI64_mapFloats f) _ _).trans m.runId
      state := (bind_mapFloats (asStr_mapFloats f) _ _).trans m.state
      mvTag := (bind_mapFloats (asStr_mapFloats f) _ _).trans m.mvTag
      initialReadings := by rw [get_mapFloats, m.initialReadings, Option.map_some, h]
      templatePolicy := by
        rw [get_mapFloats, m.templatePolicy, Option.map_some, mapFloats_restorePolicy] }

/-- The check does not look at the member of a PID write. -/
theorem IntentMatches.insert {root v changed : Json} (m : IntentMatches run initial root)
    (h : Json.insert "pid_restore" v root = some changed) : IntentMatches run initial changed := by
  have hget : ∀ k, k ≠ "pid_restore" → changed.get k = root.get k := by
    intro k hk
    cases root with
    | object members =>
      cases h
      exact Members.find?_insert_of_ne v hk members
    | _ => cases h
  exact {
    version := by rw [hget _ (by decide), m.version]
    kind := by rw [hget _ (by decide), m.kind]
    runId := by rw [hget _ (by decide), m.runId]
    state := by rw [hget _ (by decide), m.state]
    mvTag := by rw [hget _ (by decide), m.mvTag]
    initialReadings := by rw [hget _ (by decide), m.initialReadings]
    templatePolicy := by rw [hget _ (by decide), m.templatePolicy] }

end Floats

/-- The JSON of the readings, with its floats changed, is that of the changed readings. -/
theorem mapFloats_recorded (initial : InitialState) (f : ℚ → ℚ) :
    initial.recorded.json.mapFloats f =
      ({ initial with
          pvIni := f initial.pvIni
          mvIni := f initial.mvIni
          mvRangeLow := f initial.mvRangeLow
          mvRangeHigh := f initial.mvRangeHigh
          pvRangeHigh := f initial.pvRangeHigh
          pvRangeLow := f initial.pvRangeLow
          setpointIni := initial.setpointIni.map f } : InitialState).recorded.json := by
  unfold TuneRunInitialReadings.json
  rw [mapFloats_ofMembers]
  unfold InitialState.recorded
  cases initial.direction <;> cases initial.modeRaw <;> cases initial.modeAttributeRaw <;>
    cases initial.setpointIni <;> rfl

/-- Readings with the same JSON have the same floats. -/
theorem floats_of_recorded_json {initial initial' : InitialState}
    (h : initial.recorded.json = initial'.recorded.json) : initial.floats = initial'.floats := by
  have hget := fun k => congrArg (Json.get k) h
  have h₁ := hget "pv_ini"
  have h₂ := hget "mv_ini"
  have h₃ := hget "mv_range_low"
  have h₄ := hget "mv_range_high"
  have h₅ := hget "pv_range_high"
  have h₆ := hget "pv_range_low"
  have h₇ := hget "setpoint_ini"
  simp [TuneRunInitialReadings.json, get_ofMembers, List.lookup_cons, InitialState.recorded,
    jsonF32] at h₁ h₂ h₃ h₄ h₅ h₆ h₇
  unfold InitialState.floats
  rw [h₁, h₂, h₃, h₄, h₅, h₆]
  revert h₇
  cases initial.setpointIni <;> cases initial'.setpointIni <;> simp [jsonOption, jsonF32]

/-- The recorded readings keep their JSON when none of their floats changes. -/
theorem mapFloats_recorded_iff (initial : InitialState) (f : ℚ → ℚ) :
    initial.recorded.json.mapFloats f = initial.recorded.json ↔
      ∀ x ∈ initial.floats, f x = x := by
  rw [mapFloats_recorded]
  constructor
  · intro h
    have hfloats := floats_of_recorded_json h
    unfold InitialState.floats at hfloats ⊢
    cases hsetpoint : initial.setpointIni <;> simp_all
  · intro h
    have hsetpoint : initial.setpointIni.map f = initial.setpointIni := by
      cases hx : initial.setpointIni with
      | none => rfl
      | some x => exact congrArg some (h x (by simp [InitialState.floats, hx]))
    simp [InitialState.floats] at h
    rw [h.1, h.2.1, h.2.2.1, h.2.2.2.1, h.2.2.2.2.1, h.2.2.2.2.2.1, hsetpoint]

/-- What a tune stores matches its own columns. -/
theorem intentMatches_stored {ctx : RunContext} {run : TuneRunRow} (hid : run.id = ctx.runId)
    (htags : run.tags = ctx.tags) (htemplate : run.template = ctx.template)
    (initial : InitialState) :
    IntentMatches run initial.recorded ((tuneRestoreIntent ctx initial).json ctx.runId) where
  version := by simp [TuneRestoreIntent.json, get_ofMembers, List.lookup_cons, asU64]
  kind := by simp [TuneRestoreIntent.json, get_ofMembers, List.lookup_cons, asStr]
  runId := by simp [TuneRestoreIntent.json, get_ofMembers, List.lookup_cons, asI64, hid]
  state := by simp [TuneRestoreIntent.json, get_ofMembers, List.lookup_cons, asStr]
  mvTag := by
    simp [TuneRestoreIntent.json, get_ofMembers, List.lookup_cons, asStr, htags, tuneRestoreIntent]
  initialReadings := by
    simp [TuneRestoreIntent.json, get_ofMembers, List.lookup_cons, tuneRestoreIntent]
    -- The intent lists the two bounds of the PV range the other way round.
    refine ofMembers_perm ?_ (by simp)
    exact .cons _ (.cons _ (.cons _ (.cons _ (.swap _ _ _))))
  templatePolicy := by
    simp [TuneRestoreIntent.json, get_ofMembers, htemplate, tuneRestoreIntent,
      DcsTemplate.restorePolicy]

/-! ### Accepted after a crash -/

/-- The intent that a tune stores. -/
def storedIntent (ctx : RunContext) (initial : InitialState) : Json :=
  (tuneRestoreIntent ctx initial).json ctx.runId

/-- The intents of a run are accepted: the one its tune stored, and the one that a PID write made
of it. -/
def RestoreIntentAccepted (codec : Codec) (ctx : RunContext) (initial : InitialState)
    (pid : PidRestoreIntent) (run : TuneRunRow) : Prop :=
  let intentJson := codec.print (storedIntent ctx initial)
  validateRestoreIntent codec.parse run intentJson initial.recorded = .ok () ∧
    ∃ changedJson, persistPidRestoreIntent codec (some intentJson) ctx.runId pid = .ok changedJson ∧
      validateRestoreIntent codec.parse run changedJson initial.recorded = .ok ()

section Accepted

variable {codec : Codec} {run : TuneRunRow} {initial : TuneRunInitialReadings}

/-- A printed intent is accepted when what is read back of it matches. -/
theorem validate_print_iff {v : Json} (hreads : codec.ReadsBack v) :
    validateRestoreIntent codec.parse run (codec.print v) initial = .ok () ↔
      IntentMatches run initial (v.mapFloats codec.read) := by
  rw [validateRestoreIntent_iff, hreads]
  simp

/-- **A restore intent is accepted when its numbers survive.**  The intent that a tune stored is
accepted after a crash, and still after a PID write has changed it, exactly when the parser reads
back every float of the recorded readings. -/
theorem restore_intent_accepted_iff (codec : Codec) (ctx : RunContext) (initial : InitialState)
    (pid : PidRestoreIntent) (run : TuneRunRow) (hid : run.id = ctx.runId)
    (htags : run.tags = ctx.tags) (htemplate : run.template = ctx.template)
    (hstored : codec.ReadsBack (storedIntent ctx initial))
    (hchanged : ∀ v, Json.insert "pid_restore" (pid.json ctx.runId)
      ((storedIntent ctx initial).mapFloats codec.read) = some v → codec.ReadsBack v) :
    RestoreIntentAccepted codec ctx initial pid run ↔
      ∀ x ∈ initial.floats, codec.read x = x := by
  have hmatches := intentMatches_stored hid htags htemplate initial
  have hfirst : validateRestoreIntent codec.parse run (codec.print (storedIntent ctx initial))
      initial.recorded = .ok () ↔ ∀ x ∈ initial.floats, codec.read x = x := by
    rw [validate_print_iff hstored, ← mapFloats_recorded_iff]
    exact hmatches.mapFloats_iff codec.read
  refine ⟨fun h => hfirst.mp h.1, fun h => ⟨hfirst.mpr h, ?_⟩⟩
  have hreadings := (mapFloats_recorded_iff initial codec.read).mpr h
  have hread := (hmatches.mapFloats_iff codec.read).mpr hreadings
  obtain ⟨changed, hinsert⟩ : ∃ changed, Json.insert "pid_restore" (pid.json ctx.runId)
      ((storedIntent ctx initial).mapFloats codec.read) = some changed := ⟨_, rfl⟩
  refine ⟨codec.print changed, ?_, ?_⟩
  · unfold persistPidRestoreIntent
    rw [Option.elim_some, hstored]
    dsimp only
    rw [hinsert]
  · rw [validate_print_iff (hchanged changed hinsert)]
    exact ((hread.insert hinsert).mapFloats_iff codec.read).mpr hreadings

end Accepted

/-! ### The loop FC1 -/

/-- A PID write on FC1. -/
def flowPidIntent : PidRestoreIntent where
  writeKind := .write
  responseLevel := .moderate
  previous := ⟨1, 2, 0⟩
  target := ⟨3 / 2, 4, 0⟩

/-- The intent of FC1 with the PID write. -/
def flowChangedIntent : Json :=
  (Json.insert "pid_restore" (flowPidIntent.json flowContext.runId)
    (storedIntent flowContext flowInitial)).getD .null

/-- Its text. -/
def flowChangedText : String :=
  "\x7b\"initial_readings\":\x7b\"controller_direction\":\"reverse\"," ++
    "\"mode_attribute_raw\":null,\"mode_raw\":\"AUTO\",\"mv_ini\":50.0,\"mv_range_high\":100.0," ++
    "\"mv_range_low\":0.0,\"pv_ini\":50.0,\"pv_range_high\":100.0,\"pv_range_low\":0.0," ++
    "\"setpoint_ini\":null\x7d,\"kind\":\"tune_restore\",\"mv_tag\":\"FC1.MV\",\"pid_restore\":" ++
    "\x7b\"previous\":\x7b\"derivative\":0.0,\"integral\":2.0,\"proportional\":1.0\x7d," ++
    "\"response_level\":\"moderate\",\"run_id\":1,\"target\":\x7b\"derivative\":0.0," ++
    "\"integral\":4.0,\"proportional\":1.5\x7d,\"write_kind\":\"write\"\x7d,\"run_id\":1," ++
    "\"state\":\"ready_to_restore\",\"template_policy\":\x7b\"mode_attribute_program_value\":null," ++
    "\"mode_auto_value\":\"AUTO\",\"mode_manual_value\":\"MAN\",\"revert_mode\":true\x7d," ++
    "\"version\":1\x7d"

/-- A printer and a parser on the two intents of FC1, whose numbers are short. -/
def flowCodec : Codec where
  print v :=
    if v = storedIntent flowContext flowInitial then flowIntentText
    else if v = flowChangedIntent then flowChangedText
    else ""
  parse s :=
    if s = flowIntentText then some (storedIntent flowContext flowInitial)
    else if s = flowChangedText then some flowChangedIntent
    else none
  read := id

theorem flowCodec_readsBack :
    flowCodec.ReadsBack (storedIntent flowContext flowInitial) ∧
      flowCodec.ReadsBack flowChangedIntent := by
  constructor <;> unfold Codec.ReadsBack <;> decide +kernel

theorem restore_intent_accepted_iff_flow :
    RestoreIntentAccepted flowCodec flowContext flowInitial flowPidIntent flowRecordedRun ↔
      ∀ x ∈ flowInitial.floats, flowCodec.read x = x :=
  restore_intent_accepted_iff flowCodec flowContext flowInitial flowPidIntent flowRecordedRun
    rfl rfl rfl flowCodec_readsBack.1 fun v h => by
      have hread : (storedIntent flowContext flowInitial).mapFloats flowCodec.read =
          storedIntent flowContext flowInitial := by decide
      rw [hread] at h
      have hv : v = flowChangedIntent := by
        unfold flowChangedIntent
        rw [h, Option.getD_some]
      rw [hv]
      exact flowCodec_readsBack.2

/-- FC1 with its PV at the `f32` nearest to 9.1. -/
def lowInitial : InitialState := { flowInitial with pvIni := f32 (91 / 10) }

/-- The text of its intent. -/
def lowIntentText : String :=
  "\x7b\"initial_readings\":\x7b\"controller_direction\":\"reverse\"," ++
    "\"mode_attribute_raw\":null,\"mode_raw\":\"AUTO\",\"mv_ini\":50.0,\"mv_range_high\":100.0," ++
    "\"mv_range_low\":0.0,\"pv_ini\":9.100000381469727,\"pv_range_high\":100.0," ++
    "\"pv_range_low\":0.0,\"setpoint_ini\":null\x7d,\"kind\":\"tune_restore\"," ++
    "\"mv_tag\":\"FC1.MV\",\"run_id\":1,\"state\":\"ready_to_restore\",\"template_policy\":" ++
    "\x7b\"mode_attribute_program_value\":null,\"mode_auto_value\":\"AUTO\"," ++
    "\"mode_manual_value\":\"MAN\",\"revert_mode\":true\x7d,\"version\":1\x7d"

/-- A printer and a parser on the intent of that loop.  The shortest text of its PV has the digits
9100000381469727, and the parser divides them by a power of ten. -/
def lowCodec : Codec where
  print v := if v = storedIntent flowContext lowInitial then lowIntentText else ""
  parse s :=
    if s = lowIntentText then
      some ((storedIntent flowContext lowInitial).mapFloats fun x =>
        if x = f32 (91 / 10) then f64Quotient 9100000381469727 15 else x)
    else none
  read x := if x = f32 (91 / 10) then f64Quotient 9100000381469727 15 else x

/-- A valid initial state whose intent is read back within one ulp and still refused. -/
theorem restore_intent_refused_low :
    (validateInitialState lowInitial).toBool = true ∧
      lowCodec.ReadsBack (storedIntent flowContext lowInitial) ∧
      (∀ x ∈ lowInitial.floats, |lowCodec.read x - x| ≤ |x| / 2 ^ 52) ∧
      f64 (9100000381469727 / 10 ^ 15) = lowInitial.pvIni ∧
      ¬RestoreIntentAccepted lowCodec flowContext lowInitial flowPidIntent flowRecordedRun := by
  have hrefused : validateRestoreIntent lowCodec.parse flowRecordedRun
      (lowCodec.print (storedIntent flowContext lowInitial)) lowInitial.recorded ≠ .ok () := by
    decide +kernel
  refine ⟨by decide, ?_, by decide +kernel, by decide +kernel, fun h => hrefused h.1⟩
  unfold Codec.ReadsBack
  decide +kernel

end Bhtune
