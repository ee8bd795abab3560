import Bhtune.Runtime.World

/-!
# Reading and writing tags: quality policy, parsing, batches

The helpers through which the runtime reads numbers and raw values from a driver.  The unbounded
ones are awaited as they stand; the bounded ones carry the race of `bounded_driver_call`.
-/

namespace Bhtune

open Effect

/-- A pure `Result` inside a runtime function. -/
def liftResult {α : Type} : Except Text α → Io α
  | .ok a => pure a
  | .error e => bail e

/-- `check_quality`: bad is never accepted, uncertain only where the policy permits it. -/
def checkQuality (tag : String) (quality : Quality) (allowUncertain : Bool) : Except Text Unit :=
  match quality with
  | .good => .ok ()
  | .uncertain =>
    if allowUncertain then .ok ()
    else .error (text ("tag '" ++ tag ++ "' reported OPC quality Uncertain; refusing to trust " ++
      "it for a tuning-critical reading (set Config > OPC quality policy " ++
      "\x60allow_uncertain_quality = true\x60 to accept Uncertain readings; Bad is never " ++
      "accepted)"))
  | .bad =>
    .error (text ("tag '" ++ tag ++ "' reported OPC quality Bad; refusing to trust it for a " ++
      "tuning-critical reading"))

/-- Whether `check_quality` accepts a quality. -/
def acceptable (quality : Quality) (allowUncertain : Bool) : Bool :=
  match quality with
  | .good => true
  | .uncertain => allowUncertain
  | .bad => false

theorem checkQuality_ok_iff (tag : String) (quality : Quality) (allowUncertain : Bool) :
    checkQuality tag quality allowUncertain = .ok () ↔
      acceptable quality allowUncertain = true := by
  cases quality <;> cases allowUncertain <;> simp [checkQuality, acceptable]

/-- `sample_quality_from_driver`. -/
def sampleQualityFromDriver : Quality → SampleQuality
  | .good => .good
  | .uncertain => .uncertain
  | .bad => .bad

/-- The number a tag value stands for, or why it is none. -/
def parseF32Value (tag : String) (value : TagValue) : Except Text ℚ :=
  match value.parsed with
  | .notANumber => .error (text ("tag '" ++ tag ++ "' value '" ++ value.value ++
      "' is not a number"))
  | .notFinite => .error (text ("tag '" ++ tag ++ "' value '" ++ value.value ++
      "' is not a finite number"))
  | .finite v => .ok v

/-- The error of a reply that lacks a tag. -/
def noValue (tag : String) : Text := text ("driver returned no value for tag '" ++ tag ++ "'")

/-- The number in the first value of a reply, with its quality. -/
def numericSample (tag : String) (values : List TagValue) : Except Text (ℚ × Quality) :=
  match values.head? with
  | none => .error (noValue tag)
  | some value => (parseF32Value tag value).map fun v => (v, value.quality)

/-- A reply collected into a map by tag; of two values for one tag the later one stays. -/
def batchGet (values : List TagValue) (tag : String) : Option TagValue :=
  values.reverse.find? fun value => value.tag == tag

/-- `read_numeric_from_batch`. -/
def readNumericFromBatch (values : List TagValue) (tag : String) : Except Text (ℚ × Quality) :=
  match batchGet values tag with
  | none => .error (noValue tag)
  | some value => (parseF32Value tag value).map fun v => (v, value.quality)

/-- `read_batch_raw`. -/
def readBatchRaw (values : List TagValue) (tag : String) (allowUncertain : Bool) :
    Except Text String :=
  match batchGet values tag with
  | none => .error (noValue tag)
  | some value => (checkQuality tag value.quality allowUncertain).map fun _ => value.value

/-- `read_batch_f32`. -/
def readBatchF32 (values : List TagValue) (tag : String) (allowUncertain : Bool) :
    Except Text ℚ :=
  match batchGet values tag with
  | none => .error (noValue tag)
  | some value => do
    checkQuality tag value.quality allowUncertain
    parseF32Value tag value

/-- The number a read brought for a tag, as the code looks it up in the reply. -/
def ReadCall.numeric (call : ReadCall) (tag : String) : Option (ℚ × Quality) :=
  match call.result with
  | .values values =>
    match call.kind with
    | .first => if call.tags = [tag] then (numericSample tag values).toOption else none
    | .byName => (readNumericFromBatch values tag).toOption
  | _ => none

/-- The number of a read that the quality policy accepts. -/
def ReadCall.accepted (call : ReadCall) (tag : String) (allowUncertain : Bool) : Option ℚ :=
  match call.numeric tag with
  | some (v, quality) => if acceptable quality allowUncertain then some v else none
  | none => none

/-- The first value of an unbounded single-tag read, past the quality policy. -/
def readFirst (tag : String) (allowUncertain : Bool) : Io TagValue := do
  let values ← driverRead .first [tag]
  match values.head? with
  | none => bail (noValue tag)
  | some value => do
    liftResult (checkQuality tag value.quality allowUncertain)
    return value

/-- `read_raw`. -/
def readRaw (tag : String) (allowUncertain : Bool) : Io String :=
  return (← readFirst tag allowUncertain).value

/-- `read_f32`. -/
def readF32 (tag : String) (allowUncertain : Bool) : Io ℚ := do
  let value ← readFirst tag allowUncertain
  liftResult (parseF32Value tag value)

/-- `read_numeric_sample` under `bounded_driver_call`. -/
def readNumericSample (limit : Option Instant) (opTimeoutSecs : ℕ) (tag : String) :
    Io (Option (TickOperation (ℚ × Quality))) := do
  match ← boundedRead limit opTimeoutSecs .first [tag] with
  | some (.completed values) => do
    let sample ← liftResult (numericSample tag values)
    return some (.completed sample)
  | some .cancelled => return some .cancelled
  | some .timedOut => return some .timedOut
  | none => return none

/-- `read_poll_batch` under `bounded_driver_call`. -/
def readPollBatch (opTimeoutSecs : ℕ) (pvTag : String) (mvTag : Option String) :
    Io (TickOperation (List TagValue)) :=
  let requested :=
    match mvTag with
    | some tag => if tag ≠ pvTag then [pvTag, tag] else [pvTag]
    | none => [pvTag]
  bounded (boundedRead none opTimeoutSecs .byName requested)

/-- `write_raw`. -/
def writeRaw (scope : Option Instant) (origin : Origin) (tag value : String) : Io Unit :=
  driverWrite scope origin tag (.raw value)

/-- `write_value`. -/
def writeValue (scope : Option Instant) (origin : Origin) (tag : String) (value : ℚ) : Io Unit :=
  driverWrite scope origin tag (.float value)

/-- `resolve_f32_from_batch`; a fixed value of the model is finite. -/
def resolveF32FromBatch (values : List TagValue) (input : TagOrValue ℚ) (allowUncertain : Bool) :
    Except Text ℚ :=
  match input with
  | .value v => .ok v
  | .tag tag => readBatchF32 values tag allowUncertain

/-- `ControllerDirection::from_raw_tag_value`. -/
def ControllerDirection.fromRawTagValue (rawValue controllerActionDirectValue : String) :
    ControllerDirection :=
  if rawValue = controllerActionDirectValue then .direct else .reverse

/-- `resolve_direction_from_batch`. -/
def resolveDirectionFromBatch (values : List TagValue) (input : TagOrValue ControllerDirection)
    (template : DcsTemplate) (allowUncertain : Bool) : Except Text ControllerDirection :=
  match input with
  | .value d => .ok d
  | .tag tag => (readBatchRaw values tag allowUncertain).map fun raw =>
      ControllerDirection.fromRawTagValue raw template.controllerActionDirectValue

/-! ### Frames -/

section Frames

variable {α τ : Type} {p : Event → Prop} {part : Program → τ}

theorem keeps_liftResult {F : Frame Sys} (r : Except Text α) : Keeps F (liftResult r) := by
  cases r with
  | ok a => exact .pure a
  | error e => exact keeps_bail e

theorem keeps_readFirst (h : ∀ call, p (.read call)) (tag : String) (allowUncertain : Bool) :
    Keeps (within p part) (readFirst tag allowUncertain) := by
  refine (keeps_driverRead h).bind fun values => ?_
  cases values.head? with
  | none => exact keeps_bail _
  | some value => exact (keeps_liftResult _).bind fun _ => .pure _

theorem keeps_readF32 (h : ∀ call, p (.read call)) (tag : String) (allowUncertain : Bool) :
    Keeps (within p part) (readF32 tag allowUncertain) :=
  (keeps_readFirst h _ _).bind fun _ => keeps_liftResult _

theorem keeps_readNumericSample (h : ∀ call, p (.read call)) (limit : Option Instant)
    (opTimeoutSecs : ℕ) (tag : String) :
    Keeps (within p part) (readNumericSample limit opTimeoutSecs tag) := by
  refine (keeps_boundedRead h).bind fun r => ?_
  match r with
  | some (.completed values) => exact (keeps_liftResult _).bind fun _ => .pure _
  | some .cancelled => exact .pure _
  | some .timedOut => exact .pure _
  | none => exact .pure _

theorem keeps_readPollBatch (h : ∀ call, p (.read call)) (opTimeoutSecs : ℕ) (pvTag : String)
    (mvTag : Option String) : Keeps (within p part) (readPollBatch opTimeoutSecs pvTag mvTag) :=
  keeps_bounded (keeps_boundedRead h)

end Frames

/-! ### What a numeric read brings -/

section Specs

variable {α : Type} {s : Sys}

@[simp] theorem wlp_liftResult {Q : α → Sys → Prop} (r : Except Text α) :
    wlp (liftResult r) Q s ↔ ∀ a, r = .ok a → Q a s := by
  cases r with
  | error e => exact ⟨fun _ _ h => (nomatch h), fun _ => trivial⟩
  | ok a =>
    refine ⟨fun h b hb => ?_, fun h => h a rfl⟩
    cases hb
    exact h

theorem readNumericSample_spec (limit : Option Instant) (opTimeoutSecs : ℕ) (tag : String) :
    wlp (readNumericSample limit opTimeoutSecs tag)
      (fun r s' => ∃ call, HasRead .first [tag] s s' call ∧
        ∀ v q, r = some (.completed (v, q)) → call.numeric tag = some (v, q)) s := by
  refine wlp_seq (boundedRead_spec _ _ _ _) ?_
  rintro r s' ⟨call, hcall, hr⟩
  match r with
  | some (.completed values) =>
    refine wp_bind.mpr ((wlp_liftResult _).mpr fun sample hsample => ⟨call, hcall, ?_⟩)
    intro v q hvq
    cases hvq
    simp only [ReadCall.numeric, hr values rfl, hcall.kind, hcall.tags, if_true, hsample,
      Except.toOption]
  | some .cancelled => exact ⟨call, hcall, nofun⟩
  | some .timedOut => exact ⟨call, hcall, nofun⟩
  | none => exact ⟨call, hcall, nofun⟩

theorem readPollBatch_spec (opTimeoutSecs : ℕ) (pvTag : String) (mvTag : Option String) :
    wlp (readPollBatch opTimeoutSecs pvTag mvTag)
      (fun r s' => ∃ call, (∃ tags, HasRead .byName tags s s' call) ∧
        ∀ values, r = .completed values → call.result = .values values) s := by
  refine wlp_seq (boundedRead_spec _ _ _ _) ?_
  rintro r s' ⟨call, hcall, hr⟩
  cases r with
  | none => trivial
  | some operation => exact ⟨call, ⟨_, hcall⟩, fun values h => hr values (congrArg some h)⟩

theorem accepted_of_failed {call : ReadCall} {e : String} (h : call.result = .failed e)
    (tag : String) (allowUncertain : Bool) : call.accepted tag allowUncertain = none := by
  simp only [ReadCall.accepted, ReadCall.numeric, h]

theorem accepted_of_values {call : ReadCall} {tag : String} {values : List TagValue}
    (hkind : call.kind = .first) (htags : call.tags = [tag]) (h : call.result = .values values)
    (allowUncertain : Bool) :
    call.accepted tag allowUncertain =
      match (numericSample tag values).toOption with
      | some (v, quality) => if acceptable quality allowUncertain then some v else none
      | none => none := by
  simp only [ReadCall.accepted, ReadCall.numeric, h, hkind, htags, if_true]

/-- **What `read_f32` did**: its read is on record, and it returns what the policy accepts. -/
theorem readF32_spec (tag : String) (allowUncertain : Bool) :
    returns (readF32 tag allowUncertain)
      (fun r s' => ∃ call, HasRead .first [tag] s s' call ∧
        call.accepted tag allowUncertain = r.toOption) s := by
  refine wp_bind.mpr (wp_bind.mpr (wp_mono (driverRead_spec _ _) ?_ ?_))
  · rintro values s' ⟨call, hcall, hresult⟩
    have haccepted := accepted_of_values hcall.kind hcall.tags hresult allowUncertain
    cases hhead : values.head? with
    | none =>
      rintro _ ⟨rfl⟩
      exact ⟨call, hcall, by rw [haccepted]; simp only [numericSample, hhead, Except.toOption]⟩
    | some value =>
      have hsample : numericSample tag values =
          (parseF32Value tag value).map fun v => (v, value.quality) := by
        simp only [numericSample, hhead]
      rw [hsample] at haccepted
      refine wp_bind.mpr ?_
      cases hquality : checkQuality tag value.quality allowUncertain with
      | error e =>
        rintro _ ⟨rfl⟩
        have hpoor : ¬acceptable value.quality allowUncertain = true := by
          rw [← checkQuality_ok_iff tag, hquality]
          nofun
        refine ⟨call, hcall, haccepted.trans ?_⟩
        cases parseF32Value tag value with
        | error e => rfl
        | ok v => exact if_neg hpoor
      | ok _ =>
        have hgood : acceptable value.quality allowUncertain = true := by
          rw [← checkQuality_ok_iff tag, hquality]
        cases hparse : parseF32Value tag value with
        | error e =>
          show wp (liftResult (parseF32Value tag value)) _ _ s'
          rw [hparse] at haccepted ⊢
          rintro _ ⟨rfl⟩
          exact ⟨call, hcall, haccepted⟩
        | ok v =>
          show wp (liftResult (parseF32Value tag value)) _ _ s'
          rw [hparse] at haccepted ⊢
          exact ⟨call, hcall, haccepted.trans (if_pos hgood)⟩
  · rintro f s' (rfl | ⟨call, hcall, e, hfailed⟩)
    · nofun
    · exact fun _ _ => ⟨call, hcall, accepted_of_failed hfailed _ _⟩

theorem numeric_of_batch {call : ReadCall} {values : List TagValue} {tag : String}
    {sample : ℚ × Quality} (hkind : call.kind = .byName) (hresult : call.result = .values values)
    (h : readNumericFromBatch values tag = .ok sample) : call.numeric tag = some sample := by
  simp only [ReadCall.numeric, hresult, hkind, h, Except.toOption]

end Specs

end Bhtune
