import Mathlib.Data.List.ReduceOption
import Bhtune.Runtime.ModeWrites
import Bhtune.Runtime.Preflight
import Bhtune.Runtime.RelaySteps

/-!
# Whether an execution accepts what the preflight accepted

Both look at one request, one configuration, one template and one plant: tags that hold the same
value whoever reads them, and in whatever company.

* `Plant` — what the tags hold, and the replies made of it;
* `preflight_passed` — what a report without a failed check says;
* `preflight_agrees_iff` — when the execution then raises no error.
-/

namespace Bhtune

open BinaryFloat Effect

/-! ### Plants -/

/-- What a tag holds. -/
structure TagReading where
  value : String
  parsed : ParsedF32
  quality : Quality
  deriving DecidableEq

/-- Tags that hold the same value whoever reads them; some are not there. -/
abbrev Plant := String → Option TagReading

namespace Plant

variable (plant : Plant)

/-- The value a tag is read with. -/
def valueOf (tag : String) : Option TagValue :=
  (plant tag).map fun reading => ⟨tag, reading.value, reading.parsed, reading.quality⟩

/-- The reply to a read: the tags that are there, in the order asked. -/
def reply (tags : List String) : List TagValue := tags.filterMap plant.valueOf

/-- A read of the plant. -/
def read (tags : List String) : Except Text (List TagValue) := .ok (plant.reply tags)

/-- The number of an input, if it is one. -/
def number : TagOrValue ℚ → Option ℚ
  | .value v => some v
  | .tag tag => (plant tag).bind fun reading =>
    match reading.parsed with
    | .finite v => some v
    | _ => none

variable {plant}

theorem tag_of_valueOf {tag : String} {value : TagValue} (h : plant.valueOf tag = some value) :
    value.tag = tag := by
  obtain ⟨_, _, rfl⟩ := Option.map_eq_some_iff.mp h
  rfl

/-- The value of a tag that was asked for is in the reply, under its name. -/
theorem batchGet_reply (tags : List String) {tag : String} (h : tag ∈ tags) :
    batchGet (plant.reply tags) tag = plant.valueOf tag := by
  have hmem : tag ∈ tags.reverse := List.mem_reverse.mpr h
  unfold batchGet reply
  rw [← List.filterMap_reverse]
  revert hmem
  generalize tags.reverse = asked
  intro hmem
  induction asked with
  | nil => cases hmem
  | cons first rest ih =>
    by_cases hfirst : first = tag
    · subst hfirst
      cases hvalue : plant.valueOf first with
      | none =>
        rw [List.filterMap_cons_none hvalue]
        by_cases hrest : first ∈ rest
        · rw [ih hrest, hvalue]
        · refine List.find?_eq_none.mpr fun value hmem => ?_
          obtain ⟨tag, htag, hread⟩ := List.mem_filterMap.mp hmem
          intro heq
          rw [tag_of_valueOf hread, beq_iff_eq] at heq
          exact hrest (heq ▸ htag)
      | some value =>
        rw [List.filterMap_cons_some hvalue]
        exact List.find?_cons_of_pos (by simp [tag_of_valueOf hvalue])
    · have hmem : tag ∈ rest := (List.mem_cons.mp hmem).resolve_left fun h => hfirst h.symm
      cases hvalue : plant.valueOf first with
      | none =>
        rw [List.filterMap_cons_none hvalue]
        exact ih hmem
      | some value =>
        rw [List.filterMap_cons_some hvalue,
          List.find?_cons_of_neg (by simp [tag_of_valueOf hvalue, hfirst])]
        exact ih hmem

end Plant

/-! ### The tags asked for -/

theorem mem_foldl_requestTag (requested tags : List String) (tag : String) :
    tag ∈ tags.foldl requestTag requested ↔ tag ∈ requested ∨ tag ∈ tags := by
  induction tags generalizing requested with
  | nil => simp
  | cons first rest ih =>
    have hstep : tag ∈ requestTag requested first ↔ tag ∈ requested ∨ tag = first := by
      unfold requestTag
      split
      · exact ⟨.inl, fun h => h.elim id fun h => h ▸ ‹first ∈ requested›⟩
      · simp
    rw [List.foldl_cons, ih, hstep, List.mem_cons, or_assoc]

theorem nodup_foldl_requestTag (requested tags : List String) (h : requested.Nodup) :
    (tags.foldl requestTag requested).Nodup := by
  induction tags generalizing requested with
  | nil => exact h
  | cons first rest ih =>
    refine ih _ ?_
    unfold requestTag
    split
    · exact h
    · exact List.nodup_append.mpr ⟨h, List.pairwise_singleton _ _, by
        rintro a ha b hb rfl
        exact ‹first ∉ requested› (List.mem_singleton.mp hb ▸ ha)⟩

theorem map_tag_addDerived (derived : List DerivedTag) (entry : Option String × String) :
    (addDerived derived entry).map (·.tag) =
      entry.1.toList.foldl requestTag (derived.map (·.tag)) := by
  unfold addDerived
  cases entry.1 with
  | none => rfl
  | some tag =>
    have hlisted : (derived.any fun d => d.tag = tag) = true ↔ tag ∈ derived.map (·.tag) := by
      simp
    show (ite _ _ _ : List DerivedTag).map _ = requestTag (derived.map (·.tag)) tag
    unfold requestTag
    by_cases h : tag ∈ derived.map (·.tag)
    · rw [if_pos (hlisted.mpr h), if_pos h, List.map_map]
      refine List.map_congr_left fun d _ => ?_
      show (ite _ _ _ : DerivedTag).tag = d.tag
      split <;> rfl
    · rw [if_neg (mt hlisted.mp h), if_neg h, List.map_append]
      rfl

/-- The tags of the derived list are those of the roles, each once. -/
theorem map_tag_derivedTags (tags : LoopTags) :
    (derivedTags tags).map (·.tag) =
      (tags.roles.map Prod.fst).reduceOption.foldl requestTag [] := by
  unfold derivedTags
  suffices h : ∀ (roles : List (Option String × String)) (derived : List DerivedTag),
      (roles.foldl addDerived derived).map (·.tag) =
        (roles.map Prod.fst).reduceOption.foldl requestTag (derived.map (·.tag)) from h _ []
  intro roles
  induction roles with
  | nil => exact fun _ => rfl
  | cons entry rest ih =>
    intro derived
    rw [List.foldl_cons, ih, map_tag_addDerived, List.map_cons]
    cases entry.1 <;> rfl

/-- What the preflight collects of the plant's reply is the reply. -/
theorem collectValues_reply (plant : Plant) {asked : List String} (h : asked.Nodup) :
    collectValues asked (plant.reply asked) = ⟨plant.reply asked, [], []⟩ := by
  -- generalised to the values that were collected before
  suffices hrest : ∀ values before : List TagValue,
      (∀ value ∈ values, value.tag ∈ asked) →
      ((before ++ values).map (·.tag)).Nodup →
      values.foldl (collectValue asked) ⟨before, [], []⟩ = ⟨before ++ values, [], []⟩ by
    have hnames : (plant.reply asked).map (·.tag) = asked.filter fun tag => (plant tag).isSome := by
      unfold Plant.reply
      rw [List.map_filterMap, ← List.filterMap_eq_filter]
      refine List.filterMap_congr fun tag _ => ?_
      cases hread : plant tag <;> simp [Plant.valueOf, hread, Option.guard]
    refine hrest _ [] (fun value hvalue => ?_) ?_
    · have := List.mem_map_of_mem (f := TagValue.tag) hvalue
      rw [hnames] at this
      exact List.mem_of_mem_filter this
    · rw [List.nil_append, hnames]
      exact h.filter _
  intro values
  induction values with
  | nil => exact fun before _ _ => by rw [List.append_nil, List.foldl_nil]
  | cons value rest ih =>
    intro before hasked hnodup
    have hfresh : (before.any fun v => v.tag = value.tag) = false := by
      rw [List.map_append, List.nodup_append] at hnodup
      refine List.any_eq_false.mpr fun v hv => ?_
      simpa using hnodup.2.2 _ (List.mem_map_of_mem hv) _ List.mem_cons_self
    have hstep : collectValue asked ⟨before, [], []⟩ value = ⟨before ++ [value], [], []⟩ := by
      unfold collectValue
      rw [if_neg (not_not.mpr (hasked value List.mem_cons_self)), hfresh]
      rfl
    rw [List.foldl_cons, hstep, ih _ (fun v hv => hasked v (List.mem_cons_of_mem _ hv))
      (by rwa [List.append_assoc]), List.append_assoc]
    rfl

theorem mem_derivedTags {tags : LoopTags} {entry : Option String × String} {tag : String}
    (hentry : entry ∈ tags.roles) (htag : entry.1 = some tag) :
    tag ∈ (derivedTags tags).map (·.tag) := by
  rw [map_tag_derivedTags, mem_foldl_requestTag, List.reduceOption_mem_iff, ← htag]
  exact .inr (List.mem_map_of_mem hentry)

/-- The tags an execution asks for at first are all derived ones. -/
theorem mem_derivedTags_of_initialTags {tags : LoopTags} {tag : String}
    (h : tag ∈ initialTags tags) : tag ∈ (derivedTags tags).map (·.tag) := by
  rw [map_tag_derivedTags, mem_foldl_requestTag, List.reduceOption_mem_iff]
  unfold initialTags at h
  rw [mem_foldl_requestTag, List.mem_append, List.reduceOption_mem_iff] at h
  simp only [List.mem_cons, List.not_mem_nil, or_false, false_or] at h
  simp only [LoopTags.roles, List.map_cons, List.map_nil, List.mem_cons, Option.some.injEq]
  tauto

theorem mem_initialTags {tags : LoopTags} {tag : String}
    (h : some tag ∈ [some tags.processVariable, some tags.manipulatedVariable, tags.controllerMode,
      tags.modeAttribute, tags.controllerDirection.requested, tags.upperPvRange.requested,
      tags.lowerPvRange.requested, tags.upperMvRange.requested, tags.lowerMvRange.requested]) :
    tag ∈ initialTags tags := by
  unfold initialTags
  rw [mem_foldl_requestTag, List.mem_append, List.reduceOption_mem_iff]
  simp only [List.mem_cons, List.not_mem_nil, or_false, Option.some.injEq] at h ⊢
  tauto

/-! ### The readings of an execution -/

/-- The driver answers the reads of an execution from the plant. -/
structure Sys.Answers (s : Sys) (plant : Plant) (tags : LoopTags) : Prop where
  batch : (s.environment.answers s.cursor).values = .ok (plant.reply (initialTags tags))
  setpoint : ∀ tag, tags.setpointVariable = some tag →
    (s.environment.answers (s.cursor + 1)).values = .ok (plant.reply [tag])

/-- Some await of the outside never ends. -/
def Environment.Stalls (environment : Environment) : Prop :=
  ∃ n, (environment.answers n).latency = none

theorem driverRead_answered {s : Sys} {values : List TagValue}
    (h : s.nextAnswer.values = .ok values) (kind : ReadKind) (tags : List String) :
    wp (driverRead kind tags)
      (fun r s' => r = values ∧ s'.environment = s.environment ∧ s'.cursor = s.cursor + 1)
      (fun f _ => f = .hung ∧ s.environment.Stalls) s := by
  refine wp_bind.mpr (wp_now.mpr (wp_bind.mpr (wp_get.mpr ?_)))
  refine wp_bind.mpr (wp_bind.mpr (wp_bind.mpr (wp_get.mpr ?_)))
  cases hlatency : s.nextAnswer.latency with
  | none => exact ⟨rfl, s.cursor, hlatency⟩
  | some latency =>
    show wp (do emit _; s.nextAnswer.readValues) _ _ _
    refine wp_bind.mpr ((wp_emit _).mpr ?_)
    unfold Answer.readValues
    rw [h]
    exact ⟨rfl, rfl, rfl⟩

section Readings

variable {plant : Plant} {values values' : List TagValue} {allowUncertain : Bool}

theorem optionalRaw_congr {tag : Option String}
    (h : ∀ name, tag = some name → batchGet values name = batchGet values' name) :
    optionalRaw values tag allowUncertain = optionalRaw values' tag allowUncertain := by
  cases tag with
  | none => rfl
  | some name =>
    simp only [optionalRaw, readBatchRaw, h name rfl]

theorem resolveF32FromBatch_congr {input : TagOrValue ℚ}
    (h : ∀ name, input.requested = some name → batchGet values name = batchGet values' name) :
    resolveF32FromBatch values input allowUncertain =
      resolveF32FromBatch values' input allowUncertain := by
  cases input with
  | value v => rfl
  | tag name =>
    simp only [resolveF32FromBatch, readBatchF32, h name rfl]

theorem resolveDirectionFromBatch_congr {input : TagOrValue ControllerDirection}
    {template : DcsTemplate}
    (h : ∀ name, input.requested = some name → batchGet values name = batchGet values' name) :
    resolveDirectionFromBatch values input template allowUncertain =
      resolveDirectionFromBatch values' input template allowUncertain := by
  cases input with
  | value v => rfl
  | tag name =>
    simp only [resolveDirectionFromBatch, readBatchRaw, h name rfl]

/-- A tag read on its own gives the number it had in a batch. -/
theorem readF32_answered {s : Sys} {asked : List String} {tag : String} {v : ℚ}
    (hmem : tag ∈ asked) (h : s.nextAnswer.values = .ok (plant.reply [tag]))
    (hv : readBatchF32 (plant.reply asked) tag allowUncertain = .ok v) :
    wp (readF32 tag allowUncertain) (fun r _ => r = v)
      (fun f _ => f = .hung ∧ s.environment.Stalls) s := by
  unfold readBatchF32 at hv
  rw [Plant.batchGet_reply asked hmem] at hv
  cases hvalue : plant.valueOf tag with
  | none =>
    rw [hvalue] at hv
    cases hv
  | some value =>
    rw [hvalue] at hv
    dsimp only at hv
    refine wp_bind.mpr (wp_bind.mpr (wp_mono (driverRead_answered h _ _) ?_ fun _ _ h => h))
    rintro _ s' ⟨rfl, _, _⟩
    unfold Plant.reply
    rw [List.filterMap_cons_some hvalue]
    show wp (liftResult (checkQuality tag value.quality allowUncertain) >>= fun _ => pure value) _ _ _
    cases hquality : checkQuality tag value.quality allowUncertain with
    | error e =>
      rw [hquality] at hv
      cases hv
    | ok _ =>
      rw [hquality] at hv
      show wp (liftResult (parseF32Value tag value)) _ _ _
      rw [show parseF32Value tag value = .ok v from hv]
      rfl

/-- **What an execution reads** is the initial state the preflight made of its own batch. -/
theorem readInitialValues_answered {s : Sys} {ctx : RunContext} {initial : InitialState}
    (hs : s.Answers plant ctx.tags)
    (hinitial : initialStateFromBatch ctx.tags ctx.template
      (plant.reply ((derivedTags ctx.tags).map (·.tag))) ctx.allowUncertainQuality = .ok initial) :
    wp (readInitialValues ctx) (fun r _ => r = initial)
      (fun f _ => f = .hung ∧ s.environment.Stalls) s := by
  unfold initialStateFromBatch at hinitial
  simp only [bindResult_eq_ok] at hinitial
  obtain ⟨pvIni, hpv, mvIni, hmv, mode, hmode, modeAttribute, hattribute, setpoint, hsetpoint,
    direction, hdirection, pvHigh, hpvHigh, pvLow, hpvLow, mvHigh, hmvHigh, mvLow, hmvLow,
    hinitial⟩ := hinitial
  cases hinitial
  -- the two batches hold the same under every tag of the initial read
  have hsame : ∀ tag, tag ∈ initialTags ctx.tags →
      batchGet (plant.reply ((derivedTags ctx.tags).map (·.tag))) tag =
        batchGet (plant.reply (initialTags ctx.tags)) tag := by
    intro tag htag
    rw [Plant.batchGet_reply _ htag, Plant.batchGet_reply _ (mem_derivedTags_of_initialTags htag)]
  have hread : ∀ tag v, tag ∈ initialTags ctx.tags →
      readBatchF32 (plant.reply ((derivedTags ctx.tags).map (·.tag))) tag
        ctx.allowUncertainQuality = .ok v →
      readBatchF32 (plant.reply (initialTags ctx.tags)) tag ctx.allowUncertainQuality = .ok v := by
    intro tag v htag hv
    unfold readBatchF32 at hv ⊢
    rw [← hsame tag htag]
    exact hv
  refine wp_seq (driverRead_answered hs.batch _ _) ?_
  rintro _ s' ⟨rfl, henvironment, hcursor⟩
  rw [hread _ _ (mem_initialTags (by simp)) hpv, hread _ _ (mem_initialTags (by simp)) hmv,
    ← optionalRaw_congr fun tag htag => hsame tag (mem_initialTags (by simp [htag])), hmode,
    ← optionalRaw_congr fun tag htag => hsame tag (mem_initialTags (by simp [htag])), hattribute,
    ← resolveDirectionFromBatch_congr fun tag htag => hsame tag (mem_initialTags (by simp [htag])),
    hdirection,
    ← resolveF32FromBatch_congr fun tag htag => hsame tag (mem_initialTags (by simp [htag])),
    hpvHigh,
    ← resolveF32FromBatch_congr fun tag htag => hsame tag (mem_initialTags (by simp [htag])),
    hpvLow,
    ← resolveF32FromBatch_congr fun tag htag => hsame tag (mem_initialTags (by simp [htag])),
    hmvHigh,
    ← resolveF32FromBatch_congr fun tag htag => hsame tag (mem_initialTags (by simp [htag])),
    hmvLow]
  simp only [liftResult, pure_bind]
  unfold setpointFromBatch at hsetpoint
  cases htag : ctx.tags.setpointVariable with
  | none =>
    rw [htag] at hsetpoint
    cases hsetpoint
    rfl
  | some tag =>
    rw [htag] at hsetpoint
    cases mode with
    | none =>
      cases hsetpoint
      rfl
    | some raw =>
      dsimp only at hsetpoint ⊢
      split
      · rename_i hauto
        rw [if_pos hauto] at hsetpoint
        cases hv : readBatchF32 (plant.reply ((derivedTags ctx.tags).map (·.tag))) tag
            ctx.allowUncertainQuality with
        | error e =>
          rw [hv] at hsetpoint
          cases hsetpoint
        | ok v =>
          rw [hv] at hsetpoint
          cases hsetpoint
          have hanswer : s'.nextAnswer.values = .ok (plant.reply [tag]) := by
            unfold Sys.nextAnswer
            rw [henvironment, hcursor]
            exact hs.setpoint tag htag
          have hlisted : tag ∈ (derivedTags ctx.tags).map (·.tag) :=
            @mem_derivedTags _ (ctx.tags.setpointVariable, "setpoint_variable") _
              (by simp [LoopTags.roles]) htag
          have hread := readF32_answered hlisted hanswer hv
          rw [henvironment] at hread
          exact wp_bind.mpr (wp_mono hread (fun _ _ h => by rw [h]; rfl) fun _ _ h => h)
      · rename_i hauto
        rw [if_neg hauto] at hsetpoint
        cases hsetpoint
        rfl

end Readings

/-! ### What a passed preflight says -/

section Passed

variable (args : TuneRequest) (app : BhtuneConfig) (template : Option ResolvedTemplate)
variable (gateway : GatewayReplies) (plant : Plant)

/-- There is a report of the request, and no check of it failed. -/
def preflightPasses : Bool :=
  match preflight args app template gateway plant.read with
  | .ok report => !report.hasFailures
  | .error _ => false

/-- What the preflight found in order, with the initial state it made of the plant. -/
structure FoundInOrder (parts : PreparedParts) (initial : InitialState) : Prop where
  timing : resolveAndValidateTuningConfig app.tuning (args.driver = .opcda) = .ok parts.timing
  template : ∃ resolved, template = some resolved ∧ resolved.template = parts.template
  config : buildLoopConfigWithTiming args parts.timing = .ok parts.config
  tags : buildLoopTags args parts.template = .ok parts.tags
  gateway : args.driver = .opcda → (∃ server, resolveServer args.server app = .ok server) ∧
    ∃ compatibility, gateway.compatibility = .ok compatibility ∧
      compatibility.status ≠ .incompatible
  state : initialStateFromBatch parts.tags parts.template
    (plant.reply ((derivedTags parts.tags).map (·.tag))) app.allowUncertainQuality = .ok initial
  valid : validateInitialState initial = .ok ()

variable {args app template gateway plant}

/-- A gateway that is not ready leaves a failed check in the report; one that is ready is known
to be compatible. -/
theorem checkGatewayReadiness_ready {server : String} {report report' : PreflightReport}
    {ready : Bool} (h : checkGatewayReadiness gateway server report = .ok (ready, report')) :
    (report'.hasFailures = false → ready = true) ∧
      (ready = true → ∃ compatibility, gateway.compatibility = .ok compatibility ∧
        compatibility.status ≠ .incompatible) := by
  simp only [checkGatewayReadiness, bindResult_eq_ok] at h
  obtain ⟨compatibility, hcompatibility, servers, _, h⟩ := h
  cases h
  simp only [PreflightReport.hasFailures_push, Bool.or_eq_false_iff, decide_eq_false_iff_not,
    Bool.and_eq_true, decide_eq_true_eq]
  refine ⟨fun hclean => ⟨?_, fun hstatus => ?_⟩, fun h => ⟨compatibility, hcompatibility, h.2⟩⟩
  · by_contra hfound
    exact hclean.2 (if_neg hfound)
  · apply hclean.1.2
    unfold compatibilityStatus
    rw [hstatus]

/-- The same of the gateway's part of the report. -/
theorem preflightGateway_ready {report report' : PreflightReport} {ready : Bool}
    (h : preflightGateway args app gateway report = .ok (ready, report')) :
    (report'.hasFailures = false → ready = true) ∧
      (ready = true → args.driver = .opcda →
        (∃ server, resolveServer args.server app = .ok server) ∧
        ∃ compatibility, gateway.compatibility = .ok compatibility ∧
          compatibility.status ≠ .incompatible) := by
  unfold preflightGateway at h
  cases hdriver : args.driver with
  | opcda =>
    simp only [hdriver, bindResult_eq_ok] at h
    obtain ⟨server, hserver, h⟩ := h
    obtain ⟨hready, hcompatible⟩ := checkGatewayReadiness_ready h
    exact ⟨hready, fun h _ => ⟨⟨server, hserver⟩, hcompatible h⟩⟩
  | simulator =>
    rw [hdriver] at h
    cases h
    exact ⟨fun _ => rfl, nofun⟩

/-- The values read, when no check of them failed, make a valid initial state. -/
theorem preflightValues_clean {template : DcsTemplate} {tags : LoopTags}
    {report : PreflightReport}
    (hclean : (preflightValues args app template tags
      (plant.reply ((derivedTags tags).map (·.tag))) report).hasFailures = false) :
    ∃ initial, initialStateFromBatch tags template
      (plant.reply ((derivedTags tags).map (·.tag))) app.allowUncertainQuality = .ok initial ∧
      validateInitialState initial = .ok () := by
  have hnodup : ((derivedTags tags).map (·.tag)).Nodup := by
    rw [map_tag_derivedTags]
    exact nodup_foldl_requestTag _ _ .nil
  unfold preflightValues at hclean
  simp only [collectValues_reply plant hnodup, PreflightReport.hasFailures_push,
    Bool.or_eq_false_iff] at hclean
  have hinitial := hclean.1
  unfold preflightInitialState at hinitial
  split at hinitial
  · simp at hinitial
  · rename_i initial hok
    split at hinitial
    · simp at hinitial
    · rename_i hvalid
      exact ⟨initial, hok, hvalid⟩

/-- The part of the report that needs the gateway and the driver, when no check of it failed. -/
theorem preflightDriver_clean {template : DcsTemplate} {tags : LoopTags}
    {report report' : PreflightReport}
    (h : preflightDriver args app template tags gateway plant.read report = .ok report')
    (hclean : report'.hasFailures = false) :
    (args.driver = .opcda → (∃ server, resolveServer args.server app = .ok server) ∧
      ∃ compatibility, gateway.compatibility = .ok compatibility ∧
        compatibility.status ≠ .incompatible) ∧
    ∃ initial, initialStateFromBatch tags template
      (plant.reply ((derivedTags tags).map (·.tag))) app.allowUncertainQuality = .ok initial ∧
      validateInitialState initial = .ok () := by
  unfold preflightDriver at h
  obtain ⟨⟨ready, first⟩, hgateway, h⟩ := bindResult_eq_ok.mp h
  dsimp only at h
  split at h
  · rename_i hready
    cases h
    rw [(preflightGateway_ready hgateway).1 hclean] at hready
    cases hready
  · rename_i hready
    rw [Bool.not_eq_true', Bool.not_eq_false] at hready
    subst hready
    obtain ⟨_, _, h⟩ := bindResult_eq_ok.mp h
    cases h
    exact ⟨(preflightGateway_ready hgateway).2 rfl, preflightValues_clean hclean⟩

/-- **What a passed preflight says.** -/
theorem preflight_passed (h : preflightPasses args app template gateway plant = true) :
    ∃ parts initial, FoundInOrder args app template gateway plant parts initial := by
  unfold preflightPasses preflight at h
  cases htiming : resolveAndValidateTuningConfig app.tuning (args.driver = .opcda) with
  | error e =>
    rw [htiming] at h
    simp at h
  | ok timing =>
    rw [htiming] at h
    cases template with
    | none => simp at h
    | some resolved =>
      dsimp only at h
      cases hconfig : buildLoopConfigWithTiming args timing with
      | error e =>
        rw [hconfig] at h
        simp at h
      | ok config =>
        rw [hconfig] at h
        dsimp only at h
        cases htags : buildLoopTags args resolved.template with
        | error e =>
          rw [htags] at h
          simp at h
        | ok tags =>
          rw [htags] at h
          dsimp only at h
          split at h
          · rename_i report hreport
            rw [Bool.not_eq_true'] at h
            obtain ⟨hgateway, initial, hinitial, hvalid⟩ := preflightDriver_clean hreport h
            exact ⟨⟨timing, resolved.template, config, tags⟩, initial, htiming,
              ⟨resolved, rfl, rfl⟩, hconfig, htags, hgateway, hinitial, hvalid⟩
          · cases h

/-- What `prepare` then makes of the request. -/
theorem FoundInOrder.prepareChecks_iff {parts : PreparedParts} {initial : InitialState}
    (h : FoundInOrder args app template gateway plant parts initial) (made : PreparedParts) :
    prepareChecks args app template gateway = .ok made ↔
      (args.writePid.isSome = true → args.yes = true) ∧ made = parts := by
  obtain ⟨resolved, rfl, hresolved⟩ := h.template
  have hserver : requireServer args app = .ok () := by
    unfold requireServer
    cases hdriver : args.driver with
    | simulator => rfl
    | opcda =>
      obtain ⟨⟨server, hserver⟩, _⟩ := h.gateway hdriver
      dsimp only
      rw [hserver]
      rfl
  have hgateway : requireLiveGatewayCompatible args gateway = .ok () := by
    unfold requireLiveGatewayCompatible
    cases hdriver : args.driver with
    | simulator => rfl
    | opcda =>
      obtain ⟨_, compatibility, hcompatibility, hstatus⟩ := h.gateway hdriver
      simp only [hcompatibility, OpcDaGatewayCompatibility.liveMutationRefusal, if_neg hstatus]
  have htemplate : requireTemplate args (some resolved) = .ok parts.template :=
    congrArg Except.ok hresolved
  unfold prepareChecks
  simp only [bindResult_eq_ok, ← requireConfirmation_iff]
  constructor
  · rintro ⟨_, hok, timing, htiming, _, _, _, htemplate', config, hconfig, tags, htags, _, _, hmade⟩
    cases h.timing.symm.trans htiming
    cases htemplate.symm.trans htemplate'
    cases h.config.symm.trans hconfig
    cases h.tags.symm.trans htags
    cases hmade
    exact ⟨hok, rfl⟩
  · rintro ⟨hok, rfl⟩
    exact ⟨(), hok, _, h.timing, (), hserver, _, htemplate, _, h.config, _, h.tags, (), hgateway,
      rfl⟩

end Passed

/-! ### What an execution makes of it -/

section Execution

variable (args : TuneRequest) (app : BhtuneConfig) (template : Option ResolvedTemplate)
variable (gateway : GatewayReplies) (plant : Plant)

/-- `prepare` accepts the request, and whatever run the plant answers, its checks before the first
write raise nothing: it goes on, or waits for an answer that never comes. -/
def ExecutionAccepts : Prop :=
  ∃ parts, prepareChecks args app template gateway = .ok parts ∧
    ∀ arith runId timeAnchor s, s.Answers plant parts.tags → ∀ f s',
      checkInitialState (parts.context args app arith runId timeAnchor) s = .error f s' → f = .hung

/-- A request that writes PID constants back with nobody present confirms it. -/
def TuneRequest.Confirmed (args : TuneRequest) : Prop :=
  args.writePid.isSome = true → args.yes = true

/-- The step of the relay of an OPC DA run, clamped to the range of the MV in `f32`, can be verified
from the MV that is read. -/
def RelayStepVerifiable : Prop :=
  args.driver = .opcda → ∀ resolved tags mv high low, template = some resolved →
    buildLoopTags args resolved.template = .ok tags →
    plant.number (.tag tags.manipulatedVariable) = some mv →
    plant.number tags.upperMvRange = some high → plant.number tags.lowerMvRange = some low →
    let step := clampRelayAmplitude (Single.ofRat args.relayAmp) (Single.ofRat mv)
      (Single.ofRat low) (Single.ofRat high)
    Verifiable (Single.ofRat mv + step) (Single.ofRat mv)

variable {args app template gateway plant}

theorem number_of_readBatchF32 {asked : List String} {tag : String} {allowUncertain : Bool}
    {v : ℚ} (hmem : tag ∈ asked)
    (h : readBatchF32 (plant.reply asked) tag allowUncertain = .ok v) :
    plant.number (.tag tag) = some v := by
  unfold readBatchF32 at h
  rw [Plant.batchGet_reply _ hmem] at h
  unfold Plant.valueOf at h
  show (plant tag).bind _ = some v
  cases hread : plant tag with
  | none =>
    rw [hread] at h
    cases h
  | some reading =>
    rw [hread] at h
    obtain ⟨_, _, h⟩ := bindResult_eq_ok.mp h
    obtain ⟨value, parsed, quality⟩ := reading
    cases parsed with
    | finite w =>
      cases h
      rfl
    | notANumber => cases h
    | notFinite => cases h

/-- The number of an input that was resolved. -/
theorem number_of_resolveF32FromBatch {asked : List String} {input : TagOrValue ℚ}
    {allowUncertain : Bool} {v : ℚ} (hmem : ∀ tag, input.requested = some tag → tag ∈ asked)
    (h : resolveF32FromBatch (plant.reply asked) input allowUncertain = .ok v) :
    plant.number input = some v := by
  cases input with
  | value w =>
    cases h
    rfl
  | tag tag => exact number_of_readBatchF32 (hmem tag rfl) h

/-- The checks of an execution come to the check of the relay step. -/
theorem FoundInOrder.checkInitialState {parts : PreparedParts} {initial : InitialState}
    (h : FoundInOrder args app template gateway plant parts initial) (arith : MachineInt.IntArith)
    (runId : ℕ) (timeAnchor : RunTimeAnchor) {s : Sys} (hs : s.Answers plant parts.tags) :
    wp (checkInitialState (parts.context args app arith runId timeAnchor))
      (fun _ _ => validateRelayActuationStep
        (parts.context args app arith runId timeAnchor) initial = .ok ())
      (fun f _ => f = .hung ∧ s.environment.Stalls ∨ ∃ e, f = .err e ∧ validateRelayActuationStep
        (parts.context args app arith runId timeAnchor) initial = .error e) s := by
  have hread : wp (readInitialValues (parts.context args app arith runId timeAnchor))
      (fun r _ => r = initial) (fun f _ => f = .hung ∧ s.environment.Stalls) s :=
    readInitialValues_answered hs h.state
  refine wp_bind.mpr (wp_mono hread ?_ fun _ _ h => .inl h)
  rintro _ s' rfl
  rw [h.valid]
  show wp (liftResult _ >>= fun _ => pure _) _ _ s'
  cases hstep : validateRelayActuationStep
      (parts.context args app arith runId timeAnchor) _ with
  | ok _ => rfl
  | error e => exact .inr ⟨e, rfl, rfl⟩

theorem buildLoopConfigWithTiming_ok {timing : EffectiveTiming} {config : LoopConfig ℚ}
    (h : buildLoopConfigWithTiming args timing = .ok config) :
    config.relayAmpPercent = args.relayAmp ∧ config.validate = .ok () := by
  unfold buildLoopConfigWithTiming at h
  split at h
  · cases h
  · dsimp only at h
    split at h
    · rename_i hvalid
      cases h
      exact ⟨rfl, hvalid⟩
    · cases h

/-- The numbers of the initial state that the relay step is made of. -/
theorem FoundInOrder.numbers {parts : PreparedParts} {initial : InitialState}
    (h : FoundInOrder args app template gateway plant parts initial) :
    plant.number (.tag parts.tags.manipulatedVariable) = some initial.mvIni ∧
      plant.number parts.tags.upperMvRange = some initial.mvRangeHigh ∧
      plant.number parts.tags.lowerMvRange = some initial.mvRangeLow := by
  have hstate := h.state
  unfold initialStateFromBatch at hstate
  simp only [bindResult_eq_ok] at hstate
  obtain ⟨_, _, _, hmv, _, _, _, _, _, _, _, _, _, _, _, _, _, hhigh, _, hlow, hstate⟩ := hstate
  cases hstate
  have hasked : ∀ tag, tag ∈ initialTags parts.tags →
      tag ∈ (derivedTags parts.tags).map (·.tag) := fun _ => mem_derivedTags_of_initialTags
  refine ⟨number_of_readBatchF32 (hasked _ (mem_initialTags (by simp))) hmv,
    number_of_resolveF32FromBatch (fun tag htag => ?_) hhigh,
    number_of_resolveF32FromBatch (fun tag htag => ?_) hlow⟩
  · exact hasked _ (mem_initialTags (by simp [htag]))
  · exact hasked _ (mem_initialTags (by simp [htag]))

/-- What the check of the relay step looks at. -/
theorem FoundInOrder.relayStep_iff {parts : PreparedParts} {initial : InitialState}
    (h : FoundInOrder args app template gateway plant parts initial) (arith : MachineInt.IntArith)
    (runId : ℕ) (timeAnchor : RunTimeAnchor) :
    validateRelayActuationStep (parts.context args app arith runId timeAnchor) initial = .ok () ↔
      RelayStepVerifiable args template plant := by
  obtain ⟨hmv, hhigh, hlow⟩ := h.numbers
  obtain ⟨hamp, -⟩ := buildLoopConfigWithTiming_ok h.config
  obtain ⟨resolved, hresolved, htemplate⟩ := h.template
  have hamplitude : amplitude32 (parts.context args app arith runId timeAnchor) initial =
      clampRelayAmplitude (Single.ofRat args.relayAmp) (Single.ofRat initial.mvIni)
        (Single.ofRat initial.mvRangeLow) (Single.ofRat initial.mvRangeHigh) := by
    rw [← hamp]
    rfl
  by_cases hdriver : args.driver = .opcda
  · rw [validateRelayActuationStep_single_iff hdriver rfl, hamplitude]
    constructor
    · intro hstep _ resolved' tags mv high low hresolved' htags hmv' hhigh' hlow'
      cases hresolved.symm.trans hresolved'
      have htags' := h.tags
      rw [← htemplate, htags] at htags'
      cases htags'
      cases hmv.symm.trans hmv'
      cases hhigh.symm.trans hhigh'
      cases hlow.symm.trans hlow'
      exact hstep
    · intro hstep
      have htags := h.tags
      rw [← htemplate] at htags
      exact hstep hdriver _ _ _ _ _ hresolved htags hmv hhigh hlow
  · refine ⟨fun _ h => absurd h hdriver, fun _ => ?_⟩
    unfold validateRelayActuationStep
    exact if_pos hdriver

/-- A driver that answers an execution from the plant at once. -/
def Plant.environment (plant : Plant) (tags : LoopTags) : Environment where
  answers := fun n =>
    if n = 0 then { values := .ok (plant.reply (initialTags tags)) }
    else { values := .ok (plant.reply tags.setpointVariable.toList) }
  signals := []
  signals_sorted := Environment.noSignals_sorted

theorem answers_environment (plant : Plant) (tags : LoopTags) :
    (flowSys (plant.environment tags)).Answers plant tags where
  batch := rfl
  setpoint := fun tag htag => by
    show Except.ok (plant.reply tags.setpointVariable.toList) = _
    rw [htag]
    rfl

theorem not_stalls_environment (plant : Plant) (tags : LoopTags) :
    ¬(plant.environment tags).Stalls := by
  rintro ⟨n, hn⟩
  unfold Plant.environment at hn
  dsimp only at hn
  split at hn <;> cases hn

/-- **Whether an execution agrees with the preflight.**  For every request, configuration,
template, gateway and plant, when no check of the preflight failed, the execution raises no error
before its first write if and only if the request confirms the write-back it asks for, and the
relay step of an OPC DA run can be verified. -/
theorem preflight_agrees_iff (h : preflightPasses args app template gateway plant = true) :
    ExecutionAccepts args app template gateway plant ↔
      args.Confirmed ∧ RelayStepVerifiable args template plant := by
  obtain ⟨parts, initial, hfound⟩ := preflight_passed h
  constructor
  · rintro ⟨made, hmade, hruns⟩
    obtain ⟨hconfirmed, rfl⟩ := (hfound.prepareChecks_iff made).mp hmade
    refine ⟨hconfirmed, (hfound.relayStep_iff .machine 0 ⟨0, 0⟩).mp ?_⟩
    have hanswers := answers_environment plant made.tags
    have hruns := hruns .machine 0 ⟨0, 0⟩ _ hanswers
    have hcheck := hfound.checkInitialState .machine 0 ⟨0, 0⟩ hanswers
    cases hrun : Bhtune.checkInitialState (made.context args app .machine 0 ⟨0, 0⟩)
        (flowSys (plant.environment made.tags)) with
    | ok a s' =>
      have hpassed := wp_ok hcheck hrun
      exact hpassed
    | error f s' =>
      cases hruns f s' hrun
      rcases wp_error hcheck hrun with ⟨_, hstalls⟩ | ⟨e, he, _⟩
      · exact absurd hstalls (not_stalls_environment _ _)
      · cases he
  · rintro ⟨hconfirmed, hstep⟩
    refine ⟨parts, (hfound.prepareChecks_iff parts).mpr ⟨hconfirmed, rfl⟩, ?_⟩
    intro arith runId timeAnchor s hs f s' hrun
    rcases wp_error (hfound.checkInitialState arith runId timeAnchor hs) hrun with
      ⟨hhung, _⟩ | ⟨e, _, he⟩
    · exact hhung
    · rw [(hfound.relayStep_iff arith runId timeAnchor).mpr hstep] at he
      cases he

/-- **The preflight agrees with the execution** but for the confirmation of a write-back, which
only the execution asks for: where the relay step of the run can be verified, a request that passed
its preflight is accepted exactly if it confirms the write-back it asks for. -/
theorem preflight_agrees (h : preflightPasses args app template gateway plant = true)
    (hstep : RelayStepVerifiable args template plant) :
    ExecutionAccepts args app template gateway plant ↔ args.Confirmed := by
  rw [preflight_agrees_iff h]
  exact and_iff_left hstep

end Execution

/-! ### The loop FC1 -/

/-- FC1 in Auto, with its MV as given. -/
def flowPlant (mv : TagReading) : Plant := fun tag =>
  if tag = "FC1.MV" then some mv
  else if tag = "FC1.MODE" then some ⟨"AUTO", .notANumber, .good⟩
  else some ⟨"50", .finite 50, .good⟩

/-- The MV in the middle of its range. -/
def middleMv : TagReading := ⟨"50", .finite 50, .good⟩

/-- The MV at the lower end of its range. -/
def closedMv : TagReading := ⟨"0", .finite 0, .good⟩

/-- A gateway with the server of the request. -/
def flowGateway : GatewayReplies where
  bridgeHost := "localhost:50051"
  info := .ok (text "gateway info")
  compatibility := .ok ⟨.full, text "compatible", text "incompatible"⟩
  servers := .ok ["Plant.Server"]
  connection := .ok ()
  capabilities := .ok (text "capabilities")

/-- The template of FC1, as it is found. -/
def flowResolved : Option ResolvedTemplate := some ⟨flowTemplate, "built-in template"⟩

/-- An execution of the request accepts what its preflight accepted. -/
theorem preflight_agrees_flow :
    ExecutionAccepts flowTuneRequest {} flowResolved flowGateway (flowPlant middleMv) := by
  refine (preflight_agrees (by decide +kernel) ?_).mpr nofun
  intro _ resolved tags mv high low hresolved htags hmv hhigh hlow
  cases hresolved
  cases buildLoopTags_flow.symm.trans htags
  cases hmv
  cases hhigh
  cases hlow
  decide +kernel

/-- The request with a write-back that nobody confirms. -/
def unconfirmedRequest : TuneRequest := { flowTuneRequest with writePid := some .aggressive }

/-- What an execution of the request ends with before its first write. -/
def executionError (args : TuneRequest) (gateway : GatewayReplies) (plant : Plant) : Option Text :=
  match prepareChecks args {} flowResolved gateway with
  | .error e => some e
  | .ok parts =>
    match checkInitialState (parts.context args {} .machine 1 ⟨0, 0⟩)
        (flowSys (plant.environment parts.tags)) with
    | .error (.err e) _ => some e
    | _ => none

/-- Two requests that pass their preflight and are refused: one whose write-back is not confirmed,
and one for a loop with its valve closed, where the clamped relay step is nothing. -/
theorem preflight_disagrees :
    (unconfirmedRequest.validate = .ok () ∧
      preflightPasses unconfirmedRequest {} flowResolved flowGateway (flowPlant middleMv) = true ∧
      executionError unconfirmedRequest flowGateway (flowPlant middleMv) =
        some (text ("--write-pid requires --yes: writing PID constants back to the DCS with no " ++
          "human present to confirm must be an explicit, deliberate choice"))) ∧
    flowTuneRequest.validate = .ok () ∧
      preflightPasses flowTuneRequest {} flowResolved flowGateway (flowPlant closedMv) = true ∧
      executionError flowTuneRequest flowGateway (flowPlant closedMv) ≠ none := by
  decide +kernel

end Bhtune
