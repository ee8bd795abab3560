import Bhtune.Runtime.Prepare
import Bhtune.Runtime.Request

/-!
# Preflight, and the checks of an execution

`tune/preflight.rs` checks a request step by step and reports each check.  `prepare` and the part
of `execute_with_timing` before its first write check it once more, on their own.  What the gateway
and the driver say is a reply of the outside, with the detail text that is made of it.

* `preflight` — the report of a request;
* `prepareChecks`, `checkInitialState` — what an execution checks;
* `PreparedParts.prepared` — the prepared tune of a request that passed.
-/

namespace Bhtune

open Effect

/-! ### Reports -/

/-- `PreflightCheckStatus`. -/
inductive PreflightCheckStatus where
  | pass
  | warn
  | fail
  deriving DecidableEq

/-- `highest_status`. -/
def highestStatus (current candidate : PreflightCheckStatus) : PreflightCheckStatus :=
  if current = .fail ∨ candidate = .fail then .fail
  else if current = .warn ∨ candidate = .warn then .warn
  else .pass

/-- `PreflightCheck`. -/
structure PreflightCheck where
  name : String
  status : PreflightCheckStatus
  detail : Text
  deriving DecidableEq

/-- `PreflightTagRead`. -/
structure PreflightTagRead where
  tag : String
  roles : List String
  value : Option String
  quality : Option Quality
  status : PreflightCheckStatus
  detail : Text
  deriving DecidableEq

/-- `PreflightReport`. -/
structure PreflightReport where
  checks : List PreflightCheck := []
  tagReads : List PreflightTagRead := []
  deriving DecidableEq

namespace PreflightReport

/-- `push_check`. -/
def push (report : PreflightReport) (name : String) (status : PreflightCheckStatus)
    (detail : Text) : PreflightReport :=
  { report with checks := report.checks ++ [⟨name, status, detail⟩] }

/-- `has_failures`. -/
def hasFailures (report : PreflightReport) : Bool :=
  (report.checks.any fun check => check.status = .fail) ||
    report.tagReads.any fun tag => tag.status = .fail

@[simp] theorem hasFailures_push (report : PreflightReport) (name : String)
    (status : PreflightCheckStatus) (detail : Text) :
    (report.push name status detail).hasFailures = (report.hasFailures || decide (status = .fail)) := by
  simp only [push, hasFailures, List.any_append, List.any_cons, List.any_nil, Bool.or_false]
  exact Bool.or_right_comm _ _ _

end PreflightReport

/-! ### The gateway -/

/-- `OpcDaCompatibilityStatus`. -/
inductive OpcDaCompatibilityStatus where
  | full
  | partially
  | unknown
  | incompatible
  deriving DecidableEq

/-- `OpcDaGatewayCompatibility`, with the detail the report gives and the refusal of a live run. -/
structure OpcDaGatewayCompatibility where
  status : OpcDaCompatibilityStatus
  detail : Text
  incompatibilityMessage : Text

/-- `compatibility_status`. -/
def compatibilityStatus (compatibility : OpcDaGatewayCompatibility) : PreflightCheckStatus :=
  match compatibility.status with
  | .full => .pass
  | .partially | .unknown => .warn
  | .incompatible => .fail

/-- `live_mutation_refusal`. -/
def OpcDaGatewayCompatibility.liveMutationRefusal (compatibility : OpcDaGatewayCompatibility) :
    Option Text :=
  if compatibility.status = .incompatible then some compatibility.incompatibilityMessage else none

/-- What the gateway and the driver answer, each within its timeout. -/
structure GatewayReplies where
  bridgeHost : String
  info : Except Text Text
  compatibility : Except Text OpcDaGatewayCompatibility
  servers : Except Text (List String)
  connection : Except Text Unit
  capabilities : Except Text Text

/-- `eq_ignore_ascii_case`. -/
def eqIgnoreAsciiCase (a b : String) : Bool :=
  a.toList.map Char.toLower == b.toList.map Char.toLower

/-- `resolve_server`. -/
def resolveServer (server : Option String) (config : BhtuneConfig) : Except Text String :=
  match server.or config.server with
  | some server => .ok server
  | none => .error (text ("no OPC server specified: pass --server or set \x60server\x60 in the " ++
      "bhtune config file"))

/-- `check_gateway_readiness`: whether to go on, and the report so far. -/
def checkGatewayReadiness (gateway : GatewayReplies) (server : String) (report : PreflightReport) :
    Except Text (Bool × PreflightReport) := do
  let report := match gateway.info with
    | .ok detail => report.push "Gateway info" .pass detail
    | .error error =>
      report.push "Gateway info" .warn (text "gateway-wide metadata is unavailable: " ++ error)
  let compatibility ← gateway.compatibility
  let report := report.push "Gateway compatibility" (compatibilityStatus compatibility)
    compatibility.detail
  let servers ← gateway.servers
  let serverFound := servers.any fun registered => eqIgnoreAsciiCase registered server
  let report := report.push "OPC DA ProgID" (if serverFound then .pass else .fail)
    (if serverFound then text ("'" ++ server ++ "' is registered on the gateway")
    else if servers.isEmpty then
      text ("'" ++ server ++ "' is not registered; the gateway reported no servers")
    else text ("'" ++ server ++ "' is not registered; available servers: " ++
      String.intercalate ", " servers))
  return (serverFound && decide (compatibility.status ≠ .incompatible), report)

/-- The gateway's part of the report; a simulator has none. -/
def preflightGateway (args : TuneRequest) (app : BhtuneConfig) (gateway : GatewayReplies)
    (report : PreflightReport) : Except Text (Bool × PreflightReport) :=
  match args.driver with
  | .opcda => do
    let server ← resolveServer args.server app
    checkGatewayReadiness gateway server report
  | .simulator =>
    let notApplicable := text "not applicable to the in-process simulator"
    .ok (true, ((report.push "Gateway info" .pass notApplicable).push "Gateway compatibility" .pass
      notApplicable).push "OPC DA ProgID" .pass notApplicable)

/-- The report of the server's capabilities. -/
def preflightCapabilities (args : TuneRequest) (gateway : GatewayReplies)
    (report : PreflightReport) : PreflightReport :=
  match args.driver with
  | .opcda =>
    match gateway.capabilities with
    | .ok detail => report.push "Server capabilities" .pass detail
    | .error error => report.push "Server capabilities" .warn
        (text "server capability discovery is unavailable: " ++ error)
  | .simulator =>
    report.push "Server capabilities" .pass (text "not applicable to the in-process simulator")

/-! ### The tags that are read -/

/-- A derived tag with the roles it plays. -/
structure DerivedTag where
  tag : String
  roles : List String
  deriving DecidableEq

/-- The tags of a loop under their roles, in the order they are collected. -/
def LoopTags.roles (tags : LoopTags) : List (Option String × String) :=
  [(some tags.processVariable, "process_variable"),
    (some tags.manipulatedVariable, "manipulated_variable"),
    (tags.setpointVariable, "setpoint_variable"),
    (tags.controllerMode, "controller_mode"),
    (tags.modeAttribute, "mode_attribute"),
    (tags.upperPvRange.requested, "upper_pv_range"),
    (tags.lowerPvRange.requested, "lower_pv_range"),
    (tags.upperMvRange.requested, "upper_mv_range"),
    (tags.lowerMvRange.requested, "lower_mv_range"),
    (tags.controllerDirection.requested, "controller_direction"),
    (tags.proportionalConstant, "proportional_constant"),
    (tags.integralConstant, "integral_constant"),
    (tags.derivativeConstant, "derivative_constant")]

/-- One step of `derived_tags`: a tag is listed once, with all its roles. -/
def addDerived (derived : List DerivedTag) (entry : Option String × String) : List DerivedTag :=
  match entry.1 with
  | none => derived
  | some tag =>
    if derived.any fun d => d.tag = tag then
      derived.map fun d =>
        if d.tag = tag ∧ entry.2 ∉ d.roles then { d with roles := d.roles ++ [entry.2] } else d
    else derived ++ [⟨tag, [entry.2]⟩]

/-- `derived_tags`. -/
def derivedTags (tags : LoopTags) : List DerivedTag := tags.roles.foldl addDerived []

/-- The values of a reply that were asked for, the first under each tag; the tags that came again;
the tags that were not asked for. -/
structure CollectedValues where
  byTag : List TagValue := []
  duplicates : List String := []
  unexpected : List String := []

/-- One step of the collection. -/
def collectValue (requested : List String) (collected : CollectedValues) (value : TagValue) :
    CollectedValues :=
  if value.tag ∉ requested then
    { collected with unexpected := collected.unexpected ++ [value.tag] }
  else if collected.byTag.any fun v => v.tag = value.tag then
    { collected with duplicates := value.tag :: collected.duplicates }
  else { collected with byTag := collected.byTag ++ [value] }

/-- The values of a reply, collected. -/
def collectValues (requested : List String) (values : List TagValue) : CollectedValues :=
  values.foldl (collectValue requested) {}

/-- `is_numeric_role`. -/
def isNumericRole (role : String) : Bool :=
  role ∈ ["process_variable", "manipulated_variable", "setpoint_variable", "upper_pv_range",
    "lower_pv_range", "upper_mv_range", "lower_mv_range", "proportional_constant",
    "integral_constant", "derivative_constant"]

/-- `assess_tag_read`. -/
def assessTagRead (derived : DerivedTag) (value : Option TagValue) (duplicate : Bool)
    (allowUncertain : Bool) : PreflightTagRead :=
  match value with
  | none => ⟨derived.tag, derived.roles, none, none, .fail,
      text "driver returned no value for this tag"⟩
  | some value =>
    let status : PreflightCheckStatus := if duplicate then .fail else .pass
    let details := [text "quality " ++ [.quality value.quality]] ++
      (if duplicate then [text "driver returned this tag more than once"] else [])
    let (status, details) : PreflightCheckStatus × List Text :=
      match checkQuality derived.tag value.quality allowUncertain with
      | .ok () =>
        if value.quality = .uncertain then
          (highestStatus status .warn,
            details ++ [text "Uncertain quality is accepted by configuration"])
        else (status, details)
      | .error error => (.fail, details ++ [error])
    let (status, details) : PreflightCheckStatus × List Text :=
      if (status ≠ .fail ∨ value.quality = .uncertain) ∧ derived.roles.any isNumericRole then
        match parseF32Value derived.tag value with
        | .ok _ => (status, details)
        | .error error => (.fail, details ++ [error])
      else (status, details)
    ⟨derived.tag, derived.roles, some value.value, some value.quality, status, joinTexts details⟩

/-! ### The modes -/

/-- The read of a tag that a check looks at. -/
def findRead (reads : List PreflightTagRead) (tag : String) : Option PreflightTagRead :=
  reads.find? fun read => read.tag = tag

/-- `mode_status`. -/
def modeStatus (tags : LoopTags) (template : DcsTemplate) (values : List TagValue)
    (reads : List PreflightTagRead) : PreflightCheckStatus × Text :=
  match tags.controllerMode with
  | none => (.pass, text "template does not define a controller mode tag")
  | some modeTag =>
    match findRead reads modeTag with
    | none => (.fail, text ("mode tag '" ++ modeTag ++ "' was not included in the read results"))
    | some read =>
      if read.status = .fail then
        (.fail, text ("mode tag '" ++ modeTag ++ "' did not have a usable value and quality"))
      else
        match batchGet values modeTag with
        | none => (.fail, text ("driver returned no value for mode tag '" ++ modeTag ++ "'"))
        | some value =>
          if value.value = template.modeManualValue ∨ value.value = template.modeAutoValue then
            (read.status, text ("mode tag '" ++ modeTag ++ "' value '" ++ value.value ++
              "' matches the template's Manual or Auto value"))
          else
            (.fail, text ("mode tag '" ++ modeTag ++ "' value '" ++ value.value ++
              "' matches neither template value ('" ++ template.modeManualValue ++ "' or '" ++
              template.modeAutoValue ++ "')"))

/-- `mode_attribute_status`. -/
def modeAttributeStatus (tags : LoopTags) (template : DcsTemplate) (values : List TagValue)
    (reads : List PreflightTagRead) : PreflightCheckStatus × Text :=
  match tags.modeAttribute with
  | none => (.pass, text "template does not define a mode-attribute tag")
  | some attributeTag =>
    let named := "mode-attribute tag '" ++ attributeTag ++ "'"
    match template.modeAttributeProgramValue with
    | none => (.fail, text (named ++ " has no template program value"))
    | some programValue =>
      match findRead reads attributeTag with
      | none => (.fail, text (named ++ " was not included in the read results"))
      | some read =>
        if read.status = .fail then
          (.fail, text (named ++ " did not have a usable value and quality"))
        else
          match batchGet values attributeTag with
          | none => (.fail, text ("driver returned no value for " ++ named))
          | some value =>
            if value.value = programValue then
              (read.status, text (named ++ " value matches the template's program value"))
            else
              (.warn, text (named ++ " value '" ++ value.value ++
                "' differs from the template's program value '" ++ programValue ++ "'"))

/-! ### Write-back -/

/-- `pid_constant_tags`. -/
def pidConstantTags (tags : LoopTags) : List (String × Option String) :=
  [("Proportional", tags.proportionalConstant), ("Integral", tags.integralConstant),
    ("Derivative", tags.derivativeConstant)]

/-- The labels of the PID constants that have no tag. -/
def missingConstants (tags : LoopTags) : List String :=
  (pidConstantTags tags).filterMap fun entry => if entry.2.isNone then some entry.1 else none

/-- The mode attribute keeps a requested write-back from being ready. -/
def attributeBlocks (args : TuneRequest) (modeAttribute : PreflightCheckStatus) : Bool :=
  modeAttribute = .fail || args.writePid.isSome && modeAttribute = .warn

/-- `write_back_status`. -/
def writeBackStatus (args : TuneRequest) (tags : LoopTags) (reads : List PreflightTagRead)
    (modeAttribute : PreflightCheckStatus) : PreflightCheckStatus :=
  if args.driver = .simulator then
    if args.writePid.isSome then .fail else .pass
  else if (missingConstants tags) ≠ [] then
    if args.writePid.isSome then .fail else .warn
  else if attributeBlocks args modeAttribute then .fail
  else
    let required := pidConstantTags tags
    let statuses : List PreflightCheckStatus := (required.filterMap (·.2)).filterMap fun tag =>
      (findRead reads tag).map (·.status)
    if statuses.length ≠ required.length ∨ .fail ∈ statuses then .fail
    else if .warn ∈ statuses ∨ modeAttribute = .warn then .warn
    else .pass

/-- `write_back_detail`. -/
def writeBackDetail (args : TuneRequest) (tags : LoopTags) (reads : List PreflightTagRead)
    (modeAttribute : PreflightCheckStatus) : Text :=
  if args.driver = .simulator then
    if args.writePid.isSome then text "PID write-back is not available for the simulator"
    else text "not applicable: the simulator has no PID constant tags"
  else if (missingConstants tags) ≠ [] then
    text (String.intercalate ", " (missingConstants tags) ++
      " PID constant tag(s) are not configured" ++
      if args.writePid.isSome then "; the requested write-back cannot be prepared"
      else "; write-back would be skipped")
  else if attributeBlocks args modeAttribute then
    if args.writePid.isSome then
      text ("the mode attribute is not confirmed at the template's program value; the " ++
        "requested write-back is not ready")
    else text "mode-attribute readiness could not be confirmed"
  else
    let unreadable := (pidConstantTags tags).filterMap fun entry =>
      match entry.2.bind (findRead reads) with
      | some read => if read.status ≠ .pass then some entry.1 else none
      | none => none
    if unreadable ≠ [] then
      text (String.intercalate ", " unreadable ++
        " PID constant tag(s) have failed or warning-level reads" ++
        if args.writePid.isSome then "; the requested write-back is not ready"
        else "; write-back readiness is incomplete")
    else
      text ("P/I/D tags are derived and readable as numeric values; this read-only check does " ++
        "not probe controller write permissions" ++
        if modeAttribute = .warn then
          "; current mode attribute differs from the template's program value"
        else "")

/-! ### The initial state -/

/-- The setpoint of a loop that is in Auto. -/
def setpointFromBatch (tags : LoopTags) (template : DcsTemplate) (values : List TagValue)
    (modeRaw : Option String) (allowUncertain : Bool) : Except Text (Option ℚ) :=
  match tags.setpointVariable, modeRaw with
  | some tag, some mode =>
    if mode = template.modeAutoValue then
      (readBatchF32 values tag allowUncertain).map some
    else .ok none
  | _, _ => .ok none

/-- `initial_state_from_batch`. -/
def initialStateFromBatch (tags : LoopTags) (template : DcsTemplate) (values : List TagValue)
    (allowUncertain : Bool) : Except Text InitialState := do
  let pvIni ← readBatchF32 values tags.processVariable allowUncertain
  let mvIni ← readBatchF32 values tags.manipulatedVariable allowUncertain
  let modeRaw ← optionalRaw values tags.controllerMode allowUncertain
  let modeAttributeRaw ← optionalRaw values tags.modeAttribute allowUncertain
  let setpointIni ← setpointFromBatch tags template values modeRaw allowUncertain
  let direction ← resolveDirectionFromBatch values tags.controllerDirection template allowUncertain
  let pvRangeHigh ← resolveF32FromBatch values tags.upperPvRange allowUncertain
  let pvRangeLow ← resolveF32FromBatch values tags.lowerPvRange allowUncertain
  let mvRangeHigh ← resolveF32FromBatch values tags.upperMvRange allowUncertain
  let mvRangeLow ← resolveF32FromBatch values tags.lowerMvRange allowUncertain
  return {
    pvIni := pvIni
    mvIni := mvIni
    pvRangeHigh := pvRangeHigh
    pvRangeLow := pvRangeLow
    mvRangeHigh := mvRangeHigh
    mvRangeLow := mvRangeLow
    direction := direction
    modeRaw := modeRaw
    modeAttributeRaw := modeAttributeRaw
    setpointIni := setpointIni }

/-- The check of the initial state. -/
def preflightInitialState (tags : LoopTags) (template : DcsTemplate) (values : List TagValue)
    (allowUncertain : Bool) (report : PreflightReport) : PreflightReport :=
  match initialStateFromBatch tags template values allowUncertain with
  | .error error => report.push "Initial state" .fail error
  | .ok initial =>
    match validateInitialState initial with
    | .error error => report.push "Initial state" .fail error
    | .ok () => report.push "Initial state" .pass (text
        "PV/MV values are numeric and the PV/MV ranges are valid; initial MV is in range")

/-! ### The report of a request -/

/-- The part of the report that is made of the values read. -/
def preflightValues (args : TuneRequest) (app : BhtuneConfig) (template : DcsTemplate)
    (tags : LoopTags) (values : List TagValue) (report : PreflightReport) : PreflightReport :=
  let derived := derivedTags tags
  let collected := collectValues (derived.map (·.tag)) values
  let reads := derived.map fun tag =>
    assessTagRead tag (batchGet collected.byTag tag.tag) (decide (tag.tag ∈ collected.duplicates))
      app.allowUncertainQuality
  let readStatus : PreflightCheckStatus :=
    if (reads.any fun read => read.status = .fail) ∨ collected.unexpected ≠ [] then .fail
    else if reads.any fun read => read.status = .warn then .warn
    else .pass
  let readDetail := text "read " ++ [.nat reads.length] ++
    text (" derived tag(s), including value and OPC quality" ++
      if collected.unexpected = [] then ""
      else "; driver returned unexpected tag(s): " ++
        String.intercalate ", " collected.unexpected)
  let (mode, modeDetail) := modeStatus tags template collected.byTag reads
  let (modeAttribute, modeAttributeDetail) := modeAttributeStatus tags template collected.byTag reads
  let report := { report with tagReads := reads }
  let report := report.push "Derived tag reads" readStatus readDetail
  let report := report.push "Mode values" mode modeDetail
  let report := report.push "Mode attribute" modeAttribute modeAttributeDetail
  let report := preflightInitialState tags template collected.byTag app.allowUncertainQuality report
  report.push "Write-back readiness" (writeBackStatus args tags reads modeAttribute)
    (writeBackDetail args tags reads modeAttribute)

/-- The part of the report that needs the gateway and the driver. -/
def preflightDriver (args : TuneRequest) (app : BhtuneConfig) (template : DcsTemplate)
    (tags : LoopTags) (gateway : GatewayReplies)
    (read : List String → Except Text (List TagValue)) (report : PreflightReport) :
    Except Text PreflightReport := do
  let (ready, report) ← preflightGateway args app gateway report
  if !ready then return report
  else
    gateway.connection
    let report := preflightCapabilities args gateway report
    match read ((derivedTags tags).map (·.tag)) with
    | .error error =>
      pure (report.push "Derived tag reads" .fail
        (text "could not read all derived tags: " ++ error))
    | .ok values => pure (preflightValues args app template tags values report)

/-- A template and where it comes from. -/
structure ResolvedTemplate where
  template : DcsTemplate
  source : String

/-- `preflight`; the template is what the lookup of its name gives. -/
def preflight (args : TuneRequest) (app : BhtuneConfig) (template : Option ResolvedTemplate)
    (gateway : GatewayReplies) (read : List String → Except Text (List TagValue)) :
    Except Text PreflightReport :=
  match resolveAndValidateTuningConfig app.tuning (args.driver = .opcda) with
  | .error error => .ok (PreflightReport.push {} "Configuration and tuning" .fail error)
  | .ok timing =>
    let report := PreflightReport.push {} "Configuration and tuning" .pass
      (text "[tuning] is valid: poll=" ++ [.nat timing.pollIntervalMs] ++ text "ms timeout=" ++
        [.nat timing.timeoutSecs] ++ text "s operation=" ++ [.nat timing.opTimeoutSecs] ++
        text "s restore=" ++ [.nat timing.restoreTimeoutSecs] ++ text "s delay=" ++
        [.nat timing.mrftDelaySecs] ++ text "s")
    match template with
    | none => .ok (report.push "Template and tag derivation" .fail
        (text ("no template named '" ++ args.template ++ "'")))
    | some resolved =>
      match buildLoopConfigWithTiming args timing with
      | .error error => .ok (report.push "Loop configuration" .fail error)
      | .ok config =>
        match buildLoopTags args resolved.template with
        | .error error => .ok (report.push "Template and tag derivation" .fail error)
        | .ok tags =>
          preflightDriver args app resolved.template tags gateway read
            ((report.push "Template and tag derivation" .pass
              (text ("resolved '" ++ resolved.template.name ++ "' from " ++ resolved.source ++
                "; derived ") ++ [.nat (derivedTags tags).length] ++ text " tag(s)")).push
              "Loop configuration" .pass
              (text ("LoopConfig::validate() passed for " ++ config.processType.debug ++ "/" ++
                config.controllerType.debug)))

/-! ### The checks of an execution -/

/-- What `prepare` made of a request. -/
structure PreparedParts where
  timing : EffectiveTiming
  template : DcsTemplate
  config : LoopConfig ℚ
  tags : LoopTags

/-- Write-back with nobody present has to be confirmed in the request. -/
def requireConfirmation (args : TuneRequest) : Except Text Unit :=
  if args.writePid.isSome ∧ args.yes = false then
    .error (text ("--write-pid requires --yes: writing PID constants back to the DCS with no " ++
      "human present to confirm must be an explicit, deliberate choice"))
  else .ok ()

theorem requireConfirmation_iff {args : TuneRequest} : requireConfirmation args = .ok () ↔
    (args.writePid.isSome = true → args.yes = true) := by
  unfold requireConfirmation
  cases args.yes <;> cases args.writePid <;> simp

/-- An OPC DA run needs a server. -/
def requireServer (args : TuneRequest) (app : BhtuneConfig) : Except Text Unit :=
  match args.driver with
  | .opcda => (resolveServer args.server app).map fun _ => ()
  | .simulator => .ok ()

/-- The template of a request has to be known. -/
def requireTemplate (args : TuneRequest) (template : Option ResolvedTemplate) :
    Except Text DcsTemplate :=
  match template with
  | some resolved => .ok resolved.template
  | none => .error (text ("no template named '" ++ args.template ++ "'"))

/-- `require_live_gateway_compatible`. -/
def requireLiveGatewayCompatible (args : TuneRequest) (gateway : GatewayReplies) :
    Except Text Unit :=
  match args.driver with
  | .simulator => .ok ()
  | .opcda =>
    match gateway.compatibility with
    | .error error => .error (text ("failed to check opcda-bridge compatibility at " ++
        gateway.bridgeHost ++ ": ") ++ error)
    | .ok compatibility =>
      match compatibility.liveMutationRefusal with
      | some refusal => .error refusal
      | none => .ok ()

/-- The checks of `prepare_internal` before it records the run. -/
def prepareChecks (args : TuneRequest) (app : BhtuneConfig) (template : Option ResolvedTemplate)
    (gateway : GatewayReplies) : Except Text PreparedParts := do
  requireConfirmation args
  let timing ← resolveAndValidateTuningConfig app.tuning (args.driver = .opcda)
  requireServer args app
  let template ← requireTemplate args template
  let config ← buildLoopConfigWithTiming args timing
  let tags ← buildLoopTags args template
  requireLiveGatewayCompatible args gateway
  return ⟨timing, template, config, tags⟩

/-- The context of the run that `prepare` makes of a request. -/
def PreparedParts.context (parts : PreparedParts) (args : TuneRequest) (app : BhtuneConfig)
    (arith : MachineInt.IntArith) (runId : ℕ) (timeAnchor : RunTimeAnchor) : RunContext where
  arith := arith
  floats := .single
  runId := runId
  driver := args.driver
  effectiveTiming := parts.timing
  tags := parts.tags
  template := parts.template
  config := parts.config
  allowUncertainQuality := app.allowUncertainQuality
  timeAnchor := timeAnchor

/-- What the checks of `prepare_internal` settle for the run. -/
theorem prepareChecks_sound {args : TuneRequest} {app : BhtuneConfig}
    {template : Option ResolvedTemplate} {gateway : GatewayReplies} {parts : PreparedParts}
    (h : prepareChecks args app template gateway = .ok parts) :
    (args.writePid.isSome = true → args.yes = true) ∧
      buildLoopTags args parts.template = .ok parts.tags := by
  unfold prepareChecks at h
  simp only [bindResult_eq_ok] at h
  obtain ⟨_, hconfirmed, _, _, _, _, _, _, _, _, _, htags, _, _, hparts⟩ := h
  cases hparts
  exact ⟨requireConfirmation_iff.mp hconfirmed, htags⟩

/-- The ownership that `prepare_internal` acquires: a live run that of its own id, a simulator run
none. -/
def acquiredOwnership (driver : DriverKind) (runId : ℕ) : Option LiveOperationGuard :=
  match driver with
  | .opcda => some ⟨some runId⟩
  | .simulator => none

/-- What `prepare_internal` returns for a request that passed its checks. -/
def PreparedParts.prepared {args : TuneRequest} {app : BhtuneConfig}
    {template : Option ResolvedTemplate} {gateway : GatewayReplies} {parts : PreparedParts}
    (h : prepareChecks args app template gateway = .ok parts) (arith : MachineInt.IntArith)
    (runId : ℕ) (timeAnchor : RunTimeAnchor) : PreparedTune where
  ctx := parts.context args app arith runId timeAnchor
  writePid := args.writePid
  yes := args.yes
  ownership := acquiredOwnership args.driver runId
  confirmed := (prepareChecks_sound h).1
  owned := fun hdriver => by
    change args.driver = .opcda at hdriver
    rw [hdriver]
    rfl
  unowned := fun hdriver => by
    change args.driver = .simulator at hdriver
    rw [hdriver]
    exact ⟨rfl, (buildLoopTags_simulator hdriver (prepareChecks_sound h).2).2⟩

/-- What an execution reads and checks before it records anything. -/
def checkInitialState (ctx : RunContext) : Io InitialState := do
  let initial ← readInitialValues ctx
  liftResult (validateInitialState initial)
  liftResult (validateRelayActuationStep ctx initial)
  return initial

/-- These checks are the first part of an execution. -/
theorem prepareExecution_eq (ctx : RunContext) (ownership : Option LiveOperationGuard) :
    prepareExecution ctx ownership = checkInitialState ctx >>= fun initial => do
      runStatement (.recordInitialReadings initial)
      match ownership with
      | none => return initial
      | some _ => do
        ensureHealthy
        runStatement (.persistRestoreIntent (tuneRestoreIntent ctx initial))
        return initial := by
  unfold prepareExecution checkInitialState
  rw [bind_assoc]
  refine bind_congr fun initial => ?_
  rw [bind_assoc]
  refine bind_congr fun _ => ?_
  rw [bind_assoc]
  exact bind_congr fun _ => rfl

end Bhtune
