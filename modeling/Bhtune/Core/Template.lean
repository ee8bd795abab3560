import Mathlib.Logic.Basic

/-!
# DCS/PLC templates

How one control system expresses its PID parameters and which raw values its mode tags hold.  The
catalog's provenance fields (versions, description, source) reach no computation and are left
out.
-/

namespace Bhtune

/-- How a DCS expresses the proportional term. -/
inductive ProportionalType where
  | gain
  | band
  deriving DecidableEq, Repr

/-- How a DCS expresses the integral term. -/
inductive IntegralType where
  | resetTime
  | resetRate
  | resetGain
  deriving DecidableEq, Repr

/-- How a DCS expresses the derivative term. -/
inductive DerivativeType where
  | derivativeTime
  | derivativeGain
  deriving DecidableEq, Repr

/-- The time unit of the integral and derivative parameters. -/
inductive TimeUnit where
  | seconds
  | minutes
  deriving DecidableEq, Repr

/-- Whether PID rounding counts decimal places or significant digits. -/
inductive PidRoundingKind where
  | decimalPlaces
  | significantDigits
  deriving DecidableEq, Repr

/-- Precision of the active P/I/D terms in final controller units. -/
structure PidRounding where
  kind : PidRoundingKind
  digits : UInt8
  deriving DecidableEq

/-- Why a PID value could not be rounded. -/
inductive PidRoundingError where
  | invalidDigits (kind : PidRoundingKind) (digits : UInt8)
  | nonFinite
  | nonPositive
  | roundedToZero
  deriving DecidableEq

/-- `PidRounding::validate`. -/
def PidRounding.validate (r : PidRounding) : Except PidRoundingError Unit :=
  if r.digits > 7 || (r.kind = .significantDigits && r.digits = 0) then
    .error (.invalidDigits r.kind r.digits)
  else .ok ()

/-- One DCS/PLC vendor's conventions. -/
structure DcsTemplate where
  name : String
  /-- Whether the controller mode is switched back after a test. -/
  revertMode : Bool
  proportionalType : ProportionalType
  integralType : IntegralType
  integralUnit : TimeUnit
  derivativeType : DerivativeType
  derivativeUnit : TimeUnit
  pidRounding : PidRounding
  processVariableSuffix : String
  manipulatedVariableSuffix : String
  setpointVariableSuffix : String
  controllerDirectionSuffix : String
  controllerModeSuffix : String
  modeAttributeSuffix : String
  upperPvRangeSuffix : String
  lowerPvRangeSuffix : String
  upperMvRangeSuffix : String
  lowerMvRangeSuffix : String
  proportionalConstantSuffix : String
  integralConstantSuffix : String
  derivativeConstantSuffix : String
  modeManualValue : String
  modeAutoValue : String
  /-- The raw Program value of a mode-attribute tag, for a DCS that has one. -/
  modeAttributeProgramValue : Option String
  /-- The raw value a controller-direction tag holds when the controller is direct acting. -/
  controllerActionDirectValue : String
  deriving DecidableEq

/-- Why `DcsTemplate::validate` rejected a template. -/
inductive TemplateError where
  | emptyName
  | emptyField (name field : String)
  | missingModeValue (name field : String)
  | missingModeAttributeProgramValue (name : String)
  | invalidPidRounding (name : String) (reason : PidRoundingError)
  deriving DecidableEq

/-- The Unicode `White_Space` property, which `str::trim` removes at both ends. -/
def isWhiteSpace (c : Char) : Bool :=
  c.isWhitespace || c.val = 0x0B || c.val = 0x0C || c.val = 0x85 || c.val = 0xA0 ||
    c.val = 0x1680 || (0x2000 ≤ c.val && c.val ≤ 0x200A) || c.val = 0x2028 || c.val = 0x2029 ||
    c.val = 0x202F || c.val = 0x205F || c.val = 0x3000

/-- `s.trim().is_empty()`. -/
def isBlank (s : String) : Bool := s.toList.all isWhiteSpace

/-- `DcsTemplate::validate`: the cross-field conditions a data file cannot express. -/
def DcsTemplate.validate (t : DcsTemplate) : Except TemplateError Unit :=
  if isBlank t.name then .error .emptyName
  else if t.processVariableSuffix.isEmpty then
    .error (.emptyField t.name "process_variable_suffix")
  else if t.manipulatedVariableSuffix.isEmpty then
    .error (.emptyField t.name "manipulated_variable_suffix")
  else if !t.controllerModeSuffix.isEmpty && t.modeManualValue.isEmpty then
    .error (.missingModeValue t.name "mode_manual_value")
  else if !t.controllerModeSuffix.isEmpty && t.modeAutoValue.isEmpty then
    .error (.missingModeValue t.name "mode_auto_value")
  else if !t.modeAttributeSuffix.isEmpty && t.modeAttributeProgramValue.isNone then
    .error (.missingModeAttributeProgramValue t.name)
  else
    match t.pidRounding.validate with
    | .error reason => .error (.invalidPidRounding t.name reason)
    | .ok () => .ok ()

end Bhtune
