import Bhtune.Core.LoopConfig
import Bhtune.Core.Template

/-!
# Tag derivation

How one PV tag and a template's suffixes give the tags of a loop, and how a request's overrides
replace them.
-/

namespace Bhtune

/-- An input that is either a tag or a fixed value. -/
inductive TagOrValue (α : Type) where
  | tag (tag : String)
  | value (v : α)
  deriving DecidableEq

/-- The tags of one control loop. -/
structure LoopTags where
  processVariable : String
  manipulatedVariable : String
  setpointVariable : Option String
  controllerMode : Option String
  modeAttribute : Option String
  upperPvRange : TagOrValue ℚ
  lowerPvRange : TagOrValue ℚ
  upperMvRange : TagOrValue ℚ
  lowerMvRange : TagOrValue ℚ
  controllerDirection : TagOrValue ControllerDirection
  proportionalConstant : Option String
  integralConstant : Option String
  derivativeConstant : Option String
  deriving DecidableEq

/-! ### Derivation -/

/-- The part of `s` up to its last `c`, where there is one. -/
def throughLast (c : Char) (s : String) : Option String :=
  match s.toList.reverse.dropWhile (· ≠ c) with
  | [] => none
  | rest => some (String.ofList rest.reverse)

/-- `derive_tag`: what follows the last separator is replaced; a blank suffix names no tag. -/
def deriveTag (pvTag suffix : String) : Option String :=
  if isBlank suffix then none
  else
    match (throughLast '.' pvTag).or ((throughLast '!' pvTag).or (throughLast '/' pvTag)) with
    | some kept => some (kept ++ suffix)
    | none => some suffix

example : deriveTag "A.B!C" "X" = some "A.X" := by decide

theorem deriveTag_eq_none_iff (pvTag suffix : String) :
    deriveTag pvTag suffix = none ↔ isBlank suffix = true := by
  unfold deriveTag
  by_cases h : isBlank suffix = true
  · simp [h]
  · rw [if_neg h]
    split <;> simp [h]

/-- `LoopTags::derive_from_pv_tag`. -/
def LoopTags.deriveFromPvTag (pvTag : String) (template : DcsTemplate) : LoopTags where
  processVariable := (deriveTag pvTag template.processVariableSuffix).getD ""
  manipulatedVariable := (deriveTag pvTag template.manipulatedVariableSuffix).getD ""
  setpointVariable := deriveTag pvTag template.setpointVariableSuffix
  controllerMode := deriveTag pvTag template.controllerModeSuffix
  modeAttribute := deriveTag pvTag template.modeAttributeSuffix
  upperPvRange := .tag ((deriveTag pvTag template.upperPvRangeSuffix).getD "")
  lowerPvRange := .tag ((deriveTag pvTag template.lowerPvRangeSuffix).getD "")
  upperMvRange := .tag ((deriveTag pvTag template.upperMvRangeSuffix).getD "")
  lowerMvRange := .tag ((deriveTag pvTag template.lowerMvRangeSuffix).getD "")
  controllerDirection := .tag ((deriveTag pvTag template.controllerDirectionSuffix).getD "")
  proportionalConstant := deriveTag pvTag template.proportionalConstantSuffix
  integralConstant := deriveTag pvTag template.integralConstantSuffix
  derivativeConstant := deriveTag pvTag template.derivativeConstantSuffix

/-! ### Overrides -/

/-- Replacements of template-derived tags; a missing or blank one keeps the derived tag. -/
structure TagOverrides where
  processVariable : Option String := none
  manipulatedVariable : Option String := none
  setpointVariable : Option String := none
  controllerMode : Option String := none
  modeAttribute : Option String := none
  proportionalConstant : Option String := none
  integralConstant : Option String := none
  derivativeConstant : Option String := none
  controllerDirection : Option String := none
  upperPvRange : Option String := none
  lowerPvRange : Option String := none
  upperMvRange : Option String := none
  lowerMvRange : Option String := none
  deriving DecidableEq

/-- `char::is_control`. -/
def isControl (c : Char) : Bool := c.val < 0x20 || (0x7F ≤ c.val && c.val ≤ 0x9F)

/-- The overrides under their field names, in the order they are validated. -/
def TagOverrides.fields (overrides : TagOverrides) : List (String × Option String) :=
  [("process_variable", overrides.processVariable),
    ("manipulated_variable", overrides.manipulatedVariable),
    ("setpoint_variable", overrides.setpointVariable),
    ("controller_mode", overrides.controllerMode),
    ("mode_attribute", overrides.modeAttribute),
    ("proportional_constant", overrides.proportionalConstant),
    ("integral_constant", overrides.integralConstant),
    ("derivative_constant", overrides.derivativeConstant),
    ("controller_direction", overrides.controllerDirection),
    ("upper_pv_range", overrides.upperPvRange),
    ("lower_pv_range", overrides.lowerPvRange),
    ("upper_mv_range", overrides.upperMvRange),
    ("lower_mv_range", overrides.lowerMvRange)]

/-- `TagOverrides::is_empty`: every override is missing or blank. -/
def TagOverrides.isEmpty (overrides : TagOverrides) : Bool :=
  [overrides.processVariable, overrides.manipulatedVariable, overrides.setpointVariable,
    overrides.controllerMode, overrides.modeAttribute, overrides.proportionalConstant,
    overrides.integralConstant, overrides.derivativeConstant, overrides.controllerDirection,
    overrides.upperPvRange, overrides.lowerPvRange, overrides.upperMvRange,
    overrides.lowerMvRange].all fun value => value.all isBlank

/-- `TagOverridesError::ControlCharacter`. -/
structure TagOverridesError where
  field : String
  deriving DecidableEq

/-- `TagOverrides::validate`: the first override that contains a control character is an error. -/
def TagOverrides.validate (overrides : TagOverrides) : Except TagOverridesError Unit :=
  match overrides.fields.find? fun field => field.2.any fun value => value.toList.any isControl with
  | some field => .error ⟨field.1⟩
  | none => .ok ()

/-- `str::trim`. -/
def trimmed (s : String) : String :=
  String.ofList ((s.toList.dropWhile isWhiteSpace).reverse.dropWhile isWhiteSpace).reverse

/-- An override that is not blank, trimmed. -/
def overridden (value : Option String) : Option String :=
  (value.filter fun value => !isBlank value).map trimmed

/-- `apply_string_override`. -/
def applyStringOverride (target : String) (value : Option String) : String :=
  (overridden value).getD target

/-- `apply_optional_string_override`. -/
def applyOptionalStringOverride (target : Option String) (value : Option String) : Option String :=
  (overridden value).or target

/-- `apply_tag_override`. -/
def applyTagOverride {α : Type} (target : TagOrValue α) (value : Option String) : TagOrValue α :=
  ((overridden value).map .tag).getD target

/-- `TagOverrides::apply_to`. -/
def TagOverrides.applyTo (overrides : TagOverrides) (tags : LoopTags) : LoopTags where
  processVariable := applyStringOverride tags.processVariable overrides.processVariable
  manipulatedVariable := applyStringOverride tags.manipulatedVariable overrides.manipulatedVariable
  setpointVariable := applyOptionalStringOverride tags.setpointVariable overrides.setpointVariable
  controllerMode := applyOptionalStringOverride tags.controllerMode overrides.controllerMode
  modeAttribute := applyOptionalStringOverride tags.modeAttribute overrides.modeAttribute
  upperPvRange := applyTagOverride tags.upperPvRange overrides.upperPvRange
  lowerPvRange := applyTagOverride tags.lowerPvRange overrides.lowerPvRange
  upperMvRange := applyTagOverride tags.upperMvRange overrides.upperMvRange
  lowerMvRange := applyTagOverride tags.lowerMvRange overrides.lowerMvRange
  controllerDirection := applyTagOverride tags.controllerDirection overrides.controllerDirection
  proportionalConstant :=
    applyOptionalStringOverride tags.proportionalConstant overrides.proportionalConstant
  integralConstant := applyOptionalStringOverride tags.integralConstant overrides.integralConstant
  derivativeConstant :=
    applyOptionalStringOverride tags.derivativeConstant overrides.derivativeConstant

/-- An override that is missing or blank. -/
def KeepsDerived (value : Option String) : Prop := ∀ v, value = some v → isBlank v = true

theorem overridden_eq_none_iff (value : Option String) :
    overridden value = none ↔ KeepsDerived value := by
  unfold overridden KeepsDerived
  cases value with
  | none => simp
  | some v => by_cases h : isBlank v = true <;> simp [Option.filter, h]

/-- A loop has no controller-mode tag exactly when neither the template nor the overrides name
one. -/
theorem controllerMode_applyTo_eq_none_iff (overrides : TagOverrides) (pvTag : String)
    (template : DcsTemplate) :
    (overrides.applyTo (.deriveFromPvTag pvTag template)).controllerMode = none ↔
      isBlank template.controllerModeSuffix = true ∧ KeepsDerived overrides.controllerMode := by
  rw [← deriveTag_eq_none_iff pvTag, ← overridden_eq_none_iff, and_comm]
  show (overridden overrides.controllerMode).or _ = none ↔ _
  exact Option.or_eq_none_iff

/-! ### Validated templates -/

/-- The suffixes of a template, in the order the tags are derived. -/
def DcsTemplate.suffixes (t : DcsTemplate) : List String :=
  [t.processVariableSuffix, t.manipulatedVariableSuffix, t.setpointVariableSuffix,
    t.controllerModeSuffix, t.modeAttributeSuffix, t.upperPvRangeSuffix, t.lowerPvRangeSuffix,
    t.upperMvRangeSuffix, t.lowerMvRangeSuffix, t.controllerDirectionSuffix,
    t.proportionalConstantSuffix, t.integralConstantSuffix, t.derivativeConstantSuffix]

/-- The tag an input names; a fixed value names none. -/
def TagOrValue.tagText {α : Type} : TagOrValue α → String
  | .tag name => name
  | .value _ => ""

/-- Every suffix of a template beside the tag a loop has for it, `""` where there is none. -/
def LoopTags.besideSuffixes (tags : LoopTags) (t : DcsTemplate) : List (String × String) :=
  [(t.processVariableSuffix, tags.processVariable),
    (t.manipulatedVariableSuffix, tags.manipulatedVariable),
    (t.setpointVariableSuffix, tags.setpointVariable.getD ""),
    (t.controllerModeSuffix, tags.controllerMode.getD ""),
    (t.modeAttributeSuffix, tags.modeAttribute.getD ""),
    (t.upperPvRangeSuffix, tags.upperPvRange.tagText),
    (t.lowerPvRangeSuffix, tags.lowerPvRange.tagText),
    (t.upperMvRangeSuffix, tags.upperMvRange.tagText),
    (t.lowerMvRangeSuffix, tags.lowerMvRange.tagText),
    (t.controllerDirectionSuffix, tags.controllerDirection.tagText),
    (t.proportionalConstantSuffix, tags.proportionalConstant.getD ""),
    (t.integralConstantSuffix, tags.integralConstant.getD ""),
    (t.derivativeConstantSuffix, tags.derivativeConstant.getD "")]

/-- The two required tags are there, and so is every tag the template declares. -/
structure TagsSuffice (t : DcsTemplate) (tags : LoopTags) : Prop where
  processVariable : isBlank tags.processVariable = false
  manipulatedVariable : isBlank tags.manipulatedVariable = false
  declared : ∀ pair ∈ tags.besideSuffixes t, pair.1.isEmpty = false → isBlank pair.2 = false

theorem isBlank_append (s t : String) : isBlank (s ++ t) = (isBlank s && isBlank t) := by
  simp [isBlank]

/-- A tag is blank exactly when the suffix it is derived from is. -/
theorem isBlank_deriveTag (pvTag suffix : String) :
    isBlank ((deriveTag pvTag suffix).getD "") = isBlank suffix := by
  by_cases h : isBlank suffix = true
  · rw [(deriveTag_eq_none_iff pvTag suffix).mpr h, h]
    rfl
  · have hfalse : isBlank suffix = false := by simpa using h
    unfold deriveTag
    rw [if_neg h]
    split
    · simp [isBlank_append, hfalse]
    · exact hfalse.trans hfalse.symm

theorem besideSuffixes_deriveFromPvTag (pvTag : String) (t : DcsTemplate) :
    (LoopTags.deriveFromPvTag pvTag t).besideSuffixes t
      = t.suffixes.map fun suffix => (suffix, (deriveTag pvTag suffix).getD "") := rfl

/-- An accepted template has the two required suffixes, as far as `is_empty` can tell. -/
theorem required_of_validate {t : DcsTemplate} (h : t.validate = .ok ()) :
    t.processVariableSuffix.isEmpty = false ∧ t.manipulatedVariableSuffix.isEmpty = false := by
  unfold DcsTemplate.validate at h
  split_ifs at h with _ hprocess hmanipulated
  exact ⟨by simpa using hprocess, by simpa using hmanipulated⟩

/-- **When validation suffices for tag derivation.**  An accepted template derives every tag it
declares exactly when none of its suffixes is made of white space only: `validate` asks
`is_empty`, `derive_tag` trims. -/
theorem tags_suffice_iff {t : DcsTemplate} (h : t.validate = .ok ()) (pvTag : String) :
    TagsSuffice t (.deriveFromPvTag pvTag t) ↔
      ∀ suffix ∈ t.suffixes, isBlank suffix = true → suffix.isEmpty = true := by
  have hdeclared : (∀ pair ∈ (LoopTags.deriveFromPvTag pvTag t).besideSuffixes t,
      pair.1.isEmpty = false → isBlank pair.2 = false) ↔
        ∀ suffix ∈ t.suffixes, isBlank suffix = true → suffix.isEmpty = true := by
    rw [besideSuffixes_deriveFromPvTag]
    simp only [List.forall_mem_map, isBlank_deriveTag]
    refine forall₂_congr fun suffix _ => ?_
    cases suffix.isEmpty <;> cases isBlank suffix <;> simp
  constructor
  · intro hsuffice
    exact hdeclared.mp hsuffice.declared
  · intro hblank
    obtain ⟨hprocess, hmanipulated⟩ := required_of_validate h
    have hall := hdeclared.mpr hblank
    exact ⟨hall (t.processVariableSuffix, _) (by simp [LoopTags.besideSuffixes]) hprocess,
      hall (t.manipulatedVariableSuffix, _) (by simp [LoopTags.besideSuffixes]) hmanipulated, hall⟩

/-- A template with the two required suffixes and no other. -/
def bareTemplate : DcsTemplate where
  name := "Bare DCS"
  revertMode := false
  proportionalType := .gain
  integralType := .resetTime
  integralUnit := .minutes
  derivativeType := .derivativeTime
  derivativeUnit := .minutes
  pidRounding := ⟨.decimalPlaces, 3⟩
  processVariableSuffix := "PV"
  manipulatedVariableSuffix := "MV"
  setpointVariableSuffix := ""
  controllerDirectionSuffix := ""
  controllerModeSuffix := ""
  modeAttributeSuffix := ""
  upperPvRangeSuffix := ""
  lowerPvRangeSuffix := ""
  upperMvRangeSuffix := ""
  lowerMvRangeSuffix := ""
  proportionalConstantSuffix := ""
  integralConstantSuffix := ""
  derivativeConstantSuffix := ""
  modeManualValue := ""
  modeAutoValue := ""
  modeAttributeProgramValue := none
  controllerActionDirectValue := "1"

theorem tags_suffice_bare : TagsSuffice bareTemplate (.deriveFromPvTag "FIC101.PV" bareTemplate) :=
  (tags_suffice_iff (by decide) "FIC101.PV").mpr (by decide)

/-- A template whose MV suffix is one blank is accepted, and its loops get the MV tag `""`. -/
theorem tags_missing_blank :
    { bareTemplate with manipulatedVariableSuffix := " " }.validate = .ok () ∧
      isBlank "FIC101.PV" = false ∧
      (LoopTags.deriveFromPvTag "FIC101.PV"
        { bareTemplate with manipulatedVariableSuffix := " " }).manipulatedVariable = "" ∧
      ¬TagsSuffice { bareTemplate with manipulatedVariableSuffix := " " }
        (.deriveFromPvTag "FIC101.PV" { bareTemplate with manipulatedVariableSuffix := " " }) := by
  refine ⟨by decide, by decide, by decide, ?_⟩
  intro hsuffice
  have hmanipulated := hsuffice.manipulatedVariable
  revert hmanipulated
  decide

end Bhtune
