import Bhtune.Runtime.Request
import Mathlib.Data.List.TakeWhile

/-!
# The algebra of tags

* `deriveTag_deriveTag` — a derived tag is as good a PV tag as the one it was derived from;
* `LoopField`, `LoopTagValue.override` — the thirteen fields of a loop, and one override of one;
* `get_applyTo` — the overrides act field by field, each on its own;
* `TagOverrides.merge` — two sets of overrides, the second of which wins;
* `tag_laws` — derivation and overrides, for every tag, template and request.
-/

namespace Bhtune

/-! ### Derivation -/

/-- A suffix without `.`, `!` and `/`. -/
def separatorFree (s : String) : Bool := s.toList.all fun c => c ≠ '.' && c ≠ '!' && c ≠ '/'

section Derivation

variable {c d : Char} {s pvTag kept suffix : String}

/-- What is kept of a tag are its characters up to the last `c`. -/
theorem throughLast_eq_some_iff :
    throughLast c s = some kept ↔ ∃ rest, s.toList.reverse.dropWhile (· ≠ c) = c :: rest ∧
      kept.toList = (c :: rest).reverse := by
  unfold throughLast
  cases hdrop : s.toList.reverse.dropWhile (· ≠ c) with
  | nil => simp
  | cons x rest =>
    have hx : x = c := by
      have hne : s.toList.reverse.dropWhile (· ≠ c) ≠ [] := by
        rw [hdrop]
        exact List.cons_ne_nil x rest
      have hhead := List.head_dropWhile_not (fun x => decide (x ≠ c)) hne
      simp only [hdrop, List.head_cons] at hhead
      simpa using hhead
    subst hx
    constructor
    · intro heq
      exact ⟨rest, rfl, by rw [← Option.some.inj heq, String.toList_ofList]⟩
    · rintro ⟨_, ⟨⟩, hkept⟩
      show some (String.ofList (x :: rest).reverse) = some kept
      rw [← hkept, String.ofList_toList]

theorem throughLast_eq_none_iff : throughLast c s = none ↔ c ∉ s.toList := by
  unfold throughLast
  have hall : s.toList.reverse.dropWhile (· ≠ c) = [] ↔ c ∉ s.toList := by
    rw [List.dropWhile_eq_nil_iff]
    simp only [List.mem_reverse, decide_eq_true_eq]
    exact ⟨fun h hc => h c hc rfl, fun h x hx heq => h (heq ▸ hx)⟩
  rw [← hall]
  cases s.toList.reverse.dropWhile (· ≠ c) with
  | nil => simp
  | cons x rest => simp

/-- What is kept is kept again after another suffix. -/
theorem throughLast_append (hkept : throughLast c s = some kept) (hc : c ∉ suffix.toList) :
    throughLast c (kept ++ suffix) = some kept := by
  obtain ⟨rest, -, htext⟩ := throughLast_eq_some_iff.mp hkept
  refine throughLast_eq_some_iff.mpr ⟨rest, ?_, htext⟩
  have hskip : ∀ x ∈ suffix.toList.reverse, decide (x ≠ c) = true := by
    intro x hx
    have hne : x ≠ c := fun heq => hc (heq ▸ List.mem_reverse.mp hx)
    exact decide_eq_true hne
  rw [String.toList_append, htext, List.reverse_append, List.reverse_reverse,
    List.dropWhile_append_of_pos hskip]
  exact List.dropWhile_cons_of_neg (by simp)

/-- A character that the tag lacks is not in what is kept of it. -/
theorem not_mem_of_throughLast (hkept : throughLast c s = some kept) (hd : d ∉ s.toList) :
    d ∉ kept.toList := by
  obtain ⟨rest, hdrop, htext⟩ := throughLast_eq_some_iff.mp hkept
  intro hmem
  rw [htext, ← hdrop, List.mem_reverse] at hmem
  exact hd (List.mem_reverse.mp ((List.dropWhile_sublist _).subset hmem))

/-- What a derived tag keeps of the PV tag. -/
def keptPart (pvTag : String) : Option String :=
  (throughLast '.' pvTag).or ((throughLast '!' pvTag).or (throughLast '/' pvTag))

theorem deriveTag_eq (hsuffix : isBlank suffix = false) :
    deriveTag pvTag suffix = some ((keptPart pvTag).getD "" ++ suffix) := by
  unfold deriveTag keptPart
  rw [if_neg (by simp [hsuffix])]
  split
  · next h => rw [h, Option.getD_some]
  · next h => rw [h, Option.getD_none, String.empty_append]

/-- **What is kept does not depend on the suffix**, whichever separator it ends in. -/
theorem keptPart_append (hfree : separatorFree suffix = true) :
    keptPart ((keptPart pvTag).getD "" ++ suffix) = keptPart pvTag := by
  have hfree : ∀ c ∈ suffix.toList, c ≠ '.' ∧ c ≠ '!' ∧ c ≠ '/' := by
    simpa [separatorFree, and_assoc] using hfree
  have hdot : '.' ∉ suffix.toList := fun h => (hfree _ h).1 rfl
  have hbang : '!' ∉ suffix.toList := fun h => (hfree _ h).2.1 rfl
  have hslash : '/' ∉ suffix.toList := fun h => (hfree _ h).2.2 rfl
  have hnone : ∀ {d kept}, d ∉ kept.toList → d ∉ suffix.toList →
      throughLast d (kept ++ suffix) = none := by
    intro d kept hkept hsuffix
    rw [throughLast_eq_none_iff, String.toList_append, List.mem_append]
    exact not_or_intro hkept hsuffix
  unfold keptPart
  cases h₁ : throughLast '.' pvTag with
  | some kept =>
    show (throughLast '.' (kept ++ suffix)).or _ = some kept
    rw [throughLast_append h₁ hdot, Option.some_or]
  | none =>
    have hnodot := throughLast_eq_none_iff.mp h₁
    cases h₂ : throughLast '!' pvTag with
    | some kept =>
      show (throughLast '.' (kept ++ suffix)).or
        ((throughLast '!' (kept ++ suffix)).or _) = some kept
      rw [hnone (not_mem_of_throughLast h₂ hnodot) hdot, throughLast_append h₂ hbang,
        Option.none_or, Option.some_or]
    | none =>
      have hnobang := throughLast_eq_none_iff.mp h₂
      cases h₃ : throughLast '/' pvTag with
      | some kept =>
        show (throughLast '.' (kept ++ suffix)).or
          ((throughLast '!' (kept ++ suffix)).or (throughLast '/' (kept ++ suffix))) = some kept
        rw [hnone (not_mem_of_throughLast h₃ hnodot) hdot,
          hnone (not_mem_of_throughLast h₃ hnobang) hbang, throughLast_append h₃ hslash,
          Option.none_or, Option.none_or]
      | none =>
        show (throughLast '.' ("" ++ suffix)).or
          ((throughLast '!' ("" ++ suffix)).or (throughLast '/' ("" ++ suffix))) = none
        rw [hnone (by simp) hdot, hnone (by simp) hbang, hnone (by simp) hslash]
        rfl

/-- **Derivation from a derived tag.** -/
theorem deriveTag_deriveTag {derived : String} (hfree : separatorFree suffix = true)
    (hderived : deriveTag pvTag suffix = some derived) (s : String) :
    deriveTag derived s = deriveTag pvTag s := by
  have hsuffix : isBlank suffix = false := by
    by_contra hblank
    rw [(deriveTag_eq_none_iff pvTag suffix).mpr (by simpa using hblank)] at hderived
    cases hderived
  rw [deriveTag_eq hsuffix] at hderived
  obtain rfl := Option.some.inj hderived
  by_cases hs : isBlank s = true
  · rw [(deriveTag_eq_none_iff _ s).mpr hs, (deriveTag_eq_none_iff _ s).mpr hs]
  · have hs : isBlank s = false := by simpa using hs
    rw [deriveTag_eq hs, deriveTag_eq hs, keptPart_append hfree]

theorem deriveFromPvTag_deriveTag {derived : String} (hfree : separatorFree suffix = true)
    (hderived : deriveTag pvTag suffix = some derived) (template : DcsTemplate) :
    LoopTags.deriveFromPvTag derived template = LoopTags.deriveFromPvTag pvTag template := by
  unfold LoopTags.deriveFromPvTag
  simp only [deriveTag_deriveTag hfree hderived]

end Derivation

/-! ### Overrides, field by field -/

/-- The fields of a loop's tags that can be overridden. -/
inductive LoopField where
  | processVariable
  | manipulatedVariable
  | setpointVariable
  | controllerMode
  | modeAttribute
  | proportionalConstant
  | integralConstant
  | derivativeConstant
  | controllerDirection
  | upperPvRange
  | lowerPvRange
  | upperMvRange
  | lowerMvRange
  deriving DecidableEq

def LoopField.all : List LoopField :=
  [.processVariable, .manipulatedVariable, .setpointVariable, .controllerMode, .modeAttribute,
    .proportionalConstant, .integralConstant, .derivativeConstant, .controllerDirection,
    .upperPvRange, .lowerPvRange, .upperMvRange, .lowerMvRange]

theorem LoopField.mem_all (field : LoopField) : field ∈ LoopField.all := by
  cases field <;> decide

/-- The value of a field: a tag, a tag where there is one, or a tag or a fixed value. -/
inductive LoopTagValue where
  | required (tag : String)
  | optional (tag : Option String)
  | range (value : TagOrValue ℚ)
  | direction (value : TagOrValue ControllerDirection)
  deriving DecidableEq

def TagOverrides.get (overrides : TagOverrides) : LoopField → Option String
  | .processVariable => overrides.processVariable
  | .manipulatedVariable => overrides.manipulatedVariable
  | .setpointVariable => overrides.setpointVariable
  | .controllerMode => overrides.controllerMode
  | .modeAttribute => overrides.modeAttribute
  | .proportionalConstant => overrides.proportionalConstant
  | .integralConstant => overrides.integralConstant
  | .derivativeConstant => overrides.derivativeConstant
  | .controllerDirection => overrides.controllerDirection
  | .upperPvRange => overrides.upperPvRange
  | .lowerPvRange => overrides.lowerPvRange
  | .upperMvRange => overrides.upperMvRange
  | .lowerMvRange => overrides.lowerMvRange

def LoopTags.get (tags : LoopTags) : LoopField → LoopTagValue
  | .processVariable => .required tags.processVariable
  | .manipulatedVariable => .required tags.manipulatedVariable
  | .setpointVariable => .optional tags.setpointVariable
  | .controllerMode => .optional tags.controllerMode
  | .modeAttribute => .optional tags.modeAttribute
  | .proportionalConstant => .optional tags.proportionalConstant
  | .integralConstant => .optional tags.integralConstant
  | .derivativeConstant => .optional tags.derivativeConstant
  | .controllerDirection => .direction tags.controllerDirection
  | .upperPvRange => .range tags.upperPvRange
  | .lowerPvRange => .range tags.lowerPvRange
  | .upperMvRange => .range tags.upperMvRange
  | .lowerMvRange => .range tags.lowerMvRange

theorem LoopTags.ext_get {tags tags' : LoopTags} (h : ∀ field, tags.get field = tags'.get field) :
    tags = tags' := by
  cases tags
  cases tags'
  simp only [LoopTags.mk.injEq]
  refine ⟨?_, ?_, ?_, ?_, ?_, ?_, ?_, ?_, ?_, ?_, ?_, ?_, ?_⟩
  · simpa [LoopTags.get] using h .processVariable
  · simpa [LoopTags.get] using h .manipulatedVariable
  · simpa [LoopTags.get] using h .setpointVariable
  · simpa [LoopTags.get] using h .controllerMode
  · simpa [LoopTags.get] using h .modeAttribute
  · simpa [LoopTags.get] using h .upperPvRange
  · simpa [LoopTags.get] using h .lowerPvRange
  · simpa [LoopTags.get] using h .upperMvRange
  · simpa [LoopTags.get] using h .lowerMvRange
  · simpa [LoopTags.get] using h .controllerDirection
  · simpa [LoopTags.get] using h .proportionalConstant
  · simpa [LoopTags.get] using h .integralConstant
  · simpa [LoopTags.get] using h .derivativeConstant

/-- The value of a field after an override of it. -/
def LoopTagValue.override (value : Option String) : LoopTagValue → LoopTagValue
  | .required tag => .required (applyStringOverride tag value)
  | .optional tag => .optional (applyOptionalStringOverride tag value)
  | .range tag => .range (applyTagOverride tag value)
  | .direction tag => .direction (applyTagOverride tag value)

/-- **Each override acts on its own field**, and on no other. -/
theorem get_applyTo (overrides : TagOverrides) (tags : LoopTags) (field : LoopField) :
    (overrides.applyTo tags).get field = (tags.get field).override (overrides.get field) := by
  cases field <;> rfl

section Overrides

variable {value : Option String}

theorem override_of_keepsDerived (h : KeepsDerived value) (x : LoopTagValue) :
    x.override value = x := by
  have hnone := (overridden_eq_none_iff value).mpr h
  cases x with
  | required tag => simp [LoopTagValue.override, applyStringOverride, hnone]
  | optional tag => simp [LoopTagValue.override, applyOptionalStringOverride, hnone]
  | range tag => simp [LoopTagValue.override, applyTagOverride, hnone]
  | direction tag => simp [LoopTagValue.override, applyTagOverride, hnone]

/-- The override that counts of two. -/
def winning (first second : Option String) : Option String :=
  if (overridden second).isSome then second else first

/-- Two overrides of a field are the one that counts. -/
theorem override_override (first second : Option String) (x : LoopTagValue) :
    (x.override first).override second = x.override (winning first second) := by
  cases hsecond : overridden second with
  | none =>
    rw [override_of_keepsDerived ((overridden_eq_none_iff second).mp hsecond)]
    simp [winning, hsecond]
  | some tag =>
    have hwinning : winning first second = second := by simp [winning, hsecond]
    rw [hwinning]
    cases x with
    | required _ => simp [LoopTagValue.override, applyStringOverride, hsecond]
    | optional _ => simp [LoopTagValue.override, applyOptionalStringOverride, hsecond]
    | range _ => simp [LoopTagValue.override, applyTagOverride, hsecond]
    | direction _ => simp [LoopTagValue.override, applyTagOverride, hsecond]

@[simp] theorem winning_self (value : Option String) : winning value value = value := by
  simp [winning]

/-- What is left of a text that is not blank is not empty. -/
theorem trimmed_ne_empty {s : String} (h : isBlank s = false) : trimmed s ≠ "" := by
  intro heq
  have hlist := congrArg String.toList heq
  rw [trimmed, String.toList_ofList, String.toList_empty, List.reverse_eq_nil_iff,
    List.dropWhile_eq_nil_iff] at hlist
  have hall : s.toList.dropWhile isWhiteSpace = [] := by
    by_contra hne
    have hhead := List.head_dropWhile_not isWhiteSpace hne
    rw [hlist _ (List.mem_reverse.mpr (List.head_mem hne))] at hhead
    cases hhead
  rw [List.dropWhile_eq_nil_iff] at hall
  have hblank : isBlank s = true := List.all_eq_true.mpr hall
  rw [h] at hblank
  cases hblank

/-- The tags of a loop that has none, and fixed values in place of what is read. -/
def fixedTags : LoopTags where
  processVariable := ""
  manipulatedVariable := ""
  setpointVariable := none
  controllerMode := none
  modeAttribute := none
  upperPvRange := .value 0
  lowerPvRange := .value 0
  upperMvRange := .value 0
  lowerMvRange := .value 0
  controllerDirection := .value .direct
  proportionalConstant := none
  integralConstant := none
  derivativeConstant := none

/-- An override that counts changes such a field. -/
theorem keepsDerived_of_override_eq {field : LoopField}
    (h : (fixedTags.get field).override value = fixedTags.get field) : KeepsDerived value := by
  by_contra hkeeps
  obtain ⟨v, rfl, hblank⟩ : ∃ v, value = some v ∧ isBlank v = false := by
    simpa [KeepsDerived] using hkeeps
  have hsome : overridden (some v) = some (trimmed v) := by
    simp [overridden, Option.filter, hblank]
  have hne := trimmed_ne_empty hblank
  cases field <;>
    simp [fixedTags, LoopTags.get, LoopTagValue.override, applyStringOverride,
      applyOptionalStringOverride, applyTagOverride, hsome, hne] at h

end Overrides

/-! ### Sets of overrides -/

/-- Two sets of overrides, the second of which wins where it says something. -/
def TagOverrides.merge (first second : TagOverrides) : TagOverrides where
  processVariable := winning first.processVariable second.processVariable
  manipulatedVariable := winning first.manipulatedVariable second.manipulatedVariable
  setpointVariable := winning first.setpointVariable second.setpointVariable
  controllerMode := winning first.controllerMode second.controllerMode
  modeAttribute := winning first.modeAttribute second.modeAttribute
  proportionalConstant := winning first.proportionalConstant second.proportionalConstant
  integralConstant := winning first.integralConstant second.integralConstant
  derivativeConstant := winning first.derivativeConstant second.derivativeConstant
  controllerDirection := winning first.controllerDirection second.controllerDirection
  upperPvRange := winning first.upperPvRange second.upperPvRange
  lowerPvRange := winning first.lowerPvRange second.lowerPvRange
  upperMvRange := winning first.upperMvRange second.upperMvRange
  lowerMvRange := winning first.lowerMvRange second.lowerMvRange

theorem get_merge (first second : TagOverrides) (field : LoopField) :
    (first.merge second).get field = winning (first.get field) (second.get field) := by
  cases field <;> rfl

theorem merge_self (overrides : TagOverrides) : overrides.merge overrides = overrides := by
  simp [TagOverrides.merge]

/-- **One set of overrides after another.** -/
theorem applyTo_applyTo (first second : TagOverrides) (tags : LoopTags) :
    second.applyTo (first.applyTo tags) = (first.merge second).applyTo tags := by
  refine LoopTags.ext_get fun field => ?_
  rw [get_applyTo, get_applyTo, get_applyTo, get_merge, override_override]

theorem isEmpty_iff_keepsDerived (overrides : TagOverrides) :
    overrides.isEmpty = true ↔ ∀ field, KeepsDerived (overrides.get field) := by
  have hlist : overrides.isEmpty = LoopField.all.all fun field =>
      (overrides.get field).all isBlank := rfl
  have hkeeps : ∀ value : Option String, value.all isBlank = true ↔ KeepsDerived value := by
    intro value
    cases value <;> simp [KeepsDerived]
  rw [hlist, List.all_eq_true]
  simp only [hkeeps]
  exact ⟨fun h field => h field field.mem_all, fun h field _ => h field⟩

/-- **No overrides at all** are those that leave every loop's tags alone. -/
theorem isEmpty_iff_applyTo (overrides : TagOverrides) :
    overrides.isEmpty = true ↔ ∀ tags, overrides.applyTo tags = tags := by
  rw [isEmpty_iff_keepsDerived]
  constructor
  · intro h tags
    refine LoopTags.ext_get fun field => ?_
    rw [get_applyTo, override_of_keepsDerived (h field)]
  · intro h field
    have hfield := congrArg (·.get field) (h fixedTags)
    simp only [get_applyTo] at hfield
    exact keepsDerived_of_override_eq hfield

/-! ### Derivation and overrides together -/

/-- The tags of a request do not depend on which of the loop's tags it names. -/
theorem buildLoopTags_deriveTag {args : TuneRequest} {suffix derived : String}
    (hfree : separatorFree suffix = true) (hderived : deriveTag args.tagname suffix = some derived)
    (template : DcsTemplate) :
    buildLoopTags { args with tagname := derived } template = buildLoopTags args template := by
  unfold buildLoopTags
  simp only [deriveFromPvTag_deriveTag hfree hderived]

/-- **The algebra of tags.**  A tag derived with a suffix that has no separator derives what the PV
tag derives, and gives the loop, and the request, the same tags; overrides are idempotent, two sets
of them are their merge, they do nothing exactly when there are none, and they leave alone what they
do not name. -/
theorem tag_laws :
    (∀ pvTag suffix, isBlank suffix = false → separatorFree suffix = true →
      ∃ derived, deriveTag pvTag suffix = some derived ∧
        (∀ s, deriveTag derived s = deriveTag pvTag s) ∧
        (∀ template, LoopTags.deriveFromPvTag derived template =
          LoopTags.deriveFromPvTag pvTag template) ∧
        ∀ args template, args.tagname = pvTag →
          buildLoopTags { args with tagname := derived } template = buildLoopTags args template) ∧
      (∀ (o : TagOverrides) t, o.applyTo (o.applyTo t) = o.applyTo t) ∧
      (∀ (o₁ o₂ : TagOverrides) t, o₂.applyTo (o₁.applyTo t) = (o₁.merge o₂).applyTo t) ∧
      (∀ o : TagOverrides, o.isEmpty = true ↔ ∀ t, o.applyTo t = t) ∧
      ∀ (o : TagOverrides) t field, KeepsDerived (o.get field) →
        (o.applyTo t).get field = t.get field := by
  refine ⟨?_, ?_, applyTo_applyTo, isEmpty_iff_applyTo, ?_⟩
  · intro pvTag suffix hblank hfree
    have hderived : deriveTag pvTag suffix = some _ := deriveTag_eq hblank
    refine ⟨_, hderived, deriveTag_deriveTag hfree hderived,
      deriveFromPvTag_deriveTag hfree hderived, ?_⟩
    rintro args template rfl
    exact buildLoopTags_deriveTag hfree hderived template
  · intro o t
    rw [applyTo_applyTo, merge_self]
  · intro o t field hkeeps
    rw [get_applyTo, override_of_keepsDerived hkeeps]

/-- The separators of `A!B.C/D` are mixed, and only what follows the dot is replaced. -/
theorem tag_laws_mixed :
    (∃ derived, deriveTag "A!B.C/D" "MV" = some derived ∧
      LoopTags.deriveFromPvTag derived bareTemplate =
        LoopTags.deriveFromPvTag "A!B.C/D" bareTemplate) ∧
      ({ setpointVariable := some " SP " } : TagOverrides).applyTo fixedTags ≠ fixedTags ∧
      (({ setpointVariable := some " SP " } : TagOverrides).applyTo fixedTags).get .controllerMode =
        .optional none := by
  obtain ⟨hderive, -, -, -, hkept⟩ := tag_laws
  obtain ⟨derived, hderived, -, htags, -⟩ :=
    hderive "A!B.C/D" "MV" (by decide) (by decide)
  refine ⟨⟨derived, hderived, htags bareTemplate⟩, by decide, ?_⟩
  exact hkept { setpointVariable := some " SP " } fixedTags .controllerMode nofun

end Bhtune
