import Bhtune.Runtime.ConfigStore
import Mathlib.Logic.Equiv.List

/-!
# What a patch of the configuration changes

* `ConfigFormat.Lawful` — what the store relies on of the TOML editor and of the derived reader;
* `patchConfigPolicy_spec` — a patch sets the settings of the page and nothing else;
* `savedStore_eq_storeOf` — the store after a save is the one that loading its text gives;
* `tinyToml_lawful` — a small format with these laws.
-/

namespace Bhtune

variable {δ ρ : Type}

/-! ### What is relied on -/

/-- A Boolean setting with a default, as `serde` reads it. -/
def readBoolean (default : Bool) (item : Option TomlItem) : Option Bool :=
  match item with
  | none => some default
  | some (.value (.boolean b)) => some b
  | _ => none

/-- An optional unsigned setting, as `serde` reads it. -/
def readUnsigned (bound : ℕ) (value : Option TomlValue) : Option (Option ℕ) :=
  match value with
  | none => some none
  | some (.integer n) => if 0 ≤ n ∧ n < bound then some (some n.toNat) else none
  | _ => none

/-- The settings of a `[tuning]` table, as `serde` reads them. -/
def readTuning (entries : List (String × TomlValue)) : Option TuningConfig := do
  return {
    mrftDelaySecs := ← readUnsigned (2 ^ 32) (entries.lookup "mrft_delay_secs")
    pollIntervalMs := ← readUnsigned (2 ^ 64) (entries.lookup "poll_interval_ms")
    timeoutSecs := ← readUnsigned (2 ^ 64) (entries.lookup "timeout_secs")
    opTimeoutSecs := ← readUnsigned (2 ^ 64) (entries.lookup "op_timeout_secs")
    restoreTimeoutSecs := ← readUnsigned (2 ^ 64) (entries.lookup "restore_timeout_secs") }

/-- The keys of the settings of the configuration page. -/
def managedKeys : List String := ["allow_uncertain_quality", "retention_days", "tuning"]

/-- The keys of the `[tuning]` table. -/
def tuningKeys : List String :=
  ["mrft_delay_secs", "poll_interval_ms", "timeout_secs", "op_timeout_secs",
    "restore_timeout_secs"]

/-- A document reads as a configuration, in the settings of the page. -/
structure Reads (item : String → Option TomlItem) (config : ConfigFile ρ) : Prop where
  allow : readBoolean true (item "allow_uncertain_quality") = some config.allowUncertainQuality
  retention : ∀ v, item "retention_days" = some (.value v) →
    readUnsigned (2 ^ 32) (some v) = some config.retentionDays
  noRetention : item "retention_days" = none → config.retentionDays = none
  tuning : ∀ entries, item "tuning" = some (.table entries) →
    readTuning entries = some config.tuning
  noTuning : item "tuning" = none → config.tuning = {}

/-- The documents the store works on: those it parsed, and those it edited. -/
inductive ConfigFormat.Edited (format : ConfigFormat δ ρ) : δ → Prop
  | parsed {raw document} (hparse : format.parse raw = .ok document) : Edited format document
  | insert {document key} (item : TomlItem) (hkey : key ∈ managedKeys)
      (h : Edited format document) : Edited format (format.insert document key item)
  | remove {document key} (hkey : key ∈ managedKeys) (h : Edited format document) :
      Edited format (format.remove document key)
  | insertIn {document document' key value} (h : Edited format document)
      (hinsert : format.insertIn document "tuning" key value = some document') :
      Edited format document'
  | removeIn {document} (key : String) (h : Edited format document) :
      Edited format (format.removeIn document "tuning" key)

/-- What is parsed for `[tuning]` once a document was printed.  A table that was written with dotted
keys and has lost its last one prints as nothing. -/
def Reprinted (printed parsed : Option TomlItem) : Prop :=
  parsed = printed ∨
    (parsed = none ∧ ∃ entries, printed = some (.table entries) ∧ ∀ key, entries.lookup key = none)

/-- What the store relies on: the editor keeps what it does not touch, what it prints parses as the
same document, up to an empty `[tuning]` table, and the reader of the configuration reads that
document. -/
structure ConfigFormat.Lawful (format : ConfigFormat δ ρ) : Prop where
  parse_print : ∀ document, format.Edited document →
    ∃ document', format.parse (format.print document) = .ok document' ∧
      (∀ key, key ≠ "tuning" → format.item document' key = format.item document key) ∧
      Reprinted (format.item document "tuning") (format.item document' "tuning")
  item_insert : ∀ document key item key', format.item (format.insert document key item) key' =
    if key' = key then some item else format.item document key'
  item_remove : ∀ document key key', format.item (format.remove document key) key' =
    if key' = key then none else format.item document key'
  item_insertIn : ∀ document table entries key value,
    format.item document table = some (.table entries) →
      ∃ document' entries', format.insertIn document table key value = some document' ∧
        (∀ key', format.item document' key' =
          if key' = table then some (.table entries') else format.item document key') ∧
        ∀ key', entries'.lookup key' = if key' = key then some value else entries.lookup key'
  item_removeIn : ∀ document table entries key,
    format.item document table = some (.table entries) →
      ∃ entries', (∀ key', format.item (format.removeIn document table key) key' =
          if key' = table then some (.table entries') else format.item document key') ∧
        ∀ key', entries'.lookup key' = if key' = key then none else entries.lookup key'
  removeIn_none : ∀ document table key, format.item document table = none →
    ∀ key', format.item (format.removeIn document table key) key' = format.item document key'
  reads : ∀ raw config, format.parseConfigContents raw = .ok config →
    ∃ document, format.parse raw = .ok document ∧ Reads (format.item document) config
  rest : ∀ raw raw' document document' config config',
    format.parse raw = .ok document → format.parse raw' = .ok document' →
    (∀ key, key ∉ managedKeys → format.item document' key = format.item document key) →
    format.parseConfigContents raw = .ok config → format.parseConfigContents raw' = .ok config' →
    config'.rest = config.rest
  default : format.parseConfigContents "" = .ok format.defaultConfig
  empty : ∃ document, format.parse "" = .ok document ∧ ∀ key, format.item document key = none

/-- `[tuning]`, where a text has it, is a table. -/
def TuningIsTable (format : ConfigFormat δ ρ) (raw : String) : Prop :=
  ∀ document, format.parse raw = .ok document →
    format.item document "tuning" = none ∨
      ∃ entries, format.item document "tuning" = some (.table entries)

theorem ConfigFormat.Lawful.tuningIsTable_empty {format : ConfigFormat δ ρ}
    (hformat : format.Lawful) : TuningIsTable format "" := by
  obtain ⟨empty, hempty, hitem⟩ := hformat.empty
  intro document hdocument
  rw [hempty] at hdocument
  cases hdocument
  exact .inl (hitem "tuning")

/-! ### The `[tuning]` table -/

section Table

variable {format : ConfigFormat δ ρ} {document document' : δ} {key : String} {value : Option ℤ}

/-- The `[tuning]` table of a document, empty where there is none. -/
def tuningEntry (format : ConfigFormat δ ρ) (document : δ) (key : String) : Option TomlValue :=
  match format.item document "tuning" with
  | some (.table entries) => entries.lookup key
  | _ => none

/-- `[tuning]` is absent or a table. -/
def Tabled (format : ConfigFormat δ ρ) (document : δ) : Prop :=
  format.item document "tuning" = none ∨
    ∃ entries, format.item document "tuning" = some (.table entries)

/-- One step of the patch: the entry is set, or removed, and nothing else happens. -/
structure PatchedEntry (format : ConfigFormat δ ρ) (key : String) (value : Option ℤ)
    (document document' : δ) : Prop where
  edited : format.Edited document → format.Edited document'
  tabled : Tabled format document'
  entry : ∀ key', tuningEntry format document' key' =
    if key' = key then value.map .integer else tuningEntry format document key'
  other : ∀ key', key' ≠ "tuning" → format.item document' key' = format.item document key'

theorem tuningEntry_of_table {entries : List (String × TomlValue)}
    (h : format.item document "tuning" = some (.table entries)) :
    tuningEntry format document key = entries.lookup key := by
  unfold tuningEntry
  rw [h]

theorem tuningEntry_of_none (h : format.item document "tuning" = none) :
    tuningEntry format document key = none := by
  unfold tuningEntry
  rw [h]

variable (key value) in
theorem patchOptionalTuningValue_spec (hformat : format.Lawful) (htable : Tabled format document) :
    ∃ document', patchOptionalTuningValue format document key value = some document' ∧
      PatchedEntry format key value document document' := by
  unfold patchOptionalTuningValue
  cases value with
  | none =>
    refine ⟨_, rfl, ?_⟩
    rcases htable with hnone | ⟨entries, hentries⟩
    · have hitem := hformat.removeIn_none document "tuning" key hnone
      refine ⟨.removeIn key, .inl ((hitem "tuning").trans hnone), fun key' => ?_,
        fun key' _ => hitem key'⟩
      rw [tuningEntry_of_none ((hitem "tuning").trans hnone), tuningEntry_of_none hnone]
      exact (ite_self none).symm
    · obtain ⟨entries', hitem, hlookup⟩ :=
        hformat.item_removeIn document "tuning" entries key hentries
      have htuning := (hitem "tuning").trans (if_pos rfl)
      refine ⟨.removeIn key, .inr ⟨entries', htuning⟩, fun key' => ?_, fun key' hkey' => ?_⟩
      · rw [tuningEntry_of_table htuning, tuningEntry_of_table hentries, hlookup]
        rfl
      · rw [hitem, if_neg hkey']
  | some n =>
    have hinsert : ∀ d entries, (format.Edited document → format.Edited d) →
        format.item d "tuning" = some (.table entries) →
        (∀ key', entries.lookup key' = tuningEntry format document key') →
        (∀ key', key' ≠ "tuning" → format.item d key' = format.item document key') →
        ∃ document', format.insertIn d "tuning" key (.integer n) = some document' ∧
          PatchedEntry format key (some n) document document' := by
      intro d entries hedited hentries hsame hother
      obtain ⟨document', entries', hrun, hitem, hlookup⟩ :=
        hformat.item_insertIn d "tuning" entries key (.integer n) hentries
      have htuning := (hitem "tuning").trans (if_pos rfl)
      refine ⟨document', hrun, fun h => .insertIn (hedited h) hrun, .inr ⟨entries', htuning⟩,
        fun key' => ?_, fun key' hkey' => ?_⟩
      · rw [tuningEntry_of_table htuning, hlookup, hsame]
        rfl
      · rw [hitem, if_neg hkey', hother key' hkey']
    rcases htable with hnone | ⟨entries, hentries⟩
    · rw [hnone]
      have hitem := hformat.item_insert document "tuning" (.table [])
      refine hinsert _ [] (.insert (.table []) (by decide)) ((hitem "tuning").trans (if_pos rfl))
        (fun key' => ?_) fun key' hkey' => ?_
      · rw [tuningEntry_of_none hnone]
        rfl
      · rw [hitem, if_neg hkey']
    · rw [hentries]
      exact hinsert document entries id hentries
        (fun key' => (tuningEntry_of_table hentries).symm) fun _ _ => rfl

/-- All five entries at once. -/
structure PatchedTuning (format : ConfigFormat δ ρ) (tuning : TuningConfig)
    (document document' : δ) : Prop where
  tabled : Tabled format document'
  mrftDelaySecs : tuningEntry format document' "mrft_delay_secs" =
    tuning.mrftDelaySecs.map fun n : ℕ => .integer n
  pollIntervalMs : tuningEntry format document' "poll_interval_ms" =
    tuning.pollIntervalMs.map fun n : ℕ => .integer n
  timeoutSecs : tuningEntry format document' "timeout_secs" =
    tuning.timeoutSecs.map fun n : ℕ => .integer n
  opTimeoutSecs : tuningEntry format document' "op_timeout_secs" =
    tuning.opTimeoutSecs.map fun n : ℕ => .integer n
  restoreTimeoutSecs : tuningEntry format document' "restore_timeout_secs" =
    tuning.restoreTimeoutSecs.map fun n : ℕ => .integer n
  entry : ∀ key, key ∉ tuningKeys →
    tuningEntry format document' key = tuningEntry format document key

theorem patchTuning_spec (hformat : format.Lawful) (htable : Tabled format document)
    (tuning : TuningConfig) :
    ∃ document', patchTuning format tuning document = some document' ∧
      (format.Edited document → format.Edited document') ∧
      PatchedTuning format tuning document document' ∧
      ∀ key, key ≠ "tuning" → format.item document' key = format.item document key := by
  obtain ⟨d₁, hrun₁, h₁⟩ := patchOptionalTuningValue_spec "mrft_delay_secs"
    (tuning.mrftDelaySecs.map (↑)) hformat htable
  obtain ⟨d₂, hrun₂, h₂⟩ := patchOptionalTuningValue_spec "poll_interval_ms"
    (tuning.pollIntervalMs.map (↑)) hformat h₁.tabled
  obtain ⟨d₃, hrun₃, h₃⟩ := patchOptionalTuningValue_spec "timeout_secs"
    (tuning.timeoutSecs.map (↑)) hformat h₂.tabled
  obtain ⟨d₄, hrun₄, h₄⟩ := patchOptionalTuningValue_spec "op_timeout_secs"
    (tuning.opTimeoutSecs.map (↑)) hformat h₃.tabled
  obtain ⟨d₅, hrun₅, h₅⟩ := patchOptionalTuningValue_spec "restore_timeout_secs"
    (tuning.restoreTimeoutSecs.map (↑)) hformat h₄.tabled
  have hrun : patchTuning format tuning document = some d₅ := by
    simp only [patchTuning, hrun₁, hrun₂, hrun₃, hrun₄, hrun₅, Option.bind_eq_bind,
      Option.bind_some]
  have hentry : ∀ key, tuningEntry format d₅ key =
      if key = "restore_timeout_secs" then tuning.restoreTimeoutSecs.map fun n : ℕ => .integer n
      else if key = "op_timeout_secs" then tuning.opTimeoutSecs.map fun n : ℕ => .integer n
      else if key = "timeout_secs" then tuning.timeoutSecs.map fun n : ℕ => .integer n
      else if key = "poll_interval_ms" then tuning.pollIntervalMs.map fun n : ℕ => .integer n
      else if key = "mrft_delay_secs" then tuning.mrftDelaySecs.map fun n : ℕ => .integer n
      else tuningEntry format document key := by
    intro key
    rw [h₅.entry, h₄.entry, h₃.entry, h₂.entry, h₁.entry]
    simp only [Option.map_map, Function.comp_def]
  refine ⟨d₅, hrun,
    fun h => h₅.edited (h₄.edited (h₃.edited (h₂.edited (h₁.edited h)))),
    ⟨h₅.tabled, hentry _, hentry _, hentry _, hentry _, hentry _, ?_⟩, ?_⟩
  · intro key hkey
    have hne : ∀ k ∈ tuningKeys, key ≠ k := fun k hk heq => hkey (heq ▸ hk)
    rw [hentry, if_neg (hne _ (by decide)), if_neg (hne _ (by decide)),
      if_neg (hne _ (by decide)), if_neg (hne _ (by decide)), if_neg (hne _ (by decide))]
  · intro key hkey
    rw [h₅.other key hkey, h₄.other key hkey, h₃.other key hkey, h₂.other key hkey,
      h₁.other key hkey]

end Table

/-! ### The patch -/

section Patch

variable {format : ConfigFormat δ ρ} {raw : Option String} {update : ConfigPolicyUpdate}
variable {patched : String} {config base : ConfigFile ρ} {document : δ}

/-- What a patched document has: the settings of the update, and all else as before. -/
structure PatchedDocument (format : ConfigFormat δ ρ) (update : ConfigPolicyUpdate)
    (document document' : δ) : Prop extends
    PatchedTuning format update.tuning document document' where
  allow : format.item document' "allow_uncertain_quality" =
    some (.value (.boolean update.allowUncertainQuality))
  retention : format.item document' "retention_days" =
    update.retentionDays.map fun n : ℕ => .value (.integer n)
  other : ∀ key, key ∉ managedKeys → format.item document' key = format.item document key

/-- A printed table has the entries that are parsed. -/
theorem Reprinted.tuningEntry {document' : δ}
    (h : Reprinted (format.item document "tuning") (format.item document' "tuning"))
    (key : String) : tuningEntry format document' key = tuningEntry format document key := by
  rcases h with hsame | ⟨hnone, entries, hentries, hempty⟩
  · unfold Bhtune.tuningEntry
    rw [hsame]
  · rw [tuningEntry_of_none hnone, tuningEntry_of_table hentries, hempty]

theorem Reprinted.tabled {document' : δ}
    (h : Reprinted (format.item document "tuning") (format.item document' "tuning"))
    (htabled : Tabled format document) : Tabled format document' := by
  rcases h with hsame | ⟨hnone, -⟩
  · unfold Tabled
    rw [hsame]
    exact htabled
  · exact .inl hnone

theorem tuningEntry_congr {document' : δ} {key : String}
    (h : format.item document' "tuning" = format.item document "tuning") :
    tuningEntry format document' key = tuningEntry format document key := by
  unfold tuningEntry
  rw [h]

variable (update) in
theorem patchPolicyDocument_spec (hformat : format.Lawful) (htable : Tabled format document) :
    ∃ document', patchPolicyDocument format update document = some document' ∧
      (format.Edited document → format.Edited document') ∧
      PatchedDocument format update document document' := by
  -- the document with the two settings at its root
  obtain ⟨d, hd, hedited, hallow, hretention, hother⟩ : ∃ d,
      patchPolicyDocument format update document = patchTuning format update.tuning d ∧
      (format.Edited document → format.Edited d) ∧
      format.item d "allow_uncertain_quality" =
        some (.value (.boolean update.allowUncertainQuality)) ∧
      format.item d "retention_days" =
        update.retentionDays.map (fun n : ℕ => .value (.integer n)) ∧
      ∀ key, key ≠ "allow_uncertain_quality" → key ≠ "retention_days" →
        format.item d key = format.item document key := by
    have hfirst := hformat.item_insert document "allow_uncertain_quality"
      (.value (.boolean update.allowUncertainQuality))
    unfold patchPolicyDocument
    cases update.retentionDays with
    | none =>
      have hremove := hformat.item_remove (format.insert document "allow_uncertain_quality"
        (.value (.boolean update.allowUncertainQuality))) "retention_days"
      refine ⟨_, rfl, fun h => .remove (by decide) (.insert _ (by decide) h), ?_, ?_,
        fun key hallow hretention => ?_⟩
      · rw [hremove, if_neg (by decide), hfirst, if_pos rfl]
      · rw [hremove, if_pos rfl]
        rfl
      · rw [hremove, if_neg hretention, hfirst, if_neg hallow]
    | some days =>
      have hinsert := hformat.item_insert (format.insert document "allow_uncertain_quality"
        (.value (.boolean update.allowUncertainQuality))) "retention_days"
        (.value (.integer days))
      refine ⟨_, rfl, fun h => .insert _ (by decide) (.insert _ (by decide) h), ?_, ?_,
        fun key hallow hretention => ?_⟩
      · rw [hinsert, if_neg (by decide), hfirst, if_pos rfl]
      · rw [hinsert, if_pos rfl]
        rfl
      · rw [hinsert, if_neg hretention, hfirst, if_neg hallow]
  have htuning : format.item d "tuning" = format.item document "tuning" :=
    hother "tuning" (by decide) (by decide)
  have htabled : Tabled format d := by
    unfold Tabled
    rw [htuning]
    exact htable
  obtain ⟨d', hrun, hedited', hpatched, hkept⟩ := patchTuning_spec hformat htabled update.tuning
  refine ⟨d', hd.trans hrun, fun h => hedited' (hedited h), ⟨hpatched.tabled,
    hpatched.mrftDelaySecs, hpatched.pollIntervalMs,
    hpatched.timeoutSecs, hpatched.opTimeoutSecs, hpatched.restoreTimeoutSecs, ?_⟩, ?_, ?_, ?_⟩
  · intro key hkey
    rw [hpatched.entry key hkey, tuningEntry_congr htuning]
  · rw [hkept _ (by decide), hallow]
  · rw [hkept _ (by decide), hretention]
  · intro key hkey
    have hne : ∀ k ∈ managedKeys, key ≠ k := fun k hk heq => hkey (heq ▸ hk)
    rw [hkept _ (hne _ (by decide)), hother _ (hne _ (by decide)) (hne _ (by decide))]

/-- An unsigned setting that was written is read back. -/
theorem readUnsigned_integer {bound : ℕ} (value : Option ℕ) {read : Option ℕ}
    (h : readUnsigned bound (value.map fun n : ℕ => .integer n) = some read) : read = value := by
  cases value with
  | none => exact (Option.some.inj h).symm
  | some n =>
    simp only [readUnsigned, Option.map_some] at h
    split at h
    · exact (Option.some.inj h).symm
    · cases h

theorem TuningConfig.ext {a b : TuningConfig} (h₁ : a.mrftDelaySecs = b.mrftDelaySecs)
    (h₂ : a.pollIntervalMs = b.pollIntervalMs) (h₃ : a.timeoutSecs = b.timeoutSecs)
    (h₄ : a.opTimeoutSecs = b.opTimeoutSecs)
    (h₅ : a.restoreTimeoutSecs = b.restoreTimeoutSecs) : a = b := by
  obtain ⟨a₁, a₂, a₃, a₄, a₅⟩ := a
  cases h₁
  cases h₂
  cases h₃
  cases h₄
  cases h₅
  rfl

/-- A table reads as the settings it holds. -/
theorem readTuning_eq {entries : List (String × TomlValue)} {tuning read : TuningConfig}
    (h : readTuning entries = some read)
    (h₁ : entries.lookup "mrft_delay_secs" = tuning.mrftDelaySecs.map fun n : ℕ => .integer n)
    (h₂ : entries.lookup "poll_interval_ms" = tuning.pollIntervalMs.map fun n : ℕ => .integer n)
    (h₃ : entries.lookup "timeout_secs" = tuning.timeoutSecs.map fun n : ℕ => .integer n)
    (h₄ : entries.lookup "op_timeout_secs" = tuning.opTimeoutSecs.map fun n : ℕ => .integer n)
    (h₅ : entries.lookup "restore_timeout_secs" =
      tuning.restoreTimeoutSecs.map fun n : ℕ => .integer n) : read = tuning := by
  unfold readTuning at h
  rw [h₁, h₂, h₃, h₄, h₅] at h
  simp only [Option.bind_eq_bind, Option.bind_eq_some_iff, Option.pure_def,
    Option.some.injEq] at h
  obtain ⟨r₁, hr₁, r₂, hr₂, r₃, hr₃, r₄, hr₄, r₅, hr₅, rfl⟩ := h
  exact TuningConfig.ext (readUnsigned_integer _ hr₁) (readUnsigned_integer _ hr₂)
    (readUnsigned_integer _ hr₃) (readUnsigned_integer _ hr₄) (readUnsigned_integer _ hr₅)

/-- **What the patched document has is what it reads as.** -/
theorem Reads.of_patched {item : String → Option TomlItem} {document document' : δ}
    (hpatched : PatchedDocument format update document document')
    (hitem : ∀ key, item key = format.item document' key) (hreads : Reads item config) :
    config.allowUncertainQuality = update.allowUncertainQuality ∧
      config.retentionDays = update.retentionDays ∧ config.tuning = update.tuning := by
  refine ⟨?_, ?_, ?_⟩
  · have hallow := hreads.allow
    rw [hitem, hpatched.allow] at hallow
    exact (Option.some.inj hallow).symm
  · have hretention := (hitem _).trans hpatched.retention
    cases hdays : update.retentionDays with
    | none =>
      rw [hdays] at hretention
      exact hreads.noRetention hretention
    | some days =>
      rw [hdays] at hretention
      exact readUnsigned_integer (some days) (hreads.retention _ hretention)
  · rcases hpatched.tabled with hnone | ⟨entries, hentries⟩
    · have hempty : ∀ {key : String} {value : Option ℕ}, tuningEntry format document' key =
          value.map (fun n : ℕ => .integer n) → none = value := by
        intro key value hvalue
        rw [tuningEntry_of_none hnone] at hvalue
        exact (Option.map_eq_none_iff.mp hvalue.symm).symm
      rw [hreads.noTuning ((hitem _).trans hnone)]
      exact TuningConfig.ext (hempty hpatched.mrftDelaySecs) (hempty hpatched.pollIntervalMs)
        (hempty hpatched.timeoutSecs) (hempty hpatched.opTimeoutSecs)
        (hempty hpatched.restoreTimeoutSecs)
    · have hlookup : ∀ key, entries.lookup key = tuningEntry format document' key := fun key =>
        (tuningEntry_of_table hentries).symm
      exact readTuning_eq (hreads.tuning entries ((hitem _).trans hentries))
        ((hlookup _).trans hpatched.mrftDelaySecs) ((hlookup _).trans hpatched.pollIntervalMs)
        ((hlookup _).trans hpatched.timeoutSecs) ((hlookup _).trans hpatched.opTimeoutSecs)
        ((hlookup _).trans hpatched.restoreTimeoutSecs)

/-- What one step of a patch fails with, the patch fails with. -/
theorem bind_eq_error {α β : Type} {x : Except PatchFault α} {f : α → Except PatchFault β}
    {e : PatchFault} (h : x >>= f = .error e) : x = .error e ∨ ∃ a, x = .ok a ∧ f a = .error e := by
  cases x with
  | error e' =>
    cases h
    exact .inl rfl
  | ok a => exact .inr ⟨a, rfl, h⟩

theorem checkTuning_ne {tuning : TuningConfig} : checkTuning tuning ≠ .error .panicked := by
  unfold checkTuning
  cases resolveAndValidateTuningConfig tuning false <;> nofun

theorem optionalU64ToTomlInteger_ne {field : String} {value : Option ℕ} :
    optionalU64ToTomlInteger field value ≠ .error .panicked := by
  unfold optionalU64ToTomlInteger
  cases value with
  | none => nofun
  | some n =>
    dsimp only
    split <;> nofun

/-- The steps of a patch that succeeds. -/
theorem patchConfigPolicy_ok (h : patchConfigPolicy format raw update = .ok (patched, config)) :
    ∃ document document', format.parse (raw.getD "") = .ok document ∧
      patchPolicyDocument format update document = some document' ∧
      patched = format.print document' ∧ format.parseConfigContents patched = .ok config := by
  have hcontents : patchConfigContents format raw (patchPolicyDocument format update) =
      .ok (patched, config) := by
    obtain ⟨_, -, h⟩ := bindResult_eq_ok.mp h
    obtain ⟨_, -, h⟩ := bindResult_eq_ok.mp h
    obtain ⟨_, -, h⟩ := bindResult_eq_ok.mp h
    obtain ⟨_, -, h⟩ := bindResult_eq_ok.mp h
    obtain ⟨_, -, h⟩ := bindResult_eq_ok.mp h
    obtain ⟨result, hresult, h⟩ := bindResult_eq_ok.mp h
    obtain ⟨_, -, h⟩ := bindResult_eq_ok.mp h
    cases h
    exact hresult
  unfold patchConfigContents at hcontents
  cases hparse : format.parse (raw.getD "") with
  | error e =>
    rw [hparse] at hcontents
    cases hcontents
  | ok document =>
    rw [hparse] at hcontents
    dsimp only at hcontents
    cases hmutate : patchPolicyDocument format update document with
    | none =>
      rw [hmutate] at hcontents
      cases hcontents
    | some document' =>
      rw [hmutate] at hcontents
      dsimp only at hcontents
      cases hread : format.parseConfigContents (format.print document') with
      | error e =>
        rw [hread] at hcontents
        cases hcontents
      | ok parsed =>
        rw [hread] at hcontents
        cases hcontents
        exact ⟨document, document', rfl, hmutate, rfl, hread⟩

/-- What a patch of a text gives. -/
structure PatchSpec (format : ConfigFormat δ ρ) (update : ConfigPolicyUpdate) (raw : String)
    (base : ConfigFile ρ) (patched : String) (config : ConfigFile ρ) : Prop where
  settings : config = ⟨update.allowUncertainQuality, update.retentionDays, update.tuning, base.rest⟩
  reads : format.parseConfigContents patched = .ok config
  tuningIsTable : TuningIsTable format patched
  document : ∃ document document', format.parse raw = .ok document ∧
    format.parse patched = .ok document' ∧ PatchedDocument format update document document'

/-- **A patch sets the settings of the page and nothing else.** -/
theorem patchConfigPolicy_spec (hformat : format.Lawful)
    (htable : TuningIsTable format (raw.getD ""))
    (hbase : format.parseConfigContents (raw.getD "") = .ok base)
    (h : patchConfigPolicy format raw update = .ok (patched, config)) :
    PatchSpec format update (raw.getD "") base patched config := by
  obtain ⟨document, d, hparse, hmutate, hprint, hread⟩ := patchConfigPolicy_ok h
  obtain ⟨d', hmutate', hedited, hpatched⟩ := patchPolicyDocument_spec update hformat
    (htable document hparse)
  rw [hmutate] at hmutate'
  cases hmutate'
  obtain ⟨document', hreparse, hitem, htuning⟩ := hformat.parse_print d (hedited (.parsed hparse))
  rw [← hprint] at hreparse
  -- the parsed document in the place of the printed one
  have hsame : PatchedDocument format update document document' := by
    refine ⟨⟨htuning.tabled hpatched.tabled, ?_, ?_, ?_, ?_, ?_, ?_⟩, ?_, ?_, ?_⟩
    · exact (htuning.tuningEntry _).trans hpatched.mrftDelaySecs
    · exact (htuning.tuningEntry _).trans hpatched.pollIntervalMs
    · exact (htuning.tuningEntry _).trans hpatched.timeoutSecs
    · exact (htuning.tuningEntry _).trans hpatched.opTimeoutSecs
    · exact (htuning.tuningEntry _).trans hpatched.restoreTimeoutSecs
    · exact fun key hkey => (htuning.tuningEntry key).trans (hpatched.entry key hkey)
    · exact (hitem _ (by decide)).trans hpatched.allow
    · exact (hitem _ (by decide)).trans hpatched.retention
    · intro key hkey
      have hne : key ≠ "tuning" := fun heq => hkey (heq ▸ by decide)
      exact (hitem key hne).trans (hpatched.other key hkey)
  obtain ⟨document'', hreparse', hreads⟩ := hformat.reads patched config hread
  rw [hreparse] at hreparse'
  cases hreparse'
  obtain ⟨hallow, hretention, htuning⟩ := hreads.of_patched hsame fun _ => rfl
  have hrest := hformat.rest (raw.getD "") patched document document' base config hparse hreparse
    hsame.other hbase hread
  refine ⟨?_, hread, ?_, document, document', hparse, hreparse, hsame⟩
  · obtain ⟨a, r, t, rest⟩ := config
    cases hallow
    cases hretention
    cases htuning
    cases hrest
    rfl
  · intro d' hd'
    rw [hreparse] at hd'
    cases hd'
    exact hsame.tabled

variable (update) in
/-- A patch does not panic. -/
theorem patchConfigPolicy_ne_panicked (hformat : format.Lawful)
    (htable : TuningIsTable format (raw.getD "")) :
    patchConfigPolicy format raw update ≠ .error .panicked := by
  intro h
  have hcontents : patchConfigContents format raw (patchPolicyDocument format update) =
      .error .panicked := by
    rcases bind_eq_error h with h | ⟨_, -, h⟩
    · exact absurd h checkTuning_ne
    rcases bind_eq_error h with h | ⟨_, -, h⟩
    · exact absurd h optionalU64ToTomlInteger_ne
    rcases bind_eq_error h with h | ⟨_, -, h⟩
    · exact absurd h optionalU64ToTomlInteger_ne
    rcases bind_eq_error h with h | ⟨_, -, h⟩
    · exact absurd h optionalU64ToTomlInteger_ne
    rcases bind_eq_error h with h | ⟨_, -, h⟩
    · exact absurd h optionalU64ToTomlInteger_ne
    rcases bind_eq_error h with h | ⟨result, -, h⟩
    · exact h
    rcases bind_eq_error h with h | ⟨_, -, h⟩
    · exact absurd h checkTuning_ne
    · cases h
  unfold patchConfigContents at hcontents
  cases hparse : format.parse (raw.getD "") with
  | error e =>
    rw [hparse] at hcontents
    cases hcontents
  | ok document =>
    obtain ⟨d', hmutate, -, -⟩ := patchPolicyDocument_spec update hformat
      (htable document hparse)
    rw [hparse] at hcontents
    dsimp only at hcontents
    rw [hmutate] at hcontents
    dsimp only at hcontents
    cases hread : format.parseConfigContents (format.print d') with
    | error e =>
      rw [hread] at hcontents
      cases hcontents
    | ok parsed =>
      rw [hread] at hcontents
      cases hcontents

/-- **The store after a save is the one that loading its text gives.** -/
theorem savedStore_eq_storeOf {state : LoadedConfigStore ρ} {path : ConfigPath}
    (hpatched : PatchSpec format update (raw.getD "") base patched config) :
    savedStore state path update (patched, config) =
      storeOf format path state.missingIsAllowed patched config := by
  obtain ⟨document, document', -, hparse, hdocument⟩ := hpatched.document
  unfold savedStore storeOf
  rw [hparse]
  dsimp only
  rw [hdocument.allow, hpatched.settings]

end Patch

/-! ### A format with these laws -/

section Tiny

/-- The documents of a small format, the latest entry of a key first. -/
abbrev TinyDocument := List (String × TomlItem)

instance encodableText : Encodable String :=
  Encodable.ofLeftInverse (fun s => s.toList.map Char.toNat)
    (fun codes => String.ofList (codes.map Char.ofNat)) (by
      intro s
      simp [Function.comp_def])

instance encodableTomlValue : Encodable TomlValue :=
  Encodable.ofLeftInverse
    (fun v => (match v with
      | .boolean b => .inl b
      | .integer n => .inr (.inl n)
      | .other text => .inr (.inr text) : Bool ⊕ ℤ ⊕ String))
    (fun code => match code with
      | .inl b => .boolean b
      | .inr (.inl n) => .integer n
      | .inr (.inr text) => .other text)
    (by rintro (b | n | text) <;> rfl)

instance encodableTomlItem : Encodable TomlItem :=
  Encodable.ofLeftInverse
    (fun i => (match i with
      | .value v => .inl v
      | .table entries => .inr entries : TomlValue ⊕ List (String × TomlValue)))
    (fun code => match code with
      | .inl v => .value v
      | .inr entries => .table entries)
    (by rintro (v | entries) <;> rfl)

/-- The text of a document; the shortest one is written as it is in TOML. -/
def tinyPrint (document : TinyDocument) : String :=
  if document = [] then ""
  else if document = [("allow_uncertain_quality", .value (.boolean false))] then
    "allow_uncertain_quality = false\n"
  else String.ofList (List.replicate (Encodable.encode document + 1) '#')

def tinyParse (raw : String) : Except String TinyDocument :=
  if raw = "" then .ok []
  else if raw = "allow_uncertain_quality = false\n" then
    .ok [("allow_uncertain_quality", .value (.boolean false))]
  else
    match (Encodable.decode (raw.length - 1) : Option TinyDocument) with
    | some document => .ok document
    | none => .error "malformed"

theorem tinyParse_tinyPrint (document : TinyDocument) :
    tinyParse (tinyPrint document) = .ok document := by
  unfold tinyPrint
  split
  · rename_i h
    rw [h]
    rfl
  split
  · rename_i h
    rw [h]
    rfl
  · have hfirst : (String.ofList (List.replicate (Encodable.encode document + 1) '#')).toList =
        '#' :: List.replicate (Encodable.encode document) '#' := String.toList_ofList
    have hne : ∀ (c : Char) (rest : List Char), c ≠ '#' →
        String.ofList (List.replicate (Encodable.encode document + 1) '#') ≠
          String.ofList (c :: rest) := by
      intro c rest hc h
      have hlist := congrArg String.toList h
      rw [hfirst, String.toList_ofList, List.cons.injEq] at hlist
      exact hc hlist.1.symm
    unfold tinyParse
    rw [if_neg, if_neg, String.length_ofList, List.length_replicate, Nat.add_sub_cancel,
      Encodable.encodek]
    · exact hne 'a' _ (by decide)
    · intro h
      have hlist := congrArg String.toList h
      rw [hfirst] at hlist
      cases hlist

def tinyRetention : Option TomlItem → Option (Option ℕ)
  | none => some none
  | some (.value v) => readUnsigned (2 ^ 32) (some v)
  | some (.table _) => none

def tinyTuning : Option TomlItem → Option TuningConfig
  | none => some {}
  | some (.table entries) => readTuning entries
  | some (.value _) => none

/-- The reader of the small format. -/
def tinyRead (document : TinyDocument) : Option (ConfigFile Unit) :=
  (readBoolean true (document.lookup "allow_uncertain_quality")).bind fun allow =>
    (tinyRetention (document.lookup "retention_days")).bind fun retention =>
      (tinyTuning (document.lookup "tuning")).map fun tuning => ⟨allow, retention, tuning, ()⟩

/-- A small format with the laws. -/
def tinyToml : ConfigFormat TinyDocument Unit where
  parse := tinyParse
  print := tinyPrint
  item document key := document.lookup key
  insert document key item := (key, item) :: document
  remove document key := document.filter fun entry => entry.1 ≠ key
  insertIn document table key value :=
    match document.lookup table with
    | some (.table entries) => some ((table, .table ((key, value) :: entries)) :: document)
    | _ => none
  removeIn document table key :=
    match document.lookup table with
    | some (.table entries) =>
      (table, .table (entries.filter fun entry => entry.1 ≠ key)) :: document
    | _ => document
  parseConfigContents raw :=
    match tinyParse raw with
    | .ok document => (tinyRead document).elim (.error "malformed") .ok
    | .error e => .error e
  defaultRest := ()
  utf8Error _ := "invalid utf-8"

theorem lookup_cons_if {β : Type} (l : List (String × β)) (key key' : String) (b : β) :
    ((key, b) :: l).lookup key' = if key' = key then some b else l.lookup key' := by
  rw [List.lookup_cons]
  by_cases h : key' = key
  · rw [if_pos h, beq_iff_eq.mpr h]
  · rw [if_neg h, beq_eq_false_iff_ne.mpr h]

theorem lookup_filter_ne {β : Type} (l : List (String × β)) (key key' : String) :
    (l.filter fun entry => entry.1 ≠ key).lookup key' =
      if key' = key then none else l.lookup key' := by
  induction l with
  | nil => exact (ite_self none).symm
  | cons entry l ih =>
    obtain ⟨k, b⟩ := entry
    rw [lookup_cons_if]
    by_cases hk : k = key
    · rw [List.filter_cons_of_neg (by simpa using hk), ih, hk]
      by_cases hkey : key' = key
      · rw [if_pos hkey, if_pos hkey]
      · rw [if_neg hkey, if_neg hkey, if_neg hkey]
    · rw [List.filter_cons_of_pos (by simpa using hk), lookup_cons_if, ih]
      by_cases hkey : key' = k
      · rw [if_pos hkey, if_pos hkey, if_neg (hkey ▸ hk)]
      · rw [if_neg hkey, if_neg hkey]

theorem tinyRead_reads {document : TinyDocument} {config : ConfigFile Unit}
    (h : tinyRead document = some config) : Reads (tinyToml.item document) config := by
  obtain ⟨allow, hallow, h⟩ := Option.bind_eq_some_iff.mp h
  obtain ⟨retention, hretention, h⟩ := Option.bind_eq_some_iff.mp h
  obtain ⟨tuning, htuning, rfl⟩ := Option.map_eq_some_iff.mp h
  refine ⟨hallow, ?_, ?_, ?_, ?_⟩
  · intro v hv
    rw [show document.lookup "retention_days" = some (.value v) from hv] at hretention
    exact hretention
  · intro hnone
    rw [show document.lookup "retention_days" = none from hnone] at hretention
    exact (Option.some.inj hretention).symm
  · intro entries hentries
    rw [show document.lookup "tuning" = some (.table entries) from hentries] at htuning
    exact htuning
  · intro hnone
    rw [show document.lookup "tuning" = none from hnone] at htuning
    exact (Option.some.inj htuning).symm

theorem tinyToml_lawful : tinyToml.Lawful where
  parse_print document _ := ⟨document, tinyParse_tinyPrint document, fun _ _ => rfl, .inl rfl⟩
  item_insert document key item key' := lookup_cons_if document key key' item
  item_remove document key key' := lookup_filter_ne document key key'
  item_insertIn document table entries key value h := by
    have hinsert : tinyToml.insertIn document table key value =
        some ((table, .table ((key, value) :: entries)) :: document) := by
      simp only [tinyToml, show document.lookup table = some (.table entries) from h]
    exact ⟨_, _, hinsert, fun key' => lookup_cons_if _ _ _ _, fun key' => lookup_cons_if _ _ _ _⟩
  item_removeIn document table entries key h := by
    have hremove : tinyToml.removeIn document table key =
        (table, .table (entries.filter fun entry => entry.1 ≠ key)) :: document := by
      simp only [tinyToml, show document.lookup table = some (.table entries) from h]
    rw [hremove]
    exact ⟨_, fun key' => lookup_cons_if _ _ _ _, fun key' => lookup_filter_ne _ _ _⟩
  removeIn_none document table key h := by
    have hremove : tinyToml.removeIn document table key = document := by
      simp only [tinyToml, show document.lookup table = none from h]
    intro key'
    rw [hremove]
  reads raw config h := by
    simp only [tinyToml] at h
    cases hparse : tinyParse raw with
    | error e =>
      rw [hparse] at h
      cases h
    | ok document =>
      rw [hparse] at h
      dsimp only at h
      refine ⟨document, hparse, ?_⟩
      cases hread : tinyRead document with
      | none =>
        rw [hread] at h
        cases h
      | some read =>
        rw [hread] at h
        cases h
        exact tinyRead_reads hread
  rest _ _ _ _ _ _ _ _ _ _ _ := rfl
  default := rfl
  empty := ⟨[], rfl, fun _ => rfl⟩

end Tiny

end Bhtune
