import Bhtune.Library.CrashFiles
import Bhtune.Runtime.Request

/-!
# The configuration file

The server keeps one TOML file, which people also edit by hand.  A save patches the settings of the
configuration page into the text that was loaded, writes the result beside the file, copies the
file to a backup and renames the new text over it.  TOML itself is a parameter: an editor that
keeps what it does not touch, and a reader of the whole configuration.

* `patchConfigPolicy` — the patch of a text;
* `writeConfigFileAtomically` — the write;
* `loadConfigStoreFromResolution`, `saveConfigStore` — the store.
-/

namespace Bhtune

open CrashFiles Effect

/-! ### Paths -/

/-- A path: the directory and, where it does not end in `..`, the file name. -/
structure ConfigPath where
  directory : String
  fileName : Option String
  deriving DecidableEq

/-- The path with something put at the end of its file name. -/
def ConfigPath.sibling (path : ConfigPath) (addition : String) : ConfigPath :=
  { path with fileName := some (path.fileName.getD "bhtune.toml" ++ addition) }

/-- `sibling_with_suffix`, for a value of `unique_suffix`. -/
def siblingWithSuffix (path : ConfigPath) (suffix unique : String) : ConfigPath :=
  path.sibling ("." ++ (suffix ++ ("-" ++ unique)))

/-- `backup_path_for`. -/
def backupPathFor (path : ConfigPath) (unique : String) : ConfigPath :=
  path.sibling (".backup-" ++ (unique ++ ".bak"))

/-- The values of `unique_suffix` in one save: those of the attempts at a temporary file, and that
of the backup. -/
structure Suffixes where
  temp : ℕ → String
  backup : String

/-! ### TOML -/

/-- A value; the other kinds, and the tables inside `[tuning]`, are their text. -/
inductive TomlValue where
  | boolean (b : Bool)
  | integer (n : ℤ)
  | other (text : String)
  deriving DecidableEq

/-- What a document has under a key. -/
inductive TomlItem where
  | value (v : TomlValue)
  | table (entries : List (String × TomlValue))
  deriving DecidableEq

/-- `toml_edit`: documents that keep their comments and layout, and the operations used on them.
`insertIn` is `document[table][key] = value`, which panics on an item that is not a table. -/
structure TomlEdit (δ : Type) where
  parse : String → Except String δ
  print : δ → String
  item : δ → String → Option TomlItem
  insert : δ → String → TomlItem → δ
  remove : δ → String → δ
  insertIn : δ → String → String → TomlValue → Option δ
  removeIn : δ → String → String → δ

/-- `BhtuneConfig`, with the settings the configuration page does not own in `rest`. -/
structure ConfigFile (ρ : Type) where
  allowUncertainQuality : Bool
  retentionDays : Option ℕ
  tuning : TuningConfig
  rest : ρ

/-- The code outside: `toml_edit`, the derived reader of a configuration, its default, and the text
of a UTF-8 error. -/
structure ConfigFormat (δ ρ : Type) extends TomlEdit δ where
  parseConfigContents : String → Except String (ConfigFile ρ)
  defaultRest : ρ
  utf8Error : List UInt8 → String

variable {δ ρ : Type}

/-- `BhtuneConfig::default`. -/
def ConfigFormat.defaultConfig (format : ConfigFormat δ ρ) : ConfigFile ρ where
  allowUncertainQuality := true
  retentionDays := none
  tuning := {}
  rest := format.defaultRest

/-- The bytes of a text. -/
def utf8Bytes (s : String) : List UInt8 := s.toByteArray.data.toList

/-- `String::from_utf8`. -/
def fromUtf8 (bytes : List UInt8) : Option String := String.fromUTF8? ⟨bytes.toArray⟩

/-! ### Revisions -/

/-- `FNV1A_OFFSET_BASIS`. -/
def fnv1aOffsetBasis : UInt64 := 0xcbf29ce484222325

/-- `FNV1A_PRIME`. -/
def fnv1aPrime : UInt64 := 0x100000001b3

/-- `stable_revision_hash`; the arithmetic of `UInt64` wraps. -/
def stableRevisionHash (bytes : List UInt8) : UInt64 :=
  bytes.foldl (fun hash byte => (hash ^^^ byte.toUInt64) * fnv1aPrime) fnv1aOffsetBasis

/-- The last `k` hexadecimal digits of a number. -/
def hexDigits : ℕ → ℕ → List Char
  | 0, _ => []
  | k + 1, n => hexDigits k (n / 16) ++ [Nat.digitChar (n % 16)]

/-- `{:016x}` of a 64-bit number. -/
def hex16 (n : ℕ) : List Char := hexDigits 16 n

example : String.ofList (hex16 0xcbf29ce4842223) = "00cbf29ce4842223" := by decide

/-- `revision_token_for_raw`. -/
def revisionTokenForRaw (raw : Option String) : String :=
  match raw with
  | some raw => String.ofList ("present:v1:".toList ++ (Nat.toDigits 10 (utf8Bytes raw).length ++
      ':' :: hex16 (stableRevisionHash (utf8Bytes raw)).toNat))
  | none => "absent:v1"

/-! ### The store -/

/-- `TuningConfigSource`. -/
inductive TuningConfigSource where
  | toml
  | builtInDefault
  deriving DecidableEq

/-- `TuningConfigSources`. -/
structure TuningConfigSources where
  mrftDelaySecs : TuningConfigSource
  pollIntervalMs : TuningConfigSource
  timeoutSecs : TuningConfigSource
  opTimeoutSecs : TuningConfigSource
  restoreTimeoutSecs : TuningConfigSource
  deriving DecidableEq

/-- `source`, inside `tuning_config_sources`. -/
def TuningConfigSource.of (value : Option ℕ) : TuningConfigSource :=
  if value.isSome then .toml else .builtInDefault

/-- `tuning_config_sources`. -/
def tuningConfigSources (config : TuningConfig) : TuningConfigSources where
  mrftDelaySecs := .of config.mrftDelaySecs
  pollIntervalMs := .of config.pollIntervalMs
  timeoutSecs := .of config.timeoutSecs
  opTimeoutSecs := .of config.opTimeoutSecs
  restoreTimeoutSecs := .of config.restoreTimeoutSecs

/-- `ConfigPathResolution`. -/
structure ConfigPathResolution where
  path : Option ConfigPath
  missingIsAllowed : Bool

/-- `LoadedConfigStore`. -/
structure LoadedConfigStore (ρ : Type) where
  path : Option ConfigPath
  missingIsAllowed : Bool
  originalRaw : Option String
  config : ConfigFile ρ
  revision : String
  tomlAllowUncertainQuality : Option Bool
  tomlTuning : TuningConfig
  tuningSources : TuningConfigSources

/-- `ConfigPolicyUpdate`. -/
structure ConfigPolicyUpdate where
  allowUncertainQuality : Bool
  retentionDays : Option ℕ
  mrftDelaySecs : Option ℕ
  pollIntervalMs : Option ℕ
  timeoutSecs : Option ℕ
  opTimeoutSecs : Option ℕ
  restoreTimeoutSecs : Option ℕ

/-- `ConfigPolicyUpdate::tuning`. -/
def ConfigPolicyUpdate.tuning (update : ConfigPolicyUpdate) : TuningConfig where
  mrftDelaySecs := update.mrftDelaySecs
  pollIntervalMs := update.pollIntervalMs
  timeoutSecs := update.timeoutSecs
  opTimeoutSecs := update.opTimeoutSecs
  restoreTimeoutSecs := update.restoreTimeoutSecs

/-- `ConfigStoreError`. -/
inductive ConfigStoreError where
  | pathNotResolved
  | missing (path : ConfigPath)
  | unreadable (path : ConfigPath) (source : IoError)
  | malformed (path : Option ConfigPath) (source : Text)
  | conflict (path : Option ConfigPath) (message : Text)
  | write (path : ConfigPath) (action : String) (source : IoError)
  deriving DecidableEq

/-- A program on the file system of the store. -/
abbrev Filed (α : Type) := EStateM ConfigStoreError (Host ConfigPath UInt8) α

/-- An error that ends the call. -/
def refuse {α : Type} (e : ConfigStoreError) : Filed α := throw e

/-- The store of a text. -/
def storeOf (format : ConfigFormat δ ρ) (path : ConfigPath) (missingIsAllowed : Bool)
    (raw : String) (config : ConfigFile ρ) : LoadedConfigStore ρ where
  path := some path
  missingIsAllowed := missingIsAllowed
  originalRaw := some raw
  config := config
  revision := revisionTokenForRaw (some raw)
  tomlAllowUncertainQuality :=
    match format.parse raw with
    | .ok document =>
      match format.item document "allow_uncertain_quality" with
      | some (.value (.boolean b)) => some b
      | _ => none
    | .error _ => none
  tomlTuning := config.tuning
  tuningSources := tuningConfigSources config.tuning

/-- The store of a file that is not there. -/
def emptyStore (format : ConfigFormat δ ρ) (path : Option ConfigPath) : LoadedConfigStore ρ where
  path := path
  missingIsAllowed := true
  originalRaw := none
  config := format.defaultConfig
  revision := revisionTokenForRaw none
  tomlAllowUncertainQuality := none
  tomlTuning := {}
  tuningSources := tuningConfigSources {}

/-- `load_config_store_from_resolution`. -/
def loadConfigStoreFromResolution (format : ConfigFormat δ ρ) (resolution : ConfigPathResolution) :
    Filed (LoadedConfigStore ρ) := do
  match resolution.path with
  | some path =>
    match ← readFile path with
    | .ok bytes =>
      match fromUtf8 bytes with
      | none =>
        refuse (.malformed (some path)
          (text ("config file is not valid UTF-8: " ++ format.utf8Error bytes)))
      | some raw =>
        match format.parseConfigContents raw with
        | .error e => refuse (.malformed (some path) (text e))
        | .ok config => return storeOf format path resolution.missingIsAllowed raw config
    | .error .notFound =>
      if resolution.missingIsAllowed then return emptyStore format (some path)
      else refuse (.missing path)
    | .error e => refuse (.unreadable path e)
  | none => return emptyStore format none

/-! ### The patch -/

/-- How a patch fails. -/
inductive PatchFault where
  | malformed (source : Text)
  | panicked

/-- `patch_optional_tuning_value`. -/
def patchOptionalTuningValue (format : ConfigFormat δ ρ) (document : δ) (key : String)
    (value : Option ℤ) : Option δ :=
  match value with
  | some n =>
    let document := match format.item document "tuning" with
      | none => format.insert document "tuning" (.table [])
      | some _ => document
    format.insertIn document "tuning" key (.integer n)
  | none => some (format.removeIn document "tuning" key)

/-- `optional_u64_to_toml_integer`. -/
def optionalU64ToTomlInteger (field : String) (value : Option ℕ) : Except PatchFault (Option ℤ) :=
  match value with
  | none => .ok none
  | some n =>
    if n < 2 ^ 63 then .ok (some n)
    else
      .error (.malformed (text ("tuning." ++ field ++ " is too large to store as a TOML integer")))

/-- `patch_config_contents`. -/
def patchConfigContents (format : ConfigFormat δ ρ) (raw : Option String) (mutator : δ → Option δ) :
    Except PatchFault (String × ConfigFile ρ) :=
  match format.parse (raw.getD "") with
  | .error e => .error (.malformed (text e))
  | .ok document =>
    match mutator document with
    | none => .error .panicked
    | some document =>
      match format.parseConfigContents (format.print document) with
      | .error e => .error (.malformed (text e))
      | .ok parsed => .ok (format.print document, parsed)

/-- The five values of the `[tuning]` table, one after the other. -/
def patchTuning (format : ConfigFormat δ ρ) (tuning : TuningConfig) (document : δ) : Option δ := do
  let document ← patchOptionalTuningValue format document "mrft_delay_secs"
    (tuning.mrftDelaySecs.map (↑))
  let document ← patchOptionalTuningValue format document "poll_interval_ms"
    (tuning.pollIntervalMs.map (↑))
  let document ← patchOptionalTuningValue format document "timeout_secs"
    (tuning.timeoutSecs.map (↑))
  let document ← patchOptionalTuningValue format document "op_timeout_secs"
    (tuning.opTimeoutSecs.map (↑))
  patchOptionalTuningValue format document "restore_timeout_secs"
    (tuning.restoreTimeoutSecs.map (↑))

/-- The closure that `patch_config_policy` applies to the document. -/
def patchPolicyDocument (format : ConfigFormat δ ρ) (update : ConfigPolicyUpdate) (document : δ) :
    Option δ :=
  let document := format.insert document "allow_uncertain_quality"
    (.value (.boolean update.allowUncertainQuality))
  let document := match update.retentionDays with
    | some days => format.insert document "retention_days" (.value (.integer days))
    | none => format.remove document "retention_days"
  patchTuning format update.tuning document

/-- `resolve_and_validate_tuning_config`, as a step of a patch. -/
def checkTuning (tuning : TuningConfig) : Except PatchFault Unit :=
  match resolveAndValidateTuningConfig tuning false with
  | .ok _ => .ok ()
  | .error e => .error (.malformed e)

/-- `patch_config_policy`. -/
def patchConfigPolicy (format : ConfigFormat δ ρ) (raw : Option String)
    (update : ConfigPolicyUpdate) : Except PatchFault (String × ConfigFile ρ) := do
  checkTuning update.tuning
  let _ ← optionalU64ToTomlInteger "poll_interval_ms" update.pollIntervalMs
  let _ ← optionalU64ToTomlInteger "timeout_secs" update.timeoutSecs
  let _ ← optionalU64ToTomlInteger "op_timeout_secs" update.opTimeoutSecs
  let _ ← optionalU64ToTomlInteger "restore_timeout_secs" update.restoreTimeoutSecs
  let result ← patchConfigContents format raw (patchPolicyDocument format update)
  checkTuning result.2.tuning
  return result

/-! ### Writing the file -/

/-- A failed step of a write. -/
def writeError {α : Type} (path : ConfigPath) (action : String) (source : IoError) : Filed α :=
  refuse (.write path action source)

/-- `ensure_parent_dir`; directories themselves are not part of the disk. -/
def ensureParentDir (path : ConfigPath) : Filed Unit := do
  if path.directory = "" then return ()
  else
    match ← fault with
    | some f => writeError path "create config directory" (.other f.reason)
    | none => return ()

/-- `create_temp_file_with`: attempts from the one numbered `k` on. -/
def createTempFileWith (path : ConfigPath) (nextPath : ℕ → ConfigPath) :
    ℕ → ℕ → Filed (ConfigPath × ℕ)
  | 0, _ => writeError path "create temporary config file" .alreadyExists
  | attempts + 1, k => do
    match ← createNew (nextPath k) with
    | .ok file => return (nextPath k, file)
    | .error .alreadyExists => createTempFileWith path nextPath attempts (k + 1)
    | .error e => writeError path "create temporary config file" e

/-- `create_temp_file`. -/
def createTempFile (path : ConfigPath) (suffixes : Suffixes) : Filed (ConfigPath × ℕ) :=
  createTempFileWith path (fun k => siblingWithSuffix path "tmp" (suffixes.temp k)) 16 0

/-- The temporary file is removed, if that works, and the step has failed. -/
def abandon {α : Type} (path tempPath : ConfigPath) (action : String) (source : IoError) :
    Filed α := do
  let _ ← removeFile tempPath
  writeError path action source

/-- `write_and_flush_temp_file`. -/
def writeAndFlushTempFile (path tempPath : ConfigPath) (bytes : List UInt8) (file : ℕ) :
    Filed Unit := do
  match ← writeAll file bytes with
  | .error e => abandon path tempPath "write temporary config file" e
  | .ok () =>
    match ← syncAll file with
    | .error e => abandon path tempPath "flush temporary config file" e
    | .ok () => return ()

/-- `sync_parent_dir`. -/
def syncParentDir (unix : Bool) (path : ConfigPath) : Filed Unit :=
  if unix = true ∧ path.directory ≠ "" then
    syncDirectory fun q => decide (q.directory = path.directory)
  else pure ()

/-- The backup that is made when the file is there; `Path::exists` takes an error for an absence. -/
def backUp (path tempPath : ConfigPath) (suffixes : Suffixes) : Filed (Option ConfigPath) := do
  match ← tryExists path with
  | .ok true =>
    match ← copyFile path (backupPathFor path suffixes.backup) with
    | .error e => abandon path tempPath "create config backup" e
    | .ok () => return some (backupPathFor path suffixes.backup)
  | _ => return none

/-- `write_config_file_atomically`. -/
def writeConfigFileAtomically (unix : Bool) (suffixes : Suffixes) (path : ConfigPath)
    (bytes : List UInt8) (createParentDir : Bool) : Filed (Option ConfigPath) := do
  (if createParentDir then ensureParentDir path else pure ())
  let (tempPath, file) ← createTempFile path suffixes
  writeAndFlushTempFile path tempPath bytes file
  let backupPath ← backUp path tempPath suffixes
  match ← rename tempPath path with
  | .error e => abandon path tempPath "replace config file" e
  | .ok () =>
    syncParentDir unix path
    return backupPath

/-! ### The save -/

/-- How a save fails: with an error, or by a panic of `toml_edit`. -/
inductive StoreFault where
  | error (e : ConfigStoreError)
  | panicked
  deriving DecidableEq

/-- `ConfigSaveResult`. -/
structure ConfigSaveResult (ρ : Type) where
  backupPath : Option ConfigPath
  state : LoadedConfigStore ρ

/-- What the file holds now, where it is there. -/
def currentBytes (path : ConfigPath) : Filed (Option (List UInt8)) := do
  match ← readFile path with
  | .ok bytes => return some bytes
  | .error .notFound => return none
  | .error e => refuse (.unreadable path e)

/-- The store after a save. -/
def savedStore (state : LoadedConfigStore ρ) (path : ConfigPath) (update : ConfigPolicyUpdate)
    (patched : String × ConfigFile ρ) : LoadedConfigStore ρ where
  path := some path
  missingIsAllowed := state.missingIsAllowed
  originalRaw := some patched.1
  config := patched.2
  revision := revisionTokenForRaw (some patched.1)
  tomlAllowUncertainQuality := some update.allowUncertainQuality
  tomlTuning := update.tuning
  tuningSources := tuningConfigSources update.tuning

/-- `save_config_store`. -/
def saveConfigStore (format : ConfigFormat δ ρ) (unix : Bool) (suffixes : Suffixes)
    (state : LoadedConfigStore ρ) (expectedRevision : String) (update : ConfigPolicyUpdate) :
    EStateM StoreFault (Host ConfigPath UInt8) (ConfigSaveResult ρ) := do
  if state.revision ≠ expectedRevision then
    throw (.error (.conflict state.path
      (text ("stale config revision token: expected " ++ expectedRevision ++ ", latest " ++
        state.revision))))
  else
    match state.path with
    | none => throw (.error .pathNotResolved)
    | some path =>
      let current ← EStateM.adaptExcept .error (currentBytes path)
      if state.originalRaw.map utf8Bytes ≠ current then
        throw (.error (.conflict (some path)
          (text "config file changed on disk since it was loaded")))
      else if state.originalRaw = none ∧ state.missingIsAllowed = false then
        throw (.error (.missing path))
      else
        match patchConfigPolicy format state.originalRaw update with
        | .error (.malformed source) => throw (.error (.malformed (some path) source))
        | .error .panicked => throw .panicked
        | .ok patched =>
          let backupPath ← EStateM.adaptExcept .error (writeConfigFileAtomically unix suffixes path
            (utf8Bytes patched.1) state.originalRaw.isNone)
          return { backupPath, state := savedStore state path update patched }

end Bhtune
