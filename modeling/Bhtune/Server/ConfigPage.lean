import Bhtune.Library.ActionRun
import Bhtune.Library.IpAddress
import Bhtune.Runtime.ConfigPatch
import Bhtune.Runtime.ConfigSave

/-!
# The configuration page

The server loads the configuration when it starts and keeps it under a lock.  A client is shown
the settings with the revision of their text, and sends that revision with a change.  The file may
be edited, replaced or removed by others at any time between two requests.

* `getConfig`, `putConfig` — the two routes;
* `ConfigStep` — the server, its file and the clients, step by step;
* `revision_collision` — which texts share a revision;
* `no_lost_update` — a change that is saved was made on the text its client was shown;
* `saved_reloads` — what the server holds after it is what a restart would load;
* `config_survives` — wherever changes are cut off, the server can start again.
-/

namespace Bhtune

open ActionRun CrashFiles Effect

variable {δ ρ : Type}

/-! ### The routes -/

/-- `UpdateConfigRequest`. -/
structure UpdateConfigRequest where
  revision : String
  allowUncertainQuality : Bool
  retentionDays : Option ℕ
  tuning : Option TuningConfig

/-- `ConfigTomlValues`, what the file says. -/
structure ConfigTomlValues where
  allowUncertainQuality : Option Bool
  retentionDays : Option ℕ
  tuning : TuningConfig

/-- `ConfigValues`, what is in force. -/
structure ConfigValues where
  allowUncertainQuality : Bool
  retentionDays : Option ℕ
  tuning : EffectiveTiming

/-- `ConfigTuningSources`. -/
structure ConfigTuningSources where
  mrftDelaySecs : String
  pollIntervalMs : String
  timeoutSecs : String
  opTimeoutSecs : String
  restoreTimeoutSecs : String

/-- `ConfigSources`. -/
structure ConfigSources where
  allowUncertainQuality : String
  retentionDays : String
  tuning : ConfigTuningSources

/-- `ConfigResponse`; a path is displayed by the outside. -/
structure ConfigResponse where
  revision : String
  configPath : Option ConfigPath
  toml : ConfigTomlValues
  effective : ConfigValues
  source : ConfigSources
  backupPath : Option ConfigPath

/-- `tuning_source_label`. -/
def tuningSourceLabel : TuningConfigSource → String
  | .toml => "config_file"
  | .builtInDefault => "default"

/-- `response_from_store_with_retention`. -/
def responseFromStore (envRetention : Option ℕ) (store : LoadedConfigStore ρ)
    (backupPath : Option ConfigPath) : ConfigResponse where
  revision := store.revision
  configPath := store.path
  toml := ⟨store.tomlAllowUncertainQuality, store.config.retentionDays, store.tomlTuning⟩
  effective := ⟨store.config.allowUncertainQuality, envRetention.or store.config.retentionDays,
    resolveTuningConfig store.tomlTuning⟩
  source := {
    allowUncertainQuality :=
      if store.tomlAllowUncertainQuality.isSome then "config_file" else "default"
    retentionDays :=
      if envRetention.isSome then "environment"
      else if store.config.retentionDays.isSome then "config_file" else "default"
    tuning := {
      mrftDelaySecs := tuningSourceLabel store.tuningSources.mrftDelaySecs
      pollIntervalMs := tuningSourceLabel store.tuningSources.pollIntervalMs
      timeoutSecs := tuningSourceLabel store.tuningSources.timeoutSecs
      opTimeoutSecs := tuningSourceLabel store.tuningSources.opTimeoutSecs
      restoreTimeoutSecs := tuningSourceLabel store.tuningSources.restoreTimeoutSecs } }
  backupPath := backupPath

/-- The errors of the routes. -/
inductive ConfigRouteError where
  | badRequest (message : Text)
  | conflict (message : Text)
  | store (error : ConfigStoreError)
  | poisoned
  deriving DecidableEq

/-- How a request fails: with a response, or by a panic under the lock. -/
inductive PutFault where
  | refused (e : ConfigRouteError)
  | panicked
  deriving DecidableEq

/-- `map_store_error`. -/
def mapStoreError : StoreFault → PutFault
  | .error (.conflict _ message) => .refused (.conflict message)
  | .error e => .refused (.store e)
  | .panicked => .panicked

/-- The store under its lock; a panic while the lock is held for writing poisons it. -/
structure LockedStore (ρ : Type) where
  store : LoadedConfigStore ρ
  poisoned : Bool := false

/-- `get_config`. -/
def getConfig (envRetention : Option ℕ) (live : LockedStore ρ) :
    Except ConfigRouteError ConfigResponse :=
  if live.poisoned then .error .poisoned else .ok (responseFromStore envRetention live.store none)

/-- The policy a request asks for; without `tuning` the settings of the file are kept. -/
def UpdateConfigRequest.policy (request : UpdateConfigRequest) (store : LoadedConfigStore ρ) :
    ConfigPolicyUpdate :=
  let tuning := request.tuning.getD store.tomlTuning
  { allowUncertainQuality := request.allowUncertainQuality
    retentionDays := request.retentionDays
    mrftDelaySecs := tuning.mrftDelaySecs
    pollIntervalMs := tuning.pollIntervalMs
    timeoutSecs := tuning.timeoutSecs
    opTimeoutSecs := tuning.opTimeoutSecs
    restoreTimeoutSecs := tuning.restoreTimeoutSecs }

/-- `put_config`, with the store it leaves behind. -/
def putConfig (format : ConfigFormat δ ρ) (unix : Bool) (envRetention : Option ℕ)
    (suffixes : Suffixes) (live : LockedStore ρ) (request : UpdateConfigRequest) :
    EStateM PutFault (Host ConfigPath UInt8) (LoadedConfigStore ρ × ConfigResponse) := do
  if request.retentionDays = some 0 then
    throw (.refused (.badRequest (text "retention_days must be at least 1 or null")))
  else if live.poisoned then throw (.refused .poisoned)
  else
    let update := request.policy live.store
    match validateTuningConfig (resolveTuningConfig update.tuning) false with
    | .error e => throw (.refused (.badRequest e))
    | .ok () =>
      let saved ← EStateM.adaptExcept mapStoreError
        (saveConfigStore format unix suffixes live.store request.revision update)
      return (saved.state, responseFromStore envRetention saved.state saved.backupPath)

/-! ### The server and its file -/

/-- The disk, the server where it runs, and what clients were shown: revisions, and the texts they
were of. -/
structure ConfigServer (ρ : Type) where
  disk : Disk ConfigPath UInt8
  live : Option (LockedStore ρ)
  shown : List (String × Option String)

/-- What happens. -/
inductive ConfigAction where
  | start (resolution : ConfigPathResolution) (faults : List (Option IoFault))
  | stop
  | edit (disk : Disk ConfigPath UInt8)
  | get
  | put (request : UpdateConfigRequest) (suffixes : Suffixes) (faults : List (Option IoFault))

/-- The name of the backup leads to no file of the configuration's own. -/
def Unlinked (d : Disk ConfigPath UInt8) (store : LoadedConfigStore ρ) (suffixes : Suffixes) :
    Prop :=
  ∀ path, store.path = some path → d.Off path (d.handle (backupPathFor path suffixes.backup))

section System

variable (format : ConfigFormat δ ρ) (unix : Bool) (envRetention : Option ℕ) (Loads : String → Prop)

/-- The steps of the system; `Loads` is asked of the texts the server starts on. -/
inductive ConfigStep : ConfigServer ρ → ConfigAction → ConfigServer ρ → Prop
  | start {s : ConfigServer ρ} {resolution : ConfigPathResolution} {faults : List (Option IoFault)}
      {store : LoadedConfigStore ρ} {h : Host ConfigPath UInt8}
      (hload : loadConfigStoreFromResolution format resolution (.start s.disk faults) = .ok store h)
      (hraw : ∀ raw, store.originalRaw = some raw → Loads raw) :
      ConfigStep s (.start resolution faults) { s with live := some { store } }
  | failedStart {s : ConfigServer ρ} {resolution : ConfigPathResolution}
      {faults : List (Option IoFault)} {e : ConfigStoreError} {h : Host ConfigPath UInt8}
      (hload : loadConfigStoreFromResolution format resolution (.start s.disk faults) = .error e h) :
      ConfigStep s (.start resolution faults) { s with live := none }
  | stop {s : ConfigServer ρ} : ConfigStep s .stop { s with live := none }
  | edit {s : ConfigServer ρ} {disk : Disk ConfigPath UInt8} :
      ConfigStep s (.edit disk) { s with disk }
  | get {s : ConfigServer ρ} {live : LockedStore ρ} {response : ConfigResponse}
      (hlive : s.live = some live) (hget : getConfig envRetention live = .ok response) :
      ConfigStep s .get { s with shown := (response.revision, live.store.originalRaw) :: s.shown }
  | put {s : ConfigServer ρ} {live : LockedStore ρ} {request : UpdateConfigRequest}
      {suffixes : Suffixes} {faults : List (Option IoFault)} {store : LoadedConfigStore ρ}
      {response : ConfigResponse} {h : Host ConfigPath UInt8} (hlive : s.live = some live)
      (hlink : Unlinked s.disk live.store suffixes)
      (hput : putConfig format unix envRetention suffixes live request (.start s.disk faults) =
        .ok (store, response) h) :
      ConfigStep s (.put request suffixes faults)
        ⟨h.disk, some { store }, (response.revision, store.originalRaw) :: s.shown⟩
  | refused {s : ConfigServer ρ} {live : LockedStore ρ} {request : UpdateConfigRequest}
      {suffixes : Suffixes} {faults : List (Option IoFault)} {e : ConfigRouteError}
      {h : Host ConfigPath UInt8} (hlive : s.live = some live)
      (hlink : Unlinked s.disk live.store suffixes)
      (hput : putConfig format unix envRetention suffixes live request (.start s.disk faults) =
        .error (.refused e) h) :
      ConfigStep s (.put request suffixes faults) { s with disk := h.disk }
  | panicked {s : ConfigServer ρ} {live : LockedStore ρ} {request : UpdateConfigRequest}
      {suffixes : Suffixes} {faults : List (Option IoFault)} {h : Host ConfigPath UInt8}
      (hlive : s.live = some live) (hlink : Unlinked s.disk live.store suffixes)
      (hput : putConfig format unix envRetention suffixes live request (.start s.disk faults) =
        .error .panicked h) :
      ConfigStep s (.put request suffixes faults)
        { s with disk := h.disk, live := some { live with poisoned := true } }

end System

/-! ### Revisions -/

/-- Two texts of one length and one hash. -/
def SameHash (raw raw' : Option String) : Prop :=
  ∃ a b, raw = some a ∧ raw' = some b ∧ a ≠ b ∧
    (utf8Bytes a).length = (utf8Bytes b).length ∧
    stableRevisionHash (utf8Bytes a) = stableRevisionHash (utf8Bytes b)

theorem hexDigits_injective {k : ℕ} : ∀ {m n : ℕ}, m < 16 ^ k → n < 16 ^ k →
    hexDigits k m = hexDigits k n → m = n := by
  induction k with
  | zero =>
    intro m n hm hn _
    rw [pow_zero] at hm hn
    omega
  | succ k ih =>
    intro m n hm hn h
    have happend : hexDigits k (m / 16) ++ [Nat.digitChar (m % 16)] =
        hexDigits k (n / 16) ++ [Nat.digitChar (n % 16)] := h
    obtain ⟨hfirst, hlast⟩ := List.append_inj' happend rfl
    have hdigit := IpAddress.digitChar_injective (m % 16) (by omega) (n % 16) (by omega)
      (List.singleton_injective hlast)
    rw [pow_succ] at hm hn
    have hdiv := ih (by omega) (by omega) hfirst
    omega

theorem colon_notMem_hexDigits {k : ℕ} : ∀ n, ':' ∉ hexDigits k n := by
  induction k with
  | zero => exact fun _ => List.not_mem_nil
  | succ k ih =>
    intro n h
    have hdigit : ∀ d < 16, ':' ≠ Nat.digitChar d := by decide
    rcases List.mem_append.mp h with h | h
    · exact ih (n / 16) h
    · exact hdigit (n % 16) (by omega) (List.mem_singleton.mp h)

/-- **Which texts share a revision**: a text and no text never do, and two texts only by their
hash. -/
theorem revision_collision {raw raw' : Option String}
    (h : revisionTokenForRaw raw = revisionTokenForRaw raw') : raw = raw' ∨ SameHash raw raw' := by
  have hfirst : ∀ a, revisionTokenForRaw (some a) ≠ revisionTokenForRaw none := by
    intro a heq
    have hlist := congrArg String.toList heq
    unfold revisionTokenForRaw at hlist
    have hpresent : "present:v1:".toList = 'p' :: "resent:v1:".toList := by decide
    have habsent : "absent:v1".toList = 'a' :: "bsent:v1".toList := by decide
    rw [String.toList_ofList, hpresent, habsent, List.cons_append, List.cons.injEq] at hlist
    exact absurd hlist.1 (by decide)
  cases raw with
  | none =>
    cases raw' with
    | none => exact .inl rfl
    | some b => exact absurd h.symm (hfirst b)
  | some a =>
    cases raw' with
    | none => exact absurd h (hfirst a)
    | some b =>
      unfold revisionTokenForRaw at h
      have hlist := String.ofList_injective h
      have htail : Nat.toDigits 10 (utf8Bytes a).length ++
            ':' :: hex16 (stableRevisionHash (utf8Bytes a)).toNat =
          Nat.toDigits 10 (utf8Bytes b).length ++
            ':' :: hex16 (stableRevisionHash (utf8Bytes b)).toNat :=
        List.append_cancel_left hlist
      have hcolon : ∀ n, ':' ∉ Nat.toDigits 10 n := by
        intro n hmem
        have hdigit := Nat.isDigit_of_mem_toDigits (by decide) (by decide) hmem
        exact absurd hdigit (by decide)
      obtain ⟨hlength, -, hhash⟩ :=
        (List.append_cons_inj_of_notMem (hcolon _) (colon_notMem_hexDigits _)).mp htail
      have hlen : (utf8Bytes a).length = (utf8Bytes b).length := by
        rw [← Nat.ofDigitChars_ten_toDigits (n := (utf8Bytes a).length), hlength,
          Nat.ofDigitChars_ten_toDigits]
      have hbound : ∀ u : UInt64, u.toNat < 16 ^ 16 := fun u =>
        Nat.lt_of_lt_of_le u.toNat_lt (by decide)
      unfold hex16 at hhash
      have hsame : stableRevisionHash (utf8Bytes a) = stableRevisionHash (utf8Bytes b) :=
        UInt64.toNat_inj.mp (hexDigits_injective (hbound _) (hbound _) hhash)
      by_cases hab : a = b
      · exact .inl (congrArg some hab)
      · exact .inr ⟨a, b, rfl, rfl, hab, hlen, hsame⟩

/-! ### One request -/

section Request

variable {format : ConfigFormat δ ρ} {unix : Bool} {envRetention : Option ℕ} {suffixes : Suffixes}
variable {live : LockedStore ρ} {request : UpdateConfigRequest} {path : ConfigPath}
variable {d₀ : Disk ConfigPath UInt8}

variable (format unix envRetention request) in
/-- What a change of the configuration leads to, and what it leaves behind where it fails. -/
theorem putConfig_goes (hpath : live.store.path = some path)
    (hlink : Unlinked d₀ live.store suffixes) :
    Goes (CutOff (SavedBytes format live.store (request.policy live.store)) d₀ path) d₀
      (putConfig format unix envRetention suffixes live request)
      (fun r d => ∃ result, Saved format suffixes live.store request.revision
        (request.policy live.store) path d₀ d result ∧
        r = (result.state, responseFromStore envRetention result.state result.backupPath))
      (fun _ d => Intact path d₀ d) := by
  have hkept : Intact path d₀ d₀ := .of_same (.refl path d₀)
  unfold putConfig
  split
  · exact goes_throw hkept
  split
  · exact goes_throw hkept
  dsimp only
  split
  · exact goes_throw hkept
  · refine goes_seq (goes_adaptExcept (saveConfigStore_goes hpath (hlink path hpath))) ?_
    intro result d hsaved
    exact goes_pure ⟨result, hsaved, rfl⟩

variable (format unix envRetention suffixes request d₀) in
/-- Without a path nothing is saved. -/
theorem putConfig_pathless (hpath : live.store.path = none) :
    Goes (fun _ => True) d₀ (putConfig format unix envRetention suffixes live request)
      (fun _ _ => False) (fun _ d => d = d₀) := by
  unfold putConfig
  split
  · exact goes_throw rfl
  split
  · exact goes_throw rfl
  dsimp only
  split
  · exact goes_throw rfl
  · refine goes_seq (M := fun _ _ => False) (goes_adaptExcept ?_) fun _ _ h => h.elim
    unfold saveConfigStore
    split
    · exact goes_throw rfl
    · rw [hpath]
      exact goes_throw rfl

variable (format) in
/-- A load leaves the disk alone, and gives the store of a text or of no text. -/
theorem load_goes (resolution : ConfigPathResolution) :
    Goes (fun _ => True) d₀ (loadConfigStoreFromResolution format resolution)
      (fun store d => d = d₀ ∧
        ((∃ path, store = emptyStore format path) ∨ ∃ path raw config,
          format.parseConfigContents raw = .ok config ∧
            store = storeOf format path resolution.missingIsAllowed raw config))
      (fun _ d => d = d₀) := by
  unfold loadConfigStoreFromResolution
  cases hpath : resolution.path with
  | none => exact goes_pure ⟨rfl, .inl ⟨none, rfl⟩⟩
  | some path =>
    refine goes_seq (M := fun _ d => d = d₀) (goes_readFile (fun _ => rfl) (fun _ => rfl)
      fun _ _ => rfl) ?_
    intro r d hd
    rw [hd]
    rcases r with e | bytes
    · cases e with
      | notFound =>
        dsimp only
        split
        · exact goes_pure ⟨rfl, .inl ⟨some path, rfl⟩⟩
        · exact goes_throw rfl
      | alreadyExists => exact goes_throw rfl
      | other reason => exact goes_throw rfl
    · dsimp only
      cases hutf : fromUtf8 bytes with
      | none => exact goes_throw rfl
      | some raw =>
        dsimp only
        cases hparse : format.parseConfigContents raw with
        | error e => exact goes_throw rfl
        | ok config => exact goes_pure ⟨rfl, .inr ⟨path, raw, config, hparse, rfl⟩⟩

/-- The same for a load that returned. -/
theorem load_ok {resolution : ConfigPathResolution} {faults : List (Option IoFault)}
    {store : LoadedConfigStore ρ} {h : Host ConfigPath UInt8}
    (hload : loadConfigStoreFromResolution format resolution (.start d₀ faults) = .ok store h) :
    h.disk = d₀ ∧ ((∃ path, store = emptyStore format path) ∨ ∃ path raw config,
      format.parseConfigContents raw = .ok config ∧
        store = storeOf format path resolution.missingIsAllowed raw config) := by
  have hgoes := load_goes format resolution (.start d₀ faults) rfl
  exact (wp_ok hgoes hload).2

/-- A change that was saved. -/
theorem putConfig_ok {faults : List (Option IoFault)} {store : LoadedConfigStore ρ}
    {response : ConfigResponse} {h : Host ConfigPath UInt8}
    (hlink : Unlinked d₀ live.store suffixes)
    (hput : putConfig format unix envRetention suffixes live request (.start d₀ faults) =
      .ok (store, response) h) :
    ∃ path result, live.store.path = some path ∧
      Saved format suffixes live.store request.revision (request.policy live.store) path d₀ h.disk
        result ∧
      store = result.state ∧
      response = responseFromStore envRetention result.state result.backupPath := by
  cases hpath : live.store.path with
  | none =>
    have hgoes := putConfig_pathless format unix envRetention suffixes request d₀ hpath
      (.start d₀ faults) rfl
    exact (wp_ok hgoes hput).2.elim
  | some path =>
    have hgoes := putConfig_goes format unix envRetention request hpath hlink
      (.start d₀ faults) rfl
    obtain ⟨-, result, hsaved, heq⟩ := wp_ok hgoes hput
    cases heq
    exact ⟨path, result, rfl, hsaved, rfl, rfl⟩

/-- A change that was not saved. -/
theorem putConfig_error {faults : List (Option IoFault)} {e : PutFault}
    {h : Host ConfigPath UInt8} (hlink : Unlinked d₀ live.store suffixes)
    (hput : putConfig format unix envRetention suffixes live request (.start d₀ faults) =
      .error e h) (hpath : live.store.path = some path) : Intact path d₀ h.disk := by
  have hgoes := putConfig_goes format unix envRetention request hpath hlink
    (.start d₀ faults) rfl
  exact (wp_error hgoes hput).2

variable (unix envRetention live request path) in
/-- **A change that nothing disturbs is saved**: it is valid, its revision is the current one, the
file is as it was loaded, and no operation fails. -/
theorem put_undisturbed {raw : String} {config : ConfigFile ρ} (hsound : live.poisoned = false)
    (hretention : request.retentionDays ≠ some 0)
    (hvalid : validateTuningConfig (resolveTuningConfig (request.policy live.store).tuning) false =
      .ok ())
    (hrevision : request.revision = live.store.revision) (hpath : live.store.path = some path)
    (hbase : d₀.read path = live.store.originalRaw.map utf8Bytes)
    (hmissing : live.store.originalRaw = none → live.store.missingIsAllowed = true)
    (hpatched : patchConfigPolicy format live.store.originalRaw (request.policy live.store) =
      .ok (raw, config))
    (hlink : Unlinked d₀ live.store suffixes)
    (hvacant : d₀.now (tempPathFor path suffixes 0) = none) :
    Runs d₀ (putConfig format unix envRetention suffixes live request) (fun r d =>
      r.1 = savedStore live.store path (request.policy live.store) (raw, config) ∧
      r.2 = responseFromStore envRetention r.1
        ((d₀.read path).map fun _ => backupPathFor path suffixes.backup) ∧
      (unix = true → path.directory ≠ "" → d.Durable path)) := by
  unfold putConfig
  rw [if_neg hretention, if_neg (by rw [hsound]; decide)]
  dsimp only
  rw [hvalid]
  have hsave := save_undisturbed unix hpath hbase hmissing hpatched (hlink path hpath)
    hvacant
  rw [hrevision]
  refine runs_seq (runs_adaptExcept hsave) ?_
  rintro result d ⟨hstate, hbackup, hdurable⟩
  exact runs_pure ⟨hstate, by rw [hbackup], hdurable⟩

end Request

/-! ### No change is lost -/

section Runs

variable {format : ConfigFormat δ ρ} {unix : Bool} {envRetention : Option ℕ}
variable {Loads : String → Prop} {s₀ s s' : ConfigServer ρ} {actions : List ConfigAction}
variable {request : UpdateConfigRequest} {suffixes : Suffixes} {faults : List (Option IoFault)}

/-- Revisions are those of the texts they are kept with. -/
structure Dated (s : ConfigServer ρ) : Prop where
  live : ∀ live, s.live = some live →
    live.store.revision = revisionTokenForRaw live.store.originalRaw
  shown : ∀ entry ∈ s.shown, entry.1 = revisionTokenForRaw entry.2

theorem Dated.step {a : ConfigAction} (h : Dated s)
    (hstep : ConfigStep format unix envRetention Loads s a s') : Dated s' := by
  cases hstep with
  | start hload hraw =>
    refine ⟨?_, h.shown⟩
    rintro _ ⟨⟩
    obtain ⟨-, hloaded⟩ := load_ok hload
    rcases hloaded with ⟨path, hstore⟩ | ⟨path, raw, config, -, hstore⟩
    · rw [hstore]
      rfl
    · rw [hstore]
      rfl
  | failedStart hload =>
    refine ⟨?_, h.shown⟩
    rintro _ ⟨⟩
  | stop =>
    refine ⟨?_, h.shown⟩
    rintro _ ⟨⟩
  | edit => exact ⟨h.live, h.shown⟩
  | @get live response hlive hget =>
    have hrevision : response.revision = live.store.revision := by
      unfold getConfig at hget
      split at hget
      · cases hget
      · cases hget
        rfl
    have hshown : ∀ entry ∈ (response.revision, live.store.originalRaw) :: s.shown,
        entry.1 = revisionTokenForRaw entry.2 :=
      List.forall_mem_cons.mpr ⟨hrevision.trans (h.live live hlive), h.shown⟩
    exact ⟨h.live, hshown⟩
  | @put live request suffixes faults store response host hlive hlink hput =>
    obtain ⟨path, result, -, hsaved, hstore, hresponse⟩ := putConfig_ok hlink hput
    obtain ⟨raw, config, -, hstate, -⟩ := hsaved.patched
    have hrevision : store.revision = revisionTokenForRaw store.originalRaw := by
      rw [hstore, hstate]
      rfl
    have hshown : ∀ entry ∈ (response.revision, store.originalRaw) :: s.shown,
        entry.1 = revisionTokenForRaw entry.2 := by
      refine List.forall_mem_cons.mpr ⟨?_, h.shown⟩
      rw [← hrevision, hresponse, hstore]
      rfl
    refine ⟨?_, hshown⟩
    rintro _ ⟨⟩
    exact hrevision
  | refused hlive hlink hput => exact ⟨h.live, h.shown⟩
  | @panicked live request suffixes faults host hlive hlink hput =>
    refine ⟨?_, h.shown⟩
    rintro _ ⟨⟩
    exact h.live live hlive

/-- What a request to change the configuration did. -/
structure Changed (format : ConfigFormat δ ρ) (s s' : ConfigServer ρ) (suffixes : Suffixes)
    (request : UpdateConfigRequest) (path : ConfigPath) (base : Option String) (text : String) :
    Prop where
  sent : request.revision = revisionTokenForRaw base
  patched : ∃ live config, s.live = some live ∧
    patchConfigPolicy format base (request.policy live.store) = .ok (text, config)
  before : s.disk.read path = base.map utf8Bytes
  after : s'.disk.read path = some (utf8Bytes text)
  others : ∀ q, q ≠ path → q ≠ backupPathFor path suffixes.backup →
    s.disk.Off q (s.disk.handle (backupPathFor path suffixes.backup)) →
    s'.disk.read q = s.disk.read q
  answered : s'.shown = (revisionTokenForRaw (some text), some text) :: s.shown
  meant : ∀ raw, (request.revision, raw) ∈ s.shown → raw = base ∨ SameHash raw base

/-- **No change is lost.**  Whatever happened before, a request to change the configuration either
leaves the file as it is and answers without a new revision, or it sends the revision of the text
that is there, replaces that text by the patch of it that was asked for, and no client was shown
another text with that revision, up to texts of one length and one hash. -/
theorem no_lost_update (hrun : Run (ConfigStep format unix envRetention Loads) s₀ actions s)
    (hlive₀ : s₀.live = none) (hshown₀ : s₀.shown = [])
    (hstep : ConfigStep format unix envRetention Loads s (.put request suffixes faults) s') :
    (s'.shown = s.shown ∧ ∀ live path, s.live = some live → live.store.path = some path →
      Intact path s.disk s'.disk) ∨
    ∃ path base text, Changed format s s' suffixes request path base text := by
  have hdated₀ : Dated s₀ := by
    refine ⟨?_, ?_⟩
    · intro live hlive
      rw [hlive₀] at hlive
      cases hlive
    · intro entry hentry
      rw [hshown₀] at hentry
      cases hentry
  have hdated : Dated s := hrun.invariant hdated₀ fun _ _ _ h hstep => h.step hstep
  cases hstep with
  | @put live _ _ _ store response host hlive hlink hput =>
    right
    obtain ⟨path, result, hpath, hsaved, hstore, hresponse⟩ := putConfig_ok hlink hput
    obtain ⟨raw, config, hpatched, hstate, hread⟩ := hsaved.patched
    have hsent : request.revision = revisionTokenForRaw live.store.originalRaw :=
      hsaved.revision.symm.trans (hdated.live live hlive)
    refine ⟨path, live.store.originalRaw, raw, hsent, ⟨live, config, hlive, hpatched⟩,
      hsaved.base, hread, hsaved.others, ?_, ?_⟩
    · show (response.revision, store.originalRaw) :: s.shown = _
      rw [hresponse, hstore, hstate]
      rfl
    · intro shown hshown
      apply revision_collision
      have hentry := hdated.shown _ hshown
      exact hentry.symm.trans hsent
  | @refused live _ _ _ e host hlive hlink hput =>
    left
    refine ⟨rfl, ?_⟩
    intro live' path hlive' hpath
    cases hlive.symm.trans hlive'
    exact putConfig_error hlink hput hpath
  | @panicked live _ _ _ host hlive hlink hput =>
    left
    refine ⟨rfl, ?_⟩
    intro live' path hlive' hpath
    cases hlive.symm.trans hlive'
    exact putConfig_error hlink hput hpath

/-- A client switches the quality policy before there is a file. -/
def etcRequest : UpdateConfigRequest := ⟨revisionTokenForRaw none, false, none, none⟩

/-- A first change, by a client that was shown the defaults. -/
theorem exists_first_change (Loads : String → Prop) : ∃ s s' : ConfigServer Unit,
    Run (ConfigStep tinyToml true none Loads) ⟨Disk.empty, none, []⟩
      [.start ⟨some etcPath, true⟩ [], .get] s ∧
    ConfigStep tinyToml true none Loads s (.put etcRequest etcSuffixes []) s' ∧
    s'.shown ≠ s.shown := by
  have hpatched : patchConfigPolicy tinyToml none
      (etcRequest.policy (emptyStore tinyToml (some etcPath))) =
        .ok ("allow_uncertain_quality = false\n", ⟨false, none, {}, ()⟩) := rfl
  have hlink : Unlinked Disk.empty (emptyStore tinyToml (some etcPath)) etcSuffixes :=
    fun _ _ => off_handle rfl
  obtain ⟨⟨store, response⟩, h, hput, -, hstore, -⟩ := put_undisturbed true none
    { store := emptyStore tinyToml (some etcPath) } etcRequest etcPath rfl (by decide) rfl rfl rfl
    rfl (fun _ => rfl)
    hpatched hlink rfl [Disk.empty]
  have hload : loadConfigStoreFromResolution tinyToml ⟨some etcPath, true⟩
      (.start Disk.empty []) = .ok (emptyStore tinyToml (some etcPath))
        ⟨Disk.empty, [Disk.empty], []⟩ := rfl
  refine ⟨_, _, .cons (.start hload ?_) (.cons (.get rfl rfl) (.nil _)),
    .put rfl hlink hput, List.cons_ne_self _ _⟩
  intro raw hraw
  cases hraw

/-- No change is lost where the first one is made. -/
theorem no_lost_update_first : ∃ s s' : ConfigServer Unit, s'.shown ≠ s.shown ∧
    ((s'.shown = s.shown ∧ ∀ live path, s.live = some live → live.store.path = some path →
      Intact path s.disk s'.disk) ∨
    ∃ path base text, Changed tinyToml s s' etcSuffixes etcRequest path base text) := by
  obtain ⟨s, s', hrun, hstep, hshown⟩ := exists_first_change fun _ => True
  exact ⟨s, s', hshown, no_lost_update hrun rfl rfl hstep⟩

/-! ### What is held is what is there -/

theorem fromUtf8_utf8Bytes (raw : String) : fromUtf8 (utf8Bytes raw) = some raw := by
  unfold fromUtf8 utf8Bytes
  rw [Array.toArray_toList]
  unfold String.fromUTF8?
  rw [dif_pos raw.isValidUTF8]
  rfl

/-- The store is the one that loading its text, or no text, gives. -/
def LoadedFrom (format : ConfigFormat δ ρ) (store : LoadedConfigStore ρ) : Prop :=
  (∃ path, store = emptyStore format path) ∨ ∃ path missingIsAllowed raw config,
    format.parseConfigContents raw = .ok config ∧ TuningIsTable format raw ∧
      store = storeOf format path missingIsAllowed raw config

/-- The text of such a store parses as its configuration. -/
theorem LoadedFrom.base {store : LoadedConfigStore ρ} (hformat : format.Lawful)
    (h : LoadedFrom format store) :
    format.parseConfigContents (store.originalRaw.getD "") = .ok store.config ∧
      TuningIsTable format (store.originalRaw.getD "") ∧ store.tomlTuning = store.config.tuning := by
  rcases h with ⟨path, rfl⟩ | ⟨path, missing, raw, config, hparse, htable, rfl⟩
  · exact ⟨hformat.default, hformat.tuningIsTable_empty, rfl⟩
  · exact ⟨hparse, htable, rfl⟩

/-- Every running server holds a loaded store, under a sound lock. -/
def Sound (format : ConfigFormat δ ρ) (s : ConfigServer ρ) : Prop :=
  ∀ live, s.live = some live → live.poisoned = false ∧ LoadedFrom format live.store

theorem LoadedFrom.saved {state : LoadedConfigStore ρ} (path : ConfigPath)
    {update : ConfigPolicyUpdate} {raw : String} {config : ConfigFile ρ}
    (hformat : format.Lawful) (h : LoadedFrom format state)
    (hpatched : patchConfigPolicy format state.originalRaw update = .ok (raw, config)) :
    PatchSpec format update (state.originalRaw.getD "") state.config raw config ∧
      savedStore state path update (raw, config) =
        storeOf format path state.missingIsAllowed raw config := by
  obtain ⟨hbase, htable, -⟩ := h.base hformat
  have hspec := patchConfigPolicy_spec hformat htable hbase hpatched
  exact ⟨hspec, savedStore_eq_storeOf hspec⟩

/-- A failure that is named differently is one of the new names. -/
theorem wp_adaptExcept {ε ε' σ α : Type} {f : ε → ε'} {x : EStateM ε σ α} {E : ε' → Prop}
    {s : σ} (h : wp x (fun _ _ => True) (fun e _ => E (f e)) s) :
    wp (EStateM.adaptExcept f x) (fun _ _ => True) (fun e _ => E e) s := by
  unfold wp EStateM.adaptExcept at *
  cases hrun : x s with
  | ok a s' => trivial
  | error e s' =>
    rw [hrun] at h
    exact h

theorem wp_any {ε σ α : Type} {x : EStateM ε σ α} {E : ε → Prop} {s : σ} (h : ∀ e, E e) :
    wp x (fun _ _ => True) (fun e _ => E e) s :=
  wp_mono (wp_run x s) (fun _ _ _ => trivial) fun e _ _ => h e

variable (unix envRetention suffixes request) in
/-- Nothing is patched that could panic. -/
theorem putConfig_ne_panicked {live : LockedStore ρ} (h : Host ConfigPath UInt8)
    (hformat : format.Lawful) (hloaded : LoadedFrom format live.store) :
    wp (putConfig format unix envRetention suffixes live request)
      (fun _ _ => True) (fun e _ => e ≠ .panicked) h := by
  have hmapped : ∀ e : ConfigStoreError, mapStoreError (.error e) ≠ .panicked := by
    intro e he
    cases e <;> cases he
  have hpatch := patchConfigPolicy_ne_panicked (request.policy live.store) hformat
    (hloaded.base hformat).2.1
  unfold putConfig
  split
  · exact fun he => by cases he
  split
  · exact fun he => by cases he
  dsimp only
  split
  · exact fun he => by cases he
  refine wp_seq (M := fun _ _ => True)
    (wp_adaptExcept (E := fun e : PutFault => e ≠ .panicked) ?_) fun _ _ _ => trivial
  unfold saveConfigStore
  split
  · exact hmapped _
  cases live.store.path with
  | none => exact hmapped _
  | some path =>
    refine wp_seq (M := fun _ _ => True)
      (wp_adaptExcept (E := fun e : StoreFault => mapStoreError e ≠ .panicked) (wp_any hmapped)) ?_
    intro current h' _
    split
    · exact hmapped _
    split
    · exact hmapped _
    split
    · exact hmapped _
    · rename_i hpanicked
      exact absurd hpanicked hpatch
    · exact wp_seq (M := fun _ _ => True)
        (wp_adaptExcept (E := fun e : StoreFault => mapStoreError e ≠ .panicked) (wp_any hmapped))
        fun _ _ _ => trivial

theorem Sound.step {a : ConfigAction} (hformat : format.Lawful) (h : Sound format s)
    (hstep : ConfigStep format unix envRetention (TuningIsTable format) s a s') :
    Sound format s' := by
  cases hstep with
  | start hload hraw =>
    rintro _ ⟨⟩
    refine ⟨rfl, ?_⟩
    obtain ⟨-, ⟨path, hstore⟩ | ⟨path, raw, config, hparse, hstore⟩⟩ := load_ok hload
    · exact .inl ⟨path, hstore⟩
    · exact .inr ⟨path, _, raw, config, hparse, hraw raw (by rw [hstore]; rfl), hstore⟩
  | failedStart hload => rintro _ ⟨⟩
  | stop => rintro _ ⟨⟩
  | edit => exact h
  | get hlive hget => exact h
  | @put live request suffixes faults store response host hlive hlink hput =>
    rintro _ ⟨⟩
    refine ⟨rfl, ?_⟩
    obtain ⟨path, result, -, hsaved, hstore, -⟩ := putConfig_ok hlink hput
    obtain ⟨raw, config, hpatched, hstate, -⟩ := hsaved.patched
    obtain ⟨hspec, heq⟩ := (h live hlive).2.saved path hformat hpatched
    exact .inr ⟨path, _, raw, config, hspec.reads, hspec.tuningIsTable,
      hstore.trans (hstate.trans heq)⟩
  | refused hlive hlink hput => exact h
  | @panicked live request suffixes faults host hlive hlink hput =>
    have hne := putConfig_ne_panicked unix envRetention request suffixes
      (.start s.disk faults) hformat (h live hlive).2
    exact absurd rfl (wp_error (E := fun (e : PutFault) _ => e ≠ .panicked) hne hput)

/-- Any running server is sound. -/
theorem Sound.run (hformat : format.Lawful)
    (hrun : Run (ConfigStep format unix envRetention (TuningIsTable format)) s₀ actions s)
    (hlive₀ : s₀.live = none) : Sound format s := by
  have hsound₀ : Sound format s₀ := by
    intro live hlive
    rw [hlive₀] at hlive
    cases hlive
  exact hrun.invariant hsound₀ fun _ _ _ h hstep => h.step hformat hstep

/-- What a change that was saved leaves: the text on the disk loads as the store the server holds,
with the settings that were asked for, the settings the page does not own as they were, and every
other key of the document and of its `[tuning]` table untouched. -/
structure Reloads (format : ConfigFormat δ ρ) (s s' : ConfigServer ρ)
    (request : UpdateConfigRequest) (live : LockedStore ρ) (path : ConfigPath)
    (store : LoadedConfigStore ρ) : Prop where
  before : s.live = some live
  after : s'.live = some { store }
  file : store.path = some path
  reload : Runs s'.disk (loadConfigStoreFromResolution format ⟨some path, store.missingIsAllowed⟩)
    (fun loaded _ => loaded = store)
  settings : store.config = ⟨request.allowUncertainQuality, request.retentionDays,
    request.tuning.getD live.store.config.tuning, live.store.config.rest⟩
  untouched : ∃ document document', format.parse (live.store.originalRaw.getD "") = .ok document ∧
    format.parse (store.originalRaw.getD "") = .ok document' ∧
    (∀ key, key ∉ managedKeys → format.item document' key = format.item document key) ∧
    ∀ key, key ∉ tuningKeys → tuningEntry format document' key = tuningEntry format document key

/-- **What the server holds is what a restart would load.**  `[tuning]` is a table in every text
the server starts on.  Then no request panics, whatever it asks for and whatever fails on the way,
so the lock is never poisoned; and after a change that was saved the file loads as the store the
server holds. -/
theorem saved_reloads (hformat : format.Lawful)
    (hrun : Run (ConfigStep format unix envRetention (TuningIsTable format)) s₀ actions s)
    (hlive₀ : s₀.live = none) :
    (∀ live, s.live = some live → live.poisoned = false ∧ LoadedFrom format live.store ∧
      ∀ request suffixes faults h,
        putConfig format unix envRetention suffixes live request (.start s.disk faults) ≠
          .error .panicked h) ∧
    ∀ request suffixes faults s',
      ConfigStep format unix envRetention (TuningIsTable format) s
        (.put request suffixes faults) s' → s'.shown ≠ s.shown →
      ∃ live path store, Reloads format s s' request live path store := by
  have hsound : Sound format s := .run hformat hrun hlive₀
  refine ⟨?_, ?_⟩
  · intro live hlive
    obtain ⟨hpoisoned, hloaded⟩ := hsound live hlive
    refine ⟨hpoisoned, hloaded, ?_⟩
    intro request suffixes faults h hput
    have hne := putConfig_ne_panicked unix envRetention request suffixes (.start s.disk faults)
      hformat hloaded
    exact absurd rfl (wp_error (E := fun (e : PutFault) _ => e ≠ .panicked) hne hput)
  intro request suffixes faults s' hstep hanswered
  cases hstep with
  | refused hlive hlink hput => exact absurd rfl hanswered
  | panicked hlive hlink hput => exact absurd rfl hanswered
  | @put live _ _ _ store response host hlive hlink hput =>
    obtain ⟨path, result, -, hsaved, hstore, -⟩ := putConfig_ok hlink hput
    obtain ⟨raw, config, hpatched, hstate, hread⟩ := hsaved.patched
    obtain ⟨-, hloaded⟩ := hsound live hlive
    obtain ⟨hspec, heq⟩ := hloaded.saved path hformat hpatched
    obtain ⟨document, document', hparse, hparse', hdocument⟩ := hspec.document
    rw [hstore, hstate, heq]
    refine ⟨live, path, _, hlive, rfl, rfl, ?_, ?_, document, document', hparse, hparse',
      hdocument.other, hdocument.entry⟩
    · refine runs_seq runs_readFile ?_
      rintro _ d ⟨hd, rfl⟩
      rw [hd]
      show Runs host.disk _ _
      rw [hread]
      dsimp only [Option.elim]
      rw [fromUtf8_utf8Bytes]
      dsimp only
      rw [hspec.reads]
      exact runs_pure rfl
    · show config = _
      rw [hspec.settings, ← (hloaded.base hformat).2.2]
      rfl

end Runs

/-- The same where the first change is made. -/
theorem saved_reloads_first : ∃ s s' : ConfigServer Unit,
    (∃ live, s.live = some live ∧ ∀ request suffixes faults h,
      putConfig tinyToml true none suffixes live request (.start s.disk faults) ≠
        .error .panicked h) ∧
    ∃ live path store, Reloads tinyToml s s' etcRequest live path store := by
  obtain ⟨s, s', hrun, hstep, hshown⟩ := exists_first_change (TuningIsTable tinyToml)
  obtain ⟨hsafe, hreloads⟩ := saved_reloads tinyToml_lawful hrun rfl
  obtain ⟨live, path, store, hsaved⟩ := hreloads _ _ _ _ hstep hshown
  exact ⟨s, s', ⟨live, hsaved.before, (hsafe live hsaved.before).2.2⟩, live, path, store, hsaved⟩

/-! ### Changes that are cut off -/

section Outages

variable {format : ConfigFormat δ ρ} {unix missingIsAllowed : Bool} {envRetention : Option ℕ}
variable {path : ConfigPath}

/-- The host a program ends on. -/
def endOf {ε α : Type} : EStateM.Result ε (Host ConfigPath UInt8) α → Host ConfigPath UInt8
  | .ok _ h => h
  | .error _ h => h

theorem wp_endOf {ε α : Type} {x : EStateM ε (Host ConfigPath UInt8) α}
    {Q : Host ConfigPath UInt8 → Prop} {h : Host ConfigPath UInt8}
    (hwp : wp x (fun _ h' => Q h') (fun _ h' => Q h') h) : Q (endOf (x h)) := by
  cases hrun : x h with
  | ok a h' => exact wp_ok hwp hrun
  | error e h' => exact wp_error hwp hrun

variable (format unix envRetention path) in
/-- What happens to the disk: the process ends or dies at some point of a change that a server, in
whatever state it is, makes to the file, or the power goes. -/
inductive OutageStep : Disk ConfigPath UInt8 → Disk ConfigPath UInt8 → Prop
  | change {d d' : Disk ConfigPath UInt8} {live : LockedStore ρ} {request : UpdateConfigRequest}
      {suffixes : Suffixes} {faults : List (Option IoFault)} (hpath : live.store.path = some path)
      (hlink : Unlinked d live.store suffixes)
      (hat : d' ∈ (endOf (putConfig format unix envRetention suffixes live request
        (.start d faults))).passed) : OutageStep d d'
  | powerLoss {d d' : Disk ConfigPath UInt8} (hleft : ∀ q, d.AfterLoss q (d'.read q))
      (hdurable : ∀ q, d'.Durable q) : OutageStep d d'

/-- Whatever a loss of power may leave of the file, the server can start on it. -/
def Startable (format : ConfigFormat δ ρ) (missingIsAllowed : Bool) (path : ConfigPath)
    (d : Disk ConfigPath UInt8) : Prop :=
  ∀ c, d.AfterLoss path c → (c = none ∧ missingIsAllowed = true) ∨
    ∃ raw config, c = some (utf8Bytes raw) ∧ format.parseConfigContents raw = .ok config

variable {d₀ d d' : Disk ConfigPath UInt8}

theorem Startable.step (h : Startable format missingIsAllowed path d)
    (hstep : OutageStep format unix envRetention path d d') :
    Startable format missingIsAllowed path d' := by
  cases hstep with
  | @change live request suffixes faults hpath hlink hat =>
    have hgoes := putConfig_goes format unix envRetention request hpath hlink
      (.start d faults) rfl
    obtain ⟨new, hpassed, hnew⟩ := wp_endOf (wp_mono hgoes (fun _ _ h => h.1) fun _ _ h => h.1)
    rw [hpassed] at hat
    rcases List.mem_append.mp hat with hat | hat
    · intro c hc
      rcases (hnew d' hat).powerless c hc with hold | ⟨bytes, ⟨raw, config, hpatched, rfl⟩, rfl⟩
      · exact h c hold
      · obtain ⟨-, -, -, -, -, hreads⟩ := patchConfigPolicy_ok hpatched
        exact .inr ⟨raw, config, rfl, hreads⟩
    · cases List.mem_singleton.mp hat
      exact h
  | powerLoss hleft hdurable =>
    intro c hc
    rw [hdurable path c hc]
    exact h _ (hleft path)

/-- **Wherever changes are cut off, the server can start again.**  Whatever a loss of power may
leave of the file at first, the server can start on it.  That is still so after any number of
changes, carried through or cut off at any point, and losses of power: the file loads. -/
theorem config_survives (h : Startable format missingIsAllowed path d₀)
    (hrun : Relation.ReflTransGen (OutageStep format unix envRetention path) d₀ d) :
    Startable format missingIsAllowed path d ∧
      Runs d (loadConfigStoreFromResolution format ⟨some path, missingIsAllowed⟩)
        (fun store d' => d' = d ∧ store.path = some path ∧
          store.originalRaw.map utf8Bytes = d.read path) := by
  have hstart : Startable format missingIsAllowed path d := by
    induction hrun with
    | refl => exact h
    | tail _ hstep ih => exact ih.step hstep
  refine ⟨hstart, ?_⟩
  refine runs_seq runs_readFile ?_
  rintro _ d' ⟨rfl, rfl⟩
  rcases hstart _ (d'.afterLoss_read path) with ⟨hnone, hallowed⟩ | ⟨raw, config, hraw, hreads⟩
  · rw [hnone]
    dsimp only [Option.elim]
    rw [if_pos hallowed]
    exact runs_pure ⟨rfl, rfl, rfl⟩
  · rw [hraw]
    dsimp only [Option.elim]
    rw [fromUtf8_utf8Bytes]
    dsimp only
    rw [hreads]
    exact runs_pure ⟨rfl, rfl, rfl⟩

end Outages

/-- The first change, on an empty disk. -/
def etcChange : EStateM.Result PutFault (Host ConfigPath UInt8)
    (LoadedConfigStore Unit × ConfigResponse) :=
  putConfig tinyToml true none etcSuffixes { store := emptyStore tinyToml (some etcPath) }
    etcRequest (.start Disk.empty [])

theorem startable_empty (path : ConfigPath) : Startable tinyToml true path Disk.empty := by
  rintro c ⟨e, he, hc⟩
  cases List.mem_singleton.mp he
  exact .inl ⟨hc, rfl⟩

/-- The disk right after the rename of the first change, whose directory is not synced yet. -/
def etcCut : Disk ConfigPath UInt8 := (endOf etcChange).passed.getD 1 Disk.empty

set_option maxRecDepth 5000 in
/-- A loss of power may take the rename back. -/
theorem etcCut_lost (q : ConfigPath) : none ∈ etcCut.now q :: etcCut.before q := by
  have hnow : etcCut.now = Function.update (Function.update (Function.update (fun _ => none)
      (tempPathFor etcPath etcSuffixes 0) (some 0)) (tempPathFor etcPath etcSuffixes 0) none)
      etcPath (some 0) := rfl
  have hbefore : none ∈ etcCut.before etcPath := List.mem_cons_self
  by_cases hq : q = etcPath
  · rw [hq]
    exact List.mem_cons_of_mem _ hbefore
  · rw [hnow, Function.update_of_ne hq]
    by_cases htemp : q = tempPathFor etcPath etcSuffixes 0
    · rw [htemp, Function.update_self]
      exact List.mem_cons_self
    · rw [Function.update_of_ne htemp, Function.update_of_ne htemp]
      exact List.mem_cons_self

set_option maxRecDepth 5000 in
/-- The first change is cut off after its rename, the power goes and takes it back, and the change
is made once more: the server can start on what that leaves. -/
theorem config_survives_first :
    etcCut.read etcPath ≠ none ∧ Startable tinyToml true etcPath (endOf etcChange).disk ∧
      Runs (endOf etcChange).disk (loadConfigStoreFromResolution tinyToml ⟨some etcPath, true⟩)
        (fun store d' => d' = (endOf etcChange).disk ∧ store.path = some etcPath ∧
          store.originalRaw.map utf8Bytes = (endOf etcChange).disk.read etcPath) := by
  have hlink : Unlinked Disk.empty (emptyStore tinyToml (some etcPath)) etcSuffixes :=
    fun _ _ => off_handle rfl
  have hrenamed : etcCut ∈ (endOf etcChange).passed := by
    apply List.mem_cons_of_mem
    apply List.mem_cons_self
  have hdone : (endOf etcChange).disk ∈ (endOf etcChange).passed := by
    apply List.mem_cons_self
  have hcut : OutageStep tinyToml true none etcPath Disk.empty etcCut :=
    .change (by rfl) hlink hrenamed
  have hlost : OutageStep tinyToml true none etcPath etcCut Disk.empty :=
    .powerLoss (fun q => ⟨none, etcCut_lost q, rfl⟩) fun q c ⟨e, he, hc⟩ => by
      cases List.mem_singleton.mp he
      exact hc
  have hagain : OutageStep tinyToml true none etcPath Disk.empty (endOf etcChange).disk :=
    .change (by rfl) hlink hdone
  exact ⟨nofun, config_survives (startable_empty etcPath)
    (.tail (.tail (.single hcut) hlost) hagain)⟩

end Bhtune
