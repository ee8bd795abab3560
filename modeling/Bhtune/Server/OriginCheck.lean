import Bhtune.Core.Tags
import Bhtune.Runtime.Preflight

/-!
# The origin check of state-changing requests

`origin_is_allowed` decides by the `Origin`, `Sec-Fetch-Site` and `Host` headers of a request, by
the mode of the server and by the configured origin.  What the `http` crate makes of headers, values
and authorities is a parameter.

* `HttpCrate` — that parameter;
* `splitOnce`, `parseHttpOrigin` — how an origin is read;
* `HttpOrigin` — what a well-formed `http` or `https` origin is;
* `OriginLaw` — what the check is for;
* `originLaw_iff` — when it keeps that.
-/

namespace Bhtune

/-! ### Headers -/

/-- What `http::uri::Authority` reads off a text. -/
structure Authority where
  host : String
  port : Option ℕ
  deriving DecidableEq

/-- What is used of the `http` crate: the headers of a request, the text of a value, and the reading
of an authority. -/
structure HttpCrate where
  HeaderMap : Type
  HeaderValue : Type
  /-- `HeaderMap::get_all`. -/
  getAll : HeaderMap → String → List HeaderValue
  /-- `HeaderMap::get`. -/
  get : HeaderMap → String → Option HeaderValue
  /-- `HeaderValue::to_str`. -/
  toStr : HeaderValue → Option String
  /-- `Authority::from_str`. -/
  fromStr : String → Option Authority
  /-- `get` returns the first of the values. -/
  get_eq : ∀ headers name, get headers name = (getAll headers name).head?

/-- `http::Method`. -/
inductive Method where
  | get
  | head
  | options
  | post
  | put
  | delete
  | patch
  | connect
  | trace
  | extension (name : String)
  deriving DecidableEq

/-- `is_state_changing`. -/
def isStateChanging : Method → Bool
  | .get | .head | .options => false
  | _ => true

/-- `ServerMode`. -/
inductive ServerMode where
  | full
  | demo
  deriving DecidableEq

/-! ### Origins -/

/-- `ParsedHttpOrigin` with its `ParsedAuthority`, whose host is in lower case. -/
structure ParsedHttpOrigin where
  https : Bool
  authority : Authority
  deriving DecidableEq

/-- `str::split_once`: the text before and after the first `sep`. -/
def splitOnce (sep : List Char) : List Char → Option (List Char × List Char)
  | [] => none
  | c :: rest =>
    if sep.isPrefixOf (c :: rest) then some ([], (c :: rest).drop sep.length)
    else (splitOnce sep rest).map fun parts => (c :: parts.1, parts.2)

/-- `str::to_ascii_lowercase`. -/
def toAsciiLowercase (s : String) : String := String.ofList (s.toList.map Char.toLower)

section Parse

variable (fromStr : String → Option Authority)

/-- `parse_authority`. -/
def parseAuthority (value : String) : Option Authority :=
  if trimmed value ≠ value ∨ value = "" then none
  else
    match fromStr value with
    | none => none
    | some authority =>
      if authority.host = "" then none
      else some ⟨toAsciiLowercase authority.host, authority.port⟩

/-- The scheme of an origin: whether it is `https`. -/
def schemeIsHttps (scheme : String) : Option Bool :=
  if eqIgnoreAsciiCase scheme "https" then some true
  else if eqIgnoreAsciiCase scheme "http" then some false
  else none

/-- `parse_http_origin`. -/
def parseHttpOrigin (origin : String) : Option ParsedHttpOrigin :=
  if trimmed origin ≠ origin ∨ origin.toList.any isWhiteSpace = true then none
  else
    match splitOnce "://".toList origin.toList with
    | none => none
    | some (scheme, authority) =>
      match schemeIsHttps (String.ofList scheme) with
      | none => none
      | some https =>
        if authority = [] ∨ authority.any (fun c => ['/', '?', '#', '@'].contains c) = true then none
        else (parseAuthority fromStr (String.ofList authority)).map fun a => ⟨https, a⟩

/-- `origin_matches_host`. -/
def originMatchesHost (origin : String) (host : Authority) : Bool :=
  match parseHttpOrigin fromStr origin with
  | none => false
  | some origin =>
    if origin.authority.host ≠ host.host then false
    else
      let defaultPort := if origin.https then 443 else 80
      origin.authority.port.getD defaultPort == host.port.getD defaultPort

/-- The pinned origin of Full mode: it has to be well formed, and the browser's has to equal it. -/
def matchesConfigured (configured : String) (origin : Option String) : Bool :=
  (parseHttpOrigin fromStr configured).isSome && origin.any fun origin => configured == origin

end Parse

section Headers

variable (http : HttpCrate)

/-- `parse_host_header`. -/
def parseHostHeader (value : http.HeaderValue) : Option Authority :=
  (http.toStr value).bind (parseAuthority http.fromStr)

/-- `Sec-Fetch-Site`, as far as it can be read. -/
def fetchSite {http : HttpCrate} (headers : http.HeaderMap) : Option String :=
  (http.get headers "sec-fetch-site").bind http.toStr

/-- What `origin_is_allowed` makes of an origin; one that cannot be decoded is none. -/
def allowsOrigin (mode : ServerMode) (headers : http.HeaderMap)
    (configuredOrigin origin : Option String) :
    Bool :=
  if mode = .demo then origin.any fun origin => configuredOrigin == some origin
  else if (fetchSite headers).any (eqIgnoreAsciiCase · "cross-site") then false
  else if (fetchSite headers).any (eqIgnoreAsciiCase · "same-origin") then
    match configuredOrigin with
    | some configured => matchesConfigured http.fromStr configured origin
    | none => origin.any fun origin => (parseHttpOrigin http.fromStr origin).isSome
  else if origin.isNone then true
  else
    match configuredOrigin with
    | some configured => matchesConfigured http.fromStr configured origin
    | none => origin.any fun origin =>
      match (http.get headers "host").bind (parseHostHeader http) with
      | none => false
      | some host => originMatchesHost http.fromStr origin host

/-- `origin_is_allowed`. -/
def originIsAllowed (mode : ServerMode) (headers : http.HeaderMap)
    (configuredOrigin : Option String) :
    Bool :=
  match http.getAll headers "origin" with
  | [] => allowsOrigin http mode headers configuredOrigin none
  | [origin] => allowsOrigin http mode headers configuredOrigin (http.toStr origin)
  | _ => false

/-- What `origin_and_security_headers` lets through to the handlers. -/
def passesOriginCheck (mode : ServerMode) (method : Method) (headers : http.HeaderMap)
    (configuredOrigin : Option String) : Bool :=
  !(isStateChanging method && !originIsAllowed http mode headers configuredOrigin)

end Headers

/-! ### What a well-formed origin is -/

theorem splitOnce_append {sep l a b : List Char} (h : splitOnce sep l = some (a, b)) :
    l = a ++ sep ++ b := by
  induction l generalizing a b with
  | nil => cases h
  | cons c rest ih =>
    unfold splitOnce at h
    split at h
    · rename_i hprefix
      obtain ⟨tail, htail⟩ := List.isPrefixOf_iff_prefix.mp hprefix
      cases h
      simp [← htail]
    · obtain ⟨parts, hparts, heq⟩ := Option.map_eq_some_iff.mp h
      cases heq
      simpa using ih hparts

/-- The first `sep` is found where nothing before it begins like it. -/
theorem splitOnce_first {s : Char} {sep a b : List Char} (h : s ∉ a) :
    splitOnce (s :: sep) (a ++ (s :: sep) ++ b) = some (a, b) := by
  induction a with
  | nil =>
    have hprefix : (s :: sep).isPrefixOf (s :: (sep ++ b)) = true :=
      List.isPrefixOf_iff_prefix.mpr ⟨b, rfl⟩
    show splitOnce (s :: sep) (s :: (sep ++ b)) = _
    rw [splitOnce, if_pos hprefix]
    simp
  | cons c rest ih =>
    have hne : ¬(s :: sep).isPrefixOf (c :: (rest ++ (s :: sep) ++ b)) = true := by
      intro hprefix
      obtain ⟨tail, htail⟩ := List.isPrefixOf_iff_prefix.mp hprefix
      exact h (by simp [(List.cons.inj htail).1])
    show splitOnce (s :: sep) (c :: (rest ++ (s :: sep) ++ b)) = _
    rw [splitOnce, if_neg hne, ih fun hmem => h (List.mem_cons_of_mem c hmem)]
    rfl

/-- A text without white space is its own trimmed text. -/
theorem trimmed_of_dense {s : String} (h : ∀ c ∈ s.toList, isWhiteSpace c = false) :
    trimmed s = s := by
  have hdrop : ∀ l : List Char, (∀ c ∈ l, isWhiteSpace c = false) →
      l.dropWhile isWhiteSpace = l := by
    intro l hl
    cases l with
    | nil => rfl
    | cons c rest => simp [hl c (List.mem_cons_self ..)]
  unfold trimmed
  rw [hdrop _ h, hdrop _ (by simpa using h)]
  simp

/-- `text` is a well-formed `http` or `https` origin, with this authority in lower case. -/
def HttpOrigin (fromStr : String → Option Authority) (text : String) (https : Bool)
    (authority : Authority) : Prop :=
  ∃ scheme rest : List Char, text.toList = scheme ++ "://".toList ++ rest ∧
    eqIgnoreAsciiCase (String.ofList scheme) (if https then "https" else "http") = true ∧
    rest ≠ [] ∧ (∀ c ∈ rest, c ∉ ['/', '?', '#', '@']) ∧
    (∀ c ∈ text.toList, isWhiteSpace c = false) ∧
    ∃ read, fromStr (String.ofList rest) = some read ∧ read.host ≠ "" ∧
      authority = ⟨toAsciiLowercase read.host, read.port⟩

section Origin

variable {fromStr : String → Option Authority} {text : String} {https : Bool}
variable {authority : Authority}

theorem schemeIsHttps_eq_some_iff {scheme : String} : schemeIsHttps scheme = some https ↔
    eqIgnoreAsciiCase scheme (if https then "https" else "http") = true := by
  have hdiffer : ¬(eqIgnoreAsciiCase scheme "https" = true ∧
      eqIgnoreAsciiCase scheme "http" = true) := by
    rintro ⟨hs, hp⟩
    have heq := (beq_iff_eq.mp hs).symm.trans (beq_iff_eq.mp hp)
    exact absurd heq (by decide)
  unfold schemeIsHttps
  cases https with
  | true => by_cases h : eqIgnoreAsciiCase scheme "https" = true <;> simp [h]
  | false =>
    by_cases h : eqIgnoreAsciiCase scheme "https" = true
    · have hp := fun hp => hdiffer ⟨h, hp⟩
      simpa [h] using hp
    · simp [h]

/-- A scheme contains no colon. -/
theorem colon_not_mem_of_scheme {scheme : List Char}
    (h : eqIgnoreAsciiCase (String.ofList scheme) (if https then "https" else "http") = true) :
    ':' ∉ scheme := by
  intro hmem
  have heq := beq_iff_eq.mp h
  have hlower : (':').toLower ∈ scheme.map Char.toLower := List.mem_map_of_mem hmem
  rw [String.toList_ofList] at heq
  rw [heq] at hlower
  cases https <;> revert hlower <;> decide

theorem parseAuthority_eq_some_iff {rest : List Char} (hdense : ∀ c ∈ rest, isWhiteSpace c = false)
    (hne : rest ≠ []) : parseAuthority fromStr (String.ofList rest) = some authority ↔
    ∃ read, fromStr (String.ofList rest) = some read ∧ read.host ≠ "" ∧
      authority = ⟨toAsciiLowercase read.host, read.port⟩ := by
  have htrimmed : trimmed (String.ofList rest) = String.ofList rest :=
    trimmed_of_dense (by simpa using hdense)
  have hnonempty : String.ofList rest ≠ "" := by
    intro h
    exact hne (by simpa using congrArg String.toList h)
  unfold parseAuthority
  rw [if_neg (by simp [htrimmed, hnonempty])]
  cases hread : fromStr (String.ofList rest) with
  | none => simp
  | some read =>
    by_cases hhost : read.host = ""
    · simp [hhost]
    · show (if read.host = "" then none else some _) = some authority ↔ _
      rw [if_neg hhost]
      constructor
      · intro h
        exact ⟨read, rfl, hhost, (Option.some.inj h).symm⟩
      · intro ⟨read', hread', _, heq⟩
        rw [heq, Option.some.inj hread']

/-- **What `parse_http_origin` accepts** are the well-formed origins. -/
theorem parseHttpOrigin_eq_some_iff :
    parseHttpOrigin fromStr text = some ⟨https, authority⟩ ↔
      HttpOrigin fromStr text https authority := by
  constructor
  · intro h
    unfold parseHttpOrigin at h
    split at h
    · cases h
    · rename_i hdense
      have hdense : ∀ c ∈ text.toList, isWhiteSpace c = false := by
        simpa using (not_or.mp hdense).2
      split at h
      · cases h
      · rename_i scheme rest hsplit
        have htext := splitOnce_append hsplit
        split at h
        · cases h
        · rename_i https' hscheme
          split at h
          · cases h
          · rename_i hrest
            obtain ⟨hne, hplain⟩ := not_or.mp hrest
            obtain ⟨a, ha, heq⟩ := Option.map_eq_some_iff.mp h
            cases heq
            refine ⟨scheme, rest, htext, schemeIsHttps_eq_some_iff.mp hscheme, hne, ?_, hdense, ?_⟩
            · simpa using hplain
            · exact (parseAuthority_eq_some_iff (fun c hc => hdense c (by simp [htext, hc]))
                hne).mp ha
  · rintro ⟨scheme, rest, htext, hscheme, hne, hplain, hdense, hread⟩
    have hsplit : splitOnce "://".toList text.toList = some (scheme, rest) := by
      rw [htext]
      exact splitOnce_first (colon_not_mem_of_scheme hscheme)
    have hauthority := (parseAuthority_eq_some_iff (fun c hc => hdense c (by simp [htext, hc]))
      hne).mpr hread
    have hplain' : ¬(rest = [] ∨ rest.any (fun c => ['/', '?', '#', '@'].contains c) = true) := by
      simpa [hne] using hplain
    unfold parseHttpOrigin
    rw [if_neg (by simpa [trimmed_of_dense hdense] using hdense), hsplit]
    dsimp only
    rw [schemeIsHttps_eq_some_iff.mpr hscheme]
    dsimp only
    rw [if_neg hplain', hauthority]
    rfl

end Origin

/-! ### What the check is for -/

section Law

variable (http : HttpCrate)

/-- A `Sec-Fetch-Site` header has this value. -/
def HasFetchSite {http : HttpCrate} (headers : http.HeaderMap) (site : String) : Prop :=
  ∃ value ∈ http.getAll headers "sec-fetch-site",
    (http.toStr value).any (eqIgnoreAsciiCase · site) = true

/-- There is exactly one `Origin` header, and `origin` is its text. -/
def HasOrigin {http : HttpCrate} (headers : http.HeaderMap) (origin : String) : Prop :=
  ∃ value, http.getAll headers "origin" = [value] ∧ http.toStr value = some origin

/-- The `Host` header names the host of the origin, at the same port. -/
def NamesHost (headers : http.HeaderMap) (https : Bool) (authority : Authority) : Prop :=
  ∃ value text read, http.get headers "host" = some value ∧ http.toStr value = some text ∧
    text ≠ "" ∧ trimmed text = text ∧ http.fromStr text = some read ∧
    authority.host = toAsciiLowercase read.host ∧
    authority.port.getD (if https then 443 else 80) = read.port.getD (if https then 443 else 80)

/-- An origin that a state-changing request may come with. -/
def Trusted (mode : ServerMode) (headers : http.HeaderMap) (configuredOrigin : Option String)
    (origin : String) : Prop :=
  configuredOrigin = some origin ∨ (mode = .full ∧ configuredOrigin = none ∧
    ∃ https authority, HttpOrigin http.fromStr origin https authority ∧
      (HasFetchSite headers "same-origin" ∨ NamesHost http headers https authority))

/-- **The check is fail-closed.** -/
structure OriginLaw (mode : ServerMode) (headers : http.HeaderMap)
    (configuredOrigin : Option String)
    (allowed : Bool) : Prop where
  origin : allowed = true → http.getAll headers "origin" ≠ [] →
    ∃ origin, HasOrigin headers origin ∧ Trusted http mode headers configuredOrigin origin
  crossSite : HasFetchSite headers "cross-site" → allowed = false
  demo : mode = .demo → allowed = true →
    ∃ origin, HasOrigin headers origin ∧ configuredOrigin = some origin

/-- The first `Sec-Fetch-Site` header has this value. -/
def FirstFetchSite {http : HttpCrate} (headers : http.HeaderMap) (site : String) : Prop :=
  (fetchSite headers).any (eqIgnoreAsciiCase · site) = true

/-- An origin that Full mode accepts unless the request is known to be cross-site. -/
def Vouched (headers : http.HeaderMap) (configuredOrigin : Option String) (origin : String) :
    Prop :=
  ∃ https authority, HttpOrigin http.fromStr origin https authority ∧
    (configuredOrigin = some origin ∨ (configuredOrigin = none ∧
      (FirstFetchSite headers "same-origin" ∨ NamesHost http headers https authority)))

/-- A request on which nothing that is absent or not the first of its kind decides. -/
structure FailsClosed (mode : ServerMode) (headers : http.HeaderMap)
    (configuredOrigin : Option String) : Prop where
  decodable : mode = .full → ∀ value, http.getAll headers "origin" = [value] →
    http.toStr value = none →
    FirstFetchSite headers "cross-site" ∨ FirstFetchSite headers "same-origin"
  demo : mode = .demo → HasFetchSite headers "cross-site" →
    ¬∃ origin, HasOrigin headers origin ∧ configuredOrigin = some origin
  full : mode = .full → HasFetchSite headers "cross-site" → FirstFetchSite headers "cross-site" ∨
    ((http.getAll headers "origin" = [] → FirstFetchSite headers "same-origin") ∧
      ¬∃ origin, HasOrigin headers origin ∧ Vouched http headers configuredOrigin origin)

end Law

/-! ### What the check does -/

section Check

variable {http : HttpCrate} {headers : http.HeaderMap} {origin : String}
variable {https : Bool} {authority : Authority} {configuredOrigin : Option String}

theorem hasFetchSite_of_first {site : String} (h : FirstFetchSite headers site) :
    HasFetchSite headers site := by
  unfold FirstFetchSite fetchSite at h
  rw [http.get_eq] at h
  cases hvalues : http.getAll headers "sec-fetch-site" with
  | nil => simp [hvalues] at h
  | cons value rest =>
    rw [hvalues] at h
    exact ⟨value, by simp [hvalues], h⟩

theorem parseHostHeader_eq_some_iff {value : http.HeaderValue} (hhost : authority.host ≠ "") :
    parseHostHeader http value = some authority ↔
      ∃ text read, http.toStr value = some text ∧ text ≠ "" ∧ trimmed text = text ∧
        http.fromStr text = some read ∧ authority = ⟨toAsciiLowercase read.host, read.port⟩ := by
  unfold parseHostHeader parseAuthority
  constructor
  · intro h
    obtain ⟨text, htext, h⟩ := Option.bind_eq_some_iff.mp h
    split at h
    · cases h
    · rename_i hplain
      obtain ⟨htrimmed, hne⟩ := not_or.mp hplain
      split at h
      · cases h
      · rename_i read hread
        split at h
        · cases h
        · exact ⟨text, read, htext, hne, not_not.mp htrimmed, hread, (Option.some.inj h).symm⟩
  · intro ⟨text, read, htext, hne, htrimmed, hread, heq⟩
    have hreadHost : read.host ≠ "" := by
      intro hempty
      apply hhost
      rw [heq, hempty]
      rfl
    rw [htext, Option.bind_some, if_neg (by simp [htrimmed, hne]), hread]
    show (if read.host = "" then none else some _) = _
    rw [if_neg hreadHost, heq]

theorem host_ne_empty (h : HttpOrigin http.fromStr origin https authority) :
    authority.host ≠ "" := by
  obtain ⟨_, _, _, _, _, _, _, read, _, hhost, rfl⟩ := h
  intro hempty
  have hlist : (toAsciiLowercase read.host).toList = "".toList := congrArg String.toList hempty
  have hnil : read.host.toList = "".toList := by simpa [toAsciiLowercase] using hlist
  exact hhost (String.toList_inj.mp hnil)

/-- The comparison with the `Host` header. -/
theorem namesHost_iff (h : HttpOrigin http.fromStr origin https authority) :
    (match (http.get headers "host").bind (parseHostHeader http) with
      | none => false
      | some host => originMatchesHost http.fromStr origin host) = true ↔
      NamesHost http headers https authority := by
  have hparse := parseHttpOrigin_eq_some_iff.mpr h
  have hmatch : ∀ host : Authority, originMatchesHost http.fromStr origin host = true ↔
      authority.host = host.host ∧ authority.port.getD (if https then 443 else 80) =
        host.port.getD (if https then 443 else 80) := by
    intro host
    unfold originMatchesHost
    rw [hparse]
    by_cases heq : authority.host = host.host <;> simp [heq]
  constructor
  · intro hmatches
    cases hget : (http.get headers "host").bind (parseHostHeader http) with
    | none => simp [hget] at hmatches
    | some host =>
      rw [hget] at hmatches
      obtain ⟨hhost, hport⟩ := (hmatch host).mp hmatches
      obtain ⟨value, hvalue, hread⟩ := Option.bind_eq_some_iff.mp hget
      have hne : host.host ≠ "" := hhost ▸ host_ne_empty h
      obtain ⟨text, read, htext, hnonempty, htrimmed, hfrom, rfl⟩ :=
        (parseHostHeader_eq_some_iff hne).mp hread
      exact ⟨value, text, read, hvalue, htext, hnonempty, htrimmed, hfrom, hhost, hport⟩
  · intro ⟨value, text, read, hvalue, htext, hnonempty, htrimmed, hfrom, hhost, hport⟩
    have hne : toAsciiLowercase read.host ≠ "" := hhost ▸ host_ne_empty h
    have hread : parseHostHeader http value = some ⟨toAsciiLowercase read.host, read.port⟩ :=
      (parseHostHeader_eq_some_iff hne).mpr
        ⟨text, read, htext, hnonempty, htrimmed, hfrom, rfl⟩
    rw [hvalue, Option.bind_some, hread]
    exact (hmatch _).mpr ⟨hhost, hport⟩

theorem wellFormed_iff : (parseHttpOrigin http.fromStr origin).isSome = true ↔
    ∃ https authority, HttpOrigin http.fromStr origin https authority := by
  rw [Option.isSome_iff_exists]
  constructor
  · intro ⟨parsed, h⟩
    exact ⟨parsed.https, parsed.authority, parseHttpOrigin_eq_some_iff.mp h⟩
  · intro ⟨https, authority, h⟩
    exact ⟨_, parseHttpOrigin_eq_some_iff.mpr h⟩

theorem matchesConfigured_iff {configured : String} :
    matchesConfigured http.fromStr configured (some origin) = true ↔
      configured = origin ∧ ∃ https authority, HttpOrigin http.fromStr origin https authority := by
  unfold matchesConfigured
  rw [Bool.and_eq_true, wellFormed_iff]
  constructor
  · intro ⟨hformed, heq⟩
    have heq : configured = origin := by simpa using heq
    exact ⟨heq, heq ▸ hformed⟩
  · intro ⟨heq, hformed⟩
    exact ⟨heq ▸ hformed, by simp [heq]⟩

/-- **What Full mode accepts** of a request that is not known to be cross-site. -/
theorem allowsOrigin_full (hsite : ¬FirstFetchSite headers "cross-site") :
    allowsOrigin http .full headers configuredOrigin (some origin) = true ↔
      Vouched http headers configuredOrigin origin := by
  have hnot : ¬(fetchSite headers).any (eqIgnoreAsciiCase · "cross-site") = true := hsite
  unfold allowsOrigin Vouched
  rw [if_neg nofun, if_neg hnot]
  by_cases hsame : FirstFetchSite headers "same-origin"
  · have hfirst : (fetchSite headers).any (eqIgnoreAsciiCase · "same-origin") = true := hsame
    rw [if_pos hfirst]
    cases configuredOrigin with
    | some configured =>
      rw [matchesConfigured_iff]
      simp [hsame, and_comm]
    | none =>
      have hformed : (parseHttpOrigin http.fromStr origin).isSome = true ↔ _ := wellFormed_iff
      simpa [hsame] using hformed
  · have hother : ¬(fetchSite headers).any (eqIgnoreAsciiCase · "same-origin") = true := hsame
    rw [if_neg hother]
    cases configuredOrigin with
    | some configured =>
      simp only [Option.isNone_some, Bool.false_eq_true, if_false]
      rw [matchesConfigured_iff]
      simp [and_comm]
    | none =>
      simp only [Option.isNone_some, Bool.false_eq_true, if_false, Option.any_some]
      constructor
      · intro hmatches
        have hformed : ∃ https authority, HttpOrigin http.fromStr origin https authority := by
          rw [← wellFormed_iff]
          by_contra hnone
          have hnone : parseHttpOrigin http.fromStr origin = none := by simpa using hnone
          split at hmatches
          · cases hmatches
          · simp [originMatchesHost, hnone] at hmatches
        obtain ⟨https, authority, h⟩ := hformed
        exact ⟨https, authority, h, .inr ⟨trivial, .inr ((namesHost_iff h).mp hmatches)⟩⟩
      · intro ⟨https, authority, h, hvouched⟩
        rcases hvouched with habsurd | ⟨_, hfirst | hnames⟩
        · cases habsurd
        · exact absurd hfirst hsame
        · exact (namesHost_iff h).mpr hnames

/-- Full mode asks nothing of a request without an origin that can be read, unless it is known to
come from the same origin or from another site. -/
theorem allowsOrigin_none : allowsOrigin http .full headers configuredOrigin none = true ↔
    ¬FirstFetchSite headers "cross-site" ∧ ¬FirstFetchSite headers "same-origin" := by
  unfold allowsOrigin FirstFetchSite
  rw [if_neg nofun]
  by_cases hcross : (fetchSite headers).any (eqIgnoreAsciiCase · "cross-site") = true
  · simp [hcross]
  · rw [if_neg hcross]
    by_cases hsame : (fetchSite headers).any (eqIgnoreAsciiCase · "same-origin") = true
    · rw [if_pos hsame]
      cases configuredOrigin <;> simp [hsame, matchesConfigured]
    · simp [hsame, hcross]

theorem allowsOrigin_cross (hsite : FirstFetchSite headers "cross-site") (origin : Option String) :
    allowsOrigin http .full headers configuredOrigin origin = false := by
  have hcross : (fetchSite headers).any (eqIgnoreAsciiCase · "cross-site") = true := hsite
  unfold allowsOrigin
  rw [if_neg nofun, if_pos hcross]

theorem allowed_demo : originIsAllowed http .demo headers configuredOrigin = true ↔
    ∃ origin, HasOrigin headers origin ∧ configuredOrigin = some origin := by
  unfold originIsAllowed HasOrigin
  match hvalues : http.getAll headers "origin" with
  | [] => simp [allowsOrigin]
  | [value] =>
    cases htext : http.toStr value with
    | none => simp [allowsOrigin, htext]
    | some text => simp [allowsOrigin, htext]
  | value :: second :: rest => simp

theorem originIsAllowed_one {value : http.HeaderValue} (mode : ServerMode)
    (h : http.getAll headers "origin" = [value]) :
    originIsAllowed http mode headers configuredOrigin =
      allowsOrigin http mode headers configuredOrigin (http.toStr value) := by
  unfold originIsAllowed
  rw [h]

theorem originIsAllowed_absent (mode : ServerMode) (h : http.getAll headers "origin" = []) :
    originIsAllowed http mode headers configuredOrigin =
      allowsOrigin http mode headers configuredOrigin none := by
  unfold originIsAllowed
  rw [h]

/-- **What Full mode lets through**: nothing that is known to be cross-site, what comes without an
origin that can be read, and what comes with an origin it accepts. -/
theorem allowed_full : originIsAllowed http .full headers configuredOrigin = true ↔
    ¬FirstFetchSite headers "cross-site" ∧
      ((http.getAll headers "origin" = [] ∧ ¬FirstFetchSite headers "same-origin") ∨
        (∃ value, http.getAll headers "origin" = [value] ∧ http.toStr value = none ∧
          ¬FirstFetchSite headers "same-origin") ∨
        ∃ origin, HasOrigin headers origin ∧ Vouched http headers configuredOrigin origin) := by
  match hvalues : http.getAll headers "origin" with
  | [] =>
    rw [originIsAllowed_absent _ hvalues, allowsOrigin_none]
    simp [HasOrigin, hvalues]
  | [value] =>
    rw [originIsAllowed_one _ hvalues]
    cases htext : http.toStr value with
    | none =>
      rw [allowsOrigin_none]
      simp [HasOrigin, hvalues, htext]
    | some origin =>
      by_cases hcross : FirstFetchSite headers "cross-site"
      · rw [allowsOrigin_cross hcross]
        simp [hcross]
      · rw [allowsOrigin_full hcross]
        simp [HasOrigin, hvalues, htext, hcross]
  | value :: second :: rest =>
    unfold originIsAllowed
    simp [hvalues, HasOrigin]

theorem Vouched.trusted (h : Vouched http headers configuredOrigin origin) :
    Trusted http .full headers configuredOrigin origin := by
  obtain ⟨https, authority, hformed, hconfigured | ⟨hnone, hfirst⟩⟩ := h
  · exact .inl hconfigured
  · exact .inr ⟨rfl, hnone, https, authority, hformed, hfirst.imp_left hasFetchSite_of_first⟩

/-- An origin that can be read is that of the only header. -/
theorem HasOrigin.decoded {value : http.HeaderValue} (h : HasOrigin headers origin)
    (hvalue : http.getAll headers "origin" = [value]) : http.toStr value = some origin := by
  obtain ⟨value', hvalue', htext⟩ := h
  rw [hvalue] at hvalue'
  cases hvalue'
  exact htext

theorem originLaw_demo_iff : OriginLaw http .demo headers configuredOrigin
    (originIsAllowed http .demo headers configuredOrigin) ↔
    FailsClosed http .demo headers configuredOrigin := by
  constructor
  · intro hlaw
    refine ⟨nofun, fun _ hsite horigin => ?_, nofun⟩
    exact absurd ((allowed_demo.mpr horigin).symm.trans (hlaw.crossSite hsite)) nofun
  · intro hcloses
    constructor
    · intro hallowed _
      obtain ⟨origin, horigin, hconfigured⟩ := allowed_demo.mp hallowed
      exact ⟨origin, horigin, .inl hconfigured⟩
    · intro hsite
      by_contra hallowed
      exact hcloses.demo rfl hsite (allowed_demo.mp (Bool.not_eq_false _ ▸ hallowed))
    · exact fun _ hallowed => allowed_demo.mp hallowed

theorem originLaw_full_iff : OriginLaw http .full headers configuredOrigin
    (originIsAllowed http .full headers configuredOrigin) ↔
    FailsClosed http .full headers configuredOrigin := by
  constructor
  · intro hlaw
    refine ⟨fun _ value hvalue htext => ?_, nofun, fun _ hsite => ?_⟩
    · by_contra hneither
      obtain ⟨hcross, hsame⟩ := not_or.mp hneither
      have hallowed : originIsAllowed http .full headers configuredOrigin = true :=
        allowed_full.mpr ⟨hcross, .inr (.inl ⟨value, hvalue, htext, hsame⟩)⟩
      obtain ⟨origin, horigin, _⟩ := hlaw.origin hallowed (by simp [hvalue])
      exact absurd (htext.symm.trans (horigin.decoded hvalue)) nofun
    · have hrefused := hlaw.crossSite hsite
      have hnot : ¬originIsAllowed http .full headers configuredOrigin = true := by
        simp [hrefused]
      rw [allowed_full] at hnot
      by_cases hcross : FirstFetchSite headers "cross-site"
      · exact .inl hcross
      · refine .inr ⟨fun hnone => ?_, fun hvouched => ?_⟩
        · by_contra hsame
          exact hnot ⟨hcross, .inl ⟨hnone, hsame⟩⟩
        · exact hnot ⟨hcross, .inr (.inr hvouched)⟩
  · intro hcloses
    refine ⟨fun hallowed hsome => ?_, fun hsite => ?_, nofun⟩
    · obtain ⟨hcross, ⟨hnone, _⟩ | ⟨value, hvalue, htext, hsame⟩ | ⟨origin, horigin, hvouched⟩⟩ :=
        allowed_full.mp hallowed
      · exact absurd hnone hsome
      · rcases hcloses.decodable rfl value hvalue htext with h | h
        · exact absurd h hcross
        · exact absurd h hsame
      · exact ⟨origin, horigin, hvouched.trusted⟩
    · by_contra hallowed
      obtain ⟨hcross, hways⟩ := allowed_full.mp (Bool.not_eq_false _ ▸ hallowed)
      rcases hcloses.full rfl hsite with h | ⟨habsent, hvouched⟩
      · exact hcross h
      · obtain ⟨hnone, hsame⟩ | ⟨value, hvalue, htext, hsame⟩ | h := hways
        · exact hsame (habsent hnone)
        · rcases hcloses.decodable rfl value hvalue htext with h | h
          · exact hcross h
          · exact hsame h
        · exact hvouched h

end Check

/-- **The origin check.**  However headers and authorities are read, and whatever the headers, the
configured origin and the mode: the check is fail-closed for a state-changing request if and
only if its outcome hangs neither on an `Origin` header that cannot be decoded nor on a
`Sec-Fetch-Site` header that is not looked at. -/
theorem originLaw_iff (http : HttpCrate) (mode : ServerMode) (method : Method)
    (headers : http.HeaderMap) (configuredOrigin : Option String) :
    (isStateChanging method = true → OriginLaw http mode headers configuredOrigin
      (passesOriginCheck http mode method headers configuredOrigin)) ↔
      (isStateChanging method = true → FailsClosed http mode headers configuredOrigin) := by
  refine imp_congr_right fun hchanging => ?_
  have hpasses : passesOriginCheck http mode method headers configuredOrigin =
      originIsAllowed http mode headers configuredOrigin := by
    simp [passesOriginCheck, hchanging]
  rw [hpasses]
  cases mode with
  | demo => exact originLaw_demo_iff
  | full => exact originLaw_full_iff

/-- Headers as a list of names and bytes, whose values are read where they are visible ASCII; an
authority is a bare host name. -/
def listHttp : HttpCrate where
  HeaderMap := List (String × List UInt8)
  HeaderValue := List UInt8
  getAll headers name := (headers.filter fun header => header.1 == name).map (·.2)
  get headers name := ((headers.filter fun header => header.1 == name).map (·.2)).head?
  toStr bytes :=
    if bytes.all fun b => (0x20 ≤ b && b < 0x7F) || b == 0x09 then
      some (String.ofList (bytes.map fun b => Char.ofNat b.toNat))
    else none
  fromStr value := some ⟨value, none⟩
  get_eq _ _ := rfl

/-- Headers whose only `Origin` is the byte `0xE9`. -/
def undecodableOrigin : listHttp.HeaderMap :=
  [("host", "bhtune".toList.map fun c => c.val.toUInt8), ("origin", [0xE9])]

/-- A start of a tune with these headers passes. -/
theorem originLaw_undecodable : ¬(isStateChanging .post = true →
    OriginLaw listHttp .full undecodableOrigin none
      (passesOriginCheck listHttp .full .post undecodableOrigin none)) := by
  intro h
  have hvalue : listHttp.getAll undecodableOrigin "origin" = [[0xE9]] := rfl
  have htext : listHttp.toStr [0xE9] = none := by decide
  have hsome : listHttp.getAll undecodableOrigin "origin" ≠ [] := by
    rw [hvalue]
    exact List.cons_ne_nil _ _
  obtain ⟨origin, horigin, _⟩ := (h rfl).origin (by decide) hsome
  exact absurd (htext.symm.trans (horigin.decoded hvalue)) nofun

end Bhtune
