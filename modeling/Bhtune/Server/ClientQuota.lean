import Bhtune.Library.IpAddress
import Bhtune.Server.OriginCheck

/-!
# The address a Demo start is counted for

Starts are counted by client address.  A configured reverse proxy may forward the address of the
client in a header of its own; anyone else is counted by the address the connection comes from.

* `trustedProxy`, `quotaIp`, `clientIp` — how the address is found;
* `trustedProxy_iff` — which peers are trusted, whatever the mask;
* `quotaIp_eq_iff` — which addresses share a quota;
* `ClientQuotaLaw` — what the quota is for, where one host may have two addresses;
* `clientQuotaLaw_iff` — when it holds: an IPv4 address in its IPv6 form is not recognised.
-/

namespace Bhtune

open IpAddress

/-! ### Finding the address -/

/-- `FORWARDED_CLIENT_IP_HEADER`, in lower case. -/
def forwardedClientIpHeader : String := "x-bhtune-client-ip"

/-- `str::parse` of a `u32`. -/
def parseU32 (text : List Char) : Option ℕ :=
  let digits := match text with
    | '+' :: rest => rest
    | _ => text
  if digits = [] ∨ digits.any (fun c => !c.isDigit) = true then none
  else (some (Nat.ofDigitChars 10 digits 0)).filter fun n => n < 2 ^ 32

/-- The addresses have their first `bits` in common. -/
def sharesBits (peer network : IpAddr) (bits : ℕ) : Bool :=
  match peer, network with
  | .v4 peer, .v4 network =>
    bits ≤ 32 && decide (peer &&& mask 32 bits = network &&& mask 32 bits)
  | .v6 peer, .v6 network =>
    bits ≤ 128 && decide (peer &&& mask 128 bits = network &&& mask 128 bits)
  | _, _ => false

/-- `trusted_proxy`; of the socket address of the peer, its port is not looked at. -/
def trustedProxy (peer : IpAddr) (configured : Option String) : Bool :=
  match configured with
  | none => false
  | some configured =>
    let configured := trimmed configured
    match IpAddr.parse configured with
    | some address => address = peer
    | none =>
      match splitOnce ['/'] configured.toList with
      | none => false
      | some (network, bits) =>
        match IpAddr.parse (String.ofList network), parseU32 bits with
        | some network, some bits => sharesBits peer network bits
        | _, _ => false

/-- `quota_ip`. -/
def quotaIp : IpAddr → String
  | .v4 address => (IpAddr.v4 address).display
  | .v6 address => (IpAddr.v6 (address &&& mask 128 64)).display ++ "/64"

/-- The one well-formed address that was forwarded. -/
def forwardedAddress {http : HttpCrate} (headers : http.HeaderMap) : Option IpAddr :=
  match http.getAll headers forwardedClientIpHeader with
  | [value] =>
    (http.toStr value).bind fun value =>
      if trimmed value = value ∧ value.toList.contains ',' = false then IpAddr.parse value else none
  | _ => none

/-- `client_ip`. -/
def clientIp {http : HttpCrate} (headers : http.HeaderMap) (peer : IpAddr)
    (configuredProxy : Option String) : String :=
  if trustedProxy peer configuredProxy then
    match forwardedAddress headers with
    | some address => quotaIp address
    | none => quotaIp peer
  else quotaIp peer

/-! ### Trust -/

/-- The network of an address and a prefix length. -/
def networkOf (address : IpAddr) (bits : ℕ) : Option IpNetwork :=
  match address with
  | .v4 address => if h : bits ≤ 32 then some (.v4 address bits h) else none
  | .v6 address => if h : bits ≤ 128 then some (.v6 address bits h) else none

/-- The network that is configured as the proxy: one address, or all that share its first bits. -/
def configuredNetwork (configured : String) : Option IpNetwork :=
  match IpAddr.parse (trimmed configured) with
  | some address => networkOf address (if address.isV4 then 32 else 128)
  | none =>
    match splitOnce ['/'] (trimmed configured).toList with
    | none => none
    | some (network, bits) =>
      match IpAddr.parse (String.ofList network), parseU32 bits with
      | some network, some bits => networkOf network bits
      | _, _ => none

/-- **The masks are right** at every length. -/
theorem sharesBits_iff {peer address : IpAddr} {bits : ℕ} :
    sharesBits peer address bits = true ↔
      ∃ network, networkOf address bits = some network ∧ network.Contains peer := by
  cases address with
  | v4 address =>
    by_cases hbits : bits ≤ 32
    · have hnetwork : networkOf (.v4 address) bits = some (.v4 address bits hbits) := dif_pos hbits
      rw [hnetwork]
      cases peer with
      | v4 peer => simp [sharesBits, hbits, IpNetwork.Contains, and_mask_eq_iff hbits]
      | v6 peer => simp [sharesBits, IpNetwork.Contains]
    · have hnetwork : networkOf (.v4 address) bits = none := dif_neg hbits
      rw [hnetwork]
      cases peer <;> simp [sharesBits, hbits]
  | v6 address =>
    by_cases hbits : bits ≤ 128
    · have hnetwork : networkOf (.v6 address) bits = some (.v6 address bits hbits) := dif_pos hbits
      rw [hnetwork]
      cases peer with
      | v4 peer => simp [sharesBits, IpNetwork.Contains]
      | v6 peer => simp [sharesBits, hbits, IpNetwork.Contains, and_mask_eq_iff hbits]
    · have hnetwork : networkOf (.v6 address) bits = none := dif_neg hbits
      rw [hnetwork]
      cases peer <;> simp [sharesBits, hbits]

/-- One address is a network of its own. -/
theorem eq_iff_contains {peer address : IpAddr} :
    address = peer ↔ ∃ network,
      networkOf address (if address.isV4 then 32 else 128) = some network ∧
        network.Contains peer := by
  cases address with
  | v4 address =>
    show _ ↔ ∃ network, some (IpNetwork.v4 address 32 le_rfl) = some network ∧
      network.Contains peer
    cases peer with
    | v4 peer => simp [IpNetwork.Contains, eq_comm]
    | v6 peer => simp [IpNetwork.Contains]
  | v6 address =>
    show _ ↔ ∃ network, some (IpNetwork.v6 address 128 le_rfl) = some network ∧
      network.Contains peer
    cases peer with
    | v4 peer => simp [IpNetwork.Contains]
    | v6 peer => simp [IpNetwork.Contains, eq_comm]

/-- **Trusted** is who belongs to the configured network. -/
theorem trustedProxy_iff {peer : IpAddr} {configured : Option String} :
    trustedProxy peer configured = true ↔
      ∃ network, configured.bind configuredNetwork = some network ∧ network.Contains peer := by
  have hnone : false = true ↔ ∃ network : IpNetwork, none = some network ∧ network.Contains peer :=
    ⟨nofun, nofun⟩
  cases configured with
  | none => exact hnone
  | some configured =>
    rw [Option.bind_some, trustedProxy, configuredNetwork]
    split
    · rw [decide_eq_true_iff]
      exact eq_iff_contains
    · split
      · exact hnone
      · split
        · exact sharesBits_iff
        · exact hnone

/-! ### Quotas -/

theorem quotaIp_v6_injective {v w : BitVec 128} :
    quotaIp (.v6 v) = quotaIp (.v6 w) ↔ v >>> 64 = w >>> 64 := by
  have hmask : v &&& mask 128 64 = w &&& mask 128 64 ↔ v >>> 64 = w >>> 64 :=
    and_mask_eq_iff (by decide) v w
  rw [← hmask]
  constructor
  · intro h
    have hlist := congrArg String.toList h
    simp only [quotaIp, IpAddr.display, String.toList_append, String.toList_ofList] at hlist
    exact displayV6_injective_of_network (toNat_and_mask v) (toNat_and_mask w)
      (List.append_cancel_right hlist)
  · intro h
    show (IpAddr.v6 (v &&& mask 128 64)).display ++ _ = (IpAddr.v6 (w &&& mask 128 64)).display ++ _
    rw [h]

/-- An IPv4 address is counted apart from every network. -/
theorem quotaIp_v4_ne_v6 (x : BitVec 32) (w : BitVec 128) : quotaIp (.v4 x) ≠ quotaIp (.v6 w) := by
  intro h
  have hslash : '/' ∈ (quotaIp (.v6 w)).toList := by
    simp [quotaIp]
  rw [← h] at hslash
  have hslash : '/' ∈ displayV4 x := by
    simpa [quotaIp, IpAddr.display] using hslash
  rcases mem_displayV4 hslash with hdigit | hdot
  · exact absurd hdigit (by decide)
  · exact absurd hdot (by decide)

/-- **Which addresses share a quota**: the same IPv4 address, or the same IPv6 network. -/
theorem quotaIp_eq_iff {a b : IpAddr} :
    quotaIp a = quotaIp b ↔
      match a, b with
      | .v4 x, .v4 y => x = y
      | .v6 v, .v6 w => v >>> 64 = w >>> 64
      | _, _ => False := by
  cases a with
  | v4 x =>
    cases b with
    | v4 y =>
      constructor
      · intro h
        have hlist := congrArg String.toList h
        simp only [quotaIp, IpAddr.display, String.toList_ofList] at hlist
        exact displayV4_injective hlist
      · rintro rfl
        rfl
    | v6 w => exact iff_of_false (quotaIp_v4_ne_v6 x w) id
  | v6 v =>
    cases b with
    | v4 y => exact iff_of_false (quotaIp_v4_ne_v6 y v).symm id
    | v6 w => exact quotaIp_v6_injective

/-- The quota takes two addresses of one host for one, and only those: it does not where one host
has an address of either family, nor among the IPv6 forms of IPv4 addresses, which are all in the
network of the zero address. -/
def KeepsBuckets (a b : IpAddr) : Prop :=
  match a, b with
  | .v4 _, .v4 _ => True
  | .v4 x, .v6 w => w ≠ toIpv6Mapped x
  | .v6 v, .v4 y => v ≠ toIpv6Mapped y
  | .v6 v, .v6 w => v >>> 64 = 0 → w >>> 64 = 0 →
      v = w ∨ toIpv4Mapped v = none ∧ toIpv4Mapped w = none

/-- **The quota of two addresses.** -/
theorem bucket_iff (a b : IpAddr) :
    (quotaIp a = quotaIp b ↔ SameClient a b) ↔ KeepsBuckets a b := by
  rw [quotaIp_eq_iff]
  cases a with
  | v4 x =>
    cases b with
    | v4 y => exact iff_of_true Iff.rfl trivial
    | v6 w =>
      have hsame : SameClient (.v4 x) (.v6 w) ↔ w = toIpv6Mapped x := by
        rw [← toIpv4Mapped_eq_some_iff]
        unfold SameClient
        rw [canonical_v4]
        cases hw : toIpv4Mapped w with
        | none => simp [canonical_of_not_mapped hw]
        | some y => simp [canonical_of_mapped hw, eq_comm]
      show (False ↔ _) ↔ ¬w = toIpv6Mapped x
      rw [hsame, false_iff]
  | v6 v =>
    cases b with
    | v4 y =>
      have hsame : SameClient (.v6 v) (.v4 y) ↔ v = toIpv6Mapped y := by
        rw [← toIpv4Mapped_eq_some_iff]
        unfold SameClient
        rw [canonical_v4]
        cases hv : toIpv4Mapped v with
        | none => simp [canonical_of_not_mapped hv]
        | some x => simp [canonical_of_mapped hv]
      show (False ↔ _) ↔ ¬v = toIpv6Mapped y
      rw [hsame, false_iff]
    | v6 w =>
      show (v >>> 64 = w >>> 64 ↔ SameClient (.v6 v) (.v6 w)) ↔
        (v >>> 64 = 0#128 → w >>> 64 = 0#128 →
          v = w ∨ toIpv4Mapped v = none ∧ toIpv4Mapped w = none)
      unfold SameClient
      cases hv : toIpv4Mapped v with
      | none =>
        rw [canonical_of_not_mapped hv]
        cases hw : toIpv4Mapped w with
        | none =>
          rw [canonical_of_not_mapped hw]
          simp
        | some y =>
          have hne : v ≠ w := fun heq => by rw [heq, hw] at hv; cases hv
          rw [canonical_of_mapped hw]
          simp [shift_of_mapped hw, hne]
      | some x =>
        rw [canonical_of_mapped hv]
        cases hw : toIpv4Mapped w with
        | none =>
          have hne : v ≠ w := fun heq => by rw [heq, hw] at hv; cases hv
          rw [canonical_of_not_mapped hw]
          simp [shift_of_mapped hv, hne, eq_comm]
        | some y =>
          have heq : v = w ↔ x = y := by
            constructor
            · rintro rfl
              exact Option.some.inj (hv.symm.trans hw)
            · rintro rfl
              rw [toIpv4Mapped_eq_some_iff] at hv hw
              exact hv.trans hw.symm
          rw [canonical_of_mapped hw]
          simp [shift_of_mapped hv, shift_of_mapped hw, heq]

/-! ### The law -/

/-- Neither form of a host that has an address of either family is in the configured network. -/
def KeepsTrust (configured : Option String) (a b : IpAddr) : Prop :=
  a = b ∨ a.canonical ≠ b.canonical ∨
    ∀ network, configured.bind configuredNetwork = some network →
      ¬network.Contains a ∧ ¬network.Contains b

/-- **The trust in two addresses of one host.** -/
theorem trust_iff (configured : Option String) (a b : IpAddr) :
    (a.canonical = b.canonical → trustedProxy a configured = trustedProxy b configured) ↔
      KeepsTrust configured a b := by
  constructor
  · intro h
    by_cases hab : a = b
    · exact .inl hab
    · by_cases hcanonical : a.canonical = b.canonical
      · have hfamily := isV4_ne_of_canonical hcanonical hab
        refine .inr (.inr fun network hnetwork => ?_)
        have htrust : trustedProxy a configured = true ↔ trustedProxy b configured = true := by
          rw [h hcanonical]
        rw [trustedProxy_iff, trustedProxy_iff, hnetwork] at htrust
        simp only [Option.some.injEq, exists_eq_left'] at htrust
        constructor
        · intro ha
          exact hfamily (IpNetwork.isV4_eq ha (htrust.mp ha))
        · intro hb
          exact hfamily (IpNetwork.isV4_eq (htrust.mpr hb) hb)
      · exact .inr (.inl hcanonical)
  · rintro (rfl | hcanonical | hnone) heq
    · rfl
    · exact absurd heq hcanonical
    · have hno : ∀ c, (∀ network, configured.bind configuredNetwork = some network →
          ¬network.Contains c) → trustedProxy c configured = false := by
        intro c hc
        rw [Bool.eq_false_iff, Ne, trustedProxy_iff]
        rintro ⟨network, hnetwork, hcontains⟩
        exact hc network hnetwork hcontains
      rw [hno a fun network hnetwork => (hnone network hnetwork).1,
        hno b fun network hnetwork => (hnone network hnetwork).2]

/-- What the address that a start is counted for depends on, under one configuration: a peer that is
not trusted counts for itself, whatever it sends; a trusted one counts for the one well-formed
address it forwards; and two addresses are of one client if they are the same IPv4 host, in either
form, or share an IPv6 network of 64 bits. -/
structure ClientQuotaLaw (http : HttpCrate) (configured : Option String) (a b : IpAddr) : Prop where
  untrusted : ∀ peer (headers headers' : http.HeaderMap), trustedProxy peer configured = false →
    clientIp headers peer configured = clientIp headers' peer configured
  trusted : ∀ peer (headers headers' : http.HeaderMap), trustedProxy peer configured = true →
    forwardedAddress headers = forwardedAddress headers' →
      clientIp headers peer configured = clientIp headers' peer configured
  forwarded : ∀ peer (headers : http.HeaderMap) address, trustedProxy peer configured = true →
    forwardedAddress headers = some address → clientIp headers peer configured = quotaIp address
  bucket : quotaIp a = quotaIp b ↔ SameClient a b
  trust : a.canonical = b.canonical → trustedProxy a configured = trustedProxy b configured

/-- **When clients are counted as they should be**: wherever a host that has an address of either
family meets neither itself nor its like. -/
theorem clientQuotaLaw_iff (http : HttpCrate) (configured : Option String) (a b : IpAddr) :
    ClientQuotaLaw http configured a b ↔ KeepsBuckets a b ∧ KeepsTrust configured a b := by
  rw [← bucket_iff, ← trust_iff]
  constructor
  · intro h
    exact ⟨h.bucket, h.trust⟩
  · rintro ⟨hbucket, htrust⟩
    refine ⟨?_, ?_, ?_, hbucket, htrust⟩
    · intro peer headers headers' hpeer
      simp [clientIp, hpeer]
    · intro peer headers headers' hpeer hforwarded
      simp only [clientIp, hforwarded]
    · intro peer headers address hpeer hforwarded
      simp [clientIp, hpeer, hforwarded]

/-- On a listener of both families all IPv4 clients share one quota, and a proxy that is configured
by its IPv4 address is not trusted. -/
theorem ipv4_clients_share_quota :
    quotaIp (.v6 (toIpv6Mapped 0xc6336407#32)) = "::/64" ∧
      quotaIp (.v6 (toIpv6Mapped 0xcb007109#32)) = "::/64" ∧
      quotaIp (.v4 0xc6336407#32) = "198.51.100.7" ∧
      trustedProxy (.v4 0x0a000004#32) (some "10.0.0.4") = true ∧
      trustedProxy (.v6 (toIpv6Mapped 0x0a000004#32)) (some "10.0.0.4") = false ∧
      ¬ClientQuotaLaw listHttp none (.v6 (toIpv6Mapped 0xc6336407#32))
        (.v6 (toIpv6Mapped 0xcb007109#32)) := by
  refine ⟨by decide, by decide, by decide, by decide +kernel,
    by decide +kernel, fun h => ?_⟩
  have hsame := h.bucket.mp (by decide)
  have hmapped : ∀ x : BitVec 32, toIpv4Mapped (toIpv6Mapped x) = some x := fun x =>
    toIpv4Mapped_eq_some_iff.mpr rfl
  unfold SameClient at hsame
  rw [canonical_of_mapped (hmapped _), canonical_of_mapped (hmapped _)] at hsame
  exact absurd hsame (by decide)

end Bhtune
