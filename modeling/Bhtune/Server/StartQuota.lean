import Bhtune.Library.ActionRun
import Bhtune.Library.SlidingWindow
import Mathlib.Algebra.Order.Ring.Int
import Mathlib.Logic.Function.Basic

/-!
# The quota of accepted Demo starts

A visitor token and a client address may each start so many tunes within a window of time.  Two
maps of queues keep the accepted starts, one by token and one by address; times are nanoseconds,
as `chrono` counts them.

* `reserveAcceptedStart`, `releaseAcceptedStart`, `pruneStartWindows` — the three operations;
* `ServeStart` — a server on which they are called in any order, with what was accepted and not
  released since;
* `StartInv` — the queues are what the server holds and has not let expire;
* `startQuota_iff` — when a refused client is told the right time.
-/

namespace Bhtune

open ActionRun SlidingWindow

/-! ### The windows -/

/-- `DemoPolicy`, as far as starts go.  `DemoPolicy::validate` accepts 6, 6 and 600 only. -/
structure DemoPolicy where
  acceptedStartsPerToken : ℕ
  acceptedStartsPerClientIp : ℕ
  acceptedStartWindowSecs : ℕ
  token_pos : 0 < acceptedStartsPerToken
  ip_pos : 0 < acceptedStartsPerClientIp
  window_pos : 0 < acceptedStartWindowSecs

/-- The policy a Demo server runs with. -/
def demoPolicy : DemoPolicy := ⟨6, 6, 600, by decide, by decide, by decide⟩

/-- `Duration::seconds`, in nanoseconds. -/
def durationSeconds (n : ℕ) : ℤ := n * 1000000000

def DemoPolicy.window (policy : DemoPolicy) : ℤ := durationSeconds policy.acceptedStartWindowSecs

/-- `AcceptedStart`. -/
structure AcceptedStart where
  id : ℕ
  acceptedAt : ℤ
  deriving DecidableEq

/-- `AcceptedStartWindows`.  A key without starts is absent from its map, and `nextId` wraps. -/
structure AcceptedStartWindows where
  nextId : ℕ
  byToken : String → List AcceptedStart
  byIp : String → List AcceptedStart

/-- `DemoAcceptedStart`: the handle of a start, which can be neither copied nor made elsewhere. -/
structure DemoAcceptedStart where
  id : ℕ
  tokenHash : String
  clientIp : String
  deriving DecidableEq

/-- What `prune_start_windows` does to a queue. -/
def pruneQueue (cutoff : ℤ) (starts : List AcceptedStart) : List AcceptedStart :=
  starts.dropWhile fun start => decide (start.acceptedAt ≤ cutoff)

/-- `prune_start_windows`. -/
def pruneStartWindows (windows : AcceptedStartWindows) (now : ℤ) (policy : DemoPolicy) :
    AcceptedStartWindows :=
  { windows with
    byToken := fun key => pruneQueue (now - policy.window) (windows.byToken key)
    byIp := fun key => pruneQueue (now - policy.window) (windows.byIp key) }

/-- The seconds that `retry_after_for` makes of the time a start has left: it is cut down to whole
milliseconds, and these are rounded up. -/
def promised (remaining : ℤ) : ℕ := ((max (remaining.tdiv 1000000) 1).toNat + 999) / 1000

/-- `retry_after_for`. -/
def retryAfterFor (starts : List AcceptedStart) (limit : ℕ) (now window : ℤ) : Option ℕ :=
  match starts with
  | [] => none
  | front :: rest =>
    if (front :: rest).length < limit then none
    else some (promised (front.acceptedAt + window - now))

/-- `quota_retry_after`. -/
def quotaRetryAfter (windows : AcceptedStartWindows) (tokenHash clientIp : String) (now : ℤ)
    (policy : DemoPolicy) : Option ℕ :=
  match retryAfterFor (windows.byToken tokenHash) policy.acceptedStartsPerToken now policy.window,
      retryAfterFor (windows.byIp clientIp) policy.acceptedStartsPerClientIp now policy.window with
  | some left, some right => some (max left right)
  | some retry, none => some retry
  | none, some retry => some retry
  | none, none => none

/-- `entry(key).or_default().push_back(start)`. -/
def enqueue (queues : String → List AcceptedStart) (key : String) (start : AcceptedStart) :
    String → List AcceptedStart :=
  Function.update queues key (queues key ++ [start])

/-- `DemoRuntime::reserve_accepted_start`, with the windows it leaves. -/
def reserveAcceptedStart (windows : AcceptedStartWindows) (tokenHash clientIp : String) (now : ℤ)
    (policy : DemoPolicy) : Except ℕ DemoAcceptedStart × AcceptedStartWindows :=
  let windows := pruneStartWindows windows now policy
  match quotaRetryAfter windows tokenHash clientIp now policy with
  | some retryAfterSecs => (.error retryAfterSecs, windows)
  | none =>
    let id := (windows.nextId + 1) % 2 ^ 64
    (.ok ⟨id, tokenHash, clientIp⟩,
      { nextId := id
        byToken := enqueue windows.byToken tokenHash ⟨id, now⟩
        byIp := enqueue windows.byIp clientIp ⟨id, now⟩ })

/-- `remove_accepted_start`. -/
def removeAcceptedStart (queues : String → List AcceptedStart) (key : String) (id : ℕ) :
    String → List AcceptedStart :=
  Function.update queues key ((queues key).filter fun start => start.id ≠ id)

/-- `DemoRuntime::release_accepted_start`. -/
def releaseAcceptedStart (windows : AcceptedStartWindows) (accepted : DemoAcceptedStart) :
    AcceptedStartWindows :=
  { windows with
    byToken := removeAcceptedStart windows.byToken accepted.tokenHash accepted.id
    byIp := removeAcceptedStart windows.byIp accepted.clientIp accepted.id }

/-! ### The server -/

/-- An accepted start that was not released. -/
structure HeldStart where
  handle : DemoAcceptedStart
  acceptedAt : ℤ
  deriving DecidableEq

def HeldStart.start (held : HeldStart) : AcceptedStart := ⟨held.handle.id, held.acceptedAt⟩

def HeldStart.token (held : HeldStart) : String := held.handle.tokenHash

def HeldStart.ip (held : HeldStart) : String := held.handle.clientIp

/-- The windows of a server, the time of the last call, the starts that were accepted and not
released since, and how many were accepted at all. -/
structure StartServer where
  windows : AcceptedStartWindows
  now : ℤ
  held : List HeldStart
  accepted : ℕ

/-- A server without starts. -/
def StartServer.initial (now : ℤ) : StartServer := ⟨⟨0, fun _ => [], fun _ => []⟩, now, [], 0⟩

/-- A call, and how it was answered. -/
inductive StartCall where
  | reserve (tokenHash clientIp : String) (now : ℤ) (answer : Except ℕ DemoAcceptedStart)
  | release (accepted : DemoAcceptedStart)
  | cleanup (now : ℤ)

/-- A call at a time not before the last one; a handle is released once, by who holds it. -/
inductive ServeStart (policy : DemoPolicy) : StartServer → StartCall → StartServer → Prop
  | accept {s : StartServer} {tokenHash clientIp : String} {now : ℤ}
      {accepted : DemoAcceptedStart} {windows : AcceptedStartWindows} (hnow : s.now ≤ now)
      (h : reserveAcceptedStart s.windows tokenHash clientIp now policy = (.ok accepted, windows)) :
      ServeStart policy s (.reserve tokenHash clientIp now (.ok accepted))
        ⟨windows, now, s.held ++ [⟨accepted, now⟩], s.accepted + 1⟩
  | refuse {s : StartServer} {tokenHash clientIp : String} {now : ℤ} {retryAfterSecs : ℕ}
      {windows : AcceptedStartWindows} (hnow : s.now ≤ now)
      (h : reserveAcceptedStart s.windows tokenHash clientIp now policy =
        (.error retryAfterSecs, windows)) :
      ServeStart policy s (.reserve tokenHash clientIp now (.error retryAfterSecs))
        { s with windows := windows, now := now }
  | release {s : StartServer} {held : HeldStart} (h : held ∈ s.held) :
      ServeStart policy s (.release held.handle)
        { s with
          windows := releaseAcceptedStart s.windows held.handle
          held := s.held.filter fun other => other.handle ≠ held.handle }
  | cleanup {s : StartServer} {now : ℤ} (hnow : s.now ≤ now) :
      ServeStart policy s (.cleanup now)
        { s with windows := pruneStartWindows s.windows now policy, now := now }

/-! ### Queues that mirror what is held -/

section Queues

variable {held : List HeldStart} {start : HeldStart} {queues : String → List AcceptedStart}
variable {k : HeldStart → String} {cutoff cutoff' window now : ℤ} {limit : ℕ}

/-- The queues are what is held and younger than `cutoff`, by its key. -/
def Mirrors (queues : String → List AcceptedStart) (k : HeldStart → String)
    (held : List HeldStart) (cutoff : ℤ) : Prop :=
  ∀ key, queues key = (held.filter fun h =>
    decide (k h = key) && decide (cutoff < h.acceptedAt)).map HeldStart.start

/-- No key has more than `limit` held starts within a window. -/
def Bounded (limit : ℕ) (window : ℤ) (k : HeldStart → String) (held : List HeldStart) : Prop :=
  ∀ key, Within limit window ((held.filter fun h => decide (k h = key)).map (·.acceptedAt))

/-- The held starts, oldest first. -/
def Sorted (held : List HeldStart) : Prop := held.Pairwise fun a b => a.acceptedAt ≤ b.acceptedAt

theorem Mirrors.prune (h : Mirrors queues k held cutoff) (hsorted : Sorted held)
    (hle : cutoff ≤ cutoff') :
    Mirrors (fun key => pruneQueue cutoff' (queues key)) k held cutoff' := by
  intro key
  have hqueue : (queues key).Pairwise fun a b => a.acceptedAt ≤ b.acceptedAt := by
    rw [h key, List.pairwise_map]
    exact List.Pairwise.filter _ hsorted
  show pruneQueue cutoff' (queues key) = _
  rw [pruneQueue, dropWhile_eq_filter hqueue, h key, List.filter_map, List.filter_filter]
  congr 1
  apply List.filter_congr
  intro other _
  apply Bool.eq_iff_iff.mpr
  simp only [Function.comp_apply, HeldStart.start, Bool.and_eq_true, decide_eq_true_eq]
  constructor
  · intro ⟨hyoung, hkey, _⟩
    exact ⟨hkey, of_decide_eq_true hyoung⟩
  · intro ⟨hkey, hyoung⟩
    exact ⟨decide_eq_true hyoung, hkey, by omega⟩

theorem Mirrors.enqueue (h : Mirrors queues k held cutoff) (hyoung : cutoff < start.acceptedAt) :
    Mirrors (enqueue queues (k start) start.start) k (held ++ [start]) cutoff := by
  intro key
  rw [List.filter_append, List.map_append, ← h key]
  unfold Bhtune.enqueue
  by_cases hkey : k start = key
  · rw [← hkey, Function.update_self]
    simp [hyoung]
  · rw [Function.update_of_ne (Ne.symm hkey)]
    simp [hkey]

/-- Nothing but the released start has its number. -/
theorem Mirrors.remove (h : Mirrors queues k held cutoff)
    (hnumber : ∀ other ∈ held, other.handle.id = start.handle.id → other.handle = start.handle)
    (hkeys : ∀ other : HeldStart, other.handle = start.handle → k other = k start) :
    Mirrors (removeAcceptedStart queues (k start) start.handle.id) k
      (held.filter fun other => other.handle ≠ start.handle) cutoff := by
  intro key
  unfold removeAcceptedStart
  rw [List.filter_filter]
  by_cases hkey : k start = key
  · rw [← hkey, Function.update_self, h (k start), List.filter_map, List.filter_filter]
    congr 1
    apply List.filter_congr
    intro other hother
    have hiff : other.handle.id = start.handle.id ↔ other.handle = start.handle :=
      ⟨hnumber other hother, fun heq => by rw [heq]⟩
    apply Bool.eq_iff_iff.mpr
    simp [HeldStart.start, hiff, and_comm]
  · rw [Function.update_of_ne (Ne.symm hkey), h key]
    congr 1
    apply List.filter_congr
    intro other _
    apply Bool.eq_iff_iff.mpr
    simp only [Bool.and_eq_true, decide_eq_true_eq]
    constructor
    · intro ⟨hother, hyoung⟩
      exact ⟨⟨hother, hyoung⟩, fun heq => hkey ((hkeys other heq).symm.trans hother)⟩
    · exact fun ⟨hboth, _⟩ => hboth

theorem Bounded.concat (h : Bounded limit window k held)
    (hmirrors : Mirrors queues k held (now - window)) (hroom : (queues (k start)).length < limit)
    (hnow : start.acceptedAt = now) : Bounded limit window k (held ++ [start]) := by
  intro key
  rw [List.filter_append, List.map_append]
  by_cases hkey : k start = key
  · have hyoung : ((held.filter fun h => decide (k h = key)).map (·.acceptedAt)).countP
        (fun a => decide (now - window < a)) = (queues (k start)).length := by
      rw [hmirrors, List.length_map, hkey, List.countP_map, List.countP_eq_length_filter,
        List.filter_filter]
      congr 1
      apply List.filter_congr
      intro other _
      exact Bool.and_comm _ _
    have hone : [start].filter (fun h => decide (k h = key)) = [start] := by simp [hkey]
    rw [hone, List.map_singleton, hnow]
    exact (h key).concat (by omega)
  · have hnone : [start].filter (fun h => decide (k h = key)) = [] := by simp [hkey]
    rw [hnone, List.map_nil, List.append_nil]
    exact h key

theorem Bounded.sublist {rest : List HeldStart} (h : Bounded limit window k held)
    (hsub : rest.Sublist held) : Bounded limit window k rest :=
  fun key => (h key).sublist ((hsub.filter _).map _)

end Queues

/-! ### What the windows keep -/

section Invariant

variable {policy : DemoPolicy} {s s' : StartServer} {call : StartCall}

/-- **The quota invariant.** -/
structure StartInv (policy : DemoPolicy) (s : StartServer) : Prop where
  sorted : Sorted s.held
  past : ∀ held ∈ s.held, held.acceptedAt ≤ s.now
  distinct : ∀ a ∈ s.held, ∀ b ∈ s.held, a.handle.id = b.handle.id → a.handle = b.handle
  issued : ∀ held ∈ s.held, held.handle.id ≤ s.windows.nextId
  counted : s.windows.nextId = s.accepted
  mirrored : ∃ cutoff, cutoff + policy.window ≤ s.now ∧
    Mirrors s.windows.byToken HeldStart.token s.held cutoff ∧
    Mirrors s.windows.byIp HeldStart.ip s.held cutoff
  tokens : Bounded policy.acceptedStartsPerToken policy.window HeldStart.token s.held
  ips : Bounded policy.acceptedStartsPerClientIp policy.window HeldStart.ip s.held

theorem retryAfterFor_eq_none_iff {starts : List AcceptedStart} {limit : ℕ} {now window : ℤ}
    (hlimit : 0 < limit) : retryAfterFor starts limit now window = none ↔ starts.length < limit := by
  cases starts with
  | nil => simp [retryAfterFor, hlimit]
  | cons front rest => simp [retryAfterFor]

theorem quotaRetryAfter_eq_none_iff {windows : AcceptedStartWindows} {tokenHash clientIp : String}
    {now : ℤ} : quotaRetryAfter windows tokenHash clientIp now policy = none ↔
      (windows.byToken tokenHash).length < policy.acceptedStartsPerToken ∧
        (windows.byIp clientIp).length < policy.acceptedStartsPerClientIp := by
  rw [← @retryAfterFor_eq_none_iff _ _ now policy.window policy.token_pos,
    ← @retryAfterFor_eq_none_iff _ _ now policy.window policy.ip_pos]
  unfold quotaRetryAfter
  split <;> simp_all

variable {windows windows' : AcceptedStartWindows} {tokenHash clientIp : String} {now : ℤ}
variable {accepted : DemoAcceptedStart} {retryAfterSecs : ℕ}

/-- What an accepted call finds and leaves. -/
theorem reserve_ok
    (h : reserveAcceptedStart windows tokenHash clientIp now policy = (.ok accepted, windows')) :
    quotaRetryAfter (pruneStartWindows windows now policy) tokenHash clientIp now policy = none ∧
      accepted = ⟨(windows.nextId + 1) % 2 ^ 64, tokenHash, clientIp⟩ ∧
      windows' = ⟨accepted.id,
        enqueue (pruneStartWindows windows now policy).byToken tokenHash ⟨accepted.id, now⟩,
        enqueue (pruneStartWindows windows now policy).byIp clientIp ⟨accepted.id, now⟩⟩ := by
  unfold reserveAcceptedStart at h
  dsimp only at h
  split at h
  · cases h
  · rename_i hnone
    cases h
    exact ⟨hnone, rfl, rfl⟩

/-- A refused call only prunes. -/
theorem reserve_error (h : reserveAcceptedStart windows tokenHash clientIp now policy =
    (.error retryAfterSecs, windows')) :
    quotaRetryAfter (pruneStartWindows windows now policy) tokenHash clientIp now policy =
        some retryAfterSecs ∧ windows' = pruneStartWindows windows now policy := by
  unfold reserveAcceptedStart at h
  dsimp only at h
  split at h
  · rename_i hsome
    cases h
    exact ⟨hsome, rfl⟩
  · cases h

theorem StartInv.initial (now : ℤ) : StartInv policy (.initial now) where
  sorted := .nil
  past := nofun
  distinct := nofun
  issued := nofun
  counted := rfl
  mirrored := ⟨now - policy.window, by simp [StartServer.initial], fun _ => rfl, fun _ => rfl⟩
  tokens := fun _ => .nil
  ips := fun _ => .nil

theorem DemoPolicy.window_pos' (policy : DemoPolicy) : 0 < policy.window := by
  have := policy.window_pos
  unfold DemoPolicy.window durationSeconds
  omega

/-- A call later than the last one may prune first. -/
theorem StartInv.prune (h : StartInv policy s) (hnow : s.now ≤ now) :
    StartInv policy { s with windows := pruneStartWindows s.windows now policy, now := now } ∧
      Mirrors (pruneStartWindows s.windows now policy).byToken HeldStart.token s.held
        (now - policy.window) ∧
      Mirrors (pruneStartWindows s.windows now policy).byIp HeldStart.ip s.held
        (now - policy.window) := by
  obtain ⟨cutoff, hcutoff, htoken, hip⟩ := h.mirrored
  have hlater : cutoff ≤ now - policy.window := by omega
  have htoken' := htoken.prune h.sorted hlater
  have hip' := hip.prune h.sorted hlater
  refine ⟨{ h with past := ?_, mirrored := ?_ }, htoken', hip'⟩
  · intro held hheld
    exact (h.past held hheld).trans hnow
  · exact ⟨now - policy.window, by simp, htoken', hip'⟩

/-- **The step lemma**, as long as the numbers have not wrapped. -/
theorem StartInv.step (h : StartInv policy s) (hstep : ServeStart policy s call s')
    (hfew : s'.accepted < 2 ^ 64) : StartInv policy s' := by
  cases hstep with
  | @accept tokenHash clientIp now accepted windows hnow hreserve =>
    obtain ⟨hnone, haccepted, hwindows⟩ := reserve_ok hreserve
    obtain ⟨hpruned, htoken, hip⟩ := h.prune hnow
    obtain ⟨htokenRoom, hipRoom⟩ := quotaRetryAfter_eq_none_iff.mp hnone
    have hid : accepted.id = s.accepted + 1 := by
      rw [haccepted, h.counted]
      exact Nat.mod_eq_of_lt hfew
    have hyoung : now - policy.window < now := by
      have := policy.window_pos'
      omega
    have hbefore : ∀ held ∈ s.held, held.handle.id < accepted.id := by
      intro held hheld
      have := h.issued held hheld
      have := h.counted
      omega
    have hT : accepted.tokenHash = tokenHash := by rw [haccepted]
    have hI : accepted.clientIp = clientIp := by rw [haccepted]
    rw [hwindows]
    constructor
    · refine List.pairwise_append.mpr ⟨h.sorted, by simp, ?_⟩
      intro held hheld other hother
      rw [List.mem_singleton.mp hother]
      exact hpruned.past held hheld
    · intro held hheld
      rcases List.mem_append.mp hheld with hheld | hheld
      · exact hpruned.past held hheld
      · rw [List.mem_singleton.mp hheld]
    · intro a ha b hb hid
      rcases List.mem_append.mp ha with ha | ha <;> rcases List.mem_append.mp hb with hb | hb
      · exact h.distinct a ha b hb hid
      · rw [List.mem_singleton.mp hb] at hid
        exact absurd hid (hbefore a ha).ne
      · rw [List.mem_singleton.mp ha] at hid
        exact absurd hid.symm (hbefore b hb).ne
      · rw [List.mem_singleton.mp ha, List.mem_singleton.mp hb]
    · intro held hheld
      rcases List.mem_append.mp hheld with hheld | hheld
      · exact (hbefore held hheld).le
      · rw [List.mem_singleton.mp hheld]
    · exact hid
    · refine ⟨now - policy.window, by simp, ?_, ?_⟩
      · have := @Mirrors.enqueue _ ⟨accepted, now⟩ _ _ _ htoken hyoung
        rwa [show HeldStart.token ⟨accepted, now⟩ = tokenHash from hT] at this
      · have := @Mirrors.enqueue _ ⟨accepted, now⟩ _ _ _ hip hyoung
        rwa [show HeldStart.ip ⟨accepted, now⟩ = clientIp from hI] at this
    · refine h.tokens.concat htoken ?_ rfl
      rwa [show HeldStart.token ⟨accepted, now⟩ = tokenHash from hT]
    · refine h.ips.concat hip ?_ rfl
      rwa [show HeldStart.ip ⟨accepted, now⟩ = clientIp from hI]
  | refuse hnow hreserve =>
    rw [(reserve_error hreserve).2]
    exact (h.prune hnow).1
  | cleanup hnow => exact (h.prune hnow).1
  | @release held hheld =>
    have hsub : (s.held.filter fun other => other.handle ≠ held.handle).Sublist s.held :=
      List.filter_sublist
    have hnumber := fun other hother => h.distinct other hother held hheld
    obtain ⟨cutoff, hcutoff, htoken, hip⟩ := h.mirrored
    constructor
    · exact h.sorted.sublist hsub
    · exact fun other hother => h.past other (hsub.mem hother)
    · exact fun a ha b hb => h.distinct a (hsub.mem ha) b (hsub.mem hb)
    · exact fun other hother => h.issued other (hsub.mem hother)
    · exact h.counted
    · refine ⟨cutoff, hcutoff, htoken.remove hnumber fun other heq => ?_,
        hip.remove hnumber fun other heq => ?_⟩
      · exact congrArg DemoAcceptedStart.tokenHash heq
      · exact congrArg DemoAcceptedStart.clientIp heq
    · exact h.tokens.sublist hsub
    · exact h.ips.sublist hsub

end Invariant

/-! ### The promised time -/

section Promise

/-- A full queue: its first start expires in `d`. -/
def Expires (starts : List AcceptedStart) (limit : ℕ) (now window d : ℤ) : Prop :=
  limit ≤ starts.length ∧ ∃ front, starts.head? = some front ∧ d = front.acceptedAt + window - now

/-- A call for this token and address waits for a start to expire, in `d`. -/
def Waits (policy : DemoPolicy) (windows : AcceptedStartWindows) (tokenHash clientIp : String)
    (now d : ℤ) : Prop :=
  Expires (windows.byToken tokenHash) policy.acceptedStartsPerToken now policy.window d ∨
    Expires (windows.byIp clientIp) policy.acceptedStartsPerClientIp now policy.window d

/-- What a call waits for is at most a second away or a whole number of seconds, or something it
waits for is a millisecond further than the last whole second of it. -/
def Covered (policy : DemoPolicy) (windows : AcceptedStartWindows) (tokenHash clientIp : String)
    (now : ℤ) : Prop :=
  ∀ d, Waits policy windows tokenHash clientIp now d →
    d % 1000000000 = 0 ∨ d < 1000000000 ∨
      ∃ d', Waits policy windows tokenHash clientIp now d' ∧
        d / 1000000000 * 1000000000 + 1000000 ≤ d'

variable {policy : DemoPolicy} {windows : AcceptedStartWindows} {tokenHash clientIp : String}
variable {starts rest : List AcceptedStart} {limit r : ℕ} {now window d wait : ℤ}

theorem retryAfterFor_eq_some_iff (hlimit : 0 < limit) :
    retryAfterFor starts limit now window = some r ↔
      ∃ d, Expires starts limit now window d ∧ r = promised d := by
  cases starts with
  | nil =>
    constructor
    · intro h
      cases h
    · intro ⟨d, hexpires, _⟩
      exact absurd hexpires.1 (not_le.mpr hlimit)
  | cons front rest =>
    show (if (front :: rest).length < limit then none else some _) = some r ↔ _
    constructor
    · intro h
      by_cases hfull : (front :: rest).length < limit
      · rw [if_pos hfull] at h
        cases h
      · rw [if_neg hfull] at h
        exact ⟨_, ⟨not_lt.mp hfull, front, rfl, rfl⟩, (Option.some.inj h).symm⟩
    · intro ⟨d, ⟨hfull, front', hfront, hd⟩, hr⟩
      cases hfront
      rw [if_neg (not_lt.mpr hfull), hr, hd]

/-- The longest of the promised times is given. -/
theorem quotaRetryAfter_eq_some
    (h : quotaRetryAfter windows tokenHash clientIp now policy = some r) :
    (∃ d, Waits policy windows tokenHash clientIp now d ∧ r = promised d) ∧
      ∀ d, Waits policy windows tokenHash clientIp now d → promised d ≤ r := by
  have htoken := fun r' => @retryAfterFor_eq_some_iff (windows.byToken tokenHash) _ r' now
    policy.window policy.token_pos
  have hip := fun r' => @retryAfterFor_eq_some_iff (windows.byIp clientIp) _ r' now
    policy.window policy.ip_pos
  have hwaits : ∀ r', (∃ d, Waits policy windows tokenHash clientIp now d ∧ r' = promised d) ↔
      retryAfterFor (windows.byToken tokenHash) policy.acceptedStartsPerToken now policy.window =
          some r' ∨
        retryAfterFor (windows.byIp clientIp) policy.acceptedStartsPerClientIp now policy.window =
          some r' := by
    intro r'
    rw [htoken, hip, ← exists_or]
    exact exists_congr fun d => or_and_right
  have hall : (∀ d, Waits policy windows tokenHash clientIp now d → promised d ≤ r) ↔
      ∀ r', (∃ d, Waits policy windows tokenHash clientIp now d ∧ r' = promised d) → r' ≤ r := by
    constructor
    · intro hle r' ⟨d, hd, hr'⟩
      exact hr' ▸ hle d hd
    · exact fun hle d hd => hle _ ⟨d, hd, rfl⟩
  rw [hall, hwaits]
  simp only [hwaits]
  unfold quotaRetryAfter at h
  split at h
  · rename_i left right hleft hright
    cases h
    rw [hleft, hright]
    constructor
    · rcases max_choice left right with h | h <;> simp [h]
    · intro r' hr'
      rcases hr' with h | h
      · exact Option.some.inj h ▸ le_max_left left right
      · exact Option.some.inj h ▸ le_max_right left right
  · rename_i retry hleft hright
    cases h
    simp [hleft, hright]
  · rename_i retry hleft hright
    cases h
    simp [hleft, hright]
  · cases h

/-- **How the promise rounds.** -/
theorem le_promised_iff {d' : ℤ} (hd : 1000000000 ≤ d) (hmod : d % 1000000000 ≠ 0) (hd' : 0 < d') :
    d ≤ durationSeconds (promised d') ↔ d / 1000000000 * 1000000000 + 1000000 ≤ d' := by
  unfold promised durationSeconds
  rw [Int.tdiv_eq_ediv_of_nonneg hd'.le]
  omega

theorem le_promised_self (hd : 0 < d) (h : d % 1000000000 = 0 ∨ d < 1000000000) :
    d ≤ durationSeconds (promised d) := by
  unfold promised durationSeconds
  rw [Int.tdiv_eq_ediv_of_nonneg hd.le]
  omega

/-- **The promise is kept by the clock** where the time is covered. -/
theorem covered_iff (hpos : ∀ d, Waits policy windows tokenHash clientIp now d → 0 < d)
    (h : quotaRetryAfter windows tokenHash clientIp now policy = some r) :
    (∀ d, Waits policy windows tokenHash clientIp now d → d ≤ durationSeconds r) ↔
      Covered policy windows tokenHash clientIp now := by
  obtain ⟨⟨longest, hlongest, hr⟩, hmax⟩ := quotaRetryAfter_eq_some h
  have hmono : ∀ d', Waits policy windows tokenHash clientIp now d' →
      durationSeconds (promised d') ≤ durationSeconds r := by
    intro d' hd'
    have := hmax d' hd'
    unfold durationSeconds
    omega
  refine forall_congr' fun d => imp_congr_right fun hd => ?_
  by_cases hshort : d % 1000000000 = 0 ∨ d < 1000000000
  · have hle := (le_promised_self (hpos d hd) hshort).trans (hmono d hd)
    constructor
    · intro _
      rcases hshort with h | h
      · exact .inl h
      · exact .inr (.inl h)
    · exact fun _ => hle
  · obtain ⟨hmod, hlong⟩ := not_or.mp hshort
    have hiff := fun d' hd' => @le_promised_iff d d' (not_lt.mp hlong) hmod (hpos d' hd')
    constructor
    · intro hle
      rw [hr] at hle
      exact .inr (.inr ⟨longest, hlongest, (hiff longest hlongest).mp hle⟩)
    · intro hcovered
      rcases hcovered with h | h | ⟨d', hd', hle⟩
      · exact absurd h hmod
      · exact absurd h hlong
      · exact ((hiff d' hd').mpr hle).trans (hmono d' hd')

/-- Once the first start of a full queue has expired, there is room, whatever else is gone. -/
theorem length_prune_lt (hsorted : starts.Pairwise fun a b => a.acceptedAt ≤ b.acceptedAt)
    (hlimit : 0 < limit) (hlength : starts.length ≤ limit) (hsub : rest.Sublist starts)
    (hexpires : ∀ d, Expires starts limit now window d → d ≤ wait) :
    (pruneQueue (now + wait - window) rest).length < limit := by
  have hle : (pruneQueue (now + wait - window) rest).length ≤
      (pruneQueue (now + wait - window) starts).length := by
    unfold pruneQueue
    rw [dropWhile_eq_filter hsorted, dropWhile_eq_filter (hsorted.sublist hsub)]
    exact (hsub.filter _).length_le
  refine hle.trans_lt ?_
  cases starts with
  | nil => simpa [pruneQueue] using hlimit
  | cons front tail =>
    by_cases hfull : limit ≤ (front :: tail).length
    · have hfront := hexpires _ ⟨hfull, front, rfl, rfl⟩
      have hgone : pruneQueue (now + wait - window) (front :: tail) =
          pruneQueue (now + wait - window) tail := by
        exact List.dropWhile_cons_of_pos (by simp only [decide_eq_true_eq]; omega)
      have htail : (pruneQueue (now + wait - window) tail).length ≤ tail.length :=
        (List.dropWhile_sublist _).length_le
      rw [hgone]
      simp only [List.length_cons] at hlength
      omega
    · have hall : (pruneQueue (now + wait - window) (front :: tail)).length ≤
          (front :: tail).length := (List.dropWhile_sublist _).length_le
      omega

/-- Before that there is none. -/
theorem le_length_prune (h : Expires starts limit now window d) (hwait : wait < d) :
    limit ≤ (pruneQueue (now + wait - window) starts).length := by
  obtain ⟨hfull, front, hfront, hd⟩ := h
  cases starts with
  | nil => cases hfront
  | cons front' tail =>
    cases hfront
    have hstays : pruneQueue (now + wait - window) (front :: tail) = front :: tail := by
      exact List.dropWhile_cons_of_neg (by simp only [decide_eq_true_eq]; omega)
    rw [hstays]
    exact hfull

end Promise

/-! ### What the quota is for -/

section Law

variable (policy : DemoPolicy)

/-- The queues hold a start with this number. -/
def Queued (queues : String → List AcceptedStart) (id : ℕ) : Prop :=
  ∃ key, ∃ start ∈ queues key, start.id = id

/-- What holds of a server between two calls. -/
structure StateLaw (s : StartServer) : Prop where
  tokens : Bounded policy.acceptedStartsPerToken policy.window HeldStart.token s.held
  ips : Bounded policy.acceptedStartsPerClientIp policy.window HeldStart.ip s.held
  same : ∀ id, Queued s.windows.byToken id ↔ Queued s.windows.byIp id
  unreleased : ∀ id, Queued s.windows.byToken id → ∃ held ∈ s.held, held.handle.id = id

/-- The call accepts a start for this token or this address. -/
def StartCall.AcceptsFor (tokenHash clientIp : String) : StartCall → Prop
  | .reserve tokenHash' clientIp' _ (.ok _) => tokenHash' = tokenHash ∨ clientIp' = clientIp
  | _ => False

/-- Whatever is called until `retryAfterSecs` later, a call then is accepted, unless one for its
token or its address was before. -/
def RetryKept (s : StartServer) (tokenHash clientIp : String) (now : ℤ) (retryAfterSecs : ℕ) :
    Prop :=
  ∀ calls s', Run (ServeStart policy) s calls s' →
    (∀ call ∈ calls, ¬call.AcceptsFor tokenHash clientIp) →
    s'.now ≤ now + durationSeconds retryAfterSecs →
    ∃ accepted, (reserveAcceptedStart s'.windows tokenHash clientIp
      (now + durationSeconds retryAfterSecs) policy).1 = .ok accepted

/-- What holds of a call. -/
structure CallLaw (s : StartServer) (call : StartCall) (s' : StartServer) : Prop where
  fresh : (∀ accepted, call ≠ .release accepted) → ∀ key start,
    start ∈ s'.windows.byToken key ∨ start ∈ s'.windows.byIp key →
    s'.now < start.acceptedAt + policy.window
  refused : ∀ tokenHash clientIp now retryAfterSecs,
    call = .reserve tokenHash clientIp now (.error retryAfterSecs) →
    s'.windows = pruneStartWindows s.windows now policy ∧ s'.held = s.held ∧
      RetryKept policy s' tokenHash clientIp now retryAfterSecs

/-- **The quota law** of a server on which these calls are made. -/
structure StartQuotaLaw (s₀ : StartServer) (calls : List StartCall) : Prop where
  states : ∀ before rest s, calls = before ++ rest → Run (ServeStart policy) s₀ before s →
    StateLaw policy s
  steps : ∀ before call rest s s', calls = before ++ call :: rest →
    Run (ServeStart policy) s₀ before s → ServeStart policy s call s' → CallLaw policy s call s'

/-- Every refusal among the calls comes at a time that the promise covers. -/
def RefusalsCovered (s₀ : StartServer) (calls : List StartCall) : Prop :=
  ∀ before tokenHash clientIp now retryAfterSecs rest s s',
    calls = before ++ .reserve tokenHash clientIp now (.error retryAfterSecs) :: rest →
    Run (ServeStart policy) s₀ before s →
    ServeStart policy s (.reserve tokenHash clientIp now (.error retryAfterSecs)) s' →
    Covered policy (pruneStartWindows s.windows now policy) tokenHash clientIp now

/-- How many of the calls accept a start. -/
def acceptedStarts (calls : List StartCall) : ℕ :=
  calls.countP fun call => match call with
    | .reserve _ _ _ (.ok _) => true
    | _ => false

end Law

section Runs

variable {policy : DemoPolicy} {s s' s₀ : StartServer} {call : StartCall} {calls : List StartCall}
variable {tokenHash clientIp : String} {now : ℤ} {retryAfterSecs : ℕ}

theorem accepted_eq (h : Run (ServeStart policy) s calls s') :
    s'.accepted = s.accepted + acceptedStarts calls := by
  induction h with
  | nil s => rfl
  | cons hstep _ ih =>
    rw [ih]
    unfold acceptedStarts
    cases hstep with
    | accept => simp; omega
    | _ => simp

/-- **The run lemma.** -/
theorem StartInv.run (h : Run (ServeStart policy) s calls s') (h₀ : StartInv policy s)
    (hfew : s.accepted + acceptedStarts calls < 2 ^ 64) : StartInv policy s' := by
  induction h with
  | nil s => exact h₀
  | @cons s s₁ s' call calls hstep hrest ih =>
    have hone := accepted_eq (.cons hstep (.nil s₁))
    have hcount : acceptedStarts (call :: calls) = acceptedStarts [call] + acceptedStarts calls :=
      @List.countP_append _ _ [call] calls
    have hsum : s₁.accepted + acceptedStarts calls < 2 ^ 64 := by omega
    exact ih (h₀.step hstep (by omega)) hsum

theorem Mirrors.queued_iff {held : List HeldStart} {k : HeldStart → String} {cutoff : ℤ} {id : ℕ}
    {queues : String → List AcceptedStart} (h : Mirrors queues k held cutoff) :
    Queued queues id ↔ ∃ start ∈ held, cutoff < start.acceptedAt ∧ start.handle.id = id := by
  constructor
  · intro ⟨key, queued, hqueued, hid⟩
    rw [h key] at hqueued
    obtain ⟨start, hstart, rfl⟩ := List.mem_map.mp hqueued
    obtain ⟨hheld, hyoung⟩ := List.mem_filter.mp hstart
    simp only [Bool.and_eq_true, decide_eq_true_eq] at hyoung
    exact ⟨start, hheld, hyoung.2, hid⟩
  · intro ⟨start, hheld, hyoung, hid⟩
    refine ⟨k start, start.start, ?_, hid⟩
    rw [h (k start)]
    exact List.mem_map_of_mem (List.mem_filter.mpr ⟨hheld, by simpa using hyoung⟩)

theorem StartInv.law (h : StartInv policy s) : StateLaw policy s := by
  obtain ⟨cutoff, _, htoken, hip⟩ := h.mirrored
  refine ⟨h.tokens, h.ips, fun id => htoken.queued_iff.trans hip.queued_iff.symm, ?_⟩
  intro id hqueued
  obtain ⟨held, hheld, _, hid⟩ := htoken.queued_iff.mp hqueued
  exact ⟨held, hheld, hid⟩

theorem Mirrors.young {held : List HeldStart} {k : HeldStart → String} {cutoff : ℤ}
    {queues : String → List AcceptedStart} (h : Mirrors queues k held cutoff) {key : String}
    {start : AcceptedStart} (hstart : start ∈ queues key) : cutoff < start.acceptedAt := by
  rw [h key] at hstart
  obtain ⟨held, hheld, rfl⟩ := List.mem_map.mp hstart
  have hyoung := (List.mem_filter.mp hheld).2
  simp only [Bool.and_eq_true, decide_eq_true_eq] at hyoung
  exact hyoung.2

/-- A queue is no longer than its limit. -/
theorem Mirrors.length_le {held : List HeldStart} {k : HeldStart → String} {limit : ℕ} {window : ℤ}
    {queues : String → List AcceptedStart} (h : Mirrors queues k held (now - window))
    (hbounded : Bounded limit window k held) (hpast : ∀ start ∈ held, start.acceptedAt ≤ now)
    (key : String) : (queues key).length ≤ limit := by
  have hwithin := hbounded key (now - window + 1)
  rw [List.countP_map, List.countP_eq_length_filter, List.filter_filter] at hwithin
  rw [h key, List.length_map]
  refine (List.Sublist.length_le ?_).trans hwithin
  have hsame : held.filter (fun start => decide (k start = key) &&
      decide (now - window < start.acceptedAt)) = held.filter fun start =>
        ((fun a => decide (now - window + 1 ≤ a) && decide (a < now - window + 1 + window)) ∘
          (·.acceptedAt)) start && decide (k start = key) := by
    apply List.filter_congr
    intro start hstart
    have hle := hpast start hstart
    apply Bool.eq_iff_iff.mpr
    simp only [Function.comp_apply, Bool.and_eq_true, decide_eq_true_eq]
    constructor
    · intro ⟨hkey, hyoung⟩
      exact ⟨⟨by omega, by omega⟩, hkey⟩
    · intro ⟨⟨hyoung, _⟩, hkey⟩
      exact ⟨hkey, by omega⟩
  rw [hsame]

/-- A call that accepts nothing for a key adds nothing to its queue. -/
theorem queues_sublist (h : ServeStart policy s call s')
    (hother : ¬call.AcceptsFor tokenHash clientIp) :
    (s'.windows.byToken tokenHash).Sublist (s.windows.byToken tokenHash) ∧
      (s'.windows.byIp clientIp).Sublist (s.windows.byIp clientIp) := by
  have hpruned : ∀ now, ((pruneStartWindows s.windows now policy).byToken tokenHash).Sublist
      (s.windows.byToken tokenHash) ∧ ((pruneStartWindows s.windows now policy).byIp
        clientIp).Sublist (s.windows.byIp clientIp) :=
    fun now => ⟨List.dropWhile_sublist _, List.dropWhile_sublist _⟩
  have hremoved : ∀ (queues : String → List AcceptedStart) key key' id,
      (removeAcceptedStart queues key id key').Sublist (queues key') := by
    intro queues key key' id
    unfold removeAcceptedStart
    by_cases hkey : key' = key
    · rw [hkey, Function.update_self]
      exact List.filter_sublist
    · rw [Function.update_of_ne hkey]
  cases h with
  | accept hnow hreserve =>
    obtain ⟨_, _, hwindows⟩ := reserve_ok hreserve
    obtain ⟨htoken, hip⟩ := not_or.mp hother
    rw [hwindows]
    unfold enqueue
    dsimp only
    rw [Function.update_of_ne (Ne.symm htoken), Function.update_of_ne (Ne.symm hip)]
    exact hpruned _
  | refuse hnow hreserve =>
    rw [(reserve_error hreserve).2]
    exact hpruned _
  | release hheld => exact ⟨hremoved _ _ _ _, hremoved _ _ _ _⟩
  | cleanup hnow => exact hpruned _

theorem queues_sublist_run (h : Run (ServeStart policy) s calls s')
    (hother : ∀ call ∈ calls, ¬call.AcceptsFor tokenHash clientIp) :
    (s'.windows.byToken tokenHash).Sublist (s.windows.byToken tokenHash) ∧
      (s'.windows.byIp clientIp).Sublist (s.windows.byIp clientIp) := by
  induction h with
  | nil s => exact ⟨List.Sublist.refl _, List.Sublist.refl _⟩
  | cons hstep _ ih =>
    obtain ⟨htoken, hip⟩ := queues_sublist hstep (hother _ List.mem_cons_self)
    obtain ⟨htoken', hip'⟩ := ih fun call hcall => hother call (List.mem_cons_of_mem _ hcall)
    exact ⟨htoken'.trans htoken, hip'.trans hip⟩

theorem reserve_ok_iff {windows : AcceptedStartWindows} :
    (∃ accepted, (reserveAcceptedStart windows tokenHash clientIp now policy).1 = .ok accepted) ↔
      (pruneQueue (now - policy.window) (windows.byToken tokenHash)).length <
          policy.acceptedStartsPerToken ∧
        (pruneQueue (now - policy.window) (windows.byIp clientIp)).length <
          policy.acceptedStartsPerClientIp := by
  have hnone := @quotaRetryAfter_eq_none_iff policy (pruneStartWindows windows now policy)
    tokenHash clientIp now
  rw [show (pruneQueue (now - policy.window) (windows.byToken tokenHash)).length <
      policy.acceptedStartsPerToken ∧ (pruneQueue (now - policy.window)
        (windows.byIp clientIp)).length < policy.acceptedStartsPerClientIp ↔ _ from hnone.symm]
  unfold reserveAcceptedStart
  dsimp only
  cases quotaRetryAfter (pruneStartWindows windows now policy) tokenHash clientIp now policy with
  | none => simp
  | some retry => simp

/-- **A promise is kept** if and only if every queue the call waits for has room by then. -/
theorem retryKept_iff (h : StartInv policy s) (hnow : s.now ≤ now)
    (hretry : quotaRetryAfter (pruneStartWindows s.windows now policy) tokenHash clientIp now
      policy = some retryAfterSecs) :
    RetryKept policy { s with windows := pruneStartWindows s.windows now policy, now := now }
        tokenHash clientIp now retryAfterSecs ↔
      Covered policy (pruneStartWindows s.windows now policy) tokenHash clientIp now := by
  obtain ⟨hpruned, htoken, hip⟩ := h.prune hnow
  have hpos : ∀ d, Waits policy (pruneStartWindows s.windows now policy) tokenHash clientIp now d →
      0 < d := by
    intro d hd
    rcases hd with ⟨_, front, hfront, hd⟩ | ⟨_, front, hfront, hd⟩
    · have := htoken.young (List.mem_of_mem_head? hfront)
      omega
    · have := hip.young (List.mem_of_mem_head? hfront)
      omega
  rw [← covered_iff hpos hretry]
  constructor
  · intro hkept d hd
    by_contra hwait
    obtain ⟨hroomToken, hroomIp⟩ := reserve_ok_iff.mp (hkept [] _ (.nil _) (by simp) (by
      unfold durationSeconds
      dsimp only
      omega))
    rcases hd with hd | hd
    · exact absurd hroomToken (not_lt.mpr (le_length_prune hd (not_le.mp hwait)))
    · exact absurd hroomIp (not_lt.mpr (le_length_prune hd (not_le.mp hwait)))
  · intro hwaits calls s' hrun hother _
    obtain ⟨hsubToken, hsubIp⟩ := queues_sublist_run hrun hother
    have hsorted : ∀ {k : HeldStart → String} {queues : String → List AcceptedStart} {cutoff : ℤ},
        Mirrors queues k s.held cutoff → ∀ key,
        (queues key).Pairwise fun a b => a.acceptedAt ≤ b.acceptedAt := by
      intro k queues cutoff hmirrors key
      rw [hmirrors key, List.pairwise_map]
      exact h.sorted.filter _
    rw [reserve_ok_iff]
    constructor
    · exact length_prune_lt (hsorted htoken tokenHash) policy.token_pos
        (htoken.length_le h.tokens hpruned.past tokenHash) hsubToken fun d hd => hwaits d (.inl hd)
    · exact length_prune_lt (hsorted hip clientIp) policy.ip_pos
        (hip.length_le h.ips hpruned.past clientIp) hsubIp fun d hd => hwaits d (.inr hd)

/-- What every call does besides. -/
theorem StartInv.fresh (h : StartInv policy s) (hstep : ServeStart policy s call s')
    (hprunes : ∀ accepted, call ≠ .release accepted) (key : String) (start : AcceptedStart)
    (hstart : start ∈ s'.windows.byToken key ∨ start ∈ s'.windows.byIp key) :
    s'.now < start.acceptedAt + policy.window := by
  have hpruned : ∀ now, s.now ≤ now →
      start ∈ (pruneStartWindows s.windows now policy).byToken key ∨
        start ∈ (pruneStartWindows s.windows now policy).byIp key →
      now < start.acceptedAt + policy.window := by
    intro now hnow hstart
    obtain ⟨_, htoken, hip⟩ := h.prune hnow
    rcases hstart with hstart | hstart
    · have := htoken.young hstart
      omega
    · have := hip.young hstart
      omega
  have hwindow := policy.window_pos'
  cases hstep with
  | @accept tokenHash clientIp now accepted windows hnow hreserve =>
    obtain ⟨_, _, hwindows⟩ := reserve_ok hreserve
    have hadded : ∀ (queues : String → List AcceptedStart) key',
        start ∈ enqueue queues key' ⟨accepted.id, now⟩ key →
        start ∈ queues key ∨ start = ⟨accepted.id, now⟩ := by
      intro queues key' hmem
      unfold enqueue at hmem
      by_cases hkey : key = key'
      · rw [hkey, Function.update_self] at hmem
        simpa [hkey] using hmem
      · rw [Function.update_of_ne hkey] at hmem
        exact .inl hmem
    rw [hwindows] at hstart
    rcases hstart with hmem | hmem
    · rcases hadded _ _ hmem with hmem | rfl
      · exact hpruned now hnow (.inl hmem)
      · show now < now + policy.window
        omega
    · rcases hadded _ _ hmem with hmem | rfl
      · exact hpruned now hnow (.inr hmem)
      · show now < now + policy.window
        omega
  | refuse hnow hreserve =>
    rw [(reserve_error hreserve).2] at hstart
    exact hpruned _ hnow hstart
  | release hheld => exact absurd rfl (hprunes _)
  | cleanup hnow => exact hpruned _ hnow hstart

end Runs

/-- **The start quota.**  Whatever a server is asked, with fewer than `2 ^ 64` starts accepted: it
keeps the quota law if and only if every refusal comes at a time that the promise covers. -/
theorem startQuota_iff (policy : DemoPolicy) (now : ℤ) (calls : List StartCall)
    (hfew : acceptedStarts calls < 2 ^ 64) :
    StartQuotaLaw policy (.initial now) calls ↔ RefusalsCovered policy (.initial now) calls := by
  have hinv : ∀ before rest s, calls = before ++ rest →
      Run (ServeStart policy) (.initial now) before s → StartInv policy s := by
    intro before rest s hcalls hrun
    refine (StartInv.initial now).run hrun ?_
    have hcount : acceptedStarts calls = acceptedStarts before + acceptedStarts rest := by
      rw [hcalls]
      exact List.countP_append
    show 0 + acceptedStarts before < 2 ^ 64
    omega
  constructor
  · intro hlaw before tokenHash clientIp now' retryAfterSecs rest s s' hcalls hrun hstep
    have hkept := ((hlaw.steps before _ rest s s' hcalls hrun hstep).refused _ _ _ _ rfl).2.2
    cases hstep with
    | refuse hnow hreserve =>
      obtain ⟨hretry, hwindows⟩ := reserve_error hreserve
      rw [hwindows] at hkept
      exact (retryKept_iff (hinv before _ s hcalls hrun) hnow hretry).mp hkept
  · intro hcovered
    refine ⟨fun before rest s hcalls hrun => (hinv before rest s hcalls hrun).law, ?_⟩
    intro before call rest s s' hcalls hrun hstep
    have hs := hinv before _ s hcalls hrun
    refine ⟨hs.fresh hstep, ?_⟩
    intro tokenHash clientIp now' retryAfterSecs hcall
    subst hcall
    have htime := hcovered before tokenHash clientIp now' retryAfterSecs rest s s' hcalls hrun hstep
    cases hstep with
    | refuse hnow hreserve =>
      obtain ⟨hretry, hwindows⟩ := reserve_error hreserve
      refine ⟨hwindows, rfl, ?_⟩
      rw [hwindows]
      exact (retryKept_iff hs hnow hretry).mpr htime

/-- `n` starts of one visitor. -/
def visitorStarts (n : ℕ) : List StartCall :=
  (List.range n).map fun m => .reserve "token" "ip" 0 (.ok ⟨m + 1, "token", "ip"⟩)

/-- The server after them. -/
def afterStarts : ℕ → StartServer
  | 0 => .initial 0
  | n + 1 =>
    ⟨(reserveAcceptedStart (afterStarts n).windows "token" "ip" 0 demoPolicy).2, 0,
      (afterStarts n).held ++ [⟨⟨n + 1, "token", "ip"⟩, 0⟩], (afterStarts n).accepted + 1⟩

theorem eq_mk_of_fst {α β : Type} {p : α × β} {a : α} (h : p.1 = a) : p = (a, p.2) := by
  rw [← h]

theorem run_afterStarts (n : ℕ)
    (h : ∀ m < n, (reserveAcceptedStart (afterStarts m).windows "token" "ip" 0 demoPolicy).1 =
      .ok ⟨m + 1, "token", "ip"⟩) :
    Run (ServeStart demoPolicy) (.initial 0) (visitorStarts n) (afterStarts n) := by
  induction n with
  | zero => exact .nil _
  | succ n ih =>
    have hnow : (afterStarts n).now ≤ 0 := by cases n <;> exact le_rfl
    have hstep := ServeStart.accept hnow (eq_mk_of_fst (h n (Nat.lt_succ_self n)))
    unfold visitorStarts
    rw [List.range_succ, List.map_append]
    exact (ih fun m hm => h m (hm.trans (Nat.lt_succ_self n))).concat hstep

/-- Six starts, and a seventh when the first has a second and a nanosecond left. -/
def seventhStart : List StartCall :=
  visitorStarts 6 ++ [.reserve "token" "ip" 598999999999 (.error 1)]

theorem startQuota_iff_seventhStart : acceptedStarts seventhStart < 2 ^ 64 ∧
    (StartQuotaLaw demoPolicy (.initial 0) seventhStart ↔
      RefusalsCovered demoPolicy (.initial 0) seventhStart) :=
  ⟨by decide, startQuota_iff demoPolicy 0 seventhStart (by decide)⟩

/-- The seventh is told to come back after one second, and refused again then. -/
theorem startQuota_seventhStart : ¬StartQuotaLaw demoPolicy (.initial 0) seventhStart := by
  intro hlaw
  have hrun : Run (ServeStart demoPolicy) (.initial 0) (visitorStarts 6) (afterStarts 6) :=
    run_afterStarts 6 (by decide)
  have hretry : (reserveAcceptedStart (afterStarts 6).windows "token" "ip" 598999999999
      demoPolicy).1 = .error 1 := by decide +kernel
  have hstep := ServeStart.refuse (show (afterStarts 6).now ≤ 598999999999 by decide)
    (eq_mk_of_fst hretry)
  have hkept := ((hlaw.steps _ _ [] _ _ rfl hrun hstep).refused _ _ _ _ rfl).2.2
  obtain ⟨accepted, h⟩ := hkept [] _ (.nil _) (by simp) (by decide)
  have hagain : (reserveAcceptedStart (reserveAcceptedStart (afterStarts 6).windows "token" "ip"
      598999999999 demoPolicy).2 "token" "ip" 599999999999 demoPolicy).1 = .error 1 := by
    decide +kernel
  exact absurd (h.symm.trans hagain) nofun

end Bhtune
