import Bhtune.Library.ActionRun
import Mathlib.Data.List.Nodup
import Mathlib.Data.List.Perm.Basic
import Mathlib.Logic.Function.Basic
import Mathlib.Logic.Relation

/-!
# The permits of a Demo visitor

A visitor token may have so many runs, and so many event streams, at one time.  Each token has a
semaphore of its own in a map behind a mutex.  Every call sweeps the map first: a semaphore to which
the map alone refers, and whose permits are all free, is dropped from it.

* `permitStep` — one step of a map and its clients: a read of the sweep, a permit taken or released,
  a reference dropped;
* `PermitInv` — no semaphore that anyone refers to leaves the map;
* `QuotaStep`, `permitStep_quota`, `quota_le` — what the permits are for, and that every step keeps
  to it;
* `visitorPermits_bounded` — every interleaving of the clients of both maps.
-/

namespace Bhtune

open ActionRun

/-! ### A map of semaphores and its clients -/

/-- What a client makes of its reference to a semaphore: it has yet to ask for a permit, it has one
outstanding, or it has none and is about to drop the reference. -/
inductive PermitGrip where
  | inFlight
  | outstanding
  | spent
  deriving DecidableEq

/-- A reference to the semaphore of a token outside of the map. -/
structure PermitHolder where
  token : String
  address : ℕ
  grip : PermitGrip
  deriving DecidableEq

/-- A `retain` under the mutex: for which token it was called, if not for a cleanup, the entries it
has yet to visit, and whether the map was found to be alone in referring to the first of them. -/
structure PermitSweep where
  token : Option String
  todo : List (String × ℕ)
  alone : Bool
  deriving DecidableEq

/-- `visitor_run_permits` or `visitor_sse_permits` with the semaphores, which are known by their
address, and the clients that refer to them. -/
structure VisitorPermits where
  /-- `available_permits`. -/
  available : ℕ → ℕ
  next : ℕ
  entries : List (String × ℕ)
  holders : List PermitHolder
  /-- The call that holds the mutex. -/
  sweep : Option PermitSweep

/-- A map without a semaphore. -/
def VisitorPermits.initial : VisitorPermits := ⟨fun _ => 0, 0, [], [], none⟩

/-- `Arc::strong_count`. -/
def VisitorPermits.strongCount (s : VisitorPermits) (address : ℕ) : ℕ :=
  s.entries.countP (fun e => e.2 = address) + s.holders.countP (fun h => h.address = address)

/-- The permits of a token that are outstanding. -/
def VisitorPermits.outstanding (s : VisitorPermits) (token : String) : ℕ :=
  s.holders.countP fun h => h.token = token ∧ h.grip = .outstanding

/-- What happens next at a map. -/
inductive PermitAction where
  /-- `visitor_semaphore` for a token, or a cleanup, takes the mutex; `order` is the order in which
  the map will be visited. -/
  | lock (token : Option String) (order : List (String × ℕ))
  /-- `retain` reads a strong count. -/
  | readCount
  /-- `retain` reads the available permits, and keeps the entry or drops it. -/
  | readAvailable
  /-- The `retain` is over: the entry of the token is made where there is none, its semaphore is
  cloned, and the mutex is left. -/
  | unlock
  /-- `try_acquire_owned`. -/
  | tryAcquire (holder : ℕ)
  /-- A permit is dropped: it is given back. -/
  | release (holder : ℕ)
  /-- The reference that came with a permit, or with none, is dropped. -/
  | dropArc (holder : ℕ)
  deriving DecidableEq

/-- The reference that `visitor_semaphore` hands out, once the sweep is over. -/
def VisitorPermits.cloneFor (limit : ℕ) (s : VisitorPermits) (token : String) : VisitorPermits :=
  match s.entries.find? fun e => e.1 = token with
  | some e => { s with holders := s.holders ++ [⟨token, e.2, .inFlight⟩] }
  | none => { s with
      available := Function.update s.available s.next limit
      next := s.next + 1
      entries := s.entries ++ [(token, s.next)]
      holders := s.holders ++ [⟨token, s.next, .inFlight⟩] }

/-- One step, where it is possible. -/
def permitStep (limit : ℕ) (s : VisitorPermits) : PermitAction → Option VisitorPermits
  | .lock token order =>
    if s.sweep = none ∧ order.Perm s.entries then
      some { s with sweep := some ⟨token, order, false⟩ }
    else none
  | .readCount =>
    match s.sweep with
    | some ⟨token, e :: todo, false⟩ =>
      if 1 < s.strongCount e.2 then some { s with sweep := some ⟨token, todo, false⟩ }
      else some { s with sweep := some ⟨token, e :: todo, true⟩ }
    | _ => none
  | .readAvailable =>
    match s.sweep with
    | some ⟨token, e :: todo, true⟩ =>
      if s.available e.2 < limit then some { s with sweep := some ⟨token, todo, false⟩ }
      else some { s with entries := s.entries.erase e, sweep := some ⟨token, todo, false⟩ }
    | _ => none
  | .unlock =>
    match s.sweep with
    | some ⟨none, [], false⟩ => some { s with sweep := none }
    | some ⟨some token, [], false⟩ => some (({ s with sweep := none }).cloneFor limit token)
    | _ => none
  | .tryAcquire i =>
    match s.holders[i]? with
    | some ⟨token, address, .inFlight⟩ =>
      if 0 < s.available address then
        some { s with
          available := Function.update s.available address (s.available address - 1)
          holders := s.holders.set i ⟨token, address, .outstanding⟩ }
      else some { s with holders := s.holders.set i ⟨token, address, .spent⟩ }
    | _ => none
  | .release i =>
    match s.holders[i]? with
    | some ⟨token, address, .outstanding⟩ =>
      some { s with
        available := Function.update s.available address (s.available address + 1)
        holders := s.holders.set i ⟨token, address, .spent⟩ }
    | _ => none
  | .dropArc i =>
    match s.holders[i]? with
    | some ⟨_, _, .spent⟩ => some { s with holders := s.holders.eraseIdx i }
    | _ => none

/-! ### What every step keeps -/

/-- The permits of a semaphore that are outstanding. -/
def VisitorPermits.taken (s : VisitorPermits) (address : ℕ) : ℕ :=
  s.holders.countP fun h => h.address = address ∧ h.grip = .outstanding

/-- Each semaphore that anyone refers to is the one its token has in the map, and its permits are
available or outstanding. -/
structure PermitInv (limit : ℕ) (s : VisitorPermits) : Prop where
  tokens : (s.entries.map (·.1)).Nodup
  addresses : (s.entries.map (·.2)).Nodup
  allocated : ∀ e ∈ s.entries, e.2 < s.next
  held : ∀ h ∈ s.holders, (h.token, h.address) ∈ s.entries
  counted : ∀ e ∈ s.entries, s.available e.2 + s.taken e.2 = limit
  swept : ∀ sweep ∈ s.sweep, sweep.todo.Nodup ∧ (∀ e ∈ sweep.todo, e ∈ s.entries) ∧
    (sweep.alone = true → ∃ e ∈ sweep.todo.head?, ∀ h ∈ s.holders, h.address ≠ e.2)

section Holders

variable {holders : List PermitHolder} {i : ℕ} {h h' : PermitHolder}

/-- The clients before and after one of them. -/
theorem holders_split (hi : holders[i]? = some h) :
    ∃ before after, holders = before ++ h :: after ∧ holders.eraseIdx i = before ++ after ∧
      ∀ h', holders.set i h' = before ++ h' :: after := by
  induction holders generalizing i with
  | nil => simp at hi
  | cons x rest ih =>
    cases i with
    | zero =>
      obtain rfl : x = h := by simpa using hi
      exact ⟨[], rest, rfl, rfl, fun _ => rfl⟩
    | succ i =>
      obtain ⟨before, after, rfl, herase, hset⟩ := ih (by simpa using hi)
      refine ⟨x :: before, after, rfl, ?_, fun h' => ?_⟩
      · rw [List.eraseIdx_cons_succ, herase, List.cons_append]
      · rw [List.set_cons_succ, hset, List.cons_append]

end Holders

theorem permitInv_initial (limit : ℕ) : PermitInv limit .initial where
  tokens := List.nodup_nil
  addresses := List.nodup_nil
  allocated := nofun
  held := nofun
  counted := nofun
  swept := nofun

section Steps

variable {limit : ℕ} {s s' : VisitorPermits} {token : String} {address i : ℕ}

/-- A token has one semaphore. -/
theorem PermitInv.address_eq (h : PermitInv limit s) {a b : ℕ} (ha : (token, a) ∈ s.entries)
    (hb : (token, b) ∈ s.entries) : a = b := by
  have hinj := List.inj_on_of_nodup_map h.tokens ha hb rfl
  exact congrArg Prod.snd hinj

/-- A semaphore belongs to one token. -/
theorem PermitInv.token_eq (h : PermitInv limit s) {t u : String} (ht : (t, address) ∈ s.entries)
    (hu : (u, address) ∈ s.entries) : t = u := by
  have hinj := List.inj_on_of_nodup_map h.addresses ht hu rfl
  exact congrArg Prod.fst hinj

/-- The outstanding permits of a token are those of its semaphore. -/
theorem PermitInv.outstanding_eq (h : PermitInv limit s) (hmem : (token, address) ∈ s.entries) :
    s.outstanding token = s.taken address := by
  refine List.countP_congr fun holder hholder => ?_
  have hheld := h.held holder hholder
  simp only [decide_eq_true_eq, and_congr_left_iff]
  intro _
  constructor
  · rintro rfl
    exact h.address_eq hheld hmem
  · rintro rfl
    exact h.token_eq hheld hmem

/-- A token without a semaphore has no permit outstanding. -/
theorem PermitInv.outstanding_of_absent (h : PermitInv limit s)
    (hnone : ∀ e ∈ s.entries, e.1 ≠ token) : s.outstanding token = 0 := by
  refine List.countP_eq_zero.mpr fun holder hholder => ?_
  have hne := hnone _ (h.held holder hholder)
  simp [hne]

/-- **No token has more permits outstanding than the limit.** -/
theorem PermitInv.outstanding_le (h : PermitInv limit s) (token : String) :
    s.outstanding token ≤ limit := by
  by_cases hentry : ∃ e ∈ s.entries, e.1 = token
  · obtain ⟨⟨_, address⟩, hmem, rfl⟩ := hentry
    have hcounted : s.available address + s.taken address = limit := h.counted _ hmem
    rw [h.outstanding_eq hmem]
    omega
  · rw [h.outstanding_of_absent fun e he heq => hentry ⟨e, he, heq⟩]
    exact Nat.zero_le limit

/-! ### The steps of the clients -/

/-- A client that changes what it makes of its reference refers to the same semaphore. -/
theorem PermitInv.regrip (h : PermitInv limit s) {grip grip' : PermitGrip}
    (hi : s.holders[i]? = some ⟨token, address, grip⟩) {available : ℕ → ℕ}
    (havailable : available address + (if grip' = .outstanding then 1 else 0) =
      s.available address + (if grip = .outstanding then 1 else 0))
    (hother : ∀ a, a ≠ address → available a = s.available a) :
    PermitInv limit { s with
      available := available, holders := s.holders.set i ⟨token, address, grip'⟩ } := by
  obtain ⟨before, after, hsplit, -, hset⟩ := holders_split hi
  refine ⟨h.tokens, h.addresses, h.allocated, ?_, ?_, ?_⟩
  · intro holder hholder
    rw [hset] at hholder
    have hold : ∀ x ∈ before ++ ⟨token, address, grip⟩ :: after,
        (x.token, x.address) ∈ s.entries := fun x hx => h.held x (hsplit ▸ hx)
    rcases List.mem_append.mp hholder with hmem | hmem
    · exact hold holder (List.mem_append_left _ hmem)
    · rcases List.mem_cons.mp hmem with rfl | hmem
      · exact hold ⟨token, address, grip⟩ (List.mem_append_right _ List.mem_cons_self)
      · exact hold holder (List.mem_append_right _ (List.mem_cons_of_mem _ hmem))
  · intro e he
    have hcounted := h.counted e he
    show available e.2 + List.countP _ (s.holders.set i ⟨token, address, grip'⟩) = limit
    unfold VisitorPermits.taken at hcounted
    rw [hset]
    rw [hsplit] at hcounted
    simp only [List.countP_append, List.countP_cons] at hcounted ⊢
    by_cases ha : e.2 = address
    · rw [← ha] at havailable
      simp only [← ha, true_and, decide_eq_true_eq] at hcounted ⊢
      omega
    · rw [hother _ ha]
      have hne : address ≠ e.2 := fun heq => ha heq.symm
      simp only [hne, false_and, decide_false] at hcounted ⊢
      simpa using hcounted
  · intro sweep hsweep
    obtain ⟨hnodup, hsub, halone⟩ := h.swept sweep hsweep
    refine ⟨hnodup, hsub, fun hlone => ?_⟩
    obtain ⟨e, he, hfree⟩ := halone hlone
    refine ⟨e, he, fun holder hholder => ?_⟩
    rw [hset] at hholder
    have hold : ∀ x ∈ before ++ ⟨token, address, grip⟩ :: after, x.address ≠ e.2 :=
      fun x hx => hfree x (hsplit ▸ hx)
    rcases List.mem_append.mp hholder with hmem | hmem
    · exact hold holder (List.mem_append_left _ hmem)
    · rcases List.mem_cons.mp hmem with rfl | hmem
      · exact hold ⟨token, address, grip⟩ (List.mem_append_right _ List.mem_cons_self)
      · exact hold holder (List.mem_append_right _ (List.mem_cons_of_mem _ hmem))

/-- A reference without a permit is dropped. -/
theorem PermitInv.drop (h : PermitInv limit s)
    (hi : s.holders[i]? = some ⟨token, address, .spent⟩) :
    PermitInv limit { s with holders := s.holders.eraseIdx i } := by
  obtain ⟨before, after, hsplit, herase, -⟩ := holders_split hi
  have hsub : ∀ x ∈ s.holders.eraseIdx i, x ∈ s.holders := fun x hx =>
    (List.eraseIdx_sublist _ _).subset hx
  refine ⟨h.tokens, h.addresses, h.allocated, fun holder hholder => h.held holder (hsub _ hholder),
    ?_, ?_⟩
  · intro e he
    have hcounted := h.counted e he
    show s.available e.2 + List.countP _ (s.holders.eraseIdx i) = limit
    unfold VisitorPermits.taken at hcounted
    rw [herase]
    rw [hsplit] at hcounted
    simpa using hcounted
  · intro sweep hsweep
    obtain ⟨hnodup, hmem, halone⟩ := h.swept sweep hsweep
    refine ⟨hnodup, hmem, fun hlone => ?_⟩
    obtain ⟨e, he, hfree⟩ := halone hlone
    exact ⟨e, he, fun holder hholder => hfree holder (hsub _ hholder)⟩

/-! ### The steps of a sweep -/

/-- A sweep goes on. -/
theorem PermitInv.swept_on (h : PermitInv limit s) {sweep : Option PermitSweep}
    (hsweep : ∀ x ∈ sweep, x.todo.Nodup ∧ (∀ e ∈ x.todo, e ∈ s.entries) ∧
      (x.alone = true → ∃ e ∈ x.todo.head?, ∀ h ∈ s.holders, h.address ≠ e.2)) :
    PermitInv limit { s with sweep := sweep } :=
  ⟨h.tokens, h.addresses, h.allocated, h.held, h.counted, hsweep⟩

/-- A semaphore that no client refers to leaves the map. -/
theorem PermitInv.evict (h : PermitInv limit s) {e : String × ℕ}
    {todo : List (String × ℕ)} {caller : Option String}
    (hsweep : s.sweep = some ⟨caller, e :: todo, true⟩) :
    PermitInv limit { s with
      entries := s.entries.erase e, sweep := some ⟨caller, todo, false⟩ } := by
  obtain ⟨hnodup, hmem, halone⟩ := h.swept _ hsweep
  have hfree : ∀ holder ∈ s.holders, holder.address ≠ e.2 := by
    obtain ⟨_, ⟨⟩, hfree⟩ := halone rfl
    exact hfree
  have hentries : s.entries.Nodup := List.Nodup.of_map _ h.tokens
  have hsub : (s.entries.erase e).Sublist s.entries := List.erase_sublist
  refine ⟨h.tokens.sublist (hsub.map _), h.addresses.sublist (hsub.map _),
    fun x hx => h.allocated x (hsub.subset hx), fun holder hholder => ?_,
    fun x hx => h.counted x (hsub.subset hx), ?_⟩
  · refine (List.mem_erase_of_ne ?_).mpr (h.held holder hholder)
    intro heq
    exact hfree holder hholder (congrArg Prod.snd heq)
  · rintro _ ⟨⟩
    obtain ⟨hnot, hrest⟩ := List.nodup_cons.mp hnodup
    refine ⟨hrest, fun x hx => ?_, nofun⟩
    have hne : x ≠ e := fun heq => hnot (by rw [← heq]; exact hx)
    exact (List.mem_erase_of_ne hne).mpr (hmem x (List.mem_cons_of_mem _ hx))

/-- Another client refers to the semaphore its token has in the map. -/
theorem PermitInv.append_holder (h : PermitInv limit s) (hidle : s.sweep = none)
    (hmem : (token, address) ∈ s.entries) :
    PermitInv limit { s with holders := s.holders ++ [⟨token, address, .inFlight⟩] } := by
  refine ⟨h.tokens, h.addresses, h.allocated, ?_, ?_, ?_⟩
  · intro holder hholder
    rcases List.mem_append.mp hholder with hx | hx
    · exact h.held holder hx
    · obtain rfl := List.mem_singleton.mp hx
      exact hmem
  · intro e he
    have hcounted := h.counted e he
    show s.available e.2 + List.countP _ (s.holders ++ [_]) = limit
    rw [List.countP_append]
    simpa [VisitorPermits.taken] using hcounted
  · intro sweep hsweep
    have hsweep : s.sweep = some sweep := hsweep
    rw [hidle] at hsweep
    cases hsweep

/-- **The clone** that `visitor_semaphore` hands out is of the semaphore that the token has in the
map from then on. -/
theorem PermitInv.cloneFor (h : PermitInv limit s) (hidle : s.sweep = none) (token : String) :
    PermitInv limit (s.cloneFor limit token) := by
  unfold VisitorPermits.cloneFor
  cases hfind : s.entries.find? fun e => e.1 = token with
  | some e =>
    have htoken : e.1 = token := by simpa using List.find?_some hfind
    subst htoken
    exact h.append_holder hidle (List.mem_of_find?_eq_some hfind)
  | none =>
    have habsent : ∀ e ∈ s.entries, e.1 ≠ token := fun e he => by
      simpa using List.find?_eq_none.mp hfind e he
    have hfresh : ∀ e ∈ s.entries, e.2 ≠ s.next := fun e he => Nat.ne_of_lt (h.allocated e he)
    -- first the entry of the token is made, with all of its permits available
    have hmade : PermitInv limit { s with
        available := Function.update s.available s.next limit
        next := s.next + 1
        entries := s.entries ++ [(token, s.next)] } := by
      refine ⟨?_, ?_, ?_, fun holder hholder => List.mem_append_left _ (h.held holder hholder), ?_,
        ?_⟩
      · rw [List.map_append]
        refine h.tokens.append (List.nodup_singleton _) ?_
        intro t ht ht'
        obtain rfl := List.mem_singleton.mp ht'
        obtain ⟨e, he, heq⟩ := List.mem_map.mp ht
        exact habsent e he heq
      · rw [List.map_append]
        refine h.addresses.append (List.nodup_singleton _) ?_
        intro a ha ha'
        obtain rfl := List.mem_singleton.mp ha'
        obtain ⟨e, he, heq⟩ := List.mem_map.mp ha
        exact hfresh e he heq
      · intro e he
        show e.2 < s.next + 1
        rcases List.mem_append.mp he with he | he
        · exact Nat.lt_succ_of_lt (h.allocated e he)
        · obtain rfl := List.mem_singleton.mp he
          exact Nat.lt_succ_self _
      · intro e he
        show Function.update s.available s.next limit e.2 + s.taken e.2 = limit
        rcases List.mem_append.mp he with he | he
        · rw [Function.update_of_ne (hfresh e he)]
          exact h.counted e he
        · obtain rfl := List.mem_singleton.mp he
          have hnone : s.taken s.next = 0 := by
            refine List.countP_eq_zero.mpr fun holder hholder => ?_
            have hne : holder.address ≠ s.next := hfresh _ (h.held holder hholder)
            simp [hne]
          simp [hnone]
      · intro sweep hsweep
        have hsweep : s.sweep = some sweep := hsweep
        rw [hidle] at hsweep
        cases hsweep
    exact hmade.append_holder hidle (List.mem_append_right _ (List.mem_singleton_self _))

/-- **The step lemma.** -/
theorem permitStep_inv (h : PermitInv limit s) {a : PermitAction}
    (hs : permitStep limit s a = some s') : PermitInv limit s' := by
  cases a with
  | lock token order =>
    simp only [permitStep, Option.ite_none_right_eq_some, Option.some.injEq] at hs
    obtain ⟨⟨-, hperm⟩, rfl⟩ := hs
    have hnodup : s.entries.Nodup := List.Nodup.of_map _ h.tokens
    refine h.swept_on ?_
    rintro _ ⟨⟩
    exact ⟨hperm.nodup_iff.mpr hnodup, fun e he => hperm.mem_iff.mp he, nofun⟩
  | readCount =>
    simp only [permitStep] at hs
    split at hs
    · next token e todo hsweep =>
      obtain ⟨hnodup, hmem, -⟩ := h.swept _ hsweep
      split at hs
      · obtain rfl := Option.some.inj hs
        refine h.swept_on ?_
        rintro _ ⟨⟩
        exact ⟨(List.nodup_cons.mp hnodup).2, fun x hx => hmem x (List.mem_cons_of_mem _ hx), nofun⟩
      · next hcount =>
        obtain rfl := Option.some.inj hs
        refine h.swept_on ?_
        rintro _ ⟨⟩
        refine ⟨hnodup, hmem, fun _ => ⟨e, rfl, fun holder hholder heq => hcount ?_⟩⟩
        -- the entry is one reference, and this client would be another
        have hentry : 0 < s.entries.countP (fun x => x.2 = e.2) :=
          List.countP_pos_iff.mpr ⟨e, hmem e List.mem_cons_self, by simp⟩
        have hclient : 0 < s.holders.countP (fun x => x.address = e.2) :=
          List.countP_pos_iff.mpr ⟨holder, hholder, by simpa using heq⟩
        show 1 < s.entries.countP _ + s.holders.countP _
        omega
    · cases hs
  | readAvailable =>
    simp only [permitStep] at hs
    split at hs
    · next token e todo hsweep =>
      obtain ⟨hnodup, hmem, -⟩ := h.swept _ hsweep
      split at hs
      · obtain rfl := Option.some.inj hs
        refine h.swept_on ?_
        rintro _ ⟨⟩
        exact ⟨(List.nodup_cons.mp hnodup).2, fun x hx => hmem x (List.mem_cons_of_mem _ hx), nofun⟩
      · obtain rfl := Option.some.inj hs
        exact h.evict hsweep
    · cases hs
  | unlock =>
    simp only [permitStep] at hs
    split at hs
    · obtain rfl := Option.some.inj hs
      exact h.swept_on nofun
    · obtain rfl := Option.some.inj hs
      have hidle : PermitInv limit { s with sweep := none } := h.swept_on nofun
      exact hidle.cloneFor rfl _
    · cases hs
  | tryAcquire i =>
    simp only [permitStep] at hs
    split at hs
    · next token address hi =>
      split at hs
      · next havailable =>
        obtain rfl := Option.some.inj hs
        refine h.regrip hi ?_ fun a ha => Function.update_of_ne ha _ _
        simp
        omega
      · obtain rfl := Option.some.inj hs
        exact h.regrip hi (by simp) fun _ _ => rfl
    · cases hs
  | release i =>
    simp only [permitStep] at hs
    split at hs
    · next token address hi =>
      obtain rfl := Option.some.inj hs
      exact h.regrip hi (by simp) fun a ha => Function.update_of_ne ha _ _
    · cases hs
  | dropArc i =>
    simp only [permitStep] at hs
    split at hs
    · next hi =>
      obtain rfl := Option.some.inj hs
      exact h.drop hi
    · cases hs

/-! ### What the permits are for -/

/-- The quota of a visitor: a permit is granted to a token that has fewer than the limit, and is
returned. -/
inductive QuotaStep (limit : ℕ) : (String → ℕ) → (String → ℕ) → Prop
  | idle (q : String → ℕ) : QuotaStep limit q q
  | granted (q : String → ℕ) (token : String) (h : q token < limit) :
    QuotaStep limit q (Function.update q token (q token + 1))
  | returned (q : String → ℕ) (token : String) (h : 0 < q token) :
    QuotaStep limit q (Function.update q token (q token - 1))

/-- The outstanding permits after a client changed what it makes of its reference. -/
theorem outstanding_regrip {grip : PermitGrip} (hi : s.holders[i]? = some ⟨token, address, grip⟩)
    (available : ℕ → ℕ) (grip' : PermitGrip) (t : String) :
    ({ s with available := available, holders := s.holders.set i ⟨token, address, grip'⟩ } :
        VisitorPermits).outstanding t + (if token = t ∧ grip = .outstanding then 1 else 0) =
      s.outstanding t + (if token = t ∧ grip' = .outstanding then 1 else 0) := by
  obtain ⟨before, after, hsplit, -, hset⟩ := holders_split hi
  show List.countP _ (s.holders.set i ⟨token, address, grip'⟩) + _ = List.countP _ s.holders + _
  rw [hset, hsplit]
  simp only [List.countP_append, List.countP_cons, decide_eq_true_eq]
  omega

/-- A reference without a permit counts for nothing. -/
theorem outstanding_of_holders {before after : List PermitHolder} {h : PermitHolder}
    (hgrip : h.grip ≠ .outstanding) (hs : s.holders = before ++ h :: after)
    (hs' : s'.holders = before ++ after) : s.outstanding = s'.outstanding := by
  funext t
  show List.countP _ s.holders = List.countP _ s'.holders
  rw [hs, hs']
  simp [hgrip]

theorem outstanding_cloneFor (s : VisitorPermits) (token : String) :
    (s.cloneFor limit token).outstanding = s.outstanding := by
  obtain ⟨h, hgrip, hholders⟩ : ∃ h : PermitHolder, h.grip ≠ .outstanding ∧
      (s.cloneFor limit token).holders = s.holders ++ [h] := by
    unfold VisitorPermits.cloneFor
    split
    · exact ⟨_, by simp, rfl⟩
    · exact ⟨_, by simp, rfl⟩
  exact outstanding_of_holders hgrip hholders (List.append_nil _).symm

/-- **The law of the permits**: one is granted where the token has fewer than the limit. -/
theorem PermitInv.available_pos (h : PermitInv limit s)
    (hi : s.holders[i]? = some ⟨token, address, .inFlight⟩) :
    0 < s.available address ↔ s.outstanding token < limit := by
  have hmem : (token, address) ∈ s.entries := h.held _ (List.mem_of_getElem? hi)
  have hcounted : s.available address + s.taken address = limit := h.counted _ hmem
  rw [h.outstanding_eq hmem]
  omega

/-- **The permits refine the quota.** -/
theorem permitStep_quota (h : PermitInv limit s) {a : PermitAction}
    (hs : permitStep limit s a = some s') : QuotaStep limit s.outstanding s'.outstanding := by
  have hsame : s.outstanding = s'.outstanding → QuotaStep limit s.outstanding s'.outstanding :=
    fun heq => heq ▸ .idle _
  cases a with
  | lock token order =>
    simp only [permitStep, Option.ite_none_right_eq_some, Option.some.injEq] at hs
    obtain ⟨-, rfl⟩ := hs
    exact .idle _
  | readCount =>
    simp only [permitStep] at hs
    split at hs
    · split at hs <;> obtain rfl := Option.some.inj hs <;> exact .idle _
    · cases hs
  | readAvailable =>
    simp only [permitStep] at hs
    split at hs
    · split at hs <;> obtain rfl := Option.some.inj hs <;> exact .idle _
    · cases hs
  | unlock =>
    simp only [permitStep] at hs
    split at hs
    · obtain rfl := Option.some.inj hs
      exact .idle _
    · obtain rfl := Option.some.inj hs
      exact hsame (outstanding_cloneFor { s with sweep := none } _).symm
    · cases hs
  | tryAcquire i =>
    simp only [permitStep] at hs
    split at hs
    · next token address hi =>
      have hlaw := h.available_pos hi
      split at hs
      · next havailable =>
        have hlimit := hlaw.mp havailable
        have hstep : s'.outstanding =
            Function.update s.outstanding token (s.outstanding token + 1) := by
          funext t
          have hcount := outstanding_regrip hi
            (Function.update s.available address (s.available address - 1)) .outstanding t
          rw [Option.some.inj hs] at hcount
          by_cases ht : t = token
          · subst ht
            simpa using hcount
          · rw [Function.update_of_ne ht]
            simpa [Ne.symm ht] using hcount
        rw [hstep]
        exact .granted _ token hlimit
      · refine hsame (funext fun t => ?_)
        have hcount := outstanding_regrip hi s.available .spent t
        rw [Option.some.inj hs] at hcount
        simpa using hcount.symm
    · cases hs
  | release i =>
    simp only [permitStep] at hs
    split at hs
    · next token address hi =>
      have hpos : 0 < s.outstanding token :=
        List.countP_pos_iff.mpr ⟨_, List.mem_of_getElem? hi, by simp⟩
      have hstep : s'.outstanding =
          Function.update s.outstanding token (s.outstanding token - 1) := by
        funext t
        have hcount := outstanding_regrip hi
          (Function.update s.available address (s.available address + 1)) .spent t
        rw [Option.some.inj hs] at hcount
        by_cases ht : t = token
        · subst ht
          simp at hcount ⊢
          omega
        · rw [Function.update_of_ne ht]
          simpa [Ne.symm ht] using hcount
      rw [hstep]
      exact .returned _ token hpos
    · cases hs
  | dropArc i =>
    simp only [permitStep] at hs
    split at hs
    · next hi =>
      obtain rfl := Option.some.inj hs
      obtain ⟨before, after, hsplit, herase, -⟩ := holders_split hi
      exact hsame (outstanding_of_holders (by simp) hsplit herase)
    · cases hs

end Steps

/-- The quota gives no token more than the limit. -/
theorem quota_le {limit : ℕ} {q : String → ℕ}
    (h : Relation.ReflTransGen (QuotaStep limit) (fun _ => 0) q) (token : String) :
    q token ≤ limit := by
  induction h with
  | refl => exact Nat.zero_le _
  | tail _ hstep ih =>
    cases hstep with
    | idle => exact ih
    | granted granted hlimit =>
      by_cases htoken : token = granted
      · subst htoken
        rw [Function.update_self]
        exact hlimit
      · rw [Function.update_of_ne htoken]
        exact ih
    | returned returned _ =>
      by_cases htoken : token = returned
      · subst htoken
        rw [Function.update_self]
        exact Nat.le_trans (Nat.sub_le _ _) ih
      · rw [Function.update_of_ne htoken]
        exact ih

/-! ### Permits for the asking -/

section Progress

variable {limit : ℕ} {s s' : VisitorPermits} {caller : Option String} {e : String × ℕ}
  {todo : List (String × ℕ)} {actions : List PermitAction}

theorem PermitInv.run (h : PermitInv limit s)
    (hrun : Run (stepOf (permitStep limit)) s actions s') :
    PermitInv limit s' :=
  hrun.invariant h fun _ _ _ hinv hs => permitStep_inv hinv hs

/-- A sweep whose first entry is known to be in use, or not, gets on. -/
theorem exists_visit (limit : ℕ) {alone : Bool}
    (hsweep : s.sweep = some ⟨caller, e :: todo, alone⟩) :
    ∃ actions s', Run (stepOf (permitStep limit)) s actions s' ∧
      s'.sweep = some ⟨caller, todo, false⟩ ∧ s'.holders = s.holders := by
  have hread : ∀ s₁ : VisitorPermits, s₁.sweep = some ⟨caller, e :: todo, true⟩ →
      ∃ s', stepOf (permitStep limit) s₁ .readAvailable s' ∧
        s'.sweep = some ⟨caller, todo, false⟩ ∧ s'.holders = s₁.holders := by
    intro s₁ h₁
    simp only [stepOf, permitStep, h₁]
    by_cases havailable : s₁.available e.2 < limit
    · exact ⟨_, if_pos havailable, rfl, rfl⟩
    · exact ⟨_, if_neg havailable, rfl, rfl⟩
  cases alone with
  | true =>
    obtain ⟨s', hs, hnext, hholders⟩ := hread s hsweep
    exact ⟨_, s', .cons hs (.nil _), hnext, hholders⟩
  | false =>
    by_cases hcount : 1 < s.strongCount e.2
    · have hs : permitStep limit s .readCount =
          some { s with sweep := some ⟨caller, todo, false⟩ } := by
        simp only [permitStep, hsweep]
        exact if_pos hcount
      exact ⟨_, _, .cons hs (.nil _), rfl, rfl⟩
    · have hs : permitStep limit s .readCount =
          some { s with sweep := some ⟨caller, e :: todo, true⟩ } := by
        simp only [permitStep, hsweep]
        exact if_neg hcount
      obtain ⟨s', hs', hnext, hholders⟩ :=
        hread { s with sweep := some ⟨caller, e :: todo, true⟩ } rfl
      exact ⟨_, s', .cons hs (.cons hs' (.nil _)), hnext, hholders⟩

/-- A sweep comes to its end. -/
theorem exists_swept (limit : ℕ) (hsweep : s.sweep = some ⟨caller, todo, false⟩) :
    ∃ actions s', Run (stepOf (permitStep limit)) s actions s' ∧
      s'.sweep = some ⟨caller, [], false⟩ ∧ s'.holders = s.holders := by
  induction todo generalizing s with
  | nil => exact ⟨[], s, .nil s, hsweep, rfl⟩
  | cons e todo ih =>
    obtain ⟨first, s₁, hfirst, hnext, hholders⟩ := exists_visit limit hsweep
    obtain ⟨rest, s', hrest, hdone, hholders'⟩ := ih hnext
    exact ⟨first ++ rest, s', hfirst.append hrest, hdone, hholders'.trans hholders⟩

theorem outstanding_congr (h : s'.holders = s.holders) : s'.outstanding = s.outstanding := by
  funext t
  show List.countP _ s'.holders = List.countP _ s.holders
  rw [h]

/-- A call whose sweep is over leaves the mutex, with a reference if it came for one. -/
theorem exists_unlocked (limit : ℕ) (hdone : s.sweep = some ⟨caller, [], false⟩) :
    ∃ s', permitStep limit s .unlock = some s' ∧ s'.sweep = none ∧
      s'.outstanding = s.outstanding ∧ ∀ token ∈ caller, ∃ address,
        s'.holders = s.holders ++ [⟨token, address, .inFlight⟩] := by
  cases caller with
  | none =>
    have hs : permitStep limit s .unlock = some { s with sweep := none } := by
      simp only [permitStep, hdone]
    exact ⟨_, hs, rfl, rfl, nofun⟩
  | some token =>
    have hs : permitStep limit s .unlock =
        some (({ s with sweep := none } : VisitorPermits).cloneFor limit token) := by
      simp only [permitStep, hdone]
    refine ⟨_, hs, ?_, ?_, ?_⟩
    · unfold VisitorPermits.cloneFor
      split <;> rfl
    · rw [outstanding_cloneFor]
      exact outstanding_congr rfl
    · rintro _ ⟨⟩
      unfold VisitorPermits.cloneFor
      split
      · exact ⟨_, rfl⟩
      · exact ⟨_, rfl⟩

/-- The mutex is left, and no permit was given or taken away. -/
theorem PermitInv.exists_idle (h : PermitInv limit s) :
    ∃ actions s', Run (stepOf (permitStep limit)) s actions s' ∧ s'.sweep = none ∧
      s'.outstanding = s.outstanding := by
  cases hsweep : s.sweep with
  | none => exact ⟨[], s, .nil s, hsweep, rfl⟩
  | some sweep =>
    obtain ⟨caller, todo, alone⟩ := sweep
    obtain ⟨first, s₁, hfirst, hdone, hholders⟩ : ∃ actions s₁,
        Run (stepOf (permitStep limit)) s actions s₁ ∧ s₁.sweep = some ⟨caller, [], false⟩ ∧
          s₁.holders = s.holders := by
      cases alone with
      | false => exact exists_swept limit hsweep
      | true =>
        obtain ⟨-, -, halone⟩ := h.swept _ hsweep
        obtain ⟨e, he, -⟩ := halone rfl
        cases todo with
        | nil => cases he
        | cons e todo =>
          obtain ⟨visit, s₁, hvisit, hnext, hholders⟩ := exists_visit limit hsweep
          obtain ⟨rest, s₂, hrest, hdone, hholders'⟩ := exists_swept limit hnext
          exact ⟨visit ++ rest, s₂, hvisit.append hrest, hdone, hholders'.trans hholders⟩
    obtain ⟨s', hs, hidle, hsame, -⟩ := exists_unlocked limit hdone
    refine ⟨_, s', hfirst.concat hs, hidle, hsame.trans ?_⟩
    exact outstanding_congr hholders

/-- A client that asks gets a permit, where the limit has one left for its token. -/
theorem PermitInv.tryAcquire (h : PermitInv limit s) {token : String} {address i : ℕ}
    (hi : s.holders[i]? = some ⟨token, address, .inFlight⟩) :
    ∃ s', permitStep limit s (.tryAcquire i) = some s' ∧ s'.sweep = s.sweep ∧
      s'.outstanding token = min limit (s.outstanding token + 1) := by
  have hlaw := h.available_pos hi
  have hle := h.outstanding_le token
  simp only [permitStep, hi]
  by_cases havailable : 0 < s.available address
  · rw [if_pos havailable]
    refine ⟨_, rfl, rfl, ?_⟩
    have hlimit := hlaw.mp havailable
    have hcount := outstanding_regrip hi
      (Function.update s.available address (s.available address - 1)) .outstanding token
    simp only [true_and, reduceCtorEq, if_true, if_false] at hcount
    omega
  · rw [if_neg havailable]
    refine ⟨_, rfl, rfl, ?_⟩
    have hfull : limit ≤ s.outstanding token :=
      Nat.not_lt.mp fun hlt => havailable (hlaw.mpr hlt)
    have hcount := outstanding_regrip hi s.available .spent token
    simp only [reduceCtorEq, and_false, if_false] at hcount
    omega

/-- A call for a token gets a permit, where there is one. -/
theorem PermitInv.exists_call (h : PermitInv limit s) (hidle : s.sweep = none) (token : String) :
    ∃ actions s', Run (stepOf (permitStep limit)) s actions s' ∧ s'.sweep = none ∧
      s'.outstanding token = min limit (s.outstanding token + 1) := by
  have hlock : permitStep limit s (.lock (some token) s.entries) =
      some { s with sweep := some ⟨some token, s.entries, false⟩ } :=
    if_pos ⟨hidle, List.Perm.refl _⟩
  obtain ⟨sweep, s₁, hsweep, hdone, hholders⟩ :=
    exists_swept limit (s := { s with sweep := some ⟨some token, s.entries, false⟩ }) rfl
  obtain ⟨s₂, hunlock, hidle₂, hsame, hclone⟩ := exists_unlocked limit hdone
  obtain ⟨address, hclone⟩ := hclone token rfl
  have hlooked : Run (stepOf (permitStep limit)) s _ s₂ := (Run.cons hlock hsweep).concat hunlock
  have hi : s₂.holders[s₁.holders.length]? = some ⟨token, address, .inFlight⟩ := by
    rw [hclone]
    simp
  obtain ⟨s', hs, hsweep', hcount⟩ := (h.run hlooked).tryAcquire hi
  refine ⟨_, s', hlooked.concat hs, hsweep'.trans hidle₂, ?_⟩
  rw [hcount, hsame]
  have hcongr : s₁.outstanding = s.outstanding := outstanding_congr hholders
  rw [hcongr]

/-- Calls for a token get it as many permits as the limit has left. -/
theorem PermitInv.exists_outstanding (h : PermitInv limit s) (hidle : s.sweep = none)
    (token : String) (n : ℕ) (hn : s.outstanding token + n ≤ limit) :
    ∃ actions s', Run (stepOf (permitStep limit)) s actions s' ∧
      s'.outstanding token = s.outstanding token + n := by
  induction n generalizing s with
  | zero => exact ⟨[], s, .nil s, rfl⟩
  | succ n ih =>
    obtain ⟨call, s₁, hcall, hidle', hcount⟩ := h.exists_call hidle token
    have hone : s₁.outstanding token = s.outstanding token + 1 := by omega
    obtain ⟨rest, s', hrest, htotal⟩ := ih (h.run hcall) hidle' (by omega)
    exact ⟨call ++ rest, s', hcall.append hrest, by omega⟩

end Progress

/-! ### The runs and the streams of every visitor -/

/-- The two maps of `DemoState`. -/
inductive PermitKind where
  | run
  | sse
  deriving DecidableEq

/-- One step of either map; each kind has its own limit. -/
def demoStep (limits : PermitKind → ℕ) (s : PermitKind → VisitorPermits)
    (a : PermitKind × PermitAction) : Option (PermitKind → VisitorPermits) :=
  (permitStep (limits a.1) (s a.1) a.2).map (Function.update s a.1)

section Demo

variable {limits : PermitKind → ℕ} {s s' : PermitKind → VisitorPermits}
  {actions : List (PermitKind × PermitAction)}

theorem demoStep_inv (h : ∀ kind, PermitInv (limits kind) (s kind)) {a : PermitKind × PermitAction}
    (hs : demoStep limits s a = some s') (kind : PermitKind) :
    PermitInv (limits kind) (s' kind) := by
  obtain ⟨t, ht, rfl⟩ := Option.map_eq_some_iff.mp hs
  by_cases hkind : kind = a.1
  · subst hkind
    rw [Function.update_self]
    exact permitStep_inv (h _) ht
  · rw [Function.update_of_ne hkind]
    exact h kind

/-- What the clients make of the two maps is, for each kind, a run of the quota. -/
theorem demoRun_quota (hrun : Run (stepOf (demoStep limits)) (fun _ => .initial) actions s)
    (kind : PermitKind) :
    Relation.ReflTransGen (QuotaStep (limits kind)) (fun _ => 0) (s kind).outstanding := by
  have hstep : ∀ s a s', (∀ kind, PermitInv (limits kind) (s kind)) ∧
      Relation.ReflTransGen (QuotaStep (limits kind)) (fun _ => 0) (s kind).outstanding →
      stepOf (demoStep limits) s a s' → (∀ kind, PermitInv (limits kind) (s' kind)) ∧
        Relation.ReflTransGen (QuotaStep (limits kind)) (fun _ => 0) (s' kind).outstanding := by
    rintro s a s' ⟨hinv, hquota⟩ hs
    refine ⟨demoStep_inv hinv hs, ?_⟩
    obtain ⟨t, ht, rfl⟩ := Option.map_eq_some_iff.mp hs
    by_cases hkind : kind = a.1
    · subst hkind
      rw [Function.update_self]
      exact hquota.tail (permitStep_quota (hinv _) ht)
    · rw [Function.update_of_ne hkind]
      exact hquota
  exact (hrun.invariant ⟨fun kind => permitInv_initial (limits kind), .refl⟩ hstep).2

/-- A run of one map is one of both, in which the other map stays as it is. -/
theorem demoRun_of_run {kind : PermitKind} {actions : List PermitAction} {t t' : VisitorPermits}
    (h : Run (stepOf (permitStep (limits kind))) t actions t') (hs : s kind = t) :
    Run (stepOf (demoStep limits)) s (actions.map fun a => (kind, a))
      (Function.update s kind t') := by
  induction h generalizing s with
  | nil t =>
    rw [← hs, Function.update_eq_self]
    exact .nil s
  | @cons t t₁ t' a actions hstep _ ih =>
    have hfirst : demoStep limits s (kind, a) = some (Function.update s kind t₁) := by
      show (permitStep (limits kind) (s kind) a).map _ = _
      rw [hs, show permitStep (limits kind) t a = some t₁ from hstep]
      rfl
    have hrest := ih (s := Function.update s kind t₁) (Function.update_self _ _ _)
    rw [Function.update_idem] at hrest
    exact .cons hfirst hrest

/-- **The permits of a visitor.**  However clients and cleanups act on the two maps: no token has
more permits outstanding than the limit, and the semaphore that a client refers to is the one its
token has in the map; a client that asks gets a permit where the limit has one left for its token;
and a token can get as many as the limit has left. -/
theorem visitorPermits_bounded (hrun : Run (stepOf (demoStep limits)) (fun _ => .initial) actions s)
    (kind : PermitKind) :
    (∀ token, (s kind).outstanding token ≤ limits kind) ∧
      (∀ h ∈ (s kind).holders, ∀ address,
        (h.token, address) ∈ (s kind).entries ↔ address = h.address) ∧
      (∀ i token address, (s kind).holders[i]? = some ⟨token, address, .inFlight⟩ →
        ∃ s', demoStep limits s (kind, .tryAcquire i) = some s' ∧
          (s' kind).outstanding token = min (limits kind) ((s kind).outstanding token + 1)) ∧
      ∀ token n, (s kind).outstanding token + n ≤ limits kind →
        ∃ more s', Run (stepOf (demoStep limits)) s more s' ∧
          (s' kind).outstanding token = (s kind).outstanding token + n := by
  have hstep : ∀ s a s', (∀ kind, PermitInv (limits kind) (s kind)) →
      stepOf (demoStep limits) s a s' → ∀ kind, PermitInv (limits kind) (s' kind) :=
    fun s a s' h hs kind => demoStep_inv h hs kind
  have hinv := hrun.invariant (fun kind => permitInv_initial (limits kind)) hstep
  have h := hinv kind
  refine ⟨quota_le (demoRun_quota hrun kind), ?_, ?_, ?_⟩
  · intro holder hholder address
    have hheld := h.held holder hholder
    constructor
    · intro hmem
      exact h.address_eq hmem hheld
    · rintro rfl
      exact hheld
  · intro i token address hi
    obtain ⟨t, ht, -, hcount⟩ := h.tryAcquire hi
    refine ⟨Function.update s kind t, ?_, ?_⟩
    · show (permitStep (limits kind) (s kind) _).map _ = _
      rw [ht]
      rfl
    · rw [Function.update_self]
      exact hcount
  · intro token n hn
    obtain ⟨first, t, hfirst, hidle, hsame⟩ := h.exists_idle
    obtain ⟨rest, t', hrest, htotal⟩ :=
      (h.run hfirst).exists_outstanding hidle token n (by rw [hsame]; exact hn)
    refine ⟨_, _, demoRun_of_run (hfirst.append hrest) rfl, ?_⟩
    rw [Function.update_self, htotal, hsame]

/-- Two clients look up the semaphore of one visitor before either asks for a permit.  The one that
gets the permit gives it back and still refers to the semaphore while another visitor's call sweeps
the map; only after both have left does a cleanup drop it. -/
def permitFlow : List (PermitKind × PermitAction) :=
  [(.run, .lock (some "a") []), (.run, .unlock),
    (.run, .lock (some "a") [("a", 0)]), (.run, .readCount), (.run, .unlock),
    (.run, .tryAcquire 0), (.run, .tryAcquire 1), (.run, .release 0),
    (.run, .lock (some "b") [("a", 0)]), (.run, .readCount), (.run, .unlock),
    (.run, .dropArc 0), (.run, .dropArc 0), (.run, .lock none [("b", 1), ("a", 0)]),
    (.run, .readCount), (.run, .readCount), (.run, .readAvailable), (.run, .unlock),
    (.run, .lock (some "a") [("b", 1)]), (.run, .readCount), (.run, .unlock), (.run, .tryAcquire 1)]

theorem visitorPermits_bounded_flow :
    ∃ s, Run (stepOf (demoStep fun _ => 1)) (fun _ => .initial) permitFlow s ∧
      (s .run).entries = [("b", 1), ("a", 2)] ∧ (s .run).outstanding "a" = 1 ∧
        (∀ token, (s .run).outstanding token ≤ 1) ∧
          ∃ more s', Run (stepOf (demoStep fun _ => 1)) s more s' ∧
            (s' .run).outstanding "b" = (s .run).outstanding "b" + 1 := by
  obtain ⟨s, hs, hentries, ha, hb⟩ : ∃ s,
      exec (demoStep fun _ => 1) (fun _ => .initial) permitFlow = some s ∧
        (s .run).entries = [("b", 1), ("a", 2)] ∧ (s .run).outstanding "a" = 1 ∧
          (s .run).outstanding "b" = 0 :=
    ⟨_, rfl, by decide, by decide, by decide⟩
  have hrun := run_of_exec hs
  obtain ⟨hle, -, -, hmore⟩ := visitorPermits_bounded hrun .run
  exact ⟨s, hrun, hentries, ha, hle, hmore "b" 1 (by omega)⟩

end Demo

end Bhtune
