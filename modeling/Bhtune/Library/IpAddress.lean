import Mathlib.Algebra.Group.Nat.Defs
import Mathlib.Data.List.DropRight
import Mathlib.Data.Nat.Notation

/-!
# Internet addresses

IPv4 and IPv6 addresses with their text forms, as a standard library prints and reads them, and the
networks they belong to.

* `IpAddr.display` — dotted decimals; hexadecimal groups, the longest run of zeros as `::`;
* `IpAddr.parse` — what is read as an address;
* `displayV4_injective`, `displayV6_injective_of_network` — when two texts are of one address;
* `IpNetwork.Contains` — the addresses that share their leading bits with a network.
-/

namespace IpAddress

/-! ### Addresses -/

inductive IpAddr where
  | v4 (bits : BitVec 32)
  | v6 (bits : BitVec 128)
  deriving DecidableEq

def octets (a : BitVec 32) : List ℕ :=
  [a.toNat / 2 ^ 24 % 256, a.toNat / 2 ^ 16 % 256, a.toNat / 2 ^ 8 % 256, a.toNat % 256]

def segments (a : BitVec 128) : List ℕ :=
  [a.toNat / 2 ^ 112 % 65536, a.toNat / 2 ^ 96 % 65536, a.toNat / 2 ^ 80 % 65536,
    a.toNat / 2 ^ 64 % 65536, a.toNat / 2 ^ 48 % 65536, a.toNat / 2 ^ 32 % 65536,
    a.toNat / 2 ^ 16 % 65536, a.toNat % 65536]

/-- The number whose digits to the base `b` are these, the leading one first. -/
def ofParts (b : ℕ) (parts : List ℕ) : ℕ := parts.foldl (fun n d => n * b + d) 0

/-- The IPv6 form of an IPv4 address. -/
def toIpv6Mapped (a : BitVec 32) : BitVec 128 := BitVec.ofNat 128 (0xffff * 2 ^ 32 + a.toNat)

/-- The IPv4 address that an IPv6 address stands for, if it does for one. -/
def toIpv4Mapped (a : BitVec 128) : Option (BitVec 32) :=
  if a >>> 32 = 0xffff#128 then some (a.setWidth 32) else none

/-! ### Text -/

def displayV4 (a : BitVec 32) : List Char :=
  ['.'].intercalate ((octets a).map (Nat.toDigits 10))

/-- Groups of hexadecimal digits. -/
def hexGroups (groups : List ℕ) : List Char := [':'].intercalate (groups.map (Nat.toDigits 16))

/-- A run of zeros. -/
structure Span where
  start : ℕ
  len : ℕ
  deriving DecidableEq

/-- The longest run of zeros of `segments`, the first where there are several; `i` is the index of
the first segment, `current` the run that ends before it. -/
def longestZeros : ℕ → List ℕ → Span → Span → Span
  | _, [], _, longest => longest
  | i, s :: rest, current, longest =>
    if s = 0 then
      let current : Span :=
        if current.len = 0 then ⟨i, 1⟩ else ⟨current.start, current.len + 1⟩
      longestZeros (i + 1) rest current (if longest.len < current.len then current else longest)
    else longestZeros (i + 1) rest ⟨0, 0⟩ longest

/-- Eight segments, the longest run of at least two zeros as `::`. -/
def displaySegments (segments : List ℕ) : List Char :=
  let zeroes := longestZeros 0 segments ⟨0, 0⟩ ⟨0, 0⟩
  if 1 < zeroes.len then
    hexGroups (segments.take zeroes.start) ++ "::".toList ++
      hexGroups (segments.drop (zeroes.start + zeroes.len))
  else hexGroups segments

def displayV6 (a : BitVec 128) : List Char :=
  match toIpv4Mapped a with
  | some v4 => "::ffff:".toList ++ displayV4 v4
  | none => displaySegments (segments a)

def IpAddr.display : IpAddr → String
  | .v4 a => String.ofList (displayV4 a)
  | .v6 a => String.ofList (displayV6 a)

/-! ### Reading -/

/-- The value of a digit to the base `radix`. -/
def toDigit (radix : ℕ) (c : Char) : Option ℕ :=
  let value :=
    if c.isDigit then some (c.toNat - 48)
    else if 'a' ≤ c ∧ c ≤ 'f' then some (c.toNat - 87)
    else if 'A' ≤ c ∧ c ≤ 'F' then some (c.toNat - 55)
    else none
  value.filter fun d => d < radix

/-- The digits at the front of a text, and what follows them. -/
def takeDigits (radix : ℕ) : List Char → List ℕ × List Char
  | [] => ([], [])
  | c :: cs =>
    match toDigit radix c with
    | some d => (d :: (takeDigits radix cs).1, (takeDigits radix cs).2)
    | none => ([], c :: cs)

/-- A number of at most `maxDigits` digits below `bound`, and what follows it. -/
def readNumber (radix maxDigits bound : ℕ) (allowZeroPrefix : Bool) (cs : List Char) :
    Option (ℕ × List Char) :=
  let digits := (takeDigits radix cs).1
  let n := ofParts radix digits
  if digits = [] ∨ maxDigits < digits.length ∨ bound ≤ n then none
  else if allowZeroPrefix = false ∧ digits.head? = some 0 ∧ 1 < digits.length then none
  else some (n, (takeDigits radix cs).2)

def readGivenChar (c : Char) : List Char → Option (List Char)
  | [] => none
  | d :: cs => if d = c then some cs else none

/-- What comes after a separator, which the first part does not have. -/
def readSeparator {α : Type} (sep : Char) (index : ℕ) (inner : List Char → Option (α × List Char))
    (cs : List Char) : Option (α × List Char) :=
  if 0 < index then (readGivenChar sep cs).bind inner else inner cs

def readOctets : ℕ → ℕ → List Char → Option (List ℕ × List Char)
  | 0, _, cs => some ([], cs)
  | n + 1, i, cs => do
    let (octet, cs) ← readSeparator '.' i (readNumber 10 3 256 false) cs
    let (rest, cs) ← readOctets n (i + 1) cs
    return (octet :: rest, cs)

def readIpv4Addr (cs : List Char) : Option (BitVec 32 × List Char) := do
  let (octets, cs) ← readOctets 4 0 cs
  return (BitVec.ofNat 32 (ofParts 256 octets), cs)

/-- Up to `limit` groups, the last two of which may be an IPv4 address; whether they were. -/
def readGroups : ℕ → ℕ → List Char → List ℕ × Bool × List Char
  | 0, _, cs => ([], false, cs)
  | limit + 1, i, cs =>
    match if 0 < limit then readSeparator ':' i readIpv4Addr cs else none with
    | some (v4, cs) => ([v4.toNat / 65536, v4.toNat % 65536], true, cs)
    | none =>
      match readSeparator ':' i (readNumber 16 4 65536 true) cs with
      | none => ([], false, cs)
      | some (group, cs) =>
        let (rest, ipv4, cs) := readGroups limit (i + 1) cs
        (group :: rest, ipv4, cs)

def readIpv6Addr (cs : List Char) : Option (BitVec 128 × List Char) :=
  let (head, headIpv4, cs) := readGroups 8 0 cs
  if head.length = 8 then some (BitVec.ofNat 128 (ofParts 65536 head), cs)
  else if headIpv4 then none
  else do
    let cs ← readGivenChar ':' cs
    let cs ← readGivenChar ':' cs
    let (tail, _, cs) := readGroups (8 - (head.length + 1)) 0 cs
    let zeros := List.replicate (8 - head.length - tail.length) 0
    return (BitVec.ofNat 128 (ofParts 65536 (head ++ zeros ++ tail)), cs)

/-- `str::parse`: the whole text is an address. -/
@[irreducible] def IpAddr.parse (s : String) : Option IpAddr :=
  let read := match readIpv4Addr s.toList with
    | some (a, cs) => some (IpAddr.v4 a, cs)
    | none => (readIpv6Addr s.toList).map fun (a, cs) => (IpAddr.v6 a, cs)
  match read with
  | some (address, []) => some address
  | _ => none

example : IpAddr.parse "10.0.0.4" = some (.v4 0x0a000004#32) ∧ IpAddr.parse "10.0.0.04" = none ∧
    IpAddr.parse "2001:db8::4" = some (.v6 0x20010db8000000000000000000000004#128) ∧
    IpAddr.parse "::ffff:10.0.0.4" = some (.v6 (toIpv6Mapped 0x0a000004#32)) ∧
    IpAddr.parse "1:2:3:4:5:6:7:8::" = none := by decide +kernel

example : (IpAddr.v6 0x20010db8000000000000000000000004#128).display = "2001:db8::4" ∧
    (IpAddr.v6 (toIpv6Mapped 0x0a000004#32)).display = "::ffff:10.0.0.4" ∧
    (IpAddr.v6 0#128).display = "::" := by decide +kernel

/-! ### What a text says of its address -/

theorem mem_toDigits {n : ℕ} {c : Char} (h : c ∈ Nat.toDigits 16 n) :
    ∃ d < 16, c = Nat.digitChar d := by
  induction n using Nat.strongRecOn with
  | _ n ih =>
    rw [Nat.toDigits_eq_if (by decide)] at h
    by_cases hn : n < 16
    · rw [if_pos hn, List.mem_singleton] at h
      exact ⟨n, hn, h⟩
    · rw [if_neg hn, List.mem_append, List.mem_singleton] at h
      rcases h with h | h
      · exact ih (n / 16) (by omega) h
      · exact ⟨n % 16, by omega, h⟩

theorem digitChar_injective : ∀ d < 16, ∀ e < 16, Nat.digitChar d = Nat.digitChar e → d = e := by
  decide

/-- A number is known from its hexadecimal digits. -/
theorem toDigits_injective {m n : ℕ} (h : Nat.toDigits 16 m = Nat.toDigits 16 n) : m = n := by
  induction m using Nat.strongRecOn generalizing n with
  | _ m ih =>
    have hlast : ∀ k, (Nat.toDigits 16 k).getLast? = some (Nat.digitChar (k % 16)) ∧
        (Nat.toDigits 16 k).dropLast = if k < 16 then [] else Nat.toDigits 16 (k / 16) := by
      intro k
      rw [Nat.toDigits_eq_if (by decide)]
      by_cases hk : k < 16
      · simp [hk, Nat.mod_eq_of_lt hk]
      · simp [hk]
    have hdigit : m % 16 = n % 16 := by
      have heq := congrArg List.getLast? h
      rw [(hlast m).1, (hlast n).1] at heq
      exact digitChar_injective _ (by omega) _ (by omega) (Option.some.inj heq)
    have hrest := congrArg List.dropLast h
    rw [(hlast m).2, (hlast n).2] at hrest
    by_cases hm : m < 16
    · by_cases hn : n < 16
      · omega
      · rw [if_pos hm, if_neg hn] at hrest
        exact absurd hrest.symm Nat.toDigits_ne_nil
    · by_cases hn : n < 16
      · rw [if_neg hm, if_pos hn] at hrest
        exact absurd hrest Nat.toDigits_ne_nil
      · rw [if_neg hm, if_neg hn] at hrest
        have hdiv := ih (m / 16) (by omega) hrest
        omega

/-- Parts without the separator are known from the joined text. -/
theorem intercalate_injective {sep : Char} {xs ys : List (List Char)}
    (hx : ∀ part ∈ xs, part ≠ [] ∧ sep ∉ part) (hy : ∀ part ∈ ys, part ≠ [] ∧ sep ∉ part)
    (h : [sep].intercalate xs = [sep].intercalate ys) : xs = ys := by
  have hnonempty : ∀ zs : List (List Char), (∀ part ∈ zs, part ≠ [] ∧ sep ∉ part) → zs ≠ [] →
      [sep].intercalate zs ≠ [] := by
    intro zs hzs hne
    cases zs with
    | nil => exact absurd rfl hne
    | cons part zs =>
      have hpart := (hzs part List.mem_cons_self).1
      cases zs with
      | nil => simpa using hpart
      | cons _ _ => simp
  by_cases hxs : xs = []
  · by_cases hys : ys = []
    · rw [hxs, hys]
    · subst hxs
      exact absurd h.symm (hnonempty ys hy hys)
  · by_cases hys : ys = []
    · subst hys
      exact absurd h (hnonempty xs hx hxs)
    · rw [← List.splitOn_intercalate sep (fun part hpart => (hx part hpart).2) hxs, h,
        List.splitOn_intercalate sep (fun part hpart => (hy part hpart).2) hys]

theorem octets_injective {a b : BitVec 32} (h : octets a = octets b) : a = b := by
  simp only [octets, List.cons.injEq, and_true] at h
  obtain ⟨h₁, h₂, h₃, h₄⟩ := h
  have ha := a.isLt
  have hb := b.isLt
  apply BitVec.eq_of_toNat_eq
  omega

/-- **An IPv4 address is known from its text.** -/
theorem displayV4_injective {a b : BitVec 32} (h : displayV4 a = displayV4 b) : a = b := by
  have hparts : ∀ l : List ℕ, ∀ part ∈ l.map (Nat.toDigits 10), part ≠ [] ∧ '.' ∉ part := by
    intro l part hpart
    obtain ⟨n, -, rfl⟩ := List.mem_map.mp hpart
    refine ⟨Nat.toDigits_ne_nil, fun hdot => ?_⟩
    have hdigit := Nat.isDigit_of_mem_toDigits (by decide) (by decide) hdot
    exact absurd hdigit (by decide)
  have hmap := intercalate_injective (hparts _) (hparts _) h
  refine octets_injective (List.map_injective_iff.mpr ?_ hmap)
  intro m n hmn
  rw [← Nat.ofDigitChars_ten_toDigits (n := m), hmn, Nat.ofDigitChars_ten_toDigits]

theorem mem_displayV4 {a : BitVec 32} {c : Char} (h : c ∈ displayV4 a) :
    c.isDigit = true ∨ c = '.' := by
  have hpart : ∀ n, c ∈ Nat.toDigits 10 n → c.isDigit = true := fun n hn =>
    Nat.isDigit_of_mem_toDigits (by decide) (by decide) hn
  simp only [displayV4, octets, List.map_cons, List.map_nil, List.intercalate_cons_cons,
    List.intercalate_singleton, List.mem_append, List.mem_singleton] at h
  rcases h with ((h | h) | ((h | h) | ((h | h) | h)))
  · exact .inl (hpart _ h)
  · exact .inr h
  · exact .inl (hpart _ h)
  · exact .inr h
  · exact .inl (hpart _ h)
  · exact .inr h
  · exact .inl (hpart _ h)

theorem hexGroups_injective {l l' : List ℕ} (h : hexGroups l = hexGroups l') : l = l' := by
  have hparts : ∀ l : List ℕ, ∀ part ∈ l.map (Nat.toDigits 16), part ≠ [] ∧ ':' ∉ part := by
    intro l part hpart
    obtain ⟨n, -, rfl⟩ := List.mem_map.mp hpart
    refine ⟨Nat.toDigits_ne_nil, fun hcolon => ?_⟩
    obtain ⟨d, hd, heq⟩ := mem_toDigits hcolon
    have hne : ∀ d < 16, ':' ≠ Nat.digitChar d := by decide
    exact hne d hd heq
  have hmap := intercalate_injective (hparts _) (hparts _) h
  exact List.map_injective_iff.mpr (fun m n hmn => toDigits_injective hmn) hmap

/-- Four segments with four zeros behind them: the zeros at the end are left out. -/
theorem displaySegments_network (a b c d : ℕ) :
    displaySegments [a, b, c, d, 0, 0, 0, 0] =
      hexGroups ([a, b, c, d].rdropWhile (· = 0)) ++ "::".toList := by
  by_cases ha : a = 0 <;> by_cases hb : b = 0 <;> by_cases hc : c = 0 <;> by_cases hd : d = 0 <;>
    simp [displaySegments, longestZeros, List.rdropWhile, ha, hb, hc, hd, hexGroups]

/-- A list is known from its length and what is left of it without the zeros at its end. -/
theorem eq_of_rdropWhile {l l' : List ℕ} (hlength : l.length = l'.length)
    (h : l.rdropWhile (· = 0) = l'.rdropWhile (· = 0)) : l = l' := by
  have hsplit : ∀ l : List ℕ, l = l.rdropWhile (· = 0) ++
      List.replicate (l.length - (l.rdropWhile (· = 0)).length) 0 := by
    intro l
    induction l using List.reverseRecOn with
    | nil => rfl
    | append_singleton l x ih =>
      by_cases hx : x = 0
      · have hle : (l.rdropWhile (· = 0)).length ≤ l.length :=
          (List.rdropWhile_prefix (fun x => decide (x = 0)) l).length_le
        rw [List.rdropWhile_concat_pos _ _ _ (by simpa using hx), List.length_append,
          List.length_singleton, Nat.sub_add_comm hle, List.replicate_succ', ← List.append_assoc,
          ← ih, hx]
      · rw [List.rdropWhile_concat_neg _ _ _ (by simpa using hx)]
        simp
  rw [hsplit l, hsplit l', h, hlength]

/-- The text of a network of 64 bits. -/
theorem displayV6_network {a : BitVec 128} (ha : a.toNat % 2 ^ 64 = 0) :
    displayV6 a = hexGroups (((segments a).take 4).rdropWhile (· = 0)) ++ "::".toList := by
  have hmapped : toIpv4Mapped a = none := by
    refine if_neg fun h => ?_
    have hbits := congrArg BitVec.toNat h
    rw [BitVec.toNat_ushiftRight, Nat.shiftRight_eq_div_pow] at hbits
    simp at hbits
    omega
  have hsegments : segments a = [a.toNat / 2 ^ 112 % 65536, a.toNat / 2 ^ 96 % 65536,
      a.toNat / 2 ^ 80 % 65536, a.toNat / 2 ^ 64 % 65536, 0, 0, 0, 0] := by
    simp only [segments, List.cons.injEq, true_and, and_true]
    omega
  unfold displayV6
  rw [hmapped]
  show displaySegments (segments a) = _
  rw [hsegments, displaySegments_network]
  rfl

/-- **A network of 64 bits is known from its text.** -/
theorem displayV6_injective_of_network {a b : BitVec 128} (ha : a.toNat % 2 ^ 64 = 0)
    (hb : b.toNat % 2 ^ 64 = 0) (h : displayV6 a = displayV6 b) : a = b := by
  rw [displayV6_network ha, displayV6_network hb] at h
  have hlength : ((segments a).take 4).length = ((segments b).take 4).length := rfl
  have hfront := eq_of_rdropWhile hlength (hexGroups_injective (List.append_cancel_right h))
  simp only [segments, List.take_succ_cons, List.take_zero, List.cons.injEq, and_true] at hfront
  obtain ⟨h₁, h₂, h₃, h₄⟩ := hfront
  have hlt := a.isLt
  have hlt' := b.isLt
  apply BitVec.eq_of_toNat_eq
  omega

/-! ### Networks -/

/-- The first `bits` of `w` bits. -/
def mask (w bits : ℕ) : BitVec w := if bits = 0 then 0#w else BitVec.allOnes w <<< (w - bits)

/-- **Masked addresses are equal when their leading bits are.** -/
theorem and_mask_eq_iff {w bits : ℕ} (hbits : bits ≤ w) (x y : BitVec w) :
    x &&& mask w bits = y &&& mask w bits ↔ x >>> (w - bits) = y >>> (w - bits) := by
  unfold mask
  by_cases hzero : bits = 0
  · subst hzero
    have hempty : ∀ z : BitVec w, z >>> w = 0#w := by
      intro z
      apply BitVec.eq_of_toNat_eq
      rw [BitVec.toNat_ushiftRight, Nat.shiftRight_eq_div_pow, Nat.div_eq_of_lt z.isLt]
      simp
    simp [hempty]
  · rw [if_neg hzero]
    constructor
    · intro h
      apply BitVec.eq_of_getLsbD_eq
      intro i hi
      rw [BitVec.getLsbD_ushiftRight, BitVec.getLsbD_ushiftRight]
      by_cases hin : w - bits + i < w
      · have hbit := congrArg (BitVec.getLsbD · (w - bits + i)) h
        have hlow : ¬w - bits + i < w - bits := by omega
        simpa [hin, hi, hlow] using hbit
      · rw [BitVec.getLsbD_of_ge _ _ (by omega), BitVec.getLsbD_of_ge _ _ (by omega)]
    · intro h
      apply BitVec.eq_of_getLsbD_eq
      intro i hi
      have hbit := congrArg (BitVec.getLsbD · (i - (w - bits))) h
      simp only [BitVec.getLsbD_ushiftRight] at hbit
      by_cases hlow : i < w - bits
      · simp [hlow]
      · rw [show w - bits + (i - (w - bits)) = i by omega] at hbit
        simp [hbit]

/-- What a mask leaves of an address ends in zeros. -/
theorem and_mask {w bits : ℕ} (hpos : bits ≠ 0) (x : BitVec w) :
    x &&& mask w bits = (x >>> (w - bits)) <<< (w - bits) := by
  apply BitVec.eq_of_getLsbD_eq
  intro i hi
  unfold mask
  rw [if_neg hpos]
  by_cases hlow : i < w - bits
  · simp [hlow]
  · simp [hlow, hi, show w - bits + (i - (w - bits)) = i by omega]

theorem toNat_and_mask (a : BitVec 128) : (a &&& mask 128 64).toNat % 2 ^ 64 = 0 := by
  rw [and_mask (by decide), BitVec.toNat_shiftLeft, Nat.shiftLeft_eq]
  omega

/-- A network: an address and how many of its leading bits count. -/
inductive IpNetwork where
  | v4 (address : BitVec 32) (bits : ℕ) (h : bits ≤ 32)
  | v6 (address : BitVec 128) (bits : ℕ) (h : bits ≤ 128)

/-- The addresses that have the leading bits of a network. -/
def IpNetwork.Contains : IpNetwork → IpAddr → Prop
  | .v4 network bits _, .v4 a => a >>> (32 - bits) = network >>> (32 - bits)
  | .v6 network bits _, .v6 a => a >>> (128 - bits) = network >>> (128 - bits)
  | _, _ => False

/-! ### Hosts -/

theorem toIpv4Mapped_eq_some_iff {a : BitVec 128} {x : BitVec 32} :
    toIpv4Mapped a = some x ↔ a = toIpv6Mapped x := by
  have hx := x.isLt
  have hmapped : (toIpv6Mapped x).toNat = 0xffff * 2 ^ 32 + x.toNat := by
    rw [toIpv6Mapped, BitVec.toNat_ofNat]
    omega
  have hshift : a >>> 32 = 0xffff#128 ↔ a.toNat / 2 ^ 32 = 0xffff := by
    rw [← BitVec.toNat_inj, BitVec.toNat_ushiftRight, Nat.shiftRight_eq_div_pow]
    rfl
  have hlow : a.setWidth 32 = x ↔ a.toNat % 2 ^ 32 = x.toNat := by
    rw [← BitVec.toNat_inj, BitVec.toNat_setWidth]
  rw [← BitVec.toNat_inj, hmapped]
  unfold toIpv4Mapped
  by_cases h : a >>> 32 = 0xffff#128
  · rw [if_pos h, Option.some.injEq, hlow]
    rw [hshift] at h
    omega
  · rw [if_neg h]
    rw [hshift] at h
    constructor
    · intro hnone
      cases hnone
    · intro heq
      omega

/-- The IPv4 address for an IPv6 address that stands for one. -/
def IpAddr.canonical : IpAddr → IpAddr
  | .v4 a => .v4 a
  | .v6 a => ((toIpv4Mapped a).map .v4).getD (.v6 a)

theorem canonical_of_mapped {a : BitVec 128} {x : BitVec 32} (h : toIpv4Mapped a = some x) :
    (IpAddr.v6 a).canonical = .v4 x := by
  rw [IpAddr.canonical, h]
  rfl

theorem canonical_of_not_mapped {a : BitVec 128} (h : toIpv4Mapped a = none) :
    (IpAddr.v6 a).canonical = .v6 a := by
  rw [IpAddr.canonical, h]
  rfl

/-- Addresses that stand for IPv4 addresses are in one network of 64 bits, that of zero. -/
theorem shift_of_mapped {a : BitVec 128} {x : BitVec 32} (h : toIpv4Mapped a = some x) :
    a >>> 64 = 0#128 := by
  have hx := x.isLt
  rw [toIpv4Mapped_eq_some_iff] at h
  apply BitVec.eq_of_toNat_eq
  rw [h, BitVec.toNat_ushiftRight, Nat.shiftRight_eq_div_pow, toIpv6Mapped, BitVec.toNat_ofNat]
  show _ = 0
  omega

theorem canonical_v4 (x : BitVec 32) : (IpAddr.v4 x).canonical = .v4 x := rfl

/-- Two clients that are one: the same IPv4 host, or hosts of the same IPv6 network of 64 bits. -/
def SameClient (a b : IpAddr) : Prop :=
  match a.canonical, b.canonical with
  | .v4 a, .v4 b => a = b
  | .v6 a, .v6 b => a >>> 64 = b >>> 64
  | _, _ => False

def IpAddr.isV4 : IpAddr → Bool
  | .v4 _ => true
  | .v6 _ => false

/-- The two addresses of one host are of different families. -/
theorem isV4_ne_of_canonical {a b : IpAddr} (h : a.canonical = b.canonical) (hne : a ≠ b) :
    a.isV4 ≠ b.isV4 := by
  cases a with
  | v4 x =>
    cases b with
    | v4 y => exact absurd h hne
    | v6 w => exact Bool.noConfusion
  | v6 v =>
    cases b with
    | v4 y => exact Bool.noConfusion
    | v6 w =>
      have h : ((toIpv4Mapped v).map IpAddr.v4).getD (.v6 v) =
          ((toIpv4Mapped w).map IpAddr.v4).getD (.v6 w) := h
      cases hv : toIpv4Mapped v <;> cases hw : toIpv4Mapped w <;> rw [hv, hw] at h
      · exact absurd h hne
      · cases h
      · cases h
      · next x y =>
        obtain rfl : x = y := IpAddr.v4.inj h
        rw [toIpv4Mapped_eq_some_iff] at hv hw
        exact absurd (congrArg IpAddr.v6 (hv.trans hw.symm)) hne

theorem IpNetwork.isV4_eq {network : IpNetwork} {a b : IpAddr} (ha : network.Contains a)
    (hb : network.Contains b) : a.isV4 = b.isV4 := by
  cases network <;> cases a <;> cases b <;> first | rfl | exact ha.elim | exact hb.elim

end IpAddress
