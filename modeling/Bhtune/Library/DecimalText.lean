import Mathlib.Data.List.Induction
import Mathlib.Data.Nat.Log
import Mathlib.Data.Rat.Defs
import Mathlib.Algebra.Order.Field.Basic
import Mathlib.Tactic.FieldSimp
import Mathlib.Tactic.Ring

/-!
# Decimal numerals as text

Printing a decimal fraction, with or without a power of ten behind it, and reading one back.  The
reader takes the decimal forms a float parser takes: a sign, digits with a point anywhere or
nowhere, and an exponent.

* `plainText` / `exponentText` — the digits of `m / 10 ^ n`, and `e` with its exponent;
* `parseNumber` — the exact value of a numeral;
* `parseNumber_plain`, `parseNumber_scientific` — what was printed is read back.
-/

namespace DecimalText

/-! ### Digits -/

/-- The character of a digit. -/
def digitChar (d : ℕ) : Char := Char.ofNat (48 + d)

/-- The longest prefix of digits, and what follows it. -/
def takeDigits : List Char → List ℕ × List Char
  | [] => ([], [])
  | c :: cs =>
    if c.isDigit then ((c.toNat - 48) :: (takeDigits cs).1, (takeDigits cs).2) else ([], c :: cs)

/-- The value of a list of digits, the leading one first. -/
def ofDigits (ds : List ℕ) : ℕ := ds.foldl (fun acc d => acc * 10 + d) 0

/-- The last `n` digits of a number. -/
def fixedDigits : ℕ → ℕ → List ℕ
  | 0, _ => []
  | n + 1, m => fixedDigits n (m / 10) ++ [m % 10]

/-- All digits of a number, at least one. -/
def natDigits (m : ℕ) : List ℕ := fixedDigits (Nat.log 10 m + 1) m

theorem digit_facts : ∀ d < 10, (digitChar d).isDigit = true ∧ (digitChar d).toNat - 48 = d ∧
    digitChar d ≠ '-' ∧ digitChar d ≠ '+' := by decide

theorem length_fixedDigits (n m : ℕ) : (fixedDigits n m).length = n := by
  induction n generalizing m with
  | zero => rfl
  | succ n ih => rw [fixedDigits, List.length_append, ih, List.length_singleton]

theorem lt_of_mem_fixedDigits {n m d : ℕ} (h : d ∈ fixedDigits n m) : d < 10 := by
  induction n generalizing m with
  | zero => simp [fixedDigits] at h
  | succ n ih =>
    rw [fixedDigits, List.mem_append, List.mem_singleton] at h
    rcases h with h | h
    · exact ih h
    · rw [h]
      exact Nat.mod_lt _ (by norm_num)

theorem ofDigits_append (xs ys : List ℕ) :
    ofDigits (xs ++ ys) = ofDigits xs * 10 ^ ys.length + ofDigits ys := by
  induction ys using List.reverseRecOn with
  | nil => simp [ofDigits]
  | append_singleton ys y ih =>
    have hsnoc : ∀ zs : List ℕ, ofDigits (zs ++ [y]) = ofDigits zs * 10 + y := by
      intro zs
      simp [ofDigits]
    rw [← List.append_assoc, hsnoc, hsnoc, ih, List.length_append, List.length_singleton]
    ring

theorem ofDigits_fixedDigits (n m : ℕ) : ofDigits (fixedDigits n m) = m % 10 ^ n := by
  induction n generalizing m with
  | zero => simp [fixedDigits, ofDigits, Nat.mod_one]
  | succ n ih =>
    rw [fixedDigits, ofDigits_append, ih, List.length_singleton, pow_one, pow_succ', Nat.mod_mul]
    simp [ofDigits]
    ring

theorem ofDigits_natDigits (m : ℕ) : ofDigits (natDigits m) = m := by
  rw [natDigits, ofDigits_fixedDigits]
  exact Nat.mod_eq_of_lt (Nat.lt_pow_succ_log_self (by norm_num) m)

theorem natDigits_ne_nil (m : ℕ) : natDigits m ≠ [] := by
  intro hnil
  have hlength := length_fixedDigits (Nat.log 10 m + 1) m
  rw [← natDigits, hnil] at hlength
  simp at hlength

/-- A text that no digit can be taken from. -/
def NoDigitHead (cs : List Char) : Prop := ∀ c ∈ cs.head?, c.isDigit = false

theorem takeDigits_of_noDigitHead {cs : List Char} (h : NoDigitHead cs) :
    takeDigits cs = ([], cs) := by
  cases cs with
  | nil => rfl
  | cons c cs =>
    have hc : c.isDigit = false := h c rfl
    simp [takeDigits, hc]

theorem takeDigits_append {ds : List ℕ} (hds : ∀ d ∈ ds, d < 10) {cs : List Char}
    (hcs : NoDigitHead cs) : takeDigits (ds.map digitChar ++ cs) = (ds, cs) := by
  induction ds with
  | nil => exact takeDigits_of_noDigitHead hcs
  | cons d ds ih =>
    obtain ⟨hdigit, hvalue, _⟩ := digit_facts d (hds d List.mem_cons_self)
    have hrest := ih fun x hx => hds x (List.mem_cons_of_mem _ hx)
    simp [takeDigits, hdigit, hvalue, hrest]

/-! ### Signs -/

/-- The sign in front of a negative number. -/
def signText (negative : Bool) : List Char := if negative then ['-'] else []

/-- The sign of a numeral, and what follows it. -/
def takeSign : List Char → Bool × List Char
  | [] => (false, [])
  | c :: cs => if c = '-' then (true, cs) else if c = '+' then (false, cs) else (false, c :: cs)

/-- A number with its sign. -/
def signed (negative : Bool) (x : ℚ) : ℚ := if negative then -x else x

theorem takeSign_signText (negative : Bool) {ds : List ℕ} (hds : ∀ d ∈ ds, d < 10) (hne : ds ≠ [])
    (cs : List Char) :
    takeSign (signText negative ++ (ds.map digitChar ++ cs))
      = (negative, ds.map digitChar ++ cs) := by
  cases negative with
  | true => simp [signText, takeSign]
  | false =>
    obtain ⟨d, rest, rfl⟩ := List.exists_cons_of_ne_nil hne
    obtain ⟨_, _, hminus, hplus⟩ := digit_facts d (hds d List.mem_cons_self)
    simp [signText, takeSign, hminus, hplus]

/-! ### Numerals -/

/-- The digits of `m / 10 ^ n`, with `n` of them behind the point. -/
def plainText (negative : Bool) (m n : ℕ) : List Char :=
  signText negative ++ ((natDigits (m / 10 ^ n)).map digitChar ++
    if n = 0 then [] else '.' :: (fixedDigits n m).map digitChar)

/-- A decimal exponent. -/
def exponentText (e : ℤ) : List Char :=
  'e' :: (signText (decide (e < 0)) ++ (natDigits e.natAbs).map digitChar)

/-- The digits behind a point, if there is one. -/
def takeFraction : List Char → List ℕ × List Char
  | [] => ([], [])
  | c :: cs => if c = '.' then takeDigits cs else ([], c :: cs)

/-- The exponent at the end of a numeral, `0` where there is none. -/
def parseExponent : List Char → Option ℤ
  | [] => some 0
  | c :: cs =>
    if c = 'e' ∨ c = 'E' then
      let sign := takeSign cs
      let digits := takeDigits sign.2
      if digits.1 = [] ∨ digits.2 ≠ [] then none
      else some (if sign.1 then -(ofDigits digits.1 : ℤ) else ofDigits digits.1)
    else none

/-- The exact value of a numeral. -/
def parseNumber (cs : List Char) : Option ℚ :=
  let sign := takeSign cs
  let whole := takeDigits sign.2
  let fraction := takeFraction whole.2
  if whole.1 = [] ∧ fraction.1 = [] then none
  else (parseExponent fraction.2).map fun e : ℤ =>
    signed sign.1 (ofDigits (whole.1 ++ fraction.1) * (10 : ℚ) ^ (e - fraction.1.length))

example : parseNumber "4.87e-7".toList = some (487 / 10 ^ 9) := by decide +kernel

theorem parseExponent_exponentText (e : ℤ) : parseExponent (exponentText e) = some e := by
  have hds : ∀ d ∈ natDigits e.natAbs, d < 10 := fun d => lt_of_mem_fixedDigits
  have hne := natDigits_ne_nil e.natAbs
  have hsign := takeSign_signText (decide (e < 0)) hds hne []
  have hnil : NoDigitHead [] := by simp [NoDigitHead]
  have hdigits := takeDigits_append hds hnil
  rw [List.append_nil] at hsign hdigits
  simp only [parseExponent, exponentText, true_or, if_true, hsign, hdigits, hne, ne_eq,
    not_true_eq_false, or_self, if_false, ofDigits_natDigits, decide_eq_true_eq, Option.some.injEq]
  split <;> omega

/-- What may stand behind the digits of a numeral. -/
structure Tail (cs : List Char) : Prop where
  noDigit : NoDigitHead cs
  noPoint : '.' ∉ cs.head?

/-- **The digits of a numeral are read back**, whatever exponent follows them. -/
theorem parseNumber_append (negative : Bool) (m n : ℕ) {tail : List Char} (h : Tail tail) :
    parseNumber (plainText negative m n ++ tail)
      = (parseExponent tail).map fun e : ℤ => signed negative (m * (10 : ℚ) ^ (e - n)) := by
  have hwhole : ∀ d ∈ natDigits (m / 10 ^ n), d < 10 := fun d => lt_of_mem_fixedDigits
  have hne := natDigits_ne_nil (m / 10 ^ n)
  by_cases hn : n = 0
  · -- no point: the tail follows the whole part
    have htext : plainText negative m n ++ tail
        = signText negative ++ ((natDigits m).map digitChar ++ tail) := by
      simp [plainText, hn]
    rw [hn, pow_zero, Nat.div_one] at hwhole hne
    have hfraction : takeFraction tail = ([], tail) := by
      cases tail with
      | nil => rfl
      | cons c cs =>
        have hc : c ≠ '.' := fun heq => h.noPoint (by simp [heq])
        simp [takeFraction, hc]
    rw [htext, parseNumber, takeSign_signText negative hwhole hne]
    simp only [takeDigits_append hwhole h.noDigit, hfraction, hne, false_and, if_false,
      List.append_nil, ofDigits_natDigits, List.length_nil, hn]
  · have htext : plainText negative m n ++ tail
        = signText negative ++ ((natDigits (m / 10 ^ n)).map digitChar
          ++ '.' :: ((fixedDigits n m).map digitChar ++ tail)) := by
      simp [plainText, hn]
    have hpoint : NoDigitHead ('.' :: ((fixedDigits n m).map digitChar ++ tail)) := by
      intro c hc
      rw [List.head?_cons, Option.mem_some_iff] at hc
      rw [← hc]
      decide
    have hfraction : takeFraction ('.' :: ((fixedDigits n m).map digitChar ++ tail))
        = (fixedDigits n m, tail) := by
      simp only [takeFraction, if_true]
      exact takeDigits_append (fun d => lt_of_mem_fixedDigits) h.noDigit
    have hvalue : ofDigits (natDigits (m / 10 ^ n) ++ fixedDigits n m) = m := by
      rw [ofDigits_append, ofDigits_natDigits, ofDigits_fixedDigits, length_fixedDigits,
        Nat.div_add_mod']
    rw [htext, parseNumber, takeSign_signText negative hwhole hne]
    simp only [takeDigits_append hwhole hpoint, hfraction, hne, false_and, if_false, hvalue,
      length_fixedDigits]

theorem tail_nil : Tail [] := ⟨by simp [NoDigitHead], by simp⟩

theorem tail_exponentText (e : ℤ) : Tail (exponentText e) := by
  constructor
  · simp [NoDigitHead, exponentText]
  · simp [exponentText]

theorem parseNumber_plain (negative : Bool) (m n : ℕ) :
    parseNumber (plainText negative m n) = some (signed negative (m * (10 : ℚ) ^ (-n : ℤ))) := by
  have happend := parseNumber_append negative m n tail_nil
  rw [List.append_nil] at happend
  rw [happend]
  simp [parseExponent]

theorem parseNumber_scientific (negative : Bool) (m n : ℕ) (e : ℤ) :
    parseNumber (plainText negative m n ++ exponentText e)
      = some (signed negative (m * (10 : ℚ) ^ (e - n))) := by
  rw [parseNumber_append negative m n (tail_exponentText e), parseExponent_exponentText]
  rfl

end DecimalText
