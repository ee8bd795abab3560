import Mathlib.Data.Int.ModEq
import Mathlib.Data.Int.Init

/-!
# Unbounded and 32-bit two's-complement arithmetic behind one switch

Counter code is written once against an `IntArith`.  In `exact` every intermediate result is the
mathematical one; in `machine` it is reduced to the 32-bit word the compiled program keeps (a
release build wraps silently).  `u32_eq` and `i32_eq` say when the two cannot be told apart.
-/

namespace MachineInt

/-- Which integers the counters are made of. -/
inductive IntArith where
  /-- Mathematical integers. -/
  | exact
  /-- Wrapping 32-bit words. -/
  | machine
  deriving DecidableEq, Repr

namespace IntArith

/-- An unsigned 32-bit result. -/
def u32 : IntArith → ℕ → ℕ
  | exact, n => n
  | machine, n => n % 2 ^ 32

/-- A signed 32-bit result. -/
def i32 : IntArith → ℤ → ℤ
  | exact, z => z
  | machine, z => Int.bmod z (2 ^ 32)

@[simp] theorem u32_exact (n : ℕ) : exact.u32 n = n := rfl

@[simp] theorem i32_exact (z : ℤ) : exact.i32 z = z := rfl

theorem u32_eq {ar : IntArith} {n : ℕ} (h : n < 2 ^ 32) : ar.u32 n = n := by
  cases ar with
  | exact => rfl
  | machine => exact Nat.mod_eq_of_lt h

theorem i32_eq {ar : IntArith} {z : ℤ} (h₁ : -2 ^ 31 ≤ z) (h₂ : z < 2 ^ 31) : ar.i32 z = z := by
  cases ar with
  | exact => rfl
  | machine =>
      simp only [i32, Int.bmod_def]
      omega

/-- A signed word is in range whatever it was computed from. -/
theorem i32_machine_lt (z : ℤ) : machine.i32 z < 2 ^ 31 := by
  simp only [i32, Int.bmod_def]
  omega

theorem u32_machine_lt (n : ℕ) : machine.u32 n < 2 ^ 32 := Nat.mod_lt _ (Nat.two_pow_pos 32)

end IntArith

end MachineInt
