import Mathlib.Algebra.Group.Nat.Defs
import Mathlib.Tactic.Common

/-!
# 32-bit words

Machine words are natural numbers below `2 ^ 32`; `u32` is the truncation the
C code's `uint32_t` and `size_t` arithmetic performs.
-/

namespace MyOs

/-- Truncation to a 32-bit word. -/
def u32 (n : Nat) : Nat := n % 2 ^ 32

@[simp] theorem u32_lt (n : Nat) : u32 n < 2 ^ 32 := Nat.mod_lt _ (by decide)

theorem u32_of_lt {n : Nat} (h : n < 2 ^ 32) : u32 n = n := Nat.mod_eq_of_lt h

/-- `a - b` on 32-bit words. -/
def sub32 (a b : Nat) : Nat := u32 (a + (2 ^ 32 - u32 b))

theorem sub32_of_le {a b : Nat} (hle : b ≤ a) (ha : a < 2 ^ 32) : sub32 a b = a - b := by
  unfold sub32 u32
  omega

end MyOs
