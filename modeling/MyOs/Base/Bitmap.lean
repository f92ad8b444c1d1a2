import Mathlib.Logic.Function.Basic
import Mathlib.Algebra.Group.Nat.Defs
import Mathlib.Tactic.Common

/-!
# Bitmaps held in an array of bytes

Bit `k` of a bitmap is bit `k % 8` of byte `k / 8`. `markUsed` and `markFree`
are the two read-modify-write updates; each changes the one bit it names.
-/

namespace MyOs

/-- A `uint8_t`. -/
abbrev Byte := BitVec 8

/-- An array of bytes, read as a bitmap. -/
abbrev Bitmap := Nat → Byte

namespace Bitmap

/-- `1 << offset`, as the byte it is combined with. -/
def bitMask (offset : Nat) : Byte := 1#8 <<< offset

/-- Bit `k`. -/
def bit (b : Bitmap) (k : Nat) : Bool := (b (k / 8)).getLsbD (k % 8)

/-- `b[k / 8] |= 1 << (k % 8)`. -/
def markUsed (b : Bitmap) (k : Nat) : Bitmap :=
  Function.update b (k / 8) (b (k / 8) ||| bitMask (k % 8))

/-- `b[k / 8] &= ~(1 << (k % 8))`. -/
def markFree (b : Bitmap) (k : Nat) : Bitmap :=
  Function.update b (k / 8) (b (k / 8) &&& ~~~ (bitMask (k % 8)))

theorem getLsbD_bitMask (i j : Nat) (hi : i < 8) :
    (bitMask j).getLsbD i = decide (i = j) := by
  simp only [bitMask, BitVec.getLsbD_shiftLeft, BitVec.getLsbD_one, hi, decide_true,
    Bool.true_and]
  by_cases hlt : i < j
  · simp [hlt, Nat.ne_of_lt hlt]
  · have : i - j = 0 ↔ i = j := by omega
    simp [hlt, this]

/-- Testing a byte against a mask reads the masked bit. -/
theorem and_bitMask_eq_zero (b : Byte) (j : Nat) (hj : j < 8) :
    b &&& bitMask j = 0#8 ↔ b.getLsbD j = false := by
  constructor
  · intro h
    have hbit := congrArg (fun v : Byte => v.getLsbD j) h
    simpa [getLsbD_bitMask j j hj] using hbit
  · intro h
    apply BitVec.eq_of_getLsbD_eq
    intro i hi
    rw [BitVec.getLsbD_and, getLsbD_bitMask i j hi]
    by_cases hij : i = j
    · subst hij
      simp [h]
    · simp [hij]

/-- A byte is `0xFF` when no bit is clear. -/
theorem eq_allOnes_iff (b : Byte) : b = 0xFF#8 ↔ ∀ j, j < 8 → b.getLsbD j = true := by
  constructor
  · rintro rfl
    decide
  · intro h
    apply BitVec.eq_of_getLsbD_eq
    intro i hi
    rw [h i hi]
    revert i
    decide

theorem bit_markUsed (b : Bitmap) (k j : Nat) :
    (b.markUsed k).bit j = (decide (j = k) || b.bit j) := by
  simp only [bit, markUsed, Function.update_apply]
  by_cases hword : j / 8 = k / 8
  · rw [if_pos hword, BitVec.getLsbD_or, getLsbD_bitMask _ _ (Nat.mod_lt _ (by omega)), hword]
    have : j % 8 = k % 8 ↔ j = k := by omega
    simp [this, Bool.or_comm]
  · have : j ≠ k := fun h => hword (by rw [h])
    simp [hword, this]

theorem bit_markFree (b : Bitmap) (k j : Nat) :
    (b.markFree k).bit j = (!decide (j = k) && b.bit j) := by
  simp only [bit, markFree, Function.update_apply]
  by_cases hword : j / 8 = k / 8
  · have hlt : j % 8 < 8 := Nat.mod_lt _ (by omega)
    rw [if_pos hword, BitVec.getLsbD_and, BitVec.getLsbD_not, getLsbD_bitMask _ _ hlt, hword]
    have : j % 8 = k % 8 ↔ j = k := by omega
    simp [this, hlt, Bool.and_comm]
  · have : j ≠ k := fun h => hword (by rw [h])
    simp [hword, this]

/-- Marking a list of bits used sets those bits and no other. -/
theorem bit_foldl_markUsed (l : List Nat) (b : Bitmap) (j : Nat) :
    (l.foldl markUsed b).bit j = (decide (j ∈ l) || b.bit j) := by
  induction l generalizing b with
  | nil => simp
  | cons k rest ih =>
      rw [List.foldl_cons, ih, bit_markUsed]
      by_cases hjk : j = k
      · simp [hjk]
      · simp [hjk]

end Bitmap
end MyOs
