import Mathlib.Data.List.Induction
import MyOs.Base.Numeral
import MyOs.Base.Prog

/-!
# Numbers and strings (`stdlib.c`)

An `int` is an `Int32`, whose overflow wraps as the machine's does, and a `char` is the
byte it is stored as; its value as an `int` has a sign. A string in memory is a buffer
with a terminator, and an access outside the buffer stops the program.
-/

namespace MyOs

/-- A `char` as an `int`. -/
def charToInt (c : UInt8) : Int32 := c.toInt8.toInt32

/-- An `int` as a `char`: its low byte. -/
def intToChar (n : Int32) : UInt8 := n.toUInt32.toUInt8

@[simp] theorem intToChar_ofNat (n : Nat) : intToChar (.ofNat n) = .ofNat n := by
  rw [intToChar, Int32.toUInt32_ofNat']
  simp

@[simp] theorem intToChar_charToInt (c : UInt8) : intToChar (charToInt c) = c := by
  apply UInt8.toBitVec_inj.mp
  have hlow : (c.toBitVec.signExtend 32).setWidth 8 = c.toBitVec := by
    apply BitVec.eq_of_getLsbD_eq
    intro i hi
    rw [BitVec.getLsbD_setWidth, BitVec.getLsbD_signExtend]
    simp [hi, Nat.lt_trans hi (by decide : 8 < 32)]
  simpa [intToChar, charToInt] using hlow

/-- `'-'`. -/
def minusSign : UInt8 := 45

/-- A `char` array. -/
abbrev CharBuffer := List UInt8

namespace CharBuffer

/-- `str[i]`. -/
def readChar (i : Nat) : Prog CharBuffer UInt8 := fun str =>
  match str[i]? with
  | some c => .ok (c, str)
  | none => .error (.badAccess i)

/-- `str[i] = c`. -/
def writeChar (i : Nat) (c : UInt8) : Prog CharBuffer Unit := fun str =>
  if i < str.length then .ok ((), str.set i c) else .error (.badAccess i)

/-- The string in a buffer, if it is terminated there. -/
def string (str : CharBuffer) : Option (List UInt8) :=
  if 0 ∈ str then some (str.takeWhile (· ≠ 0)) else none

theorem writeChar_at (l rest : List UInt8) (c d : UInt8) :
    writeChar l.length d (l ++ c :: rest) = .ok ((), l ++ d :: rest) := by
  rw [writeChar, if_pos (by simp)]
  simp

theorem readChar_at (l rest : List UInt8) (c : UInt8) :
    readChar l.length (l ++ c :: rest) = .ok (c, l ++ c :: rest) := by
  rw [readChar]
  simp

theorem string_of_terminated {x rest : List UInt8} (h : 0 ∉ x) :
    string (x ++ 0 :: rest) = some x := by
  have hx : ∀ c ∈ x, decide (c ≠ 0) = true := by
    intro c hc
    exact decide_eq_true fun heq => h (heq ▸ hc)
  rw [string, if_pos (by simp), List.takeWhile_append_of_pos hx]
  simp

end CharBuffer

open CharBuffer

theorem toInt_div_ten (num : Int32) : (num / 10).toInt = num.toInt.tdiv 10 :=
  Int32.toInt_div_of_ne_right num 10 (by decide)

/-- While digits are left the number gets smaller. -/
theorem div_ten_lt {num : Int32} (h : num / 10 > 0) :
    (num / 10).toInt.toNat < num.toInt.toNat := by
  have hpos := Int32.lt_iff_toInt_lt.mp h
  rw [toInt_div_ten, Int32.toInt_zero] at hpos
  rw [toInt_div_ten]
  have hnum : 0 ≤ num.toInt := by
    by_contra hneg
    have hle : -(-num.toInt).tdiv 10 ≤ 0 := by
      rw [Int.tdiv_eq_ediv_of_nonneg (by omega)]
      omega
    rw [Int.neg_tdiv, Int.neg_neg] at hle
    omega
  rw [Int.tdiv_eq_ediv_of_nonneg hnum] at hpos ⊢
  omega

/-- The digits of `int_to_string`, from the last one on; returns the index after them. -/
def digitLoop (num : Int32) (i : Nat) : Prog CharBuffer Nat := do
  writeChar i (intToChar (num % 10 + charToInt 48))
  if num / 10 > 0 then digitLoop (num / 10) (i + 1) else pure (i + 1)
termination_by num.toInt.toNat
decreasing_by exact div_ten_lt ‹_›

/-- The body of the reversing loop. -/
def swapChars (i j : Nat) : Prog CharBuffer Unit := do
  let temp ← readChar j
  let other ← readChar (i - j - 1)
  writeChar j other
  writeChar (i - j - 1) temp

/-- `int_to_string`. -/
def intToString (num : Int32) : Prog CharBuffer Unit := do
  let isNegative := decide (num < 0)
  let i ← digitLoop (if isNegative then -num else num) 0
  let i ← if isNegative then do
      writeChar i minusSign
      pure (i + 1)
    else pure i
  writeChar i 0
  Prog.forLoop (swapChars i) 0 (i / 2)

/-- The loop of `atoi` over the characters up to the terminator. -/
def atoiLoop (str : List UInt8) : Int32 :=
  str.foldl (fun result c => result * 10 + charToInt c - charToInt 48) 0

/-- `atoi`, of the string up to its terminator. -/
def atoi (str : List UInt8) : Int32 :=
  if str.head? = some minusSign then -atoiLoop str.tail else atoiLoop str

/-- The size of `put_int`'s buffer. -/
def numStrSize : Nat := 12

end MyOs
