import Mathlib.Data.Nat.Digits.Lemmas

/-!
# Hexadecimal numerals of a fixed width

Characters are their ASCII codes. `hexDigits k n` are the last `k` hexadecimal digits of
`n`, the most significant one first, and `hexValue` reads a numeral back.
-/

namespace MyOs

/-- The character of a hexadecimal digit. -/
def hexDigitChar (d : Nat) : UInt8 := .ofNat (if d < 10 then 48 + d else 55 + d)

/-- A character is a hexadecimal digit, in either case. -/
def IsHexDigit (c : UInt8) : Prop :=
  48 ≤ c.toNat ∧ c.toNat ≤ 57 ∨ 65 ≤ c.toNat ∧ c.toNat ≤ 70 ∨ 97 ≤ c.toNat ∧ c.toNat ≤ 102

instance (c : UInt8) : Decidable (IsHexDigit c) := inferInstanceAs (Decidable (_ ∨ _ ∨ _))

/-- The value of a hexadecimal digit. -/
def hexDigitValue (c : UInt8) : Nat :=
  if c.toNat ≤ 57 then c.toNat - 48 else if c.toNat ≤ 70 then c.toNat - 55 else c.toNat - 87

/-- The number a string of hexadecimal digits stands for. -/
def hexValue (x : List UInt8) : Nat := x.foldl (fun v c => 16 * v + hexDigitValue c) 0

/-- The last `k` hexadecimal digits of `n`. -/
def hexDigits : (k n : Nat) → List UInt8
  | 0, _ => []
  | k + 1, n => hexDigits k (n / 16) ++ [hexDigitChar (n % 16)]

/-! ## Digits -/

theorem hexDigitChar_isHexDigit {d : Nat} (h : d < 16) : IsHexDigit (hexDigitChar d) := by
  have hall : ∀ d < 16, IsHexDigit (hexDigitChar d) := by decide
  exact hall d h

@[simp] theorem hexDigitValue_hexDigitChar {d : Nat} (h : d < 16) :
    hexDigitValue (hexDigitChar d) = d := by
  have hall : ∀ d < 16, hexDigitValue (hexDigitChar d) = d := by decide
  exact hall d h

theorem IsHexDigit.ne_zero {c : UInt8} (h : IsHexDigit c) : c ≠ 0 := by
  rintro rfl
  exact absurd h (by decide)

/-! ## Numerals -/

@[simp] theorem hexValue_nil : hexValue [] = 0 := rfl

@[simp] theorem hexValue_concat (x : List UInt8) (c : UInt8) :
    hexValue (x ++ [c]) = 16 * hexValue x + hexDigitValue c := by
  simp [hexValue]

@[simp] theorem length_hexDigits (k n : Nat) : (hexDigits k n).length = k := by
  induction k generalizing n with
  | zero => rfl
  | succ k ih => simp [hexDigits, ih]

theorem isHexDigit_of_mem {k n : Nat} {c : UInt8} (h : c ∈ hexDigits k n) : IsHexDigit c := by
  induction k generalizing n with
  | zero => cases h
  | succ k ih =>
      rcases List.mem_append.mp h with hfront | hlast
      · exact ih hfront
      · rw [List.mem_singleton.mp hlast]
        exact hexDigitChar_isHexDigit (Nat.mod_lt n (by decide))

/-- No digit is the terminator. -/
theorem zero_not_mem_hexDigits (k n : Nat) : 0 ∉ hexDigits k n :=
  fun h => (isHexDigit_of_mem h).ne_zero rfl

/-- `k` digits keep a number modulo `16 ^ k`. -/
theorem hexValue_hexDigits (k n : Nat) : hexValue (hexDigits k n) = n % 16 ^ k := by
  induction k generalizing n with
  | zero => simp [hexDigits, Nat.mod_one]
  | succ k ih =>
      have hlast : n % 16 < 16 := Nat.mod_lt n (by decide)
      rw [hexDigits, hexValue_concat, ih, hexDigitValue_hexDigitChar hlast, Nat.pow_succ',
        Nat.mod_mul]
      omega

/-- Numbers that fit are told apart by their digits. -/
theorem hexDigits_inj {k n m : Nat} (hn : n < 16 ^ k) (hm : m < 16 ^ k) :
    hexDigits k n = hexDigits k m ↔ n = m := by
  constructor
  · intro h
    have hvalue := congrArg hexValue h
    rwa [hexValue_hexDigits, hexValue_hexDigits, Nat.mod_eq_of_lt hn, Nat.mod_eq_of_lt hm]
      at hvalue
  · rintro rfl
    rfl

end MyOs
