import Mathlib.Data.Nat.Digits.Lemmas

/-!
# Decimal numerals

Characters are their ASCII codes. `numeral` is the canonical numeral of a number,
without leading zeros; `IsNumeral` are all the numerals of a number, with any. The
two recursions, over the digits from the left and over the number from its last digit,
meet in `numeral_concat`.
-/

namespace MyOs

/-- The character of a digit. -/
def digitChar (d : Nat) : UInt8 := .ofNat (48 + d)

/-- The canonical numeral of a natural number. -/
def numeral (m : Nat) : List UInt8 :=
  if m = 0 then [digitChar 0] else ((Nat.digits 10 m).map digitChar).reverse

/-- The canonical numeral of an integer, with a minus sign for a negative one. -/
def intNumeral (n : Int) : List UInt8 :=
  if n < 0 then 45 :: numeral n.natAbs else numeral n.natAbs

/-- A character is a decimal digit. -/
def IsDigit (c : UInt8) : Prop := 48 ≤ c.toNat ∧ c.toNat ≤ 57

instance (c : UInt8) : Decidable (IsDigit c) := inferInstanceAs (Decidable (_ ∧ _))

/-- The number a string of digits stands for. -/
def decimalValue (x : List UInt8) : Nat := x.foldl (fun v c => 10 * v + (c.toNat - 48)) 0

/-- `x` is a decimal numeral of `v`, with or without leading zeros. -/
structure IsNumeral (x : List UInt8) (v : Nat) : Prop where
  nonempty : x ≠ []
  digits : ∀ c ∈ x, IsDigit c
  value : decimalValue x = v

theorem isNumeral_iff {x : List UInt8} {v : Nat} :
    IsNumeral x v ↔ x ≠ [] ∧ (∀ c ∈ x, IsDigit c) ∧ decimalValue x = v :=
  ⟨fun h => ⟨h.nonempty, h.digits, h.value⟩, fun h => ⟨h.1, h.2.1, h.2.2⟩⟩

instance (x : List UInt8) (v : Nat) : Decidable (IsNumeral x v) :=
  decidable_of_iff (x ≠ [] ∧ (x.all fun c => decide (IsDigit c)) = true ∧ decimalValue x = v) (by
    simp only [isNumeral_iff, List.all_eq_true, decide_eq_true_eq])

@[simp] theorem decimalValue_nil : decimalValue [] = 0 := rfl

@[simp] theorem decimalValue_concat (x : List UInt8) (c : UInt8) :
    decimalValue (x ++ [c]) = 10 * decimalValue x + (c.toNat - 48) := by
  simp [decimalValue]

theorem digitChar_toNat {d : Nat} (h : d < 10) : (digitChar d).toNat = 48 + d := by
  rw [digitChar, UInt8.toNat_ofNat', Nat.mod_eq_of_lt (by omega)]

theorem digitChar_isDigit {d : Nat} (h : d < 10) : IsDigit (digitChar d) := by
  rw [IsDigit, digitChar_toNat h]
  omega

theorem numeral_of_lt {m : Nat} (h : m < 10) : numeral m = [digitChar m] := by
  rw [numeral]
  split
  · next hzero => rw [hzero]
  · next hpos => simp [Nat.digits_of_lt 10 m hpos h]

/-- A longer numeral ends in the last digit. -/
theorem numeral_concat {m : Nat} (h : 10 ≤ m) :
    numeral m = numeral (m / 10) ++ [digitChar (m % 10)] := by
  have hdiv : m / 10 ≠ 0 := by omega
  rw [numeral, numeral, if_neg (by omega), if_neg hdiv, Nat.digits_def' (by decide) (by omega)]
  simp

theorem length_numeral_pos (m : Nat) : 0 < (numeral m).length := by
  by_cases h : m < 10
  · simp [numeral_of_lt h]
  · simp [numeral_concat (Nat.not_lt.mp h)]

/-- A number below `10 ^ k` has at most `k` digits. -/
theorem length_numeral_le {m k : Nat} (hk : 0 < k) (h : m < 10 ^ k) : (numeral m).length ≤ k := by
  rw [numeral]
  split
  · simpa using Nat.succ_le_of_lt hk
  · simpa using (Nat.digits_length_le_iff (by decide) m).mpr h

/-- A canonical numeral is a numeral of its number. -/
theorem numeral_isNumeral (m : Nat) : IsNumeral (numeral m) m := by
  induction m using Nat.strongRecOn with
  | ind m ih =>
      by_cases h : m < 10
      · refine ⟨?_, ?_, ?_⟩
        · simp [numeral_of_lt h]
        · simpa [numeral_of_lt h] using digitChar_isDigit h
        · simp [numeral_of_lt h, decimalValue, digitChar_toNat h]
      · have hle := Nat.not_lt.mp h
        have hlast : m % 10 < 10 := Nat.mod_lt m (by decide)
        obtain ⟨_, hdigits, hvalue⟩ := ih (m / 10) (by omega)
        rw [numeral_concat hle]
        refine ⟨by simp, fun c hc => ?_, ?_⟩
        · rcases List.mem_append.mp hc with hfront | hback
          · exact hdigits c hfront
          · rw [List.mem_singleton.mp hback]
            exact digitChar_isDigit hlast
        · rw [decimalValue_concat, hvalue, digitChar_toNat hlast]
          omega

end MyOs
