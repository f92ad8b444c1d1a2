import MyOs.Std.Stdlib

/-!
# What `atoi` computes

`atoi` weighs the characters as if each were a digit, whatever it is, and keeps the
result modulo 2^32. On a numeral the weight is the number.
-/

namespace MyOs

/-- The weight of one character: its distance from `'0'`. -/
def charWeight (c : UInt8) : Int := c.toInt8.toInt - 48

/-- The weight of a string, every character taken for a digit. -/
def weigh (x : List UInt8) : Int := x.foldl (fun w c => w * 10 + charWeight c) 0

/-- The number `atoi` reads, before it is reduced to an `int`. -/
def signedWeight (x : List UInt8) : Int :=
  if x.head? = some minusSign then -weigh x.tail else weigh x

@[simp] theorem weigh_nil : weigh [] = 0 := rfl

@[simp] theorem weigh_concat (x : List UInt8) (c : UInt8) :
    weigh (x ++ [c]) = weigh x * 10 + charWeight c := by
  simp [weigh]

theorem charToInt_eq (c : UInt8) : charToInt c = Int32.ofInt c.toInt8.toInt :=
  (Int32.ofInt_int8ToInt _).symm

/-- The loop keeps the weight modulo 2^32. -/
theorem atoiLoop_eq (x : List UInt8) : atoiLoop x = Int32.ofInt (weigh x) := by
  induction x using List.reverseRecOn with
  | nil => rfl
  | append_singleton x c ih =>
      have hstep : atoiLoop (x ++ [c]) = atoiLoop x * 10 + charToInt c - charToInt 48 := by
        simp [atoiLoop]
      have hten : (10 : Int32) = Int32.ofInt 10 := rfl
      have hzero : charToInt 48 = Int32.ofInt 48 := rfl
      rw [hstep, ih, hten, hzero, charToInt_eq, ← Int32.ofInt_mul, ← Int32.ofInt_add,
        ← Int32.ofInt_sub, weigh_concat, charWeight, Int.add_sub_assoc]

/-- `atoi` is the signed weight modulo 2^32. -/
theorem atoi_eq (x : List UInt8) : atoi x = Int32.ofInt (signedWeight x) := by
  rw [atoi, signedWeight]
  split
  · rw [atoiLoop_eq, Int32.ofInt_neg]
  · rw [atoiLoop_eq]

theorem charWeight_digit {c : UInt8} (h : IsDigit c) : charWeight c = (c.toNat - 48 : Nat) := by
  obtain ⟨hge, hle⟩ := h
  have hchar : c.toInt8.toInt = c.toNat := by
    rw [← Int8.toInt_toBitVec, UInt8.toBitVec_toInt8, BitVec.toInt_eq_toNat_of_lt]
    · rfl
    · rw [UInt8.toNat_toBitVec]
      omega
  rw [charWeight, hchar]
  omega

/-- The weight of digits is the number they stand for. -/
theorem weigh_digits {x : List UInt8} (h : ∀ c ∈ x, IsDigit c) : weigh x = decimalValue x := by
  induction x using List.reverseRecOn with
  | nil => rfl
  | append_singleton x c ih =>
      have hx : weigh x = decimalValue x := ih fun d hd => h d (List.mem_append_left _ hd)
      have hc : charWeight c = (c.toNat - 48 : Nat) := charWeight_digit (h c (by simp))
      rw [weigh_concat, hx, hc, decimalValue_concat]
      push_cast
      ring

theorem minusSign_not_digit : ¬ IsDigit minusSign := by decide

/-- A numeral weighs its number. -/
theorem signedWeight_numeral {x : List UInt8} {v : Nat} (h : IsNumeral x v) :
    signedWeight x = v := by
  have hhead : x.head? ≠ some minusSign := by
    intro heq
    exact minusSign_not_digit (h.digits _ (List.mem_of_mem_head? heq))
  rw [signedWeight, if_neg hhead, weigh_digits h.digits, h.value]

/-- The canonical numeral of an integer weighs the integer. -/
theorem signedWeight_intNumeral (n : Int) : signedWeight (intNumeral n) = n := by
  rw [intNumeral]
  split
  · next hneg =>
      have hnum := numeral_isNumeral n.natAbs
      rw [signedWeight, if_pos (by rfl), List.tail_cons, weigh_digits hnum.digits, hnum.value]
      omega
  · next hpos =>
      rw [signedWeight_numeral (numeral_isNumeral n.natAbs)]
      omega

/-- `atoi` reads the canonical numeral of an `int` back. -/
theorem atoi_intNumeral (n : Int32) : atoi (intNumeral n.toInt) = n := by
  rw [atoi_eq, signedWeight_intNumeral, Int32.ofInt_toInt]

end MyOs
