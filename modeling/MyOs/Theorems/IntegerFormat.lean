import MyOs.Logic.Atoi

/-!
# Integer formatting

`int_to_string` writes the digits from the last one on, then the sign, and reverses what
it wrote. Each loop is followed on a buffer split around the cells it has reached: the
digits by strong induction on the number, the swaps by induction on the middle part from
both ends.
-/

namespace MyOs

open CharBuffer

/-! ## The digits -/

theorem intToChar_digit {num : Int32} (h : 0 ≤ num.toInt) :
    intToChar (num % 10 + charToInt 48) = digitChar (num.toInt.toNat % 10) := by
  have hmod : num % 10 + charToInt 48 = Int32.ofNat (48 + num.toInt.toNat % 10) := by
    apply Int32.toInt_inj.mp
    have hten : (10 : Int32).toInt = 10 := rfl
    have hzero : (charToInt 48).toInt = 48 := rfl
    rw [Int32.toInt_add, Int32.toInt_mod, hten, hzero, Int.tmod_eq_emod_of_nonneg h,
      Int32.toInt_ofNat_of_lt (by omega)]
    rw [Int.bmod_eq_of_le (by omega) (by omega)]
    omega
  rw [hmod, intToChar_ofNat, digitChar]

/-- The digit loop writes the numeral backwards. -/
theorem digitLoop_ok (m : Nat) :
    ∀ (num : Int32) (l rest : List UInt8), 0 ≤ num.toInt → num.toInt.toNat = m →
      (numeral m).length ≤ rest.length →
      digitLoop num l.length (l ++ rest) =
        .ok (l.length + (numeral m).length,
          l ++ (numeral m).reverse ++ rest.drop (numeral m).length) := by
  induction m using Nat.strongRecOn with
  | ind m ih =>
      intro num l rest hnum hm hlen
      obtain ⟨c, rest, rfl⟩ : ∃ c r, rest = c :: r := by
        refine List.exists_cons_of_length_pos ?_
        have hpos := length_numeral_pos m
        omega
      have hdiv : (num / 10).toInt = (m / 10 : Nat) := by
        rw [toInt_div_ten, Int.tdiv_eq_ediv_of_nonneg hnum]
        omega
      rw [digitLoop, Prog.bind_of_ok (writeChar_at l rest c _), intToChar_digit hnum, hm]
      by_cases hlast : m < 10
      · have hstop : ¬ num / 10 > 0 := by
          intro hpos
          have hlt := Int32.lt_iff_toInt_lt.mp hpos
          rw [hdiv, Int32.toInt_zero] at hlt
          omega
        rw [if_neg hstop, numeral_of_lt hlast, Nat.mod_eq_of_lt hlast]
        simp
      · have hle := Nat.not_lt.mp hlast
        have hmore : num / 10 > 0 := by
          apply Int32.lt_iff_toInt_lt.mpr
          rw [hdiv, Int32.toInt_zero]
          omega
        rw [numeral_concat hle, List.length_append] at hlen ⊢
        have hrest := ih (m / 10) (by omega) (num / 10) (l ++ [digitChar (m % 10)]) rest
          (by omega) (by omega) (by simpa using hlen)
        rw [List.length_append, List.append_assoc] at hrest
        rw [if_pos hmore]
        refine hrest.trans ?_
        simp [Nat.add_assoc, Nat.add_comm 1]

/-! ## The reversal -/

/-- One swap of two cells. -/
theorem swapChars_ok (l mid suf : List UInt8) (c d : UInt8) {i : Nat}
    (hi : i = l.length + (mid.length + 2) + l.length) :
    swapChars i l.length (l ++ c :: mid ++ d :: suf) =
      .ok ((), l ++ d :: mid ++ c :: suf) := by
  have hlast : i - l.length - 1 = (l ++ c :: mid).length := by
    simp
    omega
  have hlast' : (l ++ c :: mid).length = (l ++ d :: mid).length := by simp
  have hfirst : l ++ c :: mid ++ d :: suf = l ++ c :: (mid ++ d :: suf) := by simp
  rw [swapChars, hfirst, Prog.bind_of_ok (readChar_at l _ c), ← hfirst, hlast,
    Prog.bind_of_ok (readChar_at _ suf d), hfirst, Prog.bind_of_ok (writeChar_at l _ c d),
    hlast']
  have hnext : l ++ d :: (mid ++ d :: suf) = (l ++ d :: mid) ++ d :: suf := by simp
  rw [hnext, writeChar_at]

/-- The swaps still to do reverse the middle part. -/
theorem swapLoop_ok {i : Nat} (rest : List UInt8) (mid : List UInt8) :
    ∀ pre suf : List UInt8, pre.length = suf.length →
      i = pre.length + mid.length + suf.length →
      Prog.forLoop (swapChars i) pre.length (mid.length / 2) (pre ++ mid ++ (suf ++ rest)) =
        .ok ((), pre ++ mid.reverse ++ (suf ++ rest)) := by
  induction mid using List.bidirectionalRec with
  | nil =>
      intro pre suf _ _
      rfl
  | singleton c =>
      intro pre suf _ _
      simp [Prog.forLoop]
  | cons_append c mid d ih =>
      intro pre suf hsame hi
      have hturns : (c :: (mid ++ [d])).length / 2 = mid.length / 2 + 1 := by
        simp
        omega
      have hswap := swapChars_ok pre mid (suf ++ rest) c d (i := i) (by simp at hi; omega)
      have hrest := ih (pre ++ [d]) (c :: suf) (by simp; omega) (by simp at hi ⊢; omega)
      have hstart : pre ++ (c :: (mid ++ [d])) ++ (suf ++ rest) =
          pre ++ c :: mid ++ d :: (suf ++ rest) := by simp
      rw [hturns, Prog.forLoop, hstart, Prog.bind_of_ok hswap]
      simpa using hrest

theorem reverse_ok (x rest : List UInt8) :
    Prog.forLoop (swapChars x.length) 0 (x.length / 2) (x ++ rest) =
      .ok ((), x.reverse ++ rest) := by
  have h := swapLoop_ok (i := x.length) rest x [] [] rfl (by simp)
  simpa using h

/-! ## The whole function -/

theorem terminator_not_digit : ¬ IsDigit 0 := by decide

theorem zero_not_mem_intNumeral (n : Int) : 0 ∉ intNumeral n := by
  intro hmem
  have hnum := (numeral_isNumeral n.natAbs).digits
  rw [intNumeral] at hmem
  split at hmem
  · rcases List.mem_cons.mp hmem with heq | hmem
    · cases heq
    · exact terminator_not_digit (hnum 0 hmem)
  · exact terminator_not_digit (hnum 0 hmem)

/-- The terminator and the swaps, after the characters `x`. -/
theorem finish_ok (x : List UInt8) {rest : List UInt8} (h : 0 < rest.length) :
    (do writeChar x.length 0; Prog.forLoop (swapChars x.length) 0 (x.length / 2))
      (x ++ rest) = .ok ((), x.reverse ++ 0 :: rest.tail) := by
  obtain ⟨c, rest, rfl⟩ := List.exists_cons_of_length_pos h
  rw [Prog.bind_of_ok (writeChar_at x rest c 0), reverse_ok]
  rfl

/-- An `int` with a negation is formatted canonically. -/
theorem intToString_ok {n : Int32} (hn : n ≠ Int32.minValue) {buf : CharBuffer}
    (hbuf : buf.length = numStrSize) :
    ∃ rest, intToString n buf = .ok ((), intNumeral n.toInt ++ 0 :: rest) := by
  have hlow := n.le_toInt
  have hhigh := n.toInt_lt
  have hmin : n.toInt ≠ -2 ^ 31 := by
    intro heq
    exact hn (Int32.toInt_inj.mp heq)
  have hlen : (numeral n.toInt.natAbs).length ≤ 10 :=
    length_numeral_le (by decide) (by omega)
  rw [numStrSize] at hbuf
  by_cases hneg : n < 0
  · have hsign := Int32.lt_iff_toInt_lt.mp hneg
    rw [Int32.toInt_zero] at hsign
    have hnegate : (-n).toInt = n.toInt.natAbs := by
      rw [Int32.toInt_neg, Int.bmod_eq_of_le (by omega) (by omega)]
      omega
    have hdigits := digitLoop_ok n.toInt.natAbs (-n) [] buf (by omega) (by omega) (by omega)
    simp only [List.length_nil, List.nil_append, Nat.zero_add] at hdigits
    obtain ⟨c, rest, hrest⟩ := List.exists_cons_of_length_pos
      (l := buf.drop (numeral n.toInt.natAbs).length) (by rw [List.length_drop]; omega)
    have hroom : 0 < rest.length := by
      have hdrop := congrArg List.length hrest
      rw [List.length_drop, List.length_cons] at hdrop
      omega
    have hminus := writeChar_at (numeral n.toInt.natAbs).reverse rest c minusSign
    have hfinish := finish_ok ((numeral n.toInt.natAbs).reverse ++ [minusSign]) hroom
    rw [hrest] at hdigits
    rw [List.length_reverse] at hminus
    simp only [List.length_append, List.length_reverse, List.length_singleton,
      List.append_assoc, List.singleton_append, List.reverse_append, List.reverse_reverse,
      List.reverse_singleton] at hfinish
    refine ⟨rest.tail, ?_⟩
    rw [intToString, intNumeral, if_pos hsign]
    simp only [decide_eq_true hneg, if_true]
    rw [Prog.bind_of_ok hdigits, Prog.bind_of_ok hminus]
    exact hfinish
  · have hsign : ¬ n.toInt < 0 := by
      intro hlt
      exact hneg (Int32.lt_iff_toInt_lt.mpr hlt)
    have hdigits := digitLoop_ok n.toInt.natAbs n [] buf (by omega) (by omega) (by omega)
    simp only [List.length_nil, List.nil_append, Nat.zero_add] at hdigits
    have hfinish := @finish_ok (numeral n.toInt.natAbs).reverse
      (buf.drop (numeral n.toInt.natAbs).length) (by rw [List.length_drop]; omega)
    rw [List.length_reverse, List.reverse_reverse] at hfinish
    refine ⟨(buf.drop (numeral n.toInt.natAbs).length).tail, ?_⟩
    rw [intToString, intNumeral, if_neg hsign]
    simp only [decide_eq_false hneg, Bool.false_eq_true, if_false]
    rw [Prog.bind_of_ok hdigits]
    exact hfinish

/-- The string `put_int` displays for `n`. -/
structure Formats (n : Int32) (str : List UInt8) : Prop where
  canonical : str = intNumeral n.toInt
  parses : atoi str = n

/-- `int_to_string` formats `n` in `put_int`'s buffer, whatever the buffer held. -/
def FormatsInPlace (n : Int32) : Prop :=
  ∀ buf : CharBuffer, buf.length = numStrSize →
    ∃ buf' str, intToString n buf = .ok ((), buf') ∧ string buf' = some str ∧ Formats n str

/-- The least `int` is its own negation: one character, no digit, and the sign. -/
theorem intToString_minValue :
    intToString Int32.minValue (List.replicate numStrSize 0) =
      .ok ((), [minusSign, 40] ++ 0 :: List.replicate 9 0) := by
  have hdigits : digitLoop (-Int32.minValue) 0 (List.replicate numStrSize 0) =
      .ok (1, 40 :: List.replicate 11 0) := by
    rw [digitLoop]
    rfl
  rw [intToString]
  exact Prog.bind_of_ok hdigits

theorem minValue_not_formatted : ¬ FormatsInPlace Int32.minValue := by
  intro hall
  obtain ⟨buf', str, hrun, hstr, hformats⟩ := hall _ List.length_replicate
  rw [intToString_minValue] at hrun
  cases hrun
  rw [string_of_terminated (by decide)] at hstr
  cases hstr
  exact absurd hformats.parses (by decide)

/-- **Integer formatting.** `int_to_string` writes the canonical numeral and its terminator
within `put_int`'s buffer, and `atoi` reads it back, for exactly the `int`s other than the
least one. -/
theorem integer_format_iff (n : Int32) : FormatsInPlace n ↔ n ≠ Int32.minValue := by
  constructor
  · rintro hall rfl
    exact minValue_not_formatted hall
  · intro hn buf hbuf
    obtain ⟨rest, hrun⟩ := intToString_ok hn hbuf
    exact ⟨_, _, hrun, string_of_terminated (zero_not_mem_intNumeral _), rfl,
      atoi_intNumeral n⟩

/-- The least `int` is displayed as `-(`. -/
theorem integer_format_min : ¬ ∀ n : Int32, FormatsInPlace n :=
  fun hall => minValue_not_formatted (hall Int32.minValue)

end MyOs
