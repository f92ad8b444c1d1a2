import MyOs.Base.Hexadecimal
import MyOs.Std.Hexa

/-!
# Hexadecimal formatting

`int_to_hex_string` writes nine digits from the last one on, into the cells 8 down to 0,
and puts the terminator on the cell 8. The last digit of the number is lost and the ninth
one, which is always 0, comes first: the string is the number divided by 16.
-/

namespace MyOs

open CharBuffer

/-! ## The digits -/

theorem hexChars_getD {d : Nat} (h : d < 16) : hexChars.getD d 0 = hexDigitChar d := by
  have hall : ∀ d < 16, hexChars.getD d 0 = hexDigitChar d := by decide
  exact hall d h

/-- `hex_chars[num & 0xF]` is the last digit. -/
theorem hexChar_eq (num : UInt32) : hexChar num = hexDigitChar (num.toNat % 16) := by
  have hand : (num &&& 0xF).toNat = num.toNat % 16 := by
    rw [UInt32.toNat_and]
    exact Nat.and_two_pow_sub_one_eq_mod num.toNat 4
  rw [hexChar, hand, hexChars_getD (Nat.mod_lt _ (by decide))]

theorem toNat_shift_digit (num : UInt32) : (num >>> 4).toNat = num.toNat / 16 := by
  rw [UInt32.toNat_shiftRight]
  exact Nat.shiftRight_eq_div_pow num.toNat 4

/-- The turns left fill the first cells, the last digit last. -/
theorem hexLoop_ok (num : UInt32) (l rest : List UInt8) :
    hexLoop l.length num (l ++ rest) = .ok ((), hexDigits l.length num.toNat ++ rest) := by
  induction l using List.reverseRecOn generalizing num rest with
  | nil => rfl
  | append_singleton l c ih =>
      have hwrite := writeChar_at l rest c (hexChar num)
      rw [List.length_append, List.length_singleton, hexLoop, List.append_assoc,
        List.singleton_append, Prog.bind_of_ok hwrite, ih, toNat_shift_digit, hexDigits,
        hexChar_eq, List.append_assoc, List.singleton_append]

/-! ## The whole function -/

/-- The terminator replaces the last of the nine digits. -/
theorem intToHexString_ok (num : UInt32) {buffer : CharBuffer}
    (hbuffer : buffer.length = hexaSize + 1) :
    intToHexString num buffer = .ok ((), hexDigits 8 (num.toNat / 16) ++ [0]) := by
  have hloop := hexLoop_ok num buffer []
  rw [List.append_nil, List.append_nil, hbuffer] at hloop
  have hend := writeChar_at (hexDigits 8 (num.toNat / 16)) [] (hexDigitChar (num.toNat % 16)) 0
  rw [length_hexDigits] at hend
  rw [intToHexString, Prog.bind_of_ok hloop]
  exact hend

/-- What `put_hexa` displays: the eight digits of `num / 16`. -/
theorem putHexa_ok (num : UInt32) {buffer : CharBuffer} (hbuffer : buffer.length = hexaSize + 1) :
    putHexa num buffer =
      .ok (hexDigits 8 (num.toNat / 16), hexDigits 8 (num.toNat / 16) ++ [0]) := by
  have hstring : string (hexDigits 8 (num.toNat / 16) ++ [0]) =
      some (hexDigits 8 (num.toNat / 16)) :=
    string_of_terminated (zero_not_mem_hexDigits 8 _)
  rw [putHexa, Prog.bind_of_ok (intToHexString_ok num hbuffer), putString,
    Prog.get_bind_apply, hstring]
  rfl

theorem putAddr_eq_putHexa : putAddr = putHexa := rfl

/-- Eight hexadecimal digits whose value is `num`. -/
structure ShowsHex (num : UInt32) (str : List UInt8) : Prop where
  length : str.length = 8
  digits : ∀ c ∈ str, IsHexDigit c
  value : hexValue str = num.toNat

/-- `put` writes within its buffer, whatever that held, and displays `num`. -/
def FormatsHex (put : UInt32 → Prog CharBuffer (List UInt8)) (num : UInt32) : Prop :=
  ∀ buffer : CharBuffer, buffer.length = hexaSize + 1 →
    ∃ str buffer', put num buffer = .ok (str, buffer') ∧ ShowsHex num str

/-- `put` displays the same characters for two numbers. -/
def PrintsAlike (put : UInt32 → Prog CharBuffer (List UInt8)) (n m : UInt32) : Prop :=
  ∀ buffer buffer' : CharBuffer, buffer.length = hexaSize + 1 → buffer'.length = hexaSize + 1 →
    Prog.returned (put n) buffer = Prog.returned (put m) buffer'

theorem div_sixteen_lt (n : UInt32) : n.toNat / 16 < 16 ^ 8 := by
  have hlt := n.toNat_lt
  omega

theorem toNat_div_sixteen (n : UInt32) : (n / 16).toNat = n.toNat / 16 := by
  rw [UInt32.toNat_div]
  rfl

/-- The digits displayed are always eight, and their value is the number without its last
digit. -/
theorem shows_quotient (n : UInt32) : ShowsHex (n / 16) (hexDigits 8 (n.toNat / 16)) := by
  refine ⟨length_hexDigits 8 _, fun c hc => isHexDigit_of_mem hc, ?_⟩
  rw [hexValue_hexDigits, Nat.mod_eq_of_lt (div_sixteen_lt n), toNat_div_sixteen]

theorem formatsHex_iff (n : UInt32) : FormatsHex putHexa n ↔ n = 0 := by
  constructor
  · intro hall
    obtain ⟨str, buffer', hrun, hshows⟩ := hall (.replicate (hexaSize + 1) 0) List.length_replicate
    rw [putHexa_ok n List.length_replicate] at hrun
    cases hrun
    have hvalue := hshows.value
    rw [(shows_quotient n).value, toNat_div_sixteen] at hvalue
    apply UInt32.toNat_inj.mp
    rw [UInt32.toNat_zero]
    omega
  · rintro rfl buffer hbuffer
    exact ⟨_, _, putHexa_ok 0 hbuffer, shows_quotient 0⟩

theorem printsAlike_iff (n m : UInt32) : PrintsAlike putHexa n m ↔ n / 16 = m / 16 := by
  have hquot : n / 16 = m / 16 ↔ n.toNat / 16 = m.toNat / 16 := by
    rw [← UInt32.toNat_inj, toNat_div_sixteen, toNat_div_sixteen]
  have hdigits := hexDigits_inj (div_sixteen_lt n) (div_sixteen_lt m)
  rw [hquot, ← hdigits]
  constructor
  · intro hall
    have hlen : (List.replicate (hexaSize + 1) (0 : UInt8)).length = hexaSize + 1 :=
      List.length_replicate
    have heq := hall _ _ hlen hlen
    rw [Prog.returned, Prog.returned, putHexa_ok n hlen, putHexa_ok m hlen] at heq
    exact Option.some.inj heq
  · intro heq buffer buffer' hbuffer hbuffer'
    rw [Prog.returned, Prog.returned, putHexa_ok n hbuffer, putHexa_ok m hbuffer', heq]

/-- **Hexadecimal formatting.** `put_hexa` and `put_addr` display a number exactly when it is
0, and display two numbers alike exactly when they differ in their last digit only. -/
theorem hex_format_iff (n : UInt32) :
    (FormatsHex putHexa n ↔ n = 0) ∧ (FormatsHex putAddr n ↔ n = 0) ∧
      ∀ m, (PrintsAlike putHexa n m ↔ n / 16 = m / 16) ∧
        (PrintsAlike putAddr n m ↔ n / 16 = m / 16) := by
  rw [putAddr_eq_putHexa]
  exact ⟨formatsHex_iff n, formatsHex_iff n, fun m => ⟨printsAlike_iff n m, printsAlike_iff n m⟩⟩

/-- 1 is displayed as `00000000`, like 0. -/
theorem hex_format_one : ¬ FormatsHex putHexa 1 ∧ ¬ FormatsHex putAddr 1 ∧
    PrintsAlike putHexa 0 1 := by
  rw [putAddr_eq_putHexa, formatsHex_iff, printsAlike_iff]
  decide

end MyOs
