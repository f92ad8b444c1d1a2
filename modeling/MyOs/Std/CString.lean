import MyOs.Std.Stdlib

/-!
# Strings (`string.c`)

A string is its characters up to the terminator, none of which is the terminator. The
comparisons read the terminator as the character after the last one.
-/

namespace MyOs

/-- The characters of an ASCII text. -/
def asciiChars (text : String) : List UInt8 := text.toList.map fun c => UInt8.ofNat c.toNat

/-- A terminated string. -/
@[ext] structure CString where
  chars : List UInt8
  terminated : 0 ∉ chars
deriving DecidableEq

namespace CString

/-- A string literal. -/
def lit (text : String) (h : 0 ∉ asciiChars text := by decide) : CString := ⟨asciiChars text, h⟩

/-- Two strings in a row. -/
def append (s t : CString) : CString :=
  ⟨s.chars ++ t.chars, fun h => (List.mem_append.mp h).elim s.terminated t.terminated⟩

/-- `str + n`, within the string. -/
def drop (s : CString) (n : Nat) : CString :=
  ⟨s.chars.drop n, fun h => s.terminated (List.mem_of_mem_drop h)⟩

@[simp] theorem append_chars (s t : CString) : (s.append t).chars = s.chars ++ t.chars := rfl

@[simp] theorem drop_chars (s : CString) (n : Nat) : (s.drop n).chars = s.chars.drop n := rfl

@[simp] theorem drop_append (s t : CString) : (s.append t).drop s.chars.length = t :=
  CString.ext (List.drop_left)

end CString

/-- `str1[i] - str2[i]` at the heads of two strings; 0 is the terminator. -/
def headDifference (str1 str2 : List UInt8) : Int32 :=
  charToInt (str1.headD 0) - charToInt (str2.headD 0)

/-- The loop of `strcmp`. -/
def strcmpLoop : List UInt8 → List UInt8 → Int32
  | c :: str1, d :: str2 =>
      if c ≠ d then charToInt c - charToInt d else strcmpLoop str1 str2
  | str1, str2 => headDifference str1 str2

/-- `strcmp`. -/
def strcmp (str1 str2 : CString) : Int32 := strcmpLoop str1.chars str2.chars

/-- The loop of `strncmp`, with `n` characters left to compare. -/
def strncmpLoop : List UInt8 → List UInt8 → Nat → Int32
  | c :: str1, d :: str2, n + 1 =>
      if c ≠ d then charToInt c - charToInt d else strncmpLoop str1 str2 n
  | _, _, 0 => 0
  | str1, str2, _ + 1 => headDifference str1 str2

/-- `strncmp`. -/
def strncmp (str1 str2 : CString) (n : Nat) : Int32 := strncmpLoop str1.chars str2.chars n

/-- Different characters are different as `int`s. -/
theorem charDifference_eq_zero {c d : UInt8} : charToInt c - charToInt d = 0 ↔ c = d := by
  constructor
  · intro h
    have hint := congrArg Int32.toInt h
    have hc := c.toInt8.toInt_lt
    have hc' := c.toInt8.le_toInt
    have hd := d.toInt8.toInt_lt
    have hd' := d.toInt8.le_toInt
    rw [Int32.toInt_sub, charToInt, charToInt, Int8.toInt_toInt32, Int8.toInt_toInt32,
      Int.bmod_eq_of_le (by omega) (by omega), Int32.toInt_zero] at hint
    have heq : c.toInt8 = d.toInt8 := Int8.toInt_inj.mp (by omega)
    rw [← UInt8.toUInt8_toInt8 c, heq, UInt8.toUInt8_toInt8]
  · rintro rfl
    exact Int32.sub_self _

theorem charDifference_ne_zero {c d : UInt8} (h : c ≠ d) : charToInt c - charToInt d ≠ 0 :=
  fun heq => h (charDifference_eq_zero.mp heq)

theorem strcmpLoop_eq_zero_iff {a b : List UInt8} (ha : 0 ∉ a) (hb : 0 ∉ b) :
    strcmpLoop a b = 0 ↔ a = b := by
  induction a generalizing b with
  | nil =>
      cases b with
      | nil => simp [strcmpLoop, headDifference]
      | cons d b =>
          have hd : (0 : UInt8) ≠ d := fun heq => hb (by simp [heq])
          simp [strcmpLoop, headDifference, charDifference_ne_zero hd]
  | cons c a ih =>
      cases b with
      | nil =>
          have hc : c ≠ 0 := fun heq => ha (by simp [heq])
          simp [strcmpLoop, headDifference, charDifference_ne_zero hc]
      | cons d b =>
          rw [List.mem_cons, not_or] at ha hb
          rw [strcmpLoop]
          by_cases hcd : c = d
          · rw [if_neg (not_not.mpr hcd), ih ha.2 hb.2, hcd]
            simp
          · rw [if_pos hcd]
            simp [charDifference_ne_zero hcd, hcd]

/-- `strcmp` is 0 for equal strings only. -/
theorem strcmp_eq_zero_iff {s t : CString} : strcmp s t = 0 ↔ s = t := by
  rw [strcmp, strcmpLoop_eq_zero_iff s.terminated t.terminated, CString.ext_iff]

theorem strncmpLoop_eq_zero_iff {a b : List UInt8} (hb : 0 ∉ b) :
    strncmpLoop a b b.length = 0 ↔ b <+: a := by
  induction b generalizing a with
  | nil => cases a <;> simp [strncmpLoop]
  | cons d b ih =>
      rw [List.mem_cons, not_or] at hb
      cases a with
      | nil =>
          simp [strncmpLoop, headDifference, charDifference_ne_zero hb.1]
      | cons c a =>
          rw [List.length_cons, strncmpLoop, List.cons_prefix_cons]
          by_cases hcd : c = d
          · rw [if_neg (not_not.mpr hcd), ih hb.2, hcd]
            simp
          · have hdc : ¬ d = c := fun heq => hcd heq.symm
            rw [if_pos hcd]
            simp [charDifference_ne_zero hcd, hdc]

/-- `strncmp` with the length of a prefix is 0 for strings that start with it. -/
theorem strncmp_eq_zero_iff {s t : CString} :
    strncmp s t t.chars.length = 0 ↔ t.chars <+: s.chars :=
  strncmpLoop_eq_zero_iff t.terminated

/-- A string that starts with `s` is no string `s` is not a prefix of. -/
theorem strcmp_append_ne_zero {s t : CString} (x : CString) (h : ¬ s.chars <+: t.chars) :
    strcmp (s.append x) t ≠ 0 := by
  intro heq
  rw [strcmp_eq_zero_iff] at heq
  rw [← heq] at h
  exact h (List.prefix_append _ _)

/-- A string that starts with `s` starts with no `t` incomparable to `s`. -/
theorem strncmp_append_ne_zero {s t : CString} (x : CString) (hst : ¬ s.chars <+: t.chars)
    (hts : ¬ t.chars <+: s.chars) : strncmp (s.append x) t t.chars.length ≠ 0 := by
  intro heq
  have ht := strncmp_eq_zero_iff.mp heq
  rcases List.prefix_or_prefix_of_prefix ht (List.prefix_append s.chars x.chars) with h | h
  · exact hts h
  · exact hst h

end MyOs
