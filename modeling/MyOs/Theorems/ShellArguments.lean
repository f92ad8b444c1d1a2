import MyOs.Logic.Atoi
import MyOs.Shell

/-!
# Numeric arguments of the shell

`color` and `clearrow` take the number `atoi` makes of their argument, and check only
its range. What is accepted besides the numerals are the strings whose characters weigh
a number of the range modulo 2^32.
-/

namespace MyOs

open CString

/-- The commands with a number. -/
inductive NumericCommand
  | color
  | clearrow
deriving DecidableEq

namespace NumericCommand

theorem color_terminated : 0 ∉ asciiChars "color " := by decide

theorem clearrow_terminated : 0 ∉ asciiChars "clearrow " := by decide

theorem colorDone_terminated : 0 ∉ asciiChars "\nText color changed.\n" := by decide

theorem rowDone_terminated : 0 ∉ asciiChars "\nRow cleared.\n" := by decide

theorem colorError_terminated :
    0 ∉ asciiChars "\nInvalid color code! Use a value between 0 and 255.\n" := by decide

theorem rowError_terminated :
    0 ∉ asciiChars "\nInvalid row number! Use a value between 0 and " := by decide

theorem stop_terminated : 0 ∉ asciiChars ".\n" := by decide

/-- The command with its argument. -/
def line : NumericCommand → CString → CString
  | .color, x => (lit "color " color_terminated).append x
  | .clearrow, x => (lit "clearrow " clearrow_terminated).append x

/-- The largest number the command takes. -/
def limit : NumericCommand → Nat
  | .color => 255
  | .clearrow => 24

/-- The calls for a number of the range. -/
def accepted : NumericCommand → Nat → List ScreenCall
  | .color, v =>
      [.setColor (.ofNat v), .putString (lit "\nText color changed.\n" colorDone_terminated)]
  | .clearrow, v => [.clearRow (.ofNat v), .putString (lit "\nRow cleared.\n" rowDone_terminated)]

/-- The error message. -/
def rejected : NumericCommand → List ScreenCall
  | .color =>
      [.putString (lit "\nInvalid color code! Use a value between 0 and 255.\n"
        colorError_terminated)]
  | .clearrow =>
      [.putString (lit "\nInvalid row number! Use a value between 0 and " rowError_terminated),
        .putInt 24, .putString (lit ".\n" stop_terminated)]

/-- The argument is parsed exactly: a numeral of the range is taken with its value, and
anything else leads to the error message alone. -/
structure Exact (cmd : NumericCommand) (x : CString) : Prop where
  numeral : ∀ v, v ≤ cmd.limit → IsNumeral x.chars v →
    executeCommand (cmd.line x) = cmd.accepted v
  other : (∀ v, v ≤ cmd.limit → ¬ IsNumeral x.chars v) →
    executeCommand (cmd.line x) = cmd.rejected

/-- The signed weight of a string, as an `int`. -/
def wrappedWeight (x : CString) : Int := (signedWeight x.chars).bmod (2 ^ 32)

/-- A numeral of the range, or a string whose weight is outside it modulo 2^32. -/
def ReadExactly (cmd : NumericCommand) (x : CString) : Prop :=
  (∃ v, v ≤ cmd.limit ∧ IsNumeral x.chars v) ∨
    ¬ (0 ≤ wrappedWeight x ∧ wrappedWeight x ≤ cmd.limit)

variable {cmd : NumericCommand} {x : CString} {v : Nat}

theorem toInt_atoi (x : CString) : (atoi x.chars).toInt = wrappedWeight x := by
  rw [atoi_eq, Int32.toInt_ofInt]
  rfl

theorem accepted_ne_rejected : cmd.accepted v ≠ cmd.rejected := by
  cases cmd with
  | color => simp [accepted, rejected]
  | clearrow => simp [accepted, rejected]

/-- What the command does is decided by the wrapped weight. -/
theorem executeCommand_line (cmd : NumericCommand) (x : CString) :
    executeCommand (cmd.line x) =
      if 0 ≤ wrappedWeight x ∧ wrappedWeight x ≤ cmd.limit then
        cmd.accepted (wrappedWeight x).toNat
      else cmd.rejected := by
  have hzero : atoi x.chars ≥ 0 ↔ 0 ≤ wrappedWeight x := by
    rw [ge_iff_le, Int32.le_iff_toInt_le, Int32.toInt_zero, toInt_atoi]
  have hvalue (h : 0 ≤ wrappedWeight x) : atoi x.chars = .ofNat (wrappedWeight x).toNat := by
    rw [← Int32.ofInt_toInt (atoi x.chars), toInt_atoi, ← Int32.ofInt_eq_ofNat,
      Int.toNat_of_nonneg h]
  cases cmd with
  | color =>
      have hlimit : atoi x.chars ≤ 255 ↔ wrappedWeight x ≤ color.limit := by
        rw [Int32.le_iff_toInt_le, toInt_atoi]
        rfl
      have hrange := and_congr hzero hlimit
      rw [line, executeCommand_color, colorCommand]
      by_cases h : 0 ≤ wrappedWeight x ∧ wrappedWeight x ≤ color.limit
      · rw [if_pos (hrange.mpr h), if_pos h, hvalue h.1, intToChar_ofNat]
        rfl
      · rw [if_neg (hrange.not.mpr h), if_neg h]
        rfl
  | clearrow =>
      have hlimit : atoi x.chars < .ofNat vgaHeight ↔ wrappedWeight x ≤ clearrow.limit := by
        have hheight : (Int32.ofNat vgaHeight).toInt = clearrow.limit + 1 := rfl
        rw [Int32.lt_iff_toInt_lt, toInt_atoi, hheight]
        exact Int.lt_add_one_iff
      have hrange := and_congr hzero hlimit
      rw [line, executeCommand_clearrow, clearrowCommand]
      by_cases h : 0 ≤ wrappedWeight x ∧ wrappedWeight x ≤ clearrow.limit
      · rw [if_pos (hrange.mpr h), if_pos h, hvalue h.1]
        rfl
      · rw [if_neg (hrange.not.mpr h), if_neg h]
        rfl

/-- A numeral of the range keeps its value. -/
theorem wrappedWeight_numeral (hv : v ≤ cmd.limit) (h : IsNumeral x.chars v) :
    wrappedWeight x = v := by
  have hsmall : v ≤ 255 := by
    refine le_trans hv ?_
    cases cmd <;> decide
  rw [wrappedWeight, signedWeight_numeral h]
  exact Int.bmod_eq_of_le (by omega) (by omega)

theorem executeCommand_numeral (hv : v ≤ cmd.limit) (h : IsNumeral x.chars v) :
    executeCommand (cmd.line x) = cmd.accepted v := by
  rw [executeCommand_line, wrappedWeight_numeral hv h, if_pos (by omega), Int.toNat_natCast]

/-- **Numeric arguments.** For every command with a number and every argument, the argument
is parsed exactly if and only if it is a numeral of the range, or its characters, each
taken for a digit, weigh a number outside the range modulo 2^32. -/
theorem shell_argument_iff (cmd : NumericCommand) (x : CString) :
    cmd.Exact x ↔ cmd.ReadExactly x := by
  constructor
  · intro hexact
    by_cases hnum : ∃ v, v ≤ cmd.limit ∧ IsNumeral x.chars v
    · exact .inl hnum
    · refine .inr fun hrange => ?_
      have hother := hexact.other fun v hv h => hnum ⟨v, hv, h⟩
      rw [executeCommand_line, if_pos hrange] at hother
      exact accepted_ne_rejected hother
  · rintro (⟨v, hv, h⟩ | hout)
    · refine ⟨fun w hw hnum => executeCommand_numeral hw hnum, fun hnone => ?_⟩
      exact absurd h (hnone v hv)
    · refine ⟨fun w hw hnum => executeCommand_numeral hw hnum, fun _ => ?_⟩
      rw [executeCommand_line, if_neg hout]

/-- `color` with an empty argument changes the colour to 0. -/
theorem shell_argument_empty : ¬ ∀ (cmd : NumericCommand) (x : CString), cmd.Exact x := by
  intro hall
  have hother := (hall .color (lit "")).other fun v _ h => h.nonempty rfl
  exact absurd hother (by decide)

end NumericCommand
end MyOs
