import MyOs.Std.Printf

/-!
# The arguments of `printf`

A format is read as pieces, and a list of arguments as the slots the calling convention
gives them. The loop of `printf` goes through the pieces; after a `%c` it is three bytes
short of the next slot, so it is out of step from the next conversion on. A `%` at the
end of the format is not displayed.
-/

namespace MyOs

/-- The conversions that take an argument. -/
inductive Conversion
  | s | d | p | x | c | b
deriving DecidableEq

/-- The conversion a character names. -/
def Conversion.ofChar (c : UInt8) : Option Conversion :=
  if c = 's'.toUInt8 then some .s
  else if c = 'd'.toUInt8 then some .d
  else if c = 'p'.toUInt8 then some .p
  else if c = 'x'.toUInt8 then some .x
  else if c = 'c'.toUInt8 then some .c
  else if c = 'b'.toUInt8 then some .b
  else none

/-- An argument with its type. -/
inductive PrintArg
  | string (str : UInt32)
  | int (num : Int32)
  | pointer (addr : UInt32)
  | unsigned (num : UInt32)
  | char (c : UInt8)
  | bool (num : Int32)
deriving DecidableEq

namespace PrintArg

/-- The conversion for an argument of this type. -/
def conversion : PrintArg → Conversion
  | string _ => .s
  | int _ => .d
  | pointer _ => .p
  | unsigned _ => .x
  | char _ => .c
  | bool _ => .b

/-- The slot of the argument; a `char` is promoted to `int`. -/
def slot : PrintArg → UInt32
  | string str => str
  | int num => num.toUInt32
  | pointer addr => addr
  | unsigned num => num
  | char c => (charToInt c).toUInt32
  | bool num => num.toUInt32

/-- What the conversion displays of the argument. -/
def displayed : PrintArg → List PrintEvent
  | string str => [.putString str]
  | int num => [.putInt num]
  | pointer addr => [.putLiteral "0x", .putAddr addr]
  | unsigned num => [.putLiteral "0x", .putHexa num]
  | char c => [.putChar c]
  | bool num => [.putBool (num != 0)]

end PrintArg

/-- The arguments in the slots from `addr` on. -/
def LaidOut (mem : ByteStore) : Nat → List PrintArg → Prop
  | _, [] => True
  | addr, arg :: args => mem.load32 addr = arg.slot.toNat ∧ LaidOut mem (addr + 4) args

/-- A piece of a format: a character to display, a conversion, or a `%` at the end. -/
inductive Piece
  | text (c : UInt8)
  | conversion (k : Conversion)
  | unfinished
deriving DecidableEq

/-- The pieces of a format. -/
def pieces : List UInt8 → List Piece
  | [] => []
  | c :: format =>
      if c = '%'.toUInt8 then
        match format with
        | [] => [.unfinished]
        | d :: format =>
            match Conversion.ofChar d with
            | some k => .conversion k :: pieces format
            | none =>
                if d = '%'.toUInt8 then .text d :: pieces format
                else .text c :: .text d :: pieces format
      else .text c :: pieces format

/-- The conversions of a format, in order. -/
def conversions : List Piece → List Conversion
  | [] => []
  | .conversion k :: rest => k :: conversions rest
  | _ :: rest => conversions rest

/-- What the format asks for: each conversion displays the argument of its slot, and
every other character is displayed. -/
def display : List Piece → List PrintArg → Nat → List PrintEvent
  | [], _, _ => []
  | .text c :: rest, args, addr => .putChar c :: display rest args addr
  | .unfinished :: rest, args, addr => .putChar '%'.toUInt8 :: display rest args addr
  | .conversion _ :: rest, arg :: args, addr =>
      .vaArg addr :: arg.displayed ++ display rest args (addr + 4)
  | .conversion _ :: _, [], _ => []

/-- No conversion follows a `%c`, and no `%` stands at the end. -/
def KeepsStep : List Piece → Prop
  | [] => True
  | .text _ :: rest => KeepsStep rest
  | .unfinished :: _ => False
  | .conversion k :: rest => (k = .c → conversions rest = []) ∧ KeepsStep rest

instance decidableKeepsStep : (ps : List Piece) → Decidable (KeepsStep ps)
  | [] => .isTrue trivial
  | .text _ :: rest => decidableKeepsStep rest
  | .unfinished :: _ => .isFalse id
  | .conversion _ :: rest => @instDecidableAnd _ _ inferInstance (decidableKeepsStep rest)

/-! ## The loop by pieces -/

namespace Conversion

/-- The bytes `va_arg` moves on by. -/
def size : Conversion → Nat
  | c => 1
  | _ => 4

/-- What `printf` displays of the argument at `addr`. -/
def displayed (mem : ByteStore) (addr : Nat) : Conversion → List PrintEvent
  | s => [.putString (vaArgWord mem addr)]
  | d => [.putInt (vaArgWord mem addr).toInt32]
  | p => [.putLiteral "0x", .putAddr (vaArgWord mem addr)]
  | x => [.putLiteral "0x", .putHexa (vaArgWord mem addr)]
  | c => [.putChar (vaArgChar mem addr)]
  | b => [.putBool (vaArgWord mem addr != 0)]

end Conversion

/-- The run of `printf` over pieces. -/
def runPieces (mem : ByteStore) : List Piece → Nat → List PrintEvent
  | [], _ => []
  | .text c :: rest, addr => .putChar c :: runPieces mem rest addr
  | .unfinished :: _, _ => []
  | .conversion k :: rest, addr =>
      .vaArg addr :: k.displayed mem addr ++ runPieces mem rest (addr + k.size)

variable {mem : ByteStore} {addr : Nat}

theorem pieces_text {c : UInt8} (h : ¬ c = '%'.toUInt8) (format : List UInt8) :
    pieces (c :: format) = .text c :: pieces format := by
  cases format with
  | nil => simp [pieces, h]
  | cons d format => simp [pieces, h]

/-- The loop goes through the pieces of the format. -/
theorem printfLoop_eq (mem : ByteStore) (format : List UInt8) (addr : Nat) :
    printfLoop mem format addr = runPieces mem (pieces format) addr := by
  -- one case for each branch of the switch
  fun_induction printfLoop mem format addr <;>
    simp_all [pieces, pieces_text, Conversion.ofChar, runPieces, Conversion.displayed,
      Conversion.size]

/-- A `char` in its slot is the slot's first byte. -/
theorem vaArgChar_slot {c : UInt8} (h : mem.load32 addr = (charToInt c).toUInt32.toNat) :
    vaArgChar mem addr = c := by
  have hbyte : (mem addr).toNat = mem.load32 addr % 2 ^ 8 := by
    have hlt := (mem addr).isLt
    rw [ByteStore.load32]
    omega
  have hchar : (charToInt c).toUInt32.toUInt8 = c := intToChar_charToInt c
  rw [vaArgChar, hbyte, h, ← UInt32.toNat_toUInt8, UInt8.ofNat_toNat, hchar]

theorem vaArgWord_slot {w : UInt32} (h : mem.load32 addr = w.toNat) : vaArgWord mem addr = w := by
  rw [vaArgWord, h, UInt32.ofNat_toNat]

theorem toUInt32_ne_zero (num : Int32) : (num.toUInt32 != 0) = (num != 0) := by
  have hzero : num.toUInt32 = 0 ↔ num = 0 := by
    constructor
    · intro h
      rw [← num.toInt32_toUInt32, h]
      rfl
    · rintro rfl
      rfl
  simp [bne, hzero]

/-- At its slot, an argument is displayed as its conversion asks. -/
theorem displayed_slot {arg : PrintArg} (h : mem.load32 addr = arg.slot.toNat) :
    arg.conversion.displayed mem addr = arg.displayed := by
  cases arg with
  | string str => simp [PrintArg.conversion, Conversion.displayed, PrintArg.displayed,
      vaArgWord_slot h, PrintArg.slot]
  | int num => simp [PrintArg.conversion, Conversion.displayed, PrintArg.displayed,
      vaArgWord_slot h, PrintArg.slot]
  | pointer addr => simp [PrintArg.conversion, Conversion.displayed, PrintArg.displayed,
      vaArgWord_slot h, PrintArg.slot]
  | unsigned num => simp [PrintArg.conversion, Conversion.displayed, PrintArg.displayed,
      vaArgWord_slot h, PrintArg.slot]
  | char c => simp [PrintArg.conversion, Conversion.displayed, PrintArg.displayed,
      vaArgChar_slot h]
  | bool num => simp [PrintArg.conversion, Conversion.displayed, PrintArg.displayed,
      vaArgWord_slot h, PrintArg.slot, toUInt32_ne_zero]

/-! ## Out of step -/

/-- Without a conversion left, the loop displays what the format asks for. -/
theorem runPieces_plain {ps : List Piece} (h : conversions ps = []) (args : List PrintArg)
    (addr' : Nat) : runPieces mem ps addr = display ps args addr' ↔ KeepsStep ps := by
  induction ps with
  | nil => simp [runPieces, display, KeepsStep]
  | cons piece rest ih =>
      cases piece with
      | text c => simpa [runPieces, display, KeepsStep] using ih h
      | conversion k => cases h
      | unfinished => simp [runPieces, display, KeepsStep]

/-- Away from the slots, only a format without conversions is displayed as it asks. -/
theorem runPieces_apart {ps : List Piece} {args : List PrintArg} {addr' : Nat}
    (hne : addr ≠ addr') (hargs : conversions ps <+: args.map PrintArg.conversion)
    (heq : runPieces mem ps addr = display ps args addr') : conversions ps = [] := by
  induction ps with
  | nil => rfl
  | cons piece rest ih =>
      cases piece with
      | text c => exact ih hargs (by simpa [runPieces, display] using heq)
      | conversion k =>
          cases args with
          | nil => simp [conversions] at hargs
          | cons arg args => simp [runPieces, display, hne] at heq
      | unfinished => simp [runPieces, display] at heq

theorem runPieces_eq_display {ps : List Piece} {args : List PrintArg}
    (hslots : LaidOut mem addr args) (hargs : conversions ps <+: args.map PrintArg.conversion) :
    runPieces mem ps addr = display ps args addr ↔ KeepsStep ps := by
  induction ps generalizing args addr with
  | nil => simp [runPieces, display, KeepsStep]
  | cons piece rest ih =>
      cases piece with
      | text c => simpa [runPieces, display, KeepsStep] using ih hslots hargs
      | unfinished => simp [runPieces, display, KeepsStep]
      | conversion k =>
          cases args with
          | nil => simp [conversions] at hargs
          | cons arg args =>
              obtain ⟨hslot, hrest⟩ := hslots
              rw [conversions, List.map_cons, List.cons_prefix_cons] at hargs
              obtain ⟨rfl, hargs⟩ := hargs
              rw [runPieces, display, displayed_slot hslot, List.cons_append, List.cons_append,
                List.cons_eq_cons, KeepsStep]
              simp only [true_and, List.append_cancel_left_eq]
              by_cases hk : arg.conversion = .c
              · rw [hk]
                constructor
                · intro heq
                  have hnone := runPieces_apart (by simp [Conversion.size]) hargs heq
                  exact ⟨fun _ => hnone, (runPieces_plain hnone args _).mp heq⟩
                · rintro ⟨hnone, hkeeps⟩
                  exact (runPieces_plain (hnone rfl) args _).mpr hkeeps
              · have hsize : arg.conversion.size = 4 := by
                  cases arg <;> simp_all [PrintArg.conversion, Conversion.size]
                rw [hsize, ih hrest hargs]
                simp [hk]

/-! ## Laying arguments out -/

/-- Memory with the arguments in the slots from `addr` on. -/
def layOut (mem : ByteStore) : Nat → List PrintArg → ByteStore
  | _, [] => mem
  | addr, arg :: args => (layOut mem (addr + 4) args).store32 addr arg.slot.toNat

theorem laidOut_store32 {args : List PrintArg} {addr' w : Nat} (h : LaidOut mem addr' args)
    (hle : addr + 4 ≤ addr') : LaidOut (mem.store32 addr w) addr' args := by
  induction args generalizing addr' with
  | nil => trivial
  | cons arg args ih =>
      refine ⟨?_, ih h.2 (by omega)⟩
      rw [ByteStore.load32_store32_ne (.inl hle), h.1]

/-- Every list of arguments can be laid out. -/
theorem laidOut_layOut (mem : ByteStore) (addr : Nat) (args : List PrintArg) :
    LaidOut (layOut mem addr args) addr args := by
  induction args generalizing addr with
  | nil => trivial
  | cons arg args ih =>
      refine ⟨?_, laidOut_store32 (ih (addr + 4)) (by omega)⟩
      rw [layOut, ByteStore.load32_store32 arg.slot.toNat_lt]

/-- **The arguments of `printf`.** For every format and all arguments laid out for it, each
conversion displays its own argument and every other character is displayed, in order, if
and only if no conversion follows a `%c` and the format does not end in a `%`. -/
theorem printf_in_step_iff {param : Nat} {format : CString} {args : List PrintArg}
    (hslots : LaidOut mem (param + 4) args)
    (hargs : conversions (pieces format.chars) <+: args.map PrintArg.conversion) :
    printf mem param format = display (pieces format.chars) args (param + 4) ↔
      KeepsStep (pieces format.chars) := by
  rw [printf, printfLoop_eq]
  exact runPieces_eq_display hslots hargs

/-- A number and then a character. -/
theorem printf_in_step_number :
    printf (layOut (fun _ => 0) 4 [.int 5, .char 65]) 0 (.lit "%d: %c") =
      display (pieces (CString.lit "%d: %c").chars) [.int 5, .char 65] 4 :=
  (printf_in_step_iff (laidOut_layOut _ _ _) (by decide)).mpr (by decide)

/-- A character and then a number: the number is read a byte after the character. -/
theorem printf_in_step_char : ¬ ∀ (mem : ByteStore) (param : Nat) (format : CString)
    (args : List PrintArg), LaidOut mem (param + 4) args →
      conversions (pieces format.chars) <+: args.map PrintArg.conversion →
      printf mem param format = display (pieces format.chars) args (param + 4) := by
  intro hall
  have heq := hall (layOut (fun _ => 0) 4 [.char 65, .int 5]) 0 (.lit "%c%d")
    [.char 65, .int 5] (laidOut_layOut _ _ _) (by decide)
  exact absurd heq (by decide)

end MyOs
