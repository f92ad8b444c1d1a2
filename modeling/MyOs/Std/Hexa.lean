import MyOs.Std.CString

/-!
# Hexadecimal output (`stdio.c`)

`put_hexa` and `put_addr` format into a buffer on the stack, whose bytes are whatever the
stack held, and display the string in it. A write outside the buffer stops the program, and
so does a string that runs past its end.
-/

namespace MyOs

open CharBuffer

/-- `HEXA_SIZE`. -/
def hexaSize : Nat := 8

/-- `hex_chars`. -/
def hexChars : List UInt8 := asciiChars "0123456789ABCDEF"

/-- `hex_chars[num & 0xF]`. -/
def hexChar (num : UInt32) : UInt8 := hexChars.getD (num &&& 0xF).toNat 0

/-- The loop of `int_to_hex_string`, with `turns` turns left: `i` is `turns - 1`. -/
def hexLoop : (turns : Nat) → UInt32 → Prog CharBuffer Unit
  | 0, _ => pure ()
  | i + 1, num => do
      writeChar i (hexChar num)
      hexLoop i (num >>> 4)

/-- `int_to_hex_string`. -/
def intToHexString (num : UInt32) : Prog CharBuffer Unit := do
  -- `i` starts at `HEXA_SIZE` and the turn with `i = 0` is made
  hexLoop (hexaSize + 1) num
  writeChar 8 0

/-- `put_string` of the buffer: the characters it displays. -/
def putString : Prog CharBuffer (List UInt8) := do
  let buffer ← Prog.get
  match buffer.string with
  | some str => pure str
  | none => Prog.stop (.badAccess buffer.length)

/-- `put_hexa`, in its buffer: the characters it displays. -/
def putHexa (num : UInt32) : Prog CharBuffer (List UInt8) := do
  intToHexString num
  putString

/-- `put_addr`, in its buffer: the characters it displays. -/
def putAddr (addr : UInt32) : Prog CharBuffer (List UInt8) := do
  intToHexString addr
  putString

end MyOs
