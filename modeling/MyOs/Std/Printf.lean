import MyOs.Base.Bytes
import MyOs.Std.CString

/-!
# Formatted output (`stdio.c`, `stdarg.h`)

The arguments lie in memory behind the format parameter, and `va_arg` moves on by the
size of the type it is given. A run of `printf` is the list of what it does in order: the
addresses it takes arguments from and its calls that display something.
-/

namespace MyOs

/-- What `printf` does: taking an argument at an address, or a call. -/
inductive PrintEvent
  | vaArg (addr : Nat)
  | putChar (c : UInt8)
  | putString (str : UInt32)
  | putLiteral (text : String)
  | putInt (num : Int32)
  | putAddr (addr : UInt32)
  | putHexa (num : UInt32)
  | putBool (b : Bool)
deriving DecidableEq

/-- `va_arg(args, type)` for a type of four bytes: the value. -/
def vaArgWord (mem : ByteStore) (args : Nat) : UInt32 := .ofNat (mem.load32 args)

/-- `va_arg(args, char)`: the value. -/
def vaArgChar (mem : ByteStore) (args : Nat) : UInt8 := .ofNat (mem args).toNat

/-- The loop of `printf`, at the rest of the format. -/
def printfLoop (mem : ByteStore) : List UInt8 → Nat → List PrintEvent
  | [], _ => []
  | c :: format, args =>
      if c = '%'.toUInt8 then
        match format with
        | [] => []
        | d :: format =>
            if d = 's'.toUInt8 then
              .vaArg args :: .putString (vaArgWord mem args) :: printfLoop mem format (args + 4)
            else if d = 'd'.toUInt8 then
              .vaArg args :: .putInt (vaArgWord mem args).toInt32 ::
                printfLoop mem format (args + 4)
            else if d = 'p'.toUInt8 then
              .vaArg args :: .putLiteral "0x" :: .putAddr (vaArgWord mem args) ::
                printfLoop mem format (args + 4)
            else if d = 'x'.toUInt8 then
              .vaArg args :: .putLiteral "0x" :: .putHexa (vaArgWord mem args) ::
                printfLoop mem format (args + 4)
            else if d = 'c'.toUInt8 then
              -- the size of the named type, not of the slot
              .vaArg args :: .putChar (vaArgChar mem args) :: printfLoop mem format (args + 1)
            else if d = 'b'.toUInt8 then
              .vaArg args :: .putBool (vaArgWord mem args != 0) ::
                printfLoop mem format (args + 4)
            else if d = '%'.toUInt8 then
              .putChar '%'.toUInt8 :: printfLoop mem format args
            else
              .putChar '%'.toUInt8 :: .putChar d :: printfLoop mem format args
      else
        .putChar c :: printfLoop mem format args

/-- `printf`, with its format parameter at `param`. -/
def printf (mem : ByteStore) (param : Nat) (format : CString) : List PrintEvent :=
  printfLoop mem format.chars (param + 4)

end MyOs
