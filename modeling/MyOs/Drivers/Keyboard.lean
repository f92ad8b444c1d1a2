import Mathlib.Data.List.Basic
import Mathlib.Logic.Function.Basic
import Mathlib.Tactic.Common

/-!
# The keyboard and the shell's input loop (`keyboard.c`, `shell.c`)

The interrupt handler puts characters at the head of a ring of 256 and the shell
takes them from the tail. Interrupts come between any two accesses of the shell,
so `keyboard_buffer_get` is three steps: its wait ends, it loads the character,
and it moves the tail. Characters are their ASCII codes.
-/

namespace MyOs

/-- The static state of `keyboard.c`. -/
structure Keyboard where
  keyboardBuffer : Nat → UInt8
  bufferHead : Nat
  bufferTail : Nat
  shiftPressed : Bool
  putOnScreen : Bool
  capsLock : Bool

/-- What the handler does on the screen. -/
inductive Echo
  | putChar (c : UInt8)
  | moveCursorBack
deriving DecidableEq, Repr

namespace Keyboard

/-- `BUFFER_SIZE`. -/
def bufferSize : Nat := 256
/-- `KEYRELEASE_MASK`. -/
def keyReleaseMask : UInt8 := 0x80
/-- `SHIFT_KEY`. -/
def shiftKey : UInt8 := 0x2A
/-- `CAPS_LOCK`. -/
def capsLockKey : UInt8 := 0x3A
/-- `BACKSPACE`. -/
def backspaceKey : UInt8 := 0x0E
/-- The scancode of the Enter key. -/
def enterKey : UInt8 := 0x1C

/-- The entries of `kbd_us` the source spells out; those after them are 0. -/
def kbdUs : List UInt8 :=
  [0, 27, 49, 50, 51, 52, 53, 54, 55, 56,  -- escape, 1 to 8
    57, 48, 45, 61, 8,  -- 9 0 - = and backspace
    9,  -- tab
    113, 119, 101, 114, 116, 121, 117, 105, 111, 112, 91, 93, 10,  -- q to p, [ ] and enter
    0,
    97, 115, 100, 102, 103, 104, 106, 107, 108, 59,  -- a to l and ;
    39, 96, 0,  -- quote and backquote
    92, 122, 120, 99, 118, 98, 110,  -- backslash, z to n
    109, 44, 46, 47, 0,  -- m , . /
    42, 0,  -- *
    32, 0]  -- blank

/-- `scancode_to_ascii`. -/
def scancodeToAscii (scancode : UInt8) : UInt8 :=
  if scancode > 128 then 0 else kbdUs.getD scancode.toNat 0

/-- `shift_ascii`. -/
def shiftAscii (c : UInt8) : UInt8 :=
  if 97 ≤ c ∧ c ≤ 122 then c - 32
  else match c with
    | 49 => 33 | 50 => 64 | 51 => 35 | 52 => 36 | 53 => 37  -- 1 to 5
    | 54 => 94 | 55 => 38 | 56 => 42 | 57 => 40 | 48 => 41  -- 6 to 0
    | 45 => 95 | 61 => 43 | 91 => 123 | 93 => 125 | 92 => 124  -- - = [ ] and backslash
    | 59 => 58 | 39 => 34 | 44 => 60 | 46 => 62 | 47 => 63 | 96 => 126  -- ; ' , . / `
    | c => c

/-- `is_key_released`. -/
def isKeyReleased (scancode : UInt8) : Bool := scancode &&& keyReleaseMask ≠ 0

/-- `is_keyboard_buffer_Empty`. -/
def isKeyboardBufferEmpty (k : Keyboard) : Bool := k.bufferHead = k.bufferTail

/-- `rm_last_char_buffer`; below 0 the head, a `uint8_t`, goes to 255. -/
def rmLastCharBuffer (k : Keyboard) : Keyboard :=
  if k.bufferHead = k.bufferTail then k
  else { k with bufferHead := (k.bufferHead + (bufferSize - 1)) % bufferSize }

/-- `keyboard_buffer_put`. -/
def keyboardBufferPut (k : Keyboard) (c : UInt8) : Keyboard :=
  { k with
    keyboardBuffer := Function.update k.keyboardBuffer k.bufferHead c
    bufferHead := (k.bufferHead + 1) % bufferSize }

/-- `buffer_tail = (buffer_tail + 1) % BUFFER_SIZE`. -/
def advanceTail (k : Keyboard) : Keyboard :=
  { k with bufferTail := (k.bufferTail + 1) % bufferSize }

/-- `keyboard_buffer_get` without interrupts; on an empty buffer it waits for ever. -/
def keyboardBufferGet (k : Keyboard) : Option (UInt8 × Keyboard) :=
  if k.isKeyboardBufferEmpty then none
  else some (k.keyboardBuffer k.bufferTail, k.advanceTail)

/-- `handle_scancode`, with what it does on the screen. -/
def handleScancode (scancode : UInt8) (k : Keyboard) : Keyboard × Option Echo :=
  if isKeyReleased scancode then
    if scancode - keyReleaseMask = shiftKey then ({ k with shiftPressed := false }, none)
    else (k, none)
  else if scancode = shiftKey then
    ({ k with shiftPressed := true }, none)
  else if scancode = capsLockKey then
    ({ k with capsLock := !k.capsLock }, none)
  else if scancode = backspaceKey then
    if k.isKeyboardBufferEmpty then (k, none)
    else (k.rmLastCharBuffer, if k.putOnScreen then some .moveCursorBack else none)
  else
    let c := scancodeToAscii scancode
    let c := if k.shiftPressed || k.capsLock then shiftAscii c else c
    (k.keyboardBufferPut c, if k.putOnScreen then some (.putChar c) else none)

/-- How many characters the buffer holds. -/
def held (k : Keyboard) : Nat := (k.bufferHead + bufferSize - k.bufferTail) % bufferSize

end Keyboard

/-- `MAX_INPUT_LENGTH`. -/
def maxInputLength : Nat := 128

/-- Where the shell is in `keyboard_buffer_get`. -/
inductive GetPc
  /-- `while(is_keyboard_buffer_Empty());` -/
  | polling
  /-- the wait is over -/
  | loading
  /-- the character is loaded, the tail not moved yet -/
  | advancing (c : UInt8)
deriving DecidableEq, Repr

/-- The shell's input loop. -/
structure Shell where
  pc : GetPc
  /-- `input[0 .. index - 1]` -/
  input : List UInt8
  /-- what `execute_command` was called with, in order -/
  executed : List (List UInt8)
deriving DecidableEq, Repr

/-- The body of the input loop after `c = keyboard_buffer_get()`. -/
def Shell.take (sh : Shell) (c : UInt8) : Shell :=
  if c = 10 then
    { sh with input := [], executed := sh.executed ++ [sh.input] }
  else if c = 8 then
    { sh with input := sh.input.dropLast }
  else if sh.input.length < maxInputLength - 1 then
    { sh with input := sh.input ++ [c] }
  else
    sh

/-- The keyboard and the shell. -/
structure Console where
  keyboard : Keyboard
  shell : Shell

namespace Console

/-- A step: the handler runs on a scancode, or the shell makes its next
access. -/
inductive Step
  | scancode (scancode : UInt8)
  | shell
deriving DecidableEq

/-- The shell's next access. -/
def stepShell (con : Console) : Console :=
  match con.shell.pc with
  | .polling =>
      if con.keyboard.isKeyboardBufferEmpty then con
      else { con with shell := { con.shell with pc := .loading } }
  | .loading =>
      let c := con.keyboard.keyboardBuffer con.keyboard.bufferTail
      { con with shell := { con.shell with pc := .advancing c } }
  | .advancing c =>
      ⟨con.keyboard.advanceTail, { con.shell with pc := .polling }.take c⟩

def step (con : Console) : Step → Console
  | .scancode scancode => { con with keyboard := (con.keyboard.handleScancode scancode).1 }
  | .shell => con.stepShell

/-- Steps in a row. -/
def run : List Step → Console → Console
  | [], con => con
  | next :: rest, con => run rest (con.step next)

/-- Every step of the run from `con` meets `C` in the state it is made in. -/
def AllSteps (C : Console → Step → Prop) : List Step → Console → Prop
  | [], _ => True
  | next :: rest, con => C con next ∧ AllSteps C rest (con.step next)

instance decAllSteps {C : Console → Step → Prop} [∀ con next, Decidable (C con next)] :
    ∀ steps con, Decidable (AllSteps C steps con)
  | [], _ => isTrue trivial
  | next :: rest, con =>
      have := decAllSteps rest (con.step next) (C := C)
      inferInstanceAs (Decidable (_ ∧ _))

/-- The scancodes of a run, in order. -/
def scancodes (steps : List Step) : List UInt8 :=
  steps.filterMap fun
    | .scancode scancode => some scancode
    | .shell => none

end Console
end MyOs
