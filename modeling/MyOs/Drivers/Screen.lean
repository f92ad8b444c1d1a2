import MyOs.Base.Prog
import MyOs.Base.Word
import MyOs.Memory.Layout
import Mathlib.Logic.Function.Basic

/-!
# The text screen (`screen.c`)

The cursor counts cells and runs up to the end of the screen; the character
after the last cell scrolls first. Accessing a cell outside the buffer stops
the program with a bad access.
-/

namespace MyOs

/-- `VGA_WIDTH`. -/
def vgaWidth : Nat := 80
/-- `VGA_HEIGHT`. -/
def vgaHeight : Nat := 25
/-- `VGA_MAX_CHARS`. -/
def vgaMaxChars : Nat := vgaWidth * vgaHeight

/-- `WHITE_ON_BLACK`. -/
def whiteOnBlack : UInt8 := 0x07

/-- `struct letter`. -/
structure Letter where
  c : UInt8
  color : UInt8
deriving DecidableEq, Repr

/-- `EMPTY_LETTER`. -/
def emptyLetter : Letter := ⟨0, whiteOnBlack⟩

/-- `'\n'`. -/
def newline : UInt8 := 10

/-- The static state of `screen.c`, with the cells at `VGA_ADDRESS`. -/
structure Screen where
  videoMemory : Nat → Letter
  posOnScreen : Nat
  color : UInt8

namespace Screen

/-- `video_memory[i]`. -/
def readCell (i : Nat) : Prog Screen Letter := do
  let s ← Prog.get
  if i < vgaMaxChars then pure (s.videoMemory i)
  else Prog.stop (.badAccess (vgaAddress + 2 * i))

/-- `video_memory[i] = l`. -/
def writeCell (i : Nat) (l : Letter) : Prog Screen Unit :=
  if i < vgaMaxChars then
    Prog.modify fun s => { s with videoMemory := Function.update s.videoMemory i l }
  else
    Prog.stop (.badAccess (vgaAddress + 2 * i))

/-- `clear_screen`. -/
def clearScreen : Prog Screen Unit := do
  Prog.forLoop (fun i => writeCell i emptyLetter) 0 vgaMaxChars
  Prog.modify fun s => { s with posOnScreen := 0 }

/-- `clear_row`. -/
def clearRow (row : Int) : Prog Screen Unit :=
  if row < 0 ∨ row ≥ vgaHeight then pure ()
  else
    Prog.forLoop (fun i => writeCell (row.toNat * vgaWidth + i) emptyLetter) 0 vgaWidth

/-- The inner loop of `scroll_screen`: a row moves up by one. -/
def moveRowUp (row : Nat) : Prog Screen Unit :=
  Prog.forLoop (fun col => do
    let l ← readCell (row * vgaWidth + col)
    writeCell ((row - 1) * vgaWidth + col) l) 0 vgaWidth

/-- `scroll_screen`. -/
def scrollScreen : Prog Screen Unit := do
  Prog.forLoop moveRowUp 1 (vgaHeight - 1)
  clearRow (vgaHeight - 1)
  Prog.modify fun s => { s with posOnScreen := (vgaHeight - 1) * vgaWidth }

/-- `put_char` once the cursor is on the screen. -/
def placeChar (c : UInt8) : Prog Screen Unit := do
  let s ← Prog.get
  if c = newline then
    Prog.modify fun s => { s with posOnScreen := u32 ((s.posOnScreen / vgaWidth + 1) * vgaWidth) }
  else
    writeCell s.posOnScreen ⟨c, s.color⟩
    Prog.modify fun s => { s with posOnScreen := u32 (s.posOnScreen + 1) }

/-- `put_char`. -/
def putChar (c : UInt8) : Prog Screen Unit := do
  let s ← Prog.get
  if s.posOnScreen ≥ vgaMaxChars then
    scrollScreen
    placeChar c
  else
    placeChar c

/-- The loop of `move_cursor_back` with the cursor at its argument. -/
def moveBackFrom : Nat → Prog Screen Unit
  | 0 => pure ()
  | pos + 1 => do
      Prog.modify fun s => { s with posOnScreen := pos }
      let l ← readCell pos
      if l.c ≠ emptyLetter.c then writeCell pos emptyLetter else moveBackFrom pos

/-- `move_cursor_back`. -/
def moveCursorBack : Prog Screen Unit := do
  let s ← Prog.get
  moveBackFrom s.posOnScreen

/-- `set_color`. -/
def setColor (newColor : UInt8) : Prog Screen Unit :=
  Prog.modify fun s => { s with color := newColor }

/-- A call of the terminal. -/
inductive Call
  | putChar (c : UInt8)
  | setColor (newColor : UInt8)
deriving DecidableEq

/-- The calls as programs. -/
def exec : Call → Prog Screen Unit
  | .putChar c => putChar c
  | .setColor newColor => setColor newColor

/-- Calls in a row. -/
def runCalls : List Call → Prog Screen Unit
  | [] => pure ()
  | call :: rest => do
      exec call
      runCalls rest

/-- How often `put_char` scrolls in the calls from `s`. -/
def scrolls : List Call → Screen → Nat
  | [], _ => 0
  | call :: rest, s =>
      (match call with
        | .putChar _ => if s.posOnScreen ≥ vgaMaxChars then 1 else 0
        | .setColor _ => 0) + scrolls rest ((exec call).stateAfter s)

end Screen
end MyOs
