import MyOs.Drivers.Keyboard
import MyOs.Drivers.Screen

/-!
# The keyboard's echo on the screen

`handle_scancode` puts a character into the buffer and on the screen, and a
Backspace takes one out of the buffer and moves the cursor back.
-/

namespace MyOs

/-- The keyboard driver with the screen it writes to. -/
structure Terminal where
  keyboard : Keyboard
  screen : Screen

namespace Terminal

/-- What the handler does on the screen, as a program of the screen. -/
def echo : Option Echo → Prog Screen Unit
  | none => pure ()
  | some (.putChar c) => Screen.putChar c
  | some .moveCursorBack => Screen.moveCursorBack

/-- `handle_scancode`. -/
def handleScancode (scancode : UInt8) : Prog Terminal Unit := do
  let t ← Prog.get
  let r := t.keyboard.handleScancode scancode
  Prog.modify fun t => { t with keyboard := r.1 }
  (echo r.2).zoom screen fun s t => { t with screen := s }

end Terminal
end MyOs
