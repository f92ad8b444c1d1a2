import MyOs.Drivers.Screen
import MyOs.Std.CString

/-!
# The shell's commands (`shell.c`)

A command acts on the screen only, so what `execute_command` does is the list of the
calls it makes there, in order.
-/

namespace MyOs

open CString

/-- A call of the shell on the screen. -/
inductive ScreenCall
  | putString (str : CString)
  | putInt (num : Int32)
  | setColor (newColor : UInt8)
  | clearRow (row : Int32)
  | clearScreen
  | scrollScreen
  /-- the endless loop of `exit` -/
  | halt
deriving DecidableEq

/-- The branch of `color`. -/
def colorCommand (colorCode : Int32) : List ScreenCall :=
  if colorCode ≥ 0 ∧ colorCode ≤ 255 then
    [.setColor (intToChar colorCode), .putString (lit "\nText color changed.\n")]
  else
    [.putString (lit "\nInvalid color code! Use a value between 0 and 255.\n")]

/-- The branch of `clearrow`. -/
def clearrowCommand (row : Int32) : List ScreenCall :=
  if row ≥ 0 ∧ row < .ofNat vgaHeight then
    [.clearRow row, .putString (lit "\nRow cleared.\n")]
  else
    [.putString (lit "\nInvalid row number! Use a value between 0 and "),
      .putInt (.ofNat vgaHeight - 1), .putString (lit ".\n")]

/-- `execute_command`. -/
def executeCommand (input : CString) : List ScreenCall :=
  if strcmp input (lit "help") = 0 then
    [.putString (lit "\nAvailable commands:\n"),
      .putString (lit "  clear         - Clears the screen\n"),
      .putString (lit "  echo [text]   - Echoes the input text\n"),
      .putString (lit "  color [num]   - Changes the text color\n"),
      .putString (lit "  scroll        - Scrolls the screen\n"),
      .putString (lit "  clearrow [n]  - Clears a specific row (0-24)\n"),
      .putString (lit "  exit          - Exits the shell\n")]
  else if strcmp input (lit "clear") = 0 then
    [.clearScreen]
  else if strncmp input (lit "echo ") 5 = 0 then
    [.putString (lit "\n"), .putString (input.drop 5), .putString (lit "\n")]
  else if strncmp input (lit "color ") 6 = 0 then
    colorCommand (atoi (input.drop 6).chars)
  else if strcmp input (lit "scroll") = 0 then
    [.putString (lit "\nScrolling the screen...\n"), .scrollScreen]
  else if strncmp input (lit "clearrow ") 9 = 0 then
    clearrowCommand (atoi (input.drop 9).chars)
  else if strcmp input (lit "exit") = 0 then
    [.putString (lit "\nExiting Enhanced Shell. Goodbye!\n"), .halt]
  else
    [.putString (lit "\nUnknown command: "), .putString input,
      .putString (lit "\nType 'help' for a list of commands.\n")]

/-- The command line `color x`. -/
theorem executeCommand_color (x : CString) :
    executeCommand ((lit "color ").append x) = colorCommand (atoi x.chars) := by
  have hprefix : strncmp ((lit "color ").append x) (lit "color ") 6 = 0 :=
    strncmp_eq_zero_iff.mpr (List.prefix_append _ _)
  have hdrop : ((lit "color ").append x).drop 6 = x := drop_append _ _
  rw [executeCommand, if_neg, if_neg, if_neg, if_pos hprefix, hdrop]
  · exact strncmp_append_ne_zero (t := lit "echo ") x (by decide) (by decide)
  · exact strcmp_append_ne_zero x (by decide)
  · exact strcmp_append_ne_zero x (by decide)

/-- The command line `clearrow x`. -/
theorem executeCommand_clearrow (x : CString) :
    executeCommand ((lit "clearrow ").append x) = clearrowCommand (atoi x.chars) := by
  have hprefix : strncmp ((lit "clearrow ").append x) (lit "clearrow ") 9 = 0 :=
    strncmp_eq_zero_iff.mpr (List.prefix_append _ _)
  have hdrop : ((lit "clearrow ").append x).drop 9 = x := drop_append _ _
  rw [executeCommand, if_neg, if_neg, if_neg, if_neg, if_neg, if_pos hprefix, hdrop]
  · exact strcmp_append_ne_zero x (by decide)
  · exact strncmp_append_ne_zero (t := lit "color ") x (by decide) (by decide)
  · exact strncmp_append_ne_zero (t := lit "echo ") x (by decide) (by decide)
  · exact strcmp_append_ne_zero x (by decide)
  · exact strcmp_append_ne_zero x (by decide)

end MyOs
