import MyOs.Base.Word
import MyOs.Interrupts.Pic

/-!
# The timer (`pit.c`)

`pit_init` on the ports of the 8254, and what the counter it programs is set to.
The messages about a frequency out of range are left out.
-/

namespace MyOs

/-- A counter of the 8254. -/
structure PitChannel where
  mode : BitVec 3
  bcd : Bool
  /-- 1 for the low byte, 2 for the high byte, 3 for both, the low one first -/
  access : BitVec 2
  /-- a low byte whose high byte is to come -/
  low : Option Byte
  /-- the count it starts over from, when there is one; 0 stands for 65536 -/
  count : Option (BitVec 16)

namespace PitChannel

/-- A control word stops the counter until it has a count. -/
def control (value : Byte) : PitChannel where
  mode := value.extractLsb' 1 3
  bcd := value.getLsbD 0
  access := value.extractLsb' 4 2
  low := none
  count := none

/-- A write to the counter's own port. -/
def write (c : PitChannel) (value : Byte) : PitChannel :=
  if c.access = 1#2 then { c with count := some (0#8 ++ value) }
  else if c.access = 2#2 then { c with count := some (value ++ 0#8) }
  else
    match c.low with
    | none => { c with low := some value }
    | some low => { c with low := none, count := some (value ++ low) }

end PitChannel

/-- The counters, the interrupt controllers and the driver's `frequency`. -/
structure Timer where
  channels : BitVec 2 → PitChannel
  pics : Pics
  frequency : Nat

namespace Timer

/-- `PIT_CHANNEL_0` and `PIT_COMMAND`. -/
def pitChannel0 : Nat := 0x40
def pitCommand : Nat := 0x43

/-- `outb`; a control word for channel 3 reads counters back. -/
def outb (port : Nat) (value : Byte) : Prog Timer Unit :=
  Prog.modify fun t =>
    if port = pitCommand then
      if value.extractLsb' 6 2 = 3#2 then t
      else { t with channels :=
        Function.update t.channels (value.extractLsb' 6 2) (.control value) }
    else if pitChannel0 ≤ port ∧ port < pitCommand then
      let i := BitVec.ofNat 2 (port - pitChannel0)
      { t with channels := Function.update t.channels i ((t.channels i).write value) }
    else t

/-- `PIT_COMMAND_CHANNEL_0`, `PIT_ACCESS_MODE_16_BIT`, `PIT_CLOCK_MODE` and
`PIT_BINARY_MODE`. -/
def pitCommandChannel0 : Byte := 0x00#8
def pitAccessMode16Bit : Byte := 0x30#8
def pitClockMode : Byte := 0x06#8
def pitBinaryMode : Byte := 0x00#8

/-- `PIT_CLOCK_FREQUENCY`. -/
def pitClockFrequency : Nat := 1193182

/-- `PIT_IRQ`. -/
def pitIrq : Nat := 0

/-- The frequency in its range. -/
def clampFrequency (frequency : Nat) : Nat :=
  let frequency := if frequency < 20 then 20 else frequency
  if frequency > pitClockFrequency then pitClockFrequency else frequency

/-- `pit_init`. -/
def pitInit : Prog Timer Unit := do
  Prog.modify fun t => { t with frequency := clampFrequency t.frequency }
  let t ← Prog.get
  let divisor := BitVec.ofNat 16 (pitClockFrequency / t.frequency)
  outb pitCommand (pitCommandChannel0 ||| pitAccessMode16Bit ||| pitClockMode ||| pitBinaryMode)
  outb pitChannel0 ((divisor &&& 0xFF#16).setWidth 8)
  outb pitChannel0 (((divisor >>> 8) &&& 0xFF#16).setWidth 8)
  Prog.zoom Timer.pics (fun s t => { t with pics := s }) (Pics.unmaskIrq pitIrq)

end Timer
end MyOs
