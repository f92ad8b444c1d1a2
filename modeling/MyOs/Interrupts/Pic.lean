import MyOs.Base.Bitmap
import MyOs.Base.Prog
import MyOs.Base.System

/-!
# The interrupt controllers (`pic.c`)

The driver's writes to the ports of the two 8259 controllers, the slave on line 2
of the master, and what the controllers make of them: the initialization words,
the masks, the end of interrupt. Priorities are fixed, line 0 first.
-/

namespace MyOs

open Bitmap (bitMask)

/-- Which word a controller expects at its data port. -/
inductive PicPhase
  | ready
  | icw2
  | icw3
  | icw4
deriving DecidableEq, Repr

/-- A controller. -/
structure Pic where
  phase : PicPhase
  /-- the initialization will have a fourth word -/
  needsIcw4 : Bool
  /-- the vector of line 0 -/
  offset : Byte
  /-- the word about the cascade -/
  cascade : Byte
  /-- the lines that are masked -/
  imr : Byte
  /-- the lines that request -/
  irr : Byte
  /-- the lines in service -/
  isr : Byte
deriving DecidableEq

/-- The first line of a set, which has the highest priority. -/
def firstLine (b : Byte) : Option Nat := (List.range 8).find? fun i => b.getLsbD i

namespace Pic

/-- The line the controller interrupts for: it requests, is not masked, and no line is in
service that has at least its priority. -/
def request (c : Pic) : Option Nat :=
  match firstLine (c.irr &&& ~~~c.imr) with
  | none => none
  | some i =>
      match firstLine c.isr with
      | none => some i
      | some j => if i < j then some i else none

/-- A line raised by its device. -/
def raise (c : Pic) (i : Nat) : Pic := { c with irr := c.irr ||| bitMask i }

/-- The processor has acknowledged line `i`. -/
def acknowledge (c : Pic) (i : Nat) : Pic :=
  { c with irr := c.irr &&& ~~~bitMask i, isr := c.isr ||| bitMask i }

/-- The vector of a line. -/
def vector (c : Pic) (i : Nat) : Nat := c.offset.toNat + i

/-- The end of the interrupt of the highest priority. -/
def endOfInterrupt (c : Pic) : Pic :=
  match firstLine c.isr with
  | none => c
  | some i => { c with isr := c.isr &&& ~~~bitMask i }

/-- A write to the command port: the first initialization word, or the end of an
interrupt. -/
def command (c : Pic) (value : Byte) : Pic :=
  if value.getLsbD 4 then
    { c with
      phase := .icw2
      needsIcw4 := value.getLsbD 0
      imr := 0#8
      irr := 0#8
      isr := 0#8 }
  else if value.extractLsb' 5 3 = 1#3 ∧ value.getLsbD 3 = false then c.endOfInterrupt
  else c

/-- A write to the data port. -/
def data (c : Pic) (value : Byte) : Pic :=
  match c.phase with
  | .ready => { c with imr := value }
  | .icw2 => { c with offset := value &&& 0xF8#8, phase := .icw3 }
  | .icw3 => { c with cascade := value, phase := if c.needsIcw4 then .icw4 else .ready }
  | .icw4 => { c with phase := .ready }

end Pic

structure Pics where
  master : Pic
  slave : Pic
deriving DecidableEq

namespace Pics

/-- `PIC1_COMMAND` and the other ports. -/
def pic1Command : Nat := 0x20
def pic1Data : Nat := 0x21
def pic2Command : Nat := 0xA0
def pic2Data : Nat := 0xA1

def outb (port : Nat) (value : Byte) : Prog Pics Unit :=
  Prog.modify fun s =>
    if port = pic1Command then { s with master := s.master.command value }
    else if port = pic1Data then { s with master := s.master.data value }
    else if port = pic2Command then { s with slave := s.slave.command value }
    else if port = pic2Data then { s with slave := s.slave.data value }
    else s

/-- `inb`: only the masks are read. -/
def inb (port : Nat) : Prog Pics Byte := do
  let s ← Prog.get
  if port = pic1Data then pure s.master.imr
  else if port = pic2Data then pure s.slave.imr
  else pure 0

/-! ## `pic.c` -/

/-- `IRQ_NUM` and `PIC_IRQ_AMOUNT`. -/
def irqNum : Nat := 16
def picIrqAmount : Nat := 8

/-- `ICW1_INIT | ICW1_ICW4`. -/
def icw1 : Byte := 0x10#8 ||| 0x01#8

def pic1VectorOffset : Byte := 0x20#8
def pic2VectorOffset : Byte := 0x28#8
def pic1Irq2Mask : Byte := 0x04#8
def pic2CascadeId : Byte := 0x02#8

/-- `ICW4_8086`. -/
def icw48086 : Byte := 0x01#8

/-- `PCI_EOI`. -/
def pciEoi : Byte := 0x20#8

/-- `pic_send_ack`. -/
def picSendAck : Prog Pics Unit := outb pic1Command pciEoi

/-- `mask_all_except_keyboard`. -/
def maskAllExceptKeyboard : Prog Pics Unit := do
  outb pic1Data (~~~bitMask 1)
  outb pic2Data 0xFF#8

/-- `remap_pic`, between `cli` and `sti`. -/
def remapPic : Prog Pics Unit := do
  let masterMask ← inb pic1Data
  let slaveMask ← inb pic2Data
  outb pic1Command icw1
  outb pic2Command icw1
  outb pic1Data pic1VectorOffset
  outb pic2Data pic2VectorOffset
  outb pic1Data pic1Irq2Mask
  outb pic2Data pic2CascadeId
  outb pic1Data icw48086
  outb pic2Data icw48086
  outb pic1Data masterMask
  outb pic2Data slaveMask
  maskAllExceptKeyboard

/-- `unmask_irq`. -/
def unmaskIrq (irq : Nat) : Prog Pics Unit :=
  if irq < irqNum then
    if irq < picIrqAmount then do
      let value ← inb pic1Data
      outb pic1Data (value &&& ~~~bitMask irq)
    else do
      let value ← inb pic2Data
      outb pic2Data (value &&& ~~~bitMask (irq - picIrqAmount))
  else Prog.stop (.assertion "irq < IRQ_NUM")

/-! ## The lines -/

/-- The slave requests on line 2 of the master as long as it has an interrupt. -/
def wired (s : Pics) : Pics :=
  { s with master := if s.slave.request.isSome then s.master.raise 2
      else { s.master with irr := s.master.irr &&& ~~~bitMask 2 } }

/-- A device raises its line. -/
def raise (s : Pics) (irq : Nat) : Pics :=
  if irq < picIrqAmount then { s with master := s.master.raise irq }
  else { s with slave := s.slave.raise (irq - picIrqAmount) }

/-- The processor asks for a vector; the master leaves it to the slave to answer for
line 2. -/
def take (s : Pics) : Option (Nat × Pics) :=
  match s.wired.master.request with
  | none => none
  | some i =>
      if s.master.cascade.getLsbD i then
        match s.slave.request with
        | none => none
        | some j => some (s.slave.vector j,
            { master := s.wired.master.acknowledge i, slave := s.slave.acknowledge j })
      else some (s.master.vector i, { s with master := s.wired.master.acknowledge i })

/-- The processor, in an interrupt or not, with the controllers. -/
structure Served where
  pics : Pics
  /-- the routine has not yet sent its `pic_send_ack` -/
  busy : Bool

inductive LineCall
  | raise (irq : Nat)
  | take (vector : Nat)
  | ack
  | unmask (irq : Nat)

/-- After `remap_pic`, in whatever state it found the controllers: devices raise lines at
any time, the processor takes interrupts outside of routines, and a routine sends one
`pic_send_ack`. -/
def sys : TSys Served LineCall where
  init σ := (∃ s, remapPic s = .ok ((), σ.pics)) ∧ σ.busy = false
  step σ call σ' :=
    match call with
    | .raise irq => irq < irqNum ∧ irq ≠ 2 ∧ σ' = { σ with pics := σ.pics.raise irq }
    | .take vector => σ.busy = false ∧ ∃ s, σ.pics.take = some (vector, s) ∧ σ' = ⟨s, true⟩
    | .ack => σ.busy = true ∧ ∃ s, picSendAck σ.pics = .ok ((), s) ∧ σ' = ⟨s, false⟩
    | .unmask irq => ∃ s, unmaskIrq irq σ.pics = .ok ((), s) ∧ σ' = { σ with pics := s }

end Pics
end MyOs
