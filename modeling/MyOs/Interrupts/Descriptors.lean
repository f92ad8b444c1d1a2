import MyOs.Base.Prog
import MyOs.Base.Records

/-!
# The descriptor tables (`gdt.c`, `idt.c`)

The two tables are bytes in memory, written field by field; the processor reads
them whenever it loads a segment register or takes an interrupt. Its reading, and
the checks it makes, are here too. Task gates and gates for 16-bit code are none
the kernel makes, and count as no gates.
-/

namespace MyOs

/-- Where the linker has put the four statics. -/
structure DescriptorLayout where
  gdt : Nat
  gdtPtr : Nat
  idt : Nat
  idtPtr : Nat
  gdt_lt : gdt + 48 ≤ 2 ^ 32
  idt_lt : idt + 2048 ≤ 2 ^ 32
  gdt_gdtPtr : gdt + 48 ≤ gdtPtr ∨ gdtPtr + 6 ≤ gdt
  gdt_idt : gdt + 48 ≤ idt ∨ idt + 2048 ≤ gdt
  gdt_idtPtr : gdt + 48 ≤ idtPtr ∨ idtPtr + 6 ≤ gdt
  gdtPtr_idt : gdtPtr + 6 ≤ idt ∨ idt + 2048 ≤ gdtPtr
  idt_idtPtr : idt + 2048 ≤ idtPtr ∨ idtPtr + 6 ≤ idt

/-- `struct gdt_ptr`, `struct idt_ptr`. -/
structure TablePtr where
  limit : BitVec 16
  base : Word
deriving DecidableEq

def TablePtr.bytes (t : TablePtr) : List Byte := halfBytes t.limit ++ t.base.bytes

def TablePtr.ofBytes (b : List Byte) : TablePtr where
  limit := b.getD 1 0 ++ b.getD 0 0
  base := Word.ofBytes (b.getD 2 0) (b.getD 3 0) (b.getD 4 0) (b.getD 5 0)

inductive SegmentRegister
  | cs | ds | es | fs | gs | ss
deriving DecidableEq, Repr

/-! ## What the processor reads -/

/-- A segment descriptor. -/
structure Segment where
  base : Word
  /-- the last offset -/
  limit : Nat
  present : Bool
  dpl : BitVec 2
  /-- code or data, and not of the system's own kinds -/
  application : Bool
  executable : Bool
  /-- conforming code, or data that grows down -/
  conforming : Bool
  /-- readable code, or writable data -/
  accessible : Bool
  /-- 32-bit code or stack -/
  big : Bool
deriving DecidableEq

/-- The field of twenty bits, in bytes or in pages. -/
def segmentLimit (limit : BitVec 20) (pages : Bool) : Nat :=
  if pages then limit.toNat * 4096 + 4095 else limit.toNat

def Segment.ofBytes (b : List Byte) : Segment where
  base := Word.ofBytes (b.getD 2 0) (b.getD 3 0) (b.getD 4 0) (b.getD 7 0)
  limit := segmentLimit ((b.getD 6 0).extractLsb' 0 4 ++ b.getD 1 0 ++ b.getD 0 0)
    ((b.getD 6 0).getLsbD 7)
  present := (b.getD 5 0).getLsbD 7
  dpl := (b.getD 5 0).extractLsb' 5 2
  application := (b.getD 5 0).getLsbD 4
  executable := (b.getD 5 0).getLsbD 3
  conforming := (b.getD 5 0).getLsbD 2
  accessible := (b.getD 5 0).getLsbD 1
  big := (b.getD 6 0).getLsbD 6

/-- A gate descriptor. -/
structure Gate where
  offset : Word
  selector : BitVec 16
  kind : BitVec 5
  dpl : BitVec 2
  present : Bool
deriving DecidableEq

def Gate.ofBytes (b : List Byte) : Gate where
  offset := Word.ofBytes (b.getD 0 0) (b.getD 1 0) (b.getD 6 0) (b.getD 7 0)
  selector := b.getD 3 0 ++ b.getD 2 0
  kind := (b.getD 5 0).extractLsb' 0 5
  dpl := (b.getD 5 0).extractLsb' 5 2
  present := (b.getD 5 0).getLsbD 7

/-- Gates through which the interrupt flag is cleared, and those that leave it. -/
def interruptGate : BitVec 5 := 0x0E#5

def trapGate : BitVec 5 := 0x0F#5

/-- An exception with its error code. -/
inductive Fault
  | generalProtection (errCode : Nat)
  | notPresent (errCode : Nat)
deriving DecidableEq

def Fault.vector : Fault → Nat
  | generalProtection _ => 13
  | notPresent _ => 11

/-- Where a routine is entered. -/
structure Entry where
  cs : BitVec 16
  eip : Word
  /-- its linear address -/
  linear : Word
  clearsIf : Bool
deriving DecidableEq

/-- Memory, and the registers the tables are found by. -/
structure Processor where
  mem : ByteStore
  gdtr : TablePtr
  idtr : TablePtr
  segments : SegmentRegister → BitVec 16

namespace Processor

/-- The descriptor a selector names; there is no local table. -/
def descriptor (p : Processor) (selector : BitVec 16) : Option Segment :=
  if selector.getLsbD 2 ∨ p.gdtr.limit.toNat < 8 * (selector.toNat / 8) + 7 then none
  else some (Segment.ofBytes (p.mem.record p.gdtr.base.toNat 8 (selector.toNat / 8)))

/-- The error code of an exception about a gate: the vector, and the bit for the
interrupt table. -/
def gateError (v : Nat) : Nat := 8 * v + 2

/-- The checks on the code segment of a gate, in ring 0. -/
def enterSegment (p : Processor) (g : Gate) : Except Fault Entry :=
  if g.selector.toNat / 4 = 0 then .error (.generalProtection 0)
  else
    match p.descriptor g.selector with
    | none => .error (.generalProtection (g.selector.toNat / 4 * 4))
    | some s =>
        if s.application = false ∨ s.executable = false ∨ s.dpl ≠ 0 then
          .error (.generalProtection (g.selector.toNat / 4 * 4))
        else if s.present = false then .error (.notPresent (g.selector.toNat / 4 * 4))
        else if s.limit < g.offset.toNat then .error (.generalProtection 0)
        else .ok ⟨g.selector, g.offset, s.base + g.offset, g.kind = interruptGate⟩

/-- An interrupt with vector `v`. -/
def vectorEntry (p : Processor) (v : Nat) : Except Fault Entry :=
  if p.idtr.limit.toNat < 8 * v + 7 then .error (.generalProtection (gateError v))
  else
    let g := Gate.ofBytes (p.mem.record p.idtr.base.toNat 8 v)
    if g.kind ≠ interruptGate ∧ g.kind ≠ trapGate then
      .error (.generalProtection (gateError v))
    else if g.present = false then .error (.notPresent (gateError v))
    else p.enterSegment g

/-- The routine that is entered in the end, with the vector it is entered for: an
exception on the way to a routine is delivered in turn, one on the way to that is a
double fault, and after a third the machine shuts down. -/
def delivered (p : Processor) (v : Nat) : Option (Nat × Entry) :=
  match p.vectorEntry v with
  | .ok e => some (v, e)
  | .error f =>
      match p.vectorEntry f.vector with
      | .ok e => some (f.vector, e)
      | .error _ =>
          match p.vectorEntry 8 with
          | .ok e => some (8, e)
          | .error _ => none

/-- Whether a segment register takes a selector, in ring 0. -/
def takes (p : Processor) (r : SegmentRegister) (selector : BitVec 16) : Bool :=
  match p.descriptor selector with
  | none => false
  | some s =>
      selector.toNat / 4 ≠ 0 && s.application && s.present &&
        match r with
        | .cs => s.executable && s.dpl = 0
        | .ss => !s.executable && s.accessible && s.dpl = 0
        | _ => !s.executable || s.accessible

/-- `mov` to a segment register, or a far jump. -/
def loadSegment (r : SegmentRegister) (selector : BitVec 16) : Prog Processor Unit := do
  let p ← Prog.get
  if p.takes r selector then
    Prog.modify fun p => { p with segments := Function.update p.segments r selector }
  else Prog.stop (.badAccess selector.toNat)

/-- A field of a static. -/
def assign (a : Nat) (bytes : List Byte) : Prog Processor Unit :=
  Prog.modify fun p => { p with mem := p.mem.store a bytes }

end Processor

open Processor

section Tables

variable (l : DescriptorLayout)

/-! ## `gdt.c` -/

/-- `GDT_ENTRIES`. -/
def gdtEntries : Nat := 6

/-- `GDT_LIMIT_LOW` and the other macros. -/
def gdtLimitLow (limit : Word) : BitVec 16 := (limit &&& 0xFFFF#32).setWidth 16

def gdtLimitHigh (limit : Word) : Word := (limit >>> 16) &&& 0x0F#32

def gdtBaseLow (base : Word) : BitVec 16 := (base &&& 0xFFFF#32).setWidth 16

def gdtBaseMid (base : Word) : Byte := ((base >>> 16) &&& 0xFF#32).setWidth 8

def gdtBaseHigh (base : Word) : Byte := ((base >>> 24) &&& 0xFF#32).setWidth 8

def gdtCombineHighLimitAndFlags (highLimit : Word) (flags : Byte) : Byte :=
  (highLimit ||| (flags.setWidth 32 <<< 4)).setWidth 8

/-- The field of `gdt[num]` at `offset`; that of a negative `num` is below the table. -/
def gdtField (num : Int) (offset : Nat) : Nat :=
  ((l.gdt + 8 * num + offset) % (2 ^ 32 : Nat)).toNat

/-- `set_gdt_entry`. -/
def setGdtEntry (num : Int) (base limit : Word) (access flags : Byte) : Prog Processor Unit :=
  if num < gdtEntries then do
    assign (gdtField l num 0) (halfBytes (gdtLimitLow limit))
    assign (gdtField l num 2) (halfBytes (gdtBaseLow base))
    assign (gdtField l num 4) [gdtBaseMid base]
    assign (gdtField l num 5) [access]
    assign (gdtField l num 6) [gdtCombineHighLimitAndFlags (gdtLimitHigh limit) flags]
    assign (gdtField l num 7) [gdtBaseHigh base]
  else Prog.stop (.assertion "num < GDT_ENTRIES")

/-- `NULL_ENTRY` and the other places. -/
def nullEntry : Nat := 0
def kernelCodeEntry : Nat := 2
def kernelDataEntry : Nat := 3
def userCodeEntry : Nat := 4
def userDataEntry : Nat := 5

/-- `GDT_CODE_ACCESS` and the other bytes. -/
def gdtCodeAccess : Byte := 0x9A#8
def gdtDataAccess : Byte := 0x92#8
def gdtUserCodeAccess : Byte := 0xFA#8
def gdtUserDataAccess : Byte := 0xF2#8
def gdtCodeFlags : Byte := 0xC#8
def gdtDataFlags : Byte := 0xC#8

def maxLimit : Word := 0xFFFFFFFF#32

/-- `KERNEL_CODE_SELECTOR` of the tables, and `KERNEL_DATA_SELECTOR`. -/
def codeSelector : BitVec 16 := 0x10#16

def kernelDataSelector : BitVec 16 := 0x18#16

/-- `setup_gdt_entries`. -/
def setupGdtEntries : Prog Processor Unit := do
  setGdtEntry l nullEntry 0#32 0#32 0#8 0#8
  setGdtEntry l kernelCodeEntry 0#32 maxLimit gdtCodeAccess gdtCodeFlags
  setGdtEntry l kernelDataEntry 0#32 maxLimit gdtDataAccess gdtDataFlags
  setGdtEntry l userCodeEntry 0#32 maxLimit gdtUserCodeAccess gdtCodeFlags
  setGdtEntry l userDataEntry 0#32 maxLimit gdtUserDataAccess gdtDataFlags

/-- `init_gdt_ptr`. -/
def initGdtPtr : Prog Processor Unit := do
  assign l.gdtPtr (halfBytes (BitVec.ofNat 16 (8 * gdtEntries - 1)))
  assign (l.gdtPtr + 2) (Word.bytes (BitVec.ofNat 32 l.gdt))

/-- `load_gdt`. -/
def loadGdt : Prog Processor Unit := do
  Prog.modify fun p => { p with gdtr := TablePtr.ofBytes (p.mem.load l.gdtPtr 6) }
  loadSegment .ds kernelDataSelector
  loadSegment .es kernelDataSelector
  loadSegment .fs kernelDataSelector
  loadSegment .gs kernelDataSelector
  loadSegment .ss kernelDataSelector
  loadSegment .cs codeSelector

/-- `init_gdt`. -/
def initGdt : Prog Processor Unit := do
  setupGdtEntries l
  initGdtPtr l
  loadGdt l

/-! ## `idt.c` -/

/-- `IDT_ENTRIES`. -/
def idtEntries : Nat := 256

/-- `IDT_OFFSET_LOW` and `IDT_OFFSET_HIGH`. -/
def idtOffsetLow (offset : Word) : BitVec 16 := (offset &&& 0xFFFF#32).setWidth 16

def idtOffsetHigh (offset : Word) : BitVec 16 := (offset >>> 16).setWidth 16

/-- `IDT_ATTR_KERNEL`. -/
def idtAttrKernel : Byte := 0x80#8 ||| 0x00#8 ||| 0x0E#8

/-- `idt_set_gate`. -/
def idtSetGate (num : Byte) (base : Word) (selector : BitVec 16) (typeAttr : Byte) :
    Prog Processor Unit := do
  assign (l.idt + 8 * num.toNat) (halfBytes (idtOffsetLow base))
  assign (l.idt + 8 * num.toNat + 2) (halfBytes selector)
  assign (l.idt + 8 * num.toNat + 4) [0#8]
  assign (l.idt + 8 * num.toNat + 5) [typeAttr]
  assign (l.idt + 8 * num.toNat + 6) (halfBytes (idtOffsetHigh base))

/-- `init_idt_entries`: `isr v` is the address of the routine `isr` with number `v`. -/
def initIdtEntries (isr : Nat → Word) : Prog Processor Unit :=
  Prog.forLoop (fun v => idtSetGate l (BitVec.ofNat 8 v) (isr v) codeSelector idtAttrKernel) 0 34

/-- `init_idt_ptr`. -/
def initIdtPtr : Prog Processor Unit := do
  assign l.idtPtr (halfBytes (BitVec.ofNat 16 (8 * idtEntries - 1)))
  assign (l.idtPtr + 2) (Word.bytes (BitVec.ofNat 32 l.idt))

/-- `load_idt`. -/
def loadIdt : Prog Processor Unit :=
  Prog.modify fun p => { p with idtr := TablePtr.ofBytes (p.mem.load l.idtPtr 6) }

/-- `init_idt`. -/
def initIdt (isr : Nat → Word) : Prog Processor Unit := do
  initIdtEntries l isr
  initIdtPtr l
  loadIdt l

/-- `idt_irq_install_handler`: the number is cut to a byte. -/
def idtIrqInstallHandler (irq : Int) (handler : Word) : Prog Processor Unit :=
  idtSetGate l (BitVec.ofInt 8 irq) handler codeSelector idtAttrKernel

end Tables
end MyOs
