import MyOs.Processes.ContextSwitch

/-!
# The interrupt routines (`isr_stubs.asm`, `interupts_handler.c`)

Delivery of an interrupt, the routines `isr0` to `isr33` instruction by
instruction, and the dispatch of `isr_handler`. All code runs in the kernel's
code segment, so the processor switches no stack; `iret` to another segment
stops it. The services are parameters: a service is C code, which begins with
the return address on top of the stack.
-/

namespace MyOs

/-- What an interrupt gate clears: TF, IF and NT. -/
def gateClears : Word := 0x4300#32

def interruptFlag : Word := 0x200#32

namespace Eflags

/-- EFLAGS after delivery through an interrupt gate. -/
def gated (f : Eflags) : Eflags where
  word := f.word &&& ~~~gateClears
  fixed := by
    rw [BitVec.and_assoc, BitVec.and_comm (~~~gateClears), ← BitVec.and_assoc, f.fixed]
    decide

/-- EFLAGS after `cli`. -/
def disabled (f : Eflags) : Eflags where
  word := f.word &&& ~~~interruptFlag
  fixed := by
    rw [BitVec.and_assoc, BitVec.and_comm (~~~interruptFlag), ← BitVec.and_assoc, f.fixed]
    decide

/-- EFLAGS after `sti`. -/
def enabled (f : Eflags) : Eflags where
  word := f.word ||| interruptFlag
  fixed := by
    rw [BitVec.and_or_distrib_right, f.fixed]
    decide

/-- IF is set. -/
def Interruptible (f : Eflags) : Prop := f.word &&& interruptFlag ≠ 0#32

instance (f : Eflags) : Decidable f.Interruptible := inferInstanceAs (Decidable (_ ≠ _))

end Eflags

/-- `KERNEL_CODE_SELECTOR`. -/
def kernelCodeSelector : Word := 0x10#32

/-- `registers_t`, for an interrupt of the kernel. -/
structure Registers where
  edi : Word
  esi : Word
  ebp : Word
  /-- when `pushad` was executed -/
  esp : Word
  ebx : Word
  edx : Word
  ecx : Word
  eax : Word
  intNo : Word
  errCode : Word
  eip : Word
  cs : Word
  eflags : Word
deriving DecidableEq

/-- As they lie in memory. -/
def Registers.words (r : Registers) : List Word :=
  [r.edi, r.esi, r.ebp, r.esp, r.ebx, r.edx, r.ecx, r.eax, r.intNo, r.errCode, r.eip, r.cs,
    r.eflags]

/-- What `isr_handler` calls. -/
inductive Service
  | keyboardHandler
  | pageFaultHandler (errCode : Word)
  | pitHandler
  | cpuHandler (intNo : Word)
  /-- `put_string("Unknown interrupt\n")` -/
  | unknownInterrupt
deriving DecidableEq

/-- `KEYBOARD_ISR`, `PAGE_FAULT_ISR`, `PIT_ISR`, `CPU_EXCEPTIONS`. -/
def keyboardIsr : Word := 33#32

def pageFaultIsr : Word := 14#32

def pitIsr : Word := 32#32

def cpuExceptions : Word := 32#32

namespace Machine

/-! ## The processor -/

/-- The processor goes to the routine at `entry`. -/
def deliver (entry : Word) (errorCode : Option Word) : Prog Machine Unit := do
  let m ← Prog.get
  pushAll ([m.eflags.word, kernelCodeSelector, m.eip] ++ errorCode.toList)
  Prog.modify fun m => { m with eflags := m.eflags.gated, eip := entry }

def cli : Prog Machine Unit :=
  Prog.modify fun m => { m with eflags := m.eflags.disabled }

def sti : Prog Machine Unit :=
  Prog.modify fun m => { m with eflags := m.eflags.enabled }

/-- The selector is the low half of the word popped for CS. -/
def iret : Prog Machine Unit := do
  let eip ← pop
  let cs ← pop
  let eflags ← pop
  if cs.setWidth 16 = kernelCodeSelector.setWidth 16 then
    Prog.modify fun m => { m with eip := eip, eflags := Eflags.ofWord eflags }
  else
    Prog.stop (.badAccess cs.toNat)

/-- `add esp, n` -/
def addEsp (n : Nat) : Prog Machine Unit := do
  let esp ← getReg .esp
  setReg .esp (esp.offset n)

/-! ## The routines -/

/-- From `push dword %1` to `call isr_handler`; `site` is the address after the call. -/
def isrEnter (n site : Word) : Prog Machine Unit := do
  push n
  pushad
  let esp ← getReg .esp
  setReg .eax esp
  let eax ← getReg .eax
  push eax
  push site

/-- After `call isr_handler`. -/
def isrExit : Prog Machine Unit := do
  addEsp 4
  popad
  addEsp 8
  sti
  iret

/-- The rest of a routine, when the call has come back to it. -/
def isrReturn (site : Word) : Prog Machine Unit := do
  let m ← Prog.get
  if m.eip = site then isrExit else pure ()

/-- `ISR_NO_ERR_CODE`. -/
def isrNoErrCode (n site : Word) (isrHandler : Prog Machine Unit) : Prog Machine Unit := do
  cli
  push 0#32
  isrEnter n site
  isrHandler
  isrReturn site

/-- `ISR_WITH_ERR_CODE`. -/
def isrWithErrCode (n site : Word) (isrHandler : Prog Machine Unit) : Prog Machine Unit := do
  cli
  isrEnter n site
  isrHandler
  isrReturn site

/-- The routines made with `ISR_WITH_ERR_CODE`; the others are `ISR_NO_ERR_CODE`. -/
def withErrCode : List Nat := [8, 10, 11, 12, 13, 14, 17]

/-- `isr0` to `isr33`. -/
def isr (n : Nat) (site : Word) (isrHandler : Prog Machine Unit) : Prog Machine Unit :=
  if n ∈ withErrCode then isrWithErrCode (BitVec.ofNat 32 n) site isrHandler
  else isrNoErrCode (BitVec.ofNat 32 n) site isrHandler

/-! ## `isr_handler` -/

/-- The choice `isr_handler` makes. -/
def service (intNo errCode : Word) : Service :=
  if intNo = keyboardIsr then .keyboardHandler
  else if intNo = pageFaultIsr then .pageFaultHandler errCode
  else if intNo = pitIsr then .pitHandler
  else if intNo < cpuExceptions then .cpuHandler intNo
  else .unknownInterrupt

/-- `isr_handler`, on the `registers_t` its argument points to. -/
def isrHandler (run : Service → Prog Machine Unit) : Prog Machine Unit := do
  let esp ← getReg .esp
  let regs ← load (esp.offset 4)
  let intNo ← load (regs.offset 32)
  let errCode ← load (regs.offset 36)
  run (service intNo errCode)

/-- An interrupt with vector `n`: delivered to its routine at `entry`, served and returned
from. -/
def interrupt (n : Nat) (entry site : Word) (errorCode : Option Word)
    (run : Service → Prog Machine Unit) : Prog Machine Unit := do
  deliver entry errorCode
  isr n site (isrHandler run)

end Machine
end MyOs
