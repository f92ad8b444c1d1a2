import MyOs.Interrupts.Stubs

/-!
# The timer interrupt on the processor (`pit.c`, `scheduler.c`)

`isr32` calls `isr_handler`, which calls `pit_handler`, which calls
`scheduler_handle_tick`, which calls `process_switch` when it is another
process's turn. What the compiler makes of these functions appears by what it
does to the processor: the words on the stack, the registers, the memory. Which
process is next is decided in `Scheduler`.
-/

namespace MyOs

/-- Where the code of a tick comes back to, and how deep its stack is. -/
structure TickCode where
  /-- in `isr32`, after `call isr_handler` -/
  isrSite : Word
  /-- in `scheduler_handle_tick`, after the call of `process_switch` -/
  tickSite : Word
  /-- in `process_switch`, after the call of `vmm_switch_vm_context` -/
  switchSite : Word
  /-- the words between the first of these return addresses and the argument of
  `process_switch` -/
  depth : Nat

/-- What the functions of a tick do to the processor. -/
structure TickEffect where
  /-- the words on the stack, the first one pushed first -/
  frames : List Word
  /-- on the way in: the registers, the flags, and what is written to memory -/
  regs : Reg → Word
  eflags : Eflags
  phys : ByteStore → ByteStore
  /-- in `vmm_switch_vm_context` -/
  call : Machine.CallEffect
  /-- on the way out -/
  lastRegs : Reg → Word
  lastEflags : Eflags

namespace Machine

/-- From `isr_handler` down to `scheduler_handle_tick`. -/
def tickEnter (e : TickEffect) : Prog Machine Unit := do
  pushAll e.frames
  Prog.modify fun m => { m with
    regs := Function.update e.regs .esp (m.regs .esp)
    eflags := e.eflags
    mem := { m.mem with phys := e.phys m.mem.phys } }

/-- Back to the routine, past the `n` words of the functions. -/
def tickLeave (n : Nat) (e : TickEffect) : Prog Machine Unit := do
  addEsp (4 * n)
  Prog.modify fun m => { m with
    regs := Function.update e.lastRegs .esp (m.regs .esp)
    eflags := e.lastEflags }
  ret

/-- After a call of `process_switch`. A process that has never run goes on elsewhere. -/
def tickReturn (code : TickCode) (e : TickEffect) : Prog Machine Unit := do
  let m ← Prog.get
  if m.eip = code.tickSite then do
    addEsp 4
    tickLeave code.depth e
  else
    pure ()

/-- `process_switch(next_process);` -/
def callProcessSwitch (code : TickCode) (next : Word) (e : TickEffect) : Prog Machine Unit := do
  push next
  push code.tickSite
  processSwitch code.switchSite e.call
  tickReturn code e

/-- `pit_handler`, when `scheduler_handle_tick` switches to `next`. -/
def pitHandler (code : TickCode) (next : Option Word) (e : TickEffect) : Prog Machine Unit := do
  tickEnter e
  match next with
  | none => tickLeave e.frames.length e
  | some next => callProcessSwitch code next e

/-- The services, as far as a tick uses them. -/
def tickServices (code : TickCode) (next : Option Word) (e : TickEffect) :
    Service → Prog Machine Unit
  | .pitHandler => pitHandler code next e
  | _ => pure ()

/-- A timer interrupt; `isr32` is at `entry`. -/
def timerTick (code : TickCode) (entry : Word) (next : Option Word) (e : TickEffect) :
    Prog Machine Unit :=
  interrupt 32 entry code.isrSite none (tickServices code next e)

end Machine
end MyOs
