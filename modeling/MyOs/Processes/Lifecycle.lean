import MyOs.Processes.Scheduler

/-!
# The life of a process (`process.c`, `pcb.c`)

`process_create` and `process_destroy` next to the scheduler. Processes and
their control blocks are heap objects; an access to one that is not allocated
stops the program. What a process's address space and stack hold is left out:
the life cycle reads only the pointers to them. `destroyed` records the
processes on which `process_destroy` was called.
-/

namespace MyOs

/-- The scheduler, the heap's processes and control blocks, and `next_pid`. -/
structure Lifecycle where
  scheduler : Scheduler
  /-- `process_t`s: their `pcb`, `pid`, `name` and `priority` -/
  processes : Nat → Option (Nat × Nat × List UInt8 × Nat)
  /-- `pcb_t`s: their `context` and `vm_context` -/
  pcbs : Nat → Option (Nat × Nat)
  nextPid : Nat
  destroyed : List Nat

/-- What `kmalloc` and `vmm_create_vm_context` return in `process_create`, 0 for
no memory. -/
structure NewObjects where
  process : Nat
  pcb : Nat
  context : Nat
  vmContext : Nat

namespace Lifecycle

/-- `PROCESS_NAME_MAX_LENGTH`. -/
def processNameMaxLength : Nat := 32

/-- A call of the scheduler. -/
def onScheduler {α : Type} (x : Prog Scheduler α) : Prog Lifecycle α :=
  x.zoom scheduler fun t s => { s with scheduler := t }

/-- `*process`. -/
def readProcess (process : Nat) : Prog Lifecycle (Nat × Nat × List UInt8 × Nat) := fun s =>
  match s.processes process with
  | some p => .ok (p, s)
  | none => .error (.badAccess process)

/-- `*pcb`. -/
def readPcb (pcb : Nat) : Prog Lifecycle (Nat × Nat) := fun s =>
  match s.pcbs pcb with
  | some b => .ok (b, s)
  | none => .error (.badAccess pcb)

/-- `process->pcb->vm_context`. -/
def readVmContext (process : Nat) : Prog Lifecycle Nat := do
  let p ← readProcess process
  let b ← readPcb p.1
  pure b.2

/-- `pid_alloc`. -/
def pidAlloc : Prog Lifecycle Nat := do
  let s ← Prog.get
  Prog.modify fun s => { s with nextPid := u32 (s.nextPid + 1) }
  pure s.nextPid

/-- `pcb_create`: the block's address, or NULL. -/
def pcbCreate (vmContextParent : Nat) (new : NewObjects) : Prog Lifecycle Nat :=
  if vmContextParent = 0 then pure 0
  else if new.pcb = 0 then pure 0
  else do
    Prog.modify fun s =>
      { s with pcbs := Function.update s.pcbs new.pcb (some (new.context, new.vmContext)) }
    pure new.pcb

/-- `pcb_destroy`. -/
def pcbDestroy (pcb : Nat) : Prog Lifecycle Unit :=
  if pcb = 0 then pure ()
  else do
    let _ ← readPcb pcb
    Prog.modify fun s => { s with pcbs := Function.update s.pcbs pcb none }

/-- `process_create_stack`, the pointers it follows: the address space of the
running process, to come back to it, and the new process's own. -/
def processCreateStack (process : Nat) : Prog Lifecycle Unit := do
  let current ← onScheduler do
    let s ← Prog.get
    pure s.currentProcess
  let _ ← readVmContext current
  let _ ← readVmContext process
  pure ()

/-- `process_create`: the process's address, or NULL. -/
def processCreate (name : List UInt8) (priority parent : Nat) (new : NewObjects) :
    Prog Lifecycle Nat :=
  if parent = 0 then pure 0
  else if new.process = 0 then pure 0
  else do
    let vmContextParent ← readVmContext parent
    let pcb ← pcbCreate vmContextParent new
    if pcb = 0 then pure 0
    else do
      -- the memory is a process from here on, whatever it was before
      Prog.modify fun s =>
        { s with
          processes := Function.update s.processes new.process (some (pcb, 0, [], 0))
          destroyed := s.destroyed.filter (· ≠ new.process) }
      processCreateStack new.process
      let pid ← pidAlloc
      Prog.modify fun s =>
        { s with
          processes := Function.update s.processes new.process
            (some (pcb, pid, name.take (processNameMaxLength - 1), priority)) }
      pure new.process

/-- `process_destroy`. -/
def processDestroy (process : Nat) : Prog Lifecycle Unit :=
  if process = 0 then pure ()
  else do
    let p ← readProcess process
    pcbDestroy p.1
    -- pid_free does nothing
    Prog.modify fun s =>
      { s with
        processes := Function.update s.processes process none
        destroyed := process :: s.destroyed }

/-- A call, with what the heap returns in it. -/
inductive Call
  | create (name : List UInt8) (priority parent : Nat) (new : NewObjects)
  | add (process node : Nat)
  | destroy (process : Nat)
  | tick

/-- The calls as programs. -/
def exec : Call → Prog Lifecycle Unit
  | .create name priority parent new => do
      let _ ← processCreate name priority parent new
      pure ()
  | .add process node => onScheduler (Scheduler.schedulerAddProcess process node)
  | .destroy process => processDestroy process
  | .tick => onScheduler Scheduler.schedulerHandleTick

/-- `kmalloc` does not return an address that is in use. -/
def Fresh (s : Lifecycle) : Call → Prop
  | .create _ _ _ new => s.processes new.process = none ∧ s.pcbs new.pcb = none
  | .add process node => s.scheduler.FreshNode (.add process node)
  | _ => True

/-- Any sequence of calls after `scheduler_init`, with the initial process the
only one. -/
def sys : TSys Lifecycle Call where
  init s := ∃ process node pcb, Scheduler.schedulerInit process node .boot = .ok ((), s.scheduler) ∧
    s.processes process = some pcb ∧ s.destroyed = []
  step s call s' := Fresh s call ∧ exec call s = .ok ((), s')

end Lifecycle
end MyOs
