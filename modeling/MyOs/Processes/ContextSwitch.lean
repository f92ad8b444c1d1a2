import MyOs.Base.PagedMemory
import MyOs.Base.Prog

/-!
# Processes and the context switch (`context_switch.asm`, `process.c`, `pcb.c`)

The processor with its paged memory, and the kernel's process objects. The
routine `process_switch` is here instruction by instruction; its stack is
reached through the current directory, and an access that finds no page stops
it, since the page fault would need the same stack. C code that finds no page is
answered by the page fault handler. `pmm_alloc_frame` hands out the frames
listed in `frames`.
-/

namespace MyOs

/-- The general registers. -/
inductive Reg
  | eax | ecx | edx | ebx | esp | ebp | esi | edi
deriving DecidableEq, Repr

/-- The flags `popfd` loads in kernel mode: all but RF, VM, VIF, VIP and the
reserved bits. -/
def flagsLoaded : Word := 0x00247FD5#32

/-- EFLAGS of code that runs in kernel mode: bit 1 is set, and the bits `popfd`
does not load are clear. -/
structure Eflags where
  word : Word
  fixed : word &&& ~~~flagsLoaded = 0x2#32

/-- What `popfd` makes of a word. -/
def Eflags.ofWord (w : Word) : Eflags where
  word := w &&& flagsLoaded ||| 0x2#32
  fixed := by
    rw [BitVec.and_or_distrib_right, BitVec.and_assoc,
      show flagsLoaded &&& ~~~flagsLoaded = 0#32 by decide,
      show 0x2#32 &&& ~~~flagsLoaded = 0x2#32 by decide, BitVec.and_zero, BitVec.zero_or]

/-- `DEFAULT_EFLAGS`. -/
def defaultEflags : Word := 0x202#32

/-- `context_t`. -/
structure Context where
  edi : Word
  esi : Word
  ebp : Word
  esp : Word
  ebx : Word
  edx : Word
  ecx : Word
  eax : Word
  eip : Word
  eflags : Word
deriving DecidableEq

/-- `pcb_t`, by the addresses it holds. -/
structure Pcb where
  context : Word
  vmContext : Word
deriving DecidableEq

/-- `vm_context_t`. -/
structure VmContext where
  pageDir : Word
  pageDirPhysAddr : Word
deriving DecidableEq

/-- The process objects in the kernel's heap, by address, and `current_process`. -/
structure ProcessObjects where
  currentProcess : Word
  /-- `process->pcb` -/
  processes : Word → Option Word
  pcbs : Word → Option Pcb
  contexts : Word → Option Context
  vmContexts : Word → Option VmContext

structure Machine where
  regs : Reg → Word
  eflags : Eflags
  /-- where control is after a `ret` -/
  eip : Word
  mem : PagedMemory Word
  cr3 : Word
  /-- `current_directory` -/
  currentDirectory : Word
  /-- the frames `pmm_alloc_frame` hands out next -/
  frames : List Nat
  objects : ProcessObjects

namespace Machine

/-! ## Instructions -/

def getReg (r : Reg) : Prog Machine Word := do
  let m ← Prog.get
  pure (m.regs r)

def setReg (r : Reg) (w : Word) : Prog Machine Unit :=
  Prog.modify fun m => { m with regs := Function.update m.regs r w }

/-- The word at `v`. -/
def load (v : Word) : Prog Machine Word := fun m =>
  match m.mem.readWord m.cr3 v with
  | some w => .ok (w, m)
  | none => .error (.badAccess v.toNat)

def store (v w : Word) : Prog Machine Unit := fun m =>
  match m.mem.writeWord m.cr3 v w with
  | some mem => .ok ((), { m with mem := mem })
  | none => .error (.badAccess v.toNat)

/-- An object of the kernel's heap. -/
def readObject {α : Type} (objects : ProcessObjects → Word → Option α) (p : Word) :
    Prog Machine α := fun m =>
  match objects m.objects p with
  | some a => .ok (a, m)
  | none => .error (.badAccess p.toNat)

def setContext (p : Word) (context : Context) : Prog Machine Unit :=
  Prog.modify fun m => { m with objects := { m.objects with
    contexts := Function.update m.objects.contexts p (some context) } }

def push (w : Word) : Prog Machine Unit := do
  let esp ← getReg .esp
  store (esp - 4#32) w
  setReg .esp (esp - 4#32)

def pushAll : List Word → Prog Machine Unit
  | [] => pure ()
  | w :: ws => do
      push w
      pushAll ws

def pop : Prog Machine Word := do
  let esp ← getReg .esp
  let w ← load esp
  setReg .esp (esp.offset 4)
  pure w

def popReg (r : Reg) : Prog Machine Unit := do
  let w ← pop
  setReg r w

/-- `pushad`; the stack pointer it pushes is the one before. -/
def pushad : Prog Machine Unit := do
  let m ← Prog.get
  pushAll [m.regs .eax, m.regs .ecx, m.regs .edx, m.regs .ebx, m.regs .esp, m.regs .ebp,
    m.regs .esi, m.regs .edi]

/-- `popad`; the stack pointer among the words is skipped. -/
def popad : Prog Machine Unit := do
  popReg .edi
  popReg .esi
  popReg .ebp
  let esp ← getReg .esp
  setReg .esp (esp.offset 4)
  popReg .ebx
  popReg .edx
  popReg .ecx
  popReg .eax

def pushfd : Prog Machine Unit := do
  let m ← Prog.get
  push m.eflags.word

def popfd : Prog Machine Unit := do
  let w ← pop
  Prog.modify fun m => { m with eflags := Eflags.ofWord w }

def ret : Prog Machine Unit := do
  let w ← pop
  Prog.modify fun m => { m with eip := w }

/-! ## `process_switch` -/

/-- `vmm_switch_vm_context`. -/
def vmmSwitchVmContext (vmContext : Word) : Prog Machine Unit :=
  if vmContext = 0 then
    Prog.stop (.panic "Trying to switch to a NULL vm_context, what the hell are you doing?")
  else do
    let c ← readObject ProcessObjects.vmContexts vmContext
    Prog.modify fun m => { m with currentDirectory := c.pageDir, cr3 := c.pageDirPhysAddr }

/-- What a call of C code leaves in the registers it need not keep, and the
words it leaves below the stack pointer. -/
structure CallEffect where
  eax : Word
  ecx : Word
  edx : Word
  eflags : Eflags
  frame : List Word

/-- `call vmm_switch_vm_context`. The callee builds its frame on the stack it is
called on, and returns through that of the directory it has switched to;
`site` is the address after the call. -/
def callVmmSwitchVmContext (site : Word) (call : CallEffect) : Prog Machine Unit := do
  push site
  let esp ← getReg .esp
  let vmContext ← load (esp.offset 4)
  pushAll call.frame
  vmmSwitchVmContext vmContext
  setReg .eax call.eax
  setReg .ecx call.ecx
  setReg .edx call.edx
  Prog.modify fun m => { m with eflags := call.eflags }
  setReg .esp esp
  ret

/-- `push ebp`, `mov ebp, esp`, `pushfd`, `pushad` -/
def saveFrame : Prog Machine Unit := do
  let ebp ← getReg .ebp
  push ebp
  let esp ← getReg .esp
  setReg .ebp esp
  pushfd
  pushad

/-- `mov eax, [current_process]`, `mov ecx, [eax + OFFSET_PCB]` -/
def loadPcb : Prog Machine Unit := do
  let m ← Prog.get
  setReg .eax m.objects.currentProcess
  let eax ← getReg .eax
  let pcb ← readObject ProcessObjects.processes eax
  setReg .ecx pcb

/-- `mov ecx, [ecx + OFFSET_CONTEXT]` after the above -/
def loadContext : Prog Machine Unit := do
  loadPcb
  let ecx ← getReg .ecx
  let pcb ← readObject ProcessObjects.pcbs ecx
  setReg .ecx pcb.context

/-- `mov edx, [base + off]`, `mov [ecx + field], edx` -/
def saveField (base : Reg) (off : Nat) (set : Context → Word → Context) : Prog Machine Unit := do
  let v ← getReg base
  let w ← load (v.offset off)
  setReg .edx w
  let ecx ← getReg .ecx
  let context ← readObject ProcessObjects.contexts ecx
  setContext ecx (set context w)

/-- The frame's words into the current process's context. -/
def saveContext : Prog Machine Unit := do
  loadContext
  let esp ← getReg .esp
  let ecx ← getReg .ecx
  let context ← readObject ProcessObjects.contexts ecx
  setContext ecx { context with esp := esp }
  saveField .esp 0 fun context w => { context with edi := w }
  saveField .esp 4 fun context w => { context with esi := w }
  saveField .esp 8 fun context w => { context with ebp := w }
  saveField .esp 16 fun context w => { context with ebx := w }
  saveField .esp 20 fun context w => { context with edx := w }
  saveField .esp 24 fun context w => { context with ecx := w }
  saveField .esp 28 fun context w => { context with eax := w }
  -- the word at offset 36 is the caller's EBP; EFLAGS lies at 32
  saveField .esp 36 fun context w => { context with eflags := w }
  saveField .ebp 4 fun context w => { context with eip := w }

/-- `mov edx, [ebp + 8]`, `mov [current_process], edx` -/
def setCurrentProcess : Prog Machine Unit := do
  let ebp ← getReg .ebp
  let next ← load (ebp.offset 8)
  setReg .edx next
  Prog.modify fun m => { m with objects := { m.objects with currentProcess := next } }

/-- To the directory of the process that is current now. -/
def switchDirectory (site : Word) (call : CallEffect) : Prog Machine Unit := do
  loadPcb
  let ecx ← getReg .ecx
  let pcb ← readObject ProcessObjects.pcbs ecx
  setReg .ecx pcb.vmContext
  push pcb.vmContext
  callVmmSwitchVmContext site call

/-- `add esp, 4`, then the frame of the process that is current now. -/
def restoreFrame : Prog Machine Unit := do
  let esp ← getReg .esp
  setReg .esp (esp.offset 4)
  loadContext
  let ecx ← getReg .ecx
  let context ← readObject ProcessObjects.contexts ecx
  setReg .esp context.esp
  popad
  popfd
  popReg .ebp
  ret

/-- `process_switch`. When the call of `vmm_switch_vm_context` returns to
another address than the one after it, control has left the routine. -/
def processSwitch (site : Word) (call : CallEffect) : Prog Machine Unit := do
  saveFrame
  saveContext
  setCurrentProcess
  switchDirectory site call
  let m ← Prog.get
  if m.eip = site then restoreFrame else pure ()

/-! ## Building a process -/

/-- `pmm_alloc_frame`. -/
def allocFrame : Prog Machine (Option Nat) := fun m =>
  match m.frames with
  | [] => .ok (none, m)
  | frame :: rest => .ok (some frame, { m with frames := rest })

/-- Entry `j` of the page table `table`. -/
def setEntry (table j frame : Nat) : Prog Machine Unit :=
  Prog.modify fun m =>
    { m with mem := { m.mem with pages := m.mem.pages.setEntry table j frame } }

/-- The page table of `v` in the current directory, or a new one in frame `table`. -/
def tableOf (v : Word) : Prog Machine Nat := do
  let m ← Prog.get
  match m.mem.pages.directories m.cr3 v.directoryIndex with
  | some table => pure table
  | none => do
      let frame ← allocFrame
      match frame with
      | none => Prog.stop (.panic "Failed to allocate a frame for the page table. We fucked up?")
      | some table => do
          Prog.modify fun m => { m with mem := { m.mem with pages :=
            { directories := Function.update m.mem.pages.directories m.cr3
                (Function.update (m.mem.pages.directories m.cr3) v.directoryIndex (some table))
              tables := Function.update m.mem.pages.tables table fun _ => none } } }
          pure table

/-- `vmm_map_page_to_curr_dir`. -/
def vmmMapPageToCurrDir (v : Word) (frame : Nat) : Prog Machine Unit := do
  let table ← tableOf v
  setEntry table v.tableIndex frame

/-- The page fault handler, for a page that was never mapped. -/
def pageFault (v : Word) : Prog Machine Unit := do
  let m ← Prog.get
  match m.mem.pages.directories m.cr3 v.directoryIndex with
  | none => Prog.stop (.panic
      "Trying to access a page that is not present. how tf did we mange to get here?")
  | some table => do
      let frame ← allocFrame
      match frame with
      | none => Prog.stop (.panic
          "Failed to allocate a frame for the page. how tf did we mange to get here?")
      | some frame => setEntry table v.tableIndex frame

/-- Have the page of `v` mapped. -/
def touch (v : Word) : Prog Machine Unit := do
  let m ← Prog.get
  if (m.mem.translate m.cr3 v).isSome then pure () else pageFault v

def storeByte (v : Word) (b : Byte) : Prog Machine Unit := do
  touch v
  let m ← Prog.get
  match m.mem.writeByte m.cr3 v b with
  | some mem => Prog.modify fun m => { m with mem := mem }
  | none => Prog.stop (.badAccess v.toNat)

/-- `memset`. -/
def memset (v : Word) (b : Byte) (n : Nat) : Prog Machine Unit :=
  Prog.forLoop (fun i => storeByte (v.offset i) b) 0 n

/-- `f[i] = w` -/
def storeDword (f : Word) (i : Nat) (w : Word) : Prog Machine Unit := do
  touch (f.offset (4 * i))
  touch (f.offset (4 * i + 3))
  store (f.offset (4 * i)) w

/-- One page of the stack below `espTop`. -/
def mapStackPage (espTop : Word) (i : Nat) : Prog Machine Unit := do
  let frame ← allocFrame
  match frame with
  | none => Prog.stop (.panic "pmm_alloc_frame() failed while building stack")
  | some pa => do
      let virAddr := espTop - BitVec.ofNat 32 ((i + 1) * 4096)
      vmmMapPageToCurrDir virAddr pa
      memset virAddr 0 4096

/-- The initial trap frame at `f`. -/
def buildTrapFrame (f eip : Word) : Prog Machine Unit := do
  memset f 0 44
  storeDword f 3 0
  storeDword f 8 defaultEflags
  storeDword f 10 eip

/-- `process->pcb` -/
def pcbOf (process : Word) : Prog Machine Pcb := do
  let pcb ← readObject ProcessObjects.processes process
  readObject ProcessObjects.pcbs pcb

/-- `process_create_stack`. -/
def processCreateStack (process stackSize : Word) : Prog Machine Unit :=
  if process = 0 then pure ()
  else do
    let m ← Prog.get
    let current ← pcbOf m.objects.currentProcess
    let pages := ((stackSize + 4095#32) &&& ~~~4095#32).toNat / 4096
    let pcb ← pcbOf process
    let context ← readObject ProcessObjects.contexts pcb.context
    vmmSwitchVmContext pcb.vmContext
    Prog.forLoop (mapStackPage context.esp) 0 pages
    let espFrame := context.esp - 44#32
    buildTrapFrame espFrame context.eip
    vmmSwitchVmContext current.vmContext
    let context ← readObject ProcessObjects.contexts pcb.context
    setContext pcb.context { context with esp := espFrame }

/-- What the calls made for a new process return: the blocks `kmalloc` gives it
and the addresses of its page directory. -/
structure NewProcess where
  process : Word
  pcb : Word
  context : Word
  vmContext : Word
  pageDir : Word
  pageDirPhysAddr : Word

/-- `context_create`. -/
def contextCreate (eip esp context : Word) : Prog Machine Word :=
  if context = 0 then pure 0
  else do
    setContext context ⟨0, 0, 0, esp, 0, 0, 0, 0, eip, defaultEflags⟩
    pure context

/-- `vmm_create_vm_context`: the new directory has its parent's entries, but for
the recursive one, through which no stack is reached. -/
def vmmCreateVmContext (parent : VmContext) (new : NewProcess) : Prog Machine Word :=
  if new.vmContext = 0 then pure 0
  else do
    let m ← Prog.get
    let entries := fun i =>
      if i < 1023 then m.mem.pages.directories parent.pageDirPhysAddr i else none
    Prog.modify fun m => { m with mem := { m.mem with pages := { m.mem.pages with
      directories := Function.update m.mem.pages.directories new.pageDirPhysAddr entries } } }
    Prog.modify fun m => { m with objects := { m.objects with
      vmContexts := Function.update m.objects.vmContexts new.vmContext
        (some ⟨new.pageDir, new.pageDirPhysAddr⟩) } }
    pure new.vmContext

/-- `pcb_create`. -/
def pcbCreate (eip esp parentContext : Word) (new : NewProcess) : Prog Machine Word :=
  if parentContext = 0 then pure 0
  else if new.pcb = 0 then pure 0
  else do
    let context ← contextCreate eip esp new.context
    let parent ← readObject ProcessObjects.vmContexts parentContext
    let vmContext ← vmmCreateVmContext parent new
    Prog.modify fun m => { m with objects := { m.objects with
      pcbs := Function.update m.objects.pcbs new.pcb (some ⟨context, vmContext⟩) } }
    pure new.pcb

/-- `process_create`, with the stack it builds as parameters. -/
def createProcess (espTop stackSize entryPoint parent : Word) (new : NewProcess) :
    Prog Machine Word :=
  if parent = 0 then pure 0
  else if new.process = 0 then pure 0
  else do
    let parentPcb ← pcbOf parent
    let pcb ← pcbCreate entryPoint espTop parentPcb.vmContext new
    if pcb = 0 then pure 0
    else do
      Prog.modify fun m => { m with objects := { m.objects with
        processes := Function.update m.objects.processes new.process (some pcb) } }
      processCreateStack new.process stackSize
      pure new.process

/-- `process_create`. -/
def processCreate (entryPoint parent : Word) (new : NewProcess) : Prog Machine Word :=
  createProcess 100000000#32 (0x1000#32 * 5#32) entryPoint parent new

end Machine
end MyOs
