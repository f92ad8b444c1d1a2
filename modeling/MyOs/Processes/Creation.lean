import MyOs.Base.Word
import MyOs.Memory.PageEntry
import MyOs.Processes.ContextSwitch
import MyOs.Std.CString

/-!
# `process_create` and its allocations (`process.c`, `pcb.c`, `vmm.c`)

The chain from `process_create` down to `vmm_create_empty_page_directory`, word by word on
the kernel's memory, which every directory maps alike; NULL is address 0 of it. What the
calls of `kmalloc` return is given in `NewBlocks`. `held` are the blocks obtained and not
freed, `writes` the pointers written through.
-/

namespace MyOs

/-- What the five calls of `kmalloc` return, 0 for NULL. -/
structure NewBlocks where
  process : Word
  pcb : Word
  context : Word
  vmContext : Word
  pageDir : Word

structure Creation where
  mem : ByteStore
  held : List Nat
  writes : List Nat
  /-- `next_pid` -/
  nextPid : Nat
  /-- `current_directory` -/
  currentDirectory : Nat
  cr3 : Nat

/-- What the calls of `kmalloc` return, `scheduler_get_current_process()`, and two parts
of the kernel that allocate no blocks: `vmm_calc_phys_addr`, and what `process_create_stack`
does in the child's directory, the pages of the stack and its first frame. -/
structure CreateEnv where
  blocks : NewBlocks
  currentProcess : Nat
  vmmCalcPhysAddr (virAddr : Nat) : Prog ByteStore Nat
  buildStack (process espTop stackSize : Nat) : Prog ByteStore Unit

namespace Creation

/-- `OFFSET_PCB`, in a `process_t`. -/
def offsetPcb : Nat := 0

def offsetPid : Nat := 4

def offsetName : Nat := 8

def offsetPriority : Nat := 40

/-- `OFFSET_CONTEXT`, in a `pcb_t`. -/
def offsetContext : Nat := 0

/-- `VM_CONTEXT` -/
def offsetVmContext : Nat := 4

def offsetState : Nat := 8

/-- `CONTEXT_ESP` -/
def contextEsp : Nat := 12

/-- In a `vm_context_t`. -/
def offsetPageDir : Nat := 0

def offsetPageDirPhysAddr : Nat := 4

/-- `READY` -/
def ready : Nat := 0

/-- `PROCESS_NAME_MAX_LENGTH`. -/
def processNameMaxLength : Nat := 32

/-! ## Memory -/

/-- A call of `kmalloc` that returns `p`. -/
def kmalloc (p : Word) : Prog Creation Nat :=
  if p = 0 then pure 0
  else do
    Prog.modify fun s => { s with held := p.toNat :: s.held }
    pure p.toNat

def kfree (p : Nat) : Prog Creation Unit :=
  Prog.modify fun s => { s with held := s.held.erase p }

/-- The word at `off` in what `p` points to. -/
def read (p off : Nat) : Prog Creation Nat := do
  let s ← Prog.get
  pure (s.mem.load32 (p + off))

def write (p off w : Nat) : Prog Creation Unit :=
  Prog.modify fun s => { s with mem := s.mem.store32 (p + off) w, writes := p :: s.writes }

def writeBytes (p off : Nat) (bs : List Byte) : Prog Creation Unit :=
  Prog.modify fun s => { s with mem := s.mem.store (p + off) bs, writes := p :: s.writes }

/-- The rest of the kernel at work on the memory. -/
def onMemory {α : Type} (x : Prog ByteStore α) : Prog Creation α :=
  x.zoom mem fun mem s => { s with mem := mem }

/-- The words of a structure, from the first field on. -/
def writeFields (p : Nat) : Nat → List Nat → Prog Creation Unit
  | _, [] => pure ()
  | off, w :: ws => do
      write p off w
      writeFields p (off + 4) ws

/-! ## The address space -/

/-- `vmm_create_empty_page_directory`. -/
def vmmCreateEmptyPageDirectory (env : CreateEnv) : Prog Creation Nat := do
  let pageDir ← kmalloc env.blocks.pageDir
  if pageDir = 0 then pure 0
  else do
    writeBytes pageDir 0 (List.replicate pageSize 0)
    pure pageDir

/-- `vm_context->page_dir->tables[i] = page_dir->tables[i]` -/
def copyTable (vmContext pageDir i : Nat) : Prog Creation Unit := do
  let entry ← read pageDir (4 * i)
  let newDir ← read vmContext offsetPageDir
  write newDir (4 * i) entry

/-- `vmm_create_vm_context`. -/
def vmmCreateVmContext (env : CreateEnv) (pageDir : Nat) : Prog Creation Nat := do
  let vmContext ← kmalloc env.blocks.vmContext
  if vmContext = 0 then pure 0
  else do
    let newDir ← vmmCreateEmptyPageDirectory env
    -- a directory that is NULL is used like any other
    write vmContext offsetPageDir newDir
    Prog.forLoop (copyTable vmContext pageDir) 0 (tablesPerDir - 1)
    let newDir ← read vmContext offsetPageDir
    let phys ← onMemory (env.vmmCalcPhysAddr newDir)
    write vmContext offsetPageDirPhysAddr phys
    let newDir ← read vmContext offsetPageDir
    let phys ← read vmContext offsetPageDirPhysAddr
    write newDir (4 * recursivePageTableIndex) (phys ||| kernelPageFlags)
    pure vmContext

/-- `vmm_switch_vm_context`. -/
def vmmSwitchVmContext (vmContext : Nat) : Prog Creation Unit :=
  if vmContext = 0 then
    Prog.stop (.panic "Trying to switch to a NULL vm_context, what the hell are you doing?")
  else do
    let pageDir ← read vmContext offsetPageDir
    let phys ← read vmContext offsetPageDirPhysAddr
    Prog.modify fun s => { s with currentDirectory := pageDir, cr3 := phys }

/-! ## The process -/

/-- `context_create`. -/
def contextCreate (env : CreateEnv) (eip esp : Nat) : Prog Creation Nat := do
  let context ← kmalloc env.blocks.context
  if context = 0 then pure 0
  else do
    writeFields context 0 [0, 0, 0, esp, 0, 0, 0, 0, eip, defaultEflags.toNat]
    pure context

/-- `pcb_create`. -/
def pcbCreate (env : CreateEnv) (eip esp vmContextParent : Nat) : Prog Creation Nat :=
  if vmContextParent = 0 then pure 0
  else do
    let pcb ← kmalloc env.blocks.pcb
    if pcb = 0 then pure 0
    else do
      let context ← contextCreate env eip esp
      write pcb offsetContext context
      let pageDir ← read vmContextParent offsetPageDir
      let vmContext ← vmmCreateVmContext env pageDir
      write pcb offsetVmContext vmContext
      write pcb offsetState ready
      pure pcb

/-- `process->pcb->vm_context` -/
def vmContextOf (process : Nat) : Prog Creation Nat := do
  let pcb ← read process offsetPcb
  read pcb offsetVmContext

/-- `process_create_stack`. -/
def processCreateStack (env : CreateEnv) (process stackSize : Nat) : Prog Creation Unit :=
  if process = 0 then pure ()
  else do
    let prevVmContext ← vmContextOf env.currentProcess
    let pcb ← read process offsetPcb
    let context ← read pcb offsetContext
    let espTop ← read context contextEsp
    let vmContext ← vmContextOf process
    vmmSwitchVmContext vmContext
    onMemory (env.buildStack process espTop stackSize)
    vmmSwitchVmContext prevVmContext
    let pcb ← read process offsetPcb
    let context ← read pcb offsetContext
    write context contextEsp (sub32 espTop 44)

/-- `pid_alloc`. -/
def pidAlloc : Prog Creation Nat := do
  let s ← Prog.get
  Prog.modify fun s => { s with nextPid := u32 (s.nextPid + 1) }
  pure s.nextPid

/-- What `strncpy(dest, name, n)` writes: the name, cut or padded with terminators. -/
def strncpyBytes (name : CString) (n : Nat) : List Byte :=
  ((name.chars.map UInt8.toBitVec).take n).rightpad n 0

/-- `process_create`. -/
def processCreate (env : CreateEnv) (entryPoint : Nat) (name : CString) (priority parent : Nat) :
    Prog Creation Nat :=
  if parent = 0 then pure 0
  else do
    let process ← kmalloc env.blocks.process
    if process = 0 then pure 0
    else do
      let vmContextParent ← vmContextOf parent
      let pcb ← pcbCreate env entryPoint 100000000 vmContextParent
      write process offsetPcb pcb
      let pcb ← read process offsetPcb
      if pcb = 0 then do
        kfree process
        pure 0
      else do
        processCreateStack env process (0x1000 * 5)
        let pid ← pidAlloc
        write process offsetPid pid
        writeBytes process offsetName (strncpyBytes name (processNameMaxLength - 1))
        writeBytes process (offsetName + processNameMaxLength - 1) [0]
        write process offsetPriority priority
        pure process

end Creation
end MyOs
