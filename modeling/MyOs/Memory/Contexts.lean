import MyOs.Memory.Vmm

/-!
# Address spaces (`vmm_create_vm_context` and `vmm_destroy_vm_context`)

A new address space copies the directory entries of another one, so it shares
that one's page tables, and its last entry is its own directory. The walk that
destroys one also returns what it releases, in order.
-/

namespace MyOs

/-- A `vm_context_t` at `addr`. -/
structure AddressSpace where
  addr : Nat
  pageDir : Nat
  pageDirPhysAddr : Nat
deriving DecidableEq, Repr

/-- `sizeof(vm_context_t)`. -/
def vmContextSize : Nat := 8

/-- `PAGE_TABLE_SIZE`. -/
def pageTableSize : Nat := 1024

/-- What the walk gives back: a frame, or the slots of one page. -/
inductive Resource
  | frame (frameAddr : Nat)
  | slots (startSlot : Nat)
deriving DecidableEq, Repr

section Contexts

variable (ext : Ext)

def vmmCreateEmptyPageDirectory : Prog Kernel Nat := do
  let pageDir ← kmalloc ext pageSize
  if pageDir = 0 then pure 0
  else do
    memsetZero ext pageDir pageSize
    pure pageDir

/-- `vmm_create_vm_context` from the copy of the directory entries on: what it
writes to the context and to its directory. -/
def fillVmContext (vmContext newDir pageDir : Nat) : Prog Kernel Unit := do
  storeWord ext vmContext newDir
  copyWords ext newDir pageDir (tablesPerDir - 1)
  let phys ← vmmCalcPhysAddr ext newDir
  storeWord ext (vmContext + 4) phys
  storeWord ext (newDir + 4 * recursivePageTableIndex) (phys ||| kernelPageFlags)

/-- `vmm_create_vm_context`: the context's address, NULL when there is none. -/
def vmmCreateVmContext (pageDir : Nat) : Prog Kernel Nat := do
  let vmContext ← kmalloc ext vmContextSize
  if vmContext = 0 then pure 0
  else do
    let newDir ← vmmCreateEmptyPageDirectory ext
    fillVmContext ext vmContext newDir pageDir
    pure vmContext

/-- The loop over `j`, from `j` on: free the frame of every present entry. -/
def freePages (pageTable : Nat) : Nat → Nat → Prog Kernel (List Resource)
  | _, 0 => pure []
  | j, n + 1 => do
      let w ← loadWord ext (pageTable + 4 * j)
      if isPagePresent w then do
        freeFrame (getFrameAddr w)
        let log ← freePages pageTable (j + 1) n
        pure (.frame (getFrameAddr w) :: log)
      else freePages pageTable (j + 1) n

/-- The pages of a present directory entry, and its table. -/
def freeTable (pageDir i : Nat) : Prog Kernel (List Resource) := do
  let pageTable ← getPageTableAddr ext pageDir i
  let log ← freePages ext pageTable 0 pageTableSize
  let w ← loadWord ext (pageDir + 4 * i)
  freeFrame (getFrameAddr w)
  pure (log ++ [.frame (getFrameAddr w)])

/-- The slots of a swapped directory entry. -/
def freeSwappedTable (pageDir i : Nat) : Prog Kernel (List Resource) := do
  let w ← loadWord ext (pageDir + 4 * i)
  if isSwapped w then do
    diskFreeSlotsForPage (getFrameAddr w)
    pure [.slots (getFrameAddr w)]
  else pure []

/-- The loop over `i`, from `i` on. -/
def freeTables (pageDir : Nat) : Nat → Nat → Prog Kernel (List Resource)
  | _, 0 => pure []
  | i, n + 1 => do
      let w ← loadWord ext (pageDir + 4 * i)
      let pages ← if isPagePresent w then freeTable ext pageDir i else pure []
      let slots ← freeSwappedTable ext pageDir i
      let log ← freeTables pageDir (i + 1) n
      pure (pages ++ slots ++ log)

/-- `vmm_destroy_page_directory`. -/
def vmmDestroyPageDirectory (pageDir : Nat) : Prog Kernel (List Resource) := do
  let log ← freeTables ext pageDir 0 tablesPerDir
  kfree ext pageDir
  pure log

/-- `vmm_destroy_vm_context`. -/
def vmmDestroyVmContext (vmContext : Nat) : Prog Kernel (List Resource) := do
  let pageDir ← loadWord ext vmContext
  let log ← vmmDestroyPageDirectory ext pageDir
  kfree ext vmContext
  pure log

end Contexts
end MyOs
