import MyOs.Drivers.Disk
import MyOs.Drivers.DiskSlots
import MyOs.Memory.Heap
import MyOs.Memory.PageEntry
import MyOs.Memory.Pmm

/-!
# The kernel's memory state and the processor's page walk

Physical memory is a store of bytes; page directories and tables are pages of
it. `walk` is the processor's translation from CR3, and every access of the
kernel to a virtual address goes through it. An access that finds no mapping
is answered by the page fault handler and made again, so accesses take part in
the recursion between the memory manager's functions: `Ext` is the handle on
the parts of it that are not defined yet.
-/

namespace MyOs

/-- A `page_fifo_node_t` at `addr`. -/
structure PageFifoNode where
  addr : Nat
  virAddr : Nat
deriving DecidableEq, Repr

/-- The memory, the processor's paging state, and the statics of the memory
manager and of what it uses. -/
structure Kernel where
  mem : ByteStore
  cr3 : Nat
  /-- the paging bit of CR0, and `paging_enabled` -/
  pagingEnabled : Bool
  /-- `current_directory` -/
  currentDirectory : Nat
  pmm : Pmm
  heap : Heap
  /-- `current_page_fifo_queue`, from its head -/
  pageFifoQueue : List PageFifoNode
  disk : DiskState
  slots : DiskSlots

namespace Kernel

/-- Entry `i` of the directory or table in frame `frame`. -/
def entryAt (k : Kernel) (frame i : Nat) : Nat := k.mem.load32 (frame + 4 * i)

/-- The processor's walk of the directory in frame `dir`. -/
def walkFrom (k : Kernel) (dir v : Nat) : Option Nat :=
  let pde := k.entryAt dir (getDirectoryIndex v)
  if isPagePresent pde then
    let pte := k.entryAt (getFrameAddr pde) (getTableIndex v)
    if isPagePresent pte then some (getFrameAddr pte + getFrameOffset v) else none
  else none

/-- The physical address the processor accesses for `v`. -/
def translate (k : Kernel) (v : Nat) : Option Nat :=
  if k.pagingEnabled then k.walkFrom (getFrameAddr k.cr3) v else some v

def setMem (k : Kernel) (mem : ByteStore) : Kernel := { k with mem := mem }

/-- A kernel that has just switched paging on: its memory holds these words, its
directory is in frame `cr3` and is reached through its own last entry. -/
def ofWords (cr3 : Nat) (words : List (Nat × Nat)) : Kernel where
  mem := ByteStore.ofWords words
  cr3 := cr3
  pagingEnabled := true
  currentDirectory := getPageTableVirAddr recursivePageTableIndex
  pmm := Pmm.boot
  heap := ⟨kernelBaseHeapAddr, kernelBaseHeapAddr + kernelHeapSize, fun _ => [], []⟩
  pageFifoQueue := []
  disk := ⟨fun _ => ⟨0x200#16, 1000000, 512, false, true, millionSectors_lt, sectorBytes_lt⟩, 0,
    fun _ _ => 0#8, fun _ => lba28, fun _ => .done, 0, ⟨0, 0, 0, 0, 0⟩⟩
  slots := DiskSlots.boot

theorem setMem_slots (k : Kernel) (mem : ByteStore) : (k.setMem mem).slots = k.slots := rfl

theorem setMem_disk (k : Kernel) (mem : ByteStore) : (k.setMem mem).disk = k.disk := rfl

theorem setMem_heap (k : Kernel) (mem : ByteStore) : (k.setMem mem).heap = k.heap := rfl

theorem setMem_pmm (k : Kernel) (mem : ByteStore) : (k.setMem mem).pmm = k.pmm := rfl

theorem setMem_queue (k : Kernel) (mem : ByteStore) :
    (k.setMem mem).pageFifoQueue = k.pageFifoQueue := rfl

end Kernel

/-- The calls that lead back into the memory manager. -/
structure Ext where
  /-- the page fault of an access to an address, and the access made again:
  the physical address it gets -/
  fault : Nat → Prog Kernel Nat
  kmalloc : Nat → Prog Kernel Nat
  kfree : Nat → Prog Kernel Unit
  /-- `vmm_swap_in_page` -/
  swapIn : Nat → Nat → Prog Kernel Bool
  /-- `while (disk_write(slot, (void *)frame, PAGE_SIZE) != PAGE_SIZE);` -/
  swapWrite : Nat → Nat → Prog Kernel Unit
  /-- `while (disk_read(slot, (void *)frame, PAGE_SIZE) != PAGE_SIZE);` -/
  swapRead : Nat → Nat → Prog Kernel Unit

section Access

variable (ext : Ext)

/-- The physical address of an access to `v`. -/
def resolve (v : Nat) : Prog Kernel Nat := do
  let k ← Prog.get
  match k.translate v with
  | some p => pure p
  | none => ext.fault v

def loadWord (v : Nat) : Prog Kernel Nat := do
  let p ← resolve ext v
  let k ← Prog.get
  pure (k.mem.load32 p)

def storeWord (v w : Nat) : Prog Kernel Unit := do
  let p ← resolve ext v
  Prog.modify fun k => k.setMem (k.mem.store32 p w)

/-- `*e = f(*e)` -/
def modifyWord (e : Nat) (f : Nat → Nat) : Prog Kernel Unit := do
  let w ← loadWord ext e
  storeWord ext e (f w)

/-- `memset(v, 0, n)`, one page after another; `pages` bounds the pages. -/
def zeroRange : Nat → Nat → Nat → Prog Kernel Unit
  | 0, _, _ => pure ()
  | pages + 1, v, n => do
      if n = 0 then pure ()
      else
        let chunk := min n (pageSize - v % pageSize)
        let p ← resolve ext v
        Prog.modify fun k => k.setMem (k.mem.fill p 0 chunk)
        zeroRange pages (u32 (v + chunk)) (n - chunk)

/-- `memset(v, 0, n)`. -/
def memsetZero (v n : Nat) : Prog Kernel Unit := zeroRange ext (n / pageSize + 2) v n

/-- The loop `for (i = 0; i < n; i++) dst[i] = src[i];` over words within one
page each. -/
def copyWords (dst src n : Nat) : Prog Kernel Unit := do
  let ps ← resolve ext src
  let pd ← resolve ext dst
  Prog.modify fun k => k.setMem (k.mem.copy pd k.mem ps (4 * n))

end Access
end MyOs
