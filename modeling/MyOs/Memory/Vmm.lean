import MyOs.Memory.Kernel

/-!
# The virtual memory manager (`vmm.c`) and the heap it maps (`kmalloc.c`)

The functions as the source has them. Pointers are virtual addresses: a page
entry is read and written through its address in the recursive window, like
any other word. The functions call each other in a ring (mapping a page can
allocate a page table, which allocates a queue node, which can create a slab,
which maps a page); `link` closes it, with a bound on the depth of the calls.
-/

namespace MyOs

section Vmm

variable (ext : Ext)

/-! ## Frames and slots -/

/-- `pmm_alloc_frame`. -/
def allocFrame : Prog Kernel Nat := do
  let k ← Prog.get
  let r := k.pmm.pmmAllocFrame
  Prog.modify fun k => { k with pmm := r.2 }
  pure r.1

/-- `pmm_free_frame`. -/
def freeFrame (frameAddr : Nat) : Prog Kernel Unit := do
  let k ← Prog.get
  match k.pmm.pmmFreeFrame frameAddr with
  | some pmm => Prog.modify fun k => { k with pmm := pmm }
  | none => Prog.stop (.assertion "is_valid_frame_addr(frame_addr)")

/-- The sectors of a page, as the `uint8_t` the slot allocator takes. -/
def sectorAmount (sectorSize : Nat) : Nat :=
  (pageSize / sectorSize + if pageSize % sectorSize != 0 then 1 else 0) % 2 ^ 8

/-- `disk_get_current_disk_logical_sector_size`. -/
def diskSectorSize (k : Kernel) : Nat := (k.disk.disks k.disk.currDisk).logicalSectorSize

def diskAllocSlotsForPage : Prog Kernel Nat := do
  let k ← Prog.get
  if diskSectorSize k = 0 then Prog.stop .divideError
  else do
    let r := k.slots.diskAllocSlots (sectorAmount (diskSectorSize k))
    Prog.modify fun k => { k with slots := r.2 }
    pure r.1

def diskFreeSlotsForPage (startSlot : Nat) : Prog Kernel Unit := do
  let k ← Prog.get
  if diskSectorSize k = 0 then Prog.stop .divideError
  else Prog.modify fun k =>
    { k with slots := k.slots.diskFreeSlots startSlot (sectorAmount (diskSectorSize k)) }

/-! ## The page FIFO -/

/-- `sizeof(page_fifo_node_t)`. -/
def pageFifoNodeSize : Nat := 8

def pageEnqueue (virAddr : Nat) : Prog Kernel Bool := do
  let node ← ext.kmalloc pageFifoNodeSize
  if node = 0 then pure false
  else do
    Prog.modify fun k => { k with pageFifoQueue := k.pageFifoQueue ++ [⟨node, virAddr⟩] }
    pure true

/-- The oldest address, NULL when there is none. -/
def pageFifoDequeue : Prog Kernel Nat := do
  let k ← Prog.get
  match k.pageFifoQueue with
  | [] => pure 0
  | node :: rest => do
      Prog.modify fun k => { k with pageFifoQueue := rest }
      ext.kfree node.addr
      pure node.virAddr

/-! ## Swapping -/

/-- The address of a page table: in the recursive window with paging on, its
frame without. -/
def getPageTableAddr (dir pdIndex : Nat) : Prog Kernel Nat := do
  let k ← Prog.get
  if k.pagingEnabled then pure (getPageTableVirAddr pdIndex)
  else do
    let w ← loadWord ext (dir + 4 * pdIndex)
    pure (getFrameAddr w)

/-- `vmm_switch_vm_context` for a directory at `pageDir` in frame `phys`. -/
def vmmSwitchVmContext (pageDir phys : Nat) : Prog Kernel Unit :=
  Prog.modify fun k => { k with currentDirectory := pageDir, cr3 := phys }

/-- Bring the page table of directory entry `e` back in when it is swapped. -/
def swapInTable (e virAddr : Nat) : Prog Kernel Bool := do
  let w ← loadWord ext e
  if isSwapped w then ext.swapIn e virAddr else pure true

/-- `vmm_get_page_entry`: the address of the entry of `virAddr`. -/
def vmmGetPageEntry (virAddr : Nat) : Prog Kernel Nat := do
  let k ← Prog.get
  let dir := k.currentDirectory
  if dir = 0 then Prog.stop (.assertion "current_directory != NULL")
  else do
    let pdIndex := getDirectoryIndex virAddr
    let ok ← swapInTable ext (dir + 4 * pdIndex) (getPageTableVirAddr pdIndex)
    if ok = false then Prog.stop (.panic "Failed to swap in page. Dont know what to do noq")
    else do
      let w ← loadWord ext (dir + 4 * pdIndex)
      if isPagePresent w = false then
        Prog.stop (.panic
          "Trying to access a page that is not present. how tf did we mange to get here?")
      else do
        let table ← getPageTableAddr ext dir pdIndex
        pure (table + 4 * getTableIndex virAddr)

def vmmSwapOutPage (virAddr : Nat) : Prog Kernel Bool := do
  let e ← vmmGetPageEntry ext virAddr
  let w ← loadWord ext e
  if isPagePresent w = false then pure false
  else do
    let diskSlot ← diskAllocSlotsForPage
    if diskSlot = diskNoSlotAvailable then pure false
    else do
      let w ← loadWord ext e
      ext.swapWrite diskSlot (getFrameAddr w)
      modifyWord ext e fun w => pageEntryAddAttrib w swapped
      modifyWord ext e fun w => pageEntryRemoveAttrib w present
      modifyWord ext e fun w => pageEntrySetFrame w diskSlot
      pure true

def vmmSwapOutSomePage : Prog Kernel Bool := do
  let virAddr ← pageFifoDequeue ext
  if virAddr = 0 then pure false else vmmSwapOutPage ext virAddr

/-- A frame for `vmm_swap_in_page` and `vmm_alloc_permanent_page`: when there is
none, one page is swapped out and the allocator is asked once more. -/
def allocFrameOrSwap : Prog Kernel Nat := do
  let frameAddr ← allocFrame
  if frameAddr = pmmNoFrameAvailable then do
    let swappedOut ← vmmSwapOutSomePage ext
    if swappedOut = false then pure pmmNoFrameAvailable else allocFrame
  else pure frameAddr

def vmmSwapInPage (e _virAddr : Nat) : Prog Kernel Bool := do
  let frameAddr ← allocFrameOrSwap ext
  if frameAddr = pmmNoFrameAvailable then pure false
  else do
    modifyWord ext e fun w => pageEntrySetFrame w frameAddr
    -- the slot is read from the entry whose frame has just been set
    let w ← loadWord ext e
    let diskSlot := getFrameAddr w
    ext.swapRead diskSlot frameAddr
    diskFreeSlotsForPage diskSlot
    modifyWord ext e fun w => pageEntryAddAttrib w present
    modifyWord ext e fun w => pageEntryRemoveAttrib w swapped
    pure true

def vmmAllocPermanentPage (e : Nat) : Prog Kernel Bool := do
  let frameAddr ← allocFrameOrSwap ext
  if frameAddr = pmmNoFrameAvailable then pure false
  else do
    modifyWord ext e fun w => pageEntrySetFrame w frameAddr
    modifyWord ext e fun w => pageEntryAddAttrib w present
    pure true

def vmmAllocPage (e virAddr : Nat) : Prog Kernel Bool := do
  let allocated ← vmmAllocPermanentPage ext e
  if allocated = false then pure false
  else do
    let enqueued ← pageEnqueue ext virAddr
    if enqueued = false then do
      let w ← loadWord ext e
      freeFrame (getFrameAddr w)
      modifyWord ext e fun w => pageEntryRemoveAttrib w present
      pure false
    else pure true

/-! ## Mapping -/

/-- A frame for a new page table: one that can be swapped out once paging is on. -/
def allocTable (e virAddr : Nat) : Prog Kernel Bool := do
  let k ← Prog.get
  if k.pagingEnabled then vmmAllocPage ext e virAddr else vmmAllocPermanentPage ext e

/-- The page table of `vmm_map_page`: present, swapped, or a new cleared one. -/
def tableForMapping (pageDir pdIndex : Nat) : Prog Kernel Nat := do
  let w ← loadWord ext (pageDir + 4 * pdIndex)
  if isPagePresent w then getPageTableAddr ext pageDir pdIndex
  else if isSwapped w then do
    let swappedIn ← vmmSwapInPage ext (pageDir + 4 * pdIndex) (getPageTableVirAddr pdIndex)
    if swappedIn = false then
      Prog.stop (.panic "Failed to swap in page. how tf did we mange to get here?")
    else getPageTableAddr ext pageDir pdIndex
  else do
    let allocated ← allocTable ext (pageDir + 4 * pdIndex) (getPageTableVirAddr pdIndex)
    if allocated = false then
      Prog.stop (.panic "Failed to allocate a frame for the page table. We fucked up?")
    else do
      modifyWord ext (pageDir + 4 * pdIndex) fun w => pageEntryAddAttrib w pageWriteable
      let pageTable ← getPageTableAddr ext pageDir pdIndex
      memsetZero ext pageTable pageSize
      pure pageTable

def vmmMapPage (pageDir virAddr physAddr flags : Nat) : Prog Kernel Unit := do
  if pageDir = 0 then Prog.stop (.assertion "page_dir != NULL")
  else do
    let pageTable ← tableForMapping ext pageDir (getDirectoryIndex virAddr)
    let pageEntry := pageTable + 4 * getTableIndex virAddr
    modifyWord ext pageEntry fun w => pageEntrySetFrame w physAddr
    modifyWord ext pageEntry fun w => pageEntryAddAttrib w (flags ||| present)

def vmmMapPageToCurrDir (virAddr frameAddr flags : Nat) : Prog Kernel Unit := do
  let k ← Prog.get
  if k.currentDirectory = 0 then Prog.stop (.assertion "current_directory != NULL")
  else vmmMapPage ext k.currentDirectory virAddr frameAddr flags

def vmmUnmapPage (virAddr : Nat) : Prog Kernel Unit := do
  let e ← vmmGetPageEntry ext virAddr
  let w ← loadWord ext e
  if isPagePresent w then do
    freeFrame (getFrameAddr w)
    storeWord ext e 0
  else if isSwapped w then do
    diskFreeSlotsForPage (getFrameAddr w)
    storeWord ext e 0
  else pure ()

def vmmCalcPhysAddr (virAddr : Nat) : Prog Kernel Nat := do
  let e ← vmmGetPageEntry ext virAddr
  let w ← loadWord ext e
  if isPagePresent w = false then
    Prog.stop (.panic "Trying to calculate the physical address of a page that is not present")
  else pure (getFrameAddr w + getFrameOffset virAddr)

/-! ## The heap -/

def createSlab (objectSize : Nat) : Prog Kernel Slab := do
  let k ← Prog.get
  if k.heap.currentHeapAddr ≤ kernelBaseHeapAddr + kernelHeapSize then do
    let slabPhysAddr := k.heap.currentHeapAddr
    Prog.modify fun k =>
      { k with heap := { k.heap with currentHeapAddr := u32 (slabPhysAddr + pageSize) } }
    let slabVirAddr := convertToVirAddr slabPhysAddr
    vmmMapPageToCurrDir ext slabVirAddr slabPhysAddr pageWriteable
    pure (initSlab slabVirAddr objectSize)
  else Prog.stop (.assertion "current_heap_addr <= KERNEL_BASE_HEAP_ADDR + KERNEL_HEAP_SIZE")

/-- `alloc_from_cache` for cache `i`. -/
def allocFromCache (i : Nat) : Prog Kernel Nat := do
  let k ← Prog.get
  match popFree (k.heap.slabs i) with
  | some (object, slabs) => do
      Prog.modify fun k => { k with heap := k.heap.setSlabs i slabs }
      pure object
  | none => do
      let slab ← createSlab ext (cacheObjectSize i)
      let k ← Prog.get
      match popFree (slab :: k.heap.slabs i) with
      | some (object, slabs) => do
          Prog.modify fun k => { k with heap := k.heap.setSlabs i slabs }
          pure object
      | none => do
          Prog.modify fun k => { k with heap := k.heap.setSlabs i (slab :: k.heap.slabs i) }
          pure 0

/-- `create_large_alloc` and `insert_large_alloc`. -/
def recordLargeAlloc (size ptr : Nat) : Prog Kernel Unit := do
  let node ← ext.kmalloc largeAllocSize
  if node = 0 then Prog.stop (.panic "Failed to allocate memory for large allocation")
  else Prog.modify fun k => { k with heap := k.heap.insertLargeAlloc ⟨node, size, ptr⟩ }

/-- Unmap `n` pages; `ptr i` is the address of page `i`. -/
def unmapPages (ptr : Nat → Kernel → Nat) (n : Nat) : Prog Kernel Unit :=
  Prog.forLoop (fun i => do
    let k ← Prog.get
    vmmUnmapPage ext (ptr i k)) 0 n

/-- The loop of `kmalloc_large` from page `i` on: whether every page was mapped. -/
def mapLargePages : Nat → Nat → Prog Kernel Bool
  | _, 0 => pure true
  | i, n + 1 => do
      let k ← Prog.get
      let virAddr := u32 (k.heap.currentLargeHeapAddr + i * pageSize)
      let addr ← allocFrame
      if addr = pmmNoFrameAvailable then do
        -- unmap the pages that were already allocated
        unmapPages ext (fun j k => u32 (k.heap.currentLargeHeapAddr + j * pageSize)) i
        pure false
      else do
        vmmMapPageToCurrDir ext virAddr addr pageWriteable
        mapLargePages (i + 1) n

def kmallocLarge (size : Nat) : Prog Kernel Nat := do
  let mapped ← mapLargePages ext 0 (alignedSize size / pageSize)
  if mapped = false then pure 0
  else do
    let k ← Prog.get
    let ptr := k.heap.currentLargeHeapAddr
    Prog.modify fun k =>
      { k with heap := { k.heap with currentLargeHeapAddr := u32 (ptr + alignedSize size) } }
    recordLargeAlloc ext size ptr
    pure ptr

def kmalloc (size : Nat) : Prog Kernel Nat :=
  if size > maxCacheSize then kmallocLarge ext size
  else
    match getCache size with
    | some i => allocFromCache ext i
    | none => Prog.stop (.panic "Cache for slab was not found, how tf did we get here?")

/-- `_kmalloc_large_free`. -/
def kmallocLargeFree (ptr : Nat) : Prog Kernel Unit := do
  let k ← Prog.get
  match k.heap.getLargeAllocByPtr ptr with
  | none => pure ()
  | some alloc => do
      unmapPages ext (fun i _ => u32 (ptr + i * pageSize)) (alignedSize alloc.size / pageSize)
      Prog.modify fun k => { k with heap := k.heap.largeAllocRemove ptr }
      ext.kfree alloc.node

/-- `slab_free` on the page of `ptr`: the header's `free_list` is its word 4 and
`free_count` its word 12. -/
def slabFree (ptr : Nat) : Prog Kernel Unit := do
  let slab := ptr / pageSize * pageSize
  let freeList ← loadWord ext (slab + 4)
  storeWord ext ptr freeList
  storeWord ext (slab + 4) ptr
  modifyWord ext (slab + 12) fun count => u32 (count + 1)

def kfree (ptr : Nat) : Prog Kernel Unit :=
  if ptr = 0 then pure ()
  else if isSlabWindow ptr then slabFree ext ptr
  else kmallocLargeFree ext ptr

/-- `init_kmalloc`. -/
def initKmalloc : Prog Kernel Unit := do
  Prog.modify fun k => { k with heap := { k.heap with
    currentHeapAddr := kernelBaseHeapAddr
    currentLargeHeapAddr := kernelBaseHeapAddr + kernelHeapSize } }
  Prog.forLoop (fun i => do
    let slab ← createSlab ext (cacheObjectSize i)
    Prog.modify fun k => { k with heap := k.heap.setSlabs i [slab] }
    if slab.addr = 0 then
      Prog.stop (.panic ("Failed to allocate memory for kmalloc, what piece of shit computer " ++
        "do you have?\nIts probably my fault :)"))
    else pure ()) 0 numCaches

/-! ## Page faults -/

def pageFaultHandler (faultAddr errorCode : Nat) : Prog Kernel Unit := do
  let e ← vmmGetPageEntry ext faultAddr
  if errorCode &&& 0x1 = 0 then do
    let w ← loadWord ext e
    if isSwapped w then do
      let swappedIn ← vmmSwapInPage ext e faultAddr
      if swappedIn = false then
        Prog.stop (.panic
          "Failed to swap in page. dont know what to do so lets shut down the computer :)")
      else pure ()
    else do
      let allocated ← vmmAllocPage ext e faultAddr
      if allocated = false then
        Prog.stop (.panic
          "Failed to allocate a frame for the page. how tf did we mange to get here?")
      else pure ()
  else if errorCode &&& 0x4 = 0 then
    Prog.stop (.panic "Permission error in kernel mode. how tf did we mange to get here?")
  else pure ()

/-- The handler and the access made again; the accesses modelled fault on pages
that are not present, in kernel mode. -/
def faultAndRetry (v : Nat) : Prog Kernel Nat := do
  pageFaultHandler ext v 0
  resolve ext v

/-! ## The disk under the kernel's heap -/

/-- The machine the disk driver runs on inside the kernel, for a transfer from or to the
page at `frame`. A temporary buffer's bytes are kept by the driver's functions; what
allocating it does to the heap and the mappings is done here, and so are the accesses to
the page, which may fault. -/
def diskHost (frame : Nat) : Host Kernel where
  kmalloc := kmalloc ext
  kfree := kfree ext
  stale := fun _ k => .ok (fun _ => 0, k)
  fetch := fun _ => do
    let p ← resolve ext frame
    let k ← Prog.get
    pure fun i => k.mem (p + i)
  deliver := fun pos n src => do
    let p ← resolve ext frame
    Prog.modify fun k => k.setMem (k.mem.copy (p + pos) src 0 n)
  disk := Kernel.disk
  setDisk d k := { k with disk := d }

/-- What the kernel passes for a buffer whose bytes are in its memory. -/
def inMemory : ByteStore := fun _ => 0

/-- One turn of the loop around `disk_write`. -/
def swapWriteTurn (slot frame : Nat) : Prog Kernel Unit := do
  let n ← diskWrite (diskHost ext frame) slot inMemory pageSize
  if n = pageSize then pure () else ext.swapWrite slot frame

/-- One turn of the loop around `disk_read`. -/
def swapReadTurn (slot frame : Nat) : Prog Kernel Unit := do
  let r ← diskRead (diskHost ext frame) slot inMemory pageSize
  if r.1 = pageSize then pure () else ext.swapRead slot frame

end Vmm

/-- The functions with calls up to the depth `n`; deeper ones never return. -/
def link : Nat → Ext
  | 0 =>
      { fault := fun _ => Prog.stop .outOfFuel
        kmalloc := fun _ => Prog.stop .outOfFuel
        kfree := fun _ => Prog.stop .outOfFuel
        swapIn := fun _ _ => Prog.stop .outOfFuel
        swapWrite := fun _ _ => Prog.stop .outOfFuel
        swapRead := fun _ _ => Prog.stop .outOfFuel }
  | n + 1 =>
      { fault := faultAndRetry (link n)
        kmalloc := kmalloc (link n)
        kfree := kfree (link n)
        swapIn := vmmSwapInPage (link n)
        swapWrite := swapWriteTurn (link n)
        swapRead := swapReadTurn (link n) }

end MyOs
