import MyOs.Memory.Layout

/-!
# The kernel heap as lists (`kmalloc.c`)

The heap's bookkeeping with its linked lists read as lists: the slabs of each
cache with the objects on their free lists, and the records of the large
blocks. `kmalloc` and `kfree` over it, which map and unmap pages, are with the
virtual memory manager they call.
-/

namespace MyOs

/-- `MAX_CACHE_SIZE`. -/
def maxCacheSize : Nat := 2048

/-- `sizeof(slab->data)`, and the offset of `data`. -/
def slabDataSize : Nat := 4076

def slabDataOffset : Nat := 20

/-- `sizeof(large_alloc_t)`. -/
def largeAllocSize : Nat := 16

/-- A slab with its free list. -/
structure Slab where
  addr : Nat
  objectSize : Nat
  freeList : List Nat
deriving DecidableEq, Repr

/-- A `large_alloc_t` at `node`. -/
structure LargeAlloc where
  node : Nat
  size : Nat
  ptr : Nat
deriving DecidableEq, Repr

/-- The statics of `kmalloc.c`. -/
structure Heap where
  currentHeapAddr : Nat
  currentLargeHeapAddr : Nat
  /-- `caches[i].slabs` -/
  slabs : Nat → List Slab
  largeAllocations : List LargeAlloc

/-- `caches[i].object_size`. -/
def cacheObjectSize (i : Nat) : Nat := 16 * 2 ^ i

/-- `get_cache`: the index of the first cache with objects large enough. -/
def getCache (size : Nat) : Option Nat :=
  (List.range numCaches).find? fun i => cacheObjectSize i ≥ size

/-- `convert_to_vir_addr`. -/
def convertToVirAddr (addr : Nat) : Nat := u32 (addr + kernelBaseHeapAddr)

/-- The slab `init_slab` makes of a fresh page. -/
def initSlab (addr objectSize : Nat) : Slab where
  addr := addr
  objectSize := objectSize
  freeList := (List.range (slabDataSize / objectSize)).map fun i =>
    addr + slabDataOffset + i * objectSize

/-- The loop of `alloc_from_cache`: the first free object of the first slab
that has one. -/
def popFree : List Slab → Option (Nat × List Slab)
  | [] => none
  | slab :: rest =>
      match slab.freeList with
      | object :: free => some (object, { slab with freeList := free } :: rest)
      | [] => (popFree rest).map fun r => (r.1, slab :: r.2)

/-- A request rounded up to whole pages. -/
def alignedSize (size : Nat) : Nat := u32 (size + pageSize - 1) / pageSize * pageSize

/-- `kfree` takes this address for an object of a slab. -/
def isSlabWindow (ptr : Nat) : Bool :=
  decide (kernelBaseHeapAddr ≤ ptr) && decide (ptr ≤ kernelBaseHeapAddr + kernelHeapSize)

namespace Heap

def setSlabs (h : Heap) (i : Nat) (slabs : List Slab) : Heap :=
  { h with slabs := fun j => if j = i then slabs else h.slabs j }

theorem setSlabs_self (h : Heap) (i : Nat) (slabs : List Slab) :
    (h.setSlabs i slabs).slabs i = slabs := if_pos rfl

theorem setSlabs_ne (h : Heap) {i j : Nat} (hj : j ≠ i) (slabs : List Slab) :
    (h.setSlabs i slabs).slabs j = h.slabs j := if_neg hj

/-- `insert_large_alloc`. -/
def insertLargeAlloc (h : Heap) (alloc : LargeAlloc) : Heap :=
  { h with largeAllocations := alloc :: h.largeAllocations }

/-- `get_large_alloc_by_ptr`. -/
def getLargeAllocByPtr (h : Heap) (ptr : Nat) : Option LargeAlloc :=
  h.largeAllocations.find? fun a => a.ptr = ptr

/-- `large_alloc_remove`, without the `kfree` of the record. -/
def largeAllocRemove (h : Heap) (ptr : Nat) : Heap :=
  { h with largeAllocations := h.largeAllocations.eraseP fun a => a.ptr = ptr }

end Heap
end MyOs
