import MyOs.Base.System
import MyOs.Memory.Vmm

/-!
# Runs of the heap

From `init_kmalloc` on, calls of `kmalloc` with any size and of `kfree` on live
blocks, in any order. A block is live from the call that returned it to the call
that frees it; the blocks the memory manager allocates for itself are not among
them.
-/

namespace MyOs

/-- A kernel with the blocks that are live: where each starts, and the size it was
asked for with. -/
structure HeapState where
  kernel : Kernel
  live : List (Nat × Nat)

inductive HeapCall
  | kmalloc (size : Nat)
  | kfree (ptr : Nat)

/-- A call that returns. The calls are linked deep enough for one call back. -/
inductive HeapStep : HeapState → HeapCall → HeapState → Prop
  | block {s : HeapState} {size ptr depth : Nat} {k' : Kernel} : size < 2 ^ 32 →
      kmalloc (link (depth + 1)) size s.kernel = .ok (ptr, k') → ptr ≠ 0 →
      HeapStep s (.kmalloc size) ⟨k', (ptr, size) :: s.live⟩
  | null {s : HeapState} {size depth : Nat} {k' : Kernel} : size < 2 ^ 32 →
      kmalloc (link (depth + 1)) size s.kernel = .ok (0, k') →
      HeapStep s (.kmalloc size) ⟨k', s.live⟩
  | free {s : HeapState} {size ptr depth : Nat} {k' : Kernel} : (ptr, size) ∈ s.live →
      kfree (link (depth + 1)) ptr s.kernel = .ok ((), k') →
      HeapStep s (.kfree ptr) ⟨k', s.live.erase (ptr, size)⟩

/-- The statics of `kmalloc.c` before `init_kmalloc`: no slab and no large block. -/
structure BeforeInitKmalloc (k : Kernel) : Prop where
  slabs : ∀ i, k.heap.slabs i = []
  large : k.heap.largeAllocations = []

/-- The heap from `init_kmalloc` on. -/
def heapCalls : TSys HeapState HeapCall where
  init s := ∃ k depth, BeforeInitKmalloc k ∧
    initKmalloc (link (depth + 1)) k = .ok ((), s.kernel) ∧ s.live = []
  step := HeapStep

end MyOs
