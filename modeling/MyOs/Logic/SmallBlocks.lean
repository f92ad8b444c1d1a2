import MyOs.Logic.NewTable

/-!
# Small blocks

`kmalloc` of a small size takes a free object of a slab, or makes a slab and
takes its first one; making the slab maps its page in the current directory.
The eviction queue takes its nodes this way.
-/

namespace MyOs

/-- `ext` is the functions of the memory manager with their own calls going to
`inner`; the transfers to and from the disk are left open. -/
structure Ext.Over (ext inner : Ext) : Prop where
  fault : ext.fault = faultAndRetry inner
  kmalloc : ext.kmalloc = MyOs.kmalloc inner
  kfree : ext.kfree = MyOs.kfree inner
  swapIn : ext.swapIn = vmmSwapInPage inner

theorem link_over (n : Nat) : (link (n + 1)).Over (link n) := ⟨rfl, rfl, rfl, rfl⟩

/-! ## Objects of a slab -/

theorem initSlab_freeList {a size : Nat} (hpos : 0 < size) (hle : size ≤ slabDataSize) :
    ∃ free, (initSlab a size).freeList = (a + slabDataOffset) :: free := by
  obtain ⟨n, hn⟩ : ∃ n, slabDataSize / size = n + 1 :=
    ⟨slabDataSize / size - 1, by have := Nat.div_pos hle hpos; omega⟩
  refine ⟨(List.range n).map fun i => a + slabDataOffset + (i + 1) * size, ?_⟩
  rw [initSlab, hn, List.range_succ_eq_map, List.map_cons, List.map_map, Nat.zero_mul,
    Nat.add_zero]
  rfl

theorem cacheObjectSize_le {i : Nat} (hi : i < numCaches) : cacheObjectSize i ≤ slabDataSize := by
  have hpow : 2 ^ i ≤ 2 ^ 7 := Nat.pow_le_pow_right (by decide) (by simp only [numCaches] at hi; omega)
  rw [cacheObjectSize, slabDataSize]
  omega

theorem cacheObjectSize_pos (i : Nat) : 0 < cacheObjectSize i := by
  rw [cacheObjectSize]
  exact Nat.mul_pos (by decide) (Nat.two_pow_pos i)

theorem getCache_eq_some {size i : Nat} (h : getCache size = some i) :
    i < numCaches ∧ size ≤ cacheObjectSize i := by
  have hmem := List.mem_of_find?_eq_some h
  have hsize := List.find?_some h
  exact ⟨List.mem_range.mp hmem, of_decide_eq_true hsize⟩

namespace Kernel

/-- Where `create_slab` puts the next slab. -/
def nextSlab (k : Kernel) : Nat := convertToVirAddr k.heap.currentHeapAddr

/-- `current_heap_addr` is moved on past one slab. -/
def slabTaken (k : Kernel) : Kernel :=
  { k with heap := { k.heap with currentHeapAddr := u32 (k.heap.currentHeapAddr + pageSize) } }

/-- The state after `create_slab`: the slab's entry, in the directory in frame
`d`, maps it. -/
def slabMapped (k : Kernel) (d : Nat) : Kernel :=
  k.slabTaken.setMem (k.mem.store32 (k.entryAddr d k.nextSlab)
    (installed (k.mem.load32 (k.entryAddr d k.nextSlab)) k.heap.currentHeapAddr pageWriteable))

/-- There is room for a slab, and the table of its page is in memory. -/
structure SlabReady (k : Kernel) (d : Nat) : Prop where
  room : k.heap.currentHeapAddr ≤ kernelBaseHeapAddr + kernelHeapSize
  table : k.TableIn d k.nextSlab

variable {ext inner : Ext} {k k' : Kernel} {d i v : Nat}

theorem slabTaken_same (k : Kernel) : k.SameWalks k.slabTaken := by
  unfold slabTaken
  exact ⟨rfl, rfl, rfl, rfl⟩

theorem slabTaken_pmm (k : Kernel) : k.slabTaken.pmm = k.pmm := by
  unfold slabTaken
  rfl

theorem DirectoryIn.createSlab (h : k.DirectoryIn d) (hready : k.SlabReady d) (size : Nat) :
    createSlab ext size k = .ok (initSlab k.nextSlab size, k.slabMapped d) := by
  have hroom : k.heap.currentHeapAddr < 2 ^ 32 := by
    have := hready.room
    rw [kernelBaseHeapAddr_eq, kernelHeapSize_eq] at this
    omega
  have hsame := k.slabTaken_same
  have hdir := hsame.directoryIn h
  have hmap : vmmMapPageToCurrDir ext k.nextSlab k.heap.currentHeapAddr pageWriteable k.slabTaken =
      .ok ((), k.slabMapped d) := by
    rw [vmmMapPageToCurrDir, Prog.get_bind_apply, if_neg hdir.nonnull,
      hdir.vmmMapPage (hsame.tableIn hready.table) hroom, hsame.entryAddr, hsame.mem]
    rfl
  rw [MyOs.createSlab, Prog.get_bind_apply, if_pos hready.room, Prog.modify_bind_apply]
  exact Prog.bind_of_ok hmap

/-- The object is one of those that were free. -/
theorem allocFromCache_free {o : Nat} {slabs : List Slab}
    (hpop : popFree (k.heap.slabs i) = some (o, slabs)) :
    allocFromCache ext i k = .ok (o, { k with heap := k.heap.setSlabs i slabs }) := by
  rw [allocFromCache, Prog.get_bind_apply, hpop]
  rfl

/-- The object is the first one of a new slab. -/
theorem DirectoryIn.allocFromCache (h : k.DirectoryIn d) (hready : k.SlabReady d)
    (hi : i < numCaches) (hpop : popFree (k.heap.slabs i) = none) :
    ∃ slab, slab.addr = k.nextSlab ∧
      (initSlab k.nextSlab (cacheObjectSize i)).freeList =
        (k.nextSlab + slabDataOffset) :: slab.freeList ∧
      allocFromCache ext i k = .ok (k.nextSlab + slabDataOffset,
        { k.slabMapped d with
            heap := (k.slabMapped d).heap.setSlabs i (slab :: k.heap.slabs i) }) := by
  obtain ⟨free, hfree⟩ := @initSlab_freeList k.nextSlab _ (cacheObjectSize_pos i) (cacheObjectSize_le hi)
  refine ⟨{ initSlab k.nextSlab (cacheObjectSize i) with freeList := free }, rfl, hfree, ?_⟩
  have hfirst : popFree (initSlab k.nextSlab (cacheObjectSize i) :: (k.slabMapped d).heap.slabs i) =
      some (k.nextSlab + slabDataOffset,
        { initSlab k.nextSlab (cacheObjectSize i) with freeList := free } :: k.heap.slabs i) := by
    rw [popFree, hfree]
    rfl
  rw [MyOs.allocFromCache, Prog.get_bind_apply, hpop]
  simp only
  rw [Prog.bind_of_ok (h.createSlab hready _), Prog.get_bind_apply, hfirst]
  rfl

/-! ## Queue nodes -/

theorem kmalloc_node (inner : Ext) : MyOs.kmalloc inner pageFifoNodeSize = allocFromCache inner 0 := by
  have hcache : getCache pageFifoNodeSize = some 0 := by decide
  rw [MyOs.kmalloc, if_neg (by decide), hcache]

/-- What `page_enqueue` leaves: the walks of `base`, the slabs of the first cache as
`slabs`, and one more node in the queue. -/
structure NodeTaken (k base : Kernel) (slabs : List Slab) (v : Nat) (k' : Kernel) : Prop where
  walks : base.SameWalks k'
  pmm : k'.pmm = k.pmm
  slabs_first : k'.heap.slabs 0 = slabs
  slabs_other : ∀ i, i ≠ 0 → k'.heap.slabs i = k.heap.slabs i
  large : k'.heap.largeAllocations = k.heap.largeAllocations
  queue : ∃ node, k'.pageFifoQueue = k.pageFifoQueue ++ [⟨node, v⟩]

theorem pageEnqueue_object {o : Nat} {slabs : List Slab} (hover : ext.Over inner)
    (hpop : popFree (k.heap.slabs 0) = some (o, slabs)) (ho : o ≠ 0) :
    ∃ k', pageEnqueue ext v k = .ok (true, k') ∧ k.NodeTaken k slabs v k' := by
  have hnode : ext.kmalloc pageFifoNodeSize k =
      .ok (o, { k with heap := k.heap.setSlabs 0 slabs }) := by
    rw [hover.kmalloc, kmalloc_node]
    exact allocFromCache_free hpop
  refine ⟨{ k with
              heap := k.heap.setSlabs 0 slabs
              pageFifoQueue := k.pageFifoQueue ++ [⟨o, v⟩] }, ?_, ?_⟩
  · rw [pageEnqueue, Prog.bind_of_ok hnode, if_neg ho]
    rfl
  · exact ⟨⟨rfl, rfl, rfl, rfl⟩, rfl, k.heap.setSlabs_self 0 slabs,
      fun i hi => k.heap.setSlabs_ne hi slabs, rfl, o, rfl⟩

theorem slabMapped_pmm (k : Kernel) (d : Nat) : (k.slabMapped d).pmm = k.pmm :=
  (setMem_pmm _ _).trans k.slabTaken_pmm

theorem slabMapped_queue (k : Kernel) (d : Nat) :
    (k.slabMapped d).pageFifoQueue = k.pageFifoQueue := by
  refine (setMem_queue _ _).trans ?_
  unfold slabTaken
  rfl

/-- Making a slab moves `current_heap_addr` and nothing else of the heap. -/
theorem slabMapped_heap (k : Kernel) (d : Nat) : (k.slabMapped d).heap =
    { k.heap with currentHeapAddr := u32 (k.heap.currentHeapAddr + pageSize) } := by
  refine (setMem_heap _ _).trans ?_
  unfold slabTaken
  rfl

theorem DirectoryIn.pageEnqueue_slab (h : k.DirectoryIn d) (hover : ext.Over inner)
    (hpop : popFree (k.heap.slabs 0) = none) (hready : k.SlabReady d) :
    ∃ slab k', slab.addr = k.nextSlab ∧ pageEnqueue ext v k = .ok (true, k') ∧
      k.NodeTaken (k.slabMapped d) (slab :: k.heap.slabs 0) v k' := by
  obtain ⟨slab, haddr, _, hnode⟩ := @DirectoryIn.allocFromCache inner k d 0 h hready (by decide) hpop
  rw [← kmalloc_node, ← hover.kmalloc] at hnode
  have hne : k.nextSlab + slabDataOffset ≠ 0 := Nat.ne_of_gt (Nat.add_pos_right _ (by decide))
  have hheap := k.slabMapped_heap d
  have hqueue := k.slabMapped_queue d
  have hpmm := k.slabMapped_pmm d
  generalize k.slabMapped d = mapped at hnode hheap hqueue hpmm ⊢
  generalize k.nextSlab + slabDataOffset = node at hne hnode
  refine ⟨slab, { mapped with
      heap := mapped.heap.setSlabs 0 (slab :: k.heap.slabs 0)
      pageFifoQueue := mapped.pageFifoQueue ++ [⟨node, v⟩] }, haddr, ?_, ?_⟩
  · rw [pageEnqueue, Prog.bind_of_ok hnode, if_neg hne]
    rfl
  · refine ⟨⟨rfl, rfl, rfl, rfl⟩, hpmm, mapped.heap.setSlabs_self 0 _, fun i hi => ?_, ?_, node, ?_⟩
    · show (mapped.heap.setSlabs 0 _).slabs i = _
      rw [mapped.heap.setSlabs_ne hi, hheap]
    · show mapped.heap.largeAllocations = _
      rw [hheap]
    · show mapped.pageFifoQueue ++ _ = _
      rw [hqueue]

end Kernel
end MyOs
