import MyOs.Logic.DiskKeeps
import MyOs.Logic.SmallBlocks
import MyOs.Logic.Starvation

/-!
# What the memory manager does to the heap

Only a few lines of `kmalloc.c` change the heap's bookkeeping, but every function
of the memory manager can reach them: a fault can need a page, a page a queue
node, a node a slab. `HeapRules` are those lines as changes of the heap. A
property of the heap that they keep is kept by every function at every depth.
-/

namespace MyOs

open Prog

/-- The changes of the heap keep `I`. A slab goes to a place with `G`, a large block
starts at an address with `L`, and an object that is handed out has `F`. -/
structure HeapRules (I : Heap → Prop) (G L F : Nat → Prop) : Prop where
  place : ∀ h, I h → h.currentHeapAddr ≤ kernelBaseHeapAddr + kernelHeapSize →
    G h.currentHeapAddr ∧
      I { h with currentHeapAddr := u32 (h.currentHeapAddr + pageSize) }
  object : ∀ h i o slabs, I h → popFree (h.slabs i) = some (o, slabs) →
    F o ∧ I (h.setSlabs i slabs)
  slab : ∀ h i phys o slabs, I h → i < numCaches → G phys →
    popFree (initSlab (convertToVirAddr phys) (cacheObjectSize i) :: h.slabs i) =
      some (o, slabs) → F o ∧ I (h.setSlabs i slabs)
  large : ∀ h size, I h → L h.currentLargeHeapAddr ∧
    I { h with currentLargeHeapAddr := u32 (h.currentLargeHeapAddr + alignedSize size) }
  insert : ∀ h alloc, I h → L alloc.ptr → I (h.insertLargeAlloc alloc)
  remove : ∀ h ptr, I h → I (h.largeAllocRemove ptr)

/-- The heap of the state satisfies `I`. -/
def HeapHas (I : Heap → Prop) (k : Kernel) : Prop := I k.heap

/-- The calls back into the memory manager keep `I`, and small blocks have `F`. -/
structure Ext.KeepsHeap (ext : Ext) (I : Heap → Prop) (F : Nat → Prop) : Prop where
  fault : ∀ v, Triple (HeapHas I) (ext.fault v) fun _ => HeapHas I
  kmalloc : ∀ size, Triple (HeapHas I) (ext.kmalloc size) fun r k => HeapHas I k ∧
    (size ≤ maxCacheSize → r = 0 ∨ F r)
  kfree : ∀ ptr, Triple (HeapHas I) (ext.kfree ptr) fun _ => HeapHas I
  swapIn : ∀ e v, Triple (HeapHas I) (ext.swapIn e v) fun _ => HeapHas I
  swapWrite : ∀ slot frame, Triple (HeapHas I) (ext.swapWrite slot frame) fun _ => HeapHas I
  swapRead : ∀ slot frame, Triple (HeapHas I) (ext.swapRead slot frame) fun _ => HeapHas I

section Calls

variable {ext : Ext} {I : Heap → Prop} {G L F : Nat → Prop} (rules : HeapRules I G L F)
  (hext : ext.KeepsHeap I F)

/-! ## Accesses, frames and slots -/

section Accesses

include hext

theorem resolve_keepsHeap (v : Nat) :
    Triple (HeapHas I) (resolve ext v) fun _ => HeapHas I := by
  refine Triple.read fun k _ => ?_
  split
  · exact Triple.pure fun _ hs => hs
  · exact hext.fault v

theorem loadWord_keepsHeap (v : Nat) :
    Triple (HeapHas I) (loadWord ext v) fun _ => HeapHas I :=
  Triple.bind (resolve_keepsHeap hext v) fun _ => Triple.read fun _ _ => Triple.pure fun _ hs => hs

theorem storeWord_keepsHeap (v w : Nat) :
    Triple (HeapHas I) (storeWord ext v w) fun _ => HeapHas I :=
  Triple.bind (resolve_keepsHeap hext v) fun _ => Triple.modify fun _ hs => hs

theorem modifyWord_keepsHeap (e : Nat) (f : Nat → Nat) :
    Triple (HeapHas I) (modifyWord ext e f) fun _ => HeapHas I :=
  Triple.bind (loadWord_keepsHeap hext e) fun _ => storeWord_keepsHeap hext _ _

theorem memsetZero_keepsHeap (v n : Nat) :
    Triple (HeapHas I) (memsetZero ext v n) fun _ => HeapHas I := by
  rw [memsetZero]
  induction n / pageSize + 2 generalizing v n with
  | zero => exact Triple.pure fun _ hs => hs
  | succ pages ih =>
      rw [zeroRange]
      refine Triple.ite (fun _ => Triple.pure fun _ hs => hs) fun _ => ?_
      refine Triple.bind (resolve_keepsHeap hext v) fun p => ?_
      exact Triple.bind (Triple.modify (Q := fun _ => HeapHas I) fun _ hs => hs) fun _ => ih _ _

theorem getPageTableAddr_keepsHeap (dir i : Nat) :
    Triple (HeapHas I) (getPageTableAddr ext dir i) fun _ => HeapHas I := by
  refine Triple.read fun k _ => ?_
  refine Triple.ite (fun _ => Triple.pure fun _ hs => hs) fun _ => ?_
  exact Triple.bind (loadWord_keepsHeap hext _) fun _ => Triple.pure fun _ hs => hs

end Accesses

theorem allocFrame_keepsHeap : Triple (HeapHas I) allocFrame fun _ => HeapHas I := by
  refine Triple.read fun _ _ => ?_
  exact Triple.bind (Triple.modify (Q := fun _ => HeapHas I) fun _ hs => hs) fun _ =>
    Triple.pure fun _ hs => hs

theorem freeFrame_keepsHeap (frame : Nat) :
    Triple (HeapHas I) (freeFrame frame) fun _ => HeapHas I := by
  refine Triple.read fun k _ => ?_
  split
  · exact Triple.modify fun _ hs => hs
  · exact Triple.stop

theorem diskAllocSlotsForPage_keepsHeap :
    Triple (HeapHas I) diskAllocSlotsForPage fun _ => HeapHas I := by
  refine Triple.read fun _ _ => ?_
  refine Triple.ite (fun _ => Triple.stop) fun _ => ?_
  exact Triple.bind (Triple.modify (Q := fun _ => HeapHas I) fun _ hs => hs) fun _ =>
    Triple.pure fun _ hs => hs

theorem diskFreeSlotsForPage_keepsHeap (slot : Nat) :
    Triple (HeapHas I) (diskFreeSlotsForPage slot) fun _ => HeapHas I := by
  refine Triple.read fun _ _ => ?_
  exact Triple.ite (fun _ => Triple.stop) fun _ => Triple.modify fun _ hs => hs

include hext

theorem pageEnqueue_keepsHeap (v : Nat) :
    Triple (HeapHas I) (pageEnqueue ext v) fun _ => HeapHas I := by
  refine Triple.bind ((hext.kmalloc _).weaken (fun _ hs => hs) fun _ _ hs => hs.1) fun node => ?_
  refine Triple.ite (fun _ => Triple.pure fun _ hs => hs) fun _ => ?_
  exact Triple.bind (Triple.modify (Q := fun _ => HeapHas I) fun _ hs => hs) fun _ =>
    Triple.pure fun _ hs => hs

theorem pageFifoDequeue_keepsHeap :
    Triple (HeapHas I) (pageFifoDequeue ext) fun _ => HeapHas I := by
  refine Triple.read fun k _ => ?_
  split
  · exact Triple.pure fun _ hs => hs
  · refine Triple.bind (Triple.modify (Q := fun _ => HeapHas I) fun _ hs => hs) fun _ => ?_
    exact Triple.bind (hext.kfree _) fun _ => Triple.pure fun _ hs => hs

/-! ## Swapping -/

theorem vmmGetPageEntry_keepsHeap (v : Nat) :
    Triple (HeapHas I) (vmmGetPageEntry ext v) fun _ => HeapHas I := by
  have htable (e w : Nat) : Triple (HeapHas I) (swapInTable ext e w) fun _ => HeapHas I := by
    refine Triple.bind (loadWord_keepsHeap hext e) fun _ => ?_
    exact Triple.ite (fun _ => hext.swapIn e w) fun _ => Triple.pure fun _ hs => hs
  refine Triple.read fun k _ => ?_
  refine Triple.ite (fun _ => Triple.stop) fun _ => ?_
  refine Triple.bind (htable _ _) fun ok => ?_
  refine Triple.ite (fun _ => Triple.stop) fun _ => ?_
  refine Triple.bind (loadWord_keepsHeap hext _) fun w => ?_
  refine Triple.ite (fun _ => Triple.stop) fun _ => ?_
  exact Triple.bind (getPageTableAddr_keepsHeap hext _ _) fun _ => Triple.pure fun _ hs => hs

theorem vmmSwapOutPage_keepsHeap (v : Nat) :
    Triple (HeapHas I) (vmmSwapOutPage ext v) fun _ => HeapHas I := by
  refine Triple.bind (vmmGetPageEntry_keepsHeap hext v) fun e => ?_
  refine Triple.bind (loadWord_keepsHeap hext e) fun w => ?_
  refine Triple.ite (fun _ => Triple.pure fun _ hs => hs) fun _ => ?_
  refine Triple.bind diskAllocSlotsForPage_keepsHeap fun slot => ?_
  refine Triple.ite (fun _ => Triple.pure fun _ hs => hs) fun _ => ?_
  refine Triple.bind (loadWord_keepsHeap hext e) fun w => ?_
  refine Triple.bind (hext.swapWrite _ _) fun _ => ?_
  refine Triple.bind (modifyWord_keepsHeap hext _ _) fun _ => ?_
  refine Triple.bind (modifyWord_keepsHeap hext _ _) fun _ => ?_
  exact Triple.bind (modifyWord_keepsHeap hext _ _) fun _ => Triple.pure fun _ hs => hs

theorem allocFrameOrSwap_keepsHeap :
    Triple (HeapHas I) (allocFrameOrSwap ext) fun _ => HeapHas I := by
  have hsome : Triple (HeapHas I) (vmmSwapOutSomePage ext) fun _ => HeapHas I := by
    refine Triple.bind (pageFifoDequeue_keepsHeap hext) fun v => ?_
    exact Triple.ite (fun _ => Triple.pure fun _ hs => hs) fun _ => vmmSwapOutPage_keepsHeap hext v
  refine Triple.bind allocFrame_keepsHeap fun r => ?_
  refine Triple.ite (fun _ => ?_) fun _ => Triple.pure fun _ hs => hs
  refine Triple.bind hsome fun out => ?_
  exact Triple.ite (fun _ => Triple.pure fun _ hs => hs) fun _ => allocFrame_keepsHeap

theorem vmmSwapInPage_keepsHeap (e v : Nat) :
    Triple (HeapHas I) (vmmSwapInPage ext e v) fun _ => HeapHas I := by
  refine Triple.bind (allocFrameOrSwap_keepsHeap hext) fun r => ?_
  refine Triple.ite (fun _ => Triple.pure fun _ hs => hs) fun _ => ?_
  refine Triple.bind (modifyWord_keepsHeap hext _ _) fun _ => ?_
  refine Triple.bind (loadWord_keepsHeap hext e) fun w => ?_
  refine Triple.bind (hext.swapRead _ _) fun _ => ?_
  refine Triple.bind (diskFreeSlotsForPage_keepsHeap _) fun _ => ?_
  refine Triple.bind (modifyWord_keepsHeap hext _ _) fun _ => ?_
  exact Triple.bind (modifyWord_keepsHeap hext _ _) fun _ => Triple.pure fun _ hs => hs

theorem vmmAllocPermanentPage_keepsHeap (e : Nat) :
    Triple (HeapHas I) (vmmAllocPermanentPage ext e) fun _ => HeapHas I := by
  refine Triple.bind (allocFrameOrSwap_keepsHeap hext) fun r => ?_
  refine Triple.ite (fun _ => Triple.pure fun _ hs => hs) fun _ => ?_
  refine Triple.bind (modifyWord_keepsHeap hext _ _) fun _ => ?_
  exact Triple.bind (modifyWord_keepsHeap hext _ _) fun _ => Triple.pure fun _ hs => hs

theorem vmmAllocPage_keepsHeap (e v : Nat) :
    Triple (HeapHas I) (vmmAllocPage ext e v) fun _ => HeapHas I := by
  refine Triple.bind (vmmAllocPermanentPage_keepsHeap hext e) fun r => ?_
  refine Triple.ite (fun _ => Triple.pure fun _ hs => hs) fun _ => ?_
  refine Triple.bind (pageEnqueue_keepsHeap hext v) fun r => ?_
  refine Triple.ite (fun _ => ?_) fun _ => Triple.pure fun _ hs => hs
  refine Triple.bind (loadWord_keepsHeap hext e) fun w => ?_
  refine Triple.bind (freeFrame_keepsHeap _) fun _ => ?_
  exact Triple.bind (modifyWord_keepsHeap hext _ _) fun _ => Triple.pure fun _ hs => hs

/-! ## Mapping and unmapping -/

theorem tableForMapping_keepsHeap (pageDir i : Nat) :
    Triple (HeapHas I) (tableForMapping ext pageDir i) fun _ => HeapHas I := by
  have halloc (e v : Nat) : Triple (HeapHas I) (allocTable ext e v) fun _ => HeapHas I :=
    Triple.read fun k _ => Triple.ite (fun _ => vmmAllocPage_keepsHeap hext _ _)
      fun _ => vmmAllocPermanentPage_keepsHeap hext _
  refine Triple.bind (loadWord_keepsHeap hext _) fun w => ?_
  refine Triple.ite (fun _ => getPageTableAddr_keepsHeap hext _ _) fun _ => ?_
  refine Triple.ite (fun _ => ?_) fun _ => ?_
  · refine Triple.bind (vmmSwapInPage_keepsHeap hext _ _) fun r => ?_
    exact Triple.ite (fun _ => Triple.stop) fun _ => getPageTableAddr_keepsHeap hext _ _
  · refine Triple.bind (halloc _ _) fun r => ?_
    refine Triple.ite (fun _ => Triple.stop) fun _ => ?_
    refine Triple.bind (modifyWord_keepsHeap hext _ _) fun _ => ?_
    refine Triple.bind (getPageTableAddr_keepsHeap hext _ _) fun table => ?_
    exact Triple.bind (memsetZero_keepsHeap hext _ _) fun _ => Triple.pure fun _ hs => hs

theorem vmmMapPageToCurrDir_keepsHeap (v frameAddr flags : Nat) :
    Triple (HeapHas I) (vmmMapPageToCurrDir ext v frameAddr flags) fun _ => HeapHas I := by
  refine Triple.read fun k _ => ?_
  refine Triple.ite (fun _ => Triple.stop) fun _ => ?_
  refine Triple.ite (fun _ => Triple.stop) fun _ => ?_
  refine Triple.bind (tableForMapping_keepsHeap hext _ _) fun table => ?_
  exact Triple.bind (modifyWord_keepsHeap hext _ _) fun _ => modifyWord_keepsHeap hext _ _

theorem unmapPages_keepsHeap (ptr : Nat → Kernel → Nat) (n : Nat) :
    Triple (HeapHas I) (unmapPages ext ptr n) fun _ => HeapHas I := by
  have hturn (v : Nat) : Triple (HeapHas I) (vmmUnmapPage ext v) fun _ => HeapHas I := by
    refine Triple.bind (vmmGetPageEntry_keepsHeap hext v) fun e => ?_
    refine Triple.bind (loadWord_keepsHeap hext e) fun w => ?_
    refine Triple.ite (fun _ => ?_) fun _ => Triple.ite (fun _ => ?_) fun _ => ?_
    · exact Triple.bind (freeFrame_keepsHeap _) fun _ => storeWord_keepsHeap hext _ _
    · exact Triple.bind (diskFreeSlotsForPage_keepsHeap _) fun _ => storeWord_keepsHeap hext _ _
    · exact Triple.pure fun _ hs => hs
  exact Triple.forLoop (I := fun _ => HeapHas I) (fun i => Triple.read fun k _ => hturn _) n 0

theorem mapLargePages_keepsHeap (i n : Nat) :
    Triple (HeapHas I) (mapLargePages ext i n) fun _ => HeapHas I := by
  induction n generalizing i with
  | zero => exact Triple.pure fun _ hs => hs
  | succ n ih =>
      refine Triple.read fun k _ => ?_
      refine Triple.bind allocFrame_keepsHeap fun r => ?_
      refine Triple.ite (fun _ => ?_) fun _ => ?_
      · exact Triple.bind (unmapPages_keepsHeap hext _ _) fun _ => Triple.pure fun _ hs => hs
      · exact Triple.bind (vmmMapPageToCurrDir_keepsHeap hext _ _ _) fun _ => ih _

/-! ## Page faults -/

theorem faultAndRetry_keepsHeap (v : Nat) :
    Triple (HeapHas I) (faultAndRetry ext v) fun _ => HeapHas I := by
  have hhandler (code : Nat) :
      Triple (HeapHas I) (pageFaultHandler ext v code) fun _ => HeapHas I := by
    refine Triple.bind (vmmGetPageEntry_keepsHeap hext v) fun e => ?_
    refine Triple.ite (fun _ => ?_) fun _ => ?_
    · refine Triple.bind (loadWord_keepsHeap hext e) fun w => ?_
      refine Triple.ite (fun _ => ?_) fun _ => ?_
      · refine Triple.bind (vmmSwapInPage_keepsHeap hext e v) fun r => ?_
        exact Triple.ite (fun _ => Triple.stop) fun _ => Triple.pure fun _ hs => hs
      · refine Triple.bind (vmmAllocPage_keepsHeap hext e v) fun r => ?_
        exact Triple.ite (fun _ => Triple.stop) fun _ => Triple.pure fun _ hs => hs
    · exact Triple.ite (fun _ => Triple.stop) fun _ => Triple.pure fun _ hs => hs
  exact Triple.bind (hhandler 0) fun _ => resolve_keepsHeap hext v

/-! ## The heap -/

section Rules

include rules

/-- The page of a new slab may be mapped with calls back into the heap. -/
theorem createSlab_keepsHeap (size : Nat) :
    Triple (HeapHas I) (createSlab ext size) fun slab k => HeapHas I k ∧
      ∃ phys, G phys ∧ slab = initSlab (convertToVirAddr phys) size := by
  intro k hk slab k' heq
  rw [createSlab, get_bind_apply] at heq
  by_cases hroom : k.heap.currentHeapAddr ≤ kernelBaseHeapAddr + kernelHeapSize
  · rw [if_pos hroom, modify_bind_apply] at heq
    obtain ⟨hplace, hmoved⟩ := rules.place _ hk hroom
    have hk₁ : HeapHas I { k with heap := { k.heap with
        currentHeapAddr := u32 (k.heap.currentHeapAddr + pageSize) } } := hmoved
    have h : Triple (HeapHas I) (vmmMapPageToCurrDir ext (convertToVirAddr k.heap.currentHeapAddr)
        k.heap.currentHeapAddr pageWriteable >>= fun _ =>
          pure (initSlab (convertToVirAddr k.heap.currentHeapAddr) size))
        fun slab k => HeapHas I k ∧ ∃ phys, G phys ∧ slab = initSlab (convertToVirAddr phys) size :=
      Triple.bind (vmmMapPageToCurrDir_keepsHeap hext _ _ _) fun _ =>
        Triple.pure fun _ hs => ⟨hs, _, hplace, rfl⟩
    exact h _ hk₁ _ _ heq
  · rw [if_neg hroom] at heq
    cases heq

/-- An object of the cache, from its slabs or from a new one. -/
theorem allocFromCache_triple {J : Heap → Prop} {i : Nat} (hi : i < numCaches)
    (object : ∀ h o slabs, I h → popFree (h.slabs i) = some (o, slabs) →
      F o ∧ J (h.setSlabs i slabs))
    (slab : ∀ h phys o slabs, I h → G phys →
      popFree (initSlab (convertToVirAddr phys) (cacheObjectSize i) :: h.slabs i) =
        some (o, slabs) → F o ∧ J (h.setSlabs i slabs)) :
    Triple (HeapHas I) (allocFromCache ext i) fun r k => HeapHas J k ∧ F r := by
  intro k hk r k' heq
  rw [allocFromCache, get_bind_apply] at heq
  cases hpop : popFree (k.heap.slabs i) with
  | some pair =>
      obtain ⟨o, slabs⟩ := pair
      rw [hpop] at heq
      cases heq
      obtain ⟨hobject, hkept⟩ := object _ _ _ hk hpop
      exact ⟨hkept, hobject⟩
  | none =>
      rw [hpop] at heq
      simp only at heq
      obtain ⟨_, k₁, hslab, hrest⟩ := bind_eq_ok.mp heq
      obtain ⟨hk₁, phys, hplace, rfl⟩ := createSlab_keepsHeap rules hext _ k hk _ _ hslab
      obtain ⟨free, hfree⟩ := @initSlab_freeList (convertToVirAddr phys) _ (cacheObjectSize_pos i)
        (cacheObjectSize_le hi)
      have hfirst : popFree (initSlab (convertToVirAddr phys) (cacheObjectSize i) ::
          k₁.heap.slabs i) = some (convertToVirAddr phys + slabDataOffset,
            { initSlab (convertToVirAddr phys) (cacheObjectSize i) with freeList := free } ::
              k₁.heap.slabs i) := by
        rw [popFree, hfree]
      rw [get_bind_apply, hfirst] at hrest
      cases hrest
      obtain ⟨hobject, hkept⟩ := slab _ _ _ _ hk₁ hplace hfirst
      exact ⟨hkept, hobject⟩

theorem allocFromCache_keepsHeap {i : Nat} (hi : i < numCaches) :
    Triple (HeapHas I) (allocFromCache ext i) fun r k => HeapHas I k ∧ F r :=
  allocFromCache_triple rules hext hi (fun h o slabs hh => rules.object h i o slabs hh)
    fun h phys o slabs hh => rules.slab h i phys o slabs hh hi

theorem recordLargeAlloc_keepsHeap (size : Nat) {ptr : Nat} (hptr : L ptr) :
    Triple (HeapHas I) (recordLargeAlloc ext size ptr) fun _ => HeapHas I := by
  refine Triple.bind ((hext.kmalloc _).weaken (fun _ hs => hs) fun _ _ hs => hs.1) fun node => ?_
  refine Triple.ite (fun _ => Triple.stop) fun _ => Triple.modify fun k hk => ?_
  exact rules.insert _ _ hk hptr

theorem kmallocLarge_keepsHeap (size : Nat) :
    Triple (HeapHas I) (kmallocLarge ext size) fun _ => HeapHas I := by
  refine Triple.bind (mapLargePages_keepsHeap hext _ _) fun mapped => ?_
  refine Triple.ite (fun _ => Triple.pure fun _ hs => hs) fun _ => ?_
  intro k hk r k' heq
  rw [get_bind_apply, modify_bind_apply] at heq
  obtain ⟨hstart, hmoved⟩ := rules.large k.heap size hk
  have hk₁ : HeapHas I { k with heap := { k.heap with
      currentLargeHeapAddr := u32 (k.heap.currentLargeHeapAddr + alignedSize size) } } := hmoved
  have h : Triple (HeapHas I) (recordLargeAlloc ext size k.heap.currentLargeHeapAddr >>= fun _ =>
      pure k.heap.currentLargeHeapAddr) fun _ => HeapHas I :=
    Triple.bind (recordLargeAlloc_keepsHeap rules hext size hstart) fun _ =>
      Triple.pure fun _ hs => hs
  exact h _ hk₁ _ _ heq

theorem kmalloc_keepsHeap (size : Nat) : Triple (HeapHas I) (kmalloc ext size) fun r k =>
    HeapHas I k ∧ (size ≤ maxCacheSize → r = 0 ∨ F r) := by
  rw [kmalloc]
  refine Triple.ite (fun hbig => ?_) fun _ => ?_
  · exact (kmallocLarge_keepsHeap rules hext size).weaken (fun _ hs => hs)
      fun _ _ hs => ⟨hs, fun hle => absurd hbig (Nat.not_lt.mpr hle)⟩
  · split
    · next i hcache =>
        exact (allocFromCache_keepsHeap rules hext (getCache_eq_some hcache).1).weaken
          (fun _ hs => hs) fun _ _ hs => ⟨hs.1, fun _ => .inr hs.2⟩
    · exact Triple.stop

theorem kfree_keepsHeap (ptr : Nat) :
    Triple (HeapHas I) (kfree ext ptr) fun _ => HeapHas I := by
  have hslab : Triple (HeapHas I) (slabFree ext ptr) fun _ => HeapHas I := by
    refine Triple.bind (loadWord_keepsHeap hext _) fun free => ?_
    refine Triple.bind (storeWord_keepsHeap hext _ _) fun _ => ?_
    exact Triple.bind (storeWord_keepsHeap hext _ _) fun _ => modifyWord_keepsHeap hext _ _
  have hlarge : Triple (HeapHas I) (kmallocLargeFree ext ptr) fun _ => HeapHas I := by
    refine Triple.read fun k _ => ?_
    split
    · exact Triple.pure fun _ hs => hs
    · refine Triple.bind (unmapPages_keepsHeap hext _ _) fun _ => ?_
      refine Triple.bind (Triple.modify (Q := fun _ => HeapHas I) fun t ht => ?_) fun _ =>
        hext.kfree _
      exact rules.remove _ _ ht
  rw [kfree]
  refine Triple.ite (fun _ => Triple.pure fun _ hs => hs) fun _ => ?_
  exact Triple.ite (fun _ => hslab) fun _ => hlarge

/-! ## Transfers -/

theorem diskHost_keepsHeap (frame : Nat) :
    (diskHost ext frame).Keeps (HeapHas I) fun _ => True where
  kmalloc size := (kmalloc_keepsHeap rules hext size).weaken (fun _ hs => hs)
    fun _ _ hs => ⟨hs.1, trivial⟩
  kfree _ _ := kfree_keepsHeap rules hext _
  stale _ := fun k hk _ k' heq => by
    cases heq
    exact hk
  fetch _ := Triple.bind (resolve_keepsHeap hext frame) fun _ => Triple.read fun _ _ =>
    Triple.pure fun _ hk => hk
  deliver _ _ _ := Triple.bind (resolve_keepsHeap hext frame) fun _ =>
    Triple.modify fun _ hk => hk
  setDisk _ _ hk := hk

theorem swapWriteTurn_keepsHeap (slot frame : Nat) :
    Triple (HeapHas I) (swapWriteTurn ext slot frame) fun _ => HeapHas I := by
  refine Triple.bind (diskWrite_keeps (diskHost_keepsHeap rules hext frame) _ _ _) fun n => ?_
  exact Triple.ite (fun _ => Triple.pure fun _ hs => hs) fun _ => hext.swapWrite slot frame

theorem swapReadTurn_keepsHeap (slot frame : Nat) :
    Triple (HeapHas I) (swapReadTurn ext slot frame) fun _ => HeapHas I := by
  refine Triple.bind (diskRead_keeps (diskHost_keepsHeap rules hext frame) _ _ _) fun r => ?_
  exact Triple.ite (fun _ => Triple.pure fun _ hs => hs) fun _ => hext.swapRead slot frame

end Rules
end Calls

/-- Linked to any depth, the functions keep what the rules keep. -/
theorem link_keepsHeap {I : Heap → Prop} {G L F : Nat → Prop} (rules : HeapRules I G L F)
    (depth : Nat) : (link depth).KeepsHeap I F := by
  induction depth with
  | zero => constructor <;> intros <;> exact Triple.stop
  | succ depth ih =>
      exact
        { fault := faultAndRetry_keepsHeap ih
          kmalloc := kmalloc_keepsHeap rules ih
          kfree := kfree_keepsHeap rules ih
          swapIn := vmmSwapInPage_keepsHeap ih
          swapWrite := swapWriteTurn_keepsHeap rules ih
          swapRead := swapReadTurn_keepsHeap rules ih }

end MyOs
