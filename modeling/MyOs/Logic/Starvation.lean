import MyOs.Logic.DiskKeeps
import MyOs.Logic.PmmSpec
import MyOs.Memory.Vmm

/-!
# A kernel without a free frame

Once the frame allocator has nothing to give, nothing the memory manager does
gives it anything back: swapping a page out does not free its frame, and the
blocks the memory manager itself frees are objects of slabs. `Starved` is that
state, and every function keeps it. What follows is what each of them can then
return.
-/

namespace MyOs

open Prog

/-- Large blocks with pages are page-aligned and lie apart from the next
address; everything else the heap hands out is an object inside a slab, and
those are not page-aligned. -/
structure HeapSane (h : Heap) : Prop where
  heap_aligned : h.currentHeapAddr % pageSize = 0
  large_lt : h.currentLargeHeapAddr < 2 ^ 32
  large_aligned : ∀ a ∈ h.largeAllocations, alignedSize a.size ≠ 0 →
    a.ptr % pageSize = 0 ∧ a.ptr ≠ h.currentLargeHeapAddr
  node_small : ∀ a ∈ h.largeAllocations, a.node % pageSize ≠ 0
  free_small : ∀ i, ∀ slab ∈ h.slabs i, ∀ o ∈ slab.freeList, o % pageSize ≠ 0

/-- No frame is free, with a sane heap whose next large address is `c`. -/
structure StarvedParts (c : Nat) (p : Pmm) (h : Heap) (q : List PageFifoNode) : Prop where
  wf : PmmWf p
  full : ∀ b, 8 ≤ b → b < totalFrames → p.pmmBitmap.bit b = true
  sane : HeapSane h
  large : h.currentLargeHeapAddr = c
  queue : ∀ n ∈ q, n.addr % pageSize ≠ 0

def Starved (c : Nat) (k : Kernel) : Prop := StarvedParts c k.pmm k.heap k.pageFifoQueue

/-- Nor does anything enter the eviction queue: what is left of it is the end of `q`. -/
structure StarvedQueue (c : Nat) (q : List PageFifoNode) (p : Pmm) (h : Heap)
    (nodes : List PageFifoNode) : Prop extends StarvedParts c p h nodes where
  suffix : nodes <:+ q

def StarvedFrom (c : Nat) (q : List PageFifoNode) (k : Kernel) : Prop :=
  StarvedQueue c q k.pmm k.heap k.pageFifoQueue

theorem Starved.starvedFrom {c : Nat} {k : Kernel} (h : Starved c k) :
    StarvedFrom c k.pageFifoQueue k :=
  ⟨h, List.suffix_refl _⟩

/-- An allocation that fails leaves the allocator as it is, and every frame is used. -/
theorem allocFrame_fails {k k' : Kernel} (hwf : PmmWf k.pmm) (hrun : allocFrame k = .ok (pmmNoFrameAvailable, k')) :
    k' = k ∧ ∀ b, 8 ≤ b → b < totalFrames → k.pmm.pmmBitmap.bit b = true := by
  have heq : (Except.ok (k.pmm.pmmAllocFrame.1, { k with pmm := k.pmm.pmmAllocFrame.2 }) :
      Except Stop (Nat × Kernel)) = .ok (pmmNoFrameAvailable, k') := hrun
  injection heq with heq
  injection heq with hnone hk'
  obtain ⟨hres, _⟩ := allocFrame_spec hwf
  rw [hnone] at hres
  generalize hq : k.pmm.pmmAllocFrame.2 = q at hres hk'
  generalize hf : pmmNoFrameAvailable = f at hres
  cases hres with
  | none hall => exact ⟨hk'.symm, hall⟩
  | frame hlo _ _ _ =>
      rw [pmmNoFrameAvailable] at hf
      omega

/-- A block whose `kfree` unmaps nothing. -/
def Freeable (c ptr : Nat) : Prop := ptr % pageSize ≠ 0 ∨ ptr = c

/-- What the calls back into the memory manager do without a free frame. -/
structure Ext.Starving (ext : Ext) (c : Nat) (q : List PageFifoNode) : Prop where
  fault : ∀ v, Triple (StarvedFrom c q) (ext.fault v) fun _ _ => False
  kmalloc : ∀ size, Triple (StarvedFrom c q) (ext.kmalloc size) fun r k => StarvedFrom c q k ∧
    (size ≤ maxCacheSize → r = 0 ∨ r % pageSize ≠ 0)
  kfree : ∀ ptr, Freeable c ptr → Triple (StarvedFrom c q) (ext.kfree ptr) fun _ => StarvedFrom c q
  swapIn : ∀ e v, Triple (StarvedFrom c q) (ext.swapIn e v) fun r _ => r = false
  swapWrite : ∀ slot frame, Triple (StarvedFrom c q) (ext.swapWrite slot frame) fun _ => StarvedFrom c q
  swapRead : ∀ slot frame, Triple (StarvedFrom c q) (ext.swapRead slot frame) fun _ => StarvedFrom c q

section Calls

variable {ext : Ext} {c : Nat} {q : List PageFifoNode} (hext : ext.Starving c q)

/-! ## Memory accesses -/

section Accesses

include hext

theorem resolve_starved (v : Nat) : Triple (StarvedFrom c q) (resolve ext v) fun _ => StarvedFrom c q := by
  refine Triple.read fun k _ => ?_
  split
  · exact Triple.pure fun _ hs => hs
  · exact (hext.fault v).weaken (fun _ hs => hs) fun _ _ h => h.elim

theorem loadWord_starved (v : Nat) : Triple (StarvedFrom c q) (loadWord ext v) fun _ => StarvedFrom c q :=
  Triple.bind (resolve_starved hext v) fun _ => Triple.read fun _ _ => Triple.pure fun _ hs => hs

theorem storeWord_starved (v w : Nat) :
    Triple (StarvedFrom c q) (storeWord ext v w) fun _ => StarvedFrom c q :=
  Triple.bind (resolve_starved hext v) fun _ => Triple.modify fun _ hs => hs

theorem modifyWord_starved (e : Nat) (f : Nat → Nat) :
    Triple (StarvedFrom c q) (modifyWord ext e f) fun _ => StarvedFrom c q :=
  Triple.bind (loadWord_starved hext e) fun _ => storeWord_starved hext _ _

theorem getPageTableAddr_starved (dir i : Nat) :
    Triple (StarvedFrom c q) (getPageTableAddr ext dir i) fun _ => StarvedFrom c q := by
  refine Triple.read fun k _ => ?_
  refine Triple.ite (fun _ => Triple.pure fun _ hs => hs) fun _ => ?_
  exact Triple.bind (loadWord_starved hext _) fun _ => Triple.pure fun _ hs => hs

end Accesses

/-! ## Frames, slots and the page FIFO -/

/-- The frame allocator has nothing to give. -/
theorem allocFrame_starved :
    Triple (StarvedFrom c q) allocFrame fun r k => r = pmmNoFrameAvailable ∧ StarvedFrom c q k := by
  intro k hk r k' heq
  obtain ⟨hres, _⟩ := allocFrame_spec hk.wf
  have hnone : k.pmm.pmmAllocFrame = (pmmNoFrameAvailable, k.pmm) := by
    generalize hr : k.pmm.pmmAllocFrame = pair at hres
    obtain ⟨frame, p'⟩ := pair
    cases hres with
    | none _ => rfl
    | frame hlo hhi hfree _ =>
        rw [hk.full _ hlo hhi] at hfree
        cases hfree
  simp only [allocFrame, get_bind_apply, hnone, modify_bind_apply, pure_apply] at heq
  cases heq
  exact ⟨rfl, hk⟩

theorem diskAllocSlotsForPage_starved :
    Triple (StarvedFrom c q) diskAllocSlotsForPage fun _ => StarvedFrom c q := by
  refine Triple.read fun _ _ => ?_
  refine Triple.ite (fun _ => Triple.stop) fun _ => ?_
  exact Triple.bind (Triple.modify (Q := fun _ => StarvedFrom c q) fun _ hs => hs) fun _ =>
    Triple.pure fun _ hs => hs

include hext

theorem pageFifoDequeue_starved :
    Triple (StarvedFrom c q) (pageFifoDequeue ext) fun _ => StarvedFrom c q := by
  intro k hk r k' heq
  unfold pageFifoDequeue at heq
  rw [get_bind_apply] at heq
  cases hq : k.pageFifoQueue with
  | nil =>
      rw [hq] at heq
      cases heq
      exact hk
  | cons node rest =>
      rw [hq] at heq
      have hnode : node.addr % pageSize ≠ 0 := hk.queue node (by rw [hq]; exact List.mem_cons_self)
      have hrest : StarvedFrom c q { k with pageFifoQueue := rest } :=
        ⟨⟨hk.wf, hk.full, hk.sane, hk.large, fun n hn =>
          hk.queue n (by rw [hq]; exact List.mem_cons_of_mem _ hn)⟩,
          (List.suffix_cons node rest).trans (by rw [← hq]; exact hk.suffix)⟩
      have h : Triple (StarvedFrom c q) (ext.kfree node.addr >>= fun _ => pure node.virAddr)
          fun _ => StarvedFrom c q :=
        Triple.bind (hext.kfree _ (.inl hnode)) fun _ => Triple.pure fun _ hs => hs
      exact h _ hrest _ _ heq

/-! ## Swapping -/

theorem vmmGetPageEntry_starved (v : Nat) :
    Triple (StarvedFrom c q) (vmmGetPageEntry ext v) fun _ => StarvedFrom c q := by
  have htable (e w : Nat) : Triple (StarvedFrom c q) (swapInTable ext e w)
      fun ok k => ok = true → StarvedFrom c q k := by
    refine Triple.bind (loadWord_starved hext e) fun _ => ?_
    refine Triple.ite (fun _ => ?_) fun _ => Triple.pure fun _ hs _ => hs
    exact (hext.swapIn e w).weaken (fun _ hs => hs) fun ok _ hfalse htrue => by
      rw [hfalse] at htrue
      cases htrue
  refine Triple.read fun k _ => ?_
  refine Triple.ite (fun _ => Triple.stop) fun _ => ?_
  refine Triple.bind (htable _ _) fun ok => ?_
  refine Triple.ite (fun _ => Triple.stop) fun hok => ?_
  have htrue : ok = true := by simpa using hok
  refine Triple.bind ((loadWord_starved hext _).weaken (fun _ hs => hs htrue) fun _ _ hs => hs)
    fun w => ?_
  refine Triple.ite (fun _ => Triple.stop) fun _ => ?_
  exact Triple.bind (getPageTableAddr_starved hext _ _) fun _ => Triple.pure fun _ hs => hs

theorem vmmSwapOutPage_starved (v : Nat) :
    Triple (StarvedFrom c q) (vmmSwapOutPage ext v) fun _ => StarvedFrom c q := by
  refine Triple.bind (vmmGetPageEntry_starved hext v) fun e => ?_
  refine Triple.bind (loadWord_starved hext e) fun w => ?_
  refine Triple.ite (fun _ => Triple.pure fun _ hs => hs) fun _ => ?_
  refine Triple.bind diskAllocSlotsForPage_starved fun slot => ?_
  refine Triple.ite (fun _ => Triple.pure fun _ hs => hs) fun _ => ?_
  refine Triple.bind (loadWord_starved hext e) fun w => ?_
  refine Triple.bind (hext.swapWrite _ _) fun _ => ?_
  refine Triple.bind (modifyWord_starved hext _ _) fun _ => ?_
  refine Triple.bind (modifyWord_starved hext _ _) fun _ => ?_
  exact Triple.bind (modifyWord_starved hext _ _) fun _ => Triple.pure fun _ hs => hs

theorem vmmSwapOutSomePage_starved :
    Triple (StarvedFrom c q) (vmmSwapOutSomePage ext) fun _ => StarvedFrom c q := by
  refine Triple.bind (pageFifoDequeue_starved hext) fun v => ?_
  exact Triple.ite (fun _ => Triple.pure fun _ hs => hs) fun _ => vmmSwapOutPage_starved hext v

/-- Swapping a page out frees no frame, so asking again finds none. -/
theorem allocFrameOrSwap_starved :
    Triple (StarvedFrom c q) (allocFrameOrSwap ext) fun r k =>
      r = pmmNoFrameAvailable ∧ StarvedFrom c q k := by
  refine Triple.bind allocFrame_starved fun r => ?_
  refine Triple.ite (fun _ => ?_) fun hne => fun k hk => absurd hk.1 hne
  refine Triple.bind ((vmmSwapOutSomePage_starved hext).weaken (fun _ hs => hs.2) fun _ _ hs => hs)
    fun out => ?_
  exact Triple.ite (fun _ => Triple.pure fun _ hs => ⟨rfl, hs⟩) fun _ => allocFrame_starved

theorem vmmSwapInPage_starved (e v : Nat) :
    Triple (StarvedFrom c q) (vmmSwapInPage ext e v) fun r k => r = false ∧ StarvedFrom c q k := by
  refine Triple.bind (allocFrameOrSwap_starved hext) fun r => ?_
  exact Triple.ite (fun _ => Triple.pure fun _ hs => ⟨rfl, hs.2⟩)
    fun hne => fun k hk => absurd hk.1 hne

theorem vmmAllocPermanentPage_starved (e : Nat) :
    Triple (StarvedFrom c q) (vmmAllocPermanentPage ext e) fun r k => r = false ∧ StarvedFrom c q k := by
  refine Triple.bind (allocFrameOrSwap_starved hext) fun r => ?_
  exact Triple.ite (fun _ => Triple.pure fun _ hs => ⟨rfl, hs.2⟩)
    fun hne => fun k hk => absurd hk.1 hne

theorem vmmAllocPage_starved (e v : Nat) :
    Triple (StarvedFrom c q) (vmmAllocPage ext e v) fun r k => r = false ∧ StarvedFrom c q k := by
  refine Triple.bind (vmmAllocPermanentPage_starved hext e) fun r => ?_
  exact Triple.ite (fun _ => Triple.pure fun _ hs => ⟨rfl, hs.2⟩)
    fun hne => fun k hk => absurd hk.1 hne

/-! ## Mapping -/

theorem tableForMapping_starved (pageDir i : Nat) :
    Triple (StarvedFrom c q) (tableForMapping ext pageDir i) fun _ => StarvedFrom c q := by
  refine Triple.bind (loadWord_starved hext _) fun w => ?_
  refine Triple.ite (fun _ => getPageTableAddr_starved hext _ _) fun _ => ?_
  refine Triple.ite (fun _ => ?_) fun _ => ?_
  · refine Triple.bind (vmmSwapInPage_starved hext _ _) fun r => ?_
    exact Triple.ite (fun _ => Triple.stop) fun hne => fun k hk => absurd hk.1 hne
  · have halloc : Triple (StarvedFrom c q)
        (allocTable ext (pageDir + 4 * i) (getPageTableVirAddr i)) fun r _ => r = false := by
      refine Triple.read fun k _ => ?_
      exact Triple.ite
        (fun _ => (vmmAllocPage_starved hext _ _).weaken (fun _ hs => hs) fun _ _ hs => hs.1)
        fun _ => (vmmAllocPermanentPage_starved hext _).weaken (fun _ hs => hs) fun _ _ hs => hs.1
    refine Triple.bind halloc fun r => ?_
    exact Triple.ite (fun _ => Triple.stop) fun hne => fun k hk => absurd hk hne

theorem vmmMapPageToCurrDir_starved (v frameAddr flags : Nat) :
    Triple (StarvedFrom c q) (vmmMapPageToCurrDir ext v frameAddr flags) fun _ => StarvedFrom c q := by
  refine Triple.read fun k _ => ?_
  refine Triple.ite (fun _ => Triple.stop) fun _ => ?_
  refine Triple.ite (fun _ => Triple.stop) fun _ => ?_
  refine Triple.bind (tableForMapping_starved hext _ _) fun table => ?_
  exact Triple.bind (modifyWord_starved hext _ _) fun _ => modifyWord_starved hext _ _

/-! ## The heap -/

omit hext in
/-- The objects of a slab are not page-aligned. -/
theorem initSlab_small {addr : Nat} (haddr : addr % pageSize = 0) (i : Nat) :
    ∀ o ∈ (initSlab addr (cacheObjectSize i)).freeList, o % pageSize ≠ 0 := by
  intro o ho
  obtain ⟨n, hn, rfl⟩ := List.mem_map.mp ho
  have hpos : 0 < cacheObjectSize i := Nat.mul_pos (by decide) (Nat.two_pow_pos i)
  have hle : (n + 1) * cacheObjectSize i ≤ slabDataSize :=
    (Nat.le_div_iff_mul_le hpos).mp (List.mem_range.mp hn)
  rw [Nat.add_mul, Nat.one_mul] at hle
  simp only [pageSize, slabDataOffset, slabDataSize] at *
  omega

omit hext in
/-- Popping an object leaves a part of each free list. -/
theorem popFree_mem {slabs slabs' : List Slab} {object : Nat}
    (h : popFree slabs = some (object, slabs')) :
    (∃ slab ∈ slabs, object ∈ slab.freeList) ∧
      ∀ slab' ∈ slabs', ∃ slab ∈ slabs, ∀ o ∈ slab'.freeList, o ∈ slab.freeList := by
  induction slabs generalizing slabs' with
  | nil => cases h
  | cons slab rest ih =>
      rw [popFree] at h
      split at h
      · next first free hfree =>
          cases h
          refine ⟨⟨slab, List.mem_cons_self, by rw [hfree]; exact List.mem_cons_self⟩, ?_⟩
          intro slab' hmem
          rcases List.mem_cons.mp hmem with rfl | hrest
          · exact ⟨slab, List.mem_cons_self, fun o ho => by
              rw [hfree]
              exact List.mem_cons_of_mem _ ho⟩
          · exact ⟨slab', List.mem_cons_of_mem _ hrest, fun _ ho => ho⟩
      · obtain ⟨⟨o, slabs''⟩, hpop, heq⟩ := Option.map_eq_some_iff.mp h
        cases heq
        obtain ⟨⟨s, hs, hobj⟩, hsub⟩ := ih hpop
        refine ⟨⟨s, List.mem_cons_of_mem _ hs, hobj⟩, ?_⟩
        intro slab' hmem
        rcases List.mem_cons.mp hmem with rfl | hrest
        · exact ⟨slab', List.mem_cons_self, fun _ ho => ho⟩
        · obtain ⟨s', hs', hall⟩ := hsub slab' hrest
          exact ⟨s', List.mem_cons_of_mem _ hs', hall⟩

omit hext in
/-- Installing what `popFree` leaves of slabs whose objects are small. -/
theorem StarvedFrom.setSlabs {k : Kernel} (hk : StarvedFrom c q k) {i : Nat} {slabs : List Slab}
    (hsmall : ∀ slab ∈ slabs, ∀ o ∈ slab.freeList, o % pageSize ≠ 0) :
    StarvedFrom c q { k with heap := k.heap.setSlabs i slabs } := by
  refine ⟨⟨hk.wf, hk.full, { hk.sane with free_small := fun j slab hslab o ho => ?_ }, hk.large,
    hk.queue⟩, hk.suffix⟩
  simp only [Heap.setSlabs] at hslab
  split at hslab
  · exact hsmall slab hslab o ho
  · exact hk.sane.free_small j slab hslab o ho

theorem createSlab_starved (i : Nat) :
    Triple (StarvedFrom c q) (createSlab ext (cacheObjectSize i)) fun slab k => StarvedFrom c q k ∧
      ∀ o ∈ slab.freeList, o % pageSize ≠ 0 := by
  intro k hk slab k' heq
  simp only [createSlab, get_bind_apply, Prog.ite_apply] at heq
  split at heq
  swap
  · cases heq
  rw [modify_bind_apply] at heq
  have haligned := hk.sane.heap_aligned
  have hpage : convertToVirAddr k.heap.currentHeapAddr % pageSize = 0 := by
    simp only [convertToVirAddr, u32, kernelBaseHeapAddr_eq, pageSize] at haligned ⊢
    omega
  have hnext : u32 (k.heap.currentHeapAddr + pageSize) % pageSize = 0 := by
    simp only [u32, pageSize] at haligned ⊢
    omega
  have hk₁ : StarvedFrom c q { k with heap := { k.heap with
      currentHeapAddr := u32 (k.heap.currentHeapAddr + pageSize) } } :=
    ⟨⟨hk.wf, hk.full, { hk.sane with heap_aligned := hnext }, hk.large, hk.queue⟩, hk.suffix⟩
  have h : Triple (StarvedFrom c q) (vmmMapPageToCurrDir ext (convertToVirAddr k.heap.currentHeapAddr)
      k.heap.currentHeapAddr pageWriteable >>= fun _ =>
        pure (initSlab (convertToVirAddr k.heap.currentHeapAddr) (cacheObjectSize i)))
      fun slab k => StarvedFrom c q k ∧ ∀ o ∈ slab.freeList, o % pageSize ≠ 0 :=
    Triple.bind (vmmMapPageToCurrDir_starved hext _ _ _) fun _ =>
      Triple.pure fun _ hs => ⟨hs, initSlab_small hpage i⟩
  exact h _ hk₁ _ _ heq

theorem allocFromCache_starved (i : Nat) :
    Triple (StarvedFrom c q) (allocFromCache ext i) fun r k => StarvedFrom c q k ∧
      (r = 0 ∨ r % pageSize ≠ 0) := by
  have hpop {slabs slabs' : List Slab} {object : Nat}
      (hsmall : ∀ slab ∈ slabs, ∀ o ∈ slab.freeList, o % pageSize ≠ 0)
      (h : popFree slabs = some (object, slabs')) {k : Kernel} (hk : StarvedFrom c q k) :
      StarvedFrom c q { k with heap := k.heap.setSlabs i slabs' } ∧ object % pageSize ≠ 0 := by
    obtain ⟨⟨slab, hslab, hobj⟩, hsub⟩ := popFree_mem h
    refine ⟨hk.setSlabs fun slab' hslab' o ho => ?_, hsmall slab hslab object hobj⟩
    obtain ⟨slab, hslab, hall⟩ := hsub slab' hslab'
    exact hsmall slab hslab o (hall o ho)
  intro k hk r k' heq
  rw [allocFromCache, get_bind_apply] at heq
  cases hfirst : popFree (k.heap.slabs i) with
  | some found =>
      obtain ⟨object, slabs⟩ := found
      rw [hfirst] at heq
      cases heq
      obtain ⟨hs, hobj⟩ := hpop (hk.sane.free_small i) hfirst hk
      exact ⟨hs, .inr hobj⟩
  | none =>
      rw [hfirst] at heq
      obtain ⟨slab, k₁, hslab, heq⟩ := bind_eq_ok.mp heq
      obtain ⟨hk₁, hnew⟩ := createSlab_starved hext i k hk slab k₁ hslab
      have hsmall : ∀ s ∈ slab :: k₁.heap.slabs i, ∀ o ∈ s.freeList, o % pageSize ≠ 0 := by
        intro s hs
        rcases List.mem_cons.mp hs with rfl | hold
        · exact hnew
        · exact hk₁.sane.free_small i s hold
      rw [get_bind_apply] at heq
      cases hsecond : popFree (slab :: k₁.heap.slabs i) with
      | some found =>
          obtain ⟨object, slabs⟩ := found
          rw [hsecond] at heq
          cases heq
          obtain ⟨hs, hobj⟩ := hpop hsmall hsecond hk₁
          exact ⟨hs, .inr hobj⟩
      | none =>
          rw [hsecond] at heq
          cases heq
          exact ⟨hk₁.setSlabs hsmall, .inl rfl⟩

omit hext in
/-- Without a free frame no page of a large block can be mapped. -/
theorem mapLargePages_starved (n : Nat) :
    Triple (StarvedFrom c q) (mapLargePages ext 0 n) fun mapped k => StarvedFrom c q k ∧
      (mapped = true → n = 0) := by
  cases n with
  | zero => exact Triple.pure fun _ hs => ⟨hs, fun _ => rfl⟩
  | succ n =>
      refine Triple.read fun k _ => ?_
      refine Triple.bind allocFrame_starved fun addr => ?_
      refine Triple.ite (fun _ => ?_) fun hne => fun k hk => absurd hk.1 hne
      refine Triple.bind (Q := fun _ => StarvedFrom c q) (Triple.pure fun _ hs => hs.2) fun _ => ?_
      exact Triple.pure fun _ hs => ⟨hs, fun h => by cases h⟩

/-- A record of a block without pages. -/
theorem recordLargeAlloc_starved {size : Nat} (ptr : Nat) (hsize : alignedSize size = 0) :
    Triple (StarvedFrom c q) (recordLargeAlloc ext size ptr) fun _ => StarvedFrom c q := by
  refine Triple.bind (hext.kmalloc largeAllocSize) fun node => ?_
  refine Triple.ite (fun _ => Triple.stop) fun hne => Triple.modify ?_
  rintro k ⟨hk, hsmall⟩
  refine ⟨⟨hk.wf, hk.full, { hk.sane with large_aligned := ?_, node_small := ?_ }, hk.large, hk.queue⟩, hk.suffix⟩
  · intro a ha hpages
    rcases List.mem_cons.mp ha with rfl | hold
    · exact absurd hsize hpages
    · exact hk.sane.large_aligned a hold hpages
  · intro a ha
    rcases List.mem_cons.mp ha with rfl | hold
    · exact (hsmall (by decide)).resolve_left hne
    · exact hk.sane.node_small a hold

theorem kmallocLarge_starved (size : Nat) :
    Triple (StarvedFrom c q) (kmallocLarge ext size) fun r k => StarvedFrom c q k ∧ (r = 0 ∨ r = c) := by
  refine Triple.bind (mapLargePages_starved _) fun mapped => ?_
  refine Triple.ite (fun _ => Triple.pure fun _ hs => ⟨hs.1, .inl rfl⟩) fun hmapped => ?_
  rintro k ⟨hk, hnone⟩ r k' heq
  have hsize : alignedSize size = 0 := by
    have hzero := hnone (by simpa using hmapped)
    have hmul : alignedSize size / pageSize * pageSize = alignedSize size := by
      rw [alignedSize, Nat.mul_div_cancel _ (by decide)]
    rw [← hmul, hzero, Nat.zero_mul]
  rw [get_bind_apply, modify_bind_apply, hsize, Nat.add_zero, u32_of_lt hk.sane.large_lt] at heq
  have h : Triple (StarvedFrom c q) (recordLargeAlloc ext size k.heap.currentLargeHeapAddr >>= fun _ =>
      pure k.heap.currentLargeHeapAddr) fun r k => StarvedFrom c q k ∧ (r = 0 ∨ r = c) :=
    Triple.bind (recordLargeAlloc_starved hext _ hsize) fun _ =>
      Triple.pure fun _ hs => ⟨hs, .inr hk.large⟩
  exact h _ hk _ _ heq

theorem kmalloc_starved (size : Nat) :
    Triple (StarvedFrom c q) (kmalloc ext size) fun r k => StarvedFrom c q k ∧ (r = 0 ∨ Freeable c r) ∧
      (size ≤ maxCacheSize → r = 0 ∨ r % pageSize ≠ 0) := by
  rw [kmalloc]
  refine Triple.ite (fun hbig => ?_) fun _ => ?_
  · refine (kmallocLarge_starved hext size).weaken (fun _ hs => hs) ?_
    rintro r k ⟨hk, hr⟩
    exact ⟨hk, hr.imp_right .inr, fun hle => absurd hbig (Nat.not_lt.mpr hle)⟩
  · split
    · refine (allocFromCache_starved hext _).weaken (fun _ hs => hs) ?_
      rintro r k ⟨hk, hr⟩
      exact ⟨hk, hr.imp_right .inl, fun _ => hr⟩
    · exact Triple.stop

theorem slabFree_starved (ptr : Nat) :
    Triple (StarvedFrom c q) (slabFree ext ptr) fun _ => StarvedFrom c q := by
  refine Triple.bind (loadWord_starved hext _) fun free => ?_
  refine Triple.bind (storeWord_starved hext _ _) fun _ => ?_
  exact Triple.bind (storeWord_starved hext _ _) fun _ => modifyWord_starved hext _ _

/-- A large block freed without a free frame has no pages. -/
theorem kmallocLargeFree_starved {ptr : Nat} (hptr : Freeable c ptr) :
    Triple (StarvedFrom c q) (kmallocLargeFree ext ptr) fun _ => StarvedFrom c q := by
  intro k hk r k' heq
  rw [kmallocLargeFree, get_bind_apply] at heq
  cases hfind : k.heap.getLargeAllocByPtr ptr with
  | none =>
      rw [hfind] at heq
      cases heq
      exact hk
  | some a =>
      have hmem : a ∈ k.heap.largeAllocations := List.mem_of_find?_eq_some hfind
      have haptr : a.ptr = ptr := by simpa using List.find?_some hfind
      have hsize : alignedSize a.size = 0 := by
        refine Classical.byContradiction fun hpages => ?_
        obtain ⟨haligned, hnext⟩ := hk.sane.large_aligned a hmem hpages
        rw [haptr] at haligned hnext
        exact hptr.elim (fun h => h haligned) fun h => hnext (h.trans hk.large.symm)
      simp only [hfind, hsize, Nat.zero_div] at heq
      have hkeep : ∀ b ∈ (k.heap.largeAllocRemove ptr).largeAllocations,
          b ∈ k.heap.largeAllocations := fun b hb => List.mem_of_mem_eraseP hb
      have hk₁ : StarvedFrom c q { k with heap := k.heap.largeAllocRemove ptr } :=
        ⟨⟨hk.wf, hk.full,
          { hk.sane with
            large_aligned := fun b hb => hk.sane.large_aligned b (hkeep b hb)
            node_small := fun b hb => hk.sane.node_small b (hkeep b hb) }, hk.large, hk.queue⟩, hk.suffix⟩
      exact hext.kfree a.node (.inl (hk.sane.node_small a hmem)) _ hk₁ _ _ heq

theorem kfree_starved {ptr : Nat} (hptr : ptr = 0 ∨ Freeable c ptr) :
    Triple (StarvedFrom c q) (kfree ext ptr) fun _ => StarvedFrom c q := by
  rw [kfree]
  refine Triple.ite (fun _ => Triple.pure fun _ hs => hs) fun hne => ?_
  refine Triple.ite (fun _ => slabFree_starved hext ptr) fun _ => ?_
  exact kmallocLargeFree_starved hext (hptr.resolve_left hne)

/-! ## Page faults and transfers -/

/-- A page fault is never resolved. -/
theorem faultAndRetry_starved (v : Nat) :
    Triple (StarvedFrom c q) (faultAndRetry ext v) fun _ _ => False := by
  have hhandler : Triple (StarvedFrom c q) (pageFaultHandler ext v 0) fun _ _ => False := by
    refine Triple.bind (vmmGetPageEntry_starved hext v) fun e => ?_
    refine Triple.ite (fun _ => ?_) fun h => absurd rfl h
    refine Triple.bind (loadWord_starved hext e) fun w => ?_
    refine Triple.ite (fun _ => ?_) fun _ => ?_
    · refine Triple.bind (vmmSwapInPage_starved hext e v) fun r => ?_
      exact Triple.ite (fun _ => Triple.stop) fun hne => fun k hk => absurd hk.1 hne
    · refine Triple.bind (vmmAllocPage_starved hext e v) fun r => ?_
      exact Triple.ite (fun _ => Triple.stop) fun hne => fun k hk => absurd hk.1 hne
  exact Triple.bind hhandler fun _ => fun _ h => h.elim

theorem diskHost_keeps (frame : Nat) :
    (diskHost ext frame).Keeps (StarvedFrom c q) fun ptr => ptr = 0 ∨ Freeable c ptr where
  kmalloc size := (kmalloc_starved hext size).weaken (fun _ hs => hs)
    fun _ _ hs => ⟨hs.1, hs.2.1⟩
  kfree _ hptr := kfree_starved hext hptr
  stale _ := fun k hk _ k' heq => by
    cases heq
    exact hk
  fetch _ := Triple.bind (resolve_starved hext frame) fun _ => Triple.read fun _ _ =>
    Triple.pure fun _ hk => hk
  deliver _ _ _ := Triple.bind (resolve_starved hext frame) fun _ => Triple.modify fun _ hk => hk
  setDisk _ _ hk := hk

theorem swapWriteTurn_starved (slot frame : Nat) :
    Triple (StarvedFrom c q) (swapWriteTurn ext slot frame) fun _ => StarvedFrom c q := by
  refine Triple.bind (diskWrite_keeps (diskHost_keeps hext frame) _ _ _) fun n => ?_
  exact Triple.ite (fun _ => Triple.pure fun _ hs => hs) fun _ => hext.swapWrite slot frame

theorem swapReadTurn_starved (slot frame : Nat) :
    Triple (StarvedFrom c q) (swapReadTurn ext slot frame) fun _ => StarvedFrom c q := by
  refine Triple.bind (diskRead_keeps (diskHost_keeps hext frame) _ _ _) fun r => ?_
  exact Triple.ite (fun _ => Triple.pure fun _ hs => hs) fun _ => hext.swapRead slot frame

end Calls

/-- Linked to any depth, the functions stay without a free frame. -/
theorem link_starving (c depth : Nat) (q : List PageFifoNode) : (link depth).Starving c q := by
  induction depth with
  | zero => constructor <;> intros <;> exact Triple.stop
  | succ depth ih =>
      exact
        { fault := faultAndRetry_starved ih
          kmalloc := fun size => (kmalloc_starved ih size).weaken (fun _ hs => hs)
            fun _ _ hs => ⟨hs.1, hs.2.2⟩
          kfree := fun _ hptr => kfree_starved ih (.inr hptr)
          swapIn := fun e v => (vmmSwapInPage_starved ih e v).weaken (fun _ hs => hs)
            fun _ _ hs => hs.1
          swapWrite := swapWriteTurn_starved ih
          swapRead := swapReadTurn_starved ih }

end MyOs
