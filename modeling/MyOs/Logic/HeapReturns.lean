import MyOs.Logic.HeapBoot

/-!
# Calls that return

A small request returns when its cache has a free object or a slab can be made, a
request for one page when a frame is free and the table of the next large block is in
memory. A size above `0xFFFFF000` is rounded up to zero pages, and a block is returned
without any.
-/

namespace MyOs

/-- What holds between calls holds in every state that calls which fit can reach. -/
theorem heapRunning_reachable {s : HeapState} (hs : (bootedCalls.restrict LargeFits).Reachable s) :
    HeapRunning s := by
  have hind : (bootedCalls.restrict LargeFits).Inductive HeapRunning :=
    ⟨fun _ hinit => (HeapRunning.boot hinit).1, fun _ _ _ hinv h => (hinv.step h.1 h.2).2⟩
  exact hind.invariant s hs

namespace Kernel

section Returns

variable {k k' : Kernel} {M : Nat → Prop} {depth o size : Nat} {slabs : List Slab}

theorem PagesArea.kmalloc_ok (ha : k.PagesArea M) (hs : k.SlabsArea) (hle : size ≤ maxCacheSize)
    (hroom : k.heap.currentHeapAddr ≤ kernelBaseHeapAddr + kernelHeapSize) (ext : Ext) :
    ∃ o k', kmalloc ext size k = .ok (o, k') ∧ o ≠ 0 := by
  obtain ⟨i, hi⟩ := getCache_of_le hle
  obtain ⟨o, k', hrun⟩ := allocFromCache_ok ha.running (ha.slabsReady hs) (getCache_eq_some hi).1
    (fun _ => hroom) ext
  have htaken := allocFromCache_taken ha.running (ha.slabsReady hs) (getCache_eq_some hi).1 hrun
  have hlow := (hs.layout.object_small htaken.take).1
  rw [kernelBaseHeapAddr_eq] at hlow
  refine ⟨o, k', ?_, by omega⟩
  rw [kmalloc, if_neg (Nat.not_lt.mpr hle), hi]
  exact hrun

/-- The record of a block, when a 16-byte object is free. -/
theorem recordLargeAlloc_ok (hpop : popFree (k.heap.slabs 0) = some (o, slabs)) (ho : o ≠ 0)
    (size ptr depth : Nat) : recordLargeAlloc (link (depth + 1)) size ptr k = .ok ((),
      { k with heap := (k.heap.setSlabs 0 slabs).insertLargeAlloc ⟨o, size, ptr⟩ }) := by
  have hcache : getCache largeAllocSize = some 0 := by decide
  have hnode : (link (depth + 1)).kmalloc largeAllocSize k =
      .ok (o, { k with heap := k.heap.setSlabs 0 slabs }) := by
    rw [(link_over depth).kmalloc, kmalloc, if_neg (by decide), hcache]
    exact allocFromCache_free hpop
  rw [recordLargeAlloc, Prog.bind_of_ok hnode, if_neg ho]
  rfl

/-- The end of `kmalloc_large`, when all pages are mapped. -/
theorem kmallocLarge_mapped {next : Nat} (hloop : MyOs.mapLargePages (link (depth + 1)) 0
      (alignedSize size / pageSize) k = .ok (true, k'))
    (hnext : u32 (k'.heap.currentLargeHeapAddr + alignedSize size) = next)
    (hpop : popFree (k'.heap.slabs 0) = some (o, slabs)) (ho : o ≠ 0) :
    kmallocLarge (link (depth + 1)) size k = .ok (k'.heap.currentLargeHeapAddr, { k' with
      heap := (({ k'.heap with currentLargeHeapAddr := next }).setSlabs 0 slabs).insertLargeAlloc
        ⟨o, size, k'.heap.currentLargeHeapAddr⟩ }) := by
  rw [kmallocLarge, Prog.bind_of_ok hloop, if_neg (by decide), Prog.get_bind_apply,
    Prog.modify_bind_apply, hnext]
  obtain ⟨k₂, hk₂⟩ : ∃ k₂ : Kernel, k₂ = { k' with heap := { k'.heap with
      currentLargeHeapAddr := next } } := ⟨_, rfl⟩
  have hpop₂ : popFree (k₂.heap.slabs 0) = some (o, slabs) := by rw [hk₂]; exact hpop
  have hrecord := recordLargeAlloc_ok hpop₂ ho size k'.heap.currentLargeHeapAddr depth
  rw [hk₂] at hrecord
  exact Prog.bind_of_ok hrecord

/-- A size that is rounded up to zero: the block has a record and no page. -/
theorem kmalloc_wrapped (hlt : maxCacheSize < size) (hzero : alignedSize size = 0)
    (hcur : k.heap.currentLargeHeapAddr < 2 ^ 32)
    (hpop : popFree (k.heap.slabs 0) = some (o, slabs)) (ho : o ≠ 0) (depth : Nat) :
    kmalloc (link (depth + 1)) size k = .ok (k.heap.currentLargeHeapAddr, { k with
      heap := (k.heap.setSlabs 0 slabs).insertLargeAlloc
        ⟨o, size, k.heap.currentLargeHeapAddr⟩ }) := by
  have hloop : MyOs.mapLargePages (link (depth + 1)) 0 (alignedSize size / pageSize) k =
      .ok (true, k) := by
    rw [hzero]
    rfl
  have hnext : u32 (k.heap.currentLargeHeapAddr + alignedSize size) =
      k.heap.currentLargeHeapAddr := by
    rw [hzero, Nat.add_zero, u32_of_lt hcur]
  rw [kmalloc, if_pos hlt]
  exact kmallocLarge_mapped hloop hnext hpop ho

/-- A request for one page, in a table that is there. -/
theorem PagesArea.kmallocPage_ok (ha : k.PagesArea M) (hs : k.SlabsArea)
    (hpage : LargePage k.heap.currentLargeHeapAddr)
    (htable : isPagePresent (k.pdeOf k.heap.currentLargeHeapAddr) = true)
    (hne : k.pmm.pmmAllocFrame.1 ≠ pmmNoFrameAvailable)
    (hpop : popFree (k.heap.slabs 0) = some (o, slabs)) (ho : o ≠ 0) (depth : Nat) :
    ∃ k', kmalloc (link (depth + 1)) pageSize k = .ok (k.heap.currentLargeHeapAddr, k') ∧
      k'.pmm = k.pmm.pmmAllocFrame.2 ∧ k'.heap = (({ k.heap with
        currentLargeHeapAddr := k.heap.currentLargeHeapAddr + pageSize }).setSlabs 0
          slabs).insertLargeAlloc ⟨o, pageSize, k.heap.currentLargeHeapAddr⟩ := by
  obtain ⟨ha₁, hs₁, hframe, _⟩ := ha.takeFrame hs hne
  have halloc : allocFrame k = .ok (k.pmm.pmmAllocFrame.1, k.frameTaken) := allocFrame_eq k
  have htable₁ : isPagePresent (k.frameTaken.pdeOf k.heap.currentLargeHeapAddr) = true := by
    rw [k.frameTaken_same.pdeOf]
    exact htable
  obtain ⟨k₁, hmap, _, hpmm, hheap⟩ := @Running.mapPage_present (link (depth + 1)) k.frameTaken
    k.pmm.pmmAllocFrame.1 _ pageWriteable ha₁.running hpage.lt hpage.2.2 hpage.below
    (ha₁.large_ne_directory hpage) htable₁ hframe.aligned hframe.lt (by decide)
  have hheap₁ : k₁.heap = k.heap := hheap
  have hnext : u32 (k₁.heap.currentLargeHeapAddr + alignedSize pageSize) =
      k.heap.currentLargeHeapAddr + pageSize := by
    have hlt := hpage.2.1
    rw [kernelBaseHeapAddr_eq] at hlt
    rw [hheap₁, show alignedSize pageSize = pageSize by decide]
    exact u32_of_lt (by simp only [pageSize]; omega)
  have hloop : MyOs.mapLargePages (link (depth + 1)) 0 (alignedSize pageSize / pageSize) k =
      .ok (true, k₁) := by
    have hcur : vmmMapPageToCurrDir (link (depth + 1)) k.heap.currentLargeHeapAddr
        k.pmm.pmmAllocFrame.1 pageWriteable k.frameTaken = .ok ((), k₁) := by
      rw [vmmMapPageToCurrDir, Prog.get_bind_apply, if_neg ha₁.running.dir.nonnull]
      exact hmap
    have hfirst : u32 (k.heap.currentLargeHeapAddr + 0 * pageSize) = k.heap.currentLargeHeapAddr := by
      rw [Nat.zero_mul, Nat.add_zero, u32_of_lt hpage.lt]
    rw [show alignedSize pageSize / pageSize = 0 + 1 by decide, MyOs.mapLargePages,
      Prog.get_bind_apply, hfirst, Prog.bind_of_ok halloc, if_neg hne, Prog.bind_of_ok hcur]
    rfl
  have hrun := kmallocLarge_mapped hloop hnext (by rw [hheap₁]; exact hpop) ho
  rw [hheap₁] at hrun
  rw [kmalloc, if_pos (by decide)]
  exact ⟨_, hrun, hpmm, rfl⟩

/-- After `init_kmalloc` the first two objects of the first slab are free. -/
theorem FreshHeap.first {h : Heap} (hfresh : FreshHeap numCaches h) :
    ∃ slab slab', slab.addr = 2 * kernelBaseHeapAddr ∧
      popFree (h.slabs 0) = some (2 * kernelBaseHeapAddr + slabDataOffset, [slab]) ∧
      popFree [slab] =
        some (2 * kernelBaseHeapAddr + slabDataOffset + cacheObjectSize 0, [slab']) := by
  obtain ⟨free, hfree⟩ : ∃ free, (initSlab (2 * kernelBaseHeapAddr) (cacheObjectSize 0)).freeList =
      (2 * kernelBaseHeapAddr + slabDataOffset) ::
        (2 * kernelBaseHeapAddr + slabDataOffset + cacheObjectSize 0) :: free := ⟨_, rfl⟩
  have hslabs : h.slabs 0 = [initSlab (2 * kernelBaseHeapAddr) (cacheObjectSize 0)] := by
    rw [hfresh.slabs 0, if_pos (by decide), Nat.zero_mul, Nat.add_zero]
  refine ⟨{ initSlab (2 * kernelBaseHeapAddr) (cacheObjectSize 0) with
      freeList := (2 * kernelBaseHeapAddr + slabDataOffset + cacheObjectSize 0) :: free },
    { initSlab (2 * kernelBaseHeapAddr) (cacheObjectSize 0) with freeList := free }, rfl, ?_, rfl⟩
  rw [hslabs, popFree, hfree]

end Returns
end Kernel

/-- A small request, right after `init_kmalloc`. -/
theorem bootedCalls_block {size : Nat} (hle : size ≤ maxCacheSize) : ∃ s p k, bootedCalls.init s ∧
    Kernel.FreshHeap numCaches s.kernel.heap ∧ HeapStep s (.kmalloc size) ⟨k, [(p, size)]⟩ := by
  obtain ⟨s, hinit, hfresh, _, _, hlive⟩ := bootedCalls_init
  have hrunning := (HeapRunning.boot hinit).1
  have hroom : s.kernel.heap.currentHeapAddr ≤ kernelBaseHeapAddr + kernelHeapSize := by
    rw [hfresh.next]
    decide
  obtain ⟨p, k, hrun, hne⟩ := hrunning.pages.kmalloc_ok hrunning.slabs hle hroom (link 1)
  refine ⟨s, p, k, hinit, hfresh, ?_⟩
  rw [← hlive]
  exact .block (Nat.lt_of_le_of_lt hle (by decide)) hrun hne

/-- The largest sizes are rounded up to zero: right after `init_kmalloc` the block that
`kmalloc` returns starts at the end of the reserved heap, and the first slab is in it. -/
theorem bootedCalls_wrapped : ∃ s s', bootedCalls.init s ∧
    HeapStep s (.kmalloc 0xFFFFF001) s' ∧
    s'.live = [(kernelBaseHeapAddr + kernelHeapSize, 0xFFFFF001)] ∧
    ∃ t ∈ s'.kernel.heap.slabs 0, t.addr = 2 * kernelBaseHeapAddr := by
  obtain ⟨s, hinit, hfresh, _, _, hlive⟩ := bootedCalls_init
  obtain ⟨slab, _, haddr, hpop, _⟩ := hfresh.first
  have hlarge := hfresh.large
  have hrun := @Kernel.kmalloc_wrapped s.kernel _ 0xFFFFF001 _ (by decide) (by decide)
    (by rw [hlarge]; decide) hpop (by decide) 0
  refine ⟨s, _, hinit, .block (by decide) hrun (by rw [hlarge]; decide), ?_, slab, ?_, haddr⟩
  · rw [hlive, hlarge]
  · show slab ∈ (s.kernel.heap.setSlabs 0 [slab]).slabs 0
    rw [s.kernel.heap.setSlabs_self]
    exact List.mem_singleton_self _

/-- A page that is requested when its table is in memory fits. -/
theorem largeFits_page {s : HeapState}
    (hpage : LargePage s.kernel.heap.currentLargeHeapAddr) : LargeFits s (.kmalloc pageSize) := by
  intro _
  refine ⟨by decide, 1, ⟨by decide, fun hlt => absurd hlt (by decide)⟩, ?_⟩
  obtain ⟨_, hhigh, haligned⟩ := hpage
  simp only [pageSize] at haligned ⊢
  rw [kernelBaseHeapAddr_eq] at hhigh ⊢
  omega

/-- Two requests for a page, right after `init_kmalloc`. -/
theorem bootedCalls_pages : ∃ s s₁ s₂, bootedCalls.init s ∧
    HeapStep s (.kmalloc pageSize) s₁ ∧ HeapStep s₁ (.kmalloc pageSize) s₂ ∧
    LargeFits s (.kmalloc pageSize) ∧ LargeFits s₁ (.kmalloc pageSize) ∧
    s₂.kernel.heap.currentHeapAddr ≤ kernelBaseHeapAddr + kernelHeapSize ∧ s₁.live = [(kernelBaseHeapAddr + kernelHeapSize, pageSize)] ∧
    s₂.live = [(kernelBaseHeapAddr + kernelHeapSize + pageSize, pageSize),
      (kernelBaseHeapAddr + kernelHeapSize, pageSize)] := by
  obtain ⟨s, hinit, hfresh, hpmm, hstep, hlive⟩ := bootedCalls_init
  have hrunning := (HeapRunning.boot hinit).1
  obtain ⟨slab, slab', _, hpop, hpop'⟩ := hfresh.first
  have hlarge := hfresh.large
  have hpage : LargePage s.kernel.heap.currentLargeHeapAddr := by
    rw [hlarge]
    exact ⟨Nat.le_refl _, by decide, by decide⟩
  have htable : isPagePresent (s.kernel.pdeOf s.kernel.heap.currentLargeHeapAddr) = true := by
    have hboot : isPagePresent (bootKernel.entryAt bootKernel.dirFrame 16) = true := by
      rw [bootKernel_entryAt]
      decide
    rw [Kernel.pdeOf, hlarge, hstep.dirFrame]
    exact (hstep.tables 16 (by decide) hboot).1
  obtain ⟨k₁, hrun₁, hpmm₁, hheap₁⟩ := hrunning.pages.kmallocPage_ok hrunning.slabs hpage htable
    (by rw [hpmm]; decide) hpop (by decide) 0
  have hfits := largeFits_page hpage
  have hstep₁ : HeapStep s (.kmalloc pageSize)
      ⟨k₁, (s.kernel.heap.currentLargeHeapAddr, pageSize) :: s.live⟩ :=
    .block (by decide) hrun₁ (by rw [hlarge]; decide)
  have hrunning₁ := (hrunning.step hfits hstep₁).2
  have hlarge₁ : k₁.heap.currentLargeHeapAddr = kernelBaseHeapAddr + kernelHeapSize + pageSize := by
    rw [hheap₁]
    show s.kernel.heap.currentLargeHeapAddr + pageSize = _
    rw [hlarge]
  have hpage₁ : LargePage k₁.heap.currentLargeHeapAddr := by
    rw [hlarge₁]
    exact ⟨by decide, by decide, by decide⟩
  have htable₁ : isPagePresent (k₁.pdeOf k₁.heap.currentLargeHeapAddr) = true := by
    -- the table of the first block's page
    have hblock : InBlock k₁.heap s.kernel.heap.currentLargeHeapAddr := by
      rw [hheap₁]
      refine ⟨_, List.mem_cons_self, 0, (by decide : 0 < alignedSize pageSize / pageSize), ?_⟩
      rw [Nat.zero_mul, Nat.add_zero]
    obtain ⟨f, hf⟩ := (hrunning₁.pages.mapped _ hpage).mp hblock
    have hpde := ((Kernel.translate_eq_some hrunning₁.pages.running.translate_on).mp hf).1
    rw [Kernel.pdeOf, hlarge₁]
    rw [Kernel.pdeOf, hlarge] at hpde
    exact hpde
  obtain ⟨k₂, hrun₂, _, hheap₂⟩ := hrunning₁.pages.kmallocPage_ok hrunning₁.slabs hpage₁ htable₁
    (by rw [hpmm₁, hpmm]; decide)
    (show popFree (k₁.heap.slabs 0) =
      some (2 * kernelBaseHeapAddr + slabDataOffset + cacheObjectSize 0, [slab']) by
        rw [hheap₁]; exact hpop') (by decide) 0
  refine ⟨s, _, _, hinit, hstep₁, .block (by decide) hrun₂ (by rw [hlarge₁]; decide), hfits,
    largeFits_page hpage₁, ?_, ?_, ?_⟩
  · -- neither call made a slab
    rw [hheap₂]
    show k₁.heap.currentHeapAddr ≤ _
    rw [hheap₁]
    show s.kernel.heap.currentHeapAddr ≤ _
    rw [hfresh.next]
    decide
  · rw [hlive, hlarge]
  · rw [hlive, hlarge, hlarge₁]

end MyOs
