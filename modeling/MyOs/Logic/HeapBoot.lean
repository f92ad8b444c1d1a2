import MyOs.Logic.HeapRun

/-!
# The heap after `init_kmalloc`

`HeapBoot` is the state `pmm_init` and `vmm_init` are to leave: a directory whose
unused entries are absent, the frames of the heap reserved, and no page mapped where
the large blocks will be. `init_kmalloc` makes one slab for each cache. The table of
the first one may be missing: then its queue node takes a slab of its own, which is
lost when the first cache's list is set.
-/

namespace MyOs

/-- The state `init_kmalloc` is called in. -/
structure HeapBoot (k : Kernel) : Prop where
  before : BeforeInitKmalloc k
  pages : k.PagesArea fun _ => False
  queue : k.pageFifoQueue = []

/-- The heap from `init_kmalloc` on, in a kernel that was booted so. -/
def bootedCalls : TSys HeapState HeapCall where
  init s := ∃ k depth, HeapBoot k ∧ initKmalloc (link (depth + 1)) k = .ok ((), s.kernel) ∧
    s.live = []
  step := HeapStep

namespace Kernel

/-- Before the slab of cache `i` is made. -/
structure InitAt (i : Nat) (k : Kernel) : Prop where
  pages : k.PagesArea fun _ => False
  layout : HeapLayout k.heap
  nodes : ∀ n ∈ k.pageFifoQueue, SmallObject n.addr
  records : k.heap.largeAllocations = []
  mapped : ∀ j, ∀ s ∈ k.heap.slabs j, k.translate s.addr = some (s.addr - kernelBaseHeapAddr)
  empty : ∀ j, i ≤ j → k.heap.slabs j = []
  next : k.heap.currentHeapAddr ≤ kernelBaseHeapAddr + (i + 1) * pageSize
  table : isPagePresent (k.entryAt k.dirFrame 32) = true ∨
    i = 0 ∧ k.heap.currentHeapAddr = kernelBaseHeapAddr

section Init

variable {k k' : Kernel} {M : Nat → Prop} {depth i size : Nat} {slab : Slab}

/-- Moving `current_heap_addr` on. -/
theorem slabTaken_heap (k : Kernel) : k.slabTaken.heap =
    { k.heap with currentHeapAddr := u32 (k.heap.currentHeapAddr + pageSize) } := by
  unfold slabTaken
  rfl

theorem slabTaken_lists (k : Kernel) : k.slabTaken.heap.slabs = k.heap.slabs ∧
    k.slabTaken.heap.currentLargeHeapAddr = k.heap.currentLargeHeapAddr ∧
      k.slabTaken.heap.largeAllocations = k.heap.largeAllocations ∧
      k.slabTaken.pageFifoQueue = k.pageFifoQueue := by
  unfold slabTaken
  exact ⟨rfl, rfl, rfl, rfl⟩

theorem slabTaken_layout (hl : HeapLayout k.heap)
    (hroom : k.heap.currentHeapAddr ≤ kernelBaseHeapAddr + kernelHeapSize) :
    k.heap.Placed k.slabTaken.heap ∧ HeapLayout k.slabTaken.heap := by
  obtain ⟨hslabs, hlarge, hrecords, _⟩ := k.slabTaken_lists
  have hplaced : k.heap.Placed k.slabTaken.heap := by
    refine ⟨hroom, ?_⟩
    rw [slabTaken_heap]
    exact (nextSlab_place hroom).2
  exact ⟨hplaced, hl.placed hplaced hslabs ⟨hlarge, hrecords⟩⟩

/-- A slab is made at the next page. -/
theorem PagesArea.createSlab (ha : k.PagesArea M) (hl : HeapLayout k.heap)
    (hnodes : ∀ n ∈ k.pageFifoQueue, SmallObject n.addr)
    (hrecords : ∀ a ∈ k.heap.largeAllocations, SmallObject a.node)
    (hrun : createSlab (link (depth + 1)) size k = .ok (slab, k')) :
    slab = initSlab k.nextSlab size ∧
      k.heap.currentHeapAddr ≤ kernelBaseHeapAddr + kernelHeapSize ∧
      k.slabTaken.PageMapped k.nextSlab k.heap.currentHeapAddr k' := by
  rw [MyOs.createSlab, Prog.get_bind_apply] at hrun
  by_cases hroom : k.heap.currentHeapAddr ≤ kernelBaseHeapAddr + kernelHeapSize
  · rw [if_pos hroom, Prog.modify_bind_apply] at hrun
    obtain ⟨_, k₁, hmap, hret⟩ := Prog.bind_eq_ok.mp hrun
    injection hret with hret
    injection hret with hslab hk
    subst hk
    have hsame := k.slabTaken_same
    have hpmm := k.slabTaken_pmm
    have ha' : k.slabTaken.PagesArea M := ha.step (hsame.areaStep (used_of_pmm hpmm))
      (fun _ _ hf => hf) (hsame.running hpmm ha.running)
    obtain ⟨_, _, hlists, hqueue⟩ := k.slabTaken_lists
    have hready := ha'.mapReady_of (slabTaken_layout hl hroom).2 (by rw [hqueue]; exact hnodes)
      (by rw [hlists]; exact hrecords)
    have hready₀ := ha.mapReady_of hl hnodes hrecords
    obtain ⟨_, hlt, hindex, haligned⟩ := hready₀.placed.nextSlab_eq hroom
    have hcur : k.heap.currentHeapAddr < 2 ^ 32 := by
      rw [kernelBaseHeapAddr_eq, kernelHeapSize_eq] at hroom
      omega
    refine ⟨hslab.symm, hroom, hready.mapPage hlt haligned (by rw [hindex]; decide) ?_ hl.next_aligned hcur
      (by decide) (.inr hindex) hmap⟩
    rw [hsame.dir]
    exact (hready₀.slab_off hroom).symm
  · rw [if_neg hroom] at hrun
    cases hrun

/-- The lists once the slab of cache `i` is set, when its page had a table. -/
theorem grows_first (hl : HeapLayout k.heap) (hempty : k.heap.slabs i = [])
    (hroom : k.heap.currentHeapAddr ≤ kernelBaseHeapAddr + kernelHeapSize) :
    HeapLayout (k.slabTaken.heap.setSlabs i [initSlab k.nextSlab (cacheObjectSize i)]) := by
  obtain ⟨hslabs, hlarge, hrecords, _⟩ := k.slabTaken_lists
  obtain ⟨hplaced, _⟩ := slabTaken_layout hl hroom
  generalize k.slabTaken.heap = h at hslabs hlarge hrecords hplaced
  obtain ⟨hnext, hlarge', hrecords'⟩ := h.setSlabs_rest i [initSlab k.nextSlab (cacheObjectSize i)]
  have hplaced' : k.heap.Placed (h.setSlabs i [initSlab k.nextSlab (cacheObjectSize i)]) :=
    ⟨hroom, hnext.trans hplaced.next⟩
  refine hl.grows (i := i) ⟨⟨hlarge'.trans hlarge, hrecords'.trans hrecords⟩, .inr hplaced',
    fun j s hs => ?_, fun j => ?_⟩
  · by_cases hj : j = i
    · rw [hj, h.setSlabs_self] at hs
      rw [List.mem_singleton.mp hs]
      exact .inr ⟨hj, hplaced', rfl, List.Sublist.refl _⟩
    · rw [h.setSlabs_ne hj, hslabs] at hs
      exact .inl ⟨s, hs, rfl, List.Sublist.refl _⟩
  · by_cases hj : j = i
    · rw [hj, h.setSlabs_self, hempty]
      exact .inr ⟨hplaced', List.Sublist.refl _⟩
    · rw [h.setSlabs_ne hj, hslabs]
      exact .inl (List.Sublist.refl _)

/-- Of the heap's pages only the slab's is mapped anew, and maybe that of a slab for
the queue node. -/
theorem InitAt.pages_mapped (h : k.InitAt i) {f : Nat}
    (hroom : k.heap.currentHeapAddr ≤ kernelBaseHeapAddr + kernelHeapSize)
    (hmap : k.slabTaken.PageMapped k.nextSlab f k') : k'.PagesArea (fun _ => False) ∧
      ∀ j, ∀ s ∈ k.heap.slabs j, k'.translate s.addr = some (s.addr - kernelBaseHeapAddr) := by
  obtain ⟨hslabs, _, _, _⟩ := k.slabTaken_lists
  obtain ⟨_, hl'⟩ := slabTaken_layout h.layout hroom
  have hsame := k.slabTaken_same
  have hstep := (hsame.areaStep (used_of_pmm k.slabTaken_pmm)).trans hmap.step
  have hlow : 2 * kernelBaseHeapAddr ≤ k.nextSlab := by
    have hlow := h.layout.next_low
    rw [nextSlab, h.layout.nextSlab_eq]
    omega
  have hlow' : 2 * kernelBaseHeapAddr ≤ k.slabTaken.nextSlab := by
    have hlow := hl'.next_low
    rw [nextSlab, hl'.nextSlab_eq]
    omega
  refine ⟨h.pages.step hstep (fun v hv => ?_) hmap.running, fun j s hs => ?_⟩
  · rintro (hf | hpage | hpage)
    · exact hf
    · exact h.layout.large_ne_slab hv hlow hpage.symm
    · exact hl'.large_ne_slab hv hlow' hpage.2.symm
  · obtain ⟨hlt, hindex⟩ := h.layout.slab_lt hs
    rw [hstep.translate s.addr hlt (by rw [hindex]; decide) ?_]
    · exact h.mapped j s hs
    · rintro (hf | hpage | hpage)
      · exact hf
      · exact h.layout.slab_page_ne hs hpage
      · exact hl'.slab_page_ne (by rw [hslabs]; exact hs) hpage.2

/-- Where the next slab is. -/
theorem InitAt.nextSlab_at (h : k.InitAt i)
    (hroom : k.heap.currentHeapAddr ≤ kernelBaseHeapAddr + kernelHeapSize) :
    k.nextSlab = kernelBaseHeapAddr + k.heap.currentHeapAddr ∧
      getDirectoryIndex k.nextSlab = 32 := by
  have hnext : k.nextSlab = kernelBaseHeapAddr + k.heap.currentHeapAddr := by
    rw [nextSlab, h.layout.nextSlab_eq]
  have hlow := h.layout.next_low
  refine ⟨hnext, ?_⟩
  rw [getDirectoryIndex_eq]
  rw [kernelBaseHeapAddr_eq] at hlow hnext
  rw [kernelBaseHeapAddr_eq, kernelHeapSize_eq] at hroom
  omega

/-- Cache `i` set to the slab that has just been made. -/
def firstSlabSet (k : Kernel) (i slab : Nat) : Kernel :=
  { k with heap := k.heap.setSlabs i [initSlab slab (cacheObjectSize i)] }

/-- The slab of cache `i` is mapped and set: its table is there, and so are the slabs of
the caches before. -/
theorem InitAt.slab_set (h : k.InitAt i)
    (hroom : k.heap.currentHeapAddr ≤ kernelBaseHeapAddr + kernelHeapSize)
    (hmap : k.slabTaken.PageMapped k.nextSlab k.heap.currentHeapAddr k')
    (hlayout : HeapLayout (k'.heap.setSlabs i [initSlab k.nextSlab (cacheObjectSize i)]))
    (hnodes : ∀ n ∈ k'.pageFifoQueue, SmallObject n.addr)
    (hrecords : k'.heap.largeAllocations = [])
    (hothers : ∀ j, j ≠ i → k'.heap.slabs j = k.heap.slabs j)
    (hbound : k'.heap.currentHeapAddr ≤ kernelBaseHeapAddr + (i + 1 + 1) * pageSize) :
    InitAt (i + 1) (k'.firstSlabSet i k.nextSlab) := by
  obtain ⟨hpages, hold⟩ := h.pages_mapped hroom hmap
  obtain ⟨hnext, hindex⟩ := h.nextSlab_at hroom
  obtain ⟨hcur, _, hrecords'⟩ :=
    k'.heap.setSlabs_rest i [initSlab k.nextSlab (cacheObjectSize i)]
  have hsame : k'.SameWalks (k'.firstSlabSet i k.nextSlab) := ⟨rfl, rfl, rfl, rfl⟩
  have hpde := ((translate_eq_some hpages.running.translate_on).mp hmap.mapped).1
  rw [pdeOf, hindex] at hpde
  refine
    { pages := hpages.setHeap _
      layout := hlayout
      nodes := hnodes
      records := hrecords'.trans hrecords
      mapped := fun j s hs => ?_
      empty := fun j hj => ?_
      next := hcur.le.trans hbound
      table := .inl (by rw [hsame.dirFrame, hsame.entryAt]; exact hpde) }
  · rw [hsame.translate]
    by_cases hj : j = i
    · rw [hj, firstSlabSet, Heap.setSlabs_self] at hs
      rw [List.mem_singleton.mp hs]
      change k'.translate k.nextSlab = some (k.nextSlab - kernelBaseHeapAddr)
      rw [hmap.mapped, hnext, Nat.add_sub_cancel_left]
    · rw [firstSlabSet, Heap.setSlabs_ne _ hj, hothers j hj] at hs
      exact hold j s hs
  · rw [firstSlabSet, Heap.setSlabs_ne _ (by omega), hothers j (by omega)]
    exact h.empty j (by omega)

/-- The page of the slab had a table. -/
theorem InitAt.slab_same (h : k.InitAt i)
    (hroom : k.heap.currentHeapAddr ≤ kernelBaseHeapAddr + kernelHeapSize)
    (hmap : k.slabTaken.PageMapped k.nextSlab k.heap.currentHeapAddr k')
    (hheap : k'.heap = k.slabTaken.heap) (hfifo : k'.pageFifoQueue = k.slabTaken.pageFifoQueue) :
    InitAt (i + 1) (k'.firstSlabSet i k.nextSlab) := by
  obtain ⟨hslabs, _, hlists, hqueue⟩ := k.slabTaken_lists
  obtain ⟨hplaced, _⟩ := slabTaken_layout h.layout hroom
  have hbound := h.next
  have hmul : (i + 1 + 1) * pageSize = (i + 1) * pageSize + pageSize := Nat.succ_mul _ _
  refine h.slab_set hroom hmap ?_ ?_ ?_ (fun j _ => by rw [hheap, hslabs]) ?_
  · rw [hheap]
    exact grows_first h.layout (h.empty i (Nat.le_refl i)) hroom
  · rw [hfifo, hqueue]
    exact h.nodes
  · rw [hheap, hlists]
    exact h.records
  · rw [hheap, hplaced.next]
    omega

/-- The page of the slab had no table: this is the first slab, and the slab of the node
is dropped. -/
theorem InitAt.slab_queued {o : Nat} (h : k.InitAt i)
    (hroom : k.heap.currentHeapAddr ≤ kernelBaseHeapAddr + kernelHeapSize)
    (hmap : k.slabTaken.PageMapped k.nextSlab k.heap.currentHeapAddr k')
    (habsent : isPagePresent (k.slabTaken.pdeOf k.nextSlab) = false)
    (htake : k.slabTaken.heap.Take 0 o k'.heap)
    (hfifo : k'.pageFifoQueue =
      k.slabTaken.pageFifoQueue ++ [⟨o, getPageTableVirAddr (getDirectoryIndex k.nextSlab)⟩]) :
    InitAt (i + 1) (k'.firstSlabSet i k.nextSlab) := by
  obtain ⟨hslabs, _, hlists, hqueue⟩ := k.slabTaken_lists
  obtain ⟨hplaced, hl'⟩ := slabTaken_layout h.layout hroom
  obtain ⟨hnext, hindex⟩ := h.nextSlab_at hroom
  obtain ⟨hi, hcurrent⟩ : i = 0 ∧ k.heap.currentHeapAddr = kernelBaseHeapAddr := by
    refine h.table.resolve_left fun hpresent => ?_
    rw [k.slabTaken_same.pdeOf, pdeOf, hindex, hpresent] at habsent
    cases habsent
  have hempty : ∀ j, k.heap.slabs j = [] := fun j => h.empty j (by omega)
  have hcur := (htake.newSlab (by rw [hslabs, hempty 0]; rfl)).next
  have hother : ∀ j, j ≠ i → k'.heap.slabs j = [] := by
    intro j hj
    refine List.eq_nil_iff_forall_not_mem.mpr fun s hs => ?_
    rcases htake.slabs s hs with ⟨t, ht, _, _⟩ | ⟨hj', _, _, _⟩
    · rw [hslabs, hempty j] at ht
      cases ht
    · omega
  have haligned := h.layout.next_aligned
  refine h.slab_set hroom hmap ?_ (fun n hn => ?_) ?_ (fun j hj => ?_) ?_
  · refine (hl'.take htake).single hother ⟨?_, ?_, ?_⟩ (List.Sublist.refl _)
    · change k.nextSlab % pageSize = 0
      rw [hnext, hcurrent]
      decide
    · change 2 * kernelBaseHeapAddr ≤ k.nextSlab
      rw [hnext]
      omega
    · change k.nextSlab < kernelBaseHeapAddr + k'.heap.currentHeapAddr
      rw [hnext, hcur, hplaced.next]
      simp only [pageSize]
      omega
  · rw [hfifo, hqueue] at hn
    rcases List.mem_append.mp hn with hfirst | hlast
    · exact h.nodes n hfirst
    · rw [List.mem_singleton.mp hlast]
      exact hl'.object_small htake
  · rw [htake.large.2, hlists]
    exact h.records
  · rw [hother j hj, hempty j]
  · rw [hcur, hplaced.next, hcurrent, hi]
    simp only [pageSize]
    omega

/-- One turn of the loop in `init_kmalloc`. -/
theorem initAt_turn (depth i : Nat) : Prog.Triple (InitAt i) (do
      let slab ← MyOs.createSlab (link (depth + 1)) (cacheObjectSize i)
      Prog.modify fun k => { k with heap := k.heap.setSlabs i [slab] }
      if slab.addr = 0 then
        Prog.stop (.panic ("Failed to allocate memory for kmalloc, what piece of shit computer " ++
          "do you have?\nIts probably my fault :)"))
      else pure ()) fun _ => InitAt (i + 1) := by
  intro k h _ k' hrun
  obtain ⟨slab, k₁, hslab, hset⟩ := Prog.bind_eq_ok.mp hrun
  have hrecords : ∀ a ∈ k.heap.largeAllocations, SmallObject a.node := by
    rw [h.records]
    intro a ha
    cases ha
  obtain ⟨rfl, hroom, hmap⟩ := h.pages.createSlab h.layout h.nodes hrecords hslab
  rw [Prog.modify_bind_apply] at hset
  split at hset
  · cases hset
  · cases hset
    cases hmap.lists with
    | same hheap hqueue => exact h.slab_same hroom hmap hheap hqueue
    | queued habsent htake hqueue _ => exact h.slab_queued hroom hmap habsent htake hqueue

/-- With the table in memory a turn returns, and the slab is the only one of its cache. -/
theorem InitAt.turn_ok (h : k.InitAt i) (hi : i < numCaches)
    (htable : isPagePresent (k.entryAt k.dirFrame 32) = true) (ext : Ext) :
    ∃ k', (do
      let slab ← MyOs.createSlab ext (cacheObjectSize i)
      Prog.modify fun k => { k with heap := k.heap.setSlabs i [slab] }
      if slab.addr = 0 then
        Prog.stop (.panic ("Failed to allocate memory for kmalloc, what piece of shit computer " ++
          "do you have?\nIts probably my fault :)"))
      else pure () : Prog Kernel Unit) k = .ok ((), k') ∧
      k'.heap = k.slabTaken.heap.setSlabs i [initSlab k.nextSlab (cacheObjectSize i)] ∧
      k'.pmm = k.pmm ∧ k.TableStep k' := by
  have hnext := h.next
  have hroom : k.heap.currentHeapAddr ≤ kernelBaseHeapAddr + kernelHeapSize := by
    rw [kernelHeapSize_eq]
    simp only [numCaches] at hi
    simp only [pageSize] at hnext
    omega
  have hplaced : k.HeapPlaced := ⟨h.layout.next_low, h.layout.next_aligned⟩
  obtain ⟨heq, _, hindex, _⟩ := hplaced.nextSlab_eq hroom
  have hpde : isPagePresent (k.pdeOf k.nextSlab) = true := by
    rw [pdeOf, hindex]
    exact htable
  have hr := h.pages.running
  have hrun := @DirectoryIn.createSlab ext _ _ hr.dir (hr.slabReady hplaced hroom hpde) (cacheObjectSize i)
  have hset := hr.slabMapped_set hplaced hroom hpde
  have hstep := (k.slabTaken_same.areaStep (used_of_pmm k.slabTaken_pmm)).toTableStep.trans
    hset.areaStep.toTableStep
  have hpmm := k.slabMapped_pmm k.dirFrame
  have hheap : (k.slabMapped k.dirFrame).heap = k.slabTaken.heap := setMem_heap _ _
  generalize k.slabMapped k.dirFrame = mapped at hrun hstep hpmm hheap
  have hnull : (initSlab k.nextSlab (cacheObjectSize i)).addr ≠ 0 := by
    show k.nextSlab ≠ 0
    omega
  refine ⟨{ mapped with heap := mapped.heap.setSlabs i [initSlab k.nextSlab (cacheObjectSize i)] },
    ?_, ?_, hpmm, hstep.trans ?_⟩
  · rw [Prog.bind_of_ok hrun, Prog.modify_bind_apply, if_neg hnull]
    rfl
  · rw [hheap]
  · have hsame : mapped.SameWalks { mapped with
        heap := mapped.heap.setSlabs i [initSlab k.nextSlab (cacheObjectSize i)] } :=
      ⟨rfl, rfl, rfl, rfl⟩
    exact (hsame.areaStep fun _ hg => hg).toTableStep

/-- The heap after the slabs of the first `i` caches were made in a row. -/
structure FreshHeap (i : Nat) (h : Heap) : Prop where
  slabs : ∀ j, h.slabs j = if j < i then
    [initSlab (2 * kernelBaseHeapAddr + j * pageSize) (cacheObjectSize j)] else []
  next : h.currentHeapAddr = kernelBaseHeapAddr + i * pageSize
  large : h.currentLargeHeapAddr = kernelBaseHeapAddr + kernelHeapSize
  records : h.largeAllocations = []

theorem FreshHeap.turn (h : FreshHeap i k.heap) (hi : i < numCaches) :
    FreshHeap (i + 1) (k.slabTaken.heap.setSlabs i [initSlab k.nextSlab (cacheObjectSize i)]) := by
  obtain ⟨hslabs, hlarge, hrecords, _⟩ := k.slabTaken_lists
  have hnext := h.next
  have hroom : k.heap.currentHeapAddr ≤ kernelBaseHeapAddr + kernelHeapSize := by
    rw [kernelHeapSize_eq]
    simp only [numCaches] at hi
    simp only [pageSize] at hnext
    omega
  obtain ⟨hplace, hmove⟩ := nextSlab_place hroom
  have hcur : k.slabTaken.heap.currentHeapAddr = k.heap.currentHeapAddr + pageSize := by
    rw [slabTaken_heap]
    exact hmove
  have haddr : k.nextSlab = 2 * kernelBaseHeapAddr + i * pageSize := by
    rw [nextSlab, hplace, hnext]
    omega
  generalize k.slabTaken.heap = h' at hslabs hlarge hrecords hcur
  obtain ⟨hrest, hrest', hrest''⟩ := h'.setSlabs_rest i [initSlab k.nextSlab (cacheObjectSize i)]
  refine ⟨fun j => ?_, ?_, ?_, ?_⟩
  · by_cases hj : j = i
    · rw [hj, h'.setSlabs_self, if_pos (Nat.lt_succ_self i), haddr]
    · rw [h'.setSlabs_ne hj, hslabs, h.slabs]
      by_cases hlt : j < i
      · rw [if_pos hlt, if_pos (by omega)]
      · rw [if_neg hlt, if_neg (by omega)]
  · rw [hrest, hcur, hnext, Nat.succ_mul, Nat.add_assoc]
  · rw [hrest', hlarge, h.large]
  · rw [hrest'', hrecords, h.records]

end Init
end Kernel

/-- `init_kmalloc` starts its loop with an empty heap. -/
theorem HeapBoot.start {k : Kernel} (h : HeapBoot k) : Kernel.InitAt 0 { k with heap := { k.heap with
    currentHeapAddr := kernelBaseHeapAddr
    currentLargeHeapAddr := kernelBaseHeapAddr + kernelHeapSize } } := by
  have hlist : ∀ i, k.heap.slabs i = [] := h.before.slabs
  have hlarge : k.heap.largeAllocations = [] := h.before.large
  have hno : ∀ i, ∀ s ∈ k.heap.slabs i, False := by
    intro i s hs
    rw [hlist] at hs
    cases hs
  refine
    { pages := h.pages.setHeap _
      layout := ?_
      nodes := fun n hn => ?_
      records := hlarge
      mapped := fun j s hs => (hno j s hs).elim
      empty := fun j _ => hlist j
      next := Nat.le_add_right _ _
      table := .inr ⟨rfl, rfl⟩ }
  · refine
      { next_low := Nat.le_refl _
        next_high := by
          rw [Nat.add_assoc]
          exact Nat.le_add_right _ _
        next_aligned := (by decide : kernelBaseHeapAddr % pageSize = 0)
        slab_page := fun i s hs => (hno i s hs).elim
        free := fun i s hs => (hno i s hs).elim
        slabs_nodup := fun i => by
          show ((k.heap.slabs i).map Slab.addr).Nodup
          rw [hlist]
          exact List.nodup_nil
        slabs_apart := fun i j _ s hs => (hno i s hs).elim
        large_low := Nat.le_refl _
        large_high := (by decide : kernelBaseHeapAddr + kernelHeapSize ≤ 2 * kernelBaseHeapAddr)
        large_aligned := (by decide : (kernelBaseHeapAddr + kernelHeapSize) % pageSize = 0)
        block := fun a ha => ?_
        blocks_apart := ?_ }
    · have ha' : a ∈ k.heap.largeAllocations := ha
      rw [hlarge] at ha'
      cases ha'
    · show k.heap.largeAllocations.Pairwise _
      rw [hlarge]
      exact List.Pairwise.nil
  · have hn' : n ∈ k.pageFifoQueue := hn
    rw [h.queue] at hn'
    cases hn'

/-- After `init_kmalloc` the heap's part of the address space is there, with room for
slabs. -/
theorem HeapBoot.init {k k' : Kernel} {depth : Nat} (h : HeapBoot k)
    (hrun : initKmalloc (link (depth + 1)) k = .ok ((), k')) : k'.InitAt numCaches := by
  rw [initKmalloc, Prog.modify_bind_apply] at hrun
  exact Prog.Triple.forLoop (Kernel.initAt_turn depth) numCaches 0 _ h.start _ _ hrun

/-- When the slabs' table is in memory `init_kmalloc` returns. -/
theorem HeapBoot.init_ok {k : Kernel} (h : HeapBoot k)
    (htable : isPagePresent (k.entryAt k.dirFrame 32) = true) (depth : Nat) :
    ∃ k', initKmalloc (link (depth + 1)) k = .ok ((), k') ∧ Kernel.FreshHeap numCaches k'.heap ∧
      k'.pmm = k.pmm ∧ k.TableStep k' := by
  rw [initKmalloc, Prog.modify_bind_apply]
  have hstart := h.start
  have hfresh : Kernel.FreshHeap 0 { k.heap with
      currentHeapAddr := kernelBaseHeapAddr
      currentLargeHeapAddr := kernelBaseHeapAddr + kernelHeapSize } := by
    refine ⟨fun j => ?_, by rw [Nat.zero_mul, Nat.add_zero], rfl, h.before.large⟩
    rw [if_neg (Nat.not_lt_zero j)]
    exact h.before.slabs j
  obtain ⟨k₀, hk₀⟩ : ∃ k₀ : Kernel, k₀ = { k with heap := { k.heap with
      currentHeapAddr := kernelBaseHeapAddr
      currentLargeHeapAddr := kernelBaseHeapAddr + kernelHeapSize } } := ⟨_, rfl⟩
  have hsame : k.SameWalks k₀ := by rw [hk₀]; exact ⟨rfl, rfl, rfl, rfl⟩
  have hpmm : k₀.pmm = k.pmm := by rw [hk₀]
  have hheap : k₀.heap = { k.heap with
      currentHeapAddr := kernelBaseHeapAddr
      currentLargeHeapAddr := kernelBaseHeapAddr + kernelHeapSize } := by rw [hk₀]
  rw [← hheap] at hfresh
  rw [← hk₀] at hstart ⊢
  have htable₀ : isPagePresent (k₀.entryAt k₀.dirFrame 32) = true := by
    rw [hsame.dirFrame, hsame.entryAt]
    exact htable
  refine Exists.imp (fun k' hk' => ⟨hk'.1, hk'.2.2.2.1, hk'.2.2.2.2.1,
    (hsame.areaStep (Kernel.used_of_pmm hpmm)).toTableStep.trans hk'.2.2.2.2.2⟩)
    (Prog.forLoop_ok (P := fun i s => s.InitAt i ∧
      isPagePresent (s.entryAt s.dirFrame 32) = true ∧ Kernel.FreshHeap i s.heap ∧
        s.pmm = k.pmm ∧ k₀.TableStep s) ?_ numCaches 0 k₀ (Nat.zero_add _)
      ⟨hstart, htable₀, hfresh, hpmm, .refl k₀⟩)
  rintro i s hi ⟨hat, hpresent, hheap', hsp, hstep⟩
  obtain ⟨s', hrun, hset, hsp', hstep'⟩ := hat.turn_ok hi hpresent (link (depth + 1))
  refine ⟨s', hrun, Kernel.initAt_turn depth i s hat _ _ hrun, ?_, ?_, hsp'.trans hsp,
    hstep.trans hstep'⟩
  · rw [hstep'.dirFrame]
    exact (hstep'.tables 32 (by decide) hpresent).1
  · rw [hset]
    exact hheap'.turn hi

/-- The first state of a run. -/
theorem HeapRunning.boot {s : HeapState} (h : bootedCalls.init s) : HeapRunning s ∧
    s.kernel.heap.currentHeapAddr ≤ kernelBaseHeapAddr + (numCaches + 1) * pageSize := by
  obtain ⟨k, depth, hboot, hrun, hlive⟩ := h
  have hinit := hboot.init hrun
  refine ⟨⟨hinit.pages.congr fun v _ => ?_, ?_, ?_⟩, hinit.next⟩
  · rw [InBlock, hinit.records]
    simp
  · exact
      { layout := hinit.layout
        nodes := hinit.nodes
        records := by
          rw [hinit.records]
          intro a ha
          cases ha
        table := hinit.table.resolve_right fun hfirst => absurd hfirst.1 (by decide)
        mapped := hinit.mapped }
  · rw [hlive]
    refine ⟨?_, ?_, ?_, ?_, List.Pairwise.nil⟩
    · intro b hb
      cases hb
    · intro b hb
      cases hb
    · rw [hinit.records]
      intro a ha
      cases ha
    · intro b hb
      cases hb

/-- What is reached from such a boot is reached from `init_kmalloc`. -/
theorem bootedCalls_reachable {s : HeapState} (h : bootedCalls.Reachable s) :
    heapCalls.Reachable s := by
  induction h with
  | init hinit =>
      obtain ⟨k, depth, hboot, hrun, hlive⟩ := hinit
      exact .init ⟨k, depth, hboot.before, hrun, hlive⟩
  | step _ hstep ih => exact .step ih hstep

/-! ## A machine that boots -/

/-- The directory at `0x100000`, with the tables of the large blocks and of the slabs. -/
def bootWords : List (Nat × Nat) := [(0x100FFC, 0x100003), (0x100040, 0x101003), (0x100080, 0x102003)]

/-- Every frame is used but `0x8000` and `0x9000`. -/
def bootPmm : Pmm := ⟨fun i => if i = 1 then 0xFC#8 else 0xFF#8, ⟨-1, -1⟩, 1⟩

def bootKernel : Kernel := { Kernel.ofWords 0x100000 bootWords with pmm := bootPmm }

theorem bootPmm_bit {n : Nat} (h : 16 ≤ n) : bootPmm.pmmBitmap.bit n = true := by
  have hlt : n % 8 < 8 := Nat.mod_lt _ (by decide)
  have hfull : ∀ j, j < 8 → (0xFF#8).getLsbD j = true := by decide
  show (if n / 8 = 1 then 0xFC#8 else 0xFF#8 : BitVec 8).getLsbD (n % 8) = true
  rw [if_neg (by omega)]
  exact hfull _ hlt

theorem bootWords_directory : Kernel.DirectoryWords bootWords 0x100000 := by decide

theorem bootKernel_dirFrame : bootKernel.dirFrame = 0x100000 :=
  (by decide : getFrameAddr 0x100000 = 0x100000)

theorem bootKernel_entryAt (i : Nat) : bootKernel.entryAt bootKernel.dirFrame i =
    (bootWords.lookup (0x100000 + 4 * i)).getD 0 := by
  rw [bootKernel_dirFrame]
  exact bootWords_directory.entryAt rfl i

/-- The tables there are. -/
theorem bootKernel_table {i : Nat} (h : isPagePresent (bootKernel.entryAt bootKernel.dirFrame i) = true) :
    (0x100000 + 4 * i, bootKernel.entryAt bootKernel.dirFrame i) ∈ bootWords := by
  have hword := @Kernel.DirectoryWords.mem_of_present _ _ bootKernel bootWords_directory rfl i
  rw [← bootKernel_dirFrame] at hword
  have := hword h
  rw [bootKernel_dirFrame] at this ⊢
  exact this

theorem bootKernel_running : bootKernel.Running :=
  bootWords_directory.running rfl bootKernel_dirFrame rfl
    (by decide : 0xFFFFF000 = getPageTableVirAddr recursivePageTableIndex)
    ⟨fun hhint => absurd hhint (by decide), by decide, by decide⟩
    (by decide : ∀ p ∈ bootWords, 0x100000 ≤ p.1 → p.1 < 0x100000 + pageSize →
      isPagePresent p.2 = true → bootPmm.pmmBitmap.bit (frameBit (getFrameAddr p.2)) = true)

/-- No page of a large block is mapped: the only table for them is empty. -/
theorem bootKernel_unmapped {v f : Nat} (hv : LargePage v) : bootKernel.translate v ≠ some f := by
  intro hmap
  obtain ⟨hlow, hhigh⟩ := hv.index
  obtain ⟨hpde, hpte, _⟩ := (Kernel.translate_eq_some rfl).mp hmap
  have hword := bootKernel_table hpde
  have hentries : ∀ p ∈ bootWords, 0x100040 ≤ p.1 → p.1 < 0x100080 → p = (0x100040, 0x101003) := by
    decide
  have hpair := hentries _ hword (by simp only; omega) (by simp only; omega)
  have hentry : bootKernel.pdeOf v = 0x101003 := congrArg Prod.snd hpair
  rw [Kernel.pteAddr, hentry, show getFrameAddr 0x101003 = 0x101000 by decide] at hpte
  have hindex := getTableIndex_lt v
  have hzero : bootKernel.mem.load32 (0x101000 + 4 * getTableIndex v) = 0 := by
    rcases @ByteStore.load32_ofWords_mem (0x101000 + 4 * getTableIndex v) bootWords (by omega)
      (by decide) with hzero | hmem
    · exact hzero
    · have hnone : ∀ p ∈ bootWords, 0x101000 ≤ p.1 → p.1 < 0x102000 → False := by decide
      exact (hnone _ hmem (by simp only; omega) (by simp only; omega)).elim
  rw [hzero] at hpte
  exact absurd hpte (by decide)

theorem bootKernel_boot : HeapBoot bootKernel where
  before := ⟨fun _ => rfl, rfl⟩
  queue := rfl
  pages :=
    { running := bootKernel_running
      unswapped := fun i _ => by
        rw [bootKernel_dirFrame]
        rcases @ByteStore.load32_ofWords_mem (0x100000 + 4 * i) bootWords (by omega) (by decide) with
          hzero | hmem
        · show isSwapped ((ByteStore.ofWords bootWords).load32 (0x100000 + 4 * i)) = false
          rw [hzero]
          decide
        · have hnone : ∀ p ∈ bootWords, isSwapped p.2 = false := by decide
          exact hnone _ hmem
      directory := .inr (by decide :
        2 * kernelBaseHeapAddr + kernelHeapSize + pageSize ≤ getPageTableVirAddr recursivePageTableIndex)
      reserved := fun g hg => by
        rw [Kernel.FrameUsed, frameBit_eq]
        apply bootPmm_bit
        have hlow := hg.1
        rw [kernelBaseHeapAddr_eq] at hlow
        omega
      tables := fun i _ hp hslab => by
        have hword := bootKernel_table hp
        have hnone : ∀ p ∈ bootWords, getFrameAddr p.2 < kernelBaseHeapAddr := by decide
        exact absurd hslab.1 (Nat.not_le.mpr (hnone _ hword))
      mapped := fun v hv => ⟨fun h => h.elim, fun ⟨f, hf⟩ => bootKernel_unmapped hv hf⟩
      frame := fun v f hv hf => (bootKernel_unmapped hv hf).elim
      frame_ne := fun u v f hu _ hf _ => (bootKernel_unmapped hu hf).elim }

/-- So a run can start: `init_kmalloc` returns, with one slab for each cache. -/
theorem bootedCalls_init : ∃ s, bootedCalls.init s ∧ Kernel.FreshHeap numCaches s.kernel.heap ∧
    s.kernel.pmm = bootPmm ∧ bootKernel.TableStep s.kernel ∧ s.live = [] := by
  have htable : isPagePresent (bootKernel.entryAt bootKernel.dirFrame 32) = true := by
    rw [bootKernel_entryAt]
    decide
  obtain ⟨k, hrun, hfresh, hpmm, hstep⟩ := bootKernel_boot.init_ok htable 0
  exact ⟨⟨k, []⟩, ⟨bootKernel, 0, bootKernel_boot, hrun, rfl⟩, hfresh, hpmm, hstep, rfl⟩

end MyOs
