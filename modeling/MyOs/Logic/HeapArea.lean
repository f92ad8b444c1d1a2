import MyOs.Logic.PageMapped
import MyOs.Logic.Unmapping

/-!
# The heap's part of the address space

The large blocks are mapped between the end of the reserved heap and twice its base,
page by page to frames of their own (`PagesArea`); the slabs are mapped above, each to
the frame `create_slab` took for it (`SlabsArea`). Taking an object, mapping a page
and unmapping one keep both.
-/

namespace MyOs

/-- A page where large blocks are. -/
def LargePage (v : Nat) : Prop :=
  kernelBaseHeapAddr + kernelHeapSize ≤ v ∧ v < 2 * kernelBaseHeapAddr ∧ v % pageSize = 0

/-- A frame reserved for the slabs. -/
def SlabFrame (f : Nat) : Prop := kernelBaseHeapAddr ≤ f ∧ f < kernelBaseHeapAddr + kernelHeapSize

theorem LargePage.lt {v : Nat} (h : LargePage v) : v < 2 ^ 32 := by
  have hlt := h.2.1
  rw [kernelBaseHeapAddr_eq] at hlt
  omega

theorem LargePage.index {v : Nat} (h : LargePage v) :
    16 ≤ getDirectoryIndex v ∧ getDirectoryIndex v < 32 := by
  obtain ⟨hlo, hhi, _⟩ := h
  rw [kernelBaseHeapAddr_eq] at hlo hhi
  rw [getDirectoryIndex_eq]
  omega

theorem LargePage.below {v : Nat} (h : LargePage v) :
    getDirectoryIndex v ≠ recursivePageTableIndex := by
  have hindex := h.index
  simp only [recursivePageTableIndex]
  omega

/-- Two of these pages are one when they are one page. -/
theorem LargePage.eq_of_page {u v : Nat} (hu : LargePage u) (hv : LargePage v)
    (h : u / pageSize = v / pageSize) : u = v := by
  have halign := hu.2.2
  have halign' := hv.2.2
  simp only [pageSize] at h halign halign'
  omega

namespace Kernel

/-- A frame of a large block's page. -/
structure BlockFrame (k : Kernel) (f : Nat) : Prop where
  low : 8 * pageSize ≤ f
  aligned : f % pageSize = 0
  lt : f < 2 ^ 32
  used : k.FrameUsed f
  unreserved : ¬ SlabFrame f
  not_table : ∀ i, i < 1024 → isPagePresent (k.entryAt k.dirFrame i) = true →
    getFrameAddr (k.entryAt k.dirFrame i) ≠ f

/-- A running kernel in which exactly the pages `M` of the large blocks are mapped,
each to a frame of its own. -/
structure PagesArea (k : Kernel) (M : Nat → Prop) : Prop where
  running : k.Running
  unswapped : ∀ i, i < 1024 → isSwapped (k.entryAt k.dirFrame i) = false
  directory : k.currentDirectory < kernelBaseHeapAddr + kernelHeapSize ∨
    2 * kernelBaseHeapAddr + kernelHeapSize + pageSize ≤ k.currentDirectory
  reserved : ∀ g, SlabFrame g → k.FrameUsed g
  tables : ∀ i, i < 1024 → isPagePresent (k.entryAt k.dirFrame i) = true →
    ¬ SlabFrame (getFrameAddr (k.entryAt k.dirFrame i))
  mapped : ∀ v, LargePage v → (M v ↔ ∃ f, k.translate v = some f)
  frame : ∀ v f, LargePage v → k.translate v = some f → k.BlockFrame f
  frame_ne : ∀ u v f, LargePage u → LargePage v → k.translate u = some f →
    k.translate v = some f → u = v

/-- The heap's lists, with the slabs mapped where `create_slab` maps them. -/
structure SlabsArea (k : Kernel) : Prop where
  layout : HeapLayout k.heap
  nodes : ∀ n ∈ k.pageFifoQueue, SmallObject n.addr
  records : ∀ a ∈ k.heap.largeAllocations, SmallObject a.node
  table : isPagePresent (k.entryAt k.dirFrame 32) = true
  mapped : ∀ i, ∀ s ∈ k.heap.slabs i, k.translate s.addr = some (s.addr - kernelBaseHeapAddr)

end Kernel

/-! ## What the lists promise -/

theorem SmallObject.not_page {o : Nat} (h : SmallObject o) : o % pageSize ≠ 0 := by
  have hmod := h.2
  simp only [pageSize]
  omega

theorem slabObjects_small {i addr o : Nat} (hlow : 2 * kernelBaseHeapAddr ≤ addr)
    (haligned : addr % pageSize = 0) (h : o ∈ slabObjects i addr) : SmallObject o := by
  obtain ⟨n, _, rfl⟩ := List.mem_map.mp h
  have hsize : n * cacheObjectSize i = n * 2 ^ i * 16 := by
    rw [cacheObjectSize, Nat.mul_comm 16, Nat.mul_assoc]
  rw [SmallObject, hsize]
  simp only [pageSize, slabDataOffset] at haligned ⊢
  omega

section Layout

variable {h : Heap}

theorem HeapLayout.free_small (hl : HeapLayout h) {i o : Nat} {s : Slab} (hs : s ∈ h.slabs i)
    (ho : o ∈ s.freeList) : SmallObject o := by
  obtain ⟨haligned, hlow, _⟩ := hl.slab_page i s hs
  exact slabObjects_small hlow haligned ((hl.free i s hs).subset ho)

theorem HeapLayout.shape (hl : HeapLayout h) : HeapShape h where
  heap_low := hl.next_low
  heap_aligned := hl.next_aligned
  objects := fun _ _ hs _ ho => hl.free_small hs ho
  large_next := hl.large_aligned
  large := fun a ha => (hl.block a ha).2.1

theorem HeapLayout.sane (hl : HeapLayout h) (hrecords : ∀ a ∈ h.largeAllocations, SmallObject a.node) :
    HeapSane h where
  heap_aligned := hl.next_aligned
  large_lt := by
    have hhigh := hl.large_high
    rw [kernelBaseHeapAddr_eq] at hhigh
    omega
  large_aligned := fun a ha hne => by
    obtain ⟨_, haligned, _, _, hend⟩ := hl.block a ha
    exact ⟨haligned, by omega⟩
  node_small := fun a ha => (hrecords a ha).not_page
  free_small := fun _ _ hs _ ho => (hl.free_small hs ho).not_page

/-- The page of the next slab. -/
theorem HeapLayout.nextSlab_eq (hl : HeapLayout h) :
    convertToVirAddr h.currentHeapAddr = kernelBaseHeapAddr + h.currentHeapAddr := by
  have hhigh := hl.next_high
  rw [kernelHeapSize_eq] at hhigh
  rw [kernelBaseHeapAddr_eq] at hhigh
  simp only [pageSize] at hhigh
  rw [convertToVirAddr, kernelBaseHeapAddr_eq, u32_of_lt (by omega), Nat.add_comm]

/-- A slab is not in the page of the next one. -/
theorem HeapLayout.slab_page_ne (hl : HeapLayout h) {i : Nat} {s : Slab} (hs : s ∈ h.slabs i) :
    s.addr / pageSize ≠ convertToVirAddr h.currentHeapAddr / pageSize := by
  obtain ⟨haligned, _, hlt⟩ := hl.slab_page i s hs
  have hnext := hl.next_aligned
  rw [hl.nextSlab_eq]
  rw [kernelBaseHeapAddr_eq] at hlt ⊢
  simp only [pageSize] at haligned hnext ⊢
  omega

theorem HeapLayout.slab_lt (hl : HeapLayout h) {i : Nat} {s : Slab} (hs : s ∈ h.slabs i) :
    s.addr < 2 ^ 32 ∧ getDirectoryIndex s.addr = 32 := by
  obtain ⟨_, hlow, hlt⟩ := hl.slab_page i s hs
  have hhigh := hl.next_high
  rw [kernelHeapSize_eq] at hhigh
  rw [kernelBaseHeapAddr_eq] at hlow hlt hhigh
  simp only [pageSize] at hhigh
  rw [getDirectoryIndex_eq]
  omega

/-- A taken object is where slabs have theirs. -/
theorem HeapLayout.object_small (hl : HeapLayout h) {i o : Nat} {h' : Heap} (htake : h.Take i o h') :
    SmallObject o := by
  obtain ⟨s, hs, hobject, _⟩ := hl.take_taken htake
  obtain ⟨haligned, hlow, _⟩ := (hl.take htake).slab_page i s hs
  exact slabObjects_small hlow haligned hobject

/-- No page of a large block is the page of a slab, or of the next one. -/
theorem HeapLayout.large_ne_slab (hl : HeapLayout h) {v a : Nat} (hv : LargePage v)
    (ha : 2 * kernelBaseHeapAddr ≤ a) : a / pageSize ≠ v / pageSize := by
  have hlow := hl.next_low
  have hlt := hv.2.1
  rw [kernelBaseHeapAddr_eq] at ha hlt
  simp only [pageSize]
  omega

end Layout

namespace Kernel

section Area

variable {k k' : Kernel} {M : Nat → Prop} {changed : Nat → Prop} {f i o v : Nat}

/-! ## Steps that map nothing of the large blocks -/

theorem BlockFrame.step (hf : k.BlockFrame f) (hs : k.TableStep k') : k'.BlockFrame f where
  low := hf.low
  aligned := hf.aligned
  lt := hf.lt
  used := hs.used f hf.used
  unreserved := hf.unreserved
  not_table := fun i hi hp heq => by
    rw [hs.dirFrame] at hp heq
    rcases hs.fresh i hi hp with hold | hnew
    · rw [(hs.tables i hi hold).2] at heq
      exact hf.not_table i hi hold heq
    · rw [heq] at hnew
      exact hnew.1 hf.used

/-- What every step keeps of the area, whatever it maps. -/
theorem PagesArea.of_step {M' : Nat → Prop} (ha : k.PagesArea M) (hs : k.TableStep k')
    (hr : k'.Running) (hmapped : ∀ v, LargePage v → (M' v ↔ ∃ f, k'.translate v = some f))
    (hframe : ∀ v f, LargePage v → k'.translate v = some f → k'.BlockFrame f)
    (hne : ∀ u v f, LargePage u → LargePage v → k'.translate u = some f →
      k'.translate v = some f → u = v) : k'.PagesArea M' where
  running := hr
  unswapped := by rw [hs.dirFrame]; exact hs.unswapped ha.unswapped
  directory := by rw [hs.dir]; exact ha.directory
  reserved := fun g hg => hs.used g (ha.reserved g hg)
  tables := fun i hi hp hslab => by
    rw [hs.dirFrame] at hp hslab
    rcases hs.fresh i hi hp with hold | hnew
    · rw [(hs.tables i hi hold).2] at hslab
      exact ha.tables i hi hold hslab
    · exact hnew.1 (ha.reserved _ hslab)
  mapped := hmapped
  frame := hframe
  frame_ne := hne

theorem PagesArea.step (ha : k.PagesArea M) (hs : k.AreaStep changed k')
    (hnot : ∀ v, LargePage v → ¬ changed v) (hr : k'.Running) : k'.PagesArea M := by
  have hsame : ∀ v, LargePage v → k'.translate v = k.translate v := fun v hv =>
    hs.translate v hv.lt hv.below (hnot v hv)
  refine ha.of_step hs.toTableStep hr (fun v hv => ?_) (fun v f hv hf => ?_)
    fun u v f hu hv hfu hfv => ?_
  · rw [hsame v hv]
    exact ha.mapped v hv
  · rw [hsame v hv] at hf
    exact (ha.frame v f hv hf).step hs.toTableStep
  · rw [hsame u hu] at hfu
    rw [hsame v hv] at hfv
    exact ha.frame_ne u v f hu hv hfu hfv

/-- The lists stay, and the slabs' pages. -/
theorem SlabsArea.step (ha : k.SlabsArea) (hs : k.AreaStep changed k')
    (hnot : ∀ i, ∀ s ∈ k.heap.slabs i, ¬ changed s.addr) (hheap : k'.heap = k.heap)
    (hqueue : k'.pageFifoQueue = k.pageFifoQueue) : k'.SlabsArea where
  layout := by rw [hheap]; exact ha.layout
  nodes := by rw [hqueue]; exact ha.nodes
  records := by rw [hheap]; exact ha.records
  table := by rw [hs.dirFrame]; exact (hs.tables 32 (by decide) ha.table).1
  mapped := fun i s hmem => by
    rw [hheap] at hmem
    obtain ⟨hlt, hindex⟩ := ha.layout.slab_lt hmem
    rw [hs.translate s.addr hlt (by rw [hindex]; decide) (hnot i s hmem)]
    exact ha.mapped i s hmem

/-- An object is taken; a new slab is mapped. -/
theorem SlabsArea.take (ha : k.SlabsArea) (hs : k.AreaStep changed k')
    (hnot : ∀ i, ∀ s ∈ k.heap.slabs i, ¬ changed s.addr) (htake : k.heap.Take i o k'.heap)
    (hnew : popFree (k.heap.slabs i) = none →
      k'.translate k.nextSlab = some k.heap.currentHeapAddr)
    (hnodes : ∀ n ∈ k'.pageFifoQueue, SmallObject n.addr) : k'.SlabsArea where
  layout := ha.layout.take htake
  nodes := hnodes
  records := by rw [htake.large.2]; exact ha.records
  table := by rw [hs.dirFrame]; exact (hs.tables 32 (by decide) ha.table).1
  mapped := fun j s hmem => by
    rcases htake.slabs s hmem with ⟨t, ht, haddr, _⟩ | ⟨_, hslab, haddr, _⟩
    · obtain ⟨hlt, hindex⟩ := ha.layout.slab_lt ht
      rw [← haddr, hs.translate t.addr hlt (by rw [hindex]; decide) (hnot j t ht)]
      exact ha.mapped j t ht
    · rw [haddr, show convertToVirAddr k.heap.currentHeapAddr = k.nextSlab from rfl,
        hnew hslab.none_free, nextSlab, ha.layout.nextSlab_eq, Nat.add_sub_cancel_left]

/-- The page of the next slab is none of the pages that are mapped. -/
theorem SlabsArea.slabPage_ne (ha : k.SlabsArea) {j : Nat} {s : Slab} (hs : s ∈ k.heap.slabs j) :
    ¬ k.SlabPage i s.addr := fun hpage => ha.layout.slab_page_ne hs hpage.2

theorem SlabsArea.nextSlab_low (ha : k.SlabsArea) : 2 * kernelBaseHeapAddr ≤ k.nextSlab := by
  have hlow := ha.layout.next_low
  rw [nextSlab, ha.layout.nextSlab_eq]
  omega

theorem SlabsArea.large_not_slabPage (ha : k.SlabsArea) (hv : LargePage v) : ¬ k.SlabPage i v :=
  fun hpage => ha.layout.large_ne_slab hv ha.nextSlab_low hpage.2.symm

/-- What mapping pages needs. -/
theorem PagesArea.mapReady_of (ha : k.PagesArea M) (hl : HeapLayout k.heap)
    (hnodes : ∀ n ∈ k.pageFifoQueue, SmallObject n.addr)
    (hrecords : ∀ a ∈ k.heap.largeAllocations, SmallObject a.node) : k.MapReady where
  running := ha.running
  placed := ⟨hl.next_low, hl.next_aligned⟩
  slab_off := fun hroom hpage => by
    have hdir := ha.directory
    have haligned := ha.running.currentDirectory_aligned
    have hnext := hl.next_aligned
    have hlow := hl.next_low
    rw [nextSlab, hl.nextSlab_eq] at hpage
    rw [kernelHeapSize_eq] at hroom hdir
    rw [kernelBaseHeapAddr_eq] at *
    simp only [pageSize] at *
    omega
  unswapped := ha.unswapped
  sane := hl.sane hrecords
  nodes := fun n hn => (hnodes n hn).not_page

theorem PagesArea.mapReady (ha : k.PagesArea M) (hs : k.SlabsArea) : k.MapReady :=
  ha.mapReady_of hs.layout hs.nodes hs.records

theorem PagesArea.slabsReady (ha : k.PagesArea M) (hs : k.SlabsArea) : k.SlabsReady where
  placed := (ha.mapReady hs).placed
  table := hs.table
  directory := (ha.mapReady hs).slab_off

/-- Taking an object keeps the area. -/
theorem PagesArea.taken (ha : k.PagesArea M) (hs : k.SlabsArea) (ht : k.ObjectTaken i o k') :
    k'.PagesArea M ∧ k'.SlabsArea := by
  refine ⟨ha.step ht.step (fun v hv => hs.large_not_slabPage hv) ht.running,
    hs.take ht.step (fun _ _ hmem => hs.slabPage_ne hmem) ht.take ht.mapped ?_⟩
  rw [ht.queue]
  exact hs.nodes

/-! ## Mapping a page of a large block -/

/-- The page is mapped to a frame that no other page has. -/
theorem PagesArea.mapPage (ha : k.PagesArea M) (hs : k.SlabsArea) (hv : LargePage v)
    (hf : k.BlockFrame f) (hnew : ∀ u, LargePage u → k.translate u ≠ some f)
    (hmap : k.PageMapped v f k') : k'.PagesArea (fun u => u = v ∨ M u) ∧ k'.SlabsArea := by
  have hsame : ∀ u, LargePage u → u ≠ v → k'.translate u = k.translate u := by
    intro u hu hne
    apply hmap.step.translate u hu.lt hu.below
    rintro (hpage | hpage)
    · exact hne (hu.eq_of_page hv hpage)
    · exact hs.large_not_slabPage hu hpage
  have hslabs : ∀ i, ∀ s ∈ k.heap.slabs i, ¬ (s.addr / pageSize = v / pageSize ∨
      k.SlabPage 0 s.addr) := by
    rintro i s hmem (hpage | hpage)
    · exact hs.layout.large_ne_slab hv (hs.layout.slab_page i s hmem).2.1 hpage
    · exact hs.slabPage_ne hmem hpage
  refine ⟨ha.of_step hmap.step.toTableStep hmap.running (fun u hu => ?_) (fun u g hu hg => ?_)
    fun u w g hu hw hgu hgw => ?_, ?_⟩
  · by_cases huv : u = v
    · rw [huv, hmap.mapped]
      exact ⟨fun _ => ⟨f, rfl⟩, fun _ => .inl rfl⟩
    · rw [hsame u hu huv, ← ha.mapped u hu]
      exact ⟨fun hM => hM.resolve_left huv, .inr⟩
  · by_cases huv : u = v
    · rw [huv, hmap.mapped] at hg
      cases hg
      exact hf.step hmap.step.toTableStep
    · rw [hsame u hu huv] at hg
      exact (ha.frame u g hu hg).step hmap.step.toTableStep
  · by_cases huv : u = v
    · by_cases hwv : w = v
      · rw [huv, hwv]
      · rw [huv, hmap.mapped] at hgu
        rw [hsame w hw hwv, ← hgu] at hgw
        exact absurd hgw (hnew w hw)
    · by_cases hwv : w = v
      · rw [hwv, hmap.mapped] at hgw
        rw [hsame u hu huv, ← hgw] at hgu
        exact absurd hgu (hnew u hu)
      · rw [hsame u hu huv] at hgu
        rw [hsame w hw hwv] at hgw
        exact ha.frame_ne u w g hu hw hgu hgw
  · cases hmap.lists with
    | same hheap hqueue => exact hs.step hmap.step hslabs hheap hqueue
    | queued _ htake hqueue hslab =>
        refine hs.take hmap.step hslabs htake (hslab ?_) fun n hn => ?_
        · have hindex := hv.index
          omega
        · rw [hqueue] at hn
          rcases List.mem_append.mp hn with hold | hlast
          · exact hs.nodes n hold
          · rw [List.mem_singleton.mp hlast]
            exact hs.layout.object_small htake

end Area

/-! ## Unmapping a page of a large block -/

/-- `vmm_unmap_page` has unmapped the page `v` and given its frame `f` back. Memory
changed in the tables only. -/
structure PageUnmapped (k : Kernel) (v f : Nat) (k' : Kernel) : Prop extends SameTables k k' where
  heap : k'.heap = k.heap
  queue : k'.pageFifoQueue = k.pageFifoQueue
  running : k'.Running
  others : ∀ u, u < 2 ^ 32 → u / pageSize ≠ v / pageSize → k'.translate u = k.translate u
  unmapped : k'.translate v = none
  frames : ∀ n, k'.pmm.pmmBitmap.bit n = (!decide (n = f / pageSize) && k.pmm.pmmBitmap.bit n)
  bytes : ∀ a, (∀ i, i < 1024 → isPagePresent (k.entryAt k.dirFrame i) = true →
    a / pageSize ≠ getFrameAddr (k.entryAt k.dirFrame i) / pageSize) → k'.mem a = k.mem a

section Unmap

variable {ext : Ext} {k k' : Kernel} {M : Nat → Prop} {f v : Nat}

/-- The page is not the directory's own. -/
theorem PagesArea.large_ne_directory (ha : k.PagesArea M) (hv : LargePage v) :
    v / pageSize ≠ k.currentDirectory / pageSize := by
  have hdir := ha.directory
  have haligned := ha.running.currentDirectory_aligned
  obtain ⟨hlo, hhi, hmod⟩ := hv
  rw [kernelHeapSize_eq] at hdir hlo
  rw [kernelBaseHeapAddr_eq] at hdir hlo hhi
  simp only [pageSize] at *
  omega

/-- Giving back the frame of a block's page leaves the kernel running. -/
theorem Running.frameFreed (hr : k.Running) (hf : k.BlockFrame f) {p : Pmm} (hp : PmmWf p)
    (hbits : ∀ n, p.pmmBitmap.bit n = (!decide (n = f / pageSize) && k.pmm.pmmBitmap.bit n)) :
    ({ k with pmm := p } : Kernel).Running := by
  have hsame : k.SameWalks { k with pmm := p } := ⟨rfl, rfl, rfl, rfl⟩
  refine hr.of_keepsMaps hsame.root (hsame.paged hr.paged) hp (fun i hi hpresent => ?_) hsame.keepsMaps
  rw [hsame.entryAt] at hpresent ⊢
  have hused : k.pmm.pmmBitmap.bit (frameBit (getFrameAddr (k.entryAt k.dirFrame i))) = true :=
    hr.tables_used i hi hpresent
  have hne := hf.not_table i hi hpresent
  have haligned := getFrameAddr_aligned (k.entryAt k.dirFrame i)
  have haligned' := hf.aligned
  rw [frameBit_eq] at hused
  show p.pmmBitmap.bit (frameBit _) = true
  rw [frameBit_eq, hbits, hused, Bool.and_true, Bool.not_eq_true', decide_eq_false_iff_not]
  simp only [pageSize] at haligned haligned' ⊢
  omega

theorem PagesArea.unmap_run (ha : k.PagesArea M) (hv : LargePage v) (hM : M v) :
    ∃ f k', k.translate v = some f ∧ vmmUnmapPage ext v k = .ok ((), k') ∧ k.PageUnmapped v f k' := by
  obtain ⟨f, hf⟩ := (ha.mapped v hv).mp hM
  have hframe := ha.frame v f hv hf
  have hr := ha.running
  obtain ⟨hpde, hpte, heq⟩ := (translate_eq_some hr.translate_on).mp hf
  rw [getFrameOffset_eq, hv.2.2, Nat.add_zero] at heq
  have hentry : vmmGetPageEntry ext v k = .ok (windowAddr v, k) :=
    vmmGetPageEntry_mapped hr.translate_on hr.dir.nonnull
      (hr.dir.mapped _ (getDirectoryIndex_lt_of hv.lt)) hpde
      (ha.unswapped _ (getDirectoryIndex_lt_of hv.lt))
  have hptr := translate_windowAddr hr.paged.recursive hv.lt hpde
  have hnumber : f = f / pageSize * pageSize := by
    have haligned := hframe.aligned
    simp only [pageSize] at haligned ⊢
    omega
  have hlow := hframe.low
  have hlt := hframe.lt
  obtain ⟨p, hfree, hwf, hbits⟩ := freeFrame_spec (k := f / pageSize) hr.pmm
    (by simp only [pageSize] at hlow ⊢; omega) (by simp only [pageSize, totalFrames] at hlt ⊢; omega)
  rw [show f / pageSize * 4096 = f from hnumber.symm, heq] at hfree
  have hrunning := hr.frameFreed hframe hwf hbits
  have hsame : k.SameWalks { k with pmm := p } := ⟨rfl, rfl, rfl, rfl⟩
  have hset := hrunning.paged.pteSet hv.lt hv.below (by rw [hsame.pdeOf, hpde]) (w := 0) (by decide)
  have hlast := hset.running hrunning (ha.large_ne_directory hv)
  rw [hsame.pteAddr, hsame.mem] at hset hlast
  have hpmm : (({ k with pmm := p } : Kernel).setMem (k.mem.store32 (k.pteAddr v) 0)).pmm = p :=
    setMem_pmm _ _
  refine ⟨f, _, hf, vmmUnmapPage_present hentry hptr hpte hfree, ?_⟩
  refine
    { toSameRoot := hsame.root.trans hset.toSameRoot
      entries := fun i hi => by
        have hentries := hset.entries i hi
        rw [hsame.dirFrame, hsame.entryAt] at hentries
        exact hentries
      heap := setMem_heap _ _
      queue := setMem_queue _ _
      running := hlast
      others := fun u hu hne => by rw [hset.others u hu hne, hsame.translate]
      unmapped := hset.unmapped (by rw [hsame.paging, hr.translate_on]) hv.lt
        (by rw [hsame.pdeOf, hpde]) (by decide)
      frames := by rw [hpmm]; exact hbits
      bytes := fun a hoff => ?_ }
  have htable := hoff _ (getDirectoryIndex_lt_of hv.lt) hpde
  have haligned := getFrameAddr_aligned (k.pdeOf v)
  have hindex := getTableIndex_lt v
  have hpteAddr : k.pteAddr v = getFrameAddr (k.pdeOf v) + 4 * getTableIndex v := rfl
  show k.mem.store32 (k.pteAddr v) 0 a = k.mem a
  apply ByteStore.store_outside
  change a < k.pteAddr v ∨ k.pteAddr v + 4 ≤ a
  rw [show k.entryAt k.dirFrame (getDirectoryIndex v) = k.pdeOf v from rfl] at htable
  simp only [pageSize] at htable haligned
  omega

/-- The page is not mapped any more, and everything else is as it was. -/
theorem PageUnmapped.area (h : k.PageUnmapped v f k') (ha : k.PagesArea M) (hs : k.SlabsArea)
    (hv : LargePage v) (hf : k.translate v = some f) :
    k'.PagesArea (fun u => u ≠ v ∧ M u) ∧ k'.SlabsArea := by
  have hsame : ∀ u, LargePage u → u ≠ v → k'.translate u = k.translate u := fun u hu hne =>
    h.others u hu.lt fun hpage => hne (hu.eq_of_page hv hpage)
  have hframe := ha.frame v f hv hf
  have hused : ∀ g, g / pageSize ≠ f / pageSize → k.FrameUsed g → k'.FrameUsed g := by
    intro g hne hg
    rw [FrameUsed, frameBit_eq] at hg ⊢
    rw [h.frames, hg, Bool.and_true, Bool.not_eq_true', decide_eq_false_iff_not]
    exact hne
  have hpage_ne : ∀ g, g % pageSize = 0 → g ≠ f → g / pageSize ≠ f / pageSize := by
    intro g hg hne
    have haligned := hframe.aligned
    simp only [pageSize] at hg haligned ⊢
    omega
  refine ⟨?_, ?_⟩
  · refine
      { running := h.running
        unswapped := fun i hi => by
          rw [h.dirFrame, h.entries i hi]
          exact ha.unswapped i hi
        directory := by rw [h.dir]; exact ha.directory
        reserved := fun g hg => ?_
        tables := fun i hi => by
          rw [h.dirFrame, h.entries i hi]
          exact ha.tables i hi
        mapped := fun u hu => ?_
        frame := fun u g hu hg => ?_
        frame_ne := fun u w g hu hw hgu hgw => ?_ }
    · apply hused g _ (ha.reserved g hg)
      intro hpage
      apply hframe.unreserved
      have haligned := hframe.aligned
      obtain ⟨hlo, hhi⟩ := hg
      rw [SlabFrame]
      rw [kernelHeapSize_eq] at hhi ⊢
      rw [kernelBaseHeapAddr_eq] at hlo hhi ⊢
      simp only [pageSize] at hpage haligned
      omega
    · by_cases huv : u = v
      · rw [huv, h.unmapped]
        constructor
        · rintro ⟨hne, _⟩
          exact absurd rfl hne
        · rintro ⟨g, hg⟩
          cases hg
      · rw [hsame u hu huv, ← ha.mapped u hu]
        exact ⟨fun hM => hM.2, fun hM => ⟨huv, hM⟩⟩
    · have huv : u ≠ v := by
        rintro rfl
        rw [h.unmapped] at hg
        cases hg
      rw [hsame u hu huv] at hg
      have hold := ha.frame u g hu hg
      have hne : g ≠ f := fun heq => huv (ha.frame_ne u v f hu hv (heq ▸ hg) hf)
      exact { hold with
        used := hused g (hpage_ne g hold.aligned hne) hold.used
        not_table := fun i hi => by
          rw [h.dirFrame, h.entries i hi]
          exact hold.not_table i hi }
    · have huv : u ≠ v := by
        rintro rfl
        rw [h.unmapped] at hgu
        cases hgu
      have hwv : w ≠ v := by
        rintro rfl
        rw [h.unmapped] at hgw
        cases hgw
      rw [hsame u hu huv] at hgu
      rw [hsame w hw hwv] at hgw
      exact ha.frame_ne u w g hu hw hgu hgw
  · refine
      { layout := by rw [h.heap]; exact hs.layout
        nodes := by rw [h.queue]; exact hs.nodes
        records := by rw [h.heap]; exact hs.records
        table := by rw [h.dirFrame, h.entries 32 (by decide)]; exact hs.table
        mapped := fun i s hmem => ?_ }
    rw [h.heap] at hmem
    have hpage := hs.layout.large_ne_slab hv (hs.layout.slab_page i s hmem).2.1
    rw [h.others s.addr (hs.layout.slab_lt hmem).1 hpage]
    exact hs.mapped i s hmem

end Unmap
end Kernel
end MyOs
