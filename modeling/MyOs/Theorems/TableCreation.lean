import MyOs.Logic.CreateTable
import MyOs.Theorems.SwapRoundTrip

/-!
# Creating a page table while the heap allocates

`vmm_map_page` marks a new page table present, queues it for eviction, and
clears it only then. The queue node can come from a new slab, whose page is
mapped in between: in the table that is about to be cleared, when the slab's
page is one of its pages, and otherwise with a table of its own, which meets
the same fate one level down.
-/

namespace MyOs

open Kernel

/-- What mapping `v` to `p` must leave: the mapping itself, every mapping there
was, and the page of every slab made on the way. -/
structure CreatesTable (k : Kernel) (v p : Nat) (k' : Kernel) : Prop where
  mapped : k'.translate v = some (getFrameAddr p + getFrameOffset v)
  kept : k.KeepsMaps k'
  nested : ∀ i slab, slab ∈ k'.heap.slabs i →
    (∀ old ∈ k.heap.slabs i, old.addr ≠ slab.addr) →
      ∃ phys, phys < 2 ^ 32 ∧ slab.addr = convertToVirAddr phys ∧
        k'.translate slab.addr = some phys

/-- The queue node of the new table of `v` can be had without losing a mapping: a
free object, or a slab whose page has a table already and is not mapped
elsewhere, or whose page is `v` itself, being mapped to the slab's frame. -/
inductive NodeSafe (k : Kernel) (v p : Nat) : Prop
  | object {o : Nat} {slabs : List Slab} : popFree (k.heap.slabs 0) = some (o, slabs) → o ≠ 0 →
      NodeSafe k v p
  | slab : popFree (k.heap.slabs 0) = none → k.SlabMappable → NodeSafe k v p
  | own : popFree (k.heap.slabs 0) = none →
      k.heap.currentHeapAddr ≤ kernelBaseHeapAddr + kernelHeapSize →
      v / pageSize = k.nextSlab / pageSize → getFrameAddr p = k.heap.currentHeapAddr →
      NodeSafe k v p

/-- A state in which `vmm_map_page` makes a table for `v`: it is absent, the frame
allocator has `f` to give, and the next slab is where `init_kmalloc` puts it. -/
structure TableMissing (k : Kernel) (v f : Nat) : Prop where
  running : k.Running 0
  placed : k.HeapPlaced
  dir_off : k.currentDirectory / pageSize ≠ k.nextSlab / pageSize
  lt : v < 2 ^ 32
  absent : isPagePresent (k.pdeOf v) = false
  not_swapped : isSwapped (k.pdeOf v) = false
  free : k.FrameFree f

/-- And the slabs are below the next one. -/
structure NoTable (k : Kernel) (v f : Nat) : Prop extends TableMissing k v f where
  slabs_below : ∀ i slab, slab ∈ k.heap.slabs i → slab.addr < k.nextSlab

/-- Taking an object keeps the slabs where they are. -/
theorem popFree_addr {slabs slabs' : List Slab} {o : Nat} (h : popFree slabs = some (o, slabs')) :
    slabs'.map Slab.addr = slabs.map Slab.addr := by
  induction slabs generalizing slabs' with
  | nil => cases h
  | cons slab rest ih =>
      rw [popFree] at h
      split at h
      · cases h
        rfl
      · obtain ⟨r, hr, heq⟩ := Option.map_eq_some_iff.mp h
        cases heq
        rw [List.map_cons, List.map_cons, ih hr]

section Suffices

variable {ext inner : Ext} {k k₂ : Kernel} {v p flags f : Nat}

/-- Once the new table is queued with every old mapping in place, the rest of the
call loses nothing of what is outside that table. -/
theorem NoTable.map_queued (h : NoTable k v f) (hp : p < 2 ^ 32) (hflags : flags < pageSize)
    (hqueue : pageEnqueue ext (getPageTableVirAddr (getDirectoryIndex v)) (k.queueing v f) =
      .ok (true, k₂)) (hroot : k.SameRoot k₂) (h₂ : k₂.Running 0)
    (hpv : isPagePresent (k₂.pdeOf v) = true) (hkeeps : k.KeepsMaps k₂) :
    ∃ k', vmmMapPage ext k.currentDirectory v p flags k = .ok ((), k') ∧ MappedNew k₂ v p k' 0 ∧
      k.KeepsMaps k' := by
  obtain ⟨k', hrun, hmapped, _⟩ := h.running.vmmMapPage_newTable h.lt h.absent h.not_swapped h.free
    hp hflags hqueue hroot h₂ hpv
  refine ⟨k', hrun, hmapped, fun u x hu hx => ?_⟩
  rw [hmapped.others u hu (directoryIndex_ne_of_absent h.running.translate_on h.absent hx)]
  exact hkeeps u x hu hx

/-- A slab of the state after the call is an old one, when only objects were taken. -/
theorem nested_of_old {k' : Kernel} (hslabs : ∀ i slab, slab ∈ k'.heap.slabs i →
    ∃ old ∈ k.heap.slabs i, old.addr = slab.addr) : ∀ i slab, slab ∈ k'.heap.slabs i →
      (∀ old ∈ k.heap.slabs i, old.addr ≠ slab.addr) → ∃ phys, phys < 2 ^ 32 ∧
        slab.addr = convertToVirAddr phys ∧ k'.translate slab.addr = some phys := by
  intro i slab hslab hnew
  obtain ⟨old, hold, heq⟩ := hslabs i slab hslab
  exact absurd heq (hnew old hold)

/-- With a free object nothing is mapped on the way. -/
theorem NoTable.object (h : NoTable k v f) (hover : ext.Over inner) (hp : p < 2 ^ 32)
    (hflags : flags < pageSize) {o : Nat} {slabs : List Slab}
    (hpop : popFree (k.heap.slabs 0) = some (o, slabs)) (ho : o ≠ 0) :
    ∃ k', vmmMapPage ext k.currentDirectory v p flags k = .ok ((), k') ∧
      CreatesTable k v p k' := by
  obtain ⟨hrunning, hkeeps⟩ := h.running.newTable h.absent h.free
  have hheap := k.pageAllocated_heap (k.pdeAddr v) f
  obtain ⟨k₂, hqueue, htaken⟩ := @pageEnqueue_object ext inner (k.queueing v f)
    (getPageTableVirAddr (getDirectoryIndex v)) o slabs hover (by rw [hheap, hpop]) ho
  obtain ⟨k', hrun, hmapped, hkeeps'⟩ := h.map_queued hp hflags hqueue
    ((k.pageAllocated_root _ f).trans htaken.walks.root) (htaken.walks.running htaken.pmm hrunning)
    (by rw [htaken.walks.pdeOf]; exact h.free.present_queueing)
    (hkeeps.trans htaken.walks.keepsMaps)
  refine ⟨k', hrun, hmapped.mapped, hkeeps', nested_of_old fun i slab hslab => ?_⟩
  rw [hmapped.heap] at hslab
  by_cases hi : i = 0
  · have hmem : slab.addr ∈ (k.heap.slabs 0).map Slab.addr := by
      rw [← popFree_addr hpop, ← htaken.slabs_first]
      exact List.mem_map_of_mem (hi ▸ hslab)
    obtain ⟨old, hold, heq⟩ := List.mem_map.mp hmem
    exact ⟨old, hi ▸ hold, heq⟩
  · rw [htaken.slabs_other i hi, hheap] at hslab
    exact ⟨slab, hslab, rfl⟩

/-- With no free object the node comes from a new slab, when the slab's page has a
table: then its page is mapped, and nothing else changes. -/
theorem TableMissing.queue_slab (h : TableMissing k v f) (hover : ext.Over inner)
    (hpop : popFree (k.heap.slabs 0) = none)
    (hroom : k.heap.currentHeapAddr ≤ kernelBaseHeapAddr + kernelHeapSize)
    (htable : isPagePresent ((k.queueing v f).pdeOf k.nextSlab) = true) :
    ∃ slab k₂, slab.addr = k.nextSlab ∧
      pageEnqueue ext (getPageTableVirAddr (getDirectoryIndex v)) (k.queueing v f) =
        .ok (true, k₂) ∧
      k₂.heap.slabs 0 = slab :: k.heap.slabs 0 ∧
      (∀ i, i ≠ 0 → k₂.heap.slabs i = k.heap.slabs i) ∧
      k.SameRoot k₂ ∧ k₂.Running 0 ∧ isPagePresent (k₂.pdeOf v) = true ∧
      k₂.translate k.nextSlab = some k.heap.currentHeapAddr ∧
      (∀ u, u < 2 ^ 32 → u / pageSize ≠ k.nextSlab / pageSize →
        k₂.translate u = (k.queueing v f).translate u) ∧
      ∀ b, b % 4 = 0 → b ≠ (k.queueing v f).pteAddr k.nextSlab →
        k₂.mem.load32 b = (k.queueing v f).mem.load32 b := by
  have hheap : (k.queueing v f).heap = k.heap := k.pageAllocated_heap _ f
  have hroot : k.SameRoot (k.queueing v f) := k.pageAllocated_root _ f
  have hpde := @FrameFree.present_queueing k f v h.free
  have hrunning : (k.queueing v f).Running 0 := (h.running.newTable h.absent h.free).1
  obtain ⟨heq, hlt, hindex, haligned⟩ := h.placed.nextSlab_eq hroom
  generalize k.queueing v f = k₁ at hheap hroot hpde hrunning htable ⊢
  have hplaced : k₁.HeapPlaced := ⟨by rw [hheap]; exact h.placed.low, by rw [hheap]; exact h.placed.aligned⟩
  have hnext : k₁.nextSlab = k.nextSlab := by rw [nextSlab, nextSlab, hheap]
  rw [← hnext] at htable
  have hroom₁ : k₁.heap.currentHeapAddr ≤ kernelBaseHeapAddr + kernelHeapSize := by
    rw [hheap]; exact hroom
  have hset := hrunning.slabMapped_set hplaced hroom₁ htable
  have hready := hrunning.slabReady hplaced hroom₁ htable
  obtain ⟨slab, k₂, haddr, hqueue, htaken⟩ := @DirectoryIn.pageEnqueue_slab ext inner k₁
    k₁.dirFrame (getPageTableVirAddr (getDirectoryIndex v)) hrunning.dir hover
    (by rw [hheap, hpop]) hready
  have hsame := k₁.slabTaken_same
  have htaken' := hsame.running k₁.slabTaken_pmm hrunning
  have hoff : k₁.nextSlab / pageSize ≠ k₁.slabTaken.currentDirectory / pageSize := by
    rw [hsame.dir, hroot.dir, hnext]
    exact h.dir_off.symm
  have hslab := hset.running htaken' hoff
  have hmapped := hset.mapped htaken'.translate_on (by rw [hnext]; exact hlt)
    (by rw [hsame.pdeOf, htable]) isPagePresent_installed
  rw [getFrameAddr_installed (by decide), hheap, hnext, getFrameAddr_of_aligned h.placed.aligned
    (by omega), getFrameOffset_eq, haligned, Nat.add_zero] at hmapped
  refine ⟨slab, k₂, haddr.trans hnext, hqueue, ?_, fun i hi => ?_, ?_, ?_, ?_, ?_, ?_, ?_⟩
  · rw [htaken.slabs_first, hheap]
  · rw [htaken.slabs_other i hi, hheap]
  · exact (hroot.trans hsame.root).trans (hset.toSameRoot.trans htaken.walks.root)
  · exact htaken.walks.running (by rw [htaken.pmm, slabMapped_pmm]) hslab
  · rw [htaken.walks.pdeOf, hset.pdeOf h.lt, hsame.pdeOf, hpde]
  · rw [htaken.walks.translate, hmapped]
  · intro u hu hne
    rw [htaken.walks.translate, hset.others u hu (by rw [hnext]; exact hne), hsame.translate]
  · intro b hb hne
    rw [htaken.walks.mem, hset.words b hb (by rw [hsame.pteAddr, hnext]; exact hne), hsame.mem]

/-- Then the rest of the call maps `v`. -/
theorem TableMissing.slab_run (h : TableMissing k v f) (hover : ext.Over inner) (hp : p < 2 ^ 32)
    (hflags : flags < pageSize) (hpop : popFree (k.heap.slabs 0) = none)
    (hroom : k.heap.currentHeapAddr ≤ kernelBaseHeapAddr + kernelHeapSize)
    (htable : isPagePresent ((k.queueing v f).pdeOf k.nextSlab) = true) :
    ∃ slab k₂ k', slab.addr = k.nextSlab ∧ k.SameRoot k₂ ∧
      vmmMapPage ext k.currentDirectory v p flags k = .ok ((), k') ∧ MappedNew k₂ v p k' 0 ∧
      k'.heap.slabs 0 = slab :: k.heap.slabs 0 ∧
      (∀ i, i ≠ 0 → k'.heap.slabs i = k.heap.slabs i) ∧
      k₂.translate k.nextSlab = some k.heap.currentHeapAddr ∧
      (∀ u, u < 2 ^ 32 → u / pageSize ≠ k.nextSlab / pageSize →
        k₂.translate u = (k.queueing v f).translate u) ∧
      ∀ b, b % 4 = 0 → b ≠ (k.queueing v f).pteAddr k.nextSlab →
        k₂.mem.load32 b = (k.queueing v f).mem.load32 b := by
  obtain ⟨slab, k₂, haddr, hqueue, hfirst, hother, hroot, h₂, hpv, hmapped, hframe, hwords⟩ :=
    h.queue_slab hover hpop hroom htable
  obtain ⟨k', hrun, hnew, _⟩ := h.running.vmmMapPage_newTable h.lt h.absent h.not_swapped h.free
    hp hflags hqueue hroot h₂ hpv
  exact ⟨slab, k₂, k', haddr, hroot, hrun, hnew, by rw [hnew.heap, hfirst],
    fun i hi => by rw [hnew.heap, hother i hi], hmapped, hframe, hwords⟩

/-- The slabs after such a call: the old ones and the one made on the way. -/
theorem nested_of_slab {k' : Kernel} {slab : Slab} (hfirst : k'.heap.slabs 0 = slab :: k.heap.slabs 0)
    (hother : ∀ i, i ≠ 0 → k'.heap.slabs i = k.heap.slabs i)
    (hlt : k.heap.currentHeapAddr < 2 ^ 32) (haddr : slab.addr = k.nextSlab)
    (hmapped : k'.translate k.nextSlab = some k.heap.currentHeapAddr) (i : Nat) (s : Slab)
    (hs : s ∈ k'.heap.slabs i) (hnew : ∀ old ∈ k.heap.slabs i, old.addr ≠ s.addr) :
    ∃ phys, phys < 2 ^ 32 ∧ s.addr = convertToVirAddr phys ∧ k'.translate s.addr = some phys := by
  by_cases hi : i = 0
  · rw [hi, hfirst] at hs
    rcases List.mem_cons.mp hs with rfl | hold
    · rw [haddr]
      exact ⟨_, hlt, rfl, hmapped⟩
    · exact absurd rfl (hnew s (hi ▸ hold))
  · rw [hother i hi] at hs
    exact absurd rfl (hnew s hs)

theorem TableMissing.keeps_queueing (h : TableMissing k v f) : k.KeepsMaps (k.queueing v f) :=
  (h.running.newTable h.absent h.free).2

/-- The slab's page is under a table that is there already. -/
theorem NoTable.slab (h : NoTable k v f) (hover : ext.Over inner) (hp : p < 2 ^ 32)
    (hflags : flags < pageSize) (hpop : popFree (k.heap.slabs 0) = none)
    (hmap : k.SlabMappable) :
    ∃ k', vmmMapPage ext k.currentDirectory v p flags k = .ok ((), k') ∧
      CreatesTable k v p k' := by
  obtain ⟨heq, hlt, hindex, haligned⟩ := h.placed.nextSlab_eq hmap.room
  have hne : getDirectoryIndex k.nextSlab ≠ getDirectoryIndex v := by
    intro hsame
    have habsent := h.absent
    rw [pdeOf, ← hsame] at habsent
    exact absurd (hmap.table.symm.trans habsent) (by decide)
  have htable : isPagePresent ((k.queueing v f).pdeOf k.nextSlab) = true := by
    rw [h.free.pdeOf_queueing, if_neg hne, hmap.table]
  obtain ⟨slab, k₂, k', haddr, _, hrun, hnew, hfirst, hother, hslab, hframe, _⟩ :=
    @TableMissing.slab_run ext inner k v p flags f h.toTableMissing hover hp hflags hpop hmap.room
      htable
  have hon := h.running.translate_on
  have hkept : k.KeepsMaps k' := by
    intro u x hu hx
    rw [hnew.others u hu (directoryIndex_ne_of_absent hon h.absent hx)]
    by_cases hpage : u / pageSize = k.nextSlab / pageSize
    · have hold := translate_page hon hpage.symm hx
      have hphys := hmap.free _ hold
      rw [hphys] at hold
      have hon₂ : k₂.pagingEnabled = true := by
        rw [← hnew.root.paging, hnew.running.translate_on]
      rw [translate_page_congr hon hon₂ hpage hold hslab, hx]
    · rw [hframe u hu hpage]
      exact h.keeps_queueing u x hu hx
  refine ⟨k', hrun, hnew.mapped, hkept, nested_of_slab hfirst hother (by omega) haddr ?_⟩
  rw [hnew.others _ hlt hne, hslab]

/-- The slab's page is one of the new table's. -/
theorem TableMissing.table_own (h : TableMissing k v f)
    (hindex : getDirectoryIndex k.nextSlab = getDirectoryIndex v) :
    isPagePresent ((k.queueing v f).pdeOf k.nextSlab) = true := by
  rw [h.free.pdeOf_queueing, if_pos hindex, isPagePresent_allocatedWord]

/-- The slab's page is `v`, which gets the slab's own frame. -/
theorem NoTable.own (h : NoTable k v f) (hover : ext.Over inner) (hp : p < 2 ^ 32)
    (hflags : flags < pageSize) (hpop : popFree (k.heap.slabs 0) = none)
    (hroom : k.heap.currentHeapAddr ≤ kernelBaseHeapAddr + kernelHeapSize)
    (hpage : v / pageSize = k.nextSlab / pageSize)
    (hphys : getFrameAddr p = k.heap.currentHeapAddr) :
    ∃ k', vmmMapPage ext k.currentDirectory v p flags k = .ok ((), k') ∧
      CreatesTable k v p k' := by
  obtain ⟨heq, hlt, _, haligned⟩ := h.placed.nextSlab_eq hroom
  have hindex : getDirectoryIndex k.nextSlab = getDirectoryIndex v := by
    have hparts := page_index k.nextSlab
    have hparts' := page_index v
    have htable := getTableIndex_lt k.nextSlab
    have htable' := getTableIndex_lt v
    omega
  obtain ⟨slab, k₂, k', haddr, _, hrun, hnew, hfirst, hother, hslab, hframe, _⟩ :=
    @TableMissing.slab_run ext inner k v p flags f h.toTableMissing hover hp hflags hpop hroom
      (h.table_own hindex)
  have hon := h.running.translate_on
  have hkept : k.KeepsMaps k' := by
    intro u x hu hx
    have hdu := directoryIndex_ne_of_absent hon h.absent hx
    have hne : u / pageSize ≠ k.nextSlab / pageSize := by
      have hparts := page_index k.nextSlab
      have hparts' := page_index u
      have htable := getTableIndex_lt k.nextSlab
      have htable' := getTableIndex_lt u
      omega
    rw [hnew.others u hu hdu, hframe u hu hne]
    exact h.keeps_queueing u x hu hx
  refine ⟨k', hrun, hnew.mapped, hkept, nested_of_slab hfirst hother (by omega) haddr ?_⟩
  rw [translate_page hnew.running.translate_on hpage.symm hnew.mapped, hphys, Nat.add_sub_cancel,
    getFrameOffset_eq, haligned, Nat.add_zero]

end Suffices

/-! ## When a mapping is lost -/

section Loses

variable {ext : Ext} {k k' : Kernel} {v p flags f n : Nat}

/-- With no free object the first cache makes a slab, and maps it. -/
theorem slab_of_ok {node : Nat} {k₁ : Kernel} (hpop : popFree (k.heap.slabs 0) = none)
    (hnode : allocFromCache ext 0 k = .ok (node, k₁)) :
    k.heap.currentHeapAddr ≤ kernelBaseHeapAddr + kernelHeapSize ∧
      ∃ ks, vmmMapPageToCurrDir ext k.nextSlab k.heap.currentHeapAddr pageWriteable k.slabTaken =
          .ok ((), ks) ∧ ks.SameWalks k₁ ∧ k₁.pmm = ks.pmm ∧
        ∀ slab ∈ ks.heap.slabs 0, slab ∈ k₁.heap.slabs 0 := by
  rw [allocFromCache, Prog.get_bind_apply, hpop] at hnode
  simp only at hnode
  obtain ⟨slab, ks, hslab, hrest⟩ := Prog.bind_eq_ok.mp hnode
  rw [createSlab, Prog.get_bind_apply] at hslab
  by_cases hroom : k.heap.currentHeapAddr ≤ kernelBaseHeapAddr + kernelHeapSize
  · rw [if_pos hroom, Prog.modify_bind_apply] at hslab
    obtain ⟨⟨⟩, ks', hmap, hdone⟩ := Prog.bind_eq_ok.mp hslab
    rw [Prog.pure_apply] at hdone
    obtain ⟨rfl, rfl⟩ := Prod.mk.inj (Except.ok.inj hdone)
    have hmap' : vmmMapPageToCurrDir ext k.nextSlab k.heap.currentHeapAddr pageWriteable k.slabTaken =
      .ok ((), ks') := hmap
    obtain ⟨free, hfree⟩ := @initSlab_freeList k.nextSlab (cacheObjectSize 0)
      (cacheObjectSize_pos 0) (cacheObjectSize_le (by decide))
    rw [Prog.get_bind_apply, popFree, show (initSlab (convertToVirAddr k.heap.currentHeapAddr)
      (cacheObjectSize 0)).freeList = (k.nextSlab + slabDataOffset) :: free from hfree] at hrest
    cases hrest
    refine ⟨hroom, ks', hmap', ⟨rfl, rfl, rfl, rfl⟩, rfl, fun old hold => ?_⟩
    rw [ks'.heap.setSlabs_self]
    exact List.mem_cons_of_mem _ hold
  · rw [if_neg hroom] at hslab
    cases hslab

/-- A slab made during the call is at or above where the next one was to be. -/
theorem NoTable.nested (h : NoTable k v f) (hcreates : CreatesTable k v p k') {slab : Slab}
    (hslab : slab ∈ k'.heap.slabs 0) (hnew : k.nextSlab ≤ slab.addr) :
    ∃ phys, phys < 2 ^ 32 ∧ slab.addr = convertToVirAddr phys ∧
      k'.translate slab.addr = some phys := by
  refine hcreates.nested 0 slab hslab fun old hold heq => ?_
  have hbelow := h.slabs_below 0 old hold
  omega

/-- The slab is put in the table being made: its mapping is cleared with the table,
unless it is the mapping being made. -/
theorem NoTable.own_of_creates (h : NoTable k v f) (hp : p < 2 ^ 32) (hflags : flags < pageSize)
    (hpop : popFree (k.heap.slabs 0) = none)
    (hroom : k.heap.currentHeapAddr ≤ kernelBaseHeapAddr + kernelHeapSize)
    (hindex : getDirectoryIndex k.nextSlab = getDirectoryIndex v)
    (hrun : vmmMapPage (link (n + 1)) k.currentDirectory v p flags k = .ok ((), k'))
    (hcreates : CreatesTable k v p k') : NodeSafe k v p := by
  obtain ⟨heq, hlt, _, haligned⟩ := h.placed.nextSlab_eq hroom
  obtain ⟨slab, k₂, k'', haddr, _, hrun', hmapped, hfirst, _⟩ :=
    @TableMissing.slab_run _ _ k v p flags f h.toTableMissing (link_over n) hp hflags hpop hroom
      (h.table_own hindex)
  cases hrun.symm.trans hrun'
  obtain ⟨phys, hphys, hconv, hslab⟩ := h.nested hcreates
    (by rw [hfirst]; exact List.mem_cons_self) (Nat.le_of_eq haddr.symm)
  rw [haddr] at hconv hslab
  by_cases hpage : k.nextSlab / pageSize = v / pageSize
  · refine .own hpop hroom hpage.symm ?_
    rw [translate_page hmapped.running.translate_on hpage hmapped.mapped, Nat.add_sub_cancel,
      getFrameOffset_eq, haligned, Nat.add_zero] at hslab
    rw [Option.some.inj hslab]
    rw [heq, convertToVirAddr, kernelBaseHeapAddr_eq, u32] at hconv
    omega
  · rw [hmapped.cleared _ hlt hindex hpage] at hslab
    cases hslab

/-- The slab's page is mapped in the table it has, so it was not mapped elsewhere. -/
theorem NoTable.slab_of_creates (h : NoTable k v f) (hp : p < 2 ^ 32) (hflags : flags < pageSize)
    (hpop : popFree (k.heap.slabs 0) = none)
    (hroom : k.heap.currentHeapAddr ≤ kernelBaseHeapAddr + kernelHeapSize)
    (hindex : getDirectoryIndex k.nextSlab ≠ getDirectoryIndex v)
    (htable : isPagePresent (k.pdeOf k.nextSlab) = true)
    (hrun : vmmMapPage (link (n + 1)) k.currentDirectory v p flags k = .ok ((), k'))
    (hcreates : CreatesTable k v p k') : NodeSafe k v p := by
  obtain ⟨_, hlt, _⟩ := h.placed.nextSlab_eq hroom
  obtain ⟨slab, k₂, k'', _, _, hrun', hmapped, _, _, hslab, _⟩ :=
    @TableMissing.slab_run _ _ k v p flags f h.toTableMissing (link_over n) hp hflags hpop hroom
      (by rw [h.free.pdeOf_queueing, if_neg hindex, htable])
  cases hrun.symm.trans hrun'
  refine .slab hpop ⟨hroom, htable, fun x hx => ?_⟩
  have hkept := hcreates.kept _ _ hlt hx
  rw [hmapped.others _ hlt hindex, hslab] at hkept
  exact (Option.some.inj hkept).symm

/-- The state in which the slab's page is mapped, when its table is missing too. -/
theorem TableMissing.nested_missing {g : Nat} (h : TableMissing k v f)
    (hroom : k.heap.currentHeapAddr ≤ kernelBaseHeapAddr + kernelHeapSize)
    (hindex : getDirectoryIndex k.nextSlab ≠ getDirectoryIndex v)
    (habsent : isPagePresent (k.pdeOf k.nextSlab) = false)
    (hin : isSwapped (k.pdeOf k.nextSlab) = false)
    (hnext : k.frameTaken.pmm.pmmAllocFrame.1 = g) (hg : g ≠ pmmNoFrameAvailable) :
    TableMissing (k.queueing v f).slabTaken k.nextSlab g ∧
      (k.queueing v f).slabTaken.nextSlab = k.nextSlab + pageSize ∧
      getDirectoryIndex (k.queueing v f).slabTaken.nextSlab = getDirectoryIndex k.nextSlab := by
  obtain ⟨heq, hlt, hidx, haligned⟩ := h.placed.nextSlab_eq hroom
  have hlow := h.placed.low
  have haddr := h.placed.aligned
  rw [kernelBaseHeapAddr_eq] at hlow
  rw [kernelBaseHeapAddr_eq, kernelHeapSize_eq] at hroom
  have hsize : pageSize = 4096 := rfl
  rw [hsize] at haddr
  have hrunning : (k.queueing v f).Running 0 := (h.running.newTable h.absent h.free).1
  have hroot : k.SameRoot (k.queueing v f) := k.pageAllocated_root _ f
  have hheap : (k.queueing v f).heap = k.heap := k.pageAllocated_heap _ f
  have hpmm : (k.queueing v f).pmm = k.frameTaken.pmm := k.pageAllocated_pmm _ f
  have hpde : (k.queueing v f).pdeOf k.nextSlab = k.pdeOf k.nextSlab := by
    rw [h.free.pdeOf_queueing, if_neg hindex]
  generalize k.queueing v f = q at hrunning hroot hheap hpmm hpde ⊢
  have hsame := q.slabTaken_same
  have hmoved : q.slabTaken.heap.currentHeapAddr = k.heap.currentHeapAddr + 4096 := by
    have hu : u32 (k.heap.currentHeapAddr + 4096) = k.heap.currentHeapAddr + 4096 :=
      u32_of_lt (by omega)
    rw [← hu, ← hheap, ← hsize]
    unfold slabTaken
    rfl
  have hnext' : q.slabTaken.nextSlab = k.nextSlab + pageSize := by
    have hconv : convertToVirAddr (k.heap.currentHeapAddr + 4096) =
        k.heap.currentHeapAddr + 4096 + 0x4000000 := by
      rw [convertToVirAddr, kernelBaseHeapAddr_eq]
      exact u32_of_lt (by omega)
    have hcomm : k.heap.currentHeapAddr + 4096 + 0x4000000 =
        k.heap.currentHeapAddr + 0x4000000 + 4096 := Nat.add_right_comm ..
    rw [nextSlab, hmoved, hconv, hcomm, ← heq, hsize]
  have hidx' : getDirectoryIndex q.slabTaken.nextSlab = getDirectoryIndex k.nextSlab := by
    rw [hidx, getDirectoryIndex_eq, hnext', heq, hsize]
    omega
  refine ⟨?_, hnext', hidx'⟩
  refine
    { running := hsame.running q.slabTaken_pmm hrunning
      placed := ⟨by rw [hmoved, kernelBaseHeapAddr_eq]; omega, by rw [hmoved, hsize]; omega⟩
      dir_off := fun hpage => ?_
      lt := hlt
      absent := by rw [hsame.pdeOf, hpde, habsent]
      not_swapped := by rw [hsame.pdeOf, hpde, hin]
      free := frameFree_of (by rw [q.slabTaken_pmm]; exact hrunning.pmm)
        (by rw [q.slabTaken_pmm, hpmm, hnext]) hg }
  -- the directory's page is mapped, so it is under another table
  rw [hsame.dir, hroot.dir] at hpage
  have hdir := directoryIndex_ne_of_absent h.running.translate_on habsent
    (h.running.dir.mapped 0 (by decide))
  have hparts := page_index k.currentDirectory
  have hparts' := page_index q.slabTaken.nextSlab
  have htable := getTableIndex_lt k.currentDirectory
  have htable' := getTableIndex_lt q.slabTaken.nextSlab
  rw [Nat.mul_zero, Nat.add_zero] at hdir
  omega

/-- With no free object and the next slab's page in the table that is made, the slab's
mapping is cleared with that table; what is under other tables stays. -/
theorem TableMissing.own_run (h : TableMissing k v f) (hp : p < 2 ^ 32) (hflags : flags < pageSize)
    (hpop : popFree (k.heap.slabs 0) = none)
    (hindex : getDirectoryIndex k.nextSlab = getDirectoryIndex v)
    (hne : k.nextSlab / pageSize ≠ v / pageSize)
    (hrun : vmmMapPage (link n) k.currentDirectory v p flags k = .ok ((), k')) :
    k.SameRoot k' ∧ k'.Running 0 ∧ k'.translate v ≠ none ∧
      (∃ slab ∈ k'.heap.slabs 0, slab.addr = k.nextSlab ∧ k'.translate slab.addr = none) ∧
      ∀ u x, u < 2 ^ 32 → getDirectoryIndex u ≠ getDirectoryIndex v → k.translate u = some x →
        k'.translate u = some x := by
  have hheap : (k.queueing v f).heap = k.heap := k.pageAllocated_heap _ f
  obtain ⟨_, hqueue⟩ := h.running.queued_of_ok h.lt h.absent h.not_swapped h.free hrun
  obtain ⟨m, _, _, rfl, hnode, _, _⟩ := node_of_ok hqueue
  obtain ⟨hroom, _⟩ := slab_of_ok (by rw [hheap, hpop]) hnode
  rw [hheap] at hroom
  obtain ⟨_, hlt, _⟩ := h.placed.nextSlab_eq hroom
  obtain ⟨slab, k₂, k'', haddr, hroot, hrun', hmapped, hfirst, _, _, hframe, _⟩ :=
    @TableMissing.slab_run _ _ k v p flags f h (link_over m) hp hflags hpop hroom
      (h.table_own hindex)
  cases hrun.symm.trans hrun'
  refine ⟨hroot.trans hmapped.root, hmapped.running, ?_, ⟨slab, ?_, haddr, ?_⟩, ?_⟩
  · rw [hmapped.mapped]
    exact Option.some_ne_none _
  · rw [hfirst]
    exact List.mem_cons_self
  · rw [haddr, hmapped.cleared _ hlt hindex hne]
  · intro u x hu hother hx
    have hpage : u / pageSize ≠ k.nextSlab / pageSize := by
      intro hpage
      have hparts := page_index u
      have hparts' := page_index k.nextSlab
      have htable := getTableIndex_lt u
      have htable' := getTableIndex_lt k.nextSlab
      omega
    rw [hmapped.others u hu hother, hframe u hu hpage]
    exact h.keeps_queueing u x hu hx

/-- The slab's page gets a table of its own, in which a second slab is mapped before
the table is cleared: the slab's page is mapped, and the second slab's is not. -/
theorem TableMissing.nested_run {g : Nat} (h : TableMissing k v f) (hp : p < 2 ^ 32)
    (hflags : flags < pageSize) (hpop : popFree (k.heap.slabs 0) = none)
    (hroom : k.heap.currentHeapAddr ≤ kernelBaseHeapAddr + kernelHeapSize)
    (hindex : getDirectoryIndex k.nextSlab ≠ getDirectoryIndex v)
    (habsent : isPagePresent (k.pdeOf k.nextSlab) = false)
    (hin : isSwapped (k.pdeOf k.nextSlab) = false)
    (hnext : k.frameTaken.pmm.pmmAllocFrame.1 = g) (hg : g ≠ pmmNoFrameAvailable)
    (hrun : vmmMapPage (link n) k.currentDirectory v p flags k = .ok ((), k')) :
    k.SameRoot k' ∧ k'.translate k.nextSlab ≠ none ∧ ∃ slab ∈ k'.heap.slabs 0,
      slab.addr = k.nextSlab + pageSize ∧ k'.translate slab.addr = none := by
  obtain ⟨heq, hlt, hidx, _⟩ := h.placed.nextSlab_eq hroom
  obtain ⟨hq, hslab, hidx'⟩ := h.nested_missing hroom hindex habsent hin hnext hg
  have hheap : (k.queueing v f).heap = k.heap := k.pageAllocated_heap _ f
  have hrunning : (k.queueing v f).Running 0 := (h.running.newTable h.absent h.free).1
  have hpopq : popFree ((k.queueing v f).slabTaken.heap.slabs 0) = none := by
    unfold slabTaken
    rw [hheap]
    exact hpop
  have hroot : k.SameRoot (k.queueing v f).slabTaken :=
    (k.pageAllocated_root _ f).trans (k.queueing v f).slabTaken_same.root
  -- the window shows the new table's entry, all the way
  have hwindow := translate_windowAddr hrunning.paged.recursive h.lt
    (@FrameFree.present_queueing k f v h.free)
  rw [← (k.queueing v f).slabTaken_same.translate] at hwindow
  obtain ⟨k₂, hqueue⟩ := h.running.queued_of_ok h.lt h.absent h.not_swapped h.free hrun
  obtain ⟨m, node, k₁, rfl, hnode, hnonnull, hk₂⟩ := node_of_ok hqueue
  obtain ⟨_, ks, hmap, hwalks, hpmm, hslabs⟩ := slab_of_ok (by rw [hheap, hpop]) hnode
  rw [nextSlab, hheap, ← nextSlab, vmmMapPageToCurrDir, Prog.get_bind_apply,
    if_neg hq.running.dir.nonnull] at hmap
  -- the second slab, one level down
  have hne₂ : (k.queueing v f).slabTaken.nextSlab / pageSize ≠ k.nextSlab / pageSize := by
    rw [hslab]
    simp only [pageSize]
    omega
  obtain ⟨hroot₃, hrunning₃, hmapped₃, ⟨slab₂, hmem₂, haddr₂, hlost₂⟩, hkeeps₃⟩ :=
    hq.own_run (by omega) (by decide) hpopq hidx' hne₂ hmap
  -- the first call goes on from there
  have hsame₂ : ks.SameWalks k₂ := by
    rw [hk₂]
    exact ⟨hwalks.mem, hwalks.cr3, hwalks.paging, hwalks.dir⟩
  have hpmm₂ : k₂.pmm = ks.pmm := by
    rw [hk₂]
    exact hpmm
  have hrunning₂ := hsame₂.running hpmm₂ hrunning₃
  have hpv : isPagePresent (k₂.pdeOf v) = true := by
    have hother : getDirectoryIndex (windowAddr v) ≠ getDirectoryIndex k.nextSlab := by
      rw [getDirectoryIndex_windowAddr h.lt, hidx]
      decide
    have hw₂ := hkeeps₃ _ _ (windowAddr_lt h.lt) hother hwindow
    rw [← hsame₂.translate] at hw₂
    exact hrunning₂.paged.recursive.present_of_window h.lt hw₂
  have hroot₂ : k.SameRoot k₂ := (hroot.trans hroot₃).trans hsame₂.root
  obtain ⟨k'', hrun', hmapped, _⟩ := h.running.vmmMapPage_newTable h.lt h.absent h.not_swapped
    h.free hp hflags hqueue hroot₂ hrunning₂ hpv
  cases hrun.symm.trans hrun'
  refine ⟨hroot₂.trans hmapped.root, ?_, slab₂, ?_, haddr₂.trans hslab, ?_⟩
  · rw [hmapped.others _ hlt hindex, hsame₂.translate]
    exact hmapped₃
  · rw [hmapped.heap, hk₂]
    exact hslabs _ hmem₂
  · have hlt₂ : (k.queueing v f).slabTaken.nextSlab < 2 ^ 32 := by
      rw [hslab, heq]
      rw [kernelBaseHeapAddr_eq, kernelHeapSize_eq] at hroom
      simp only [pageSize]
      omega
    rw [haddr₂, hmapped.others _ hlt₂ (by rw [hidx']; exact hindex), hsame₂.translate, ← haddr₂,
      hlost₂]

/-- So a mapping is lost. -/
theorem NoTable.nested_lost {g : Nat} (h : NoTable k v f) (hp : p < 2 ^ 32)
    (hflags : flags < pageSize) (hpop : popFree (k.heap.slabs 0) = none)
    (hroom : k.heap.currentHeapAddr ≤ kernelBaseHeapAddr + kernelHeapSize)
    (hindex : getDirectoryIndex k.nextSlab ≠ getDirectoryIndex v)
    (habsent : isPagePresent (k.pdeOf k.nextSlab) = false)
    (hin : isSwapped (k.pdeOf k.nextSlab) = false)
    (hnext : k.frameTaken.pmm.pmmAllocFrame.1 = g) (hg : g ≠ pmmNoFrameAvailable)
    (hrun : vmmMapPage (link n) k.currentDirectory v p flags k = .ok ((), k')) :
    ¬ CreatesTable k v p k' := by
  intro hcreates
  obtain ⟨_, _, slab, hmem, haddr, hlost⟩ :=
    h.nested_run hp hflags hpop hroom hindex habsent hin hnext hg hrun
  obtain ⟨_, _, _, hfound⟩ := h.nested hcreates hmem (by rw [haddr]; exact Nat.le_add_right _ _)
  rw [hlost] at hfound
  cases hfound

/-- A call that loses no mapping had its node the safe way. -/
theorem NoTable.safe_of_creates (h : NoTable k v f) (hp : p < 2 ^ 32) (hflags : flags < pageSize)
    (hin : isSwapped (k.pdeOf k.nextSlab) = false)
    (hsecond : k.frameTaken.pmm.pmmAllocFrame.1 ≠ pmmNoFrameAvailable)
    (hrun : vmmMapPage (link n) k.currentDirectory v p flags k = .ok ((), k'))
    (hcreates : CreatesTable k v p k') : NodeSafe k v p := by
  have hheap : (k.queueing v f).heap = k.heap := k.pageAllocated_heap _ f
  obtain ⟨k₂, hqueue⟩ := h.running.queued_of_ok h.lt h.absent h.not_swapped h.free hrun
  obtain ⟨m, node, k₁, rfl, hnode, hnonnull, _⟩ := node_of_ok hqueue
  cases hpop : popFree (k.heap.slabs 0) with
  | some taken =>
      obtain ⟨o, slabs⟩ := taken
      have hobject := @allocFromCache_free (link m) (k.queueing v f) 0 o slabs (by rw [hheap, hpop])
      rw [hobject] at hnode
      cases hnode
      exact .object hpop hnonnull
  | none =>
      obtain ⟨hroom, _⟩ := slab_of_ok (by rw [hheap, hpop]) hnode
      rw [hheap] at hroom
      by_cases hindex : getDirectoryIndex k.nextSlab = getDirectoryIndex v
      · exact h.own_of_creates hp hflags hpop hroom hindex hrun hcreates
      · cases htable : isPagePresent (k.pdeOf k.nextSlab) with
        | true => exact h.slab_of_creates hp hflags hpop hroom hindex htable hrun hcreates
        | false =>
            exact absurd hcreates
              (h.nested_lost hp hflags hpop hroom hindex htable hin rfl hsecond hrun)

end Loses

/-- Two tables in use, one free frame, and these slabs of 16-byte objects. -/
def smallKernel (slabs : List Slab) : Kernel :=
  { swapKernel 1 with
      heap := ⟨0x4001000, 0x406C000, fun i => if i = 0 then slabs else [], []⟩ }

theorem smallKernel_entry (slabs : List Slab) (i : Nat) :
    (smallKernel slabs).entryAt (smallKernel slabs).dirFrame i =
      (ByteStore.ofWords swapWords).load32 (0x100000 + 4 * i) := by
  have hdir : (smallKernel slabs).dirFrame = 0x100000 :=
    (by decide : getFrameAddr 0x100000 = 0x100000)
  rw [entryAt, hdir]
  rfl

theorem smallKernel_running (slabs : List Slab) : (smallKernel slabs).Running 0 := by
  have hwords : DirectoryWords swapWords 0x100000 := by decide
  have hused : ∀ p ∈ swapWords, 0x100000 ≤ p.1 → p.1 < 0x100000 + pageSize →
      isPagePresent p.2 = true → swapPmm.pmmBitmap.bit (frameBit (getFrameAddr p.2)) = true := by
    decide
  have hdir : (smallKernel slabs).dirFrame = 0x100000 :=
    (by decide : getFrameAddr 0x100000 = 0x100000)
  exact hwords.running rfl hdir rfl
    (by decide : 0xFFFFF000 = getPageTableVirAddr recursivePageTableIndex)
    ((@swapKernel_wf 1 (by decide)).pmm.mono (Nat.zero_le 8)) hused

theorem smallKernel_nextSlab (slabs : List Slab) : (smallKernel slabs).nextSlab = 0x8001000 :=
  (by decide : convertToVirAddr 0x4001000 = 0x8001000)

theorem smallKernel_pdeOf (slabs : List Slab) : (smallKernel slabs).pdeOf 0x8200000 = 0 := by
  rw [pdeOf, smallKernel_entry]
  decide +kernel

/-- A page of the slabs' 4 MiB has no table yet. -/
theorem smallKernel_noTable {slabs : List Slab} (hslabs : ∀ slab ∈ slabs, slab.addr < 0x8001000) :
    NoTable (smallKernel slabs) 0x8200000 0x8000 where
  running := smallKernel_running slabs
  placed := ⟨(by decide : kernelBaseHeapAddr ≤ 0x4001000), (by decide : 0x4001000 % pageSize = 0)⟩
  slabs_below i slab hslab := by
    rw [smallKernel_nextSlab]
    by_cases hi : i = 0
    · rw [hi] at hslab
      exact hslabs slab hslab
    · rw [show (smallKernel slabs).heap.slabs i = [] from if_neg hi] at hslab
      cases hslab
  dir_off := by
    rw [smallKernel_nextSlab]
    exact (by decide : 0xFFFFF000 / pageSize ≠ 0x8001000 / pageSize)
  lt := by decide
  absent := by rw [smallKernel_pdeOf]; decide
  not_swapped := by rw [smallKernel_pdeOf]; decide
  free := frameFree_of (smallKernel_running slabs).pmm
    (by decide : swapPmm.pmmAllocFrame.1 = 0x8000) (by decide)

end MyOs
