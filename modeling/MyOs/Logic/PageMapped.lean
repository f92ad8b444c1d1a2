import MyOs.Logic.HeapLists
import MyOs.Logic.Starvation
import MyOs.Logic.TableStep

/-!
# Taking an object and mapping a page

What `alloc_from_cache` and `vmm_map_page_to_curr_dir` have done when they return, in
a running kernel whose tables are all in memory: one object was taken from a cache
(`ObjectTaken`), the page is mapped and its table may be new (`PageMapped`). Without a
free frame for the table, or without room for a slab, the kernel stops.
-/

namespace MyOs
namespace Kernel

/-- The page of the slab that is made when cache `i` has no free object. -/
def SlabPage (k : Kernel) (i u : Nat) : Prop :=
  popFree (k.heap.slabs i) = none ∧ u / pageSize = k.nextSlab / pageSize

/-- `alloc_from_cache` has returned `o`. -/
structure ObjectTaken (k : Kernel) (i o : Nat) (k' : Kernel) : Prop where
  take : k.heap.Take i o k'.heap
  queue : k'.pageFifoQueue = k.pageFifoQueue
  pmm : k'.pmm = k.pmm
  running : k'.Running
  step : k.AreaStep (k.SlabPage i) k'
  mapped : popFree (k.heap.slabs i) = none → k'.translate k.nextSlab = some k.heap.currentHeapAddr

/-- Slabs can be mapped: their table is in memory, and the directory's own page is not
among theirs. -/
structure SlabsReady (k : Kernel) : Prop where
  placed : k.HeapPlaced
  table : isPagePresent (k.entryAt k.dirFrame 32) = true
  directory : k.heap.currentHeapAddr ≤ kernelBaseHeapAddr + kernelHeapSize →
    k.currentDirectory / pageSize ≠ k.nextSlab / pageSize

section Object

variable {ext : Ext} {k k' : Kernel} {i o : Nat}

/-- A change of the heap's lists alone. -/
theorem ObjectTaken.of_heap {h : Heap} (hr : k.Running)
    (htake : k.heap.Take i o h) (hpop : popFree (k.heap.slabs i) ≠ none) :
    k.ObjectTaken i o { k with heap := h } := by
  have hsame : k.SameWalks { k with heap := h } := ⟨rfl, rfl, rfl, rfl⟩
  exact
    { take := htake
      queue := rfl
      pmm := rfl
      running := hsame.running rfl hr
      step := (hsame.areaStep fun _ hg => hg).weaken fun _ hf => hf.elim
      mapped := fun hnone => absurd hnone hpop }

/-- With a free object or room for a slab `alloc_from_cache` returns. -/
theorem allocFromCache_ok (hr : k.Running) (hready : k.SlabsReady) (hi : i < numCaches)
    (hroom : popFree (k.heap.slabs i) = none →
      k.heap.currentHeapAddr ≤ kernelBaseHeapAddr + kernelHeapSize) (ext : Ext) :
    ∃ o k', allocFromCache ext i k = .ok (o, k') := by
  cases hpop : popFree (k.heap.slabs i) with
  | some r => exact ⟨_, _, allocFromCache_free hpop⟩
  | none =>
      have htable : isPagePresent (k.pdeOf k.nextSlab) = true := by
        rw [pdeOf, (hready.placed.nextSlab_eq (hroom hpop)).2.2.1]
        exact hready.table
      obtain ⟨_, _, _, halloc⟩ := @DirectoryIn.allocFromCache ext k k.dirFrame i hr.dir
        (hr.slabReady hready.placed (hroom hpop) htable) hi hpop
      exact ⟨_, _, halloc⟩

theorem allocFromCache_taken (hr : k.Running) (hready : k.SlabsReady) (hi : i < numCaches)
    (hrun : allocFromCache ext i k = .ok (o, k')) : k.ObjectTaken i o k' := by
  cases hpop : popFree (k.heap.slabs i) with
  | some r =>
      obtain ⟨o', slabs⟩ := r
      rw [allocFromCache_free hpop] at hrun
      cases hrun
      exact ObjectTaken.of_heap hr (.object hpop) (by rw [hpop]; exact Option.some_ne_none _)
  | none =>
      by_cases hroom : k.heap.currentHeapAddr ≤ kernelBaseHeapAddr + kernelHeapSize
      · obtain ⟨_, hlt, hindex, haligned⟩ := hready.placed.nextSlab_eq hroom
        have htable : isPagePresent (k.pdeOf k.nextSlab) = true := by
          rw [pdeOf, hindex]
          exact hready.table
        have hset := hr.slabMapped_set hready.placed hroom htable
        have hsame := k.slabTaken_same
        have htaken := hsame.running k.slabTaken_pmm hr
        obtain ⟨slab, haddr, hobjects, halloc⟩ :=
          @DirectoryIn.allocFromCache ext k k.dirFrame i hr.dir
            (hr.slabReady hready.placed hroom htable) hi hpop
        have hmapped := hset.mapped (by rw [hsame.paging, hr.translate_on]) hlt
          (by rw [hsame.pdeOf, htable]) isPagePresent_installed
        have hphys : getFrameAddr k.heap.currentHeapAddr = k.heap.currentHeapAddr := by
          refine getFrameAddr_of_aligned hready.placed.aligned ?_
          rw [kernelBaseHeapAddr_eq, kernelHeapSize_eq] at hroom
          omega
        rw [getFrameAddr_installed (by decide), hphys, getFrameOffset_eq, haligned, Nat.add_zero]
          at hmapped
        have hrunning := hset.running htaken (by rw [hsame.dir]; exact (hready.directory hroom).symm)
        have hstep := hset.areaStep
        have hheap := k.slabMapped_heap k.dirFrame
        have hqueue := k.slabMapped_queue k.dirFrame
        have hpmm := k.slabMapped_pmm k.dirFrame
        rw [hrun] at halloc
        injection halloc with halloc
        injection halloc with ho hk
        generalize k.slabMapped k.dirFrame = mapped at hmapped hrunning hstep hheap hqueue hpmm hk
        have hlast : mapped.SameWalks k' := by rw [hk]; exact ⟨rfl, rfl, rfl, rfl⟩
        have hpmm' : k'.pmm = mapped.pmm := by rw [hk]
        have hheap' : k'.heap = ({ k.heap with
            currentHeapAddr := u32 (k.heap.currentHeapAddr + pageSize) }).setSlabs i
              (slab :: k.heap.slabs i) := by rw [hk, hheap]
        refine
          { take := ?_
            queue := by rw [hk]; exact hqueue
            pmm := hpmm'.trans hpmm
            running := hlast.running hpmm' hrunning
            step := ?_
            mapped := fun _ => by rw [hlast.translate]; exact hmapped }
        · rw [hheap', ho, ← haddr]
          refine Heap.Take.slab hpop hroom haddr ?_
          rw [haddr]
          exact hobjects
        · have hfirst := hsame.areaStep (used_of_pmm k.slabTaken_pmm)
          refine ((hfirst.trans hstep).trans (hlast.areaStep (used_of_pmm hpmm'))).weaken ?_
          rintro u ((hf | hpage) | hf)
          · exact hf.elim
          · exact ⟨hpop, hpage⟩
          · exact hf.elim
      · rw [allocFromCache, Prog.get_bind_apply, hpop] at hrun
        obtain ⟨slab, k₁, hslab, _⟩ := Prog.bind_eq_ok.mp hrun
        rw [createSlab, Prog.get_bind_apply, if_neg hroom] at hslab
        cases hslab

end Object

/-- A running kernel whose tables are all in memory, whose heap and eviction queue are
as its own functions leave them. -/
structure MapReady (k : Kernel) : Prop where
  running : k.Running
  placed : k.HeapPlaced
  slab_off : k.heap.currentHeapAddr ≤ kernelBaseHeapAddr + kernelHeapSize →
    k.currentDirectory / pageSize ≠ k.nextSlab / pageSize
  unswapped : ∀ i, i < 1024 → isSwapped (k.entryAt k.dirFrame i) = false
  sane : HeapSane k.heap
  nodes : ∀ n ∈ k.pageFifoQueue, n.addr % pageSize ≠ 0

/-- What mapping `v` does to the heap and the queue: nothing, or a new table is queued. -/
inductive MapLists (k : Kernel) (v : Nat) (k' : Kernel) : Prop
  | same : k'.heap = k.heap → k'.pageFifoQueue = k.pageFifoQueue → MapLists k v k'
  | queued {o : Nat} : isPagePresent (k.pdeOf v) = false → k.heap.Take 0 o k'.heap →
      k'.pageFifoQueue = k.pageFifoQueue ++ [⟨o, getPageTableVirAddr (getDirectoryIndex v)⟩] →
      (getDirectoryIndex v ≠ 32 → popFree (k.heap.slabs 0) = none →
        k'.translate k.nextSlab = some k.heap.currentHeapAddr) → MapLists k v k'

/-- `vmm_map_page` has mapped `v` to frame `f`. -/
structure PageMapped (k : Kernel) (v f : Nat) (k' : Kernel) : Prop where
  running : k'.Running
  step : k.AreaStep (fun u => u / pageSize = v / pageSize ∨ k.SlabPage 0 u) k'
  mapped : k'.translate v = some f
  lists : k.MapLists v k'

section Mapping

variable {ext : Ext} {k k' k₂ : Kernel} {depth f v flags : Nat}

/-- Without a free frame a page without a table is not mapped. -/
theorem MapReady.frame_of_ok (h : k.MapReady) (hv : v < 2 ^ 32)
    (habsent : isPagePresent (k.pdeOf v) = false)
    (hrun : vmmMapPage (link depth) k.currentDirectory v f flags k = .ok ((), k')) :
    ∃ g, k.FrameFree g := by
  by_cases hnone : k.pmm.pmmAllocFrame.1 = pmmNoFrameAvailable
  · have halloc : allocFrame k = .ok (pmmNoFrameAvailable, { k with pmm := k.pmm.pmmAllocFrame.2 }) := by
      rw [allocFrame_eq, hnone]
    obtain ⟨_, hfull⟩ := allocFrame_fails h.running.pmm halloc
    have hstarved : Starved k.heap.currentLargeHeapAddr k :=
      { wf := h.running.pmm, full := hfull, sane := h.sane, large := rfl, queue := h.nodes }
    rw [vmmMapPage, if_neg h.running.dir.nonnull] at hrun
    obtain ⟨table, k₁, htable, _⟩ := Prog.bind_eq_ok.mp hrun
    have hin : isSwapped (k.pdeOf v) = false := h.unswapped _ (getDirectoryIndex_lt_of hv)
    rw [tableForMapping,
      Prog.bind_of_ok (loadWord_mapped (h.running.dir.mapped _ (getDirectoryIndex_lt_of hv))),
      show k.mem.load32 (k.dirFrame + 4 * getDirectoryIndex v) = k.pdeOf v from rfl, habsent,
      hin] at htable
    simp only [Bool.false_eq_true, if_false] at htable
    obtain ⟨allocated, k₂, htalloc, htable⟩ := Prog.bind_eq_ok.mp htable
    rw [allocTable, Prog.get_bind_apply, if_pos h.running.translate_on] at htalloc
    have hfalse := (vmmAllocPage_starved (link_starving k.heap.currentLargeHeapAddr depth
      k.pageFifoQueue) _ _ k hstarved.starvedFrom _ _ htalloc).1
    rw [hfalse, if_pos rfl] at htable
    cases htable
  · exact ⟨_, frameFree_of h.running.pmm rfl hnone⟩

/-- A page whose table is in memory: its entry is set. -/
theorem Running.mapPage_present (hr : k.Running) (hv : v < 2 ^ 32) (haligned : v % pageSize = 0)
    (hbelow : getDirectoryIndex v ≠ recursivePageTableIndex)
    (hoff : v / pageSize ≠ k.currentDirectory / pageSize)
    (hpv : isPagePresent (k.pdeOf v) = true) (hf : f % pageSize = 0) (hlt : f < 2 ^ 32)
    (hflags : flags < pageSize) :
    ∃ k', vmmMapPage ext k.currentDirectory v f flags k = .ok ((), k') ∧ k.PageMapped v f k' ∧
      k'.pmm = k.pmm ∧ k'.heap = k.heap := by
  have hset := hr.paged.pteSet hv hbelow hpv
    (@installed_lt (k.mem.load32 (k.pteAddr v)) f flags hlt (Nat.lt_trans hflags (by decide)))
  have hmapped := hset.mapped hr.translate_on hv hpv isPagePresent_installed
  rw [getFrameAddr_installed hflags, getFrameAddr_of_aligned hf hlt, getFrameOffset_eq, haligned,
    Nat.add_zero] at hmapped
  refine ⟨_, hr.dir.vmmMapPage (hr.paged.tableIn hv hbelow hpv) hlt, ?_⟩
  rw [entryAddr_dirFrame]
  exact ⟨
    { running := hset.running hr hoff
      step := hset.areaStep.weaken fun u hu => .inl hu
      mapped := hmapped
      lists := .same (setMem_heap _ _) (setMem_queue _ _) }, setMem_pmm _ _, setMem_heap _ _⟩

/-- The new table of `v` was queued, from the state `k₂` on the page is mapped in it. -/
theorem Running.mapPage_queued (hr : k.Running) (hv : v < 2 ^ 32) (haligned : v % pageSize = 0)
    (habsent : isPagePresent (k.pdeOf v) = false) (hin : isSwapped (k.pdeOf v) = false) {g : Nat}
    (hg : k.FrameFree g) (hf : f % pageSize = 0) (hlt : f < 2 ^ 32) (hflags : flags < pageSize)
    (hqueue : pageEnqueue ext (getPageTableVirAddr (getDirectoryIndex v)) (k.queueing v g) =
      .ok (true, k₂)) {changed : Nat → Prop} (hstep : (k.queueing v g).AreaStep changed k₂)
    (h₂ : k₂.Running) :
    ∃ k', vmmMapPage ext k.currentDirectory v f flags k = .ok ((), k') ∧ k'.Running ∧
      k.AreaStep (fun u => u / pageSize = v / pageSize ∨ changed u) k' ∧
      k'.translate v = some f ∧ k'.heap = k₂.heap ∧ k'.pageFifoQueue = k₂.pageFifoQueue ∧
      ∀ u, u < 2 ^ 32 → getDirectoryIndex u ≠ getDirectoryIndex v →
        k'.translate u = k₂.translate u := by
  have hbelow := hr.paged.below_of_absent habsent
  have hq := hr.queueing_step hv habsent hg
  have hpv : isPagePresent (k₂.pdeOf v) = true := by
    have hpresent : isPagePresent ((k.queueing v g).pdeOf v) = true := hg.present_queueing
    rw [pdeOf, hq.dirFrame] at hpresent
    rw [pdeOf, hstep.dirFrame, hq.dirFrame]
    have htables := hstep.tables (getDirectoryIndex v) (getDirectoryIndex_lt_of hv)
    rw [hq.dirFrame] at htables
    exact (htables hpresent).1
  have hroot : k.SameRoot k₂ := hq.toSameRoot.trans hstep.toSameRoot
  obtain ⟨k', hrun, hnew, _⟩ :=
    hr.vmmMapPage_newTable hv habsent hin hg hlt hflags hqueue hroot h₂ hpv
  -- the entry is set in the cleared table
  have htable := hr.tableForMapping_new hv habsent hin hg hqueue hroot h₂ hpv
  obtain ⟨hpaged, hentries, _⟩ := h₂.tableCleared_tables hv hbelow hpv
  have hclear := h₂.tableCleared_step hv hbelow hpv
  have hcqueue : (k₂.tableCleared v).pageFifoQueue = k₂.pageFifoQueue :=
    (setMem_queue _ _).trans (setMem_queue _ _)
  generalize k₂.tableCleared v = k₃ at htable hpaged hentries hclear hcqueue
  have hpde : isPagePresent (k₃.pdeOf v) = true := by
    rw [pdeOf, hclear.dirFrame]
    exact (hentries _ (getDirectoryIndex_lt_of hv)).1.trans hpv
  have hsteady : k₃.Steady (getPageTableVirAddr (getDirectoryIndex v) + 4 * getTableIndex v)
      (k₃.pteAddr v) :=
    (hpaged.recursive.windowPtr hv hpde (hpaged.pteAddr_ne hv hbelow hpde (by decide))
      (hpaged.pteAddr_ne hv hbelow hpde (getDirectoryIndex_lt_of hv))).steady
  have hrun₃ := @Steady.vmmMapPage _ _ _ _ _ _ _ f flags hr.dir.nonnull htable hsteady hlt
  have hset := hpaged.pteSet hv hbelow hpde
    (@installed_lt (k₃.mem.load32 (k₃.pteAddr v)) f flags hlt (Nat.lt_trans hflags (by decide)))
  rw [hrun] at hrun₃
  injection hrun₃ with hrun₃
  injection hrun₃ with _ hk'
  rw [← hk'] at hset
  have hall := ((hq.trans hstep).trans hclear).trans hset.areaStep
  have hmapped := hnew.mapped
  rw [getFrameAddr_of_aligned hf hlt, getFrameOffset_eq, haligned, Nat.add_zero] at hmapped
  refine ⟨k', hrun, hnew.running, ⟨hall.toTableStep, fun u hu hbelow' hnot => ?_⟩, hmapped, hnew.heap,
    by rw [hk']; exact (setMem_queue _ _).trans hcqueue, hnew.others⟩
  by_cases huv : getDirectoryIndex u = getDirectoryIndex v
  · -- no page of the table but `v` was mapped, nor is one
    rw [hnew.cleared u hu huv fun hpage => hnot (.inl hpage)]
    cases hold : k.translate u with
    | none => rfl
    | some x => exact absurd huv (directoryIndex_ne_of_absent hr.translate_on habsent hold)
  · rw [hnew.others u hu huv, hstep.translate u hu hbelow' fun hc => hnot (.inr hc),
      hq.translate u hu hbelow' huv]

/-- **Mapping a page.** A call that returns has mapped the page, and may have made its
table. -/
theorem MapReady.mapPage (h : k.MapReady) (hv : v < 2 ^ 32) (haligned : v % pageSize = 0)
    (hbelow : getDirectoryIndex v ≠ recursivePageTableIndex)
    (hoff : v / pageSize ≠ k.currentDirectory / pageSize) (hf : f % pageSize = 0) (hlt : f < 2 ^ 32)
    (hflags : flags < pageSize)
    (htable : isPagePresent (k.entryAt k.dirFrame 32) = true ∨ getDirectoryIndex v = 32)
    (hrun : vmmMapPageToCurrDir (link (depth + 1)) v f flags k = .ok ((), k')) :
    k.PageMapped v f k' := by
  have hr := h.running
  rw [vmmMapPageToCurrDir, Prog.get_bind_apply, if_neg hr.dir.nonnull] at hrun
  cases hpv : isPagePresent (k.pdeOf v) with
  | true =>
      obtain ⟨k'', hrun', hmapped, _⟩ :=
        @Running.mapPage_present (link (depth + 1)) k f v flags hr hv haligned hbelow hoff hpv hf hlt hflags
      rw [hrun] at hrun'
      cases hrun'
      exact hmapped
  | false =>
      obtain ⟨g, hg⟩ := h.frame_of_ok hv hpv hrun
      have hin : isSwapped (k.pdeOf v) = false := h.unswapped _ (getDirectoryIndex_lt_of hv)
      obtain ⟨k₂, hqueue⟩ := hr.queued_of_ok hv hpv hin hg hrun
      obtain ⟨m, node, k₁, _, hnode, hnonnull, hk₂⟩ := node_of_ok hqueue
      have hq := hr.queueing_step hv hpv hg
      have hqheap := k.pageAllocated_heap (k.pdeAddr v) g
      have hnext : (k.queueing v g).nextSlab = k.nextSlab := by rw [nextSlab, nextSlab, hqheap]
      have hready : (k.queueing v g).SlabsReady :=
        { placed := ⟨by rw [hqheap]; exact h.placed.low, by rw [hqheap]; exact h.placed.aligned⟩
          table := by
            rw [hq.dirFrame, hg.entryAt_queueing]
            by_cases hidx : 32 = getDirectoryIndex v
            · rw [if_pos hidx]
              exact isPagePresent_allocatedWord
            · rw [if_neg hidx]
              exact htable.resolve_right fun heq => hidx heq.symm
          directory := by
            rw [hq.dir, hnext, hqheap]
            exact h.slab_off }
      have hqrun := (hr.newTable hpv hg).1
      have htaken := allocFromCache_taken hqrun hready (by decide) hnode
      have hsame : k₁.SameWalks k₂ := by rw [hk₂]; exact ⟨rfl, rfl, rfl, rfl⟩
      have hpmm : k₂.pmm = k₁.pmm := by rw [hk₂]
      have hheap₂ : k₂.heap = k₁.heap := by rw [hk₂]
      have hqueue₂ : k₂.pageFifoQueue =
          k₁.pageFifoQueue ++ [⟨node, getPageTableVirAddr (getDirectoryIndex v)⟩] := by rw [hk₂]
      have hstep₂ := htaken.step.trans (hsame.areaStep (used_of_pmm hpmm))
      obtain ⟨k'', hrun'', hrunning, hstep, hmapped, hheap, hfifo, hothers⟩ :=
        hr.mapPage_queued hv haligned hpv hin hg hf hlt hflags hqueue hstep₂
          (hsame.running hpmm htaken.running)
      rw [hrun] at hrun''
      injection hrun'' with hrun''
      injection hrun'' with _ hk'
      rw [← hk'] at hrunning hstep hmapped hheap hfifo hothers
      refine
        { running := hrunning
          step := hstep.weaken ?_
          mapped := hmapped
          lists := .queued (o := node) hpv ?_ ?_ fun hidx hpop => ?_ }
      · rintro u (hpage | (⟨hpop, hpage⟩ | hf))
        · exact .inl hpage
        · rw [hqheap] at hpop
          rw [hnext] at hpage
          exact .inr ⟨hpop, hpage⟩
        · exact hf.elim
      · rw [hheap, hheap₂, ← hqheap]
        exact htaken.take
      · rw [hfifo, hqueue₂, htaken.queue]
        exact congrArg (· ++ _) ((setMem_queue _ _).trans rfl)
      · have htake := htaken.take
        have hplace := htaken.mapped (by rw [hqheap]; exact hpop)
        rw [hnext, hqheap] at hplace
        -- the slab's page is under table 32, which is not the new one
        have hroom := (htake.newSlab (by rw [hqheap]; exact hpop)).room
        rw [hqheap] at hroom
        obtain ⟨_, hslt, hsidx, _⟩ := h.placed.nextSlab_eq hroom
        rw [hothers _ hslt (by rw [hsidx]; exact hidx.symm), hsame.translate]
        exact hplace

end Mapping
end Kernel
end MyOs
