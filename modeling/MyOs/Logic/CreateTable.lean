import MyOs.Logic.AddressSpace
import MyOs.Logic.SmallBlocks

/-!
# Mapping a page whose table does not exist

`vmm_map_page` then makes the table, puts it in the eviction queue, clears it
and sets the entry. Queueing the table may map a slab; `NodeTaken` is what that
leaves. Only the new table's own pages can be lost when it is cleared.
-/

namespace MyOs
namespace Kernel

variable {ext inner : Ext} {k k₂ k' : Kernel} {lo f p flags u v : Nat}

/-- The mapping that `vmm_map_page` leaves, from the state `k₂` in which the new
table of `v` has been queued. -/
structure MappedNew (k₂ : Kernel) (v p : Nat) (k' : Kernel) (lo : Nat := 8) : Prop where
  running : k'.Running lo
  root : k₂.SameRoot k'
  heap : k'.heap = k₂.heap
  pmm : k'.pmm = k₂.pmm
  table : isPagePresent (k'.pdeOf v) = true
  mapped : k'.translate v = some (getFrameAddr p + getFrameOffset v)
  others : ∀ u, u < 2 ^ 32 → getDirectoryIndex u ≠ getDirectoryIndex v →
    k'.translate u = k₂.translate u
  cleared : ∀ u, u < 2 ^ 32 → getDirectoryIndex u = getDirectoryIndex v →
    u / pageSize ≠ v / pageSize → k'.translate u = none
  words : ∀ b, b % 4 = 0 → b / pageSize ≠ k₂.dirFrame / pageSize →
    b / pageSize ≠ getFrameAddr (k₂.pdeOf v) / pageSize → k'.mem.load32 b = k₂.mem.load32 b

/-- An absent table has no mapped page. -/
theorem directoryIndex_ne_of_absent (hon : k.pagingEnabled = true)
    (habsent : isPagePresent (k.pdeOf v) = false) {x : Nat} (hu : k.translate u = some x) :
    getDirectoryIndex u ≠ getDirectoryIndex v := by
  intro heq
  obtain ⟨hpde, _⟩ := (translate_eq_some hon).mp hu
  have hsame : k.pdeOf u = k.pdeOf v := by rw [pdeOf, pdeOf, heq]
  rw [hsame, habsent] at hpde
  cases hpde

/-- With the table of `v` found in the window, mapping sets one entry. -/
theorem Paged.vmmMapPage {k₃ : Kernel} {dir : Nat} (h : k₃.Paged) (hne : dir ≠ 0)
    (hv : v < 2 ^ 32) (hbelow : getDirectoryIndex v ≠ recursivePageTableIndex)
    (hpv : isPagePresent (k₃.pdeOf v) = true)
    (htable : tableForMapping ext dir (getDirectoryIndex v) k =
      .ok (getPageTableVirAddr (getDirectoryIndex v), k₃)) (hp : p < 2 ^ 32)
    (hflags : flags < pageSize) :
    ∃ k', vmmMapPage ext dir v p flags k = .ok ((), k') ∧
      k₃.PteSet k' v (installed (k₃.mem.load32 (k₃.pteAddr v)) p flags) := by
  have hsteady : k₃.Steady (getPageTableVirAddr (getDirectoryIndex v) + 4 * getTableIndex v)
      (k₃.pteAddr v) :=
    (h.recursive.windowPtr hv hpv (h.pteAddr_ne hv hbelow hpv (by decide))
      (h.pteAddr_ne hv hbelow hpv (getDirectoryIndex_lt_of hv))).steady
  exact ⟨_, hsteady.vmmMapPage hne htable hp,
    h.pteSet hv hbelow hpv (installed_lt hp (Nat.lt_trans hflags (by decide)))⟩

/-- The mapping is set in the cleared table. -/
theorem Running.vmmMapPage_newTable (h : k.Running lo) (hv : v < 2 ^ 32)
    (habsent : isPagePresent (k.pdeOf v) = false) (hin : isSwapped (k.pdeOf v) = false)
    (hf : k.FrameFree f) (hp : p < 2 ^ 32) (hflags : flags < pageSize)
    (hqueue : pageEnqueue ext (getPageTableVirAddr (getDirectoryIndex v))
      (k.pageAllocated (k.pdeAddr v) f) = .ok (true, k₂))
    (hroot : k.SameRoot k₂) (h₂ : k₂.Running lo) (hpv : isPagePresent (k₂.pdeOf v) = true) :
    ∃ k', vmmMapPage ext k.currentDirectory v p flags k = .ok ((), k') ∧ MappedNew k₂ v p k' lo ∧
      k'.mem.load32 (k'.pteAddr v) = installed 0 p flags := by
  have hbelow := h.paged.below_of_absent habsent
  have htable := h.tableForMapping_new hv habsent hin hf hqueue hroot h₂ hpv
  obtain ⟨hpaged, hentries, hzero⟩ := h₂.tableCleared_tables hv hbelow hpv
  have hothers (u : Nat) (hu : u < 2 ^ 32) (hne : getDirectoryIndex u ≠ getDirectoryIndex v) :=
    @Running.translate_tableCleared lo k₂ u v h₂ hv hbelow hpv hu hne
  have hcleared (u : Nat) (hu : u < 2 ^ 32) (hdu : getDirectoryIndex u = getDirectoryIndex v) :=
    @Running.unmapped_tableCleared lo k₂ u v h₂ hv hbelow hpv hu hdu
  have hwords (b : Nat) (hb : b % 4 = 0) (hbd : b / pageSize ≠ k₂.dirFrame / pageSize)
      (hbt : b / pageSize ≠ getFrameAddr (k₂.pdeOf v) / pageSize) :=
    @tableCleared_words k₂ v b hb hbd hbt hv
  have hroot₃ := k₂.tableCleared_root v
  have hheap := k₂.tableCleared_heap v
  have hpmm := k₂.tableCleared_pmm v
  have hdir : k.dirFrame = k₂.dirFrame := hroot.dirFrame.symm
  generalize k₂.tableCleared v = k₃ at htable hpaged hentries hzero hothers hcleared hwords hroot₃ hheap hpmm
  have hpde : isPagePresent (k₃.pdeOf v) = true := by
    rw [pdeOf, hroot₃.dirFrame]
    exact (hentries _ (getDirectoryIndex_lt_of hv)).1.trans hpv
  obtain ⟨k₄, hrun, hset⟩ := @Paged.vmmMapPage ext k p flags v k₃ k.currentDirectory hpaged h.dir.nonnull hv
    hbelow hpde htable hp hflags
  rw [hzero] at hset
  have hpage {u : Nat} (hne : getDirectoryIndex u ≠ getDirectoryIndex v) :
      u / pageSize ≠ v / pageSize := by
    have hindex := getTableIndex_lt u
    have hindex' := getTableIndex_lt v
    rw [page_index, page_index]
    omega
  have hothers₄ (u : Nat) (hu : u < 2 ^ 32) (hne : getDirectoryIndex u ≠ getDirectoryIndex v) :
      k₄.translate u = k₂.translate u := by rw [hset.others u hu (hpage hne), hothers u hu hne]
  have hroot₄ : k₂.SameRoot k₄ := hroot₃.trans hset.toSameRoot
  have hmapped := hset.mapped hpaged.recursive.paging_on hv hpde isPagePresent_installed
  rw [getFrameAddr_installed hflags] at hmapped
  refine ⟨k₄, hrun, ?_, hset.word_eq hv⟩
  refine
    { running := h.of_dir (hroot.trans hroot₄) (hset.paged hpaged)
        (by rw [hset.pmm, hpmm]; exact h₂.pmm) (fun i hi hpresent => ?_) (fun i hi => ?_)
      root := hroot₄
      heap := by rw [hset.heap, hheap]
      pmm := by rw [hset.pmm, hpmm]
      table := by rw [hset.pdeOf hv, hpde]
      mapped := hmapped
      others := hothers₄
      cleared := fun u hu hdu hne => ?_
      words := fun b hb hbd hbt => ?_ }
  · have hentry := hset.entries i hi
    rw [hroot₃.dirFrame, ← hdir] at hentry
    rw [← hdir] at hentries
    rw [hentry] at hpresent ⊢
    rw [(hentries i hi).1] at hpresent
    rw [(hentries i hi).2, FrameUsed, hset.pmm, hpmm, hdir]
    rw [hdir] at hpresent
    exact h₂.tables_used i hi hpresent
  · -- the directory's own page is under another table
    rw [hothers₄ _ (h.dirEntry_lt hi) (directoryIndex_ne_of_absent h.translate_on habsent
      (h.dir.mapped i hi)), ← hroot.dir, hdir]
    exact h₂.dir.mapped i hi
  · rw [hset.others u hu hne]
    exact hcleared u hu hdu
  · have hframe : getFrameAddr (k₃.pdeOf v) = getFrameAddr (k₂.pdeOf v) := by
      rw [pdeOf, hroot₃.dirFrame]
      exact (hentries _ (getDirectoryIndex_lt_of hv)).2
    have hindex := getTableIndex_lt v
    have halign := getFrameAddr_aligned (k₂.pdeOf v)
    have hne : b ≠ k₃.pteAddr v := by
      rintro rfl
      simp only [pageSize] at hbt halign
      rw [pteAddr, hframe] at hbt
      omega
    rw [hset.words b hb hne, hwords b hb hbd hbt]

/-! ## A slab on the way -/

/-- The slabs' area is where `init_kmalloc` puts it. -/
structure HeapPlaced (k : Kernel) : Prop where
  low : kernelBaseHeapAddr ≤ k.heap.currentHeapAddr
  aligned : k.heap.currentHeapAddr % pageSize = 0

/-- The next slab can be mapped: there is room for it, its page's table is in
memory, and its page is not mapped elsewhere. -/
structure SlabMappable (k : Kernel) : Prop where
  room : k.heap.currentHeapAddr ≤ kernelBaseHeapAddr + kernelHeapSize
  table : isPagePresent (k.pdeOf k.nextSlab) = true
  free : ∀ x, k.translate k.nextSlab = some x → x = k.heap.currentHeapAddr

/-- The slabs' virtual addresses, in the 4 MiB from `0x8000000` on. -/
theorem HeapPlaced.nextSlab_eq (h : k.HeapPlaced)
    (hroom : k.heap.currentHeapAddr ≤ kernelBaseHeapAddr + kernelHeapSize) :
    k.nextSlab = k.heap.currentHeapAddr + 0x4000000 ∧ k.nextSlab < 2 ^ 32 ∧
      getDirectoryIndex k.nextSlab = 32 ∧ k.nextSlab % pageSize = 0 := by
  have hlow := h.low
  have haligned := h.aligned
  rw [kernelHeapSize_eq] at hroom
  rw [kernelBaseHeapAddr_eq] at hlow hroom
  have heq : k.nextSlab = k.heap.currentHeapAddr + 0x4000000 := by
    rw [nextSlab, convertToVirAddr, kernelBaseHeapAddr_eq, u32_of_lt (by omega)]
  rw [getDirectoryIndex_eq, heq]
  simp only [pageSize] at haligned ⊢
  refine ⟨trivial, ?_, ?_, ?_⟩ <;> omega

section Slab

variable (h : k.Running lo) (hplaced : k.HeapPlaced)

include h hplaced

theorem Running.slabReady
    (hroom : k.heap.currentHeapAddr ≤ kernelBaseHeapAddr + kernelHeapSize)
    (htable : isPagePresent (k.pdeOf k.nextSlab) = true) : k.SlabReady k.dirFrame := by
  obtain ⟨_, hlt, hindex, _⟩ := hplaced.nextSlab_eq hroom
  exact ⟨hroom, h.paged.tableIn hlt (by rw [hindex]; decide) htable⟩

/-- Creating the slab sets its entry. -/
theorem Running.slabMapped_set
    (hroom : k.heap.currentHeapAddr ≤ kernelBaseHeapAddr + kernelHeapSize)
    (htable : isPagePresent (k.pdeOf k.nextSlab) = true) :
    k.slabTaken.PteSet (k.slabMapped k.dirFrame) k.nextSlab
      (installed (k.mem.load32 (k.pteAddr k.nextSlab)) k.heap.currentHeapAddr pageWriteable) := by
  obtain ⟨heq, hlt, hindex, _⟩ := hplaced.nextSlab_eq hroom
  have hsame := k.slabTaken_same
  have hroom' : k.heap.currentHeapAddr < 2 ^ 32 := by
    rw [kernelBaseHeapAddr_eq, kernelHeapSize_eq] at hroom
    omega
  have hset := (hsame.paged h.paged).pteSet hlt (by rw [hindex]; decide)
    (by rw [hsame.pdeOf, htable]) (@installed_lt (k.mem.load32 (k.pteAddr k.nextSlab)) _ pageWriteable
      hroom' (by decide))
  rw [hsame.pteAddr, hsame.mem] at hset
  exact hset

/-- It loses no mapping. -/
theorem Running.slabMapped (hmap : k.SlabMappable) :
    (k.slabMapped k.dirFrame).Running lo ∧ k.KeepsMaps (k.slabMapped k.dirFrame) ∧
      (k.slabMapped k.dirFrame).translate k.nextSlab = some k.heap.currentHeapAddr := by
  have hset := h.slabMapped_set hplaced hmap.room hmap.table
  obtain ⟨heq, hlt, hindex, haligned⟩ := hplaced.nextSlab_eq hmap.room
  have hsame := k.slabTaken_same
  have hon : k.slabTaken.pagingEnabled = true := by rw [hsame.paging, h.translate_on]
  have hphys : getFrameAddr k.heap.currentHeapAddr = k.heap.currentHeapAddr :=
    getFrameAddr_of_aligned hplaced.aligned (by omega)
  have hmapped := hset.mapped hon hlt (by rw [hsame.pdeOf, hmap.table]) isPagePresent_installed
  rw [getFrameAddr_installed (by decide), hphys, getFrameOffset_eq, haligned, Nat.add_zero]
    at hmapped
  have hkeeps : k.KeepsMaps (k.slabMapped k.dirFrame) := by
    intro u x hu hx
    by_cases hpage : u / pageSize = k.nextSlab / pageSize
    · -- the slab's own page, if it was mapped at all
      have hslab := translate_page h.translate_on hpage.symm hx
      rw [getFrameOffset_eq k.nextSlab, haligned, Nat.add_zero] at hslab
      have hframe := hmap.free _ hslab
      obtain ⟨_, _, hxu⟩ := (translate_eq_some h.translate_on).mp hx
      have hnow := translate_page (by rw [hset.paging, hon]) hpage hmapped
      rw [getFrameOffset_eq k.nextSlab, haligned, Nat.sub_zero] at hnow
      have hback : k.heap.currentHeapAddr + getFrameOffset u = x := by omega
      rw [hnow, hback]
    · rw [hset.others u hu hpage, hsame.translate, hx]
  have htaken := hsame.running k.slabTaken_pmm h
  exact ⟨htaken.of_keepsMaps hset.toSameRoot (hset.paged htaken.paged)
    (by rw [hset.pmm]; exact htaken.pmm) (hset.tables_used htaken)
    (fun u x hu hx => hkeeps u x hu (by rw [← hsame.translate, hx])), hkeeps, hmapped⟩

end Slab

/-! ## The new table while it is queued -/

theorem pageAllocated_heap (k : Kernel) (a f : Nat) : (k.pageAllocated a f).heap = k.heap :=
  setMem_heap _ _

theorem pageAllocated_root (k : Kernel) (a f : Nat) : k.SameRoot (k.pageAllocated a f) :=
  k.frameTaken_same.root.trans (setMem_root _ _)

theorem pageAllocated_pmm (k : Kernel) (a f : Nat) :
    (k.pageAllocated a f).pmm = k.frameTaken.pmm := setMem_pmm _ _

/-- The state in which the new table of `v` is queued. -/
abbrev queueing (k : Kernel) (v f : Nat) : Kernel := k.pageAllocated (k.pdeAddr v) f

section Queueing

variable (h : k.Running lo) (hv : v < 2 ^ 32) (habsent : isPagePresent (k.pdeOf v) = false)
  (hf : k.FrameFree f)

include hf

theorem FrameFree.lt_word : f < 2 ^ 32 := by
  have := hf.lt
  simp only [pageSize] at this
  omega

theorem FrameFree.pdeOf_queueing (u : Nat) : (k.queueing v f).pdeOf u =
    if getDirectoryIndex u = getDirectoryIndex v then allocatedWord (k.pdeOf v) f
    else k.pdeOf u := by
  have hroot := k.pageAllocated_root (k.pdeAddr v) f
  have haligned := k.dirFrame_aligned
  simp only [pageSize] at haligned
  rw [pdeOf_eq_load32, pdeAddr_congr hroot.cr3,
    load32_pageAllocated (k.pdeAddr_aligned v) (k.pdeAddr_aligned u) hf.lt_word]
  by_cases hdu : getDirectoryIndex u = getDirectoryIndex v
  · rw [if_pos hdu, if_pos (by rw [pdeAddr, pdeAddr, hdu])]
    rfl
  · rw [if_neg hdu, if_neg (by rw [pdeAddr, pdeAddr]; omega)]
    rfl

theorem FrameFree.present_queueing : isPagePresent ((k.queueing v f).pdeOf v) = true := by
  rw [hf.pdeOf_queueing, if_pos rfl, isPagePresent_allocatedWord]

include h hv habsent

omit habsent in
/-- Pages of other tables are mapped as before. -/
theorem Running.translate_queueing (hu : u < 2 ^ 32)
    (hbelow : getDirectoryIndex u ≠ recursivePageTableIndex)
    (hne : getDirectoryIndex u ≠ getDirectoryIndex v) :
    (k.queueing v f).translate u = k.translate u := by
  have hroot := k.pageAllocated_root (k.pdeAddr v) f
  have hpde : (k.queueing v f).pdeOf u = k.pdeOf u := by
    rw [hf.pdeOf_queueing, if_neg hne]
  rw [translate_words, translate_words, hroot.paging, hpde, pteAddr_of_pdeOf hpde]
  cases hpu : isPagePresent (k.pdeOf u) with
  | false => simp only [Bool.false_eq_true, if_false]
  | true =>
      have haddr : k.pteAddr u ≠ k.pdeAddr v :=
        h.paged.pteAddr_ne hu hbelow hpu (getDirectoryIndex_lt_of hv)
      have hword : (k.queueing v f).mem.load32 (k.pteAddr u) = k.mem.load32 (k.pteAddr u) := by
        rw [load32_pageAllocated (k.pdeAddr_aligned v) (k.pteAddr_aligned u) hf.lt_word,
          if_neg haddr]
      rw [hword]

end Queueing

/-- A call that returns has queued its new table. -/
theorem Running.queued_of_ok (h : k.Running lo) (hv : v < 2 ^ 32)
    (habsent : isPagePresent (k.pdeOf v) = false) (hin : isSwapped (k.pdeOf v) = false)
    (hf : k.FrameFree f) (hrun : vmmMapPage ext k.currentDirectory v p flags k = .ok ((), k')) :
    ∃ k₂, pageEnqueue ext (getPageTableVirAddr (getDirectoryIndex v)) (k.queueing v f) =
      .ok (true, k₂) := by
  have hidx := getDirectoryIndex_lt_of hv
  have hon := h.translate_on
  have hptr := h.dir.mapped _ hidx
  have hsteady : k.Steady (k.currentDirectory + 4 * getDirectoryIndex v) (k.pdeAddr v) :=
    steady_absent hon hptr (h.dirEntry_lt hidx) (k.pdeAddr_aligned v) habsent
  rw [vmmMapPage, if_neg h.dir.nonnull] at hrun
  obtain ⟨table, k₁, htable, _⟩ := Prog.bind_eq_ok.mp hrun
  rw [tableForMapping, Prog.bind_of_ok (loadWord_mapped hptr),
    show k.mem.load32 (k.dirFrame + 4 * getDirectoryIndex v) = k.pdeOf v from rfl, habsent,
    hin] at htable
  simp only [Bool.false_eq_true, if_false] at htable
  obtain ⟨allocated, k₂, halloc, htable⟩ := Prog.bind_eq_ok.mp htable
  cases allocated with
  | false =>
      rw [if_pos rfl] at htable
      cases htable
  | true =>
      rw [allocTable, Prog.get_bind_apply, if_pos hon, vmmAllocPage,
        Prog.bind_of_ok (hsteady.vmmAllocPermanentPage hf), if_neg (by decide)] at halloc
      obtain ⟨enqueued, k₃, hqueue, halloc⟩ := Prog.bind_eq_ok.mp halloc
      cases enqueued with
      | false =>
          rw [if_pos rfl] at halloc
          obtain ⟨_, _, _, halloc⟩ := Prog.bind_eq_ok.mp halloc
          obtain ⟨_, _, _, halloc⟩ := Prog.bind_eq_ok.mp halloc
          obtain ⟨_, _, _, halloc⟩ := Prog.bind_eq_ok.mp halloc
          cases halloc
      | true => exact ⟨k₃, hqueue⟩

/-- A node comes from the first cache, at a smaller depth. -/
theorem node_of_ok {n : Nat} (hqueue : pageEnqueue (link n) u k = .ok (true, k₂)) :
    ∃ m node k₁, n = m + 1 ∧ allocFromCache (link m) 0 k = .ok (node, k₁) ∧ node ≠ 0 ∧
      k₂ = { k₁ with pageFifoQueue := k₁.pageFifoQueue ++ [⟨node, u⟩] } := by
  rw [pageEnqueue] at hqueue
  obtain ⟨node, k₁, hnode, hrest⟩ := Prog.bind_eq_ok.mp hqueue
  clear hqueue
  cases n with
  | zero => cases hnode
  | succ m =>
      rw [show (link (m + 1)).kmalloc = kmalloc (link m) from rfl, kmalloc_node] at hnode
      by_cases hnull : node = 0
      · rw [if_pos hnull] at hrest
        cases hrest
      · rw [if_neg hnull] at hrest
        cases hrest
        exact ⟨m, node, k₁, rfl, hnode, hnull, rfl⟩

end Kernel
end MyOs
