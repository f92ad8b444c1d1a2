import MyOs.Logic.NewPage
import MyOs.Theorems.SlotRelease

/-!
# Resolving a page fault

`page_fault_handler` looks the page's entry up before it knows whether the page
table exists, and looking up an entry of a table that does not exist panics.
When the table is in memory the page gets a frame: read back from the disk when
the page is swapped, otherwise a new one, and then the page is queued for
eviction, which can map the page of a new slab.
-/

namespace MyOs

open Kernel

/-- A fault on the page of `v`, which is not mapped, while the frame allocator has
`f` to give. -/
structure Faulting (k : Kernel) (v f : Nat) : Prop where
  running : k.Running 0
  placed : k.HeapPlaced
  lt : v < 2 ^ 32
  unmapped : k.translate v = none
  free : k.FrameFree f

/-- The page of `v` is mapped to a frame that no other entry refers to, and every
other page as before. -/
structure FaultResolved (k : Kernel) (v : Nat) (k' : Kernel) : Prop where
  mapped : ∃ frame, k'.translate v = some (frame + getFrameOffset v) ∧
    ∀ a, k'.RefersTo a frame → a = k'.pteAddr v
  others : ∀ u, u < 2 ^ 32 → u / pageSize ≠ v / pageSize → k'.translate u = k.translate u

/-- A page that is out is read back, and needs no queue node. -/
def PageOut (k : Kernel) (v : Nat) : Prop := isSwapped (k.mem.load32 (k.pteAddr v)) = true

/-- The queue node of a new page can be had without mapping another page: there is a
free object for it, or it comes from a slab whose page is mapped to the slab's frame
already, or is the very page of `v`. -/
inductive NodeAtHand (k : Kernel) (v : Nat) : Prop
  | object {o : Nat} {slabs : List Slab} : popFree (k.heap.slabs 0) = some (o, slabs) → o ≠ 0 →
      NodeAtHand k v
  | slab : popFree (k.heap.slabs 0) = none →
      k.heap.currentHeapAddr ≤ kernelBaseHeapAddr + kernelHeapSize →
      k.translate k.nextSlab = some k.heap.currentHeapAddr → NodeAtHand k v
  | own : popFree (k.heap.slabs 0) = none →
      k.heap.currentHeapAddr ≤ kernelBaseHeapAddr + kernelHeapSize →
      v / pageSize = k.nextSlab / pageSize → NodeAtHand k v

/-- The frame the page of `v` is left with: the one the allocator gave, or the new
slab's when the slab is put at the page. -/
def frameGiven (k : Kernel) (v f : Nat) : Nat :=
  if isSwapped (k.mem.load32 (k.pteAddr v)) = false ∧ popFree (k.heap.slabs 0) = none ∧
    v / pageSize = k.nextSlab / pageSize then k.heap.currentHeapAddr else f

/-- The fault can be resolved: `v` is below the window on the page tables, its table
is in memory, no entry refers to the frame, and a new page's node is at hand. -/
structure Resolvable (k : Kernel) (v f : Nat) : Prop where
  below : getDirectoryIndex v ≠ recursivePageTableIndex
  table : isPagePresent (k.pdeOf v) = true
  table_in : isSwapped (k.pdeOf v) = false
  fresh : ∀ a, ¬ k.RefersTo a (frameGiven k v f)
  node : ¬ PageOut k v → NodeAtHand k v

/-- Reading the page of `v` into `f` completes and leaves the page tables alone. -/
def ReadCompletes (ext : Ext) (k : Kernel) (v f : Nat) : Prop :=
  ∃ k₂, ext.swapRead f f (k.readingPage (k.pteAddr v) f) = .ok ((), k₂) ∧ k.SameRoot k₂ ∧
    diskSectorSize k₂ ≠ 0 ∧ ∀ b, k.TableWord b → k₂.mem.load32 b = (k.readingPage (k.pteAddr v) f).mem.load32 b

namespace Faulting

variable {ext inner : Ext} {k k' : Kernel} {v f code : Nat} (h : Faulting k v f)

include h

theorem absent (hpv : isPagePresent (k.pdeOf v) = true) :
    isPagePresent (k.mem.load32 (k.pteAddr v)) = false := by
  cases hpte : isPagePresent (k.mem.load32 (k.pteAddr v)) with
  | false => rfl
  | true =>
      have hmapped := (translate_eq_some h.running.translate_on).mpr ⟨hpv, hpte, rfl⟩
      rw [h.unmapped] at hmapped
      cases hmapped

/-- The entry that is filled is the only one with a frame nothing referred to. -/
theorem resolved_iff {g : Nat} (hpv : isPagePresent (k.pdeOf v) = true)
    (hbelow : getDirectoryIndex v ≠ recursivePageTableIndex) (hfill : k.EntryFilled v g k') :
    FaultResolved k v k' ↔ ∀ a, ¬ k.RefersTo a g := by
  have hpaged := h.running.paged
  have hpte := hfill.pteAddr hpaged h.lt hbelow hpv h.lt
  have hmapped := hfill.mapped hpaged h.lt hbelow hpv
  constructor
  · rintro ⟨⟨frame, htranslate, howner⟩, _⟩ a ha
    rw [hmapped] at htranslate
    have hframe : g = frame := Nat.add_right_cancel (Option.some.inj htranslate)
    -- the page was not present, so the entry that refers to the frame is another one
    have hne : a ≠ k.pteAddr v := by
      rintro rfl
      have hpresent := ha.2.1
      rw [h.absent hpv] at hpresent
      cases hpresent
    rw [← hframe, hpte] at howner
    exact hne (howner a ((hfill.refersTo hpaged h.lt hbelow hpv hne).mpr ha))
  · intro hfresh
    refine ⟨⟨g, hmapped, fun a ha => ?_⟩, fun u hu hne => ?_⟩
    · rw [hpte]
      refine Classical.byContradiction fun hne => ?_
      exact hfresh a ((hfill.refersTo hpaged h.lt hbelow hpv hne).mp ha)
    · exact hfill.translate hpaged h.lt hbelow hpv hu hne

section Table

variable (hpv : isPagePresent (k.pdeOf v) = true) (hin : isSwapped (k.pdeOf v) = false)

include hpv hin

theorem getPageEntry : vmmGetPageEntry ext v k = .ok (windowAddr v, k) :=
  vmmGetPageEntry_mapped h.running.translate_on h.running.dir.nonnull
    (h.running.dir.mapped _ (getDirectoryIndex_lt_of h.lt)) hpv hin

omit hin in
theorem entryPtr (hbelow : getDirectoryIndex v ≠ recursivePageTableIndex) :
    k.EntryPtr (windowAddr v) (k.pteAddr v) :=
  h.running.paged.windowPtr h.lt hpv (h.running.paged.pteAddr_ne h.lt hbelow hpv (by decide))

/-- A page that is out is read into the frame. -/
theorem runs_swapped (hbelow : getDirectoryIndex v ≠ recursivePageTableIndex)
    (hcode : code &&& 0x1 = 0) (hswapped : isSwapped (k.mem.load32 (k.pteAddr v)) = true)
    (hread : ReadCompletes ext k v f) :
    ∃ k', pageFaultHandler ext v code k = .ok ((), k') ∧ k.EntryFilled v f k' := by
  obtain ⟨k₂, hrun, hroot, hsize, hwords⟩ := hread
  have hptr := h.entryPtr hpv hbelow
  have hpaged := h.running.paged
  have hset : pageEntrySetFrame (k.mem.load32 (k.pteAddr v)) f < 2 ^ 32 :=
    pageEntrySetFrame_lt h.free.lt_word
  have hother {b : Nat} (hb : k.TableWord b) (hne : b ≠ k.pteAddr v) :
      k₂.mem.load32 b = k.mem.load32 b := by
    have halign := hb.aligned
    have halign' := k.pteAddr_aligned v
    rw [hwords b hb]
    exact ByteStore.load32_store32_ne (by omega)
  have hdir {i : Nat} (hi : i < 1024) : k₂.mem.load32 (k.dirFrame + 4 * i) =
      k.mem.load32 (k.dirFrame + 4 * i) :=
    hother (hpaged.tableWord_dir hi) (Ne.symm (hpaged.pteAddr_ne h.lt hbelow hpv hi))
  have hptr₂ := hroot.windowPtr hpaged.recursive h.lt (hdir (by decide))
    (hdir (getDirectoryIndex_lt_of h.lt)) hptr
  have hswapIn := @EntryPtr.vmmSwapInPage ext _ _ _ _ _ v hptr h.free hrun hsize hptr₂
    (hwords _ (tableWord_pte h.lt hpv))
  have hsame := k₂.slotsFreed_same f
  obtain ⟨k', hk'⟩ : ∃ k', k' = (k₂.slotsFreed f).setMem (k₂.mem.store32 (k.pteAddr v)
    (swapInWord (pageEntrySetFrame (k.mem.load32 (k.pteAddr v)) f))) := ⟨_, rfl⟩
  rw [← hk'] at hswapIn
  have hnew : k'.mem.load32 (k.pteAddr v) =
      swapInWord (pageEntrySetFrame (k.mem.load32 (k.pteAddr v)) f) := by
    rw [hk', setMem]
    exact ByteStore.load32_store32 (swapInWord_lt hset)
  refine ⟨k', ?_, ?_⟩
  · rw [pageFaultHandler, Prog.bind_of_ok (h.getPageEntry hpv hin), if_pos hcode,
      Prog.bind_of_ok (loadWord_mapped hptr.ptr), if_pos hswapped, Prog.bind_of_ok hswapIn,
      if_neg (by decide)]
    rfl
  · refine
      { root := by rw [hk']; exact (hroot.trans hsame.root).trans (setMem_root _ _)
        present := by rw [hnew, isPagePresent_swapInWord]
        frame := by
          rw [hnew, getFrameAddr_swapInWord, getFrameAddr_pageEntrySetFrame,
            getFrameAddr_of_aligned h.free.aligned h.free.lt_word]
        others := fun b hb hne => ?_ }
    have halign := hb.aligned
    have halign' := k.pteAddr_aligned v
    have hkept : k'.mem.load32 b = k.mem.load32 b := by
      rw [hk', setMem, ← hother hb hne]
      exact ByteStore.load32_store32_ne (by omega)
    rw [hkept]
    exact ⟨rfl, rfl⟩

/-- A page that is not out gets the frame, and is queued. -/
theorem runs_queued {k₂ : Kernel} (hbelow : getDirectoryIndex v ≠ recursivePageTableIndex)
    (hcode : code &&& 0x1 = 0) (hswapped : isSwapped (k.mem.load32 (k.pteAddr v)) = false)
    (hqueue : pageEnqueue ext v (k.pageAllocated (k.pteAddr v) f) = .ok (true, k₂)) :
    pageFaultHandler ext v code k = .ok ((), k₂) := by
  have hptr := h.entryPtr hpv hbelow
  have halloc := hptr.steady.vmmAllocPage h.free hqueue
  rw [pageFaultHandler, Prog.bind_of_ok (h.getPageEntry hpv hin), if_pos hcode,
    Prog.bind_of_ok (loadWord_mapped hptr.ptr), hswapped, if_neg (by decide),
    Prog.bind_of_ok halloc, if_neg (by decide)]
  rfl

/-- With a free object for the node, the page's entry is all that changes. -/
theorem runs_object (hover : ext.Over inner)
    (hbelow : getDirectoryIndex v ≠ recursivePageTableIndex) (hcode : code &&& 0x1 = 0)
    (hswapped : isSwapped (k.mem.load32 (k.pteAddr v)) = false) {o : Nat} {slabs : List Slab}
    (hpop : popFree (k.heap.slabs 0) = some (o, slabs)) (ho : o ≠ 0) :
    ∃ k', pageFaultHandler ext v code k = .ok ((), k') ∧ k.EntryFilled v f k' := by
  have hfill := h.running.newPage_filled h.lt hbelow hpv (h.absent hpv) h.free
  obtain ⟨k', hqueue, htaken⟩ := @pageEnqueue_object ext inner
    (k.pageAllocated (k.pteAddr v) f) v o slabs hover (by rw [pageAllocated_heap, hpop]) ho
  refine ⟨k', h.runs_queued hpv hin hbelow hcode hswapped hqueue, ?_⟩
  refine hfill.of_words htaken.walks.root hpv h.lt fun b _ => ?_
  rw [htaken.walks.mem]
  exact ⟨rfl, rfl⟩

/-- With a slab for the node, the slab's entry is filled after the page's. -/
theorem runs_slab (hover : ext.Over inner)
    (hbelow : getDirectoryIndex v ≠ recursivePageTableIndex) (hcode : code &&& 0x1 = 0)
    (hswapped : isSwapped (k.mem.load32 (k.pteAddr v)) = false)
    (hpop : popFree (k.heap.slabs 0) = none)
    (hroom : k.heap.currentHeapAddr ≤ kernelBaseHeapAddr + kernelHeapSize)
    (htable : isPagePresent (k.pdeOf k.nextSlab) = true) :
    ∃ q k', pageFaultHandler ext v code k = .ok ((), k') ∧ q.Paged ∧ k.EntryFilled v f q ∧
      q.EntryFilled k.nextSlab k.heap.currentHeapAddr k' := by
  have hfill := h.running.newPage_filled h.lt hbelow hpv (h.absent hpv) h.free
  have hrunning := (h.running.newPage h.lt hbelow hpv (h.absent hpv) h.free).1
  have hheap : (k.pageAllocated (k.pteAddr v) f).heap = k.heap := k.pageAllocated_heap _ f
  have hqueued := fun k₂ => @runs_queued ext k v f code h hpv hin k₂ hbelow hcode hswapped
  obtain ⟨_, hlt, _, _⟩ := h.placed.nextSlab_eq hroom
  generalize k.pageAllocated (k.pteAddr v) f = q at hfill hrunning hheap hqueued
  have hplaced : q.HeapPlaced :=
    ⟨by rw [hheap]; exact h.placed.low, by rw [hheap]; exact h.placed.aligned⟩
  have hnext : q.nextSlab = k.nextSlab := by rw [nextSlab, nextSlab, hheap]
  have hentry := (hfill.entryAt h.running.paged h.lt hbelow hpv (getDirectoryIndex_lt_of hlt)).1
  obtain ⟨k', hqueue, hslab⟩ := hrunning.pageEnqueue_filled hplaced hover (by rw [hheap, hpop])
    (by rw [hheap]; exact hroom) (by rw [hnext, pdeOf, hfill.root.dirFrame, hentry]; exact htable)
  rw [hnext, hheap] at hslab
  exact ⟨q, k', hqueued k' hqueue, hrunning.paged, hfill, hslab⟩

/-- A handler that returns has queued its page. -/
theorem queued_of_ok (hbelow : getDirectoryIndex v ≠ recursivePageTableIndex)
    (hcode : code &&& 0x1 = 0) (hswapped : isSwapped (k.mem.load32 (k.pteAddr v)) = false)
    (hrun : pageFaultHandler ext v code k = .ok ((), k')) :
    ∃ k₂, pageEnqueue ext v (k.pageAllocated (k.pteAddr v) f) = .ok (true, k₂) := by
  have hptr := h.entryPtr hpv hbelow
  rw [pageFaultHandler, Prog.bind_of_ok (h.getPageEntry hpv hin), if_pos hcode,
    Prog.bind_of_ok (loadWord_mapped hptr.ptr), hswapped, if_neg (by decide)] at hrun
  obtain ⟨allocated, k₁, halloc, hrest⟩ := Prog.bind_eq_ok.mp hrun
  cases allocated with
  | false =>
      rw [if_pos rfl] at hrest
      cases hrest
  | true =>
      rw [vmmAllocPage, Prog.bind_of_ok (hptr.steady.vmmAllocPermanentPage h.free),
        if_neg (by decide)] at halloc
      obtain ⟨enqueued, k₂, hqueue, hdone⟩ := Prog.bind_eq_ok.mp halloc
      cases enqueued with
      | false =>
          rw [if_pos rfl] at hdone
          obtain ⟨_, _, _, hdone⟩ := Prog.bind_eq_ok.mp hdone
          obtain ⟨_, _, _, hdone⟩ := Prog.bind_eq_ok.mp hdone
          obtain ⟨_, _, _, hdone⟩ := Prog.bind_eq_ok.mp hdone
          cases hdone
      | true => exact ⟨k₂, hqueue⟩

end Table

end Faulting

section Resolution

variable {ext inner : Ext} {k k' : Kernel} {v f code : Nat}

/-- A queued page has its node from a free object, or from a slab there was room for. -/
theorem node_of_queued (hover : ext.Over inner) (hqueue : pageEnqueue ext v k = .ok (true, k')) :
    (∃ o slabs, popFree (k.heap.slabs 0) = some (o, slabs) ∧ o ≠ 0) ∨
      popFree (k.heap.slabs 0) = none ∧
        k.heap.currentHeapAddr ≤ kernelBaseHeapAddr + kernelHeapSize := by
  rw [pageEnqueue] at hqueue
  obtain ⟨node, k₁, hnode, hrest⟩ := Prog.bind_eq_ok.mp hqueue
  rw [hover.kmalloc, kmalloc_node] at hnode
  cases hpop : popFree (k.heap.slabs 0) with
  | none => exact .inr ⟨rfl, (slab_of_ok hpop hnode).1⟩
  | some r =>
      obtain ⟨object, slabs⟩ := r
      rw [allocFromCache_free hpop] at hnode
      cases hnode
      refine .inl ⟨node, slabs, rfl, fun hnull => ?_⟩
      rw [if_pos hnull] at hrest
      cases hrest

theorem frameGiven_own (hswapped : isSwapped (k.mem.load32 (k.pteAddr v)) = false)
    (hpop : popFree (k.heap.slabs 0) = none) (hpage : v / pageSize = k.nextSlab / pageSize) :
    frameGiven k v f = k.heap.currentHeapAddr := if_pos ⟨hswapped, hpop, hpage⟩

theorem frameGiven_free (h : PageOut k v ∨ popFree (k.heap.slabs 0) ≠ none ∨
    v / pageSize ≠ k.nextSlab / pageSize) : frameGiven k v f = f := by
  refine if_neg ?_
  rintro ⟨hswapped, hpop, hpage⟩
  rcases h with hout | hpop' | hpage'
  · rw [PageOut, hswapped] at hout
    cases hout
  · exact hpop' hpop
  · exact hpage' hpage

/-- The slab's entry of the state, when the slab's page is mapped. -/
theorem Faulting.nextSlab_word (h : Faulting k v f)
    (hroom : k.heap.currentHeapAddr ≤ kernelBaseHeapAddr + kernelHeapSize)
    (hmapped : k.translate k.nextSlab = some k.heap.currentHeapAddr) :
    isPagePresent (k.pdeOf k.nextSlab) = true ∧
      isPagePresent (k.mem.load32 (k.pteAddr k.nextSlab)) = true ∧
      getFrameAddr (k.mem.load32 (k.pteAddr k.nextSlab)) = k.heap.currentHeapAddr := by
  obtain ⟨_, _, _, haligned⟩ := h.placed.nextSlab_eq hroom
  obtain ⟨hpde, hpte, heq⟩ := (translate_eq_some h.running.translate_on).mp hmapped
  refine ⟨hpde, hpte, ?_⟩
  rw [getFrameOffset_eq, haligned, Nat.add_zero] at heq
  exact heq.symm

/-- The condition is enough. -/
theorem Resolvable.resolves (hres : Resolvable k v f) (h : Faulting k v f)
    (hover : ext.Over inner) (hcode : code &&& 0x1 = 0)
    (hread : PageOut k v → ReadCompletes ext k v f) :
    ∃ k', pageFaultHandler ext v code k = .ok ((), k') ∧ FaultResolved k v k' := by
  obtain ⟨hbelow, hpv, hin, hfresh, hnode⟩ := hres
  by_cases hout : PageOut k v
  · rw [frameGiven_free (.inl hout)] at hfresh
    obtain ⟨k', hrun, hfill⟩ := h.runs_swapped hpv hin hbelow hcode hout (hread hout)
    exact ⟨k', hrun, (h.resolved_iff hpv hbelow hfill).mpr hfresh⟩
  · have hswapped : isSwapped (k.mem.load32 (k.pteAddr v)) = false := Bool.eq_false_iff.mpr hout
    rcases hnode hout with ⟨hpop, ho⟩ | ⟨hpop, hroom, hmapped⟩ | ⟨hpop, hroom, hpage⟩
    · rw [frameGiven_free (.inr (.inl (by rw [hpop]; exact Option.some_ne_none _)))] at hfresh
      obtain ⟨k', hrun, hfill⟩ := h.runs_object hpv hin hover hbelow hcode hswapped hpop ho
      exact ⟨k', hrun, (h.resolved_iff hpv hbelow hfill).mpr hfresh⟩
    · obtain ⟨htable, hpresent, hframe⟩ := h.nextSlab_word hroom hmapped
      obtain ⟨_, hlt, _, _⟩ := h.placed.nextSlab_eq hroom
      -- the page of `v` is not mapped and the slab's is
      have hne : v / pageSize ≠ k.nextSlab / pageSize := by
        intro hpage
        have hpresent' := h.absent hpv
        rw [(walk_of_page hpage).2, hpresent] at hpresent'
        cases hpresent'
      rw [frameGiven_free (.inr (.inr hne))] at hfresh
      obtain ⟨q, k', hrun, _, hfill, hslab⟩ :=
        h.runs_slab hpv hin hover hbelow hcode hswapped hpop hroom htable
      have hsame := hfill.then_same h.running.paged h.lt hbelow hpv hslab hlt (Ne.symm hne) htable
        hpresent hframe
      exact ⟨k', hrun, (h.resolved_iff hpv hbelow hsame).mpr hfresh⟩
    · obtain ⟨_, hlt, _, _⟩ := h.placed.nextSlab_eq hroom
      have htable : isPagePresent (k.pdeOf k.nextSlab) = true := by
        rw [pdeOf_eq_load32, ← (walk_of_page hpage).1]
        exact hpv
      rw [frameGiven_own hswapped hpop hpage] at hfresh
      obtain ⟨q, k', hrun, _, hfill, hslab⟩ :=
        h.runs_slab hpv hin hover hbelow hcode hswapped hpop hroom htable
      have htwice := hfill.twice h.running.paged h.lt hbelow hpv hslab hlt hpage.symm
      exact ⟨k', hrun, (h.resolved_iff hpv hbelow htwice).mpr hfresh⟩

/-- Without the page's table the handler panics before it looks at the error code. -/
theorem Faulting.panics (h : Faulting k v f) (hin : isSwapped (k.pdeOf v) = false)
    (habsent : isPagePresent (k.pdeOf v) = false) : pageFaultHandler ext v code k =
      .error (.panic
        "Trying to access a page that is not present. how tf did we mange to get here?") := by
  have hpde : loadWord ext (k.currentDirectory + 4 * getDirectoryIndex v) k = .ok (k.pdeOf v, k) :=
    loadWord_mapped (h.running.dir.mapped _ (getDirectoryIndex_lt_of h.lt))
  have htable : swapInTable ext (k.currentDirectory + 4 * getDirectoryIndex v)
      (getPageTableVirAddr (getDirectoryIndex v)) k = .ok (true, k) := by
    rw [swapInTable, Prog.bind_of_ok hpde, hin]
    rfl
  have hentry : vmmGetPageEntry ext v k = .error (.panic
      "Trying to access a page that is not present. how tf did we mange to get here?") := by
    rw [vmmGetPageEntry, Prog.get_bind_apply, if_neg h.running.dir.nonnull,
      Prog.bind_of_ok htable, if_neg (by decide), Prog.bind_of_ok hpde, if_pos habsent]
    rfl
  exact Prog.bind_of_error hentry

theorem Faulting.table_of_ok (h : Faulting k v f) (hin : isSwapped (k.pdeOf v) = false)
    (hrun : pageFaultHandler ext v code k = .ok ((), k')) : isPagePresent (k.pdeOf v) = true := by
  cases hpv : isPagePresent (k.pdeOf v) with
  | true => rfl
  | false =>
      rw [h.panics hin hpv] at hrun
      cases hrun

/-- The condition is needed. -/
theorem Resolvable.of_resolved (h : Faulting k v f) (hover : ext.Over inner)
    (hcode : code &&& 0x1 = 0) (hread : PageOut k v → ReadCompletes ext k v f)
    (hbelow : getDirectoryIndex v ≠ recursivePageTableIndex) (hin : isSwapped (k.pdeOf v) = false)
    (hslab : ¬ PageOut k v → popFree (k.heap.slabs 0) = none →
      isPagePresent (k.pdeOf k.nextSlab) = true)
    (hrun : pageFaultHandler ext v code k = .ok ((), k')) (hdone : FaultResolved k v k') :
    Resolvable k v f := by
  have hpv := h.table_of_ok hin hrun
  by_cases hout : PageOut k v
  · obtain ⟨k₁, hrun₁, hfill⟩ := h.runs_swapped hpv hin hbelow hcode hout (hread hout)
    cases hrun.symm.trans hrun₁
    have hfresh := (h.resolved_iff hpv hbelow hfill).mp hdone
    exact ⟨hbelow, hpv, hin, by rw [frameGiven_free (.inl hout)]; exact hfresh,
      fun hn => absurd hout hn⟩
  · have hswapped : isSwapped (k.mem.load32 (k.pteAddr v)) = false := Bool.eq_false_iff.mpr hout
    obtain ⟨k₂, hqueue⟩ := h.queued_of_ok hpv hin hbelow hcode hswapped hrun
    have hheap : (k.pageAllocated (k.pteAddr v) f).heap = k.heap := k.pageAllocated_heap _ f
    have hnode := node_of_queued hover hqueue
    rw [hheap] at hnode
    rcases hnode with ⟨o, slabs, hpop, ho⟩ | ⟨hpop, hroom⟩
    · obtain ⟨k₁, hrun₁, hfill⟩ := h.runs_object hpv hin hover hbelow hcode hswapped hpop ho
      cases hrun.symm.trans hrun₁
      have hgiven : frameGiven k v f = f :=
        frameGiven_free (.inr (.inl (by rw [hpop]; exact Option.some_ne_none _)))
      have hfresh := (h.resolved_iff hpv hbelow hfill).mp hdone
      exact ⟨hbelow, hpv, hin, by rw [hgiven]; exact hfresh, fun _ => .object hpop ho⟩
    · have htable := hslab hout hpop
      obtain ⟨_, hlt, hindex, haligned⟩ := h.placed.nextSlab_eq hroom
      obtain ⟨q, k₁, hrun₁, hpaged, hfill, hfill₂⟩ :=
        h.runs_slab hpv hin hover hbelow hcode hswapped hpop hroom htable
      cases hrun.symm.trans hrun₁
      by_cases hpage : v / pageSize = k.nextSlab / pageSize
      · have htwice := hfill.twice h.running.paged h.lt hbelow hpv hfill₂ hlt hpage.symm
        have hfresh := (h.resolved_iff hpv hbelow htwice).mp hdone
        exact ⟨hbelow, hpv, hin, by rw [frameGiven_own hswapped hpop hpage]; exact hfresh,
          fun _ => .own hpop hroom hpage⟩
      · -- the slab's page is mapped now, so it was before
        have hpq : isPagePresent (q.pdeOf k.nextSlab) = true := by
          rw [pdeOf, hfill.root.dirFrame, (hfill.entryAt h.running.paged h.lt hbelow hpv
            (getDirectoryIndex_lt_of hlt)).1]
          exact htable
        have hmapped := hfill₂.mapped hpaged hlt (by rw [hindex]; decide) hpq
        rw [hdone.others _ hlt (Ne.symm hpage), getFrameOffset_eq, haligned, Nat.add_zero] at hmapped
        obtain ⟨_, hpresent, hframe⟩ := h.nextSlab_word hroom hmapped
        have hsame := hfill.then_same h.running.paged h.lt hbelow hpv hfill₂ hlt (Ne.symm hpage)
          htable hpresent hframe
        have hfresh := (h.resolved_iff hpv hbelow hsame).mp hdone
        exact ⟨hbelow, hpv, hin, by rw [frameGiven_free (.inr (.inr hpage))]; exact hfresh,
          fun _ => .slab hpop hroom hmapped⟩

end Resolution

/-! ## A small machine -/

/-- A directory in frame `0x100000` with itself in its last entry and one empty table. -/
def faultWords : List (Nat × Nat) := [(0x100FFC, 0x100003), (0x100000, 0x101003)]

/-- One free 16-byte object, and `0x8000` the next free frame. -/
def faultKernel : Kernel :=
  { smallKernel [⟨0x8000000, 16, [0x8000014]⟩] with mem := ByteStore.ofWords faultWords }

theorem faultKernel_running : faultKernel.Running 0 := by
  have hwords : DirectoryWords faultWords 0x100000 := by decide
  have hused : ∀ p ∈ faultWords, 0x100000 ≤ p.1 → p.1 < 0x100000 + pageSize →
      isPagePresent p.2 = true → swapPmm.pmmBitmap.bit (frameBit (getFrameAddr p.2)) = true := by
    decide
  exact hwords.running rfl (by decide : getFrameAddr 0x100000 = 0x100000) rfl
    (by decide : 0xFFFFF000 = getPageTableVirAddr recursivePageTableIndex)
    ((@swapKernel_wf 1 (by decide)).pmm.mono (Nat.zero_le 8)) hused

theorem faultKernel_faulting {v : Nat} (hv : v < 2 ^ 32) (hunmapped : faultKernel.translate v = none) :
    Faulting faultKernel v 0x8000 where
  running := faultKernel_running
  placed := ⟨(by decide : kernelBaseHeapAddr ≤ 0x4001000), (by decide : 0x4001000 % pageSize = 0)⟩
  lt := hv
  unmapped := hunmapped
  free := frameFree_of faultKernel_running.pmm (by decide : swapPmm.pmmAllocFrame.1 = 0x8000)
    (by decide)

theorem faultKernel_fresh (a : Nat) : ¬ faultKernel.RefersTo a 0x8000 := by
  rintro ⟨hentry, hpresent, hframe⟩
  have hother : ∀ p ∈ faultWords, getFrameAddr p.2 ≠ 0x8000 := by decide
  have hword : (ByteStore.ofWords faultWords).load32 a = 0 ∨
      (a, (ByteStore.ofWords faultWords).load32 a) ∈ faultWords :=
    ByteStore.load32_ofWords_mem hentry.aligned (by decide)
  rcases hword with hzero | hmem
  · have hword : faultKernel.mem.load32 a = 0 := hzero
    rw [hword] at hpresent
    cases hpresent
  · exact hother _ hmem hframe

end MyOs
