import MyOs.Logic.CreateTable
import MyOs.Logic.Unmapping

/-!
# A frame for a page

A page fault on a page whose table is in memory fills one page entry: with a
free frame, after which the page is queued for eviction, or with the frame the
page is read into. `EntryFilled` is what the two have in common.
-/

namespace MyOs
namespace Kernel

/-- An entry of one of the directory's tables; the directory is its own last table. -/
def TableWord (k : Kernel) (b : Nat) : Prop :=
  ∃ i j, i < 1024 ∧ j < 1024 ∧ isPagePresent (k.entryAt k.dirFrame i) = true ∧
    b = getFrameAddr (k.entryAt k.dirFrame i) + 4 * j

/-- The entry of `v` is present with frame `f`, and every other entry has the frame
it had and is present as it was. -/
structure EntryFilled (k : Kernel) (v f : Nat) (k' : Kernel) : Prop where
  root : k.SameRoot k'
  present : isPagePresent (k'.mem.load32 (k.pteAddr v)) = true
  frame : getFrameAddr (k'.mem.load32 (k.pteAddr v)) = f
  others : ∀ b, k.TableWord b → b ≠ k.pteAddr v →
    isPagePresent (k'.mem.load32 b) = isPagePresent (k.mem.load32 b) ∧
      getFrameAddr (k'.mem.load32 b) = getFrameAddr (k.mem.load32 b)

section Filled

variable {k k' : Kernel} {lo b f u v : Nat}

theorem TableWord.aligned (h : k.TableWord b) : b % 4 = 0 := by
  obtain ⟨i, j, _, _, _, rfl⟩ := h
  have := getFrameAddr_aligned (k.entryAt k.dirFrame i)
  simp only [pageSize] at this
  omega

theorem Paged.tableWord_dir (h : k.Paged) {i : Nat} (hi : i < 1024) :
    k.TableWord (k.dirFrame + 4 * i) :=
  ⟨recursivePageTableIndex, i, by decide, hi, h.recursive.present, by rw [h.recursive.frame]⟩

theorem tableWord_pte (hu : u < 2 ^ 32) (hpu : isPagePresent (k.pdeOf u) = true) :
    k.TableWord (k.pteAddr u) :=
  ⟨getDirectoryIndex u, getTableIndex u, getDirectoryIndex_lt_of hu, getTableIndex_lt u, hpu, rfl⟩

/-- An entry that stays filled. -/
theorem EntryFilled.of_words {k₁ : Kernel} (hfill : k.EntryFilled v f k₁) (hroot : k₁.SameRoot k')
    (hpv : isPagePresent (k.pdeOf v) = true) (hv : v < 2 ^ 32)
    (hwords : ∀ b, k.TableWord b → isPagePresent (k'.mem.load32 b) = isPagePresent (k₁.mem.load32 b) ∧
      getFrameAddr (k'.mem.load32 b) = getFrameAddr (k₁.mem.load32 b)) : k.EntryFilled v f k' where
  root := hfill.root.trans hroot
  present := by rw [(hwords _ (tableWord_pte hv hpv)).1, hfill.present]
  frame := by rw [(hwords _ (tableWord_pte hv hpv)).2, hfill.frame]
  others := fun b hb hne => by
    rw [(hwords b hb).1, (hwords b hb).2]
    exact hfill.others b hb hne

section Walks

variable (hfill : k.EntryFilled v f k') (h : k.Paged) (hv : v < 2 ^ 32)
  (hbelow : getDirectoryIndex v ≠ recursivePageTableIndex)
  (hpv : isPagePresent (k.pdeOf v) = true)

include hfill h hv hbelow hpv

/-- The directory's entries lead to the same tables. -/
theorem EntryFilled.entryAt {i : Nat} (hi : i < 1024) :
    isPagePresent (k'.entryAt k.dirFrame i) = isPagePresent (k.entryAt k.dirFrame i) ∧
      getFrameAddr (k'.entryAt k.dirFrame i) = getFrameAddr (k.entryAt k.dirFrame i) :=
  hfill.others _ (h.tableWord_dir hi) (Ne.symm (h.pteAddr_ne hv hbelow hpv hi))

theorem EntryFilled.pteAddr (hu : u < 2 ^ 32) : k'.pteAddr u = k.pteAddr u := by
  rw [Kernel.pteAddr, Kernel.pteAddr, Kernel.pdeOf, Kernel.pdeOf, hfill.root.dirFrame,
    (hfill.entryAt h hv hbelow hpv (getDirectoryIndex_lt_of hu)).2]

/-- The page is mapped to the frame. -/
theorem EntryFilled.mapped : k'.translate v = some (f + getFrameOffset v) := by
  have hentry := (hfill.entryAt h hv hbelow hpv (getDirectoryIndex_lt_of hv)).1
  have hpte := hfill.pteAddr h hv hbelow hpv hv
  refine (translate_eq_some (hfill.root.paging.trans h.recursive.paging_on)).mpr ⟨?_, ?_, ?_⟩
  · rw [Kernel.pdeOf, hfill.root.dirFrame, hentry]
    exact hpv
  · rw [hpte, hfill.present]
  · rw [hpte, hfill.frame]

/-- Every other page is mapped as before. -/
theorem EntryFilled.translate (hu : u < 2 ^ 32) (hne : u / pageSize ≠ v / pageSize) :
    k'.translate u = k.translate u := by
  have hentry := (hfill.entryAt h hv hbelow hpv (getDirectoryIndex_lt_of hu)).1
  rw [translate_words, translate_words, hfill.root.paging, hfill.pteAddr h hv hbelow hpv hu,
    Kernel.pdeOf, hfill.root.dirFrame, hentry,
    show k.entryAt k.dirFrame (getDirectoryIndex u) = k.pdeOf u from rfl]
  cases hpu : isPagePresent (k.pdeOf u) with
  | false => simp only [Bool.false_eq_true, if_false]
  | true =>
      have haddr : k.pteAddr u ≠ k.pteAddr v := fun heq => hne (h.page_eq hu hv hpu hpv heq)
      obtain ⟨hpresent, hframe⟩ := hfill.others _ (tableWord_pte hu hpu) haddr
      rw [hpresent, hframe]

/-- Another entry refers to a frame as before. -/
theorem EntryFilled.refersTo {a g : Nat} (hne : a ≠ k.pteAddr v) :
    k'.RefersTo a g ↔ k.RefersTo a g := by
  have hword : k.IsEntry a → k.TableWord a := by
    rintro ⟨i, hi, rfl | ⟨hpresent, j, hj, rfl⟩⟩
    · exact h.tableWord_dir (Nat.lt_trans hi (by decide))
    · exact ⟨i, j, Nat.lt_trans hi (by decide), hj, hpresent, rfl⟩
  have hentry : k'.IsEntry a ↔ k.IsEntry a := by
    refine exists_congr fun i => and_congr_right fun hi => ?_
    obtain ⟨hpresent, hframe⟩ := hfill.entryAt h hv hbelow hpv (Nat.lt_trans hi (by decide))
    rw [hfill.root.dirFrame, hpresent, hframe]
  rw [RefersTo, RefersTo, hentry]
  refine and_congr_right fun ha => ?_
  obtain ⟨hpresent, hframe⟩ := hfill.others a (hword ha) hne
  rw [hpresent, hframe]

/-- The tables' entries are where they were. -/
theorem EntryFilled.tableWord (hb : k.TableWord b) : k'.TableWord b := by
  obtain ⟨i, j, hi, hj, hpresent, rfl⟩ := hb
  obtain ⟨hpresent', hframe⟩ := hfill.entryAt h hv hbelow hpv hi
  refine ⟨i, j, hi, hj, ?_, ?_⟩
  · rw [hfill.root.dirFrame, hpresent', hpresent]
  · rw [hfill.root.dirFrame, hframe]

section Twice

variable {k₂ : Kernel} {g s : Nat} (hfill₂ : k'.EntryFilled s g k₂) (hs : s < 2 ^ 32)

include hfill₂ hs

/-- The same entry, filled twice, has the second frame. -/
theorem EntryFilled.twice (hpage : s / pageSize = v / pageSize) : k.EntryFilled v g k₂ := by
  have hpte : k'.pteAddr s = k.pteAddr v := by
    rw [hfill.pteAddr h hv hbelow hpv hs, (walk_of_page hpage).2]
  refine
    { root := hfill.root.trans hfill₂.root
      present := by rw [← hpte, hfill₂.present]
      frame := by rw [← hpte, hfill₂.frame]
      others := fun b hb hne => ?_ }
  have hkept := hfill₂.others b (hfill.tableWord h hv hbelow hpv hb) (by rw [hpte]; exact hne)
  rw [hkept.1, hkept.2]
  exact hfill.others b hb hne

/-- Filling another entry with the frame it has changes nothing. -/
theorem EntryFilled.then_same (hne : s / pageSize ≠ v / pageSize)
    (hps : isPagePresent (k.pdeOf s) = true)
    (hpresent : isPagePresent (k.mem.load32 (k.pteAddr s)) = true)
    (hframe : getFrameAddr (k.mem.load32 (k.pteAddr s)) = g) : k.EntryFilled v f k₂ := by
  have hpte := hfill.pteAddr h hv hbelow hpv hs
  refine hfill.of_words hfill₂.root hpv hv fun b hb => ?_
  by_cases heq : b = k'.pteAddr s
  · have haddr : k.pteAddr s ≠ k.pteAddr v := fun haddr => hne (h.page_eq hs hv hps hpv haddr)
    have hold := hfill.others _ (tableWord_pte hs hps) haddr
    rw [heq, hfill₂.present, hfill₂.frame, hpte, hold.1, hold.2, hpresent, hframe]
    exact ⟨rfl, rfl⟩
  · exact hfill₂.others b (hfill.tableWord h hv hbelow hpv hb) heq

end Twice
end Walks

/-! ## A free frame -/

/-- A free frame is put in the entry of an unmapped page. -/
theorem Running.newPage (h : k.Running lo) (hv : v < 2 ^ 32)
    (hbelow : getDirectoryIndex v ≠ recursivePageTableIndex)
    (hpv : isPagePresent (k.pdeOf v) = true)
    (habsent : isPagePresent (k.mem.load32 (k.pteAddr v)) = false) (hf : k.FrameFree f) :
    (k.pageAllocated (k.pteAddr v) f).Running lo ∧
      k.frameTaken.PteSet (k.pageAllocated (k.pteAddr v) f) v
        (allocatedWord (k.mem.load32 (k.pteAddr v)) f) := by
  have hsame := k.frameTaken_same
  have hset := (hsame.paged h.paged).pteSet hv hbelow (by rw [hsame.pdeOf, hpv])
    (@allocatedWord_lt (k.mem.load32 (k.pteAddr v)) _ hf.lt_word)
  rw [hsame.pteAddr, hsame.mem] at hset
  change k.frameTaken.PteSet (k.pageAllocated (k.pteAddr v) f) v _ at hset
  have htaken : k.frameTaken.Running lo := by
    refine h.of_keepsMaps hsame.root (hsame.paged h.paged) (frameTaken_wf h.pmm)
      (fun i hi hpresent => ?_) hsame.keepsMaps
    rw [hsame.entryAt] at hpresent ⊢
    exact (hf.used _).mpr (.inr (h.tables_used i hi hpresent))
  refine ⟨?_, hset⟩
  have hkeeps : k.KeepsMaps (k.pageAllocated (k.pteAddr v) f) :=
    (keepsMaps_store_absent h.translate_on (k.pteAddr_aligned v) habsent _).trans
      (hsame.setMem _).keepsMaps
  refine h.of_keepsMaps (hsame.root.trans hset.toSameRoot) (hset.paged htaken.paged)
    (by rw [hset.pmm]; exact htaken.pmm) (fun i hi hpresent => ?_) hkeeps
  have hdir : k.frameTaken.dirFrame = k.dirFrame := hsame.dirFrame
  rw [← hdir] at hpresent ⊢
  exact hset.tables_used htaken i hi hpresent

/-- So the entry is filled. -/
theorem Running.newPage_filled (h : k.Running lo) (hv : v < 2 ^ 32)
    (hbelow : getDirectoryIndex v ≠ recursivePageTableIndex)
    (hpv : isPagePresent (k.pdeOf v) = true)
    (habsent : isPagePresent (k.mem.load32 (k.pteAddr v)) = false) (hf : k.FrameFree f) :
    k.EntryFilled v f (k.pageAllocated (k.pteAddr v) f) := by
  obtain ⟨_, hset⟩ := h.newPage hv hbelow hpv habsent hf
  have hsame := k.frameTaken_same
  have hword := hset.word
  rw [hsame.pteAddr] at hword
  refine
    { root := hsame.root.trans hset.toSameRoot
      present := by rw [hword, isPagePresent_allocatedWord]
      frame := by rw [hword, getFrameAddr_allocatedWord hf.aligned hf.lt_word]
      others := fun b hb hne => ?_ }
  have hkept := hset.words b hb.aligned (by rw [hsame.pteAddr]; exact hne)
  rw [hkept, hsame.mem]
  exact ⟨rfl, rfl⟩

/-- Queueing a page with no free object fills the entry of the next slab. -/
theorem Running.pageEnqueue_filled {ext inner : Ext} (h : k.Running lo) (hplaced : k.HeapPlaced)
    (hover : ext.Over inner) (hpop : popFree (k.heap.slabs 0) = none)
    (hroom : k.heap.currentHeapAddr ≤ kernelBaseHeapAddr + kernelHeapSize)
    (htable : isPagePresent (k.pdeOf k.nextSlab) = true) :
    ∃ k', pageEnqueue ext v k = .ok (true, k') ∧
      k.EntryFilled k.nextSlab k.heap.currentHeapAddr k' := by
  obtain ⟨_, hlt, _, _⟩ := hplaced.nextSlab_eq hroom
  have hphys : k.heap.currentHeapAddr < 2 ^ 32 := by
    rw [kernelBaseHeapAddr_eq, kernelHeapSize_eq] at hroom
    omega
  have hready := h.slabReady hplaced hroom htable
  have hset := h.slabMapped_set hplaced hroom htable
  obtain ⟨slab, k', _, hqueue, htaken⟩ := @DirectoryIn.pageEnqueue_slab ext inner k k.dirFrame v
    h.dir hover hpop hready
  refine ⟨k', hqueue, ?_⟩
  have hsame := k.slabTaken_same
  have hword := hset.word
  have hwords := hset.words
  rw [hsame.pteAddr] at hword hwords
  rw [hsame.mem] at hwords
  refine
    { root := (hsame.root.trans hset.toSameRoot).trans htaken.walks.root
      present := by rw [htaken.walks.mem, hword, isPagePresent_installed]
      frame := by
        rw [htaken.walks.mem, hword, getFrameAddr_installed (by decide),
          getFrameAddr_of_aligned hplaced.aligned hphys]
      others := fun b hb hne => ?_ }
  rw [htaken.walks.mem, hwords b hb.aligned hne]
  exact ⟨rfl, rfl⟩

end Filled

/-! ## A page that is out -/

/-- The state in which `vmm_swap_in_page` reads the page of the entry at `a` into
`f`. -/
def readingPage (k : Kernel) (a f : Nat) : Kernel :=
  k.frameTaken.setMem (k.mem.store32 a (pageEntrySetFrame (k.mem.load32 a) f))

/-- `vmm_swap_in_page` with a free frame, when the read leaves the pointer and the
entry as they are. -/
theorem EntryPtr.vmmSwapInPage {ext : Ext} {k k₂ : Kernel} {a e f v : Nat} (h : k.EntryPtr e a)
    (hf : k.FrameFree f) (hread : ext.swapRead f f (k.readingPage a f) = .ok ((), k₂))
    (hsize : diskSectorSize k₂ ≠ 0) (h₂ : k₂.EntryPtr e a)
    (hword : k₂.mem.load32 a = (k.readingPage a f).mem.load32 a) :
    vmmSwapInPage ext e v k = .ok (true, (k₂.slotsFreed f).setMem
      (k₂.mem.store32 a (swapInWord (pageEntrySetFrame (k.mem.load32 a) f)))) := by
  have hset : pageEntrySetFrame (k.mem.load32 a) f < 2 ^ 32 := pageEntrySetFrame_lt hf.lt_word
  have hslot : getFrameAddr (pageEntrySetFrame (k.mem.load32 a) f) = f := by
    rw [getFrameAddr_pageEntrySetFrame, getFrameAddr_of_aligned hf.aligned hf.lt_word]
  have htaken : k.frameTaken.EntryPtr e a := ⟨h.ptr, h.aligned, h.off_pde, h.off_pte⟩
  have hmodify : modifyWord ext e (fun w => pageEntrySetFrame w f) k.frameTaken =
      .ok ((), k.readingPage a f) := modifyWord_mapped htaken.ptr _
  have hreading : (k.readingPage a f).EntryPtr e a := htaken.store _
  have hstored : (k.readingPage a f).mem.load32 a = pageEntrySetFrame (k.mem.load32 a) f :=
    ByteStore.load32_store32 hset
  -- the slots are then freed, and the entry changed twice more
  have hsame := k₂.slotsFreed_same f
  have h₃ : (k₂.slotsFreed f).EntryPtr e a := by
    refine ⟨by rw [hsame.translate, h₂.ptr], h₂.aligned, ?_, ?_⟩
    · rw [pdeAddr_congr hsame.cr3]
      exact h₂.off_pde
    · rw [hsame.pteAddr]
      exact h₂.off_pte
  have hchanged := h₃.swapInEntry ext
  rw [hsame.mem, hword, hstored] at hchanged
  have hfree := diskFreeSlotsForPage_eq hsize f
  change diskFreeSlotsForPage f k₂ = .ok ((), k₂.slotsFreed f) at hfree
  rw [MyOs.vmmSwapInPage, Prog.bind_of_ok hf.allocFrameOrSwap, if_neg hf.nonnull,
    Prog.bind_of_ok hmodify, Prog.bind_of_ok (loadWord_mapped hreading.ptr), hstored, hslot]
  rw [Prog.bind_of_ok hread, Prog.bind_of_ok hfree]
  exact hchanged

end Kernel
end MyOs
