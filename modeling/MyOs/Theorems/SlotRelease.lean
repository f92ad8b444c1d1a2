import MyOs.Logic.Unmapping
import MyOs.Theorems.TableCreation

/-!
# Unmapping a page that was swapped out

`vmm_swap_out_page` ORs the slot number into the page's entry, and
`vmm_unmap_page` takes the slot from the frame bits of the entry. The two are
the same number just when the slot is a multiple of 4096; otherwise the slot
also sets attribute bits, PRESENT among them when it is odd.
-/

namespace MyOs

open Kernel

/-- A present page whose table is in memory, not the directory's own page in the
window, about to be swapped out to the slots from `s` on. -/
structure PageGoesOut (k : Kernel) (v s : Nat) : Prop where
  running : k.Running 0
  slots_index : k.slots.lastAllocIndex ≤ diskBitmapSize
  lt : v < 2 ^ 32
  table : isPagePresent (k.pdeOf v) = true
  table_in : isSwapped (k.pdeOf v) = false
  present : isPagePresent (k.mem.load32 (k.pteAddr v)) = true
  off_self : k.pteAddr v ≠ k.selfAddr
  slot : (k.slots.diskAllocSlots k.pageSlots).1 = s

/-- A word on the way to the entry of `v` or to the current directory. -/
def OnTheWay (k : Kernel) (v a : Nat) : Prop :=
  a = k.selfAddr ∨ a = k.pdeAddr v ∨ a = k.pteAddr v ∨ a = k.pdeAddr k.currentDirectory ∨
    a = k.pteAddr k.currentDirectory

/-- What the write to the disk may not touch: the current directory and the way to
it and to the entry of `v`, the drive's sector size, and the slots just taken. -/
structure TransferKeeps (k : Kernel) (v s : Nat) (k₂ : Kernel) : Prop where
  root : k.SameRoot k₂
  sectorSize : diskSectorSize k₂ = diskSectorSize k
  words : ∀ a, OnTheWay k v a → k₂.mem.load32 a = k.mem.load32 a
  slots : ∀ j, s ≤ j → j < s + k.pageSlots → k₂.slots.diskBitmap.bit j = true

/-- The state in which the page is written. -/
def Kernel.slotsTaken (k : Kernel) : Kernel :=
  { k with slots := (k.slots.diskAllocSlots k.pageSlots).2 }

/-- The write that `vmm_swap_out_page` makes for `v` keeps to that, if it returns. -/
def TransferKept (ext : Ext) (k : Kernel) (v s : Nat) : Prop :=
  ∀ k₂, ext.swapWrite s (getFrameAddr (k.mem.load32 (k.pteAddr v))) k.slotsTaken = .ok ((), k₂) →
    TransferKeeps k v s k₂

/-- After the page of `v` went out to the slots from `s` on. -/
structure WentOut (k : Kernel) (v s : Nat) (k' : Kernel) : Prop where
  sectorSize : diskSectorSize k' ≠ 0
  pos : 0 < k.pageSlots
  le : s + k.pageSlots ≤ diskBitmapSize * 8
  root : k.SameRoot k'
  pageSlots : k'.pageSlots = k.pageSlots
  word : k'.mem.load32 (k.pteAddr v) = swapOutWord (k.mem.load32 (k.pteAddr v)) s
  others : ∀ a, OnTheWay k v a → a % 4 = 0 → a ≠ k.pteAddr v → k'.mem.load32 a = k.mem.load32 a
  slots : ∀ j, s ≤ j → j < s + k.pageSlots → k'.slots.diskBitmap.bit j = true
  ptr : k'.EntryPtr (windowAddr v) (k.pteAddr v)

/-- The entry of `v` holds the page's mapping to its slots, and unmapping `v` frees
exactly the slots from `s` on, no frame, and clears the entry. -/
def ReleasesSlots (ext : Ext) (k : Kernel) (v s : Nat) : Prop :=
  isPagePresent (k.mem.load32 (k.pteAddr v)) = false ∧
    isSwapped (k.mem.load32 (k.pteAddr v)) = true ∧
    ∃ k', vmmUnmapPage ext v k = .ok ((), k') ∧
      (∀ j, k'.slots.diskBitmap.bit j =
        (!decide (s ≤ j ∧ j < s + k.pageSlots) && k.slots.diskBitmap.bit j)) ∧
      k'.pmm = k.pmm ∧ k'.mem.load32 (k.pteAddr v) = 0

/-- `v` is the page of the current directory, or that of the table of the
directory's page in the window. -/
def HoldsDirectory (k : Kernel) (v : Nat) : Prop :=
  k.pteAddr v = k.pdeAddr k.currentDirectory ∨ k.pteAddr v = k.pteAddr k.currentDirectory

instance (k : Kernel) (v : Nat) : Decidable (HoldsDirectory k v) :=
  inferInstanceAs (Decidable (_ ∨ _))

section Slots

/-- A slot that is no multiple of 4096 decodes to a smaller one. -/
theorem getFrameAddr_slot_lt {s : Nat} (hlt : s < 2 ^ 32) (hs : s % pageSize ≠ 0) :
    getFrameAddr s < s := by
  rw [getFrameAddr_eq hlt]
  have hmod := Nat.div_add_mod' s pageSize
  have hpos := Nat.pos_of_ne_zero hs
  omega

theorem slot_lt {s n : Nat} (hle : s + n ≤ diskBitmapSize * 8) : s < 2 ^ 32 := by
  have hsize : diskBitmapSize = 100000 := rfl
  omega

/-- An aligned run inside the bitmap does not reach its end. -/
theorem aligned_run_lt {s n : Nat} (hs : s % pageSize = 0) (hle : s + n ≤ diskBitmapSize * 8)
    (hn : n < 256) : u32 (s + n) < diskBitmapSize * 8 := by
  have hsize : diskBitmapSize = 100000 := rfl
  simp only [pageSize] at hs
  rw [u32_of_lt (by omega)]
  omega

end Slots

namespace PageGoesOut

variable {ext : Ext} {k k' k₂ : Kernel} {v s : Nat} (h : PageGoesOut k v s)

include h

theorem entryPtr : k.EntryPtr (windowAddr v) (k.pteAddr v) :=
  h.running.paged.windowPtr h.lt h.table h.off_self

theorem getPageEntry : vmmGetPageEntry ext v k = .ok (windowAddr v, k) :=
  vmmGetPageEntry_mapped h.running.translate_on h.running.dir.nonnull
    (h.running.dir.mapped _ (getDirectoryIndex_lt_of h.lt)) h.table h.table_in

/-- The entry is found in the same place after the write. -/
theorem entryPtr_after (hkeeps : TransferKeeps k v s k₂) :
    k₂.EntryPtr (windowAddr v) (k.pteAddr v) :=
  hkeeps.root.windowPtr h.running.paged.recursive h.lt (hkeeps.words _ (.inl rfl))
    (hkeeps.words _ (.inr (.inl rfl))) h.entryPtr

/-- Swapping the page out leaves its entry with the slot ORed in, and changes no
other word after the write. -/
theorem wentOut (htransfer : TransferKept ext k v s)
    (hrun : vmmSwapOutPage ext v k = .ok (true, k')) : WentOut k v s k' := by
  have hp := h.entryPtr
  rcases vmmSwapOutPage_cases h.slots_index h.getPageEntry hp.ptr hrun with
    ⟨hfalse, _⟩ | ⟨t, d, k₂, hsize, _, hfound, hne, hwrite, hdone⟩
  · cases hfalse
  have ht : t = s := by rw [← h.slot, hfound]
  subst ht
  have hspec := diskAllocSlots_spec h.slots_index (pageSlots_lt k)
  rw [hfound] at hspec
  have hpos : 0 < k.pageSlots := by
    refine Nat.pos_of_ne_zero fun hzero => hne ?_
    rw [hzero, DiskSlots.diskAllocSlots, if_pos rfl] at hfound
    exact (Prod.mk.inj hfound).1.symm
  have hle : t + k.pageSlots ≤ diskBitmapSize * 8 := by
    cases hspec with
    | none => exact absurd rfl hne
    | run hle => exact hle
  have hlt : t < 2 ^ 32 := slot_lt hle
  have hkeeps : TransferKeeps k v t k₂ := htransfer k₂ (by rw [slotsTaken, hfound]; exact hwrite)
  have hptr := h.entryPtr_after hkeeps
  have hstored := hptr.swapOutEntry ext t
  rw [hkeeps.words _ (.inr (.inr (.inl rfl)))] at hstored
  have hk' := (Prod.mk.inj (Except.ok.inj (hdone.symm.trans hstored))).2
  refine
    { sectorSize := by
        rw [hk', diskSectorSize, setMem_disk, ← diskSectorSize, hkeeps.sectorSize]
        exact hsize
      pos := hpos
      le := hle
      root := by rw [hk']; exact hkeeps.root.trans (setMem_root _ _)
      pageSlots := by
        rw [hk', pageSlots, diskSectorSize, setMem_disk]
        exact pageSlots_congr hkeeps.sectorSize
      word := by rw [hk', setMem]; exact ByteStore.load32_store32 (swapOutWord_lt hlt)
      others := fun a ha haligned hne => ?_
      slots := by rw [hk', setMem_slots]; exact hkeeps.slots
      ptr := by rw [hk']; exact hptr.store _ }
  have hpte := k.pteAddr_aligned v
  rw [hk', setMem, ← hkeeps.words a ha]
  exact ByteStore.load32_store32_ne (by omega)

/-- The directory's page, for each of its entries. -/
theorem directory_page (i : Nat) (hi : i < 1024) :
    (k.currentDirectory + 4 * i) / pageSize = k.currentDirectory / pageSize := by
  have haligned := h.running.currentDirectory_aligned
  simp only [pageSize] at haligned ⊢
  omega

variable (hout : WentOut k v s k')

include hout

theorem pdeOf_after : k'.pdeOf v = k.pdeOf v := by
  have hoff := h.entryPtr.off_pte
  rw [h.running.paged.recursive.pteAddr_windowAddr h.lt] at hoff
  rw [pdeOf_eq_load32, pdeOf_eq_load32, pdeAddr_congr hout.root.cr3]
  exact hout.others _ (.inr (.inl rfl)) (k.pdeAddr_aligned v) (Ne.symm hoff)

/-- With the directory still mapped, the entry is found again. -/
theorem getPageEntry_after (hoff : ¬ HoldsDirectory k v) :
    vmmGetPageEntry ext v k' = .ok (windowAddr v, k') := by
  have hon := h.running.translate_on
  have hon' : k'.pagingEnabled = true := by rw [hout.root.paging, hon]
  have hpdeOf := h.pdeOf_after hout
  have hidx := getDirectoryIndex_lt_of h.lt
  obtain ⟨hoffPde, hoffPte⟩ := not_or.mp hoff
  -- the two words of the directory's walk are untouched
  have hcurrent : k'.translate k.currentDirectory = k.translate k.currentDirectory :=
    translate_keep hout.root.cr3 hout.root.paging
      (hout.others _ (.inr (.inr (.inr (.inl rfl)))) (k.pdeAddr_aligned _) (Ne.symm hoffPde))
      (hout.others _ (.inr (.inr (.inr (.inr rfl)))) (k.pteAddr_aligned _) (Ne.symm hoffPte))
  have hfirst := h.running.dir.mapped 0 (by decide)
  rw [Nat.mul_zero, Nat.add_zero, Nat.add_zero] at hfirst
  have hdir : k'.translate (k.currentDirectory + 4 * getDirectoryIndex v) =
      some (k.pdeAddr v) := by
    rw [translate_page_congr hon hon' (h.directory_page _ hidx) hfirst
      (by rw [hcurrent, hfirst]), h.running.dir.mapped _ hidx, pdeAddr]
  refine vmmGetPageEntry_mapped hon' (by rw [hout.root.dir]; exact h.running.dir.nonnull) ?_
    (by rw [hpdeOf, h.table]) (by rw [hpdeOf, h.table_in])
  rw [hout.root.dir, hdir, pdeAddr_congr hout.root.cr3]

/-- With the directory's page or its table out, nothing is found. -/
theorem directoryLost (hholds : HoldsDirectory k v)
    (habsent : isPagePresent (swapOutWord (k.mem.load32 (k.pteAddr v)) s) = false) :
    k'.DirectoryLost := by
  have hon := h.running.translate_on
  have hunmapped : k'.translate k.currentDirectory = none := by
    have hpdeOf : k'.pdeOf k.currentDirectory = k'.mem.load32 (k.pdeAddr k.currentDirectory) := by
      rw [pdeOf_eq_load32, pdeAddr_congr hout.root.cr3]
    rw [translate_words, hout.root.paging, hon, if_pos rfl]
    by_cases hpde : k.pteAddr v = k.pdeAddr k.currentDirectory
    · rw [hpdeOf, ← hpde, hout.word, habsent]
      rfl
    · have hpte := hholds.resolve_left hpde
      have hkept : k'.pdeOf k.currentDirectory = k.pdeOf k.currentDirectory := by
        rw [hpdeOf, hout.others _ (.inr (.inr (.inr (.inl rfl)))) (k.pdeAddr_aligned _) (Ne.symm hpde)]
        rfl
      rw [pteAddr_of_pdeOf hkept, ← hpte, hout.word, habsent]
      split <;> rfl
  intro i hi
  rw [hout.root.dir]
  cases hq : k'.translate (k.currentDirectory + 4 * i) with
  | none => rfl
  | some q =>
      have hmapped := translate_page (by rw [hout.root.paging, hon])
        (h.directory_page i hi).symm hq
      rw [hunmapped] at hmapped
      cases hmapped

/-- Unmapping the page then frees the slots its entry shows. -/
theorem unmap_after (hoff : ¬ HoldsDirectory k v)
    (habsent : isPagePresent (swapOutWord (k.mem.load32 (k.pteAddr v)) s) = false) :
    ∃ k'', vmmUnmapPage ext v k' = .ok ((), k'') ∧
      (∀ j, k''.slots.diskBitmap.bit j =
        (!decide (getFrameAddr s ≤ j ∧ j < getFrameAddr s + k.pageSlots ∧
          u32 (getFrameAddr s + k.pageSlots) < diskBitmapSize * 8) && k'.slots.diskBitmap.bit j)) ∧
      k''.pmm = k'.pmm ∧ k''.mem.load32 (k.pteAddr v) = 0 := by
  have hentry := @getPageEntry_after ext _ _ _ _ h hout hoff
  have hword := hout.word
  have hframe : getFrameAddr (k'.mem.load32 (k.pteAddr v)) = getFrameAddr s := by
    rw [hword, swapOutWord, getFrameAddr_pageEntrySetFrame]
  have hrun := vmmUnmapPage_swapped hout.sectorSize hentry hout.ptr.ptr (by rw [hword, habsent])
    (by rw [hword, isSwapped_swapOutWord])
  rw [hframe] at hrun
  refine ⟨_, hrun, fun j => ?_, ?_, ByteStore.load32_store32 (by decide)⟩
  · rw [setMem_slots, slotsFreed, bit_diskFreeSlots, hout.pageSlots]
  · rw [setMem_pmm, slotsFreed_pmm]

/-- A slot that is no multiple of 4096 is not released as a whole: its run's last
slot stays taken. -/
theorem aligned_of_releases {depth : Nat} (hover : ext.Over (link depth))
    (hreleases : ReleasesSlots ext k' v s) : s % pageSize = 0 ∧ ¬ HoldsDirectory k v := by
  have haddr : k'.pteAddr v = k.pteAddr v := pteAddr_of_pdeOf (h.pdeOf_after hout)
  rw [ReleasesSlots, haddr, hout.word, hout.pageSlots] at hreleases
  obtain ⟨habsent, _, k'', hunmap, hbits, _⟩ := hreleases
  have hoff : ¬ HoldsDirectory k v := by
    intro hholds
    refine (h.directoryLost hout hholds habsent).vmmUnmapPage (fun i hi => ?_) hover h.lt _ hunmap
    rw [hout.root.dir]
    exact h.running.dirEntry_lt hi
  refine ⟨Classical.byContradiction fun hs => ?_, hoff⟩
  obtain ⟨_, hunmap', hfreed, _⟩ := @unmap_after ext _ _ _ _ h hout hoff habsent
  cases hunmap.symm.trans hunmap'
  have hlow := getFrameAddr_slot_lt (slot_lt hout.le) hs
  have hpos := hout.pos
  obtain ⟨j, hj⟩ : ∃ j, j + 1 = s + k.pageSlots := ⟨s + k.pageSlots - 1, by omega⟩
  have hbit := hbits j
  have hkept : ¬ (getFrameAddr s ≤ j ∧ j < getFrameAddr s + k.pageSlots ∧
      u32 (getFrameAddr s + k.pageSlots) < diskBitmapSize * 8) := by omega
  have hclaimed : s ≤ j ∧ j < s + k.pageSlots := by omega
  rw [hfreed, hout.slots _ hclaimed.1 hclaimed.2, decide_eq_false hkept,
    decide_eq_true hclaimed] at hbit
  cases hbit

/-- A multiple of 4096 is. -/
theorem releases_of_aligned (hs : s % pageSize = 0) (hoff : ¬ HoldsDirectory k v) :
    ReleasesSlots ext k' v s := by
  have haddr : k'.pteAddr v = k.pteAddr v := pteAddr_of_pdeOf (h.pdeOf_after hout)
  have habsent := @isPagePresent_swapOutWord (k.mem.load32 (k.pteAddr v)) _ hs
  obtain ⟨k'', hunmap, hfreed, hpmm, hzero⟩ := @unmap_after ext _ _ _ _ h hout hoff habsent
  rw [ReleasesSlots, haddr, hout.word, hout.pageSlots]
  refine ⟨habsent, isSwapped_swapOutWord, k'', hunmap, fun j => ?_, hpmm, hzero⟩
  have hend := aligned_run_lt hs hout.le (pageSlots_lt k)
  rw [hfreed, getFrameAddr_of_aligned hs (slot_lt hout.le)]
  simp only [hend, and_true]

end PageGoesOut

/-- **What becomes of the slots.** After a page was swapped out, its entry is a
swapped one and unmapping the page frees its slots and nothing else if and only if
the slot is a multiple of 4096 and the page does not hold the directory. -/
theorem swapped_unmap_iff {ext : Ext} {depth : Nat} (hover : ext.Over (link depth)) {k k' : Kernel}
    {v s : Nat} (h : PageGoesOut k v s) (htransfer : TransferKept ext k v s)
    (hrun : vmmSwapOutPage ext v k = .ok (true, k')) :
    ReleasesSlots ext k' v s ↔ s % pageSize = 0 ∧ ¬ HoldsDirectory k v := by
  have hout := h.wentOut htransfer hrun
  constructor
  · intro hreleases
    exact h.aligned_of_releases hout hover hreleases
  · rintro ⟨hs, hoff⟩
    exact h.releases_of_aligned hout hs hoff

/-! ## The plain store under the memory manager -/

/-- The functions of the memory manager, with transfers on the bytes of the drive. -/
def storedExt (depth : Nat) : Ext :=
  { link (depth + 1) with
      swapWrite := storeExt.swapWrite
      swapRead := storeExt.swapRead }

theorem storedExt_over (depth : Nat) : (storedExt depth).Over (link depth) := ⟨rfl, rfl, rfl, rfl⟩

/-- Its write changes the drive only. -/
theorem storedExt_kept {depth : Nat} {k : Kernel} {v s : Nat} (h : PageGoesOut k v s)
    (hne : s ≠ diskNoSlotAvailable) : TransferKept (storedExt depth) k v s := by
  intro k₂ hrun
  obtain ⟨d, hd⟩ : ∃ d, d = (k.slots.diskAllocSlots k.pageSlots).2 := ⟨_, rfl⟩
  have hspec := diskAllocSlots_spec h.slots_index (pageSlots_lt k)
  rw [h.slot, ← hd] at hspec
  rw [slotsTaken, ← hd] at hrun
  change storeExt.swapWrite _ _ _ = _ at hrun
  rw [storeExt] at hrun
  dsimp only at hrun
  cases hframe : Kernel.translate { k with slots := d } (getFrameAddr (k.mem.load32 (k.pteAddr v))) with
  | none =>
      rw [hframe] at hrun
      cases hrun
  | some p =>
      rw [hframe] at hrun
      cases hrun
      refine ⟨⟨rfl, rfl, rfl⟩, rfl, fun _ _ => rfl, fun j hlo hhi => ?_⟩
      cases hspec with
      | none => exact absurd rfl hne
      | run _ _ hbits =>
          show d.diskBitmap.bit j = true
          rw [hbits, decide_eq_true ⟨hlo, hhi⟩, Bool.true_or]

/-- The small machine, with the search for slots starting at byte `index`. -/
def slotKernel (index : Nat) : Kernel :=
  { smallKernel [] with slots := ⟨fun _ => 0#8, index⟩ }

theorem slotKernel_goesOut {index s : Nat} (hindex : index ≤ diskBitmapSize)
    (hs : ((slotKernel index).slots.diskAllocSlots (slotKernel index).pageSlots).1 = s) :
    PageGoesOut (slotKernel index) 0x102000 s := by
  have hsame : (smallKernel []).SameWalks (slotKernel index) := ⟨rfl, rfl, rfl, rfl⟩
  have hpde : (slotKernel index).pdeOf 0x102000 = 0x101003 := by
    rw [hsame.pdeOf, pdeOf, smallKernel_entry]
    decide +kernel
  have haddr : (slotKernel index).pteAddr 0x102000 = 0x101408 := by
    rw [pteAddr, hpde]
    decide
  exact
    { running := hsame.running rfl (smallKernel_running [])
      slots_index := hindex
      lt := by decide
      table := by rw [hpde]; decide
      table_in := by rw [hpde]; decide
      present := by
        rw [haddr]
        exact (by decide +kernel : isPagePresent ((ByteStore.ofWords swapWords).load32 0x101408) = true)
      off_self := by
        rw [haddr]
        exact (by decide : (0x101408 : Nat) ≠ getFrameAddr 0x100000 + 4 * recursivePageTableIndex)
      slot := hs }

/-- To slot `0x8000` and unmapped there. -/
theorem swapped_unmap_aligned : ∃ k', vmmSwapOutPage (storedExt 0) 0x102000 (slotKernel 4096) =
    .ok (true, k') ∧ (ReleasesSlots (storedExt 0) k' 0x102000 0x8000 ↔
      0x8000 % pageSize = 0 ∧ ¬ HoldsDirectory (slotKernel 4096) 0x102000) := by
  have h : PageGoesOut (slotKernel 4096) 0x102000 0x8000 :=
    slotKernel_goesOut (by decide) (by decide +kernel)
  have hrun := Prog.eq_of_returnsTrue
    (show (vmmSwapOutPage (storedExt 0) 0x102000).returnsTrue (slotKernel 4096) = true by
      decide +kernel)
  exact ⟨_, hrun, swapped_unmap_iff (storedExt_over 0) h (storedExt_kept h (by decide)) hrun⟩

/-- To slot 8, the first one found on a fresh disk: the entry shows slot 0, and the
slots from 8 on are not freed. -/
theorem swapped_unmap_leaks_slot : PageGoesOut (slotKernel 1) 0x102000 8 ∧
    ∃ k', vmmSwapOutPage (storedExt 0) 0x102000 (slotKernel 1) = .ok (true, k') ∧
      ¬ ReleasesSlots (storedExt 0) k' 0x102000 8 := by
  have h : PageGoesOut (slotKernel 1) 0x102000 8 :=
    slotKernel_goesOut (by decide) (by decide +kernel)
  have hrun := Prog.eq_of_returnsTrue
    (show (vmmSwapOutPage (storedExt 0) 0x102000).returnsTrue (slotKernel 1) = true by
      decide +kernel)
  refine ⟨h, _, hrun, fun hreleases => ?_⟩
  have hout := h.wentOut (storedExt_kept h (by decide)) hrun
  exact absurd (h.aligned_of_releases hout (storedExt_over 0) hreleases).1 (by decide)

end MyOs
