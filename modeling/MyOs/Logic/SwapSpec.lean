import MyOs.Logic.PageWalk
import MyOs.Logic.PmmSpec
import MyOs.Logic.SlotSpec

/-!
# What swapping one page does

`vmm_swap_out_page` and `vmm_swap_in_page` each change one page entry, the
slots of one page and one page's worth of disk or of memory. `Changed` is the
part the two have in common. The transfers to and from the disk are assumed
reliable: `Ext.Reliable`.
-/

namespace MyOs
namespace Kernel

/-- The bytes of the current drive. -/
def image (k : Kernel) : ByteStore := k.disk.image k.disk.currDisk

def FrameUsed (k : Kernel) (f : Nat) : Prop := k.pmm.pmmBitmap.bit (frameBit f) = true

/-- A present or swapped word of one of the current directory's tables. The
directory is its own last table. -/
def InUse (k : Kernel) (a : Nat) : Prop :=
  ∃ i j, i < 1024 ∧ j < 1024 ∧ isPagePresent (k.entryAt k.dirFrame i) = true ∧
    a = getFrameAddr (k.entryAt k.dirFrame i) + 4 * j ∧
    (isPagePresent (k.mem.load32 a) = true ∨ isSwapped (k.mem.load32 a) = true)

/-- The directory maps itself and its tables' frames are taken. -/
structure SwapWf (k : Kernel) : Prop where
  recursive : k.Recursive
  pmm : PmmWf k.pmm
  tables_used : ∀ i, i < 1024 → isPagePresent (k.entryAt k.dirFrame i) = true →
    k.FrameUsed (getFrameAddr (k.entryAt k.dirFrame i))
  slots_index : k.slots.lastAllocIndex ≤ diskBitmapSize

/-- The words in use and the used frames of `k` are as they were. -/
structure Undisturbed (k k' : Kernel) : Prop where
  cr3 : k'.cr3 = k.cr3
  paging : k'.pagingEnabled = k.pagingEnabled
  sectorSize : diskSectorSize k' = diskSectorSize k
  used : ∀ f, k.FrameUsed f → k'.FrameUsed f
  words : ∀ a, k.InUse a → k'.mem.load32 a = k.mem.load32 a

end Kernel

/-- A reliable sector store: a page written to a slot changes the drive from that
slot on and nothing else that is in use, and a page read from a slot is what
the drive holds there. Both may use the heap. -/
structure Ext.Reliable (ext : Ext) : Prop where
  write : ∀ k k' slot frame, k.SwapWf → k.translate frame = some frame →
    ext.swapWrite slot frame k = .ok ((), k') →
    k'.SwapWf ∧ k.Undisturbed k' ∧ k'.slots = k.slots ∧
      k'.image = k.image.copy (slot * diskSectorSize k) k.mem frame pageSize
  read : ∀ k k' slot frame, k.SwapWf → k.translate frame = some frame →
    frame % pageSize = 0 → k.FrameUsed frame →
    (∀ i, i < 1024 → isPagePresent (k.entryAt k.dirFrame i) = true →
      getFrameAddr (k.entryAt k.dirFrame i) ≠ frame) →
    ext.swapRead slot frame k = .ok ((), k') →
    k'.SwapWf ∧ k.Undisturbed k' ∧ k'.slots = k.slots ∧ k'.image = k.image ∧
      ∀ i, i < pageSize → k'.mem (frame + i) = k.image (slot * diskSectorSize k + i)

/-- The slots a page takes on the current drive. -/
def Kernel.pageSlots (k : Kernel) : Nat := sectorAmount (diskSectorSize k)

/-! ## The two entry words -/

/-- What `vmm_swap_out_page` makes of an entry. -/
def swapOutWord (w slot : Nat) : Nat :=
  pageEntrySetFrame (pageEntryRemoveAttrib (pageEntryAddAttrib w swapped) present) slot

/-- What `vmm_swap_in_page` makes of an entry whose frame is set. -/
def swapInWord (w : Nat) : Nat := pageEntryRemoveAttrib (pageEntryAddAttrib w present) swapped

section Words

variable {w slot : Nat}

theorem testBit_swapped (i : Nat) : swapped.testBit i = decide (i = 9) := by
  rw [show swapped = 2 ^ 9 from rfl, Nat.testBit_two_pow]
  exact decide_eq_decide.mpr eq_comm

theorem testBit_present (i : Nat) : present.testBit i = decide (i = 0) := by
  rw [show present = 2 ^ 0 from rfl, Nat.testBit_two_pow]
  exact decide_eq_decide.mpr eq_comm

theorem testBit_swapOutWord (i : Nat) : (swapOutWord w slot).testBit i =
    ((w.testBit i || decide (i = 9)) && decide (i < 12 ∧ i ≠ 0) || slot.testBit i) := by
  rw [swapOutWord, testBit_pageEntrySetFrame, testBit_pageEntryRemoveAttrib,
    testBit_pageEntryAddAttrib, testBit_swapped, testBit_present]
  by_cases hi : i < 12
  · by_cases h0 : i = 0
    · simp [h0]
    · simp [h0, hi, show i < 32 by omega]
  · simp [hi]

theorem testBit_swapInWord (i : Nat) : (swapInWord w).testBit i =
    ((w.testBit i || decide (i = 0)) && decide (i < 32 ∧ i ≠ 9)) := by
  rw [swapInWord, testBit_pageEntryRemoveAttrib, testBit_pageEntryAddAttrib, testBit_swapped,
    testBit_present]
  by_cases hi : i < 32
  · by_cases h9 : i = 9
    · simp [h9]
    · simp [h9, hi]
  · simp [hi, show i ≠ 9 by omega]

theorem isSwapped_swapOutWord : isSwapped (swapOutWord w slot) = true := by
  rw [isSwapped_eq, testBit_swapOutWord]
  simp

theorem isPagePresent_swapOutWord (hs : slot % pageSize = 0) :
    isPagePresent (swapOutWord w slot) = false := by
  rw [isPagePresent_eq, testBit_swapOutWord, testBit_of_aligned hs (by decide)]
  simp

theorem getFrameAddr_swapOutWord (hs : slot % pageSize = 0) (hlt : slot < 2 ^ 32) :
    getFrameAddr (swapOutWord w slot) = slot := by
  rw [swapOutWord, getFrameAddr_pageEntrySetFrame, getFrameAddr_of_aligned hs hlt]

theorem swapOutWord_lt (hlt : slot < 2 ^ 32) : swapOutWord w slot < 2 ^ 32 :=
  pageEntrySetFrame_lt hlt

theorem isPagePresent_swapInWord : isPagePresent (swapInWord w) = true := by
  rw [isPagePresent_eq, testBit_swapInWord]
  simp

theorem getFrameAddr_swapInWord : getFrameAddr (swapInWord w) = getFrameAddr w := by
  apply Nat.eq_of_testBit_eq
  intro i
  simp only [testBit_getFrameAddr, testBit_swapInWord]
  by_cases hi : 12 ≤ i ∧ i < 32
  · simp [hi, show i ≠ 0 by omega, show i ≠ 9 by omega]
  · simp [hi]

theorem swapInWord_lt (hw : w < 2 ^ 32) : swapInWord w < 2 ^ 32 :=
  pageEntryRemoveAttrib_lt (pageEntryAddAttrib_lt hw present_lt)

/-- Out to an aligned slot and back in: the attributes are what they were. -/
theorem swapInWord_swapOutWord_attributes (hpresent : isPagePresent w = true)
    (hin : isSwapped w = false) (hs : slot % pageSize = 0) :
    swapInWord (swapOutWord w slot) &&& 0xFFF = w &&& 0xFFF := by
  rw [isPagePresent_eq] at hpresent
  rw [isSwapped_eq] at hin
  apply Nat.eq_of_testBit_eq
  intro i
  rw [Nat.testBit_and, Nat.testBit_and, testBit_lowMask, testBit_swapInWord, testBit_swapOutWord]
  by_cases hi : i < 12
  · rw [testBit_of_aligned hs hi]
    by_cases h0 : i = 0
    · simp [h0, hpresent]
    · by_cases h9 : i = 9
      · simp [h9, hin]
      · simp [h0, h9, hi, show i < 32 by omega]
  · simp [hi]

/-- Setting the frame an entry already has changes nothing. -/
theorem pageEntrySetFrame_self (hw : w < 2 ^ 32) : pageEntrySetFrame w (getFrameAddr w) = w := by
  apply Nat.eq_of_testBit_eq
  intro i
  rw [testBit_pageEntrySetFrame, testBit_getFrameAddr]
  by_cases hi : i < 12
  · simp [hi, show ¬ 12 ≤ i by omega]
  · by_cases h32 : i < 32
    · simp [hi, h32, show 12 ≤ i by omega]
    · rw [Nat.testBit_lt_two_pow
        (Nat.lt_of_lt_of_le hw (Nat.pow_le_pow_right (by decide) (Nat.le_of_not_lt h32)))]
      simp

end Words

/-! ## Words in use and the walks over them -/

namespace Kernel

section Walks

variable {k k' : Kernel}

theorem pdeOf_eq_load32 (k : Kernel) (v : Nat) : k.pdeOf v = k.mem.load32 (k.pdeAddr v) := rfl

theorem load32_mem_lt (k : Kernel) (a : Nat) : k.mem.load32 a < 2 ^ 32 := ByteStore.load32_lt _ _

/-- A present or swapped directory entry is in use. -/
theorem SwapWf.pde_inUse (hwf : k.SwapWf) {v : Nat} (hv : v < 2 ^ 32)
    (h : isPagePresent (k.pdeOf v) = true ∨ isSwapped (k.pdeOf v) = true) :
    k.InUse (k.pdeAddr v) :=
  ⟨recursivePageTableIndex, getDirectoryIndex v, by decide, getDirectoryIndex_lt_of hv,
    hwf.recursive.present, by rw [hwf.recursive.frame, pdeAddr], h⟩

/-- So is a present or swapped entry of a present table. -/
theorem pte_inUse {v : Nat} (hv : v < 2 ^ 32) (hpde : isPagePresent (k.pdeOf v) = true)
    (h : isPagePresent (k.mem.load32 (k.pteAddr v)) = true ∨
      isSwapped (k.mem.load32 (k.pteAddr v)) = true) : k.InUse (k.pteAddr v) :=
  ⟨getDirectoryIndex v, getTableIndex v, getDirectoryIndex_lt_of hv, getTableIndex_lt v, hpde,
    rfl, h⟩

theorem InUse.aligned {a : Nat} (h : k.InUse a) : a % 4 = 0 := by
  obtain ⟨i, j, _, _, _, rfl, _⟩ := h
  have := getFrameAddr_aligned (k.entryAt k.dirFrame i)
  simp only [pageSize] at this
  omega

theorem dirFrame_congr (h : k'.cr3 = k.cr3) : k'.dirFrame = k.dirFrame := by
  rw [dirFrame, dirFrame, h]

theorem pdeAddr_congr (h : k'.cr3 = k.cr3) (v : Nat) : k'.pdeAddr v = k.pdeAddr v := by
  rw [pdeAddr, pdeAddr, dirFrame_congr h]

/-- The address of the directory's own entry. -/
def selfAddr (k : Kernel) : Nat := k.dirFrame + 4 * recursivePageTableIndex

/-- The walk of a mapped address survives a change that keeps its two words. -/
theorem translate_keep (hcr3 : k'.cr3 = k.cr3) (hon : k'.pagingEnabled = k.pagingEnabled)
    {v : Nat} (hpde : k'.mem.load32 (k.pdeAddr v) = k.mem.load32 (k.pdeAddr v))
    (hpte : k'.mem.load32 (k.pteAddr v) = k.mem.load32 (k.pteAddr v)) :
    k'.translate v = k.translate v := by
  refine translate_congr hon ?_ hpte
  rw [pdeOf_eq_load32, pdeOf_eq_load32, pdeAddr_congr hcr3, hpde]

/-- Both words of the walk of a mapped address are in use. -/
theorem SwapWf.walk_inUse (hwf : k.SwapWf) {v p : Nat} (hv : v < 2 ^ 32)
    (h : k.translate v = some p) : k.InUse (k.pdeAddr v) ∧ k.InUse (k.pteAddr v) := by
  obtain ⟨hpde, hpte, _⟩ := (translate_eq_some hwf.recursive.paging_on).mp h
  exact ⟨hwf.pde_inUse hv (.inl hpde), pte_inUse hv hpde (.inl hpte)⟩

theorem Undisturbed.translate (h : k.Undisturbed k') (hwf : k.SwapWf) {v p : Nat}
    (hv : v < 2 ^ 32) (hv' : k.translate v = some p) : k'.translate v = some p := by
  obtain ⟨hpde, hpte⟩ := hwf.walk_inUse hv hv'
  rw [translate_keep h.cr3 h.paging (h.words _ hpde) (h.words _ hpte), hv']

/-- `a` is the entry at `e`, and a store to it leaves the pointer's walk alone. -/
structure EntryPtr (k : Kernel) (e a : Nat) : Prop where
  ptr : k.translate e = some a
  aligned : a % 4 = 0
  off_pde : a ≠ k.pdeAddr e
  off_pte : a ≠ k.pteAddr e

variable {e a w : Nat}

/-- A pointer depends on the two words of its walk. -/
theorem EntryPtr.congr (h : k.EntryPtr e a) (hcr3 : k'.cr3 = k.cr3)
    (hon : k'.pagingEnabled = k.pagingEnabled)
    (hpde : k'.mem.load32 (k.pdeAddr e) = k.mem.load32 (k.pdeAddr e))
    (hpte : k'.mem.load32 (k.pteAddr e) = k.mem.load32 (k.pteAddr e)) : k'.EntryPtr e a := by
  have hpdeOf : k'.pdeOf e = k.pdeOf e := by
    rw [pdeOf_eq_load32, pdeOf_eq_load32, pdeAddr_congr hcr3, hpde]
  exact
    { ptr := (translate_keep hcr3 hon hpde hpte).trans h.ptr
      aligned := h.aligned
      off_pde := by
        rw [pdeAddr_congr hcr3]
        exact h.off_pde
      off_pte := by
        rw [pteAddr, hpdeOf]
        exact h.off_pte }

theorem EntryPtr.store (h : k.EntryPtr e a) (w : Nat) :
    (k.setMem (k.mem.store32 a w)).EntryPtr e a := by
  have hne {b : Nat} (hb : b % 4 = 0) (hab : a ≠ b) :
      (k.mem.store32 a w).load32 b = k.mem.load32 b := by
    have := h.aligned
    exact ByteStore.load32_store32_ne (by omega)
  exact h.congr rfl rfl (hne (k.pdeAddr_aligned e) h.off_pde) (hne (k.pteAddr_aligned e) h.off_pte)

theorem Undisturbed.entryPtr (h : k.Undisturbed k') (hwf : k.SwapWf) (he : e < 2 ^ 32)
    (hp : k.EntryPtr e a) : k'.EntryPtr e a := by
  obtain ⟨hpde, hpte⟩ := hwf.walk_inUse he hp.ptr
  exact hp.congr h.cr3 h.paging (h.words _ hpde) (h.words _ hpte)

/-- An entry that is not present is not on the walk of a pointer to it. -/
theorem entryPtr_absent (hon : k.pagingEnabled = true) (hptr : k.translate e = some a)
    (ha : a % 4 = 0) (habsent : isPagePresent (k.mem.load32 a) = false) : k.EntryPtr e a := by
  obtain ⟨hpde, hpte, _⟩ := (translate_eq_some hon).mp hptr
  have hne {b : Nat} (hb : isPagePresent (k.mem.load32 b) = true) : a ≠ b := by
    rintro rfl
    rw [habsent] at hb
    cases hb
  exact ⟨hptr, ha, hne hpde, hne hpte⟩

/-- One more change of an entry that was just stored. -/
theorem EntryPtr.modifyWord_stored {ext : Ext} (h : k.EntryPtr e a) (hw : w < 2 ^ 32)
    (f : Nat → Nat) : modifyWord ext e f (k.setMem (k.mem.store32 a w)) =
      .ok ((), k.setMem (k.mem.store32 a (f w))) := by
  rw [modifyWord_mapped (h.store w).ptr]
  simp only [setMem, ByteStore.load32_store32 hw, ByteStore.store32_store32]

theorem windowAddr_lt {v : Nat} (hv : v < 2 ^ 32) : windowAddr v < 2 ^ 32 := by
  have hpd := getDirectoryIndex_lt_of hv
  have hpt := getTableIndex_lt v
  rw [windowAddr, getPageTableVirAddr_eq hpd]
  omega

theorem getDirectoryIndex_windowAddr {v : Nat} (hv : v < 2 ^ 32) :
    getDirectoryIndex (windowAddr v) = recursivePageTableIndex := by
  have hpd := getDirectoryIndex_lt_of hv
  have hpt := getTableIndex_lt v
  rw [getDirectoryIndex_eq, windowAddr, getPageTableVirAddr_eq hpd,
    show recursivePageTableIndex = 1023 from rfl]
  omega

/-- The page entry of the window address of `v` is the directory entry of `v`. -/
theorem Recursive.pteAddr_windowAddr (hrec : k.Recursive) {v : Nat} (hv : v < 2 ^ 32) :
    k.pteAddr (windowAddr v) = k.pdeAddr v := by
  have hpd := getDirectoryIndex_lt_of hv
  have hpt := getTableIndex_lt v
  have hsize : pageSize = 4096 := rfl
  have htable : getTableIndex (windowAddr v) = getDirectoryIndex v := by
    rw [getTableIndex_eq, windowAddr, getPageTableVirAddr_eq hpd, hsize]
    omega
  have hwin : k.pdeOf (windowAddr v) = k.entryAt k.dirFrame recursivePageTableIndex := by
    rw [pdeOf, getDirectoryIndex_windowAddr hv]
  rw [pteAddr, hwin, hrec.frame, htable, pdeAddr]

/-- A page whose entry is seen in the window has its table in memory. -/
theorem Recursive.present_of_window (hrec : k.Recursive) {v x : Nat} (hv : v < 2 ^ 32)
    (hx : k.translate (windowAddr v) = some x) : isPagePresent (k.pdeOf v) = true := by
  obtain ⟨_, hpte, _⟩ := (translate_eq_some hrec.paging_on).mp hx
  rw [hrec.pteAddr_windowAddr hv] at hpte
  exact hpte

/-- The window address of an entry that is off its own walk. -/
theorem Recursive.windowPtr (hrec : k.Recursive) {v : Nat} (hv : v < 2 ^ 32)
    (hpde : isPagePresent (k.pdeOf v) = true) (hself : k.pteAddr v ≠ k.selfAddr)
    (hpath : k.pteAddr v ≠ k.pdeAddr v) : k.EntryPtr (windowAddr v) (k.pteAddr v) where
  ptr := translate_windowAddr hrec hv hpde
  aligned := k.pteAddr_aligned v
  off_pde := by
    rw [pdeAddr, getDirectoryIndex_windowAddr hv]
    exact hself
  off_pte := by
    rw [hrec.pteAddr_windowAddr hv]
    exact hpath

end Walks

/-- The change of one entry, at `a`, to the word `w`. -/
structure Changed (k k' : Kernel) (a w : Nat) : Prop where
  wf : k'.SwapWf
  cr3 : k'.cr3 = k.cr3
  sectorSize : diskSectorSize k' = diskSectorSize k
  entry : k'.mem.load32 a = w
  words : ∀ b, k.InUse b → b ≠ a → k'.mem.load32 b = k.mem.load32 b

/-- A store to one entry after a change that disturbs nothing. -/
theorem Undisturbed.changed {k k₁ : Kernel} (h : k.Undisturbed k₁) (hwf₁ : k₁.SwapWf)
    {a w : Nat} (ha : a % 4 = 0) (hw : w < 2 ^ 32) (hself : a ≠ k.selfAddr)
    (htables : isPagePresent w = true → k₁.FrameUsed (getFrameAddr w)) {mem : ByteStore}
    (hmem : mem = k₁.mem.store32 a w) : k.Changed (k₁.setMem mem) a w := by
  have hdir : (k₁.setMem mem).dirFrame = k₁.dirFrame := rfl
  have hword {b : Nat} (hb : b % 4 = 0) :
      mem.load32 b = if b = a then w else k₁.mem.load32 b := by
    rw [hmem, ByteStore.load32_store32_word hw ha hb]
  have hpde (i : Nat) : (k₁.dirFrame + 4 * i) % 4 = 0 := by
    have := k₁.dirFrame_aligned
    simp only [pageSize] at this
    omega
  have hrec : mem.load32 (k₁.dirFrame + 4 * recursivePageTableIndex) =
      k₁.entryAt k₁.dirFrame recursivePageTableIndex := by
    rw [hword (hpde _), if_neg fun heq => hself (by rw [← heq, selfAddr, dirFrame_congr h.cr3])]
    rfl
  exact
    { wf :=
        { recursive :=
            { paging_on := hwf₁.recursive.paging_on
              present := by
                rw [entryAt, hdir, setMem, hrec]
                exact hwf₁.recursive.present
              frame := by
                rw [entryAt, hdir, setMem, hrec]
                exact hwf₁.recursive.frame }
          pmm := hwf₁.pmm
          tables_used := fun i hi hpresent => by
            rw [entryAt, hdir, setMem, hword (hpde i)] at hpresent ⊢
            by_cases heq : k₁.dirFrame + 4 * i = a
            · rw [if_pos heq] at hpresent ⊢
              exact htables hpresent
            · rw [if_neg heq] at hpresent ⊢
              exact hwf₁.tables_used i hi hpresent
          slots_index := hwf₁.slots_index }
      cr3 := h.cr3
      sectorSize := h.sectorSize
      entry := by rw [setMem, hword ha, if_pos rfl]
      words := fun b hb hne => by rw [setMem, hword hb.aligned, if_neg hne, h.words b hb] }

end Kernel

/-! ## Swapping out -/

open Kernel

/-- What swapping out the present page of `v` relies on: its entry is off its own
walk, the slots cover the page, the slot found is page-aligned, and the page's
frame is mapped to itself. -/
structure PageOutOk (k : Kernel) (v : Nat) : Prop where
  in_memory : isSwapped (k.mem.load32 (k.pteAddr v)) = false
  off_self : k.pteAddr v ≠ k.selfAddr
  off_walk : k.pteAddr v ≠ k.pdeAddr v
  sectors : pageSize ≤ k.pageSlots * diskSectorSize k
  slot : (k.slots.diskAllocSlots k.pageSlots).1 ≠ diskNoSlotAvailable →
    (k.slots.diskAllocSlots k.pageSlots).1 % pageSize = 0
  identity : k.translate (getFrameAddr (k.mem.load32 (k.pteAddr v))) =
    some (getFrameAddr (k.mem.load32 (k.pteAddr v)))

/-- What a call of `vmm_swap_out_page` for `v` relies on: the current directory
is where `current_directory` says, with the table of `v` in memory. -/
structure SwapOutOk (k : Kernel) (v : Nat) : Prop where
  lt : v < 2 ^ 32
  dir_ne : k.currentDirectory ≠ 0
  dir : k.translate (k.currentDirectory + 4 * getDirectoryIndex v) = some (k.pdeAddr v)
  table : isPagePresent (k.pdeOf v) = true
  table_in : isSwapped (k.pdeOf v) = false
  page : isPagePresent (k.mem.load32 (k.pteAddr v)) = true → PageOutOk k v

/-- The page of `v` went to the slots from `s` on. -/
structure SwappedOut (k : Kernel) (v s : Nat) (k' : Kernel) : Prop where
  slot : s = (k.slots.diskAllocSlots k.pageSlots).1
  present : isPagePresent (k.mem.load32 (k.pteAddr v)) = true
  sectors : pageSize ≤ k.pageSlots * diskSectorSize k
  slot_aligned : s % pageSize = 0
  slot_le : s + k.pageSlots ≤ diskBitmapSize * 8
  slot_free : ∀ j, s ≤ j → j < s + k.pageSlots → k.slots.diskBitmap.bit j = false
  slot_bits : ∀ j, k'.slots.diskBitmap.bit j =
    (decide (s ≤ j ∧ j < s + k.pageSlots) || k.slots.diskBitmap.bit j)
  image : k'.image = k.image.copy (s * diskSectorSize k) k.mem
    (getFrameAddr (k.mem.load32 (k.pteAddr v))) pageSize
  changed : k.Changed k' (k.pteAddr v) (swapOutWord (k.mem.load32 (k.pteAddr v)) s)

/-- What the call did. -/
inductive SwapOutResult (k : Kernel) (v : Nat) : Bool → Kernel → Prop
  | refused : SwapOutResult k v false k
  | moved {s k'} : SwappedOut k v s k' → SwapOutResult k v true k'

/-! ## Swapping in -/

/-- What a call of `vmm_swap_in_page` for the entry at `e` of `v` relies on: the
entry is a swapped one of a table in memory, the frame the allocator gives is
the number of its slot, that frame is mapped to itself, and no other entry has
the slot. -/
structure SwapInOk (k : Kernel) (e v : Nat) : Prop where
  lt : v < 2 ^ 32
  ptr_lt : e < 2 ^ 32
  table : isPagePresent (k.pdeOf v) = true
  ptr : k.translate e = some (k.pteAddr v)
  swapped_out : isSwapped (k.mem.load32 (k.pteAddr v)) = true
  absent : isPagePresent (k.mem.load32 (k.pteAddr v)) = false
  frame_ne : getFrameAddr (k.mem.load32 (k.pteAddr v)) ≠ pmmNoFrameAvailable
  frame : k.pmm.pmmAllocFrame.1 = getFrameAddr (k.mem.load32 (k.pteAddr v))
  identity : k.translate (getFrameAddr (k.mem.load32 (k.pteAddr v))) =
    some (getFrameAddr (k.mem.load32 (k.pteAddr v)))
  unshared : ∀ b, k.InUse b → b ≠ k.pteAddr v → isSwapped (k.mem.load32 b) = true →
    isPagePresent (k.mem.load32 b) = false →
      getFrameAddr (k.mem.load32 b) ≠ getFrameAddr (k.mem.load32 (k.pteAddr v))

/-- The page of `v` came from the slots from `t` on to the frame `t`. -/
structure SwappedIn (k : Kernel) (v t : Nat) (k' : Kernel) : Prop where
  slot : t = getFrameAddr (k.mem.load32 (k.pteAddr v))
  fresh : ¬ k.FrameUsed t
  slot_bits : ∀ j, k'.slots.diskBitmap.bit j =
    (!decide (t ≤ j ∧ j < t + k.pageSlots ∧ u32 (t + k.pageSlots) < diskBitmapSize * 8) &&
      k.slots.diskBitmap.bit j)
  image : k'.image = k.image
  page : ∀ i, i < pageSize → k'.mem (t + i) = k.image (t * diskSectorSize k + i)
  changed : k.Changed k' (k.pteAddr v) (swapInWord (k.mem.load32 (k.pteAddr v)))

section Effects

variable {ext : Ext} {k k' : Kernel} {v : Nat}

theorem SwapOutOk.getPageEntry (hok : SwapOutOk k v) (hon : k.pagingEnabled = true) :
    vmmGetPageEntry ext v k = .ok (windowAddr v, k) :=
  vmmGetPageEntry_mapped hon hok.dir_ne hok.dir hok.table hok.table_in

theorem diskAllocSlotsForPage_eq (hsize : diskSectorSize k ≠ 0) : diskAllocSlotsForPage k =
    .ok ((k.slots.diskAllocSlots k.pageSlots).1,
      { k with slots := (k.slots.diskAllocSlots k.pageSlots).2 }) := by
  rw [diskAllocSlotsForPage, Prog.get_bind_apply, if_neg hsize]
  rfl

/-- A call that returns has divided by the sector size. -/
theorem sectorSize_ne_of_alloc {r : Nat × Kernel} (h : diskAllocSlotsForPage k = .ok r) :
    diskSectorSize k ≠ 0 := by
  intro hzero
  rw [diskAllocSlotsForPage, Prog.get_bind_apply, if_pos hzero] at h
  cases h

/-- The word an entry has after the three changes of a swap-out. -/
theorem Kernel.EntryPtr.swapOutEntry (ext : Ext) {e a : Nat} (h : k.EntryPtr e a) (slot : Nat) :
    (do
      modifyWord ext e fun w => pageEntryAddAttrib w swapped
      modifyWord ext e fun w => pageEntryRemoveAttrib w MyOs.present
      modifyWord ext e fun w => pageEntrySetFrame w slot
      pure true : Prog Kernel Bool) k =
      .ok (true, k.setMem (k.mem.store32 a (swapOutWord (k.mem.load32 a) slot))) := by
  have hadd : pageEntryAddAttrib (k.mem.load32 a) swapped < 2 ^ 32 :=
    pageEntryAddAttrib_lt (load32_mem_lt k a) swapped_lt
  rw [Prog.bind_of_ok (modifyWord_mapped h.ptr _), Prog.bind_of_ok (h.modifyWord_stored hadd _),
    Prog.bind_of_ok (h.modifyWord_stored (pageEntryRemoveAttrib_lt hadd) _), Prog.pure_apply, swapOutWord]

/-- The page is written, and then the entry. -/
theorem SwappedOut.of_write {s : Nat} {d : DiskSlots} {k₂ : Kernel} {mem : ByteStore}
    (hslot : s = (k.slots.diskAllocSlots k.pageSlots).1)
    (hpresent : isPagePresent (k.mem.load32 (k.pteAddr v)) = true) (hpage : PageOutOk k v)
    (hs : s % pageSize = 0) (hle : s + k.pageSlots ≤ diskBitmapSize * 8)
    (hfree : ∀ j, s ≤ j → j < s + k.pageSlots → k.slots.diskBitmap.bit j = false)
    (hbits : ∀ j, d.diskBitmap.bit j =
      (decide (s ≤ j ∧ j < s + k.pageSlots) || k.slots.diskBitmap.bit j))
    (hwf₂ : k₂.SwapWf) (hund : Undisturbed { k with slots := d } k₂) (hslots : k₂.slots = d)
    (himage : k₂.image = k.image.copy (s * diskSectorSize k) k.mem
      (getFrameAddr (k.mem.load32 (k.pteAddr v))) pageSize)
    (hmem : mem = k₂.mem.store32 (k.pteAddr v)
      (swapOutWord (k.mem.load32 (k.pteAddr v)) s)) :
    SwappedOut k v s (k₂.setMem mem) := by
  have hsize : diskBitmapSize = 100000 := rfl
  have hchanged := hund.changed hwf₂ (k.pteAddr_aligned v) (swapOutWord_lt (by omega))
    hpage.off_self (fun h => by
      rw [isPagePresent_swapOutWord hs] at h
      cases h) hmem
  exact
    { slot := hslot, present := hpresent, sectors := hpage.sectors, slot_aligned := hs
      slot_le := hle, slot_free := hfree
      slot_bits := fun j => by rw [setMem_slots, hslots, hbits]
      image := himage
      changed := ⟨hchanged.wf, hchanged.cr3, hchanged.sectorSize, hchanged.entry, hchanged.words⟩ }

/-- What a call of `vmm_swap_out_page` does, up to the write to the disk: nothing, or
it finds a run of slots and writes the page there before it changes the entry. -/
theorem vmmSwapOutPage_cases {e a : Nat} {r : Bool}
    (hindex : k.slots.lastAllocIndex ≤ diskBitmapSize) (hentry : vmmGetPageEntry ext v k = .ok (e, k)) (hptr : k.translate e = some a)
    (hrun : vmmSwapOutPage ext v k = .ok (r, k')) :
    (r = false ∧ k' = k) ∨
      ∃ s d k₂, diskSectorSize k ≠ 0 ∧ isPagePresent (k.mem.load32 a) = true ∧
        k.slots.diskAllocSlots k.pageSlots = (s, d) ∧ s ≠ diskNoSlotAvailable ∧
        ext.swapWrite s (getFrameAddr (k.mem.load32 a)) { k with slots := d } = .ok ((), k₂) ∧
        (do
          modifyWord ext e fun w => pageEntryAddAttrib w swapped
          modifyWord ext e fun w => pageEntryRemoveAttrib w MyOs.present
          modifyWord ext e fun w => pageEntrySetFrame w s
          pure true : Prog Kernel Bool) k₂ = .ok (r, k') := by
  rw [vmmSwapOutPage, Prog.bind_of_ok hentry, Prog.bind_of_ok (loadWord_mapped hptr)] at hrun
  cases hpresent : isPagePresent (k.mem.load32 a) with
  | false =>
      rw [hpresent] at hrun
      cases hrun
      exact .inl ⟨rfl, rfl⟩
  | true =>
      rw [hpresent, if_neg (by decide)] at hrun
      obtain ⟨_, _, halloc, _⟩ := Prog.bind_eq_ok.mp hrun
      have hsize := sectorSize_ne_of_alloc halloc
      rw [Prog.bind_of_ok (diskAllocSlotsForPage_eq hsize)] at hrun
      obtain ⟨s, d, hfound⟩ : ∃ s d, k.slots.diskAllocSlots k.pageSlots = (s, d) := ⟨_, _, rfl⟩
      rw [hfound] at hrun
      dsimp only at hrun
      by_cases hnone : s = diskNoSlotAvailable
      · rw [if_pos hnone] at hrun
        cases hrun
        -- a search that finds nothing leaves the slots as they are
        refine .inl ⟨rfl, ?_⟩
        have hd := diskAllocSlots_same hindex (Nat.mod_lt _ (by decide)) (hnone ▸ hfound)
        rw [hd]
      · have hptr₁ : Kernel.translate { k with slots := d } e = some a := hptr
        rw [if_neg hnone, Prog.bind_of_ok (loadWord_mapped hptr₁)] at hrun
        obtain ⟨⟨⟩, k₂, hwrite, hrun⟩ := Prog.bind_eq_ok.mp hrun
        exact .inr ⟨s, d, k₂, hsize, rfl, hfound, hnone, hwrite, hrun⟩

theorem vmmSwapOutPage_effect (hext : ext.Reliable) (hwf : k.SwapWf) (hok : SwapOutOk k v)
    {r : Bool} (hrun : vmmSwapOutPage ext v k = .ok (r, k')) : SwapOutResult k v r k' := by
  have hon := hwf.recursive.paging_on
  have hptr := translate_windowAddr hwf.recursive hok.lt hok.table
  rcases vmmSwapOutPage_cases hwf.slots_index (hok.getPageEntry hon) hptr hrun with
    ⟨rfl, rfl⟩ | ⟨s, d, k₂, _, hpresent, hfound, hne, hwrite, hdone⟩
  · exact .refused
  have hpage := hok.page hpresent
  have hspec := diskAllocSlots_spec hwf.slots_index
    (show k.pageSlots < 256 from Nat.mod_lt _ (by decide))
  have haligned := hpage.slot
  rw [hfound] at hspec haligned
  cases hspec with
  | none => exact absurd rfl hne
  | run hle hfree hbits hindex =>
      have hs : s % pageSize = 0 := haligned hne
      have hwf₁ : SwapWf { k with slots := d } :=
        ⟨⟨hon, hwf.recursive.present, hwf.recursive.frame⟩, hwf.pmm, hwf.tables_used, hindex⟩
      obtain ⟨hwf₂, hund, hslots, himage⟩ := hext.write _ _ _ _ hwf₁ hpage.identity hwrite
      have hp := hwf.recursive.windowPtr hok.lt hok.table hpage.off_self hpage.off_walk
      have hp₁ : EntryPtr { k with slots := d } (windowAddr v) (k.pteAddr v) :=
        ⟨hp.ptr, hp.aligned, hp.off_pde, hp.off_pte⟩
      have hp₂ := hund.entryPtr hwf₁ (windowAddr_lt hok.lt) hp₁
      have hword : k₂.mem.load32 (k.pteAddr v) = k.mem.load32 (k.pteAddr v) :=
        hund.words _ (pte_inUse hok.lt hok.table (.inl hpresent))
      have hstored := hp₂.swapOutEntry ext s
      rw [hword] at hstored
      cases hdone.symm.trans hstored
      exact .moved (.of_write (by rw [hfound]) hpresent hpage hs hle hfree hbits hwf₂ hund hslots
        himage rfl)

theorem allocFrame_eq (k : Kernel) : allocFrame k =
    .ok (k.pmm.pmmAllocFrame.1, { k with pmm := k.pmm.pmmAllocFrame.2 }) := rfl

theorem diskFreeSlotsForPage_eq (hsize : diskSectorSize k ≠ 0) (slot : Nat) :
    diskFreeSlotsForPage slot k =
      .ok ((), { k with slots := k.slots.diskFreeSlots slot k.pageSlots }) := by
  rw [diskFreeSlotsForPage, Prog.get_bind_apply, if_neg hsize]
  rfl

theorem sectorSize_ne_of_free {slot : Nat} {r : Unit × Kernel}
    (h : diskFreeSlotsForPage slot k = .ok r) : diskSectorSize k ≠ 0 := by
  intro hzero
  rw [diskFreeSlotsForPage, Prog.get_bind_apply, if_pos hzero] at h
  cases h

/-- The word an entry has after the two changes that end a swap-in. -/
theorem Kernel.EntryPtr.swapInEntry (ext : Ext) {e a : Nat} (h : k.EntryPtr e a) :
    (do
      modifyWord ext e fun w => pageEntryAddAttrib w MyOs.present
      modifyWord ext e fun w => pageEntryRemoveAttrib w swapped
      pure true : Prog Kernel Bool) k =
      .ok (true, k.setMem (k.mem.store32 a (swapInWord (k.mem.load32 a)))) := by
  have hadd : pageEntryAddAttrib (k.mem.load32 a) MyOs.present < 2 ^ 32 :=
    pageEntryAddAttrib_lt (load32_mem_lt k a) present_lt
  rw [Prog.bind_of_ok (modifyWord_mapped h.ptr _), Prog.bind_of_ok (h.modifyWord_stored hadd _),
    Prog.pure_apply, swapInWord]

/-- A swapped entry is not on the walk of a mapped pointer to it. -/
theorem SwapInOk.entryPtr {e : Nat} (hwf : k.SwapWf) (hok : SwapInOk k e v) :
    k.EntryPtr e (k.pteAddr v) :=
  entryPtr_absent hwf.recursive.paging_on hok.ptr (k.pteAddr_aligned v) hok.absent

/-- A frame that was free is none of the tables. -/
theorem Kernel.SwapWf.fresh_not_table (hwf : k.SwapWf) {f : Nat} (hfresh : ¬ k.FrameUsed f) (i : Nat)
    (hi : i < 1024) (hpresent : isPagePresent (k.entryAt k.dirFrame i) = true) :
    getFrameAddr (k.entryAt k.dirFrame i) ≠ f := by
  rintro rfl
  exact hfresh (hwf.tables_used i hi hpresent)

/-- The entry of a page that is out is not the directory's own. -/
theorem SwapInOk.off_self {e : Nat} (hwf : k.SwapWf) (hok : SwapInOk k e v) :
    k.pteAddr v ≠ k.selfAddr := by
  intro heq
  have hself : isPagePresent (k.mem.load32 k.selfAddr) = true := hwf.recursive.present
  rw [← heq, hok.absent] at hself
  cases hself

/-- The page is read, and then the entry changed. -/
theorem SwappedIn.of_read {e t : Nat} {p : Pmm} {k₂ : Kernel} {mem : ByteStore} (hwf : k.SwapWf)
    (hok : SwapInOk k e v) (ht : getFrameAddr (k.mem.load32 (k.pteAddr v)) = t)
    (hfresh : ¬ k.FrameUsed t) (hwf₂ : k₂.SwapWf) (hund : Undisturbed { k with pmm := p } k₂)
    (hused : k₂.FrameUsed t)
    (hslots : k₂.slots = k.slots.diskFreeSlots t k.pageSlots) (himage : k₂.image = k.image)
    (hpage : ∀ i, i < pageSize → k₂.mem (t + i) = k.image (t * diskSectorSize k + i))
    (hmem : mem = k₂.mem.store32 (k.pteAddr v) (swapInWord (k.mem.load32 (k.pteAddr v)))) :
    SwappedIn k v t (k₂.setMem mem) := by
  have hchanged := hund.changed hwf₂ (k.pteAddr_aligned v) (swapInWord_lt (load32_mem_lt k _))
    (hok.off_self hwf) (fun _ => by rw [getFrameAddr_swapInWord, ht]; exact hused) hmem
  refine
    { slot := ht.symm, fresh := hfresh, image := himage
      slot_bits := fun j => by rw [setMem_slots, hslots, bit_diskFreeSlots]
      page := fun i hi => ?_
      changed := ⟨hchanged.wf, hchanged.cr3, hchanged.sectorSize, hchanged.entry, hchanged.words⟩ }
  -- the entry is in a table, and the page's new frame is none
  have hframe := hwf.fresh_not_table hfresh _ (getDirectoryIndex_lt_of hok.lt) hok.table
  have haligned := getFrameAddr_aligned (k.entryAt k.dirFrame (getDirectoryIndex v))
  have htaligned : t % pageSize = 0 := ht ▸ getFrameAddr_aligned _
  have hindex := getTableIndex_lt v
  have hoff : t + i < k.pteAddr v ∨ k.pteAddr v + 4 ≤ t + i := by
    rw [pteAddr, pdeOf]
    simp only [pageSize] at hi haligned htaligned
    omega
  rw [← hpage i hi]
  show mem (t + i) = _
  rw [hmem, ByteStore.store32, ByteStore.store_outside hoff]

theorem vmmSwapInPage_effect (hext : ext.Reliable) (hwf : k.SwapWf) {e : Nat}
    (hok : SwapInOk k e v) {r : Bool} (hrun : vmmSwapInPage ext e v k = .ok (r, k')) :
    r = true ∧ SwappedIn k v (getFrameAddr (k.mem.load32 (k.pteAddr v))) k' := by
  obtain ⟨hres, hpmm⟩ := allocFrame_spec hwf.pmm
  have hframe := hok.frame
  obtain ⟨t, ht⟩ : ∃ t, getFrameAddr (k.mem.load32 (k.pteAddr v)) = t := ⟨_, rfl⟩
  rw [ht] at hframe ⊢
  have halloc : allocFrameOrSwap ext k = .ok (t, { k with pmm := k.pmm.pmmAllocFrame.2 }) := by
    have hne : t ≠ pmmNoFrameAvailable := ht ▸ hok.frame_ne
    rw [allocFrameOrSwap, Prog.bind_of_ok (allocFrame_eq k), hframe, if_neg hne]
    rfl
  have hpos : t ≠ pmmNoFrameAvailable := ht ▸ hok.frame_ne
  rw [vmmSwapInPage, Prog.bind_of_ok halloc, if_neg hpos] at hrun
  generalize k.pmm.pmmAllocFrame = pair at hres hpmm hframe hrun
  obtain ⟨t', p⟩ := pair
  obtain rfl : t = t' := hframe.symm
  dsimp only at hres hpmm hrun
  -- the frame was free, and is used from here on
  obtain ⟨hfresh, hused, hused_t⟩ : ¬ k.FrameUsed t ∧
      (∀ f, k.FrameUsed f → Kernel.FrameUsed { k with pmm := p } f) ∧
      Kernel.FrameUsed { k with pmm := p } t := by
    cases hres with
    | none => exact absurd rfl hpos
    | @frame n _ _ _ hfree hbits =>
        have hbit : frameBit (n * 4096) = n := by
          rw [frameBit_eq, Nat.mul_div_cancel _ (by decide)]
        refine ⟨fun h => ?_, fun f hf => ?_, ?_⟩
        · rw [FrameUsed, hbit, hfree] at h
          cases h
        · rw [FrameUsed, hbits, show k.pmm.pmmBitmap.bit (frameBit f) = true from hf, Bool.or_true]
        · rw [FrameUsed, hbits, hbit, decide_eq_true rfl, Bool.true_or]
  have hwf₁ : Kernel.SwapWf { k with pmm := p } :=
    ⟨⟨hwf.recursive.paging_on, hwf.recursive.present, hwf.recursive.frame⟩, hpmm,
      fun i hi h => hused _ (hwf.tables_used i hi h), hwf.slots_index⟩
  have hp := hok.entryPtr hwf
  have hp₁ : Kernel.EntryPtr { k with pmm := p } e (k.pteAddr v) :=
    ⟨hp.ptr, hp.aligned, hp.off_pde, hp.off_pte⟩
  -- the entry's slot number is the frame already: setting the frame changes nothing
  have hset : modifyWord ext e (fun w => pageEntrySetFrame w t) { k with pmm := p } =
      .ok ((), { k with pmm := p }) := by
    rw [modifyWord_mapped hp₁.ptr, ← ht, pageEntrySetFrame_self (load32_mem_lt _ _),
      ByteStore.store32_load32]
    rfl
  rw [Prog.bind_of_ok hset, Prog.bind_of_ok (loadWord_mapped hp₁.ptr), ht] at hrun
  obtain ⟨⟨⟩, k₂, hread, hrun⟩ := Prog.bind_eq_ok.mp hrun
  have haligned : t % pageSize = 0 := ht ▸ getFrameAddr_aligned _
  obtain ⟨hwf₂, hund, hslots, himage, hpage⟩ := hext.read _ _ _ _ hwf₁ (ht ▸ hok.identity) haligned
    hused_t (hwf.fresh_not_table hfresh) hread
  obtain ⟨_, _, hfree, _⟩ := Prog.bind_eq_ok.mp hrun
  rw [Prog.bind_of_ok (diskFreeSlotsForPage_eq (sectorSize_ne_of_free hfree) t)] at hrun
  have hund₃ : Undisturbed { k with pmm := p }
      { k₂ with slots := k₂.slots.diskFreeSlots t k₂.pageSlots } :=
    ⟨hund.cr3, hund.paging, hund.sectorSize, hund.used, hund.words⟩
  have hslots₃ : k₂.slots.diskFreeSlots t k₂.pageSlots =
      k.slots.diskFreeSlots t k.pageSlots := by
    rw [hslots, pageSlots, hund.sectorSize]
    rfl
  have hwf₃ : Kernel.SwapWf { k₂ with slots := k₂.slots.diskFreeSlots t k₂.pageSlots } :=
    ⟨⟨hwf₂.recursive.paging_on, hwf₂.recursive.present, hwf₂.recursive.frame⟩, hwf₂.pmm,
      hwf₂.tables_used, by rw [hslots₃]; exact diskFreeSlots_index hwf.slots_index⟩
  have hp₃ := hund₃.entryPtr hwf₁ hok.ptr_lt hp₁
  have hword : k₂.mem.load32 (k.pteAddr v) = k.mem.load32 (k.pteAddr v) :=
    hund.words _ (pte_inUse hok.lt hok.table (.inr hok.swapped_out))
  have hdone := hp₃.swapInEntry ext
  dsimp only at hdone
  rw [hword] at hdone
  cases hrun.symm.trans hdone
  exact ⟨rfl, .of_read hwf hok ht hfresh hwf₃ hund₃ (hund.used t hused_t) hslots₃ himage hpage rfl⟩

end Effects
end MyOs
