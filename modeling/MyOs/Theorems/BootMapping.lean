import MyOs.Logic.MapPage
import MyOs.Memory.VmmInit

/-!
# The boot mapping

`vmm_init` gives every directory entry the flags of a kernel page before it
maps anything, and those include `PRESENT`. So `vmm_map_page` never creates a
page table: it takes the frame in the entry, which is 0, for the table of every
address. The mapping it leaves is one table, in frame 0, for the whole address
space.
-/

namespace MyOs

/-- The boot mapping is exact: the pages of the image, the stack, the heap and
the VGA buffer map to themselves, and no other page outside the recursive
window is present. -/
structure BootMappingExact (l : KernelLayout) (k : Kernel) : Prop where
  mapped : ∀ v, v < 2 ^ 32 → Reserved l (v / pageSize * pageSize) → k.translate v = some v
  absent : ∀ v, v < 2 ^ 32 → ¬ Reserved l (v / pageSize * pageSize) →
    getDirectoryIndex v ≠ recursivePageTableIndex → k.translate v = none

section PagingOff

variable {ext : Ext} {k : Kernel} (hoff : k.pagingEnabled = false)

include hoff

theorem translate_off (v : Nat) : k.translate v = some v := by
  simp [Kernel.translate, hoff]

theorem resolve_off (v : Nat) : resolve ext v k = .ok (v, k) := by
  simp [resolve, translate_off hoff]

theorem loadWord_off (v : Nat) : loadWord ext v k = .ok (k.mem.load32 v, k) := by
  rw [loadWord, Prog.bind_of_ok (resolve_off hoff v)]
  rfl

theorem storeWord_off (v w : Nat) :
    storeWord ext v w k = .ok ((), k.setMem (k.mem.store32 v w)) := by
  rw [storeWord, Prog.bind_of_ok (resolve_off hoff v)]
  rfl

theorem modifyWord_off (e : Nat) (f : Nat → Nat) :
    modifyWord ext e f k = .ok ((), k.setMem (k.mem.store32 e (f (k.mem.load32 e)))) := by
  rw [modifyWord, Prog.bind_of_ok (loadWord_off hoff e)]
  exact storeWord_off hoff e _

end PagingOff

/-- What holds of the kernel while `vmm_init` maps pages: every directory entry
below the recursive one is the flags alone. -/
structure Booting (l : VmmLayout) (k : Kernel) : Prop where
  paging_off : k.pagingEnabled = false
  dir : k.currentDirectory = l.kernelDirectory
  entries : ∀ i, i < recursivePageTableIndex → k.entryAt l.kernelDirectory i = kernelPageFlags

/-- The directory's page does not meet the table in frame 0. -/
theorem directory_above (l : VmmLayout) : pageSize ≤ l.kernelDirectory := by
  have haligned := l.directory_aligned
  have hne := l.directory_nonnull
  simp only [pageSize] at haligned ⊢
  omega

theorem Booting.setMem {l : VmmLayout} {k : Kernel} (h : Booting l k) {i w : Nat} (hi : i < 1024) :
    Booting l (k.setMem (k.mem.store32 (4 * i) w)) where
  paging_off := h.paging_off
  dir := h.dir
  entries j hj := by
    have habove := directory_above l
    have hsize : pageSize = 4096 := rfl
    rw [← h.entries j hj]
    exact ByteStore.load32_store32_ne (by omega)

/-- Mapping a page writes entry `getTableIndex v` of frame 0, whatever `v` is. -/
theorem vmmMapPage_booting {ext : Ext} {l : VmmLayout} {k : Kernel} (h : Booting l k)
    {v : Nat} (hv : getDirectoryIndex v < recursivePageTableIndex) (phys flags : Nat) :
    ∃ k', vmmMapPageToCurrDir ext v phys flags k = .ok ((), k') ∧ Booting l k' ∧
      (phys < 2 ^ 32 → flags < 2 ^ 32 → k'.entryAt 0 (getTableIndex v) =
        installed (k.entryAt 0 (getTableIndex v)) phys flags) := by
  have hpt := getTableIndex_lt v
  have hentry : k.mem.load32 (l.kernelDirectory + 4 * getDirectoryIndex v) = kernelPageFlags :=
    h.entries _ hv
  let k₁ := k.setMem (k.mem.store32 (4 * getTableIndex v)
    (pageEntrySetFrame (k.mem.load32 (4 * getTableIndex v)) phys))
  have h₁ : Booting l k₁ := h.setMem hpt
  let k₂ := k₁.setMem (k₁.mem.store32 (4 * getTableIndex v)
    (pageEntryAddAttrib (k₁.mem.load32 (4 * getTableIndex v)) (flags ||| present)))
  refine ⟨k₂, ?_, h₁.setMem hpt, fun hphys hflags => ?_⟩
  · have htable : tableForMapping ext l.kernelDirectory (getDirectoryIndex v) k = .ok (0, k) := by
      have hpresent : isPagePresent kernelPageFlags = true := by decide
      have hframe : getFrameAddr kernelPageFlags = 0 := by decide
      rw [tableForMapping, Prog.bind_of_ok (loadWord_off h.paging_off _), hentry,
        if_pos hpresent, getPageTableAddr, Prog.get_bind_apply, h.paging_off]
      simp only [Bool.false_eq_true, if_false]
      rw [Prog.bind_of_ok (loadWord_off h.paging_off _), hentry, hframe]
      rfl
    rw [vmmMapPageToCurrDir, Prog.get_bind_apply, h.dir, if_neg l.directory_nonnull, vmmMapPage,
      if_neg l.directory_nonnull, Prog.bind_of_ok htable]
    simp only [Nat.zero_add]
    rw [Prog.bind_of_ok (modifyWord_off h.paging_off _ _)]
    exact modifyWord_off h₁.paging_off _ _
  · have hw : pageEntrySetFrame (k.mem.load32 (4 * getTableIndex v)) phys < 2 ^ 32 :=
      pageEntrySetFrame_lt hphys
    have hfp : flags ||| present < 2 ^ 32 := Nat.or_lt_two_pow hflags (by decide)
    have hk₁ : k₁.mem.load32 (4 * getTableIndex v) =
        pageEntrySetFrame (k.mem.load32 (4 * getTableIndex v)) phys :=
      ByteStore.load32_store32 hw
    have hk₂ : k₂.mem.load32 (4 * getTableIndex v) =
        pageEntryAddAttrib (k₁.mem.load32 (4 * getTableIndex v)) (flags ||| present) :=
      ByteStore.load32_store32 (by rw [hk₁]; exact pageEntryAddAttrib_lt hw hfp)
    simp only [Kernel.entryAt, Nat.zero_add, installed]
    rw [hk₂, hk₁]

/-- The loops of `vmm_init` keep `Booting`. -/
theorem identityMap_booting {ext : Ext} {l : VmmLayout} {addr : Nat → Nat} {flags n : Nat}
    (haddr : ∀ i, i < n → getDirectoryIndex (addr i) < recursivePageTableIndex)
    {k : Kernel} (h : Booting l k) :
    ∃ k', identityMap ext addr flags n k = .ok ((), k') ∧ Booting l k' := by
  refine Prog.forLoop_ok (P := fun _ => Booting l) (fun i s hi hs => ?_) n 0 k (Nat.zero_add n) h
  obtain ⟨s', hrun, hs', _⟩ := vmmMapPage_booting hs (haddr i hi) (addr i) flags
  exact ⟨s', hrun, hs'⟩

/-- The first loop of `vmm_init` makes every entry present. -/
theorem entries_flagged {ext : Ext} {l : VmmLayout} {k : Kernel} (hinit : BeforeVmmInit l k) :
    ∃ k', Prog.forLoop (fun i =>
        modifyWord ext (l.kernelDirectory + 4 * i) fun w => pageEntryAddAttrib w kernelPageFlags)
        0 tablesPerDir { k with currentDirectory := l.kernelDirectory } = .ok ((), k') ∧
      Booting l k' := by
  let P : Nat → Kernel → Prop := fun i s => s.pagingEnabled = false ∧
    s.currentDirectory = l.kernelDirectory ∧
    (∀ j, j < i → s.entryAt l.kernelDirectory j = kernelPageFlags) ∧
    ∀ j, i ≤ j → j < tablesPerDir → s.entryAt l.kernelDirectory j = 0
  have hturn : ∀ i s, i < tablesPerDir → P i s → ∃ s',
      modifyWord ext (l.kernelDirectory + 4 * i)
        (fun w => pageEntryAddAttrib w kernelPageFlags) s = .ok ((), s') ∧ P (i + 1) s' := by
    rintro i s hi ⟨hoff, hdir, hdone, hleft⟩
    refine ⟨_, modifyWord_off hoff _ _, hoff, hdir, fun j hj => ?_, fun j hj hj' => ?_⟩
    · rcases Nat.lt_succ_iff_lt_or_eq.mp hj with hlt | rfl
      · rw [← hdone j hlt]
        exact ByteStore.load32_store32_ne (by omega)
      · have hzero := hleft j (Nat.le_refl _) hi
        rw [Kernel.entryAt] at hzero
        rw [hzero]
        exact ByteStore.load32_store32 (by decide)
    · rw [← hleft j (by omega) hj']
      exact ByteStore.load32_store32_ne (by omega)
  obtain ⟨k', hrun, hoff, hdir, hdone, _⟩ := Prog.forLoop_ok hturn tablesPerDir 0
    { k with currentDirectory := l.kernelDirectory } (Nat.zero_add _)
    ⟨hinit.paging_off, rfl, fun j hj => absurd hj (Nat.not_lt_zero j),
      fun j _ hj => hinit.directory_zero j hj⟩
  exact ⟨k', hrun, hoff, hdir, fun j hj => hdone j (Nat.lt_trans hj (by decide))⟩

/-- The processor finds the VGA buffer's entry for every directory index. -/
theorem walk_vga {l : VmmLayout} {k : Kernel} (h : Booting l k) {w : Nat}
    (hentry : k.entryAt 0 (getTableIndex vgaAddress) =
      installed w vgaAddress (present ||| pageWriteable)) {i : Nat}
    (hi : i < recursivePageTableIndex) :
    k.walkFrom l.kernelDirectory (i * 2 ^ 22 + vgaAddress) = some vgaAddress := by
  have hvga : vgaAddress = 0xB8000 := rfl
  have hsize : pageSize = 4096 := rfl
  have hpd : getDirectoryIndex (i * 2 ^ 22 + vgaAddress) = i := by
    rw [getDirectoryIndex_eq]
    omega
  have hpt : getTableIndex (i * 2 ^ 22 + vgaAddress) = getTableIndex vgaAddress := by
    rw [getTableIndex_eq, getTableIndex_eq, hsize]
    omega
  have hoff : getFrameOffset (i * 2 ^ 22 + vgaAddress) = 0 := by
    rw [getFrameOffset_eq, hsize]
    omega
  have hpresent : isPagePresent kernelPageFlags = true := by decide
  have hframe : getFrameAddr kernelPageFlags = 0 := by decide
  have hinstalled : isPagePresent (installed w vgaAddress (present ||| pageWriteable)) = true :=
    isPagePresent_installed
  have hvgaFrame : getFrameAddr (installed w vgaAddress (present ||| pageWriteable)) =
      vgaAddress := by
    rw [getFrameAddr_installed (by decide)]
    decide
  simp only [Kernel.walkFrom, hpd, hpt, hoff, h.entries i hi, hpresent, hframe, if_true, hentry,
    hinstalled, hvgaFrame, Nat.add_zero]

/-- `vmm_init` returns, and the VGA buffer is then mapped once in every 4 MiB of
the address space. -/
theorem vmmInit_vga (ext : Ext) (l : VmmLayout) {k : Kernel} (hinit : BeforeVmmInit l k) :
    ∃ k', vmmInit ext l k = .ok ((), k') ∧ ∀ i, i < recursivePageTableIndex →
      k'.translate (i * 2 ^ 22 + vgaAddress) = some vgaAddress := by
  have hend := l.below_stack
  have hstart := l.start_le_end
  have hinside := l.directory_inside
  have hframes := l.kernelFrames_eq
  simp only [kernelStackTop, pageSize] at hend hinside
  have hmax : recursivePageTableIndex = 1023 := rfl
  -- the addresses of the four loops all lie below the recursive window
  have himage : ∀ i, i < l.kernelFrames →
      getDirectoryIndex (u32 (l.kernelStart + i * pageSize)) < recursivePageTableIndex := by
    intro i hi
    refine getDirectoryIndex_lt (Nat.lt_of_le_of_lt (Nat.mod_le _ _) ?_)
    simp only [pageSize]
    omega
  have hstack : ∀ i, i < l.kernelStackPagesAmount →
      getDirectoryIndex (sub32 kernelStackTop (i * pageSize)) < recursivePageTableIndex := by
    intro i hi
    rw [sub32_of_le (by simp only [kernelStackTop, pageSize]; omega) (by decide)]
    refine getDirectoryIndex_lt ?_
    simp only [kernelStackTop]
    omega
  have hheap : ∀ i, i < kernelHeapSize / pageSize →
      getDirectoryIndex (u32 (kernelBaseHeapAddr + i * pageSize)) < recursivePageTableIndex := by
    intro i hi
    have hpages : kernelHeapSize / pageSize = 108 := by decide
    refine getDirectoryIndex_lt (Nat.lt_of_le_of_lt (Nat.mod_le _ _) ?_)
    rw [kernelBaseHeapAddr_eq]
    simp only [pageSize]
    omega
  obtain ⟨k₁, hrun₁, h₁⟩ := @entries_flagged ext l k hinit
  obtain ⟨k₂, hrun₂, h₂⟩ := @identityMap_booting ext l _ kernelPageFlags _ himage k₁ h₁
  let k₃ := k₂.setMem (k₂.mem.store32 (l.kernelDirectory + 4 * recursivePageTableIndex)
    (l.kernelDirectory ||| kernelPageFlags))
  have h₃ : Booting l k₃ :=
    { h₂ with
      entries := fun i hi => by
        rw [← h₂.entries i hi]
        exact ByteStore.load32_store32_ne (by omega) }
  obtain ⟨k₄, hrun₄, h₄⟩ := @identityMap_booting ext l _ kernelPageFlags _ hstack k₃ h₃
  obtain ⟨k₅, hrun₅, h₅⟩ := @identityMap_booting ext l _ kernelPageFlags _ hheap k₄ h₄
  obtain ⟨k₆, hrun₆, h₆, hentry⟩ := @vmmMapPage_booting ext l k₅ h₅ vgaAddress (by decide)
    vgaAddress (present ||| pageWriteable)
  have hrunVga : identityMap ext (fun _ => vgaAddress) (present ||| pageWriteable) 1 k₅ =
      .ok ((), k₆) := by
    rw [identityMap, Prog.forLoop, Prog.bind_of_ok hrun₆]
    rfl
  refine ⟨{ k₆ with cr3 := l.kernelDirectory, pagingEnabled := true }, ?_, fun i hi => ?_⟩
  · rw [vmmInit, Prog.modify_bind_apply, Prog.bind_of_ok hrun₁, Prog.bind_of_ok hrun₂,
      Prog.bind_of_ok (storeWord_off h₂.paging_off _ _), Prog.bind_of_ok hrun₄,
      Prog.bind_of_ok hrun₅, Prog.bind_of_ok hrunVga]
    rfl
  · have hframe : getFrameAddr l.kernelDirectory = l.kernelDirectory :=
      getFrameAddr_of_aligned l.directory_aligned (by omega)
    simp only [Kernel.translate, if_true, hframe]
    exact walk_vga h₆ (hentry (by decide) (by decide)) hi

/-- After `vmm_init` the boot mapping is not exact: the page at the VGA
buffer's offset in the last 4 MiB below the recursive window is present and is
not mapped to itself. -/
theorem boot_mapping_inexact {ext : Ext} {l : VmmLayout} {k : Kernel} (hinit : BeforeVmmInit l k) :
    ∃ k', vmmInit ext l k = .ok ((), k') ∧ ¬ BootMappingExact l.toKernelLayout k' := by
  obtain ⟨k', hrun, hvga⟩ := vmmInit_vga ext l hinit
  refine ⟨k', hrun, fun hexact => ?_⟩
  have hpage := hvga 1022 (by decide)
  by_cases hregion : Reserved l.toKernelLayout
      ((1022 * 2 ^ 22 + vgaAddress) / pageSize * pageSize)
  · have hself := hexact.mapped _ (by decide) hregion
    rw [hpage] at hself
    exact absurd (Option.some.inj hself) (by decide)
  · have hnone := hexact.absent _ (by decide) hregion (by decide)
    rw [hpage] at hnone
    cases hnone

/-- **The boot mapping is never exact.** -/
theorem boot_mapping_never_exact (l : VmmLayout) (k : Kernel) (hinit : BeforeVmmInit l k)
    (depth : Nat) :
    ∃ k', vmmInit (link depth) l k = .ok ((), k') ∧ ¬ BootMappingExact l.toKernelLayout k' :=
  boot_mapping_inexact hinit

/-- A 64 KiB image at 1 MiB with the directory in its first page. -/
def smallLayout : VmmLayout where
  kernelStart := 0x100000
  kernelEnd := 0x110000
  kernelStackPagesAmount := 4
  start_aligned := smallImage_aligned
  start_le_end := smallImage_le
  below_stack := smallImage_below_stack
  kernelDirectory := 0x100000
  directory_aligned := by decide
  directory_inside := by decide
  directory_nonnull := by decide

/-- The machine at power-on, with zeroed memory. -/
def zeroKernel : Kernel where
  mem := fun _ => 0#8
  cr3 := 0
  pagingEnabled := false
  currentDirectory := 0
  pmm := Pmm.boot
  heap := ⟨0, 0, fun _ => [], []⟩
  pageFifoQueue := []
  disk := ⟨fun _ => ⟨0#16, 0, 0, false, false, noSectors_lt, noSectors_lt⟩, 0, fun _ _ => 0#8,
    fun _ => lba28, fun _ => .done, 0, ⟨0, 0, 0, 0, 0⟩⟩
  slots := ⟨fun _ => 0#8, 1⟩

theorem zeroKernel_before (l : VmmLayout) : BeforeVmmInit l zeroKernel :=
  ⟨rfl, fun _ _ => by simp [Kernel.entryAt, ByteStore.load32, zeroKernel]⟩

theorem boot_mapping_never_exact_zero : ∃ k', vmmInit (link 0) smallLayout zeroKernel = .ok ((), k') ∧
    ¬ BootMappingExact smallLayout.toKernelLayout k' :=
  boot_mapping_never_exact smallLayout zeroKernel (zeroKernel_before smallLayout) 0

/-- On that layout `vmm_init` returns with page `0xFF8B8000` mapped to the VGA
buffer, though it is none of the pages to map. -/
theorem boot_mapping_extra_page : ∃ k', vmmInit (link 0) smallLayout zeroKernel = .ok ((), k') ∧
    k'.translate 0xFF8B8000 = some 0xB8000 ∧ ¬ BootMappingExact smallLayout.toKernelLayout k' := by
  obtain ⟨k', hrun, hvga⟩ := vmmInit_vga (link 0) smallLayout (zeroKernel_before smallLayout)
  obtain ⟨k'', hrun', hnot⟩ := @boot_mapping_inexact (link 0) _ _ (zeroKernel_before smallLayout)
  rw [hrun] at hrun'
  cases hrun'
  exact ⟨k', hrun, hvga 1022 (by decide), hnot⟩

end MyOs
