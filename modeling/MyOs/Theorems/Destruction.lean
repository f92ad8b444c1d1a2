import MyOs.Logic.PageWalk
import MyOs.Logic.PmmSpec
import MyOs.Logic.SwapSpec
import MyOs.Memory.Contexts

/-!
# Destroying an address space

Exact release: the frames and slots that only the destroyed context refers to
are given back once, and nothing else is. The walk of
`vmm_destroy_page_directory` never does that. It frees the frame of every
present entry, and the kernel's mapping is copied into every context; so the
first directory entry alone gives back the VGA buffer.
-/

namespace MyOs

open Kernel

/-! ## What a context refers to -/

/-- Word `j` of the page table of the directory entry `pde`, in memory or on the
disk. -/
def tableWord (k : Kernel) (pde j : Nat) : Nat :=
  if isPagePresent pde then k.entryAt (getFrameAddr pde) j
  else if isSwapped pde then k.image.load32 (getFrameAddr pde * diskSectorSize k + 4 * j)
  else 0

/-- What an entry holds. -/
def entryHolds (w : Nat) : Option Resource :=
  if isPagePresent w then some (.frame (getFrameAddr w))
  else if isSwapped w then some (.slots (getFrameAddr w))
  else none

namespace AddressSpace

/-- Directory entry `i`. -/
def pde (c : AddressSpace) (k : Kernel) (i : Nat) : Nat := k.entryAt c.pageDirPhysAddr i

/-- `r` is a page table or a page of `c`, in memory or swapped, also where the
table of a swapped page is swapped itself. -/
def Refers (c : AddressSpace) (k : Kernel) (r : Resource) : Prop :=
  ∃ i, i < recursivePageTableIndex ∧
    (entryHolds (c.pde k i) = some r ∨
      ∃ j, j < pageTableSize ∧ entryHolds (tableWord k (c.pde k i) j) = some r)

/-- What `vmm_create_vm_context` leaves: the context names its directory, the
directory is mapped there and is its own last entry, and the kernel's mapping
was copied, of which the VGA buffer's page is all that matters here. -/
structure Wf (c : AddressSpace) (k : Kernel) : Prop where
  dir_aligned : c.pageDir % pageSize = 0
  dir_lt : c.pageDir < 2 ^ 32
  frame_aligned : c.pageDirPhysAddr % pageSize = 0
  frame_lt : c.pageDirPhysAddr < 2 ^ 32
  stored : ∃ p, k.translate c.addr = some p ∧ k.mem.load32 p = c.pageDir
  dir_mapped : k.translate c.pageDir = some c.pageDirPhysAddr
  recursive : c.pde k recursivePageTableIndex = c.pageDirPhysAddr ||| kernelPageFlags
  kernel_mapping : k.walkFrom c.pageDirPhysAddr vgaAddress = some vgaAddress

end AddressSpace

/-- The live contexts, one of which is the current one. -/
structure ContextsOk (k : Kernel) (live : List AddressSpace) : Prop where
  paging_on : k.pagingEnabled = true
  current : ∃ c ∈ live, k.currentDirectory = c.pageDir ∧ k.cr3 = c.pageDirPhysAddr
  contexts : ∀ c ∈ live, c.Wf k

/-- Only `c` refers to `r`: no other live context does, and it is no directory
and not the kernel's. -/
structure OnlyRefers (l : KernelLayout) (k : Kernel) (live : List AddressSpace) (c : AddressSpace)
    (r : Resource) : Prop where
  refers : c.Refers k r
  alone : ∀ c' ∈ live, c' ≠ c → ¬ c'.Refers k r
  no_directory : ∀ c' ∈ live, r ≠ .frame c'.pageDirPhysAddr
  not_reserved : ∀ f, r = .frame f → ¬ Reserved l f

/-- A destruction of `c` that released `log` and ended in `k'` was exact. -/
structure ReleasedExactly (l : KernelLayout) (k : Kernel) (live : List AddressSpace) (c : AddressSpace)
    (log : List Resource) (k' : Kernel) : Prop where
  once : ∀ r, OnlyRefers l k live c r → log.count r = 1
  only : ∀ r ∈ log, OnlyRefers l k live c r
  frames_free : ∀ f, OnlyRefers l k live c (.frame f) → ¬ k'.FrameUsed f
  slots_free : ∀ s, OnlyRefers l k live c (.slots s) →
    ∀ j, s ≤ j → j < s + k.pageSlots → k'.slots.diskBitmap.bit j = false
  /-- the directory's page goes with `kfree` -/
  directory_free : ¬ k'.FrameUsed c.pageDirPhysAddr
  kept : ∀ f, k.FrameUsed f → ¬ OnlyRefers l k live c (.frame f) → f ≠ c.pageDirPhysAddr →
    k'.FrameUsed f

/-- `vmm_destroy_vm_context(c)` returns, and has released exactly what is `c`'s. -/
def ReleasesExactly (ext : Ext) (l : KernelLayout) (k : Kernel) (live : List AddressSpace)
    (c : AddressSpace) : Prop :=
  ∃ log k', vmmDestroyVmContext ext c.addr k = .ok (log, k') ∧ ReleasedExactly l k live c log k'

/-! ## One directory entry of the walk -/

/-- The frames of the present entries of the table in frame `table`, from entry
`j` on. -/
def presentFrames (k : Kernel) (table j n : Nat) : List Resource :=
  (List.range' j n).filterMap fun i =>
    if isPagePresent (k.entryAt table i) then some (.frame (getFrameAddr (k.entryAt table i)))
    else none

theorem presentFrames_succ (k : Kernel) (table j n : Nat) : presentFrames k table j (n + 1) =
    if isPagePresent (k.entryAt table j) then
      .frame (getFrameAddr (k.entryAt table j)) :: presentFrames k table (j + 1) n
    else presentFrames k table (j + 1) n := by
  by_cases h : isPagePresent (k.entryAt table j) = true
  · simp [presentFrames, List.range'_succ, h]
  · simp [presentFrames, List.range'_succ, h]

theorem mem_presentFrames {k : Kernel} {table j n i : Nat} (hlo : j ≤ i) (hhi : i < j + n)
    (hpresent : isPagePresent (k.entryAt table i) = true) :
    .frame (getFrameAddr (k.entryAt table i)) ∈ presentFrames k table j n := by
  refine List.mem_filterMap.mpr ⟨i, List.mem_range'_1.mpr ⟨hlo, hhi⟩, ?_⟩
  rw [if_pos hpresent]

/-- `pmm_free_frame` changes the frame allocator and nothing else. -/
theorem freeFrame_ok {k k' : Kernel} {f : Nat} (hrun : freeFrame f k = .ok ((), k')) :
    ∃ p, k' = { k with pmm := p } := by
  rw [freeFrame, Prog.get_bind_apply] at hrun
  cases hfree : k.pmm.pmmFreeFrame f with
  | none =>
      rw [hfree] at hrun
      cases hrun
  | some p =>
      rw [hfree] at hrun
      cases hrun
      exact ⟨p, rfl⟩

/-- The inner loop reads the table the window shows, whatever directory is being
destroyed, and frees the frame of every present entry. -/
theorem freePages_window {ext : Ext} {pd : Nat} (hpd : pd < 1024) :
    ∀ n j, j + n ≤ 1024 → ∀ {k k' : Kernel} {log : List Resource}, k.Recursive →
      isPagePresent (k.entryAt k.dirFrame pd) = true →
      freePages ext (getPageTableVirAddr pd) j n k = .ok (log, k') →
      log = presentFrames k (getFrameAddr (k.entryAt k.dirFrame pd)) j n ∧
        ∃ p, k' = { k with pmm := p } := by
  intro n
  induction n with
  | zero =>
      intro j _ k k' log _ _ hrun
      cases hrun
      exact ⟨rfl, _, rfl⟩
  | succ n ih =>
      intro j hn k k' log hrec hpresent hrun
      have hword := translate_window hrec hpd (show j < 1024 by omega) hpresent
      rw [freePages, Prog.bind_of_ok (loadWord_mapped hword)] at hrun
      rw [presentFrames_succ]
      cases hentry : isPagePresent (k.entryAt (getFrameAddr (k.entryAt k.dirFrame pd)) j) with
      | false =>
          rw [Kernel.entryAt] at hentry
          rw [hentry, if_neg (by decide)] at hrun
          rw [if_neg (by decide)]
          exact ih (j + 1) (by omega) hrec hpresent hrun
      | true =>
          have hentry' := hentry
          rw [Kernel.entryAt] at hentry'
          rw [hentry', if_pos rfl] at hrun
          obtain ⟨⟨⟩, k₁, hfree, hrun⟩ := Prog.bind_eq_ok.mp hrun
          obtain ⟨p, rfl⟩ := freeFrame_ok hfree
          obtain ⟨rest, k₂, hrest, hrun⟩ := Prog.bind_eq_ok.mp hrun
          cases hrun
          have hrec₁ : Kernel.Recursive { k with pmm := p } :=
            ⟨hrec.paging_on, hrec.present, hrec.frame⟩
          obtain ⟨rfl, p', rfl⟩ := ih (j + 1) (by omega) hrec₁ hpresent hrest
          rw [if_pos rfl]
          exact ⟨rfl, p', rfl⟩

/-- The walk of a present directory entry releases the pages of the current
directory's entry of that index. -/
theorem freeTable_window {ext : Ext} {pd pageDir : Nat} (hpd : pd < 1024) {k k' : Kernel}
    {log : List Resource} (hrec : k.Recursive)
    (hpresent : isPagePresent (k.entryAt k.dirFrame pd) = true)
    (hrun : freeTable ext pageDir pd k = .ok (log, k')) :
    ∃ rest, log = presentFrames k (getFrameAddr (k.entryAt k.dirFrame pd)) 0 pageTableSize ++
      rest := by
  have haddr : getPageTableAddr ext pageDir pd k = .ok (getPageTableVirAddr pd, k) := by
    rw [getPageTableAddr, Prog.get_bind_apply, hrec.paging_on]
    rfl
  rw [freeTable, Prog.bind_of_ok haddr] at hrun
  obtain ⟨pages, k₁, hpages, hrun⟩ := Prog.bind_eq_ok.mp hrun
  obtain ⟨w, k₂, _, hrun⟩ := Prog.bind_eq_ok.mp hrun
  obtain ⟨⟨⟩, k₃, _, hrun⟩ := Prog.bind_eq_ok.mp hrun
  cases hrun
  obtain ⟨rfl, _⟩ := freePages_window hpd pageTableSize 0 (by decide) hrec hpresent hpages
  exact ⟨_, rfl⟩

/-! ## The first directory entry -/

section Vga

variable {ext : Ext} {l : KernelLayout} {k k' : Kernel} {live : List AddressSpace} {c : AddressSpace}

theorem ContextsOk.recursive (h : ContextsOk k live) : k.Recursive := by
  obtain ⟨cur, hcur, _, hcr3⟩ := h.current
  have hwf := h.contexts cur hcur
  have hframe : k.dirFrame = cur.pageDirPhysAddr := by
    rw [dirFrame, hcr3, getFrameAddr_of_aligned hwf.frame_aligned hwf.frame_lt]
  have hentry : k.entryAt k.dirFrame recursivePageTableIndex =
      pageEntryAddAttrib cur.pageDirPhysAddr kernelPageFlags := by
    rw [hframe]
    exact hwf.recursive
  constructor
  case paging_on => exact h.paging_on
  case present =>
    rw [hentry]
    exact isPagePresent_pageEntryAddAttrib _ (by decide)
  case frame =>
    rw [hentry, getFrameAddr_pageEntryAddAttrib _ (by decide), hframe,
      getFrameAddr_of_aligned hwf.frame_aligned hwf.frame_lt]

/-- A walk that arrives: both of its entries are present. -/
theorem walkFrom_eq_some {dir v p : Nat} (h : k.walkFrom dir v = some p) :
    isPagePresent (k.entryAt dir (getDirectoryIndex v)) = true ∧
      isPagePresent (k.entryAt (getFrameAddr (k.entryAt dir (getDirectoryIndex v)))
        (getTableIndex v)) = true ∧
      p = getFrameAddr (k.entryAt (getFrameAddr (k.entryAt dir (getDirectoryIndex v)))
        (getTableIndex v)) + getFrameOffset v := by
  simp only [walkFrom] at h
  split at h
  · next hpde =>
      split at h
      · next hpte => exact ⟨hpde, hpte, (Option.some.inj h).symm⟩
      · cases h
  · cases h

/-- The VGA buffer's page, in the table that the window shows first. -/
theorem ContextsOk.vga (h : ContextsOk k live) :
    isPagePresent (k.entryAt k.dirFrame 0) = true ∧
      .frame vgaAddress ∈
        presentFrames k (getFrameAddr (k.entryAt k.dirFrame 0)) 0 pageTableSize := by
  obtain ⟨cur, hcur, _, hcr3⟩ := h.current
  have hwf := h.contexts cur hcur
  have hframe : k.dirFrame = cur.pageDirPhysAddr := by
    rw [dirFrame, hcr3, getFrameAddr_of_aligned hwf.frame_aligned hwf.frame_lt]
  have hdir : getDirectoryIndex vgaAddress = 0 := by decide
  have htable : getTableIndex vgaAddress = 0xB8 := by decide
  have hoffset : getFrameOffset vgaAddress = 0 := by decide
  obtain ⟨hpde, hpte, haddr⟩ := walkFrom_eq_some hwf.kernel_mapping
  rw [hdir, ← hframe] at hpde hpte haddr
  rw [htable] at hpte haddr
  rw [hoffset, Nat.add_zero] at haddr
  refine ⟨hpde, ?_⟩
  rw [haddr]
  exact mem_presentFrames (Nat.zero_le _) (by decide) hpte

/-- The destroyed directory's first entry is read where it is mapped. -/
theorem ContextsOk.first_entry (h : ContextsOk k live) (hc : c ∈ live) :
    loadWord ext (c.pageDir + 4 * 0) k = .ok (c.pde k 0, k) ∧
      isPagePresent (c.pde k 0) = true := by
  have hwf := h.contexts c hc
  have hdir : getDirectoryIndex vgaAddress = 0 := by decide
  obtain ⟨hpde, _⟩ := walkFrom_eq_some hwf.kernel_mapping
  rw [hdir] at hpde
  exact ⟨loadWord_mapped hwf.dir_mapped, hpde⟩

/-- The walk gives the VGA buffer's frame back, if it returns at all. -/
theorem vga_released (h : ContextsOk k live) (hc : c ∈ live) {log : List Resource}
    (hrun : vmmDestroyVmContext ext c.addr k = .ok (log, k')) : .frame vgaAddress ∈ log := by
  obtain ⟨p, hp, hstored⟩ := (h.contexts c hc).stored
  obtain ⟨hfirst, hpresent⟩ := @ContextsOk.first_entry ext _ _ _ h hc
  obtain ⟨hcurrent, hmem⟩ := h.vga
  rw [vmmDestroyVmContext, Prog.bind_of_ok (loadWord_mapped hp), hstored] at hrun
  obtain ⟨log', k₁, hdir, hrun⟩ := Prog.bind_eq_ok.mp hrun
  obtain ⟨⟨⟩, _, _, hrun⟩ := Prog.bind_eq_ok.mp hrun
  cases hrun
  rw [vmmDestroyPageDirectory] at hdir
  obtain ⟨log'', k₂, hwalk, hdir⟩ := Prog.bind_eq_ok.mp hdir
  obtain ⟨⟨⟩, _, _, hdir⟩ := Prog.bind_eq_ok.mp hdir
  cases hdir
  -- the first turn of the loop over the directory
  rw [show tablesPerDir = 1023 + 1 from rfl, freeTables, Prog.bind_of_ok hfirst, hpresent,
    if_pos rfl] at hwalk
  obtain ⟨pages, k₃, hpages, hwalk⟩ := Prog.bind_eq_ok.mp hwalk
  obtain ⟨slots, k₄, _, hwalk⟩ := Prog.bind_eq_ok.mp hwalk
  obtain ⟨rest, k₅, _, hwalk⟩ := Prog.bind_eq_ok.mp hwalk
  cases hwalk
  obtain ⟨more, rfl⟩ := freeTable_window (by decide) h.recursive hcurrent hpages
  exact List.mem_append_left _ (List.mem_append_left _ (List.mem_append_left _ hmem))

theorem reserved_vga (l : KernelLayout) : Reserved l vgaAddress :=
  .inr (.inr (.inr ⟨by decide, by decide⟩))

/-- The VGA buffer's frame is nobody's to release. -/
theorem not_releasesExactly (h : ContextsOk k live) (hc : c ∈ live) :
    ¬ ReleasesExactly ext l k live c := by
  rintro ⟨log, k', hrun, hexact⟩
  have hvga := hexact.only _ (vga_released h hc hrun)
  exact hvga.not_reserved vgaAddress rfl (reserved_vga l)

end Vga

/-- **No destruction is exact.** Whatever contexts are live, whichever of them is
current and whichever is destroyed, `vmm_destroy_vm_context` does not release
exactly what only that context refers to. -/
theorem destruction_never_exact (depth : Nat) (l : KernelLayout) (k : Kernel)
    (live : List AddressSpace) (c : AddressSpace) (h : ContextsOk k live) (hc : c ∈ live) :
    ¬ ReleasesExactly (link depth) l k live c :=
  not_releasesExactly h hc

/-! ## Two contexts -/

/-- A layout with a 64 KiB image at 1 MiB. -/
def destructionLayout : KernelLayout where
  kernelStart := 0x100000
  kernelEnd := 0x110000
  kernelStackPagesAmount := 4
  start_aligned := smallImage_aligned
  start_le_end := smallImage_le
  below_stack := smallImage_below_stack

/-- The kernel's own context and a copy of it, as `vmm_create_vm_context` lays
them out: contexts in the first slab, directories in the large heap. -/
def parentSpace : AddressSpace := ⟨0x8000014, 0x406C000, 0x200000⟩

def childSpace : AddressSpace := ⟨0x8000024, 0x406D000, 0x201000⟩

/-- The frames of the two directories and of three tables are taken. -/
def twoSpacesPmm : Pmm :=
  let p := pmmInit destructionLayout Pmm.boot
  { p with
    pmmBitmap :=
      [0x200000, 0x201000, 0x202000, 0x203000, 0x204000].foldl pmmMarkUsed p.pmmBitmap }

/-- A machine with these two contexts, the first one current. Both directories
refer to the tables of the VGA buffer, the large heap and the slabs. -/
def twoSpaces : Kernel :=
  { Kernel.ofWords 0x200000
      [(0x200000, 0x202103), (0x200040, 0x203103), (0x200080, 0x204103), (0x200FFC, 0x200103),
        (0x201000, 0x202103), (0x201040, 0x203103), (0x201080, 0x204103), (0x201FFC, 0x201103),
        (0x2022E0, 0xB8003), (0x2031B0, 0x200003), (0x2031B4, 0x201003), (0x204000, 0x4000003),
        (0x4000014, 0x406C000), (0x4000018, 0x200000),
        (0x4000024, 0x406D000), (0x4000028, 0x201000)] with
    currentDirectory := 0x406C000
    pmm := twoSpacesPmm
    heap :=
      { currentHeapAddr := kernelBaseHeapAddr + pageSize
        currentLargeHeapAddr := 0x406E000
        slabs := fun i => if i = 0 then [⟨0x8000000, 16, [0x8000054, 0x8000064]⟩] else []
        largeAllocations := [⟨0x8000044, 4096, 0x406D000⟩, ⟨0x8000034, 4096, 0x406C000⟩] } }

theorem parentSpace_wf : parentSpace.Wf twoSpaces where
  dir_aligned := by decide
  dir_lt := by decide
  frame_aligned := by decide
  frame_lt := by decide
  stored := ⟨0x4000014, by decide +kernel, by decide +kernel⟩
  dir_mapped := by decide +kernel
  recursive := by decide +kernel
  kernel_mapping := by decide +kernel

theorem childSpace_wf : childSpace.Wf twoSpaces where
  dir_aligned := by decide
  dir_lt := by decide
  frame_aligned := by decide
  frame_lt := by decide
  stored := ⟨0x4000024, by decide +kernel, by decide +kernel⟩
  dir_mapped := by decide +kernel
  recursive := by decide +kernel
  kernel_mapping := by decide +kernel

theorem twoSpaces_ok : ContextsOk twoSpaces [parentSpace, childSpace] where
  paging_on := rfl
  current := ⟨parentSpace, List.mem_cons_self, rfl, rfl⟩
  contexts := by
    intro c hc
    rcases List.mem_cons.mp hc with rfl | hc
    · exact parentSpace_wf
    · rw [List.mem_singleton.mp hc]
      exact childSpace_wf

theorem destruction_never_exact_child :
    ¬ ReleasesExactly (link 8) destructionLayout twoSpaces [parentSpace, childSpace] childSpace :=
  destruction_never_exact 8 _ _ _ _ twoSpaces_ok (by decide)

/-- Destroying the child while the parent is current: however deep the calls may
go, the walk gives back the frame of the VGA buffer, which the parent's directory
still maps. -/
theorem destruction_frees_vga :
    ContextsOk twoSpaces [parentSpace, childSpace] ∧
      parentSpace.Refers twoSpaces (.frame vgaAddress) ∧
      ∀ depth,
        (∀ log k', vmmDestroyVmContext (link depth) childSpace.addr twoSpaces = .ok (log, k') →
          .frame vgaAddress ∈ log) ∧
        ¬ ReleasesExactly (link depth) destructionLayout twoSpaces [parentSpace, childSpace]
          childSpace := by
  have hrefers : parentSpace.Refers twoSpaces (.frame vgaAddress) :=
    ⟨0, by decide, .inr ⟨0xB8, by decide, by decide +kernel⟩⟩
  refine ⟨twoSpaces_ok, hrefers, fun depth => ⟨fun log k' hrun => ?_, ?_⟩⟩
  · exact vga_released twoSpaces_ok (c := childSpace) (by decide) hrun
  · rintro ⟨log, k', hrun, hexact⟩
    have hvga := vga_released twoSpaces_ok (c := childSpace) (by decide) hrun
    exact (hexact.only _ hvga).alone _ List.mem_cons_self (by decide) hrefers

end MyOs
