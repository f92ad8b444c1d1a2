import MyOs.Memory.Vmm

/-!
# Accesses through the page walk

An access to a mapped address does not fault, and reads or writes the word the
walk finds. In a directory whose last entry is the directory itself, the
recursive window shows the page tables: `translate_window`.
-/

namespace MyOs

section Mapped

variable {ext : Ext} {k : Kernel} {v p : Nat} (h : k.translate v = some p)

include h

theorem resolve_mapped : resolve ext v k = .ok (p, k) := by
  rw [resolve, Prog.get_bind_apply, h]
  rfl

theorem loadWord_mapped : loadWord ext v k = .ok (k.mem.load32 p, k) := by
  rw [loadWord, Prog.bind_of_ok (resolve_mapped h)]
  rfl

theorem storeWord_mapped (w : Nat) :
    storeWord ext v w k = .ok ((), k.setMem (k.mem.store32 p w)) := by
  rw [storeWord, Prog.bind_of_ok (resolve_mapped h)]
  rfl

theorem modifyWord_mapped (f : Nat → Nat) :
    modifyWord ext v f k = .ok ((), k.setMem (k.mem.store32 p (f (k.mem.load32 p)))) := by
  rw [modifyWord, Prog.bind_of_ok (loadWord_mapped h)]
  exact storeWord_mapped h _

end Mapped

/-- The address of a page table in the recursive window. -/
theorem getPageTableVirAddr_eq {pd : Nat} (hpd : pd < 1024) :
    getPageTableVirAddr pd = 1023 * 2 ^ 22 + pd * 4096 := by
  have hlt : pd <<< 12 < 2 ^ 22 := by
    rw [Nat.shiftLeft_eq]
    omega
  rw [getPageTableVirAddr, ← Nat.shiftLeft_add_eq_or_of_lt hlt, Nat.shiftLeft_eq, Nat.shiftLeft_eq]
  rfl

namespace Kernel

/-- The frame of the current directory. -/
def dirFrame (k : Kernel) : Nat := getFrameAddr k.cr3

theorem getDirectoryIndex_lt_of {v : Nat} (hv : v < 2 ^ 32) : getDirectoryIndex v < 1024 :=
  getDirectoryIndex_lt (by omega)

/-- The current directory's entry for `v`. -/
def pdeOf (k : Kernel) (v : Nat) : Nat := k.entryAt k.dirFrame (getDirectoryIndex v)

/-- Where the walk finds the page entry of `v`. -/
def pteAddr (k : Kernel) (v : Nat) : Nat := getFrameAddr (k.pdeOf v) + 4 * getTableIndex v

/-- The address of the page entry of `v` in the recursive window. -/
def windowAddr (v : Nat) : Nat :=
  getPageTableVirAddr (getDirectoryIndex v) + 4 * getTableIndex v

/-- The last entry of the current directory is the directory. -/
structure Recursive (k : Kernel) : Prop where
  paging_on : k.pagingEnabled = true
  present : isPagePresent (k.entryAt k.dirFrame recursivePageTableIndex) = true
  frame : getFrameAddr (k.entryAt k.dirFrame recursivePageTableIndex) = k.dirFrame

theorem translate_on {k : Kernel} (hon : k.pagingEnabled = true) (v : Nat) :
    k.translate v = k.walkFrom k.dirFrame v := by
  rw [translate, if_pos hon, dirFrame]

/-- The window shows the page tables of the current directory. -/
theorem translate_window {k : Kernel} (hr : k.Recursive) {pd pt : Nat} (hpd : pd < 1024)
    (hpt : pt < 1024) (hpresent : isPagePresent (k.entryAt k.dirFrame pd) = true) :
    k.translate (getPageTableVirAddr pd + 4 * pt) =
      some (getFrameAddr (k.entryAt k.dirFrame pd) + 4 * pt) := by
  have hsize : pageSize = 4096 := rfl
  have hdir : getDirectoryIndex (getPageTableVirAddr pd + 4 * pt) = recursivePageTableIndex := by
    rw [getDirectoryIndex_eq, getPageTableVirAddr_eq hpd, show recursivePageTableIndex = 1023 from rfl]
    omega
  have htable : getTableIndex (getPageTableVirAddr pd + 4 * pt) = pd := by
    rw [getTableIndex_eq, getPageTableVirAddr_eq hpd, hsize]
    omega
  have hoffset : getFrameOffset (getPageTableVirAddr pd + 4 * pt) = 4 * pt := by
    rw [getFrameOffset_eq, getPageTableVirAddr_eq hpd, hsize]
    omega
  rw [translate_on hr.paging_on]
  simp only [walkFrom, hdir, htable, hoffset, hr.present, hr.frame, hpresent, if_true]

/-- The page entry of `v` is read and written where the walk finds it. -/
theorem translate_windowAddr {k : Kernel} (hr : k.Recursive) {v : Nat} (hv : v < 2 ^ 32)
    (hpresent : isPagePresent (k.pdeOf v) = true) :
    k.translate (windowAddr v) = some (k.pteAddr v) :=
  translate_window hr (getDirectoryIndex_lt (by omega)) (getTableIndex_lt v) hpresent

/-- The walk, through the page entry's word. -/
theorem translate_eq {k : Kernel} (hon : k.pagingEnabled = true) {v : Nat}
    (hpde : isPagePresent (k.pdeOf v) = true)
    (hpte : isPagePresent (k.mem.load32 (k.pteAddr v)) = true) :
    k.translate v = some (getFrameAddr (k.mem.load32 (k.pteAddr v)) + getFrameOffset v) := by
  have hword : k.entryAt (getFrameAddr (k.pdeOf v)) (getTableIndex v) =
      k.mem.load32 (k.pteAddr v) := rfl
  rw [translate_on hon, walkFrom]
  simp only [show k.entryAt k.dirFrame (getDirectoryIndex v) = k.pdeOf v from rfl, hpde, if_true,
    hword, hpte]

/-- The two words of the walk for `v`. -/
def pdeAddr (k : Kernel) (v : Nat) : Nat := k.dirFrame + 4 * getDirectoryIndex v

/-- `vmm_get_page_entry` when the directory is mapped where `current_directory`
says and the table is in memory. -/
theorem vmmGetPageEntry_mapped {ext : Ext} {k : Kernel} {v : Nat} (hon : k.pagingEnabled = true)
    (hne : k.currentDirectory ≠ 0)
    (hdir : k.translate (k.currentDirectory + 4 * getDirectoryIndex v) = some (k.pdeAddr v))
    (hpresent : isPagePresent (k.pdeOf v) = true) (hin : isSwapped (k.pdeOf v) = false) :
    vmmGetPageEntry ext v k = .ok (windowAddr v, k) := by
  have hpde : loadWord ext (k.currentDirectory + 4 * getDirectoryIndex v) k =
      .ok (k.pdeOf v, k) := loadWord_mapped hdir
  have htable : swapInTable ext (k.currentDirectory + 4 * getDirectoryIndex v)
      (getPageTableVirAddr (getDirectoryIndex v)) k = .ok (true, k) := by
    rw [swapInTable, Prog.bind_of_ok hpde, hin]
    rfl
  have haddr : getPageTableAddr ext k.currentDirectory (getDirectoryIndex v) k =
      .ok (getPageTableVirAddr (getDirectoryIndex v), k) := by
    rw [getPageTableAddr, Prog.get_bind_apply, hon]
    rfl
  rw [vmmGetPageEntry, Prog.get_bind_apply]
  simp only [if_neg hne, Prog.bind_of_ok htable, if_neg (show ¬ true = false by decide),
    Prog.bind_of_ok hpde, hpresent, Prog.bind_of_ok haddr]
  rfl

/-- The words that can refer to a frame: the entries of the current directory
below the recursive one, and those of its present page tables. -/
def IsEntry (k : Kernel) (a : Nat) : Prop :=
  ∃ i, i < recursivePageTableIndex ∧
    (a = k.dirFrame + 4 * i ∨
      isPagePresent (k.entryAt k.dirFrame i) = true ∧
        ∃ j, j < 1024 ∧ a = getFrameAddr (k.entryAt k.dirFrame i) + 4 * j)

/-- Entry `a` is present and refers to frame `f`. -/
def RefersTo (k : Kernel) (a f : Nat) : Prop :=
  k.IsEntry a ∧ isPagePresent (k.mem.load32 a) = true ∧ getFrameAddr (k.mem.load32 a) = f

theorem IsEntry.aligned {k : Kernel} {a : Nat} (h : k.IsEntry a) : a % 4 = 0 := by
  have halign (e : Nat) : getFrameAddr e % 4 = 0 := by
    have := getFrameAddr_aligned e
    simp only [pageSize] at this
    omega
  obtain ⟨i, _, rfl | ⟨_, j, _, rfl⟩⟩ := h
  · have := halign k.cr3
    rw [dirFrame]
    omega
  · have := halign (k.entryAt k.dirFrame i)
    omega

theorem dirFrame_aligned (k : Kernel) : k.dirFrame % pageSize = 0 := getFrameAddr_aligned _

theorem pdeAddr_aligned (k : Kernel) (v : Nat) : k.pdeAddr v % 4 = 0 := by
  have := k.dirFrame_aligned
  simp only [pageSize] at this
  rw [pdeAddr]
  omega

theorem pteAddr_aligned (k : Kernel) (v : Nat) : k.pteAddr v % 4 = 0 := by
  have := getFrameAddr_aligned (k.pdeOf v)
  simp only [pageSize] at this
  rw [pteAddr]
  omega

/-- A mapped address: both words of its walk are present. -/
theorem translate_eq_some {k : Kernel} (hon : k.pagingEnabled = true) {v p : Nat} :
    k.translate v = some p ↔ isPagePresent (k.pdeOf v) = true ∧
      isPagePresent (k.mem.load32 (k.pteAddr v)) = true ∧
      p = getFrameAddr (k.mem.load32 (k.pteAddr v)) + getFrameOffset v := by
  constructor
  · intro h
    rw [translate_on hon, walkFrom] at h
    simp only at h
    split at h
    · next hpde =>
        split at h
        · next hpte => exact ⟨hpde, hpte, (Option.some.inj h).symm⟩
        · cases h
    · cases h
  · rintro ⟨hpde, hpte, rfl⟩
    exact translate_eq hon hpde hpte

/-- The walk as a function of its two words. -/
theorem translate_words (k : Kernel) (v : Nat) : k.translate v =
    if k.pagingEnabled then
      if isPagePresent (k.pdeOf v) then
        if isPagePresent (k.mem.load32 (k.pteAddr v)) then
          some (getFrameAddr (k.mem.load32 (k.pteAddr v)) + getFrameOffset v)
        else none
      else none
    else some v := rfl

/-- A change that keeps both words of a walk keeps the translation. -/
theorem translate_congr {k k' : Kernel} (hon : k'.pagingEnabled = k.pagingEnabled) {v : Nat}
    (hpde : k'.pdeOf v = k.pdeOf v)
    (hpte : k'.mem.load32 (k.pteAddr v) = k.mem.load32 (k.pteAddr v)) :
    k'.translate v = k.translate v := by
  have haddr : k'.pteAddr v = k.pteAddr v := by rw [pteAddr, pteAddr, hpde]
  rw [translate_words, translate_words, hon, hpde, haddr, hpte]

end Kernel
end MyOs
