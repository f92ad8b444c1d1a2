import MyOs.Logic.PageWalk

/-!
# The software walk and the hardware walk

`vmm_get_page_entry` reads the directory through `current_directory` and
returns an address in the recursive window; the processor translates that
address through the directory itself. When the directory is the current one and
its own last table, both arrive at the same entry, also for an address of the
window, where the table walked is the directory.
-/

namespace MyOs

open Kernel

/-- The directory in CR3 is the one `current_directory` points to, and is its own
last table. -/
structure Kernel.DirectoryCurrent (k : Kernel) : Prop where
  recursive : k.Recursive
  dir_ne : k.currentDirectory ≠ 0
  dir : ∀ i, i < tablesPerDir →
    k.translate (k.currentDirectory + 4 * i) = some (k.dirFrame + 4 * i)

/-- What the software walk for `v` finds: the entry the hardware walk uses, and
when that is present the address the hardware walk yields. -/
structure SoftwareWalk (ext : Ext) (k : Kernel) (v : Nat) : Prop where
  entry : ∃ e, vmmGetPageEntry ext v k = .ok (e, k) ∧ k.translate e = some (k.pteAddr v)
  phys : isPagePresent (k.mem.load32 (k.pteAddr v)) = true →
    ∃ p, k.translate v = some p ∧ vmmCalcPhysAddr ext v k = .ok (p, k)

/-- **The two walks agree.** For every address whose directory entry is present
and not swapped, inside the recursive window or outside. -/
theorem software_walk_eq (ext : Ext) {k : Kernel} (hcur : k.DirectoryCurrent) {v : Nat}
    (hv : v < 2 ^ 32) (hpresent : isPagePresent (k.pdeOf v) = true)
    (hin : isSwapped (k.pdeOf v) = false) : SoftwareWalk ext k v := by
  have hon := hcur.recursive.paging_on
  have hentry : vmmGetPageEntry ext v k = .ok (windowAddr v, k) :=
    vmmGetPageEntry_mapped hon hcur.dir_ne (hcur.dir _ (getDirectoryIndex_lt_of hv)) hpresent hin
  have hptr := translate_windowAddr hcur.recursive hv hpresent
  refine { entry := ⟨_, hentry, hptr⟩, phys := fun hpage => ?_ }
  refine ⟨_, translate_eq hon hpresent hpage, ?_⟩
  rw [vmmCalcPhysAddr, Prog.bind_of_ok hentry, Prog.bind_of_ok (loadWord_mapped hptr), hpage]
  rfl

/-- A directory reached through its own last entry is current. -/
theorem Kernel.Recursive.directoryCurrent {k : Kernel} (hr : k.Recursive)
    (hdir : k.currentDirectory = getPageTableVirAddr recursivePageTableIndex) :
    k.DirectoryCurrent where
  recursive := hr
  dir_ne := by
    rw [hdir]
    decide
  dir i hi := by
    rw [hdir, translate_window hr (by decide) hi hr.present, hr.frame]

/-- A directory in frame `0x100000` with one table, in frame `0x101000`, which maps
`0x5000` to frame `0x102000`. -/
def walkKernel : Kernel :=
  .ofWords 0x100000 [(0x100FFC, 0x100003), (0x100000, 0x101003), (0x101014, 0x102003)]

theorem walkKernel_current : walkKernel.DirectoryCurrent :=
  Kernel.Recursive.directoryCurrent ⟨rfl, by decide +kernel, by decide +kernel⟩ rfl

/-- A page of that kernel, and the address of its entry in the window. -/
theorem software_walk_eq_walkKernel : SoftwareWalk (link 0) walkKernel 0x5123 ∧
    SoftwareWalk (link 0) walkKernel 0xFFC00014 :=
  ⟨software_walk_eq (link 0) walkKernel_current (by decide) (by decide +kernel)
      (by decide +kernel),
    software_walk_eq (link 0) walkKernel_current (by decide) (by decide +kernel)
      (by decide +kernel)⟩

end MyOs
