import MyOs.Logic.Tables

/-!
# Mapping a page whose table is in memory

`vmm_map_page` then changes one word, the entry of the page, and `installed` is
what it makes of it: the old entry's low bits, the address given, the flags and
`PRESENT`, all in one OR.
-/

namespace MyOs

/-- What `vmm_map_page` makes of the entry `w`. -/
def installed (w physAddr flags : Nat) : Nat :=
  pageEntryAddAttrib (pageEntrySetFrame w physAddr) (flags ||| present)

section Installed

variable {w p flags : Nat}

theorem testBit_installed (i : Nat) : (installed w p flags).testBit i =
    (w.testBit i && decide (i < 12) || p.testBit i || flags.testBit i || decide (i = 0)) := by
  rw [installed, testBit_pageEntryAddAttrib, testBit_pageEntrySetFrame, Nat.testBit_or,
    testBit_present]
  simp only [Bool.or_assoc]

theorem isPagePresent_installed : isPagePresent (installed w p flags) = true := by
  rw [isPagePresent_eq, testBit_installed]
  simp

theorem installed_lt (hp : p < 2 ^ 32) (hflags : flags < 2 ^ 32) :
    installed w p flags < 2 ^ 32 :=
  pageEntryAddAttrib_lt (pageEntrySetFrame_lt hp) (Nat.or_lt_two_pow hflags present_lt)

/-- The page is mapped to the frame of the address given. -/
theorem getFrameAddr_installed (hflags : flags < pageSize) :
    getFrameAddr (installed w p flags) = getFrameAddr p := by
  rw [installed, getFrameAddr_pageEntryAddAttrib _ (Nat.or_lt_two_pow hflags (by decide) :
    flags ||| present < 2 ^ 12), getFrameAddr_pageEntrySetFrame]

end Installed

namespace Kernel

variable {ext : Ext} {k k₁ : Kernel} {d dir v T a p flags : Nat}

/-- Once the table is found, mapping is one store to the entry. -/
theorem Steady.vmmMapPage (hne : dir ≠ 0)
    (htable : tableForMapping ext dir (getDirectoryIndex v) k = .ok (T, k₁))
    (h : k₁.Steady (T + 4 * getTableIndex v) a) (hp : p < 2 ^ 32) :
    vmmMapPage ext dir v p flags k =
      .ok ((), k₁.setMem (k₁.mem.store32 a (installed (k₁.mem.load32 a) p flags))) := by
  rw [MyOs.vmmMapPage, if_neg hne, Prog.bind_of_ok htable]
  exact h.modifyWord_twice (pageEntrySetFrame_lt hp)

/-- Mapping a page of the current directory whose table is in memory. -/
theorem DirectoryIn.vmmMapPage (h : k.DirectoryIn d) (hin : k.TableIn d v) (hp : p < 2 ^ 32) :
    vmmMapPage ext k.currentDirectory v p flags k =
      .ok ((), k.setMem (k.mem.store32 (k.entryAddr d v)
        (installed (k.mem.load32 (k.entryAddr d v)) p flags))) :=
  (h.steady hin).vmmMapPage h.nonnull (h.tableForMapping hin.lt hin.table) hp

end Kernel
end MyOs
