import MyOs.Logic.AddressSpace
import MyOs.Logic.SmallBlocks

/-!
# Unmapping a page

`vmm_unmap_page` finds the entry of the page through `current_directory` and the
recursive window, gives the frame or the slots in it back and clears it. When
the page of the directory itself is not mapped there is no way to any entry:
the access faults, and the fault handler makes the same access.
-/

namespace MyOs
namespace Kernel

/-- No entry of the directory can be reached through `current_directory`. -/
def DirectoryLost (k : Kernel) : Prop :=
  ∀ i, i < 1024 → k.translate (k.currentDirectory + 4 * i) = none

section Lost

variable {k : Kernel} (h : k.DirectoryLost) (hlt : ∀ i, i < 1024 → k.currentDirectory + 4 * i < 2 ^ 32)

include h

/-- Looking for an entry then begins with a fault on the directory. -/
theorem DirectoryLost.vmmGetPageEntry {ext : Ext} {v : Nat} (hv : v < 2 ^ 32) {r : Nat × Kernel}
    (hrun : vmmGetPageEntry ext v k = .ok r) :
    ∃ r', ext.fault (k.currentDirectory + 4 * getDirectoryIndex v) k = .ok r' := by
  rw [MyOs.vmmGetPageEntry, Prog.get_bind_apply] at hrun
  by_cases hnull : k.currentDirectory = 0
  · rw [if_pos hnull] at hrun
    cases hrun
  · rw [if_neg hnull] at hrun
    obtain ⟨ok, k₁, htable, _⟩ := Prog.bind_eq_ok.mp hrun
    rw [swapInTable] at htable
    obtain ⟨w, k₂, hload, _⟩ := Prog.bind_eq_ok.mp htable
    rw [loadWord] at hload
    obtain ⟨p, k₃, hresolve, _⟩ := Prog.bind_eq_ok.mp hload
    rw [resolve, Prog.get_bind_apply, h _ (getDirectoryIndex_lt_of hv)] at hresolve
    exact ⟨_, hresolve⟩

include hlt

/-- The fault handler faults in turn, to any depth. -/
theorem DirectoryLost.fault (depth : Nat) {v : Nat} (hv : v < 2 ^ 32) (r : Nat × Kernel) :
    (link depth).fault v k ≠ .ok r := by
  induction depth generalizing v r with
  | zero =>
      intro hrun
      cases hrun
  | succ depth ih =>
      intro hrun
      have hfault : faultAndRetry (link depth) v k = .ok r := hrun
      rw [faultAndRetry] at hfault
      obtain ⟨_, k₁, hhandler, _⟩ := Prog.bind_eq_ok.mp hfault
      rw [pageFaultHandler] at hhandler
      obtain ⟨e, k₂, hentry, _⟩ := Prog.bind_eq_ok.mp hhandler
      obtain ⟨r', hagain⟩ := h.vmmGetPageEntry hv hentry
      exact ih (hlt _ (getDirectoryIndex_lt_of hv)) r' hagain

theorem DirectoryLost.vmmUnmapPage {ext : Ext} {depth : Nat} (hover : ext.Over (link depth))
    {v : Nat} (hv : v < 2 ^ 32) (r : Unit × Kernel) : vmmUnmapPage ext v k ≠ .ok r := by
  intro hrun
  rw [MyOs.vmmUnmapPage] at hrun
  obtain ⟨e, k₁, hentry, _⟩ := Prog.bind_eq_ok.mp hrun
  obtain ⟨r', hfault⟩ := h.vmmGetPageEntry hv hentry
  rw [hover.fault] at hfault
  exact h.fault hlt (depth + 1) (hlt _ (getDirectoryIndex_lt_of hv)) r' hfault

end Lost

section Entry

variable {ext : Ext} {k : Kernel} {e a v : Nat}

/-- The state after `disk_free_slots` for the slots from `slot` on. -/
def slotsFreed (k : Kernel) (slot : Nat) : Kernel :=
  { k with slots := k.slots.diskFreeSlots slot k.pageSlots }

theorem slotsFreed_same (k : Kernel) (slot : Nat) : k.SameWalks (k.slotsFreed slot) :=
  ⟨rfl, rfl, rfl, rfl⟩

theorem slotsFreed_pmm (k : Kernel) (slot : Nat) : (k.slotsFreed slot).pmm = k.pmm := by
  unfold slotsFreed
  rfl

/-- A page that is out: its slots are freed and its entry is cleared. -/
theorem vmmUnmapPage_swapped (hsize : diskSectorSize k ≠ 0)
    (hentry : vmmGetPageEntry ext v k = .ok (e, k))
    (hptr : k.translate e = some a) (habsent : isPagePresent (k.mem.load32 a) = false)
    (hswapped : isSwapped (k.mem.load32 a) = true) :
    vmmUnmapPage ext v k = .ok ((),
      (k.slotsFreed (getFrameAddr (k.mem.load32 a))).setMem (k.mem.store32 a 0)) := by
  have hfree := diskFreeSlotsForPage_eq hsize (getFrameAddr (k.mem.load32 a))
  have hsame := k.slotsFreed_same (getFrameAddr (k.mem.load32 a))
  change diskFreeSlotsForPage _ k = .ok ((), k.slotsFreed _) at hfree
  rw [vmmUnmapPage, Prog.bind_of_ok hentry, Prog.bind_of_ok (loadWord_mapped hptr), habsent,
    if_neg (by decide), if_pos hswapped, Prog.bind_of_ok hfree,
    storeWord_mapped (by rw [hsame.translate, hptr]), hsame.mem]

/-- A page in memory: its frame is freed and its entry is cleared. -/
theorem vmmUnmapPage_present {p : Pmm} (hentry : vmmGetPageEntry ext v k = .ok (e, k))
    (hptr : k.translate e = some a) (hpresent : isPagePresent (k.mem.load32 a) = true)
    (hfree : k.pmm.pmmFreeFrame (getFrameAddr (k.mem.load32 a)) = some p) :
    vmmUnmapPage ext v k = .ok ((), ({ k with pmm := p }).setMem (k.mem.store32 a 0)) := by
  have hsame : k.SameWalks { k with pmm := p } := ⟨rfl, rfl, rfl, rfl⟩
  have hfreed : freeFrame (getFrameAddr (k.mem.load32 a)) k = .ok ((), { k with pmm := p }) := by
    rw [freeFrame, Prog.get_bind_apply, hfree]
    rfl
  rw [vmmUnmapPage, Prog.bind_of_ok hentry, Prog.bind_of_ok (loadWord_mapped hptr), if_pos hpresent,
    Prog.bind_of_ok hfreed, storeWord_mapped (by rw [hsame.translate, hptr]), hsame.mem]

end Entry
end Kernel
end MyOs
