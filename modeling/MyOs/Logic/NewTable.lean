import MyOs.Logic.MapPage

/-!
# Creating a page table

A directory entry that is neither present nor swapped gets a free frame, which
is marked present before it is cleared. Between the two, with paging on, the
new table is put in the eviction queue, and that calls `kmalloc`. `NewTable` is
what has happened by then: everything that was in use is as it was, and the new
frame is the table.
-/

namespace MyOs

/-- An entry that has just been given a frame. -/
def allocatedWord (w f : Nat) : Nat := pageEntryAddAttrib (pageEntrySetFrame w f) present

theorem testBit_allocatedWord {w f : Nat} (i : Nat) : (allocatedWord w f).testBit i =
    (w.testBit i && decide (i < 12) || f.testBit i || decide (i = 0)) := by
  rw [allocatedWord, testBit_pageEntryAddAttrib, testBit_pageEntrySetFrame, testBit_present]

theorem isPagePresent_allocatedWord {w f : Nat} : isPagePresent (allocatedWord w f) = true := by
  rw [isPagePresent_eq, testBit_allocatedWord]
  simp

theorem getFrameAddr_allocatedWord {w f : Nat} (hf : f % pageSize = 0) (hlt : f < 2 ^ 32) :
    getFrameAddr (allocatedWord w f) = f := by
  rw [allocatedWord, getFrameAddr_pageEntryAddAttrib _ (by decide : present < pageSize),
    getFrameAddr_pageEntrySetFrame, getFrameAddr_of_aligned hf hlt]

theorem allocatedWord_lt {w f : Nat} (hf : f < 2 ^ 32) : allocatedWord w f < 2 ^ 32 :=
  pageEntryAddAttrib_lt (pageEntrySetFrame_lt hf) present_lt

namespace Kernel

variable {ext : Ext} {k : Kernel} {e a f : Nat}

/-- The state after `pmm_alloc_frame`. -/
def frameTaken (k : Kernel) : Kernel := { k with pmm := k.pmm.pmmAllocFrame.2 }

/-- `pmm_alloc_frame` has a frame to give: one that is not used. -/
structure FrameFree (k : Kernel) (f : Nat) : Prop where
  next : k.pmm.pmmAllocFrame.1 = f
  nonnull : f ≠ pmmNoFrameAvailable
  aligned : f % pageSize = 0
  lt : f + pageSize ≤ 2 ^ 32
  unused : ¬ k.FrameUsed f
  used : ∀ g, k.frameTaken.FrameUsed g ↔ g / pageSize = f / pageSize ∨ k.FrameUsed g

theorem frameFree_of {lo : Nat} (hwf : PmmWfFrom lo k.pmm) (hf : k.pmm.pmmAllocFrame.1 = f)
    (hne : f ≠ pmmNoFrameAvailable) : k.FrameFree f := by
  obtain ⟨n, rfl, hhi, hfree, hbits⟩ := hwf.alloc_of_ne hf hne
  have htotal : totalFrames = 1048576 := rfl
  have hsize : pageSize = 4096 := rfl
  refine
    { next := hf
      nonnull := hne
      aligned := Nat.mul_mod_left n 4096
      lt := by omega
      unused := ?_
      used := fun g => ?_ }
  · rw [FrameUsed, frameBit_eq, Nat.mul_div_cancel _ (by decide), hfree]
    decide
  · rw [FrameUsed, frameTaken, FrameUsed, hbits, frameBit_eq, hsize,
      Nat.mul_div_cancel _ (by decide)]
    simp

/-- The first eight frames are never given out. -/
theorem FrameFree.low (h : k.FrameFree f) (hwf : PmmWf k.pmm) : 8 * pageSize ≤ f := by
  obtain ⟨hres, _⟩ := allocFrame_spec hwf
  rw [h.next] at hres
  obtain ⟨n, rfl, hlow, _⟩ := hres.of_ne h.nonnull
  exact Nat.mul_le_mul_right _ hlow

theorem frameTaken_wf {lo : Nat} (hwf : PmmWfFrom lo k.pmm) : PmmWfFrom lo k.frameTaken.pmm :=
  hwf.alloc

theorem FrameFree.allocFrameOrSwap (h : k.FrameFree f) :
    allocFrameOrSwap ext k = .ok (f, k.frameTaken) := by
  have halloc : allocFrame k = .ok (f, k.frameTaken) := by
    rw [allocFrame_eq, h.next]
    rfl
  rw [MyOs.allocFrameOrSwap, Prog.bind_of_ok halloc, if_neg h.nonnull]
  rfl

theorem Steady.frameTaken (h : k.Steady e a) : k.frameTaken.Steady e a := ⟨h.ptr, h.store⟩

/-- A free frame is put in the entry. -/
theorem Steady.vmmAllocPermanentPage (h : k.Steady e a) (hf : k.FrameFree f) :
    vmmAllocPermanentPage ext e k =
      .ok (true, k.frameTaken.setMem (k.mem.store32 a (allocatedWord (k.mem.load32 a) f))) := by
  have hlt : f < 2 ^ 32 := by
    have := hf.lt
    simp only [pageSize] at this
    omega
  rw [MyOs.vmmAllocPermanentPage, Prog.bind_of_ok hf.allocFrameOrSwap, if_neg hf.nonnull,
    Prog.bind_of_ok (modifyWord_mapped h.frameTaken.ptr _),
    Prog.bind_of_ok (h.frameTaken.modifyWord_stored (pageEntrySetFrame_lt hlt) _)]
  rfl

/-- The state `vmm_alloc_page` calls `page_enqueue` in. -/
def pageAllocated (k : Kernel) (a f : Nat) : Kernel :=
  k.frameTaken.setMem (k.mem.store32 a (allocatedWord (k.mem.load32 a) f))

/-- `vmm_alloc_page`, when its queue node can be had. -/
theorem Steady.vmmAllocPage {v : Nat} {k₂ : Kernel} (h : k.Steady e a) (hf : k.FrameFree f)
    (hqueue : pageEnqueue ext v (k.pageAllocated a f) = .ok (true, k₂)) :
    vmmAllocPage ext e v k = .ok (true, k₂) := by
  rw [MyOs.vmmAllocPage, Prog.bind_of_ok (h.vmmAllocPermanentPage hf)]
  rw [pageAllocated] at hqueue
  rw [if_neg (by decide), Prog.bind_of_ok hqueue]
  rfl

end Kernel
end MyOs
