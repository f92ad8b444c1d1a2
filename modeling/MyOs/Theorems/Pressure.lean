import MyOs.Logic.PageWalk
import MyOs.Logic.Starvation

/-!
# Frames under memory pressure

`vmm_swap_out_page` writes a page to the disk and marks its entry, but does
not give the page's frame back to the frame allocator. So with no free frame
an eviction gains nothing: `vmm_alloc_permanent_page` and `vmm_swap_in_page`
never return true, whatever is in the eviction queue.
-/

namespace MyOs

/-- No frame is free; the page at the head of the eviction queue is present, in
frame `victim`, and no other entry refers to that frame; the disk has slots. -/
structure UnderPressure (k : Kernel) (victim : Nat) : Prop where
  paging_on : k.pagingEnabled = true
  starved : Starved k.heap.currentLargeHeapAddr k
  head_present : ∃ node rest a, k.pageFifoQueue = node :: rest ∧
    k.translate node.virAddr = some (victim + getFrameOffset node.virAddr) ∧
    ∀ b, k.RefersTo b victim ↔ b = a
  slots_free :
    (k.slots.diskAllocSlots (sectorAmount (diskSectorSize k))).1 ≠ diskNoSlotAvailable

/-- The call returns true with the victim's frame in the entry at `e`, and every
used frame that is not reserved is referred to exactly once. -/
def HandsFrameOver (l : KernelLayout) (k : Kernel) (victim e : Nat) (call : Prog Kernel Bool) :
    Prop :=
  ∃ k', call k = .ok (true, k') ∧
    (∃ p, k'.translate e = some p ∧ isPagePresent (k'.mem.load32 p) = true ∧
      getFrameAddr (k'.mem.load32 p) = victim) ∧
    ∀ f, f < memorySize → f % pageSize = 0 → k'.pmm.pmmBitmap.bit (frameBit f) = true →
      ¬ Reserved l f → ∃ a, ∀ b, k'.RefersTo b f ↔ b = a

/-- Neither call ever returns true without a free frame. -/
theorem starved_never_true {c : Nat} {k : Kernel} (hk : Starved c k) (depth e v : Nat) :
    (∀ k', vmmAllocPermanentPage (link depth) e k ≠ .ok (true, k')) ∧
      ∀ k', vmmSwapInPage (link depth) e v k ≠ .ok (true, k') := by
  have hlink := link_starving c depth k.pageFifoQueue
  refine ⟨fun k' hrun => ?_, fun k' hrun => ?_⟩
  · cases (vmmAllocPermanentPage_starved hlink e k hk.starvedFrom true k' hrun).1
  · cases (vmmSwapInPage_starved hlink e v k hk.starvedFrom true k' hrun).1

/-- **No frame is handed over under pressure.** In no such state does either
call do what the eviction is for. -/
theorem pressure_never_served (l : KernelLayout) (k : Kernel) (victim : Nat)
    (hk : UnderPressure k victim) (depth e v : Nat) :
    ¬ HandsFrameOver l k victim e (vmmAllocPermanentPage (link depth) e) ∧
      ¬ HandsFrameOver l k victim e (vmmSwapInPage (link depth) e v) := by
  obtain ⟨halloc, hswap⟩ := starved_never_true hk.starved depth e v
  exact ⟨fun ⟨k', hrun, _⟩ => halloc k' hrun, fun ⟨k', hrun, _⟩ => hswap k' hrun⟩

/-! ## A state under pressure -/

/-- The directory in frame `0x100000`, with itself in its last entry and one
page table, in frame `0x101000`; that has one page, `0x4100000` in frame
`0x102000`. -/
def pressedWords : List (Nat × Nat) :=
  [(0x100FFC, 0x100003), (0x100040, 0x101003), (0x101400, 0x102003)]

/-- That page is the one in the eviction queue, and every frame is used. -/
def pressedKernel : Kernel where
  mem := ByteStore.ofWords pressedWords
  cr3 := 0x100000
  pagingEnabled := true
  currentDirectory := 0xFFFFF000
  pmm := ⟨fun _ => 0xFF#8, ⟨-1, -1⟩, 1⟩
  heap := ⟨0x4001000, 0x406C000, fun _ => [], []⟩
  pageFifoQueue := [⟨0x8000014, 0x4100000⟩]
  disk := ⟨fun _ => ⟨0x200#16, 1000, 512, false, true, thousandSectors_lt, sectorBytes_lt⟩, 0,
    fun _ _ => 0#8, fun _ => lba28, fun _ => .done, 0, ⟨0, 0, 0, 0, 0⟩⟩
  slots := ⟨fun _ => 0#8, 1⟩

theorem pressedKernel_word {a : Nat} (ha : a % 4 = 0) :
    pressedKernel.mem.load32 a = (pressedWords.lookup a).getD 0 :=
  ByteStore.load32_ofWords ha (by decide)

theorem pressedKernel_starved : Starved 0x406C000 pressedKernel where
  wf :=
    { hint := fun h => by cases h
      index_pos := by decide
      index_lt := by decide }
  full := fun b _ _ => by
    have hbit : ∀ j, j < 8 → (0xFF#8).getLsbD j = true := by decide
    exact hbit _ (Nat.mod_lt _ (by decide))
  sane :=
    { heap_aligned := by decide
      large_lt := by decide
      large_aligned := fun _ h => by cases h
      node_small := fun _ h => by cases h
      free_small := fun _ _ h => by cases h }
  large := rfl
  queue := by decide

/-- Only the table's entry refers to the page's frame. -/
theorem pressedKernel_owner (b : Nat) : pressedKernel.RefersTo b 0x102000 ↔ b = 0x101400 := by
  have hdir : pressedKernel.dirFrame = 0x100000 := by decide
  have hpde : pressedKernel.entryAt pressedKernel.dirFrame 16 = 0x101003 := by
    rw [hdir, Kernel.entryAt, pressedKernel_word (by decide)]
    rfl
  have hpte : pressedKernel.mem.load32 0x101400 = 0x102003 := by
    rw [pressedKernel_word (by decide)]
    rfl
  constructor
  · rintro ⟨⟨i, hi, hb⟩, _, hframe⟩
    have haligned : b % 4 = 0 := by
      rcases hb with rfl | ⟨_, j, _, rfl⟩
      · rw [hdir]
        omega
      · have := getFrameAddr_aligned (pressedKernel.entryAt pressedKernel.dirFrame i)
        simp only [pageSize] at this
        omega
    rw [pressedKernel_word haligned] at hframe
    refine Classical.byContradiction fun hne => ?_
    simp only [pressedWords, List.lookup_cons, List.lookup_nil, beq_eq_false_iff_ne.mpr hne]
      at hframe
    cases h₁ : b == 0x100FFC <;> rw [h₁] at hframe
    · cases h₂ : b == 0x100040 <;> rw [h₂] at hframe <;> exact absurd hframe (by decide)
    · change getFrameAddr 0x100003 = _ at hframe
      exact absurd hframe (by decide)
  · rintro rfl
    refine ⟨⟨16, by decide, .inr ⟨?_, 0x100, by decide, ?_⟩⟩, ?_, ?_⟩
    · rw [hpde]
      decide
    · rw [hpde]
      decide
    · rw [hpte]
      decide
    · rw [hpte]
      decide

theorem pressedKernel_underPressure : UnderPressure pressedKernel 0x102000 where
  paging_on := rfl
  starved := pressedKernel_starved
  head_present := by
    refine ⟨_, _, 0x101400, rfl, ?_, pressedKernel_owner⟩
    have hpde : pressedKernel.entryAt 0x100000 16 = 0x101003 := by
      rw [Kernel.entryAt, pressedKernel_word (by decide)]
      rfl
    have hpte : pressedKernel.entryAt 0x101000 0x100 = 0x102003 := by
      rw [Kernel.entryAt, pressedKernel_word (by decide)]
      rfl
    have hcr3 : getFrameAddr pressedKernel.cr3 = 0x100000 := by decide
    have hpd : getDirectoryIndex 0x4100000 = 16 := by decide
    have hpt : getTableIndex 0x4100000 = 0x100 := by decide
    have htable : getFrameAddr 0x101003 = 0x101000 := by decide
    simp only [Kernel.translate, Kernel.walkFrom, hcr3, hpd, hpt, hpde, htable, hpte]
    decide
  slots_free := by decide

theorem pressure_never_served_pressed : ¬ HandsFrameOver ⟨0x100000, 0x110000, 4, by decide,
      by decide, by decide⟩ pressedKernel 0x102000 0xFFFFF000
      (vmmAllocPermanentPage (link 3) 0xFFFFF000) :=
  (pressure_never_served _ pressedKernel 0x102000 pressedKernel_underPressure 3 0xFFFFF000 0).1

/-- In that state `vmm_alloc_permanent_page` for the first directory entry never
returns true, to any depth of calls. -/
theorem pressed_alloc_never_true : UnderPressure pressedKernel 0x102000 ∧
    ∀ depth k', vmmAllocPermanentPage (link depth) 0xFFFFF000 pressedKernel ≠ .ok (true, k') :=
  ⟨pressedKernel_underPressure, fun depth =>
    (starved_never_true pressedKernel_starved depth 0xFFFFF000 0).1⟩

end MyOs
