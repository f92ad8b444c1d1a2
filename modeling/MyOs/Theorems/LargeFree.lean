import MyOs.Logic.LiveBlocks

/-!
# Freeing a large block

`kfree` takes the large path for addresses outside the reserved heap's window, and the
window has its upper end in it: `ptr > base + size` leaves out the address `base + size`
itself, where the first large block starts. That block is given to `slab_free`, which
writes into its first page. Every other large block is unmapped, its frames are given
back, and its record is removed.
-/

namespace MyOs

/-- The large block of `size` bytes at `p`, live in `s`, is freed in `k'`: its pages were
mapped and are no more, its frames and no others were given back, its record and no
other was removed, and the bytes of the other live blocks are as they were. -/
structure LargeFreed (s : HeapState) (p size : Nat) (k' : Kernel) : Prop where
  unmapped : ∀ u, BlockPages p (alignedSize size / pageSize) u →
    (∃ f, s.kernel.translate u = some f ∧ s.kernel.FrameUsed f) ∧ k'.translate u = none
  others : ∀ u, u < 2 ^ 32 →
    (∀ v, BlockPages p (alignedSize size / pageSize) v → u / pageSize ≠ v / pageSize) →
    k'.translate u = s.kernel.translate u
  frames : ∀ m, k'.pmm.pmmBitmap.bit m = true ↔ s.kernel.pmm.pmmBitmap.bit m = true ∧
    ∀ u f, BlockPages p (alignedSize size / pageSize) u → s.kernel.translate u = some f →
      m ≠ f / pageSize
  record : ∃ before a after, s.kernel.heap.largeAllocations = before ++ a :: after ∧
    a.ptr = p ∧ a.size = size ∧ k'.heap.largeAllocations = before ++ after
  blocks : ∀ b ∈ s.live, b.1 ≠ p → ∀ x, b.1 ≤ x → x < b.1 + b.2 →
    ∃ f, s.kernel.translate x = some f ∧ k'.translate x = some f ∧ k'.mem f = s.kernel.mem f

/-- A record was removed. -/
theorem not_largeFreed_self {s : HeapState} {p size : Nat} {k' : Kernel}
    (hheap : k'.heap = s.kernel.heap) : ¬ LargeFreed s p size k' := by
  intro h
  obtain ⟨before, a, after, hbefore, _, _, hafter⟩ := h.record
  have hlength := congrArg List.length hbefore
  rw [← hheap, hafter, List.length_append, List.length_append, List.length_cons] at hlength
  omega

section Free

variable {s : HeapState} {a : LargeAlloc} {b : Nat × Nat} {u x : Nat}

/-- No byte of another live block is in one of its pages. -/
theorem HeapRunning.outside_pages (h : HeapRunning s) (ha : a ∈ s.kernel.heap.largeAllocations)
    (hb : b ∈ s.live) (hne : b.1 ≠ a.ptr) (hx : b.1 ≤ x) (hend : x < b.1 + b.2)
    (hu : BlockPages a.ptr (alignedSize a.size / pageSize) u) : x / pageSize ≠ u / pageSize := by
  have hl := h.slabs.layout
  have hu' : u / pageSize * pageSize = u := by
    obtain ⟨j, _, rfl⟩ := hu
    have haligned := (hl.block a ha).2.1
    simp only [pageSize] at haligned ⊢
    omega
  have hlt := hl.inBlock_lt ⟨a, ha, hu⟩
  have hhigh := hl.large_high
  by_cases hle : b.2 ≤ maxCacheSize
  · -- small blocks are above all large ones
    obtain ⟨i, _, t, ht, hobject, _⟩ := h.live.small b hb hle
    have hlow := (hl.slab_page i t ht).2.1
    obtain ⟨hinside, _⟩ := slabObjects_inside hobject
    have haligned : 2 * kernelBaseHeapAddr % pageSize = 0 := by decide
    simp only [pageSize] at hu' haligned ⊢
    omega
  · obtain ⟨c, hc, hptr, hsize⟩ := h.live.large b hb (Nat.lt_of_not_le hle)
    rw [← hptr] at hx hne
    rw [← hptr, ← hsize] at hend
    obtain ⟨_, hin⟩ := hl.block_page hc hx hend
    intro heq
    rw [heq, hu'] at hin
    exact hne (congrArg LargeAlloc.ptr (hl.blockPages_eq hc ha hin hu))

/-- `_kmalloc_large_free` frees the block. -/
theorem HeapRunning.largeFreed (h : HeapRunning s) (hoff : s.kernel.SlabsOffTables)
    (ha : a ∈ s.kernel.heap.largeAllocations) (hedge : a.ptr ≠ kernelBaseHeapAddr + kernelHeapSize)
    (depth : Nat) : ∃ k', MyOs.kfree (link (depth + 1)) a.ptr s.kernel = .ok ((), k') ∧
      LargeFreed s a.ptr a.size k' := by
  have hl := h.slabs.layout
  obtain ⟨hlow, haligned, _, _, hend⟩ := hl.block a ha
  have hhigh := hl.large_high
  have hdiv := Nat.div_mul_le_self (alignedSize a.size) pageSize
  obtain ⟨k₁, hblock, hfree, _, _⟩ :=
    @Kernel.PagesArea.kfree_large _ depth h.pages h.slabs _ ha hedge
  refine ⟨_, hfree, ?_⟩
  refine
    { unmapped := ?_
      others := fun u hu hout => hblock.others u hu fun j hj => hout _ ⟨j, hj, rfl⟩
      frames := fun m => (hblock.frames m).trans (and_congr_right fun _ => ?_)
      record := ?_
      blocks := fun b hb hne x hx hlt => ?_ }
  · rintro u ⟨j, hj, rfl⟩
    have hpage := largePage_of_block hlow haligned (by omega) hj
    obtain ⟨f, hf⟩ := (h.pages.mapped _ hpage).mp ⟨a, ha, j, hj, rfl⟩
    exact ⟨⟨f, hf, (h.pages.frame _ f hpage hf).used⟩, hblock.unmapped j hj⟩
  · constructor
    · rintro hall _ f ⟨j, hj, rfl⟩ hf
      exact hall j hj f hf
    · intro hall j hj f hf
      exact hall _ f ⟨j, hj, rfl⟩ hf
  · obtain ⟨a', before, after, _, hptr, heq, herase⟩ := List.exists_of_eraseP
      (p := fun b : LargeAlloc => decide (b.ptr = a.ptr)) ha (decide_eq_true rfl)
    have ha' : a' ∈ s.kernel.heap.largeAllocations := by
      rw [heq]
      exact List.mem_append_right _ List.mem_cons_self
    obtain rfl := hl.block_eq ha' ha (of_decide_eq_true hptr)
    refine ⟨before, a', after, heq, rfl, rfl, ?_⟩
    show k₁.heap.largeAllocations.eraseP _ = _
    rw [hblock.heap]
    exact herase
  · obtain ⟨hwrap, hbytes⟩ := h.block_bytes hb
    obtain ⟨f, hf, htables⟩ := hbytes x hx hlt
    have hsame : k₁.translate x = s.kernel.translate x := hblock.others x (by omega) fun j hj =>
      h.outside_pages ha hb hne hx hlt ⟨j, hj, rfl⟩
    exact ⟨f, hf, hsame.trans hf, hblock.bytes f (htables hoff)⟩

end Free

end MyOs
