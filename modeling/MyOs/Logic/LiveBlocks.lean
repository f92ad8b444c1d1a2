import MyOs.Logic.HeapReturns

/-!
# The bytes of the live blocks

A small block is an object of a slab, whose page is mapped, and a large block has a
record, with its pages mapped: between two calls every byte of a live block is mapped
(`BlockBacked`). Where no page table lies in the frame of a slab (`SlabsOffTables`), no byte
of a live block is in a page table.
-/

namespace MyOs

/-- A block of `size` bytes at `p` does not run over the end of the address space, all
of it is mapped, and the heap gave at least `size` bytes for it. -/
structure BlockBacked (k : Kernel) (p size : Nat) : Prop where
  end_lt : p + size < 2 ^ 32
  mapped : ∀ x, p ≤ x → x < p + size → ∃ f, k.translate x = some f
  object : size ≤ maxCacheSize → ∃ i, getCache size = some i ∧ size ≤ cacheObjectSize i
  pages : maxCacheSize < size → size ≤ alignedSize size

section Blocks

variable {k : Kernel} {M : Nat → Prop} {i p size u x : Nat} {s : Slab} {a : LargeAlloc}

/-- Every byte of an object is in the page of its slab. -/
theorem HeapLayout.object_backed {h : Heap} (hl : HeapLayout h) (hs : s ∈ h.slabs i)
    (hobject : p ∈ slabObjects i s.addr) (hsize : size ≤ cacheObjectSize i) :
    p + size < 2 ^ 32 ∧ ∀ x, p ≤ x → x < p + size → x / pageSize = s.addr / pageSize := by
  obtain ⟨haligned, _, hlt⟩ := hl.slab_page i s hs
  obtain ⟨hlow, hhigh⟩ := slabObjects_inside hobject
  have hnext := hl.next_high
  rw [kernelHeapSize_eq] at hnext
  rw [kernelBaseHeapAddr_eq] at hlt hnext
  simp only [pageSize] at haligned hhigh hnext ⊢
  refine ⟨by omega, fun x hx hend => ?_⟩
  omega

/-- Every byte of a large block is in one of its pages. -/
theorem HeapLayout.block_page {h : Heap} (hl : HeapLayout h) (ha : a ∈ h.largeAllocations)
    (hx : a.ptr ≤ x) (hend : x < a.ptr + a.size) :
    LargePage (x / pageSize * pageSize) ∧
      BlockPages a.ptr (alignedSize a.size / pageSize) (x / pageSize * pageSize) := by
  obtain ⟨hlow, haligned, hround, _, hlast⟩ := hl.block a ha
  have hhigh := hl.large_high
  have hwhole : alignedSize a.size % pageSize = 0 := by
    rw [alignedSize]
    exact Nat.mul_mod_left _ _
  simp only [pageSize] at haligned hwhole
  have hpage : x / pageSize * pageSize = a.ptr + (x - a.ptr) / pageSize * pageSize := by
    simp only [pageSize]
    omega
  refine ⟨⟨by rw [hpage]; omega, ?_, Nat.mul_mod_left _ _⟩, (x - a.ptr) / pageSize, ?_, hpage⟩
  · simp only [pageSize]
    omega
  · simp only [pageSize]
    omega

end Blocks

/-- No page table lies in the frame of a slab. -/
def Kernel.SlabsOffTables (k : Kernel) : Prop :=
  ∀ i, ∀ t ∈ k.heap.slabs i, ∀ j, j < 1024 → isPagePresent (k.entryAt k.dirFrame j) = true →
    getFrameAddr (k.entryAt k.dirFrame j) ≠ t.addr - kernelBaseHeapAddr

/-- Only a slab behind the reserved heap can share its frame with one. -/
theorem HeapRunning.slabsOffTables {s : HeapState} (h : HeapRunning s)
    (hroom : s.kernel.heap.currentHeapAddr ≤ kernelBaseHeapAddr + kernelHeapSize) :
    s.kernel.SlabsOffTables := by
  intro i t ht j hj hpresent heq
  obtain ⟨_, hlow, hlt⟩ := h.slabs.layout.slab_page i t ht
  refine h.pages.tables j hj hpresent ?_
  rw [heq]
  exact ⟨by omega, by omega⟩

/-- Where the bytes of a live block are: it does not run over the end of the address
space, and each byte is mapped, outside the page tables. -/
theorem HeapRunning.block_bytes {s : HeapState} (h : HeapRunning s) {b : Nat × Nat}
    (hb : b ∈ s.live) : b.1 + b.2 < 2 ^ 32 ∧ ∀ x, b.1 ≤ x → x < b.1 + b.2 →
      ∃ f, s.kernel.translate x = some f ∧ (s.kernel.SlabsOffTables → ∀ j, j < 1024 →
        isPagePresent (s.kernel.entryAt s.kernel.dirFrame j) = true →
        f / pageSize ≠ getFrameAddr (s.kernel.entryAt s.kernel.dirFrame j) / pageSize) := by
  have hl := h.slabs.layout
  by_cases hle : b.2 ≤ maxCacheSize
  · obtain ⟨i, hi, t, ht, hobject, _⟩ := h.live.small b hb hle
    obtain ⟨haligned, hlow, _⟩ := hl.slab_page i t ht
    obtain ⟨hend, hpage⟩ := hl.object_backed ht hobject (getCache_eq_some hi).2
    refine ⟨hend, fun x hx hlt => ?_⟩
    have hx' := h.pages.translate_inside haligned (h.slabs.mapped i t ht) (hpage x hx hlt)
    refine ⟨_, hx', fun hoff j hj hpresent heq => hoff i t ht j hj hpresent ?_⟩
    have htable := getFrameAddr_aligned (s.kernel.entryAt s.kernel.dirFrame j)
    rw [kernelBaseHeapAddr_eq] at hlow heq ⊢
    simp only [pageSize] at haligned htable heq
    omega
  · obtain ⟨a, ha, hptr, hsize⟩ := h.live.large b hb (Nat.lt_of_not_le hle)
    obtain ⟨_, _, hround, _, hlast⟩ := hl.block a ha
    have hhigh := hl.large_high
    rw [kernelBaseHeapAddr_eq] at hhigh
    rw [← hptr, ← hsize]
    refine ⟨by omega, fun x hx hlt => ?_⟩
    obtain ⟨hlarge, hin⟩ := hl.block_page ha hx hlt
    obtain ⟨f, hf⟩ := (h.pages.mapped _ hlarge).mp ⟨a, ha, hin⟩
    have hframe := h.pages.frame _ f hlarge hf
    have hx' := h.pages.translate_inside hlarge.2.2 hf
      (show x / pageSize = x / pageSize * pageSize / pageSize by
        rw [Nat.mul_div_cancel _ (by decide)])
    refine ⟨_, hx', fun _ j hj hpresent heq => hframe.not_table j hj hpresent ?_⟩
    have htable := getFrameAddr_aligned (s.kernel.entryAt s.kernel.dirFrame j)
    have haligned := hframe.aligned
    simp only [pageSize] at haligned htable heq
    omega

/-- Between two calls every live block is backed. -/
theorem HeapRunning.backed {s : HeapState} (h : HeapRunning s) {b : Nat × Nat} (hb : b ∈ s.live) :
    BlockBacked s.kernel b.1 b.2 := by
  obtain ⟨hend, hbytes⟩ := h.block_bytes hb
  refine
    { end_lt := hend
      mapped := fun x hx hlt => (hbytes x hx hlt).imp fun _ hf => hf.1
      object := fun hle => ?_
      pages := fun hlt => ?_ }
  · obtain ⟨i, hi, _⟩ := h.live.small b hb hle
    exact ⟨i, hi, (getCache_eq_some hi).2⟩
  · obtain ⟨a, ha, _, hsize⟩ := h.live.large b hb hlt
    rw [← hsize]
    exact (h.slabs.layout.block a ha).2.2.1

end MyOs
