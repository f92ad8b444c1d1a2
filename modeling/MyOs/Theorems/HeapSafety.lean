import MyOs.Logic.HeapReturns

/-!
# The live blocks of the heap

Small blocks are objects of slabs above `0x8000000`, large blocks are pages below it, so
the two can only meet when a large block grows into the slabs. `kmalloc_large` does not
check for that, nor that the rounded size still fits into 32 bits: it hands out a block
of no pages for a size above `0xFFFFF000`. Every other run of calls keeps the live
blocks apart from each other and from the heap's own data.
-/

namespace MyOs

/-- No byte is in both ranges. -/
def RangesApart (a m b n : Nat) : Prop := ∀ x, a ≤ x → x < a + m → b ≤ x → x < b + n → False

theorem rangesApart_of {a m b n : Nat} (h : a + m ≤ b ∨ b + n ≤ a) : RangesApart a m b n := by
  intro x ha hm hb hn
  rcases h with hle | hle
  · omega
  · omega

/-- The live blocks lie apart from each other and from the slabs' headers, the records
of the large blocks and the links of the free objects. -/
structure BlocksApart (s : HeapState) : Prop where
  live : s.live.Pairwise fun b b' => RangesApart b.1 b.2 b'.1 b'.2
  headers : ∀ b ∈ s.live, ∀ i, ∀ t ∈ s.kernel.heap.slabs i,
    RangesApart b.1 b.2 t.addr slabDataOffset
  records : ∀ b ∈ s.live, ∀ a ∈ s.kernel.heap.largeAllocations,
    RangesApart b.1 b.2 a.node largeAllocSize
  free : ∀ b ∈ s.live, ∀ i, ∀ t ∈ s.kernel.heap.slabs i, ∀ o ∈ t.freeList,
    RangesApart b.1 b.2 o 4

section Blocks

variable {h : Heap} {live : List (Nat × Nat)} {i j o p : Nat} {b : Nat × Nat} {s t : Slab}

/-- Two objects of slabs lie apart. -/
theorem HeapLayout.objects_apart (hl : HeapLayout h) (hs : s ∈ h.slabs i) (ht : t ∈ h.slabs j)
    (ho : o ∈ slabObjects i s.addr) (hp : p ∈ slabObjects j t.addr) (hne : o ≠ p) :
    o + cacheObjectSize i ≤ p ∨ p + cacheObjectSize j ≤ o := by
  by_cases haddr : s.addr = t.addr
  · obtain ⟨rfl, rfl⟩ := hl.slab_eq hs ht haddr
    exact slabObjects_apart ho hp hne
  · have hspage := (hl.slab_page i s hs).1
    have htpage := (hl.slab_page j t ht).1
    obtain ⟨hlow, hhigh⟩ := slabObjects_inside ho
    obtain ⟨hlow', hhigh'⟩ := slabObjects_inside hp
    simp only [pageSize] at hspage htpage hhigh hhigh'
    omega

/-- And apart from the headers. -/
theorem HeapLayout.header_apart (hl : HeapLayout h) (hs : s ∈ h.slabs i) (ht : t ∈ h.slabs j)
    (ho : o ∈ slabObjects i s.addr) :
    o + cacheObjectSize i ≤ t.addr ∨ t.addr + slabDataOffset ≤ o := by
  have hspage := (hl.slab_page i s hs).1
  have htpage := (hl.slab_page j t ht).1
  obtain ⟨hlow, hhigh⟩ := slabObjects_inside ho
  simp only [pageSize, slabDataOffset] at hspage htpage hhigh hlow ⊢
  omega

/-- Where a live block lies: in an object of a slab, or below all slabs. -/
theorem LiveIn.block (hlive : LiveIn h live) (hl : HeapLayout h) (hb : b ∈ live) :
    (b.2 ≤ maxCacheSize ∧ ∃ i, h.Taken i b.1 ∧ b.2 ≤ cacheObjectSize i) ∨
      maxCacheSize < b.2 ∧ b.1 + b.2 ≤ 2 * kernelBaseHeapAddr ∧
        ∃ a ∈ h.largeAllocations, a.ptr = b.1 ∧ a.size = b.2 := by
  by_cases hle : b.2 ≤ maxCacheSize
  · obtain ⟨i, hi, htaken⟩ := hlive.small b hb hle
    exact .inl ⟨hle, i, htaken, (getCache_eq_some hi).2⟩
  · have hlt := Nat.lt_of_not_le hle
    obtain ⟨a, ha, hptr, hsize⟩ := hlive.large b hb hlt
    obtain ⟨_, _, hround, _, hend⟩ := hl.block a ha
    have hhigh := hl.large_high
    exact .inr ⟨hlt, by omega, a, ha, hptr, hsize⟩

end Blocks

/-- What holds between two calls keeps the blocks apart. -/
theorem HeapRunning.blocksApart {s : HeapState} (h : HeapRunning s) : BlocksApart s := by
  have hl := h.slabs.layout
  have hlow : ∀ i, ∀ t ∈ s.kernel.heap.slabs i, 2 * kernelBaseHeapAddr ≤ t.addr := fun i t ht =>
    (hl.slab_page i t ht).2.1
  refine ⟨?_, fun b hb j t ht => ?_, fun b hb a ha => ?_, fun b hb j t ht o ho => ?_⟩
  · refine h.live.distinct.imp_of_mem fun {b b'} hb hb' hne => rangesApart_of ?_
    rcases h.live.block hl hb with ⟨_, i, ⟨u, hu, hobject, _⟩, hsize⟩ | ⟨_, hend, a, ha, hptr, hsize⟩
    · have hubase := hlow i u hu
      obtain ⟨hinside, _⟩ := slabObjects_inside hobject
      rcases h.live.block hl hb' with ⟨_, j, ⟨v, hv, hobject', _⟩, hsize'⟩ | ⟨_, hend', _⟩
      · rcases hl.objects_apart hu hv hobject hobject' hne with hlt | hlt
        · exact .inl (by omega)
        · exact .inr (by omega)
      · exact .inr (by omega)
    · rcases h.live.block hl hb' with ⟨_, j, ⟨v, hv, hobject', _⟩, _⟩ | ⟨_, _, a', ha', hptr', hsize'⟩
      · have hvbase := hlow j v hv
        obtain ⟨hinside, _⟩ := slabObjects_inside hobject'
        exact .inl (by omega)
      · have hneq : a ≠ a' := by
          rintro rfl
          exact hne (hptr.symm.trans hptr')
        have hround := (hl.block a ha).2.2.1
        have hround' := (hl.block a' ha').2.2.1
        rcases hl.block_apart ha ha' hneq with hlt | hlt
        · exact .inl (by omega)
        · exact .inr (by omega)
  · apply rangesApart_of
    have htbase := hlow j t ht
    rcases h.live.block hl hb with ⟨_, i, ⟨u, hu, hobject, _⟩, hsize⟩ | ⟨_, hend, _⟩
    · rcases hl.header_apart hu ht hobject with hlt | hlt
      · exact .inl (by omega)
      · exact .inr hlt
    · exact .inl (by omega)
  · apply rangesApart_of
    obtain ⟨v, hv, hnode, _⟩ := h.live.nodes a ha
    have hvbase := hlow 0 v hv
    have hrecord : largeAllocSize ≤ cacheObjectSize 0 := by decide
    rcases h.live.block hl hb with ⟨hle, i, ⟨u, hu, hobject, _⟩, hsize⟩ | ⟨_, hend, _⟩
    · rcases hl.objects_apart hu hv hobject hnode (h.live.node_ne b hb hle a ha) with hlt | hlt
      · exact .inl (by omega)
      · exact .inr (by omega)
    · obtain ⟨hinside, _⟩ := slabObjects_inside hnode
      exact .inl (by omega)
  · apply rangesApart_of
    have htbase := hlow j t ht
    have hobject' := (hl.free j t ht).subset ho
    have hcell : 4 ≤ cacheObjectSize j := by
      have hpow := Nat.two_pow_pos j
      rw [cacheObjectSize]
      omega
    rcases h.live.block hl hb with ⟨_, i, ⟨u, hu, hobject, hnot⟩, hsize⟩ | ⟨_, hend, _⟩
    · have hne : b.1 ≠ o := by
        intro heq
        rw [heq] at hobject hnot
        have hpage := slabObjects_page (hl.slab_page i u hu).1 hobject
        have hpage' := slabObjects_page (hl.slab_page j t ht).1 hobject'
        obtain ⟨_, rfl⟩ := hl.slab_eq hu ht (hpage.symm.trans hpage')
        exact hnot ho
      rcases hl.objects_apart hu ht hobject hobject' hne with hlt | hlt
      · exact .inl (by omega)
      · exact .inr (by omega)
    · obtain ⟨hinside, _⟩ := slabObjects_inside hobject'
      exact .inl (by omega)

end MyOs
