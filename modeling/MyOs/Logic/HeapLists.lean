import MyOs.Logic.HeapShape
import Mathlib.Data.List.Nodup

/-!
# The heap's lists

What `kmalloc.c` keeps of its blocks, as long as the large blocks stay below the
slabs (`HeapLayout`): each slab has its own page, from twice the heap's base up to
`current_heap_addr`, its free objects are some of the objects `init_slab` made, and
the large blocks lie apart, below `current_large_heap_addr`. `Heap.Take` is what
taking one object does to the lists; an object that was taken is not free again
(`Heap.Taken`).
-/

namespace MyOs

/-- Where `popFree` takes the object from. -/
theorem popFree_split {slabs slabs' : List Slab} {o : Nat} (h : popFree slabs = some (o, slabs')) :
    ∃ before slab free after, slabs = before ++ slab :: after ∧ slab.freeList = o :: free ∧
      slabs' = before ++ { slab with freeList := free } :: after := by
  induction slabs generalizing slabs' with
  | nil => cases h
  | cons slab rest ih =>
      rw [popFree] at h
      split at h
      · next first free hfree =>
          cases h
          exact ⟨[], slab, free, rest, rfl, hfree, rfl⟩
      · obtain ⟨⟨o', rest'⟩, hpop, heq⟩ := Option.map_eq_some_iff.mp h
        cases heq
        obtain ⟨before, s, free, after, rfl, hfree, rfl⟩ := ih hpop
        exact ⟨slab :: before, s, free, after, rfl, hfree, rfl⟩

/-- The objects of cache `i` in the slab at `addr`. -/
def slabObjects (i addr : Nat) : List Nat := (initSlab addr (cacheObjectSize i)).freeList

section Objects

variable {i addr o o' : Nat}

/-- An object lies inside its slab's page, behind the header. -/
theorem slabObjects_inside (h : o ∈ slabObjects i addr) :
    addr + slabDataOffset ≤ o ∧ o + cacheObjectSize i ≤ addr + pageSize := by
  obtain ⟨n, hn, rfl⟩ := List.mem_map.mp h
  have hle : (n + 1) * cacheObjectSize i ≤ slabDataSize :=
    (Nat.le_div_iff_mul_le (cacheObjectSize_pos i)).mp (List.mem_range.mp hn)
  rw [Nat.add_mul, Nat.one_mul] at hle
  simp only [pageSize, slabDataOffset, slabDataSize] at *
  omega

/-- Two objects of a slab lie apart. -/
theorem slabObjects_apart (h : o ∈ slabObjects i addr) (h' : o' ∈ slabObjects i addr)
    (hne : o ≠ o') : o + cacheObjectSize i ≤ o' ∨ o' + cacheObjectSize i ≤ o := by
  obtain ⟨n, _, rfl⟩ := List.mem_map.mp h
  obtain ⟨m, _, rfl⟩ := List.mem_map.mp h'
  rcases Nat.lt_trichotomy n m with hlt | rfl | hlt
  · have hmul : (n + 1) * cacheObjectSize i ≤ m * cacheObjectSize i := Nat.mul_le_mul_right _ hlt
    rw [Nat.add_mul, Nat.one_mul] at hmul
    omega
  · exact absurd rfl hne
  · have hmul : (m + 1) * cacheObjectSize i ≤ n * cacheObjectSize i := Nat.mul_le_mul_right _ hlt
    rw [Nat.add_mul, Nat.one_mul] at hmul
    omega

theorem slabObjects_nodup (i addr : Nat) : (slabObjects i addr).Nodup := by
  refine List.Nodup.map ?_ List.nodup_range
  intro n m heq
  have hpos := cacheObjectSize_pos i
  have hmul : n * cacheObjectSize i = m * cacheObjectSize i := by
    simp only at heq
    omega
  exact Nat.eq_of_mul_eq_mul_right hpos hmul

/-- Objects of two pages are different. -/
theorem slabObjects_page (haligned : addr % pageSize = 0) (h : o ∈ slabObjects i addr) :
    o / pageSize * pageSize = addr := by
  obtain ⟨hlo, hhi⟩ := slabObjects_inside h
  have hpos := cacheObjectSize_pos i
  simp only [pageSize, slabDataOffset] at *
  omega

end Objects

/-- The slabs' pages, their free objects and the large blocks. -/
structure HeapLayout (h : Heap) : Prop where
  next_low : kernelBaseHeapAddr ≤ h.currentHeapAddr
  next_high : h.currentHeapAddr ≤ kernelBaseHeapAddr + kernelHeapSize + pageSize
  next_aligned : h.currentHeapAddr % pageSize = 0
  slab_page : ∀ i, ∀ s ∈ h.slabs i, s.addr % pageSize = 0 ∧ 2 * kernelBaseHeapAddr ≤ s.addr ∧
    s.addr < kernelBaseHeapAddr + h.currentHeapAddr
  free : ∀ i, ∀ s ∈ h.slabs i, s.freeList.Sublist (slabObjects i s.addr)
  slabs_nodup : ∀ i, ((h.slabs i).map Slab.addr).Nodup
  slabs_apart : ∀ i j, i ≠ j → ∀ s ∈ h.slabs i, ∀ t ∈ h.slabs j, s.addr ≠ t.addr
  large_low : kernelBaseHeapAddr + kernelHeapSize ≤ h.currentLargeHeapAddr
  large_high : h.currentLargeHeapAddr ≤ 2 * kernelBaseHeapAddr
  large_aligned : h.currentLargeHeapAddr % pageSize = 0
  block : ∀ a ∈ h.largeAllocations, kernelBaseHeapAddr + kernelHeapSize ≤ a.ptr ∧
    a.ptr % pageSize = 0 ∧ a.size ≤ alignedSize a.size ∧ alignedSize a.size ≠ 0 ∧
    a.ptr + alignedSize a.size ≤ h.currentLargeHeapAddr
  blocks_apart : h.largeAllocations.Pairwise fun a b =>
    a.ptr + alignedSize a.size ≤ b.ptr ∨ b.ptr + alignedSize b.size ≤ a.ptr

namespace Heap

/-- An object of cache `i` that is not free. -/
def Taken (h : Heap) (i o : Nat) : Prop :=
  ∃ s ∈ h.slabs i, o ∈ slabObjects i s.addr ∧ o ∉ s.freeList

/-- Taking an object of cache `i`: a free one, or the first one of a new slab. -/
inductive Take (h : Heap) (i : Nat) : Nat → Heap → Prop
  | object {o : Nat} {slabs : List Slab} : popFree (h.slabs i) = some (o, slabs) →
      Take h i o (h.setSlabs i slabs)
  | slab {slab : Slab} : popFree (h.slabs i) = none →
      h.currentHeapAddr ≤ kernelBaseHeapAddr + kernelHeapSize →
      slab.addr = convertToVirAddr h.currentHeapAddr →
      slabObjects i slab.addr = (slab.addr + slabDataOffset) :: slab.freeList →
      Take h i (slab.addr + slabDataOffset)
        (({ h with currentHeapAddr := u32 (h.currentHeapAddr + pageSize) }).setSlabs i
          (slab :: h.slabs i))

end Heap

section Take

variable {h h' : Heap} {i j o p : Nat}

/-- The page of the next slab. -/
theorem nextSlab_place (hroom : h.currentHeapAddr ≤ kernelBaseHeapAddr + kernelHeapSize) :
    convertToVirAddr h.currentHeapAddr = kernelBaseHeapAddr + h.currentHeapAddr ∧
      u32 (h.currentHeapAddr + pageSize) = h.currentHeapAddr + pageSize := by
  rw [kernelBaseHeapAddr_eq, kernelHeapSize_eq] at hroom
  rw [convertToVirAddr, kernelBaseHeapAddr_eq, u32_of_lt (by omega), u32_of_lt (by simp only [pageSize]; omega)]
  exact ⟨Nat.add_comm _ _, rfl⟩

/-- `current_heap_addr` was moved on past one slab. -/
structure Heap.Placed (h h' : Heap) : Prop where
  room : h.currentHeapAddr ≤ kernelBaseHeapAddr + kernelHeapSize
  next : h'.currentHeapAddr = h.currentHeapAddr + pageSize

/-- There was no free object of cache `i`, and a slab was made. -/
structure Heap.NewSlab (h : Heap) (i : Nat) (h' : Heap) : Prop extends h.Placed h' where
  none_free : popFree (h.slabs i) = none

theorem Heap.setSlabs_rest (h : Heap) (i : Nat) (slabs : List Slab) :
    (h.setSlabs i slabs).currentHeapAddr = h.currentHeapAddr ∧
      (h.setSlabs i slabs).currentLargeHeapAddr = h.currentLargeHeapAddr ∧
      (h.setSlabs i slabs).largeAllocations = h.largeAllocations := ⟨rfl, rfl, rfl⟩

theorem Heap.Take.large (ht : h.Take i o h') :
    h'.currentLargeHeapAddr = h.currentLargeHeapAddr ∧
      h'.largeAllocations = h.largeAllocations := by
  cases ht with
  | object _ => exact (h.setSlabs_rest i _).2
  | slab _ _ _ _ => exact (Heap.setSlabs_rest _ i _).2

/-- `current_heap_addr` moves up by a page for a new slab only. -/
theorem Heap.Take.next (ht : h.Take i o h') :
    h'.currentHeapAddr = h.currentHeapAddr ∨ h.NewSlab i h' := by
  cases ht with
  | object _ => exact .inl (h.setSlabs_rest i _).1
  | slab hpop hroom _ _ =>
      exact .inr ⟨⟨hroom, (Heap.setSlabs_rest _ i _).1.trans (nextSlab_place hroom).2⟩, hpop⟩

/-- Without a free object there was a new slab. -/
theorem Heap.Take.newSlab (ht : h.Take i o h') (hpop : popFree (h.slabs i) = none) :
    h.NewSlab i h' := by
  cases ht with
  | object hobject =>
      rw [hpop] at hobject
      cases hobject
  | slab _ hroom _ _ =>
      exact ⟨⟨hroom, (Heap.setSlabs_rest _ i _).1.trans (nextSlab_place hroom).2⟩, hpop⟩

/-- The slabs after taking an object: each was there, with more objects free, or is
the new one. -/
theorem Heap.Take.slabs (ht : h.Take i o h') (s : Slab) (hs : s ∈ h'.slabs j) :
    (∃ t ∈ h.slabs j, t.addr = s.addr ∧ s.freeList.Sublist t.freeList) ∨
      j = i ∧ h.NewSlab i h' ∧ s.addr = convertToVirAddr h.currentHeapAddr ∧
        slabObjects i s.addr = (s.addr + slabDataOffset) :: s.freeList := by
  cases ht with
  | @object _ slabs hpop =>
      left
      by_cases hj : j = i
      · subst hj
        rw [h.setSlabs_self] at hs
        obtain ⟨before, slab, free, after, heq, hfree, rfl⟩ := popFree_split hpop
        rw [heq]
        rcases List.mem_append.mp hs with hb | hs
        · exact ⟨s, List.mem_append_left _ hb, rfl, List.Sublist.refl _⟩
        · rcases List.mem_cons.mp hs with rfl | ha
          · refine ⟨slab, List.mem_append_right _ List.mem_cons_self, rfl, ?_⟩
            rw [hfree]
            exact List.sublist_cons_self _ _
          · exact ⟨s, List.mem_append_right _ (List.mem_cons_of_mem _ ha), rfl, List.Sublist.refl _⟩
      · rw [h.setSlabs_ne hj] at hs
        exact ⟨s, hs, rfl, List.Sublist.refl _⟩
  | @slab slab hpop hroom haddr hobjects =>
      by_cases hj : j = i
      · subst hj
        rw [Heap.setSlabs_self] at hs
        rcases List.mem_cons.mp hs with rfl | hold
        · exact .inr ⟨rfl, ⟨⟨hroom, (Heap.setSlabs_rest _ j _).1.trans (nextSlab_place hroom).2⟩,
            hpop⟩, haddr, hobjects⟩
        · exact .inl ⟨s, hold, rfl, List.Sublist.refl _⟩
      · rw [Heap.setSlabs_ne _ hj] at hs
        exact .inl ⟨s, hs, rfl, List.Sublist.refl _⟩

/-- The addresses of the slabs, with the new one. -/
theorem Heap.Take.addrs (ht : h.Take i o h') (j : Nat) :
    (h'.slabs j).map Slab.addr = (h.slabs j).map Slab.addr ∨
      j = i ∧ h.NewSlab i h' ∧ (h'.slabs j).map Slab.addr =
        convertToVirAddr h.currentHeapAddr :: (h.slabs j).map Slab.addr := by
  cases ht with
  | @object _ slabs hpop =>
      left
      by_cases hj : j = i
      · subst hj
        rw [h.setSlabs_self]
        obtain ⟨before, slab, free, after, heq, _, rfl⟩ := popFree_split hpop
        rw [heq, List.map_append, List.map_append, List.map_cons, List.map_cons]
      · rw [h.setSlabs_ne hj]
  | slab hpop hroom haddr _ =>
      by_cases hj : j = i
      · subst hj
        rw [Heap.setSlabs_self, List.map_cons, haddr]
        exact .inr ⟨rfl, ⟨⟨hroom, (Heap.setSlabs_rest _ j _).1.trans (nextSlab_place hroom).2⟩,
          hpop⟩, rfl⟩
      · rw [Heap.setSlabs_ne _ hj]
        exact .inl rfl

/-- Every slab is below the next one. -/
theorem HeapLayout.addr_ne_next (hl : HeapLayout h)
    (hroom : h.currentHeapAddr ≤ kernelBaseHeapAddr + kernelHeapSize) {s : Slab}
    (hs : s ∈ h.slabs j) : s.addr ≠ convertToVirAddr h.currentHeapAddr := by
  rw [(nextSlab_place hroom).1]
  exact Nat.ne_of_lt (hl.slab_page j s hs).2.2

/-- The slabs of cache `i` may lose free objects, and a slab may be put at the next
page; everything else stays. -/
structure Heap.Grows (h : Heap) (i : Nat) (h' : Heap) : Prop where
  large : h'.currentLargeHeapAddr = h.currentLargeHeapAddr ∧
    h'.largeAllocations = h.largeAllocations
  next : h'.currentHeapAddr = h.currentHeapAddr ∨ h.Placed h'
  slabs : ∀ j s, s ∈ h'.slabs j →
    (∃ t ∈ h.slabs j, t.addr = s.addr ∧ s.freeList.Sublist t.freeList) ∨
      j = i ∧ h.Placed h' ∧ s.addr = convertToVirAddr h.currentHeapAddr ∧
        s.freeList.Sublist (slabObjects i s.addr)
  addrs : ∀ j, ((h'.slabs j).map Slab.addr).Sublist ((h.slabs j).map Slab.addr) ∨
    h.Placed h' ∧ ((h'.slabs j).map Slab.addr).Sublist
      (convertToVirAddr h.currentHeapAddr :: (h.slabs j).map Slab.addr)

theorem Heap.Take.grows (ht : h.Take i o h') : h.Grows i h' where
  large := ht.large
  next := by
    rcases ht.next with heq | hnew
    · exact .inl heq
    · exact .inr hnew.toPlaced
  slabs := fun j s hs => by
    rcases ht.slabs s hs with hold | ⟨hj, hnew, haddr, hobjects⟩
    · exact .inl hold
    · refine .inr ⟨hj, hnew.toPlaced, haddr, ?_⟩
      rw [hobjects]
      exact List.sublist_cons_self _ _
  addrs := fun j => by
    rcases ht.addrs j with heq | ⟨_, hnew, heq⟩
    · rw [heq]
      exact .inl (List.Sublist.refl _)
    · rw [heq]
      exact .inr ⟨hnew.toPlaced, List.Sublist.refl _⟩

theorem HeapLayout.grows (hl : HeapLayout h) (hg : h.Grows i h') : HeapLayout h' := by
  have hlow := hl.next_low
  have haligned := hl.next_aligned
  have hhigh := hl.next_high
  have hnext := hg.next
  obtain ⟨hlarge, hblocks⟩ := hg.large
  have hmono : h.currentHeapAddr ≤ h'.currentHeapAddr := by
    rcases hnext with heq | hnew
    · exact Nat.le_of_eq heq.symm
    · rw [hnew.next]
      exact Nat.le_add_right _ _
  refine
    { next_low := Nat.le_trans hlow hmono
      next_high := ?_
      next_aligned := ?_
      slab_page := fun j s hs => ?_
      free := fun j s hs => ?_
      slabs_nodup := fun j => ?_
      slabs_apart := fun j j' hne s hs t htm => ?_
      large_low := by rw [hlarge]; exact hl.large_low
      large_high := by rw [hlarge]; exact hl.large_high
      large_aligned := by rw [hlarge]; exact hl.large_aligned
      block := by rw [hlarge, hblocks]; exact hl.block
      blocks_apart := by rw [hblocks]; exact hl.blocks_apart }
  · rcases hnext with heq | hnew
    · rw [heq]
      exact hhigh
    · rw [hnew.next]
      exact Nat.add_le_add_right hnew.room _
  · rcases hnext with heq | hnew
    · rw [heq]
      exact haligned
    · rw [hnew.next, Nat.add_mod_right]
      exact haligned
  · rcases hg.slabs j s hs with ⟨t, htm, haddr, _⟩ | ⟨_, hnew, haddr, _⟩
    · obtain ⟨h₁, h₂, h₃⟩ := hl.slab_page j t htm
      rw [haddr] at h₁ h₂ h₃
      exact ⟨h₁, h₂, by omega⟩
    · have hnext := hnew.next
      rw [haddr, (nextSlab_place hnew.room).1]
      rw [kernelBaseHeapAddr_eq] at hlow ⊢
      simp only [pageSize] at haligned hnext ⊢
      omega
  · rcases hg.slabs j s hs with ⟨t, htm, haddr, hfree⟩ | ⟨hj, _, _, hfree⟩
    · rw [← haddr]
      exact hfree.trans (hl.free j t htm)
    · rw [hj]
      exact hfree
  · rcases hg.addrs j with hsub | ⟨hnew, hsub⟩
    · exact hsub.nodup (hl.slabs_nodup j)
    · refine hsub.nodup (List.nodup_cons.mpr ⟨fun hmem => ?_, hl.slabs_nodup j⟩)
      obtain ⟨t, htm, haddr⟩ := List.mem_map.mp hmem
      exact hl.addr_ne_next hnew.room htm haddr
  · -- the new slab is in one cache only, above all others
    rcases hg.slabs j s hs with ⟨s₀, hs₀, haddr, _⟩ | ⟨hj, hnew, haddr, _⟩
    · rcases hg.slabs j' t htm with ⟨t₀, ht₀, haddr', _⟩ | ⟨_, hnew, haddr', _⟩
      · rw [← haddr, ← haddr']
        exact hl.slabs_apart j j' hne s₀ hs₀ t₀ ht₀
      · rw [← haddr, haddr']
        exact hl.addr_ne_next hnew.room hs₀
    · rcases hg.slabs j' t htm with ⟨t₀, ht₀, haddr', _⟩ | ⟨hj', _, _, _⟩
      · rw [haddr, ← haddr']
        exact (hl.addr_ne_next hnew.room ht₀).symm
      · exact absurd (hj.trans hj'.symm) hne

theorem HeapLayout.take (hl : HeapLayout h) (ht : h.Take i o h') : HeapLayout h' :=
  hl.grows ht.grows

/-- The next slab's page may be taken without a slab in the lists yet. -/
theorem HeapLayout.placed (hl : HeapLayout h) (hplaced : h.Placed h') (hslabs : h'.slabs = h.slabs)
    (hlarge : h'.currentLargeHeapAddr = h.currentLargeHeapAddr ∧
      h'.largeAllocations = h.largeAllocations) : HeapLayout h' := by
  refine hl.grows (i := 0) ⟨hlarge, .inr hplaced, fun j s hs => .inl ⟨s, ?_, rfl, List.Sublist.refl _⟩,
    fun j => .inl ?_⟩
  · rw [← hslabs]
    exact hs
  · rw [hslabs]

/-- The list of a cache is set to one slab, and there is no other. -/
theorem HeapLayout.single (hl : HeapLayout h) {slab : Slab} (hother : ∀ j, j ≠ i → h.slabs j = [])
    (hpage : slab.addr % pageSize = 0 ∧ 2 * kernelBaseHeapAddr ≤ slab.addr ∧
      slab.addr < kernelBaseHeapAddr + h.currentHeapAddr)
    (hfree : slab.freeList.Sublist (slabObjects i slab.addr)) :
    HeapLayout (h.setSlabs i [slab]) := by
  have honly : ∀ j, ∀ s ∈ (h.setSlabs i [slab]).slabs j, j = i ∧ s = slab := by
    intro j s hs
    by_cases hj : j = i
    · rw [hj, h.setSlabs_self] at hs
      exact ⟨hj, List.mem_singleton.mp hs⟩
    · rw [h.setSlabs_ne hj, hother j hj] at hs
      cases hs
  refine { hl with
    slab_page := fun j s hs => ?_
    free := fun j s hs => ?_
    slabs_nodup := fun j => ?_
    slabs_apart := fun j j' hne s hs t ht => ?_ }
  · rw [(honly j s hs).2]
    exact hpage
  · obtain ⟨rfl, rfl⟩ := honly j s hs
    exact hfree
  · by_cases hj : j = i
    · rw [hj, h.setSlabs_self]
      exact List.nodup_singleton _
    · rw [h.setSlabs_ne hj, hother j hj]
      exact List.nodup_nil
  · exact absurd ((honly j s hs).1.trans (honly j' t ht).1.symm) hne

/-- Two slabs with one address are one slab of one cache. -/
theorem HeapLayout.slab_eq (hl : HeapLayout h) {s t : Slab} (hs : s ∈ h.slabs i)
    (ht : t ∈ h.slabs j) (haddr : s.addr = t.addr) : i = j ∧ s = t := by
  by_cases hij : i = j
  · subst hij
    exact ⟨rfl, List.inj_on_of_nodup_map (hl.slabs_nodup i) hs ht haddr⟩
  · exact absurd haddr (hl.slabs_apart i j hij s hs t ht)

/-- An object that is taken was free, and is not free any more. -/
theorem HeapLayout.take_taken (hl : HeapLayout h) (ht : h.Take i o h') : h'.Taken i o := by
  cases ht with
  | @object _ slabs hpop =>
      obtain ⟨before, slab, free, after, heq, hfree, rfl⟩ := popFree_split hpop
      have hslab : slab ∈ h.slabs i := by
        rw [heq]
        exact List.mem_append_right _ List.mem_cons_self
      have hsub := hl.free i slab hslab
      have hnodup := hsub.nodup (slabObjects_nodup _ _)
      rw [hfree] at hsub hnodup
      refine ⟨{ slab with freeList := free }, ?_, hsub.subset List.mem_cons_self,
        (List.nodup_cons.mp hnodup).1⟩
      rw [h.setSlabs_self]
      exact List.mem_append_right _ List.mem_cons_self
  | @slab slab hpop hroom haddr hobjects =>
      have hnodup := slabObjects_nodup i slab.addr
      rw [hobjects] at hnodup
      refine ⟨slab, ?_, by rw [hobjects]; exact List.mem_cons_self, (List.nodup_cons.mp hnodup).1⟩
      rw [Heap.setSlabs_self]
      exact List.mem_cons_self

/-- Objects that were taken before stay so, and are others. -/
theorem HeapLayout.taken_take (hl : HeapLayout h) (ht : h.Take i o h') (hp : h.Taken j p) :
    h'.Taken j p ∧ p ≠ o := by
  obtain ⟨t, htm, hobj, hnot⟩ := hp
  obtain ⟨htpage, _, _⟩ := hl.slab_page j t htm
  cases ht with
  | @object _ slabs hpop =>
      obtain ⟨before, slab, free, after, heq, hfree, rfl⟩ := popFree_split hpop
      have hslab : slab ∈ h.slabs i := by
        rw [heq]
        exact List.mem_append_right _ List.mem_cons_self
      by_cases hsame : slab.addr = t.addr
      · obtain ⟨rfl, rfl⟩ := hl.slab_eq hslab htm hsame
        rw [hfree] at hnot
        refine ⟨⟨{ slab with freeList := free }, ?_, hobj, fun hmem =>
          hnot (List.mem_cons_of_mem _ hmem)⟩, fun hpo => hnot (hpo ▸ List.mem_cons_self)⟩
        rw [h.setSlabs_self]
        exact List.mem_append_right _ List.mem_cons_self
      · refine ⟨⟨t, ?_, hobj, hnot⟩, ?_⟩
        · by_cases hji : j = i
          · subst hji
            rw [heq] at htm
            rw [h.setSlabs_self]
            rcases List.mem_append.mp htm with hb | htm
            · exact List.mem_append_left _ hb
            · rcases List.mem_cons.mp htm with rfl | ha
              · exact absurd rfl hsame
              · exact List.mem_append_right _ (List.mem_cons_of_mem _ ha)
          · rw [h.setSlabs_ne hji]
            exact htm
        · -- objects of two pages
          rintro rfl
          have hsub := hl.free i slab hslab
          rw [hfree] at hsub
          have hpage := slabObjects_page (hl.slab_page i slab hslab).1
            (hsub.subset List.mem_cons_self)
          exact hsame (hpage.symm.trans (slabObjects_page htpage hobj))
  | @slab slab hpop hroom haddr hobjects =>
      refine ⟨⟨t, ?_, hobj, hnot⟩, ?_⟩
      · by_cases hji : j = i
        · subst hji
          rw [Heap.setSlabs_self]
          exact List.mem_cons_of_mem _ htm
        · rw [Heap.setSlabs_ne _ hji]
          exact htm
      · rintro rfl
        have hnext : slab.addr % pageSize = 0 := by
          have haligned := hl.next_aligned
          rw [haddr, (nextSlab_place hroom).1, kernelBaseHeapAddr_eq]
          simp only [pageSize] at haligned ⊢
          omega
        have hpage := slabObjects_page hnext (i := i) (by rw [hobjects]; exact List.mem_cons_self)
        have heq := hpage.symm.trans (slabObjects_page htpage hobj)
        exact hl.addr_ne_next hroom htm (heq.symm.trans haddr)

end Take

/-! ## Several objects -/

/-- `n` objects were taken from the first cache, one after another. -/
inductive Heap.Takes : Nat → Heap → Heap → Prop
  | done (h : Heap) : Takes 0 h h
  | next {n o : Nat} {h h' h'' : Heap} : h.Take 0 o h' → Takes n h' h'' → Takes (n + 1) h h''

section Takes

variable {h h' : Heap} {n i o p : Nat}

theorem Heap.Takes.trans {m : Nat} {h'' : Heap} (ht : Heap.Takes m h h')
    (ht' : Heap.Takes n h' h'') : Heap.Takes (m + n) h h'' := by
  induction ht with
  | done h =>
      rw [Nat.zero_add]
      exact ht'
  | next htake _ ih =>
      rw [Nat.add_right_comm]
      exact .next htake (ih ht')

theorem Heap.Takes.large (ht : Heap.Takes n h h') :
    h'.currentLargeHeapAddr = h.currentLargeHeapAddr ∧
      h'.largeAllocations = h.largeAllocations := by
  induction ht with
  | done h => exact ⟨rfl, rfl⟩
  | next htake _ ih => exact ⟨ih.1.trans htake.large.1, ih.2.trans htake.large.2⟩

theorem HeapLayout.takes (hl : HeapLayout h) (ht : Heap.Takes n h h') : HeapLayout h' := by
  induction ht with
  | done h => exact hl
  | next htake _ ih => exact ih (hl.take htake)

/-! ## Room for slabs -/

/-- The slabs that fit below the end of the reserved heap. -/
def slabsLeft (h : Heap) : Nat :=
  (kernelBaseHeapAddr + kernelHeapSize - h.currentHeapAddr) / pageSize

/-- The objects of cache `i` that are free or in such slabs. -/
def roomFor (h : Heap) (i : Nat) : Nat := freeObjects (h.slabs i) + objectsPerSlab i * slabsLeft h

theorem freeObjects_of_popFree {slabs : List Slab} (h : popFree slabs = none) :
    freeObjects slabs = 0 := by
  induction slabs with
  | nil => rfl
  | cons slab rest ih =>
      rw [popFree] at h
      split at h
      · cases h
      · next hfree =>
          rw [freeObjects, hfree, ih (Option.map_eq_none_iff.mp h)]
          rfl

/-- While there is room, taking an object uses one unit of it, and no slab is put
behind the end of the reserved heap. -/
theorem Heap.Take.room (ht : h.Take i o h')
    (hnext : h.currentHeapAddr ≤ kernelBaseHeapAddr + kernelHeapSize) (hroom : 1 ≤ roomFor h i) :
    h'.currentHeapAddr ≤ kernelBaseHeapAddr + kernelHeapSize ∧
      roomFor h i ≤ roomFor h' i + 1 := by
  cases ht with
  | @object _ slabs hpop =>
      obtain ⟨hcount, _⟩ := popFree_count hpop
      refine ⟨hnext, ?_⟩
      rw [roomFor, roomFor, h.setSlabs_self, slabsLeft, slabsLeft, (h.setSlabs_rest i slabs).1]
      omega
  | @slab slab hpop hle haddr hobjects =>
      have hfree := freeObjects_of_popFree hpop
      have hlen := initSlab_count slab.addr i
      rw [show (initSlab slab.addr (cacheObjectSize i)).freeList = slabObjects i slab.addr from rfl,
        hobjects, List.length_cons] at hlen
      have hplace := (nextSlab_place hle).2
      have hleft : 1 ≤ slabsLeft h := by
        rw [roomFor, hfree, Nat.zero_add] at hroom
        exact Nat.pos_of_mul_pos_left hroom
      have hfit : h.currentHeapAddr + pageSize ≤ kernelBaseHeapAddr + kernelHeapSize := by
        simp only [slabsLeft, pageSize] at hleft ⊢
        omega
      have hleft' : slabsLeft h = slabsLeft (({ h with
          currentHeapAddr := u32 (h.currentHeapAddr + pageSize) }).setSlabs i (slab :: h.slabs i)) + 1 := by
        rw [slabsLeft, slabsLeft, (Heap.setSlabs_rest _ i _).1]
        show _ = (_ - u32 (h.currentHeapAddr + pageSize)) / pageSize + 1
        rw [hplace]
        simp only [pageSize] at hfit ⊢
        omega
      refine ⟨?_, ?_⟩
      · rw [(Heap.setSlabs_rest _ i _).1]
        show u32 (h.currentHeapAddr + pageSize) ≤ _
        rw [hplace]
        exact hfit
      · rw [roomFor, roomFor, hleft', Heap.setSlabs_self, freeObjects, hfree, Nat.mul_succ]
        omega

theorem Heap.Takes.room (ht : Heap.Takes n h h')
    (hnext : h.currentHeapAddr ≤ kernelBaseHeapAddr + kernelHeapSize) (hroom : n ≤ roomFor h 0) :
    h'.currentHeapAddr ≤ kernelBaseHeapAddr + kernelHeapSize ∧
      roomFor h 0 ≤ roomFor h' 0 + n := by
  induction ht with
  | done h => exact ⟨hnext, Nat.le_refl _⟩
  | next htake _ ih =>
      obtain ⟨hnext', hroom'⟩ := htake.room hnext (by omega)
      obtain ⟨hfinal, hleft⟩ := ih hnext' (by omega)
      exact ⟨hfinal, by omega⟩

end Takes
end MyOs
