import MyOs.Logic.HeapLists
import MyOs.Memory.SlabCaches

/-!
# A store of blocks

The caches as their users see them: blocks that lie apart and keep what was written to
them. Below the blocks are the heap's lists, with the same two halves of `create_slab`;
`BlockLayout` is what they keep: every slab and every page being mapped has a place of its
own, and a block in use is an object of a slab's place that is on no free list.
-/

namespace MyOs

/-- The heap's lists, the slabs in the making, the blocks in use and what was written to
them. -/
structure BlockStore where
  heap : Heap
  pending : List (SlabMaker × Nat × Nat)
  live : List (Nat × Nat)
  bytes : ByteStore

/-- Two blocks without a common byte. -/
def ObjectsApart (b c : Nat × Nat) : Prop :=
  b.1 + cacheObjectSize b.2 ≤ c.1 ∨ c.1 + cacheObjectSize c.2 ≤ b.1

namespace BlockStore

/-- A call has returned the object `o` of cache `i`: a block apart from the others, which
stay as they are. -/
structure Gets (t : BlockStore) (i o : Nat) (t' : BlockStore) : Prop where
  ne_null : o ≠ 0
  live : t'.live = (o, i) :: t.live
  apart : ∀ b ∈ t.live, ObjectsApart (o, i) b
  bytes : ∀ a, a < o ∨ o + cacheObjectSize i ≤ a → t'.bytes a = t.bytes a

/-- The calls on the lists. -/
def sys : TSys BlockStore CachesCall where
  init t := t.heap.slabs = (fun _ => []) ∧ t.heap.currentHeapAddr = kernelBaseHeapAddr ∧
    t.pending = [] ∧ t.live = []
  step t call t' :=
    match call with
    | .alloc i o => ∃ slabs, popFree (t.heap.slabs i) = some (o, slabs) ∧ t.Gets i o t' ∧
        t'.heap = t.heap.setSlabs i slabs ∧ t'.pending = t.pending
    | .place maker i => (maker = .allocFromCache → popFree (t.heap.slabs i) = none) ∧
        t.heap.currentHeapAddr ≤ kernelBaseHeapAddr + kernelHeapSize ∧ t' = { t with
          heap := { t.heap with currentHeapAddr := u32 (t.heap.currentHeapAddr + pageSize) }
          pending := (maker, i, convertToVirAddr t.heap.currentHeapAddr) :: t.pending }
    | .add o => ∃ i slab rest slabs, t.pending = (.allocFromCache, i, slab) :: rest ∧
        popFree (initSlab slab (cacheObjectSize i) :: t.heap.slabs i) = some (o, slabs) ∧
        t.Gets i o t' ∧ t'.heap = t.heap.setSlabs i slabs ∧ t'.pending = rest
    | .first => ∃ i slab rest, t.pending = (.initKmalloc, i, slab) :: rest ∧ t' = { t with
        heap := t.heap.setSlabs i [initSlab slab (cacheObjectSize i)]
        pending := rest }
    | .kfree o => ∃ i, (o, i) ∈ t.live ∧ t' = { t with live := t.live.erase (o, i) }
    | .write mem => t' = { t with bytes := mem }

end BlockStore

/-- The last list counts. -/
theorem Heap.setSlabs_setSlabs (h : Heap) (i : Nat) (slabs slabs' : List Slab) :
    (h.setSlabs i slabs).setSlabs i slabs' = h.setSlabs i slabs' := by
  have hsame : ((h.setSlabs i slabs).setSlabs i slabs').slabs = (h.setSlabs i slabs').slabs := by
    funext j
    by_cases hj : j = i
    · rw [hj, Heap.setSlabs_self, Heap.setSlabs_self]
    · rw [Heap.setSlabs_ne _ hj, Heap.setSlabs_ne _ hj, Heap.setSlabs_ne _ hj]
  exact congrArg (fun f => { h with slabs := f }) hsame

/-! ## The layout -/

/-- The page an object lies in. -/
def blockPage (o : Nat) : Nat := o / pageSize * pageSize

/-- A page that `create_slab` has given out. -/
def SlabArea (h : Heap) (a : Nat) : Prop :=
  a % pageSize = 0 ∧ 2 * kernelBaseHeapAddr ≤ a ∧
    a + pageSize ≤ kernelBaseHeapAddr + h.currentHeapAddr

structure BlockLayout (t : BlockStore) : Prop where
  next_low : kernelBaseHeapAddr ≤ t.heap.currentHeapAddr
  next_high : t.heap.currentHeapAddr ≤ kernelBaseHeapAddr + kernelHeapSize + pageSize
  next_aligned : t.heap.currentHeapAddr % pageSize = 0
  slab_area : ∀ i, ∀ s ∈ t.heap.slabs i, SlabArea t.heap s.addr
  slab_size : ∀ i, ∀ s ∈ t.heap.slabs i, s.objectSize = cacheObjectSize i
  free_nodup : ∀ i, ∀ s ∈ t.heap.slabs i, s.freeList.Nodup
  free : ∀ i, ∀ s ∈ t.heap.slabs i, ∀ o ∈ s.freeList, o ∈ slabObjects i s.addr
  slabs_nodup : ∀ i, ((t.heap.slabs i).map Slab.addr).Nodup
  slabs_apart : ∀ i j, i ≠ j → ∀ s ∈ t.heap.slabs i, ∀ u ∈ t.heap.slabs j, s.addr ≠ u.addr
  pending_cache : ∀ p ∈ t.pending, p.2.1 < numCaches
  pending_area : ∀ p ∈ t.pending, SlabArea t.heap p.2.2
  pending_nodup : (t.pending.map fun p => p.2.2).Nodup
  pending_apart : ∀ p ∈ t.pending, ∀ i, ∀ s ∈ t.heap.slabs i, s.addr ≠ p.2.2
  live_area : ∀ b ∈ t.live, SlabArea t.heap (blockPage b.1)
  live_object : ∀ b ∈ t.live, b.1 ∈ slabObjects b.2 (blockPage b.1)
  live_pending : ∀ b ∈ t.live, ∀ p ∈ t.pending, p.2.2 ≠ blockPage b.1
  live_slab : ∀ b ∈ t.live, ∀ i, ∀ s ∈ t.heap.slabs i, s.addr = blockPage b.1 →
    i = b.2 ∧ b.1 ∉ s.freeList
  live_apart : t.live.Pairwise ObjectsApart

namespace BlockLayout

variable {t : BlockStore} {i o slab : Nat} {slabs : List Slab}

/-- The caches before the first slab. -/
theorem of_init (h : BlockStore.sys.init t) : BlockLayout t := by
  obtain ⟨hslabs, hnext, hpending, hlive⟩ := h
  constructor <;> simp only [hslabs, hnext, hpending, hlive, List.not_mem_nil, List.map_nil,
    List.nodup_nil, List.Pairwise.nil, false_imp_iff, implies_true]
  · exact Nat.le_refl _
  · rw [Nat.add_assoc]
    exact Nat.le_add_right _ _
  · decide

/-- Pages that are not the same lie apart. -/
theorem pages_apart {h : Heap} {a b : Nat} (ha : SlabArea h a) (hb : SlabArea h b) (hne : a ≠ b) :
    a + pageSize ≤ b ∨ b + pageSize ≤ a := by
  have ha' := ha.1
  have hb' := hb.1
  simp only [pageSize] at *
  omega

/-- The bytes of a block are in its page, behind the header. -/
theorem live_inside (h : BlockLayout t) {b : Nat × Nat} (hb : b ∈ t.live) :
    blockPage b.1 + slabDataOffset ≤ b.1 ∧
      b.1 + cacheObjectSize b.2 ≤ blockPage b.1 + pageSize :=
  slabObjects_inside (h.live_object b hb)

/-- The page of a free object. -/
theorem free_page (h : BlockLayout t) {s : Slab} (hs : s ∈ t.heap.slabs i) (ho : o ∈ s.freeList) :
    blockPage o = s.addr :=
  slabObjects_page (h.slab_area i s hs).1 (h.free i s hs o ho)

/-- The page is inside the address space. -/
theorem area_lt (h : BlockLayout t) {a : Nat} (ha : SlabArea t.heap a) :
    0 < a ∧ a + pageSize ≤ 2 ^ 32 := by
  have hhigh := h.next_high
  obtain ⟨_, hlow, hend⟩ := ha
  rw [kernelHeapSize_eq] at hhigh
  rw [kernelBaseHeapAddr_eq] at hhigh hlow hend
  simp only [pageSize] at *
  omega

/-- A block in use is in this page, or in one apart from it. -/
theorem live_pages (h : BlockLayout t) {b : Nat × Nat} (hb : b ∈ t.live) {a : Nat}
    (ha : SlabArea t.heap a) : a = blockPage b.1 ∨ a + pageSize ≤ blockPage b.1 ∨
      blockPage b.1 + pageSize ≤ a :=
  (eq_or_ne _ _).imp_right (pages_apart ha (h.live_area b hb))

/-- A page being mapped is apart from the slabs. -/
theorem pending_pages (h : BlockLayout t) {p : SlabMaker × Nat × Nat} (hp : p ∈ t.pending)
    {s : Slab} (hs : s ∈ t.heap.slabs i) :
    s.addr + pageSize ≤ p.2.2 ∨ p.2.2 + pageSize ≤ s.addr :=
  pages_apart (h.slab_area i s hs) (h.pending_area p hp) (h.pending_apart p hp i s hs)

/-! ## Taking an object -/

section Take

variable {before after : List Slab} {s : Slab} {free : List Nat}

/-- The other slabs of the cache. -/
theorem others (h : BlockLayout t) (hslabs : t.heap.slabs i = before ++ s :: after) {u : Slab}
    (hu : u ∈ before ∨ u ∈ after) : u ∈ t.heap.slabs i ∧ u.addr ≠ s.addr := by
  have hmap := h.slabs_nodup i
  rw [hslabs, List.map_append, List.map_cons] at hmap
  have hsplit := (List.nodup_cons.mp (List.nodup_middle.mp hmap)).1
  rw [hslabs]
  rcases hu with hb | ha
  · exact ⟨List.mem_append_left _ hb,
      fun heq => hsplit (List.mem_append_left _ (heq ▸ List.mem_map_of_mem hb))⟩
  · exact ⟨List.mem_append_right _ (List.mem_cons_of_mem s ha),
      fun heq => hsplit (List.mem_append_right _ (heq ▸ List.mem_map_of_mem ha))⟩

/-- A slab of the cache after the object was taken. -/
theorem mem_taken (h : BlockLayout t) (hslabs : t.heap.slabs i = before ++ s :: after)
    (hfree : s.freeList = o :: free) {u : Slab}
    (hu : u ∈ before ++ { s with freeList := free } :: after) :
    ∃ u' ∈ t.heap.slabs i, u'.addr = u.addr ∧ u'.objectSize = u.objectSize ∧
      u.freeList.Sublist u'.freeList ∧ o ∉ u.freeList := by
  have hs : s ∈ t.heap.slabs i := by
    rw [hslabs]
    exact List.mem_append_right _ List.mem_cons_self
  have hnodup := h.free_nodup i s hs
  rw [hfree] at hnodup
  have hother : ∀ u, u ∈ before ∨ u ∈ after → u ∈ t.heap.slabs i ∧ o ∉ u.freeList := by
    intro u hu
    obtain ⟨hmem, hne⟩ := h.others hslabs hu
    exact ⟨hmem, fun ho => hne ((h.free_page hmem ho).symm.trans
      (h.free_page hs (hfree ▸ List.mem_cons_self)))⟩
  rcases List.mem_append.mp hu with hb | hu
  · obtain ⟨hmem, hnot⟩ := hother u (.inl hb)
    exact ⟨u, hmem, rfl, rfl, List.Sublist.refl _, hnot⟩
  · rcases List.mem_cons.mp hu with rfl | ha
    · refine ⟨s, hs, rfl, rfl, ?_, (List.nodup_cons.mp hnodup).1⟩
      rw [hfree]
      exact List.sublist_cons_self _ _
    · obtain ⟨hmem, hnot⟩ := hother u (.inr ha)
      exact ⟨u, hmem, rfl, rfl, List.Sublist.refl _, hnot⟩

/-- A free object is none of the blocks in use, and lies apart from them. -/
theorem free_apart (h : BlockLayout t) (hs : s ∈ t.heap.slabs i) (ho : o ∈ s.freeList) :
    ∀ b ∈ t.live, ObjectsApart (o, i) b := by
  intro b hb
  have hpage := h.free_page hs ho
  have hinside := slabObjects_inside (h.free i s hs o ho)
  have hinside' := h.live_inside hb
  by_cases hsame : s.addr = blockPage b.1
  · obtain ⟨rfl, hnot⟩ := h.live_slab b hb i s hs hsame
    have hobject := h.live_object b hb
    rw [← hsame] at hobject
    exact slabObjects_apart (h.free b.2 s hs o ho) hobject fun heq => hnot (heq ▸ ho)
  · have hapart := pages_apart (h.slab_area i s hs) (h.live_area b hb) hsame
    unfold ObjectsApart
    simp only
    omega

theorem take (h : BlockLayout t) (hslabs : t.heap.slabs i = before ++ s :: after)
    (hfree : s.freeList = o :: free) (bytes : ByteStore) :
    BlockLayout ⟨t.heap.setSlabs i (before ++ { s with freeList := free } :: after), t.pending,
      (o, i) :: t.live, bytes⟩ := by
  have hs : s ∈ t.heap.slabs i := by
    rw [hslabs]
    exact List.mem_append_right _ List.mem_cons_self
  have ho : o ∈ s.freeList := hfree ▸ List.mem_cons_self
  have hpage := h.free_page hs ho
  -- every slab is one of those before, with fewer free objects
  have hold : ∀ j, ∀ u ∈ (t.heap.setSlabs i
      (before ++ { s with freeList := free } :: after)).slabs j,
      ∃ u' ∈ t.heap.slabs j, u'.addr = u.addr ∧ u'.objectSize = u.objectSize ∧
        u.freeList.Sublist u'.freeList ∧ (j = i → o ∉ u.freeList) := by
    intro j u hu
    by_cases hj : j = i
    · subst hj
      rw [Heap.setSlabs_self] at hu
      obtain ⟨u', hu', haddr, hsize, hsub, hnot⟩ := h.mem_taken hslabs hfree hu
      exact ⟨u', hu', haddr, hsize, hsub, fun _ => hnot⟩
    · rw [Heap.setSlabs_ne _ hj] at hu
      exact ⟨u, hu, rfl, rfl, List.Sublist.refl _, fun h => absurd h hj⟩
  have haddrs : ∀ j, ((t.heap.setSlabs i
      (before ++ { s with freeList := free } :: after)).slabs j).map Slab.addr =
      (t.heap.slabs j).map Slab.addr := by
    intro j
    by_cases hj : j = i
    · rw [hj, Heap.setSlabs_self, hslabs, List.map_append, List.map_append, List.map_cons,
        List.map_cons]
    · rw [Heap.setSlabs_ne _ hj]
  refine
    { next_low := h.next_low
      next_high := h.next_high
      next_aligned := h.next_aligned
      slab_area := fun j u hu => ?_
      slab_size := fun j u hu => ?_
      free_nodup := fun j u hu => ?_
      free := fun j u hu p hp => ?_
      slabs_nodup := fun j => haddrs j ▸ h.slabs_nodup j
      slabs_apart := fun j k hne u hu w hw => ?_
      pending_cache := h.pending_cache
      pending_area := h.pending_area
      pending_nodup := h.pending_nodup
      pending_apart := fun p hp j u hu => ?_
      live_area := fun b hb => ?_
      live_object := fun b hb => ?_
      live_pending := fun b hb p hp => ?_
      live_slab := fun b hb j u hu heq => ?_
      live_apart := List.pairwise_cons.mpr ⟨h.free_apart hs ho, h.live_apart⟩ }
  · obtain ⟨u', hu', haddr, _⟩ := hold j u hu
    exact haddr ▸ h.slab_area j u' hu'
  · obtain ⟨u', hu', _, hsize, _⟩ := hold j u hu
    exact hsize ▸ h.slab_size j u' hu'
  · obtain ⟨u', hu', _, _, hsub, _⟩ := hold j u hu
    exact hsub.nodup (h.free_nodup j u' hu')
  · obtain ⟨u', hu', haddr, _, hsub, _⟩ := hold j u hu
    exact haddr ▸ h.free j u' hu' p (hsub.subset hp)
  · obtain ⟨u', hu', haddr, _⟩ := hold j u hu
    obtain ⟨w', hw', haddr', _⟩ := hold k w hw
    rw [← haddr, ← haddr']
    exact h.slabs_apart j k hne u' hu' w' hw'
  · obtain ⟨u', hu', haddr, _⟩ := hold j u hu
    exact haddr ▸ h.pending_apart p hp j u' hu'
  · rcases List.mem_cons.mp hb with rfl | hb
    · exact (congrArg (SlabArea t.heap) hpage).mpr (h.slab_area i s hs)
    · exact h.live_area b hb
  · rcases List.mem_cons.mp hb with rfl | hb
    · simp only [hpage]
      exact h.free i s hs o ho
    · exact h.live_object b hb
  · rcases List.mem_cons.mp hb with rfl | hb
    · simp only [hpage]
      exact (h.pending_apart p hp i s hs).symm
    · exact h.live_pending b hb p hp
  · obtain ⟨u', hu', haddr, _, hsub, hnot⟩ := hold j u hu
    rcases List.mem_cons.mp hb with rfl | hb
    · simp only [hpage] at heq
      by_cases hj : j = i
      · exact ⟨hj, hnot hj⟩
      · exact absurd (haddr.trans heq) (h.slabs_apart j i hj u' hu' s hs)
    · obtain ⟨hj, hmem⟩ := h.live_slab b hb j u' hu' (haddr.trans heq)
      exact ⟨hj, fun hin => hmem (hsub.subset hin)⟩

end Take

/-! ## Making a slab -/

/-- The next page is given out. -/
theorem place (h : BlockLayout t) (hi : i < numCaches)
    (hroom : t.heap.currentHeapAddr ≤ kernelBaseHeapAddr + kernelHeapSize) (maker : SlabMaker) :
    BlockLayout { t with
      heap := { t.heap with currentHeapAddr := u32 (t.heap.currentHeapAddr + pageSize) }
      pending := (maker, i, convertToVirAddr t.heap.currentHeapAddr) :: t.pending } := by
  obtain ⟨hplace, hnext⟩ := nextSlab_place hroom
  rw [hplace, hnext]
  have hlow := h.next_low
  have haligned := h.next_aligned
  have hnew : SlabArea { t.heap with currentHeapAddr := t.heap.currentHeapAddr + pageSize }
      (kernelBaseHeapAddr + t.heap.currentHeapAddr) := by
    rw [kernelBaseHeapAddr_eq] at hlow ⊢
    simp only [SlabArea, kernelBaseHeapAddr_eq, pageSize] at haligned ⊢
    omega
  have hkeep : ∀ {a}, SlabArea t.heap a →
      SlabArea { t.heap with currentHeapAddr := t.heap.currentHeapAddr + pageSize } a :=
    fun ha => ⟨ha.1, ha.2.1, ha.2.2.trans (Nat.add_le_add_left (Nat.le_add_right _ _) _)⟩
  have hne : ∀ {a}, SlabArea t.heap a → a ≠ kernelBaseHeapAddr + t.heap.currentHeapAddr := by
    intro a ha heq
    have hend := ha.2.2
    simp only [pageSize] at hend
    omega
  refine { h with
    next_low := Nat.le_trans hlow (Nat.le_add_right _ _)
    next_high := Nat.add_le_add_right hroom _
    next_aligned := by rw [Nat.add_mod_right]; exact haligned
    slab_area := fun j u hu => hkeep (h.slab_area j u hu)
    pending_cache := fun p hp => ?_
    pending_area := fun p hp => ?_
    pending_nodup := ?_
    pending_apart := fun p hp j u hu => ?_
    live_area := fun b hb => hkeep (h.live_area b hb)
    live_pending := fun b hb p hp => ?_ }
  · rcases List.mem_cons.mp hp with rfl | hp
    · exact hi
    · exact h.pending_cache p hp
  · rcases List.mem_cons.mp hp with rfl | hp
    · exact hnew
    · exact hkeep (h.pending_area p hp)
  · refine List.nodup_cons.mpr ⟨fun hmem => ?_, h.pending_nodup⟩
    obtain ⟨p, hp, heq⟩ := List.mem_map.mp hmem
    exact hne (h.pending_area p hp) heq
  · rcases List.mem_cons.mp hp with rfl | hp
    · exact hne (h.slab_area j u hu)
    · exact h.pending_apart p hp j u hu
  · rcases List.mem_cons.mp hp with rfl | hp
    · exact (hne (h.live_area b hb)).symm
    · exact h.live_pending b hb p hp

/-- The pending slab becomes the first of its cache; the others may be kept or lost. -/
theorem push {maker : SlabMaker} {rest : List (SlabMaker × Nat × Nat)}
    (h : BlockLayout t) (hpending : t.pending = (maker, i, slab) :: rest) {tail : List Slab}
    (htail : tail.Sublist (t.heap.slabs i)) :
    BlockLayout { t with
      heap := t.heap.setSlabs i (initSlab slab (cacheObjectSize i) :: tail)
      pending := rest } := by
  have hmem : (maker, i, slab) ∈ t.pending := hpending ▸ List.mem_cons_self
  have hrest : ∀ {p}, p ∈ rest → p ∈ t.pending := fun hp => hpending ▸ List.mem_cons_of_mem _ hp
  have hnodup := h.pending_nodup
  rw [hpending, List.map_cons, List.nodup_cons] at hnodup
  have hold : ∀ j, ∀ u ∈ (t.heap.setSlabs i (initSlab slab (cacheObjectSize i) :: tail)).slabs j,
      u ∈ t.heap.slabs j ∨ j = i ∧ u = initSlab slab (cacheObjectSize i) := by
    intro j u hu
    by_cases hj : j = i
    · subst hj
      rw [Heap.setSlabs_self] at hu
      rcases List.mem_cons.mp hu with rfl | hu
      · exact .inr ⟨rfl, rfl⟩
      · exact .inl (htail.subset hu)
    · rw [Heap.setSlabs_ne _ hj] at hu
      exact .inl hu
  have hnew : ∀ j, ∀ u ∈ t.heap.slabs j, u.addr ≠ slab := h.pending_apart _ hmem
  refine { h with
    slab_area := fun j u hu => ?_
    slab_size := fun j u hu => ?_
    free_nodup := fun j u hu => ?_
    free := fun j u hu p hp => ?_
    slabs_nodup := fun j => ?_
    slabs_apart := fun j k hne u hu w hw => ?_
    pending_cache := fun p hp => h.pending_cache p (hrest hp)
    pending_area := fun p hp => h.pending_area p (hrest hp)
    pending_nodup := hnodup.2
    pending_apart := fun p hp j u hu => ?_
    live_pending := fun b hb p hp => h.live_pending b hb p (hrest hp)
    live_slab := fun b hb j u hu heq => ?_ }
  · rcases hold j u hu with hu | ⟨_, rfl⟩
    · exact h.slab_area j u hu
    · exact h.pending_area _ hmem
  · rcases hold j u hu with hu | ⟨rfl, rfl⟩
    · exact h.slab_size j u hu
    · rfl
  · rcases hold j u hu with hu | ⟨_, rfl⟩
    · exact h.free_nodup j u hu
    · exact slabObjects_nodup i slab
  · rcases hold j u hu with hu | ⟨rfl, rfl⟩
    · exact h.free j u hu p hp
    · exact hp
  · by_cases hj : j = i
    · subst hj
      rw [Heap.setSlabs_self, List.map_cons, List.nodup_cons]
      refine ⟨fun hin => ?_, (htail.map _).nodup (h.slabs_nodup j)⟩
      obtain ⟨u, hu, heq⟩ := List.mem_map.mp hin
      exact hnew j u (htail.subset hu) heq
    · rw [Heap.setSlabs_ne _ hj]
      exact h.slabs_nodup j
  · rcases hold j u hu with hu | ⟨rfl, rfl⟩
    · rcases hold k w hw with hw | ⟨_, rfl⟩
      · exact h.slabs_apart j k hne u hu w hw
      · exact hnew j u hu
    · rcases hold k w hw with hw | ⟨rfl, _⟩
      · exact (hnew k w hw).symm
      · exact absurd rfl hne
  · rcases hold j u hu with hu | ⟨_, rfl⟩
    · exact h.pending_apart p (hrest hp) j u hu
    · intro heq
      exact hnodup.1 (List.mem_map.mpr ⟨p, hp, heq.symm⟩)
  · rcases hold j u hu with hu | ⟨_, rfl⟩
    · exact h.live_slab b hb j u hu heq
    · exact absurd heq (h.live_pending b hb _ hmem)

/-- Blocks may be given up, and written to. -/
theorem drop {live : List (Nat × Nat)} (h : BlockLayout t) (hsub : live.Sublist t.live)
    (bytes : ByteStore) : BlockLayout ⟨t.heap, t.pending, live, bytes⟩ :=
  { h with
    live_area := fun b hb => h.live_area b (hsub.subset hb)
    live_object := fun b hb => h.live_object b (hsub.subset hb)
    live_pending := fun b hb => h.live_pending b (hsub.subset hb)
    live_slab := fun b hb => h.live_slab b (hsub.subset hb)
    live_apart := h.live_apart.sublist hsub }

end BlockLayout
end MyOs
