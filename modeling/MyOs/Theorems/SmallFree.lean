import MyOs.Logic.HeapReturns

/-!
# Freeing a small block

The slabs are mapped at twice the heap's base and above, and `kfree` takes only
addresses from the base to the heap's size above it for objects of slabs. A small
block is looked up among the large ones, and not found: `kfree` returns without
having done anything, so a small block is never used again.
-/

namespace MyOs

open Prog

section Shape

variable {ext : Ext}

/-- `init_kmalloc` brings the heap into shape. -/
theorem initKmalloc_shape (hext : ext.KeepsHeap HeapShape SmallObject) :
    Triple BeforeInitKmalloc (initKmalloc ext) fun _ => HeapHas HeapShape := by
  have hstart : Triple BeforeInitKmalloc (Prog.modify fun k => { k with heap := { k.heap with
      currentHeapAddr := kernelBaseHeapAddr
      currentLargeHeapAddr := kernelBaseHeapAddr + kernelHeapSize } }) fun _ =>
        HeapHas HeapShape := by
    refine Triple.modify fun k hk => ?_
    exact
      { heap_low := Nat.le_refl _
        heap_aligned := (by decide : kernelBaseHeapAddr % pageSize = 0)
        objects := fun i slab hslab => by
          have hnil : k.heap.slabs i = [] := hk.slabs i
          rw [hnil] at hslab
          cases hslab
        large_next := (by decide : (kernelBaseHeapAddr + kernelHeapSize) % pageSize = 0)
        large := fun a ha => by
          have hnil : k.heap.largeAllocations = [] := hk.large
          rw [hnil] at ha
          cases ha }
  refine Triple.bind hstart fun _ => ?_
  refine Triple.forLoop (I := fun _ => HeapHas HeapShape) (fun i => ?_) numCaches 0
  refine Triple.bind (createSlab_keepsHeap heapShape_rules hext _) fun slab => ?_
  refine Triple.bind (Triple.modify (Q := fun _ => HeapHas HeapShape) ?_) fun _ => ?_
  · rintro k ⟨hk, phys, hplace, rfl⟩
    refine HeapShape.setSlabs hk i fun slab hslab => ?_
    rw [List.mem_singleton.mp hslab]
    exact initSlab_objects hplace
  · exact Triple.ite (fun _ => Triple.stop) fun _ => Triple.pure fun _ hs => hs

end Shape

/-- What is so in every state: the heap's shape, and where the small live blocks are. -/
structure SmallBlocks (s : HeapState) : Prop where
  shape : HeapShape s.kernel.heap
  small : ∀ p size, (p, size) ∈ s.live → size ≤ maxCacheSize → SmallObject p

theorem heapCalls_smallBlocks : heapCalls.Invariant SmallBlocks := by
  refine TSys.Inductive.invariant ⟨?_, ?_⟩
  · rintro s ⟨k, depth, hbefore, hrun, hlive⟩
    have hshape := initKmalloc_shape (link_keepsHeap heapShape_rules (depth + 1)) _ hbefore _ _ hrun
    refine ⟨hshape, fun p size hp => ?_⟩
    rw [hlive] at hp
    cases hp
  · rintro s a s' ⟨hshape, hsmall⟩ hstep
    cases hstep with
    | @block size ptr depth k' _ hrun hne =>
        obtain ⟨hshape', hptr⟩ := kmalloc_keepsHeap heapShape_rules
          (link_keepsHeap heapShape_rules (depth + 1)) size _ hshape _ _ hrun
        refine ⟨hshape', fun p size' hp hle => ?_⟩
        rcases List.mem_cons.mp hp with heq | hold
        · cases heq
          exact (hptr hle).resolve_left hne
        · exact hsmall p size' hold hle
    | @null size depth k' _ hrun =>
        exact ⟨(kmalloc_keepsHeap heapShape_rules (link_keepsHeap heapShape_rules (depth + 1))
          size _ hshape _ _ hrun).1, hsmall⟩
    | @free size ptr depth k' _ hrun =>
        refine ⟨kfree_keepsHeap heapShape_rules (link_keepsHeap heapShape_rules (depth + 1)) ptr _
          hshape _ _ hrun, fun p size' hp hle => ?_⟩
        exact hsmall p size' (List.mem_of_mem_erase hp) hle

/-! ## Allocating and freeing again and again -/

/-- `n` times `p = kmalloc(size); kfree(p);`. -/
def allocFreeLoop (ext : Ext) (size n : Nat) : Prog Kernel Unit :=
  Prog.forLoop (fun _ => do
    let p ← kmalloc ext size
    kfree ext p) 0 n

/-- At least `n` more objects of cache `i` are in use than when it had `slabs`. -/
def InUse (i n : Nat) (slabs : List Slab) (h : Heap) : Prop :=
  freeObjects (h.slabs i) + n + objectsPerSlab i * slabs.length ≤
    freeObjects slabs + objectsPerSlab i * (h.slabs i).length

section InUse

variable {i j n o phys : Nat} {start slabs : List Slab} {h : Heap}

theorem InUse.of_slabs {h' : Heap} (hused : InUse i n start h) (hslabs : h'.slabs i = h.slabs i) :
    InUse i n start h' := by
  rw [InUse, hslabs]
  exact hused

/-- Taking an object of the cache puts one more in use. -/
theorem InUse.object (hused : InUse i n start h) (hpop : popFree (h.slabs i) = some (o, slabs)) :
    InUse i (n + 1) start (h.setSlabs i slabs) := by
  obtain ⟨hcount, hlength⟩ := popFree_count hpop
  rw [InUse] at hused
  rw [InUse, h.setSlabs_self, hlength]
  omega

/-- So does taking one of a new slab. -/
theorem InUse.slab (hused : InUse i n start h)
    (hpop : popFree (initSlab (convertToVirAddr phys) (cacheObjectSize i) :: h.slabs i) =
      some (o, slabs)) : InUse i (n + 1) start (h.setSlabs i slabs) := by
  obtain ⟨hcount, hlength⟩ := popFree_count hpop
  rw [freeObjects, initSlab_count] at hcount
  rw [List.length_cons] at hlength
  rw [InUse] at hused
  rw [InUse, h.setSlabs_self, hlength, Nat.mul_succ]
  omega

theorem InUse.weaken (hused : InUse i (n + 1) start h) : InUse i n start h := by
  rw [InUse] at hused ⊢
  omega

/-- No change of the heap takes an object out of use. -/
theorem inUse_rules (i n : Nat) (start : List Slab) :
    HeapRules (fun h => HeapShape h ∧ InUse i n start h) SlabPlace (fun ptr => ptr % pageSize = 0)
      SmallObject where
  place h hh hroom := by
    obtain ⟨hplace, hshape⟩ := heapShape_rules.place h hh.1 hroom
    exact ⟨hplace, hshape, hh.2.of_slabs rfl⟩
  object h j o slabs hh hpop := by
    obtain ⟨ho, hshape⟩ := heapShape_rules.object h j o slabs hh.1 hpop
    refine ⟨ho, hshape, ?_⟩
    by_cases hj : i = j
    · subst hj
      exact (hh.2.object hpop).weaken
    · exact hh.2.of_slabs (h.setSlabs_ne hj slabs)
  slab h j phys o slabs hh hlt hplace hpop := by
    obtain ⟨ho, hshape⟩ := heapShape_rules.slab h j phys o slabs hh.1 hlt hplace hpop
    refine ⟨ho, hshape, ?_⟩
    by_cases hj : i = j
    · subst hj
      exact (hh.2.slab hpop).weaken
    · exact hh.2.of_slabs (h.setSlabs_ne hj slabs)
  large h size hh := by
    obtain ⟨hnext, hshape⟩ := heapShape_rules.large h size hh.1
    exact ⟨hnext, hshape, hh.2.of_slabs rfl⟩
  insert h alloc hh hptr := ⟨heapShape_rules.insert h alloc hh.1 hptr, hh.2.of_slabs rfl⟩
  remove h ptr hh := ⟨heapShape_rules.remove h ptr hh.1, hh.2.of_slabs rfl⟩

end InUse

section Loop

variable {ext : Ext} {i size : Nat} {start : List Slab}
  (hext : ∀ n, ext.KeepsHeap (fun h => HeapShape h ∧ InUse i n start h) SmallObject)
  (hsize : size ≤ maxCacheSize) (hcache : getCache size = some i)

include hext hsize hcache

/-- One round: an object is taken, and `kfree` does nothing. -/
theorem allocFree_round (n : Nat) :
    Triple (HeapHas fun h => HeapShape h ∧ InUse i n start h)
      (kmalloc ext size >>= fun p => kfree ext p)
      fun _ => HeapHas fun h => HeapShape h ∧ InUse i (n + 1) start h := by
  have hmalloc : Triple (HeapHas fun h => HeapShape h ∧ InUse i n start h) (kmalloc ext size)
      fun r k => HeapHas (fun h => HeapShape h ∧ InUse i (n + 1) start h) k ∧ SmallObject r := by
    rw [kmalloc, if_neg (Nat.not_lt.mpr hsize), hcache]
    refine allocFromCache_triple (inUse_rules i n start) (hext n) (getCache_eq_some hcache).1 ?_ ?_
    · intro h o slabs hh hpop
      obtain ⟨ho, hshape⟩ := heapShape_rules.object h i o slabs hh.1 hpop
      exact ⟨ho, hshape, hh.2.object hpop⟩
    · intro h phys o slabs hh hplace hpop
      obtain ⟨ho, hshape⟩ :=
        heapShape_rules.slab h i phys o slabs hh.1 (getCache_eq_some hcache).1 hplace hpop
      exact ⟨ho, hshape, hh.2.slab hpop⟩
  refine Triple.bind hmalloc fun p => ?_
  rintro k ⟨hk, hp⟩ _ k' heq
  rw [kfree_smallObject hk.1 hp] at heq
  cases heq
  exact hk

theorem allocFreeLoop_inUse (n : Nat) : Triple (HeapHas fun h => HeapShape h ∧ InUse i 0 start h)
    (allocFreeLoop ext size n) fun _ => HeapHas fun h => HeapShape h ∧ InUse i n start h := by
  have hloop := Triple.forLoop (I := fun j => HeapHas fun h => HeapShape h ∧ InUse i j start h)
    (fun j => allocFree_round hext hsize hcache j) n 0
  rw [Nat.zero_add] at hloop
  exact hloop

end Loop

/-! ## No small block is put back -/

/-- `kfree` put `p` on the free list of the slab in whose page it is, and changed no
other slab of that cache. -/
def PutsBack (k : Kernel) (p : Nat) (k' : Kernel) : Prop :=
  ∃ i before slab after, k.heap.slabs i = before ++ slab :: after ∧
    slab.addr = p / pageSize * pageSize ∧
    k'.heap.slabs i = before ++ { slab with freeList := p :: slab.freeList } :: after

theorem not_putsBack_self (k : Kernel) (p : Nat) : ¬ PutsBack k p k := by
  rintro ⟨i, before, slab, after, hslabs, _, hslabs'⟩
  rw [hslabs] at hslabs'
  have hslab : slab = { slab with freeList := p :: slab.freeList } :=
    (List.cons.inj (List.append_cancel_left hslabs')).1
  have hlength := congrArg (fun s => s.freeList.length) hslab
  simp only [List.length_cons] at hlength
  omega

/-- In every reachable state `kfree` of a live small block leaves the state as it is,
so the block is not put back; and repeating `kmalloc` and `kfree` makes as many slabs
as the blocks need that are never used again. -/
theorem small_free_never {s : HeapState} (hs : heapCalls.Reachable s) {p size : Nat}
    (hlive : (p, size) ∈ s.live) (hsize : size ≤ maxCacheSize) :
    (∀ ext k', kfree ext p s.kernel = .ok ((), k') ↔ k' = s.kernel) ∧
    (∀ ext k', kfree ext p s.kernel = .ok ((), k') → ¬ PutsBack s.kernel p k') ∧
    ∀ i depth n k', getCache size = some i →
      allocFreeLoop (link depth) size n s.kernel = .ok ((), k') →
      objectsPerSlab i + freeObjects (s.kernel.heap.slabs i) < n →
      (s.kernel.heap.slabs i).length + 2 ≤ (k'.heap.slabs i).length := by
  obtain ⟨hshape, hsmall⟩ := heapCalls_smallBlocks s hs
  have hfree (ext : Ext) := @kfree_smallObject ext _ _ hshape (hsmall p size hlive hsize)
  refine ⟨fun ext k' => ?_, fun ext k' hrun => ?_, fun i depth n k' hcache hrun hn => ?_⟩
  · rw [hfree]
    constructor
    · intro heq
      cases heq
      rfl
    · rintro rfl
      rfl
  · rw [hfree] at hrun
    cases hrun
    exact not_putsBack_self _ _
  · have hstart : InUse i 0 (s.kernel.heap.slabs i) s.kernel.heap := Nat.le_refl _
    have hloop := allocFreeLoop_inUse
      (fun m => link_keepsHeap (inUse_rules i m (s.kernel.heap.slabs i)) depth) hsize hcache n
    have hused : InUse i n (s.kernel.heap.slabs i) k'.heap :=
      (hloop _ ⟨hshape, hstart⟩ _ _ hrun).2
    rw [InUse] at hused
    -- with one more slab or none, all its objects would not have been enough
    refine Classical.byContradiction fun hfew => ?_
    have hle : (k'.heap.slabs i).length ≤ (s.kernel.heap.slabs i).length + 1 := by omega
    have hmul := Nat.mul_le_mul_left (objectsPerSlab i) hle
    rw [Nat.mul_succ] at hmul
    omega

/-- A run can reach a state with a live small block: one call after `init_kmalloc`. -/
theorem heapCalls_smallBlock : ∃ s p, heapCalls.Reachable s ∧ s.live = [(p, 16)] := by
  obtain ⟨s, p, k, hinit, _, hstep⟩ := bootedCalls_block (by decide : 16 ≤ maxCacheSize)
  exact ⟨_, p, (bootedCalls_reachable (.init hinit)).step hstep, rfl⟩

/-- That block. -/
theorem small_free_never_block : ∃ s p, heapCalls.Reachable s ∧ (p, 16) ∈ s.live ∧
    (∀ ext k', kfree ext p s.kernel = .ok ((), k') → ¬ PutsBack s.kernel p k') ∧
    ∀ i depth n k', getCache 16 = some i →
      allocFreeLoop (link depth) 16 n s.kernel = .ok ((), k') →
      objectsPerSlab i + freeObjects (s.kernel.heap.slabs i) < n →
      (s.kernel.heap.slabs i).length + 2 ≤ (k'.heap.slabs i).length := by
  obtain ⟨s, p, hs, hlive⟩ := heapCalls_smallBlock
  have hmem : (p, 16) ∈ s.live := by
    rw [hlive]
    exact List.mem_singleton_self _
  exact ⟨s, p, hs, hmem, (small_free_never hs hmem (by decide)).2⟩

/-- `kfree` of a block that was just allocated does not put it back. -/
theorem small_free_lost : ∃ s p, heapCalls.Reachable s ∧ (p, 16) ∈ s.live ∧
    ∃ k', kfree (link 1) p s.kernel = .ok ((), k') ∧ ¬ PutsBack s.kernel p k' := by
  obtain ⟨s, p, hs, hlive⟩ := heapCalls_smallBlock
  obtain ⟨hshape, hsmall⟩ := heapCalls_smallBlocks s hs
  have hmem : (p, 16) ∈ s.live := by
    rw [hlive]
    exact List.mem_singleton_self _
  exact ⟨s, p, hs, hmem, s.kernel, kfree_smallObject hshape (hsmall p 16 hmem (by decide)),
    not_putsBack_self _ _⟩

end MyOs
