import MyOs.Logic.HeapKeeps

/-!
# The shape of the heap

Free objects are where slabs have theirs and large blocks start on page boundaries
(`HeapShape`), whatever the memory manager does. `kfree` does not find a small block;
and the objects of a cache are counted, those that are free and those its slabs have.
-/

namespace MyOs

open Prog

/-- Where `create_slab` takes a slab's frame from. -/
def SlabPlace (phys : Nat) : Prop :=
  kernelBaseHeapAddr ≤ phys ∧ phys ≤ kernelBaseHeapAddr + kernelHeapSize ∧ phys % pageSize = 0

/-- The address of an object of a slab: at or above twice the heap's base, and four
bytes above a multiple of sixteen. -/
def SmallObject (o : Nat) : Prop := 2 * kernelBaseHeapAddr ≤ o ∧ o % 16 = 4

/-- The free objects are where slabs have theirs, and the large blocks start on page
boundaries. -/
structure HeapShape (h : Heap) : Prop where
  heap_low : kernelBaseHeapAddr ≤ h.currentHeapAddr
  heap_aligned : h.currentHeapAddr % pageSize = 0
  objects : ∀ i, ∀ slab ∈ h.slabs i, ∀ o ∈ slab.freeList, SmallObject o
  large_next : h.currentLargeHeapAddr % pageSize = 0
  large : ∀ a ∈ h.largeAllocations, a.ptr % pageSize = 0

theorem initSlab_objects {phys i : Nat} (h : SlabPlace phys) :
    ∀ o ∈ (initSlab (convertToVirAddr phys) (cacheObjectSize i)).freeList, SmallObject o := by
  intro o ho
  obtain ⟨n, _, rfl⟩ := List.mem_map.mp ho
  obtain ⟨hlow, hhigh, haligned⟩ := h
  rw [kernelHeapSize_eq] at hhigh
  rw [kernelBaseHeapAddr_eq] at hlow hhigh
  have haddr : convertToVirAddr phys = phys + 0x4000000 := by
    rw [convertToVirAddr, kernelBaseHeapAddr_eq, u32_of_lt (by omega)]
  have hsize : n * cacheObjectSize i = n * 2 ^ i * 16 := by
    rw [cacheObjectSize, Nat.mul_comm 16, Nat.mul_assoc]
  rw [SmallObject, kernelBaseHeapAddr_eq, haddr, hsize]
  simp only [pageSize, slabDataOffset] at haligned ⊢
  omega

theorem HeapShape.setSlabs {h : Heap} (hshape : HeapShape h) (i : Nat) {slabs : List Slab}
    (hobjects : ∀ slab ∈ slabs, ∀ o ∈ slab.freeList, SmallObject o) :
    HeapShape (h.setSlabs i slabs) := by
  refine { hshape with objects := fun j slab hslab o ho => ?_ }
  by_cases hj : j = i
  · rw [hj, h.setSlabs_self] at hslab
    exact hobjects slab hslab o ho
  · rw [h.setSlabs_ne hj] at hslab
    exact hshape.objects j slab hslab o ho

/-- What the memory manager does to the heap keeps its shape. -/
theorem heapShape_rules :
    HeapRules HeapShape SlabPlace (fun ptr => ptr % pageSize = 0) SmallObject where
  place h hshape hroom := by
    refine ⟨⟨hshape.heap_low, hroom, hshape.heap_aligned⟩, { hshape with
      heap_low := ?_, heap_aligned := ?_ }⟩
    all_goals
      have hlow := hshape.heap_low
      have haligned := hshape.heap_aligned
      rw [kernelHeapSize_eq] at hroom
      rw [kernelBaseHeapAddr_eq] at *
      simp only [pageSize] at *
      rw [u32_of_lt (by omega)]
      omega
  object h i o slabs hshape hpop := by
    obtain ⟨⟨slab, hslab, ho⟩, hsub⟩ := popFree_mem hpop
    refine ⟨hshape.objects i slab hslab o ho, hshape.setSlabs i fun slab' hslab' o' ho' => ?_⟩
    obtain ⟨old, hold, hfree⟩ := hsub slab' hslab'
    exact hshape.objects i old hold o' (hfree o' ho')
  slab h i phys o slabs hshape _ hplace hpop := by
    have hall : ∀ slab ∈ initSlab (convertToVirAddr phys) (cacheObjectSize i) :: h.slabs i,
        ∀ o ∈ slab.freeList, SmallObject o := by
      intro slab hslab
      rcases List.mem_cons.mp hslab with rfl | hold
      · exact initSlab_objects hplace
      · exact hshape.objects i slab hold
    obtain ⟨⟨slab, hslab, ho⟩, hsub⟩ := popFree_mem hpop
    refine ⟨hall slab hslab o ho, hshape.setSlabs i fun slab' hslab' o' ho' => ?_⟩
    obtain ⟨old, hold, hfree⟩ := hsub slab' hslab'
    exact hall old hold o' (hfree o' ho')
  large h size hshape := by
    refine ⟨hshape.large_next, { hshape with large_next := ?_ }⟩
    have hnext := hshape.large_next
    simp only [alignedSize, u32, pageSize] at hnext ⊢
    omega
  insert h alloc hshape hptr := by
    refine { hshape with large := fun a ha => ?_ }
    rcases List.mem_cons.mp ha with rfl | hold
    · exact hptr
    · exact hshape.large a hold
  remove h ptr hshape := { hshape with large := fun a ha => hshape.large a (List.mem_of_mem_eraseP ha) }

/-- `kfree` does not find a small block. -/
theorem kfree_smallObject {ext : Ext} {k : Kernel} {p : Nat} (hshape : HeapShape k.heap)
    (hp : SmallObject p) : kfree ext p k = .ok ((), k) := by
  obtain ⟨hlow, hmod⟩ := hp
  have hwindow : isSlabWindow p = false := by
    rw [kernelBaseHeapAddr_eq] at hlow
    rw [isSlabWindow, kernelBaseHeapAddr_eq, kernelHeapSize_eq, Bool.and_eq_false_iff]
    exact .inr (decide_eq_false (by omega))
  have hnone : k.heap.getLargeAllocByPtr p = none := by
    refine List.find?_eq_none.mpr fun a ha heq => ?_
    have haligned := hshape.large a ha
    rw [of_decide_eq_true heq] at haligned
    simp only [pageSize] at haligned
    omega
  have hne : p ≠ 0 := by
    rintro rfl
    cases hmod
  rw [kfree, if_neg hne, hwindow, if_neg (by decide), kmallocLargeFree, get_bind_apply, hnone]
  rfl

/-! ## Counting objects -/

/-- The objects of a slab of cache `i`. -/
def objectsPerSlab (i : Nat) : Nat := slabDataSize / cacheObjectSize i

/-- The free objects of these slabs: the sum of their `free_count`. -/
def freeObjects : List Slab → Nat
  | [] => 0
  | slab :: rest => slab.freeList.length + freeObjects rest

theorem popFree_count {slabs slabs' : List Slab} {o : Nat} (h : popFree slabs = some (o, slabs')) :
    freeObjects slabs = freeObjects slabs' + 1 ∧ slabs'.length = slabs.length := by
  induction slabs generalizing slabs' with
  | nil => cases h
  | cons slab rest ih =>
      rw [popFree] at h
      split at h
      · next first free hfree =>
          cases h
          simp only [freeObjects, hfree, List.length_cons]
          exact ⟨by omega, trivial⟩
      · obtain ⟨⟨o', rest'⟩, hpop, heq⟩ := Option.map_eq_some_iff.mp h
        cases heq
        obtain ⟨hcount, hlength⟩ := ih hpop
        simp only [freeObjects, List.length_cons]
        omega

theorem initSlab_count (addr i : Nat) :
    (initSlab addr (cacheObjectSize i)).freeList.length = objectsPerSlab i := by
  rw [initSlab, List.length_map, List.length_range]
  rfl

end MyOs
