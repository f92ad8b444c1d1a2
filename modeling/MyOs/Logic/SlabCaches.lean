import MyOs.Logic.HeapLists
import MyOs.Logic.SlabPage
import MyOs.Memory.SlabCaches

/-!
# The caches as lists

What the bytes of the slabs mean: each cache is a list of slabs with their free objects,
as the rest of the development has it (`Heap`). One lemma for each function of the
caches says what it does to the lists, and which bytes it does not touch.
-/

namespace MyOs

/-! ## The bytes of a slab -/

namespace SlabPage

variable {slab s a : Nat} {mem mem' : ByteStore} {free : List Nat}

theorem store32_outside {w b : Nat} (h : a < b ∨ b + 4 ≤ a) : mem.store32 b w a = mem a :=
  ByteStore.store_outside h

/-- A slab depends on the bytes of its page. -/
theorem represents_page (h : Represents mem slab free) (hplaces : ∀ o ∈ free, o ∈ objects slab s)
    (hs : 4 ≤ s) (hsame : ∀ a, slab ≤ a → a < slab + pageSize → mem' a = mem a) :
    Represents mem' slab free := by
  have hword : ∀ a, slab ≤ a → a + 4 ≤ slab + pageSize → mem'.load32 a = mem.load32 a :=
    fun a hlo hhi => ByteStore.load32_congr fun i hi => hsame _ (by omega) (by omega)
  refine h.congr (hword _ ?_ ?_) (hword _ ?_ ?_) fun o ho => ?_
  · exact Nat.le_add_right slab 4
  · simp only [freeList, pageSize]
    omega
  · exact Nat.le_add_right slab 12
  · simp only [freeCount, pageSize]
    omega
  · have hinside := object_inside (hplaces o ho)
    simp only [data, slabDataOffset, slabDataSize] at hinside
    exact hword o (by omega) (by simp only [pageSize]; omega)

/-- `alloc_from_slab` changes words of the header only. -/
theorem allocFromSlab_outside (h : a < slab + 4 ∨ slab + 16 ≤ a) :
    (allocFromSlab slab mem).2 a = mem a := by
  rw [allocFromSlab]
  split
  · rfl
  · change ByteStore.store32 (mem.store32 (freeList slab) _) (freeCount slab) _ a = mem a
    rw [store32_outside (by simp only [freeCount]; omega),
      store32_outside (by simp only [freeList]; omega)]

/-- The last object the loop of `init_slab` reaches. -/
theorem initSlabLoop_fst (turns k : Nat) (mem : ByteStore) :
    (initSlabLoop slab s turns (k + 1) (data slab + k * s) mem).1 =
      data slab + (k + turns) * s := by
  induction turns generalizing k mem with
  | zero => rfl
  | succ turns ih =>
      rw [initSlabLoop, ih (k + 1), show k + 1 + turns = k + (turns + 1) by omega]

/-- The loop changes objects only. -/
theorem initSlabLoop_outside (hs : 4 ≤ s) (turns k : Nat) (mem : ByteStore)
    (hfit : (k + turns + 1) * s ≤ slabDataSize) (h : a < data slab ∨ data slab + slabDataSize ≤ a) :
    (initSlabLoop slab s turns (k + 1) (data slab + k * s) mem).2 a = mem a := by
  induction turns generalizing k mem with
  | zero => rfl
  | succ turns ih =>
      have hobject : (k + 1) * s ≤ slabDataSize :=
        (Nat.mul_le_mul_right s (by omega)).trans hfit
      rw [Nat.add_one_mul] at hobject
      have hrest : (k + 1 + turns + 1) * s ≤ slabDataSize := by
        rwa [show k + 1 + turns + 1 = k + (turns + 1) + 1 by omega]
      rw [initSlabLoop, ih (k + 1) _ hrest, store32_outside (by omega)]

/-- `init_slab` stays inside the page, and leaves `next` and `object_size` alone. -/
theorem initSlab_outside (hs : 4 ≤ s) (hs' : s ≤ slabDataSize) (hpage : slab + pageSize ≤ 2 ^ 32)
    (h : a < slab + 4 ∨ slab + 16 ≤ a ∧ a < slab + 20 ∨ slab + pageSize ≤ a) :
    initSlab slab s mem a = mem a := by
  obtain ⟨n, hn⟩ : ∃ n, slabDataSize / s = n + 1 :=
    Nat.exists_eq_add_one.mpr (Nat.div_pos hs' (by omega))
  have hfit : (n + 1) * s ≤ slabDataSize := hn ▸ Nat.div_mul_le_self slabDataSize s
  have hdata : data slab = slab + 20 := rfl
  have hlist : ((mem.store32 (freeCount slab) (n + 1)).store32 (freeList slab)
      (data slab)).load32 (freeList slab) = data slab + 0 * s := by
    rw [ByteStore.load32_store32 (by simp only [pageSize] at hpage; omega), Nat.zero_mul,
      Nat.add_zero]
  have hlast : ∀ mem, (initSlabLoop slab s n (0 + 1) (data slab + 0 * s) mem).1 =
      data slab + (0 + n) * s := initSlabLoop_fst n 0
  rw [Nat.add_one_mul, slabDataSize] at hfit
  simp only [pageSize] at h hpage
  simp only [initSlab, hn, Nat.add_sub_cancel, hlist]
  rw [hlast, Nat.zero_add, store32_outside (by omega), initSlabLoop_outside hs n 0 _
    (by rw [Nat.zero_add, Nat.add_one_mul]; exact hfit) (by simp only [slabDataSize]; omega),
    store32_outside (by simp only [freeList]; omega),
    store32_outside (by simp only [freeCount]; omega)]

end SlabPage

/-! ## The search -/

namespace SlabCaches

open SlabPage

variable {mem : ByteStore} {slabs slabs' : List Slab} {first o : Nat}

/-- The cache's list is in memory from `first` on, with the free objects of each slab. -/
structure Visits (mem : ByteStore) (first : Nat) (slabs : List Slab) : Prop where
  links : Chained (linkAt mem 16) (pointer first) (slabs.map Slab.addr)
  pages : ∀ s ∈ slabs, Represents mem s.addr s.freeList
  places : ∀ s ∈ slabs, ∀ a ∈ s.freeList, a ∈ objects s.addr s.objectSize

theorem Visits.tail {s : Slab} (h : Visits mem first (s :: slabs)) :
    first = s.addr ∧ first ≠ 0 ∧ Visits mem (mem.load32 (next s.addr)) slabs := by
  obtain ⟨hfirst, hrest⟩ := h.links
  obtain ⟨rfl, hpos⟩ := pointer_eq_some.mp hfirst
  exact ⟨rfl, Nat.ne_of_gt hpos, hrest, fun t ht => h.pages t (List.mem_cons_of_mem s ht),
    fun t ht => h.places t (List.mem_cons_of_mem s ht)⟩

/-- More turns do not change what the search returns. -/
theorem searchLoop_more {fuel n : Nat} {r : Nat × ByteStore}
    (h : searchLoop fuel first mem = some r) : searchLoop (fuel + n) first mem = some r := by
  induction fuel generalizing first mem with
  | zero => cases h
  | succ fuel ih =>
      rw [Nat.add_right_comm, searchLoop]
      rw [searchLoop] at h
      by_cases hnull : first = 0
      · rw [if_pos hnull] at h ⊢
        exact h
      · rw [if_neg hnull] at h ⊢
        by_cases hfound : (allocFromSlab first mem).1 ≠ 0
        · simp only [if_pos hfound] at h ⊢
          exact h
        · simp only [if_neg hfound] at h ⊢
          exact ih h

theorem searchLoop_agree {fuel fuel' : Nat} {r r' : Nat × ByteStore}
    (h : searchLoop fuel first mem = some r) (h' : searchLoop fuel' first mem = some r') :
    r = r' := by
  have hmore := searchLoop_more (n := fuel') h
  rw [Nat.add_comm, searchLoop_more h'] at hmore
  exact (Option.some.inj hmore).symm

/-- The object is that of the first slab with a free one. -/
theorem searchLoop_found (hv : Visits mem first slabs) (hpop : popFree slabs = some (o, slabs'))
    {fuel : Nat} (hfuel : slabs.length < fuel) : o ≠ 0 ∧ ∃ before slab free after,
      slabs = before ++ slab :: after ∧ slab.freeList = o :: free ∧
        slabs' = before ++ { slab with freeList := free } :: after ∧
          searchLoop fuel first mem = some (o, (allocFromSlab slab.addr mem).2) := by
  induction slabs generalizing first fuel slabs' with
  | nil => cases hpop
  | cons s rest ih =>
      obtain ⟨fuel, rfl⟩ := Nat.exists_eq_add_one.mpr (Nat.zero_lt_of_lt hfuel)
      obtain ⟨rfl, hne, htail⟩ := hv.tail
      have hrep := hv.pages s List.mem_cons_self
      rw [popFree] at hpop
      cases hfree : s.freeList with
      | nil =>
          rw [hfree] at hpop hrep
          obtain ⟨⟨o', rest'⟩, hrest, heq⟩ := Option.map_eq_some_iff.mp hpop
          cases heq
          obtain ⟨ho, before, slab, free, after, rfl, hslab, rfl, hrun⟩ :=
            ih htail hrest (Nat.lt_of_succ_lt_succ hfuel)
          refine ⟨ho, s :: before, slab, free, after, rfl, hslab, rfl, ?_⟩
          rw [searchLoop, if_neg hne, alloc_null hrep]
          simp only [ne_eq, not_true_eq_false, if_false]
          exact hrun
      | cons o' free =>
          rw [hfree] at hpop hrep
          cases hpop
          have hplaces := hv.places s List.mem_cons_self
          rw [hfree] at hplaces
          obtain ⟨hpos, mem', hrun, _⟩ :=
            alloc_object hrep fun a ha => hplaces a (List.mem_cons_of_mem o ha)
          refine ⟨Nat.ne_of_gt hpos, [], s, free, rest, rfl, hfree, rfl, ?_⟩
          rw [searchLoop, if_neg hne, hrun]
          exact if_pos (Nat.ne_of_gt hpos)

/-- There is none when no slab of the cache has one. -/
theorem searchLoop_null (hv : Visits mem first slabs) (hpop : popFree slabs = none) {fuel : Nat}
    (hfuel : slabs.length < fuel) : searchLoop fuel first mem = some (0, mem) := by
  induction slabs generalizing first fuel with
  | nil =>
      obtain ⟨fuel, rfl⟩ := Nat.exists_eq_add_one.mpr (Nat.zero_lt_of_lt hfuel)
      rw [searchLoop, if_pos (pointer_eq_none.mp hv.links)]
  | cons s rest ih =>
      obtain ⟨fuel, rfl⟩ := Nat.exists_eq_add_one.mpr (Nat.zero_lt_of_lt hfuel)
      obtain ⟨rfl, hne, htail⟩ := hv.tail
      have hrep := hv.pages s List.mem_cons_self
      rw [popFree] at hpop
      cases hfree : s.freeList with
      | cons o free =>
          rw [hfree] at hpop
          cases hpop
      | nil =>
          rw [hfree] at hpop hrep
          rw [searchLoop, if_neg hne, alloc_null hrep]
          simp only [ne_eq, not_true_eq_false, if_false]
          exact ih htail (Option.map_eq_none_iff.mp hpop) (Nat.lt_of_succ_lt_succ hfuel)

/-! ## A new slab -/

section SetUp

variable {i slab a : Nat}

theorem cacheObjectSize_ge (i : Nat) : 4 ≤ cacheObjectSize i := by
  have hpos : 0 < 2 ^ i := Nat.two_pow_pos i
  rw [cacheObjectSize]
  omega

theorem setUpSlab_represents (hi : i < numCaches) (hpage : slab + pageSize ≤ 2 ^ 32)
    (mem : ByteStore) :
    Represents (setUpSlab slab (cacheObjectSize i) mem) slab (slabObjects i slab) :=
  initSlab_represents (cacheObjectSize_ge i) (cacheObjectSize_le hi) hpage _

/-- The page's bytes are all that changes. -/
theorem setUpSlab_outside (hi : i < numCaches) (hpage : slab + pageSize ≤ 2 ^ 32)
    (h : a < slab ∨ slab + pageSize ≤ a) : setUpSlab slab (cacheObjectSize i) mem a = mem a := by
  simp only [pageSize] at h
  rw [setUpSlab, initSlab_outside (cacheObjectSize_ge i) (cacheObjectSize_le hi) hpage
    (by simp only [pageSize]; omega)]
  rw [store32_outside (by simp only [next]; omega), store32_outside (by simp only [offset]; omega),
    store32_outside (by omega)]

/-- The slab is the last one of its list at first. -/
theorem setUpSlab_next (hi : i < numCaches) (hpage : slab + pageSize ≤ 2 ^ 32) :
    (setUpSlab slab (cacheObjectSize i) mem).load32 (next slab) = 0 := by
  have hsame : (setUpSlab slab (cacheObjectSize i) mem).load32 (next slab) =
      (((mem.store32 slab (cacheObjectSize i)).store32 (offset slab) 0).store32 (next slab)
        0).load32 (next slab) :=
    ByteStore.load32_congr fun j hj => initSlab_outside (cacheObjectSize_ge i)
      (cacheObjectSize_le hi) hpage (.inr (.inl ⟨by simp only [next]; omega, by simp only [next]; omega⟩))
  rw [hsame, ByteStore.load32_store32 (by decide)]

/-- A slab does not depend on its link. -/
theorem represents_next {free : List Nat} (h : Represents mem slab free)
    (hplaces : ∀ o ∈ free, o ∈ slabObjects i slab) (w : Nat) :
    Represents (mem.store32 (next slab) w) slab free := by
  refine h.congr ?_ ?_ fun o ho => ?_
  · exact ByteStore.load32_store32_ne (.inr (by simp only [freeList, next]; omega))
  · exact ByteStore.load32_store32_ne (.inr (by simp only [freeCount, next]; omega))
  · have hinside := (object_inside (hplaces o ho)).1
    simp only [data, slabDataOffset] at hinside
    exact ByteStore.load32_store32_ne (.inl (by simp only [next]; omega))

end SetUp
end SlabCaches
end MyOs
