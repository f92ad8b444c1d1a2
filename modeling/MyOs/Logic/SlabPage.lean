import MyOs.Memory.SlabPage

/-!
# The free list in a slab's page

A page represents a slab when its free list visits the slab's free objects and its count
is their number. Objects lie apart from each other and from the header, so a word written
in one of them leaves the links of the others alone; each function of the slab has one
lemma about what the page represents after it.
-/

namespace MyOs
namespace SlabPage

/-- The objects of a slab: the positions in `data`. -/
def objects (slab s : Nat) : List Nat :=
  (List.range (slabDataSize / s)).map fun i => data slab + i * s

/-- The free list of the page at `slab` visits `free`. -/
structure Represents (mem : ByteStore) (slab : Nat) (free : List Nat) : Prop where
  visits : Chained (linkAt mem 0) (pointer (mem.load32 (freeList slab))) free
  count : mem.load32 (freeCount slab) = free.length

theorem linkAt_zero (mem : ByteStore) (a : Nat) : linkAt mem 0 a = pointer (mem.load32 a) := rfl

section Objects

variable {slab s o o' : Nat}

theorem mem_objects : o ∈ objects slab s ↔ ∃ i, i < slabDataSize / s ∧ o = data slab + i * s := by
  simp only [objects, List.mem_map, List.mem_range, eq_comm]

/-- An object lies wholly inside `data`. -/
theorem object_inside (h : o ∈ objects slab s) :
    data slab ≤ o ∧ o + s ≤ data slab + slabDataSize := by
  obtain ⟨i, hi, rfl⟩ := mem_objects.mp h
  have hend : (i + 1) * s ≤ slabDataSize := (Nat.mul_le_mul_right s hi).trans (Nat.div_mul_le_self _ s)
  rw [Nat.add_one_mul] at hend
  omega

theorem objects_apart (h : o ∈ objects slab s) (h' : o' ∈ objects slab s) (hne : o ≠ o') :
    o + s ≤ o' ∨ o' + s ≤ o := by
  obtain ⟨i, _, rfl⟩ := mem_objects.mp h
  obtain ⟨j, _, rfl⟩ := mem_objects.mp h'
  rcases Nat.lt_trichotomy i j with hij | rfl | hji
  · have hmul : (i + 1) * s ≤ j * s := Nat.mul_le_mul_right s hij
    rw [Nat.add_one_mul] at hmul
    omega
  · exact absurd rfl hne
  · have hmul : (j + 1) * s ≤ i * s := Nat.mul_le_mul_right s hji
    rw [Nat.add_one_mul] at hmul
    omega

theorem objects_nodup (hs : 0 < s) : (objects slab s).Nodup := by
  refine List.nodup_range.map fun i j h => ?_
  have hmul : i * s = j * s := Nat.add_left_cancel h
  exact Nat.eq_of_mul_eq_mul_right hs hmul

end Objects

/-! ## `init_slab` -/

section Init

variable {slab s : Nat}

/-- The loop links each object it leaves to the next one. -/
theorem initSlabLoop_spec (hs : 4 ≤ s) (turns : Nat) :
    ∀ (k : Nat) (mem : ByteStore), data slab + (k + turns) * s < 2 ^ 32 →
      ∃ mem', initSlabLoop slab s turns (k + 1) (data slab + k * s) mem =
          (data slab + (k + turns) * s, mem') ∧
        (∀ j, k ≤ j → j < k + turns → mem'.load32 (data slab + j * s) = data slab + (j + 1) * s) ∧
        ∀ a, a + 4 ≤ data slab + k * s → mem'.load32 a = mem.load32 a := by
  induction turns with
  | zero =>
      intro k mem _
      exact ⟨mem, rfl, fun j hj hjk => absurd hjk (by omega), fun _ _ => rfl⟩
  | succ turns ih =>
      intro k mem hfit
      rw [show k + (turns + 1) = k + 1 + turns by omega] at hfit ⊢
      have hnext : data slab + (k + 1) * s < 2 ^ 32 := by
        have hmul : (k + 1) * s ≤ (k + 1 + turns) * s := Nat.mul_le_mul_right s (by omega)
        omega
      have hstep : (k + 1) * s = k * s + s := Nat.add_one_mul k s
      obtain ⟨mem', hrun, hlinks, hbelow⟩ :=
        ih (k + 1) (mem.store32 (data slab + k * s) (data slab + (k + 1) * s)) hfit
      refine ⟨mem', hrun, fun j hj hjk => ?_, fun a ha => ?_⟩
      · rcases Nat.eq_or_lt_of_le hj with rfl | hlt
        · rw [hbelow _ (by omega), ByteStore.load32_store32 hnext]
        · exact hlinks j hlt hjk
      · rw [hbelow a (by omega), ByteStore.load32_store32_ne (.inr ha)]

/-- They are the free objects of a fresh slab in the list model. -/
theorem objects_eq_initSlab : objects slab s = (MyOs.initSlab slab s).freeList := rfl

/-- After `init_slab` every object is free, in order. -/
theorem initSlab_represents (hs : 4 ≤ s) (hs' : s ≤ slabDataSize)
    (hpage : slab + pageSize ≤ 2 ^ 32) (mem : ByteStore) :
    Represents (initSlab slab s mem) slab (objects slab s) := by
  obtain ⟨n, hn⟩ : ∃ n, slabDataSize / s = n + 1 :=
    Nat.exists_eq_add_one.mpr (Nat.div_pos hs' (by omega))
  have hdata : data slab = slab + 20 := rfl
  have hlist : freeList slab = slab + 4 := rfl
  have hcount : freeCount slab = slab + 12 := rfl
  have hfit : (n + 1) * s ≤ 4076 := hn ▸ Nat.div_mul_le_self slabDataSize s
  have hn' : n + 1 ≤ 4076 := (Nat.le_mul_of_pos_right (n + 1) (by omega)).trans hfit
  rw [Nat.add_one_mul] at hfit
  rw [pageSize] at hpage
  obtain ⟨mem₂, hmem₂⟩ : ∃ mem₂ : ByteStore,
    mem₂ = (mem.store32 (freeCount slab) (n + 1)).store32 (freeList slab) (data slab) := ⟨_, rfl⟩
  have hlist₂ : mem₂.load32 (freeList slab) = data slab := by
    rw [hmem₂, ByteStore.load32_store32 (by omega)]
  have hcount₂ : mem₂.load32 (freeCount slab) = n + 1 := by
    rw [hmem₂, ByteStore.load32_store32_ne (by omega), ByteStore.load32_store32 (by omega)]
  obtain ⟨mem₃, hrun, hlinks, hbelow⟩ :=
    @initSlabLoop_spec slab s hs n 0 mem₂ (by rw [Nat.zero_add]; omega)
  simp only [Nat.zero_mul, Nat.add_zero, Nat.zero_add] at hrun hbelow
  have hinit : initSlab slab s mem = mem₃.store32 (data slab + n * s) 0 := by
    rw [initSlab, hn]
    simp only [Nat.add_sub_cancel, ← hmem₂, hlist₂]
    rw [hrun]
  have hheader {a : Nat} (ha : a + 4 ≤ data slab) :
      (initSlab slab s mem).load32 a = mem₂.load32 a := by
    rw [hinit, ByteStore.load32_store32_ne (.inr (by omega)), hbelow a (by omega)]
  refine ⟨?_, ?_⟩
  · rw [hheader (by omega), hlist₂, pointer_of_pos (by omega), objects, hn, List.range_eq_range']
    have hchain := @Chained.of_range _ (linkAt (initSlab slab s mem) 0)
      (fun i => data slab + i * s) n 0
    simp only [Nat.zero_mul, Nat.add_zero, Nat.zero_add] at hchain
    refine hchain (fun j _ hj => ?_) ?_
    · -- a link of the loop, below the end mark
      have hmul : (j + 1) * s ≤ n * s := Nat.mul_le_mul_right s hj
      rw [Nat.add_one_mul] at hmul
      rw [linkAt, Nat.add_zero, hinit, ByteStore.load32_store32_ne (.inr (by omega)),
        hlinks j (Nat.zero_le j) (by omega), pointer_of_pos (by omega)]
    · rw [linkAt, Nat.add_zero, hinit, ByteStore.load32_store32 (by decide)]
      rfl
  · rw [hheader (by omega), hcount₂, objects, hn, List.length_map, List.length_range]

end Init

/-! ## The header's words and the objects' -/

section Words

variable {slab s o w : Nat} {mem : ByteStore}

theorem freeCount_store_list : (mem.store32 (freeList slab) w).load32 (freeCount slab) =
    mem.load32 (freeCount slab) := by
  apply ByteStore.load32_store32_ne
  simp only [freeList, freeCount]
  omega

theorem freeList_store_count : (mem.store32 (freeCount slab) w).load32 (freeList slab) =
    mem.load32 (freeList slab) := by
  apply ByteStore.load32_store32_ne
  simp only [freeList, freeCount]
  omega

/-- The header's words are below the objects. -/
theorem freeCount_le (ho : o ∈ objects slab s) : freeCount slab + 4 ≤ o := by
  have hinside := (object_inside ho).1
  simp only [data, slabDataOffset] at hinside
  simp only [freeCount]
  omega

theorem freeCount_store_object (ho : o ∈ objects slab s) :
    (mem.store32 o w).load32 (freeCount slab) = mem.load32 (freeCount slab) :=
  ByteStore.load32_store32_ne (.inr (freeCount_le ho))

theorem object_store_count (ho : o ∈ objects slab s) :
    (mem.store32 (freeCount slab) w).load32 o = mem.load32 o :=
  ByteStore.load32_store32_ne (.inl (freeCount_le ho))

theorem object_store_list (ho : o ∈ objects slab s) :
    (mem.store32 (freeList slab) w).load32 o = mem.load32 o := by
  have hbelow := freeCount_le ho
  apply ByteStore.load32_store32_ne
  simp only [freeCount] at hbelow
  simp only [freeList]
  omega

end Words

/-! ## `alloc_from_slab` and `slab_free` -/

section Calls

variable {slab s o : Nat} {mem mem' : ByteStore} {free : List Nat}

theorem Represents.congr (h : Represents mem slab free)
    (hlist : mem'.load32 (freeList slab) = mem.load32 (freeList slab))
    (hcount : mem'.load32 (freeCount slab) = mem.load32 (freeCount slab))
    (hlinks : ∀ a ∈ free, mem'.load32 a = mem.load32 a) : Represents mem' slab free where
  visits := by
    rw [hlist]
    exact h.visits.congr fun a ha => congrArg pointer (hlinks a ha)
  count := hcount.trans h.count

theorem alloc_null (h : Represents mem slab []) : allocFromSlab slab mem = (0, mem) :=
  if_pos h.count

/-- The first free object is handed out, and the list goes on with its link. -/
theorem alloc_object {rest : List Nat} (h : Represents mem slab (o :: rest))
    (hplaces : ∀ a ∈ rest, a ∈ objects slab s) :
    0 < o ∧ ∃ mem', allocFromSlab slab mem = (o, mem') ∧ Represents mem' slab rest := by
  obtain ⟨hfirst, hvisits⟩ := h.visits
  obtain ⟨hlist, hpos⟩ := pointer_eq_some.mp hfirst
  have hcount := h.count
  have hlt := mem.load32_lt (freeCount slab)
  rw [List.length_cons] at hcount
  have hcount₁ : (mem.store32 (freeList slab) (mem.load32 o)).load32 (freeCount slab) =
      rest.length + 1 := freeCount_store_list.trans hcount
  have hless : sub32 (rest.length + 1) 1 = rest.length := by
    rw [sub32_of_le (by omega) (by omega), Nat.add_sub_cancel]
  have hrun : allocFromSlab slab mem = (o,
      (mem.store32 (freeList slab) (mem.load32 o)).store32 (freeCount slab) rest.length) := by
    rw [allocFromSlab, if_neg (by omega)]
    simp only [hlist, hcount₁, hless]
  refine ⟨hpos, _, hrun, ?_, ?_⟩
  · rw [freeList_store_count, ByteStore.load32_store32 (mem.load32_lt o)]
    refine Chained.congr hvisits fun a ha => congrArg pointer ?_
    show ByteStore.load32 _ a = mem.load32 a
    rw [object_store_count (hplaces a ha), object_store_list (hplaces a ha)]
  · exact ByteStore.load32_store32 (by omega)

/-- The page does what the slab of the list model does. -/
theorem allocFromSlab_refines {l : Slab} (h : Represents mem l.addr l.freeList)
    (hplaces : ∀ a ∈ l.freeList, a ∈ objects l.addr l.objectSize) :
    match popFree [l] with
    | none => allocFromSlab l.addr mem = (0, mem)
    | some (object, rest) => ∃ mem', allocFromSlab l.addr mem = (object, mem') ∧
        ∀ l' ∈ rest, Represents mem' l'.addr l'.freeList := by
  obtain ⟨addr, s, free⟩ := l
  cases free with
  | nil => exact alloc_null h
  | cons o rest =>
      obtain ⟨_, mem', hrun, hrep⟩ :=
        alloc_object h fun a ha => hplaces a (List.mem_cons_of_mem o ha)
      exact ⟨mem', hrun, by simpa [popFree] using hrep⟩

/-- An object that is given back is first on the list. -/
theorem slabFree_represents (hs : 4 ≤ s) (hpage : slab + pageSize ≤ 2 ^ 32)
    (h : Represents mem slab free) (ho : o ∈ objects slab s)
    (hplaces : ∀ a ∈ free, a ∈ objects slab s) (hnew : o ∉ free)
    (hlen : free.length + 1 < 2 ^ 32) : Represents (slabFree slab o mem) slab (o :: free) := by
  have hinside := object_inside ho
  simp only [data, slabDataOffset, slabDataSize] at hinside
  rw [pageSize] at hpage
  have hlist := mem.load32_lt (freeList slab)
  have hcount : ((mem.store32 o (mem.load32 (freeList slab))).store32 (freeList slab) o).load32
      (freeCount slab) = free.length := by
    rw [freeCount_store_list, freeCount_store_object ho, h.count]
  have hrun : slabFree slab o mem =
      ((mem.store32 o (mem.load32 (freeList slab))).store32 (freeList slab) o).store32
        (freeCount slab) (free.length + 1) := by
    simp only [slabFree, hcount, u32_of_lt hlen]
  rw [hrun]
  refine ⟨⟨?_, ?_⟩, ByteStore.load32_store32 hlen⟩
  · rw [freeList_store_count, ByteStore.load32_store32 (by omega), pointer_of_pos (by omega)]
  · -- the object links to the old list
    rw [linkAt_zero, object_store_count ho, object_store_list ho, ByteStore.load32_store32 hlist]
    refine h.visits.congr fun a ha => congrArg pointer ?_
    have hapart := objects_apart (hplaces a ha) ho fun heq => hnew (heq ▸ ha)
    show ByteStore.load32 _ a = mem.load32 a
    rw [object_store_count (hplaces a ha), object_store_list (hplaces a ha),
      ByteStore.load32_store32_ne (by omega)]

end Calls
end SlabPage
end MyOs
