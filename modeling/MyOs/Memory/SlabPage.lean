import MyOs.Base.Bytes
import MyOs.Base.Links
import MyOs.Memory.Heap

/-!
# A slab in its page (`kmalloc.c`)

`struct slab` byte by byte: a header of five words and `data`, with the free list threaded
through the objects themselves. Addresses are natural numbers; the page lies in the 32-bit
address space, so no sum wraps.
-/

namespace MyOs

/-- A pointer; `NULL` points nowhere. -/
def pointer (w : Nat) : Option Nat := if w = 0 then none else some w

theorem pointer_of_pos {w : Nat} (h : 0 < w) : pointer w = some w := if_neg (by omega)

theorem pointer_eq_some {w a : Nat} : pointer w = some a ↔ w = a ∧ 0 < a := by
  rw [pointer]
  constructor
  · intro h
    split at h
    · cases h
    · cases h
      exact ⟨rfl, by omega⟩
  · rintro ⟨rfl, hpos⟩
    exact if_neg (by omega)

theorem pointer_eq_none {w : Nat} : pointer w = none ↔ w = 0 := by
  rw [pointer]
  constructor
  · intro h
    split at h
    · assumption
    · cases h
  · rintro rfl
    rfl

/-- The cell that the word at `off` in the cell `a` points to. -/
def linkAt (mem : ByteStore) (off a : Nat) : Option Nat := pointer (mem.load32 (a + off))

namespace SlabPage

/-- `&slab->free_list` -/
def freeList (slab : Nat) : Nat := slab + 4

/-- `&slab->free_count` -/
def freeCount (slab : Nat) : Nat := slab + 12

/-- `slab->data` -/
def data (slab : Nat) : Nat := slab + slabDataOffset

/-- The loop of `init_slab`, with `turns` turns left: the last object reached. -/
def initSlabLoop (slab objectSize : Nat) : Nat → Nat → Nat → ByteStore → Nat × ByteStore
  | 0, _, current, mem => (current, mem)
  | turns + 1, i, current, mem =>
      let nextObj := data slab + i * objectSize
      initSlabLoop slab objectSize turns (i + 1) nextObj (mem.store32 current nextObj)

/-- `init_slab`. -/
def initSlab (slab objectSize : Nat) (mem : ByteStore) : ByteStore :=
  let numObjects := slabDataSize / objectSize
  let mem := mem.store32 (freeCount slab) numObjects
  let mem := mem.store32 (freeList slab) (data slab)
  let r := initSlabLoop slab objectSize (numObjects - 1) 1 (mem.load32 (freeList slab)) mem
  r.2.store32 r.1 0

/-- `alloc_from_slab`: the object, or `NULL`. -/
def allocFromSlab (slab : Nat) (mem : ByteStore) : Nat × ByteStore :=
  if mem.load32 (freeCount slab) = 0 then (0, mem)
  else
    let object := mem.load32 (freeList slab)
    let mem := mem.store32 (freeList slab) (mem.load32 object)
    (object, mem.store32 (freeCount slab) (sub32 (mem.load32 (freeCount slab)) 1))

/-- `slab_free`. -/
def slabFree (slab object : Nat) (mem : ByteStore) : ByteStore :=
  let mem := mem.store32 object (mem.load32 (freeList slab))
  let mem := mem.store32 (freeList slab) object
  mem.store32 (freeCount slab) (u32 (mem.load32 (freeCount slab) + 1))

end SlabPage
end MyOs
