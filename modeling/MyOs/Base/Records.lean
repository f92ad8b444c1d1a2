import MyOs.Base.PagedMemory

/-!
# Tables of packed records

A table is a row of records of one size, without gaps. A record is written field
by field; what its fields are is one store of all their bytes, and it leaves the
records at the other places alone.
-/

namespace MyOs

/-- The two bytes of a half word, the lowest first. -/
def halfBytes (h : BitVec 16) : List Byte := [h.extractLsb' 0 8, h.extractLsb' 8 8]

/-- The four bytes of a word. -/
def Word.bytes (w : Word) : List Byte := [w.byte 0, w.byte 1, w.byte 2, w.byte 3]

@[simp] theorem length_halfBytes (h : BitVec 16) : (halfBytes h).length = 2 := rfl

@[simp] theorem Word.length_bytes (w : Word) : w.bytes.length = 4 := rfl

/-- A half word is its two bytes. -/
theorem append_extractLsb' (h : BitVec 16) : h.extractLsb' 8 8 ++ h.extractLsb' 0 8 = h := by
  apply BitVec.eq_of_getLsbD_eq
  intro i hi
  simp only [BitVec.getLsbD_append, BitVec.getLsbD_extractLsb']
  grind

namespace ByteStore

variable {m : ByteStore} {pos i j n : Nat} {bs : List Byte}

/-- A list that has been stored is loaded again. -/
theorem load_store : (m.store pos bs).load pos bs.length = bs := by
  apply List.ext_getElem
  · simp
  · intro i _ hi
    have hload := @getD_load (m.store pos bs) pos _ _ hi
    rw [store_inside hi] at hload
    simpa [List.getD_eq_getElem?_getD, hi] using hload

/-- A store elsewhere. -/
theorem load_store_apart {pos' : Nat} (h : pos + n ≤ pos' ∨ pos' + bs.length ≤ pos) :
    (m.store pos' bs).load pos n = m.load pos n :=
  load_eq_iff.mpr fun _ _ => store_outside (by omega)

/-- The record at place `i` of the table at `pos`, whose records have `n` bytes. -/
def record (m : ByteStore) (pos n i : Nat) : List Byte := m.load (pos + n * i) n

/-- Writing one record of a table. -/
theorem record_store (hlen : bs.length = n) :
    (m.store (pos + n * i) bs).record pos n j = if j = i then bs else m.record pos n j := by
  subst hlen
  split
  · next h =>
      rw [h]
      exact load_store
  · next h =>
      refine load_store_apart ?_
      -- two records of one size lie apart
      rcases Nat.lt_or_gt_of_ne h with hlt | hgt
      · have := Nat.mul_le_mul_left bs.length (show j + 1 ≤ i from hlt)
        rw [Nat.mul_add_one] at this
        exact .inl (by omega)
      · have := Nat.mul_le_mul_left bs.length (show i + 1 ≤ j from hgt)
        rw [Nat.mul_add_one] at this
        exact .inr (by omega)

/-- Writing away from a table. -/
theorem record_store_apart {pos' : Nat} (places : Nat) (hj : j < places)
    (h : pos + n * places ≤ pos' ∨ pos' + bs.length ≤ pos) :
    (m.store pos' bs).record pos n j = m.record pos n j := by
  have := Nat.mul_le_mul_left n (show j + 1 ≤ places from hj)
  rw [Nat.mul_add_one] at this
  exact load_store_apart (by omega)

end ByteStore
end MyOs
