import MyOs.Drivers.DiskSlots

/-!
# What the slot allocator does

An allocation returns a run of free slots inside the bitmap and marks exactly
that run; a free clears exactly its run, unless the run ends where the bitmap
does.
-/

namespace MyOs

namespace Bitmap

/-- Marking a list of bits free clears those bits and no other. -/
theorem bit_foldl_markFree (l : List Nat) (b : Bitmap) (j : Nat) :
    (l.foldl markFree b).bit j = (!decide (j ∈ l) && b.bit j) := by
  induction l generalizing b with
  | nil => simp
  | cons k rest ih =>
      rw [List.foldl_cons, ih, bit_markFree]
      by_cases hjk : j = k
      · simp [hjk]
      · simp [hjk]

end Bitmap

/-- The slots of a run. -/
theorem mem_run {start count j : Nat} :
    j ∈ ((List.range count).map fun k => start + k) ↔ start ≤ j ∧ j < start + count := by
  rw [List.mem_map]
  constructor
  · rintro ⟨k, hk, rfl⟩
    rw [List.mem_range] at hk
    omega
  · rintro ⟨hlo, hhi⟩
    exact ⟨j - start, List.mem_range.mpr (by omega), by omega⟩

theorem bit_markSlotsUsed (b : Bitmap) (start count j : Nat) :
    (markSlotsUsed b start count).bit j =
      (decide (start ≤ j ∧ j < start + count) || b.bit j) := by
  simp only [markSlotsUsed, Bitmap.bit_foldl_markUsed, mem_run]

theorem bit_markSlotsFree (b : Bitmap) (start count j : Nat) :
    (markSlotsFree b start count).bit j =
      (!decide (start ≤ j ∧ j < start + count) && b.bit j) := by
  simp only [markSlotsFree, Bitmap.bit_foldl_markFree, mem_run]

theorem areSlotsFree_iff {b : Bitmap} {start count : Nat} :
    areSlotsFree b start count = true ↔ u32 (start + count) ≤ diskBitmapSize * 8 ∧
      ∀ j, start ≤ j → j < start + count → b.bit j = false := by
  simp only [areSlotsFree]
  by_cases hlimit : u32 (start + count) > diskBitmapSize * 8
  · simp [hlimit]
  · simp only [hlimit, if_false, List.all_eq_true, List.mem_range, isSlotFree, Bool.not_eq_true']
    constructor
    · intro h
      refine ⟨Nat.not_lt.mp hlimit, fun j hlo hhi => ?_⟩
      have := h (j - start) (by omega)
      rwa [Nat.add_sub_cancel' hlo] at this
    · rintro ⟨_, h⟩ k hk
      exact h _ (by omega) (by omega)

/-- A hit of the search begins a free run. -/
theorem scanSlots_some {b : Bitmap} {n start stop slot : Nat}
    (h : scanSlots b n start stop = some slot) :
    slot < stop * 8 ∧ areSlotsFree b slot n = true := by
  obtain ⟨i, hi, hsome⟩ := List.exists_of_findSome?_eq_some h
  rw [List.mem_range'_1] at hi
  have hmem := List.mem_of_find?_eq_some hsome
  have htest := List.find?_some hsome
  simp only [Bool.and_eq_true] at htest
  refine ⟨?_, htest.2⟩
  have hrun := mem_run.mp hmem
  omega

/-- A search without a hit: no slot of its bytes begins a free run. -/
theorem scanSlots_none {b : Bitmap} {n start stop : Nat} (h : scanSlots b n start stop = none)
    {slot : Nat} (hlo : start * 8 ≤ slot) (hhi : slot < stop * 8)
    (hfree : isSlotFree b slot = true) : areSlotsFree b slot n = false := by
  rw [scanSlots, List.findSome?_eq_none_iff] at h
  have hbyte := h (slot / 8) (List.mem_range'_1.mpr (by omega))
  rw [List.find?_eq_none] at hbyte
  have hmem : slot ∈ (List.range 8).map fun j => slot / 8 * 8 + j :=
    List.mem_map.mpr ⟨slot % 8, List.mem_range.mpr (by omega), by omega⟩
  have htest := hbyte slot hmem
  rw [hfree, Bool.true_and, Bool.not_eq_true] at htest
  exact htest

/-- A free run of `n` slots inside the bitmap. -/
def FreeRun (b : Bitmap) (n s : Nat) : Prop :=
  s + n ≤ diskBitmapSize * 8 ∧ ∀ j, s ≤ j → j < s + n → b.bit j = false

/-- A free clears its run, or nothing when the run reaches the bitmap's end. -/
theorem bit_diskFreeSlots (d : DiskSlots) (start count j : Nat) :
    (d.diskFreeSlots start count).diskBitmap.bit j =
      (!decide (start ≤ j ∧ j < start + count ∧ u32 (start + count) < diskBitmapSize * 8) &&
        d.diskBitmap.bit j) := by
  rw [DiskSlots.diskFreeSlots]
  split
  · next h => simp [Nat.not_lt.mpr h]
  · next h => simp [bit_markSlotsFree, Nat.lt_of_not_le h]

theorem diskFreeSlots_index {d : DiskSlots} {start count : Nat}
    (h : d.lastAllocIndex ≤ diskBitmapSize) :
    (d.diskFreeSlots start count).lastAllocIndex ≤ diskBitmapSize := by
  rw [DiskSlots.diskFreeSlots]
  split <;> exact h

/-- What an allocation did: nothing, or it took a free run inside the bitmap. -/
inductive SlotsResult (d : DiskSlots) (n : Nat) : Nat → DiskSlots → Prop
  | none : SlotsResult d n diskNoSlotAvailable d
  | run {s d'} : s + n ≤ diskBitmapSize * 8 →
      (∀ j, s ≤ j → j < s + n → d.diskBitmap.bit j = false) →
      (∀ j, d'.diskBitmap.bit j = (decide (s ≤ j ∧ j < s + n) || d.diskBitmap.bit j)) →
      d'.lastAllocIndex ≤ diskBitmapSize → SlotsResult d n s d'

theorem diskAllocSlots_spec {d : DiskSlots} {n : Nat} (hlast : d.lastAllocIndex ≤ diskBitmapSize)
    (hn : n < 256) : SlotsResult d n (d.diskAllocSlots n).1 (d.diskAllocSlots n).2 := by
  unfold DiskSlots.diskAllocSlots
  by_cases hzero : n = 0
  · rw [if_pos hzero]
    exact .none
  rw [if_neg hzero]
  cases hscan : (scanSlots d.diskBitmap n d.lastAllocIndex diskBitmapSize).or
      (scanSlots d.diskBitmap n 0 d.lastAllocIndex) with
  | none => exact .none
  | some s =>
      have hfound : s < diskBitmapSize * 8 ∧ areSlotsFree d.diskBitmap s n = true := by
        rcases Option.or_eq_some_iff.mp hscan with hup | ⟨_, hwrap⟩
        · exact scanSlots_some hup
        · obtain ⟨hlt, hfree⟩ := scanSlots_some hwrap
          exact ⟨Nat.lt_of_lt_of_le hlt (Nat.mul_le_mul_right 8 hlast), hfree⟩
      obtain ⟨hlimit, hbits⟩ := areSlotsFree_iff.mp hfound.2
      have hsize : diskBitmapSize = 100000 := rfl
      rw [u32_of_lt (by omega)] at hlimit
      refine .run hlimit hbits (bit_markSlotsUsed _ _ _) ?_
      show (s + n) / 8 ≤ diskBitmapSize
      omega

/-- An allocation that finds no slot changes nothing. -/
theorem diskAllocSlots_same {d d' : DiskSlots} {n : Nat} (hlast : d.lastAllocIndex ≤ diskBitmapSize)
    (hn : n < 256) (h : d.diskAllocSlots n = (diskNoSlotAvailable, d')) : d' = d := by
  have hspec := diskAllocSlots_spec hlast hn
  rw [h] at hspec
  cases hspec with
  | none => rfl
  | run hle =>
      exact absurd (Nat.le_of_add_right_le hle)
        (show ¬ diskNoSlotAvailable ≤ diskBitmapSize * 8 by decide)

/-- When the allocator has no slot, no run is free: the two searches cover every
start. -/
theorem diskAllocSlots_none {d : DiskSlots} {n : Nat} (hlast : d.lastAllocIndex ≤ diskBitmapSize)
    (hpos : 0 < n) (hn : n < 256)
    (h : (d.diskAllocSlots n).1 = diskNoSlotAvailable) (s : Nat) : ¬ FreeRun d.diskBitmap n s := by
  rintro ⟨hle, hfree⟩
  have hsize : diskBitmapSize = 100000 := rfl
  have hno : diskNoSlotAvailable = 0xFFFFFFFF := rfl
  have hslot : isSlotFree d.diskBitmap s = true := by
    rw [isSlotFree, hfree s (Nat.le_refl s) (by omega), Bool.not_false]
  have hrun : areSlotsFree d.diskBitmap s n = true :=
    areSlotsFree_iff.mpr ⟨by rw [u32_of_lt (by omega)]; exact hle, hfree⟩
  unfold DiskSlots.diskAllocSlots at h
  rw [if_neg (Nat.ne_of_gt hpos)] at h
  cases hscan : (scanSlots d.diskBitmap n d.lastAllocIndex diskBitmapSize).or
      (scanSlots d.diskBitmap n 0 d.lastAllocIndex) with
  | none =>
      obtain ⟨hup, hwrap⟩ := Option.or_eq_none_iff.mp hscan
      have hmiss : areSlotsFree d.diskBitmap s n = false := by
        rcases Nat.lt_or_ge s (d.lastAllocIndex * 8) with hlow | hhigh
        · exact scanSlots_none hwrap (by omega) hlow hslot
        · exact scanSlots_none hup hhigh (by omega) hslot
      rw [hrun] at hmiss
      cases hmiss
  | some slot =>
      rw [hscan] at h
      obtain rfl : slot = diskNoSlotAvailable := h
      have hlt : diskNoSlotAvailable < diskBitmapSize * 8 := by
        rcases Option.or_eq_some_iff.mp hscan with hup | ⟨_, hwrap⟩
        · exact (scanSlots_some hup).1
        · exact Nat.lt_of_lt_of_le (scanSlots_some hwrap).1 (Nat.mul_le_mul_right 8 hlast)
      omega

end MyOs
