import MyOs.Theorems.SlotAllocator

/-!
# Freeing a run of slots

`disk_alloc_slots` hands out runs up to the very end of the bitmap, and
`disk_free_slots` gives up on a run that ends there. Everything turns on whether
the search takes the last run, which it does when that is the first free one in
next-fit order.
-/

namespace MyOs

/-- The order in which the search tries the starts: from `last_alloc_index` on, then
from slot 0. -/
def searchOrder (d : DiskSlots) (s : Nat) : Nat :=
  if s < d.lastAllocIndex * 8 then s + diskBitmapSize * 8 else s

/-- The free run at `s` is the first one the search meets. -/
def FirstRun (d : DiskSlots) (n s : Nat) : Prop :=
  FreeRun d.diskBitmap n s ∧
    ∀ s', FreeRun d.diskBitmap n s' → searchOrder d s ≤ searchOrder d s'

/-- The slots used are the same, whatever else changed. -/
def SameSlots (d d' : DiskSlots) : Prop := ∀ j, d'.diskBitmap.bit j = d.diskBitmap.bit j

/-- A search takes the first free run of its bytes. -/
theorem scanSlots_first {b : Bitmap} {n start stop slot : Nat}
    (h : scanSlots b n start stop = some slot) :
    start * 8 ≤ slot ∧ ∀ s, start * 8 ≤ s → s < slot →
      isSlotFree b s = true → areSlotsFree b s n = false := by
  obtain ⟨before, i, after, hbytes, hbyte, hmiss⟩ := List.findSome?_eq_some_iff.mp h
  have hi : i ∈ List.range' start (stop - start) := by
    rw [hbytes]
    exact List.mem_append_right _ List.mem_cons_self
  rw [List.mem_range'_1] at hi
  rw [List.find?_map] at hbyte
  obtain ⟨j, hj, rfl⟩ := Option.map_eq_some_iff.mp hbyte
  obtain ⟨_, hlt, hearlier⟩ := List.find?_range_eq_some.mp hj
  rw [List.mem_range] at hlt
  refine ⟨by omega, fun s hlo hhi hfree => ?_⟩
  have htest : (isSlotFree b s && areSlotsFree b s n) = false := by
    by_cases hsame : s / 8 = i
    · -- the same byte, at an earlier offset
      have hmod := hearlier (s % 8) (by omega)
      rw [Bool.not_eq_true', Function.comp_apply, ← hsame,
        show s / 8 * 8 + s % 8 = s by omega] at hmod
      exact hmod
    · have hmem : s / 8 ∈ before ++ i :: after := by
        rw [← hbytes, List.mem_range'_1]
        omega
      have hsorted : (before ++ i :: after).Pairwise (· < ·) := by
        rw [← hbytes]
        exact List.pairwise_lt_range'
      have hbefore : s / 8 ∈ before := by
        rcases List.mem_append.mp hmem with hin | hin
        · exact hin
        · rcases List.mem_cons.mp hin with heq | hafter
          · exact absurd heq hsame
          · have hlater := List.rel_of_pairwise_cons (List.pairwise_append.mp hsorted).2.1 hafter
            omega
      have hnone := hmiss _ hbefore
      rw [List.find?_map, Option.map_eq_none_iff, List.find?_range_eq_none] at hnone
      have hmod := hnone (s % 8) (by omega)
      rw [Bool.not_eq_true', Function.comp_apply, show s / 8 * 8 + s % 8 = s by omega] at hmod
      exact hmod
  rw [hfree, Bool.true_and] at htest
  exact htest

section Reachable

variable {d : DiskSlots} {n s : Nat} (hlast : d.lastAllocIndex ≤ diskBitmapSize) (hpos : 1 ≤ n)
  (hn : n ≤ 255)

include hlast hpos hn

/-- The allocation takes the first free run there is. -/
theorem diskAllocSlots_first (hfound : (d.diskAllocSlots n).1 ≠ diskNoSlotAvailable) :
    FirstRun d n (d.diskAllocSlots n).1 := by
  have hrun : FreeRun d.diskBitmap n (d.diskAllocSlots n).1 := by
    have hspec := diskAllocSlots_spec hlast (by omega : n < 256)
    generalize (d.diskAllocSlots n).1 = slot at hfound hspec ⊢
    generalize (d.diskAllocSlots n).2 = d' at hspec
    cases hspec with
    | none => exact absurd rfl hfound
    | run hle hfree _ _ => exact ⟨hle, hfree⟩
  have hsize : diskBitmapSize = 100000 := rfl
  -- a free run makes both tests of the search succeed
  have htests {s' : Nat} (hrun' : FreeRun d.diskBitmap n s') :
      isSlotFree d.diskBitmap s' = true ∧ areSlotsFree d.diskBitmap s' n = true := by
    obtain ⟨hle, hfree⟩ := hrun'
    refine ⟨by rw [isSlotFree, hfree s' (Nat.le_refl _) (by omega), Bool.not_false], ?_⟩
    exact areSlotsFree_iff.mpr ⟨by rw [u32_of_lt (by omega)]; exact hle, hfree⟩
  refine ⟨hrun, fun s' hrun' => Nat.le_of_not_lt fun hearlier => ?_⟩
  obtain ⟨hfree', hall'⟩ := htests hrun'
  have hle' := hrun'.1
  unfold DiskSlots.diskAllocSlots at hearlier hfound
  rw [if_neg (by omega : ¬ n = 0)] at hearlier hfound
  cases hscan : (scanSlots d.diskBitmap n d.lastAllocIndex diskBitmapSize).or
      (scanSlots d.diskBitmap n 0 d.lastAllocIndex) with
  | none =>
      rw [hscan] at hfound
      exact hfound rfl
  | some slot =>
      rw [hscan] at hearlier
      simp only [searchOrder] at hearlier
      rcases Option.or_eq_some_iff.mp hscan with hup | ⟨hnone, hwrap⟩
      · obtain ⟨hlo, hfirst⟩ := scanSlots_first hup
        rw [if_neg (by omega : ¬ slot < d.lastAllocIndex * 8)] at hearlier
        split at hearlier
        · have hlt := (scanSlots_some hup).1
          omega
        · have hmiss := hfirst s' (by omega) hearlier hfree'
          rw [hall'] at hmiss
          cases hmiss
      · obtain ⟨_, hfirst⟩ := scanSlots_first hwrap
        have hlt := (scanSlots_some hwrap).1
        rw [if_pos hlt] at hearlier
        split at hearlier
        · have hmiss := hfirst s' (by omega) (by omega) hfree'
          rw [hall'] at hmiss
          cases hmiss
        · have hmiss := scanSlots_none hnone (by omega : d.lastAllocIndex * 8 ≤ s') (by omega) hfree'
          rw [hall'] at hmiss
          cases hmiss

omit hlast in
/-- Only one run comes first. -/
theorem FirstRun.unique {s' : Nat} (h : FirstRun d n s) (h' : FirstRun d n s') : s = s' := by
  have hle := h.2 s' h'.1
  have hle' := h'.2 s h.1
  have hend := h.1.1
  have hend' := h'.1.1
  by_cases hs : s < d.lastAllocIndex * 8 <;> by_cases hs' : s' < d.lastAllocIndex * 8 <;>
    simp only [searchOrder, hs, hs', if_true, if_false] at hle hle' <;> omega

end Reachable

/-- Freeing the run just allocated gives back the bitmap there was, and so the same
number of free slots, exactly when the first free run is not the one that ends where
the bitmap does. -/
theorem slot_free_undoes_iff {d : DiskSlots} {n : Nat} (hd : slotSys.Reachable d) (hpos : 1 ≤ n)
    (hn : n ≤ 255) (hfound : (d.diskAllocSlots n).1 ≠ diskNoSlotAvailable) :
    SameSlots d ((d.diskAllocSlots n).2.diskFreeSlots (d.diskAllocSlots n).1 n) ↔
      ¬ FirstRun d n (diskBitmapSize * 8 - n) := by
  have hlast := slotSys_inductive.invariant d hd
  have hfirst := diskAllocSlots_first hlast hpos hn hfound
  have hspec := diskAllocSlots_spec hlast (by omega : n < 256)
  have hsize : diskBitmapSize = 100000 := rfl
  generalize (d.diskAllocSlots n).1 = s at hfirst hspec hfound ⊢
  generalize (d.diskAllocSlots n).2 = d' at hspec ⊢
  cases hspec with
  | none => exact absurd rfl hfound
  | run hle hfree hbits _ =>
      have hu : u32 (s + n) = s + n := u32_of_lt (by omega)
      constructor
      · intro hsame hlastRun
        obtain rfl := FirstRun.unique hpos hn hfirst hlastRun
        -- the run stays marked
        have hbit := hsame (diskBitmapSize * 8 - n)
        rw [bit_diskFreeSlots, hbits, hfree _ (Nat.le_refl _) (by omega), hu] at hbit
        rw [decide_eq_true (show diskBitmapSize * 8 - n ≤ diskBitmapSize * 8 - n ∧
          diskBitmapSize * 8 - n < diskBitmapSize * 8 - n + n by omega)] at hbit
        rw [Bool.true_or, Bool.and_true, Bool.not_eq_false', decide_eq_true_iff] at hbit
        omega
      · intro hnot j
        have hend : s + n < diskBitmapSize * 8 := by
          refine Nat.lt_of_le_of_ne hle fun heq => hnot ?_
          rw [show diskBitmapSize * 8 - n = s by omega]
          exact hfirst
        rw [bit_diskFreeSlots, hbits, hu]
        by_cases hj : s ≤ j ∧ j < s + n
        · rw [hfree j hj.1 hj.2, decide_eq_true hj, decide_eq_true ⟨hj.1, hj.2, hend⟩]
          rfl
        · rw [decide_eq_false hj, decide_eq_false fun h => hj ⟨h.1, h.2.1⟩, Bool.false_or,
            Bool.not_false, Bool.true_and]

/-- On the fresh bitmap eight slots come and go. -/
theorem slot_free_undoes_boot : (DiskSlots.boot.diskAllocSlots 8).1 = 8 ∧ SameSlots DiskSlots.boot
    ((DiskSlots.boot.diskAllocSlots 8).2.diskFreeSlots 8 8) := by
  have hslot : (DiskSlots.boot.diskAllocSlots 8).1 = 8 := by decide +kernel
  have hfound : (DiskSlots.boot.diskAllocSlots 8).1 ≠ diskNoSlotAvailable := by
    rw [hslot]
    decide
  have hiff := slot_free_undoes_iff (.init rfl : slotSys.Reachable DiskSlots.boot) (by decide)
    (by decide) hfound
  rw [hslot] at hiff
  refine ⟨hslot, hiff.mpr fun hlast => ?_⟩
  -- slot 8 is tried before the last run
  have hfree : FreeRun DiskSlots.boot.diskBitmap 8 8 :=
    ⟨by decide, fun j _ _ => by simp [DiskSlots.boot, Bitmap.bit]⟩
  exact absurd (hlast.2 8 hfree) (by decide)

/-! ## The last run -/

/-- A run that is free where the search starts is the one taken. -/
theorem diskAllocSlots_next {d : DiskSlots} {n : Nat} (hlast : d.lastAllocIndex ≤ diskBitmapSize)
    (hpos : 1 ≤ n) (hn : n ≤ 255) (hrun : FreeRun d.diskBitmap n (d.lastAllocIndex * 8)) :
    d.diskAllocSlots n = (d.lastAllocIndex * 8,
      ⟨markSlotsUsed d.diskBitmap (d.lastAllocIndex * 8) n, (d.lastAllocIndex * 8 + n) / 8⟩) := by
  have hfound : (d.diskAllocSlots n).1 ≠ diskNoSlotAvailable := fun hnone =>
    diskAllocSlots_none hlast hpos (by omega) hnone _ hrun
  have hfirst : FirstRun d n (d.lastAllocIndex * 8) := by
    refine ⟨hrun, fun s' _ => ?_⟩
    have hsize : diskBitmapSize = 100000 := rfl
    by_cases hs' : s' < d.lastAllocIndex * 8 <;>
      simp only [searchOrder, hs', if_true, if_false, Nat.lt_irrefl] <;> omega
  have hslot := FirstRun.unique hpos hn (diskAllocSlots_first hlast hpos hn hfound) hfirst
  unfold DiskSlots.diskAllocSlots at hslot hfound ⊢
  rw [if_neg (by omega : ¬ n = 0)] at hslot hfound ⊢
  cases hscan : (scanSlots d.diskBitmap n d.lastAllocIndex diskBitmapSize).or
      (scanSlots d.diskBitmap n 0 d.lastAllocIndex) with
  | none =>
      rw [hscan] at hfound
      exact absurd rfl hfound
  | some slot =>
      rw [hscan] at hslot
      obtain rfl : slot = d.lastAllocIndex * 8 := hslot
      rfl

/-- The first bytes of the bitmap up to `bytes` are used but for byte 0, and the search
goes on from there. -/
def FilledTo (d : DiskSlots) (bytes : Nat) : Prop :=
  d.lastAllocIndex = bytes ∧ ∀ j, bytes * 8 ≤ j → d.diskBitmap.bit j = false

/-- Requests for whole bytes fill the bitmap one after another. -/
theorem FilledTo.alloc {d : DiskSlots} {bytes more : Nat} (hd : slotSys.Reachable d)
    (h : FilledTo d bytes) (hpos : 1 ≤ more) (hmore : more ≤ 31)
    (hend : bytes + more ≤ diskBitmapSize) :
    ∃ d', slotSys.Reachable d' ∧ FilledTo d' (bytes + more) := by
  obtain ⟨hbytes, hfree⟩ := h
  have hrun : FreeRun d.diskBitmap (more * 8) (d.lastAllocIndex * 8) :=
    ⟨by omega, fun j hj _ => hfree j (by omega)⟩
  have halloc := diskAllocSlots_next (by omega) (by omega) (by omega) hrun
  have hstep : slotSys.step d (.alloc (more * 8)) (d.diskAllocSlots (more * 8)).2 :=
    ⟨by omega, rfl⟩
  refine ⟨_, hd.step hstep, ?_⟩
  rw [halloc]
  refine ⟨show (d.lastAllocIndex * 8 + more * 8) / 8 = bytes + more by omega, fun j hj => ?_⟩
  show (markSlotsUsed d.diskBitmap (d.lastAllocIndex * 8) (more * 8)).bit j = false
  rw [bit_markSlotsUsed, hfree j (by omega), decide_eq_false (by omega)]
  rfl

theorem filledTo_reachable (m : Nat) (hm : 1 + 31 * m ≤ diskBitmapSize) :
    ∃ d, slotSys.Reachable d ∧ FilledTo d (1 + 31 * m) := by
  induction m with
  | zero => exact ⟨DiskSlots.boot, .init rfl, rfl, fun j _ => by simp [DiskSlots.boot, Bitmap.bit]⟩
  | succ m ih =>
      obtain ⟨d, hd, hfilled⟩ := ih (by omega)
      obtain ⟨d', hd', hfilled'⟩ := hfilled.alloc hd (by decide) (Nat.le_refl 31) (by omega)
      exact ⟨d', hd', by rw [show 1 + 31 * (m + 1) = 1 + 31 * m + 31 by omega]; exact hfilled'⟩

/-- With the bitmap filled but for its last byte, eight slots are handed out that are
not taken back. -/
theorem slot_free_loses_last : ∃ d, slotSys.Reachable d ∧
    (d.diskAllocSlots 8).1 = 799992 ∧
    ¬ SameSlots d ((d.diskAllocSlots 8).2.diskFreeSlots (d.diskAllocSlots 8).1 8) := by
  have hsize : diskBitmapSize = 100000 := rfl
  obtain ⟨d₁, hd₁, hfilled₁⟩ := filledTo_reachable 3225 (by decide)
  obtain ⟨d, hd, hlast, hfree⟩ :=
    hfilled₁.alloc hd₁ (by decide : 1 ≤ 23) (by decide) (by decide)
  have hrun : FreeRun d.diskBitmap 8 (d.lastAllocIndex * 8) :=
    ⟨by omega, fun j hj _ => hfree j (by omega)⟩
  have halloc := diskAllocSlots_next (by omega) (by decide) (by decide) hrun
  rw [hlast] at halloc
  refine ⟨d, hd, by rw [halloc], fun hsame => ?_⟩
  have hkept : (1 + 31 * 3225 + 23) * 8 + 8 ≥ diskBitmapSize * 8 := by decide
  rw [halloc] at hsame
  change SameSlots d (DiskSlots.diskFreeSlots _ ((1 + 31 * 3225 + 23) * 8) 8) at hsame
  rw [DiskSlots.diskFreeSlots, u32_of_lt (by decide), if_pos hkept] at hsame
  have hbit := hsame 799992
  rw [hfree 799992 (by decide), show (1 + 31 * 3225 + 23) * 8 = 799992 by decide] at hbit
  change (markSlotsUsed d.diskBitmap 799992 8).bit 799992 = false at hbit
  rw [bit_markSlotsUsed, decide_eq_true (by decide)] at hbit
  cases hbit

end MyOs
