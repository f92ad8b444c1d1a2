import MyOs.Base.System
import MyOs.Logic.SlotSpec

/-!
# The slot allocator over whole runs

The allocator starts with every slot free and serves any sequence of
allocations and frees, of slots of the bitmap.
-/

namespace MyOs

/-- A call of the allocator. -/
inductive SlotCall
  | alloc (slotsNum : Nat)
  | freeRun (slot slotsNum : Nat)
  | free (slot : Nat)

/-- Any sequence of calls, with counts that fit a `uint8_t` and slots of the bitmap. -/
def slotSys : TSys DiskSlots SlotCall where
  init d := d = DiskSlots.boot
  step d call d' :=
    match call with
    | .alloc slotsNum => slotsNum < 2 ^ 8 ∧ d' = (d.diskAllocSlots slotsNum).2
    | .freeRun slot slotsNum => slot < diskBitmapSize * 8 ∧ slotsNum < 2 ^ 8 ∧
        d' = d.diskFreeSlots slot slotsNum
    | .free slot => slot < diskBitmapSize * 8 ∧ d' = d.diskFreeSlot slot

/-- What an allocation of `n` slots in `d` returns and changes. -/
structure SlotAllocCorrect (d : DiskSlots) (n slot : Nat) (d' : DiskSlots) : Prop where
  found : slot ≠ diskNoSlotAvailable → FreeRun d.diskBitmap n slot
  takes_run : slot ≠ diskNoSlotAvailable → ∀ j, d'.diskBitmap.bit j =
    (decide (slot ≤ j ∧ j < slot + n) || d.diskBitmap.bit j)
  exhausted : slot = diskNoSlotAvailable ↔ ∀ s, ¬ FreeRun d.diskBitmap n s
  exhausted_keeps : slot = diskNoSlotAvailable → d'.diskBitmap = d.diskBitmap

/-- The next search starts inside the bitmap or at its end. -/
theorem slotSys_inductive : slotSys.Inductive fun d => d.lastAllocIndex ≤ diskBitmapSize where
  init := by
    rintro d rfl
    decide
  step := by
    intro d call d' h hstep
    cases call with
    | alloc n =>
        obtain ⟨hn, rfl⟩ := hstep
        have hspec := diskAllocSlots_spec h hn
        generalize (d.diskAllocSlots n).1 = slot at hspec
        generalize (d.diskAllocSlots n).2 = d' at hspec ⊢
        cases hspec with
        | none => exact h
        | run _ _ _ hindex => exact hindex
    | freeRun slot n =>
        obtain ⟨_, _, rfl⟩ := hstep
        exact diskFreeSlots_index h
    | free slot =>
        obtain ⟨_, rfl⟩ := hstep
        exact h

/-- **Slot allocator correctness.** After any sequence of calls, an allocation of 1
to 255 slots returns the start of a run inside the bitmap that was free, and
takes exactly that run; it finds none exactly when no run that long is free
anywhere, and then changes nothing. -/
theorem slot_allocator_correct (n : Nat) (hpos : 1 ≤ n) (hn : n ≤ 255) :
    slotSys.Invariant fun d =>
      SlotAllocCorrect d n (d.diskAllocSlots n).1 (d.diskAllocSlots n).2 := by
  intro d hd
  have hlast := slotSys_inductive.invariant d hd
  have hnone := diskAllocSlots_none hlast hpos (by omega : n < 256)
  have hspec := diskAllocSlots_spec hlast (by omega : n < 256)
  generalize (d.diskAllocSlots n).1 = slot at hnone hspec ⊢
  generalize (d.diskAllocSlots n).2 = d' at hspec ⊢
  cases hspec with
  | none =>
      exact
        { found := fun hne => absurd rfl hne
          takes_run := fun hne => absurd rfl hne
          exhausted := ⟨hnone, fun _ => rfl⟩
          exhausted_keeps := fun _ => rfl }
  | run hle hfree hbits _ =>
      have hne : slot ≠ diskNoSlotAvailable := by
        rw [show diskBitmapSize = 100000 from rfl] at hle
        simp only [diskNoSlotAvailable]
        omega
      exact
        { found := fun _ => ⟨hle, hfree⟩
          takes_run := fun _ => hbits
          exhausted := ⟨fun heq => absurd heq hne, fun hno => absurd ⟨hle, hfree⟩ (hno slot)⟩
          exhausted_keeps := fun heq => absurd heq hne }

/-- On the fresh bitmap the search for eight slots starts at slot 8. -/
theorem slot_allocator_correct_boot :
    (DiskSlots.boot.diskAllocSlots 8).1 = 8 ∧ SlotAllocCorrect DiskSlots.boot 8 8
      (DiskSlots.boot.diskAllocSlots 8).2 := by
  have hslot : (DiskSlots.boot.diskAllocSlots 8).1 = 8 := by decide +kernel
  have hcorrect : SlotAllocCorrect DiskSlots.boot 8 (DiskSlots.boot.diskAllocSlots 8).1
      (DiskSlots.boot.diskAllocSlots 8).2 :=
    slot_allocator_correct 8 (by decide) (by decide) DiskSlots.boot (.init rfl)
  rw [hslot] at hcorrect
  exact ⟨hslot, hcorrect⟩

end MyOs
