import MyOs.Base.Bitmap
import MyOs.Base.Word
import Mathlib.Data.List.Range

/-!
# The disk slot allocator (`disk.c`)

One bit for each sector of the swap area. A request is for a run of
consecutive free slots; the search is next-fit from `last_alloc_index` and
wraps around to slot 0.
-/

namespace MyOs

/-- `DISK_BITMAP_SIZE`, in bytes. -/
def diskBitmapSize : Nat := 100000

/-- `DISK_NO_SLOT_AVAILABLE`. -/
def diskNoSlotAvailable : Nat := 0xFFFFFFFF

/-- The statics of the allocator. -/
structure DiskSlots where
  diskBitmap : Bitmap
  lastAllocIndex : Nat

def isSlotFree (b : Bitmap) (slot : Nat) : Bool := !b.bit slot

def areSlotsFree (b : Bitmap) (start count : Nat) : Bool :=
  if u32 (start + count) > diskBitmapSize * 8 then false
  else (List.range count).all fun k => isSlotFree b (start + k)

def markSlotsUsed (b : Bitmap) (start count : Nat) : Bitmap :=
  ((List.range count).map fun k => start + k).foldl Bitmap.markUsed b

def markSlotsFree (b : Bitmap) (start count : Nat) : Bitmap :=
  ((List.range count).map fun k => start + k).foldl Bitmap.markFree b

/-- The loops over `i` from `start` up to `stop` and over `j`: the first slot
that begins a free run. -/
def scanSlots (b : Bitmap) (slotsNum start stop : Nat) : Option Nat :=
  (List.range' start (stop - start)).findSome? fun i =>
    ((List.range 8).map fun j => i * 8 + j).find? fun slot =>
      isSlotFree b slot && areSlotsFree b slot slotsNum

namespace DiskSlots

/-- `disk_alloc_slots`. -/
def diskAllocSlots (d : DiskSlots) (slotsNum : Nat) : Nat × DiskSlots :=
  if slotsNum = 0 then (diskNoSlotAvailable, d)
  else
    match (scanSlots d.diskBitmap slotsNum d.lastAllocIndex diskBitmapSize).or
        (scanSlots d.diskBitmap slotsNum 0 d.lastAllocIndex) with
    | some slot =>
        (slot, { diskBitmap := markSlotsUsed d.diskBitmap slot slotsNum
                 lastAllocIndex := (slot + slotsNum) / 8 })
    | none => (diskNoSlotAvailable, d)

/-- `disk_free_slots`: nothing when the run reaches the end of the bitmap. -/
def diskFreeSlots (d : DiskSlots) (slot slotsNum : Nat) : DiskSlots :=
  if u32 (slot + slotsNum) ≥ diskBitmapSize * 8 then d
  else { d with diskBitmap := markSlotsFree d.diskBitmap slot slotsNum }

/-- `disk_free_slot`. -/
def diskFreeSlot (d : DiskSlots) (slot : Nat) : DiskSlots :=
  { d with diskBitmap := Bitmap.markFree d.diskBitmap slot }

/-- The statics as the loader leaves them. -/
def boot : DiskSlots := ⟨fun _ => 0#8, 1⟩

end DiskSlots
end MyOs
