import MyOs.Base.Bitmap
import MyOs.Memory.Layout
import Mathlib.Data.List.Range

/-!
# The physical frame allocator (`pmm.c`)

One bit for each 4 KiB frame of a 4 GiB memory. `pmm_alloc_frame` first reuses
the last freed frame, then searches the bitmap next-fit from
`last_alloc_index` and wraps around to byte 1.
-/

namespace MyOs

/-- `PMM_BITMAP_SIZE`, in bytes. -/
def pmmBitmapSize : Nat := memorySize / pageSize / 8

/-- `PMM_NO_FRAME_AVAILABLE`. -/
def pmmNoFrameAvailable : Nat := 0

/-- `last_free_frame`, `{-1, -1}` when there is none. -/
structure LastFreeFrame where
  index : Int
  offset : Int
deriving DecidableEq, Repr

/-- The static state of `pmm.c`. -/
structure Pmm where
  pmmBitmap : Bitmap
  lastFreeFrame : LastFreeFrame
  lastAllocIndex : Nat

def calcFrameAddr (index offset : Nat) : Nat :=
  u32 (index * 8 * pageSize + offset * pageSize)

def getBitmapIndex (frameAddr : Nat) : Nat := frameAddr / pageSize / 8

def getBitmapOffset (frameAddr : Nat) : Nat := frameAddr / pageSize % 8

def isValidFrameAddr (frameAddr : Nat) : Bool :=
  frameAddr < memorySize && frameAddr % pageSize == 0

/-- The bit of a frame: `get_bitmap_index` and `get_bitmap_offset` together. -/
def frameBit (frameAddr : Nat) : Nat := getBitmapIndex frameAddr * 8 + getBitmapOffset frameAddr

def pmmMarkUsed (b : Bitmap) (frameAddr : Nat) : Bitmap := b.markUsed (frameBit frameAddr)

def pmmMarkFree (b : Bitmap) (frameAddr : Nat) : Bitmap := b.markFree (frameBit frameAddr)

def isFull (b : Bitmap) (index : Nat) : Bool := b index == 0xFF#8

/-- The loop over `j` on one byte of the bitmap: the first clear bit. -/
def scanByte (byte : Byte) : Option Nat :=
  (List.range 8).find? fun j => byte &&& Bitmap.bitMask j == 0#8

/-- The loop over `i` from `start` up to `stop`: the first byte that is not
full, with its first clear bit. -/
def scanBytes (b : Bitmap) (start stop : Nat) : Option (Nat × Nat) :=
  (List.range' start (stop - start)).findSome? fun i =>
    if isFull b i then none else (scanByte (b i)).map fun j => (i, j)

namespace Pmm

/-- The hint is in use: `index != -1 && offset != -1`. -/
def hasHint (p : Pmm) : Bool := p.lastFreeFrame.index != -1 && p.lastFreeFrame.offset != -1

/-- `pmm_alloc_frame`: the frame's address, or `PMM_NO_FRAME_AVAILABLE`. -/
def pmmAllocFrame (p : Pmm) : Nat × Pmm :=
  if p.hasHint then
    let frameAddr := calcFrameAddr p.lastFreeFrame.index.toNat p.lastFreeFrame.offset.toNat
    (frameAddr, { p with
      pmmBitmap := pmmMarkUsed p.pmmBitmap frameAddr
      lastFreeFrame := ⟨-1, -1⟩ })
  else
    -- the search up to the end of the bitmap, then the one from byte 1
    match (scanBytes p.pmmBitmap p.lastAllocIndex pmmBitmapSize).or
        (scanBytes p.pmmBitmap 1 p.lastAllocIndex) with
    | some (i, j) =>
        let frameAddr := calcFrameAddr i j
        (frameAddr, { p with
          pmmBitmap := pmmMarkUsed p.pmmBitmap frameAddr
          lastAllocIndex := i })
    | none => (pmmNoFrameAvailable, p)

/-- `pmm_free_frame`; `none` when the assertion halts the system. -/
def pmmFreeFrame (p : Pmm) (frameAddr : Nat) : Option Pmm :=
  if isValidFrameAddr frameAddr then
    some { p with
      pmmBitmap := pmmMarkFree p.pmmBitmap frameAddr
      lastFreeFrame := ⟨getBitmapIndex frameAddr, getBitmapOffset frameAddr⟩ }
  else none

/-- The statics as the loader leaves them. -/
def boot : Pmm := ⟨fun _ => 0#8, ⟨-1, -1⟩, 1⟩

end Pmm

/-! ## Initialization -/

/-- The frames of the kernel image. -/
def kernelImageFrames (l : KernelLayout) : List Nat :=
  (List.range l.kernelFrames).map fun i => u32 (l.kernelStart + i * pageSize)

/-- The frames of the kernel stack, from the top down. -/
def kernelStackFrames (l : KernelLayout) : List Nat :=
  (List.range l.kernelStackPagesAmount).map fun i => sub32 kernelStackTop (i * pageSize)

/-- The frames of the kernel heap. -/
def kernelHeapFrames : List Nat :=
  (List.range (kernelHeapSize / pageSize)).map fun i => u32 (kernelBaseHeapAddr + i * pageSize)

/-- The arguments of `pmm_mark_used` in `pmm_init`, in order. -/
def reservedFrames (l : KernelLayout) : List Nat :=
  kernelImageFrames l ++ kernelStackFrames l ++ kernelHeapFrames ++ [vgaAddress]

/-- `pmm_init`: every frame is free but the reserved ones. The hint and the
next-fit index keep the values they have. -/
def pmmInit (l : KernelLayout) (p : Pmm) : Pmm :=
  { p with pmmBitmap := (reservedFrames l).foldl pmmMarkUsed fun _ => 0#8 }

end MyOs
