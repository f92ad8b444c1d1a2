import MyOs.Base.Word

/-!
# The kernel's memory layout

Constants of `pmm.h`, `vmm.h`, `kmalloc.h` and `screen.h`, the stack symbols of
`start.asm`, and the linker symbols that `pmm_init` and `vmm_init` read.
-/

namespace MyOs

/-- `MEMORY_SIZE`, 4 GiB. -/
def memorySize : Nat := 0x100000000

/-- `PMM_BLOCK_SIZE` and `PAGE_SIZE`, 4 KiB. -/
def pageSize : Nat := 4096

/-- `VGA_ADDRESS`. -/
def vgaAddress : Nat := 0xB8000

/-- `NUM_CACHES`. -/
def numCaches : Nat := 8

/-- `EXTRA_BLOCKS`. -/
def extraBlocks : Nat := 100

/-- `KERNEL_HEAP_SIZE`. -/
def kernelHeapSize : Nat := pageSize * (numCaches + extraBlocks)

/-- `_kernel_stack_top`. -/
def kernelStackTop : Nat := 0x4000000 - 1

/-- `ALIGNED_TO_PHYSICAL_PAGE` and `ALIGN_TO_PAGE`. -/
def alignToPage (addr : Nat) : Nat := u32 (addr + pageSize - 1) / pageSize * pageSize

/-- `KERNEL_BASE_HEAP_ADDR`, as `pmm_init` and `vmm_init` compute it. -/
def kernelBaseHeapAddr : Nat := alignToPage kernelStackTop

theorem kernelBaseHeapAddr_eq : kernelBaseHeapAddr = 0x4000000 := by decide

theorem kernelHeapSize_eq : kernelHeapSize = 0x6C000 := by decide

/-- The linker symbols: a page-aligned image that ends below the stack area. -/
structure KernelLayout where
  /-- `&_kernel_start` -/
  kernelStart : Nat
  /-- `&_kernel_end` -/
  kernelEnd : Nat
  /-- `_kernel_stack_pages_amount` -/
  kernelStackPagesAmount : Nat
  start_aligned : kernelStart % pageSize = 0
  start_le_end : kernelStart ≤ kernelEnd
  below_stack : kernelEnd + kernelStackPagesAmount * pageSize ≤ kernelStackTop + 1

/-! An image of 64 KiB at 1 MiB with a stack of four pages is a layout. -/

theorem smallImage_aligned : 0x100000 % pageSize = 0 := by decide

theorem smallImage_le : 0x100000 ≤ 0x110000 := by decide

theorem smallImage_below_stack : 0x110000 + 4 * pageSize ≤ kernelStackTop + 1 := by decide

namespace KernelLayout

/-- `kernel_size`. -/
def kernelSize (l : KernelLayout) : Nat := sub32 l.kernelEnd l.kernelStart

/-- `kernel_frames`, the image size in whole frames. -/
def kernelFrames (l : KernelLayout) : Nat := u32 (l.kernelSize + pageSize - 1) / pageSize

theorem kernelFrames_eq (l : KernelLayout) :
    l.kernelFrames = (l.kernelEnd - l.kernelStart + 4095) / 4096 := by
  have hend := l.below_stack
  have hle := l.start_le_end
  simp only [pageSize, kernelStackTop] at hend
  have hsize : l.kernelSize = l.kernelEnd - l.kernelStart := sub32_of_le hle (by omega)
  rw [kernelFrames, hsize, u32_of_lt (by simp only [pageSize]; omega)]
  simp [pageSize]

end KernelLayout
end MyOs
