import MyOs.Memory.Vmm

/-!
# Boot of the virtual memory manager (`vmm_init`)

The kernel directory is a page of the kernel's zeroed data. `vmm_init` fills in
its attributes and maps the image, the stack, the heap and the VGA buffer to
themselves, with paging still off.
-/

namespace MyOs

/-- The image with the directory in it. -/
structure VmmLayout extends KernelLayout where
  /-- `&kernel_directory` -/
  kernelDirectory : Nat
  directory_aligned : kernelDirectory % pageSize = 0
  directory_inside : kernelStart ≤ kernelDirectory ∧ kernelDirectory + pageSize ≤ kernelEnd
  directory_nonnull : kernelDirectory ≠ 0

/-- Map the pages `addr i` for `i < n` to themselves. -/
def identityMap (ext : Ext) (addr : Nat → Nat) (flags n : Nat) : Prog Kernel Unit :=
  Prog.forLoop (fun i => vmmMapPageToCurrDir ext (addr i) (addr i) flags) 0 n

/-- `vmm_init`. -/
def vmmInit (ext : Ext) (l : VmmLayout) : Prog Kernel Unit := do
  Prog.modify fun k => { k with currentDirectory := l.kernelDirectory }
  Prog.forLoop (fun i =>
    modifyWord ext (l.kernelDirectory + 4 * i) fun w => pageEntryAddAttrib w kernelPageFlags)
    0 tablesPerDir
  identityMap ext (fun i => u32 (l.kernelStart + i * pageSize)) kernelPageFlags l.kernelFrames
  storeWord ext (l.kernelDirectory + 4 * recursivePageTableIndex)
    (l.kernelDirectory ||| kernelPageFlags)
  identityMap ext (fun i => sub32 kernelStackTop (i * pageSize)) kernelPageFlags
    l.kernelStackPagesAmount
  identityMap ext (fun i => u32 (kernelBaseHeapAddr + i * pageSize)) kernelPageFlags
    (kernelHeapSize / pageSize)
  identityMap ext (fun _ => vgaAddress) (present ||| pageWriteable) 1
  Prog.modify fun k => { k with cr3 := l.kernelDirectory, pagingEnabled := true }

/-- The state `vmm_init` starts in: paging off, and the directory zero as the
rest of the image's uninitialized data. Nothing else is promised. -/
structure BeforeVmmInit (l : VmmLayout) (k : Kernel) : Prop where
  paging_off : k.pagingEnabled = false
  directory_zero : ∀ i, i < tablesPerDir → k.entryAt l.kernelDirectory i = 0

end MyOs
