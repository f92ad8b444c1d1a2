import MyOs.Theorems.BootMapping

/-!
# The entry that mapping installs

`vmm_map_page` sets the frame with `page_entry_set_frame`, which keeps the low
bits of the old entry and takes all bits of the address, and then ORs the flags
in. So the entry is the requested one just when neither the old entry nor the
address has a low bit that the flags lack.
-/

namespace MyOs

/-- The entry of `v` is the frame of `p` with the flags and `PRESENT`. -/
def InstallsExactly (k : Kernel) (d v p flags : Nat) : Prop :=
  k.mem.load32 (k.entryAddr d v) = getFrameAddr p ||| flags ||| present

/-- The low bits of `w` and `p` are all in the flags or `PRESENT`. -/
def NoStrayBits (w p flags : Nat) : Prop :=
  (w ||| p) &&& 0xFFF &&& (flags ||| present) = (w ||| p) &&& 0xFFF

instance (w p flags : Nat) : Decidable (NoStrayBits w p flags) :=
  inferInstanceAs (Decidable (_ = _))

theorem noStrayBits_iff {w p flags : Nat} : NoStrayBits w p flags ↔
    ∀ i, i < 12 → (w.testBit i || p.testBit i) = true →
      (flags.testBit i || decide (i = 0)) = true := by
  have hbit (i : Nat) : ((w ||| p) &&& 0xFFF &&& (flags ||| present)).testBit i =
      ((w.testBit i || p.testBit i) && decide (i < 12) && (flags.testBit i || decide (i = 0))) := by
    rw [Nat.testBit_and, Nat.testBit_and, Nat.testBit_or, Nat.testBit_or, testBit_lowMask,
      testBit_present]
  have hbit' (i : Nat) : ((w ||| p) &&& 0xFFF).testBit i =
      ((w.testBit i || p.testBit i) && decide (i < 12)) := by
    rw [Nat.testBit_and, Nat.testBit_or, testBit_lowMask]
  constructor
  · intro h i hi hset
    have hi' := congrArg (Nat.testBit · i) h
    simp only [hbit, hbit', hset, decide_eq_true hi, Bool.true_and] at hi'
    exact hi'
  · intro h
    apply Nat.eq_of_testBit_eq
    intro i
    rw [hbit, hbit']
    by_cases hi : i < 12
    · cases hset : w.testBit i || p.testBit i with
      | false => simp
      | true => simp only [h i hi hset, Bool.and_true]
    · simp [hi]

/-- The word `vmm_map_page` writes is the requested one. -/
theorem installed_eq_iff {w p flags : Nat} (hp : p < 2 ^ 32) :
    installed w p flags = getFrameAddr p ||| flags ||| present ↔ NoStrayBits w p flags := by
  have hbit (i : Nat) : (getFrameAddr p ||| flags ||| present).testBit i =
      (p.testBit i && decide (12 ≤ i ∧ i < 32) || flags.testBit i || decide (i = 0)) := by
    rw [Nat.testBit_or, Nat.testBit_or, testBit_getFrameAddr, testBit_present]
  rw [noStrayBits_iff]
  constructor
  · intro h i hi hset
    have hi' := congrArg (Nat.testBit · i) h
    simp only [testBit_installed, hbit, hi, decide_true, Bool.and_true, hset, Bool.true_or,
      Nat.not_le.mpr hi, false_and, decide_false, Bool.and_false, Bool.false_or] at hi'
    exact hi'.symm
  · intro h
    apply Nat.eq_of_testBit_eq
    intro i
    rw [testBit_installed, hbit]
    by_cases hi : i < 12
    · simp only [hi, decide_true, Bool.and_true, Nat.not_le.mpr hi, false_and, decide_false,
        Bool.and_false, Bool.false_or]
      cases hset : w.testBit i || p.testBit i with
      | false => simp
      | true =>
          rw [Bool.true_or, Bool.true_or, h i hi hset]
    · -- above the low bits both are the address
      have hbits : (p.testBit i && decide (12 ≤ i ∧ i < 32)) = p.testBit i := by
        rcases Nat.lt_or_ge i 32 with hlt | hge
        · simp [hlt, Nat.le_of_not_lt hi]
        · rw [Nat.testBit_lt_two_pow (Nat.lt_of_lt_of_le hp (Nat.pow_le_pow_right (by decide) hge)),
            Bool.false_and]
      rw [hbits]
      simp [hi]

/-- **What mapping installs.** On the current directory, with the table of `v` in
memory, `vmm_map_page` returns, and the entry of `v` is then exactly the
requested one if and only if its old value and the address had no stray low bit. -/
theorem mapping_installs_iff (ext : Ext) {k : Kernel} {d v p flags : Nat} (hdir : k.DirectoryIn d)
    (hin : k.TableIn d v) (hp : p < 2 ^ 32) (hflags : flags < pageSize) :
    ∃ k', vmmMapPage ext k.currentDirectory v p flags k = .ok ((), k') ∧
      (InstallsExactly k' d v p flags ↔ NoStrayBits (k.mem.load32 (k.entryAddr d v)) p flags) := by
  refine ⟨_, hdir.vmmMapPage hin hp, ?_⟩
  generalize hw : k.mem.load32 (k.entryAddr d v) = w
  have hlt : installed w p flags < 2 ^ 32 := installed_lt hp (Nat.lt_trans hflags (by decide))
  have haddr : (k.setMem (k.mem.store32 (k.entryAddr d v) (installed w p flags))).entryAddr d v =
      k.entryAddr d v := by
    have halign := getFrameAddr_aligned (k.entryAt d (getDirectoryIndex v))
    have halign' := hdir.aligned
    have hoff := hin.off_walk
    simp only [Kernel.entryAddr, pageSize] at halign halign' hoff
    have hpde : (k.mem.store32 (k.entryAddr d v) (installed w p flags)).load32
        (d + 4 * getDirectoryIndex v) = k.entryAt d (getDirectoryIndex v) :=
      ByteStore.load32_store32_ne (by rw [Kernel.entryAddr]; omega)
    rw [Kernel.entryAddr, Kernel.entryAt, Kernel.setMem, hpde]
    rfl
  rw [InstallsExactly, haddr, ← installed_eq_iff hp]
  have hword : (k.mem.store32 (k.entryAddr d v) (installed w p flags)).load32 (k.entryAddr d v) =
      installed w p flags := ByteStore.load32_store32 hlt
  rw [Kernel.setMem, hword]

/-- `vmm_init` about to map the kernel stack, with the directory at `0x100000`:
as after its first loop, directory entry 15 is the flags alone. -/
def stackKernel : Kernel :=
  { zeroKernel with
      mem := ByteStore.ofWords [(0x10003C, kernelPageFlags)]
      currentDirectory := 0x100000 }

theorem stackKernel_directory : stackKernel.DirectoryIn 0x100000 where
  nonnull := by decide
  aligned := by decide
  mapped := fun i _ => translate_off rfl _
  recursive := fun h => by cases h
  loaded := fun h => by cases h

theorem stackKernel_table {v : Nat} (hv : getDirectoryIndex v = 15) (hlt : v < 2 ^ 32) :
    stackKernel.TableIn 0x100000 v := by
  have hword : stackKernel.entryAt 0x100000 15 = kernelPageFlags := by decide +kernel
  have hindex := getTableIndex_lt v
  refine ⟨hlt, ?_, ?_, fun h => by cases h⟩
  · rw [hv, hword]
    decide
  · rw [Kernel.entryAddr, hv, hword, show getFrameAddr kernelPageFlags = 0 by decide]
    omega

/-- The page at `0x3FFF000` is mapped to itself as asked. -/
theorem mapping_installs_aligned :
    ∃ k', vmmMapPage (link 0) 0x100000 0x3FFF000 0x3FFF000 kernelPageFlags stackKernel = .ok ((), k') ∧
      (InstallsExactly k' 0x100000 0x3FFF000 0x3FFF000 kernelPageFlags ↔
        NoStrayBits (stackKernel.mem.load32 (stackKernel.entryAddr 0x100000 0x3FFF000)) 0x3FFF000
          kernelPageFlags) :=
  mapping_installs_iff (link 0) stackKernel_directory (stackKernel_table (by decide) (by decide))
    (by decide) (by decide)

/-- `vmm_init` maps the top of the kernel stack as `0x3FFFFFF`, and the entry gets
all the low bits of that address: `PAGE_USER` and `SWAPPED` too. -/
theorem mapping_stack_top_user :
    ∃ k', vmmMapPage (link 0) 0x100000 0x3FFFFFF 0x3FFFFFF kernelPageFlags stackKernel = .ok ((), k') ∧
      ¬ InstallsExactly k' 0x100000 0x3FFFFFF 0x3FFFFFF kernelPageFlags ∧
      k'.mem.load32 (k'.entryAddr 0x100000 0x3FFFFFF) = 0x3FFFFFF := by
  have hrun := @Kernel.DirectoryIn.vmmMapPage (link 0) _ _ 0x3FFFFFF 0x3FFFFFF kernelPageFlags
    stackKernel_directory (stackKernel_table (by decide) (by decide)) (by decide)
  obtain ⟨k', hk'⟩ : ∃ k', k' = stackKernel.setMem (stackKernel.mem.store32
      (stackKernel.entryAddr 0x100000 0x3FFFFFF) (installed (stackKernel.mem.load32
        (stackKernel.entryAddr 0x100000 0x3FFFFFF)) 0x3FFFFFF kernelPageFlags)) := ⟨_, rfl⟩
  have hentry : k'.mem.load32 (k'.entryAddr 0x100000 0x3FFFFFF) = 0x3FFFFFF := by
    rw [hk']
    decide +kernel
  refine ⟨k', by rw [hk']; exact hrun, fun hexact => ?_, hentry⟩
  rw [InstallsExactly, hentry] at hexact
  exact absurd hexact (by decide)

end MyOs
