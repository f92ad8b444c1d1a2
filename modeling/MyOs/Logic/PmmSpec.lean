import MyOs.Memory.Pmm

/-!
# What the frame allocator does

`PmmWf` ties the last-freed hint to the bitmap: the hinted frame is free. One
specification for each call: `allocFrame_spec` says which bit an allocation
takes, `freeFrame_spec` which bit a free clears.
-/

namespace MyOs

/-- Frames of a 4 GiB memory. -/
def totalFrames : Nat := 1048576

theorem pmmBitmapSize_eq : pmmBitmapSize = 131072 := by decide

@[simp] theorem frameBit_eq (f : Nat) : frameBit f = f / 4096 := by
  simp only [frameBit, getBitmapIndex, getBitmapOffset, pageSize]
  omega

/-- The address of frame `k`, by byte and offset. -/
theorem calcFrameAddr_eq {i j : Nat} (hi : i < 131072) (hj : j < 8) :
    calcFrameAddr i j = (i * 8 + j) * 4096 := by
  simp only [calcFrameAddr, pageSize]
  rw [u32_of_lt (by omega)]
  omega

theorem isFull_iff (b : Bitmap) (i : Nat) :
    isFull b i = true ↔ ∀ j, j < 8 → b.bit (i * 8 + j) = true := by
  rw [isFull, beq_iff_eq, Bitmap.eq_allOnes_iff]
  have hbit : ∀ j, j < 8 → b.bit (i * 8 + j) = (b i).getLsbD j := by
    intro j hj
    have hdiv : (i * 8 + j) / 8 = i := by omega
    have hmod : (i * 8 + j) % 8 = j := by omega
    simp only [Bitmap.bit, hdiv, hmod]
  constructor
  · intro h j hj
    rw [hbit j hj]
    exact h j hj
  · intro h j hj
    rw [← hbit j hj]
    exact h j hj

/-! ## The two search loops -/

/-- A hit of the inner loop is a clear bit. -/
theorem scanByte_some {byte : Byte} {j : Nat} (h : scanByte byte = some j) :
    j < 8 ∧ byte.getLsbD j = false := by
  have hmem := List.mem_of_find?_eq_some h
  have hlt : j < 8 := List.mem_range.mp hmem
  have hclear := List.find?_some h
  simp only [beq_iff_eq] at hclear
  exact ⟨hlt, (Bitmap.and_bitMask_eq_zero byte j hlt).mp hclear⟩

/-- A hit of the search is a clear bit of a byte in its range. -/
theorem scanBytes_some {b : Bitmap} {start stop i j : Nat}
    (h : scanBytes b start stop = some (i, j)) :
    start ≤ i ∧ i < stop ∧ j < 8 ∧ b.bit (i * 8 + j) = false := by
  obtain ⟨i', hi', hsome⟩ := List.exists_of_findSome?_eq_some h
  rw [List.mem_range'_1] at hi'
  split at hsome
  · cases hsome
  · obtain ⟨j', hj', heq⟩ := Option.map_eq_some_iff.mp hsome
    cases heq
    obtain ⟨hlt, hclear⟩ := scanByte_some hj'
    have hdiv : (i * 8 + j) / 8 = i := by omega
    have hmod : (i * 8 + j) % 8 = j := by omega
    refine ⟨hi'.1, by omega, hlt, ?_⟩
    simp only [Bitmap.bit, hdiv, hmod]
    exact hclear

/-- A byte that is not full has a clear bit for the inner loop to find. -/
theorem scanByte_ne_none {b : Bitmap} {i : Nat} (h : isFull b i = false) :
    scanByte (b i) ≠ none := by
  intro hnone
  rw [scanByte, List.find?_eq_none] at hnone
  have hall : b i = 0xFF#8 := by
    rw [Bitmap.eq_allOnes_iff]
    intro j hj
    have hne := hnone j (List.mem_range.mpr hj)
    simp only [beq_iff_eq] at hne
    cases hb : (b i).getLsbD j with
    | true => rfl
    | false => exact absurd ((Bitmap.and_bitMask_eq_zero (b i) j hj).mpr hb) hne
  simp [isFull, hall] at h

/-- A search that finds nothing has seen only used frames. -/
theorem scanBytes_none {b : Bitmap} {start stop : Nat} (h : scanBytes b start stop = none)
    {k : Nat} (hlo : start * 8 ≤ k) (hhi : k < stop * 8) : b.bit k = true := by
  rw [scanBytes, List.findSome?_eq_none_iff] at h
  have hmem : k / 8 ∈ List.range' start (stop - start) := by
    rw [List.mem_range'_1]
    omega
  have hnone := h (k / 8) hmem
  cases hfull : isFull b (k / 8) with
  | true =>
      have := (isFull_iff b (k / 8)).mp hfull (k % 8) (Nat.mod_lt _ (by omega))
      rwa [show k / 8 * 8 + k % 8 = k by omega] at this
  | false =>
      rw [hfull, if_neg (by simp), Option.map_eq_none_iff] at hnone
      exact absurd hnone (scanByte_ne_none hfull)

/-! ## The invariant of the allocator's statics -/

/-- The statics agree: the hinted frame is free in the bitmap, and the next-fit
index lies inside the searched bytes. The frames freed are those from `lo` on: the
searches start at frame 8, and the hint may be a frame below. -/
structure PmmWfFrom (lo : Nat) (p : Pmm) : Prop where
  hint : p.hasHint = true → ∃ k, lo ≤ k ∧ k < totalFrames ∧
    p.lastFreeFrame = ⟨(k / 8 : Nat), (k % 8 : Nat)⟩ ∧ p.pmmBitmap.bit k = false
  index_pos : 1 ≤ p.lastAllocIndex
  index_lt : p.lastAllocIndex < pmmBitmapSize

/-- The hinted frame is one the search could return. -/
abbrev PmmWf (p : Pmm) : Prop := PmmWfFrom 8 p

section Hint

variable {lo hi : Nat} {p : Pmm}

theorem PmmWfFrom.mono (h : PmmWfFrom hi p) (hle : lo ≤ hi) : PmmWfFrom lo p := by
  refine ⟨fun hhint => ?_, h.index_pos, h.index_lt⟩
  obtain ⟨k, hk, hrest⟩ := h.hint hhint
  exact ⟨k, Nat.le_trans hle hk, hrest⟩

/-- The hint is frame 0, whose address is `PMM_NO_FRAME_AVAILABLE`. -/
theorem Pmm.hasHint_of_zero (h : p.lastFreeFrame = ⟨0, 0⟩) : p.hasHint = true := by
  rw [Pmm.hasHint, h]
  rfl

theorem PmmWfFrom.above_zero (h : PmmWfFrom 0 p) (hne : p.lastFreeFrame ≠ ⟨0, 0⟩) :
    PmmWfFrom 1 p := by
  refine ⟨fun hhint => ?_, h.index_pos, h.index_lt⟩
  obtain ⟨k, _, hk, heq, hfree⟩ := h.hint hhint
  refine ⟨k, Nat.pos_of_ne_zero ?_, hk, heq, hfree⟩
  rintro rfl
  exact hne heq

theorem PmmWfFrom.zero_free (h : PmmWfFrom lo p) (hzero : p.lastFreeFrame = ⟨0, 0⟩) :
    p.pmmBitmap.bit 0 = false := by
  obtain ⟨k, _, _, heq, hfree⟩ := h.hint (Pmm.hasHint_of_zero hzero)
  rw [hzero, LastFreeFrame.mk.injEq] at heq
  rwa [show k = 0 by omega] at hfree

/-- The hint is taken without a look at its address. -/
theorem Pmm.pmmAllocFrame_zero (h : p.lastFreeFrame = ⟨0, 0⟩) :
    p.pmmAllocFrame = (pmmNoFrameAvailable,
      { p with pmmBitmap := pmmMarkUsed p.pmmBitmap 0, lastFreeFrame := ⟨-1, -1⟩ }) := by
  rw [Pmm.pmmAllocFrame, if_pos (Pmm.hasHint_of_zero h), h]
  rfl

end Hint

/-- What an allocation did: nothing, with every searched frame used, or it took
one free frame `k` and changed no other bit. -/
inductive AllocResult (p : Pmm) : Nat → Pmm → Prop
  | none : (∀ k, 8 ≤ k → k < totalFrames → p.pmmBitmap.bit k = true) →
      AllocResult p pmmNoFrameAvailable p
  | frame {k p'} : 8 ≤ k → k < totalFrames → p.pmmBitmap.bit k = false →
      (∀ j, p'.pmmBitmap.bit j = (decide (j = k) || p.pmmBitmap.bit j)) →
      AllocResult p (k * 4096) p'

/-- The frame an allocation gave was free, and now is not. -/
theorem AllocResult.of_ne {p p' : Pmm} {f : Nat} (h : AllocResult p f p')
    (hne : f ≠ pmmNoFrameAvailable) :
    ∃ n, f = n * 4096 ∧ 8 ≤ n ∧ n < totalFrames ∧ p.pmmBitmap.bit n = false ∧
      ∀ j, p'.pmmBitmap.bit j = (decide (j = n) || p.pmmBitmap.bit j) := by
  cases h with
  | none => exact absurd rfl hne
  | frame hlo hhi hfree hbits => exact ⟨_, rfl, hlo, hhi, hfree, hbits⟩

theorem pmmMarkUsed_bit (b : Bitmap) (k j : Nat) :
    (pmmMarkUsed b (k * 4096)).bit j = (decide (j = k) || b.bit j) := by
  rw [pmmMarkUsed, frameBit_eq, Nat.mul_div_cancel _ (by decide), Bitmap.bit_markUsed]

/-- What an allocation did when frames below 8 may have been freed. -/
inductive AllocResultFrom (lo : Nat) (p : Pmm) : Nat → Pmm → Prop
  | none : p.hasHint = false → (∀ k, 8 ≤ k → k < totalFrames → p.pmmBitmap.bit k = true) →
      AllocResultFrom lo p pmmNoFrameAvailable p
  | frame {k p'} : lo ≤ k → k < totalFrames → p.pmmBitmap.bit k = false →
      (∀ j, p'.pmmBitmap.bit j = (decide (j = k) || p.pmmBitmap.bit j)) →
      (p.hasHint = true → p.lastFreeFrame = ⟨(k / 8 : Nat), (k % 8 : Nat)⟩) →
      p'.hasHint = false → AllocResultFrom lo p (k * 4096) p'

/-- `pmm_alloc_frame` under the invariant. -/
theorem allocFrame_specFrom {lo : Nat} (hle : lo ≤ 8) {p : Pmm} (hwf : PmmWfFrom lo p) :
    AllocResultFrom lo p p.pmmAllocFrame.1 p.pmmAllocFrame.2 ∧ PmmWfFrom lo p.pmmAllocFrame.2 := by
  have hsize := pmmBitmapSize_eq
  have hpos := hwf.index_pos
  have hlt := hwf.index_lt
  unfold Pmm.pmmAllocFrame
  by_cases hhint : p.hasHint = true
  · -- the last freed frame is reused without a look at its bit
    obtain ⟨k, hlo, hhi, heq, hfree⟩ := hwf.hint hhint
    simp only [totalFrames] at hhi
    have haddr : calcFrameAddr p.lastFreeFrame.index.toNat p.lastFreeFrame.offset.toNat =
        k * 4096 := by
      rw [heq]
      simp only [Int.toNat_natCast]
      rw [calcFrameAddr_eq (by omega) (by omega)]
      omega
    rw [if_pos hhint, haddr]
    exact ⟨.frame hlo hhi hfree (fun j => pmmMarkUsed_bit _ _ _) (fun _ => heq)
      (by simp [Pmm.hasHint]), ⟨fun h => absurd h (by simp [Pmm.hasHint]), hpos, hlt⟩⟩
  · rw [if_neg hhint]
    have hkeep : ∀ i b, 1 ≤ i → i < pmmBitmapSize →
        PmmWfFrom lo { p with pmmBitmap := b, lastAllocIndex := i } :=
      fun i b h1 h2 => ⟨fun h => absurd h hhint, h1, h2⟩
    cases hscan : (scanBytes p.pmmBitmap p.lastAllocIndex pmmBitmapSize).or
        (scanBytes p.pmmBitmap 1 p.lastAllocIndex) with
    | none =>
        rw [Option.or_eq_none_iff] at hscan
        refine ⟨.none (Bool.eq_false_iff.mpr hhint) fun k hlo hhi => ?_, hwf⟩
        -- the two loops together cover bytes 1 to the end
        by_cases hk : k < p.lastAllocIndex * 8
        · exact scanBytes_none hscan.2 (by omega) hk
        · exact scanBytes_none hscan.1 (by omega) (by simp only [totalFrames] at hhi; omega)
    | some found =>
        obtain ⟨i, j⟩ := found
        have hrange : 1 ≤ i ∧ i < pmmBitmapSize ∧ j < 8 ∧ p.pmmBitmap.bit (i * 8 + j) = false := by
          rcases Option.or_eq_some_iff.mp hscan with h | ⟨_, h⟩
          · obtain ⟨h1, h2, h3, h4⟩ := scanBytes_some h
            exact ⟨by omega, h2, h3, h4⟩
          · obtain ⟨h1, h2, h3, h4⟩ := scanBytes_some h
            exact ⟨h1, by omega, h3, h4⟩
        obtain ⟨h1, h2, h3, hfree⟩ := hrange
        simp only [calcFrameAddr_eq (by omega : i < 131072) h3]
        exact ⟨.frame (by omega) (by simp only [totalFrames]; omega) hfree
          (fun _ => pmmMarkUsed_bit _ _ _) (fun h => absurd h hhint) (Bool.eq_false_iff.mpr hhint),
          hkeep i _ h1 h2⟩

/-- A frame that an allocation gave was free, and now is not. -/
theorem PmmWfFrom.alloc_of_ne {lo f : Nat} {p : Pmm} (hwf : PmmWfFrom lo p)
    (hf : p.pmmAllocFrame.1 = f) (hne : f ≠ pmmNoFrameAvailable) :
    ∃ n, f = n * 4096 ∧ n < totalFrames ∧ p.pmmBitmap.bit n = false ∧
      ∀ j, p.pmmAllocFrame.2.pmmBitmap.bit j = (decide (j = n) || p.pmmBitmap.bit j) := by
  obtain ⟨hres, _⟩ := allocFrame_specFrom (Nat.zero_le 8) (hwf.mono (Nat.zero_le lo))
  rw [hf] at hres
  generalize p.pmmAllocFrame.2 = p' at hres ⊢
  cases hres with
  | none => exact absurd rfl hne
  | frame _ hhi hfree hbits _ _ => exact ⟨_, rfl, hhi, hfree, hbits⟩

/-- Whatever an allocation gives, the statics agree as before. -/
theorem PmmWfFrom.alloc {lo : Nat} {p : Pmm} (hwf : PmmWfFrom lo p) :
    PmmWfFrom lo p.pmmAllocFrame.2 := by
  obtain ⟨hres, hwf'⟩ := allocFrame_specFrom (Nat.zero_le 8) (hwf.mono (Nat.zero_le lo))
  generalize p.pmmAllocFrame.1 = frame at hres
  generalize p.pmmAllocFrame.2 = p' at hres hwf' ⊢
  cases hres with
  | none => exact hwf
  | frame _ _ _ _ _ hnone =>
      exact ⟨fun hhint => absurd hhint (by rw [hnone]; decide), hwf'.index_pos, hwf'.index_lt⟩

theorem allocFrame_spec {p : Pmm} (hwf : PmmWf p) :
    AllocResult p p.pmmAllocFrame.1 p.pmmAllocFrame.2 ∧ PmmWf p.pmmAllocFrame.2 := by
  obtain ⟨hres, hwf'⟩ := allocFrame_specFrom (Nat.le_refl 8) hwf
  refine ⟨?_, hwf'⟩
  generalize p.pmmAllocFrame.1 = frame at hres ⊢
  generalize p.pmmAllocFrame.2 = p' at hres ⊢
  cases hres with
  | none _ hall => exact .none hall
  | frame hlo hhi hfree hbits _ _ => exact .frame hlo hhi hfree hbits

/-- An allocation clears no bit. -/
theorem Pmm.alloc_used {p : Pmm} {j : Nat} (h : p.pmmBitmap.bit j = true) :
    p.pmmAllocFrame.2.pmmBitmap.bit j = true := by
  have hmark : ∀ frame, (pmmMarkUsed p.pmmBitmap frame).bit j = true := fun frame => by
    rw [pmmMarkUsed, Bitmap.bit_markUsed, h, Bool.or_true]
  unfold Pmm.pmmAllocFrame
  split
  · exact hmark _
  · split
    · exact hmark _
    · exact h

/-- An allocation that gives none took frame 0, or it saw every frame used. -/
theorem Pmm.alloc_none {p : Pmm} (hnone : p.pmmAllocFrame.1 = pmmNoFrameAvailable) :
    p.pmmAllocFrame.2.pmmBitmap.bit 0 = true ∨
      p.hasHint = false ∧ p.pmmAllocFrame.2 = p ∧
        ∀ k, 8 ≤ k → k < totalFrames → p.pmmBitmap.bit k = true := by
  have hmark : (pmmMarkUsed p.pmmBitmap 0).bit 0 = true := by
    rw [← Nat.zero_mul 4096, pmmMarkUsed_bit, decide_eq_true rfl, Bool.true_or]
  have hsize := pmmBitmapSize_eq
  unfold Pmm.pmmAllocFrame at hnone ⊢
  by_cases hhint : p.hasHint = true
  · rw [if_pos hhint] at hnone ⊢
    simp only [pmmNoFrameAvailable] at hnone
    simp only [hnone]
    exact .inl hmark
  · rw [if_neg hhint] at hnone ⊢
    cases hscan : (scanBytes p.pmmBitmap p.lastAllocIndex pmmBitmapSize).or
        (scanBytes p.pmmBitmap 1 p.lastAllocIndex) with
    | none =>
        rw [Option.or_eq_none_iff] at hscan
        refine .inr ⟨Bool.eq_false_iff.mpr hhint, rfl, fun k hlo hhi => ?_⟩
        by_cases hk : k < p.lastAllocIndex * 8
        · exact scanBytes_none hscan.2 (by omega) hk
        · exact scanBytes_none hscan.1 (by omega) (by simp only [totalFrames] at hhi; omega)
    | some found =>
        rw [hscan] at hnone
        simp only [pmmNoFrameAvailable] at hnone
        simp only [hnone]
        exact .inl hmark

/-- `pmm_free_frame` of a frame: the assertion holds, exactly that bit is cleared and
the frame becomes the hint. -/
theorem freeFrame_specFrom {lo : Nat} {p : Pmm} (hwf : PmmWfFrom lo p) {k : Nat} (hlo : lo ≤ k)
    (hhi : k < totalFrames) :
    ∃ p', p.pmmFreeFrame (k * 4096) = some p' ∧ PmmWfFrom lo p' ∧
      (∀ j, p'.pmmBitmap.bit j = (!decide (j = k) && p.pmmBitmap.bit j)) ∧ p'.hasHint = true ∧
      p'.lastFreeFrame = ⟨(k / 8 : Nat), (k % 8 : Nat)⟩ := by
  have hvalid : isValidFrameAddr (k * 4096) = true := by
    have hlt : k * 4096 < memorySize := by
      simp only [memorySize, totalFrames] at hhi ⊢
      omega
    have hmod : k * 4096 % pageSize = 0 := Nat.mul_mod_left k 4096
    simp [isValidFrameAddr, hlt, hmod]
  have hbits : ∀ j, (pmmMarkFree p.pmmBitmap (k * 4096)).bit j =
      (!decide (j = k) && p.pmmBitmap.bit j) := by
    intro j
    rw [pmmMarkFree, frameBit_eq, Nat.mul_div_cancel _ (by decide), Bitmap.bit_markFree]
  have hhint : (⟨getBitmapIndex (k * 4096), getBitmapOffset (k * 4096)⟩ : LastFreeFrame) =
      ⟨(k / 8 : Nat), (k % 8 : Nat)⟩ := by
    simp only [getBitmapIndex, getBitmapOffset, pageSize]
    rw [Nat.mul_div_cancel _ (by decide)]
  refine ⟨_, if_pos hvalid, ⟨fun _ => ⟨k, hlo, hhi, hhint, ?_⟩, hwf.index_pos, hwf.index_lt⟩,
    hbits, ?_, hhint⟩
  · simp [hbits]
  · rw [Pmm.hasHint, Bool.and_eq_true, bne_iff_ne, bne_iff_ne]
    exact ⟨by simp only [ne_eq]; omega, by simp only [ne_eq]; omega⟩

/-- A frame the searches could return. -/
theorem freeFrame_spec {p : Pmm} (hwf : PmmWf p) {k : Nat} (hlo : 8 ≤ k)
    (hhi : k < totalFrames) :
    ∃ p', p.pmmFreeFrame (k * 4096) = some p' ∧ PmmWf p' ∧
      ∀ j, p'.pmmBitmap.bit j = (!decide (j = k) && p.pmmBitmap.bit j) := by
  obtain ⟨p', hfree, hwf', hbits, _, _⟩ := freeFrame_specFrom hwf hlo hhi
  exact ⟨p', hfree, hwf', hbits⟩

/-! ## The frames `pmm_init` reserves -/

/-- The page at `f` holds a byte of the kernel image, of the kernel stack, of
the kernel heap or of the VGA text buffer. -/
def Reserved (l : KernelLayout) (f : Nat) : Prop :=
  (l.kernelStart < f + pageSize ∧ f < l.kernelEnd) ∨
  (kernelStackTop + 1 < f + pageSize + l.kernelStackPagesAmount * pageSize ∧
    f ≤ kernelStackTop) ∨
  (kernelBaseHeapAddr < f + pageSize ∧ f < kernelBaseHeapAddr + kernelHeapSize) ∨
  (vgaAddress < f + pageSize ∧ f < vgaAddress + 4000)

theorem mem_reservedFrames {l : KernelLayout} {k : Nat} (hres : Reserved l (k * 4096)) :
    k ∈ (reservedFrames l).map frameBit := by
  have hframes := l.kernelFrames_eq
  have hstart := l.start_aligned
  have hend := l.below_stack
  have hle := l.start_le_end
  simp only [Reserved, pageSize, kernelStackTop, kernelBaseHeapAddr_eq, kernelHeapSize_eq,
    vgaAddress] at hres hstart hend
  simp only [reservedFrames, List.map_append, List.mem_append, kernelImageFrames,
    kernelStackFrames, kernelHeapFrames, List.map_map, List.mem_map, List.mem_range,
    Function.comp_apply, frameBit_eq, pageSize, kernelStackTop, kernelBaseHeapAddr_eq,
    kernelHeapSize_eq, List.map_cons, List.map_nil, List.mem_singleton, vgaAddress]
  rcases hres with himage | hstack | hheap | hvga
  · refine .inl (.inl (.inl ⟨k - l.kernelStart / 4096, by omega, ?_⟩))
    rw [u32_of_lt (by omega)]
    omega
  · refine .inl (.inl (.inr ⟨0x3FFF - k, by omega, ?_⟩))
    rw [sub32_of_le (by omega) (by omega)]
    omega
  · refine .inl (.inr ⟨k - 0x4000, by omega, ?_⟩)
    rw [u32_of_lt (by omega)]
    omega
  · exact .inr (by omega)

/-- After `pmm_init` every reserved frame is marked used. -/
theorem pmmInit_reserved (l : KernelLayout) (p : Pmm) {k : Nat}
    (hres : Reserved l (k * 4096)) : (pmmInit l p).pmmBitmap.bit k = true := by
  have hfold : (reservedFrames l).foldl pmmMarkUsed (fun _ => 0#8) =
      ((reservedFrames l).map frameBit).foldl Bitmap.markUsed fun _ => 0#8 := by
    rw [List.foldl_map]
    rfl
  simp [pmmInit, hfold, Bitmap.bit_foldl_markUsed, mem_reservedFrames hres]

theorem pmmInit_wf (l : KernelLayout) : PmmWf (pmmInit l Pmm.boot) where
  hint h := absurd h (by simp [pmmInit, Pmm.boot, Pmm.hasHint])
  index_pos := Nat.le_refl 1
  index_lt := (by decide : 1 < pmmBitmapSize)

end MyOs
