import MyOs.Base.System
import MyOs.Logic.PmmSpec

/-!
# The frame allocator over whole runs

The allocator starts in `pmm_init` and then serves any sequence of
allocations and frees, where only frames handed out and not yet freed are
freed. `outstanding` records those frames.
-/

namespace MyOs

/-- A call of the allocator. -/
inductive PmmCall
  | alloc
  | free (frameAddr : Nat)

/-- The allocator with the frames its callers hold. -/
structure PmmRun where
  pmm : Pmm
  outstanding : List Nat

/-- Any sequence of calls from `pmm_init`; a caller frees only what it holds. -/
def pmmSys (l : KernelLayout) : TSys PmmRun PmmCall where
  init s := s = ⟨pmmInit l Pmm.boot, []⟩
  step s call s' :=
    match call with
    | .alloc =>
        let frame := s.pmm.pmmAllocFrame.1
        s' = ⟨s.pmm.pmmAllocFrame.2,
          if frame = pmmNoFrameAvailable then s.outstanding else frame :: s.outstanding⟩
    | .free frameAddr =>
        frameAddr ∈ s.outstanding ∧ s.pmm.pmmFreeFrame frameAddr = some s'.pmm ∧
          s'.outstanding = s.outstanding.erase frameAddr

/-- What the next allocation in `s` returns and changes. -/
structure AllocCorrect (l : KernelLayout) (s : PmmRun) (frame : Nat) (pmm' : Pmm) : Prop where
  aligned : frame ≠ pmmNoFrameAvailable → frame % pageSize = 0
  in_memory : frame ≠ pmmNoFrameAvailable → frame < memorySize
  was_free : frame ≠ pmmNoFrameAvailable → s.pmm.pmmBitmap.bit (frameBit frame) = false
  not_outstanding : frame ≠ pmmNoFrameAvailable → frame ∉ s.outstanding
  not_reserved : frame ≠ pmmNoFrameAvailable → ¬ Reserved l frame
  takes_one_bit : frame ≠ pmmNoFrameAvailable → ∀ k, pmm'.pmmBitmap.bit k =
    (decide (k = frameBit frame) || s.pmm.pmmBitmap.bit k)
  exhausted : frame = pmmNoFrameAvailable → ∀ i, 1 ≤ i → i < pmmBitmapSize →
    ∀ j, j < 8 → s.pmm.pmmBitmap.bit (i * 8 + j) = true
  exhausted_keeps : frame = pmmNoFrameAvailable → pmm' = s.pmm

/-- The run's invariant: the statics agree, the outstanding frames are distinct,
used and not reserved, and the reserved frames are used. -/
structure PmmRunInv (l : KernelLayout) (s : PmmRun) : Prop where
  wf : PmmWf s.pmm
  held : ∀ f ∈ s.outstanding, ∃ k, f = k * 4096 ∧ 8 ≤ k ∧ k < totalFrames ∧
    s.pmm.pmmBitmap.bit k = true ∧ ¬ Reserved l f
  nodup : s.outstanding.Nodup
  reserved : ∀ k, Reserved l (k * 4096) → s.pmm.pmmBitmap.bit k = true

theorem PmmRunInv.alloc {l : KernelLayout} {s : PmmRun} (h : PmmRunInv l s) {frame : Nat}
    {pmm' : Pmm} (hres : AllocResult s.pmm frame pmm') (hwf : PmmWf pmm') :
    PmmRunInv l ⟨pmm',
      if frame = pmmNoFrameAvailable then s.outstanding else frame :: s.outstanding⟩ := by
  cases hres with
  | none _ => exact ⟨hwf, h.held, h.nodup, h.reserved⟩
  | @frame k _ hlo hhi hfree hbits =>
      have hne : k * 4096 ≠ pmmNoFrameAvailable := by
        simp only [pmmNoFrameAvailable]
        omega
      rw [if_neg hne]
      refine ⟨hwf, ?_, ?_, ?_⟩
      · intro f hf
        rcases List.mem_cons.mp hf with rfl | hold
        · refine ⟨k, rfl, hlo, hhi, by simp [hbits], fun hr => ?_⟩
          have := h.reserved k hr
          rw [hfree] at this
          cases this
        · obtain ⟨j, rfl, hj1, hj2, hused, hnot⟩ := h.held f hold
          exact ⟨j, rfl, hj1, hj2, by simp [hbits, hused], hnot⟩
      · refine List.nodup_cons.mpr ⟨fun hmem => ?_, h.nodup⟩
        obtain ⟨j, hj, _, _, hused, _⟩ := h.held _ hmem
        obtain rfl : j = k := by omega
        rw [hfree] at hused
        cases hused
      · intro j hj
        simp [hbits, h.reserved j hj]

theorem PmmRunInv.free {l : KernelLayout} {s s' : PmmRun} (h : PmmRunInv l s) {f : Nat}
    (hf : f ∈ s.outstanding) (hfree : s.pmm.pmmFreeFrame f = some s'.pmm)
    (hout : s'.outstanding = s.outstanding.erase f) : PmmRunInv l s' := by
  obtain ⟨k, rfl, hlo, hhi, _, hnot⟩ := h.held f hf
  obtain ⟨p', hp', hwf, hbits⟩ := freeFrame_spec h.wf hlo hhi
  obtain rfl : p' = s'.pmm := Option.some.inj (hp'.symm.trans hfree)
  refine ⟨hwf, ?_, ?_, ?_⟩
  · intro g hg
    rw [hout, h.nodup.mem_erase_iff] at hg
    obtain ⟨j, rfl, hj1, hj2, hused, hnr⟩ := h.held g hg.2
    have hjk : j ≠ k := fun heq => hg.1 (by rw [heq])
    exact ⟨j, rfl, hj1, hj2, by simp [hbits, hjk, hused], hnr⟩
  · rw [hout]
    exact h.nodup.erase _
  · intro j hj
    have hjk : j ≠ k := fun heq => hnot (heq ▸ hj)
    simp [hbits, hjk, h.reserved j hj]

theorem pmmSys_inductive (l : KernelLayout) : (pmmSys l).Inductive (PmmRunInv l) where
  init := by
    rintro s rfl
    exact ⟨pmmInit_wf l, by simp, List.nodup_nil, fun k hk => pmmInit_reserved l _ hk⟩
  step := by
    intro s call s' h hstep
    cases call with
    | alloc =>
        obtain ⟨hres, hwf⟩ := allocFrame_spec h.wf
        rw [show s' = _ from hstep]
        exact h.alloc hres hwf
    | free f =>
        obtain ⟨hf, hfree, hout⟩ := hstep
        exact h.free hf hfree hout

/-- A free of an outstanding frame passes the assertion of `pmm_free_frame`. -/
theorem free_outstanding_returns {l : KernelLayout} {s : PmmRun}
    (hs : (pmmSys l).Reachable s) {f : Nat} (hf : f ∈ s.outstanding) :
    ∃ p', s.pmm.pmmFreeFrame f = some p' := by
  have h := (pmmSys_inductive l).invariant s hs
  obtain ⟨k, rfl, hlo, hhi, _, _⟩ := h.held f hf
  obtain ⟨p', hp', _⟩ := freeFrame_spec h.wf hlo hhi
  exact ⟨p', hp'⟩

/-- **Frame allocator correctness.** After `pmm_init` and any sequence of
allocations and frees of outstanding frames, in any order, an allocation
returns an aligned frame that was free, is nobody's and is not reserved, and
takes exactly that frame's bit; it reports exhaustion only when every frame of
bytes 1 to the end of the bitmap is used. -/
theorem frame_allocator_correct (l : KernelLayout) :
    (pmmSys l).Invariant fun s =>
      AllocCorrect l s s.pmm.pmmAllocFrame.1 s.pmm.pmmAllocFrame.2 := by
  intro s hs
  have h := (pmmSys_inductive l).invariant s hs
  have hres := (allocFrame_spec h.wf).1
  generalize s.pmm.pmmAllocFrame.1 = frame at hres ⊢
  generalize s.pmm.pmmAllocFrame.2 = pmm' at hres ⊢
  cases hres with
  | none hall =>
      have no : ∀ {P : Prop}, pmmNoFrameAvailable ≠ pmmNoFrameAvailable → P :=
        fun hne => absurd rfl hne
      refine ⟨no, no, no, no, no, no, fun _ i hi hlt j hj => hall _ (by omega) ?_, fun _ => rfl⟩
      rw [pmmBitmapSize_eq] at hlt
      simp only [totalFrames]
      omega
  | @frame k _ hlo hhi hfree hbits =>
      have hne : k * 4096 ≠ pmmNoFrameAvailable := by
        simp only [pmmNoFrameAvailable]
        omega
      have hbit : frameBit (k * 4096) = k := by
        rw [frameBit_eq, Nat.mul_div_cancel _ (by decide)]
      refine ⟨fun _ => Nat.mul_mod_left k 4096, fun _ => ?_, fun _ => hbit.symm ▸ hfree,
        fun _ hmem => ?_, fun _ hr => ?_, fun _ j => by rw [hbit, hbits],
        fun h0 => absurd h0 hne, fun h0 => absurd h0 hne⟩
      · simp only [memorySize, totalFrames] at hhi ⊢
        omega
      · obtain ⟨j, hj, _, _, hused, _⟩ := h.held _ hmem
        obtain rfl : j = k := by omega
        rw [hfree] at hused
        cases hused
      · have := h.reserved k hr
        rw [hfree] at this
        cases this

end MyOs
