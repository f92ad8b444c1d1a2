import MyOs.Base.System
import MyOs.Logic.PmmSpec

/-!
# Whether a freed frame can be had again

The searches of `pmm_alloc_frame` start at byte 1 of the bitmap. A frame of byte 0 is
only found through the hint of the last free, which the next free overwrites; and
frame 0 is itself `PMM_NO_FRAME_AVAILABLE`.
-/

namespace MyOs

/-- A call of the allocator; any frame may be freed. -/
inductive FrameCall
  | alloc
  | free (frameAddr : Nat)

/-- The allocator with every frame that was ever freed. -/
structure FrameRun where
  pmm : Pmm
  freed : List Nat

/-- Any sequence of calls from `pmm_init`; a free is one that passes the assertion. -/
def frameSys (l : KernelLayout) : TSys FrameRun FrameCall where
  init s := s = ⟨pmmInit l Pmm.boot, []⟩
  step s call s' :=
    match call with
    | .alloc => s' = ⟨s.pmm.pmmAllocFrame.2, s.freed⟩
    | .free frameAddr => s.pmm.pmmFreeFrame frameAddr = some s'.pmm ∧
        s'.freed = frameAddr :: s.freed

/-- What the next allocation may do: it finds nothing only when no freed frame is free,
and then marks nothing. -/
structure AllocFair (s : FrameRun) : Prop where
  none_free : s.pmm.pmmAllocFrame.1 = pmmNoFrameAvailable →
    ∀ f ∈ s.freed, s.pmm.pmmBitmap.bit (frameBit f) = true
  none_marked : s.pmm.pmmAllocFrame.1 = pmmNoFrameAvailable →
    ∀ j, s.pmm.pmmAllocFrame.2.pmmBitmap.bit j = s.pmm.pmmBitmap.bit j

/-- The hint is a frame of byte 0. -/
def LowHint (p : Pmm) : Prop := p.hasHint = true ∧ p.lastFreeFrame.index = 0

/-- The call frees neither frame 0 nor, while the hint is a frame of byte 0, another
frame than that. -/
def KeepsLowHint (s : FrameRun) : FrameCall → Prop
  | .alloc => True
  | .free frameAddr => frameAddr ≠ 0 ∧
      (LowHint s.pmm →
        s.pmm.lastFreeFrame = ⟨getBitmapIndex frameAddr, getBitmapOffset frameAddr⟩)

/-- Every freed frame but frame 0 can be found: by a search, or it is the hint. -/
structure FreedFound (s : FrameRun) : Prop where
  wf : PmmWfFrom 1 s.pmm
  found : ∀ f ∈ s.freed, ∃ k, f = k * 4096 ∧ 1 ≤ k ∧ k < totalFrames ∧
    (k < 8 → s.pmm.pmmBitmap.bit k = false →
      s.pmm.hasHint = true ∧ s.pmm.lastFreeFrame = ⟨(k / 8 : Nat), (k % 8 : Nat)⟩)

theorem hint_inj {i k : Nat}
    (h : (⟨(i / 8 : Nat), (i % 8 : Nat)⟩ : LastFreeFrame) = ⟨(k / 8 : Nat), (k % 8 : Nat)⟩) :
    i = k := by
  simp only [LastFreeFrame.mk.injEq, Int.natCast_inj] at h
  omega

/-- The hint of a free, by the frame's number. -/
theorem hint_of_frame (k : Nat) :
    (⟨getBitmapIndex (k * 4096), getBitmapOffset (k * 4096)⟩ : LastFreeFrame) =
      ⟨(k / 8 : Nat), (k % 8 : Nat)⟩ := by
  simp only [getBitmapIndex, getBitmapOffset, pageSize]
  rw [Nat.mul_div_cancel _ (by decide)]

/-- The assertion lets exactly the frames of the memory through. -/
theorem pmmFreeFrame_valid {p p' : Pmm} {f : Nat} (h : p.pmmFreeFrame f = some p') :
    ∃ k, f = k * 4096 ∧ k < totalFrames := by
  have hvalid : isValidFrameAddr f = true := by
    cases hv : isValidFrameAddr f with
    | true => rfl
    | false =>
        rw [Pmm.pmmFreeFrame, hv] at h
        cases h
  rw [isValidFrameAddr, Bool.and_eq_true, beq_iff_eq] at hvalid
  have hlt : f < memorySize := of_decide_eq_true hvalid.1
  have hmod := hvalid.2
  simp only [memorySize, pageSize] at hlt hmod
  exact ⟨f / 4096, by omega, by simp only [totalFrames]; omega⟩

section Steps

variable {s s' : FrameRun} (h : FreedFound s)

include h

theorem FreedFound.allocFair : AllocFair s := by
  obtain ⟨hres, _⟩ := allocFrame_specFrom (by decide : 1 ≤ 8) h.wf
  generalize hframe : s.pmm.pmmAllocFrame.1 = frame at hres
  generalize hpmm : s.pmm.pmmAllocFrame.2 = p' at hres
  cases hres with
  | none hno hall =>
      refine ⟨fun _ f hf => ?_, fun _ j => by rw [hpmm]⟩
      obtain ⟨k, rfl, _, hhi, hlow⟩ := h.found f hf
      rw [frameBit_eq, Nat.mul_div_cancel _ (by decide)]
      rcases Nat.lt_or_ge k 8 with hlt | hge
      · cases hbit : s.pmm.pmmBitmap.bit k with
        | true => rfl
        | false =>
            have hhint := (hlow hlt hbit).1
            rw [hno] at hhint
            cases hhint
      · exact hall k hge hhi
  | @frame k _ hlo _ _ _ _ _ =>
      have hne : s.pmm.pmmAllocFrame.1 ≠ pmmNoFrameAvailable := by
        rw [hframe, pmmNoFrameAvailable]
        omega
      exact ⟨fun heq => absurd heq hne, fun heq => absurd heq hne⟩

theorem FreedFound.alloc (hs' : s' = ⟨s.pmm.pmmAllocFrame.2, s.freed⟩) : FreedFound s' := by
  obtain ⟨hres, hwf⟩ := allocFrame_specFrom (by decide : 1 ≤ 8) h.wf
  subst hs'
  refine ⟨hwf, fun f hf => ?_⟩
  obtain ⟨k, rfl, hlo, hhi, hlow⟩ := h.found f hf
  refine ⟨k, rfl, hlo, hhi, fun hlt hbit => ?_⟩
  generalize s.pmm.pmmAllocFrame.1 = frame at hres
  simp only at hbit ⊢
  generalize s.pmm.pmmAllocFrame.2 = p' at hres hbit ⊢
  cases hres with
  | none _ _ => exact hlow hlt hbit
  | @frame k' _ _ _ _ hbits htaken _ =>
      -- a free frame of byte 0 was the hint, so it is the one taken
      rw [hbits, Bool.or_eq_false_iff, decide_eq_false_iff_not] at hbit
      obtain ⟨hhint, heq⟩ := hlow hlt hbit.2
      exact absurd (hint_inj (heq.symm.trans (htaken hhint))) hbit.1

theorem FreedFound.free {f : Nat} (hfree : s.pmm.pmmFreeFrame f = some s'.pmm)
    (hfreed : s'.freed = f :: s.freed) (hkeeps : KeepsLowHint s (.free f)) : FreedFound s' := by
  obtain ⟨hne, hlowHint⟩ := hkeeps
  obtain ⟨k₀, rfl, hlt⟩ := pmmFreeFrame_valid hfree
  obtain ⟨p', hfree', hwf, hbits, hhint, hlast⟩ :=
    freeFrame_specFrom h.wf (by omega : 1 ≤ k₀) hlt
  obtain rfl : p' = s'.pmm := Option.some.inj (hfree'.symm.trans hfree)
  rw [hint_of_frame] at hlowHint
  refine ⟨hwf, fun g hg => ?_⟩
  rw [hfreed] at hg
  rcases List.mem_cons.mp hg with rfl | hold
  · exact ⟨k₀, rfl, by omega, hlt, fun _ _ => ⟨hhint, hlast⟩⟩
  · obtain ⟨k, rfl, hlo, hhi, hlow⟩ := h.found g hold
    refine ⟨k, rfl, hlo, hhi, fun hk hbit => ⟨hhint, ?_⟩⟩
    by_cases hsame : k = k₀
    · rw [hsame, hlast]
    · rw [hbits, decide_eq_false hsame, Bool.not_false, Bool.true_and] at hbit
      obtain ⟨hold', heq⟩ := hlow hk hbit
      have hindex : s.pmm.lastFreeFrame.index = 0 := by
        rw [heq]
        simp only [Int.natCast_eq_zero]
        omega
      exact absurd (hint_inj (heq.symm.trans (hlowHint ⟨hold', hindex⟩))) hsame

end Steps

/-- In every run from `pmm_init` in which no call frees frame 0, and none overwrites a
hint of byte 0, an allocation fails in every state only when no frame that was ever
freed is free, and marks none then. -/
theorem freed_frames_found {l : KernelLayout} {run : List (FrameCall × FrameRun)}
    (hrun : (frameSys l).IsRun ⟨pmmInit l Pmm.boot, []⟩ run)
    (hkeeps : TSys.AllSteps KeepsLowHint ⟨pmmInit l Pmm.boot, []⟩ run) :
    TSys.AllStates AllocFair ⟨pmmInit l Pmm.boot, []⟩ run := by
  have hwf := pmmInit_wf l
  have hstart : FreedFound ⟨pmmInit l Pmm.boot, []⟩ :=
    ⟨⟨fun hhint => absurd hhint (by simp [pmmInit, Pmm.boot, Pmm.hasHint]), hwf.index_pos,
      hwf.index_lt⟩, fun f hf => by cases hf⟩
  refine TSys.IsRun.states_of (fun s hs => hs.allocFair) (fun s call s' hs hcall hstep => ?_)
    hstart hrun hkeeps
  cases call with
  | alloc => exact hs.alloc hstep
  | free f => exact hs.free hstep.1 hstep.2 hcall

/-- A layout with a 64 KiB image at 1 MiB. -/
def frameLayout : KernelLayout where
  kernelStart := 0x100000
  kernelEnd := 0x110000
  kernelStackPagesAmount := 4
  start_aligned := smallImage_aligned
  start_le_end := smallImage_le
  below_stack := smallImage_below_stack

/-- The state after the frame at `frameAddr` has been freed right after `pmm_init`. -/
def freedOnce (l : KernelLayout) (frameAddr : Nat) : FrameRun where
  pmm := { pmmInit l Pmm.boot with
    pmmBitmap := pmmMarkFree (pmmInit l Pmm.boot).pmmBitmap frameAddr
    lastFreeFrame := ⟨getBitmapIndex frameAddr, getBitmapOffset frameAddr⟩ }
  freed := [frameAddr]

theorem freedOnce_step (l : KernelLayout) {f : Nat} (hvalid : isValidFrameAddr f = true) :
    (frameSys l).step ⟨pmmInit l Pmm.boot, []⟩ (.free f) (freedOnce l f) :=
  ⟨if_pos hvalid, rfl⟩

/-- A frame of byte 0 that is freed once is found. -/
theorem freed_frames_found_low : AllocFair (freedOnce frameLayout 0x1000) := by
  have hrun : (frameSys frameLayout).IsRun ⟨pmmInit frameLayout Pmm.boot, []⟩
      [(.free 0x1000, freedOnce frameLayout 0x1000)] := ⟨freedOnce_step _ (by decide), trivial⟩
  have hkeeps : TSys.AllSteps KeepsLowHint ⟨pmmInit frameLayout Pmm.boot, []⟩
      [(.free 0x1000, freedOnce frameLayout 0x1000)] :=
    ⟨⟨by decide, fun hlow => absurd hlow.1 (by decide)⟩, trivial⟩
  exact (freed_frames_found hrun hkeeps).2

/-- The allocation after a free takes the frame that was freed. -/
theorem freedOnce_alloc (l : KernelLayout) {f : Nat} (hlt : f < 2 ^ 32) (hmod : f % 4096 = 0) :
    (freedOnce l f).pmm.pmmAllocFrame.1 = f ∧
      (freedOnce l f).pmm.pmmAllocFrame.2.pmmBitmap =
        pmmMarkUsed (freedOnce l f).pmm.pmmBitmap f := by
  have hhint : (freedOnce l f).pmm.hasHint = true := by
    rw [Pmm.hasHint, Bool.and_eq_true, bne_iff_ne, bne_iff_ne]
    refine ⟨?_, ?_⟩ <;> simp only [freedOnce, getBitmapIndex, getBitmapOffset, pageSize] <;> omega
  have haddr : calcFrameAddr (freedOnce l f).pmm.lastFreeFrame.index.toNat
      (freedOnce l f).pmm.lastFreeFrame.offset.toNat = f := by
    simp only [freedOnce, Int.toNat_natCast, getBitmapIndex, getBitmapOffset, pageSize]
    rw [calcFrameAddr_eq (by omega) (by omega)]
    omega
  rw [Pmm.pmmAllocFrame, if_pos hhint, haddr]
  exact ⟨rfl, rfl⟩

/-- Frame 0 freed: the next allocation marks it used and returns
`PMM_NO_FRAME_AVAILABLE`, although a freed frame was free. -/
theorem freed_frame_zero_lost : (frameSys frameLayout).Reachable (freedOnce frameLayout 0) ∧
    (freedOnce frameLayout 0).pmm.pmmAllocFrame.1 = pmmNoFrameAvailable ∧
    0 ∈ (freedOnce frameLayout 0).freed ∧
    (freedOnce frameLayout 0).pmm.pmmBitmap.bit (frameBit 0) = false ∧
    (freedOnce frameLayout 0).pmm.pmmAllocFrame.2.pmmBitmap.bit (frameBit 0) = true ∧
    ¬ AllocFair (freedOnce frameLayout 0) := by
  obtain ⟨hnone, hbitmap⟩ := freedOnce_alloc frameLayout (f := 0) (by decide) (by decide)
  have hfree : (freedOnce frameLayout 0).pmm.pmmBitmap.bit (frameBit 0) = false := by
    show (pmmMarkFree (pmmInit frameLayout Pmm.boot).pmmBitmap 0).bit (frameBit 0) = false
    rw [pmmMarkFree, Bitmap.bit_markFree]
    simp
  have hmarked : (freedOnce frameLayout 0).pmm.pmmAllocFrame.2.pmmBitmap.bit (frameBit 0) = true := by
    rw [hbitmap, pmmMarkUsed, Bitmap.bit_markUsed]
    simp
  refine ⟨(TSys.Reachable.init rfl).step (freedOnce_step frameLayout (by decide)), hnone,
    List.mem_singleton.mpr rfl, hfree, hmarked, fun hfair => ?_⟩
  have hused := hfair.none_free hnone 0 (List.mem_singleton.mpr rfl)
  rw [hfree] at hused
  cases hused

end MyOs
