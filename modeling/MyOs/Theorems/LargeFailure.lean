import MyOs.Logic.AddressSpace
import MyOs.Logic.SmallBlocks
import MyOs.Logic.Unmapping

/-!
# A large allocation that fails

`kmalloc_large` maps one page after another and asks for a frame before each;
when there is none it unmaps the pages it has mapped. The entries it set were 0
before, so at every moment the memory differs from that before the call only in
words that were 0 (`KeepsWords`), and no pointer of the kernel is lost on the
way. `PartMapped` is the state between two pages, while mapping and while
unmapping. The call takes a frame whose address is 0 for a missing one, so frame
0 must not be the frame freed last.
-/

namespace MyOs
namespace Kernel

/-- Every word that was not 0 is as it was. -/
structure KeepsWords (k k' : Kernel) : Prop extends SameRoot k k' where
  words : ∀ b, b % 4 = 0 → k.mem.load32 b ≠ 0 → k'.mem.load32 b = k.mem.load32 b

/-- A page whose table is in memory and whose entry is 0. -/
structure FreshPage (k : Kernel) (v : Nat) : Prop where
  lt : v < 2 ^ 32
  table : isPagePresent (k.pdeOf v) = true
  unswapped : isSwapped (k.pdeOf v) = false
  entry : k.mem.load32 (k.pteAddr v) = 0

section KeepsWords

variable {k k' : Kernel} {ext : Ext} {u v w f p flags : Nat}

theorem ne_zero_of_present (h : isPagePresent w = true) : w ≠ 0 := by
  rintro rfl
  cases h

theorem KeepsWords.pdeOf (h : k.KeepsWords k') (hpresent : isPagePresent (k.pdeOf u) = true) :
    k'.pdeOf u = k.pdeOf u := by
  have haligned := k.dirFrame_aligned
  simp only [pageSize] at haligned
  rw [Kernel.pdeOf, Kernel.pdeOf, h.dirFrame]
  exact h.words _ (by omega) (ne_zero_of_present hpresent)

theorem KeepsWords.keepsMaps (h : k.KeepsWords k') (hon : k.pagingEnabled = true) :
    k.KeepsMaps k' := by
  intro u p _ hp
  obtain ⟨hpde, hpte, rfl⟩ := (translate_eq_some hon).mp hp
  have hpdeOf := h.pdeOf hpde
  have haddr : k'.pteAddr u = k.pteAddr u := pteAddr_of_pdeOf hpdeOf
  have haligned := k.pteAddr_aligned u
  have hword := h.words (k.pteAddr u) (by omega) (ne_zero_of_present hpte)
  exact (translate_eq_some (h.paging.trans hon)).mpr
    ⟨by rw [hpdeOf, hpde], by rw [haddr, hword, hpte], by rw [haddr, hword]⟩

/-- A store to a word that was 0. -/
theorem KeepsWords.store (h : k.KeepsWords k') (ha : w % 4 = 0) (hzero : k.mem.load32 w = 0)
    (x : Nat) : k.KeepsWords (k'.setMem (k'.mem.store32 w x)) where
  toSameRoot := h.toSameRoot.trans (k'.setMem_root _)
  words := fun b hb hne => by
    have hbw : b ≠ w := by
      rintro rfl
      exact hne hzero
    show (k'.mem.store32 w x).load32 b = k.mem.load32 b
    rw [ByteStore.load32_store32_ne (by omega)]
    exact h.words b hb hne

section Reached

variable (hdir : k.DirectoryIn k.dirFrame) (hon : k.pagingEnabled = true)
  (hlt : ∀ i, i < 1024 → k.currentDirectory + 4 * i < 2 ^ 32) (h : k.KeepsWords k')

include hdir hon h

/-- The entry of the page is reached through the window. -/
theorem KeepsWords.steady (hv : k.FreshPage v) : k'.Steady (windowAddr v) (k.pteAddr v) := by
  have haligned := k.pteAddr_aligned v
  have hwindow : ∀ k'', k.KeepsWords k'' → k''.translate (windowAddr v) = some (k.pteAddr v) := by
    intro k'' hk
    apply hk.keepsMaps hon _ _ (windowAddr_lt hv.lt)
    exact translate_windowAddr (hdir.recursive hon) hv.lt hv.table
  refine ⟨hwindow _ h, fun w => hwindow _ ?_⟩
  exact h.store (by omega) hv.entry w

include hlt

/-- The directory is where it was. -/
theorem KeepsWords.directoryIn : k'.DirectoryIn k'.dirFrame where
  nonnull := by rw [h.dir]; exact hdir.nonnull
  aligned := k'.dirFrame_aligned
  mapped := fun i hi => by
    rw [h.dir, h.dirFrame]
    exact h.keepsMaps hon _ _ (hlt i hi) (hdir.mapped i hi)
  recursive := fun _ => by
    have hrec := hdir.recursive hon
    have haligned := k.dirFrame_aligned
    simp only [pageSize] at haligned
    have hself : k'.entryAt k'.dirFrame recursivePageTableIndex =
        k.entryAt k.dirFrame recursivePageTableIndex := by
      rw [h.dirFrame]
      exact h.words _ (by omega) (ne_zero_of_present hrec.present)
    exact ⟨h.paging.trans hon, by rw [hself, hrec.present], by rw [hself, hrec.frame, h.dirFrame]⟩
  loaded := fun _ => rfl

theorem KeepsWords.map (hv : k.FreshPage v) (hf : f < 2 ^ 32) :
    vmmMapPageToCurrDir ext v f flags k' =
      .ok ((), k'.setMem (k'.mem.store32 (k.pteAddr v)
        (installed (k'.mem.load32 (k.pteAddr v)) f flags))) := by
  have hdir' := h.directoryIn hdir hon hlt
  have hpde : k'.entryAt k'.dirFrame (getDirectoryIndex v) = k.pdeOf v := h.pdeOf hv.table
  have htable : tableForMapping ext k'.currentDirectory (getDirectoryIndex v) k' =
      .ok (k'.tableAddr k'.dirFrame v, k') :=
    hdir'.tableForMapping hv.lt (by rw [hpde, hv.table])
  rw [tableAddr, if_pos (h.paging.trans hon)] at htable
  rw [vmmMapPageToCurrDir, Prog.get_bind_apply, if_neg hdir'.nonnull]
  exact (h.steady hdir hon hv).vmmMapPage hdir'.nonnull htable hf

theorem KeepsWords.unmap (hv : k.FreshPage v) {q : Pmm}
    (hpresent : isPagePresent (k'.mem.load32 (k.pteAddr v)) = true)
    (hfree : k'.pmm.pmmFreeFrame (getFrameAddr (k'.mem.load32 (k.pteAddr v))) = some q) :
    vmmUnmapPage ext v k' =
      .ok ((), ({ k' with pmm := q }).setMem (k'.mem.store32 (k.pteAddr v) 0)) := by
  have hdir' := h.directoryIn hdir hon hlt
  have hpde := h.pdeOf hv.table
  have hentry : vmmGetPageEntry ext v k' = .ok (windowAddr v, k') :=
    vmmGetPageEntry_mapped (h.paging.trans hon) hdir'.nonnull
      (hdir'.mapped _ (getDirectoryIndex_lt_of hv.lt)) (by rw [hpde, hv.table])
      (by rw [hpde, hv.unswapped])
  exact vmmUnmapPage_present hentry (h.steady hdir hon hv).ptr hpresent hfree

end Reached
end KeepsWords

/-! ## Between two pages -/

/-- The address of page `j` of the next large block. -/
def largePage (k : Kernel) (j : Nat) : Nat := u32 (k.heap.currentLargeHeapAddr + j * pageSize)

/-- A kernel in which the pages of a large block of this size can be mapped: the
directory and the tables covering them are in memory, and their entries are 0. -/
structure LargeHeapReady (k : Kernel) (size : Nat) : Prop where
  dir : k.DirectoryIn k.dirFrame
  dir_lt : ∀ i, i < 1024 → k.currentDirectory + 4 * i < 2 ^ 32
  paged : k.Paged
  pmm : PmmWfFrom 0 k.pmm
  start : k.heap.currentLargeHeapAddr ≠ 0
  fresh : ∀ j, j < alignedSize size / pageSize → k.FreshPage (k.largePage j)

/-- The pages `lo` to `hi` are mapped to the frames given, which were free, and
everything else is as it was. -/
structure PartMapped (k : Kernel) (frames : Nat → Nat) (lo hi : Nat) (k' : Kernel) : Prop
    extends SameRoot k k' where
  heap : k'.heap = k.heap
  mapped : ∀ j, lo ≤ j → j < hi →
    k'.mem.load32 (k.pteAddr (k.largePage j)) = installed 0 (frames j * 4096) pageWriteable
  words : ∀ b, b % 4 = 0 → (∀ j, lo ≤ j → j < hi → b ≠ k.pteAddr (k.largePage j)) →
    k'.mem.load32 b = k.mem.load32 b
  frame : ∀ j, lo ≤ j → j < hi → 1 ≤ frames j ∧ frames j < totalFrames ∧
    k.pmm.pmmBitmap.bit (frames j) = false
  frame_ne : ∀ i j, lo ≤ i → i < j → j < hi → frames i ≠ frames j
  used : ∀ n, k'.pmm.pmmBitmap.bit n = true ↔
    k.pmm.pmmBitmap.bit n = true ∨ ∃ j, lo ≤ j ∧ j < hi ∧ frames j = n
  pmm : PmmWfFrom 1 k'.pmm

theorem partMapped_refl {k : Kernel} {frames : Nat → Nat} (hpmm : PmmWfFrom 1 k.pmm) :
    k.PartMapped frames 0 0 k where
  toSameRoot := ⟨rfl, rfl, rfl⟩
  heap := rfl
  mapped := fun j _ hj => absurd hj (Nat.not_lt_zero j)
  words := fun _ _ _ => rfl
  frame := fun j _ hj => absurd hj (Nat.not_lt_zero j)
  frame_ne := fun _ j _ _ hj => absurd hj (Nat.not_lt_zero j)
  used := fun n => by
    constructor
    · exact .inl
    · rintro (hold | ⟨j, _, hj, _⟩)
      · exact hold
      · exact absurd hj (Nat.not_lt_zero j)
  pmm := hpmm

section LargeBlock

variable {k k' : Kernel} {size i j n lo hi : Nat} {frames : Nat → Nat}
  (h : k.LargeHeapReady size)

include h

/-- The entries of two pages of the block are two words. -/
theorem LargeHeapReady.pteAddr_ne (hi : i < alignedSize size / pageSize)
    (hj : j < alignedSize size / pageSize) (hne : i ≠ j) :
    k.pteAddr (k.largePage i) ≠ k.pteAddr (k.largePage j) := by
  intro heq
  have hpage := h.paged.page_eq (h.fresh i hi).lt (h.fresh j hj).lt (h.fresh i hi).table
    (h.fresh j hj).table heq
  have hbound : alignedSize size / pageSize ≤ 2 ^ 20 - 1 := by
    have hlt : u32 (size + pageSize - 1) < 2 ^ 32 := u32_lt _
    simp only [alignedSize, pageSize] at hlt ⊢
    omega
  simp only [largePage, u32, pageSize] at hpage hbound hi hj
  omega

theorem PartMapped.keepsWords (hpart : k.PartMapped frames lo hi k')
    (hhi : hi ≤ alignedSize size / pageSize) : k.KeepsWords k' where
  toSameRoot := hpart.toSameRoot
  words := fun b hb hne => by
    apply hpart.words b hb
    rintro j _ hj rfl
    exact hne (h.fresh j (by omega)).entry

/-- A free frame taken for the next page. -/
theorem PartMapped.map (ext : Ext) {q : Pmm} (hpart : k.PartMapped frames 0 i k')
    (hi : i < alignedSize size / pageSize) (hlo : 1 ≤ n) (hn : n < totalFrames)
    (hfree : k'.pmm.pmmBitmap.bit n = false)
    (hbits : ∀ j, q.pmmBitmap.bit j = (decide (j = n) || k'.pmm.pmmBitmap.bit j))
    (hq : PmmWfFrom 1 q) :
    ∃ k'', vmmMapPageToCurrDir ext (k.largePage i) (n * 4096) pageWriteable { k' with pmm := q } =
        .ok ((), k'') ∧
      k.PartMapped (fun j => if j = i then n else frames j) 0 (i + 1) k'' := by
  have hkeeps := hpart.keepsWords h (by omega)
  have hkeeps' : k.KeepsWords { k' with pmm := q } :=
    ⟨⟨hkeeps.cr3, hkeeps.paging, hkeeps.dir⟩, hkeeps.words⟩
  have haddr : n * 4096 < 2 ^ 32 := by simp only [totalFrames] at hn; omega
  have haligned := k.pteAddr_aligned (k.largePage i)
  have hother : ∀ j, j < i → k.pteAddr (k.largePage j) ≠ k.pteAddr (k.largePage i) :=
    fun j hj => h.pteAddr_ne (by omega) hi (by omega)
  have hzero : k'.mem.load32 (k.pteAddr (k.largePage i)) = 0 := by
    rw [hpart.words _ haligned fun j _ hj => (hother j hj).symm]
    exact (h.fresh i hi).entry
  have hunused : k.pmm.pmmBitmap.bit n = false ∧ ∀ j, j < i → frames j ≠ n := by
    refine ⟨Bool.eq_false_iff.mpr fun hbit => ?_, fun j hj heq => ?_⟩
    · rw [(hpart.used n).mpr (.inl hbit)] at hfree
      cases hfree
    · rw [(hpart.used n).mpr (.inr ⟨j, Nat.zero_le j, hj, heq⟩)] at hfree
      cases hfree
  refine ⟨_, hkeeps'.map h.dir h.paged.recursive.paging_on h.dir_lt (h.fresh i hi) haddr, ?_⟩
  show k.PartMapped _ 0 (i + 1) (({ k' with pmm := q } : Kernel).setMem _)
  have hstored : installed (k'.mem.load32 (k.pteAddr (k.largePage i))) (n * 4096) pageWriteable =
      installed 0 (n * 4096) pageWriteable := by rw [hzero]
  have hword : installed 0 (n * 4096) pageWriteable < 2 ^ 32 := installed_lt haddr (by decide)
  refine
    { toSameRoot := hkeeps'.toSameRoot.trans (setMem_root _ _)
      heap := by rw [setMem_heap]; exact hpart.heap
      mapped := fun j _ hj => ?_
      words := fun b hb hne => ?_
      frame := fun j _ hj => ?_
      frame_ne := fun a b _ hab hb => ?_
      used := fun m => ?_
      pmm := by rw [setMem_pmm]; exact hq }
  · show (k'.mem.store32 (k.pteAddr (k.largePage i)) (installed (k'.mem.load32
      (k.pteAddr (k.largePage i))) (n * 4096) pageWriteable)).load32 _ = _
    rw [hstored]
    by_cases hji : j = i
    · subst hji
      rw [ByteStore.load32_store32 hword, if_pos rfl]
    · have hne := hother j (by omega)
      have haligned' := k.pteAddr_aligned (k.largePage j)
      rw [ByteStore.load32_store32_ne (by omega), if_neg hji]
      exact hpart.mapped j (Nat.zero_le j) (by omega)
  · have hbne := hne i (Nat.zero_le i) (by omega)
    show (k'.mem.store32 (k.pteAddr (k.largePage i)) _).load32 b = _
    rw [ByteStore.load32_store32_ne (by omega)]
    exact hpart.words b hb fun j hlo hj => hne j hlo (by omega)
  · by_cases hji : j = i
    · rw [if_pos hji]
      exact ⟨hlo, hn, hunused.1⟩
    · rw [if_neg hji]
      exact hpart.frame j (Nat.zero_le j) (by omega)
  · rw [if_neg (by omega : a ≠ i)]
    by_cases hbi : b = i
    · rw [if_pos hbi]
      exact hunused.2 a (by omega)
    · rw [if_neg hbi]
      exact hpart.frame_ne a b (Nat.zero_le a) hab (by omega)
  · show q.pmmBitmap.bit m = true ↔ _
    rw [hbits, Bool.or_eq_true, decide_eq_true_eq, hpart.used]
    constructor
    · rintro (rfl | hold | ⟨j, _, hj, rfl⟩)
      · exact .inr ⟨i, Nat.zero_le i, by omega, if_pos rfl⟩
      · exact .inl hold
      · exact .inr ⟨j, Nat.zero_le j, by omega, if_neg (by omega)⟩
    · rintro (hold | ⟨j, _, hj, heq⟩)
      · exact .inr (.inl hold)
      · by_cases hji : j = i
        · rw [if_pos hji] at heq
          exact .inl heq.symm
        · rw [if_neg hji] at heq
          exact .inr (.inr ⟨j, Nat.zero_le j, by omega, heq⟩)

/-- The first of the pages is unmapped, and its frame is free again. -/
theorem PartMapped.unmap (ext : Ext) (hpart : k.PartMapped frames j i k') (hj : j < i)
    (hi : i ≤ alignedSize size / pageSize) :
    ∃ k'', vmmUnmapPage ext (k.largePage j) k' = .ok ((), k'') ∧
      k.PartMapped frames (j + 1) i k'' := by
  have hkeeps := hpart.keepsWords h hi
  have hkeeps' : ∀ q : Pmm, k.SameRoot { k' with pmm := q } := fun _ =>
    ⟨hkeeps.cr3, hkeeps.paging, hkeeps.dir⟩
  obtain ⟨hlo, hn, hfree⟩ := hpart.frame j (Nat.le_refl j) hj
  have haddr : frames j * 4096 < 2 ^ 32 := by simp only [totalFrames] at hn; omega
  have hword := hpart.mapped j (Nat.le_refl j) hj
  have hframe : getFrameAddr (installed 0 (frames j * 4096) pageWriteable) = frames j * 4096 := by
    rw [getFrameAddr_installed (by decide), getFrameAddr_of_aligned (Nat.mul_mod_left _ 4096) haddr]
  obtain ⟨q, hfreed, hq, hbits, _, _⟩ := freeFrame_specFrom hpart.pmm hlo hn
  refine ⟨_, hkeeps.unmap h.dir h.paged.recursive.paging_on h.dir_lt (h.fresh j (by omega))
    (by rw [hword]; exact isPagePresent_installed) (by rw [hword, hframe]; exact hfreed), ?_⟩
  show k.PartMapped frames (j + 1) i (({ k' with pmm := q } : Kernel).setMem _)
  have haligned := k.pteAddr_aligned (k.largePage j)
  refine
    { toSameRoot := (hkeeps' q).trans (setMem_root _ _)
      heap := by rw [setMem_heap]; exact hpart.heap
      mapped := fun m hm hmi => ?_
      words := fun b hb hne => ?_
      frame := fun m hm hmi => hpart.frame m (by omega) hmi
      frame_ne := fun a b ha hab hb => hpart.frame_ne a b (by omega) hab hb
      used := fun m => ?_
      pmm := by rw [setMem_pmm]; exact hq }
  · have hne := h.pteAddr_ne (i := m) (j := j) (by omega) (by omega) (by omega)
    have haligned' := k.pteAddr_aligned (k.largePage m)
    show (k'.mem.store32 (k.pteAddr (k.largePage j)) 0).load32 _ = _
    rw [ByteStore.load32_store32_ne (by omega)]
    exact hpart.mapped m (by omega) hmi
  · show (k'.mem.store32 (k.pteAddr (k.largePage j)) 0).load32 b = _
    by_cases hb' : b = k.pteAddr (k.largePage j)
    · rw [hb', ByteStore.load32_store32 (by decide), (h.fresh j (by omega)).entry]
    · rw [ByteStore.load32_store32_ne (by omega)]
      apply hpart.words b hb
      intro m hm hmi
      by_cases hmj : m = j
      · rw [hmj]
        exact hb'
      · exact hne m (by omega) hmi
  · show q.pmmBitmap.bit m = true ↔ _
    rw [hbits, Bool.and_eq_true, hpart.used, Bool.not_eq_true', decide_eq_false_iff_not]
    constructor
    · rintro ⟨hne, hold | ⟨a, ha, hai, rfl⟩⟩
      · exact .inl hold
      · refine .inr ⟨a, ?_, hai, rfl⟩
        have haj : a ≠ j := fun heq => hne (by rw [heq])
        omega
    · rintro (hold | ⟨a, ha, hai, rfl⟩)
      · refine ⟨?_, .inl hold⟩
        rintro rfl
        rw [hfree] at hold
        cases hold
      · exact ⟨(hpart.frame_ne j a (Nat.le_refl j) (by omega) hai).symm, .inr ⟨a, by omega, hai, rfl⟩⟩

/-- Unmapping the pages mapped so far takes all of it back. -/
theorem PartMapped.unmapPages (ext : Ext) (hpart : k.PartMapped frames 0 i k')
    (hi : i ≤ alignedSize size / pageSize) :
    ∃ k'', unmapPages ext (fun j k => u32 (k.heap.currentLargeHeapAddr + j * pageSize)) i k' =
        .ok ((), k'') ∧ k.PartMapped frames i i k'' := by
  rw [MyOs.unmapPages]
  refine Prog.forLoop_ok (P := fun j s => k.PartMapped frames j i s) (fun j s hj hs => ?_) i 0 k'
    (Nat.zero_add i) hpart
  have hpage : u32 (s.heap.currentLargeHeapAddr + j * pageSize) = k.largePage j := by
    rw [hs.heap, largePage]
  obtain ⟨s', hrun, hs'⟩ := hs.unmap h ext hj hi
  refine ⟨s', ?_, hs'⟩
  rw [Prog.get_bind_apply, hpage]
  exact hrun

/-- The loop of `kmalloc_large` from page `i` on: all pages are mapped, or none is. -/
theorem PartMapped.mapLargePages (ext : Ext) (n : Nat) : ∀ i k' frames,
    i + n = alignedSize size / pageSize → k.PartMapped frames 0 i k' →
      ∃ b k'' frames', mapLargePages ext i n k' = .ok (b, k'') ∧
        if b then k.PartMapped frames' 0 (alignedSize size / pageSize) k''
        else ∃ i, k.PartMapped frames' i i k'' := by
  induction n with
  | zero =>
      intro i k' frames hn hpart
      rw [Nat.add_zero] at hn
      subst hn
      exact ⟨true, k', frames, rfl, hpart⟩
  | succ n ih =>
      intro i k' frames hn hpart
      obtain ⟨hres, hwf⟩ := allocFrame_specFrom (by decide) hpart.pmm
      rw [MyOs.mapLargePages, Prog.get_bind_apply,
        Prog.bind_of_ok (show allocFrame k' = .ok (k'.pmm.pmmAllocFrame.1,
          { k' with pmm := k'.pmm.pmmAllocFrame.2 }) from rfl)]
      have hpage : u32 (k'.heap.currentLargeHeapAddr + i * pageSize) = k.largePage i := by
        rw [hpart.heap, largePage]
      rw [hpage]
      generalize hf : k'.pmm.pmmAllocFrame.1 = f at hres ⊢
      generalize hq : k'.pmm.pmmAllocFrame.2 = q at hres hwf ⊢
      cases hres with
      | none _ _ =>
          -- no frame: the pages below `i` are unmapped
          obtain ⟨k'', hrun, hpart'⟩ := hpart.unmapPages h ext (by omega)
          refine ⟨false, k'', frames, ?_, i, hpart'⟩
          rw [if_pos rfl, Prog.bind_of_ok hrun]
          rfl
      | @frame m _ hlo hm hfree hbits _ _ =>
          obtain ⟨k'', hrun, hpart'⟩ := hpart.map h ext (by omega) hlo hm hfree hbits hwf
          have hne : m * 4096 ≠ pmmNoFrameAvailable := by
            rw [pmmNoFrameAvailable]
            omega
          rw [if_neg hne, Prog.bind_of_ok hrun]
          exact ih (i + 1) k'' _ (by omega) hpart'

end LargeBlock
end Kernel

/-- The set of free frames, the page entries, the mappings and the heap's large blocks
are those of `k`. -/
structure NoTrace (k k' : Kernel) : Prop where
  frames : ∀ n, k'.pmm.pmmBitmap.bit n = k.pmm.pmmBitmap.bit n
  entries : ∀ b, b % 4 = 0 → k'.mem.load32 b = k.mem.load32 b
  mappings : ∀ v, k'.translate v = k.translate v
  address : k'.heap.currentLargeHeapAddr = k.heap.currentLargeHeapAddr
  blocks : k'.heap.largeAllocations = k.heap.largeAllocations

/-- With no page left mapped there is no trace. -/
theorem Kernel.PartMapped.noTrace {k k' : Kernel} {frames : Nat → Nat} {i : Nat}
    (h : k.PartMapped frames i i k') : NoTrace k k' := by
  have hwords : ∀ b, b % 4 = 0 → k'.mem.load32 b = k.mem.load32 b := by
    intro b hb
    apply h.words b hb
    intro j hj hji
    omega
  refine ⟨fun n => ?_, hwords, fun v => ?_, by rw [h.heap], by rw [h.heap]⟩
  · apply Bool.eq_iff_iff.mpr
    rw [h.used]
    constructor
    · rintro (hold | ⟨j, hj, hji, _⟩)
      · exact hold
      · omega
    · exact .inl
  · have hpde : k'.pdeOf v = k.pdeOf v := by
      have haligned := k.dirFrame_aligned
      simp only [pageSize] at haligned
      rw [Kernel.pdeOf, Kernel.pdeOf, h.dirFrame]
      exact hwords _ (by omega)
    apply Kernel.translate_congr h.paging hpde
    exact hwords _ (k.pteAddr_aligned v)

/-- Frame 0 is taken, and its address read as that of a missing frame. -/
theorem kmallocLarge_frame_zero {ext : Ext} {k : Kernel} {size : Nat}
    (hhint : k.pmm.lastFreeFrame = ⟨0, 0⟩) (hsize : alignedSize size ≠ 0) :
    kmallocLarge ext size k = .ok (0, { k with pmm := k.pmm.pmmAllocFrame.2 }) := by
  have halloc : k.pmm.pmmAllocFrame.1 = pmmNoFrameAvailable := by
    rw [Pmm.pmmAllocFrame_zero hhint]
  have hturns : alignedSize size / pageSize = (alignedSize size / pageSize - 1) + 1 := by
    simp only [alignedSize, pageSize] at hsize ⊢
    omega
  have hloop : mapLargePages ext 0 (alignedSize size / pageSize) k =
      .ok (false, { k with pmm := k.pmm.pmmAllocFrame.2 }) := by
    rw [hturns, mapLargePages, Prog.get_bind_apply,
      Prog.bind_of_ok (show allocFrame k = .ok (k.pmm.pmmAllocFrame.1,
        { k with pmm := k.pmm.pmmAllocFrame.2 }) from rfl), halloc, if_pos rfl]
    rfl
  rw [kmallocLarge, Prog.bind_of_ok hloop]
  rfl

section Failure

variable {ext : Ext} {k k' k₁ : Kernel} {size : Nat} (h : k.LargeHeapReady size)

include h

/-- A block is returned by its address, which is not NULL. -/
theorem Kernel.LargeHeapReady.not_null
    (hloop : mapLargePages ext 0 (alignedSize size / pageSize) k = .ok (true, k₁))
    (hheap : k₁.heap = k.heap) : kmallocLarge ext size k ≠ .ok (0, k') := by
  intro hrun
  rw [kmallocLarge, Prog.bind_of_ok hloop, if_neg (by decide), Prog.get_bind_apply,
    Prog.modify_bind_apply] at hrun
  obtain ⟨_, k₂, _, hret⟩ := Prog.bind_eq_ok.mp hrun
  rw [Prog.pure_apply] at hret
  injection hret with hret
  injection hret with hptr _
  rw [hheap] at hptr
  exact h.start hptr

/-- The last freed frame is not frame 0: at whatever page the call fails, all is
taken back. -/
theorem Kernel.LargeHeapReady.noTrace (hhint : k.pmm.lastFreeFrame ≠ ⟨0, 0⟩)
    (hrun : kmallocLarge ext size k = .ok (0, k')) : NoTrace k k' := by
  obtain ⟨b, k₁, frames, hloop, hpart⟩ :=
    (Kernel.partMapped_refl (h.pmm.above_zero hhint)).mapLargePages h ext _ 0 k (fun _ => 0)
      (Nat.zero_add _)
  cases b with
  | true =>
      rw [if_pos rfl] at hpart
      exact absurd hrun (h.not_null hloop hpart.heap)
  | false =>
      obtain ⟨i, hpart⟩ := hpart
      rw [kmallocLarge, Prog.bind_of_ok hloop, if_pos rfl, Prog.pure_apply] at hrun
      injection hrun with hrun
      injection hrun with _ hk
      rw [← hk]
      exact hpart.noTrace

end Failure

/-- **Failed large allocations.** A large allocation that returns NULL leaves no
trace, at whatever page it fails, unless the frame freed last is frame 0: that
frame is marked used, and its address taken for a missing frame. A size that
rounds to no page asks for no frame. -/
theorem large_failure_iff {ext : Ext} {k : Kernel} {size : Nat} (h : k.LargeHeapReady size) :
    (∀ k', kmallocLarge ext size k = .ok (0, k') → NoTrace k k') ↔
      k.pmm.lastFreeFrame ≠ ⟨0, 0⟩ ∨ alignedSize size = 0 := by
  constructor
  · intro hall
    by_contra hneither
    obtain ⟨hhint, hsize⟩ := not_or.mp hneither
    have hhint := not_not.mp hhint
    have hframes := (hall _ (kmallocLarge_frame_zero hhint hsize)).frames 0
    have hused : (pmmMarkUsed k.pmm.pmmBitmap 0).bit 0 = true := by
      rw [← Nat.zero_mul 4096, pmmMarkUsed_bit, decide_eq_true rfl, Bool.true_or]
    rw [Pmm.pmmAllocFrame_zero hhint, h.pmm.zero_free hhint, hused] at hframes
    cases hframes
  · rintro (hhint | hsize) k' hrun
    · exact h.noTrace hhint hrun
    · have hloop : mapLargePages ext 0 (alignedSize size / pageSize) k = .ok (true, k) := by
        rw [hsize]
        rfl
      exact absurd hrun (h.not_null hloop rfl)

/-! ## Two pages with one free frame -/

/-- The directory at `0x100000` and the table of the large blocks. -/
def largeHeapWords : List (Nat × Nat) := [(0x100FFC, 0x100003), (0x100040, 0x101003)]

def largeKernel (p : Pmm) : Kernel := { Kernel.ofWords 0x100000 largeHeapWords with pmm := p }

theorem largeKernel_ready {p : Pmm} (hp : PmmWfFrom 0 p) : (largeKernel p).LargeHeapReady 8192 := by
  have hwords : Kernel.DirectoryWords largeHeapWords 0x100000 := by decide
  have hdir : (largeKernel p).dirFrame = 0x100000 := (by decide : getFrameAddr 0x100000 = 0x100000)
  have hpaged : (largeKernel p).Paged := hwords.paged rfl hdir rfl
  have hload (a : Nat) :
      (largeKernel p).mem.load32 a = (ByteStore.ofWords largeHeapWords).load32 a := rfl
  have hpages : ∀ j, (largeKernel p).largePage j =
      u32 (kernelBaseHeapAddr + kernelHeapSize + j * pageSize) := fun _ => rfl
  have hpde : ∀ j, j < 2 → (largeKernel p).pdeOf ((largeKernel p).largePage j) = 0x101003 := by
    intro j hj
    have hindex : getDirectoryIndex ((largeKernel p).largePage j) = 16 := by
      rw [hpages]
      rcases (by omega : j = 0 ∨ j = 1) with rfl | rfl
      · decide
      · decide
    rw [Kernel.pdeOf, hdir, hindex, hwords.entryAt rfl]
    decide
  refine ⟨hpaged.directoryIn_window rfl, fun i hi => ?_, hpaged, hp, ?_, fun j hj => ?_⟩
  · have hcurrent : (largeKernel p).currentDirectory = 0xFFFFF000 :=
      (by decide : getPageTableVirAddr recursivePageTableIndex = 0xFFFFF000)
    omega
  · exact (by decide : kernelBaseHeapAddr + kernelHeapSize ≠ 0)
  · have hj : j < 2 := hj
    have hpdej := hpde j hj
    refine ⟨u32_lt _, by rw [hpdej]; decide, by rw [hpdej]; decide, ?_⟩
    rw [hload, Kernel.pteAddr, hpdej, hpages, ByteStore.load32_ofWords _ (by decide)]
    · rcases (by omega : j = 0 ∨ j = 1) with rfl | rfl
      · decide
      · decide
    · have hframe : getFrameAddr 0x101003 = 0x101000 := by decide
      omega

/-- Every frame is used but `0x8000`. -/
def oneFramePmm : Pmm := ⟨fun i => if i = 1 then 0xFE#8 else 0xFF#8, ⟨-1, -1⟩, 1⟩

theorem oneFramePmm_wf (lo : Nat) : PmmWfFrom lo oneFramePmm :=
  ⟨fun hhint => absurd hhint (by decide), by decide, by decide⟩

theorem oneFramePmm_bit {n : Nat} (h : oneFramePmm.pmmBitmap.bit n = false) : n = 8 := by
  have hlt : n % 8 < 8 := Nat.mod_lt _ (by decide)
  have hfull : ∀ j, j < 8 → (0xFF#8).getLsbD j ≠ false := by decide
  have hbyte : ∀ j, j < 8 → (0xFE#8).getLsbD j = false → j = 0 := by decide
  have hbit : (if n / 8 = 1 then 0xFE#8 else 0xFF#8 : BitVec 8).getLsbD (n % 8) = false := h
  by_cases hn : n / 8 = 1
  · rw [if_pos hn] at hbit
    have hzero := hbyte _ hlt hbit
    omega
  · rw [if_neg hn] at hbit
    exact absurd hbit (hfull _ hlt)

/-- There is room for one of two pages, and frame 0 is not the hint. -/
theorem large_failure_two_pages :
    ∃ k', kmallocLarge (link 1) 8192 (largeKernel oneFramePmm) = .ok (0, k') ∧
      NoTrace (largeKernel oneFramePmm) k' := by
  have h := largeKernel_ready (oneFramePmm_wf 0)
  obtain ⟨b, k₁, frames, hloop, hpart⟩ :=
    (Kernel.partMapped_refl (k := largeKernel oneFramePmm) (oneFramePmm_wf 1)).mapLargePages h
      (link 1) _ 0 _ (fun _ => 0) (Nat.zero_add _)
  cases b with
  | true =>
      rw [if_pos rfl] at hpart
      have hzero := hpart.frame 0 (Nat.le_refl 0) (by decide)
      have hone := hpart.frame 1 (Nat.zero_le 1) (by decide)
      have hne := hpart.frame_ne 0 1 (Nat.le_refl 0) (by decide) (by decide)
      rw [oneFramePmm_bit hzero.2.2, oneFramePmm_bit hone.2.2] at hne
      exact absurd rfl hne
  | false =>
      have hrun : kmallocLarge (link 1) 8192 (largeKernel oneFramePmm) = .ok (0, k₁) := by
        rw [kmallocLarge, Prog.bind_of_ok hloop]
        rfl
      exact ⟨k₁, hrun, (large_failure_iff h).mpr (.inl (by decide)) k₁ hrun⟩

/-- Frame 0 has been freed. -/
def zeroFreedPmm : Pmm :=
  { oneFramePmm with pmmBitmap := pmmMarkFree oneFramePmm.pmmBitmap 0, lastFreeFrame := ⟨0, 0⟩ }

theorem zeroFreedPmm_bit : zeroFreedPmm.pmmBitmap.bit 0 = false := by
  rw [zeroFreedPmm, pmmMarkFree, Bitmap.bit_markFree]
  rfl

theorem zeroFreedPmm_wf : PmmWfFrom 0 zeroFreedPmm :=
  ⟨fun _ => ⟨0, Nat.le_refl 0, by decide, rfl, zeroFreedPmm_bit⟩, by decide, by decide⟩

/-- After `pmm_free_frame(0)` the call fails although frame `0x8000` is free, and
frame 0 is no longer free. -/
theorem large_failure_frame_zero :
    oneFramePmm.pmmFreeFrame 0 = some zeroFreedPmm ∧
      (largeKernel zeroFreedPmm).LargeHeapReady 8192 ∧
      ∃ k', kmallocLarge (link 1) 8192 (largeKernel zeroFreedPmm) = .ok (0, k') ∧
        zeroFreedPmm.pmmBitmap.bit 0 = false ∧ k'.pmm.pmmBitmap.bit 0 = true ∧
        ¬NoTrace (largeKernel zeroFreedPmm) k' := by
  have hused : (pmmMarkUsed zeroFreedPmm.pmmBitmap 0).bit 0 = true := by
    rw [← Nat.zero_mul 4096, pmmMarkUsed_bit, decide_eq_true rfl, Bool.true_or]
  have hafter : (zeroFreedPmm.pmmAllocFrame.2).pmmBitmap.bit 0 = true := by
    rw [Pmm.pmmAllocFrame_zero rfl]
    exact hused
  refine ⟨rfl, largeKernel_ready zeroFreedPmm_wf, _,
    kmallocLarge_frame_zero (k := largeKernel zeroFreedPmm) rfl (by decide), zeroFreedPmm_bit,
    hafter, fun htrace => ?_⟩
  have hframes := (htrace.frames 0).symm.trans hafter
  rw [show (largeKernel zeroFreedPmm).pmm = zeroFreedPmm from rfl, zeroFreedPmm_bit] at hframes
  cases hframes

end MyOs
