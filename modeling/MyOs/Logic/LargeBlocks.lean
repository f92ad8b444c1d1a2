import MyOs.Logic.FreeFrames
import MyOs.Logic.HeapArea

/-!
# The pages of a large block

The two loops over a block's pages. `kmalloc_large` maps them one after another, each
to the next free frame, and unmaps what it has mapped when there is none; a page may
need a table, which takes a 16-byte object for its queue node (`newTables` counts
them). `_kmalloc_large_free` unmaps them all, and gives exactly their frames back
(`BlockUnmapped`).
-/

namespace MyOs

/-- The first `n` pages of a block at `ptr`. -/
def BlockPages (ptr n u : Nat) : Prop := ∃ j, j < n ∧ u = ptr + j * pageSize

theorem blockPages_zero (ptr u : Nat) : ¬ BlockPages ptr 0 u := by
  rintro ⟨j, hj, _⟩
  exact absurd hj (Nat.not_lt_zero j)

theorem blockPages_succ (ptr n u : Nat) :
    BlockPages ptr (n + 1) u ↔ u = ptr + n * pageSize ∨ BlockPages ptr n u := by
  constructor
  · rintro ⟨j, hj, rfl⟩
    by_cases hjn : j = n
    · exact .inl (by rw [hjn])
    · exact .inr ⟨j, by omega, rfl⟩
  · rintro (rfl | ⟨j, hj, rfl⟩)
    · exact ⟨n, by omega, rfl⟩
    · exact ⟨j, by omega, rfl⟩

/-- A block's pages are pages for large blocks, when it lies where those are. -/
theorem largePage_of_block {ptr n j : Nat} (hlow : kernelBaseHeapAddr + kernelHeapSize ≤ ptr)
    (haligned : ptr % pageSize = 0) (hend : ptr + n * pageSize ≤ 2 * kernelBaseHeapAddr)
    (hj : j < n) : LargePage (ptr + j * pageSize) := by
  have hmul : (j + 1) * pageSize ≤ n * pageSize := Nat.mul_le_mul_right _ hj
  rw [Nat.add_mul, Nat.one_mul] at hmul
  refine ⟨by omega, ?_, ?_⟩
  · simp only [pageSize] at hmul hend ⊢
    omega
  · rw [Nat.add_mul_mod_self_right]
    exact haligned

namespace Kernel

theorem PagesArea.congr {k : Kernel} {M M' : Nat → Prop} (ha : k.PagesArea M)
    (h : ∀ v, LargePage v → (M' v ↔ M v)) : k.PagesArea M' :=
  { ha with mapped := fun v hv => (h v hv).trans (ha.mapped v hv) }

/-! ## Unmapping -/

/-- The `n` pages from `ptr` on were unmapped and their frames given back; memory
changed in the tables only. -/
structure BlockUnmapped (k : Kernel) (ptr n : Nat) (k' : Kernel) : Prop extends SameTables k k' where
  heap : k'.heap = k.heap
  queue : k'.pageFifoQueue = k.pageFifoQueue
  others : ∀ u, u < 2 ^ 32 → (∀ j, j < n → u / pageSize ≠ (ptr + j * pageSize) / pageSize) →
    k'.translate u = k.translate u
  unmapped : ∀ j, j < n → k'.translate (ptr + j * pageSize) = none
  frames : ∀ m, k'.pmm.pmmBitmap.bit m = true ↔ k.pmm.pmmBitmap.bit m = true ∧
    ∀ j, j < n → ∀ f, k.translate (ptr + j * pageSize) = some f → m ≠ f / pageSize
  bytes : ∀ a, (∀ i, i < 1024 → isPagePresent (k.entryAt k.dirFrame i) = true →
    a / pageSize ≠ getFrameAddr (k.entryAt k.dirFrame i) / pageSize) → k'.mem a = k.mem a

section Unmap

variable {ext : Ext} {k k' k'' : Kernel} {M : Nat → Prop} {f n ptr : Nat}

theorem BlockUnmapped.refl (k : Kernel) (ptr : Nat) : k.BlockUnmapped ptr 0 k where
  toSameRoot := ⟨rfl, rfl, rfl⟩
  entries := fun _ _ => rfl
  heap := rfl
  queue := rfl
  others := fun _ _ _ => rfl
  unmapped := fun j hj => absurd hj (Nat.not_lt_zero j)
  frames := fun _ => ⟨fun hm => ⟨hm, fun j hj => absurd hj (Nat.not_lt_zero j)⟩, fun hm => hm.1⟩
  bytes := fun _ _ => rfl

/-- One page more. -/
theorem BlockUnmapped.next (h : k.BlockUnmapped ptr n k') (haligned : ptr % pageSize = 0)
    (hend : ptr + (n + 1) * pageSize ≤ 2 ^ 32)
    (hf : k'.translate (ptr + n * pageSize) = some f)
    (hpage : k'.PageUnmapped (ptr + n * pageSize) f k'') : k.BlockUnmapped ptr (n + 1) k'' := by
  have hne : ∀ j, j < n → (ptr + j * pageSize) / pageSize ≠ (ptr + n * pageSize) / pageSize := by
    intro j hj
    simp only [pageSize] at haligned ⊢
    omega
  have hlt : ∀ j, j < n + 1 → ptr + j * pageSize < 2 ^ 32 := by
    intro j hj
    have hmul : (j + 1) * pageSize ≤ (n + 1) * pageSize := Nat.mul_le_mul_right _ hj
    simp only [pageSize] at hmul hend ⊢
    omega
  have hold : k.translate (ptr + n * pageSize) = some f := by
    rw [← h.others _ (hlt n (by omega)) fun j hj => (hne j hj).symm]
    exact hf
  refine
    { toSameRoot := h.toSameRoot.trans hpage.toSameRoot
      entries := fun i hi => by
        have hentries := hpage.entries i hi
        rw [h.dirFrame] at hentries
        rw [hentries, h.entries i hi]
      heap := hpage.heap.trans h.heap
      queue := hpage.queue.trans h.queue
      others := fun u hu hall => ?_
      unmapped := fun j hj => ?_
      frames := fun m => ?_
      bytes := fun a hoff => ?_ }
  · rw [hpage.others u hu (hall n (by omega)), h.others u hu fun j hj => hall j (by omega)]
  · by_cases hjn : j = n
    · rw [hjn]
      exact hpage.unmapped
    · rw [hpage.others _ (hlt j hj) (hne j (by omega))]
      exact h.unmapped j (by omega)
  · rw [hpage.frames, Bool.and_eq_true, Bool.not_eq_true', decide_eq_false_iff_not, h.frames]
    constructor
    · rintro ⟨hm, hbit, hothers⟩
      refine ⟨hbit, fun j hj g hg => ?_⟩
      by_cases hjn : j = n
      · rw [hjn, hold] at hg
        cases hg
        exact hm
      · exact hothers j (by omega) g hg
    · rintro ⟨hbit, hall⟩
      exact ⟨hall n (by omega) f hold, hbit, fun j hj => hall j (by omega)⟩
  · rw [hpage.bytes a, h.bytes a hoff]
    rw [h.dirFrame]
    intro i hi
    rw [h.entries i hi]
    exact hoff i hi

/-- Unmapping a block that is mapped. -/
theorem PagesArea.unmapPages (ha : k.PagesArea M) (hs : k.SlabsArea) {page : Nat → Kernel → Nat}
    (hpage : ∀ j s, j < n → s.heap = k.heap → page j s = ptr + j * pageSize)
    (hlow : kernelBaseHeapAddr + kernelHeapSize ≤ ptr) (haligned : ptr % pageSize = 0)
    (hend : ptr + n * pageSize ≤ 2 * kernelBaseHeapAddr)
    (hM : ∀ j, j < n → M (ptr + j * pageSize)) :
    ∃ k', unmapPages ext page n k = .ok ((), k') ∧ k.BlockUnmapped ptr n k' ∧
      k'.PagesArea (fun u => ¬ BlockPages ptr n u ∧ M u) ∧ k'.SlabsArea := by
  have hlarge : ∀ j, j < n → LargePage (ptr + j * pageSize) := fun j hj =>
    largePage_of_block hlow haligned hend hj
  rw [MyOs.unmapPages]
  refine Prog.forLoop_ok (P := fun j s => k.BlockUnmapped ptr j s ∧
    s.PagesArea (fun u => ¬ BlockPages ptr j u ∧ M u) ∧ s.SlabsArea) ?_ n 0 k (Nat.zero_add n)
    ⟨.refl k ptr, ha.congr fun v _ => ⟨fun h => h.2, fun h => ⟨blockPages_zero ptr v, h⟩⟩, hs⟩
  rintro j s hj ⟨hblock, hsa, hss⟩
  have hnot : ¬ BlockPages ptr j (ptr + j * pageSize) := by
    rintro ⟨i, hi, heq⟩
    simp only [pageSize] at heq
    omega
  obtain ⟨f, s', hf, hrun, hunmapped⟩ := @PagesArea.unmap_run ext _ _ _ hsa (hlarge j hj)
    ⟨hnot, hM j hj⟩
  obtain ⟨hsa', hss'⟩ := hunmapped.area hsa hss (hlarge j hj) hf
  refine ⟨s', ?_, hblock.next haligned ?_ hf hunmapped, hsa'.congr fun v _ => ?_, hss'⟩
  · rw [Prog.get_bind_apply, hpage j s hj hblock.heap]
    exact hrun
  · have hmul : (j + 1) * pageSize ≤ n * pageSize := Nat.mul_le_mul_right _ hj
    rw [kernelBaseHeapAddr_eq] at hend
    omega
  · rw [blockPages_succ]
    constructor
    · rintro ⟨hnot', hMv⟩
      exact ⟨fun heq => hnot' (.inl heq), fun hp => hnot' (.inr hp), hMv⟩
    · rintro ⟨hne, hnot', hMv⟩
      exact ⟨fun hp => hp.elim hne hnot', hMv⟩

end Unmap

/-! ## Mapping -/

section Map

variable {k k' : Kernel} {M : Nat → Prop} {depth i ptr v : Nat} {b : Bool}

/-- The next free frame can be a large block's. -/
theorem PagesArea.takeFrame (ha : k.PagesArea M) (hs : k.SlabsArea)
    (hne : k.pmm.pmmAllocFrame.1 ≠ pmmNoFrameAvailable) :
    k.frameTaken.PagesArea M ∧ k.frameTaken.SlabsArea ∧
      k.frameTaken.BlockFrame k.pmm.pmmAllocFrame.1 ∧
      ∀ u, LargePage u → k.frameTaken.translate u ≠ some k.pmm.pmmAllocFrame.1 := by
  have hr := ha.running
  have hfree := frameFree_of hr.pmm rfl hne
  obtain ⟨hres, _⟩ := allocFrame_spec hr.pmm
  obtain ⟨m, hm, hlow, _, _, _⟩ := hres.of_ne hne
  have hsame := k.frameTaken_same
  have hused : ∀ g, k.FrameUsed g → k.frameTaken.FrameUsed g := fun g hg =>
    (hfree.used g).mpr (.inr hg)
  have hstep := hsame.areaStep hused
  have hrunning : k.frameTaken.Running := by
    refine hr.of_keepsMaps hsame.root (hsame.paged hr.paged) (frameTaken_wf hr.pmm)
      (fun j hj hp => ?_) hsame.keepsMaps
    rw [hsame.entryAt] at hp ⊢
    exact hused _ (hr.tables_used j hj hp)
  generalize k.pmm.pmmAllocFrame.1 = f at hne hfree hm
  refine ⟨ha.step hstep (fun _ _ h => h) hrunning,
    hs.step hstep (fun _ _ _ h => h) rfl rfl, ?_, fun u hu hf => ?_⟩
  · exact
      { low := by rw [hm]; exact Nat.mul_le_mul_right _ hlow
        aligned := hfree.aligned
        lt := hfree.lt_word
        used := (hfree.used f).mpr (.inl rfl)
        unreserved := fun hslab => hfree.unused (ha.reserved f hslab)
        not_table := fun j hj hp heq => by
          rw [hsame.dirFrame, hsame.entryAt] at hp heq
          apply hfree.unused
          rw [← heq]
          exact hr.tables_used j hj hp }
  · rw [hsame.translate] at hf
    exact hfree.unused (ha.frame u f hu hf).used

/-- A page of a large block was given a frame and mapped. -/
structure PageTaken (k : Kernel) (M : Nat → Prop) (v : Nat) (k' : Kernel) : Prop where
  area : k'.PagesArea fun u => u = v ∨ M u
  slabs : k'.SlabsArea
  step : k.TableStep k'
  frames : k'.freeFrames.card + 1 + (k.tablesMade k').card ≤ k.freeFrames.card
  table : isPagePresent (k'.pdeOf v) = true
  lists : k'.heap = k.heap ∨ isPagePresent (k.pdeOf v) = false ∧ ∃ o, k.heap.Take 0 o k'.heap

/-- One page of a block. -/
theorem PagesArea.mapFrame (ha : k.PagesArea M) (hs : k.SlabsArea) (hpage : LargePage v)
    (hne : k.pmm.pmmAllocFrame.1 ≠ pmmNoFrameAvailable)
    (hmap : vmmMapPageToCurrDir (link (depth + 1)) v k.pmm.pmmAllocFrame.1 pageWriteable
      k.frameTaken = .ok ((), k')) : k.PageTaken M v k' := by
  obtain ⟨ha₁, hs₁, hframe, hfresh⟩ := ha.takeFrame hs hne
  have hsame := k.frameTaken_same
  have hfree := frameFree_of ha.running.pmm rfl hne
  have hmapped := (ha₁.mapReady hs₁).mapPage hpage.lt hpage.2.2 hpage.below
    (ha₁.large_ne_directory hpage) hframe.aligned hframe.lt (by decide) (.inl hs₁.table) hmap
  obtain ⟨ha₂, hs₂⟩ := ha₁.mapPage hs₁ hpage hframe hfresh hmapped
  have hstep : k.TableStep k' := ((hsame.areaStep fun g hg =>
    (hfree.used g).mpr (.inr hg)).toTableStep).trans hmapped.step.toTableStep
  refine
    { area := ha₂
      slabs := hs₂
      step := hstep
      frames := hstep.frames ha₂.running hframe.low hframe.aligned hframe.lt hfree.unused
        (hmapped.step.used _ hframe.used) (hframe.step hmapped.step.toTableStep).not_table
      table := ((translate_eq_some ha₂.running.translate_on).mp hmapped.mapped).1
      lists := ?_ }
  cases hmapped.lists with
  | same hheap _ => exact .inl hheap
  | queued habsent htake _ _ =>
      rw [hsame.pdeOf] at habsent
      exact .inr ⟨habsent, _, htake⟩

/-- The tables that are missing then, for the pages behind it. -/
theorem PageTaken.missing (h : k.PageTaken M (ptr + i * pageSize) k') {n : Nat}
    (hend : ptr + (i + n) * pageSize < 2 ^ 32) :
    k.missingTables ptr i (n + 1) ⊆ k'.missingTables ptr (i + 1) n ∪ k.tablesMade k' ∧
      k'.missingTables ptr (i + 1) n ⊆ k.missingTables ptr i (n + 1) := by
  have hdir := h.step.dirFrame
  have hindex : ∀ j, j < i + (n + 1) → getDirectoryIndex (ptr + j * pageSize) < 1024 := by
    intro j hj
    have hle : j * pageSize ≤ (i + n) * pageSize := Nat.mul_le_mul_right _ (by omega)
    exact getDirectoryIndex_lt_of (by omega)
  constructor
  · intro t ht
    obtain ⟨⟨j, hij, hj, rfl⟩, habsent⟩ := mem_missingTables.mp ht
    rw [Finset.mem_union, mem_missingTables, mem_tablesMade, hdir]
    cases hp : isPagePresent (k'.entryAt k.dirFrame (getDirectoryIndex (ptr + j * pageSize))) with
    | true => exact .inr ⟨hindex j hj, habsent, rfl⟩
    | false =>
        left
        refine ⟨⟨j, ?_, by omega, rfl⟩, rfl⟩
        -- the table of page `i` itself is there
        apply Nat.lt_of_le_of_ne hij
        rintro rfl
        have htable := h.table
        rw [pdeOf, hdir, hp] at htable
        cases htable
  · intro t ht
    obtain ⟨⟨j, hij, hj, rfl⟩, habsent⟩ := mem_missingTables.mp ht
    refine mem_missingTables.mpr ⟨⟨j, by omega, by omega, rfl⟩, Bool.eq_false_iff.mpr fun hp => ?_⟩
    rw [hdir, (h.step.tables _ (hindex j (by omega)) hp).1] at habsent
    cases habsent

/-- A page that gets a new table takes it off the missing ones. -/
theorem PageTaken.nodes (h : k.PageTaken M (ptr + i * pageSize) k') {n : Nat}
    (hend : ptr + (i + n) * pageSize < 2 ^ 32) :
    ∃ m, Heap.Takes m k.heap k'.heap ∧
      m + (k'.missingTables ptr (i + 1) n).card ≤ (k.missingTables ptr i (n + 1)).card := by
  have hsub := (h.missing hend).2
  rcases h.lists with hheap | ⟨habsent, o, htake⟩
  · refine ⟨0, ?_, ?_⟩
    · rw [hheap]
      exact .done _
    · rw [Nat.zero_add]
      exact Finset.card_le_card hsub
  · refine ⟨1, .next htake (.done _), ?_⟩
    have hnot : getDirectoryIndex (ptr + i * pageSize) ∉ k'.missingTables ptr (i + 1) n := by
      intro hmem
      have hmissing := (mem_missingTables.mp hmem).2
      have htable := h.table
      rw [pdeOf, hmissing] at htable
      cases htable
    have hmem : getDirectoryIndex (ptr + i * pageSize) ∈ k.missingTables ptr i (n + 1) :=
      mem_missingTables.mpr ⟨⟨i, Nat.le_refl i, by omega, rfl⟩, habsent⟩
    have hle := Finset.card_le_card (Finset.insert_subset hmem hsub)
    rw [Finset.card_insert_of_notMem hnot] at hle
    omega

/-- Behind the last page of a large block the slabs' table is there, so a frame for one
page more is missing only when none is free. -/
theorem SlabsArea.first_page_free (hs : k.SlabsArea) (hr : k.Running)
    (hne : k.pmm.pmmAllocFrame.1 ≠ pmmNoFrameAvailable)
    (heq : ptr + i * pageSize = 2 * kernelBaseHeapAddr)
    (hfew : k.freeFrames.card < 0 + 1 + (k.missingTables ptr i (0 + 1)).card) : False := by
  have hfree := frameFree_of hr.pmm rfl hne
  have hmem : k.pmm.pmmAllocFrame.1 / pageSize ∈ k.freeFrames :=
    (frame_mem_freeFrames (hfree.low hr.pmm) hfree.lt_word).mpr hfree.unused
  have hnil : k.missingTables ptr i (0 + 1) = ∅ := by
    apply Finset.eq_empty_of_forall_notMem
    intro t ht
    obtain ⟨⟨j, hij, hj, rfl⟩, habsent⟩ := mem_missingTables.mp ht
    rw [show j = i by omega, heq, show getDirectoryIndex (2 * kernelBaseHeapAddr) = 32 by decide,
      hs.table] at habsent
    cases habsent
  have hpos := Finset.card_pos.mpr ⟨_, hmem⟩
  rw [hnil, Finset.card_empty] at hfew
  omega

/-- Without a frame for page `i`, the pages below it are unmapped again. -/
theorem PagesArea.mapLargePages_none (ha : k.PagesArea fun u => BlockPages ptr i u ∨ M u)
    (hs : k.SlabsArea) (hptr : k.heap.currentLargeHeapAddr = ptr)
    (hfit : ptr + i * pageSize ≤ 2 * kernelBaseHeapAddr) (hbelow : ∀ u, M u → u < ptr)
    (hnone : k.pmm.pmmAllocFrame.1 = pmmNoFrameAvailable) {n : Nat}
    (hrun : mapLargePages (link (depth + 1)) i (n + 1) k = .ok (b, k')) :
    b = false ∧ k'.heap = k.heap ∧ k'.SlabsArea ∧ k'.PagesArea M := by
  have hlow := hs.layout.large_low
  have haligned := hs.layout.large_aligned
  rw [hptr] at hlow haligned
  have halloc : allocFrame k =
      .ok (pmmNoFrameAvailable, { k with pmm := k.pmm.pmmAllocFrame.2 }) := by
    rw [allocFrame_eq, hnone]
  obtain ⟨hk, _⟩ := allocFrame_fails ha.running.pmm halloc
  rw [hk] at halloc
  have hpages : ∀ j (s : Kernel), j < i → s.heap = k.heap →
      u32 (s.heap.currentLargeHeapAddr + j * pageSize) = ptr + j * pageSize := by
    intro j s hj hheap
    rw [hheap, hptr, u32_of_lt (largePage_of_block hlow haligned hfit hj).lt]
  obtain ⟨k₁, hunmap, hblock, ha', hs'⟩ :=
    @PagesArea.unmapPages (link (depth + 1)) _ _ _ _ ha hs _ hpages hlow haligned hfit
      fun j hj => .inl ⟨j, hj, rfl⟩
  rw [MyOs.mapLargePages, Prog.get_bind_apply, Prog.bind_of_ok halloc, if_pos rfl,
    Prog.bind_of_ok hunmap] at hrun
  cases hrun
  refine ⟨rfl, hblock.heap, hs', ha'.congr fun v _ => ⟨fun hM => ?_, ?_⟩⟩
  · refine ⟨?_, .inr hM⟩
    rintro ⟨j, _, rfl⟩
    exact absurd (hbelow _ hM) (by omega)
  · rintro ⟨hnot, hp | hM⟩
    · exact absurd hp hnot
    · exact hM

/-- The frames left fall short of the pages behind page `i` as they did of those from
it on. -/
theorem PageTaken.few (h : k.PageTaken M (ptr + i * pageSize) k') {d : Nat}
    (hend : ptr + (i + d) * pageSize < 2 ^ 32)
    (hfew : k.freeFrames.card < d + 1 + (k.missingTables ptr i (d + 1)).card) :
    k'.freeFrames.card < d + (k'.missingTables ptr (i + 1) d).card := by
  have hframes := h.frames
  have hsub := Finset.card_le_card (h.missing hend).1
  have hunion := Finset.card_union_le (k'.missingTables ptr (i + 1) d) (k.tablesMade k')
  omega

/-- A page that gets a frame is one for large blocks. -/
theorem PagesArea.largePage_next (ha : k.PagesArea M) (hs : k.SlabsArea)
    (hptr : k.heap.currentLargeHeapAddr = ptr)
    (hne : k.pmm.pmmAllocFrame.1 ≠ pmmNoFrameAvailable) {d : Nat}
    (hend : ptr + (i + d) * pageSize ≤ 2 * kernelBaseHeapAddr)
    (hfew : k.freeFrames.card < d + 1 + (k.missingTables ptr i (d + 1)).card) :
    LargePage (ptr + i * pageSize) := by
  have hlow := hs.layout.large_low
  have haligned := hs.layout.large_aligned
  rw [hptr] at hlow haligned
  have hmul : i * pageSize ≤ (i + d) * pageSize := Nat.mul_le_mul_right _ (by omega)
  refine ⟨by omega, Nat.lt_of_le_of_ne (by omega) fun heq => ?_, ?_⟩
  · -- then `d` is 0
    have hd0 : d = 0 := by
      simp only [pageSize] at heq hend
      omega
    subst hd0
    exact hs.first_page_free ha.running hne heq hfew
  · simp only [pageSize] at haligned ⊢
    omega

/-- The loop of `kmalloc_large` from page `i` on, when at most `d` of the `n` pages left
get a frame. If it returns, either all pages are mapped or none is, and some tables were
made. -/
theorem PagesArea.mapLargePages (n : Nat) : ∀ i d k,
    k.PagesArea (fun u => BlockPages ptr i u ∨ M u) → k.SlabsArea →
    k.heap.currentLargeHeapAddr = ptr → d ≤ n → ptr + (i + d) * pageSize ≤ 2 * kernelBaseHeapAddr →
    (d < n → k.freeFrames.card < d + 1 + (k.missingTables ptr i (d + 1)).card) →
    (∀ u, M u → u < ptr) → mapLargePages (link (depth + 1)) i n k = .ok (b, k') →
    ∃ m, m ≤ (k.missingTables ptr i d).card ∧ Heap.Takes m k.heap k'.heap ∧ (b = true → d = n) ∧
      k'.SlabsArea ∧ k'.PagesArea fun u => (b = true ∧ BlockPages ptr (i + n) u) ∨ M u := by
  induction n with
  | zero =>
      intro i d k ha hs _ hd _ _ _ hrun
      cases hrun
      exact ⟨0, Nat.zero_le _, .done _, fun _ => Nat.le_zero.mp hd, hs,
        ha.congr fun v _ => by simp only [true_and, Nat.add_zero]⟩
  | succ n ih =>
      intro i d k ha hs hptr hd hend hfew hbelow hrun
      have hmul : i * pageSize ≤ (i + d) * pageSize := Nat.mul_le_mul_right _ (by omega)
      by_cases hnone : k.pmm.pmmAllocFrame.1 = pmmNoFrameAvailable
      · obtain ⟨rfl, hheap, hs', ha'⟩ :=
          ha.mapLargePages_none hs hptr (by omega) hbelow hnone hrun
        refine ⟨0, Nat.zero_le _, ?_, nofun, hs', ha'.congr fun v _ => by simp⟩
        rw [hheap]
        exact .done _
      have hword : ptr + (i + d) * pageSize < 2 ^ 32 := by
        rw [kernelBaseHeapAddr_eq] at hend
        omega
      rw [MyOs.mapLargePages, Prog.get_bind_apply, hptr, u32_of_lt (by omega),
        Prog.bind_of_ok (allocFrame_eq k), if_neg hnone] at hrun
      obtain ⟨_, k₁, hmap, hrest⟩ := Prog.bind_eq_ok.mp hrun
      cases d with
      | zero =>
          have hpage := ha.largePage_next hs hptr hnone hend (hfew (Nat.succ_pos n))
          -- no frame is left for this page
          have hleft := (ha.mapFrame hs hpage hnone hmap).few hword (hfew (Nat.succ_pos n))
          have hnil : k₁.missingTables ptr (i + 1) 0 = ∅ := by
            rw [missingTables, Nat.add_zero, Finset.Ico_self]
            rfl
          rw [hnil, Finset.card_empty] at hleft
          exact absurd hleft (Nat.not_lt_zero _)
      | succ d =>
          have hnext : (i + 1 + d) = i + (d + 1) := by omega
          have hpage : LargePage (ptr + i * pageSize) :=
            largePage_of_block (n := i + (d + 1)) (hptr ▸ hs.layout.large_low)
              (hptr ▸ hs.layout.large_aligned) hend (by omega)
          have htaken := ha.mapFrame hs hpage hnone hmap
          have hle : (i + d) * pageSize ≤ (i + (d + 1)) * pageSize :=
            Nat.mul_le_mul_right _ (by omega)
          obtain ⟨m₁, htakes₁, hm₁⟩ := htaken.nodes (n := d) (by omega)
          obtain ⟨m, hm, htakes, hall, hs', ha'⟩ := ih (i + 1) d k₁
            (htaken.area.congr fun v _ => by rw [blockPages_succ, or_assoc]) htaken.slabs
            (htakes₁.large.1.trans hptr) (Nat.le_of_succ_le_succ hd) (by rw [hnext]; exact hend)
            (fun hdn => htaken.few hword (hfew (Nat.succ_lt_succ hdn))) hbelow hrest
          refine ⟨m₁ + m, by omega, htakes₁.trans htakes, fun hb => by rw [hall hb], hs', ?_⟩
          rw [Nat.add_assoc, Nat.add_comm 1] at ha'
          exact ha'

end Map
end Kernel
end MyOs
