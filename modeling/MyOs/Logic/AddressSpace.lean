import MyOs.Logic.NewTable

/-!
# A running address space

With paging on, the current directory is reached both through
`current_directory` and through its own last entry, its tables are frames of
their own, and the frame allocator counts them as used: `Running`. Each kind of
change the kernel makes to the directory keeps it: an entry of a page (`setPte`),
a new table in an absent directory entry (`newTable`), an attribute
(`sameFrame`), a cleared table (`clearTable`).
-/

namespace MyOs
namespace Kernel

/-- The address space of a running kernel whose freed frames are those from `lo` on. -/
structure Running (k : Kernel) (lo : Nat := 8) : Prop where
  dir : k.DirectoryIn k.dirFrame
  dir_lt : k.currentDirectory < 2 ^ 32
  paged : k.Paged
  pmm : PmmWfFrom lo k.pmm
  tables_used : ∀ i, i < 1024 → isPagePresent (k.entryAt k.dirFrame i) = true →
    k.FrameUsed (getFrameAddr (k.entryAt k.dirFrame i))

/-- What is mapped in `k` is mapped alike in `k'`. -/
def KeepsMaps (k k' : Kernel) : Prop :=
  ∀ u p, u < 2 ^ 32 → k.translate u = some p → k'.translate u = some p

/-- The walks start from the same directory. -/
structure SameRoot (k k' : Kernel) : Prop where
  cr3 : k'.cr3 = k.cr3
  paging : k'.pagingEnabled = k.pagingEnabled
  dir : k'.currentDirectory = k.currentDirectory

section Moves

variable {lo : Nat} {k k' k'' : Kernel} {a f i u v w : Nat}

theorem KeepsMaps.refl (k : Kernel) : k.KeepsMaps k := fun _ _ _ h => h

theorem KeepsMaps.trans (h : k.KeepsMaps k') (h' : k'.KeepsMaps k'') : k.KeepsMaps k'' :=
  fun u p hu hp => h' u p hu (h u p hu hp)

theorem SameWalks.keepsMaps (h : k.SameWalks k') : k.KeepsMaps k' :=
  fun u p _ hp => by rw [h.translate, hp]

theorem SameWalks.root (h : k.SameWalks k') : k.SameRoot k' := ⟨h.cr3, h.paging, h.dir⟩

theorem SameRoot.trans (h : k.SameRoot k') (h' : k'.SameRoot k'') : k.SameRoot k'' :=
  ⟨h'.cr3.trans h.cr3, h'.paging.trans h.paging, h'.dir.trans h.dir⟩

theorem SameRoot.dirFrame (h : k.SameRoot k') : k'.dirFrame = k.dirFrame := dirFrame_congr h.cr3

theorem setMem_root (k : Kernel) (mem : ByteStore) : k.SameRoot (k.setMem mem) := ⟨rfl, rfl, rfl⟩

theorem pteAddr_of_pdeOf (h : k'.pdeOf v = k.pdeOf v) : k'.pteAddr v = k.pteAddr v := by
  rw [pteAddr, pteAddr, h]

theorem Running.translate_on (h : k.Running lo) : k.pagingEnabled = true :=
  h.paged.recursive.paging_on

/-- `current_directory` may be the directory's page in its own window. -/
theorem Paged.directoryIn_window (h : k.Paged)
    (hdir : k.currentDirectory = getPageTableVirAddr recursivePageTableIndex) :
    k.DirectoryIn k.dirFrame where
  nonnull := by rw [hdir]; decide
  aligned := k.dirFrame_aligned
  mapped := fun i hi => by
    have hwindow := translate_window h.recursive (by decide : recursivePageTableIndex < 1024) hi
      h.recursive.present
    rw [h.recursive.frame] at hwindow
    rw [hdir, hwindow]
  recursive := fun _ => h.recursive
  loaded := fun _ => rfl

/-- The directory is page-aligned. -/
theorem Running.currentDirectory_aligned (h : k.Running lo) :
    k.currentDirectory % pageSize = 0 := by
  obtain ⟨_, _, heq⟩ := (translate_eq_some h.translate_on).mp (h.dir.mapped 0 (by decide))
  have hframe := getFrameAddr_aligned (k.mem.load32 (k.pteAddr (k.currentDirectory + 4 * 0)))
  have hdir := k.dirFrame_aligned
  rw [getFrameOffset_eq] at heq
  simp only [pageSize] at hframe hdir heq ⊢
  omega

theorem Running.dirEntry_lt (h : k.Running lo) (hi : i < 1024) :
    k.currentDirectory + 4 * i < 2 ^ 32 := by
  have haligned := h.currentDirectory_aligned
  have hlt := h.dir_lt
  simp only [pageSize] at haligned
  omega

/-- A change of memory that leaves a directory with tables of their own, all of
them used, and the directory mapped, leaves the kernel running. -/
theorem Running.of_dir (h : k.Running lo) (hroot : k.SameRoot k') (hpaged : k'.Paged)
    (hpmm : PmmWfFrom lo k'.pmm)
    (hused : ∀ i, i < 1024 → isPagePresent (k'.entryAt k.dirFrame i) = true →
      k'.FrameUsed (getFrameAddr (k'.entryAt k.dirFrame i)))
    (hdir : ∀ i, i < 1024 →
      k'.translate (k.currentDirectory + 4 * i) = some (k.dirFrame + 4 * i)) : k'.Running lo where
  dir :=
    { nonnull := by rw [hroot.dir]; exact h.dir.nonnull
      aligned := k'.dirFrame_aligned
      mapped := by rw [hroot.dir, hroot.dirFrame]; exact hdir
      recursive := fun _ => hpaged.recursive
      loaded := fun _ => rfl }
  dir_lt := by rw [hroot.dir]; exact h.dir_lt
  paged := hpaged
  pmm := hpmm
  tables_used := by rw [hroot.dirFrame]; exact hused

/-- So does one that loses no mapping. -/
theorem Running.of_keepsMaps (h : k.Running lo) (hroot : k.SameRoot k') (hpaged : k'.Paged)
    (hpmm : PmmWfFrom lo k'.pmm)
    (hused : ∀ i, i < 1024 → isPagePresent (k'.entryAt k.dirFrame i) = true →
      k'.FrameUsed (getFrameAddr (k'.entryAt k.dirFrame i))) (hkeeps : k.KeepsMaps k') :
    k'.Running lo :=
  h.of_dir hroot hpaged hpmm hused fun i hi => hkeeps _ _ (h.dirEntry_lt hi) (h.dir.mapped i hi)

theorem SameWalks.running (h : k.SameWalks k') (hpmm : k'.pmm = k.pmm) (hr : k.Running lo) :
    k'.Running lo := by
  refine hr.of_keepsMaps h.root (h.paged hr.paged) (by rw [hpmm]; exact hr.pmm) (fun i hi hp => ?_)
    h.keepsMaps
  rw [h.entryAt] at hp ⊢
  rw [FrameUsed, hpmm]
  exact hr.tables_used i hi hp

/-! ## An entry of a page -/

/-- The directory's entries are the same. -/
structure SameTables (k k' : Kernel) : Prop extends SameRoot k k' where
  entries : ∀ i, i < 1024 → k'.entryAt k.dirFrame i = k.entryAt k.dirFrame i

theorem SameTables.pdeOf (h : k.SameTables k') (hu : u < 2 ^ 32) : k'.pdeOf u = k.pdeOf u := by
  rw [Kernel.pdeOf, Kernel.pdeOf, h.dirFrame, h.entries _ (getDirectoryIndex_lt_of hu)]

theorem SameTables.pteAddr (h : k.SameTables k') (hu : u < 2 ^ 32) :
    k'.pteAddr u = k.pteAddr u := pteAddr_of_pdeOf (h.pdeOf hu)

theorem SameTables.paged (h : k.SameTables k') (hp : k.Paged) : k'.Paged where
  recursive :=
    { paging_on := by rw [h.paging, hp.recursive.paging_on]
      present := by rw [h.dirFrame, h.entries _ (by decide), hp.recursive.present]
      frame := by rw [h.dirFrame, h.entries _ (by decide), hp.recursive.frame] }
  apart := fun i j hi hj => by
    rw [h.dirFrame, h.entries i hi, h.entries j hj]
    exact hp.apart i j hi hj

/-- A store to the entry of a page outside the window leaves the directory alone. -/
theorem Paged.setPte (h : k.Paged) (hv : v < 2 ^ 32)
    (hbelow : getDirectoryIndex v ≠ recursivePageTableIndex)
    (hpv : isPagePresent (k.pdeOf v) = true) (w : Nat) :
    k.SameTables (k.setMem (k.mem.store32 (k.pteAddr v) w)) where
  toSameRoot := k.setMem_root _
  entries := fun i hi => by
    have hne := h.pteAddr_ne hv hbelow hpv hi
    have halign := k.pteAddr_aligned v
    have halign' := k.dirFrame_aligned
    simp only [pageSize] at halign'
    show (k.mem.store32 (k.pteAddr v) w).load32 (k.dirFrame + 4 * i) =
      k.mem.load32 (k.dirFrame + 4 * i)
    exact ByteStore.load32_store32_ne (by omega)

/-- It changes the mapping of that page only. -/
theorem Paged.translate_setPte_ne (h : k.Paged) (hv : v < 2 ^ 32)
    (hbelow : getDirectoryIndex v ≠ recursivePageTableIndex)
    (hpv : isPagePresent (k.pdeOf v) = true) (hu : u < 2 ^ 32)
    (hne : u / pageSize ≠ v / pageSize) (w : Nat) :
    (k.setMem (k.mem.store32 (k.pteAddr v) w)).translate u = k.translate u := by
  have hsame := h.setPte hv hbelow hpv w
  rw [translate_words, translate_words, hsame.paging, hsame.pdeOf hu, hsame.pteAddr hu]
  cases hpu : isPagePresent (k.pdeOf u) with
  | false => simp only [Bool.false_eq_true, if_false]
  | true =>
      have haddr : k.pteAddr u ≠ k.pteAddr v := fun heq => hne (h.page_eq hu hv hpu hpv heq)
      have halign := k.pteAddr_aligned v
      have halign' := k.pteAddr_aligned u
      have hword : (k.setMem (k.mem.store32 (k.pteAddr v) w)).mem.load32 (k.pteAddr u) =
          k.mem.load32 (k.pteAddr u) := ByteStore.load32_store32_ne (by omega)
      rw [hword]

/-- The entry of page `v` is `w` and everything else is as it was. -/
structure PteSet (k k' : Kernel) (v w : Nat) : Prop extends SameTables k k' where
  heap : k'.heap = k.heap
  pmm : k'.pmm = k.pmm
  word : k'.mem.load32 (k.pteAddr v) = w
  words : ∀ b, b % 4 = 0 → b ≠ k.pteAddr v → k'.mem.load32 b = k.mem.load32 b
  others : ∀ u, u < 2 ^ 32 → u / pageSize ≠ v / pageSize → k'.translate u = k.translate u

theorem Paged.pteSet (h : k.Paged) (hv : v < 2 ^ 32)
    (hbelow : getDirectoryIndex v ≠ recursivePageTableIndex)
    (hpv : isPagePresent (k.pdeOf v) = true) (hw : w < 2 ^ 32) :
    k.PteSet (k.setMem (k.mem.store32 (k.pteAddr v) w)) v w where
  toSameTables := h.setPte hv hbelow hpv w
  heap := k.setMem_heap _
  pmm := k.setMem_pmm _
  word := ByteStore.load32_store32 hw
  words := fun b hb hne => by
    have haligned := k.pteAddr_aligned v
    exact ByteStore.load32_store32_ne (by omega)
  others := fun _ hu hne => h.translate_setPte_ne hv hbelow hpv hu hne w

theorem PteSet.word_eq (h : k.PteSet k' v w) (hv : v < 2 ^ 32) :
    k'.mem.load32 (k'.pteAddr v) = w := by rw [h.pteAddr hv, h.word]

/-- A present word maps the page. -/
theorem PteSet.mapped (h : k.PteSet k' v w) (hon : k.pagingEnabled = true) (hv : v < 2 ^ 32)
    (hpv : isPagePresent (k.pdeOf v) = true) (hpresent : isPagePresent w = true) :
    k'.translate v = some (getFrameAddr w + getFrameOffset v) := by
  rw [translate_words, h.paging, hon, h.pdeOf hv, h.word_eq hv, hpv, hpresent]
  rfl

/-- Another word unmaps it. -/
theorem PteSet.unmapped (h : k.PteSet k' v w) (hon : k.pagingEnabled = true) (hv : v < 2 ^ 32)
    (hpv : isPagePresent (k.pdeOf v) = true) (habsent : isPagePresent w = false) :
    k'.translate v = none := by
  rw [translate_words, h.paging, hon, h.pdeOf hv, h.word_eq hv, hpv, habsent]
  rfl

/-- The directory keeps its used tables of their own. -/
theorem PteSet.tables_used (h : k.PteSet k' v w) (hr : k.Running lo) (i : Nat) (hi : i < 1024)
    (hpresent : isPagePresent (k'.entryAt k.dirFrame i) = true) :
    k'.FrameUsed (getFrameAddr (k'.entryAt k.dirFrame i)) := by
  rw [h.entries i hi] at hpresent ⊢
  rw [FrameUsed, h.pmm]
  exact hr.tables_used i hi hpresent

/-- A page that does not hold the directory can be set to any word. -/
theorem PteSet.running (h : k.PteSet k' v w) (hr : k.Running lo)
    (hoff : v / pageSize ≠ k.currentDirectory / pageSize) : k'.Running lo := by
  refine hr.of_dir h.toSameRoot (h.paged hr.paged) (by rw [h.pmm]; exact hr.pmm)
    (h.tables_used hr) fun i hi => ?_
  have haligned := hr.currentDirectory_aligned
  have hpage : (k.currentDirectory + 4 * i) / pageSize ≠ v / pageSize := by
    simp only [pageSize] at haligned hoff ⊢
    omega
  rw [h.others _ (hr.dirEntry_lt hi) hpage]
  exact hr.dir.mapped i hi

/-- The addresses of a page are under one table. -/
theorem directoryIndex_of_page (huv : u / pageSize = v / pageSize) :
    getDirectoryIndex u = getDirectoryIndex v := by
  have hsize : pageSize = 4096 := rfl
  rw [hsize] at huv
  rw [getDirectoryIndex_eq, getDirectoryIndex_eq]
  omega

/-- The translation of an address is that of its page. -/
theorem translate_page (hon : k.pagingEnabled = true) (huv : u / pageSize = v / pageSize) {q : Nat}
    (hq : k.translate v = some q) :
    k.translate u = some (q - getFrameOffset v + getFrameOffset u) := by
  obtain ⟨hpde, hpte, rfl⟩ := (translate_eq_some hon).mp hq
  have hdir := directoryIndex_of_page huv
  have htable : getTableIndex u = getTableIndex v := by
    rw [getTableIndex_eq, getTableIndex_eq, huv]
  have hpdeOf : k.pdeOf u = k.pdeOf v := by rw [Kernel.pdeOf, Kernel.pdeOf, hdir]
  have haddr : k.pteAddr u = k.pteAddr v := by rw [Kernel.pteAddr, Kernel.pteAddr, hpdeOf, htable]
  rw [Nat.add_sub_cancel]
  exact (translate_eq_some hon).mpr ⟨by rw [hpdeOf, hpde], by rw [haddr, hpte], by rw [haddr]⟩

/-- Where one address of a page is mapped alike, the whole page is. -/
theorem translate_page_congr (hon : k.pagingEnabled = true) (hon' : k'.pagingEnabled = true)
    (huv : u / pageSize = v / pageSize) {q : Nat} (hq : k.translate v = some q)
    (hq' : k'.translate v = some q) : k'.translate u = k.translate u := by
  rw [translate_page hon huv hq, translate_page hon' huv hq']

/-! ## A new table -/

/-- A store to an absent entry is on no walk that finds a page. -/
theorem keepsMaps_store_absent (hon : k.pagingEnabled = true) (ha : a % 4 = 0)
    (habsent : isPagePresent (k.mem.load32 a) = false) (w : Nat) :
    k.KeepsMaps (k.setMem (k.mem.store32 a w)) := by
  intro u p _ hp
  obtain ⟨hpde, hpte, _⟩ := (translate_eq_some hon).mp hp
  have hword {b : Nat} (hb : b % 4 = 0) (hpresent : isPagePresent (k.mem.load32 b) = true) :
      (k.mem.store32 a w).load32 b = k.mem.load32 b := by
    have hne : a ≠ b := by
      rintro rfl
      rw [habsent] at hpresent
      cases hpresent
    exact ByteStore.load32_store32_ne (by omega)
  rw [← hp]
  exact translate_keep (show (k.setMem (k.mem.store32 a w)).cr3 = k.cr3 from rfl) rfl
    (hword (k.pdeAddr_aligned u) hpde) (hword (k.pteAddr_aligned u) hpte)

/-- A pointer to an absent entry survives a store to it. -/
theorem steady_absent {e : Nat} (hon : k.pagingEnabled = true) (hptr : k.translate e = some a)
    (he : e < 2 ^ 32) (ha : a % 4 = 0) (habsent : isPagePresent (k.mem.load32 a) = false) :
    k.Steady e a :=
  ⟨hptr, fun w => keepsMaps_store_absent hon ha habsent w e a he hptr⟩

theorem frameTaken_same (k : Kernel) : k.SameWalks k.frameTaken := ⟨rfl, rfl, rfl, rfl⟩

/-- What `pageAllocated` does to the words. -/
theorem load32_pageAllocated {b : Nat} (ha : a % 4 = 0) (hb : b % 4 = 0) (hf : f < 2 ^ 32) :
    (k.pageAllocated a f).mem.load32 b =
      if b = a then allocatedWord (k.mem.load32 a) f else k.mem.load32 b :=
  ByteStore.load32_store32_word (allocatedWord_lt hf) ha hb

/-- The new table is in its entry and nothing else has changed. -/
theorem Running.newTable (h : k.Running lo)
    (habsent : isPagePresent (k.pdeOf v) = false) (hf : k.FrameFree f) :
    (k.pageAllocated (k.pdeAddr v) f).Running lo ∧
      k.KeepsMaps (k.pageAllocated (k.pdeAddr v) f) := by
  have hlt : f < 2 ^ 32 := by
    have := hf.lt
    simp only [pageSize] at this
    omega
  have hon := h.translate_on
  have hkeeps : k.KeepsMaps (k.pageAllocated (k.pdeAddr v) f) :=
    (keepsMaps_store_absent hon (k.pdeAddr_aligned v) habsent _).trans
      (k.frameTaken_same.setMem _).keepsMaps
  have hentry (i : Nat) : (k.pageAllocated (k.pdeAddr v) f).entryAt k.dirFrame i =
      if i = getDirectoryIndex v then allocatedWord (k.pdeOf v) f else k.entryAt k.dirFrame i := by
    have haligned := k.dirFrame_aligned
    simp only [pageSize] at haligned
    rw [entryAt, load32_pageAllocated (k.pdeAddr_aligned v) (by omega) hlt, pdeAddr]
    by_cases hi : i = getDirectoryIndex v
    · rw [if_pos hi, if_pos (by rw [hi])]
      rfl
    · rw [if_neg hi, if_neg (by omega)]
      rfl
  -- the new frame was no table's
  have hfresh (i : Nat) (hi : i < 1024) (hpresent : isPagePresent (k.entryAt k.dirFrame i) = true) :
      getFrameAddr (k.entryAt k.dirFrame i) ≠ f := by
    rintro rfl
    exact hf.unused (h.tables_used i hi hpresent)
  have hnew : getFrameAddr (allocatedWord (k.pdeOf v) f) = f :=
    getFrameAddr_allocatedWord hf.aligned hlt
  have hself : recursivePageTableIndex ≠ getDirectoryIndex v := by
    intro heq
    have hpresent := h.paged.recursive.present
    rw [heq] at hpresent
    have hentry : k.entryAt k.dirFrame (getDirectoryIndex v) = k.pdeOf v := rfl
    exact absurd hpresent (by rw [hentry, habsent]; decide)
  have hpaged : (k.pageAllocated (k.pdeAddr v) f).Paged := by
    refine ⟨⟨hon, ?_, ?_⟩, fun i j hi hj hpi hpj heq => ?_⟩
    · exact (congrArg isPagePresent ((hentry _).trans (if_neg hself))).trans h.paged.recursive.present
    · exact (congrArg getFrameAddr ((hentry _).trans (if_neg hself))).trans h.paged.recursive.frame
    · change isPagePresent ((k.pageAllocated (k.pdeAddr v) f).entryAt k.dirFrame i) = true at hpi
      change isPagePresent ((k.pageAllocated (k.pdeAddr v) f).entryAt k.dirFrame j) = true at hpj
      change getFrameAddr ((k.pageAllocated (k.pdeAddr v) f).entryAt k.dirFrame i) =
        getFrameAddr ((k.pageAllocated (k.pdeAddr v) f).entryAt k.dirFrame j) at heq
      rw [hentry] at hpi hpj heq
      rw [hentry] at heq
      by_cases hiv : i = getDirectoryIndex v
      · by_cases hjv : j = getDirectoryIndex v
        · rw [hiv, hjv]
        · rw [if_neg hjv] at hpj heq
          rw [if_pos hiv, hnew] at heq
          exact absurd heq.symm (hfresh j hj hpj)
      · rw [if_neg hiv] at hpi heq
        by_cases hjv : j = getDirectoryIndex v
        · rw [if_pos hjv, hnew] at heq
          exact absurd heq (hfresh i hi hpi)
        · rw [if_neg hjv] at hpj heq
          exact h.paged.apart i j hi hj hpi hpj heq
  refine ⟨h.of_keepsMaps ⟨rfl, rfl, rfl⟩ hpaged (frameTaken_wf h.pmm) (fun i hi hpresent => ?_)
    hkeeps, hkeeps⟩
  refine (hf.used _).mpr ?_
  rw [hentry] at hpresent ⊢
  by_cases hiv : i = getDirectoryIndex v
  · rw [if_pos hiv, hnew]
    exact .inl rfl
  · rw [if_neg hiv] at hpresent ⊢
    exact .inr (h.tables_used i hi hpresent)

/-! ## An attribute of an entry -/

/-- Every word has the same frame and is present alike. -/
structure SameFrames (k k' : Kernel) : Prop extends SameRoot k k' where
  present : ∀ b, b % 4 = 0 → isPagePresent (k'.mem.load32 b) = isPagePresent (k.mem.load32 b)
  frame : ∀ b, b % 4 = 0 → getFrameAddr (k'.mem.load32 b) = getFrameAddr (k.mem.load32 b)

theorem sameFrames_store (ha : a % 4 = 0) (hw : w < 2 ^ 32)
    (hpresent : isPagePresent w = isPagePresent (k.mem.load32 a))
    (hframe : getFrameAddr w = getFrameAddr (k.mem.load32 a)) :
    k.SameFrames (k.setMem (k.mem.store32 a w)) := by
  refine ⟨k.setMem_root _, fun b hb => ?_, fun b hb => ?_⟩
  all_goals
    rw [setMem, ByteStore.load32_store32_word hw ha hb]
    by_cases hba : b = a
  · rw [if_pos hba, hba, hpresent]
  · rw [if_neg hba]
  · rw [if_pos hba, hba, hframe]
  · rw [if_neg hba]

theorem SameFrames.pteAddr (h : k.SameFrames k') (v : Nat) : k'.pteAddr v = k.pteAddr v := by
  rw [Kernel.pteAddr, Kernel.pteAddr, pdeOf_eq_load32, pdeOf_eq_load32, pdeAddr_congr h.cr3,
    h.frame _ (k.pdeAddr_aligned v)]

theorem SameFrames.translate (h : k.SameFrames k') (v : Nat) : k'.translate v = k.translate v := by
  rw [translate_words, translate_words, h.paging, h.pteAddr, pdeOf_eq_load32, pdeOf_eq_load32,
    pdeAddr_congr h.cr3, h.present _ (k.pdeAddr_aligned v), h.present _ (k.pteAddr_aligned v),
    h.frame _ (k.pteAddr_aligned v)]

theorem SameFrames.running (h : k.SameFrames k') (hpmm : k'.pmm = k.pmm) (hr : k.Running lo) :
    k'.Running lo := by
  have haligned (i : Nat) : (k.dirFrame + 4 * i) % 4 = 0 := by
    have := k.dirFrame_aligned
    simp only [pageSize] at this
    omega
  have hpresent (i : Nat) : isPagePresent (k'.entryAt k.dirFrame i) =
      isPagePresent (k.entryAt k.dirFrame i) := h.present _ (haligned i)
  have hframe (i : Nat) : getFrameAddr (k'.entryAt k.dirFrame i) =
      getFrameAddr (k.entryAt k.dirFrame i) := h.frame _ (haligned i)
  have hpaged : k'.Paged := by
    refine ⟨⟨by rw [h.paging, hr.translate_on], ?_, ?_⟩, fun i j hi hj => ?_⟩
    · rw [h.dirFrame, hpresent, hr.paged.recursive.present]
    · rw [h.dirFrame, hframe, hr.paged.recursive.frame]
    · rw [h.dirFrame, hpresent, hpresent, hframe, hframe]
      exact hr.paged.apart i j hi hj
  refine hr.of_keepsMaps h.toSameRoot hpaged (by rw [hpmm]; exact hr.pmm) (fun i hi hp => ?_)
    fun u p _ hp => by rw [h.translate, hp]
  rw [hpresent] at hp
  rw [hframe, FrameUsed, hpmm]
  exact hr.tables_used i hi hp

/-! ## A cleared table -/

/-- The table of `v` is zeroed. -/
def clearTable (k : Kernel) (v : Nat) : Kernel :=
  k.setMem (k.mem.fill (getFrameAddr (k.pdeOf v)) 0 pageSize)

section Clear

variable (h : k.Paged) (hv : v < 2 ^ 32) (hbelow : getDirectoryIndex v ≠ recursivePageTableIndex)
  (hpv : isPagePresent (k.pdeOf v) = true)

include h hv hbelow hpv

theorem Paged.clearTable_same : k.SameTables (k.clearTable v) where
  toSameRoot := k.setMem_root _
  entries := fun i hi => by
    have htable := h.table_ne hv hbelow hpv
    have halign := getFrameAddr_aligned (k.pdeOf v)
    have halign' := k.dirFrame_aligned
    simp only [pageSize] at halign halign'
    show (k.mem.fill (getFrameAddr (k.pdeOf v)) 0 pageSize).load32 (k.dirFrame + 4 * i) =
      k.mem.load32 (k.dirFrame + 4 * i)
    exact ByteStore.load32_patch_outside (by simp only [pageSize]; omega)

omit h hv hbelow hpv in
/-- Its entries are zero. -/
theorem Paged.clearTable_zero {u : Nat} (huv : getDirectoryIndex u = getDirectoryIndex v) :
    (k.clearTable v).mem.load32 (k.pteAddr u) = 0 := by
  have hindex := getTableIndex_lt u
  have hsize : pageSize = 4096 := rfl
  have haddr : k.pteAddr u = getFrameAddr (k.pdeOf v) + 4 * getTableIndex u := by
    rw [Kernel.pteAddr, Kernel.pdeOf, Kernel.pdeOf, huv]
  rw [haddr]
  exact ByteStore.load32_fill_zero (by omega) (by omega)

/-- The pages of other tables are mapped as before. -/
theorem Paged.translate_clearTable (hu : u < 2 ^ 32)
    (hne : getDirectoryIndex u ≠ getDirectoryIndex v) :
    (k.clearTable v).translate u = k.translate u := by
  have hsame := h.clearTable_same hv hbelow hpv
  rw [translate_words, translate_words, hsame.paging, hsame.pdeOf hu, hsame.pteAddr hu]
  cases hpu : isPagePresent (k.pdeOf u) with
  | false => simp only [Bool.false_eq_true, if_false]
  | true =>
      have htable : getFrameAddr (k.pdeOf u) ≠ getFrameAddr (k.pdeOf v) := fun heq =>
        hne (h.apart _ _ (getDirectoryIndex_lt_of hu) (getDirectoryIndex_lt_of hv) hpu hpv heq)
      have hindex := getTableIndex_lt u
      have halign := getFrameAddr_aligned (k.pdeOf u)
      have halign' := getFrameAddr_aligned (k.pdeOf v)
      simp only [pageSize] at halign halign'
      have hword : (k.clearTable v).mem.load32 (k.pteAddr u) = k.mem.load32 (k.pteAddr u) :=
        ByteStore.load32_patch_outside (by rw [Kernel.pteAddr]; simp only [pageSize]; omega)
      rw [hword]

end Clear

theorem Paged.below_of_absent (h : k.Paged) (habsent : isPagePresent (k.pdeOf v) = false) :
    getDirectoryIndex v ≠ recursivePageTableIndex := by
  intro heq
  have hpresent := h.recursive.present
  rw [← heq, show k.entryAt k.dirFrame (getDirectoryIndex v) = k.pdeOf v from rfl, habsent]
    at hpresent
  cases hpresent

/-- `memset(v, 0, PAGE_SIZE)` on a mapped page. -/
theorem memsetZero_page {ext : Ext} {p : Nat} (hp : k.translate v = some p)
    (haligned : v % pageSize = 0) :
    memsetZero ext v pageSize k = .ok ((), k.setMem (k.mem.fill p 0 pageSize)) := by
  have hchunk : min pageSize (pageSize - v % pageSize) = pageSize := by
    rw [haligned]
    rfl
  rw [memsetZero, show pageSize / pageSize + 2 = 2 + 1 from rfl, zeroRange,
    if_neg (by decide), hchunk, Prog.bind_of_ok (resolve_mapped hp), Prog.modify_bind_apply]
  rfl

/-- The state in which `vmm_map_page` has its new table: from `k`, in which the
directory entry is set, the entry is made writeable and the table is cleared. -/
def tableCleared (k : Kernel) (v : Nat) : Kernel :=
  (k.setMem (k.mem.store32 (k.pdeAddr v) (pageEntryAddAttrib (k.pdeOf v) pageWriteable))).clearTable v

theorem tableCleared_root (k : Kernel) (v : Nat) : k.SameRoot (k.tableCleared v) :=
  (k.setMem_root _).trans (setMem_root _ _)

theorem tableCleared_heap (k : Kernel) (v : Nat) : (k.tableCleared v).heap = k.heap :=
  (setMem_heap _ _).trans (setMem_heap _ _)

theorem tableCleared_pmm (k : Kernel) (v : Nat) : (k.tableCleared v).pmm = k.pmm :=
  (setMem_pmm _ _).trans (setMem_pmm _ _)

/-- Two pages of memory change, the directory and the table. -/
theorem tableCleared_words {b : Nat} (hb : b % 4 = 0)
    (hdir : b / pageSize ≠ k.dirFrame / pageSize)
    (htable : b / pageSize ≠ getFrameAddr (k.pdeOf v) / pageSize) (hv : v < 2 ^ 32) :
    (k.tableCleared v).mem.load32 b = k.mem.load32 b := by
  have hidx := getDirectoryIndex_lt_of hv
  have halign := k.dirFrame_aligned
  have halign' := getFrameAddr_aligned (k.pdeOf v)
  have hpde := k.pdeAddr_aligned v
  have hsize : pageSize = 4096 := rfl
  have hne : b ≠ k.pdeAddr v := by
    rintro rfl
    rw [hsize] at hdir halign
    rw [pdeAddr] at hdir
    omega
  have hframe : getFrameAddr ((k.setMem (k.mem.store32 (k.pdeAddr v)
      (pageEntryAddAttrib (k.pdeOf v) pageWriteable))).pdeOf v) = getFrameAddr (k.pdeOf v) := by
    have hword : (k.setMem (k.mem.store32 (k.pdeAddr v)
        (pageEntryAddAttrib (k.pdeOf v) pageWriteable))).pdeOf v =
        pageEntryAddAttrib (k.pdeOf v) pageWriteable :=
      ByteStore.load32_store32 (pageEntryAddAttrib_lt (load32_mem_lt k _) (by decide))
    rw [hword, getFrameAddr_pageEntryAddAttrib _ (by decide)]
  rw [tableCleared, clearTable, hframe, setMem]
  rw [hsize] at htable halign'
  exact (ByteStore.load32_patch_outside (by rw [hsize]; omega)).trans
    (ByteStore.load32_store32_ne (by omega))

section Cleared

variable (h : k.Running lo) (hv : v < 2 ^ 32)
  (hbelow : getDirectoryIndex v ≠ recursivePageTableIndex)
  (hpv : isPagePresent (k.pdeOf v) = true)

include h hv hbelow hpv

omit h hv hbelow in
theorem Running.writeable : k.SameFrames (k.setMem (k.mem.store32 (k.pdeAddr v)
    (pageEntryAddAttrib (k.pdeOf v) pageWriteable))) := by
  have hpresent : isPagePresent (pageEntryAddAttrib (k.pdeOf v) pageWriteable) = true := by
    rw [isPagePresent_eq] at hpv ⊢
    rw [testBit_pageEntryAddAttrib, hpv, Bool.true_or]
  exact sameFrames_store (k.pdeAddr_aligned v)
    (pageEntryAddAttrib_lt (load32_mem_lt k _) (by decide)) (hpresent.trans hpv.symm)
    (getFrameAddr_pageEntryAddAttrib _ (by decide))

/-- The cleared table is the table of `v`, and the others are as they were. -/
theorem Running.tableCleared_tables : (k.tableCleared v).Paged ∧
    (∀ i, i < 1024 → isPagePresent ((k.tableCleared v).entryAt k.dirFrame i) =
        isPagePresent (k.entryAt k.dirFrame i) ∧
      getFrameAddr ((k.tableCleared v).entryAt k.dirFrame i) =
        getFrameAddr (k.entryAt k.dirFrame i)) ∧
    (k.tableCleared v).mem.load32 ((k.tableCleared v).pteAddr v) = 0 := by
  have hframes := Running.writeable hpv
  have hw := hframes.running rfl h
  have hpde : isPagePresent ((k.setMem (k.mem.store32 (k.pdeAddr v)
      (pageEntryAddAttrib (k.pdeOf v) pageWriteable))).pdeOf v) = true :=
    (hframes.present _ (k.pdeAddr_aligned v)).trans hpv
  have hsame := hw.paged.clearTable_same hv hbelow hpde
  refine ⟨hsame.paged hw.paged, fun i hi => ?_, ?_⟩
  · have haligned : (k.dirFrame + 4 * i) % 4 = 0 := by
      have := k.dirFrame_aligned
      simp only [pageSize] at this
      omega
    have hentry : (k.tableCleared v).entryAt k.dirFrame i = _ := hsame.entries i hi
    rw [hentry]
    exact ⟨hframes.present _ haligned, hframes.frame _ haligned⟩
  · rw [tableCleared, hsame.pteAddr hv]
    exact Paged.clearTable_zero rfl

theorem Running.translate_tableCleared (hu : u < 2 ^ 32)
    (hne : getDirectoryIndex u ≠ getDirectoryIndex v) :
    (k.tableCleared v).translate u = k.translate u := by
  have hframes := Running.writeable hpv
  have hw := hframes.running rfl h
  have hpde : isPagePresent ((k.setMem (k.mem.store32 (k.pdeAddr v)
      (pageEntryAddAttrib (k.pdeOf v) pageWriteable))).pdeOf v) = true :=
    (hframes.present _ (k.pdeAddr_aligned v)).trans hpv
  rw [tableCleared, hw.paged.translate_clearTable hv hbelow hpde hu hne, hframes.translate]

/-- No page of the cleared table is mapped. -/
theorem Running.unmapped_tableCleared (hu : u < 2 ^ 32)
    (huv : getDirectoryIndex u = getDirectoryIndex v) : (k.tableCleared v).translate u = none := by
  have hframes := Running.writeable hpv
  have hw := hframes.running rfl h
  have hpde : isPagePresent ((k.setMem (k.mem.store32 (k.pdeAddr v)
      (pageEntryAddAttrib (k.pdeOf v) pageWriteable))).pdeOf v) = true :=
    (hframes.present _ (k.pdeAddr_aligned v)).trans hpv
  have hsame := hw.paged.clearTable_same hv hbelow hpde
  have hzero := @Paged.clearTable_zero (k.setMem (k.mem.store32 (k.pdeAddr v)
    (pageEntryAddAttrib (k.pdeOf v) pageWriteable))) v u huv
  rw [tableCleared, translate_words, hsame.pteAddr hu, hzero]
  split
  · split <;> rfl
  · rw [hsame.paging, hw.translate_on] at *
    contradiction

end Cleared

/-- `vmm_map_page` makes a table for `v`; `k₂` is the state in which the new table
is queued. -/
theorem Running.tableForMapping_new {ext : Ext} {k₂ : Kernel} (h : k.Running lo) (hv : v < 2 ^ 32)
    (habsent : isPagePresent (k.pdeOf v) = false) (hin : isSwapped (k.pdeOf v) = false)
    (hf : k.FrameFree f)
    (hqueue : pageEnqueue ext (getPageTableVirAddr (getDirectoryIndex v))
      (k.pageAllocated (k.pdeAddr v) f) = .ok (true, k₂))
    (hroot : k.SameRoot k₂) (h₂ : k₂.Running lo)
    (hpv : isPagePresent (k₂.pdeOf v) = true) :
    tableForMapping ext k.currentDirectory (getDirectoryIndex v) k =
      .ok (getPageTableVirAddr (getDirectoryIndex v), k₂.tableCleared v) := by
  have hidx := getDirectoryIndex_lt_of hv
  have hbelow := h.paged.below_of_absent habsent
  have hptr := h.dir.mapped _ hidx
  have hsteady : k.Steady (k.currentDirectory + 4 * getDirectoryIndex v) (k.pdeAddr v) :=
    steady_absent h.translate_on hptr (h.dirEntry_lt hidx) (k.pdeAddr_aligned v) habsent
  have halloc : allocTable ext (k.currentDirectory + 4 * getDirectoryIndex v)
      (getPageTableVirAddr (getDirectoryIndex v)) k = .ok (true, k₂) := by
    rw [allocTable, Prog.get_bind_apply, if_pos h.translate_on]
    exact hsteady.vmmAllocPage hf hqueue
  -- the entry is then found through `current_directory`, and the table in the window
  have hptr₂ : k₂.translate (k.currentDirectory + 4 * getDirectoryIndex v) =
      some (k₂.pdeAddr v) := by
    rw [← hroot.dir]
    exact h₂.dir.mapped _ hidx
  have hframes := Running.writeable hpv
  have hwrite : modifyWord ext (k.currentDirectory + 4 * getDirectoryIndex v)
      (fun w => pageEntryAddAttrib w pageWriteable) k₂ =
      .ok ((), k₂.setMem (k₂.mem.store32 (k₂.pdeAddr v)
        (pageEntryAddAttrib (k₂.pdeOf v) pageWriteable))) := modifyWord_mapped hptr₂ _
  have hcleared : k₂.tableCleared v = (k₂.setMem (k₂.mem.store32 (k₂.pdeAddr v)
    (pageEntryAddAttrib (k₂.pdeOf v) pageWriteable))).clearTable v := rfl
  rw [hcleared]
  have hpmm : (k₂.setMem (k₂.mem.store32 (k₂.pdeAddr v)
    (pageEntryAddAttrib (k₂.pdeOf v) pageWriteable))).pmm = k₂.pmm := rfl
  generalize k₂.setMem (k₂.mem.store32 (k₂.pdeAddr v)
    (pageEntryAddAttrib (k₂.pdeOf v) pageWriteable)) = k₃ at hframes hwrite hpmm ⊢
  have hw : k₃.Running lo := hframes.running hpmm h₂
  have hwindow : k₃.translate (getPageTableVirAddr (getDirectoryIndex v)) =
      some (getFrameAddr (k₃.pdeOf v)) := by
    have hpde : isPagePresent (k₃.pdeOf v) = true := by
      rw [pdeOf_eq_load32, pdeAddr_congr hframes.cr3, hframes.present _ (k₂.pdeAddr_aligned v)]
      exact hpv
    have hfirst := translate_window hw.paged.recursive hidx (show 0 < 1024 by decide) hpde
    rw [Nat.mul_zero, Nat.add_zero, Nat.add_zero] at hfirst
    exact hfirst
  have haligned : getPageTableVirAddr (getDirectoryIndex v) % pageSize = 0 := by
    rw [getPageTableVirAddr_eq hidx, show pageSize = 4096 from rfl]
    omega
  have htable : MyOs.getPageTableAddr ext k.currentDirectory (getDirectoryIndex v) k₃ =
      .ok (getPageTableVirAddr (getDirectoryIndex v), k₃) := by
    rw [MyOs.getPageTableAddr, Prog.get_bind_apply, if_pos hw.translate_on]
    rfl
  have hclear : memsetZero ext (getPageTableVirAddr (getDirectoryIndex v)) pageSize k₃ =
      .ok ((), k₃.clearTable v) := memsetZero_page hwindow haligned
  rw [MyOs.tableForMapping, Prog.bind_of_ok (loadWord_mapped hptr)]
  rw [show k.mem.load32 (k.dirFrame + 4 * getDirectoryIndex v) = k.pdeOf v from rfl, habsent, hin]
  simp only [Bool.false_eq_true, if_false]
  rw [Prog.bind_of_ok halloc, if_neg (by decide), Prog.bind_of_ok hwrite, Prog.bind_of_ok htable,
    Prog.bind_of_ok hclear]
  rfl

end Moves

/-! ## The pointer to an entry -/

section EntryPointers

variable {k k' : Kernel} {v : Nat}

/-- The window shows the entry of every page but the directory's own, off the walk
to it. -/
theorem Paged.windowPtr (h : k.Paged) (hv : v < 2 ^ 32) (hpv : isPagePresent (k.pdeOf v) = true)
    (hself : k.pteAddr v ≠ k.selfAddr) : k.EntryPtr (windowAddr v) (k.pteAddr v) := by
  refine h.recursive.windowPtr hv hpv hself fun heq => ?_
  by_cases hwindow : getDirectoryIndex v = recursivePageTableIndex
  · exact hself (by rw [heq, pdeAddr, hwindow, selfAddr])
  · exact h.pteAddr_ne hv hwindow hpv (getDirectoryIndex_lt_of hv) heq

/-- A change that keeps the directory's own entry and that of the page keeps the
pointer. -/
theorem SameRoot.windowPtr (hroot : k.SameRoot k') (hrec : k.Recursive) (hv : v < 2 ^ 32)
    (hself : k'.mem.load32 k.selfAddr = k.mem.load32 k.selfAddr)
    (hpde : k'.mem.load32 (k.pdeAddr v) = k.mem.load32 (k.pdeAddr v)) {a : Nat}
    (h : k.EntryPtr (windowAddr v) a) : k'.EntryPtr (windowAddr v) a := by
  have haddr : k.pdeAddr (windowAddr v) = k.selfAddr := by
    rw [pdeAddr, getDirectoryIndex_windowAddr hv, selfAddr]
  refine h.congr hroot.cr3 hroot.paging ?_ ?_
  · rw [haddr]
    exact hself
  · rw [hrec.pteAddr_windowAddr hv]
    exact hpde

/-- The entries of a page, for each of its addresses. -/
theorem walk_of_page {u : Nat} (huv : u / pageSize = v / pageSize) :
    k.pdeAddr u = k.pdeAddr v ∧ k.pteAddr u = k.pteAddr v := by
  have hdir := directoryIndex_of_page huv
  have htable : getTableIndex u = getTableIndex v := by
    rw [getTableIndex_eq, getTableIndex_eq, huv]
  exact ⟨by rw [pdeAddr, pdeAddr, hdir], by rw [pteAddr, pteAddr, pdeOf, pdeOf, hdir, htable]⟩

end EntryPointers

/-! ## A memory given by its words -/

/-- The page directory at `d`, one of the pages these words make up, maps itself in
its last entry, and its present entries have frames of their own. -/
def DirectoryWords (words : List (Nat × Nat)) (d : Nat) : Prop :=
  d % pageSize = 0 ∧ (∀ p ∈ words, p.1 % 4 = 0 ∧ p.2 < 2 ^ 32) ∧
    isPagePresent ((words.lookup (d + 4 * recursivePageTableIndex)).getD 0) = true ∧
    getFrameAddr ((words.lookup (d + 4 * recursivePageTableIndex)).getD 0) = d ∧
    ∀ p ∈ words, ∀ q ∈ words, d ≤ p.1 → p.1 < d + pageSize → d ≤ q.1 → q.1 < d + pageSize →
      isPagePresent p.2 = true → isPagePresent q.2 = true →
        getFrameAddr p.2 = getFrameAddr q.2 → p.1 = q.1

instance (words : List (Nat × Nat)) (d : Nat) : Decidable (DirectoryWords words d) :=
  decidable_of_iff (d % pageSize = 0 ∧ (∀ p ∈ words, p.1 % 4 = 0 ∧ p.2 < 2 ^ 32) ∧
    isPagePresent ((words.lookup (d + 4 * recursivePageTableIndex)).getD 0) = true ∧
    getFrameAddr ((words.lookup (d + 4 * recursivePageTableIndex)).getD 0) = d ∧
    ∀ p ∈ words, ∀ q ∈ words, ¬ (d ≤ p.1 ∧ p.1 < d + pageSize ∧ d ≤ q.1 ∧ q.1 < d + pageSize ∧
      isPagePresent p.2 = true ∧ isPagePresent q.2 = true ∧
        getFrameAddr p.2 = getFrameAddr q.2 ∧ ¬ p.1 = q.1)) (by
    simp only [DirectoryWords, not_and, not_not])

namespace DirectoryWords

variable {words : List (Nat × Nat)} {lo d : Nat} {k : Kernel} (h : DirectoryWords words d)
  (hmem : k.mem = ByteStore.ofWords words) (hdir : k.dirFrame = d)
  (hon : k.pagingEnabled = true)

include h hmem

theorem entryAt (i : Nat) : k.entryAt d i = (words.lookup (d + 4 * i)).getD 0 := by
  have haligned := h.1
  simp only [pageSize] at haligned
  rw [Kernel.entryAt, hmem, ByteStore.load32_ofWords (by omega) h.2.1]

/-- A present entry is one of the words. -/
theorem mem_of_present {i : Nat} (hpresent : isPagePresent (k.entryAt d i) = true) :
    (d + 4 * i, k.entryAt d i) ∈ words := by
  have haligned := h.1
  simp only [pageSize] at haligned
  rw [Kernel.entryAt, hmem] at hpresent ⊢
  rcases ByteStore.load32_ofWords_mem (show (d + 4 * i) % 4 = 0 by omega) h.2.1 with hzero | hword
  · rw [hzero] at hpresent
    cases hpresent
  · exact hword

include hdir hon

theorem paged : k.Paged where
  recursive :=
    { paging_on := hon
      present := by rw [hdir, h.entryAt hmem]; exact h.2.2.1
      frame := by rw [hdir, h.entryAt hmem]; exact h.2.2.2.1 }
  apart := fun i j hi hj hpi hpj heq => by
    rw [hdir] at hpi hpj heq
    have haddr := h.2.2.2.2 _ (h.mem_of_present hmem hpi) _ (h.mem_of_present hmem hpj)
      (by simp only; omega) (by simp only [pageSize]; omega) (by simp only; omega)
      (by simp only [pageSize]; omega) hpi hpj heq
    simp only at haddr
    omega

/-- The kernel runs on such a memory when it reaches the directory through the
window and the frames of the tables are used. -/
theorem running (hcurrent : k.currentDirectory = getPageTableVirAddr recursivePageTableIndex)
    (hpmm : PmmWfFrom lo k.pmm) (hused : ∀ p ∈ words, d ≤ p.1 → p.1 < d + pageSize →
      isPagePresent p.2 = true → k.FrameUsed (getFrameAddr p.2)) : k.Running lo where
  dir := (h.paged hmem hdir hon).directoryIn_window hcurrent
  dir_lt := by rw [hcurrent]; decide
  paged := h.paged hmem hdir hon
  pmm := hpmm
  tables_used := fun i hi hpresent => by
    rw [hdir] at hpresent ⊢
    have hword := h.mem_of_present hmem hpresent
    have hlo : d ≤ d + 4 * i := Nat.le_add_right ..
    have hhi : d + 4 * i < d + pageSize := by simp only [pageSize]; omega
    generalize k.entryAt d i = w at hpresent hword ⊢
    exact hused (d + 4 * i, w) hword hlo hhi hpresent

end DirectoryWords
end Kernel
end MyOs
