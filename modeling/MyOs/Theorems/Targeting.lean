import MyOs.Logic.SwappedTable
import MyOs.Theorems.SlotRelease

/-!
# The directory a mapping goes to

`vmm_map_page` looks up in the directory it is given whether the page table exists,
and then writes the table through the recursive window, which shows the tables of the
loaded directory. The two agree when the given directory is the loaded one, or when
both have the same table there. A table made on the way needs a queue node, and its
slab may be mapped where no page was; a table that was out comes back as the disk has
it; and a page of the window is itself a table.
-/

namespace MyOs

open Kernel

/-- The table of `v` is the same in the given directory and in the loaded one, or it
is to be made for the loaded one, with a frame to be had and a queue node: a free
object, or one in a slab whose page is mapped to the slab's frame already, or is
under the table being made. A page of the loaded directory's window becomes a table
that maps its pages as they were mapped. -/
inductive TargetsTable (k : Kernel) (dir d v p : Nat) : Prop
  | shared : getDirectoryIndex v ≠ recursivePageTableIndex →
      isPagePresent (k.entryAt d (getDirectoryIndex v)) = true →
      isPagePresent (k.pdeOf v) = true →
      getFrameAddr (k.entryAt d (getDirectoryIndex v)) = getFrameAddr (k.pdeOf v) →
      TargetsTable k dir d v p
  | created {f o : Nat} {slabs : List Slab} : dir = k.currentDirectory → d = k.dirFrame →
      isPagePresent (k.pdeOf v) = false → isSwapped (k.pdeOf v) = false → k.FrameFree f →
      popFree (k.heap.slabs 0) = some (o, slabs) → o ≠ 0 → TargetsTable k dir d v p
  | slab {f : Nat} : dir = k.currentDirectory → d = k.dirFrame → TableMissing k v f →
      popFree (k.heap.slabs 0) = none →
      k.heap.currentHeapAddr ≤ kernelBaseHeapAddr + kernelHeapSize →
      k.translate k.nextSlab = some k.heap.currentHeapAddr ∨
        getDirectoryIndex k.nextSlab = getDirectoryIndex v → TargetsTable k dir d v p
  | window : d = k.dirFrame → getDirectoryIndex v = recursivePageTableIndex →
      getTableIndex v ≠ recursivePageTableIndex → p ≠ d →
      (∀ u, u < 2 ^ 32 → getDirectoryIndex u = getTableIndex v →
        k.walkTable p u = k.walkFrom d u) → TargetsTable k dir d v p

namespace MapsDirectory

section Created

variable {ext inner : Ext} {k k' k₂ : Kernel} {dir d v p flags f n : Nat}
  (h : MapsDirectory k dir d v)

include h

/-- Of a new table of the loaded directory only `v` is mapped in the end. Up to then
the pages outside it were mapped as before, and only the directory, its tables and the
new one had changed. -/
theorem maps_new (hd : d = k.dirFrame) (hnew : MappedNew k₂ v p k' 0) (hroot₂ : k.SameRoot k₂)
    (habsent : isPagePresent (k.pdeOf v) = false) (hf : k.FrameFree f)
    (hpde₂ : getFrameAddr (k₂.pdeOf v) = f)
    (hpages : ∀ u, u < 2 ^ 32 → getDirectoryIndex u ≠ recursivePageTableIndex →
      getDirectoryIndex u ≠ getDirectoryIndex v → k₂.translate u = k.translate u)
    (hwords : ∀ b, b % 4 = 0 → b / pageSize ≠ f / pageSize →
      (∀ i, i < 1024 → isPagePresent (k.entryAt k.dirFrame i) = true →
        b / pageSize ≠ getFrameAddr (k.entryAt k.dirFrame i) / pageSize) →
      k₂.mem.load32 b = k.mem.load32 b)
    (hp : p % pageSize = 0) (hlt : p < 2 ^ 32) : MapsInto k d v p k' := by
  subst hd
  have hon := h.running.translate_on
  have hroot : k.SameRoot k' := hroot₂.trans hnew.root
  have hwalk (u : Nat) : k'.walkFrom k.dirFrame u = k'.translate u := by
    rw [translate_on hnew.running.translate_on, hroot.dirFrame]
  refine ⟨?_, fun u hu hbelow hne => ?_, fun e he u hu => ?_⟩
  · rw [hwalk, hnew.mapped, getFrameAddr_of_aligned hp hlt]
  · rw [hwalk, ← translate_on hon]
    by_cases hdu : getDirectoryIndex u = getDirectoryIndex v
    · rw [hnew.cleared u hu hdu hne]
      cases hold : k.translate u with
      | none => rfl
      | some x => exact absurd hdu (directoryIndex_ne_of_absent hon habsent hold)
    · rw [hnew.others u hu hdu, hpages u hu hbelow hdu]
  · have hself := h.running.paged.recursive
    refine he.directory.walkFrom_keep (fun i hi hpresent j hj => ?_) hu
    have hframe := getFrameAddr_aligned (k.entryAt e i)
    have hentry := entry_page hframe hj
    have hoffNew : getFrameAddr (k.entryAt e i) ≠ f := fun heq =>
      hf.unused (heq ▸ he.used i hi hpresent)
    have hpageNew := frame_page_ne hframe hf.aligned hoffNew
    have hoff : ∀ j, j < 1024 → isPagePresent (k.entryAt k.dirFrame j) = true →
        getFrameAddr (k.entryAt e i) / pageSize ≠
          getFrameAddr (k.entryAt k.dirFrame j) / pageSize := fun j hj hpj =>
      frame_page_ne hframe (getFrameAddr_aligned _) (he.apart i j hi hj hpresent hpj)
    have hoffDir := hoff _ (by decide) hself.present
    rw [hself.frame] at hoffDir
    rw [entryAt, hnew.words _ hentry.2 (by rw [hentry.1, hroot₂.dirFrame]; exact hoffDir)
        (by rw [hentry.1, hpde₂]; exact hpageNew),
      hwords _ hentry.2 (by rw [hentry.1]; exact hpageNew) (by rw [hentry.1]; exact hoff)]
    rfl

/-- The word the new table is put in is one of the directory. -/
theorem queueing_word {b : Nat} (hf : k.FrameFree f) (hb : b % 4 = 0)
    (hoff : ∀ i, i < 1024 → isPagePresent (k.entryAt k.dirFrame i) = true →
      b / pageSize ≠ getFrameAddr (k.entryAt k.dirFrame i) / pageSize) :
    (k.queueing v f).mem.load32 b = k.mem.load32 b := by
  have hself := h.running.paged.recursive
  have hoffDir := hoff _ (by decide) hself.present
  rw [hself.frame] at hoffDir
  rw [load32_pageAllocated (k.pdeAddr_aligned v) hb hf.lt_word, if_neg ?_]
  rintro rfl
  exact hoffDir (entry_page k.dirFrame_aligned (getDirectoryIndex_lt_of h.lt)).1

/-- With a free object for the node. -/
theorem maps_object {o : Nat} {slabs : List Slab} (hover : ext.Over inner)
    (hdir : dir = k.currentDirectory) (hd : d = k.dirFrame)
    (habsent : isPagePresent (k.pdeOf v) = false) (hin : isSwapped (k.pdeOf v) = false)
    (hf : k.FrameFree f) (hpop : popFree (k.heap.slabs 0) = some (o, slabs)) (ho : o ≠ 0)
    (hp : p % pageSize = 0) (hlt : p < 2 ^ 32) (hflags : flags < pageSize) :
    ∃ k', vmmMapPage ext dir v p flags k = .ok ((), k') ∧ MapsInto k d v p k' := by
  obtain ⟨hrunning, _⟩ := h.running.newTable habsent hf
  have hheap := k.pageAllocated_heap (k.pdeAddr v) f
  obtain ⟨k₂, hqueue, htaken⟩ := @pageEnqueue_object ext inner (k.queueing v f)
    (getPageTableVirAddr (getDirectoryIndex v)) o slabs hover (by rw [hheap, hpop]) ho
  have hroot₂ : k.SameRoot k₂ := (k.pageAllocated_root _ f).trans htaken.walks.root
  have hpde₂ : k₂.pdeOf v = allocatedWord (k.pdeOf v) f := by
    rw [htaken.walks.pdeOf, hf.pdeOf_queueing, if_pos rfl]
  obtain ⟨k', hrun, hnew, _⟩ := h.running.vmmMapPage_newTable h.lt habsent hin hf hlt hflags hqueue
    hroot₂ (htaken.walks.running htaken.pmm hrunning) (by rw [hpde₂, isPagePresent_allocatedWord])
  refine ⟨k', by rw [hdir, hrun], h.maps_new hd hnew hroot₂ habsent hf
    (by rw [hpde₂, getFrameAddr_allocatedWord hf.aligned hf.lt_word]) (fun u hu hbelow hdu => ?_)
    (fun b hb _ hoff => ?_) hp hlt⟩
  · rw [htaken.walks.translate, h.running.translate_queueing h.lt hf hu hbelow hdu]
  · rw [htaken.walks.mem, h.queueing_word hf hb hoff]

omit h in
/-- The slab's entry is in the new table or in one of the directory's. -/
theorem slab_entry (m : TableMissing k v f) {b : Nat}
    (hnode : k.translate k.nextSlab = some k.heap.currentHeapAddr ∨
      getDirectoryIndex k.nextSlab = getDirectoryIndex v) (hlt : k.nextSlab < 2 ^ 32)
    (hnew : b / pageSize ≠ f / pageSize)
    (hoff : ∀ i, i < 1024 → isPagePresent (k.entryAt k.dirFrame i) = true →
      b / pageSize ≠ getFrameAddr (k.entryAt k.dirFrame i) / pageSize) :
    b ≠ (k.queueing v f).pteAddr k.nextSlab := by
  rintro rfl
  have hpage := (entry_page (getFrameAddr_aligned ((k.queueing v f).pdeOf k.nextSlab))
    (getTableIndex_lt k.nextSlab)).1
  rw [pteAddr, hpage, m.free.pdeOf_queueing] at hnew hoff
  by_cases hindex : getDirectoryIndex k.nextSlab = getDirectoryIndex v
  · rw [if_pos hindex, getFrameAddr_allocatedWord m.free.aligned m.free.lt_word] at hnew
    exact hnew rfl
  · obtain ⟨hpde, _⟩ := (translate_eq_some m.running.translate_on).mp (hnode.resolve_right hindex)
    rw [if_neg hindex] at hoff
    exact hoff _ (getDirectoryIndex_lt_of hlt) hpde rfl

/-- With a slab for the node, whose page has the walk it had. -/
theorem maps_slab (hover : ext.Over inner) (hdir : dir = k.currentDirectory) (hd : d = k.dirFrame)
    (m : TableMissing k v f) (hpop : popFree (k.heap.slabs 0) = none)
    (hroom : k.heap.currentHeapAddr ≤ kernelBaseHeapAddr + kernelHeapSize)
    (hnode : k.translate k.nextSlab = some k.heap.currentHeapAddr ∨
      getDirectoryIndex k.nextSlab = getDirectoryIndex v)
    (hp : p % pageSize = 0) (hlt : p < 2 ^ 32) (hflags : flags < pageSize) :
    ∃ k', vmmMapPage ext dir v p flags k = .ok ((), k') ∧ MapsInto k d v p k' := by
  have hon := m.running.translate_on
  have htable : isPagePresent ((k.queueing v f).pdeOf k.nextSlab) = true := by
    rw [m.free.pdeOf_queueing]
    split
    · exact isPagePresent_allocatedWord
    · next hindex => exact ((translate_eq_some hon).mp (hnode.resolve_right hindex)).1
  obtain ⟨_, hslabLt, _, _⟩ := m.placed.nextSlab_eq hroom
  obtain ⟨slab, k₂, k', _, hroot₂, hrun, hnew, _, _, hslab, hframe, hwords⟩ :=
    @TableMissing.slab_run ext inner k v p flags f m hover hlt hflags hpop hroom htable
  have hpde₂ : getFrameAddr (k₂.pdeOf v) = f := by
    have hpaged := (m.running.newTable m.absent m.free).1.paged
    have hroot := k.pageAllocated_root (k.pdeAddr v) f
    have hne : k.pdeAddr v ≠ (k.queueing v f).pteAddr k.nextSlab := fun heq => by
      refine hpaged.pteAddr_ne hslabLt ?_ htable (getDirectoryIndex_lt_of m.lt) ?_
      · rw [(m.placed.nextSlab_eq hroom).2.2.1]
        decide
      · rw [hroot.dirFrame, ← heq, pdeAddr]
    rw [pdeOf_eq_load32, pdeAddr_congr hroot₂.cr3, hwords _ (k.pdeAddr_aligned v) hne,
      ← pdeAddr_congr hroot.cr3, ← pdeOf_eq_load32, m.free.pdeOf_queueing, if_pos rfl,
      getFrameAddr_allocatedWord m.free.aligned m.free.lt_word]
  refine ⟨k', by rw [hdir, hrun], h.maps_new hd hnew hroot₂ m.absent m.free hpde₂
    (fun u hu hbelow hdu => ?_) (fun b hb hbf hoff => ?_) hp hlt⟩
  · by_cases hpage : u / pageSize = k.nextSlab / pageSize
    · -- the slab's page, under another table
      have hindex : getDirectoryIndex k.nextSlab ≠ getDirectoryIndex v := by
        rw [← directoryIndex_of_page hpage]
        exact hdu
      have hold := hnode.resolve_right hindex
      exact translate_page_congr hon (hroot₂.paging.trans hon) hpage hold hslab
    · rw [hframe u hu hpage, h.running.translate_queueing h.lt m.free hu hbelow hdu]
  · rw [hwords b hb (slab_entry m hnode hslabLt hbf hoff), h.queueing_word m.free hb hoff]

/-- With present tables a call that maps `v` and changes no other walk had the right one. -/
theorem targets_of_present
    (hlast : getDirectoryIndex v = recursivePageTableIndex →
      getTableIndex v ≠ recursivePageTableIndex ∧ (d = k.dirFrame → p ≠ d))
    (hgiven : isPagePresent (k.entryAt d (getDirectoryIndex v)) = true)
    (hloaded : isPagePresent (k.pdeOf v) = true) (hp : p % pageSize = 0) (hlt : p < 2 ^ 32)
    (hflags : flags < pageSize) (hnew : k.walkFrom d v ≠ some (p + getFrameOffset v))
    (hrun : vmmMapPage ext dir v p flags k = .ok ((), k')) (hmaps : MapsInto k d v p k') :
    TargetsTable k dir d v p := by
  have hsame : getFrameAddr (k.entryAt d (getDirectoryIndex v)) = getFrameAddr (k.pdeOf v) := by
    by_contra hne
    rw [← h.not_maps (fun hin => (hlast hin).1) hgiven hloaded hne hlt hrun] at hnew
    exact hnew hmaps.mapped
  by_cases hin : getDirectoryIndex v = recursivePageTableIndex
  · have hd : d = k.dirFrame := by
      rw [pdeOf, hin, h.directory.frame, h.running.paged.recursive.frame] at hsame
      exact hsame
    obtain ⟨hindex, hpd⟩ := hlast hin
    obtain ⟨k₁, hrun₁, hiff⟩ := @maps_window_iff ext k dir d v p flags h hd hin hindex hp hlt hflags
      (hpd hd)
    cases hrun.symm.trans hrun₁
    exact .window hd hin hindex (hpd hd) (hiff.mp hmaps)
  · exact .shared hin hgiven hloaded hsame

omit h in
/-- A call that changes no other walk had its node so. -/
theorem targets_of_maps (m : TableMissing k v f) (hlt : p < 2 ^ 32) (hflags : flags < pageSize)
    (hin : isSwapped (k.pdeOf k.nextSlab) = false)
    (hsecond : k.frameTaken.pmm.pmmAllocFrame.1 ≠ pmmNoFrameAvailable)
    (hrun : vmmMapPage (link n) k.currentDirectory v p flags k = .ok ((), k'))
    (hmaps : MapsInto k k.dirFrame v p k') :
    TargetsTable k k.currentDirectory k.dirFrame v p := by
  have hon := m.running.translate_on
  have hheap : (k.queueing v f).heap = k.heap := k.pageAllocated_heap _ f
  obtain ⟨k₂, hqueue⟩ := m.running.queued_of_ok m.lt m.absent m.not_swapped m.free hrun
  obtain ⟨j, node, k₁, rfl, hnode, hnonnull, _⟩ := node_of_ok hqueue
  cases hpop : popFree (k.heap.slabs 0) with
  | some taken =>
      obtain ⟨o, slabs⟩ := taken
      have hobject := @allocFromCache_free (link j) (k.queueing v f) 0 o slabs (by rw [hheap, hpop])
      rw [hobject] at hnode
      cases hnode
      exact .created rfl rfl m.absent m.not_swapped m.free hpop hnonnull
  | none =>
      obtain ⟨hroom, _⟩ := slab_of_ok (by rw [hheap, hpop]) hnode
      rw [hheap] at hroom
      obtain ⟨_, hslabLt, hidx, _⟩ := m.placed.nextSlab_eq hroom
      refine .slab rfl rfl m hpop hroom ?_
      by_cases hindex : getDirectoryIndex k.nextSlab = getDirectoryIndex v
      · exact .inr hindex
      -- the walk of the slab's page is the one it had
      have hkept (hroot : k.SameRoot k') : k'.translate k.nextSlab = k.translate k.nextSlab := by
        rw [translate_on hon, translate_on (hroot.paging.trans hon), hroot.dirFrame]
        refine hmaps.others _ hslabLt (by rw [hidx]; decide) fun hpage => ?_
        exact hindex (directoryIndex_of_page hpage)
      cases htable : isPagePresent (k.pdeOf k.nextSlab) with
      | true =>
          obtain ⟨_, _, _, _, hroot₂, hrun', hnew, _, _, hslab, _⟩ :=
            @TableMissing.slab_run _ _ k v p flags f m (link_over j) hlt hflags hpop hroom
              (by rw [m.free.pdeOf_queueing, if_neg hindex, htable])
          cases hrun.symm.trans hrun'
          left
          rw [← hkept (hroot₂.trans hnew.root), hnew.others _ hslabLt hindex, hslab]
      | false =>
          obtain ⟨hroot, hmapped, _⟩ :=
            m.nested_run hlt hflags hpop hroom hindex htable hin rfl hsecond hrun
          rw [hkept hroot] at hmapped
          refine absurd ?_ hmapped
          cases hold : k.translate k.nextSlab with
          | none => rfl
          | some x =>
              rw [((translate_eq_some hon).mp hold).1] at htable
              cases htable

end Created

end MapsDirectory

/-- The loaded directory, in frame `0x100000`, with the table in frame `0x101000`,
and another directory, in frame `0x102000` and mapped there, with this table. -/
def twoDirectories (table : Nat) : List (Nat × Nat) :=
  [(0x100FFC, 0x100003), (0x100000, 0x101003), (0x101408, 0x102003), (0x102FFC, 0x102003),
    (0x102000, table)]

def twoKernel (table : Nat) : Kernel :=
  { swapKernel 1 with mem := ByteStore.ofWords (twoDirectories table) }

theorem twoKernel_dirFrame (table : Nat) : (twoKernel table).dirFrame = 0x100000 :=
  (by decide : getFrameAddr 0x100000 = 0x100000)

theorem directoryAt_of_words {k : Kernel} {words : List (Nat × Nat)} {d : Nat}
    (h : DirectoryWords words d) (hmem : k.mem = ByteStore.ofWords words) : DirectoryAt k d where
  aligned := h.1
  self := by rw [h.entryAt hmem]; exact h.2.2.1
  frame := by rw [h.entryAt hmem]; exact h.2.2.2.1
  apart := fun i j hi hj hpi hpj heq => by
    have hwordI := h.mem_of_present hmem hpi
    have hwordJ := h.mem_of_present hmem hpj
    have hinI : d + 4 * i < d + pageSize := by simp only [pageSize]; omega
    have hinJ : d + 4 * j < d + pageSize := by simp only [pageSize]; omega
    generalize k.entryAt d i = w at hpi heq hwordI
    generalize k.entryAt d j = w' at hpj heq hwordJ
    have haddr : d + 4 * i = d + 4 * j := h.2.2.2.2 (d + 4 * i, w) hwordI (d + 4 * j, w') hwordJ
      (Nat.le_add_right ..) hinI (Nat.le_add_right ..) hinJ hpi hpj heq
    omega

/-- `0x5000` is a page in the first 4 MiB, for which both directories have a table. -/
theorem twoKernel_maps {table : Nat} (ht : table = 0x101003 ∨ table = 0x103003) :
    MapsDirectory (twoKernel table) 0x102000 0x102000 0x5000 := by
  have hloaded : DirectoryWords (twoDirectories table) 0x100000 := by
    rcases ht with rfl | rfl <;> decide
  have hgiven : DirectoryWords (twoDirectories table) 0x102000 := by
    rcases ht with rfl | rfl <;> decide
  have hused : ∀ p ∈ twoDirectories table, 0x100000 ≤ p.1 → p.1 < 0x100000 + pageSize →
      isPagePresent p.2 = true → swapPmm.pmmBitmap.bit (frameBit (getFrameAddr p.2)) = true := by
    rcases ht with rfl | rfl <;> decide
  have hrunning : (twoKernel table).Running 0 :=
    hloaded.running rfl (twoKernel_dirFrame table) rfl
      (by decide : 0xFFFFF000 = getPageTableVirAddr recursivePageTableIndex)
      ((@swapKernel_wf 1 (by decide)).pmm.mono (Nat.zero_le 8)) hused
  have hpage : (twoKernel table).translate 0x102000 = some 0x102000 := by
    rcases ht with rfl | rfl <;> decide +kernel
  have hframe : getFrameAddr ((twoKernel table).pdeOf 0x5000) ≠ 0x102000 := by
    rcases ht with rfl | rfl <;> decide +kernel
  refine
    { running := hrunning
      nonnull := by decide
      readable := fun i hi => ?_
      directory := directoryAt_of_words hgiven rfl
      lt := by decide
      no_table := fun _ _ => hframe }
  have hsize : pageSize = 4096 := rfl
  have hin : (0x102000 + 4 * i) / pageSize = 0x102000 / pageSize := by
    rw [hsize]
    omega
  rw [translate_page hrunning.translate_on hin hpage, getFrameOffset_eq, getFrameOffset_eq, hsize]
  exact congrArg some (by omega)

/-- The table of the slabs, with the page of the next one mapped to its frame. -/
def slabWords : List (Nat × Nat) :=
  [(0x100FFC, 0x100003), (0x100080, 0x101003), (0x101004, 0x4001103)]

def slabKernel : Kernel := { smallKernel [] with mem := ByteStore.ofWords slabWords }

theorem slabKernel_running : slabKernel.Running 0 := by
  have hwords : DirectoryWords slabWords 0x100000 := by decide
  have hused : ∀ p ∈ slabWords, 0x100000 ≤ p.1 → p.1 < 0x100000 + pageSize →
      isPagePresent p.2 = true → swapPmm.pmmBitmap.bit (frameBit (getFrameAddr p.2)) = true := by
    decide
  exact hwords.running rfl (by decide : getFrameAddr 0x100000 = 0x100000) rfl
    (by decide : 0xFFFFF000 = getPageTableVirAddr recursivePageTableIndex)
    ((@swapKernel_wf 1 (by decide)).pmm.mono (Nat.zero_le 8)) hused

theorem slabKernel_pdeOf : slabKernel.pdeOf 0x8400000 = 0 := by decide +kernel

theorem slabKernel_missing : TableMissing slabKernel 0x8400000 0x8000 where
  running := slabKernel_running
  placed := ⟨(by decide : kernelBaseHeapAddr ≤ 0x4001000), (by decide : 0x4001000 % pageSize = 0)⟩
  dir_off := (by decide : 0xFFFFF000 / pageSize ≠ convertToVirAddr 0x4001000 / pageSize)
  lt := by decide
  absent := by rw [slabKernel_pdeOf]; decide
  not_swapped := by rw [slabKernel_pdeOf]; decide
  free := frameFree_of slabKernel_running.pmm (by decide : swapPmm.pmmAllocFrame.1 = 0x8000)
    (by decide)

theorem slabKernel_maps :
    MapsDirectory slabKernel slabKernel.currentDirectory slabKernel.dirFrame 0x8400000 where
  running := slabKernel_running
  nonnull := slabKernel_running.dir.nonnull
  readable := slabKernel_running.dir.mapped
  directory :=
    directoryAt_of_words (by decide : DirectoryWords slabWords (getFrameAddr 0x100000)) rfl
  lt := by decide
  no_table := fun _ hpresent => by
    rw [slabKernel_pdeOf] at hpresent
    cases hpresent

/-- The plain store reads the table and changes nothing else. -/
theorem storedExt_tableRead (depth : Nat) {k : Kernel} {v f : Nat} (hout : TableSwapped k v f)
    (h : MapsDirectory k k.currentDirectory k.dirFrame v) (hsize : diskSectorSize k ≠ 0) :
    TableRead (storedExt depth) k v f := by
  have hkeeps := keepsMaps_store_absent h.running.translate_on (k.pdeAddr_aligned v) hout.absent
    (pageEntrySetFrame (k.mem.load32 (k.pdeAddr v)) f)
  have hptr : (k.readingPage (k.pdeAddr v) f).translate f = some f := by
    rw [readingPage, (k.frameTaken_same.setMem _).translate]
    exact hkeeps f f hout.free.lt_word hout.identity
  refine ⟨(k.readingPage (k.pdeAddr v) f).readSlot f f, ?_, ⟨rfl, rfl, rfl⟩, hsize, fun b hb => ?_,
    fun _ j hj => ?_⟩
  · change storeExt.swapRead f f _ = _
    rw [storeExt]
    simp only [hptr]
  · obtain ⟨e, i, j, he, hi, hj, hpe, rfl⟩ := hb
    have hne := hout.table_ne h he hi hpe
    have hframe := getFrameAddr_aligned (k.entryAt e i)
    have hfree := hout.free.aligned
    refine ByteStore.load32_patch_outside ?_
    simp only [pageSize] at hframe hfree ⊢
    omega
  · have hin : 4 * j + 4 ≤ pageSize := by
      simp only [pageSize]
      omega
    rw [entryAt, readSlot, setMem, ← ByteStore.copy_eq_patch]
    exact ByteStore.load32_copy_inside hin

/-- A table that maps `0x8000` to itself, the next free frame, and one that is out. -/
def awayWords : List (Nat × Nat) :=
  [(0x100FFC, 0x100003), (0x100000, 0x101003), (0x101020, 0x8003), (0x100008, 0x200)]

def awayKernel : Kernel := { swapKernel 1 with mem := ByteStore.ofWords awayWords }

theorem awayKernel_running : awayKernel.Running 0 := by
  have hwords : DirectoryWords awayWords 0x100000 := by decide
  have hused : ∀ p ∈ awayWords, 0x100000 ≤ p.1 → p.1 < 0x100000 + pageSize →
      isPagePresent p.2 = true → swapPmm.pmmBitmap.bit (frameBit (getFrameAddr p.2)) = true := by
    decide
  exact hwords.running rfl (by decide : getFrameAddr 0x100000 = 0x100000) rfl
    (by decide : 0xFFFFF000 = getPageTableVirAddr recursivePageTableIndex)
    ((@swapKernel_wf 1 (by decide)).pmm.mono (Nat.zero_le 8)) hused

theorem awayKernel_maps {v : Nat} (hv : v < 2 ^ 32)
    (hno : getDirectoryIndex v ≠ recursivePageTableIndex →
      isPagePresent (awayKernel.pdeOf v) = false) :
    MapsDirectory awayKernel awayKernel.currentDirectory awayKernel.dirFrame v where
  running := awayKernel_running
  nonnull := awayKernel_running.dir.nonnull
  readable := awayKernel_running.dir.mapped
  directory :=
    directoryAt_of_words (by decide : DirectoryWords awayWords (getFrameAddr 0x100000)) rfl
  lt := hv
  no_table := fun hbelow hpresent => by
    rw [hno hbelow] at hpresent
    cases hpresent

theorem awayKernel_swapped : TableSwapped awayKernel 0x805000 0x8000 where
  absent := by decide +kernel
  swapped := by decide +kernel
  free := frameFree_of awayKernel_running.pmm (by decide : swapPmm.pmmAllocFrame.1 = 0x8000)
    (by decide)
  identity := by decide +kernel

theorem awayKernel_entry (t i : Nat) :
    awayKernel.entryAt t i = (ByteStore.ofWords awayWords).load32 (t + 4 * i) := rfl

/-- The words of an unused frame are 0. -/
theorem awayKernel_unused {i : Nat} (hi : i < 1024) : awayKernel.entryAt 0x9000 i = 0 := by
  have hmem : ∀ p ∈ awayWords, 0x9000 ≤ p.1 → 0xA000 ≤ p.1 := by decide
  rw [awayKernel_entry]
  refine (ByteStore.load32_ofWords_mem (by omega) (by decide)).resolve_right fun hin => ?_
  have hlow := hmem _ hin (Nat.le_add_right 0x9000 (4 * i))
  dsimp only at hlow
  omega

theorem awayKernel_walks {u : Nat} (hu : getDirectoryIndex u = 5) :
    awayKernel.walkTable 0x9000 u = awayKernel.walkFrom awayKernel.dirFrame u := by
  have hpde : awayKernel.entryAt awayKernel.dirFrame 5 = 0 := by decide +kernel
  have hnone : isPagePresent 0 = false := by decide
  rw [walkTable, awayKernel_unused (getTableIndex_lt u), walkFrom]
  simp only [hu, hpde, hnone, Bool.false_eq_true, if_false]

/-- The disk is empty. -/
theorem awayKernel_mapsNoOther : MapsNoOther awayKernel 0x805000 0x8000 := by
  intro j _ _
  have himage : awayKernel.image = fun _ => 0#8 := rfl
  have hzero (a : Nat) : ByteStore.load32 (fun _ => 0#8) a = 0 := by simp [ByteStore.load32]
  rw [himage, hzero]
  decide

end MyOs
