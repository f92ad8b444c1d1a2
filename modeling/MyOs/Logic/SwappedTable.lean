import MyOs.Logic.DirectoryWalks

/-!
# Mapping a page whose table is out

`vmm_map_page` brings a swapped table of the loaded directory back with
`vmm_swap_in_page`, which puts the new frame in the entry before it takes the slot from
there: the table comes from the slot that has the frame's number, whatever the disk
holds. The transfer is a parameter. What it has to do is `TableRead`.
-/

namespace MyOs

open Kernel

/-- An entry of a table of the directory in frame `d`, or of one that shares none. -/
def TableEntry (k : Kernel) (d b : Nat) : Prop :=
  ∃ e i j, (e = d ∨ SharesNoTable k d e) ∧ i < 1024 ∧ j < 1024 ∧
    isPagePresent (k.entryAt e i) = true ∧ b = getFrameAddr (k.entryAt e i) + 4 * j

/-- The table of `v` is out, and there is a frame for it, mapped at its own address. -/
structure TableSwapped (k : Kernel) (v f : Nat) : Prop where
  absent : isPagePresent (k.pdeOf v) = false
  swapped : isSwapped (k.pdeOf v) = true
  free : k.FrameFree f
  identity : k.translate f = some f

/-- Reading the table of `v` into `f` completes: it fills the frame mapped at `f` with
the page the disk holds at the slot of that number, and leaves the page tables alone. -/
def TableRead (ext : Ext) (k : Kernel) (v f : Nat) : Prop :=
  ∃ k₂, ext.swapRead f f (k.readingPage (k.pdeAddr v) f) = .ok ((), k₂) ∧ k.SameRoot k₂ ∧
    diskSectorSize k₂ ≠ 0 ∧
    (∀ b, TableEntry k k.dirFrame b →
      k₂.mem.load32 b = (k.readingPage (k.pdeAddr v) f).mem.load32 b) ∧
    (k.translate f = some f → ∀ j, j < 1024 →
      k₂.entryAt f j = k.image.load32 (f * diskSectorSize k + 4 * j))

/-- The page that is read for the table of `v` maps no page but, perhaps, `v`. -/
def MapsNoOther (k : Kernel) (v f : Nat) : Prop :=
  ∀ j, j < 1024 → j ≠ getTableIndex v →
    isPagePresent (k.image.load32 (f * diskSectorSize k + 4 * j)) = false

/-- The table of `v` is in frame `f` again, as the disk had it; the entry of `v` in the
directory leads there and the other entries are as they were. -/
structure TableBack (k : Kernel) (v f : Nat) (k₃ : Kernel) : Prop where
  root : k.SameRoot k₃
  present : isPagePresent (k₃.pdeOf v) = true
  frame : getFrameAddr (k₃.pdeOf v) = f
  words : ∀ b, TableEntry k k.dirFrame b → b ≠ k.pdeAddr v → k₃.mem.load32 b = k.mem.load32 b
  page : ∀ j, j < 1024 → k₃.entryAt f j = k.image.load32 (f * diskSectorSize k + 4 * j)

/-- Then `v` is mapped to the frame `p` in that table, whose other pages are mapped as
the disk has them. -/
structure TableMapped (k : Kernel) (v f p : Nat) (k' : Kernel) : Prop where
  present : isPagePresent (k'.entryAt k.dirFrame (getDirectoryIndex v)) = true
  frame : getFrameAddr (k'.entryAt k.dirFrame (getDirectoryIndex v)) = f
  words : ∀ b, TableEntry k k.dirFrame b → b ≠ k.pdeAddr v → k'.mem.load32 b = k.mem.load32 b
  page_present : isPagePresent (k'.entryAt f (getTableIndex v)) = true
  page_frame : getFrameAddr (k'.entryAt f (getTableIndex v)) = p
  page : ∀ j, j < 1024 → j ≠ getTableIndex v →
    k'.entryAt f j = k.image.load32 (f * diskSectorSize k + 4 * j)

section Entries

variable {k : Kernel} {b d i u v : Nat}

theorem TableEntry.aligned (h : TableEntry k d b) : b % 4 = 0 := by
  obtain ⟨e, i, j, _, _, _, _, rfl⟩ := h
  have := getFrameAddr_aligned (k.entryAt e i)
  simp only [pageSize] at this
  omega

theorem Kernel.Recursive.tableEntry_dir (h : k.Recursive) (hi : i < 1024) :
    TableEntry k k.dirFrame (k.dirFrame + 4 * i) :=
  ⟨k.dirFrame, recursivePageTableIndex, i, .inl rfl, by decide, hi, h.present, by rw [h.frame]⟩

theorem tableEntry_pte (hu : u < 2 ^ 32) (hpu : isPagePresent (k.pdeOf u) = true) :
    TableEntry k k.dirFrame (k.pteAddr u) :=
  ⟨k.dirFrame, getDirectoryIndex u, getTableIndex u, .inl rfl, getDirectoryIndex_lt_of hu,
    getTableIndex_lt u, hpu, rfl⟩

end Entries

namespace TableSwapped

variable {ext : Ext} {k k' k₃ : Kernel} {f p v flags : Nat} (hout : TableSwapped k v f)
  (h : MapsDirectory k k.currentDirectory k.dirFrame v)

include hout h

/-- The frame is none of a table's. -/
theorem table_ne {e i : Nat} (he : e = k.dirFrame ∨ SharesNoTable k k.dirFrame e) (hi : i < 1024)
    (hpresent : isPagePresent (k.entryAt e i) = true) : getFrameAddr (k.entryAt e i) ≠ f := by
  intro heq
  apply hout.free.unused
  rw [← heq]
  rcases he with rfl | he
  · exact h.running.tables_used i hi hpresent
  · exact he.used i hi hpresent

theorem dirFrame_ne : k.dirFrame ≠ f := by
  have hrec := h.running.paged.recursive
  have hne := hout.table_ne h (.inl rfl) (by decide) hrec.present
  rwa [hrec.frame] at hne

/-- The table is brought back. -/
theorem tableForMapping_read (hread : TableRead ext k v f) : ∃ k₃,
    tableForMapping ext k.currentDirectory (getDirectoryIndex v) k =
      .ok (getPageTableVirAddr (getDirectoryIndex v), k₃) ∧ TableBack k v f k₃ := by
  obtain ⟨k₂, hrun, hroot, hsize, hwords, hpage⟩ := hread
  have hon := h.running.translate_on
  have hrec := h.running.paged.recursive
  have hidx := getDirectoryIndex_lt_of h.lt
  have hdir := h.running.dir.mapped _ hidx
  have he := h.running.dirEntry_lt hidx
  have hptr : k.EntryPtr (k.currentDirectory + 4 * getDirectoryIndex v) (k.pdeAddr v) :=
    entryPtr_absent hon hdir (k.pdeAddr_aligned v) hout.absent
  obtain ⟨hpde, _, _⟩ := (translate_eq_some hon).mp hdir
  -- the read leaves the entries alone, and the frame was set in that of `v` only
  have hkept {b : Nat} (hb : TableEntry k k.dirFrame b) (hne : b ≠ k.pdeAddr v) :
      k₂.mem.load32 b = k.mem.load32 b := by
    have halign := hb.aligned
    have halign' := k.pdeAddr_aligned v
    rw [hwords b hb]
    exact ByteStore.load32_store32_ne (by omega)
  have hptr₂ := hptr.congr hroot.cr3 hroot.paging
    (hkept (hrec.tableEntry_dir (getDirectoryIndex_lt_of he)) hptr.off_pde.symm)
    (hkept (tableEntry_pte he hpde) hptr.off_pte.symm)
  have hswap := hptr.vmmSwapInPage (v := getPageTableVirAddr (getDirectoryIndex v)) hout.free hrun
    hsize hptr₂ (hwords _ (hrec.tableEntry_dir hidx))
  obtain ⟨w, hw⟩ : ∃ w, w = swapInWord (pageEntrySetFrame (k.mem.load32 (k.pdeAddr v)) f) :=
    ⟨_, rfl⟩
  obtain ⟨k₃, hk₃⟩ : ∃ k₃, k₃ = (k₂.slotsFreed f).setMem (k₂.mem.store32 (k.pdeAddr v) w) :=
    ⟨_, rfl⟩
  rw [← hw, ← hk₃] at hswap
  have hroot₃ : k.SameRoot k₃ := by
    rw [hk₃]
    exact (hroot.trans (k₂.slotsFreed_same f).root).trans (setMem_root _ _)
  have hother {b : Nat} (hb : b % 4 = 0) (hne : b ≠ k.pdeAddr v) :
      k₃.mem.load32 b = k₂.mem.load32 b := by
    have halign := k.pdeAddr_aligned v
    rw [hk₃]
    exact ByteStore.load32_store32_ne (by omega)
  have hword : k₃.pdeOf v = w := by
    rw [pdeOf_eq_load32, pdeAddr_congr hroot₃.cr3, hk₃]
    refine ByteStore.load32_store32 ?_
    rw [hw]
    exact swapInWord_lt (pageEntrySetFrame_lt hout.free.lt_word)
  refine ⟨k₃, ?_, hroot₃, ?_, ?_, fun b hb hne => ?_, fun j hj => ?_⟩
  · have hload : loadWord ext (k.currentDirectory + 4 * getDirectoryIndex v) k =
        .ok (k.pdeOf v, k) := loadWord_mapped hdir
    rw [tableForMapping, Prog.bind_of_ok hload, hout.absent, if_neg (by decide), hout.swapped,
      if_pos rfl, Prog.bind_of_ok hswap, if_neg (by decide), getPageTableAddr,
      Prog.get_bind_apply, if_pos (hroot₃.paging.trans hon)]
    rfl
  · rw [hword, hw, isPagePresent_swapInWord]
  · rw [hword, hw, getFrameAddr_swapInWord, getFrameAddr_pageEntrySetFrame,
      getFrameAddr_of_aligned hout.free.aligned hout.free.lt_word]
  · rw [hother hb.aligned hne, hkept hb hne]
  · have hentry := entry_page hout.free.aligned hj
    have hne : f + 4 * j ≠ k.pdeAddr v := by
      intro heq
      have hpages := frame_page_ne k.dirFrame_aligned hout.free.aligned (hout.dirFrame_ne h)
      rw [heq, pdeAddr, (entry_page k.dirFrame_aligned hidx).1] at hentry
      exact hpages hentry.1
    rw [entryAt, hother hentry.2 hne]
    exact hpage hout.identity j hj

/-- Mapping sets the entry of `v` in the table that is back. -/
theorem sets_entry (hback : TableBack k v f k₃)
    (htable : tableForMapping ext k.currentDirectory (getDirectoryIndex v) k =
      .ok (getPageTableVirAddr (getDirectoryIndex v), k₃))
    (hp : p % pageSize = 0) (hlt : p < 2 ^ 32) (hflags : flags < pageSize) :
    ∃ k', vmmMapPage ext k.currentDirectory v p flags k = .ok ((), k') ∧
      TableMapped k v f p k' := by
  have hpaged := h.running.paged
  have hrec := hpaged.recursive
  have hbelow := hpaged.below_of_absent hout.absent
  have hidx := getDirectoryIndex_lt_of h.lt
  have hindex := getTableIndex_lt v
  have hfree := hout.free.aligned
  have hdirf := hout.dirFrame_ne h
  have hpages := frame_page_ne k.dirFrame_aligned hfree hdirf
  have hdir₃ := hback.root.dirFrame
  have hself : k₃.entryAt k.dirFrame recursivePageTableIndex =
      k.entryAt k.dirFrame recursivePageTableIndex := by
    refine hback.words _ (hrec.tableEntry_dir (by decide)) ?_
    rw [pdeAddr]
    omega
  have hrec₃ : k₃.Recursive :=
    { paging_on := by rw [hback.root.paging, hrec.paging_on]
      present := by rw [hdir₃, hself, hrec.present]
      frame := by rw [hdir₃, hself, hrec.frame] }
  have hpte : k₃.pteAddr v = f + 4 * getTableIndex v := by rw [pteAddr, hback.frame]
  have hoff {i : Nat} (hi : i < 1024) : k₃.pteAddr v ≠ k₃.dirFrame + 4 * i := by
    intro heq
    rw [hpte, hdir₃] at heq
    have hpage := (entry_page hfree hindex).1
    rw [heq, (entry_page k.dirFrame_aligned hi).1] at hpage
    exact hpages hpage
  have hsteady := (hrec₃.windowPtr h.lt hback.present (hoff (by decide)) (hoff hidx)).steady
  have hrun : vmmMapPage ext k.currentDirectory v p flags k = .ok ((), k₃.setMem
      (k₃.mem.store32 (k₃.pteAddr v) (installed (k₃.mem.load32 (k₃.pteAddr v)) p flags))) :=
    hsteady.vmmMapPage h.nonnull htable hlt
  rw [hpte] at hrun
  obtain ⟨w, hw⟩ : ∃ w, w = installed (k₃.mem.load32 (f + 4 * getTableIndex v)) p flags := ⟨_, rfl⟩
  obtain ⟨k', hk'⟩ : ∃ k', k' = k₃.setMem (k₃.mem.store32 (f + 4 * getTableIndex v) w) := ⟨_, rfl⟩
  rw [← hw, ← hk'] at hrun
  have hword : k'.entryAt f (getTableIndex v) = w := by
    rw [hk']
    refine ByteStore.load32_store32 ?_
    rw [hw]
    exact installed_lt hlt (Nat.lt_trans hflags (by decide))
  have hkeep {g j : Nat} (hg : g % pageSize = 0) (hj : j < 1024)
      (hne : g ≠ f ∨ j ≠ getTableIndex v) : k'.entryAt g j = k₃.entryAt g j := by
    rw [hk']
    refine ByteStore.load32_store32_ne ?_
    simp only [pageSize] at hg hfree
    omega
  have hpde : k'.entryAt k.dirFrame (getDirectoryIndex v) = k₃.pdeOf v := by
    rw [hkeep k.dirFrame_aligned hidx (.inl hdirf), pdeOf, hdir₃]
  refine ⟨k', hrun, ?_⟩
  exact
    { present := by rw [hpde, hback.present]
      frame := by rw [hpde, hback.frame]
      words := fun b hb hne => by
        rw [← hback.words b hb hne]
        obtain ⟨e, i, j, he, hi, hj, hpe, rfl⟩ := hb
        exact hkeep (getFrameAddr_aligned _) hj (.inl (hout.table_ne h he hi hpe))
      page_present := by rw [hword, hw, isPagePresent_installed]
      page_frame := by
        rw [hword, hw, getFrameAddr_installed hflags, getFrameAddr_of_aligned hp hlt]
      page := fun j hj hne => by rw [hkeep hfree hj (.inr hne), hback.page j hj] }

/-- So the other pages of the table have the walks they had, none, when the disk maps
none of them. -/
theorem maps_iff (hmap : TableMapped k v f p k') :
    MapsInto k k.dirFrame v p k' ↔ MapsNoOther k v f := by
  have hpaged := h.running.paged
  have hrec := hpaged.recursive
  have hbelow := hpaged.below_of_absent hout.absent
  have hidx := getDirectoryIndex_lt_of h.lt
  have hwalk {u : Nat} (hu : getDirectoryIndex u = getDirectoryIndex v) :
      k'.walkFrom k.dirFrame u = k'.walkTable f u :=
    walkFrom_table (by rw [hu, hmap.present]) (by rw [hu, hmap.frame])
  have habsent {u : Nat} (hu : getDirectoryIndex u = getDirectoryIndex v) :
      k.walkFrom k.dirFrame u = none := by
    have hpde := hout.absent
    rw [pdeOf, ← hu] at hpde
    rw [walkFrom]
    simp only [hpde, Bool.false_eq_true, if_false]
  refine ⟨fun hmaps j hj hne => ?_, fun hempty => ⟨?_, fun u hu hbelowU hne => ?_, ?_⟩⟩
  · -- the page of the table's entry `j`
    obtain ⟨u, hu, hdu, htu⟩ : ∃ u, u < 2 ^ 32 ∧ getDirectoryIndex u = getDirectoryIndex v ∧
        getTableIndex u = j := by
      refine ⟨getDirectoryIndex v * 0x400000 + j * 0x1000, by omega, ?_, ?_⟩
      · rw [getDirectoryIndex_eq]
        omega
      · rw [getTableIndex_eq, show pageSize = 4096 from rfl]
        omega
    have hpage : u / pageSize ≠ v / pageSize := by
      rw [page_index, page_index, hdu, htu]
      omega
    have hsame := hmaps.others u hu (by rw [hdu]; exact hbelow) hpage
    rw [habsent hdu, hwalk hdu, walkTable, htu, hmap.page j hj hne] at hsame
    refine Bool.eq_false_iff.mpr fun hpresent => ?_
    rw [if_pos hpresent] at hsame
    cases hsame
  · rw [hwalk rfl, walkTable, hmap.page_present, if_pos rfl, hmap.page_frame]
  · by_cases hdu : getDirectoryIndex u = getDirectoryIndex v
    · have htu : getTableIndex u ≠ getTableIndex v := fun htu =>
        hne (by rw [page_index, page_index, hdu, htu])
      rw [habsent hdu, hwalk hdu, walkTable, hmap.page _ (getTableIndex_lt u) htu,
        hempty _ (getTableIndex_lt u) htu, if_neg (by decide)]
    · have hidu := getDirectoryIndex_lt_of hu
      refine walkFrom_congr (hmap.words _ (hrec.tableEntry_dir hidu) ?_) fun hpu =>
        hmap.words _ (tableEntry_pte hu hpu) (hpaged.pteAddr_ne hu hbelowU hpu hidx)
      rw [pdeAddr]
      omega
  · intro e he u hu
    refine he.directory.walkFrom_keep (fun i hi hpe j hj => ?_) hu
    refine hmap.words _ ⟨e, i, j, .inr he, hi, hj, hpe, rfl⟩ fun heq => ?_
    have hapart := he.apart i recursivePageTableIndex hi (by decide) hpe hrec.present
    rw [hrec.frame] at hapart
    have hpage := (entry_page (getFrameAddr_aligned (k.entryAt e i)) hj).1
    rw [heq, pdeAddr, (entry_page k.dirFrame_aligned hidx).1] at hpage
    exact frame_page_ne k.dirFrame_aligned (getFrameAddr_aligned _) hapart.symm hpage

/-- Mapping a page of the table brings the table back and maps the page. -/
theorem maps_read (hread : TableRead ext k v f) (hp : p % pageSize = 0) (hlt : p < 2 ^ 32)
    (hflags : flags < pageSize) :
    ∃ k', vmmMapPage ext k.currentDirectory v p flags k = .ok ((), k') ∧
      (MapsInto k k.dirFrame v p k' ↔ MapsNoOther k v f) := by
  obtain ⟨k₃, htable, hback⟩ := hout.tableForMapping_read h hread
  obtain ⟨k', hrun, hmap⟩ := hout.sets_entry h hback htable hp hlt hflags
  exact ⟨k', hrun, hout.maps_iff h hmap⟩

end TableSwapped
end MyOs
