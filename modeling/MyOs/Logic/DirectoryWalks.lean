import MyOs.Logic.NewPage

/-!
# The walks of a directory that is given

`vmm_map_page` takes the directory it maps in. It looks up there whether the page
table exists, and then writes the table through the recursive window, which shows the
tables of the loaded directory. With the table in memory one word changes, the loaded
directory's entry: in a table, or, for a page of the window itself, in the directory.
-/

namespace MyOs

open Kernel

/-- The directory in frame `d` maps itself in its last entry, and its tables are
frames of their own. -/
structure DirectoryAt (k : Kernel) (d : Nat) : Prop where
  aligned : d % pageSize = 0
  self : isPagePresent (k.entryAt d recursivePageTableIndex) = true
  frame : getFrameAddr (k.entryAt d recursivePageTableIndex) = d
  apart : ∀ i j, i < 1024 → j < 1024 → isPagePresent (k.entryAt d i) = true →
    isPagePresent (k.entryAt d j) = true →
    getFrameAddr (k.entryAt d i) = getFrameAddr (k.entryAt d j) → i = j

/-- The directory in frame `e`, with its tables' frames counted as used, shares no
page table with the one in frame `d`. -/
structure SharesNoTable (k : Kernel) (d e : Nat) : Prop where
  directory : DirectoryAt k e
  used : ∀ i, i < 1024 → isPagePresent (k.entryAt e i) = true →
    k.FrameUsed (getFrameAddr (k.entryAt e i))
  apart : ∀ i j, i < 1024 → j < 1024 → isPagePresent (k.entryAt e i) = true →
    isPagePresent (k.entryAt d j) = true →
    getFrameAddr (k.entryAt e i) ≠ getFrameAddr (k.entryAt d j)

/-- The walks after mapping `v` to the frame `p` in the directory in frame `d`. The
pages of a directory are those below the window on its own tables. -/
structure MapsInto (k : Kernel) (d v p : Nat) (k' : Kernel) : Prop where
  mapped : k'.walkFrom d v = some (p + getFrameOffset v)
  others : ∀ u, u < 2 ^ 32 → getDirectoryIndex u ≠ recursivePageTableIndex →
    u / pageSize ≠ v / pageSize → k'.walkFrom d u = k.walkFrom d u
  unshared : ∀ e, SharesNoTable k d e → ∀ u, u < 2 ^ 32 → k'.walkFrom e u = k.walkFrom e u

/-- A call of `vmm_map_page` for the directory in frame `d`, which is readable at
`dir` and is no page table of the loaded directory. -/
structure MapsDirectory (k : Kernel) (dir d v : Nat) : Prop where
  running : k.Running 0
  nonnull : dir ≠ 0
  readable : ∀ i, i < 1024 → k.translate (dir + 4 * i) = some (d + 4 * i)
  directory : DirectoryAt k d
  lt : v < 2 ^ 32
  no_table : getDirectoryIndex v ≠ recursivePageTableIndex →
    isPagePresent (k.pdeOf v) = true → getFrameAddr (k.pdeOf v) ≠ d

/-- The walk of `u` once its table is the one in frame `t`. -/
def Kernel.walkTable (k : Kernel) (t u : Nat) : Option Nat :=
  if isPagePresent (k.entryAt t (getTableIndex u)) then
    some (getFrameAddr (k.entryAt t (getTableIndex u)) + getFrameOffset u)
  else none

section Walks

variable {k k' : Kernel} {d u v : Nat}

/-- The entry of a page of the window is one of the directory. -/
theorem Kernel.Recursive.pteAddr_window (hrec : k.Recursive)
    (hin : getDirectoryIndex v = recursivePageTableIndex) :
    k.pteAddr v = k.dirFrame + 4 * getTableIndex v := by
  rw [pteAddr, pdeOf, hin, hrec.frame]

/-- A walk depends on the two words it reads. -/
theorem walkFrom_congr
    (hpde : k'.entryAt d (getDirectoryIndex u) = k.entryAt d (getDirectoryIndex u))
    (hpte : isPagePresent (k.entryAt d (getDirectoryIndex u)) = true →
      k'.entryAt (getFrameAddr (k.entryAt d (getDirectoryIndex u))) (getTableIndex u) =
        k.entryAt (getFrameAddr (k.entryAt d (getDirectoryIndex u))) (getTableIndex u)) :
    k'.walkFrom d u = k.walkFrom d u := by
  simp only [walkFrom, hpde]
  by_cases hpresent : isPagePresent (k.entryAt d (getDirectoryIndex u)) = true
  · rw [if_pos hpresent, if_pos hpresent, hpte hpresent]
  · rw [if_neg hpresent, if_neg hpresent]

/-- A walk through a present directory entry ends in its table. -/
theorem walkFrom_table {t : Nat}
    (hpresent : isPagePresent (k.entryAt d (getDirectoryIndex u)) = true)
    (hframe : getFrameAddr (k.entryAt d (getDirectoryIndex u)) = t) :
    k.walkFrom d u = k.walkTable t u := by
  rw [walkFrom, walkTable]
  simp only [hpresent, if_true, hframe]

/-- An entry of a page-aligned frame lies in that frame. -/
theorem entry_page {f i : Nat} (hf : f % pageSize = 0) (hi : i < 1024) :
    (f + 4 * i) / pageSize = f / pageSize ∧ (f + 4 * i) % 4 = 0 := by
  simp only [pageSize] at hf ⊢
  omega

theorem frame_page_ne {f g : Nat} (hf : f % pageSize = 0) (hg : g % pageSize = 0) (hne : f ≠ g) :
    f / pageSize ≠ g / pageSize := by
  simp only [pageSize] at hf hg ⊢
  omega

/-- A change that keeps every word of the directory in frame `e` and of its tables
keeps its walks. -/
theorem DirectoryAt.walkFrom_keep {e : Nat} (he : DirectoryAt k e)
    (hwords : ∀ i, i < 1024 → isPagePresent (k.entryAt e i) = true → ∀ j, j < 1024 →
      k'.entryAt (getFrameAddr (k.entryAt e i)) j = k.entryAt (getFrameAddr (k.entryAt e i)) j)
    (hu : u < 2 ^ 32) : k'.walkFrom e u = k.walkFrom e u := by
  have hidx := getDirectoryIndex_lt_of hu
  refine walkFrom_congr ?_ fun hpresent => hwords _ hidx hpresent _ (getTableIndex_lt u)
  have hself := hwords recursivePageTableIndex (by decide) he.self (getDirectoryIndex u) hidx
  rw [he.frame] at hself
  exact hself

end Walks

namespace MapsDirectory

variable {ext inner : Ext} {k k' : Kernel} {dir d v p flags : Nat} (h : MapsDirectory k dir d v)

include h

/-- With a present table in both directories the call sets one word, the loaded
directory's entry of the page: unless that is the directory's own entry, the window
still shows it after the first of the two writes. -/
theorem runs_present
    (hlast : getDirectoryIndex v = recursivePageTableIndex →
      getTableIndex v ≠ recursivePageTableIndex)
    (hgiven : isPagePresent (k.entryAt d (getDirectoryIndex v)) = true)
    (hloaded : isPagePresent (k.pdeOf v) = true) (hlt : p < 2 ^ 32) :
    vmmMapPage ext dir v p flags k = .ok ((), k.setMem (k.mem.store32 (k.pteAddr v)
      (installed (k.mem.load32 (k.pteAddr v)) p flags))) := by
  have hpaged := h.running.paged
  have hload : loadWord ext (dir + 4 * getDirectoryIndex v) k =
      .ok (k.entryAt d (getDirectoryIndex v), k) :=
    loadWord_mapped (h.readable _ (getDirectoryIndex_lt_of h.lt))
  have htable : tableForMapping ext dir (getDirectoryIndex v) k =
      .ok (getPageTableVirAddr (getDirectoryIndex v), k) := by
    rw [tableForMapping, Prog.bind_of_ok hload, if_pos hgiven, getPageTableAddr,
      Prog.get_bind_apply, if_pos h.running.translate_on]
    rfl
  have hoff : k.pteAddr v ≠ k.selfAddr ∧ k.pteAddr v ≠ k.pdeAddr v := by
    by_cases hin : getDirectoryIndex v = recursivePageTableIndex
    · rw [hpaged.recursive.pteAddr_window hin, selfAddr, pdeAddr, hin]
      have hne := hlast hin
      omega
    · exact ⟨hpaged.pteAddr_ne h.lt hin hloaded (by decide),
        hpaged.pteAddr_ne h.lt hin hloaded (getDirectoryIndex_lt_of h.lt)⟩
  exact (hpaged.recursive.windowPtr h.lt hloaded hoff.1 hoff.2).steady.vmmMapPage h.nonnull
    htable hlt

/-- The same for a page below the window. -/
theorem sets_entry (hbelow : getDirectoryIndex v ≠ recursivePageTableIndex)
    (hgiven : isPagePresent (k.entryAt d (getDirectoryIndex v)) = true)
    (hloaded : isPagePresent (k.pdeOf v) = true) (hp : p < 2 ^ 32) (hflags : flags < pageSize) :
    ∃ k', vmmMapPage ext dir v p flags k = .ok ((), k') ∧
      k.PteSet k' v (installed (k.mem.load32 (k.pteAddr v)) p flags) :=
  ⟨_, h.runs_present (fun hin => absurd hin hbelow) hgiven hloaded hp,
    h.running.paged.pteSet h.lt hbelow hloaded
      (installed_lt hp (Nat.lt_trans hflags (by decide)))⟩

omit h in
/-- An entry of a table is none of a directory in another frame. -/
theorem entry_ne (hd : d % pageSize = 0) (hother : getFrameAddr (k.pdeOf v) ≠ d) {i : Nat}
    (hi : i < 1024) : d + 4 * i ≠ k.pteAddr v := by
  have htable := frame_page_ne (getFrameAddr_aligned _) hd hother
  have hentry := (entry_page hd hi).1
  have hpte := (entry_page (getFrameAddr_aligned (k.pdeOf v)) (getTableIndex_lt v)).1
  intro heq
  rw [heq, pteAddr, hpte] at hentry
  exact htable hentry

/-- With the same table in both, that is the given directory's entry. -/
theorem maps_shared (hbelow : getDirectoryIndex v ≠ recursivePageTableIndex)
    (hgiven : isPagePresent (k.entryAt d (getDirectoryIndex v)) = true)
    (hloaded : isPagePresent (k.pdeOf v) = true)
    (hsame : getFrameAddr (k.entryAt d (getDirectoryIndex v)) = getFrameAddr (k.pdeOf v))
    (hp : p % pageSize = 0) (hlt : p < 2 ^ 32) (hflags : flags < pageSize) :
    ∃ k', vmmMapPage ext dir v p flags k = .ok ((), k') ∧ MapsInto k d v p k' := by
  obtain ⟨k', hrun, hset⟩ := @sets_entry ext _ _ _ _ p flags h hbelow hgiven hloaded hlt hflags
  have hidx := getDirectoryIndex_lt_of h.lt
  have hpde (i : Nat) (hi : i < 1024) : k'.entryAt d i = k.entryAt d i :=
    hset.words _ (entry_page h.directory.aligned hi).2
      (entry_ne h.directory.aligned (h.no_table hbelow hloaded) hi)
  -- an entry of another table, or another entry of this one
  have hword {f j : Nat} (hf : f % pageSize = 0) (hj : j < 1024)
      (hne : f ≠ getFrameAddr (k.pdeOf v) ∨ j ≠ getTableIndex v) :
      k'.entryAt f j = k.entryAt f j := by
    refine hset.words _ (entry_page hf hj).2 fun heq => ?_
    have halign := getFrameAddr_aligned (k.pdeOf v)
    have hindex := getTableIndex_lt v
    simp only [pteAddr, pageSize] at heq hf halign
    omega
  refine ⟨k', hrun, ?_, fun u hu hbelowU hne => ?_, fun e he u hu => ?_⟩
  · have hentry : k'.entryAt (getFrameAddr (k.pdeOf v)) (getTableIndex v) =
        installed (k.mem.load32 (k.pteAddr v)) p flags := hset.word
    simp only [walkFrom, hpde _ hidx, hgiven, hsame, hentry, isPagePresent_installed, if_true]
    rw [getFrameAddr_installed hflags, getFrameAddr_of_aligned hp hlt]
  · refine walkFrom_congr (hpde _ (getDirectoryIndex_lt_of hu)) fun hpresent => ?_
    refine hword (getFrameAddr_aligned _) (getTableIndex_lt u) ?_
    by_cases hdir : getDirectoryIndex u = getDirectoryIndex v
    · refine .inr fun htable => hne ?_
      rw [page_index, page_index, hdir, htable]
    · refine .inl fun heq => hdir ?_
      exact h.directory.apart _ _ (getDirectoryIndex_lt_of hu) hidx hpresent hgiven
        (heq.trans hsame.symm)
  · refine he.directory.walkFrom_keep (fun i hi hpresent j hj => ?_) hu
    refine hword (getFrameAddr_aligned _) hj (.inl ?_)
    rw [← hsame]
    exact he.apart i _ hi hidx hpresent hgiven

/-- With another table the given directory does not get the mapping. -/
theorem not_maps
    (hlast : getDirectoryIndex v = recursivePageTableIndex →
      getTableIndex v ≠ recursivePageTableIndex)
    (hgiven : isPagePresent (k.entryAt d (getDirectoryIndex v)) = true)
    (hloaded : isPagePresent (k.pdeOf v) = true)
    (hother : getFrameAddr (k.entryAt d (getDirectoryIndex v)) ≠ getFrameAddr (k.pdeOf v))
    (hlt : p < 2 ^ 32) (hrun : vmmMapPage ext dir v p flags k = .ok ((), k')) :
    k'.walkFrom d v = k.walkFrom d v := by
  cases hrun.symm.trans (h.runs_present hlast hgiven hloaded hlt)
  have hkeep {b : Nat} (hb : b % 4 = 0) (hne : b ≠ k.pteAddr v) (w : Nat) :
      (k.mem.store32 (k.pteAddr v) w).load32 b = k.mem.load32 b := by
    have haligned := k.pteAddr_aligned v
    exact ByteStore.load32_store32_ne (by omega)
  have hframe : getFrameAddr (k.pdeOf v) ≠ d := by
    by_cases hin : getDirectoryIndex v = recursivePageTableIndex
    · rw [hin, h.directory.frame] at hother
      exact hother.symm
    · exact h.no_table hin hloaded
  have hidx := getDirectoryIndex_lt_of h.lt
  refine walkFrom_congr (hkeep (entry_page h.directory.aligned hidx).2
    (entry_ne h.directory.aligned hframe hidx) _) fun _ => ?_
  refine hkeep (entry_page (getFrameAddr_aligned _) (getTableIndex_lt v)).2 (fun heq => ?_) _
  rw [pteAddr] at heq
  exact hother (Nat.add_right_cancel heq)

/-- A page of the window on the loaded directory's tables: the call puts a table, in
frame `p`, in the directory. Its pages have the walks of that table from then on. -/
theorem maps_window_iff (hd : d = k.dirFrame) (hin : getDirectoryIndex v = recursivePageTableIndex)
    (hlast : getTableIndex v ≠ recursivePageTableIndex) (hp : p % pageSize = 0)
    (hlt : p < 2 ^ 32) (hflags : flags < pageSize) (hpd : p ≠ d) :
    ∃ k', vmmMapPage ext dir v p flags k = .ok ((), k') ∧
      (MapsInto k d v p k' ↔ ∀ u, u < 2 ^ 32 → getDirectoryIndex u = getTableIndex v →
        k.walkTable p u = k.walkFrom d u) := by
  subst hd
  have hrec := h.running.paged.recursive
  have hself : isPagePresent (k.pdeOf v) = true := by rw [pdeOf, hin]; exact hrec.present
  have hrun := @runs_present ext k dir k.dirFrame v p flags h (fun _ => hlast) hself hself hlt
  rw [hrec.pteAddr_window hin] at hrun
  obtain ⟨w, hw⟩ : ∃ w, w = installed (k.mem.load32 (k.dirFrame + 4 * getTableIndex v)) p flags :=
    ⟨_, rfl⟩
  rw [← hw] at hrun
  have hwlt : w < 2 ^ 32 := hw ▸ installed_lt hlt (Nat.lt_trans hflags (by decide))
  obtain ⟨k', hk'⟩ : ∃ k', k' = k.setMem (k.mem.store32 (k.dirFrame + 4 * getTableIndex v) w) :=
    ⟨_, rfl⟩
  rw [← hk'] at hrun
  have hindex := getTableIndex_lt v
  have hframe := k.dirFrame_aligned
  have hword : k'.entryAt k.dirFrame (getTableIndex v) = w := by
    rw [hk']
    exact ByteStore.load32_store32 hwlt
  have hkeep {f j : Nat} (hf : f % pageSize = 0) (hj : j < 1024)
      (hne : f ≠ k.dirFrame ∨ j ≠ getTableIndex v) : k'.entryAt f j = k.entryAt f j := by
    rw [hk']
    refine ByteStore.load32_store32_ne ?_
    simp only [pageSize] at hf hframe
    omega
  have hpresent : isPagePresent w = true := by rw [hw, isPagePresent_installed]
  have hto : getFrameAddr w = p := by
    rw [hw, getFrameAddr_installed hflags, getFrameAddr_of_aligned hp hlt]
  have htable (u : Nat) (hu : getDirectoryIndex u = getTableIndex v) :
      k'.walkFrom k.dirFrame u = k.walkTable p u := by
    rw [walkFrom_table (by rw [hu, hword, hpresent]) (by rw [hu, hword, hto]), walkTable, walkTable,
      hkeep hp (getTableIndex_lt u) (.inl hpd)]
  refine ⟨k', hrun, fun hmaps u hu hdu => ?_, fun hsame => ⟨?_, fun u hu hbelow _ => ?_, ?_⟩⟩
  · rw [← htable u hdu]
    refine hmaps.others u hu (by rw [hdu]; exact hlast) fun hpage => hlast ?_
    rw [← hdu, directoryIndex_of_page hpage, hin]
  · have hentry : k'.entryAt k.dirFrame recursivePageTableIndex =
        k.entryAt k.dirFrame recursivePageTableIndex :=
      hkeep hframe (by decide) (.inr (Ne.symm hlast))
    have hpde : k'.entryAt k.dirFrame (getDirectoryIndex v) =
        k.entryAt k.dirFrame recursivePageTableIndex := by rw [hin, hentry]
    rw [walkFrom_table (by rw [hpde, hrec.present]) (by rw [hpde, hrec.frame]), walkTable, hword,
      hpresent, if_pos rfl, hto]
  · by_cases hdu : getDirectoryIndex u = getTableIndex v
    · rw [htable u hdu, hsame u hu hdu]
    · have hidx := getDirectoryIndex_lt_of hu
      refine walkFrom_congr (hkeep hframe hidx (.inr hdu)) fun hpu => ?_
      refine hkeep (getFrameAddr_aligned _) (getTableIndex_lt u) (.inl ?_)
      exact h.running.paged.table_ne hu hbelow hpu
  · intro e he u hu
    refine he.directory.walkFrom_keep (fun i hi hpe j hj => ?_) hu
    refine hkeep (getFrameAddr_aligned _) hj (.inl ?_)
    have hapart := he.apart i recursivePageTableIndex hi (by decide) hpe hrec.present
    rwa [hrec.frame] at hapart

end MapsDirectory
end MyOs
