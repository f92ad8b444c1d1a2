import MyOs.Logic.SwapSpec

/-!
# Pointers into page tables

The kernel edits a page entry through a pointer, and that pointer is itself
translated by the directory being edited. `Steady` says that a pointer still
reaches its word after the word is stored to, `DirectoryIn` that
`current_directory` shows the directory in frame `d`, and `Paged` that the
directory's tables are frames of their own: then the entry of a page outside
the recursive window is on no other page's walk.
-/

namespace MyOs
namespace Kernel

/-- The fields the walks depend on are the same. -/
structure SameWalks (k k' : Kernel) : Prop where
  mem : k'.mem = k.mem
  cr3 : k'.cr3 = k.cr3
  paging : k'.pagingEnabled = k.pagingEnabled
  dir : k'.currentDirectory = k.currentDirectory

section SameWalks

variable {k k' : Kernel} (h : k.SameWalks k')

include h

theorem SameWalks.dirFrame : k'.dirFrame = k.dirFrame := dirFrame_congr h.cr3

theorem SameWalks.entryAt (f i : Nat) : k'.entryAt f i = k.entryAt f i := by
  rw [Kernel.entryAt, Kernel.entryAt, h.mem]

theorem SameWalks.pdeOf (v : Nat) : k'.pdeOf v = k.pdeOf v := by
  rw [Kernel.pdeOf, Kernel.pdeOf, h.dirFrame, h.entryAt]

theorem SameWalks.pteAddr (v : Nat) : k'.pteAddr v = k.pteAddr v := by
  rw [Kernel.pteAddr, Kernel.pteAddr, h.pdeOf]

theorem SameWalks.translate (v : Nat) : k'.translate v = k.translate v := by
  rw [translate_words, translate_words, h.paging, h.pdeOf, h.pteAddr, h.mem]

/-- They stay the same when both change one word alike. -/
theorem SameWalks.setMem (mem : ByteStore) : (k.setMem mem).SameWalks (k'.setMem mem) :=
  ⟨rfl, h.cr3, h.paging, h.dir⟩

theorem SameWalks.recursive (hr : k.Recursive) : k'.Recursive where
  paging_on := by rw [h.paging, hr.paging_on]
  present := by rw [h.dirFrame, h.entryAt, hr.present]
  frame := by rw [h.dirFrame, h.entryAt, hr.frame]

end SameWalks

/-- `e` points to the word at `a`, also after a store to that word. -/
structure Steady (k : Kernel) (e a : Nat) : Prop where
  ptr : k.translate e = some a
  store : ∀ w, (k.setMem (k.mem.store32 a w)).translate e = some a

theorem EntryPtr.steady {k : Kernel} {e a : Nat} (h : k.EntryPtr e a) : k.Steady e a :=
  ⟨h.ptr, fun w => (h.store w).ptr⟩

section Steady

variable {ext : Ext} {k k' : Kernel} {e a w : Nat}

theorem SameWalks.steady (hs : k.SameWalks k') (h : k.Steady e a) : k'.Steady e a where
  ptr := by rw [hs.translate, h.ptr]
  store := fun w => by rw [hs.mem, (hs.setMem _).translate, h.store]

theorem steady_off (hoff : k.pagingEnabled = false) (a : Nat) : k.Steady a a :=
  ⟨by rw [translate, hoff]; rfl, fun _ => by rw [translate, setMem, hoff]; rfl⟩

/-- One more change of a word that was just stored. -/
theorem Steady.modifyWord_stored (h : k.Steady e a) (hw : w < 2 ^ 32) (f : Nat → Nat) :
    modifyWord ext e f (k.setMem (k.mem.store32 a w)) =
      .ok ((), k.setMem (k.mem.store32 a (f w))) := by
  rw [modifyWord_mapped (h.store w)]
  simp only [setMem, ByteStore.load32_store32 hw, ByteStore.store32_store32]

/-- Two changes of a word in a row. -/
theorem Steady.modifyWord_twice (h : k.Steady e a) {f g : Nat → Nat}
    (hf : f (k.mem.load32 a) < 2 ^ 32) :
    (do
      modifyWord ext e f
      modifyWord ext e g : Prog Kernel Unit) k =
      .ok ((), k.setMem (k.mem.store32 a (g (f (k.mem.load32 a))))) := by
  rw [Prog.bind_of_ok (modifyWord_mapped h.ptr f)]
  exact h.modifyWord_stored hf g

end Steady

/-! ## The current directory -/

/-- `current_directory` shows the directory in frame `d`, and with paging on it is
the processor's. -/
structure DirectoryIn (k : Kernel) (d : Nat) : Prop where
  nonnull : k.currentDirectory ≠ 0
  aligned : d % pageSize = 0
  mapped : ∀ i, i < 1024 → k.translate (k.currentDirectory + 4 * i) = some (d + 4 * i)
  recursive : k.pagingEnabled = true → k.Recursive
  loaded : k.pagingEnabled = true → d = k.dirFrame

/-- The address of the entry of `v` in the directory in frame `d`. -/
def entryAddr (k : Kernel) (d v : Nat) : Nat :=
  getFrameAddr (k.entryAt d (getDirectoryIndex v)) + 4 * getTableIndex v

theorem entryAddr_dirFrame (k : Kernel) (v : Nat) : k.entryAddr k.dirFrame v = k.pteAddr v := rfl

/-- The table of `v` is in memory, and the entry of `v` is none of the directory
entries that lead to it. -/
structure TableIn (k : Kernel) (d v : Nat) : Prop where
  lt : v < 2 ^ 32
  table : isPagePresent (k.entryAt d (getDirectoryIndex v)) = true
  off_walk : k.entryAddr d v ≠ d + 4 * getDirectoryIndex v
  off_self : k.pagingEnabled = true → k.entryAddr d v ≠ k.selfAddr

/-- The address `vmm_map_page` uses for the table of `v`, without and with paging. -/
def tableAddr (k : Kernel) (d v : Nat) : Nat :=
  if k.pagingEnabled then getPageTableVirAddr (getDirectoryIndex v)
  else getFrameAddr (k.entryAt d (getDirectoryIndex v))

section Directory

variable {ext : Ext} {k k' : Kernel} {d v : Nat}

theorem SameWalks.directoryIn (hs : k.SameWalks k') (h : k.DirectoryIn d) :
    k'.DirectoryIn d where
  nonnull := by rw [hs.dir]; exact h.nonnull
  aligned := h.aligned
  mapped := fun i hi => by rw [hs.dir, hs.translate, h.mapped i hi]
  recursive := fun hon => hs.recursive (h.recursive (by rw [← hs.paging, hon]))
  loaded := fun hon => by rw [hs.dirFrame]; exact h.loaded (by rw [← hs.paging, hon])

theorem SameWalks.entryAddr (hs : k.SameWalks k') (d v : Nat) :
    k'.entryAddr d v = k.entryAddr d v := by
  rw [Kernel.entryAddr, Kernel.entryAddr, hs.entryAt]

theorem SameWalks.tableIn (hs : k.SameWalks k') (h : k.TableIn d v) : k'.TableIn d v where
  lt := h.lt
  table := by rw [hs.entryAt, h.table]
  off_walk := by rw [hs.entryAddr]; exact h.off_walk
  off_self := fun hon => by
    rw [hs.entryAddr, selfAddr, hs.dirFrame]
    exact h.off_self (by rw [← hs.paging, hon])

theorem DirectoryIn.loadWord (h : k.DirectoryIn d) (hv : v < 2 ^ 32) :
    loadWord ext (k.currentDirectory + 4 * getDirectoryIndex v) k =
      .ok (k.entryAt d (getDirectoryIndex v), k) :=
  loadWord_mapped (h.mapped _ (getDirectoryIndex_lt_of hv))

theorem DirectoryIn.getPageTableAddr (h : k.DirectoryIn d) (hv : v < 2 ^ 32) :
    getPageTableAddr ext k.currentDirectory (getDirectoryIndex v) k =
      .ok (k.tableAddr d v, k) := by
  rw [MyOs.getPageTableAddr, Prog.get_bind_apply, tableAddr]
  cases hon : k.pagingEnabled with
  | true => rfl
  | false =>
      simp only [Bool.false_eq_true, if_false]
      rw [Prog.bind_of_ok (h.loadWord hv)]
      rfl

/-- The table that is in memory is found where it is. -/
theorem DirectoryIn.tableForMapping (h : k.DirectoryIn d) (hv : v < 2 ^ 32)
    (hpresent : isPagePresent (k.entryAt d (getDirectoryIndex v)) = true) :
    tableForMapping ext k.currentDirectory (getDirectoryIndex v) k =
      .ok (k.tableAddr d v, k) := by
  rw [MyOs.tableForMapping, Prog.bind_of_ok (h.loadWord hv), if_pos hpresent]
  exact h.getPageTableAddr hv

/-- The pointer to the entry of `v` survives a store to the entry. -/
theorem DirectoryIn.steady (h : k.DirectoryIn d) (hin : k.TableIn d v) :
    k.Steady (k.tableAddr d v + 4 * getTableIndex v) (k.entryAddr d v) := by
  cases hon : k.pagingEnabled with
  | false =>
      have haddr : k.tableAddr d v + 4 * getTableIndex v = k.entryAddr d v := by
        simp [tableAddr, entryAddr, hon]
      rw [haddr]
      exact steady_off hon _
  | true =>
      obtain rfl := h.loaded hon
      have haddr : k.tableAddr k.dirFrame v + 4 * getTableIndex v = windowAddr v := by
        simp [tableAddr, windowAddr, hon]
      rw [haddr]
      exact ((h.recursive hon).windowPtr hin.lt hin.table (hin.off_self hon) hin.off_walk).steady

end Directory

/-! ## Tables of their own -/

/-- The directory maps itself, and no two of its present entries share a frame. -/
structure Paged (k : Kernel) : Prop where
  recursive : k.Recursive
  apart : ∀ i j, i < 1024 → j < 1024 → isPagePresent (k.entryAt k.dirFrame i) = true →
    isPagePresent (k.entryAt k.dirFrame j) = true →
    getFrameAddr (k.entryAt k.dirFrame i) = getFrameAddr (k.entryAt k.dirFrame j) → i = j

/-- The index of a page, from its place in the directory and in the table. -/
theorem page_index (v : Nat) :
    v / pageSize = getDirectoryIndex v * 1024 + getTableIndex v := by
  have hsize : pageSize = 4096 := rfl
  rw [getDirectoryIndex_eq, getTableIndex_eq, hsize]
  omega

section Paged

variable {k k' : Kernel} {u v w : Nat}

theorem SameWalks.paged (hs : k.SameWalks k') (h : k.Paged) : k'.Paged where
  recursive := hs.recursive h.recursive
  apart := fun i j hi hj => by
    rw [hs.dirFrame, hs.entryAt, hs.entryAt]
    exact h.apart i j hi hj

/-- Two pages with one entry are one page. -/
theorem Paged.page_eq (h : k.Paged) (hu : u < 2 ^ 32) (hv : v < 2 ^ 32)
    (hpu : isPagePresent (k.pdeOf u) = true) (hpv : isPagePresent (k.pdeOf v) = true)
    (heq : k.pteAddr u = k.pteAddr v) : u / pageSize = v / pageSize := by
  have hframe := getFrameAddr_aligned (k.pdeOf u)
  have hframe' := getFrameAddr_aligned (k.pdeOf v)
  have hindex := getTableIndex_lt u
  have hindex' := getTableIndex_lt v
  simp only [pteAddr] at heq
  simp only [pageSize] at hframe hframe'
  have htable : getFrameAddr (k.pdeOf u) = getFrameAddr (k.pdeOf v) := by omega
  have hdir : getDirectoryIndex u = getDirectoryIndex v :=
    h.apart _ _ (getDirectoryIndex_lt_of hu) (getDirectoryIndex_lt_of hv) hpu hpv htable
  rw [page_index, page_index, hdir]
  omega

/-- The table of a page outside the window is not the directory. -/
theorem Paged.table_ne (h : k.Paged) (hv : v < 2 ^ 32)
    (hbelow : getDirectoryIndex v ≠ recursivePageTableIndex)
    (hpv : isPagePresent (k.pdeOf v) = true) : getFrameAddr (k.pdeOf v) ≠ k.dirFrame := by
  intro heq
  apply hbelow
  apply h.apart _ _ (getDirectoryIndex_lt_of hv) (by decide) hpv h.recursive.present
  rw [h.recursive.frame]
  exact heq

/-- Its entry is no entry of the directory. -/
theorem Paged.pteAddr_ne (h : k.Paged) (hv : v < 2 ^ 32)
    (hbelow : getDirectoryIndex v ≠ recursivePageTableIndex)
    (hpv : isPagePresent (k.pdeOf v) = true) {i : Nat} (hi : i < 1024) :
    k.pteAddr v ≠ k.dirFrame + 4 * i := by
  have htable := h.table_ne hv hbelow hpv
  have hframe := getFrameAddr_aligned (k.pdeOf v)
  have hframe' := k.dirFrame_aligned
  have hindex := getTableIndex_lt v
  simp only [pageSize] at hframe hframe'
  rw [pteAddr]
  omega

theorem Paged.tableIn (h : k.Paged) (hv : v < 2 ^ 32)
    (hbelow : getDirectoryIndex v ≠ recursivePageTableIndex)
    (hpv : isPagePresent (k.pdeOf v) = true) : k.TableIn k.dirFrame v where
  lt := hv
  table := hpv
  off_walk := h.pteAddr_ne hv hbelow hpv (getDirectoryIndex_lt_of hv)
  off_self := fun _ => h.pteAddr_ne hv hbelow hpv (by decide)

end Paged
end Kernel
end MyOs
