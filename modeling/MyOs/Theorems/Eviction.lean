import MyOs.Theorems.Pressure
import MyOs.Theorems.SlotRelease

/-!
# The page that is evicted

`vmm_swap_in_page` and `vmm_alloc_page` hold a pointer to a page entry while they
make room for a frame, and the page that goes out is the oldest in the eviction
queue, whatever it is. Page tables made with paging on are in that queue, under
their addresses in the recursive window: the one that holds the entry may be
the oldest.
-/

namespace MyOs

open Kernel

/-- The calls that make room when no frame is free. -/
inductive EvictingCall (ext : Ext) (e v : Nat) : Prog Kernel Bool → Prop
  | swapIn : EvictingCall ext e v (vmmSwapInPage ext e v)
  | alloc : EvictingCall ext e v (vmmAllocPage ext e v)

/-- No frame is free, and the oldest page in the eviction queue is that of `u`; its
queue node is an object of a slab. The next large address is `c`. -/
structure EvictsNext (k : Kernel) (c u : Nat) : Prop where
  running : k.Running
  starved : Starved c k
  slots_index : k.slots.lastAllocIndex ≤ diskBitmapSize
  lt : u < 2 ^ 32
  off_self : k.pteAddr u ≠ k.selfAddr
  oldest : ∃ node rest, k.pageFifoQueue = node :: rest ∧ node.virAddr = u ∧
    isSlabWindow node.addr = false ∧ k.heap.getLargeAllocByPtr node.addr = none

/-- `e` points to the word at `a`, through entries that are not marked swapped. -/
structure EntryReached (k : Kernel) (e a : Nat) : Prop where
  ptr : k.translate e = some a
  pde_in : isSwapped (k.mem.load32 (k.pdeAddr e)) = false
  pte_in : isSwapped (k.mem.load32 (k.pteAddr e)) = false

/-- The write to the disk leaves the way to the entry of `u` and to `e` as it is. -/
def TransferKeepsWay (ext : Ext) (k : Kernel) (u e : Nat) : Prop :=
  ∀ s frame k' k'', k.SameWalks k' → ext.swapWrite s frame k' = .ok ((), k'') →
    k.SameRoot k'' ∧ ∀ a, (a = k.selfAddr ∨ a = k.pdeAddr u ∨ a = k.pteAddr u ∨ a = k.pdeAddr e ∨
      a = k.pteAddr e) → k''.mem.load32 a = k.mem.load32 a

/-- After the page of `u` went out, it is not the page `e` points into, `e` is
reached through the same two words, and a write to it goes to the same entry. -/
structure EntryStays (ext : Ext) (k k₁ : Kernel) (e a u : Nat) : Prop where
  page_ne : u / pageSize ≠ e / pageSize
  pde : k₁.mem.load32 (k.pdeAddr e) = k.mem.load32 (k.pdeAddr e)
  pte : k₁.mem.load32 (k.pteAddr e) = k.mem.load32 (k.pteAddr e)
  write : ∀ w, storeWord ext e w k₁ = .ok ((), k₁.setMem (k₁.mem.store32 a w))

/-- The entry of `u` is on the walk of `e`. -/
def OnWalk (k : Kernel) (u e : Nat) : Prop := k.pteAddr u = k.pdeAddr e ∨ k.pteAddr u = k.pteAddr e

instance (k : Kernel) (u e : Nat) : Decidable (OnWalk k u e) := inferInstanceAs (Decidable (_ ∨ _))

section Calls

variable {ext inner : Ext} {k k₁ : Kernel} {e v : Nat} {call : Prog Kernel Bool}

/-- Both calls begin by asking for a frame. -/
theorem EvictingCall.begins (h : EvictingCall ext e v call) :
    ∃ rest : Nat → Prog Kernel Bool, ∀ k, call k = (allocFrameOrSwap ext >>= rest) k := by
  cases h with
  | swapIn => exact ⟨_, fun _ => rfl⟩
  | alloc => exact ⟨_, fun k => Prog.bind_assoc_apply (allocFrameOrSwap ext) _ _ k⟩

/-- Once a page is out they ask again. -/
theorem allocFrameOrSwap_evicts (hnone : k.pmm.pmmAllocFrame = (pmmNoFrameAvailable, k.pmm))
    (hrun : vmmSwapOutSomePage ext k = .ok (true, k₁)) : allocFrameOrSwap ext k = allocFrame k₁ := by
  have halloc : allocFrame k = .ok (pmmNoFrameAvailable, k) := by
    rw [allocFrame_eq, hnone]
  rw [allocFrameOrSwap, Prog.bind_of_ok halloc, if_pos rfl, Prog.bind_of_ok hrun, if_neg (by decide)]

/-- A queue node that is an object of a slab is freed without any effect. -/
theorem pageFifoDequeue_object {node : PageFifoNode} {rest : List PageFifoNode}
    (hover : ext.Over inner) (hqueue : k.pageFifoQueue = node :: rest)
    (hwindow : isSlabWindow node.addr = false)
    (hlarge : k.heap.getLargeAllocByPtr node.addr = none) :
    pageFifoDequeue ext k = .ok (node.virAddr, { k with pageFifoQueue := rest }) := by
  have hfree : ext.kfree node.addr { k with pageFifoQueue := rest } =
      .ok ((), { k with pageFifoQueue := rest }) := by
    rw [hover.kfree, MyOs.kfree, hwindow, if_neg (by decide : ¬ false = true), kmallocLargeFree]
    split
    · rfl
    · rw [Prog.get_bind_apply, hlarge]
      rfl
  rw [pageFifoDequeue, Prog.get_bind_apply, hqueue]
  simp only [Prog.modify_bind_apply]
  rw [Prog.bind_of_ok hfree]
  rfl

end Calls

namespace EvictsNext

variable {ext : Ext} {depth : Nat} {k k₁ : Kernel} {c e a u : Nat} (h : EvictsNext k c u)

include h

theorem no_frame : k.pmm.pmmAllocFrame = (pmmNoFrameAvailable, k.pmm) := by
  obtain ⟨hres, _⟩ := allocFrame_spec h.running.pmm
  generalize k.pmm.pmmAllocFrame = pair at hres
  obtain ⟨frame, p⟩ := pair
  cases hres with
  | none => rfl
  | frame hlo hhi hfree =>
      rw [h.starved.full _ hlo hhi] at hfree
      cases hfree

/-- Without a free frame only the entry of a page whose table is in memory is
found. -/
theorem table_of_getPageEntry (hover : ext.Over (link depth)) {k₀ k' : Kernel} {e' : Nat}
    (hsame : k.SameWalks k₀) (hstarved : Starved c k₀)
    (hrun : vmmGetPageEntry ext u k₀ = .ok (e', k')) :
    isPagePresent (k.pdeOf u) = true ∧ isSwapped (k.pdeOf u) = false := by
  have hidx := getDirectoryIndex_lt_of h.lt
  have hdir := hsame.directoryIn h.running.dir
  have hpde : loadWord ext (k₀.currentDirectory + 4 * getDirectoryIndex u) k₀ =
      .ok (k.pdeOf u, k₀) := by
    rw [hdir.loadWord h.lt, hsame.entryAt]
    rfl
  rw [vmmGetPageEntry, Prog.get_bind_apply, if_neg hdir.nonnull] at hrun
  cases hin : isSwapped (k.pdeOf u) with
  | true =>
      -- bringing the table in would need a frame
      obtain ⟨ok, k₂, htable, hrest⟩ := Prog.bind_eq_ok.mp hrun
      rw [swapInTable, Prog.bind_of_ok hpde, if_pos hin, hover.swapIn] at htable
      obtain rfl := (vmmSwapInPage_starved (link_starving c depth _) _ _ k₀ hstarved.starvedFrom _ _ htable).1
      rw [if_pos rfl] at hrest
      cases hrest
  | false =>
      have htable : swapInTable ext (k₀.currentDirectory + 4 * getDirectoryIndex u)
          (getPageTableVirAddr (getDirectoryIndex u)) k₀ = .ok (true, k₀) := by
        rw [swapInTable, Prog.bind_of_ok hpde, hin]
        rfl
      rw [Prog.bind_of_ok htable, if_neg (by decide), Prog.bind_of_ok hpde] at hrun
      cases hpresent : isPagePresent (k.pdeOf u) with
      | true => exact ⟨rfl, rfl⟩
      | false =>
          rw [hpresent, if_pos rfl] at hrun
          cases hrun

/-- The eviction changes one word, the entry of `u`, and marks it swapped. -/
theorem changes (hover : ext.Over (link depth)) (htransfer : TransferKeepsWay ext k u e)
    (hrun : vmmSwapOutSomePage ext k = .ok (true, k₁)) :
    ∃ k₂ w, k.SameRoot k₂ ∧ isSwapped w = true ∧ w < 2 ^ 32 ∧
      (∀ b, (b = k.selfAddr ∨ b = k.pdeAddr u ∨ b = k.pteAddr u ∨ b = k.pdeAddr e ∨
        b = k.pteAddr e) → k₂.mem.load32 b = k.mem.load32 b) ∧
      k₁ = k₂.setMem (k₂.mem.store32 (k.pteAddr u) w) := by
  obtain ⟨node, rest, hqueue, hu, hwindow, hlarge⟩ := h.oldest
  have hdequeue := pageFifoDequeue_object hover hqueue hwindow hlarge
  obtain ⟨k₀, hk₀⟩ : ∃ k₀, k₀ = { k with pageFifoQueue := rest } := ⟨_, rfl⟩
  rw [← hk₀, hu] at hdequeue
  have hsame : k.SameWalks k₀ := by rw [hk₀]; exact ⟨rfl, rfl, rfl, rfl⟩
  have hstarved : Starved c k₀ := by
    rw [hk₀]
    exact ⟨h.starved.wf, h.starved.full, h.starved.sane, h.starved.large, fun n hn =>
      h.starved.queue n (by rw [hqueue]; exact List.mem_cons_of_mem _ hn)⟩
  have hindex : k₀.slots.lastAllocIndex ≤ diskBitmapSize := by
    rw [hk₀]
    exact h.slots_index
  rw [vmmSwapOutSomePage, Prog.bind_of_ok hdequeue] at hrun
  by_cases hzero : u = 0
  · rw [if_pos hzero] at hrun
    cases hrun
  rw [if_neg hzero] at hrun
  -- the table of the page is in memory, so its entry is found in the window
  obtain ⟨e', k', hentry, _⟩ := Prog.bind_eq_ok.mp (show (vmmGetPageEntry ext u >>= _) k₀ = _ from hrun)
  obtain ⟨hpresent, hin⟩ := h.table_of_getPageEntry hover hsame hstarved hentry
  have hidx := getDirectoryIndex_lt_of h.lt
  have hfound : vmmGetPageEntry ext u k₀ = .ok (windowAddr u, k₀) := by
    refine vmmGetPageEntry_mapped (by rw [hsame.paging, h.running.translate_on])
      (by rw [hsame.dir]; exact h.running.dir.nonnull) ?_ (by rw [hsame.pdeOf, hpresent])
      (by rw [hsame.pdeOf, hin])
    rw [hsame.dir, hsame.translate, h.running.dir.mapped _ hidx, pdeAddr_congr hsame.cr3, pdeAddr]
  have hptr := h.running.paged.windowPtr h.lt hpresent h.off_self
  rcases vmmSwapOutPage_cases hindex hfound (by rw [hsame.translate, hptr.ptr]) hrun with
    ⟨hfalse, _⟩ | ⟨s, d, k₂, _, _, hslot, hne, hwrite, hdone⟩
  · cases hfalse
  have hsame₁ : k.SameWalks { k₀ with slots := d } :=
    ⟨hsame.mem, hsame.cr3, hsame.paging, hsame.dir⟩
  obtain ⟨hroot, hwords⟩ := htransfer s _ _ _ hsame₁ hwrite
  have hptr₂ := hroot.windowPtr h.running.paged.recursive h.lt (hwords _ (.inl rfl))
    (hwords _ (.inr (.inl rfl))) hptr
  have hs : s < 2 ^ 32 := by
    have hspec := diskAllocSlots_spec hindex (pageSlots_lt k₀)
    rw [hslot] at hspec
    cases hspec with
    | none => exact absurd rfl hne
    | run hle => exact slot_lt hle
  have hk₁ := (Prod.mk.inj (Except.ok.inj (hdone.symm.trans (hptr₂.swapOutEntry ext s)))).2
  exact ⟨k₂, _, hroot, isSwapped_swapOutWord, swapOutWord_lt hs, hwords, hk₁⟩

/-- The pointer stays when the entry of `u` is not on its walk. -/
theorem entryStays_of_off (hover : ext.Over (link depth)) (he : EntryReached k e a)
    (htransfer : TransferKeepsWay ext k u e)
    (hrun : vmmSwapOutSomePage ext k = .ok (true, k₁)) (hoff : ¬ OnWalk k u e) :
    EntryStays ext k k₁ e a u := by
  obtain ⟨k₂, w, hroot, _, _, hwords, hk₁⟩ := h.changes hover htransfer hrun
  obtain ⟨hpde, hpte⟩ := not_or.mp hoff
  have haligned := k.pteAddr_aligned u
  have hword {b : Nat} (hb : b % 4 = 0) (hne : k.pteAddr u ≠ b)
      (hkept : k₂.mem.load32 b = k.mem.load32 b) : k₁.mem.load32 b = k.mem.load32 b := by
    rw [hk₁, setMem, ← hkept]
    exact ByteStore.load32_store32_ne (by omega)
  have hpdeWord := hword (k.pdeAddr_aligned e) hpde (hwords _ (.inr (.inr (.inr (.inl rfl)))))
  have hpteWord := hword (k.pteAddr_aligned e) hpte (hwords _ (.inr (.inr (.inr (.inr rfl)))))
  have hroot₁ : k.SameRoot k₁ := by
    rw [hk₁]
    exact hroot.trans (setMem_root _ _)
  have hptr : k₁.translate e = some a := by
    rw [translate_keep hroot₁.cr3 hroot₁.paging hpdeWord hpteWord, he.ptr]
  exact
    { page_ne := fun hpage => hpte (walk_of_page hpage).2
      pde := hpdeWord
      pte := hpteWord
      write := fun w => storeWord_mapped hptr w }

/-- Otherwise a word of its walk is now a swapped entry. -/
theorem off_of_entryStays (hover : ext.Over (link depth)) (he : EntryReached k e a)
    (htransfer : TransferKeepsWay ext k u e)
    (hrun : vmmSwapOutSomePage ext k = .ok (true, k₁)) (hstays : EntryStays ext k k₁ e a u) :
    ¬ OnWalk k u e := by
  obtain ⟨k₂, w, _, hswapped, hw, _, hk₁⟩ := h.changes hover htransfer hrun
  have hword : k₁.mem.load32 (k.pteAddr u) = w := by
    rw [hk₁, setMem]
    exact ByteStore.load32_store32 hw
  rintro (hpde | hpte)
  · have hin := he.pde_in
    rw [← hstays.pde, ← hpde, hword, hswapped] at hin
    cases hin
  · have hin := he.pte_in
    rw [← hstays.pte, ← hpte, hword, hswapped] at hin
    cases hin

end EvictsNext

/-- A table that maps itself and two pages to their own frames. -/
def evictionWords : List (Nat × Nat) :=
  [(0x100FFC, 0x100003), (0x100000, 0x101003), (0x101404, 0x101003), (0x101408, 0x102003),
    (0x101020, 0x8003)]

/-- No frame is free, and the page of `u` is the one in the queue. -/
def evictionKernel (u : Nat) : Kernel :=
  { swapKernel 1 with
      mem := ByteStore.ofWords evictionWords
      pmm := ⟨fun _ => 0xFF#8, ⟨-1, -1⟩, 1⟩
      pageFifoQueue := [⟨0x8000014, u⟩] }

theorem evictionKernel_starved (u : Nat) : Starved 0x406C000 (evictionKernel u) where
  wf := pressedKernel_starved.wf
  full := pressedKernel_starved.full
  sane := pressedKernel_starved.sane
  large := rfl
  queue := by
    intro n hn
    rw [List.mem_singleton.mp (show n ∈ [⟨0x8000014, u⟩] from hn)]
    exact (by decide : 0x8000014 % pageSize ≠ 0)

theorem evictionKernel_running (u : Nat) : (evictionKernel u).Running := by
  have hwords : DirectoryWords evictionWords 0x100000 := by decide
  have hdir : (evictionKernel u).dirFrame = 0x100000 :=
    (by decide : getFrameAddr 0x100000 = 0x100000)
  refine hwords.running rfl hdir rfl
    (by decide : 0xFFFFF000 = getPageTableVirAddr recursivePageTableIndex)
    (evictionKernel_starved u).wf fun p _ _ _ _ => ?_
  have hbit : ∀ j, j < 8 → (0xFF#8).getLsbD j = true := by decide
  exact hbit _ (Nat.mod_lt _ (by decide))

theorem evictionKernel_evicts {u : Nat} (hu : u < 2 ^ 32)
    (hself : (evictionKernel u).pteAddr u ≠ (evictionKernel u).selfAddr) :
    EvictsNext (evictionKernel u) 0x406C000 u where
  running := evictionKernel_running u
  starved := evictionKernel_starved u
  slots_index := (by decide : 1 ≤ diskBitmapSize)
  lt := hu
  off_self := hself
  oldest := ⟨_, _, rfl, rfl, (by decide : isSlabWindow 0x8000014 = false), rfl⟩

/-- The plain store writes the drive only. -/
theorem storedExt_keepsWay (depth : Nat) (k : Kernel) (u e : Nat) :
    TransferKeepsWay (storedExt depth) k u e := by
  intro s frame k' k'' hsame hrun
  change storeExt.swapWrite s frame k' = _ at hrun
  rw [storeExt] at hrun
  dsimp only at hrun
  cases hframe : k'.translate frame with
  | none =>
      rw [hframe] at hrun
      cases hrun
  | some p =>
      rw [hframe] at hrun
      cases hrun
      exact ⟨⟨hsame.cr3, hsame.paging, hsame.dir⟩, fun a _ => congrArg (·.load32 a) hsame.mem⟩

end MyOs
