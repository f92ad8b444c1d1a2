import MyOs.Logic.AddressSpace
import MyOs.Theorems.Pressure
import MyOs.Logic.HeapShape

/-!
# Paging operations that fail

`vmm_swap_out_some_page`, `vmm_swap_in_page` and `vmm_alloc_page` take the oldest
page off the eviction queue before they know that it can go out, and do not put
it back: with a page in the queue, a call that returns false leaves it shorter. The
two that ask for a frame also take frame 0 for a missing one, after marking it
used. Otherwise the paging state is as it was.

Without a free frame nothing enters the queue again, whatever the calls do on the
way (`StarvedFrom`). A queue node is always found: `create_slab` stops the kernel
before `kmalloc` returns NULL for it.
-/

namespace MyOs

open Kernel

/-- The page entries, the used frames, the disk's slots and the addresses in the
eviction queue are those of `k`. -/
structure PagingAsBefore (k k' : Kernel) : Prop where
  entries : ∀ a, k.IsEntry a → k'.mem.load32 a = k.mem.load32 a
  frames : ∀ n, k'.pmm.pmmBitmap.bit n = k.pmm.pmmBitmap.bit n
  slots : k'.slots.diskBitmap = k.slots.diskBitmap
  queue : k'.pageFifoQueue.map PageFifoNode.virAddr = k.pageFifoQueue.map PageFifoNode.virAddr

/-- The calls that report a failure by false, and whether they ask for a frame. -/
inductive PagingCall (ext : Ext) : Bool → Prog Kernel Bool → Prop
  | swapOutSome : PagingCall ext false (vmmSwapOutSomePage ext)
  | swapIn (e v : Nat) : PagingCall ext true (vmmSwapInPage ext e v)
  | alloc (e v : Nat) : PagingCall ext true (vmmAllocPage ext e v)

/-- A running kernel whose heap and queue are as its own functions leave them, with
the table of the oldest page in the queue in memory. -/
structure EvictionSane (k : Kernel) : Prop where
  running : k.Running 0
  slots_index : k.slots.lastAllocIndex ≤ diskBitmapSize
  shape : HeapShape k.heap
  sane : HeapSane k.heap
  nodes : ∀ n ∈ k.pageFifoQueue, SmallObject n.addr
  head : ∀ n, k.pageFifoQueue.head? = some n →
    n.virAddr < 2 ^ 32 ∧ isSwapped (k.pdeOf n.virAddr) = false

section Calls

variable {k k' : Kernel} {depth e v f : Nat} {r : Bool} {node : PageFifoNode}
  {rest : List PageFifoNode}

theorem PagingAsBefore.refl (k : Kernel) : PagingAsBefore k k :=
  ⟨fun _ _ => rfl, fun _ => rfl, rfl, rfl⟩

/-- A queue that lost its head is another one. -/
theorem not_asBefore_of_suffix (hqueue : k.pageFifoQueue = node :: rest)
    (hsuffix : k'.pageFifoQueue <:+ rest) : ¬ PagingAsBefore k k' := by
  intro h
  have hlength := congrArg List.length h.queue
  have hle := hsuffix.length_le
  rw [List.length_map, List.length_map, hqueue, List.length_cons] at hlength
  omega

/-- A small block is never NULL: without an object in the slabs there is a new slab, or
the kernel stops. -/
theorem pageEnqueue_true (hshape : HeapShape k.heap)
    (hrun : pageEnqueue (link depth) v k = .ok (r, k')) : r = true := by
  cases depth with
  | zero => cases hrun
  | succ depth =>
      rw [pageEnqueue] at hrun
      obtain ⟨o, k₁, hnode, hrest⟩ := Prog.bind_eq_ok.mp hrun
      rw [(link_over depth).kmalloc, kmalloc_node] at hnode
      have ho := (allocFromCache_keepsHeap heapShape_rules (link_keepsHeap heapShape_rules depth)
        (by decide : 0 < numCaches) k hshape o k₁ hnode).2
      have hne : o ≠ 0 := by
        rintro rfl
        cases ho.2
      rw [if_neg hne] at hrest
      cases hrest
      rfl

/-! ## No frame is free -/

/-- Then the kernel is starved. -/
theorem EvictionSane.starved (h : EvictionSane k) (hhint : k.pmm.hasHint = false)
    (hfull : ∀ b, 8 ≤ b → b < totalFrames → k.pmm.pmmBitmap.bit b = true) :
    Starved k.heap.currentLargeHeapAddr k where
  wf := ⟨fun hsome => absurd hsome (by rw [hhint]; decide), h.running.pmm.index_pos,
    h.running.pmm.index_lt⟩
  full := hfull
  sane := h.sane
  large := rfl
  queue := fun n hn => by
    have hobject := (h.nodes n hn).2
    simp only [pageSize]
    omega

/-- Without a page in the queue nothing is swapped out. -/
theorem swapOutSome_empty (hqueue : k.pageFifoQueue = []) :
    vmmSwapOutSomePage (link depth) k = .ok (false, k) := by
  rw [vmmSwapOutSomePage, pageFifoDequeue]
  simp only [Prog.bind_assoc_apply, Prog.get_bind_apply, hqueue, Prog.pure_bind_apply]
  rfl

/-- What is swapped out without a free frame leaves the queue, and nothing enters it. -/
theorem swapOutSome_shrinks {c : Nat} (hk : Starved c k) (hqueue : k.pageFifoQueue = node :: rest)
    (hrun : vmmSwapOutSomePage (link depth) k = .ok (r, k')) : StarvedFrom c rest k' := by
  have hlink := link_starving c depth rest
  have hrest : StarvedFrom c rest { k with pageFifoQueue := rest } := by
    refine ⟨⟨hk.wf, hk.full, hk.sane, hk.large, fun n hn => ?_⟩, List.suffix_refl _⟩
    exact hk.queue n (by rw [hqueue]; exact List.mem_cons_of_mem _ hn)
  have hnode : node.addr % pageSize ≠ 0 := hk.queue node (by rw [hqueue]; exact List.mem_cons_self)
  have hafter : Prog.Triple (StarvedFrom c rest) (do
      (link depth).kfree node.addr
      if node.virAddr = 0 then pure false else vmmSwapOutPage (link depth) node.virAddr)
      fun _ => StarvedFrom c rest := by
    refine Prog.Triple.bind (hlink.kfree _ (.inl hnode)) fun _ => ?_
    exact Prog.Triple.ite (fun _ => Prog.Triple.pure fun _ hs => hs)
      fun _ => vmmSwapOutPage_starved hlink _
  refine hafter _ hrest r k' ?_
  rw [← hrun, vmmSwapOutSomePage, pageFifoDequeue]
  simp only [Prog.bind_assoc_apply, Prog.get_bind_apply, hqueue, Prog.modify_bind_apply]
  rfl

/-- `vmm_swap_in_page` and `vmm_alloc_permanent_page` fail for want of a frame only. -/
theorem no_frame_of_swapIn (hrun : vmmSwapInPage (link depth) e v k = .ok (false, k')) :
    allocFrameOrSwap (link depth) k = .ok (pmmNoFrameAvailable, k') := by
  rw [vmmSwapInPage] at hrun
  obtain ⟨f, k₁, hframe, hrest⟩ := Prog.bind_eq_ok.mp hrun
  by_cases hnone : f = pmmNoFrameAvailable
  · rw [if_pos hnone] at hrest
    cases hrest
    rw [hframe, hnone]
  · rw [if_neg hnone] at hrest
    obtain ⟨_, _, _, hrest⟩ := Prog.bind_eq_ok.mp hrest
    obtain ⟨_, _, _, hrest⟩ := Prog.bind_eq_ok.mp hrest
    obtain ⟨_, _, _, hrest⟩ := Prog.bind_eq_ok.mp hrest
    obtain ⟨_, _, _, hrest⟩ := Prog.bind_eq_ok.mp hrest
    obtain ⟨_, _, _, hrest⟩ := Prog.bind_eq_ok.mp hrest
    obtain ⟨_, _, _, hrest⟩ := Prog.bind_eq_ok.mp hrest
    cases hrest

theorem no_frame_of_permanent
    (hrun : vmmAllocPermanentPage (link depth) e k = .ok (false, k')) :
    allocFrameOrSwap (link depth) k = .ok (pmmNoFrameAvailable, k') := by
  rw [vmmAllocPermanentPage] at hrun
  obtain ⟨f, k₁, hframe, hrest⟩ := Prog.bind_eq_ok.mp hrun
  by_cases hnone : f = pmmNoFrameAvailable
  · rw [if_pos hnone] at hrest
    cases hrest
    rw [hframe, hnone]
  · rw [if_neg hnone] at hrest
    obtain ⟨_, _, _, hrest⟩ := Prog.bind_eq_ok.mp hrest
    obtain ⟨_, _, _, hrest⟩ := Prog.bind_eq_ok.mp hrest
    cases hrest

/-- So does `vmm_alloc_page`: its queue node is always found. -/
theorem no_frame_of_alloc (hshape : HeapShape k.heap)
    (hrun : vmmAllocPage (link depth) e v k = .ok (false, k')) :
    allocFrameOrSwap (link depth) k = .ok (pmmNoFrameAvailable, k') := by
  rw [vmmAllocPage] at hrun
  obtain ⟨allocated, k₁, halloc, hrest⟩ := Prog.bind_eq_ok.mp hrun
  cases allocated with
  | false =>
      rw [if_pos rfl] at hrest
      cases hrest
      exact no_frame_of_permanent halloc
  | true =>
      rw [if_neg (by decide)] at hrest
      obtain ⟨enqueued, k₂, hqueue, hrest⟩ := Prog.bind_eq_ok.mp hrest
      have hshape₁ : HeapShape k₁.heap :=
        vmmAllocPermanentPage_keepsHeap (link_keepsHeap heapShape_rules depth) e k hshape _ _ halloc
      obtain rfl := pageEnqueue_true hshape₁ hqueue
      rw [if_neg (by decide)] at hrest
      cases hrest

/-- The entry of a page whose table is not marked swapped is found in the window, or not
at all. -/
theorem getPageEntry_unswapped {ext : Ext} {k₀ : Kernel} {u e' : Nat} (hrunning : k.Running 0)
    (hsame : k.SameWalks k₀) (hu : u < 2 ^ 32) (hin : isSwapped (k.pdeOf u) = false)
    (hrun : vmmGetPageEntry ext u k₀ = .ok (e', k')) :
    e' = windowAddr u ∧ k' = k₀ ∧ isPagePresent (k.pdeOf u) = true := by
  have hindex := getDirectoryIndex_lt_of hu
  have hdir := hsame.directoryIn hrunning.dir
  have hon : k₀.pagingEnabled = true := hsame.paging.trans hrunning.translate_on
  have hmapped : k₀.translate (k₀.currentDirectory + 4 * getDirectoryIndex u) =
      some (k₀.pdeAddr u) := by
    rw [hdir.mapped _ hindex, pdeAddr, hsame.dirFrame]
  cases hpresent : isPagePresent (k.pdeOf u) with
  | true =>
      have hentry : vmmGetPageEntry ext u k₀ = .ok (windowAddr u, k₀) :=
        vmmGetPageEntry_mapped hon hdir.nonnull hmapped (by rw [hsame.pdeOf, hpresent])
          (by rw [hsame.pdeOf, hin])
      rw [hentry] at hrun
      cases hrun
      exact ⟨rfl, rfl, rfl⟩
  | false =>
      have hload : loadWord ext (k₀.currentDirectory + 4 * getDirectoryIndex u) k₀ =
          .ok (k.pdeOf u, k₀) := by
        rw [← hsame.pdeOf u, pdeOf_eq_load32]
        exact loadWord_mapped hmapped
      have htable : swapInTable ext (k₀.currentDirectory + 4 * getDirectoryIndex u)
          (getPageTableVirAddr (getDirectoryIndex u)) k₀ = .ok (true, k₀) := by
        rw [swapInTable, Prog.bind_of_ok hload, hin]
        rfl
      rw [vmmGetPageEntry, Prog.get_bind_apply, if_neg hdir.nonnull, Prog.bind_of_ok htable,
        if_neg (by decide), Prog.bind_of_ok hload, hpresent, if_pos rfl] at hrun
      cases hrun

/-- A page that did not go out is no longer in the queue. -/
theorem EvictionSane.queue_lost (h : EvictionSane k) (hqueue : k.pageFifoQueue = node :: rest)
    (hrun : vmmSwapOutSomePage (link depth) k = .ok (false, k')) : k'.pageFifoQueue = rest := by
  obtain ⟨k₀, hk₀⟩ : ∃ k₀, k₀ = { k with pageFifoQueue := rest } := ⟨_, rfl⟩
  have hsame : k.SameWalks k₀ := by
    rw [hk₀]
    exact ⟨rfl, rfl, rfl, rfl⟩
  have hrest : k₀.pageFifoQueue = rest := by rw [hk₀]
  have hindex : k₀.slots.lastAllocIndex ≤ diskBitmapSize := by
    rw [hk₀]
    exact h.slots_index
  have hshape : HeapShape k₀.heap := by
    rw [hk₀]
    exact h.shape
  have hobject := h.nodes node (by rw [hqueue]; exact List.mem_cons_self)
  obtain ⟨hlt, hin⟩ := h.head node (by rw [hqueue]; rfl)
  have hafter : (do
      (link depth).kfree node.addr
      if node.virAddr = 0 then pure false
      else vmmSwapOutPage (link depth) node.virAddr : Prog Kernel Bool) k₀ =
      .ok (false, k') := by
    rw [← hrun, vmmSwapOutSomePage, pageFifoDequeue, hk₀]
    simp only [Prog.bind_assoc_apply, Prog.get_bind_apply, hqueue, Prog.modify_bind_apply]
    rfl
  cases depth with
  | zero => cases hafter
  | succ depth =>
      rw [(link_over depth).kfree, Prog.bind_of_ok (kfree_smallObject hshape hobject)] at hafter
      by_cases hzero : node.virAddr = 0
      · rw [if_pos hzero] at hafter
        cases hafter
        exact hrest
      · rw [if_neg hzero] at hafter
        obtain ⟨e', k₁, hentry, _⟩ := Prog.bind_eq_ok.mp (vmmSwapOutPage.eq_1 _ _ ▸ hafter)
        obtain ⟨rfl, rfl, hpresent⟩ := getPageEntry_unswapped h.running hsame hlt hin hentry
        have hptr : k₁.translate (windowAddr node.virAddr) = some (k.pteAddr node.virAddr) := by
          rw [hsame.translate]
          exact translate_windowAddr h.running.paged.recursive hlt hpresent
        rcases vmmSwapOutPage_cases hindex hentry hptr hafter with
          ⟨_, rfl⟩ | ⟨_, _, _, _, _, _, _, _, hdone⟩
        · exact hrest
        · -- a page that was written to the disk is reported as out
          obtain ⟨_, _, _, hdone⟩ := Prog.bind_eq_ok.mp hdone
          obtain ⟨_, _, _, hdone⟩ := Prog.bind_eq_ok.mp hdone
          obtain ⟨_, _, _, hdone⟩ := Prog.bind_eq_ok.mp hdone
          cases hdone

theorem swapOutSome_fails (h : EvictionSane k)
    (hrun : vmmSwapOutSomePage (link depth) k = .ok (false, k')) :
    PagingAsBefore k k' ↔ k.pageFifoQueue = [] := by
  cases hqueue : k.pageFifoQueue with
  | nil =>
      rw [swapOutSome_empty hqueue] at hrun
      cases hrun
      exact ⟨fun _ => rfl, fun _ => PagingAsBefore.refl k⟩
  | cons node rest =>
      constructor
      · intro hsame
        exact absurd hsame
          (not_asBefore_of_suffix hqueue (h.queue_lost hqueue hrun ▸ List.suffix_refl _))
      · intro hnil
        cases hnil

/-- Taking a frame changes the frame allocator only. -/
theorem EvictionSane.frameTaken (h : EvictionSane k) : EvictionSane k.frameTaken where
  running := by
    have hsame := k.frameTaken_same
    refine h.running.of_keepsMaps hsame.root (hsame.paged h.running.paged)
      (frameTaken_wf h.running.pmm) (fun i hi hpresent => ?_) hsame.keepsMaps
    rw [hsame.entryAt] at hpresent ⊢
    exact Pmm.alloc_used (h.running.tables_used i hi hpresent)
  slots_index := h.slots_index
  shape := h.shape
  sane := h.sane
  nodes := h.nodes
  head := h.head

/-- Without a frame a page is swapped out, and a frame asked for once more. -/
theorem swapped_of_no_frame
    (hrun : allocFrameOrSwap (link depth) k = .ok (pmmNoFrameAvailable, k')) :
    k.pmm.pmmAllocFrame.1 = pmmNoFrameAvailable ∧ ∃ out k₂,
      vmmSwapOutSomePage (link depth) k.frameTaken = .ok (out, k₂) ∧
      (out = false ∧ k' = k₂ ∨
        out = true ∧ k₂.pmm.pmmAllocFrame.1 = pmmNoFrameAvailable ∧ k' = k₂.frameTaken) := by
  rw [allocFrameOrSwap, Prog.bind_of_ok (allocFrame_eq k)] at hrun
  by_cases hnone : k.pmm.pmmAllocFrame.1 = pmmNoFrameAvailable
  · rw [if_pos hnone] at hrun
    obtain ⟨out, k₂, hout, hrest⟩ := Prog.bind_eq_ok.mp hrun
    refine ⟨hnone, out, k₂, hout, ?_⟩
    cases out with
    | false =>
        rw [if_pos rfl] at hrest
        cases hrest
        exact .inl ⟨rfl, rfl⟩
    | true =>
        rw [if_neg (by decide), allocFrame_eq] at hrest
        injection hrest with hrest
        injection hrest with hframe hk'
        exact .inr ⟨rfl, hframe, hk'.symm⟩
  · rw [if_neg hnone, Prog.pure_apply] at hrun
    injection hrun with hrun
    injection hrun with hframe _
    exact absurd hframe hnone

/-- When the frame freed last is not frame 0, no frame is given only if none is free. -/
theorem EvictionSane.no_frame (h : EvictionSane k) (hhint : k.pmm.lastFreeFrame ≠ ⟨0, 0⟩)
    (hnone : k.pmm.pmmAllocFrame.1 = pmmNoFrameAvailable) :
    k.frameTaken = k ∧ k.frameTaken.pmm.hasHint = false ∧
      ∀ b, 8 ≤ b → b < totalFrames → k.pmm.pmmBitmap.bit b = true := by
  obtain ⟨hres, _⟩ := allocFrame_specFrom (by decide : 1 ≤ 8) (h.running.pmm.above_zero hhint)
  rw [Kernel.frameTaken]
  generalize k.pmm.pmmAllocFrame.1 = f at hres hnone
  generalize k.pmm.pmmAllocFrame.2 = p at hres ⊢
  cases hres with
  | none hhint hfull => exact ⟨rfl, hhint, hfull⟩
  | frame hlo _ _ _ _ _ =>
      rw [pmmNoFrameAvailable] at hnone
      omega

/-- With every frame used, the page swapped out is no longer in the queue. -/
theorem EvictionSane.queue_shrinks {out : Bool} {k₂ : Kernel} (h : EvictionSane k)
    (hqueue : k.pageFifoQueue = node :: rest) (hhint : k.frameTaken.pmm.hasHint = false)
    (hfull : ∀ b, 8 ≤ b → b < totalFrames → k.pmm.pmmBitmap.bit b = true)
    (hout : vmmSwapOutSomePage (link depth) k.frameTaken = .ok (out, k₂)) :
    k₂.pageFifoQueue <:+ rest := by
  have hstarved := h.frameTaken.starved hhint fun b hlo hhi => Pmm.alloc_used (hfull b hlo hhi)
  exact (swapOutSome_shrinks hstarved hqueue hout).suffix

/-- With a page in the queue, the call loses it or a frame. -/
theorem EvictionSane.not_asBefore (h : EvictionSane k) (hqueue : k.pageFifoQueue = node :: rest)
    (hrun : allocFrameOrSwap (link depth) k = .ok (pmmNoFrameAvailable, k')) :
    ¬ PagingAsBefore k k' := by
  intro hsame
  obtain ⟨hnone, out, k₂, hout, hrest⟩ := swapped_of_no_frame hrun
  have hkept : ¬ k₂.pageFifoQueue <:+ rest := fun hsuffix => by
    refine not_asBefore_of_suffix hqueue ?_ hsame
    rcases hrest with ⟨_, rfl⟩ | ⟨_, _, rfl⟩
    · exact hsuffix
    · exact hsuffix
  by_cases hzero : k.pmm.lastFreeFrame = ⟨0, 0⟩
  · have hhint : k.frameTaken.pmm.hasHint = false := by
      rw [Kernel.frameTaken, Pmm.pmmAllocFrame_zero hzero]
      rfl
    rcases hrest with ⟨rfl, rfl⟩ | ⟨_, hnone₂, rfl⟩
    · exact hkept (h.frameTaken.queue_lost hqueue hout ▸ List.suffix_refl _)
    · rcases Pmm.alloc_none hnone₂ with hused | ⟨_, hp, hfull⟩
      · -- frame 0 was free, and is used
        have hframe := (hsame.frames 0).symm.trans hused
        rw [h.running.pmm.zero_free hzero] at hframe
        cases hframe
      · refine hkept (h.queue_shrinks hqueue hhint (fun b hlo hhi => ?_) hout)
        rw [← hsame.frames b, Kernel.frameTaken, hp]
        exact hfull b hlo hhi
  · obtain ⟨_, hhint, hfull⟩ := h.no_frame hzero hnone
    exact hkept (h.queue_shrinks hqueue hhint hfull hout)

/-- With an empty queue, it loses a frame when the frame freed last is frame 0. -/
theorem allocFrameOrSwap_fails (h : EvictionSane k)
    (hrun : allocFrameOrSwap (link depth) k = .ok (pmmNoFrameAvailable, k')) :
    PagingAsBefore k k' ↔ k.pageFifoQueue = [] ∧ k.pmm.lastFreeFrame ≠ ⟨0, 0⟩ := by
  cases hqueue : k.pageFifoQueue with
  | cons node rest =>
      constructor
      · intro hsame
        exact absurd hsame (h.not_asBefore hqueue hrun)
      · rintro ⟨hnil, _⟩
        cases hnil
  | nil =>
      obtain ⟨hnone, out, k₂, hout, hrest⟩ := swapped_of_no_frame hrun
      have hempty : k.frameTaken.pageFifoQueue = [] := hqueue
      rw [swapOutSome_empty hempty] at hout
      obtain rfl : k' = k.frameTaken := by
        cases hout
        rcases hrest with ⟨_, hk'⟩ | ⟨hout, _⟩
        · exact hk'
        · cases hout
      constructor
      · refine fun hsame => ⟨rfl, fun hzero => ?_⟩
        have hframe := hsame.frames 0
        rw [Kernel.frameTaken, h.running.pmm.zero_free hzero] at hframe
        rcases Pmm.alloc_none hnone with hused | ⟨hhint, _⟩
        · rw [hused] at hframe
          cases hframe
        · rw [Pmm.hasHint_of_zero hzero] at hhint
          cases hhint
      · rintro ⟨_, hhint⟩
        rw [(h.no_frame hhint hnone).1]
        exact PagingAsBefore.refl k

/-- **A failed call leaves the paging state as it was exactly when the eviction queue was
empty and a call that asks for a frame was not to be given frame 0.** -/
theorem paging_failure_iff {asks : Bool} {call : Prog Kernel Bool}
    (hcall : PagingCall (link depth) asks call) (h : EvictionSane k)
    (hrun : call k = .ok (false, k')) :
    PagingAsBefore k k' ↔
      k.pageFifoQueue = [] ∧ (asks = true → k.pmm.lastFreeFrame ≠ ⟨0, 0⟩) := by
  cases hcall with
  | swapOutSome =>
      rw [swapOutSome_fails h hrun, and_iff_left (fun hasks => by cases hasks)]
  | swapIn e v =>
      rw [allocFrameOrSwap_fails h (no_frame_of_swapIn hrun), forall_prop_of_true rfl]
  | alloc e v =>
      rw [allocFrameOrSwap_fails h (no_frame_of_alloc h.shape hrun), forall_prop_of_true rfl]

/-- The oldest page, when it is not in memory, is dropped from the queue. -/
theorem swapOutSome_absent (h : EvictionSane k) (hqueue : k.pageFifoQueue = node :: rest)
    (hpresent : isPagePresent (k.pdeOf node.virAddr) = true)
    (habsent : isPagePresent (k.mem.load32 (k.pteAddr node.virAddr)) = false) :
    vmmSwapOutSomePage (link (depth + 1)) k = .ok (false, { k with pageFifoQueue := rest }) := by
  obtain ⟨k₀, hk₀⟩ : ∃ k₀, k₀ = { k with pageFifoQueue := rest } := ⟨_, rfl⟩
  have hsame : k.SameWalks k₀ := by
    rw [hk₀]
    exact ⟨rfl, rfl, rfl, rfl⟩
  obtain ⟨hlt, hin⟩ := h.head node (by rw [hqueue]; rfl)
  have hobject := h.nodes node (by rw [hqueue]; exact List.mem_cons_self)
  have hdequeue : pageFifoDequeue (link (depth + 1)) k = .ok (node.virAddr, k₀) := by
    have hshape : HeapShape k₀.heap := by
      rw [hk₀]
      exact h.shape
    rw [pageFifoDequeue, Prog.get_bind_apply, hqueue]
    simp only [Prog.modify_bind_apply]
    rw [← hk₀, (link_over depth).kfree, Prog.bind_of_ok (kfree_smallObject hshape hobject)]
    rfl
  rw [← hk₀, vmmSwapOutSomePage, Prog.bind_of_ok hdequeue]
  by_cases hzero : node.virAddr = 0
  · rw [if_pos hzero]
    rfl
  · have hdir := hsame.directoryIn h.running.dir
    have hentry : vmmGetPageEntry (link (depth + 1)) node.virAddr k₀ =
        .ok (windowAddr node.virAddr, k₀) := by
      apply vmmGetPageEntry_mapped (hsame.paging.trans h.running.translate_on) hdir.nonnull
      · rw [hdir.mapped _ (getDirectoryIndex_lt_of hlt), pdeAddr, hsame.dirFrame]
      · rw [hsame.pdeOf, hpresent]
      · rw [hsame.pdeOf, hin]
    have hptr : k₀.translate (windowAddr node.virAddr) = some (k.pteAddr node.virAddr) := by
      rw [hsame.translate]
      exact translate_windowAddr h.running.paged.recursive hlt hpresent
    rw [if_neg hzero, vmmSwapOutPage, Prog.bind_of_ok hentry, Prog.bind_of_ok (loadWord_mapped hptr),
      hsame.mem, habsent, if_pos rfl]
    rfl

end Calls

/-! ## A page that was unmapped and is still in the queue -/

/-- The page `0x4101000` is not in memory. -/
def unmappedNode : PageFifoNode := ⟨0x8000014, 0x4101000⟩

def queueKernel (p : Pmm) (queue : List PageFifoNode) : Kernel :=
  { pressedKernel with pmm := p, pageFifoQueue := queue }

section Queues

variable {p : Pmm} {queue : List PageFifoNode}

theorem queueKernel_pdeOf : (queueKernel p queue).pdeOf 0x4101000 = 0x101003 := by
  have hdir : (queueKernel p queue).dirFrame = 0x100000 :=
    (by decide : getFrameAddr 0x100000 = 0x100000)
  have hword := @pressedKernel_word (0x100000 + 4 * getDirectoryIndex 0x4101000) (by decide)
  rw [pdeOf, hdir, entryAt]
  show pressedKernel.mem.load32 _ = _
  rw [hword]
  decide

theorem queueKernel_sane (hp : PmmWfFrom 0 p) (hused : ∀ n, n ≠ 0 → p.pmmBitmap.bit n = true)
    (hqueue : ∀ n ∈ queue, n = unmappedNode) : EvictionSane (queueKernel p queue) where
  running := by
    have hwords : DirectoryWords pressedWords 0x100000 := by decide
    have hdir : (queueKernel p queue).dirFrame = 0x100000 :=
      (by decide : getFrameAddr 0x100000 = 0x100000)
    have htables : ∀ w ∈ pressedWords, 0x100000 ≤ w.1 → w.1 < 0x100000 + pageSize →
        isPagePresent w.2 = true → frameBit (getFrameAddr w.2) ≠ 0 := by decide
    exact hwords.running rfl hdir rfl
      (by decide : 0xFFFFF000 = getPageTableVirAddr recursivePageTableIndex) hp
      fun w hw hlo hhi hpresent => hused _ (htables w hw hlo hhi hpresent)
  slots_index := (by decide : 1 ≤ diskBitmapSize)
  shape :=
    { heap_low := (by decide : kernelBaseHeapAddr ≤ 0x4001000)
      heap_aligned := (by decide : 0x4001000 % pageSize = 0)
      objects := fun _ _ hslab => by cases hslab
      large_next := (by decide : 0x406C000 % pageSize = 0)
      large := fun _ ha => by cases ha }
  sane := pressedKernel_starved.sane
  nodes := fun n hn => by
    rw [hqueue n hn]
    exact (by decide : 2 * kernelBaseHeapAddr ≤ 0x8000014 ∧ 0x8000014 % 16 = 4)
  head := fun n hn => by
    rw [hqueue n (List.mem_of_head? hn), show unmappedNode.virAddr = 0x4101000 from rfl,
      queueKernel_pdeOf]
    decide

theorem queueKernel_swapOut
    (h : EvictionSane (queueKernel p [unmappedNode])) : vmmSwapOutSomePage (link 1)
      (queueKernel p [unmappedNode]) = .ok (false, queueKernel p []) := by
  refine swapOutSome_absent h rfl ?_ ?_
  · rw [show unmappedNode.virAddr = 0x4101000 from rfl, queueKernel_pdeOf]
    decide
  · have hword := @pressedKernel_word (getFrameAddr 0x101003 + 4 * getTableIndex 0x4101000)
      (by decide)
    rw [show unmappedNode.virAddr = 0x4101000 from rfl, pteAddr, queueKernel_pdeOf]
    show isPagePresent (pressedKernel.mem.load32 _) = false
    rw [hword]
    decide

/-- With an empty queue and no frame, `vmm_alloc_page` fails at once. -/
theorem queueKernel_alloc (hnone : p.pmmAllocFrame.1 = pmmNoFrameAvailable) :
    vmmAllocPage (link 1) 0xFFFFF000 0x4101000 (queueKernel p []) =
      .ok (false, (queueKernel p []).frameTaken) := by
  have hframe : allocFrameOrSwap (link 1) (queueKernel p []) =
      .ok (pmmNoFrameAvailable, (queueKernel p []).frameTaken) := by
    rw [allocFrameOrSwap, Prog.bind_of_ok (allocFrame_eq _),
      if_pos (show (queueKernel p []).pmm.pmmAllocFrame.1 = pmmNoFrameAvailable from hnone),
      Prog.bind_of_ok (swapOutSome_empty rfl)]
    rfl
  rw [vmmAllocPage, vmmAllocPermanentPage, Prog.bind_assoc_apply, Prog.bind_of_ok hframe, if_pos rfl]
  rfl

end Queues

theorem pressedPmm_bit (n : Nat) : pressedKernel.pmm.pmmBitmap.bit n = true := by
  have hbit : ∀ j, j < 8 → (0xFF#8).getLsbD j = true := by decide
  exact hbit _ (Nat.mod_lt _ (by decide))

/-- Frame 0 has been freed, and no other. -/
def zeroPmm : Pmm :=
  { pressedKernel.pmm with
    pmmBitmap := pmmMarkFree pressedKernel.pmm.pmmBitmap 0
    lastFreeFrame := ⟨0, 0⟩ }

theorem zeroPmm_bit (n : Nat) : zeroPmm.pmmBitmap.bit n = !decide (n = 0) := by
  rw [zeroPmm, pmmMarkFree, Bitmap.bit_markFree, pressedPmm_bit, Bool.and_true]
  rfl

theorem zeroPmm_wf : PmmWfFrom 0 zeroPmm :=
  ⟨fun _ => ⟨0, Nat.le_refl 0, by decide, rfl, zeroPmm_bit 0⟩, by decide, by decide⟩

/-- The queue is empty and every frame used: nothing is lost. -/
theorem paging_failure_nothing_queued : ∃ k', vmmAllocPage (link 1) 0xFFFFF000 0x4101000
      (queueKernel pressedKernel.pmm []) = .ok (false, k') ∧
    PagingAsBefore (queueKernel pressedKernel.pmm []) k' := by
  have hsane : EvictionSane (queueKernel pressedKernel.pmm []) :=
    queueKernel_sane (pressedKernel_starved.wf.mono (Nat.zero_le 8)) (fun n _ => pressedPmm_bit n)
      fun n hn => by cases hn
  have hrun := allocFrame_starved _ pressedKernel_starved.starvedFrom _ _ (allocFrame_eq _)
  exact ⟨_, queueKernel_alloc hrun.1, (paging_failure_iff (.alloc _ _) hsane
    (queueKernel_alloc hrun.1)).mpr ⟨rfl, fun _ => by decide⟩⟩

/-- The page leaves the queue although the call reports that nothing was swapped out;
and when frame 0 has been freed, it is used after a call that reports no frame. -/
theorem paging_failure_loses :
    (∃ k', EvictionSane (queueKernel pressedKernel.pmm [unmappedNode]) ∧
      vmmSwapOutSomePage (link 1) (queueKernel pressedKernel.pmm [unmappedNode]) =
        .ok (false, k') ∧
      ¬ PagingAsBefore (queueKernel pressedKernel.pmm [unmappedNode]) k') ∧
    ∃ k', EvictionSane (queueKernel zeroPmm []) ∧ vmmAllocPage (link 1) 0xFFFFF000 0x4101000
        (queueKernel zeroPmm []) = .ok (false, k') ∧
      ¬ PagingAsBefore (queueKernel zeroPmm []) k' := by
  have hqueued : EvictionSane (queueKernel pressedKernel.pmm [unmappedNode]) :=
    queueKernel_sane (pressedKernel_starved.wf.mono (Nat.zero_le 8)) (fun n _ => pressedPmm_bit n)
      fun n hn => List.mem_singleton.mp hn
  have hzero : EvictionSane (queueKernel zeroPmm []) :=
    queueKernel_sane zeroPmm_wf (fun n hn => by rw [zeroPmm_bit, decide_eq_false hn]; rfl)
      fun n hn => by cases hn
  refine ⟨⟨_, hqueued, queueKernel_swapOut hqueued, not_asBefore_of_suffix rfl List.nil_suffix⟩,
    _, hzero, queueKernel_alloc (by rw [Pmm.pmmAllocFrame_zero rfl]), fun hsame => ?_⟩
  have hused : zeroPmm.pmmAllocFrame.2.pmmBitmap.bit 0 = true := by
    rcases Pmm.alloc_none (p := zeroPmm) (by rw [Pmm.pmmAllocFrame_zero rfl]) with hused | ⟨hhint, _⟩
    · exact hused
    · cases hhint
  have hframe := (hsame.frames 0).symm.trans hused
  rw [show (queueKernel zeroPmm []).pmm = zeroPmm from rfl, zeroPmm_bit] at hframe
  cases hframe

end MyOs
