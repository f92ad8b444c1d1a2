import MyOs.Logic.LargeBlocks
import MyOs.Memory.HeapCalls
import Mathlib.Data.List.Pairwise

/-!
# The heap across its calls

What holds between the calls of a run: the pages that are mapped for large blocks are
those of the blocks that have a record, and each live block is an object that was taken
or a block with a record (`HeapRunning`). A call keeps this when a large request can be
rounded up and its block ends below the slabs (`LargeFits`).
-/

namespace MyOs

/-- The page is one of a large block's. -/
def InBlock (h : Heap) (u : Nat) : Prop :=
  ∃ a ∈ h.largeAllocations, BlockPages a.ptr (alignedSize a.size / pageSize) u

/-- The live blocks are blocks of the heap, and apart from its records. -/
structure LiveIn (h : Heap) (live : List (Nat × Nat)) : Prop where
  large : ∀ b ∈ live, maxCacheSize < b.2 → ∃ a ∈ h.largeAllocations, a.ptr = b.1 ∧ a.size = b.2
  small : ∀ b ∈ live, b.2 ≤ maxCacheSize → ∃ i, getCache b.2 = some i ∧ h.Taken i b.1
  nodes : ∀ a ∈ h.largeAllocations, h.Taken 0 a.node
  node_ne : ∀ b ∈ live, b.2 ≤ maxCacheSize → ∀ a ∈ h.largeAllocations, b.1 ≠ a.node
  distinct : live.Pairwise fun b b' => b.1 ≠ b'.1

/-- The state between two calls. -/
structure HeapRunning (s : HeapState) : Prop where
  pages : s.kernel.PagesArea (InBlock s.kernel.heap)
  slabs : s.kernel.SlabsArea
  live : LiveIn s.kernel.heap s.live

/-- A large request can be rounded up to pages, and those of its pages that can get a
frame lie below the slabs. -/
def LargeFits (s : HeapState) : HeapCall → Prop
  | .kmalloc size => maxCacheSize < size → size ≤ 0xFFFFF000 ∧
      ∃ g, s.kernel.PagesGot s.kernel.heap.currentLargeHeapAddr (alignedSize size / pageSize) g ∧
        s.kernel.heap.currentLargeHeapAddr + g * pageSize ≤ 2 * kernelBaseHeapAddr
  | .kfree _ => True

/-! ## Sizes -/

/-- A size that can be rounded up. -/
theorem alignedSize_of_le {size : Nat} (hpos : 0 < size) (hle : size ≤ 0xFFFFF000) :
    size ≤ alignedSize size ∧ alignedSize size ≠ 0 ∧
      alignedSize size = alignedSize size / pageSize * pageSize := by
  have hround : u32 (size + pageSize - 1) = size + 4095 := by
    rw [u32_of_lt (by simp only [pageSize]; omega)]
    rfl
  rw [alignedSize, hround]
  simp only [pageSize]
  omega

theorem getCache_of_le {size : Nat} (hle : size ≤ maxCacheSize) : ∃ i, getCache size = some i := by
  cases h : getCache size with
  | some i => exact ⟨i, rfl⟩
  | none =>
      have hlast := List.find?_eq_none.mp h 7 (by decide)
      exact absurd (decide_eq_true (show cacheObjectSize 7 ≥ size from hle)) hlast

/-! ## The lists -/

section Lists

variable {h h' : Heap} {live : List (Nat × Nat)} {i o : Nat}

/-- `current_large_heap_addr` moves up. -/
theorem HeapLayout.bump (hl : HeapLayout h) {size : Nat}
    (hend : h.currentLargeHeapAddr + alignedSize size ≤ 2 * kernelBaseHeapAddr) :
    HeapLayout { h with currentLargeHeapAddr := h.currentLargeHeapAddr + alignedSize size } :=
  { hl with
    large_low := Nat.le_trans hl.large_low (Nat.le_add_right _ _)
    large_high := hend
    large_aligned := by
      show (h.currentLargeHeapAddr + alignedSize size) % pageSize = 0
      rw [alignedSize, Nat.add_mul_mod_self_right]
      exact hl.large_aligned
    block := fun a ha => by
      obtain ⟨h₁, h₂, h₃, h₄, h₅⟩ := hl.block a ha
      exact ⟨h₁, h₂, h₃, h₄, Nat.le_trans h₅ (Nat.le_add_right _ _)⟩ }

/-- A record of a block behind the others. -/
theorem HeapLayout.insert (hl : HeapLayout h) {a : LargeAlloc}
    (hlow : kernelBaseHeapAddr + kernelHeapSize ≤ a.ptr) (haligned : a.ptr % pageSize = 0)
    (hle : a.size ≤ alignedSize a.size) (hne : alignedSize a.size ≠ 0)
    (hend : a.ptr + alignedSize a.size ≤ h.currentLargeHeapAddr)
    (hlast : ∀ b ∈ h.largeAllocations, b.ptr + alignedSize b.size ≤ a.ptr) :
    HeapLayout (h.insertLargeAlloc a) := by
  refine { hl with block := fun b hb => ?_, blocks_apart := ?_ }
  · rcases List.mem_cons.mp hb with rfl | hold
    · exact ⟨hlow, haligned, hle, hne, hend⟩
    · exact hl.block b hold
  · exact List.pairwise_cons.mpr ⟨fun b hb => .inr (hlast b hb), hl.blocks_apart⟩

/-- Removing a record. -/
theorem HeapLayout.remove (hl : HeapLayout h) (ptr : Nat) : HeapLayout (h.largeAllocRemove ptr) :=
  { hl with
    block := fun a ha => hl.block a (List.mem_of_mem_eraseP ha)
    blocks_apart := hl.blocks_apart.sublist (List.eraseP_sublist) }

/-- Two blocks lie apart. -/
theorem HeapLayout.block_apart (hl : HeapLayout h) {a b : LargeAlloc} (ha : a ∈ h.largeAllocations)
    (hb : b ∈ h.largeAllocations) (hne : a ≠ b) :
    a.ptr + alignedSize a.size ≤ b.ptr ∨ b.ptr + alignedSize b.size ≤ a.ptr := by
  have hsymm : Std.Symm fun a b : LargeAlloc =>
      a.ptr + alignedSize a.size ≤ b.ptr ∨ b.ptr + alignedSize b.size ≤ a.ptr :=
    ⟨fun _ _ => Or.symm⟩
  exact hl.blocks_apart.forall ha hb hne

/-- So two blocks at one address are one. -/
theorem HeapLayout.block_eq (hl : HeapLayout h) {a b : LargeAlloc} (ha : a ∈ h.largeAllocations)
    (hb : b ∈ h.largeAllocations) (hptr : a.ptr = b.ptr) : a = b := by
  by_cases hab : a = b
  · exact hab
  · have hapart := hl.block_apart ha hb hab
    have hne := (hl.block a ha).2.2.2.1
    have hne' := (hl.block b hb).2.2.2.1
    omega

/-- The record of a large block is found by its address. -/
theorem HeapLayout.getLargeAllocByPtr (hl : HeapLayout h) {a : LargeAlloc}
    (ha : a ∈ h.largeAllocations) : h.getLargeAllocByPtr a.ptr = some a := by
  cases hfind : h.getLargeAllocByPtr a.ptr with
  | none =>
      have hnot := List.find?_eq_none.mp hfind a ha
      exact absurd (decide_eq_true rfl) hnot
  | some b =>
      have hb := List.mem_of_find?_eq_some hfind
      have hptr := List.find?_some hfind
      rw [hl.block_eq hb ha (of_decide_eq_true hptr)]

/-- Removing it leaves exactly the others. -/
theorem HeapLayout.mem_largeAllocRemove (hl : HeapLayout h) {a b : LargeAlloc}
    (ha : a ∈ h.largeAllocations) :
    b ∈ (h.largeAllocRemove a.ptr).largeAllocations ↔ b ∈ h.largeAllocations ∧ b ≠ a := by
  obtain ⟨a', before, after, _, hptr, heq, herase⟩ :=
    List.exists_of_eraseP (p := fun b : LargeAlloc => decide (b.ptr = a.ptr)) ha (decide_eq_true rfl)
  have ha' : a' ∈ h.largeAllocations := by
    rw [heq]
    exact List.mem_append_right _ List.mem_cons_self
  obtain rfl := hl.block_eq ha' ha (of_decide_eq_true hptr)
  have hapart := hl.blocks_apart
  have hne := (hl.block a' ha).2.2.2.1
  rw [heq] at hapart
  obtain ⟨_, hcons, hbefore⟩ := List.pairwise_append.mp hapart
  show b ∈ h.largeAllocations.eraseP _ ↔ _
  rw [herase, heq, List.mem_append, List.mem_append, List.mem_cons]
  constructor
  · rintro (hb | hb)
    · refine ⟨.inl hb, ?_⟩
      rintro rfl
      have := hbefore b hb b List.mem_cons_self
      omega
    · refine ⟨.inr (.inr hb), ?_⟩
      rintro rfl
      have := (List.pairwise_cons.mp hcons).1 b hb
      omega
  · rintro ⟨hb | heq | hb, hba⟩
    · exact .inl hb
    · exact absurd heq hba
    · exact .inr hb

theorem inBlock_congr (heq : h'.largeAllocations = h.largeAllocations) (u : Nat) :
    InBlock h' u ↔ InBlock h u := by rw [InBlock, InBlock, heq]

/-- A page of a block is below the next block. -/
theorem HeapLayout.inBlock_lt (hl : HeapLayout h) {u : Nat} (hu : InBlock h u) :
    u < h.currentLargeHeapAddr := by
  obtain ⟨a, ha, j, hj, rfl⟩ := hu
  have hend := (hl.block a ha).2.2.2.2
  have hmul : (j + 1) * pageSize ≤ alignedSize a.size / pageSize * pageSize :=
    Nat.mul_le_mul_right _ hj
  have hdiv := Nat.div_mul_le_self (alignedSize a.size) pageSize
  simp only [pageSize] at hmul hdiv ⊢
  omega

/-- The pages of a new block are added. -/
theorem inBlock_insert (a : LargeAlloc) (u : Nat) : InBlock (h.insertLargeAlloc a) u ↔
    BlockPages a.ptr (alignedSize a.size / pageSize) u ∨ InBlock h u := by
  constructor
  · rintro ⟨b, hb, hu⟩
    rcases List.mem_cons.mp hb with rfl | hold
    · exact .inl hu
    · exact .inr ⟨b, hold, hu⟩
  · rintro (hu | ⟨b, hb, hu⟩)
    · exact ⟨a, List.mem_cons_self, hu⟩
    · exact ⟨b, List.mem_cons_of_mem _ hb, hu⟩

/-- Pages of two blocks are different. -/
theorem HeapLayout.blockPages_eq (hl : HeapLayout h) {a b : LargeAlloc} {u : Nat}
    (ha : a ∈ h.largeAllocations) (hb : b ∈ h.largeAllocations)
    (hu : BlockPages a.ptr (alignedSize a.size / pageSize) u)
    (hu' : BlockPages b.ptr (alignedSize b.size / pageSize) u) : a = b := by
  by_cases hab : a = b
  · exact hab
  · have hapart := hl.block_apart ha hb hab
    obtain ⟨j, hj, rfl⟩ := hu
    obtain ⟨j', hj', heq⟩ := hu'
    have hmul : (j + 1) * pageSize ≤ alignedSize a.size / pageSize * pageSize :=
      Nat.mul_le_mul_right _ hj
    have hmul' : (j' + 1) * pageSize ≤ alignedSize b.size / pageSize * pageSize :=
      Nat.mul_le_mul_right _ hj'
    have hdiv := Nat.div_mul_le_self (alignedSize a.size) pageSize
    have hdiv' := Nat.div_mul_le_self (alignedSize b.size) pageSize
    simp only [pageSize] at hmul hmul' hdiv hdiv' heq
    omega

/-- The pages of the removed block are none any more. -/
theorem HeapLayout.inBlock_remove (hl : HeapLayout h) {a : LargeAlloc}
    (ha : a ∈ h.largeAllocations) (u : Nat) : InBlock (h.largeAllocRemove a.ptr) u ↔
      ¬ BlockPages a.ptr (alignedSize a.size / pageSize) u ∧ InBlock h u := by
  constructor
  · rintro ⟨b, hb, hu⟩
    obtain ⟨hb, hne⟩ := (hl.mem_largeAllocRemove ha).mp hb
    exact ⟨fun hua => hne (hl.blockPages_eq hb ha hu hua), b, hb, hu⟩
  · rintro ⟨hnot, b, hb, hu⟩
    refine ⟨b, (hl.mem_largeAllocRemove ha).mpr ⟨hb, ?_⟩, hu⟩
    rintro rfl
    exact hnot hu

/-! ## The live blocks -/

/-- Taking an object leaves the live blocks, and the object is none of them. -/
theorem LiveIn.take (hlive : LiveIn h live) (hl : HeapLayout h) (ht : h.Take i o h') :
    LiveIn h' live ∧ (∀ b ∈ live, b.2 ≤ maxCacheSize → b.1 ≠ o) ∧
      ∀ a ∈ h.largeAllocations, a.node ≠ o := by
  refine ⟨?_, fun b hb hle => ?_, fun a ha => (hl.taken_take ht (hlive.nodes a ha)).2⟩
  · refine
      { large := fun b hb hlt => ?_
        small := fun b hb hle => ?_
        nodes := fun a ha => ?_
        node_ne := fun b hb hle a ha => ?_
        distinct := hlive.distinct }
    · rw [ht.large.2]
      exact hlive.large b hb hlt
    · obtain ⟨j, hj, htaken⟩ := hlive.small b hb hle
      exact ⟨j, hj, (hl.taken_take ht htaken).1⟩
    · rw [ht.large.2] at ha
      exact (hl.taken_take ht (hlive.nodes a ha)).1
    · rw [ht.large.2] at ha
      exact hlive.node_ne b hb hle a ha
  · obtain ⟨j, _, htaken⟩ := hlive.small b hb hle
    exact (hl.taken_take ht htaken).2

theorem LiveIn.takes {n : Nat} (hlive : LiveIn h live) (hl : HeapLayout h)
    (ht : Heap.Takes n h h') : LiveIn h' live := by
  induction ht with
  | done h => exact hlive
  | next htake _ ih => exact ih (hlive.take hl htake).1 (hl.take htake)

/-- Where a live block starts. -/
theorem LiveIn.place (hlive : LiveIn h live) (hl : HeapLayout h) {b : Nat × Nat} (hb : b ∈ live) :
    b.1 < h.currentLargeHeapAddr ∨ 2 * kernelBaseHeapAddr ≤ b.1 := by
  by_cases hle : b.2 ≤ maxCacheSize
  · obtain ⟨j, _, s, hs, hobject, _⟩ := hlive.small b hb hle
    have hpage := hl.slab_page j s hs
    exact .inr (slabObjects_small hpage.2.1 hpage.1 hobject).1
  · obtain ⟨a, ha, hptr, _⟩ := hlive.large b hb (Nat.lt_of_not_le hle)
    have hblock := hl.block a ha
    left
    rw [← hptr]
    omega

end Lists

/-! ## Small blocks -/

namespace Kernel

section Calls

variable {ext : Ext} {k k' : Kernel} {M : Nat → Prop} {depth g size ptr : Nat}

theorem PagesArea.kmalloc_small (ha : k.PagesArea M) (hs : k.SlabsArea) (hle : size ≤ maxCacheSize)
    (hrun : kmalloc ext size k = .ok (ptr, k')) :
    ∃ i, getCache size = some i ∧ k.ObjectTaken i ptr k' := by
  obtain ⟨i, hi⟩ := getCache_of_le hle
  rw [kmalloc, if_neg (Nat.not_lt.mpr hle), hi] at hrun
  exact ⟨i, hi, allocFromCache_taken ha.running (ha.slabsReady hs) (getCache_eq_some hi).1 hrun⟩

/-! ## Large blocks -/

/-- What a large request of which at most `g` pages get a frame does to the heap: some
tables are queued, and the block gets a record if it has all its pages. -/
inductive LargeResult (k : Kernel) (size g : Nat) : Nat → Heap → Prop
  | null {m : Nat} {h : Heap} : m ≤ k.newTables k.heap.currentLargeHeapAddr g →
      Heap.Takes m k.heap h → LargeResult k size g 0 h
  | block {m node : Nat} {h h' : Heap} : g = alignedSize size / pageSize →
      m ≤ k.newTables k.heap.currentLargeHeapAddr g → Heap.Takes m k.heap h →
      ({ h with currentLargeHeapAddr := h.currentLargeHeapAddr + alignedSize size } : Heap).Take 0
        node h' →
      LargeResult k size g k.heap.currentLargeHeapAddr
        (h'.insertLargeAlloc ⟨node, size, k.heap.currentLargeHeapAddr⟩)

/-- Changing the heap's lists and nothing else. -/
theorem PagesArea.setHeap (ha : k.PagesArea M) (h : Heap) : ({ k with heap := h } : Kernel).PagesArea M := by
  have hsame : k.SameWalks { k with heap := h } := ⟨rfl, rfl, rfl, rfl⟩
  exact ha.step (hsame.areaStep fun _ hg => hg) (fun _ _ hf => hf) (hsame.running rfl ha.running)

theorem SlabsArea.setHeap (hs : k.SlabsArea) {h : Heap} (hl : HeapLayout h)
    (hrecords : ∀ a ∈ h.largeAllocations, SmallObject a.node) (hslabs : h.slabs = k.heap.slabs) :
    ({ k with heap := h } : Kernel).SlabsArea where
  layout := hl
  nodes := hs.nodes
  records := hrecords
  table := hs.table
  mapped := fun i s hmem => by
    have hsame : k.SameWalks { k with heap := h } := ⟨rfl, rfl, rfl, rfl⟩
    rw [hsame.translate]
    refine hs.mapped i s ?_
    rw [← hslabs]
    exact hmem

/-- A large request that fits. -/
theorem PagesArea.kmallocLarge (ha : k.PagesArea (InBlock k.heap)) (hs : k.SlabsArea)
    (hpos : 0 < size) (hle : size ≤ 0xFFFFF000)
    (hgot : k.PagesGot k.heap.currentLargeHeapAddr (alignedSize size / pageSize) g)
    (hfit : k.heap.currentLargeHeapAddr + g * pageSize ≤ 2 * kernelBaseHeapAddr)
    (hrun : kmallocLarge (link (depth + 1)) size k = .ok (ptr, k')) :
    k'.PagesArea (InBlock k'.heap) ∧ k'.SlabsArea ∧ k.LargeResult size g ptr k'.heap := by
  obtain ⟨hsize, hne, hpages⟩ := alignedSize_of_le hpos hle
  rw [MyOs.kmallocLarge] at hrun
  obtain ⟨b, k₁, hmap, hrest⟩ := Prog.bind_eq_ok.mp hrun
  have hzero : k.PagesArea fun u => BlockPages k.heap.currentLargeHeapAddr 0 u ∨ InBlock k.heap u :=
    ha.congr fun v _ => ⟨fun h => h.resolve_left (blockPages_zero _ v), .inr⟩
  obtain ⟨m, hm, htakes, hall, hs₁, ha₁⟩ := PagesArea.mapLargePages _ 0 g k hzero hs rfl hgot.le
    (by rw [Nat.zero_add]; exact hfit) hgot.few (fun u hu => hs.layout.inBlock_lt hu) hmap
  obtain ⟨hlarge, hrecords⟩ := htakes.large
  cases b with
  | false =>
      rw [if_pos rfl] at hrest
      cases hrest
      refine ⟨ha₁.congr fun v _ => ?_, hs₁, .null hm htakes⟩
      rw [inBlock_congr hrecords]
      exact ⟨.inr, fun h => h.resolve_left fun hf => Bool.false_ne_true hf.1⟩
  | true =>
      have hg := hall rfl
      have hend : k.heap.currentLargeHeapAddr + alignedSize size ≤ 2 * kernelBaseHeapAddr := by
        rw [hg, ← hpages] at hfit
        exact hfit
      have hbump : u32 (k.heap.currentLargeHeapAddr + alignedSize size) =
          k.heap.currentLargeHeapAddr + alignedSize size := by
        rw [kernelBaseHeapAddr_eq] at hend
        exact u32_of_lt (by omega)
      rw [if_neg (by decide), Prog.get_bind_apply, Prog.modify_bind_apply, hlarge, hbump] at hrest
      rw [Nat.zero_add] at ha₁
      have hl₁ := hs₁.layout
      have hl₂ : HeapLayout { k₁.heap with
          currentLargeHeapAddr := k₁.heap.currentLargeHeapAddr + alignedSize size } :=
        hl₁.bump (by rw [hlarge]; exact hend)
      rw [hlarge] at hl₂
      obtain ⟨k₂, hk₂⟩ : ∃ k₂ : Kernel, k₂ = { k₁ with heap := { k₁.heap with
          currentLargeHeapAddr := k.heap.currentLargeHeapAddr + alignedSize size } } := ⟨_, rfl⟩
      have ha₂ := ha₁.setHeap { k₁.heap with
          currentLargeHeapAddr := k.heap.currentLargeHeapAddr + alignedSize size }
      have hs₂ := hs₁.setHeap hl₂ hs₁.records rfl
      have hheap₂ : k₂.heap = { k₁.heap with
          currentLargeHeapAddr := k.heap.currentLargeHeapAddr + alignedSize size } := by rw [hk₂]
      rw [← hk₂] at ha₂ hs₂ hrest
      -- the record
      obtain ⟨_, k₄, hrecord, hret⟩ := Prog.bind_eq_ok.mp hrest
      cases hret
      rw [recordLargeAlloc] at hrecord
      obtain ⟨node, k₃, hnode, hinsert⟩ := Prog.bind_eq_ok.mp hrecord
      rw [(link_over depth).kmalloc] at hnode
      obtain ⟨i, hi, htaken⟩ := ha₂.kmalloc_small hs₂ (by decide) hnode
      rw [show getCache largeAllocSize = some 0 by decide] at hi
      cases hi
      obtain ⟨ha₃, hs₃⟩ := ha₂.taken hs₂ htaken
      have hsmall := hs₂.layout.object_small htaken.take
      by_cases hnull : node = 0
      · rw [if_pos hnull] at hinsert
        cases hinsert
      · rw [if_neg hnull] at hinsert
        cases hinsert
        have htake := htaken.take
        obtain ⟨hlarge₃, hrecords₃⟩ := htake.large
        rw [hheap₂] at hlarge₃ hrecords₃ htake
        have hlayout : HeapLayout (k₃.heap.insertLargeAlloc ⟨node, size, k.heap.currentLargeHeapAddr⟩) := by
          refine hs₃.layout.insert hs.layout.large_low hs.layout.large_aligned hsize hne ?_ fun b hb => ?_
          · rw [hlarge₃]
          · rw [hrecords₃, hrecords] at hb
            exact (hs.layout.block b hb).2.2.2.2
        refine ⟨(ha₃.setHeap _).congr fun v _ => ?_, hs₃.setHeap hlayout (fun a ha => ?_) rfl, ?_⟩
        · show InBlock (k₃.heap.insertLargeAlloc _) v ↔ _
          rw [inBlock_insert, inBlock_congr (hrecords₃.trans hrecords)]
          simp only [true_and]
        · rcases List.mem_cons.mp ha with rfl | hold
          · exact hsmall
          · exact hs₃.records a hold
        · refine .block hg hm htakes ?_
          rw [hlarge]
          exact htake

/-! ## Freeing -/

/-- A large block that is not at the end of the reserved heap is unmapped, and its
record removed. -/
theorem PagesArea.kfree_large (ha : k.PagesArea (InBlock k.heap)) (hs : k.SlabsArea)
    {a : LargeAlloc} (hmem : a ∈ k.heap.largeAllocations)
    (hedge : a.ptr ≠ kernelBaseHeapAddr + kernelHeapSize) :
    ∃ k₁, k.BlockUnmapped a.ptr (alignedSize a.size / pageSize) k₁ ∧
      kfree (link (depth + 1)) a.ptr k =
        .ok ((), { k₁ with heap := k₁.heap.largeAllocRemove a.ptr }) ∧
      ({ k₁ with heap := k₁.heap.largeAllocRemove a.ptr } : Kernel).PagesArea
        (InBlock (k₁.heap.largeAllocRemove a.ptr)) ∧
      ({ k₁ with heap := k₁.heap.largeAllocRemove a.ptr } : Kernel).SlabsArea := by
  obtain ⟨hlow, haligned, _, _, hend⟩ := hs.layout.block a hmem
  have hhigh := hs.layout.large_high
  have hdiv := Nat.div_mul_le_self (alignedSize a.size) pageSize
  have hfit : a.ptr + alignedSize a.size / pageSize * pageSize ≤ 2 * kernelBaseHeapAddr := by omega
  have hpage : ∀ j (s : Kernel), j < alignedSize a.size / pageSize → s.heap = k.heap →
      u32 (a.ptr + j * pageSize) = a.ptr + j * pageSize := fun j _ hj _ =>
    u32_of_lt (largePage_of_block hlow haligned hfit hj).lt
  obtain ⟨k₁, hunmap, hblock, ha₁, hs₁⟩ := @PagesArea.unmapPages (link (depth + 1)) _ _ _ _ ha hs _
    hpage hlow haligned hfit fun j hj => ⟨a, hmem, j, hj, rfl⟩
  have hmem₁ : a ∈ k₁.heap.largeAllocations := by rw [hblock.heap]; exact hmem
  have hs₂ := hs₁.setHeap (hs₁.layout.remove a.ptr)
    (fun b hb => hs₁.records b (List.mem_of_mem_eraseP hb)) rfl
  refine ⟨k₁, hblock, ?_, (ha₁.setHeap _).congr fun v _ => ?_, hs₂⟩
  · have hnull : a.ptr ≠ 0 := by
      rw [kernelBaseHeapAddr_eq] at hlow
      omega
    have hwindow : isSlabWindow a.ptr = false := by
      rw [isSlabWindow, Bool.and_eq_false_iff]
      exact .inr (decide_eq_false (by omega))
    rw [kfree, if_neg hnull, hwindow, if_neg (by decide), kmallocLargeFree, Prog.get_bind_apply,
      hs.layout.getLargeAllocByPtr hmem]
    simp only
    rw [Prog.bind_of_ok hunmap, Prog.modify_bind_apply, (link_over depth).kfree]
    exact kfree_smallObject hs₂.layout.shape (hs.records a hmem)
  · rw [hs₁.layout.inBlock_remove hmem₁, hblock.heap]

/-- Writing in the page of a large block is seen by no walk. -/
theorem PagesArea.setMem (ha : k.PagesArea M) (hs : k.SlabsArea) {f : Nat} (hf : k.BlockFrame f)
    {mem : ByteStore} (hmem : ∀ a, a / pageSize ≠ f / pageSize → mem a = k.mem a) :
    (k.setMem mem).PagesArea M ∧ (k.setMem mem).SlabsArea ∧
      ∀ u, u < 2 ^ 32 → (k.setMem mem).translate u = k.translate u := by
  have hr := ha.running
  have hroot := k.setMem_root mem
  have hword : ∀ t, t % pageSize = 0 → t ≠ f → ∀ j, j < 1024 →
      mem.load32 (t + 4 * j) = k.mem.load32 (t + 4 * j) := by
    intro t ht hne j hj
    have haligned := hf.aligned
    refine ByteStore.load32_congr fun b hb => hmem _ ?_
    simp only [pageSize] at ht haligned ⊢
    omega
  have hdir : k.dirFrame ≠ f := by
    have hself := hf.not_table _ (by decide) hr.paged.recursive.present
    rw [hr.paged.recursive.frame] at hself
    exact hself
  have hsame : k.SameTables (k.setMem mem) :=
    ⟨hroot, fun i hi => hword k.dirFrame k.dirFrame_aligned hdir i hi⟩
  have htranslate : ∀ u, u < 2 ^ 32 → (k.setMem mem).translate u = k.translate u := by
    intro u hu
    rw [translate_words, translate_words, hsame.paging, hsame.pdeOf hu, hsame.pteAddr hu]
    cases hpde : isPagePresent (k.pdeOf u) with
    | false => simp only [Bool.false_eq_true, if_false]
    | true =>
        have hpte : (k.setMem mem).mem.load32 (k.pteAddr u) = k.mem.load32 (k.pteAddr u) :=
          hword _ (getFrameAddr_aligned _) (hf.not_table _ (getDirectoryIndex_lt_of hu) hpde) _
            (getTableIndex_lt u)
        rw [hpte]
  have hpmm : (k.setMem mem).pmm = k.pmm := setMem_pmm _ _
  have hstep : k.AreaStep (fun _ => False) (k.setMem mem) :=
    ⟨hsame.tableStep (used_of_pmm hpmm), fun u hu _ _ => htranslate u hu⟩
  have hrunning : (k.setMem mem).Running := by
    refine hr.of_keepsMaps hroot (hsame.paged hr.paged) (by rw [hpmm]; exact hr.pmm)
      (fun i hi hp => ?_) fun u x hu hx => by rw [htranslate u hu, hx]
    rw [hsame.entries i hi] at hp ⊢
    exact used_of_pmm hpmm _ (hr.tables_used i hi hp)
  exact ⟨ha.step hstep (fun _ _ h => h) hrunning,
    hs.step hstep (fun _ _ _ h => h) (setMem_heap _ _) (setMem_queue _ _), htranslate⟩

/-- A page is mapped as a whole, to the whole of its frame. -/
theorem PagesArea.translate_inside (ha : k.PagesArea M) {x v f : Nat} (hv : v % pageSize = 0)
    (hf : k.translate v = some f) (hpage : x / pageSize = v / pageSize) :
    k.translate x = some (f + x % pageSize) := by
  rw [translate_page ha.running.translate_on hpage hf, getFrameOffset_eq, getFrameOffset_eq, hv,
    Nat.sub_zero]

/-- `slab_free` on a large block's page writes in that page and nowhere else. -/
theorem PagesArea.slabFree (ha : k.PagesArea M) (hs : k.SlabsArea) (hpage : LargePage ptr)
    (hM : M ptr) :
    ∃ f mem, k.translate ptr = some f ∧ slabFree ext ptr k = .ok ((), k.setMem mem) ∧
      (k.setMem mem).PagesArea M ∧ (k.setMem mem).SlabsArea ∧
      ∀ a, a / pageSize ≠ f / pageSize → mem a = k.mem a := by
  obtain ⟨f, hf⟩ := (ha.mapped ptr hpage).mp hM
  have hframe := ha.frame ptr f hpage hf
  have hlt := hpage.2.1
  have haligned := hpage.2.2
  rw [kernelBaseHeapAddr_eq] at hlt
  have hstart : ptr / pageSize * pageSize = ptr := by
    simp only [pageSize] at haligned ⊢
    omega
  have hinside : ∀ n, n < pageSize → k.translate (ptr + n) = some (f + n) := by
    intro n hn
    have hoffset : (ptr + n) % pageSize = n := by
      simp only [pageSize] at haligned hn ⊢
      omega
    have hpage' : (ptr + n) / pageSize = ptr / pageSize := by
      simp only [pageSize] at haligned hn ⊢
      omega
    rw [ha.translate_inside haligned hf hpage', hoffset]
  have hstore : ∀ (mem : ByteStore) (n w : Nat), n + 4 ≤ pageSize →
      (∀ a, a / pageSize ≠ f / pageSize → mem a = k.mem a) →
      ∀ a, a / pageSize ≠ f / pageSize → (mem.store32 (f + n) w) a = k.mem a := by
    intro mem n w hn hmem a hne
    have hfa := hframe.aligned
    rw [← hmem a hne]
    refine ByteStore.store_outside ?_
    change a < f + n ∨ f + n + 4 ≤ a
    simp only [pageSize] at hfa hn hne
    omega
  have hmoved : ∀ mem, (∀ a, a / pageSize ≠ f / pageSize → mem a = k.mem a) → ∀ n, n < pageSize →
      (k.setMem mem).translate (ptr + n) = some (f + n) := by
    intro mem hmem n hn
    rw [(ha.setMem hs hframe hmem).2.2 _ (by simp only [pageSize] at hn; omega)]
    exact hinside n hn
  have h₀ : ∀ a, a / pageSize ≠ f / pageSize → k.mem a = k.mem a := fun _ _ => rfl
  obtain ⟨m₁, hm₁⟩ : ∃ m, m = k.mem.store32 (f + 0) (k.mem.load32 (f + 4)) := ⟨_, rfl⟩
  have h₁ := hstore k.mem 0 (k.mem.load32 (f + 4)) (by decide) h₀
  rw [← hm₁] at h₁
  obtain ⟨m₂, hm₂⟩ : ∃ m, m = m₁.store32 (f + 4) ptr := ⟨_, rfl⟩
  have h₂ := hstore m₁ 4 ptr (by decide) h₁
  rw [← hm₂] at h₂
  obtain ⟨m₃, hm₃⟩ : ∃ m, m = m₂.store32 (f + 12) (u32 (m₂.load32 (f + 12) + 1)) := ⟨_, rfl⟩
  have h₃ := hstore m₂ 12 (u32 (m₂.load32 (f + 12) + 1)) (by decide) h₂
  rw [← hm₃] at h₃
  refine ⟨f, m₃, hf, ?_, (ha.setMem hs hframe h₃).1, (ha.setMem hs hframe h₃).2.1, h₃⟩
  have hload : loadWord ext (ptr + 4) k = .ok (k.mem.load32 (f + 4), k) :=
    loadWord_mapped (hinside 4 (by decide))
  have hfirst : storeWord ext ptr (k.mem.load32 (f + 4)) k = .ok ((), k.setMem m₁) := by
    rw [hm₁]
    exact storeWord_mapped (hinside 0 (by decide)) _
  have hsecond : storeWord ext (ptr + 4) ptr (k.setMem m₁) = .ok ((), k.setMem m₂) := by
    rw [hm₂]
    exact storeWord_mapped (hmoved m₁ h₁ 4 (by decide)) _
  have hthird : modifyWord ext (ptr + 12) (fun count => u32 (count + 1)) (k.setMem m₂) =
      .ok ((), k.setMem m₃) := by
    rw [hm₃]
    exact modifyWord_mapped (hmoved m₂ h₂ 12 (by decide)) _
  rw [MyOs.slabFree, hstart, Prog.bind_of_ok hload, Prog.bind_of_ok hfirst, Prog.bind_of_ok hsecond]
  exact hthird

end Calls
end Kernel

/-! ## Steps of a run -/

section LiveLists

variable {h h' : Heap} {live : List (Nat × Nat)} {i o : Nat} {b : Nat × Nat}

/-- A live block among the live blocks. -/
theorem LiveIn.sublist {live' : List (Nat × Nat)} (hlive : LiveIn h live) (hsub : live'.Sublist live) :
    LiveIn h live' where
  large := fun b hb => hlive.large b (hsub.subset hb)
  small := fun b hb => hlive.small b (hsub.subset hb)
  nodes := hlive.nodes
  node_ne := fun b hb => hlive.node_ne b (hsub.subset hb)
  distinct := hlive.distinct.sublist hsub

/-- Another live block starts elsewhere. -/
theorem LiveIn.ne_of_erase (hlive : LiveIn h live) {b' : Nat × Nat} (hb : b ∈ live)
    (hb' : b' ∈ live.erase b) : b'.1 ≠ b.1 := by
  have hsymm : Std.Symm fun b b' : Nat × Nat => b.1 ≠ b'.1 := ⟨fun _ _ => Ne.symm⟩
  have hnodup : live.Nodup := hlive.distinct.imp fun {x y} hne heq => hne (by rw [heq])
  obtain ⟨hne, hmem⟩ := (hnodup.mem_erase_iff).mp hb'
  exact hlive.distinct.forall hmem hb hne

/-- The record of a block that is not live any more. -/
theorem LiveIn.remove (hlive : LiveIn h live) (hl : HeapLayout h) {a : LargeAlloc}
    (ha : a ∈ h.largeAllocations) (hnot : ∀ b ∈ live, b.1 ≠ a.ptr) :
    LiveIn (h.largeAllocRemove a.ptr) live where
  large := fun b hb hlt => by
    obtain ⟨c, hc, hptr, hsize⟩ := hlive.large b hb hlt
    refine ⟨c, (hl.mem_largeAllocRemove ha).mpr ⟨hc, ?_⟩, hptr, hsize⟩
    rintro rfl
    exact hnot b hb hptr.symm
  small := hlive.small
  nodes := fun c hc => hlive.nodes c (List.mem_of_mem_eraseP hc)
  node_ne := fun b hb hle c hc => hlive.node_ne b hb hle c (List.mem_of_mem_eraseP hc)
  distinct := hlive.distinct

/-- A small block becomes live. -/
theorem LiveIn.cons_small (hlive : LiveIn h live) (hl : HeapLayout h) (ht : h.Take i o h')
    {size : Nat} (hle : size ≤ maxCacheSize) (hi : getCache size = some i) (ho : SmallObject o) :
    LiveIn h' ((o, size) :: live) := by
  obtain ⟨hlive', hne, hnode⟩ := hlive.take hl ht
  refine
    { large := fun b hb hlt => ?_
      small := fun b hb hle' => ?_
      nodes := hlive'.nodes
      node_ne := fun b hb hle' a ha => ?_
      distinct := List.pairwise_cons.mpr ⟨fun b hb => ?_, hlive.distinct⟩ }
  · rcases List.mem_cons.mp hb with rfl | hold
    · exact absurd hlt (Nat.not_lt.mpr hle)
    · exact hlive'.large b hold hlt
  · rcases List.mem_cons.mp hb with rfl | hold
    · exact ⟨i, hi, hl.take_taken ht⟩
    · exact hlive'.small b hold hle'
  · rcases List.mem_cons.mp hb with rfl | hold
    · rw [ht.large.2] at ha
      exact (hnode a ha).symm
    · exact hlive'.node_ne b hold hle' a ha
  · by_cases hsmall : b.2 ≤ maxCacheSize
    · exact (hne b hb hsmall).symm
    · obtain ⟨a, ha, hptr, _⟩ := hlive.large b hb (Nat.lt_of_not_le hsmall)
      obtain ⟨_, _, _, hpos, hend⟩ := hl.block a ha
      have hhigh := hl.large_high
      have hlow := ho.1
      show o ≠ b.1
      omega

/-- The record of a new large block. -/
theorem LiveIn.insert (hlive : LiveIn h live) {a : LargeAlloc} (hnode : h.Taken 0 a.node)
    (hne : ∀ b ∈ live, b.2 ≤ maxCacheSize → b.1 ≠ a.node) :
    LiveIn (h.insertLargeAlloc a) live where
  large := fun b hb hlt => by
    obtain ⟨c, hc, hptr, hsize⟩ := hlive.large b hb hlt
    exact ⟨c, List.mem_cons_of_mem _ hc, hptr, hsize⟩
  small := hlive.small
  nodes := fun c hc => by
    rcases List.mem_cons.mp hc with rfl | hold
    · exact hnode
    · exact hlive.nodes c hold
  node_ne := fun b hb hle c hc => by
    rcases List.mem_cons.mp hc with rfl | hold
    · exact hne b hb hle
    · exact hlive.node_ne b hb hle c hold
  distinct := hlive.distinct

/-- A large block becomes live. -/
theorem LiveIn.cons_large (hlive : LiveIn h live) {size ptr : Nat} (hlt : maxCacheSize < size)
    (hrecord : ∃ a ∈ h.largeAllocations, a.ptr = ptr ∧ a.size = size)
    (hne : ∀ b ∈ live, ptr ≠ b.1) : LiveIn h ((ptr, size) :: live) where
  large := fun b hb hlt' => by
    rcases List.mem_cons.mp hb with rfl | hold
    · exact hrecord
    · exact hlive.large b hold hlt'
  small := fun b hb hle => by
    rcases List.mem_cons.mp hb with rfl | hold
    · exact absurd hlt (Nat.not_lt.mpr hle)
    · exact hlive.small b hold hle
  nodes := hlive.nodes
  node_ne := fun b hb hle => by
    rcases List.mem_cons.mp hb with rfl | hold
    · exact absurd hlt (Nat.not_lt.mpr hle)
    · exact hlive.node_ne b hold hle
  distinct := List.pairwise_cons.mpr ⟨hne, hlive.distinct⟩

end LiveLists

/-- What a call does to the heap's lists. -/
inductive HeapEffect (s : HeapState) : HeapCall → Heap → Prop
  | small {size i ptr : Nat} {h : Heap} : size ≤ maxCacheSize → getCache size = some i →
      s.kernel.heap.Take i ptr h → HeapEffect s (.kmalloc size) h
  | large {size ptr : Nat} {h : Heap} : maxCacheSize < size →
      (∀ g, s.kernel.PagesGot s.kernel.heap.currentLargeHeapAddr (alignedSize size / pageSize) g →
        s.kernel.heap.currentLargeHeapAddr + g * pageSize ≤ 2 * kernelBaseHeapAddr →
        s.kernel.LargeResult size g ptr h) → HeapEffect s (.kmalloc size) h
  | free {ptr : Nat} {h : Heap} : h.slabs = s.kernel.heap.slabs →
      h.currentHeapAddr = s.kernel.heap.currentHeapAddr → HeapEffect s (.kfree ptr) h

section Steps

variable {s s' : HeapState} {c : HeapCall} {depth size ptr : Nat} {k' : Kernel}

/-- A small request. -/
theorem HeapRunning.kmalloc_small (h : HeapRunning s) (hle : size ≤ maxCacheSize)
    (hrun : kmalloc (link (depth + 1)) size s.kernel = .ok (ptr, k')) :
    HeapEffect s (.kmalloc size) k'.heap ∧ HeapRunning ⟨k', (ptr, size) :: s.live⟩ := by
  obtain ⟨i, hi, htaken⟩ := h.pages.kmalloc_small h.slabs hle hrun
  obtain ⟨hpages, hslabs⟩ := h.pages.taken h.slabs htaken
  exact ⟨.small hle hi htaken.take,
    { pages := hpages.congr fun v _ => inBlock_congr htaken.take.large.2 v
      slabs := hslabs
      live := h.live.cons_small h.slabs.layout htaken.take hle hi (h.slabs.layout.object_small htaken.take) }⟩

/-- A large request that fits. -/
theorem HeapRunning.kmalloc_large (h : HeapRunning s) (hlt : maxCacheSize < size)
    (hfits : LargeFits s (.kmalloc size))
    (hrun : kmalloc (link (depth + 1)) size s.kernel = .ok (ptr, k')) :
    HeapEffect s (.kmalloc size) k'.heap ∧
      HeapRunning ⟨k', if ptr = 0 then s.live else (ptr, size) :: s.live⟩ := by
  obtain ⟨hle, g, hgot, hfit⟩ := hfits hlt
  rw [kmalloc, if_pos hlt] at hrun
  have hresults := fun g hgot hfit => h.pages.kmallocLarge (g := g) h.slabs (by omega) hle hgot hfit hrun
  obtain ⟨hpages, hslabs, hresult⟩ := hresults g hgot hfit
  refine ⟨.large hlt fun g hgot hfit => (hresults g hgot hfit).2.2, hpages, hslabs, ?_⟩
  have hl := h.slabs.layout
  show LiveIn k'.heap _
  generalize k'.heap = h' at hresult
  cases hresult with
  | null _ htakes =>
      rw [if_pos rfl]
      exact h.live.takes hl htakes
  | @block m node h₁ h₂ hall _ htakes htake =>
      have hend : s.kernel.heap.currentLargeHeapAddr + alignedSize size ≤ 2 * kernelBaseHeapAddr := by
        rw [hall, ← (alignedSize_of_le (by omega) hle).2.2] at hfit
        exact hfit
      have hlow := hl.large_low
      have hne : s.kernel.heap.currentLargeHeapAddr ≠ 0 := by
        rw [kernelBaseHeapAddr_eq] at hlow
        omega
      rw [if_neg hne]
      have hl₁ := hl.takes htakes
      have hl₂ : HeapLayout { h₁ with currentLargeHeapAddr := h₁.currentLargeHeapAddr + alignedSize size } :=
        hl₁.bump (by rw [htakes.large.1]; exact hend)
      have hlive₁ := h.live.takes hl htakes
      have hlive₂ : LiveIn { h₁ with
          currentLargeHeapAddr := h₁.currentLargeHeapAddr + alignedSize size } s.live :=
        ⟨hlive₁.large, hlive₁.small, hlive₁.nodes, hlive₁.node_ne, hlive₁.distinct⟩
      obtain ⟨hlive₃, hother, _⟩ := hlive₂.take hl₂ htake
      refine (hlive₃.insert (hl₂.take_taken htake) hother).cons_large hlt
        ⟨_, List.mem_cons_self, rfl, rfl⟩ fun b hb => ?_
      have hplace := h.live.place hl hb
      have hpos := (alignedSize_of_le (by omega) hle).2.1
      omega

/-- Freeing the block at the end of the reserved heap: `kfree` takes it for an object of
a slab, writes in its first page and changes no list. -/
theorem HeapRunning.kfree_edge (h : HeapRunning s) {a : LargeAlloc}
    (ha : a ∈ s.kernel.heap.largeAllocations) (hedge : a.ptr = kernelBaseHeapAddr + kernelHeapSize) :
    ∃ mem, MyOs.kfree (link (depth + 1)) a.ptr s.kernel = .ok ((), s.kernel.setMem mem) ∧
      (s.kernel.setMem mem).PagesArea (InBlock s.kernel.heap) ∧ (s.kernel.setMem mem).SlabsArea := by
  have hl := h.slabs.layout
  obtain ⟨hlow, haligned, hsize, hpos, hend⟩ := hl.block a ha
  have hhigh := hl.large_high
  have hpages : 0 < alignedSize a.size / pageSize := by
    have hmul : alignedSize a.size % pageSize = 0 := by
      rw [alignedSize]
      exact Nat.mul_mod_left _ _
    simp only [pageSize] at hmul ⊢
    omega
  have hM : InBlock s.kernel.heap a.ptr := by
    refine ⟨a, ha, 0, hpages, ?_⟩
    rw [Nat.zero_mul, Nat.add_zero]
  obtain ⟨f, mem, _, hfree, hpages', hslabs', _⟩ :=
    @Kernel.PagesArea.slabFree (link (depth + 1)) _ _ _ h.pages h.slabs
      ⟨hlow, by omega, haligned⟩ hM
  have hnull : a.ptr ≠ 0 := by
    rw [hedge, kernelBaseHeapAddr_eq]
    omega
  have hwindow : isSlabWindow a.ptr = true := by
    rw [hedge]
    decide
  refine ⟨mem, ?_, hpages', hslabs'⟩
  rw [MyOs.kfree, if_neg hnull, if_pos hwindow, hfree]

/-- Freeing a live block. -/
theorem HeapRunning.kfree (h : HeapRunning s) (hb : (ptr, size) ∈ s.live)
    (hrun : kfree (link (depth + 1)) ptr s.kernel = .ok ((), k')) :
    HeapEffect s (.kfree ptr) k'.heap ∧ HeapRunning ⟨k', s.live.erase (ptr, size)⟩ := by
  have hl := h.slabs.layout
  have hrest := h.live.sublist (List.erase_sublist (a := (ptr, size)) (l := s.live))
  by_cases hle : size ≤ maxCacheSize
  · -- a small block is not found
    obtain ⟨i, _, t, ht, hobject, _⟩ := h.live.small _ hb hle
    have hpage := hl.slab_page i t ht
    rw [kfree_smallObject hl.shape (slabObjects_small hpage.2.1 hpage.1 hobject)] at hrun
    cases hrun
    exact ⟨.free rfl rfl, h.pages, h.slabs, hrest⟩
  · obtain ⟨a, ha, hptr, _⟩ := h.live.large _ hb (Nat.lt_of_not_le hle)
    by_cases hedge : ptr = kernelBaseHeapAddr + kernelHeapSize
    · -- the address at the end of the reserved heap
      obtain ⟨mem, hfree, hpages', hslabs'⟩ :=
        @HeapRunning.kfree_edge s depth h a ha (by rw [hptr]; exact hedge)
      rw [show ptr = a.ptr from hptr.symm, hfree] at hrun
      cases hrun
      have hheap : (s.kernel.setMem mem).heap = s.kernel.heap := Kernel.setMem_heap _ _
      refine ⟨.free (by rw [hheap]) (by rw [hheap]), ?_, hslabs', ?_⟩
      · show (s.kernel.setMem mem).PagesArea (InBlock (s.kernel.setMem mem).heap)
        rw [hheap]
        exact hpages'
      · show LiveIn (s.kernel.setMem mem).heap _
        rw [hheap]
        exact hrest
    · obtain ⟨k₁, hblock, hfree, hpages, hslabs⟩ :=
        @Kernel.PagesArea.kfree_large _ depth h.pages h.slabs _ ha (by rw [hptr]; exact hedge)
      rw [show ptr = a.ptr from hptr.symm, hfree] at hrun
      cases hrun
      refine ⟨.free (by rw [← hblock.heap]; rfl) (by rw [← hblock.heap]; rfl), hpages, hslabs, ?_⟩
      show LiveIn (k₁.heap.largeAllocRemove a.ptr) _
      rw [hblock.heap]
      refine hrest.remove hl ha fun b hb' => ?_
      rw [hptr]
      exact h.live.ne_of_erase hb hb'

/-- **One call.** A call that fits keeps what holds between calls. -/
theorem HeapRunning.step (h : HeapRunning s) (hfits : LargeFits s c) (hstep : HeapStep s c s') :
    HeapEffect s c s'.kernel.heap ∧ HeapRunning s' := by
  cases hstep with
  | @block size ptr depth k' _ hrun hne =>
      by_cases hle : size ≤ maxCacheSize
      · exact h.kmalloc_small hle hrun
      · have hlarge := h.kmalloc_large (Nat.lt_of_not_le hle) hfits hrun
        rw [if_neg hne] at hlarge
        exact hlarge
  | @null size depth k' _ hrun =>
      by_cases hle : size ≤ maxCacheSize
      · obtain ⟨heffect, hrunning⟩ := h.kmalloc_small hle hrun
        exact ⟨heffect, hrunning.pages, hrunning.slabs,
          hrunning.live.sublist (List.sublist_cons_self _ _)⟩
      · exact h.kmalloc_large (Nat.lt_of_not_le hle) hfits hrun
  | free hb hrun => exact h.kfree hb hrun

end Steps
end MyOs
