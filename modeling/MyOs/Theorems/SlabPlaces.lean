import MyOs.Logic.HeapReturns

/-!
# Where the slabs are

`create_slab` gives a slab the page at `current_heap_addr` and moves that on by one page,
so two slabs never get the same page. Its assertion lets the address be the end of the
reserved heap, so one slab more than fits is made, in a frame that is not reserved. As
long as a call finds the objects it takes free, or in slabs that still fit
(`SlabRoom`), all slabs are in the reserved heap, whose frames stay used.
-/

namespace MyOs

/-- The memory `create_slab` has given to slabs. -/
def SlabGiven (h : Heap) (f : Nat) : Prop := kernelBaseHeapAddr ≤ f ∧ f < h.currentHeapAddr

/-- The slabs lie in the reserved heap, each in a page of its own, and nothing else has
one of their frames: `pmm_alloc_frame` returns none, and the large blocks and the page
tables have none. -/
structure SlabsReserved (s : HeapState) : Prop where
  inside : ∀ f, SlabGiven s.kernel.heap f → f < kernelBaseHeapAddr + kernelHeapSize
  placed : ∀ i, ∀ t ∈ s.kernel.heap.slabs i, ∃ f, s.kernel.translate t.addr = some f ∧
    f % pageSize = 0 ∧ SlabGiven s.kernel.heap f
  apart : ∀ i j, ∀ t ∈ s.kernel.heap.slabs i, ∀ u ∈ s.kernel.heap.slabs j, ∀ f,
    s.kernel.translate t.addr = some f → s.kernel.translate u.addr = some f → i = j ∧ t = u
  unallocated : ∀ f, SlabGiven s.kernel.heap f → s.kernel.FrameUsed f ∧
    s.kernel.pmm.pmmAllocFrame.1 ≠ f
  blocks : ∀ v f, LargePage v → s.kernel.translate v = some f → ¬ SlabGiven s.kernel.heap f
  tables : ∀ j, j < 1024 → isPagePresent (s.kernel.entryAt s.kernel.dirFrame j) = true →
    ¬ SlabGiven s.kernel.heap (getFrameAddr (s.kernel.entryAt s.kernel.dirFrame j))

/-- No slab is lost, and a new one is not where a slab has been before. -/
structure SlabsFresh (s : HeapState) (_ : HeapCall) (s' : HeapState) : Prop where
  kept : ∀ i, ∀ t ∈ s.kernel.heap.slabs i, ∃ t' ∈ s'.kernel.heap.slabs i, t'.addr = t.addr
  given : ∀ f, SlabGiven s.kernel.heap f → SlabGiven s'.kernel.heap f
  fresh : ∀ i, ∀ t ∈ s'.kernel.heap.slabs i,
    (∃ t' ∈ s.kernel.heap.slabs i, t'.addr = t.addr) ∨
      ∀ f, s'.kernel.translate t.addr = some f → ¬ SlabGiven s.kernel.heap f

/-- A call finds the objects it takes free or in slabs that fit: the block's, or the
record of a large block and the queue nodes of the page tables made for it. A large
request fits. -/
def SlabRoom (s : HeapState) : HeapCall → Prop
  | .kmalloc size =>
      (size ≤ maxCacheSize → ∀ i, getCache size = some i → 1 ≤ roomFor s.kernel.heap i) ∧
      (maxCacheSize < size → size ≤ 0xFFFFF000 ∧
        ∃ g, s.kernel.PagesGot s.kernel.heap.currentLargeHeapAddr (alignedSize size / pageSize) g ∧
          s.kernel.heap.currentLargeHeapAddr + g * pageSize ≤ 2 * kernelBaseHeapAddr ∧
          s.kernel.newTables s.kernel.heap.currentLargeHeapAddr g +
            (if g = alignedSize size / pageSize then 1 else 0) ≤ roomFor s.kernel.heap 0)
  | .kfree _ => True

theorem SlabRoom.fits {s : HeapState} {c : HeapCall} (h : SlabRoom s c) : LargeFits s c := by
  cases c with
  | kfree ptr => trivial
  | kmalloc size =>
      intro hlt
      obtain ⟨hle, g, hgot, hfit, _⟩ := h.2 hlt
      exact ⟨hle, g, hgot, hfit⟩

/-- The state between two calls, with no slab behind the reserved heap. -/
structure SlabsRunning (s : HeapState) : Prop extends HeapRunning s where
  next : s.kernel.heap.currentHeapAddr ≤ kernelBaseHeapAddr + kernelHeapSize

/-! ## The slabs across a call -/

/-- The slabs of `h` are among those of `h'`, and the others are above. -/
structure Heap.SlabsAbove (h h' : Heap) : Prop where
  next : h.currentHeapAddr ≤ h'.currentHeapAddr
  kept : ∀ i, ∀ t ∈ h.slabs i, ∃ t' ∈ h'.slabs i, t'.addr = t.addr
  fresh : ∀ i, ∀ t ∈ h'.slabs i, (∃ t' ∈ h.slabs i, t'.addr = t.addr) ∨
    kernelBaseHeapAddr + h.currentHeapAddr ≤ t.addr

section Above

variable {h h' h'' : Heap} {i n o : Nat}

theorem Heap.SlabsAbove.of_slabs (hslabs : h'.slabs = h.slabs)
    (hnext : h'.currentHeapAddr = h.currentHeapAddr) : h.SlabsAbove h' where
  next := Nat.le_of_eq hnext.symm
  kept := fun i t ht => ⟨t, by rw [hslabs]; exact ht, rfl⟩
  fresh := fun i t ht => .inl ⟨t, by rw [← hslabs]; exact ht, rfl⟩

theorem Heap.SlabsAbove.trans (h₁ : h.SlabsAbove h') (h₂ : h'.SlabsAbove h'') :
    h.SlabsAbove h'' where
  next := Nat.le_trans h₁.next h₂.next
  kept := fun i t ht => by
    obtain ⟨t', ht', heq⟩ := h₁.kept i t ht
    obtain ⟨t'', ht'', heq'⟩ := h₂.kept i t' ht'
    exact ⟨t'', ht'', heq'.trans heq⟩
  fresh := fun i t ht => by
    rcases h₂.fresh i t ht with ⟨t', ht', heq⟩ | habove
    · rcases h₁.fresh i t' ht' with ⟨t'', ht'', heq'⟩ | habove
      · exact .inl ⟨t'', ht'', heq'.trans heq⟩
      · exact .inr (heq ▸ habove)
    · exact .inr (Nat.le_trans (Nat.add_le_add_left h₁.next _) habove)

/-- Taking an object puts at most one slab above the others. -/
theorem Heap.Take.above (ht : h.Take i o h') : h.SlabsAbove h' where
  next := by
    rcases ht.next with heq | hnew
    · exact Nat.le_of_eq heq.symm
    · rw [hnew.next]
      exact Nat.le_add_right _ _
  kept := fun j t hmem => by
    have haddr : t.addr ∈ (h'.slabs j).map Slab.addr := by
      have hold := List.mem_map_of_mem (f := Slab.addr) hmem
      rcases ht.addrs j with heq | ⟨_, _, heq⟩
      · rw [heq]
        exact hold
      · rw [heq]
        exact List.mem_cons_of_mem _ hold
    exact List.mem_map.mp haddr
  fresh := fun j t hmem => by
    rcases ht.slabs t hmem with ⟨t', ht', heq, _⟩ | ⟨_, hnew, haddr, _⟩
    · exact .inl ⟨t', ht', heq⟩
    · right
      rw [haddr, (nextSlab_place hnew.room).1]

theorem Heap.Takes.above (ht : Heap.Takes n h h') : h.SlabsAbove h' := by
  induction ht with
  | done h => exact .of_slabs rfl rfl
  | next htake _ ih => exact htake.above.trans ih

end Above

section Step

variable {s s' : HeapState} {c : HeapCall}

/-- A call with room puts no slab behind the reserved heap. -/
theorem HeapEffect.room {h' : Heap} (heffect : HeapEffect s c h') (hroom : SlabRoom s c)
    (hnext : s.kernel.heap.currentHeapAddr ≤ kernelBaseHeapAddr + kernelHeapSize) :
    s.kernel.heap.SlabsAbove h' ∧ h'.currentHeapAddr ≤ kernelBaseHeapAddr + kernelHeapSize := by
  cases heffect with
  | small hle hi htake => exact ⟨htake.above, (htake.room hnext (hroom.1 hle _ hi)).1⟩
  | free hslabs heq =>
      refine ⟨.of_slabs hslabs heq, ?_⟩
      rw [heq]
      exact hnext
  | @large size _ _ hlt hresult =>
      obtain ⟨_, g, hgot, hfit, hleft⟩ := hroom.2 hlt
      cases hresult g hgot hfit with
      | null hm htakes => exact ⟨htakes.above, (htakes.room hnext (by omega)).1⟩
      | @block m node h₁ h₂ hall hm htakes htake =>
          rw [if_pos hall] at hleft
          obtain ⟨hnext₁, hroom₁⟩ := htakes.room hnext (by omega)
          have hroom₂ := htake.room hnext₁ (show 1 ≤ roomFor h₁ 0 by omega)
          -- the bump address and the record are no slab's
          have hbump : h₁.SlabsAbove { h₁ with
              currentLargeHeapAddr := h₁.currentLargeHeapAddr + alignedSize size } := .of_slabs rfl rfl
          exact ⟨(htakes.above.trans (hbump.trans htake.above)).trans (.of_slabs rfl rfl), hroom₂.1⟩

/-- Then the slabs are where they should be. -/
theorem SlabsRunning.reserved (h : SlabsRunning s) : SlabsReserved s := by
  have hl := h.slabs.layout
  have hreserved : ∀ f, SlabGiven s.kernel.heap f → SlabFrame f := fun f hf =>
    ⟨hf.1, Nat.lt_of_lt_of_le hf.2 h.next⟩
  refine
    { inside := fun f hf => (hreserved f hf).2
      placed := fun i t ht => ?_
      apart := fun i j t ht u hu f hft hfu => ?_
      unallocated := fun f hf => ?_
      blocks := fun v f hv hvf hf => (h.pages.frame v f hv hvf).unreserved (hreserved f hf)
      tables := fun j hj hpresent hf => h.pages.tables j hj hpresent (hreserved _ hf) }
  · obtain ⟨haligned, hlow, hlt⟩ := hl.slab_page i t ht
    refine ⟨_, h.slabs.mapped i t ht, ?_, by omega, by omega⟩
    rw [kernelBaseHeapAddr_eq] at hlow ⊢
    simp only [pageSize] at haligned ⊢
    omega
  · obtain ⟨_, hlow, _⟩ := hl.slab_page i t ht
    obtain ⟨_, hlow', _⟩ := hl.slab_page j u hu
    rw [h.slabs.mapped i t ht] at hft
    rw [h.slabs.mapped j u hu] at hfu
    have heq := Option.some.inj (hft.trans hfu.symm)
    exact hl.slab_eq ht hu (by omega)
  · have hused := h.pages.reserved f (hreserved f hf)
    refine ⟨hused, fun heq => ?_⟩
    have hne : f ≠ pmmNoFrameAvailable := by
      have hlow := hf.1
      rw [kernelBaseHeapAddr_eq] at hlow
      simp only [pmmNoFrameAvailable]
      omega
    exact (Kernel.frameFree_of h.pages.running.pmm heq hne).unused hused

theorem HeapRunning.slabsFresh (h' : HeapRunning s')
    (habove : s.kernel.heap.SlabsAbove s'.kernel.heap) : SlabsFresh s c s' where
  kept := habove.kept
  given := fun f hf => ⟨hf.1, Nat.lt_of_lt_of_le hf.2 habove.next⟩
  fresh := fun i t ht => by
    refine (habove.fresh i t ht).imp_right fun hlow f hf hgiven => ?_
    rw [h'.slabs.mapped i t ht] at hf
    have heq := Option.some.inj hf
    have hlt := hgiven.2
    omega

/-- One call with room. -/
theorem SlabsRunning.step (h : SlabsRunning s) (hroom : SlabRoom s c) (hstep : HeapStep s c s') :
    SlabsFresh s c s' ∧ SlabsRunning s' := by
  obtain ⟨heffect, hrunning⟩ := h.toHeapRunning.step hroom.fits hstep
  obtain ⟨habove, hnext⟩ := heffect.room hroom h.next
  exact ⟨hrunning.slabsFresh habove, hrunning, hnext⟩

end Step

/-- A state in which the last cache has no free object, after `n` slabs more than
`init_kmalloc` makes. -/
structure LastCacheFull (n : Nat) (s : HeapState) : Prop where
  reachable : bootedCalls.Reachable s
  running : HeapRunning s
  full : popFree (s.kernel.heap.slabs 7) = none
  next : s.kernel.heap.currentHeapAddr = kernelBaseHeapAddr + (numCaches + n) * pageSize

/-- The slabs of the last cache have one object each. -/
theorem Heap.Take.lastCache {h h' : Heap} {o : Nat} (ht : h.Take 7 o h')
    (hpop : popFree (h.slabs 7) = none) : popFree (h'.slabs 7) = none ∧
      ∃ t ∈ h'.slabs 7, t.addr = kernelBaseHeapAddr + h.currentHeapAddr := by
  cases ht with
  | object hobject =>
      rw [hpop] at hobject
      cases hobject
  | @slab slab _ hroom haddr hobjects =>
      have hlength := congrArg List.length hobjects
      rw [slabObjects, initSlab_count, List.length_cons] at hlength
      have hempty : slab.freeList = [] :=
        List.eq_nil_of_length_eq_zero (Nat.succ.inj (hlength.symm.trans (by decide)))
      rw [Heap.setSlabs_self]
      refine ⟨?_, slab, List.mem_cons_self, haddr.trans (nextSlab_place hroom).1⟩
      rw [popFree, hempty]
      simp only [hpop, Option.map_none]

/-- The only object of the cache's first slab. -/
theorem Heap.Take.lastCache_first {h h' : Heap} {a o : Nat} (ht : h.Take 7 o h')
    (hslabs : h.slabs 7 = [initSlab a (cacheObjectSize 7)]) :
    popFree (h'.slabs 7) = none ∧ h'.currentHeapAddr = h.currentHeapAddr := by
  have hfirst : popFree (h.slabs 7) = some (a + slabDataOffset + 0 * cacheObjectSize 7,
      [{ initSlab a (cacheObjectSize 7) with freeList := [] }]) := by
    rw [hslabs]
    rfl
  cases ht with
  | object hpop =>
      rw [hfirst] at hpop
      cases hpop
      rw [Heap.setSlabs_self]
      exact ⟨rfl, rfl⟩
  | slab hpop _ _ _ =>
      rw [hfirst] at hpop
      cases hpop

/-- What a request for 2048 bytes takes. -/
theorem HeapRunning.lastCache_take {s s' : HeapState} (h : HeapRunning s)
    (hstep : HeapStep s (.kmalloc maxCacheSize) s') :
    HeapRunning s' ∧ ∃ o, s.kernel.heap.Take 7 o s'.kernel.heap := by
  have hfits : LargeFits s (.kmalloc maxCacheSize) := fun hlt => absurd hlt (Nat.lt_irrefl _)
  obtain ⟨heffect, hrunning⟩ := h.step hfits hstep
  refine ⟨hrunning, ?_⟩
  cases heffect with
  | small _ hi htake =>
      have hcache : getCache maxCacheSize = some 7 := by decide
      rw [hcache] at hi
      cases hi
      exact ⟨_, htake⟩
  | large hlt _ => exact absurd hlt (Nat.lt_irrefl _)

theorem lastCacheFull_first : ∃ s, LastCacheFull 0 s := by
  obtain ⟨s, p, k, hinit, hfresh, hstep⟩ := bootedCalls_block (Nat.le_refl maxCacheSize)
  obtain ⟨hrunning, o, htake⟩ := (HeapRunning.boot hinit).1.lastCache_take hstep
  have hslabs := hfresh.slabs 7
  rw [if_pos (by decide)] at hslabs
  obtain ⟨hfull, hnext⟩ := htake.lastCache_first hslabs
  exact ⟨_, .step (.init hinit) hstep, hrunning, hfull, hnext.trans hfresh.next⟩

/-- Another request makes a slab at `current_heap_addr`, up to the end of the reserved
heap and with it. -/
theorem LastCacheFull.next_slab {n : Nat} {s : HeapState} (h : LastCacheFull n s)
    (hn : n ≤ extraBlocks) : ∃ s', LastCacheFull (n + 1) s' ∧
      ∃ t ∈ s'.kernel.heap.slabs 7, t.addr = kernelBaseHeapAddr + s.kernel.heap.currentHeapAddr := by
  have hnext := h.next
  have hroom : s.kernel.heap.currentHeapAddr ≤ kernelBaseHeapAddr + kernelHeapSize := by
    rw [hnext, kernelHeapSize, Nat.mul_comm pageSize]
    exact Nat.add_le_add_left (Nat.mul_le_mul_right _ (Nat.add_le_add_left hn _)) _
  obtain ⟨p, k, hrun, hne⟩ :=
    h.running.pages.kmalloc_ok h.running.slabs (Nat.le_refl maxCacheSize) hroom (link 1)
  have hstep : HeapStep s (.kmalloc maxCacheSize) ⟨k, (p, maxCacheSize) :: s.live⟩ :=
    .block (by decide) hrun hne
  obtain ⟨hrunning, o, htake⟩ := h.running.lastCache_take hstep
  obtain ⟨hfull, hslab⟩ := htake.lastCache h.full
  refine ⟨_, ⟨h.reachable.step hstep, hrunning, hfull, ?_⟩, hslab⟩
  rw [(htake.newSlab h.full).next, hnext, Nat.add_assoc, ← Nat.succ_mul]
  rfl

theorem lastCacheFull_run (n : Nat) (hn : n ≤ extraBlocks) : ∃ s, LastCacheFull n s := by
  induction n with
  | zero => exact lastCacheFull_first
  | succ n ih =>
      obtain ⟨s, hs⟩ := ih (Nat.le_of_succ_le hn)
      obtain ⟨s', hs', _⟩ := hs.next_slab (Nat.le_of_succ_le hn)
      exact ⟨s', hs'⟩

end MyOs
