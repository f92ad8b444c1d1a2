import MyOs.Base.System
import MyOs.Logic.SwapSpec

/-!
# A page swapped out and back in

`vmm_swap_in_page` sets the new frame in the entry before it reads the slot from
it, so it reads from the slot whose number is the new frame. A page comes back
when the two are the same; the slot then has to be page-aligned, or its number
would also have changed the attribute bits. Between the two calls other pages
come and go, the page table of the page itself among them: `Held` is what
stays.
-/

namespace MyOs

open Kernel

/-- The calls, each with what it returned. -/
inductive SwapCall
  | swapOut (v : Nat) (done : Bool)
  | swapIn (e v : Nat) (done : Bool)

def swapSys (ext : Ext) : TSys Kernel SwapCall where
  init := SwapWf
  step k call k' :=
    match call with
    | .swapOut v done => vmmSwapOutPage ext v k = .ok (done, k')
    | .swapIn e v done => vmmSwapInPage ext e v k = .ok (done, k')

/-- What the calls rely on. -/
def SwapOk (k : Kernel) : SwapCall → Prop
  | .swapOut v _ => SwapOutOk k v
  | .swapIn e v _ => SwapInOk k e v

/-- The call is about another entry than that of `v`, and about another slot
than `s`. -/
def OfOtherPage (v s : Nat) (k : Kernel) : SwapCall → Prop
  | .swapOut v' _ => isPagePresent (k.pdeOf v) = true → k.pteAddr v' ≠ k.pteAddr v
  | .swapIn _ v' _ => (isPagePresent (k.pdeOf v) = true → k.pteAddr v' ≠ k.pteAddr v) ∧
      getFrameAddr (k.mem.load32 (k.pteAddr v')) ≠ s

/-- The byte an access to `v` reads. -/
def Kernel.byteAt (k : Kernel) (v : Nat) : Option Byte := (k.translate v).map k.mem

/-- The page of `v` is as it was in `k₀`, and its slots are free. -/
structure RoundTrip (k₀ : Kernel) (v s : Nat) (k : Kernel) : Prop where
  bytes : ∀ i, i < pageSize →
    k.byteAt (v / pageSize * pageSize + i) = k₀.byteAt (v / pageSize * pageSize + i)
  attributes : k.mem.load32 (k.pteAddr v) &&& 0xFFF = k₀.mem.load32 (k₀.pteAddr v) &&& 0xFFF
  slots_free : ∀ j, s ≤ j → j < s + k₀.pageSlots → k.slots.diskBitmap.bit j = false

/-! ## What stays while the page is out -/

/-- The table of `v` is in memory, with the word `w` for `v`. -/
structure TableIn (k : Kernel) (v w : Nat) : Prop where
  present : isPagePresent (k.pdeOf v) = true
  word : k.mem.load32 (k.pteAddr v) = w

/-- The table of `v` is out, in other slots than `s`, with the word `w` for `v`. -/
structure TableOut (k : Kernel) (v s w : Nat) : Prop where
  absent : isPagePresent (k.pdeOf v) = false
  swapped_out : isSwapped (k.pdeOf v) = true
  slot_ne : getFrameAddr (k.pdeOf v) ≠ s
  slots : ∀ j, getFrameAddr (k.pdeOf v) ≤ j → j < getFrameAddr (k.pdeOf v) + k.pageSlots →
    k.slots.diskBitmap.bit j = true
  word : k.image.load32 (getFrameAddr (k.pdeOf v) * diskSectorSize k + 4 * getTableIndex v) = w

/-- The page of `v` is in the slots from `s` on, and the word `w` says so. -/
structure Held (v s w : Nat) (page : ByteStore) (sectorSize : Nat) (k : Kernel) : Prop where
  wf : k.SwapWf
  sectorSize_eq : diskSectorSize k = sectorSize
  slots : ∀ j, s ≤ j → j < s + k.pageSlots → k.slots.diskBitmap.bit j = true
  image : ∀ i, i < pageSize → k.image (s * sectorSize + i) = page i
  table : TableIn k v w ∨ TableOut k v s w

/-- Runs of slots that do not meet hold pages that do not meet. -/
theorem slots_apart {s t n size : Nat} (hsize : pageSize ≤ n * size)
    (h : s + n ≤ t ∨ t + n ≤ s) :
    s * size + pageSize ≤ t * size ∨ t * size + pageSize ≤ s * size := by
  rcases h with h | h
  · have := Nat.mul_le_mul_right size h
    rw [Nat.add_mul] at this
    omega
  · have := Nat.mul_le_mul_right size h
    rw [Nat.add_mul] at this
    omega

/-- Slots that are used and slots that were free do not meet. -/
theorem used_free_apart {b : Bitmap} {s t n : Nat}
    (hs : ∀ j, s ≤ j → j < s + n → b.bit j = true)
    (ht : ∀ j, t ≤ j → j < t + n → b.bit j = false) : s + n ≤ t ∨ t + n ≤ s := by
  refine Classical.byContradiction fun hmeet => ?_
  have hused := hs (max s t) (by omega) (by omega)
  rw [ht (max s t) (by omega) (by omega)] at hused
  cases hused

/-- Different page-aligned slots do not meet. -/
theorem aligned_apart {s t n : Nat} (hs : s % pageSize = 0) (ht : t % pageSize = 0)
    (hne : s ≠ t) (hn : n < 256) : s + n ≤ t ∨ t + n ≤ s := by
  simp only [pageSize] at hs ht
  omega

theorem pageSlots_lt (k : Kernel) : k.pageSlots < 256 := Nat.mod_lt _ (by decide)

section Step

variable {v s w sectorSize : Nat} {page : ByteStore} {k k' : Kernel}

theorem pageSlots_congr (h : diskSectorSize k' = diskSectorSize k) :
    k'.pageSlots = k.pageSlots := by rw [pageSlots, pageSlots, h]

/-- A directory entry in use survives the change of another entry. -/
theorem Changed.pdeOf {a w' : Nat} (h : k.Changed k' a w') (hwf : k.SwapWf) (hv : v < 2 ^ 32)
    (hpde : isPagePresent (k.pdeOf v) = true ∨ isSwapped (k.pdeOf v) = true)
    (hne : k.pdeAddr v ≠ a) : k'.pdeOf v = k.pdeOf v := by
  rw [pdeOf_eq_load32, pdeAddr_congr h.cr3, h.words _ (hwf.pde_inUse hv hpde) hne]
  rfl

/-- The change of another entry leaves a table in memory as it is. -/
theorem TableIn.keep {a w' : Nat} (htable : TableIn k v w) (hwf : k.SwapWf) (hv : v < 2 ^ 32)
    (hw : isSwapped w = true) (h : k.Changed k' a w') (hpde : k.pdeAddr v ≠ a)
    (hpte : k.pteAddr v ≠ a) : TableIn k' v w := by
  have hkeep := Changed.pdeOf h hwf hv (.inl htable.present) hpde
  have haddr : k'.pteAddr v = k.pteAddr v := by rw [pteAddr, pteAddr, hkeep]
  have hinUse : k.InUse (k.pteAddr v) :=
    pte_inUse hv htable.present (.inr (by rw [htable.word]; exact hw))
  exact
    { present := by rw [hkeep]; exact htable.present
      word := by rw [haddr, h.words _ hinUse hpte, htable.word] }

/-- It leaves a table that is out as it is, too, when its slots stay. -/
theorem TableOut.keep {a w' : Nat} (htable : TableOut k v s w) (hwf : k.SwapWf) (hv : v < 2 ^ 32)
    (h : k.Changed k' a w') (hpde : k.pdeAddr v ≠ a)
    (hslots : ∀ j, getFrameAddr (k.pdeOf v) ≤ j → j < getFrameAddr (k.pdeOf v) + k.pageSlots →
      k'.slots.diskBitmap.bit j = true)
    (himage : ∀ i, i < pageSize → k'.image (getFrameAddr (k.pdeOf v) * diskSectorSize k + i) =
      k.image (getFrameAddr (k.pdeOf v) * diskSectorSize k + i)) : TableOut k' v s w := by
  have hkeep := Changed.pdeOf h hwf hv (.inr htable.swapped_out) hpde
  have hindex := getTableIndex_lt v
  have hsize : pageSize = 4096 := rfl
  exact
    { absent := by rw [hkeep]; exact htable.absent
      swapped_out := by rw [hkeep]; exact htable.swapped_out
      slot_ne := by rw [hkeep]; exact htable.slot_ne
      slots := by rw [hkeep, pageSlots_congr h.sectorSize]; exact hslots
      word := by
        rw [hkeep, h.sectorSize, ← htable.word]
        refine ByteStore.load32_congr fun i hi => ?_
        rw [Nat.add_assoc]
        exact himage _ (by omega) }

/-- Swapping another page out. -/
theorem Held.swapOut {v' s' : Nat} (h : Held v s w page sectorSize k) (hv : v < 2 ^ 32)
    (hw : isSwapped w = true)
    (hother : isPagePresent (k.pdeOf v) = true → k.pteAddr v' ≠ k.pteAddr v)
    (hout : SwappedOut k v' s' k') : Held v s w page sectorSize k' := by
  have hslots := pageSlots_congr hout.changed.sectorSize
  have hsize : pageSize = 4096 := rfl
  -- slots that were used stay used, and keep their bytes
  have hused {t : Nat} (ht : ∀ j, t ≤ j → j < t + k.pageSlots → k.slots.diskBitmap.bit j = true)
      (j : Nat) (hlo : t ≤ j) (hhi : j < t + k.pageSlots) : k'.slots.diskBitmap.bit j = true := by
    rw [hout.slot_bits, ht j hlo hhi, Bool.or_true]
  have hbytes {t : Nat} (ht : ∀ j, t ≤ j → j < t + k.pageSlots → k.slots.diskBitmap.bit j = true)
      (i : Nat) (hi : i < pageSize) :
      k'.image (t * diskSectorSize k + i) = k.image (t * diskSectorSize k + i) := by
    have happart := slots_apart hout.sectors (used_free_apart ht hout.slot_free)
    rw [hout.image, ByteStore.copy_outside (by omega)]
  have hpos : 0 < k.pageSlots := by
    refine Nat.pos_of_ne_zero fun hzero => ?_
    have hcover := hout.sectors
    rw [hzero] at hcover
    omega
  refine
    { wf := hout.changed.wf
      sectorSize_eq := hout.changed.sectorSize.trans h.sectorSize_eq
      slots := by rw [hslots]; exact hused h.slots
      image := fun i hi => by
        rw [← h.image i hi, ← h.sectorSize_eq]
        exact hbytes h.slots i hi
      table := ?_ }
  rcases h.table with hin | htable
  · by_cases hpde : k.pdeAddr v = k.pteAddr v'
    · -- the page swapped out is the table of `v`
      have hentry : k'.pdeOf v = swapOutWord (k.pdeOf v) s' := by
        rw [pdeOf_eq_load32, pdeAddr_congr hout.changed.cr3, hpde, hout.changed.entry, ← hpde]
        rfl
      have hslot := hout.slot_le
      have hmax : diskBitmapSize = 100000 := rfl
      have hframe : getFrameAddr (k'.pdeOf v) = s' := by
        rw [hentry, getFrameAddr_swapOutWord hout.slot_aligned (by omega)]
      have happart := used_free_apart h.slots hout.slot_free
      have hindex := getTableIndex_lt v
      refine .inr
        { absent := by rw [hentry]; exact isPagePresent_swapOutWord hout.slot_aligned
          swapped_out := by rw [hentry]; exact isSwapped_swapOutWord
          slot_ne := by rw [hframe]; omega
          slots := ?_
          word := ?_ }
      · intro j hlo hhi
        rw [hframe] at hlo hhi
        rw [hslots] at hhi
        rw [hout.slot_bits, decide_eq_true ⟨hlo, hhi⟩, Bool.true_or]
      · rw [hframe, hout.changed.sectorSize, hout.image,
          ByteStore.load32_copy_inside (by omega), ← hpde, ← hin.word]
        rfl
    · exact .inl (hin.keep h.wf hv hw hout.changed hpde (Ne.symm (hother hin.present)))
  · have hpde : k.pdeAddr v ≠ k.pteAddr v' := by
      intro heq
      have hpresent := hout.present
      rw [← heq, ← pdeOf_eq_load32, htable.absent] at hpresent
      cases hpresent
    exact .inr (htable.keep h.wf hv hout.changed hpde (hused htable.slots) (hbytes htable.slots))

/-- Swapping another page in. -/
theorem Held.swapIn {e v' t : Nat} (h : Held v s w page sectorSize k) (hv : v < 2 ^ 32)
    (hw : isSwapped w = true) (hs : s % pageSize = 0) (hok : SwapInOk k e v')
    (hother : (isPagePresent (k.pdeOf v) = true → k.pteAddr v' ≠ k.pteAddr v) ∧
      getFrameAddr (k.mem.load32 (k.pteAddr v')) ≠ s)
    (hin : SwappedIn k v' t k') : Held v s w page sectorSize k' := by
  have hslots := pageSlots_congr hin.changed.sectorSize
  have hsize : pageSize = 4096 := rfl
  have ht : t % pageSize = 0 := by
    rw [hin.slot]
    exact getFrameAddr_aligned _
  -- the slots of other pages stay used
  have hused {t' : Nat} (ht' : t' % pageSize = 0) (hne : t' ≠ t)
      (hbits : ∀ j, t' ≤ j → j < t' + k.pageSlots → k.slots.diskBitmap.bit j = true)
      (j : Nat) (hlo : t' ≤ j) (hhi : j < t' + k.pageSlots) :
      k'.slots.diskBitmap.bit j = true := by
    have happart := aligned_apart ht' ht hne (pageSlots_lt k)
    rw [hin.slot_bits, hbits j hlo hhi, Bool.and_true, decide_eq_false (by omega)]
    rfl
  have hother_slot : s ≠ t := by
    rw [hin.slot]
    exact Ne.symm hother.2
  refine
    { wf := hin.changed.wf
      sectorSize_eq := hin.changed.sectorSize.trans h.sectorSize_eq
      slots := by rw [hslots]; exact hused hs hother_slot h.slots
      image := fun i hi => by rw [hin.image, h.image i hi]
      table := ?_ }
  rcases h.table with htable | htable
  · have hpde : k.pdeAddr v ≠ k.pteAddr v' := by
      intro heq
      have habsent := hok.absent
      rw [← heq, ← pdeOf_eq_load32, htable.present] at habsent
      cases habsent
    exact .inl (htable.keep h.wf hv hw hin.changed hpde (Ne.symm (hother.1 htable.present)))
  · by_cases hpde : k.pdeAddr v = k.pteAddr v'
    · -- the page swapped in is the table of `v`
      have hentry : k'.pdeOf v = swapInWord (k.pdeOf v) := by
        rw [pdeOf_eq_load32, pdeAddr_congr hin.changed.cr3, hpde, hin.changed.entry, ← hpde]
        rfl
      have hframe : getFrameAddr (k'.pdeOf v) = t := by
        rw [hentry, getFrameAddr_swapInWord, hin.slot, ← hpde]
        rfl
      have hindex := getTableIndex_lt v
      refine .inl
        { present := by rw [hentry]; exact isPagePresent_swapInWord
          word := ?_ }
      rw [pteAddr, hframe, ← htable.word, show getFrameAddr (k.pdeOf v) = t by
        rw [← hframe, hentry, getFrameAddr_swapInWord]]
      refine ByteStore.load32_congr fun i hi => ?_
      rw [Nat.add_assoc, Nat.add_assoc]
      exact hin.page _ (by omega)
    · have hne : getFrameAddr (k.pdeOf v) ≠ t := by
        rw [hin.slot]
        exact hok.unshared _ (h.wf.pde_inUse hv (.inr htable.swapped_out)) hpde
          htable.swapped_out htable.absent
      exact .inr (htable.keep h.wf hv hin.changed hpde
        (hused (getFrameAddr_aligned _) hne htable.slots) fun i _ => by rw [hin.image])

end Step

/-- A call about another page keeps a page that is out. -/
theorem held_step {ext : Ext} (hext : ext.Reliable) {v s w sectorSize : Nat} {page : ByteStore}
    (hv : v < 2 ^ 32) (hw : isSwapped w = true) (hs : s % pageSize = 0) {k k' : Kernel}
    {call : SwapCall} (h : Held v s w page sectorSize k) (hok : SwapOk k call)
    (hother : OfOtherPage v s k call) (hstep : (swapSys ext).step k call k') :
    Held v s w page sectorSize k' := by
  cases call with
  | swapOut v' done =>
      cases vmmSwapOutPage_effect hext h.wf hok hstep with
      | refused => exact h
      | moved hout => exact h.swapOut hv hw hother hout
  | swapIn e v' done =>
      exact h.swapIn hv hw hs hok hother (vmmSwapInPage_effect hext h.wf hok hstep).2

/-- The addresses of one page differ in their offset only. -/
theorem page_parts (v : Nat) {i : Nat} (hi : i < pageSize) :
    getDirectoryIndex (v / pageSize * pageSize + i) = getDirectoryIndex v ∧
      getTableIndex (v / pageSize * pageSize + i) = getTableIndex v ∧
      getFrameOffset (v / pageSize * pageSize + i) = i := by
  simp only [pageSize] at hi
  simp only [getDirectoryIndex_eq, getTableIndex_eq, getFrameOffset_eq, pageSize]
  omega

/-- A byte of a present page. -/
theorem byteAt_page {k : Kernel} (hon : k.pagingEnabled = true) {v : Nat}
    (hpde : isPagePresent (k.pdeOf v) = true)
    (hpte : isPagePresent (k.mem.load32 (k.pteAddr v)) = true) {i : Nat} (hi : i < pageSize) :
    k.byteAt (v / pageSize * pageSize + i) =
      some (k.mem (getFrameAddr (k.mem.load32 (k.pteAddr v)) + i)) := by
  obtain ⟨hdir, htable, hoffset⟩ := page_parts v hi
  have hpdeOf : k.pdeOf (v / pageSize * pageSize + i) = k.pdeOf v := by rw [pdeOf, hdir, pdeOf]
  have haddr : k.pteAddr (v / pageSize * pageSize + i) = k.pteAddr v := by
    rw [pteAddr, hpdeOf, htable, pteAddr]
  rw [byteAt, translate_eq hon (by rw [hpdeOf]; exact hpde) (by rw [haddr]; exact hpte), haddr,
    hoffset]
  rfl

/-- **The swap round trip.** Over any run in which every call finds what it
relies on, and the calls in between are about other pages, a page that goes
out and comes back reads as before, its attribute bits are as before, and its
slots are free again. -/
theorem swap_round_trip {ext : Ext} (hext : ext.Reliable) {k₀ k₁ k : Kernel} {v e : Nat}
    {mid : List (SwapCall × Kernel)} (hwf : k₀.SwapWf)
    (hrun : (swapSys ext).IsRun k₀ ((.swapOut v true, k₁) :: (mid ++ [(.swapIn e v true, k)])))
    (hok : TSys.AllSteps SwapOk k₀ ((.swapOut v true, k₁) :: (mid ++ [(.swapIn e v true, k)])))
    (hmid : TSys.AllSteps (OfOtherPage v (k₀.slots.diskAllocSlots k₀.pageSlots).1) k₁ mid) :
    RoundTrip k₀ v (k₀.slots.diskAllocSlots k₀.pageSlots).1 k := by
  obtain ⟨hout, hrest⟩ := hrun
  obtain ⟨hok₀, hokrest⟩ := hok
  have hok₀ : SwapOutOk k₀ v := hok₀
  have hv := hok₀.lt
  obtain ⟨s, hs⟩ : ∃ s, (k₀.slots.diskAllocSlots k₀.pageSlots).1 = s := ⟨_, rfl⟩
  rw [hs] at hmid ⊢
  cases vmmSwapOutPage_effect hext hwf hok₀ hout with
  | @moved s' _ hmoved =>
    obtain rfl : s' = s := hmoved.slot.trans hs
    have hpage := hok₀.page hmoved.present
    have hsize : pageSize = 4096 := rfl
    have hmax : diskBitmapSize = 100000 := rfl
    have hle := hmoved.slot_le
    have haligned := hmoved.slot_aligned
    have hpages := pageSlots_lt k₀
    -- what the swap-out leaves
    have hpde₁ := Changed.pdeOf hmoved.changed hwf hv (.inl hok₀.table) (Ne.symm hpage.off_walk)
    have haddr₁ : k₁.pteAddr v = k₀.pteAddr v := by rw [pteAddr, pteAddr, hpde₁]
    have hheld : Held v s' (swapOutWord (k₀.mem.load32 (k₀.pteAddr v)) s')
        (fun i => k₀.mem (getFrameAddr (k₀.mem.load32 (k₀.pteAddr v)) + i))
        (diskSectorSize k₀) k₁ :=
      { wf := hmoved.changed.wf
        sectorSize_eq := hmoved.changed.sectorSize
        slots := fun j hlo hhi => by
          rw [pageSlots_congr hmoved.changed.sectorSize] at hhi
          rw [hmoved.slot_bits, decide_eq_true ⟨hlo, hhi⟩, Bool.true_or]
        image := fun i hi => by rw [hmoved.image, ByteStore.copy_inside hi]
        table := .inl
          { present := by rw [hpde₁]; exact hok₀.table
            word := by rw [haddr₁, hmoved.changed.entry] } }
    -- what it is when the page comes back
    obtain ⟨k₂, h₂, hok₂, hin⟩ := TSys.IsRun.last_step
      (fun _ _ _ h hok hother hstep =>
        held_step hext hv isSwapped_swapOutWord haligned h hok hother hstep)
      mid hheld hrest hokrest hmid
    have hok₂ : SwapInOk k₂ e v := hok₂
    have htable : TableIn k₂ v (swapOutWord (k₀.mem.load32 (k₀.pteAddr v)) s') := by
      refine h₂.table.resolve_right fun hout => ?_
      have hpresent := hok₂.table
      rw [hout.absent] at hpresent
      cases hpresent
    have hback := (vmmSwapInPage_effect hext h₂.wf hok₂ hin).2
    rw [htable.word, getFrameAddr_swapOutWord haligned (by omega)] at hback
    have hentry := hback.changed.entry
    rw [htable.word] at hentry
    have hpde := Changed.pdeOf hback.changed h₂.wf hv (.inl htable.present) (by
      intro heq
      have habsent := hok₂.absent
      rw [← heq, ← pdeOf_eq_load32, htable.present] at habsent
      cases habsent)
    have haddr : k.pteAddr v = k₂.pteAddr v := by rw [pteAddr, pteAddr, hpde]
    have hword : k.mem.load32 (k.pteAddr v) =
        swapInWord (swapOutWord (k₀.mem.load32 (k₀.pteAddr v)) s') := by rw [haddr, hentry]
    have hframe : getFrameAddr (k.mem.load32 (k.pteAddr v)) = s' := by
      rw [hword, getFrameAddr_swapInWord, getFrameAddr_swapOutWord haligned (by omega)]
    refine
      { bytes := fun i hi => ?_
        attributes := by
          rw [hword]
          exact swapInWord_swapOutWord_attributes hmoved.present hpage.in_memory haligned
        slots_free := fun j hlo hhi => ?_ }
    · rw [byteAt_page hwf.recursive.paging_on hok₀.table hmoved.present hi,
        byteAt_page hback.changed.wf.recursive.paging_on (by rw [hpde]; exact htable.present)
          (by rw [hword]; exact isPagePresent_swapInWord) hi,
        hframe, hback.page i hi, h₂.sectorSize_eq, h₂.image i hi]
    · have hslots : k₂.pageSlots = k₀.pageSlots := pageSlots_congr h₂.sectorSize_eq
      have hinside : u32 (s' + k₀.pageSlots) < diskBitmapSize * 8 := by
        rw [u32_of_lt (by omega)]
        rw [hsize] at haligned
        omega
      rw [hback.slot_bits, hslots, decide_eq_true ⟨hlo, hhi, hinside⟩]
      rfl

/-! ## A disk that is a plain store -/

/-- The page at `p` in the slots from `slot` on. -/
def Kernel.writeSlot (k : Kernel) (slot p : Nat) : Kernel :=
  let pos := slot * diskSectorSize k
  { k with
    disk := k.disk.setImage k.disk.currDisk
      (k.image.patch pos pageSize fun a => k.mem (p + (a - pos))) }

/-- The slots from `slot` on in the page at `p`. -/
def Kernel.readSlot (k : Kernel) (slot p : Nat) : Kernel :=
  k.setMem (k.mem.patch p pageSize fun a => k.image (slot * diskSectorSize k + (a - p)))

/-- The transfers done on the bytes of the drive, and nothing else linked. -/
def storeExt : Ext where
  fault v := Prog.stop (.badAccess v)
  kmalloc _ := pure 0
  kfree _ := pure ()
  swapIn _ _ := pure false
  swapWrite slot frame := fun k =>
    match k.translate frame with
    | some p => .ok ((), k.writeSlot slot p)
    | none => .error (.badAccess frame)
  swapRead slot frame := fun k =>
    match k.translate frame with
    | some p => .ok ((), k.readSlot slot p)
    | none => .error (.badAccess frame)

/-- A table's words are apart from a frame that is no table. -/
theorem inUse_apart {k : Kernel} {frame a : Nat} (haligned : frame % pageSize = 0)
    (htables : ∀ i, i < 1024 → isPagePresent (k.entryAt k.dirFrame i) = true →
      getFrameAddr (k.entryAt k.dirFrame i) ≠ frame) (ha : k.InUse a) :
    a + 4 ≤ frame ∨ frame + pageSize ≤ a := by
  obtain ⟨i, j, hi, hj, hpresent, rfl, _⟩ := ha
  have hne := htables i hi hpresent
  have := getFrameAddr_aligned (k.entryAt k.dirFrame i)
  simp only [pageSize] at *
  omega

theorem storeExt_reliable : storeExt.Reliable where
  write k k' slot frame hwf hframe hrun := by
    simp only [storeExt, hframe, writeSlot] at hrun
    cases hrun
    refine ⟨⟨⟨hwf.recursive.paging_on, hwf.recursive.present, hwf.recursive.frame⟩, hwf.pmm,
      hwf.tables_used, hwf.slots_index⟩, ⟨rfl, rfl, rfl, fun _ h => h, fun _ _ => rfl⟩, rfl, ?_⟩
    rw [ByteStore.copy_eq_patch]
    exact Function.update_self ..
  read k k' slot frame hwf hframe haligned hused htables hrun := by
    simp only [storeExt, hframe, readSlot] at hrun
    rw [← ByteStore.copy_eq_patch] at hrun
    cases hrun
    have hself := htables _ (by decide) hwf.recursive.present
    rw [hwf.recursive.frame] at hself
    have hpde (i : Nat) (hi : i < 1024) :
        (k.mem.copy frame k.image (slot * diskSectorSize k) pageSize).load32 (k.dirFrame + 4 * i) =
          k.entryAt k.dirFrame i := by
      have := k.dirFrame_aligned
      simp only [pageSize] at *
      exact ByteStore.load32_copy_outside (by omega)
    refine ⟨⟨⟨hwf.recursive.paging_on, ?_, ?_⟩, hwf.pmm, fun i hi h => ?_, hwf.slots_index⟩,
      ⟨rfl, rfl, rfl, fun _ h => h, fun a ha => ?_⟩, rfl, rfl, fun i hi => ?_⟩
    · exact (congrArg isPagePresent (hpde _ (by decide))).trans hwf.recursive.present
    · exact (congrArg getFrameAddr (hpde _ (by decide))).trans hwf.recursive.frame
    · have hentry := hpde i hi
      have hpresent : isPagePresent (k.entryAt k.dirFrame i) = true :=
        (congrArg isPagePresent hentry).symm.trans h
      have hframe : k.FrameUsed (getFrameAddr (k.entryAt k.dirFrame i)) :=
        hwf.tables_used i hi hpresent
      rw [← hentry] at hframe
      exact hframe
    · exact ByteStore.load32_copy_outside (inUse_apart haligned htables ha)
    · exact ByteStore.copy_inside hi

/-- A swap-out with that disk. -/
theorem storeExt_swapOut {k : Kernel} {v : Nat} (hwf : k.SwapWf) (hok : SwapOutOk k v)
    (hpresent : isPagePresent (k.mem.load32 (k.pteAddr v)) = true)
    (hslot : (k.slots.diskAllocSlots k.pageSlots).1 ≠ diskNoSlotAvailable) :
    vmmSwapOutPage storeExt v k = .ok (true,
      (Kernel.writeSlot { k with slots := (k.slots.diskAllocSlots k.pageSlots).2 }
        (k.slots.diskAllocSlots k.pageSlots).1 (getFrameAddr (k.mem.load32 (k.pteAddr v)))).setMem
          (k.mem.store32 (k.pteAddr v) (swapOutWord (k.mem.load32 (k.pteAddr v))
            (k.slots.diskAllocSlots k.pageSlots).1))) := by
  have hpage := hok.page hpresent
  have hsize : diskSectorSize k ≠ 0 := by
    intro hzero
    have hsectors := hpage.sectors
    rw [hzero] at hsectors
    exact absurd hsectors (by simp [pageSize])
  have hptr := translate_windowAddr hwf.recursive hok.lt hok.table
  have hp := hwf.recursive.windowPtr hok.lt hok.table hpage.off_self hpage.off_walk
  obtain ⟨s, d, hsd⟩ : ∃ s d, k.slots.diskAllocSlots k.pageSlots = (s, d) := ⟨_, _, rfl⟩
  have halloc := diskAllocSlotsForPage_eq hsize
  rw [hsd] at hslot halloc ⊢
  have hptr₁ : Kernel.translate { k with slots := d } (windowAddr v) = some (k.pteAddr v) := hptr
  have hident : Kernel.translate { k with slots := d }
      (getFrameAddr (k.mem.load32 (k.pteAddr v))) =
        some (getFrameAddr (k.mem.load32 (k.pteAddr v))) := hpage.identity
  have hwrite : storeExt.swapWrite s (getFrameAddr (k.mem.load32 (k.pteAddr v)))
      { k with slots := d } = .ok ((), Kernel.writeSlot { k with slots := d } s
        (getFrameAddr (k.mem.load32 (k.pteAddr v)))) := by
    simp only [storeExt, hident]
  have hp₂ : EntryPtr (Kernel.writeSlot { k with slots := d } s
      (getFrameAddr (k.mem.load32 (k.pteAddr v)))) (windowAddr v) (k.pteAddr v) :=
    ⟨hp.ptr, hp.aligned, hp.off_pde, hp.off_pte⟩
  rw [vmmSwapOutPage, Prog.bind_of_ok (hok.getPageEntry hwf.recursive.paging_on),
    Prog.bind_of_ok (loadWord_mapped hptr), hpresent, if_neg (by decide), Prog.bind_of_ok halloc,
    if_neg hslot, Prog.bind_of_ok (loadWord_mapped hptr₁), Prog.bind_of_ok hwrite]
  exact hp₂.swapOutEntry storeExt s

/-- A directory in frame `0x100000` with itself in its last entry and one table,
in frame `0x101000`, that maps `0x102000` and `0x8000` to themselves. -/
def swapWords : List (Nat × Nat) :=
  [(0x100FFC, 0x100003), (0x100000, 0x101003), (0x101408, 0x102003), (0x101020, 0x8003)]

/-- Every frame is used but `0x8000`. -/
def swapPmm : Pmm := ⟨fun i => if i = 1 then 0xFE#8 else 0xFF#8, ⟨1, 0⟩, 1⟩

/-- The next free frame is `0x8000`; the search for slots starts at byte `index`. -/
def swapKernel (index : Nat) : Kernel where
  mem := ByteStore.ofWords swapWords
  cr3 := 0x100000
  pagingEnabled := true
  currentDirectory := 0xFFFFF000
  pmm := swapPmm
  heap := ⟨0x4001000, 0x406C000, fun _ => [], []⟩
  pageFifoQueue := []
  disk := ⟨fun _ => ⟨0x200#16, 1000000, 512, false, true, millionSectors_lt, sectorBytes_lt⟩, 0,
    fun _ _ => 0#8, fun _ => lba28, fun _ => .done, 0, ⟨0, 0, 0, 0, 0⟩⟩
  slots := ⟨fun _ => 0#8, index⟩

/-- After the page at `0x102000` went out, and after it came back. -/
def swapKernelOut (index : Nat) : Kernel :=
  (vmmSwapOutPage storeExt 0x102000).stateAfter (swapKernel index)

def swapKernelBack (index : Nat) : Kernel :=
  (vmmSwapInPage storeExt (windowAddr 0x102000) 0x102000).stateAfter (swapKernelOut index)

theorem swapWords_mem {a : Nat} (ha : a % 4 = 0) :
    (ByteStore.ofWords swapWords).load32 a = 0 ∨
      (a, (ByteStore.ofWords swapWords).load32 a) ∈ swapWords :=
  ByteStore.load32_ofWords_mem ha (by decide)

theorem swapKernel_wf {index : Nat} (h : index ≤ diskBitmapSize) : (swapKernel index).SwapWf := by
  have hself : (ByteStore.ofWords swapWords).load32 0x100FFC = 0x100003 := by decide +kernel
  have hdir : (swapKernel index).dirFrame = 0x100000 :=
    (by decide : getFrameAddr 0x100000 = 0x100000)
  have hentry (i : Nat) : (swapKernel index).entryAt (swapKernel index).dirFrame i =
      (ByteStore.ofWords swapWords).load32 (0x100000 + 4 * i) := by rw [entryAt, hdir]; rfl
  have hrec : (swapKernel index).entryAt (swapKernel index).dirFrame recursivePageTableIndex =
      0x100003 := (hentry _).trans hself
  have htables : ∀ p ∈ swapWords, p.1 < 0x101000 →
      swapPmm.pmmBitmap.bit (frameBit (getFrameAddr p.2)) = true := by decide
  exact
    { recursive :=
        { paging_on := rfl
          present := by rw [hrec]; decide
          frame := by rw [hrec, hdir]; decide }
      pmm :=
        { hint := fun _ => ⟨8, by decide, by decide, rfl,
            (by decide : swapPmm.pmmBitmap.bit 8 = false)⟩
          index_pos := Nat.le_refl 1
          index_lt := (by decide : 1 < pmmBitmapSize) }
      tables_used := fun i hi hpresent => by
        rw [hentry] at hpresent
        rw [FrameUsed, hentry]
        change swapPmm.pmmBitmap.bit _ = true
        rcases swapWords_mem (show (0x100000 + 4 * i) % 4 = 0 by omega) with hzero | hmem
        · rw [hzero] at hpresent
          cases hpresent
        · have hbelow : 0x100000 + 4 * i < 0x101000 := by omega
          exact htables (_, _) hmem hbelow
      slots_index := h }

theorem swapKernel_out_ok : SwapOutOk (swapKernel 4096) 0x102000 where
  lt := by decide
  dir_ne := by decide
  dir := by decide +kernel
  table := by decide +kernel
  table_in := by decide +kernel
  page _ :=
    { in_memory := by decide +kernel
      off_self := by decide +kernel
      off_walk := by decide +kernel
      sectors := by decide +kernel
      slot := by decide +kernel
      identity := by decide +kernel }

/-- The swap-out stores to the page's entry only. -/
theorem swapKernelOut_word {b : Nat} (hb : b % 4 = 0) (hne : b ≠ 0x101408) :
    (swapKernelOut 4096).mem.load32 b = (ByteStore.ofWords swapWords).load32 b := by
  have haddr : (swapKernel 4096).pteAddr 0x102000 = 0x101408 := by decide +kernel
  have hrun := storeExt_swapOut (swapKernel_wf (by decide)) swapKernel_out_ok (by decide +kernel)
    (by decide +kernel)
  rw [swapKernelOut, Prog.stateAfter_of_ok hrun, setMem, haddr,
    ByteStore.load32_store32_ne (by omega)]
  rfl

theorem swapKernel_in_ok :
    SwapInOk (swapKernelOut 4096) (windowAddr 0x102000) 0x102000 where
  lt := by decide
  ptr_lt := by decide
  table := by decide +kernel
  ptr := by decide +kernel
  swapped_out := by decide +kernel
  absent := by decide +kernel
  frame_ne := by decide +kernel
  frame := by decide +kernel
  identity := by decide +kernel
  unshared b hb hne hswapped _ := by
    have haddr : (swapKernelOut 4096).pteAddr 0x102000 = 0x101408 := by decide +kernel
    have hwords : ∀ p ∈ swapWords, isSwapped p.2 = false := by decide
    rw [haddr] at hne
    rw [swapKernelOut_word hb.aligned hne] at hswapped
    rcases swapWords_mem hb.aligned with hzero | hmem
    · rw [hzero] at hswapped
      cases hswapped
    · rw [hwords _ hmem] at hswapped
      cases hswapped

/-- To slot `0x8000` and back into frame `0x8000`. -/
theorem swap_round_trip_aligned :
    RoundTrip (swapKernel 4096) 0x102000 0x8000 (swapKernelBack 4096) := by
  have hslot : ((swapKernel 4096).slots.diskAllocSlots (swapKernel 4096).pageSlots).1 = 0x8000 := by
    decide +kernel
  have hout := Prog.eq_of_returnsTrue
    (show (vmmSwapOutPage storeExt 0x102000).returnsTrue (swapKernel 4096) = true by decide +kernel)
  have hin := Prog.eq_of_returnsTrue
    (show (vmmSwapInPage storeExt (windowAddr 0x102000) 0x102000).returnsTrue
      (swapKernelOut 4096) = true by decide +kernel)
  have hrun : (swapSys storeExt).IsRun (swapKernel 4096)
      ((.swapOut 0x102000 true, swapKernelOut 4096) ::
        ([] ++ [(.swapIn (windowAddr 0x102000) 0x102000 true, swapKernelBack 4096)])) :=
    ⟨hout, hin, trivial⟩
  rw [← hslot]
  exact swap_round_trip storeExt_reliable (swapKernel_wf (by decide)) hrun
    ⟨swapKernel_out_ok, swapKernel_in_ok, trivial⟩ trivial

/-- To slot 8, the first one found on a fresh disk: the slot's bit 3 stays in the
attribute bits. -/
theorem swap_slot_in_attributes :
    ∃ k₁ k, (swapKernel 1).SwapWf ∧
      (swapSys storeExt).IsRun (swapKernel 1) [(.swapOut 0x102000 true, k₁),
        (.swapIn (windowAddr 0x102000) 0x102000 true, k)] ∧
      ¬ RoundTrip (swapKernel 1) 0x102000 8 k := by
  have hout := Prog.eq_of_returnsTrue
    (show (vmmSwapOutPage storeExt 0x102000).returnsTrue (swapKernel 1) = true by decide +kernel)
  have hin := Prog.eq_of_returnsTrue
    (show (vmmSwapInPage storeExt (windowAddr 0x102000) 0x102000).returnsTrue
      (swapKernelOut 1) = true by decide +kernel)
  have hattributes : (swapKernelBack 1).mem.load32 ((swapKernelBack 1).pteAddr 0x102000) &&& 0xFFF ≠
      (swapKernel 1).mem.load32 ((swapKernel 1).pteAddr 0x102000) &&& 0xFFF := by decide +kernel
  exact ⟨swapKernelOut 1, swapKernelBack 1, swapKernel_wf (by decide), ⟨hout, hin, trivial⟩,
    fun h => hattributes h.attributes⟩

end MyOs
