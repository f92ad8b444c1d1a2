import MyOs.Logic.BlockStore
import MyOs.Logic.SlabCaches

/-!
# The caches are a store of blocks

What the functions of `kmalloc.c` do to the bytes of the slabs is what the lists of the
heap model do, through any nesting of their calls: the blocks they hand out lie apart,
and no call of theirs changes a byte of a block in use.
-/

namespace MyOs

open SlabPage SlabCaches

/-- The bytes hold the lists, and the blocks what was written to them. -/
structure HoldsBlocks (σ : CachesState) (t : BlockStore) : Prop where
  next : t.heap.currentHeapAddr = σ.caches.currentHeapAddr
  pending : t.pending = σ.pending
  live : t.live = σ.live
  lists : ∀ i, Visits σ.caches.mem (σ.caches.slabs i) (t.heap.slabs i)
  bytes : ∀ b ∈ t.live, ∀ a, b.1 ≤ a → a < b.1 + cacheObjectSize b.2 →
    σ.caches.mem a = t.bytes a
  layout : BlockLayout t

namespace HoldsBlocks

variable {σ σ' : CachesState} {t : BlockStore} {i o slab : Nat} {mem : ByteStore}

/-! ## What does not change -/

/-- A slab whose page did not change. -/
theorem keeps_slab (h : HoldsBlocks σ t) {s : Slab} (hs : s ∈ t.heap.slabs i)
    (hsame : ∀ a, s.addr ≤ a → a < s.addr + pageSize → mem a = σ.caches.mem a) :
    Represents mem s.addr s.freeList :=
  represents_page ((h.lists i).pages s hs) ((h.lists i).places s hs)
    (by rw [h.layout.slab_size i s hs]; exact cacheObjectSize_ge i) hsame

/-- The link of a slab is four bytes of its page. -/
theorem keeps_link {mem mem' : ByteStore} {a : Nat}
    (hsame : ∀ b, a + 16 ≤ b → b < a + 20 → mem' b = mem b) :
    linkAt mem' 16 a = linkAt mem 16 a :=
  congrArg pointer (ByteStore.load32_congr fun j hj => hsame _ (by omega) (by omega))

/-- A cache whose slabs' pages did not change. -/
theorem keeps_list (h : HoldsBlocks σ t) (hsame : ∀ s ∈ t.heap.slabs i, ∀ a, s.addr ≤ a →
      a < s.addr + pageSize → mem a = σ.caches.mem a) :
    Visits mem (σ.caches.slabs i) (t.heap.slabs i) where
  links := (h.lists i).links.congr fun a ha => by
    obtain ⟨s, hs, rfl⟩ := List.mem_map.mp ha
    exact keeps_link fun b hlo hhi => hsame s hs b (by omega) (by simp only [pageSize]; omega)
  pages s hs := h.keeps_slab hs (hsame s hs)
  places := (h.lists i).places

/-- What is written in the page of a slab in the making leaves the caches alone. -/
theorem keeps_pending (h : HoldsBlocks σ t) {p : SlabMaker × Nat × Nat} (hp : p ∈ t.pending)
    (hout : ∀ a, a < p.2.2 ∨ p.2.2 + pageSize ≤ a → mem a = σ.caches.mem a) (i : Nat) :
    Visits mem (σ.caches.slabs i) (t.heap.slabs i) := by
  refine h.keeps_list fun s hs a hlo hhi => hout a ?_
  have hapart := h.layout.pending_pages hp hs
  omega

/-- What is written in one page of the slabs leaves the blocks of the others alone. -/
theorem keeps_bytes (h : HoldsBlocks σ t) (hslab : SlabArea t.heap slab)
    (hout : ∀ a, a < slab ∨ slab + slabDataOffset ≤ a → mem a = σ.caches.mem a) :
    ∀ b ∈ t.live, ∀ a, b.1 ≤ a → a < b.1 + cacheObjectSize b.2 → mem a = t.bytes a := by
  intro b hb a hlo hhi
  have hinside := h.layout.live_inside hb
  have hpage := h.layout.live_pages hb hslab
  simp only [slabDataOffset, pageSize] at hinside hpage hout
  exact (hout a (by omega)).trans (h.bytes b hb a hlo hhi)

/-! ## Taking an object -/

section Take

variable {before after : List Slab} {s : Slab} {free : List Nat}

/-- The list of the cache after the slab has lost its first free object. -/
theorem taken_list (h : HoldsBlocks σ t) (hslabs : t.heap.slabs i = before ++ s :: after)
    (hfree : s.freeList = o :: free) (hrep : Represents mem s.addr free)
    (hlinks : ∀ u ∈ t.heap.slabs i, linkAt mem 16 u.addr = linkAt σ.caches.mem 16 u.addr)
    (hpages : ∀ u ∈ t.heap.slabs i, u.addr ≠ s.addr →
      ∀ a, u.addr ≤ a → a < u.addr + pageSize → mem a = σ.caches.mem a) :
    Visits mem (σ.caches.slabs i) (before ++ { s with freeList := free } :: after) where
  links := by
    have hold : Chained (linkAt mem 16) (pointer (σ.caches.slabs i))
        ((t.heap.slabs i).map Slab.addr) := (h.lists i).links.congr fun a ha => by
      obtain ⟨u, hu, rfl⟩ := List.mem_map.mp ha
      exact hlinks u hu
    rw [hslabs, List.map_append, List.map_cons] at hold
    rwa [List.map_append, List.map_cons]
  pages u hu := by
    have hother : u ∈ before ∨ u ∈ after → Represents mem u.addr u.freeList := fun hu => by
      obtain ⟨hmem, hne⟩ := h.layout.others hslabs hu
      exact h.keeps_slab hmem (hpages u hmem hne)
    rcases List.mem_append.mp hu with hb | hu
    · exact hother (.inl hb)
    · rcases List.mem_cons.mp hu with rfl | ha
      · exact hrep
      · exact hother (.inr ha)
  places u hu p hp := by
    obtain ⟨u', hu', haddr, hsize, hsub, _⟩ := h.layout.mem_taken hslabs hfree hu
    rw [← haddr, ← hsize]
    exact (h.lists i).places u' hu' p (hsub.subset hp)

/-- Taking the first free object of a slab. -/
theorem take (h : HoldsBlocks σ t) (hslabs : t.heap.slabs i = before ++ s :: after)
    (hfree : s.freeList = o :: free) {r : Nat × ByteStore}
    (hr : allocFromSlab s.addr σ.caches.mem = r) :
    r.1 = o ∧ ∃ t', t.Gets i o t' ∧
      t'.heap = t.heap.setSlabs i (before ++ { s with freeList := free } :: after) ∧
      t'.pending = t.pending ∧
      HoldsBlocks ⟨{ σ.caches with mem := r.2 }, σ.pending, (o, i) :: σ.live⟩ t' := by
  have hs : s ∈ t.heap.slabs i := by
    rw [hslabs]
    exact List.mem_append_right _ List.mem_cons_self
  have hrep := (h.lists i).pages s hs
  have hplaces := (h.lists i).places s hs
  have hapart := h.layout.free_apart hs (hfree ▸ List.mem_cons_self)
  rw [hfree] at hrep hplaces
  obtain ⟨hpos, mem', hrun, hrep'⟩ :=
    alloc_object hrep fun a ha => hplaces a (List.mem_cons_of_mem o ha)
  have hout : ∀ a, a < s.addr + 4 ∨ s.addr + 16 ≤ a → mem' a = σ.caches.mem a := fun a ha => by
    have hsame : (allocFromSlab s.addr σ.caches.mem).2 a = σ.caches.mem a :=
      allocFromSlab_outside ha
    rwa [hrun] at hsame
  obtain rfl := hr.symm.trans hrun
  -- the other slabs' pages, and the links of all
  have hpages : ∀ j, ∀ u ∈ t.heap.slabs j, u.addr ≠ s.addr →
      ∀ a, u.addr ≤ a → a < u.addr + pageSize → mem' a = σ.caches.mem a := by
    intro j u hu hne a hlo hhi
    have hpage := BlockLayout.pages_apart (h.layout.slab_area j u hu)
      (h.layout.slab_area i s hs) hne
    simp only [pageSize] at hpage hhi
    exact hout a (by omega)
  have hlinks : ∀ u ∈ t.heap.slabs i, linkAt mem' 16 u.addr = linkAt σ.caches.mem 16 u.addr := by
    intro u hu
    refine keeps_link fun b hlo hhi => ?_
    by_cases heq : u.addr = s.addr
    · exact hout b (.inr (heq ▸ hlo))
    · exact hpages i u hu heq b (by omega) (by simp only [pageSize]; omega)
  refine ⟨rfl, ⟨t.heap.setSlabs i (before ++ { s with freeList := free } :: after), t.pending,
    (o, i) :: t.live, fun a => if o ≤ a ∧ a < o + cacheObjectSize i then mem' a else t.bytes a⟩,
    ⟨Nat.ne_of_gt hpos, rfl, hapart, fun a ha => if_neg (by omega)⟩, rfl, rfl, ?_⟩
  refine
    { next := h.next
      pending := h.pending
      live := congrArg ((o, i) :: ·) h.live
      lists := fun j => ?_
      bytes := fun b hb a hlo hhi => ?_
      layout := h.layout.take hslabs hfree _ }
  · by_cases hj : j = i
    · subst hj
      rw [Heap.setSlabs_self]
      exact h.taken_list hslabs hfree hrep' hlinks (hpages j)
    · rw [Heap.setSlabs_ne _ hj]
      exact h.keeps_list fun u hu => hpages j u hu (h.layout.slabs_apart j i hj u hu s hs)
  · rcases List.mem_cons.mp hb with rfl | hb
    · exact (if_pos ⟨hlo, hhi⟩).symm
    · have happ := hapart b hb
      unfold ObjectsApart at happ
      dsimp only at happ
      have hnot : ¬(o ≤ a ∧ a < o + cacheObjectSize i) := by omega
      have hkeep := h.keeps_bytes (h.layout.slab_area i s hs)
        (fun a ha => hout a (by simp only [slabDataOffset] at ha; omega)) b hb a hlo hhi
      exact hkeep.trans (if_neg hnot).symm

end Take

/-! ## The search -/

section Search

variable {fuel : Nat} {caches : SlabCaches}

/-- An object that the search returns is that of the first slab with a free one. -/
theorem search_object (h : HoldsBlocks σ t) (ho : o ≠ 0)
    (hrun : σ.caches.search fuel i = some (o, caches)) :
    ∃ before s free after, t.heap.slabs i = before ++ s :: after ∧ s.freeList = o :: free ∧
      popFree (t.heap.slabs i) = some (o, before ++ { s with freeList := free } :: after) ∧
      caches = { σ.caches with mem := (allocFromSlab s.addr σ.caches.mem).2 } := by
  obtain ⟨⟨o', mem⟩, hloop, heq⟩ := Option.map_eq_some_iff.mp hrun
  obtain ⟨rfl, rfl⟩ := Prod.mk.inj heq
  cases hpop : popFree (t.heap.slabs i) with
  | none =>
      have hnull := searchLoop_agree hloop
        (searchLoop_null (h.lists i) hpop (Nat.lt_succ_self _))
      exact absurd (Prod.mk.inj hnull).1 ho
  | some found =>
      obtain ⟨first, slabs⟩ := found
      obtain ⟨_, before, s, free, after, hslabs, hfree, htaken, hfound⟩ :=
        searchLoop_found (h.lists i) hpop (Nat.lt_succ_self _)
      obtain ⟨rfl, hmem⟩ := Prod.mk.inj (searchLoop_agree hloop hfound)
      refine ⟨before, s, free, after, hslabs, hfree, by rw [htaken], ?_⟩
      rw [← hmem]

/-- It returns NULL only when the cache has no free object, and changes nothing then. -/
theorem search_null (h : HoldsBlocks σ t) (hrun : σ.caches.search fuel i = some (0, caches)) :
    popFree (t.heap.slabs i) = none ∧ caches = σ.caches := by
  obtain ⟨r, hloop, heq⟩ := Option.map_eq_some_iff.mp hrun
  cases hpop : popFree (t.heap.slabs i) with
  | none =>
      cases searchLoop_agree hloop (searchLoop_null (h.lists i) hpop (Nat.lt_succ_self _))
      cases heq
      exact ⟨rfl, rfl⟩
  | some found =>
      obtain ⟨hne, _, _, _, _, _, _, _, hfound⟩ :=
        searchLoop_found (h.lists i) hpop (Nat.lt_succ_self _)
      cases searchLoop_agree hloop hfound
      exact absurd (congrArg Prod.fst heq) hne

/-- It comes to an end. -/
theorem search_ends (h : HoldsBlocks σ t) (i : Nat) :
    ∃ fuel r, σ.caches.search fuel i = some r := by
  refine ⟨(t.heap.slabs i).length + 1, ?_⟩
  rw [SlabCaches.search]
  cases hpop : popFree (t.heap.slabs i) with
  | none =>
      rw [searchLoop_null (h.lists i) hpop (Nat.lt_succ_self _)]
      exact ⟨_, rfl⟩
  | some found =>
      obtain ⟨_, _, _, _, _, _, _, _, hfound⟩ :=
        searchLoop_found (h.lists i) hpop (Nat.lt_succ_self _)
      rw [hfound]
      exact ⟨_, rfl⟩

end Search

/-! ## Making a slab -/

section Make

variable {maker : SlabMaker} {rest : List (SlabMaker × Nat × Nat)}

/-- The next page is given out. -/
theorem place (h : HoldsBlocks σ t) (hi : i < numCaches) {caches : SlabCaches}
    (hrun : σ.caches.placeSlab = some (slab, caches)) (maker : SlabMaker) :
    t.heap.currentHeapAddr ≤ kernelBaseHeapAddr + kernelHeapSize ∧
      HoldsBlocks ⟨caches, (maker, i, slab) :: σ.pending, σ.live⟩ { t with
        heap := { t.heap with currentHeapAddr := u32 (t.heap.currentHeapAddr + pageSize) }
        pending := (maker, i, convertToVirAddr t.heap.currentHeapAddr) :: t.pending } := by
  rw [SlabCaches.placeSlab] at hrun
  split at hrun
  · next hroom =>
      obtain ⟨rfl, rfl⟩ := Prod.mk.inj (Option.some.inj hrun)
      rw [← h.next] at hroom
      exact ⟨hroom,
        { next := congrArg (fun a => u32 (a + pageSize)) h.next
          pending := by rw [h.next, h.pending]
          live := h.live
          lists := h.lists
          bytes := h.bytes
          layout := h.layout.place hi hroom maker }⟩
  · cases hrun

/-- The slab in the making has got its header and its objects, and the link of the first
one of `tail`. -/
theorem push (h : HoldsBlocks σ t) (hpending : t.pending = (maker, i, slab) :: rest)
    {tail : List Slab} {link : Nat} (htail : tail.Sublist (t.heap.slabs i))
    (hvisits : Visits mem link tail) (hnext : mem.load32 (SlabCaches.next slab) = link)
    (hslab : Represents mem slab (slabObjects i slab))
    (hout : ∀ a, a < slab ∨ slab + pageSize ≤ a → mem a = σ.caches.mem a) :
    HoldsBlocks ⟨{ σ.caches with
        mem := mem
        slabs := Function.update σ.caches.slabs i slab }, rest, σ.live⟩
      { t with
        heap := t.heap.setSlabs i (initSlab slab (cacheObjectSize i) :: tail)
        pending := rest } := by
  have hmem : (maker, i, slab) ∈ t.pending := hpending ▸ List.mem_cons_self
  have harea : SlabArea t.heap slab := h.layout.pending_area _ hmem
  refine
    { next := h.next
      pending := rfl
      live := h.live
      lists := fun j => ?_
      bytes := fun b hb a hlo hhi => ?_
      layout := h.layout.push hpending htail }
  · by_cases hj : j = i
    · subst hj
      dsimp only
      rw [Heap.setSlabs_self, Function.update_self]
      refine ⟨⟨pointer_of_pos (h.layout.area_lt harea).1, ?_⟩, fun u hu => ?_, fun u hu => ?_⟩
      · rw [linkAt]
        exact hnext ▸ hvisits.links
      · rcases List.mem_cons.mp hu with rfl | hu
        · exact hslab
        · exact hvisits.pages u hu
      · rcases List.mem_cons.mp hu with rfl | hu
        · exact fun p hp => hp
        · exact hvisits.places u hu
    · dsimp only
      rw [Heap.setSlabs_ne _ hj, Function.update_of_ne hj]
      exact h.keeps_pending hmem hout j
  · have hinside := h.layout.live_inside hb
    have hpage := BlockLayout.pages_apart (h.layout.live_area b hb) harea
      (h.layout.live_pending b hb _ hmem).symm
    exact (hout a (by simp only [slabDataOffset] at hinside; omega)).trans (h.bytes b hb a hlo hhi)

/-- The address of a slab is a word. -/
theorem first_lt (h : HoldsBlocks σ t) (i : Nat) : σ.caches.slabs i < 2 ^ 32 := by
  have hlist := h.lists i
  cases hslabs : t.heap.slabs i with
  | nil =>
      rw [hslabs] at hlist
      rw [pointer_eq_none.mp hlist.links]
      decide
  | cons s rest =>
      rw [hslabs] at hlist
      have harea := h.layout.area_lt
        (h.layout.slab_area i s (hslabs ▸ List.mem_cons_self))
      rw [hlist.tail.1]
      simp only [pageSize] at harea
      omega

/-- `init_kmalloc` has its slab: it is the only one of its cache. -/
theorem first (h : HoldsBlocks σ t) (hpending : t.pending = (maker, i, slab) :: rest) :
    HoldsBlocks ⟨σ.caches.firstSlab i slab, rest, σ.live⟩ { t with
      heap := t.heap.setSlabs i [initSlab slab (cacheObjectSize i)]
      pending := rest } := by
  have hmem : (maker, i, slab) ∈ t.pending := hpending ▸ List.mem_cons_self
  have hi : i < numCaches := h.layout.pending_cache _ hmem
  have hpage : slab + pageSize ≤ 2 ^ 32 := (h.layout.area_lt (h.layout.pending_area _ hmem)).2
  refine h.push hpending (List.nil_sublist _) ?_ (setUpSlab_next hi hpage)
    (setUpSlab_represents hi hpage _) fun a => setUpSlab_outside hi hpage
  exact ⟨rfl, fun s hs => absurd hs List.not_mem_nil, fun s hs => absurd hs List.not_mem_nil⟩

/-- `alloc_from_cache` has its slab: it is the first one of its cache, and its first
object is handed out. -/
theorem add (h : HoldsBlocks σ t) (hpending : t.pending = (maker, i, slab) :: rest) :
    ∃ slabs t', popFree (initSlab slab (cacheObjectSize i) :: t.heap.slabs i) =
        some ((σ.caches.addSlab i slab).1, slabs) ∧
      t.Gets i (σ.caches.addSlab i slab).1 t' ∧ t'.heap = t.heap.setSlabs i slabs ∧
      t'.pending = rest ∧
      HoldsBlocks ⟨(σ.caches.addSlab i slab).2, rest,
        ((σ.caches.addSlab i slab).1, i) :: σ.live⟩ t' := by
  have hmem : (maker, i, slab) ∈ t.pending := hpending ▸ List.mem_cons_self
  have hi : i < numCaches := h.layout.pending_cache _ hmem
  have hpage : slab + pageSize ≤ 2 ^ 32 := (h.layout.area_lt (h.layout.pending_area _ hmem)).2
  obtain ⟨free, hfree⟩ := initSlab_freeList (a := slab) (cacheObjectSize_pos i)
    (cacheObjectSize_le hi)
  have hout : ∀ a, a < slab ∨ slab + pageSize ≤ a →
      ByteStore.store32 (setUpSlab slab (cacheObjectSize i) σ.caches.mem) (SlabCaches.next slab)
        (σ.caches.slabs i) a = σ.caches.mem a := fun a ha => by
    rw [store32_outside (by simp only [SlabCaches.next, pageSize] at ha ⊢; omega)]
    exact setUpSlab_outside hi hpage ha
  have hvisits : Visits (ByteStore.store32 (setUpSlab slab (cacheObjectSize i) σ.caches.mem)
      (SlabCaches.next slab) (σ.caches.slabs i)) (σ.caches.slabs i) (t.heap.slabs i) :=
    h.keeps_pending hmem hout i
  obtain ⟨r, hr⟩ : ∃ r, allocFromSlab slab (ByteStore.store32
      (setUpSlab slab (cacheObjectSize i) σ.caches.mem) (SlabCaches.next slab)
      (σ.caches.slabs i)) = r := ⟨_, rfl⟩
  have hadd : σ.caches.addSlab i slab = (r.1, { σ.caches with
      mem := r.2
      slabs := Function.update σ.caches.slabs i slab }) := by
    rw [← hr]
    rfl
  have hpushed := h.push hpending (List.Sublist.refl _) hvisits
    (ByteStore.load32_store32 (h.first_lt i))
    (represents_next (setUpSlab_represents hi hpage _) (fun o ho => ho) _) hout
  have hslabs : (t.heap.setSlabs i (initSlab slab (cacheObjectSize i) :: t.heap.slabs i)).slabs i =
      [] ++ initSlab slab (cacheObjectSize i) :: t.heap.slabs i := Heap.setSlabs_self _ _ _
  obtain ⟨hobject, t', hgets, hheap, hpending', hholds⟩ := hpushed.take hslabs hfree hr
  rw [← hobject] at hgets hholds hfree
  rw [hadd]
  refine ⟨_, t', by rw [popFree, hfree], ⟨hgets.ne_null, hgets.live, hgets.apart, hgets.bytes⟩,
    ?_, hpending', hholds⟩
  rw [hheap, List.nil_append]
  exact Heap.setSlabs_setSlabs t.heap i _ _

end Make

/-! ## Writing and giving back -/

section Write

variable {s : Slab} {a : Nat}

/-- A byte of a slab's page that is in no block in use. -/
theorem owned (h : HoldsBlocks σ t) (hs : s ∈ t.heap.slabs i) (hlo : s.addr ≤ a)
    (hhi : a < s.addr + pageSize)
    (hlive : ∀ b ∈ t.live, a < b.1 ∨ b.1 + cacheObjectSize b.2 ≤ a) : σ.Owned a := by
  have harea := h.layout.slab_area i s hs
  refine ⟨harea.2.1.trans hlo, ?_, fun p hp => ?_, fun b hb => hlive b (h.live ▸ hb)⟩
  · rw [← h.next]
    exact hhi.trans_le harea.2.2
  · rw [← h.pending] at hp
    have hapart := h.layout.pending_pages hp hs
    omega

theorem owned_header (h : HoldsBlocks σ t) (hs : s ∈ t.heap.slabs i) (hlo : s.addr ≤ a)
    (hhi : a < s.addr + slabDataOffset) : σ.Owned a := by
  refine h.owned hs hlo (by simp only [slabDataOffset, pageSize] at hhi ⊢; omega) fun b hb => ?_
  have hinside := h.layout.live_inside hb
  have hpage := h.layout.live_pages hb (h.layout.slab_area i s hs)
  simp only [slabDataOffset, pageSize] at hhi hinside hpage
  omega

theorem owned_free (h : HoldsBlocks σ t) (hs : s ∈ t.heap.slabs i) (ho : o ∈ s.freeList)
    (hlo : o ≤ a) (hhi : a < o + cacheObjectSize i) : σ.Owned a := by
  have hinside := slabObjects_inside (h.layout.free i s hs o ho)
  refine h.owned hs (by omega) (by omega) fun b hb => ?_
  have hapart := h.layout.free_apart hs ho b hb
  unfold ObjectsApart at hapart
  dsimp only at hapart
  omega

/-- What is written in the blocks is read from them, and leaves the lists alone. -/
theorem write (h : HoldsBlocks σ t) (hsame : ∀ a, σ.Owned a → mem a = σ.caches.mem a) :
    HoldsBlocks { σ with caches := { σ.caches with mem := mem } } { t with bytes := mem } where
  next := h.next
  pending := h.pending
  live := h.live
  lists j := by
    have hheader : ∀ s ∈ t.heap.slabs j, ∀ off, off + 4 ≤ slabDataOffset →
        mem.load32 (s.addr + off) = σ.caches.mem.load32 (s.addr + off) := fun s hs off hoff =>
      ByteStore.load32_congr fun n hn => hsame _ (h.owned_header hs (by omega) (by omega))
    refine ⟨(h.lists j).links.congr fun a ha => ?_, fun s hs => ?_, (h.lists j).places⟩
    · obtain ⟨s, hs, rfl⟩ := List.mem_map.mp ha
      exact congrArg pointer (hheader s hs 16 (by decide))
    · refine ((h.lists j).pages s hs).congr (hheader s hs 4 (by decide))
        (hheader s hs 12 (by decide)) fun o ho => ?_
      have hsize := cacheObjectSize_ge j
      exact ByteStore.load32_congr fun n hn => hsame _ (h.owned_free hs ho (by omega) (by omega))
  bytes _ _ _ _ _ := rfl
  layout := h.layout.drop (List.Sublist.refl _) mem

/-- `kfree` does not find a slab at the address of a block: it gives nothing back. -/
theorem kfree_nothing (h : HoldsBlocks σ t) (hb : (o, i) ∈ t.live) :
    σ.caches.kfree o = σ.caches := by
  have hinside := (h.layout.live_inside hb).1
  have hbase := (h.layout.live_area _ hb).2.1
  have hwindow : isSlabWindow o = false := by
    rw [isSlabWindow, Bool.and_eq_false_iff]
    refine .inr (decide_eq_false ?_)
    dsimp only at hinside hbase
    rw [kernelBaseHeapAddr_eq] at hbase ⊢
    rw [kernelHeapSize_eq]
    omega
  rw [SlabCaches.kfree]
  split
  · rfl
  · rw [hwindow]
    rfl

/-- A block given back is not in use any more. -/
theorem drop (h : HoldsBlocks σ t) (b : Nat × Nat) :
    HoldsBlocks { σ with live := σ.live.erase b } { t with live := t.live.erase b } where
  next := h.next
  pending := h.pending
  live := congrArg (List.erase · b) h.live
  lists := h.lists
  bytes c hc := h.bytes c (List.mem_of_mem_erase hc)
  layout := h.layout.drop List.erase_sublist t.bytes

end Write

/-! ## The calls -/

theorem of_init (h : cachesSys.init σ) : ∃ t, BlockStore.sys.init t ∧ HoldsBlocks σ t := by
  obtain ⟨mem, rfl⟩ := h
  have hinit : BlockStore.sys.init
      ⟨⟨kernelBaseHeapAddr, 0, fun _ => [], []⟩, [], [], mem⟩ := ⟨rfl, rfl, rfl, rfl⟩
  exact ⟨_, hinit,
    { next := rfl
      pending := rfl
      live := rfl
      lists := fun i => ⟨rfl, fun s hs => absurd hs List.not_mem_nil,
        fun s hs => absurd hs List.not_mem_nil⟩
      bytes := fun b hb => absurd hb List.not_mem_nil
      layout := .of_init hinit }⟩

/-- A call of the caches is one of the lists. -/
theorem step (h : HoldsBlocks σ t) {call : CachesCall} (hstep : cachesSys.step σ call σ') :
    ∃ t', BlockStore.sys.step t call t' ∧ HoldsBlocks σ' t' := by
  cases call with
  | alloc i o =>
      obtain ⟨_, ho, fuel, caches, hrun, rfl⟩ := hstep
      obtain ⟨before, s, free, after, hslabs, hfree, hpop, rfl⟩ := h.search_object ho hrun
      obtain ⟨_, t', hgets, hheap, hpending, hholds⟩ := h.take hslabs hfree rfl
      exact ⟨t', ⟨_, hpop, hgets, hheap, hpending⟩, hholds⟩
  | place maker i =>
      obtain ⟨hi, before, hcalls, slab, caches, hrun, rfl⟩ := hstep
      have hbefore : (maker = .allocFromCache → popFree (t.heap.slabs i) = none) ∧
          before = σ.caches := by
        cases maker with
        | allocFromCache =>
            obtain ⟨fuel, hsearch⟩ := hcalls
            obtain ⟨hnone, hsame⟩ := h.search_null hsearch
            exact ⟨fun _ => hnone, hsame⟩
        | initKmalloc => exact ⟨fun hne => absurd hne (by decide), hcalls⟩
      obtain ⟨hnone, rfl⟩ := hbefore
      obtain ⟨hroom, hholds⟩ := h.place hi hrun maker
      exact ⟨_, ⟨hnone, hroom, rfl⟩, hholds⟩
  | add o =>
      obtain ⟨i, slab, rest, hpending, rfl, rfl⟩ := hstep
      rw [← h.pending] at hpending
      obtain ⟨slabs, t', hpop, hgets, hheap, hrest, hholds⟩ := h.add hpending
      exact ⟨t', ⟨i, slab, rest, slabs, hpending, hpop, hgets, hheap, hrest⟩, hholds⟩
  | first =>
      obtain ⟨i, slab, rest, hpending, rfl⟩ := hstep
      rw [← h.pending] at hpending
      exact ⟨_, ⟨i, slab, rest, hpending, rfl⟩, h.first hpending⟩
  | kfree o =>
      obtain ⟨i, hb, rfl⟩ := hstep
      rw [← h.live] at hb
      rw [h.kfree_nothing hb]
      exact ⟨_, ⟨i, hb, rfl⟩, h.drop (o, i)⟩
  | write mem =>
      obtain ⟨hsame, rfl⟩ := hstep
      exact ⟨_, rfl, h.write hsame⟩

end HoldsBlocks

/-- **The caches are a store of blocks.** From the boot on, in any interleaving of
allocations, slabs in the making, frees and the owners' writes, the bytes of the slabs do
what the heap's lists do: a block is a free object of the first slab that has one, the
blocks in use lie apart and keep what their owners wrote, and every search of a cache
comes to an end. -/
theorem caches_are_blocks :
    cachesSys.Simulates BlockStore.sys HoldsBlocks (· = ·) ∧
      cachesSys.Invariant fun σ => σ.live.Pairwise ObjectsApart ∧
        ∀ i, ∃ fuel r, σ.caches.search fuel i = some r := by
  refine ⟨⟨fun σ hσ => HoldsBlocks.of_init hσ, fun σ call σ' t h hstep => ?_⟩, ?_⟩
  · obtain ⟨t', ht', hnext⟩ := h.step hstep
    exact ⟨call, t', rfl, ht', hnext⟩
  · have hholds : cachesSys.Invariant fun σ => ∃ t, HoldsBlocks σ t :=
      TSys.Inductive.invariant
        { init := fun σ hσ => by
            obtain ⟨t, _, h⟩ := HoldsBlocks.of_init hσ
            exact ⟨t, h⟩
          step := fun σ call σ' hσ hstep => by
            obtain ⟨t, h⟩ := hσ
            obtain ⟨t', _, h'⟩ := h.step hstep
            exact ⟨t', h'⟩ }
    intro σ hσ
    obtain ⟨t, h⟩ := hholds σ hσ
    exact ⟨h.live ▸ h.layout.live_apart, h.search_ends⟩

end MyOs
