import MyOs.Memory.LargeList

/-!
# The pointers of the large blocks' list

Memory represents a list of records when the `next` fields lead through them from the
head to NULL and the `prev` fields back. Records lie apart, so a write to a field of one
record changes that field alone, and each function has one lemma.
-/

namespace MyOs
namespace LargeList

open LargeField

/-- Two records share no byte. -/
def Apart (a b : Nat) : Prop := a + largeAllocSize ≤ b ∨ b + largeAllocSize ≤ a

theorem Apart.symm {a b : Nat} (h : Apart a b) : Apart b a := Or.symm h

theorem Apart.ne {a b : Nat} (h : Apart a b) : a ≠ b := by
  rintro rfl
  rw [Apart, largeAllocSize] at h
  omega

section Fields

variable {mem : ByteStore} {f g : LargeField} {a b w : Nat}

theorem read_lt (mem : ByteStore) (f : LargeField) (a : Nat) : f.read mem a < 2 ^ 32 :=
  mem.load32_lt _

theorem read_write_same (hw : w < 2 ^ 32) : f.read (f.write mem a w) a = w :=
  ByteStore.load32_store32 hw

theorem read_write_field (hfg : f ≠ g) : f.read (g.write mem a w) a = f.read mem a := by
  refine ByteStore.load32_store32_ne ?_
  cases f <;> cases g <;> simp_all [offset]

theorem read_write_apart (h : Apart a b) : f.read (g.write mem b w) a = f.read mem a := by
  refine ByteStore.load32_store32_ne ?_
  rw [Apart, largeAllocSize] at h
  cases f <;> cases g <;> simp only [offset] <;> omega

/-- A write to `prev` or `next` of one record, read in any record. -/
theorem read_write (hw : w < 2 ^ 32) (h : a = b ∨ Apart a b) :
    f.read (g.write mem b w) a = if a = b ∧ f = g then w else f.read mem a := by
  rcases h with rfl | hapart
  · by_cases hfg : f = g
    · rw [hfg, read_write_same hw, if_pos ⟨rfl, rfl⟩]
    · rw [read_write_field hfg, if_neg fun h => hfg h.2]
  · rw [read_write_apart hapart, if_neg fun h => hapart.ne h.1]

end Fields

/-- The addresses of records. -/
def nodes (records : List LargeAlloc) : List Nat := records.map LargeAlloc.node

/-- The record a `next` or `prev` field points to. -/
def fieldLink (mem : ByteStore) (f : LargeField) : Nat → Option Nat := linkAt mem f.offset

theorem fieldLink_eq (mem : ByteStore) (f : LargeField) (a : Nat) :
    fieldLink mem f a = pointer (f.read mem a) := rfl

/-- The list in memory is `records`. -/
structure Represents (σ : LargeList) (records : List LargeAlloc) : Prop where
  links : Chained (fieldLink σ.mem next) (pointer σ.head) (nodes records)
  backs : Backed (fieldLink σ.mem prev) none (nodes records)
  sizes : ∀ r ∈ records, size.read σ.mem r.node = r.size
  ptrs : ∀ r ∈ records, ptr.read σ.mem r.node = r.ptr
  apart : records.Pairwise fun r s => Apart r.node s.node
  placed : ∀ r ∈ records, 0 < r.node ∧ r.node + largeAllocSize ≤ 2 ^ 32

/-- A record that `create_large_alloc` can make. -/
structure Fresh (r : LargeAlloc) (records : List LargeAlloc) : Prop where
  placed : 0 < r.node
  fits : r.node + largeAllocSize ≤ 2 ^ 32
  size : r.size < 2 ^ 32
  ptr : r.ptr < 2 ^ 32
  apart : ∀ s ∈ records, Apart r.node s.node

/-- The fields of the records are the same in both memories. -/
def SameRecords (records : List LargeAlloc) (mem mem' : ByteStore) : Prop :=
  ∀ r ∈ records, ∀ i, i < largeAllocSize → mem' (r.node + i) = mem (r.node + i)

variable {σ : LargeList} {records : List LargeAlloc} {r : LargeAlloc}

theorem SameRecords.read {mem mem' : ByteStore} (h : SameRecords records mem mem')
    (hr : r ∈ records) (f : LargeField) : f.read mem' r.node = f.read mem r.node := by
  refine ByteStore.load32_congr fun i hi => ?_
  rw [Nat.add_assoc]
  refine h r hr _ ?_
  cases f <;> simp only [offset, largeAllocSize] <;> omega

theorem Represents.congr {mem : ByteStore} (h : Represents σ records)
    (hsame : SameRecords records σ.mem mem) : Represents { σ with mem := mem } records where
  links := h.links.congr fun a ha => by
    obtain ⟨r, hr, rfl⟩ := List.mem_map.mp ha
    exact congrArg pointer (hsame.read hr next)
  backs := h.backs.congr fun a ha => by
    obtain ⟨r, hr, rfl⟩ := List.mem_map.mp ha
    exact congrArg pointer (hsame.read hr prev)
  sizes r hr := (hsame.read hr size).trans (h.sizes r hr)
  ptrs r hr := (hsame.read hr ptr).trans (h.ptrs r hr)
  apart := h.apart
  placed := h.placed

theorem Represents.head (h : Represents σ records) :
    pointer σ.head = records.head?.map LargeAlloc.node := by
  rw [h.links.head, nodes, List.head?_map]

/-! ## `insert_large_alloc` -/

/-- What a new record holds, and that the others are as they were. -/
theorem createLargeAlloc_spec (mem : ByteStore) (hfresh : Fresh r records) :
    size.read (createLargeAlloc r.node r.size r.ptr mem) r.node = r.size ∧
      ptr.read (createLargeAlloc r.node r.size r.ptr mem) r.node = r.ptr ∧
      next.read (createLargeAlloc r.node r.size r.ptr mem) r.node = 0 ∧
      prev.read (createLargeAlloc r.node r.size r.ptr mem) r.node = 0 ∧
      ∀ s ∈ records, ∀ f : LargeField,
        f.read (createLargeAlloc r.node r.size r.ptr mem) s.node = f.read mem s.node := by
  have hsize := hfresh.size
  have hptr := hfresh.ptr
  refine ⟨?_, ?_, ?_, ?_, fun s hs f => ?_⟩
  · rw [createLargeAlloc, read_write_field (by decide), read_write_field (by decide),
      read_write_field (by decide), read_write_same hsize]
  · rw [createLargeAlloc, read_write_field (by decide), read_write_field (by decide),
      read_write_same hptr]
  · rw [createLargeAlloc, read_write_field (by decide), read_write_same (by decide)]
  · rw [createLargeAlloc, read_write_same (by decide)]
  · have hapart := (hfresh.apart s hs).symm
    rw [createLargeAlloc, read_write_apart hapart, read_write_apart hapart,
      read_write_apart hapart, read_write_apart hapart]

/-- A new record is first on the list. -/
theorem insert_represents (h : Represents σ records) (hfresh : Fresh r records) :
    Represents (insertLargeAlloc r.node
      { σ with mem := createLargeAlloc r.node r.size r.ptr σ.mem }) (r :: records) := by
  obtain ⟨hsize, hptr, hnext, hprev, hothers⟩ := createLargeAlloc_spec σ.mem hfresh
  obtain ⟨mem, hmem⟩ : ∃ mem, mem = createLargeAlloc r.node r.size r.ptr σ.mem := ⟨_, rfl⟩
  rw [← hmem] at hsize hptr hnext hprev hothers ⊢
  have hplaced : ∀ s ∈ r :: records, 0 < s.node ∧ s.node + largeAllocSize ≤ 2 ^ 32 := by
    intro s hs
    rcases List.mem_cons.mp hs with rfl | hs
    · exact ⟨hfresh.placed, hfresh.fits⟩
    · exact h.placed s hs
  have hpairwise : (r :: records).Pairwise fun r s => Apart r.node s.node :=
    List.pairwise_cons.mpr ⟨hfresh.apart, h.apart⟩
  have hfirst : pointer r.node = some r.node := pointer_of_pos hfresh.placed
  cases records with
  | nil =>
      have hhead : σ.head = 0 := pointer_eq_none.mp h.head
      rw [insertLargeAlloc, if_pos hhead]
      refine ⟨⟨hfirst, ?_⟩, ⟨?_, trivial⟩, ?_, ?_, hpairwise, hplaced⟩
      · exact congrArg pointer hnext
      · exact congrArg pointer hprev
      · simpa using hsize
      · simpa using hptr
  | cons q rest =>
      obtain ⟨hhead, hpos⟩ := pointer_eq_some.mp h.head
      have hapart := hfresh.apart q (List.mem_cons_self ..)
      have hfits := hfresh.fits
      have hfitsq := (h.placed q (List.mem_cons_self ..)).2
      rw [largeAllocSize] at hfits hfitsq
      obtain ⟨mem', hmem'⟩ : ∃ mem', mem' =
        next.write (prev.write mem q.node r.node) r.node q.node := ⟨_, rfl⟩
      have hrun : insertLargeAlloc r.node { σ with mem := mem } = ⟨mem', r.node⟩ := by
        rw [insertLargeAlloc, if_neg (show ¬ σ.head = 0 by omega), hmem']
        simp only [hhead]
      -- only the `prev` field of the old first record is written
      have hold {s : LargeAlloc} (hs : s ∈ q :: rest) {f : LargeField}
          (hf : f ≠ prev ∨ Apart s.node q.node) : f.read mem' s.node = f.read σ.mem s.node := by
        rw [hmem', read_write_apart (hfresh.apart s hs).symm, ← hothers s hs f]
        rcases hf with hf | hf
        · rcases List.mem_cons.mp hs with rfl | hrest
          · exact read_write_field hf
          · exact read_write_apart ((List.pairwise_cons.mp h.apart).1 s hrest).symm
        · exact read_write_apart hf
      have hnextOld : ∀ a ∈ nodes (q :: rest), fieldLink mem' next a = fieldLink σ.mem next a := by
        intro a ha
        obtain ⟨s, hs, rfl⟩ := List.mem_map.mp ha
        exact congrArg pointer (hold hs (.inl (by decide)))
      have hnextNew : next.read mem' r.node = q.node := by
        rw [hmem', read_write_same (by omega)]
      have hprevNew : prev.read mem' r.node = 0 := by
        rw [hmem', read_write_field (by decide), read_write_apart hapart, hprev]
      have hprevOld : prev.read mem' q.node = r.node := by
        rw [hmem', read_write_apart hapart.symm, read_write_same (by omega)]
      rw [hrun]
      refine ⟨⟨hfirst, ?_⟩, ⟨?_, ?_, ?_⟩, fun s hs => ?_, fun s hs => ?_, hpairwise, hplaced⟩
      · have hlinks := h.links.congr hnextOld
        rwa [hhead, ← hnextNew] at hlinks
      · exact congrArg pointer hprevNew
      · exact (congrArg pointer hprevOld).trans hfirst
      · refine h.backs.2.congr fun a ha => ?_
        obtain ⟨s, hs, rfl⟩ := List.mem_map.mp ha
        exact congrArg pointer (hold (List.mem_cons_of_mem q hs)
          (.inr ((List.pairwise_cons.mp h.apart).1 s hs).symm))
      · rcases List.mem_cons.mp hs with rfl | hs
        · rw [hmem', read_write_field (by decide), read_write_apart hapart, hsize]
        · rw [hold hs (.inl (by decide)), h.sizes s hs]
      · rcases List.mem_cons.mp hs with rfl | hs
        · rw [hmem', read_write_field (by decide), read_write_apart hapart, hptr]
        · rw [hold hs (.inl (by decide)), h.ptrs s hs]

/-! ## `large_alloc_remove` -/

/-- The neighbours `p` and `n` of a record linked to each other; 0 where there is none. -/
def relinked (mem : ByteStore) (p n : Nat) : ByteStore :=
  let mem := if p ≠ 0 then next.write mem p n else mem
  if n ≠ 0 then prev.write mem n p else mem

/-- A record with its pointers set to NULL. -/
def cleared (mem : ByteStore) (a : Nat) : ByteStore :=
  ptr.write (prev.write (next.write mem a 0) a 0) a 0

section Remove

variable {mem : ByteStore} {f : LargeField} {a b p n : Nat}

theorem relinked_read (hp : p < 2 ^ 32) (hn : n < 2 ^ 32) (hbp : p ≠ 0 → b = p ∨ Apart b p)
    (hbn : n ≠ 0 → b = n ∨ Apart b n) :
    f.read (relinked mem p n) b =
      if n ≠ 0 ∧ b = n ∧ f = prev then p
      else if p ≠ 0 ∧ b = p ∧ f = next then n else f.read mem b := by
  have hfirst : f.read (if p ≠ 0 then next.write mem p n else mem) b =
      if p ≠ 0 ∧ b = p ∧ f = next then n else f.read mem b := by
    by_cases hzero : p = 0
    · simp [hzero]
    · rw [if_pos hzero, read_write hn (hbp hzero)]
      simp [hzero]
  rw [relinked]
  by_cases hzero : n = 0
  · simpa [hzero] using hfirst
  · simp only [if_pos hzero]
    rw [read_write hp (hbn hzero), hfirst]
    simp [hzero]

theorem cleared_read (h : Apart b a) : f.read (cleared mem a) b = f.read mem b := by
  rw [cleared, read_write_apart h, read_write_apart h, read_write_apart h]

/-- The whole function, with the neighbours it finds. -/
theorem largeAllocRemove_eq {kfree : Nat → ByteStore → ByteStore} (ha : a ≠ 0)
    (hp : prev.read σ.mem a = p) (hn : next.read σ.mem a = n) (hap : p ≠ 0 → Apart a p) :
    largeAllocRemove kfree a σ =
      ⟨kfree a (cleared (relinked σ.mem p n) a), if p = 0 then n else σ.head⟩ := by
  rw [largeAllocRemove, if_neg ha, hp, hn]
  by_cases hzero : p = 0
  · rw [hzero] at hp
    simp [hzero, hp, hn, relinked, cleared]
  · have hkept (f : LargeField) : f.read (next.write σ.mem p n) a = f.read σ.mem a :=
      read_write_apart (hap hzero)
    simp [hzero, hkept, hp, hn, relinked, cleared]

end Remove

theorem Represents.apart_of_ne {s t : LargeAlloc} (h : Represents σ records) (hs : s ∈ records)
    (ht : t ∈ records) (hne : s.node ≠ t.node) : Apart s.node t.node := by
  have hsymm : Std.Symm fun r s : LargeAlloc => Apart r.node s.node := ⟨fun _ _ => Apart.symm⟩
  exact h.apart.forall hs ht fun heq => hne (congrArg LargeAlloc.node heq)

theorem nodes_append (l l' : List LargeAlloc) : nodes (l ++ l') = nodes l ++ nodes l' :=
  List.map_append ..

section Cut

variable {pre post : List LargeAlloc} {p n b : Nat}

/-- The neighbours of a record on the list. -/
theorem Represents.neighbours (h : Represents σ (pre ++ r :: post))
    (hp : prev.read σ.mem r.node = p) (hn : next.read σ.mem r.node = n) :
    pointer p = (nodes pre).getLast? ∧ pointer n = (nodes post).head? := by
  have hlinks := h.links
  have hbacks := h.backs
  rw [nodes_append] at hlinks hbacks
  have hnext := hlinks.next_eq
  have hprev := hbacks.prev_eq
  rw [fieldLink_eq, hn] at hnext
  rw [fieldLink_eq, hp] at hprev
  refine ⟨?_, hnext⟩
  rw [hprev]
  split
  · next hnil => rw [hnil, List.getLast?_nil]
  · rfl

/-- The addresses of the records are different. -/
theorem Represents.disjoint (h : Represents σ (pre ++ r :: post)) :
    (nodes pre).Nodup ∧ (r.node :: nodes post).Nodup ∧
      ∀ a ∈ nodes pre, ∀ b ∈ r.node :: nodes post, a ≠ b := by
  have hnodup := h.links.nodup
  rw [nodes_append] at hnodup
  exact List.nodup_append.mp hnodup

theorem Represents.apart_or_eq (h : Represents σ records) {a b : Nat} (ha : a ∈ nodes records)
    (hb : b ∈ nodes records) : a = b ∨ Apart a b := by
  obtain ⟨s, hs, rfl⟩ := List.mem_map.mp ha
  obtain ⟨t, ht, rfl⟩ := List.mem_map.mp hb
  by_cases heq : s.node = t.node
  · exact .inl heq
  · exact .inr (h.apart_of_ne hs ht heq)

/-- A neighbour is a record that stays. -/
theorem mem_of_last (hlast : pointer p = (nodes pre).getLast?) (hzero : p ≠ 0) :
    p ∈ nodes pre :=
  List.mem_of_getLast? (hlast.symm.trans (pointer_of_pos (by omega)))

theorem mem_of_head (hhead : pointer n = (nodes post).head?) (hzero : n ≠ 0) :
    n ∈ nodes post :=
  List.mem_of_mem_head? (hhead.symm.trans (pointer_of_pos (by omega)))

/-- What the fields of the records that stay hold after the cut. -/
theorem cut_read (h : Represents σ (pre ++ r :: post)) (hp : prev.read σ.mem r.node = p)
    (hn : next.read σ.mem r.node = n) (hb : b ∈ nodes pre ++ nodes post) (f : LargeField) :
    f.read (cleared (relinked σ.mem p n) r.node) b =
      if n ≠ 0 ∧ b = n ∧ f = prev then p
      else if p ≠ 0 ∧ b = p ∧ f = next then n else f.read σ.mem b := by
  obtain ⟨hlast, hhead⟩ := h.neighbours hp hn
  obtain ⟨_, hnodupPost, hdisjoint⟩ := h.disjoint
  have hin {a : Nat} (ha : a ∈ nodes pre ++ nodes post) : a ∈ nodes (pre ++ r :: post) := by
    rw [nodes_append]
    rw [List.mem_append] at ha ⊢
    exact ha.imp_right (List.mem_cons_of_mem _)
  have hself : r.node ∈ nodes (pre ++ r :: post) := List.mem_map_of_mem (by simp)
  have hne : b ≠ r.node := by
    rcases List.mem_append.mp hb with hpre | hpost
    · exact hdisjoint b hpre r.node (by simp)
    · rintro rfl
      exact (List.nodup_cons.mp hnodupPost).1 hpost
  rw [cleared_read ((h.apart_or_eq (hin hb) hself).resolve_left hne)]
  refine relinked_read (hp ▸ read_lt ..) (hn ▸ read_lt ..) (fun hzero => ?_) fun hzero => ?_
  · exact h.apart_or_eq (hin hb) (hin (List.mem_append_left _ (mem_of_last hlast hzero)))
  · exact h.apart_or_eq (hin hb) (hin (List.mem_append_right _ (mem_of_head hhead hzero)))

theorem cut_links (h : Represents σ (pre ++ r :: post)) (hp : prev.read σ.mem r.node = p)
    (hn : next.read σ.mem r.node = n) :
    Chained (fieldLink (cleared (relinked σ.mem p n) r.node) next)
      (pointer (if p = 0 then n else σ.head)) (nodes (pre ++ post)) := by
  obtain ⟨hlast, hhead⟩ := h.neighbours hp hn
  obtain ⟨hnodupPre, _, hdisjoint⟩ := h.disjoint
  have hlinks := h.links
  rw [nodes_append] at hlinks ⊢
  refine hlinks.erase ?_ (fun x hx => ?_) fun b hb => ?_
  · by_cases hzero : p = 0
    · have hnil : nodes pre = [] := by
        rw [hzero] at hlast
        exact List.getLast?_eq_none_iff.mp hlast.symm
      rw [if_pos hzero, if_pos hnil, fieldLink_eq, hn]
    · have hcons : nodes pre ≠ [] := List.ne_nil_of_mem (mem_of_last hlast hzero)
      rw [if_neg hzero, if_neg hcons]
  · obtain ⟨rfl, hpos⟩ := pointer_eq_some.mp (hlast.trans hx)
    have hmem : p ∈ nodes pre := mem_of_last hlast (by omega)
    rw [fieldLink_eq, fieldLink_eq, hn, cut_read h hp hn (List.mem_append_left _ hmem),
      if_neg fun hc => absurd hc.2.2 (by decide), if_pos ⟨by omega, rfl, rfl⟩]
  · have hstay : b ∈ nodes pre ++ nodes post := by
      rw [List.mem_append] at hb ⊢
      exact hb.imp_left fun hpre => (List.dropLast_sublist _).subset hpre
    -- the predecessor is the last one before the cut
    have hne : ¬ (p ≠ 0 ∧ b = p ∧ next = next) := by
      rintro ⟨hzero, rfl, _⟩
      have hmem := mem_of_last hlast hzero
      rcases List.mem_append.mp hb with hpre | hpost
      · have hsnoc := List.dropLast_append_getLast? b
          (hlast.symm.trans (pointer_of_pos (by omega)))
        rw [← hsnoc] at hnodupPre
        exact (List.nodup_append.mp hnodupPre).2.2 b hpre b (by simp) rfl
      · exact hdisjoint b hmem b (List.mem_cons_of_mem _ hpost) rfl
    rw [fieldLink_eq, fieldLink_eq, cut_read h hp hn hstay, if_neg fun hc => absurd hc.2.2 (by decide),
      if_neg hne]

theorem cut_backs (h : Represents σ (pre ++ r :: post)) (hp : prev.read σ.mem r.node = p)
    (hn : next.read σ.mem r.node = n) :
    Backed (fieldLink (cleared (relinked σ.mem p n) r.node) prev) none (nodes (pre ++ post)) := by
  obtain ⟨hlast, hhead⟩ := h.neighbours hp hn
  obtain ⟨_, hnodupPost, hdisjoint⟩ := h.disjoint
  have hbacks := h.backs
  rw [nodes_append] at hbacks ⊢
  refine hbacks.erase (fun q hq => ?_) fun b hb => ?_
  · obtain ⟨rfl, hpos⟩ := pointer_eq_some.mp (hhead.trans hq)
    have hmem : n ∈ nodes post := mem_of_head hhead (by omega)
    rw [fieldLink_eq, fieldLink_eq, hp, cut_read h hp hn (List.mem_append_right _ hmem),
      if_pos ⟨by omega, rfl, rfl⟩]
  · have hstay : b ∈ nodes pre ++ nodes post := by
      rw [List.mem_append] at hb ⊢
      exact hb.imp_right List.mem_of_mem_tail
    -- the successor is the first one after the cut
    have hne : ¬ (n ≠ 0 ∧ b = n ∧ prev = prev) := by
      rintro ⟨hzero, rfl, _⟩
      have hmem := mem_of_head hhead hzero
      rcases List.mem_append.mp hb with hpre | hpost
      · exact hdisjoint b hpre b (List.mem_cons_of_mem _ hmem) rfl
      · obtain ⟨rest, hcons⟩ :=
          List.head?_eq_some_iff.mp (hhead.symm.trans (pointer_of_pos (by omega)))
        change b ∈ (nodes post).tail at hpost
        rw [hcons] at hnodupPost hpost
        exact (List.nodup_cons.mp (List.nodup_cons.mp hnodupPost).2).1 hpost
    rw [fieldLink_eq, fieldLink_eq, cut_read h hp hn hstay, if_neg hne,
      if_neg fun hc => absurd hc.2.2 (by decide)]

end Cut

/-- A record that is cut out, and whose memory is given back, is no longer on the list. -/
theorem remove_represents {kfree : Nat → ByteStore → ByteStore} {pre post : List LargeAlloc}
    (h : Represents σ (pre ++ r :: post))
    (hkfree : ∀ mem, SameRecords (pre ++ post) mem (kfree r.node mem)) :
    Represents (largeAllocRemove kfree r.node σ) (pre ++ post) := by
  obtain ⟨p, hp⟩ : ∃ p, prev.read σ.mem r.node = p := ⟨_, rfl⟩
  obtain ⟨n, hn⟩ : ∃ n, next.read σ.mem r.node = n := ⟨_, rfl⟩
  obtain ⟨hlast, _⟩ := h.neighbours hp hn
  have hpos : 0 < r.node := (h.placed r (by simp)).1
  have hpself (hzero : p ≠ 0) : Apart r.node p := by
    have hmem := mem_of_last hlast hzero
    have hself : r.node ∈ nodes (pre ++ r :: post) := List.mem_map_of_mem (by simp)
    have hin : p ∈ nodes (pre ++ r :: post) := by
      rw [nodes_append]
      exact List.mem_append_left _ hmem
    exact (h.apart_or_eq hself hin).resolve_left
      fun heq => h.disjoint.2.2 p hmem r.node (List.mem_cons_self ..) heq.symm
  have hplain {s : LargeAlloc} (hs : s ∈ pre ++ post) {f : LargeField} (hf : f ≠ prev)
      (hf' : f ≠ next) :
      f.read (cleared (relinked σ.mem p n) r.node) s.node = f.read σ.mem s.node := by
    have hstay : s.node ∈ nodes pre ++ nodes post := by
      rw [← nodes_append]
      exact List.mem_map_of_mem hs
    rw [cut_read h hp hn hstay, if_neg fun hc => hf hc.2.2, if_neg fun hc => hf' hc.2.2]
  have hsub : (pre ++ post).Sublist (pre ++ r :: post) :=
    List.Sublist.append_left (List.sublist_cons_self r post) pre
  have hcut : Represents ⟨cleared (relinked σ.mem p n) r.node, if p = 0 then n else σ.head⟩
      (pre ++ post) := by
    refine ⟨cut_links h hp hn, cut_backs h hp hn, fun s hs => ?_, fun s hs => ?_,
      h.apart.sublist hsub, fun s hs => h.placed s (hsub.subset hs)⟩
    · rw [hplain hs (by decide) (by decide), h.sizes s (hsub.subset hs)]
    · rw [hplain hs (by decide) (by decide), h.ptrs s (hsub.subset hs)]
  rw [largeAllocRemove_eq (by omega) hp hn hpself]
  exact hcut.congr (hkfree _)

/-! ## `get_large_alloc_by_ptr` -/

/-- The loop returns the first record with the pointer, or NULL after the last one. -/
theorem getLoop_eq {mem : ByteStore} {p : Nat} (records : List LargeAlloc) :
    ∀ (fuel first : Nat), records.length < fuel →
      Chained (fieldLink mem next) (pointer first) (nodes records) →
      (∀ r ∈ records, ptr.read mem r.node = r.ptr) →
      getLoop mem p fuel first =
        some (((records.find? fun r => r.ptr = p).map LargeAlloc.node).getD 0) := by
  induction records with
  | nil =>
      intro fuel first hfuel hlinks _
      obtain ⟨fuel, rfl⟩ := Nat.exists_eq_add_one.mpr hfuel
      rw [getLoop, if_pos (pointer_eq_none.mp hlinks)]
      rfl
  | cons r rest ih =>
      intro fuel first hfuel hlinks hptrs
      obtain ⟨fuel, rfl⟩ : ∃ n, fuel = n + 1 := ⟨fuel - 1, by omega⟩
      obtain ⟨hfirst, hrest⟩ := hlinks
      obtain ⟨rfl, hpos⟩ := pointer_eq_some.mp hfirst
      have hptr := hptrs r (List.mem_cons_self ..)
      rw [getLoop, if_neg (by omega), hptr]
      by_cases heq : r.ptr = p
      · simp [heq]
      · rw [if_neg heq, List.find?_cons_of_neg (by simpa using heq)]
        exact ih fuel _ (by simpa using hfuel) hrest
          fun s hs => hptrs s (List.mem_cons_of_mem r hs)

/-- It terminates, and finds what the list of records has. -/
theorem get_eq (h : Represents σ records) {fuel p : Nat} (hfuel : records.length < fuel) :
    getLargeAllocByPtr fuel p σ =
      some (((records.find? fun r => r.ptr = p).map LargeAlloc.node).getD 0) :=
  getLoop_eq records fuel σ.head hfuel h.links h.ptrs

end LargeList
end MyOs
