import MyOs.Base.System
import MyOs.Logic.SlabPage

/-!
# The free list of a slab

A slab starts with every object free. Each step allocates an object, gives back one that
is allocated, or is anything its owners and the rest of the kernel do in between: every
byte may change but those of the free objects and of `free_list` and `free_count`. The
free and the allocated objects share the positions in `data` in every state reached.
-/

namespace MyOs

open SlabPage

/-- The memory, and the objects that are allocated. -/
structure SlabState where
  mem : ByteStore
  allocated : List Nat

inductive SlabCall
  | alloc
  | free (object : Nat)
  | write (mem : ByteStore)

/-- The bytes of the slab that are nobody else's: the two words of the free list, and
`data` outside the allocated objects. -/
def SlabByte (slab s : Nat) (allocated : List Nat) (a : Nat) : Prop :=
  (freeList slab ≤ a ∧ a < freeList slab + 4) ∨ (freeCount slab ≤ a ∧ a < freeCount slab + 4) ∨
    (data slab ≤ a ∧ a < data slab + slabDataSize ∧ ∀ o ∈ allocated, a < o ∨ o + s ≤ a)

/-- The runs of a slab of objects of size `s`, from `init_slab` on. -/
def slabSys (slab s : Nat) : TSys SlabState SlabCall where
  init σ := ∃ mem, σ = ⟨SlabPage.initSlab slab s mem, []⟩
  step σ call σ' :=
    match call with
    | .alloc =>
        let r := allocFromSlab slab σ.mem
        σ' = ⟨r.2, if r.1 = 0 then σ.allocated else r.1 :: σ.allocated⟩
    | .free object =>
        object ∈ σ.allocated ∧ σ' = ⟨SlabPage.slabFree slab object σ.mem, σ.allocated.erase object⟩
    | .write mem =>
        (∀ a, SlabByte slab s σ.allocated a → mem a = σ.mem a) ∧ σ' = ⟨mem, σ.allocated⟩

/-- The free list of the page visits `free`, as many objects as it counts, each of them at
a position of `data`; with the allocated objects they are all the positions. -/
structure FreeListOk (slab s : Nat) (σ : SlabState) (free : List Nat) : Prop where
  visits : Chained (linkAt σ.mem 0) (pointer (σ.mem.load32 (freeList slab))) free
  count : σ.mem.load32 (freeCount slab) = free.length
  distinct : free.Nodup
  placed : ∀ o ∈ free, ∃ i, i < slabDataSize / s ∧ o = data slab + i * s ∧
    o + s ≤ data slab + slabDataSize
  partition : (free ++ σ.allocated).Perm (objects slab s)

/-- What every step keeps. -/
def SlabInv (slab s : Nat) (σ : SlabState) : Prop :=
  ∃ free, Represents σ.mem slab free ∧ (free ++ σ.allocated).Perm (objects slab s)

section Step

variable {slab s : Nat} {σ σ' : SlabState} {call : SlabCall} {free : List Nat}

/-- Bytes that are the slab's own keep its free list. -/
theorem represents_write {mem : ByteStore} (hs : 4 ≤ s) (h : Represents σ.mem slab free)
    (hpart : (free ++ σ.allocated).Perm (objects slab s))
    (hsame : ∀ a, SlabByte slab s σ.allocated a → mem a = σ.mem a) :
    Represents mem slab free := by
  have hnodup := hpart.nodup_iff.mpr (objects_nodup (by omega))
  refine h.congr ?_ ?_ fun o ho => ?_
  · refine ByteStore.load32_congr fun i hi => hsame _ (.inl ?_)
    omega
  · refine ByteStore.load32_congr fun i hi => hsame _ (.inr (.inl ?_))
    omega
  · have hplace : o ∈ objects slab s := hpart.subset (List.mem_append_left _ ho)
    have hinside := object_inside hplace
    refine ByteStore.load32_congr fun i hi => hsame _ (.inr (.inr ⟨by omega, by omega, ?_⟩))
    intro o' ho'
    have hplace' : o' ∈ objects slab s := hpart.subset (List.mem_append_right _ ho')
    have hne : o ≠ o' := (List.nodup_append.mp hnodup).2.2 o ho o' ho'
    have hapart := objects_apart hplace hplace' hne
    omega

theorem slabInv_step (hs : 4 ≤ s) (hpage : slab + pageSize ≤ 2 ^ 32) (h : SlabInv slab s σ)
    (hstep : (slabSys slab s).step σ call σ') : SlabInv slab s σ' := by
  obtain ⟨free, hrep, hpart⟩ := h
  have hplaces {o : Nat} (ho : o ∈ free) : o ∈ objects slab s :=
    hpart.subset (List.mem_append_left _ ho)
  cases call with
  | alloc =>
      obtain rfl := hstep
      cases free with
      | nil =>
          simp only [alloc_null hrep]
          exact ⟨[], hrep, hpart⟩
      | cons o rest =>
          obtain ⟨hpos, mem', hrun, hrep'⟩ :=
            alloc_object (s := s) hrep fun a ha => hplaces (List.mem_cons_of_mem o ha)
          simp only [hrun, if_neg (show ¬ o = 0 by omega)]
          exact ⟨rest, hrep', List.perm_middle.trans hpart⟩
  | free o =>
      obtain ⟨ho, rfl⟩ := hstep
      have hnodup := hpart.nodup_iff.mpr (objects_nodup (by omega))
      have hnew : o ∉ free := fun hfree => (List.nodup_append.mp hnodup).2.2 o hfree o ho rfl
      have hlen : free.length + 1 < 2 ^ 32 := by
        have hall := hpart.length_eq
        have hsome := List.length_pos_of_mem ho
        have hdiv : slabDataSize / s ≤ slabDataSize := Nat.div_le_self _ _
        rw [List.length_append, objects, List.length_map, List.length_range] at hall
        rw [slabDataSize] at hdiv hall
        omega
      refine ⟨o :: free, slabFree_represents hs hpage hrep (hpart.subset
        (List.mem_append_right _ ho)) (fun a ha => hplaces ha) hnew hlen, ?_⟩
      have hback : (o :: (free ++ σ.allocated.erase o)).Perm (free ++ σ.allocated) :=
        List.perm_middle.symm.trans ((List.perm_cons_erase ho).symm.append_left free)
      exact hback.trans hpart
  | write mem =>
      obtain ⟨hsame, rfl⟩ := hstep
      exact ⟨free, represents_write hs hrep hpart hsame, hpart⟩

/-- `alloc_from_slab` returns NULL when the free list is empty, and only then. -/
theorem alloc_null_iff (h : SlabInv slab s σ) (hs : 0 < s) :
    (allocFromSlab slab σ.mem).1 = 0 ↔ ∀ o ∈ objects slab s, o ∈ σ.allocated := by
  obtain ⟨free, hrep, hpart⟩ := h
  cases free with
  | nil =>
      rw [alloc_null hrep]
      exact ⟨fun _ o ho => hpart.symm.subset ho, fun _ => rfl⟩
  | cons o rest =>
      obtain ⟨hpos, mem', hrun, _⟩ := alloc_object (s := s) hrep fun a ha =>
        hpart.subset (List.mem_append_left _ (List.mem_cons_of_mem o ha))
      have hplace : o ∈ objects slab s := hpart.subset (by simp)
      have hnodup := hpart.nodup_iff.mpr (objects_nodup hs)
      rw [hrun]
      constructor
      · intro hnull
        exact absurd hnull (by omega)
      · intro hall
        exact absurd rfl ((List.nodup_append.mp hnodup).2.2 o (by simp) o (hall o hplace))

end Step

theorem slabInv_invariant {slab s : Nat} (hs : 4 ≤ s) (hs' : s ≤ slabDataSize)
    (hpage : slab + pageSize ≤ 2 ^ 32) : (slabSys slab s).Invariant (SlabInv slab s) := by
  apply TSys.Inductive.invariant
  constructor
  · rintro σ ⟨mem, rfl⟩
    exact ⟨objects slab s, initSlab_represents hs hs' hpage mem, by simp⟩
  · intro σ call σ' h hstep
    exact slabInv_step hs hpage h hstep

/-- **The free list of a slab.** For every object size that holds a pointer and fits into
`data`, in every state reached by allocations, frees of allocated objects and writes of
their owners, the free list visits as many distinct objects as it counts, each wholly
inside `data`; free and allocated objects partition the positions; and an allocation
returns NULL exactly when all of them are allocated. -/
theorem slab_free_list {slab s : Nat} (hs : 4 ≤ s) (hs' : s ≤ slabDataSize)
    (hpage : slab + pageSize ≤ 2 ^ 32) :
    (slabSys slab s).Invariant fun σ => (∃ free, FreeListOk slab s σ free) ∧
      ((allocFromSlab slab σ.mem).1 = 0 ↔ ∀ o ∈ objects slab s, o ∈ σ.allocated) := by
  intro σ hσ
  have hinv := slabInv_invariant hs hs' hpage σ hσ
  refine ⟨?_, alloc_null_iff hinv (by omega)⟩
  obtain ⟨free, hrep, hpart⟩ := hinv
  refine ⟨free, hrep.visits, hrep.count, hrep.visits.nodup, fun o ho => ?_, hpart⟩
  have hplace : o ∈ objects slab s := hpart.subset (List.mem_append_left _ ho)
  obtain ⟨i, hi, heq⟩ := mem_objects.mp hplace
  exact ⟨i, hi, heq, (object_inside hplace).2⟩

namespace SlabState

variable {slab s object : Nat} {mem : ByteStore} {σ : SlabState}

/-- The state after an allocation. -/
def alloc (slab : Nat) (σ : SlabState) : SlabState :=
  let r := allocFromSlab slab σ.mem
  ⟨r.2, if r.1 = 0 then σ.allocated else r.1 :: σ.allocated⟩

/-- The owner of `object` fills it with ones and frees it. -/
def spoilAndFree (slab s object : Nat) (σ : SlabState) : SlabState :=
  ⟨SlabPage.slabFree slab object (σ.mem.fill object 0xFF#8 s), σ.allocated.erase object⟩

theorem alloc_reachable (h : (slabSys slab s).Reachable σ) :
    (slabSys slab s).Reachable (σ.alloc slab) :=
  h.step (show (slabSys slab s).step σ .alloc (σ.alloc slab) from rfl)

theorem spoilAndFree_reachable (h : (slabSys slab s).Reachable σ) (hmem : object ∈ σ.allocated)
    (hplace : data slab ≤ object) :
    (slabSys slab s).Reachable (σ.spoilAndFree slab s object) := by
  have hwrite : (slabSys slab s).step σ (.write (σ.mem.fill object 0xFF#8 s))
      ⟨σ.mem.fill object 0xFF#8 s, σ.allocated⟩ := by
    refine ⟨fun a ha => ByteStore.patch_outside ?_, rfl⟩
    have hdata : slab + 16 ≤ data slab := by
      rw [data]
      exact Nat.add_le_add_left (by decide) _
    rcases ha with ⟨_, ha⟩ | ⟨_, ha⟩ | ⟨_, _, ha⟩
    · exact .inl (by rw [freeList] at ha; omega)
    · exact .inl (by rw [freeCount] at ha; omega)
    · exact ha object hmem
  have hfree : (slabSys slab s).step ⟨σ.mem.fill object 0xFF#8 s, σ.allocated⟩ (.free object)
      (σ.spoilAndFree slab s object) := ⟨hmem, rfl⟩
  exact (h.step hwrite).step hfree

end SlabState

/-- A slab of three objects, two of them allocated. -/
def twoAllocated : SlabState :=
  ((⟨SlabPage.initSlab 0xC0000000 1024 fun _ => 0, []⟩ : SlabState).alloc 0xC0000000).alloc
    0xC0000000

theorem twoAllocated_reachable : (slabSys 0xC0000000 1024).Reachable twoAllocated :=
  SlabState.alloc_reachable (SlabState.alloc_reachable (.init ⟨_, rfl⟩))

/-- The first of the two is freed with its link overwritten. It and the third object are
given out, then there are no more. -/
theorem slab_free_list_reused :
    let σ := twoAllocated.spoilAndFree 0xC0000000 1024 0xC0000014
    (allocFromSlab 0xC0000000 σ.mem).1 ≠ 0 ∧
      (allocFromSlab 0xC0000000 ((σ.alloc 0xC0000000).alloc 0xC0000000).mem).1 = 0 := by
  intro σ
  have hspec := @slab_free_list 0xC0000000 1024 (by decide) (by decide) (by decide)
  have htaken : twoAllocated.allocated = [0xC0000414, 0xC0000014] := by decide +kernel
  have hσ : (slabSys 0xC0000000 1024).Reachable σ :=
    SlabState.spoilAndFree_reachable twoAllocated_reachable (by rw [htaken]; simp) (by decide)
  have hlast := SlabState.alloc_reachable (SlabState.alloc_reachable hσ)
  exact ⟨fun hnull => absurd ((hspec σ hσ).2.mp hnull) (by decide +kernel),
    (hspec _ hlast).2.mpr (by decide +kernel)⟩

end MyOs
