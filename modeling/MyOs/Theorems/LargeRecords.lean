import MyOs.Base.System
import MyOs.Logic.LargeList

/-!
# The list of the large blocks

Records are inserted as `create_large_alloc` makes them, in memory that no record on the
list uses, and removed from anywhere in the list; `kfree` and everything else may change
any byte that is in no record of the list. In every state reached the pointers are a
doubly linked list of exactly the records inserted and not removed.
-/

namespace MyOs

open LargeList LargeField

/-- The list in memory, and the records inserted and not removed, the last one first. -/
structure LargeState where
  list : LargeList
  records : List LargeAlloc

inductive LargeCall
  | insert (r : LargeAlloc)
  | remove (r : LargeAlloc) (kfree : Nat → ByteStore → ByteStore)
  | write (mem : ByteStore)

/-- The runs from `large_allocations = NULL`. -/
def largeSys : TSys LargeState LargeCall where
  init σ := σ.list.head = 0 ∧ σ.records = []
  step σ call σ' :=
    match call with
    | .insert r =>
        Fresh r σ.records ∧
          σ' = ⟨insertLargeAlloc r.node { σ.list with
            mem := createLargeAlloc r.node r.size r.ptr σ.list.mem }, r :: σ.records⟩
    | .remove r kfree =>
        r ∈ σ.records ∧
          (∀ mem, SameRecords (σ.records.erase r) mem (kfree r.node mem)) ∧
          σ' = ⟨largeAllocRemove kfree r.node σ.list, σ.records.erase r⟩
    | .write mem =>
        SameRecords σ.records σ.list.mem mem ∧ σ' = ⟨{ σ.list with mem := mem }, σ.records⟩

/-- From the head the `next` fields lead through the records, none of them twice, to NULL;
the `prev` fields lead back, and the record at each address has its size and pointer. -/
structure LargeListOk (σ : LargeState) : Prop where
  acyclic : Chained (fieldLink σ.list.mem next) (pointer σ.list.head) (nodes σ.records)
  distinct : (nodes σ.records).Nodup
  back : ∀ a ∈ nodes σ.records, ∀ b, fieldLink σ.list.mem next a = some b →
    fieldLink σ.list.mem prev b = some a
  first : ∀ a, pointer σ.list.head = some a → fieldLink σ.list.mem prev a = none
  fields : ∀ r ∈ σ.records,
    size.read σ.list.mem r.node = r.size ∧ ptr.read σ.list.mem r.node = r.ptr

/-- `get_large_alloc_by_ptr` returns, with the record of each pointer that has one and NULL
for the others. -/
def LookupOk (σ : LargeState) : Prop :=
  ∀ fuel, σ.records.length < fuel →
    (∀ r ∈ σ.records, getLargeAllocByPtr fuel r.ptr σ.list = some r.node) ∧
      ∀ p, (∀ r ∈ σ.records, r.ptr ≠ p) → getLargeAllocByPtr fuel p σ.list = some 0

section Step

variable {σ σ' : LargeState} {call : LargeCall}

theorem represents_step (h : Represents σ.list σ.records) (hstep : largeSys.step σ call σ') :
    Represents σ'.list σ'.records := by
  cases call with
  | insert r =>
      obtain ⟨hfresh, rfl⟩ := hstep
      exact insert_represents h hfresh
  | remove r kfree =>
      obtain ⟨hmem, hkfree, rfl⟩ := hstep
      obtain ⟨pre, post, hnone, hsplit, herase⟩ := List.exists_erase_eq hmem
      rw [herase] at hkfree ⊢
      rw [hsplit] at h
      exact remove_represents h hkfree
  | write mem =>
      obtain ⟨hsame, rfl⟩ := hstep
      exact h.congr hsame

theorem represents_invariant : largeSys.Invariant fun σ => Represents σ.list σ.records := by
  apply TSys.Inductive.invariant
  constructor
  · rintro σ ⟨hhead, hrecords⟩
    rw [hrecords]
    refine ⟨?_, trivial, by simp, by simp, .nil, by simp⟩
    exact pointer_eq_none.mpr hhead
  · intro σ call σ' h hstep
    exact represents_step h hstep

theorem LargeListOk.of_represents (h : Represents σ.list σ.records) : LargeListOk σ where
  acyclic := h.links
  distinct := h.links.nodup
  back a ha b hab := h.backs.of_next h.links ha hab
  first a ha := by
    have hbacks := h.backs
    obtain ⟨rest, hcons⟩ := List.head?_eq_some_iff.mp (h.links.head.symm.trans ha)
    rw [hcons] at hbacks
    exact hbacks.1
  fields r hr := ⟨h.sizes r hr, h.ptrs r hr⟩

theorem LookupOk.of_represents (h : Represents σ.list σ.records)
    (hdistinct : (σ.records.map LargeAlloc.ptr).Nodup) : LookupOk σ := by
  intro fuel hfuel
  refine ⟨fun r hr => ?_, fun p hnone => ?_⟩
  · -- another record would have the same pointer
    have hfind : σ.records.find? (fun s => s.ptr = r.ptr) = some r := by
      cases hfound : σ.records.find? (fun s => s.ptr = r.ptr) with
      | none =>
          have hnone := List.find?_eq_none.mp hfound r hr
          simp at hnone
      | some s =>
          have hptr : s.ptr = r.ptr := by simpa using List.find?_some hfound
          have hs := List.mem_of_find?_eq_some hfound
          rw [List.inj_on_of_nodup_map hdistinct hs hr hptr]
    rw [get_eq h hfuel, hfind]
    rfl
  · have hfind : σ.records.find? (fun s => s.ptr = p) = none := by
      refine List.find?_eq_none.mpr fun r hr => ?_
      simpa using hnone r hr
    rw [get_eq h hfuel, hfind]
    rfl

end Step

/-- **The list of the large blocks.** In every state reached by inserting fresh records and
removing records of the list, in any order, it is an acyclic, doubly linked list of exactly
the records inserted and not removed; and when their pointers are distinct, a lookup
terminates and finds the record of a pointer, or NULL when there is none. -/
theorem large_list_correct : largeSys.Invariant fun σ =>
    LargeListOk σ ∧ ((σ.records.map LargeAlloc.ptr).Nodup → LookupOk σ) := by
  intro σ hσ
  have h := represents_invariant σ hσ
  exact ⟨.of_represents h, .of_represents h⟩

/-- Two records, of which the older one is removed again. -/
def firstRecord : LargeAlloc := ⟨0x100, 5000, 0xD0000000⟩

def secondRecord : LargeAlloc := ⟨0x200, 9000, 0xD0002000⟩

def afterInsert (r : LargeAlloc) (σ : LargeState) : LargeState :=
  ⟨insertLargeAlloc r.node { σ.list with
    mem := createLargeAlloc r.node r.size r.ptr σ.list.mem }, r :: σ.records⟩

def twoRecords : LargeState :=
  afterInsert secondRecord (afterInsert firstRecord ⟨⟨fun _ => 0, 0⟩, []⟩)

def oneRecord : LargeState :=
  ⟨largeAllocRemove (fun _ mem => mem) firstRecord.node twoRecords.list, [secondRecord]⟩

theorem oneRecord_reachable : largeSys.Reachable oneRecord := by
  have hinit : largeSys.init ⟨⟨fun _ => 0, 0⟩, []⟩ := ⟨rfl, rfl⟩
  have hfirst : Fresh firstRecord [] := ⟨by decide, by decide, by decide, by decide, by simp⟩
  have hsecond : Fresh secondRecord [firstRecord] :=
    ⟨by decide, by decide, by decide, by decide, by simp [Apart, firstRecord, secondRecord,
      largeAllocSize]⟩
  have hone := TSys.Reachable.step (.init hinit)
    (show largeSys.step _ (.insert firstRecord) (afterInsert firstRecord _) from ⟨hfirst, rfl⟩)
  have htwo := TSys.Reachable.step hone
    (show largeSys.step _ (.insert secondRecord) (afterInsert secondRecord _) from
      ⟨hsecond, rfl⟩)
  refine .step htwo (show largeSys.step _ (.remove firstRecord fun _ mem => mem) _ from
    ⟨?_, fun _ _ _ _ _ => rfl, rfl⟩)
  exact List.mem_cons_of_mem _ (List.mem_cons_self ..)

/-- The other one is found, and the removed one is not. -/
theorem large_list_remaining :
    getLargeAllocByPtr 2 secondRecord.ptr oneRecord.list = some secondRecord.node ∧
      getLargeAllocByPtr 2 firstRecord.ptr oneRecord.list = some 0 := by
  have hlookup := (large_list_correct oneRecord oneRecord_reachable).2 (by decide) 2 (by decide)
  exact ⟨hlookup.1 secondRecord (List.mem_cons_self ..), hlookup.2 _ (by decide)⟩

end MyOs
