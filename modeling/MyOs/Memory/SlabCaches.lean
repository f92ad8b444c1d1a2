import MyOs.Base.System
import MyOs.Memory.SlabPage

/-!
# The caches in memory (`kmalloc.c`)

`caches[i].slabs` and the slabs they link, byte by byte. `create_slab` maps the page of
its slab half-way through, and mapping a page can allocate blocks and make slabs; so the
calls of `alloc_from_cache` and `init_kmalloc` that make a slab are in two halves, and a
slab whose page is being mapped is pending.
-/

namespace MyOs

/-- The memory and the statics. -/
structure SlabCaches where
  mem : ByteStore
  /-- `caches[i].slabs` -/
  slabs : Nat → Nat
  currentHeapAddr : Nat

namespace SlabCaches

/-- `&slab->offset` -/
def offset (slab : Nat) : Nat := slab + 8

/-- `&slab->next` -/
def next (slab : Nat) : Nat := slab + 16

/-- The loop of `alloc_from_cache` from `slab` on: an object, or NULL. -/
def searchLoop : (fuel slab : Nat) → ByteStore → Option (Nat × ByteStore)
  | 0, _, _ => none
  | fuel + 1, slab, mem =>
      if slab = 0 then some (0, mem)
      else
        let r := SlabPage.allocFromSlab slab mem
        if r.1 ≠ 0 then some r else searchLoop fuel (r.2.load32 (next slab)) r.2

/-- `alloc_from_cache` up to `create_slab`. -/
def search (fuel i : Nat) (s : SlabCaches) : Option (Nat × SlabCaches) :=
  (searchLoop fuel (s.slabs i) s.mem).map fun r => (r.1, { s with mem := r.2 })

/-- `create_slab` up to the mapping: the slab's address. The assertion may fail. -/
def placeSlab (s : SlabCaches) : Option (Nat × SlabCaches) :=
  if s.currentHeapAddr ≤ kernelBaseHeapAddr + kernelHeapSize then
    let slabPhysAddr := s.currentHeapAddr
    some (convertToVirAddr slabPhysAddr,
      { s with currentHeapAddr := u32 (slabPhysAddr + pageSize) })
  else none

/-- `create_slab` after the mapping. -/
def setUpSlab (slab objectSize : Nat) (mem : ByteStore) : ByteStore :=
  let mem := mem.store32 slab objectSize
  let mem := mem.store32 (offset slab) 0
  let mem := mem.store32 (next slab) 0
  SlabPage.initSlab slab objectSize mem

/-- `alloc_from_cache` from there on. -/
def addSlab (i slab : Nat) (s : SlabCaches) : Nat × SlabCaches :=
  let mem := setUpSlab slab (cacheObjectSize i) s.mem
  let mem := mem.store32 (next slab) (s.slabs i)
  let r := SlabPage.allocFromSlab slab mem
  (r.1, { s with mem := r.2, slabs := Function.update s.slabs i slab })

/-- `init_kmalloc` from there on, for cache `i`. -/
def firstSlab (i slab : Nat) (s : SlabCaches) : SlabCaches :=
  { s with
    mem := setUpSlab slab (cacheObjectSize i) s.mem
    slabs := Function.update s.slabs i slab }

/-- `kfree`, for what is not a large block. -/
def kfree (ptr : Nat) (s : SlabCaches) : SlabCaches :=
  if ptr = 0 then s
  else if isSlabWindow ptr then
    { s with mem := SlabPage.slabFree (ptr / pageSize * pageSize) ptr s.mem }
  else s

/-- Before `init_kmalloc` makes the first slab. -/
def boot (mem : ByteStore) : SlabCaches where
  mem := mem
  slabs := fun _ => 0
  currentHeapAddr := kernelBaseHeapAddr

end SlabCaches

/-- Whose call makes a slab. -/
inductive SlabMaker
  | allocFromCache
  | initKmalloc
deriving DecidableEq

/-- What the maker of a slab for cache `i` has done when it calls `create_slab`. -/
def SlabMaker.Calls (i : Nat) (s s' : SlabCaches) : SlabMaker → Prop
  | allocFromCache => ∃ fuel, s.search fuel i = some (0, s')
  | initKmalloc => s' = s

/-- The caches, the slabs whose pages are being mapped, the last one first: for whom, the
cache and the page; and the blocks that are in use, with their caches. -/
structure CachesState where
  caches : SlabCaches
  pending : List (SlabMaker × Nat × Nat)
  live : List (Nat × Nat)

/-- What happens to the caches. -/
inductive CachesCall
  /-- `alloc_from_cache` finds an object. -/
  | alloc (i o : Nat)
  /-- `create_slab` is called for cache `i`, and maps the page. -/
  | place (maker : SlabMaker) (i : Nat)
  /-- The last slab has its page, and `alloc_from_cache` goes on. -/
  | add (o : Nat)
  /-- The same in `init_kmalloc`. -/
  | first
  | kfree (o : Nat)
  /-- What the blocks' owners and the rest of the kernel write. -/
  | write (mem : ByteStore)

/-- A byte of the slabs that is in no block in use and in no page being mapped. -/
def CachesState.Owned (σ : CachesState) (a : Nat) : Prop :=
  2 * kernelBaseHeapAddr ≤ a ∧ a < kernelBaseHeapAddr + σ.caches.currentHeapAddr ∧
    (∀ p ∈ σ.pending, a < p.2.2 ∨ p.2.2 + pageSize ≤ a) ∧
    ∀ b ∈ σ.live, a < b.1 ∨ b.1 + cacheObjectSize b.2 ≤ a

/-- The caches from the boot on, in any interleaving of their calls. -/
def cachesSys : TSys CachesState CachesCall where
  init σ := ∃ mem, σ = ⟨.boot mem, [], []⟩
  step σ call σ' :=
    match call with
    | .alloc i o => i < numCaches ∧ o ≠ 0 ∧ ∃ fuel caches,
        σ.caches.search fuel i = some (o, caches) ∧
          σ' = ⟨caches, σ.pending, (o, i) :: σ.live⟩
    | .place maker i => i < numCaches ∧ ∃ before, maker.Calls i σ.caches before ∧
        ∃ slab caches, before.placeSlab = some (slab, caches) ∧
          σ' = ⟨caches, (maker, i, slab) :: σ.pending, σ.live⟩
    | .add o => ∃ i slab rest, σ.pending = (.allocFromCache, i, slab) :: rest ∧
        (σ.caches.addSlab i slab).1 = o ∧
          σ' = ⟨(σ.caches.addSlab i slab).2, rest, (o, i) :: σ.live⟩
    | .first => ∃ i slab rest, σ.pending = (.initKmalloc, i, slab) :: rest ∧
        σ' = ⟨σ.caches.firstSlab i slab, rest, σ.live⟩
    | .kfree o => ∃ i, (o, i) ∈ σ.live ∧
        σ' = ⟨σ.caches.kfree o, σ.pending, σ.live.erase (o, i)⟩
    | .write mem => (∀ a, σ.Owned a → mem a = σ.caches.mem a) ∧
        σ' = { σ with caches := { σ.caches with mem := mem } }

end MyOs
