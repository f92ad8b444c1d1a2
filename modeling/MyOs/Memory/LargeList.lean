import MyOs.Memory.SlabPage

/-!
# The records of the large blocks (`kmalloc.c`)

`large_alloc_t` word by word, and the list of its records as pointers in memory.
`large_alloc_remove` ends with the `kfree` of the record, which is a parameter.
-/

namespace MyOs

/-- The fields of a `large_alloc_t`. -/
inductive LargeField
  | size | ptr | next | prev
deriving DecidableEq

namespace LargeField

def offset : LargeField → Nat
  | size => 0
  | ptr => 4
  | next => 8
  | prev => 12

/-- `alloc->f` -/
def read (mem : ByteStore) (f : LargeField) (alloc : Nat) : Nat := mem.load32 (alloc + f.offset)

/-- `alloc->f = w` -/
def write (mem : ByteStore) (f : LargeField) (alloc w : Nat) : ByteStore :=
  mem.store32 (alloc + f.offset) w

end LargeField

/-- The memory, and the static `large_allocations`. -/
structure LargeList where
  mem : ByteStore
  head : Nat

namespace LargeList

open LargeField

/-- `create_large_alloc`, with the record's memory from `kmalloc`. -/
def createLargeAlloc (alloc allocSize allocPtr : Nat) (mem : ByteStore) : ByteStore :=
  let mem := size.write mem alloc allocSize
  let mem := ptr.write mem alloc allocPtr
  let mem := next.write mem alloc 0
  prev.write mem alloc 0

/-- `insert_large_alloc`. -/
def insertLargeAlloc (alloc : Nat) (σ : LargeList) : LargeList :=
  if σ.head = 0 then { σ with head := alloc }
  else
    let current := σ.head
    let mem := prev.write σ.mem current alloc
    { mem := next.write mem alloc current, head := alloc }

/-- `large_alloc_remove`. -/
def largeAllocRemove (kfree : Nat → ByteStore → ByteStore) (alloc : Nat) (σ : LargeList) :
    LargeList :=
  if alloc = 0 then σ
  else
    let σ :=
      if prev.read σ.mem alloc ≠ 0 then
        { σ with mem := next.write σ.mem (prev.read σ.mem alloc) (next.read σ.mem alloc) }
      else { σ with head := next.read σ.mem alloc }
    let mem :=
      if next.read σ.mem alloc ≠ 0 then
        prev.write σ.mem (next.read σ.mem alloc) (prev.read σ.mem alloc)
      else σ.mem
    let mem := next.write mem alloc 0
    let mem := prev.write mem alloc 0
    let mem := ptr.write mem alloc 0
    { σ with mem := kfree alloc mem }

/-- The loop of `get_large_alloc_by_ptr`: the record, or `NULL`. -/
def getLoop (mem : ByteStore) (p : Nat) : Nat → Nat → Option Nat
  | 0, _ => none
  | fuel + 1, current =>
      if current = 0 then some 0
      else if ptr.read mem current = p then some current
      else getLoop mem p fuel (next.read mem current)

/-- `get_large_alloc_by_ptr`, when it returns within `fuel` turns. -/
def getLargeAllocByPtr (fuel p : Nat) (σ : LargeList) : Option Nat :=
  getLoop σ.mem p fuel σ.head

end LargeList
end MyOs
