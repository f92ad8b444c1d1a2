import MyOs.Base.Prog
import MyOs.Base.System
import MyOs.Base.Word
import Mathlib.Logic.Function.Basic

/-!
# The page queue in the heap (`vmm.c`)

`current_page_fifo_queue` with its nodes, as the code links them. The heap holds the nodes
that are allocated; an access to any other address, and a second `kfree`, stop the program
with a bad access. Pointers are addresses; 0 is `NULL`.
-/

namespace MyOs

/-- The contents of a `page_fifo_node_t`. -/
structure PageFifoCell where
  virAddr : Nat
  next : Nat
deriving DecidableEq, Repr

/-- `current_page_fifo_queue`, with the allocated nodes. -/
structure PageFifo where
  nodes : Nat → Option PageFifoCell
  head : Nat
  tail : Nat
  count : Nat

namespace PageFifo

/-- The static as the loader leaves it. -/
def boot : PageFifo := ⟨fun _ => none, 0, 0, 0⟩

/-- `*node`. -/
def readNode (node : Nat) : Prog PageFifo PageFifoCell := fun s =>
  match s.nodes node with
  | some n => .ok (n, s)
  | none => .error (.badAccess node)

/-- `node->vir_addr = virAddr`. -/
def writeVirAddr (node virAddr : Nat) : Prog PageFifo Unit := do
  let n ← readNode node
  Prog.modify fun s => { s with nodes := Function.update s.nodes node (some { n with virAddr }) }

/-- `node->next = next`. -/
def writeNext (node next : Nat) : Prog PageFifo Unit := do
  let n ← readNode node
  Prog.modify fun s => { s with nodes := Function.update s.nodes node (some { n with next }) }

/-- `kmalloc(sizeof(page_fifo_node_t))`, when it returns `node`; `old` is what the block
holds. -/
def kmallocNode (node : Nat) (old : PageFifoCell) : Prog PageFifo Nat :=
  if node = 0 then pure 0
  else do
    Prog.modify fun s => { s with nodes := Function.update s.nodes node (some old) }
    pure node

/-- `kfree(node)`. -/
def kfreeNode (node : Nat) : Prog PageFifo Unit := do
  let _ ← readNode node
  Prog.modify fun s => { s with nodes := Function.update s.nodes node none }

/-- `page_fifo_enqueue`. -/
def pageFifoEnqueue (node : Nat) : Prog PageFifo Unit := do
  let s ← Prog.get
  if s.head = 0 then
    Prog.modify fun s => { s with head := node, tail := node }
  else do
    writeNext s.tail node
    Prog.modify fun s => { s with tail := node }
  Prog.modify fun s => { s with count := u32 (s.count + 1) }

/-- `page_enqueue`; `node` is what `kmalloc` returns. -/
def pageEnqueue (virAddr node : Nat) (old : PageFifoCell) : Prog PageFifo Bool := do
  let node ← kmallocNode node old
  if node = 0 then pure false
  else do
    writeVirAddr node virAddr
    writeNext node 0
    pageFifoEnqueue node
    pure true

/-- `page_fifo_dequeue`; the tail stays as it is, also when its node goes. -/
def pageFifoDequeue : Prog PageFifo Nat := do
  let s ← Prog.get
  if s.head = 0 then pure 0
  else do
    let first ← readNode s.head
    Prog.modify fun s => { s with head := first.next }
    Prog.modify fun s => { s with count := sub32 s.count 1 }
    let n ← readNode s.head
    kfreeNode s.head
    pure n.virAddr

/-- What a `kmalloc` that succeeds returns: the address of a block that is not in use. -/
structure FreshNode (s : PageFifo) (node : Nat) : Prop where
  nonnull : node ≠ 0
  address : node < 2 ^ 32
  free : s.nodes node = none

/-- A call on the queue: `page_enqueue` of an address, with the block that `kmalloc` returns,
or `page_fifo_dequeue`, with what it returns. -/
inductive Call
  | enqueue (virAddr node : Nat) (old : PageFifoCell)
  | dequeue (virAddr : Nat)

/-- The calls on the queue, where every allocation succeeds. -/
def sys : TSys PageFifo Call where
  init s := s = boot
  step s call s' :=
    match call with
    | .enqueue virAddr node old =>
        FreshNode s node ∧ pageEnqueue virAddr node old s = .ok (true, s')
    | .dequeue virAddr => pageFifoDequeue s = .ok (virAddr, s')

end PageFifo
end MyOs
