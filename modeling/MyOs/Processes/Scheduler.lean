import MyOs.Base.Prog
import MyOs.Base.System
import MyOs.Base.Word
import Mathlib.Logic.Function.Basic

/-!
# The round-robin scheduler (`scheduler.c`)

The ready queue is a ring of heap nodes with a head, a tail and a cursor. The
heap holds the nodes that are allocated; following a pointer to any other
address stops the program with a bad access.
-/

namespace MyOs

/-- `process_queue_node_t`. Pointers are addresses; 0 is `NULL`. -/
structure QueueNode where
  process : Nat
  next : Nat
deriving DecidableEq, Repr

/-- The static state of `scheduler.c`, with the allocated queue nodes. -/
structure Scheduler where
  nodes : Nat → Option QueueNode
  /-- `ready_queue.head` -/
  head : Nat
  /-- `ready_queue.tail` -/
  tail : Nat
  /-- `ready_queue.count` -/
  count : Nat
  currentProcessNode : Nat
  currentProcess : Nat
  tickCount : Nat

namespace Scheduler

/-- `TICKS_UNTIL_SWITCH`. -/
def ticksUntilSwitch : Nat := 10

/-- The statics as the loader leaves them. -/
def boot : Scheduler := ⟨fun _ => none, 0, 0, 0, 0, 0, 0⟩

/-- `*node`. -/
def readNode (node : Nat) : Prog Scheduler QueueNode := fun s =>
  match s.nodes node with
  | some n => .ok (n, s)
  | none => .error (.badAccess node)

/-- `node->next = next`. -/
def writeNext (node next : Nat) : Prog Scheduler Unit := do
  let n ← readNode node
  Prog.modify fun s => { s with nodes := Function.update s.nodes node (some { n with next }) }

/-- `scheduler_create_queue_node`; `node` is what `kmalloc` returned. -/
def schedulerCreateQueueNode (process node : Nat) : Prog Scheduler Nat :=
  if node = 0 then
    Prog.stop (.panic "Failed to allocate memory for process queue node")
  else do
    Prog.modify fun s => { s with nodes := Function.update s.nodes node (some ⟨process, 0⟩) }
    pure node

/-- `scheduler_destroy_queue_node`. -/
def schedulerDestroyQueueNode (node : Nat) : Prog Scheduler Unit :=
  Prog.modify fun s => { s with nodes := Function.update s.nodes node none }

/-- `scheduler_add_process`; `node` is what `kmalloc` returns for the new node. -/
def schedulerAddProcess (process node : Nat) : Prog Scheduler Unit :=
  if process = 0 then
    Prog.stop (.panic "Tried to add a NULL process to the scheduler, you sneaky bastard (probably a bug in the kernel)")
  else do
    let node ← schedulerCreateQueueNode process node
    let s ← Prog.get
    if s.tail = 0 then
      Prog.modify fun s => { s with head := node, tail := node }
      writeNext node node
    else
      writeNext s.tail node
      Prog.modify fun s => { s with tail := node }
      writeNext node s.head
    Prog.modify fun s => { s with count := s.count + 1 }

/-- `scheduler_get_next_process`. -/
def schedulerGetNextProcess : Prog Scheduler Nat := do
  let s ← Prog.get
  if s.head = 0 then
    pure 0
  else if s.currentProcessNode = 0 then
    Prog.stop (.panic "Current process node is NULL, this should never happen")
  else
    let cursor ← readNode s.currentProcessNode
    if cursor.next = 0 then
      Prog.stop (.panic "Current process node next is NULL, this should never happen")
    else
      Prog.modify fun s => { s with currentProcessNode := cursor.next }
      let next ← readNode cursor.next
      pure next.process

/-- `n` calls of `scheduler_get_next_process`, with what they return. -/
def rounds : Nat → Prog Scheduler (List Nat)
  | 0 => pure []
  | n + 1 => do
      let process ← schedulerGetNextProcess
      let rest ← rounds n
      pure (process :: rest)

/-- Removal, the links: `head = current->next` or `prev->next = current->next`. -/
def relink (prev next : Nat) : Prog Scheduler Unit :=
  if prev = 0 then
    Prog.modify fun s => { s with head := next }
  else
    writeNext prev next

/-- Removal, the tail: `tail = prev ? prev : head` when the tail goes. -/
def moveTail (prev current : Nat) : Prog Scheduler Unit :=
  Prog.modify fun s =>
    { s with tail := if current = s.tail then (if prev ≠ 0 then prev else s.head) else s.tail }

/-- Removal, the cursor: it moves on when its node goes, or to `NULL` when
that was the only node. -/
def moveCursor (current : Nat) : Prog Scheduler Unit := do
  let s ← Prog.get
  if current = s.currentProcessNode ∧ s.count > 1 then do
    let cursor ← readNode s.currentProcessNode
    Prog.modify fun s => { s with currentProcessNode := cursor.next }
  else if current = s.currentProcessNode ∧ s.count = 1 then
    Prog.modify fun s => { s with currentProcessNode := 0 }
  else
    pure ()

/-- The body of the search loop when it has found the process in `current`,
whose content is `n`. -/
def unlinkNode (prev current : Nat) (n : QueueNode) : Prog Scheduler Unit := do
  relink prev n.next
  moveTail prev current
  moveCursor current
  schedulerDestroyQueueNode current
  Prog.modify fun s => { s with count := s.count - 1 }

/-- The `do … while` loop of `scheduler_remove_process`. -/
def removeLoop (process : Nat) : (fuel prev current : Nat) → Prog Scheduler Unit
  | 0, _, _ => Prog.stop .outOfFuel
  | fuel + 1, prev, current => do
      let n ← readNode current
      if n.process = process then
        unlinkNode prev current n
      else
        let s ← Prog.get
        if n.next = s.head then pure () else removeLoop process fuel current n.next

/-- `scheduler_remove_process`, with `fuel` rounds of its loop. -/
def schedulerRemoveProcess (fuel process : Nat) : Prog Scheduler Unit := do
  let s ← Prog.get
  if s.head = 0 ∨ process = 0 then
    pure ()
  else if s.head = s.tail then
    let n ← readNode s.head
    if n.process = process then
      schedulerDestroyQueueNode s.head
      Prog.modify fun s => { s with head := 0, tail := 0, count := 0 }
    else
      pure ()
  else
    removeLoop process fuel 0 s.head

/-- `process_switch`, as far as the scheduler sees it. -/
def processSwitch (next : Nat) : Prog Scheduler Unit :=
  Prog.modify fun s => { s with currentProcess := next }

/-- `scheduler_handle_tick`. -/
def schedulerHandleTick : Prog Scheduler Unit := do
  Prog.modify fun s => { s with tickCount := u32 (s.tickCount + 1) }
  let s ← Prog.get
  if s.tickCount ≥ ticksUntilSwitch then
    Prog.modify fun s => { s with tickCount := 0 }
    let nextProcess ← schedulerGetNextProcess
    let s ← Prog.get
    if nextProcess ≠ 0 ∧ nextProcess ≠ s.currentProcess then
      processSwitch nextProcess
    else
      pure ()
  else
    pure ()

/-- `scheduler_init`; `node` is what `kmalloc` returns for the first node. -/
def schedulerInit (initProcess node : Nat) : Prog Scheduler Unit :=
  if initProcess = 0 then
    Prog.stop (.panic "Tried to initialize the scheduler with a NULL process, you sneaky bastard (probably a bug in the kernel)")
  else do
    Prog.modify fun s => { s with tickCount := 0 }
    schedulerAddProcess initProcess node
    Prog.modify fun s => { s with currentProcess := initProcess, currentProcessNode := s.head }

/-! ## Runs of the scheduler -/

/-- A call of the scheduler, with the address `kmalloc` gives a new node and
the number of rounds the search loop takes. -/
inductive Call
  | add (process node : Nat)
  | remove (process fuel : Nat)
  | getNext
  | tick

/-- The calls as programs. -/
def exec : Call → Prog Scheduler Unit
  | .add process node => schedulerAddProcess process node
  | .remove process fuel => schedulerRemoveProcess fuel process
  | .getNext => do
      let _ ← schedulerGetNextProcess
      pure ()
  | .tick => schedulerHandleTick

/-- `kmalloc` does not return an address that is in use. -/
def FreshNode (s : Scheduler) : Call → Prop
  | .add _ node => s.nodes node = none
  | _ => True

/-- Any sequence of calls after `scheduler_init`. -/
def sys : TSys Scheduler Call where
  init s := ∃ process node, schedulerInit process node boot = .ok ((), s)
  step s call s' := FreshNode s call ∧ exec call s = .ok ((), s')

end Scheduler
end MyOs
