import MyOs.Logic.PageFifo
import MyOs.Memory.Vmm

/-!
# The order of the page queue

The linked queue of `vmm.c` is a first-in first-out queue of addresses: every sequence of
calls on it is followed, call by call, by one on the abstract queue. The same lemmas connect
the list of nodes that the rest of the memory manager is modelled over to the linked one.
-/

namespace MyOs.PageFifo

/-! ## The memory manager's list -/

/-- Where the manager's `page_enqueue` puts an address into its list, the linked queue does,
with the same block. -/
theorem pageEnqueue_list {ext : Ext} {k k' : Kernel} {v : Nat}
    (hrun : MyOs.pageEnqueue ext v k = .ok (true, k')) :
    ∃ node k₁, ext.kmalloc pageFifoNodeSize k = .ok (node, k₁) ∧
      ∀ s old, Holds s k₁.pageFifoQueue → FreshNode s node →
        ∃ t, pageEnqueue v node old s = .ok (true, t) ∧ Holds t k'.pageFifoQueue := by
  rw [MyOs.pageEnqueue] at hrun
  obtain ⟨node, k₁, hnode, hrest⟩ := Prog.bind_eq_ok.mp hrun
  refine ⟨node, k₁, hnode, fun s old hs hfresh => ?_⟩
  rw [if_neg hfresh.nonnull] at hrest
  cases hrest
  exact hs.enqueue hfresh v old

/-- What the manager's `page_fifo_dequeue` takes from its list, the linked queue returns. -/
theorem pageFifoDequeue_list {ext : Ext} {k k' : Kernel} {v : Nat} {s : PageFifo}
    (hs : Holds s k.pageFifoQueue) (hrun : MyOs.pageFifoDequeue ext k = .ok (v, k')) :
    ∃ t, pageFifoDequeue s = .ok (v, t) ∧ Holds t k.pageFifoQueue.tail := by
  rw [MyOs.pageFifoDequeue, Prog.get_bind_apply] at hrun
  cases hqueue : k.pageFifoQueue with
  | nil =>
      rw [hqueue] at hrun hs
      cases hrun
      exact ⟨s, hs.dequeue_nil, hs⟩
  | cons n rest =>
      rw [hqueue] at hrun hs
      obtain ⟨_, k₁, _, hrest⟩ := Prog.bind_eq_ok.mp hrun
      obtain ⟨_, k₂, _, hlast⟩ := Prog.bind_eq_ok.mp hrest
      cases hlast
      obtain ⟨t, hdequeue, ht, _⟩ := hs.dequeue_cons
      exact ⟨t, hdequeue, ht⟩

/-! ## Runs -/

/-- The queue holds nodes with the addresses `queue`, the oldest first. -/
def Queued (s : PageFifo) (queue : List Nat) : Prop :=
  ∃ l, Holds s l ∧ queue = l.map PageFifoNode.virAddr

/-- The call on the abstract queue that a call is: what comes out is returned, and `NULL`
when nothing does. -/
inductive SameCall : Call → FifoCall Nat → Prop
  | enqueue (virAddr node : Nat) (old : PageFifoCell) :
      SameCall (.enqueue virAddr node old) (.enqueue virAddr)
  | dequeue (virAddr : Option Nat) : SameCall (.dequeue (virAddr.getD 0)) (.dequeue virAddr)

/-- Whichever call is made next returns: it accesses no node that is not allocated. -/
structure Answers (s : PageFifo) : Prop where
  enqueue : ∀ virAddr node old, FreshNode s node →
    ∃ t, pageEnqueue virAddr node old s = .ok (true, t)
  dequeue : ∃ virAddr t, pageFifoDequeue s = .ok (virAddr, t)

theorem Queued.answers {s : PageFifo} {queue : List Nat} (h : Queued s queue) : Answers s := by
  obtain ⟨l, hs, _⟩ := h
  refine ⟨fun v node old hfresh => ?_, ?_⟩
  · obtain ⟨t, hrun, _⟩ := hs.enqueue hfresh v old
    exact ⟨t, hrun⟩
  · cases l with
    | nil => exact ⟨0, s, hs.dequeue_nil⟩
    | cons n rest =>
        obtain ⟨t, hrun, _⟩ := hs.dequeue_cons
        exact ⟨_, t, hrun⟩

theorem Queued.count {s : PageFifo} {queue : List Nat} (h : Queued s queue) :
    s.count = queue.length := by
  obtain ⟨l, hs, rfl⟩ := h
  rw [hs.count, List.length_map]

theorem boot_queued : Queued boot [] := ⟨[], boot_holds, rfl⟩

/-- The abstract queue follows the linked one. -/
theorem simulates : sys.Simulates (fifo Nat) Queued SameCall where
  init := by
    rintro s rfl
    exact ⟨[], rfl, boot_queued⟩
  step := by
    rintro s call s' queue ⟨l, hs, rfl⟩ hstep
    cases call with
    | enqueue v node old =>
        obtain ⟨hfresh, hrun⟩ := hstep
        obtain ⟨t, hrun', ht⟩ := hs.enqueue hfresh v old
        obtain rfl : t = s' := congrArg Prod.snd (Except.ok.inj (hrun'.symm.trans hrun))
        exact ⟨_, _, .enqueue v node old, rfl, _, ht, by simp⟩
    | dequeue v =>
        have hrun : pageFifoDequeue s = .ok (v, s') := hstep
        cases l with
        | nil =>
            rw [hs.dequeue_nil] at hrun
            cases hrun
            exact ⟨_, _, .dequeue none, ⟨rfl, rfl⟩, [], hs, rfl⟩
        | cons n rest =>
            obtain ⟨t, hrun', ht, _⟩ := hs.dequeue_cons
            rw [hrun'] at hrun
            cases hrun
            exact ⟨_, _, .dequeue (some n.virAddr), ⟨rfl, rfl⟩, rest, ht, rfl⟩

/-- **The order of the page queue.** Every sequence of `page_enqueue` and
`page_fifo_dequeue` is one of calls on a first-in first-out queue of addresses: addresses
come out in the order they went in, an empty queue answers `NULL` and any other its first
address, the count is the number of addresses queued, and no call ever accesses a node that
is not allocated. -/
theorem page_fifo_order {run : List (Call × PageFifo)} (hrun : sys.IsRun boot run) :
    TSys.AllStates Answers boot run ∧
    ∃ queue : List (FifoCall Nat × List Nat), (fifo Nat).IsRun [] queue ∧
      Fifo.entered queue = Fifo.left queue ++ TSys.final [] queue ∧
      List.Forall₂ (fun x y => SameCall x.1 y.1 ∧ x.2.count = y.2.length) run queue := by
  obtain ⟨queue, hqueue, hall⟩ := simulates.run boot_queued hrun
  refine ⟨simulates.allStates (fun _ _ h => h.answers) boot_queued hrun, queue, hqueue, ?_,
    hall.imp fun _ _ h => ⟨h.1, h.2.count⟩⟩
  simpa using Fifo.order hqueue

/-- A queue of one is emptied and filled again, with the block that was freed. -/
theorem page_fifo_order_refilled : ∃ run, sys.IsRun boot run ∧ run.length = 5 ∧
    TSys.AllStates Answers boot run ∧ ∃ queue, (fifo Nat).IsRun [] queue ∧ queue.length = 5 := by
  have hfresh : ∀ s : PageFifo, s.nodes 16 = none → FreshNode s 16 :=
    fun s hfree => ⟨by decide, by decide, hfree⟩
  have hrun : sys.IsRun boot [(.enqueue 0x1000 16 ⟨7, 7⟩, _), (.dequeue 0x1000, _),
      (.enqueue 0x2000 16 ⟨7, 7⟩, _), (.dequeue 0x2000, _), (.dequeue 0, _)] :=
    ⟨⟨hfresh _ rfl, rfl⟩, rfl, ⟨hfresh _ rfl, rfl⟩, rfl, rfl, trivial⟩
  obtain ⟨hanswers, queue, hqueue, _, hall⟩ := page_fifo_order hrun
  exact ⟨_, hrun, rfl, hanswers, queue, hqueue, hall.length_eq.symm⟩

/-- `NULL` is returned exactly when no address is left. -/
def NullWhenEmpty (s : PageFifo) (call : Call) (_ : PageFifo) : Prop :=
  match call with
  | .enqueue _ _ _ => True
  | .dequeue virAddr => virAddr = 0 ↔ s.count = 0

/-- `page_enqueue(NULL)` is accepted, and the next dequeue returns it. -/
theorem null_address_queued :
    ¬ ∀ run, sys.IsRun boot run → TSys.AllMoves NullWhenEmpty boot run := by
  intro hall
  have hfresh : FreshNode boot 16 := ⟨by decide, by decide, rfl⟩
  have hrun : sys.IsRun boot [(.enqueue 0 16 ⟨7, 7⟩, _), (.dequeue 0, _)] :=
    ⟨⟨hfresh, rfl⟩, rfl, trivial⟩
  have hnull := (hall _ hrun).2.1
  exact absurd (hnull.mp rfl) (by decide)

end MyOs.PageFifo
