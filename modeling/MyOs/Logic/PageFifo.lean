import MyOs.Base.Fifo
import MyOs.Base.Links
import MyOs.Memory.Kernel
import MyOs.Memory.PageFifo
import MyOs.Memory.SlabPage
import Mathlib.Data.List.Perm.Subperm

/-!
# The page queue as a list

`Holds s l` says that the nodes linked from the head of `s` are those of `l`, in order. The
tail means something only while there is a node: a dequeue that empties the queue leaves it
on the freed one. Each call has one lemma saying that it returns and what it does to `l`.
-/

namespace MyOs.PageFifo

/-- `node->next`, for an allocated node. -/
def next (s : PageFifo) (node : Nat) : Option Nat := (s.nodes node).bind fun n => pointer n.next

/-- The queue holds the nodes `l`, the oldest first. -/
structure Holds (s : PageFifo) (l : List PageFifoNode) : Prop where
  chained : Chained s.next (pointer s.head) (l.map PageFifoNode.addr)
  /-- the tail of a queue that is not empty -/
  tail : ∀ n, l.getLast? = some n → s.tail = n.addr
  cell : ∀ n ∈ l, ∃ c, s.nodes n.addr = some c ∧ c.virAddr = n.virAddr
  address : ∀ n ∈ l, 0 < n.addr ∧ n.addr < 2 ^ 32
  count : s.count = l.length

/-! ## Pointer accesses -/

/-- The state with the block at `node` in use. -/
def putNode (s : PageFifo) (node : Nat) (c : PageFifoCell) : PageFifo :=
  { s with nodes := Function.update s.nodes node (some c) }

variable {s : PageFifo} {a : Nat} {c : PageFifoCell}

@[simp] theorem putNode_self : (s.putNode a c).nodes a = some c := Function.update_self ..

@[simp] theorem putNode_of_ne {b : Nat} (h : b ≠ a) : (s.putNode a c).nodes b = s.nodes b :=
  Function.update_of_ne h ..

@[simp] theorem putNode_putNode {c' : PageFifoCell} :
    (s.putNode a c).putNode a c' = s.putNode a c' := by
  simp [putNode]

@[simp] theorem putNode_head : (s.putNode a c).head = s.head := rfl

@[simp] theorem putNode_tail : (s.putNode a c).tail = s.tail := rfl

@[simp] theorem putNode_count : (s.putNode a c).count = s.count := rfl

theorem next_of {s : PageFifo} (h : s.nodes a = some c) : s.next a = pointer c.next := by
  rw [next, h, Option.bind_some]

theorem next_congr {t : PageFifo} (h : t.nodes a = s.nodes a) : t.next a = s.next a := by
  rw [next, next, h]

theorem readNode_of (h : s.nodes a = some c) : readNode a s = .ok (c, s) := by
  rw [readNode, h]

theorem writeVirAddr_of (h : s.nodes a = some c) (v : Nat) :
    writeVirAddr a v s = .ok ((), s.putNode a { c with virAddr := v }) := by
  rw [writeVirAddr, Prog.bind_of_ok (readNode_of h)]
  rfl

theorem writeNext_of (h : s.nodes a = some c) (b : Nat) :
    writeNext a b s = .ok ((), s.putNode a { c with next := b }) := by
  rw [writeNext, Prog.bind_of_ok (readNode_of h)]
  rfl

theorem kfreeNode_of (h : s.nodes a = some c) :
    kfreeNode a s = .ok ((), { s with nodes := Function.update s.nodes a none }) := by
  rw [kfreeNode, Prog.bind_of_ok (readNode_of h)]
  rfl

/-! ## What the calls do -/

/-- `page_enqueue` fills its new node and links it in. -/
theorem pageEnqueue_eq (hnode : a ≠ 0) (v : Nat) :
    pageEnqueue v a c s =
      (do pageFifoEnqueue a; pure true : Prog PageFifo Bool) (s.putNode a ⟨v, 0⟩) := by
  have halloc : kmallocNode a c s = .ok (a, s.putNode a c) := by
    rw [kmallocNode, if_neg hnode]
    rfl
  rw [pageEnqueue, Prog.bind_of_ok halloc, if_neg hnode,
    Prog.bind_of_ok (writeVirAddr_of putNode_self v), Prog.bind_of_ok (writeNext_of putNode_self 0),
    putNode_putNode, putNode_putNode]

/-- Into an empty queue. -/
theorem pageFifoEnqueue_first (hhead : s.head = 0) :
    pageFifoEnqueue a s =
      .ok ((), { s with head := a, tail := a, count := u32 (s.count + 1) }) := by
  simp [pageFifoEnqueue, hhead]

/-- Behind the tail. -/
theorem pageFifoEnqueue_behind (hhead : s.head ≠ 0) (htail : s.nodes s.tail = some c) :
    pageFifoEnqueue a s = .ok ((), { s.putNode s.tail { c with next := a } with
      tail := a, count := u32 (s.count + 1) }) := by
  simp only [pageFifoEnqueue, Prog.get_bind_apply, if_neg hhead]
  rw [Prog.bind_of_ok (writeNext_of htail a)]
  rfl

theorem pageFifoDequeue_empty (hhead : s.head = 0) : pageFifoDequeue s = .ok (0, s) := by
  simp [pageFifoDequeue, hhead]

/-- The head goes; everything is read before the node is freed. -/
theorem pageFifoDequeue_first (hhead : s.head ≠ 0) (hfirst : s.nodes s.head = some c) :
    pageFifoDequeue s = .ok (c.virAddr, { s with
      nodes := Function.update s.nodes s.head none, head := c.next,
      count := sub32 s.count 1 }) := by
  have hpopped : ({ s with head := c.next, count := sub32 s.count 1 } : PageFifo).nodes s.head =
      some c := hfirst
  simp only [pageFifoDequeue, Prog.get_bind_apply, if_neg hhead]
  rw [Prog.bind_of_ok (readNode_of hfirst), Prog.modify_bind_apply, Prog.modify_bind_apply]
  refine (Prog.bind_of_ok (readNode_of hpopped)).trans ?_
  rw [Prog.bind_of_ok (kfreeNode_of hpopped)]
  rfl

/-! ## The list -/

/-- Nodes at distinct addresses are fewer than there are words. -/
theorem length_lt {l : List Nat} (hnodup : l.Nodup) (haddress : ∀ a ∈ l, 0 < a ∧ a < 2 ^ 32) :
    l.length < 2 ^ 32 := by
  have hsubset : l ⊆ List.range' 1 (2 ^ 32 - 1) := by
    intro a ha
    have := haddress a ha
    rw [List.mem_range'_1]
    omega
  have hle := (hnodup.subperm hsubset).length_le
  rw [List.length_range'] at hle
  omega

namespace Holds

variable {l : List PageFifoNode} {n : PageFifoNode}

theorem head (h : Holds s l) : pointer s.head = (l.head?).map PageFifoNode.addr := by
  rw [h.chained.head, List.head?_map]

theorem head_eq_zero (h : Holds s []) : s.head = 0 := pointer_eq_none.mp h.chained

theorem head_cons (h : Holds s (n :: l)) : s.head = n.addr ∧ s.head ≠ 0 := by
  obtain ⟨heq, hpos⟩ := pointer_eq_some.mp h.head
  exact ⟨heq, by omega⟩

/-- No node is in the queue twice. -/
theorem nodup (h : Holds s l) : (l.map PageFifoNode.addr).Nodup := h.chained.nodup

theorem mem_address (h : Holds s l) {b : Nat} (hb : b ∈ l.map PageFifoNode.addr) :
    0 < b ∧ b < 2 ^ 32 := by
  obtain ⟨n, hn, rfl⟩ := List.mem_map.mp hb
  exact h.address n hn

/-- A block that is not in use is none of the nodes. -/
theorem fresh (h : Holds s l) (hfree : s.nodes a = none) : a ∉ l.map PageFifoNode.addr := by
  intro hmem
  obtain ⟨n, hn, rfl⟩ := List.mem_map.mp hmem
  obtain ⟨c, hc, _⟩ := h.cell n hn
  rw [hfree] at hc
  cases hc

/-- The node before the last one is another one. -/
theorem ne_last (h : Holds s l) (hlast : l.getLast? = some n)
    {b : Nat} (hb : b ∈ (l.map PageFifoNode.addr).dropLast) : n.addr ≠ b := by
  rintro rfl
  have hsplit := List.dropLast_append_getLast? n hlast
  have hnodup := h.nodup
  rw [← hsplit, List.map_append, List.nodup_append] at hnodup
  rw [← List.map_dropLast] at hb
  exact hnodup.2.2 _ hb _ (List.mem_singleton_self _) rfl

/-- A new node behind the last one, which links to it. -/
theorem concat {t : PageFifo} {v : Nat} (h : Holds s l) (hfresh : FreshNode s a)
    (hhead : t.head = if l = [] then a else s.head) (htail : t.tail = a)
    (hcount : t.count = u32 (s.count + 1)) (hnew : t.nodes a = some ⟨v, 0⟩)
    (hlast : ∀ n c, l.getLast? = some n → s.nodes n.addr = some c →
      t.nodes n.addr = some { c with next := a })
    (hkeep : ∀ b, b ≠ a → (∀ n, l.getLast? = some n → n.addr ≠ b) → t.nodes b = s.nodes b) :
    Holds t (l ++ [⟨a, v⟩]) := by
  have hpos : 0 < a := Nat.pos_of_ne_zero hfresh.nonnull
  have hout := h.fresh hfresh.free
  refine ⟨?_, ?_, ?_, ?_, ?_⟩
  · rw [List.map_append]
    refine h.chained.concat ?_ ?_ (next_of hnew) ?_
    · rw [hhead]
      cases l with
      | nil => exact pointer_of_pos hpos
      | cons _ _ => rfl
    · intro p hp
      rw [List.getLast?_map] at hp
      obtain ⟨n, hn, rfl⟩ := Option.map_eq_some_iff.mp hp
      obtain ⟨c, hc, _⟩ := h.cell n (List.mem_of_getLast? hn)
      rw [next_of (hlast n c hn hc)]
      exact pointer_of_pos hpos
    · intro b hb
      refine next_congr (hkeep b ?_ fun n hn => h.ne_last hn hb)
      rintro rfl
      exact hout (List.dropLast_subset _ hb)
  · intro n hn
    rw [List.getLast?_concat] at hn
    cases hn
    exact htail
  · intro n hn
    rcases List.mem_append.mp hn with hold | hmem
    · obtain ⟨c, hc, hvir⟩ := h.cell n hold
      by_cases hend : ∃ m, l.getLast? = some m ∧ m.addr = n.addr
      · -- the last node keeps its address and gets a link
        obtain ⟨m, hm, heq⟩ := hend
        rw [← heq] at hc ⊢
        exact ⟨_, hlast m c hm hc, hvir⟩
      · refine ⟨c, ?_, hvir⟩
        rw [hkeep n.addr ?_ fun m hm heq => hend ⟨m, hm, heq⟩, hc]
        rintro rfl
        exact hout (List.mem_map_of_mem hold)
    · obtain rfl := List.mem_singleton.mp hmem
      exact ⟨_, hnew, rfl⟩
  · intro n hn
    rcases List.mem_append.mp hn with hold | hmem
    · exact h.address n hold
    · obtain rfl := List.mem_singleton.mp hmem
      exact ⟨hpos, hfresh.address⟩
  · have hnodup : (a :: l.map PageFifoNode.addr).Nodup := List.nodup_cons.mpr ⟨hout, h.nodup⟩
    have hall : ∀ b ∈ a :: l.map PageFifoNode.addr, 0 < b ∧ b < 2 ^ 32 := by
      intro b hb
      rcases List.mem_cons.mp hb with rfl | hold
      · exact ⟨hpos, hfresh.address⟩
      · exact h.mem_address hold
    have hlt := length_lt hnodup hall
    rw [List.length_cons, List.length_map] at hlt
    rw [hcount, h.count, u32_of_lt hlt, List.length_append]
    rfl

/-- `page_enqueue` puts its node behind the others. -/
theorem enqueue (h : Holds s l) (hfresh : FreshNode s a) (v : Nat) (old : PageFifoCell) :
    ∃ t, pageEnqueue v a old s = .ok (true, t) ∧ Holds t (l ++ [⟨a, v⟩]) := by
  rw [pageEnqueue_eq hfresh.nonnull]
  cases hlast : l.getLast? with
  | none =>
      obtain rfl := List.getLast?_eq_none_iff.mp hlast
      refine ⟨_, Prog.bind_of_ok (pageFifoEnqueue_first h.head_eq_zero), ?_⟩
      exact h.concat hfresh rfl rfl rfl putNode_self (fun n c hn => by cases hn)
        fun b hb _ => putNode_of_ne hb
  | some n =>
      have hmem := List.mem_of_getLast? hlast
      have hne : n.addr ≠ a := fun heq => h.fresh hfresh.free (heq ▸ List.mem_map_of_mem hmem)
      obtain ⟨c, hc, _⟩ := h.cell n hmem
      have htail := h.tail n hlast
      have hend : (s.putNode a ⟨v, 0⟩).nodes (s.putNode a ⟨v, 0⟩).tail = some c := by
        rw [putNode_tail, htail, putNode_of_ne hne, hc]
      obtain ⟨m, rest, rfl⟩ := List.exists_cons_of_ne_nil (List.ne_nil_of_mem hmem)
      refine ⟨_, Prog.bind_of_ok (pageFifoEnqueue_behind h.head_cons.2 hend), ?_⟩
      refine h.concat hfresh rfl rfl rfl ?_ ?_ ?_
      · rw [putNode_tail, htail]
        exact (putNode_of_ne hne.symm).trans putNode_self
      · intro k d hk hd
        obtain rfl : n = k := Option.some.inj (hlast.symm.trans hk)
        obtain rfl : c = d := Option.some.inj (hc.symm.trans hd)
        rw [putNode_tail, htail]
        exact putNode_self
      · intro b hb hother
        have hbn : b ≠ n.addr := fun heq => hother n hlast heq.symm
        rw [putNode_tail, htail]
        exact (putNode_of_ne hbn).trans (putNode_of_ne hb)

/-- The queue is empty: nothing changes. -/
theorem dequeue_nil (h : Holds s []) : pageFifoDequeue s = .ok (0, s) :=
  pageFifoDequeue_empty h.head_eq_zero

/-- The oldest node goes. -/
theorem dequeue_cons (h : Holds s (n :: l)) :
    ∃ t, pageFifoDequeue s = .ok (n.virAddr, t) ∧ Holds t l ∧ t.nodes n.addr = none := by
  obtain ⟨hhead, hne⟩ := h.head_cons
  obtain ⟨c, hc, hvir⟩ := h.cell n (List.mem_cons_self ..)
  rw [← hhead] at hc
  have hother : ∀ b ∈ l.map PageFifoNode.addr, b ≠ s.head := by
    rintro b hb rfl
    rw [hhead] at hb
    exact (List.nodup_cons.mp h.nodup).1 hb
  have hlen : s.count = l.length + 1 := h.count
  have hlt := length_lt h.nodup fun b hb => h.mem_address hb
  refine ⟨_, hvir ▸ pageFifoDequeue_first hne hc, ⟨?_, ?_, ?_, ?_, ?_⟩, ?_⟩
  · have hrest := h.chained.2
    rw [← hhead, next_of hc] at hrest
    exact hrest.congr fun b hb => next_congr (Function.update_of_ne (hother b hb) ..)
  · intro m hm
    refine h.tail m ?_
    cases l with
    | nil => cases hm
    | cons k l => rwa [List.getLast?_cons_cons]
  · intro m hm
    obtain ⟨d, hd, hdvir⟩ := h.cell m (List.mem_cons_of_mem n hm)
    refine ⟨d, ?_, hdvir⟩
    rw [← hd]
    exact Function.update_of_ne (hother m.addr (List.mem_map_of_mem hm)) ..
  · exact fun m hm => h.address m (List.mem_cons_of_mem n hm)
  · rw [List.length_map, List.length_cons] at hlt
    change sub32 s.count 1 = l.length
    rw [hlen, sub32_of_le (by omega) hlt]
    omega
  · rw [← hhead]
    exact Function.update_self ..

end Holds

theorem boot_holds : Holds boot [] := ⟨rfl, by simp, by simp, by simp, rfl⟩

end MyOs.PageFifo
