import MyOs.Base.Links
import MyOs.Processes.Scheduler

/-!
# The ready queue as a ring

`Ring s l` says that the queue of `s` is the ring of the nodes `l`, in order
from the head. Each call of the scheduler has one lemma saying what it does to
`l`: an insertion appends, a rotation keeps it, a removal that does not hit the
head cuts one node out.
-/

namespace MyOs.Scheduler

/-- `node->next`, for an allocated node. -/
def next (s : Scheduler) (node : Nat) : Option Nat := (s.nodes node).map QueueNode.next

/-- The queue is the ring of the nodes `l`. -/
structure Ring (s : Scheduler) (l : List Nat) : Prop where
  head : l.head? = some s.head
  tail : l.getLast? = some s.tail
  /-- every node links to the next one and the last one to the head -/
  linked : Linked s.next (l ++ [s.head])
  nodup : l.Nodup
  count : l.length = s.count
  cursor : s.currentProcessNode ∈ l
  nonnull : 0 ∉ l

namespace Ring

variable {s : Scheduler} {l : List Nat}

theorem head_mem (h : Ring s l) : s.head ∈ l := List.mem_of_mem_head? h.head

theorem tail_mem (h : Ring s l) : s.tail ∈ l := List.mem_of_getLast? h.tail

theorem ne_zero (h : Ring s l) {a : Nat} (ha : a ∈ l) : a ≠ 0 :=
  fun h0 => h.nonnull (h0 ▸ ha)

/-- The nodes up to the tail, and the tail. -/
theorem exists_init (h : Ring s l) : ∃ init, l = init ++ [s.tail] := by
  have hne : l ≠ [] := List.ne_nil_of_mem h.tail_mem
  refine ⟨l.dropLast, ?_⟩
  have hlast : l.getLast hne = s.tail := by
    have := h.tail
    rw [List.getLast?_eq_some_getLast hne] at this
    exact Option.some.inj this
  rw [← hlast, List.dropLast_append_getLast]

/-- The tail closes the ring. -/
theorem next_tail (h : Ring s l) : s.next s.tail = some s.head := by
  obtain ⟨init, hl⟩ := h.exists_init
  have hlinked := h.linked
  rw [hl, List.append_assoc] at hlinked
  exact hlinked.next_eq (v := [])

/-- Following a link stays in the ring. -/
theorem next_mem (h : Ring s l) {a : Nat} (ha : a ∈ l) : ∃ b ∈ l, s.next a = some b := by
  obtain ⟨pre, post, rfl⟩ := List.append_of_mem ha
  have hlinked := h.linked
  rw [List.append_assoc, List.cons_append] at hlinked
  cases post with
  | nil => exact ⟨s.head, h.head_mem, hlinked.next_eq (v := [])⟩
  | cons b post => exact ⟨b, by simp, hlinked.next_eq⟩

/-- Each node of the ring has one predecessor. -/
theorem next_inj (h : Ring s l) {a b : Nat} (ha : a ∈ l) (hb : b ∈ l)
    (heq : s.next a = s.next b) : a = b :=
  h.linked.next_inj h.head h.nodup ha hb heq

/-- The queue is one ring only. -/
theorem unique (h : Ring s l) {l' : List Nat} (h' : Ring s l') : l = l' :=
  Linked.unique h.linked h'.linked h.head h'.head (h.count.trans h'.count.symm)

/-- Nodes of the ring are allocated. -/
theorem node (h : Ring s l) {a : Nat} (ha : a ∈ l) :
    ∃ n, s.nodes a = some n ∧ n.next ∈ l := by
  obtain ⟨b, hb, hnext⟩ := h.next_mem ha
  obtain ⟨n, hn, rfl⟩ := Option.map_eq_some_iff.mp hnext
  exact ⟨n, hn, hb⟩

end Ring

/-! ## Pointer accesses -/

theorem readNode_eq_ok {s t : Scheduler} {a : Nat} {n : QueueNode} :
    readNode a s = .ok (n, t) ↔ s.nodes a = some n ∧ t = s := by
  unfold readNode
  cases s.nodes a with
  | none => simp
  | some m =>
      constructor
      · intro h
        cases h
        exact ⟨rfl, rfl⟩
      · rintro ⟨h, rfl⟩
        cases h
        rfl

theorem readNode_of {s : Scheduler} {a : Nat} {n : QueueNode} (h : s.nodes a = some n) :
    readNode a s = .ok (n, s) := readNode_eq_ok.mpr ⟨h, rfl⟩

/-- The state after `a->next = b` on an allocated node `n`. -/
def linkTo (s : Scheduler) (a : Nat) (n : QueueNode) (b : Nat) : Scheduler :=
  { s with nodes := Function.update s.nodes a (some { n with next := b }) }

theorem writeNext_of {s : Scheduler} {a b : Nat} {n : QueueNode} (h : s.nodes a = some n) :
    writeNext a b s = .ok ((), s.linkTo a n b) := by
  rw [writeNext, Prog.bind_of_ok (readNode_of h)]
  rfl

/-! ## Insertion -/

/-- `scheduler_add_process` on a non-empty queue: the new node follows the tail,
links to the head and becomes the tail. -/
theorem add_effect {s t : Scheduler} {process node : Nat} {n : QueueNode} (htail : s.tail ≠ 0)
    (hn : s.nodes s.tail = some n) (hne : node ≠ s.tail)
    (hrun : schedulerAddProcess process node s = .ok ((), t)) :
    process ≠ 0 ∧ node ≠ 0 ∧ t = { s with
      nodes := Function.update (Function.update s.nodes s.tail (some { n with next := node }))
        node (some ⟨process, s.head⟩)
      tail := node
      count := s.count + 1 } := by
  unfold schedulerAddProcess schedulerCreateQueueNode at hrun
  by_cases hp : process = 0
  · simp [hp] at hrun
  by_cases hz : node = 0
  · simp [hp, hz] at hrun
  simp only [hp, hz, Prog.bind_assoc_apply, Prog.modify_bind_apply,
    Prog.pure_bind_apply, Prog.get_bind_apply, htail, ↓reduceIte] at hrun
  rw [Prog.bind_of_ok (writeNext_of (by simpa [hne.symm] using hn)), Prog.modify_bind_apply,
    Prog.bind_of_ok (writeNext_of (n := ⟨process, 0⟩) (by simp [linkTo, hne]))] at hrun
  simp only [Prog.modify_apply, Except.ok.injEq, Prod.mk.injEq, true_and] at hrun
  refine ⟨hp, hz, hrun.symm.trans ?_⟩
  simp [linkTo, Function.update_comm hne.symm]

/-- An insertion appends to the ring. -/
theorem Ring.add {s t : Scheduler} {l : List Nat} (h : Ring s l) {process node : Nat}
    (hfresh : s.nodes node = none)
    (hrun : schedulerAddProcess process node s = .ok ((), t)) : Ring t (l ++ [node]) := by
  obtain ⟨init, hl⟩ := h.exists_init
  obtain ⟨n, hn, _⟩ := h.node h.tail_mem
  have hnew : node ∉ l := by
    intro hmem
    obtain ⟨m, hm, _⟩ := h.node hmem
    rw [hfresh] at hm
    cases hm
  have hne : node ≠ s.tail := fun heq => hnew (heq ▸ h.tail_mem)
  obtain ⟨_, hz, rfl⟩ := add_effect (h.ne_zero h.tail_mem) hn hne hrun
  have hold : ∀ a ∈ init, a ≠ node ∧ a ≠ s.tail := by
    intro a ha
    have hnodup := h.nodup
    rw [hl, List.nodup_append] at hnodup
    refine ⟨fun heq => hnew (heq ▸ hl ▸ List.mem_append_left _ ha), ?_⟩
    exact hnodup.2.2 a ha s.tail (by simp)
  refine ⟨?_, by simp, ?_, ?_, by simp [h.count], List.mem_append_left _ h.cursor, ?_⟩
  · rw [List.head?_append, h.head]
    rfl
  · have hlinked := h.linked
    rw [hl, List.append_assoc] at hlinked
    rw [hl, List.append_assoc, List.append_assoc]
    refine @Linked.insert _ _ (next _) _ _ _ _ [] hlinked ?_ ?_ (fun a ha => ?_) (by simp)
    · simp [next, hne.symm]
    · simp [next]
    · simp [next, hold a ha]
  · exact List.nodup_append.mpr ⟨h.nodup, List.nodup_singleton _, by
      rintro a ha b hb rfl
      exact hnew (List.mem_singleton.mp hb ▸ ha)⟩
  · simp [h.nonnull, Ne.symm hz]

/-- The first insertion makes a ring of one node. -/
theorem init_ring {process node : Nat} {s : Scheduler}
    (hrun : schedulerInit process node boot = .ok ((), s)) : Ring s [node] := by
  unfold schedulerInit schedulerAddProcess schedulerCreateQueueNode at hrun
  by_cases hp : process = 0
  · simp [hp] at hrun
  by_cases hz : node = 0
  · simp [hp, hz] at hrun
  simp only [hp, hz, Prog.bind_assoc_apply, Prog.modify_bind_apply,
    Prog.pure_bind_apply, Prog.get_bind_apply, boot, ↓reduceIte] at hrun
  rw [Prog.bind_of_ok (writeNext_of (n := ⟨process, 0⟩) (by simp))] at hrun
  simp only [Prog.modify_bind_apply, Prog.modify_apply, Except.ok.injEq, Prod.mk.injEq,
    true_and, linkTo] at hrun
  subst hrun
  exact ⟨rfl, rfl, by simp [next], by simp, rfl, by simp, by simp [Ne.symm hz]⟩

/-! ## Rotation -/

/-- `scheduler_get_next_process` on a ring moves the cursor one node on and
returns that node's process. -/
theorem getNext_effect {s t : Scheduler} {l : List Nat} (h : Ring s l) {process : Nat}
    (hrun : schedulerGetNextProcess s = .ok (process, t)) :
    ∃ node ∈ l, ∃ n, s.next s.currentProcessNode = some node ∧ s.nodes node = some n ∧
      process = n.process ∧ t = { s with currentProcessNode := node } := by
  obtain ⟨c, hc, hcl⟩ := h.node h.cursor
  obtain ⟨n, hn, _⟩ := h.node hcl
  unfold schedulerGetNextProcess at hrun
  simp only [Prog.get_bind_apply, Prog.ite_apply, if_neg (h.ne_zero h.head_mem),
    if_neg (h.ne_zero h.cursor)] at hrun
  rw [Prog.bind_of_ok (readNode_of hc), Prog.ite_apply, if_neg (h.ne_zero hcl),
    Prog.modify_bind_apply, Prog.bind_of_ok (readNode_of (by exact hn))] at hrun
  cases hrun
  exact ⟨c.next, hcl, n, by simp [next, hc], hn, rfl, rfl⟩

theorem Ring.rotate {s : Scheduler} {l : List Nat} (h : Ring s l) {node : Nat}
    (hnode : node ∈ l) : Ring { s with currentProcessNode := node } l :=
  ⟨h.head, h.tail, h.linked, h.nodup, h.count, hnode, h.nonnull⟩

/-- A tick rotates the ring or leaves it. -/
theorem Ring.tick {s t : Scheduler} {l : List Nat} (h : Ring s l)
    (hrun : schedulerHandleTick s = .ok ((), t)) : Ring t l := by
  unfold schedulerHandleTick at hrun
  simp only [Prog.modify_bind_apply, Prog.get_bind_apply, Prog.ite_apply] at hrun
  have hkeep : ∀ k p, Ring { s with tickCount := k, currentProcess := p } l := fun _ _ =>
    ⟨h.head, h.tail, h.linked, h.nodup, h.count, h.cursor, h.nonnull⟩
  split at hrun
  · obtain ⟨process, s', hnext, hrest⟩ := Prog.bind_eq_ok.mp hrun
    obtain ⟨node, hnode, _, _, _, _, rfl⟩ := getNext_effect (hkeep 0 s.currentProcess) hnext
    simp only [Prog.get_bind_apply, Prog.ite_apply, processSwitch, Prog.modify_apply,
      Prog.pure_apply] at hrest
    split at hrest
    · cases hrest
      exact (hkeep 0 process).rotate hnode
    · cases hrest
      exact (hkeep 0 s.currentProcess).rotate hnode
  · cases hrun
    exact hkeep _ _

/-! ## Removal -/

theorem moveCursor_effect {s : Scheduler} {x : Nat} {n : QueueNode} (hx : s.nodes x = some n)
    (hcount : s.count > 1) :
    moveCursor x s = .ok ((), { s with
      currentProcessNode := if x = s.currentProcessNode then n.next else s.currentProcessNode }) := by
  rw [moveCursor, Prog.get_bind_apply, Prog.ite_apply]
  by_cases hcur : x = s.currentProcessNode
  · rw [if_pos ⟨hcur, hcount⟩, if_pos hcur, Prog.bind_of_ok (readNode_of (hcur ▸ hx))]
    rfl
  · rw [if_neg (fun h => hcur h.1), if_neg hcur, Prog.ite_apply, if_neg fun h => hcur h.1]
    rfl

/-- The state after unlinking `x`, with content `nx`, behind `p`: the predecessor
takes its link, the tail and the cursor move off it, and it is freed. -/
def unlinked (s : Scheduler) (p x : Nat) (np nx : QueueNode) : Scheduler :=
  { s with
    nodes := Function.update (Function.update s.nodes p (some { np with next := nx.next })) x none
    tail := if x = s.tail then p else s.tail
    currentProcessNode := if x = s.currentProcessNode then nx.next else s.currentProcessNode
    count := s.count - 1 }

theorem unlinkNode_run {s : Scheduler} {p x : Nat} {np nx : QueueNode}
    (hp : s.nodes p = some np) (hx : s.nodes x = some nx) (hp0 : p ≠ 0) (hne : p ≠ x)
    (hcount : s.count > 1) : unlinkNode p x nx s = .ok ((), s.unlinked p x np nx) := by
  have hxs : (s.linkTo p np nx.next).nodes x = some nx := by simp [linkTo, hne.symm, hx]
  rw [unlinkNode, relink, if_neg hp0, Prog.bind_of_ok (writeNext_of hp), moveTail,
    Prog.modify_bind_apply, Prog.bind_of_ok (moveCursor_effect (by exact hxs) (by exact hcount))]
  simp only [linkTo, ne_eq, hp0, not_false_eq_true, ↓reduceIte]
  rfl

section Unlink

variable {s : Scheduler} {pre post : List Nat} {a p x : Nat} {np n : QueueNode}

theorem unlinked_next (hap : a ≠ p) (hax : a ≠ x) :
    (s.unlinked p x np n).next a = s.next a := by
  simp [unlinked, next, hap, hax]

/-- The predecessor takes over the link. -/
theorem unlinked_next_pred (hne : p ≠ x) (hx : s.nodes x = some n) :
    (s.unlinked p x np n).next p = s.next x := by
  simp [unlinked, next, hne, hx]

/-- The nodes of the ring are different ones. -/
theorem Ring.apart (h : Ring s (pre ++ p :: x :: post)) :
    p ≠ x ∧ ∀ a ∈ pre ++ post, a ≠ p ∧ a ≠ x := by
  have hnodup := h.nodup
  rw [List.nodup_append, List.nodup_cons, List.nodup_cons] at hnodup
  obtain ⟨_, ⟨hpx, hxpost, _⟩, hdisj⟩ := hnodup
  refine ⟨fun heq => hpx (by simp [heq]), fun a ha => ?_⟩
  rcases List.mem_append.mp ha with hpre | hpost
  · exact ⟨hdisj a hpre p (by simp), hdisj a hpre x (by simp)⟩
  · exact ⟨fun heq => hpx (by simp [← heq, hpost]), fun heq => hxpost (heq ▸ hpost)⟩

/-- A node with a predecessor is not the head. -/
theorem Ring.head_ne (h : Ring s (pre ++ p :: x :: post)) : s.head ≠ x := by
  obtain ⟨hne, hapart⟩ := h.apart
  have hhead := h.head
  cases pre with
  | nil =>
      rintro rfl
      exact hne (by simpa using hhead)
  | cons a pre =>
      rintro rfl
      exact (hapart a (by simp)).2 (by simpa using hhead)

/-- The node behind the one cut out stays in the ring. -/
theorem Ring.next_stays (h : Ring s (pre ++ p :: x :: post)) :
    ∃ q rest, post ++ [s.head] = q :: rest ∧ s.next x = some q ∧ q ∈ pre ++ p :: post := by
  obtain ⟨q, rest, hq⟩ : ∃ q rest, post ++ [s.head] = q :: rest := by
    cases post with
    | nil => exact ⟨s.head, [], rfl⟩
    | cons b post => exact ⟨b, post ++ [s.head], rfl⟩
  have hlinked : Linked s.next ((pre ++ [p]) ++ x :: q :: rest) := by
    simpa [hq] using h.linked
  have hnext := hlinked.next_eq
  refine ⟨q, rest, hq, hnext, ?_⟩
  obtain ⟨b, hb, hxb⟩ := h.next_mem (a := x) (by simp)
  obtain rfl : q = b := Option.some.inj (hnext.symm.trans hxb)
  have hqx : q ≠ x := by
    have hmem : q ∈ post ++ [s.head] := by simp [hq]
    rcases List.mem_append.mp hmem with hpost | hhead
    · exact (h.apart.2 q (List.mem_append_right _ hpost)).2
    · exact List.mem_singleton.mp hhead ▸ h.head_ne
  simpa [hqx] using hb

/-- The tail is the last node left. -/
theorem Ring.unlinked_tail (h : Ring s (pre ++ p :: x :: post)) :
    (pre ++ p :: post).getLast? = some (s.unlinked p x np n).tail := by
  have htail := h.tail
  simp only [unlinked]
  cases post with
  | nil =>
      obtain rfl : x = s.tail := by simpa using htail
      simp
  | cons b post =>
      have hlast : s.tail ∈ b :: post := by
        refine List.mem_of_getLast? (l := b :: post) ?_
        simpa [List.getLast?_append, List.getLast?_cons] using htail
      have hne := (h.apart.2 s.tail (List.mem_append_right _ hlast)).2
      rw [if_neg hne.symm]
      simpa [List.getLast?_append, List.getLast?_cons] using htail

/-- The links close the ring without the node. -/
theorem Ring.unlinked_linked (h : Ring s (pre ++ p :: x :: post)) (hx : s.nodes x = some n) :
    Linked (s.unlinked p x np n).next (pre ++ p :: post ++ [s.head]) := by
  obtain ⟨hne, hapart⟩ := h.apart
  obtain ⟨q, rest, hq, hxq, _⟩ := h.next_stays
  have hlinked : Linked s.next (pre ++ p :: x :: q :: rest) := by
    simpa only [List.append_assoc, List.cons_append, hq] using h.linked
  have hkeep : ∀ a ∈ pre ++ post, (s.unlinked p x np n).next a = s.next a := fun a ha =>
    unlinked_next (hapart a ha).1 (hapart a ha).2
  rw [List.append_assoc, List.cons_append, hq]
  refine hlinked.unlink ((unlinked_next_pred hne hx).trans hxq)
    (fun a ha => hkeep a (List.mem_append_left _ ha)) fun a ha => ?_
  rw [← hq, List.dropLast_concat] at ha
  exact hkeep a (List.mem_append_right _ ha)

/-- The cursor is on a node that is left. -/
theorem Ring.unlinked_cursor (h : Ring s (pre ++ p :: x :: post)) (hx : s.nodes x = some n) :
    (s.unlinked p x np n).currentProcessNode ∈ pre ++ p :: post := by
  simp only [unlinked]
  by_cases hcur : x = s.currentProcessNode
  · obtain ⟨q, _, _, hxq, hmem⟩ := h.next_stays
    have hnq : n.next = q := by simpa [next, hx] using hxq
    rw [if_pos hcur, hnq]
    exact hmem
  · rw [if_neg hcur]
    have hmem := h.cursor
    simpa [Ne.symm hcur] using hmem

/-- The ring without the node. -/
theorem Ring.cut (h : Ring s (pre ++ p :: x :: post)) (hx : s.nodes x = some n) :
    Ring (s.unlinked p x np n) (pre ++ p :: post) where
  head := by
    have hhead := h.head
    change (pre ++ p :: post).head? = some s.head
    cases pre <;> simpa using hhead
  tail := h.unlinked_tail
  linked := h.unlinked_linked hx
  nodup := by
    have hsub : List.Sublist (pre ++ p :: post) (pre ++ p :: x :: post) :=
      ((List.sublist_cons_self x post).cons_cons p).append_left pre
    exact hsub.nodup h.nodup
  count := by
    have hcount := h.count
    simp only [List.length_append, List.length_cons] at hcount ⊢
    simp only [unlinked]
    omega
  cursor := h.unlinked_cursor hx
  nonnull := by
    have hnonnull := h.nonnull
    simp only [List.mem_append, List.mem_cons] at hnonnull ⊢
    tauto

/-- Cutting a node with a predecessor out of the ring leaves a ring. -/
theorem Ring.unlink {t : Scheduler} (h : Ring s (pre ++ p :: x :: post))
    (hx : s.nodes x = some n) (hrun : unlinkNode p x n s = .ok ((), t)) :
    Ring t (pre ++ p :: post) := by
  have hcount : s.count > 1 := by
    rw [← h.count]
    simp only [List.length_append, List.length_cons]
    omega
  obtain ⟨np, hnp, _⟩ := h.node (a := p) (by simp)
  rw [unlinkNode_run hnp hx (h.ne_zero (by simp)) h.apart.1 hcount] at hrun
  cases hrun
  exact h.cut hx

end Unlink

/-- What the search loop does from a node with a predecessor in the ring:
nothing, or it unlinks a node behind a predecessor. -/
theorem removeLoop_effect {s t : Scheduler} {l : List Nat} (h : Ring s l) {process : Nat} :
    ∀ (fuel : Nat) (pre post : List Nat) (p x : Nat), l = pre ++ p :: x :: post →
    removeLoop process fuel p x s = .ok ((), t) →
    t = s ∨ ∃ pre p x post n, l = pre ++ p :: x :: post ∧ s.nodes x = some n ∧
      n.process = process ∧ unlinkNode p x n s = .ok ((), t) := by
  intro fuel
  induction fuel with
  | zero =>
      intro _ _ _ _ _ hrun
      cases hrun
  | succ fuel ih =>
      intro pre post p x hl hrun
      obtain ⟨n, hn, _⟩ := h.node (a := x) (by simp [hl])
      rw [removeLoop, Prog.bind_of_ok (readNode_of hn), Prog.ite_apply] at hrun
      split at hrun
      · exact .inr ⟨pre, p, x, post, n, hl, hn, ‹_›, hrun⟩
      · rw [Prog.get_bind_apply, Prog.ite_apply] at hrun
        split at hrun
        · cases hrun
          exact .inl rfl
        · -- the loop goes on to the next node of the ring
          have hlinked := h.linked
          rw [hl] at hlinked
          cases post with
          | nil =>
              have hnext := Linked.next_eq (u := pre ++ [p]) (a := x) (b := s.head) (v := [])
                (by simpa using hlinked)
              simp only [next, hn, Option.map_some, Option.some.injEq] at hnext
              contradiction
          | cons b post =>
              have hnext := Linked.next_eq (u := pre ++ [p]) (a := x) (b := b)
                (v := post ++ [s.head]) (by simpa using hlinked)
              simp only [next, hn, Option.map_some, Option.some.injEq] at hnext
              rw [hnext] at hrun
              exact ih (pre ++ [p]) post x b (by simp [hl]) hrun

/-- The process of the head node. -/
def headProcess (s : Scheduler) : Option Nat := (s.nodes s.head).map QueueNode.process

/-- A removal that does not hit the head keeps a ring: the same one, or the one
without a node behind the head. -/
theorem Ring.remove {s t : Scheduler} {l : List Nat} (h : Ring s l) {process fuel : Nat}
    (hhead : process = 0 ∨ s.headProcess ≠ some process)
    (hrun : schedulerRemoveProcess fuel process s = .ok ((), t)) : ∃ l', Ring t l' := by
  obtain ⟨n, hn, _⟩ := h.node h.head_mem
  unfold schedulerRemoveProcess at hrun
  simp only [Prog.get_bind_apply, Prog.ite_apply, h.ne_zero h.head_mem, false_or] at hrun
  by_cases hp : process = 0
  · rw [if_pos hp] at hrun
    cases hrun
    exact ⟨l, h⟩
  have hnp : n.process ≠ process := by
    intro heq
    simp [hp, headProcess, hn, heq] at hhead
  rw [if_neg hp] at hrun
  split at hrun
  · rw [Prog.bind_of_ok (readNode_of hn), Prog.ite_apply, if_neg hnp] at hrun
    cases hrun
    exact ⟨l, h⟩
  · -- more than one node: the first round of the loop leaves the head behind
    obtain ⟨rest, hl⟩ := List.head?_eq_some_iff.mp h.head
    cases fuel with
    | zero => cases hrun
    | succ fuel =>
        rw [removeLoop, Prog.bind_of_ok (readNode_of hn), Prog.ite_apply, if_neg hnp,
          Prog.get_bind_apply, Prog.ite_apply] at hrun
        split at hrun
        · cases hrun
          exact ⟨l, h⟩
        · cases rest with
          | nil =>
              have htail := h.tail
              simp only [hl, List.getLast?_singleton, Option.some.injEq] at htail
              contradiction
          | cons b rest =>
              have hlinked := h.linked
              rw [hl] at hlinked
              have hnext := hlinked.next_eq (u := []) (a := s.head) (b := b)
              simp only [next, hn, Option.map_some, Option.some.injEq] at hnext
              rw [hnext] at hrun
              rcases removeLoop_effect h fuel [] rest s.head b hl hrun with
                rfl | ⟨pre, p, x, post, m, hsplit, hm, _, hunlink⟩
              · exact ⟨l, h⟩
              · exact ⟨pre ++ p :: post, (hsplit ▸ h).unlink hm hunlink⟩

/-! ## Removing the head -/

/-- The queue is empty: no node, no head, no tail and no cursor. -/
structure Empty (s : Scheduler) : Prop where
  head : s.head = 0
  tail : s.tail = 0
  cursor : s.currentProcessNode = 0
  count : s.count = 0

/-- The state after unlinking the head, with content `n`, of several nodes: the
tail keeps its link to the freed node. -/
def headUnlinked (s : Scheduler) (n : QueueNode) : Scheduler :=
  { s with
    nodes := Function.update s.nodes s.head none
    head := n.next
    currentProcessNode := if s.head = s.currentProcessNode then n.next else s.currentProcessNode
    count := s.count - 1 }

theorem headUnlinked_nodes {s : Scheduler} {n : QueueNode} {a : Nat} (ha : a ≠ s.head) :
    (s.headUnlinked n).nodes a = s.nodes a := Function.update_of_ne ha ..

theorem unlinkNode_head {s : Scheduler} {n : QueueNode} (hn : s.nodes s.head = some n)
    (hne : s.head ≠ s.tail) (hcount : s.count > 1) :
    unlinkNode 0 s.head n s = .ok ((), s.headUnlinked n) := by
  rw [unlinkNode, relink, if_pos rfl, Prog.modify_bind_apply, moveTail, Prog.modify_bind_apply,
    Prog.bind_of_ok (moveCursor_effect (by exact hn) (by exact hcount))]
  simp only [if_neg hne]
  rfl

/-- A ring whose head is not its tail has several nodes. -/
theorem Ring.count_of_ne {s : Scheduler} {l : List Nat} (h : Ring s l) (hne : s.head ≠ s.tail) :
    s.count > 1 := by
  rw [← h.count]
  obtain ⟨rest, hl⟩ := List.head?_eq_some_iff.mp h.head
  cases rest with
  | nil =>
      have htail := h.tail
      simp only [hl, List.getLast?_singleton, Option.some.injEq] at htail
      contradiction
  | cons b rest => simp [hl]

/-- Removing the process at the head of several nodes. -/
theorem Ring.remove_head_run {s : Scheduler} {l : List Nat} (h : Ring s l) {process fuel : Nat}
    (hp : process ≠ 0) {n : QueueNode} (hn : s.nodes s.head = some n) (hnp : n.process = process)
    (hne : s.head ≠ s.tail) :
    schedulerRemoveProcess (fuel + 1) process s = .ok ((), s.headUnlinked n) := by
  unfold schedulerRemoveProcess
  rw [Prog.get_bind_apply, if_neg (by simp [h.ne_zero h.head_mem, hp]), if_neg hne, removeLoop,
    Prog.bind_of_ok (readNode_of hn), if_pos hnp, unlinkNode_head hn hne (h.count_of_ne hne)]

/-- Removing the only node leaves the cursor on the freed node; removing the
head of a longer queue leaves the tail linked to the freed node. Either way the
result is neither empty nor a ring. -/
theorem Ring.remove_head {s t : Scheduler} {l : List Nat} (h : Ring s l) {process fuel : Nat}
    (hp : process ≠ 0) (hhead : s.headProcess = some process)
    (hrun : schedulerRemoveProcess fuel process s = .ok ((), t)) :
    ¬ (Empty t ∨ ∃ l', Ring t l') := by
  obtain ⟨n, hn, hnl⟩ := h.node h.head_mem
  have hnp : n.process = process := by simpa [headProcess, hn] using hhead
  by_cases hne : s.head = s.tail
  · unfold schedulerRemoveProcess at hrun
    simp only [Prog.get_bind_apply, Prog.ite_apply, h.ne_zero h.head_mem, hp, or_self,
      ↓reduceIte] at hrun
    rw [if_pos hne, Prog.bind_of_ok (readNode_of hn), Prog.ite_apply, if_pos hnp] at hrun
    cases hrun
    rintro (hempty | ⟨l', hring⟩)
    · exact h.ne_zero h.cursor hempty.cursor
    · exact hring.ne_zero hring.head_mem rfl
  · cases fuel with
    | zero =>
        unfold schedulerRemoveProcess at hrun
        rw [Prog.get_bind_apply, if_neg (by simp [h.ne_zero h.head_mem, hp]), if_neg hne] at hrun
        cases hrun
    | succ fuel =>
        rw [h.remove_head_run hp hn hnp hne] at hrun
        obtain rfl : s.headUnlinked n = t := by
          cases hrun
          rfl
        rintro (hempty | ⟨l', hring⟩)
        · exact h.ne_zero hnl hempty.head
        · -- the tail still links to the freed head
          have htail : ((s.headUnlinked n).nodes s.tail).map QueueNode.next = some n.next :=
            hring.next_tail
          obtain ⟨m, hm, _⟩ := hring.node hring.head_mem
          have hm : (s.headUnlinked n).nodes n.next = some m := hm
          rw [headUnlinked_nodes (Ne.symm hne)] at htail
          rw [← Option.some.inj (h.next_tail.symm.trans htail)] at hm
          simp [headUnlinked] at hm

end MyOs.Scheduler
