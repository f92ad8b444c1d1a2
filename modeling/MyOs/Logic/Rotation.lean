import MyOs.Logic.ReadyRing

/-!
# Rotating the ready queue

`scheduler_get_next_process` follows one link and returns the process of the
node it arrives at. `rounds_follow` says what several calls in a row return:
the processes along the links from the cursor.
-/

namespace MyOs.Scheduler

/-- The process of an allocated node. -/
def processAt (s : Scheduler) (node : Nat) : Nat := ((s.nodes node).map QueueNode.process).getD 0

theorem processAt_of {s : Scheduler} {a : Nat} {n : QueueNode} (h : s.nodes a = some n) :
    s.processAt a = n.process := by
  rw [processAt, h]
  rfl

/-- The state with the cursor at `node`. -/
def withCursor (s : Scheduler) (node : Nat) : Scheduler := { s with currentProcessNode := node }

section Rounds

variable {s : Scheduler} {c a : Nat}

theorem getNext_link (hhead : s.head ≠ 0) (hc : c ≠ 0) (hnext : s.next c = some a) (ha : a ≠ 0) :
    schedulerGetNextProcess (s.withCursor c) =
      (do let n ← readNode a; pure n.process : Prog Scheduler Nat) (s.withCursor a) := by
  obtain ⟨n, hn, rfl⟩ := Option.map_eq_some_iff.mp hnext
  have hn : (s.withCursor c).nodes (s.withCursor c).currentProcessNode = some n := hn
  unfold schedulerGetNextProcess
  rw [Prog.get_bind_apply, if_neg (show ¬ (s.withCursor c).head = 0 from hhead),
    if_neg (show ¬ (s.withCursor c).currentProcessNode = 0 from hc),
    Prog.bind_of_ok (readNode_of hn), if_neg ha, Prog.modify_bind_apply]
  rfl

/-- A call that arrives at an allocated node. -/
theorem getNext_of {n : QueueNode} (hhead : s.head ≠ 0) (hc : c ≠ 0) (hnext : s.next c = some a)
    (ha : a ≠ 0) (hn : s.nodes a = some n) :
    schedulerGetNextProcess (s.withCursor c) = .ok (s.processAt a, s.withCursor a) := by
  have hn' : (s.withCursor a).nodes a = some n := hn
  rw [getNext_link hhead hc hnext ha, Prog.bind_of_ok (readNode_of hn'), processAt_of hn]
  rfl

/-- A call that arrives at a freed node. -/
theorem getNext_freed (hhead : s.head ≠ 0) (hc : c ≠ 0) (hnext : s.next c = some a) (ha : a ≠ 0)
    (hn : s.nodes a = none) : ∃ e, schedulerGetNextProcess (s.withCursor c) = .error e := by
  have hn' : (s.withCursor a).nodes a = none := hn
  have hread : readNode a (s.withCursor a) = .error (.badAccess a) := by rw [readNode, hn']
  exact ⟨.badAccess a, (getNext_link hhead hc hnext ha).trans (Prog.bind_of_error hread)⟩

/-- Calls along a path of allocated nodes. -/
theorem rounds_follow (hhead : s.head ≠ 0) : ∀ (path : List Nat) (c : Nat), c ≠ 0 →
    Linked s.next (c :: path) → (∀ a ∈ path, a ≠ 0 ∧ ∃ n, s.nodes a = some n) →
    rounds path.length (s.withCursor c) =
      .ok (path.map s.processAt, s.withCursor ((c :: path).getLast (by simp))) := by
  intro path
  induction path with
  | nil => exact fun c _ _ _ => rfl
  | cons a rest ih =>
      intro c hc hlinked hnodes
      obtain ⟨hnext, hrest⟩ := Linked.cons_cons.mp hlinked
      obtain ⟨ha, n, hn⟩ := hnodes a List.mem_cons_self
      rw [List.length_cons, rounds, Prog.bind_of_ok (getNext_of hhead hc hnext ha hn),
        Prog.bind_of_ok (ih a ha hrest fun b hb => hnodes b (List.mem_cons_of_mem a hb))]
      simp only [Prog.pure_apply, List.map_cons, List.getLast_cons_cons]

/-- Calls along a path that leads to a freed node. -/
theorem rounds_dangling {x : Nat} (hhead : s.head ≠ 0) (hx : x ≠ 0) (hfreed : s.nodes x = none) :
    ∀ (path : List Nat) (c m : Nat), c ≠ 0 → Linked s.next (c :: (path ++ [x])) →
    (∀ a ∈ path, a ≠ 0 ∧ ∃ n, s.nodes a = some n) → path.length < m →
    ∃ e, rounds m (s.withCursor c) = .error e := by
  intro path
  induction path with
  | nil =>
      intro c m hc hlinked _ hm
      obtain ⟨e, he⟩ := getNext_freed hhead hc (Linked.cons_cons.mp hlinked).1 hx hfreed
      cases m with
      | zero => exact absurd hm (Nat.lt_irrefl 0)
      | succ m => exact ⟨e, Prog.bind_of_error he⟩
  | cons a rest ih =>
      intro c m hc hlinked hnodes hm
      obtain ⟨hnext, hrest⟩ := Linked.cons_cons.mp hlinked
      obtain ⟨ha, n, hn⟩ := hnodes a List.mem_cons_self
      cases m with
      | zero => exact absurd hm (Nat.not_lt_zero _)
      | succ m =>
          obtain ⟨e, he⟩ := ih a m ha hrest (fun b hb => hnodes b (List.mem_cons_of_mem a hb))
            (Nat.lt_of_succ_lt_succ hm)
          refine ⟨e, ?_⟩
          rw [rounds, Prog.bind_of_ok (getNext_of hhead hc hnext ha hn), Prog.bind_of_error he]

end Rounds

/-- **Once around.** From a ring, as many calls as there are nodes return the
process of every node, from the one after the cursor on, and end where they
began. -/
theorem Ring.rounds_all {s : Scheduler} {pre post : List Nat} {c : Nat}
    (h : Ring s (pre ++ c :: post)) (hc : s.currentProcessNode = c) :
    rounds (pre ++ c :: post).length s = .ok ((post ++ pre ++ [c]).map s.processAt, s) := by
  have hhead : (pre ++ [c]).head? = some s.head := by
    have := h.head
    cases pre <;> simpa using this
  have hlinked := Linked.rotate (by simpa using h.linked) hhead
  have hnodes : ∀ a ∈ post ++ pre ++ [c], a ≠ 0 ∧ ∃ n, s.nodes a = some n := by
    intro a ha
    have hmem : a ∈ pre ++ c :: post := by
      simp only [List.mem_append, List.mem_cons, List.not_mem_nil, or_false] at ha ⊢
      tauto
    obtain ⟨n, hn, _⟩ := h.node hmem
    exact ⟨h.ne_zero hmem, n, hn⟩
  have hrun := rounds_follow (h.ne_zero h.head_mem) _ c (h.ne_zero (by simp)) hlinked hnodes
  have hcursor : s.withCursor c = s := by
    rw [← hc]
    rfl
  have hlength : (post ++ pre ++ [c]).length = (pre ++ c :: post).length := by
    simp only [List.length_append, List.length_cons, List.length_nil]
    omega
  have hlast : (c :: (post ++ pre ++ [c])).getLast (by simp) = c := by
    rw [List.getLast_cons (by simp), List.getLast_append_of_ne_nil _ (by simp)]
    rfl
  rw [hlength, hlast, hcursor] at hrun
  exact hrun

end MyOs.Scheduler
