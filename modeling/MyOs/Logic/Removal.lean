import MyOs.Logic.Rotation

/-!
# A removal beside the rotation

How the calls of `scheduler_get_next_process` after a removal follow the calls
without it. `Follows` relates the two cursors: they are on the same node, except
that one has arrived at the removed node and the other waits on its predecessor.
`rounds_follows` is the simulation.
-/

namespace MyOs.Scheduler

/-! ## The search loop finds its node -/

section Search

variable {s : Scheduler} {l : List Nat} {process x : Nat} {nx : QueueNode}

/-- The head of a ring comes before all its other nodes. -/
theorem Ring.ne_head {a b : Nat} {pre post : List Nat} (h : Ring s (pre ++ a :: b :: post)) :
    b ≠ s.head := by
  have hnodup := h.nodup
  have hhead := h.head
  rintro rfl
  cases pre with
  | nil =>
      obtain rfl : a = s.head := by simpa using hhead
      simp at hnodup
  | cons c pre =>
      obtain rfl : c = s.head := by simpa using hhead
      simp at hnodup

/-- One round of the loop at a node with another process. -/
theorem removeLoop_skip {a b fuel prev : Nat} {pre post : List Nat}
    (h : Ring s (pre ++ a :: b :: post)) (hother : s.processAt a ≠ process) :
    removeLoop process (fuel + 1) prev a s = removeLoop process fuel a b s := by
  obtain ⟨n, hn, _⟩ := h.node (a := a) (by simp)
  have hne : n.process ≠ process := processAt_of hn ▸ hother
  have hlinked := h.linked
  rw [List.append_assoc, List.cons_append, List.cons_append] at hlinked
  have hnext : n.next = b := by simpa [next, hn] using hlinked.next_eq
  rw [removeLoop, Prog.bind_of_ok (readNode_of hn), if_neg hne, Prog.get_bind_apply, hnext,
    if_neg h.ne_head]

/-- The loop walks over the nodes `skip`, which hold other processes, and
unlinks `x` behind the node it comes from. -/
theorem removeLoop_run (hx : s.nodes x = some nx) (hnx : nx.process = process)
    {post : List Nat} : ∀ (skip : List Nat) (fuel : Nat) (pre : List Nat) (p first : Nat),
    Ring s (pre ++ p :: (skip ++ x :: post)) → (skip ++ [x]).head? = some first →
    (∀ a ∈ skip, s.processAt a ≠ process) → skip.length < fuel →
    ∃ pre' p', pre ++ p :: (skip ++ x :: post) = pre' ++ p' :: x :: post ∧
      removeLoop process fuel p first s = unlinkNode p' x nx s := by
  intro skip
  induction skip with
  | nil =>
      intro fuel pre p first _ hfirst _ hfuel
      obtain rfl : x = first := Option.some.inj hfirst
      obtain ⟨fuel, rfl⟩ := Nat.exists_eq_succ_of_ne_zero (Nat.ne_of_gt hfuel)
      refine ⟨pre, p, rfl, ?_⟩
      rw [removeLoop, Prog.bind_of_ok (readNode_of hx), if_pos hnx]
  | cons a skip ih =>
      intro fuel pre p first h hfirst hskip hfuel
      obtain rfl : a = first := Option.some.inj hfirst
      obtain ⟨fuel, rfl⟩ := Nat.exists_eq_succ_of_ne_zero (Nat.ne_of_gt (Nat.zero_lt_of_lt hfuel))
      obtain ⟨b, hb⟩ : ∃ b, (skip ++ [x]).head? = some b := Option.isSome_iff_exists.mp (by simp)
      obtain ⟨rest, hrest⟩ := List.head?_eq_some_iff.mp hb
      have h' : Ring s ((pre ++ [p]) ++ a :: (skip ++ x :: post)) := by simpa using h
      have hb' : Ring s ((pre ++ [p]) ++ a :: b :: (rest ++ post)) := by
        rwa [List.append_cons skip, hrest, List.cons_append] at h'
      obtain ⟨pre', p', hsplit, hrun⟩ := ih fuel (pre ++ [p]) a b h' hb
        (fun c hc => hskip c (List.mem_cons_of_mem a hc)) (Nat.lt_of_succ_lt_succ hfuel)
      refine ⟨pre', p', by simpa using hsplit, ?_⟩
      rw [removeLoop_skip hb' (hskip a List.mem_cons_self), hrun]

/-- Removing a process that only the node `x` behind the head holds. -/
theorem Ring.remove_run (h : Ring s l) (hdistinct : (l.map s.processAt).Nodup) (hmem : x ∈ l)
    (hhead : x ≠ s.head) (hx : s.nodes x = some nx) (hp : nx.process ≠ 0) :
    ∃ pre p post np, l = pre ++ p :: x :: post ∧ s.nodes p = some np ∧
      schedulerRemoveProcess s.count nx.process s = .ok ((), s.unlinked p x np nx) := by
  obtain ⟨rest, rfl⟩ := List.head?_eq_some_iff.mp h.head
  obtain ⟨skip, post, rfl⟩ := List.append_of_mem ((List.mem_cons.mp hmem).resolve_left hhead)
  have hothers : ∀ a ∈ s.head :: skip, s.processAt a ≠ nx.process := by
    intro a ha heq
    rw [← List.cons_append, List.map_append, List.map_cons] at hdistinct
    have hdisj := (List.nodup_append.mp hdistinct).2.2
    exact hdisj _ (List.mem_map_of_mem ha) _ List.mem_cons_self (heq.trans (processAt_of hx).symm)
  obtain ⟨first, hfirst⟩ : ∃ b, (skip ++ [x]).head? = some b :=
    Option.isSome_iff_exists.mp (by simp)
  obtain ⟨after, hafter⟩ := List.head?_eq_some_iff.mp hfirst
  have h' : Ring s ([] ++ s.head :: first :: (after ++ post)) := by
    rwa [List.append_cons skip, hafter] at h
  have hcount : s.count = skip.length + 1 + post.length + 1 := by
    rw [← h.count]
    simp only [List.length_cons, List.length_append]
    omega
  obtain ⟨pre, p, hsplit, hrun⟩ := removeLoop_run hx rfl skip (skip.length + 1 + post.length) []
    s.head first h hfirst (fun a ha => hothers a (List.mem_cons_of_mem _ ha)) (by omega)
  have hring : Ring s (pre ++ p :: x :: post) := hsplit ▸ h
  obtain ⟨np, hnp, _⟩ := hring.node (a := p) (by simp)
  have htail : s.head ≠ s.tail := by
    have htail := h'.tail
    intro heq
    have hnodup := h'.nodup
    rw [heq, List.nil_append, List.getLast?_cons_cons] at htail
    rw [heq, List.nil_append] at hnodup
    exact (List.nodup_cons.mp hnodup).1 (List.mem_of_getLast? htail)
  refine ⟨pre, p, post, np, hsplit, hnp, ?_⟩
  unfold schedulerRemoveProcess
  rw [Prog.get_bind_apply, if_neg (by simp [h.ne_zero h.head_mem, hp]), if_neg htail, hcount,
    removeLoop_skip h' (hothers _ List.mem_cons_self), hrun,
    unlinkNode_run hnp hx (hring.ne_zero (by simp)) hring.apart.1 (by omega)]

end Search

/-! ## The two cursors -/

section Follow

variable {s : Scheduler} {pre post : List Nat} {p x : Nat} {np nx : QueueNode}

/-- The cursor `b` after the removal of `x`, whose predecessor is `p`, follows
the cursor `a` without it. -/
def Follows (p x a b : Nat) : Prop := (a ≠ x ∧ b = a) ∨ (a = x ∧ b = p)

theorem unlinked_processAt {a : Nat} (hp : s.nodes p = some np) (hax : a ≠ x) :
    (s.unlinked p x np nx).processAt a = s.processAt a := by
  by_cases hap : a = p
  · subst hap
    simp [processAt, unlinked, hax, hp]
  · simp [processAt, unlinked, hax, hap]

/-- A call from any node of a ring. -/
theorem Ring.getNext {l : List Nat} (h : Ring s l) {a : Nat} (ha : a ∈ l) :
    ∃ b ∈ l, s.next a = some b ∧
      schedulerGetNextProcess (s.withCursor a) = .ok (s.processAt b, s.withCursor b) := by
  obtain ⟨b, hb, hnext⟩ := h.next_mem ha
  obtain ⟨n, hn, _⟩ := h.node hb
  exact ⟨b, hb, hnext,
    getNext_of (h.ne_zero h.head_mem) (h.ne_zero ha) hnext (h.ne_zero hb) hn⟩

/-- One call without the removal arrives at the removed node, or the call after
the removal arrives at the same node. -/
theorem follows_step (h : Ring s (pre ++ p :: x :: post))
    (h' : Ring (s.unlinked p x np nx) (pre ++ p :: post)) (hp : s.nodes p = some np)
    (hx : s.nodes x = some nx) {a b : Nat} (ha : a ∈ pre ++ p :: x :: post)
    (hab : Follows p x a b) : ∃ a' ∈ pre ++ p :: x :: post,
      schedulerGetNextProcess (s.withCursor a) = .ok (s.processAt a', s.withCursor a') ∧
      ((a' = x ∧ b = p) ∨ (a' ≠ x ∧
        schedulerGetNextProcess ((s.unlinked p x np nx).withCursor b) =
          .ok (s.processAt a', (s.unlinked p x np nx).withCursor a'))) := by
  have hpx := h.apart.1
  have hlinked := h.linked
  rw [List.append_assoc, List.cons_append, List.cons_append] at hlinked
  have hnextp : s.next p = some x := hlinked.next_eq
  obtain ⟨a', ha', hnext, hrun⟩ := h.getNext ha
  refine ⟨a', ha', hrun, ?_⟩
  by_cases harrive : a = p
  · obtain rfl : x = a' := Option.some.inj (hnextp.symm.trans (harrive ▸ hnext))
    refine .inl ⟨rfl, ?_⟩
    rcases hab with ⟨_, rfl⟩ | ⟨rfl, hb⟩
    · exact harrive
    · exact hb
  -- otherwise both cursors move to the same node
  have hne : a' ≠ x := by
    rintro rfl
    exact harrive (h.next_inj ha (by simp) (hnext.trans hnextp.symm))
  have hboth : b ∈ pre ++ p :: post ∧ (s.unlinked p x np nx).next b = some a' := by
    rcases hab with ⟨hax, rfl⟩ | ⟨rfl, rfl⟩
    · refine ⟨?_, (unlinked_next harrive hax).trans hnext⟩
      simpa [hax] using ha
    · exact ⟨by simp, (unlinked_next_pred hpx hx).trans hnext⟩
  obtain ⟨c, _, hc, hrun'⟩ := h'.getNext hboth.1
  obtain rfl : a' = c := Option.some.inj (hboth.2.symm.trans hc)
  rw [unlinked_processAt hp hne] at hrun'
  exact .inr ⟨hne, hrun'⟩

/-- **Simulation.** From cursors that follow each other, the calls after the
removal return what the calls without it return, less the removed process. -/
theorem rounds_follows (h : Ring s (pre ++ p :: x :: post))
    (h' : Ring (s.unlinked p x np nx) (pre ++ p :: post)) (hp : s.nodes p = some np)
    (hx : s.nodes x = some nx)
    (hothers : ∀ a ∈ pre ++ p :: x :: post, a ≠ x → s.processAt a ≠ nx.process) (m : Nat) :
    ∀ a b, a ∈ pre ++ p :: x :: post → Follows p x a b → ∃ ps a' b',
      rounds m (s.withCursor a) = .ok (ps, s.withCursor a') ∧
      rounds (ps.filter (· ≠ nx.process)).length ((s.unlinked p x np nx).withCursor b) =
        .ok (ps.filter (· ≠ nx.process), (s.unlinked p x np nx).withCursor b') := by
  induction m with
  | zero => exact fun a b _ _ => ⟨[], a, b, rfl, rfl⟩
  | succ m ih =>
      intro a b ha hab
      obtain ⟨a', ha', hrun, hstep⟩ := follows_step h h' hp hx ha hab
      rcases hstep with ⟨rfl, rfl⟩ | ⟨hne, hrun'⟩
      · -- the removed process is returned here and nothing there
        obtain ⟨ps, c, d, hps, hps'⟩ := ih a' b ha' (.inr ⟨rfl, rfl⟩)
        refine ⟨s.processAt a' :: ps, c, d, ?_, ?_⟩
        · rw [rounds, Prog.bind_of_ok hrun, Prog.bind_of_ok hps]
          rfl
        · rw [processAt_of hx, List.filter_cons_of_neg (by simp)]
          exact hps'
      · obtain ⟨ps, c, d, hps, hps'⟩ := ih a' a' ha' (.inl ⟨hne, rfl⟩)
        refine ⟨s.processAt a' :: ps, c, d, ?_, ?_⟩
        · rw [rounds, Prog.bind_of_ok hrun, Prog.bind_of_ok hps]
          rfl
        · rw [List.filter_cons_of_pos (by simpa using hothers a' ha' hne), List.length_cons,
            rounds, Prog.bind_of_ok hrun', Prog.bind_of_ok hps']
          rfl

/-- The cursor on the removed node moves to its predecessor in a ring of two
nodes only. -/
theorem Ring.next_pred_iff (h : Ring s (pre ++ p :: x :: post)) :
    s.next x = some p ↔ s.count = 2 := by
  have hlinked := h.linked
  rw [List.append_assoc, List.cons_append, List.cons_append] at hlinked
  have hnodup := h.nodup
  have hcount := h.count
  have hhead := h.head
  constructor
  · intro hnext
    cases post with
    | cons c post =>
        have hc : s.next x = some c := Linked.next_eq (u := pre ++ [p]) (by simpa using hlinked)
        obtain rfl : p = c := Option.some.inj (hnext.symm.trans hc)
        simp [List.nodup_append] at hnodup
    | nil =>
        have hc : s.next x = some s.head :=
          Linked.next_eq (u := pre ++ [p]) (v := []) (by simpa using hlinked)
        obtain rfl : p = s.head := Option.some.inj (hnext.symm.trans hc)
        cases pre with
        | nil => exact hcount.symm
        | cons c pre =>
            obtain rfl : c = s.head := by simpa using hhead
            simp at hnodup
  · intro htwo
    simp only [List.length_append, List.length_cons] at hcount
    obtain rfl : pre = [] := List.eq_nil_of_length_eq_zero (by omega)
    obtain rfl : post = [] := List.eq_nil_of_length_eq_zero (by omega)
    obtain rfl : p = s.head := by simpa using hhead
    exact Linked.next_eq (u := [s.head]) (v := []) (by simpa using hlinked)

end Follow

/-! ## Queued processes are not `NULL` -/

/-- No allocated node holds the `NULL` process. -/
def NoNull (s : Scheduler) : Prop := ∀ a n, s.nodes a = some n → n.process ≠ 0

theorem NoNull.update {s : Scheduler} (h : NoNull s) {a : Nat} {n : QueueNode}
    (hn : n.process ≠ 0) : NoNull { s with nodes := Function.update s.nodes a (some n) } := by
  intro b m hb
  by_cases heq : b = a
  · subst heq
    obtain rfl : n = m := by simpa using hb
    exact hn
  · exact h b m (by simpa [heq] using hb)

theorem readNode_noNull (a : Nat) :
    Prog.Triple NoNull (readNode a) fun n s => NoNull s ∧ n.process ≠ 0 := by
  intro s hs n t hrun
  obtain ⟨hn, rfl⟩ := readNode_eq_ok.mp hrun
  exact ⟨hs, hs a n hn⟩

theorem NoNull.free {s : Scheduler} (h : NoNull s) (a : Nat) :
    NoNull { s with nodes := Function.update s.nodes a none } := by
  intro b m hb
  by_cases heq : b = a
  · subst heq
    simp at hb
  · exact h b m (by simpa [heq] using hb)

theorem modify_noNull {f : Scheduler → Scheduler} (hf : ∀ s, (f s).nodes = s.nodes) :
    Prog.Triple NoNull (Prog.modify f) fun _ => NoNull :=
  Prog.Triple.modify fun s hs => by
    unfold NoNull
    rw [hf s]
    exact hs

theorem writeNext_noNull (a b : Nat) : Prog.Triple NoNull (writeNext a b) fun _ => NoNull :=
  Prog.Triple.bind (readNode_noNull a) fun _ => Prog.Triple.modify fun _ hs => hs.1.update hs.2

theorem getNext_noNull : Prog.Triple NoNull schedulerGetNextProcess fun _ => NoNull := by
  refine Prog.Triple.read fun s _ => ?_
  refine Prog.Triple.ite (fun _ => Prog.Triple.pure fun _ hs => hs) fun _ => ?_
  refine Prog.Triple.ite (fun _ => Prog.Triple.stop) fun _ => ?_
  refine Prog.Triple.bind (readNode_noNull _) fun n => ?_
  refine Prog.Triple.ite (fun _ => Prog.Triple.stop) fun _ => ?_
  refine Prog.Triple.bind (Prog.Triple.modify (Q := fun _ => NoNull) fun _ hs => hs.1) fun _ => ?_
  exact Prog.Triple.bind (readNode_noNull _) fun _ => Prog.Triple.pure fun _ hs => hs.1

theorem addProcess_noNull (process node : Nat) :
    Prog.Triple NoNull (schedulerAddProcess process node) fun _ => NoNull := by
  refine Prog.Triple.ite (fun _ => Prog.Triple.stop) fun hp => ?_
  have hcreate : Prog.Triple NoNull (schedulerCreateQueueNode process node) fun _ => NoNull := by
    refine Prog.Triple.ite (fun _ => Prog.Triple.stop) fun _ => ?_
    exact Prog.Triple.bind (Prog.Triple.modify (Q := fun _ => NoNull) fun _ hs => hs.update hp)
      fun _ => Prog.Triple.pure fun _ hs => hs
  refine Prog.Triple.bind hcreate fun node => Prog.Triple.read fun s _ => ?_
  refine Prog.Triple.ite (fun _ => ?_) fun _ => ?_
  · refine Prog.Triple.bind (modify_noNull fun _ => rfl) fun _ => ?_
    exact Prog.Triple.bind (writeNext_noNull _ _) fun _ => modify_noNull fun _ => rfl
  · refine Prog.Triple.bind (writeNext_noNull _ _) fun _ => ?_
    refine Prog.Triple.bind (modify_noNull fun _ => rfl) fun _ => ?_
    exact Prog.Triple.bind (writeNext_noNull _ _) fun _ => modify_noNull fun _ => rfl

theorem moveCursor_noNull (x : Nat) : Prog.Triple NoNull (moveCursor x) fun _ => NoNull := by
  refine Prog.Triple.read fun s _ => Prog.Triple.ite (fun _ => ?_) fun _ => ?_
  · exact Prog.Triple.bind (readNode_noNull _) fun _ => Prog.Triple.modify fun _ hs => hs.1
  · exact Prog.Triple.ite (fun _ => modify_noNull fun _ => rfl)
      fun _ => Prog.Triple.pure fun _ hs => hs

theorem unlinkNode_noNull (p x : Nat) (n : QueueNode) :
    Prog.Triple NoNull (unlinkNode p x n) fun _ => NoNull := by
  have hrelink : Prog.Triple NoNull (relink p n.next) fun _ => NoNull :=
    Prog.Triple.ite (fun _ => modify_noNull fun _ => rfl) fun _ => writeNext_noNull _ _
  refine Prog.Triple.bind hrelink fun _ => ?_
  refine Prog.Triple.bind (modify_noNull fun _ => rfl) fun _ => ?_
  refine Prog.Triple.bind (moveCursor_noNull x) fun _ => ?_
  exact Prog.Triple.bind (Prog.Triple.modify (Q := fun _ => NoNull) fun _ hs => hs.free x)
    fun _ => modify_noNull fun _ => rfl

theorem removeLoop_noNull (process fuel p x : Nat) :
    Prog.Triple NoNull (removeLoop process fuel p x) fun _ => NoNull := by
  induction fuel generalizing p x with
  | zero => exact Prog.Triple.stop
  | succ fuel ih =>
      refine Prog.Triple.bind (readNode_noNull x) fun n => ?_
      refine Prog.Triple.ite (fun _ => ?_) fun _ => ?_
      · exact (unlinkNode_noNull p x n).weaken (fun _ hs => hs.1) fun _ _ hs => hs
      · refine Prog.Triple.read fun s _ => ?_
        refine Prog.Triple.ite (fun _ => Prog.Triple.pure fun _ hs => hs.1) fun _ => ?_
        exact (ih x n.next).weaken (fun _ hs => hs.1) fun _ _ hs => hs

theorem removeProcess_noNull (fuel process : Nat) :
    Prog.Triple NoNull (schedulerRemoveProcess fuel process) fun _ => NoNull := by
  refine Prog.Triple.read fun s _ => ?_
  refine Prog.Triple.ite (fun _ => Prog.Triple.pure fun _ hs => hs) fun _ => ?_
  refine Prog.Triple.ite (fun _ => ?_) fun _ => removeLoop_noNull _ _ _ _
  refine Prog.Triple.bind (readNode_noNull _) fun n => ?_
  refine Prog.Triple.ite (fun _ => ?_) fun _ => Prog.Triple.pure fun _ hs => hs.1
  exact Prog.Triple.bind (Prog.Triple.modify (Q := fun _ => NoNull) fun _ hs => hs.1.free _)
    fun _ => modify_noNull fun _ => rfl

theorem tick_noNull : Prog.Triple NoNull schedulerHandleTick fun _ => NoNull := by
  refine Prog.Triple.bind (modify_noNull fun _ => rfl) fun _ => ?_
  refine Prog.Triple.read fun s _ => ?_
  refine Prog.Triple.ite (fun _ => ?_) fun _ => Prog.Triple.pure fun _ hs => hs
  refine Prog.Triple.bind (modify_noNull fun _ => rfl) fun _ => ?_
  refine Prog.Triple.bind getNext_noNull fun _ => Prog.Triple.read fun _ _ => ?_
  exact Prog.Triple.ite (fun _ => modify_noNull fun _ => rfl)
    fun _ => Prog.Triple.pure fun _ hs => hs

/-- Every call keeps the queued processes non-null. -/
theorem exec_noNull (call : Call) : Prog.Triple NoNull (exec call) fun _ => NoNull := by
  cases call with
  | add process node => exact addProcess_noNull process node
  | remove process fuel => exact removeProcess_noNull fuel process
  | getNext => exact Prog.Triple.bind getNext_noNull fun _ => Prog.Triple.pure fun _ hs => hs
  | tick => exact tick_noNull

theorem noNull_inductive : sys.Inductive NoNull where
  init := by
    rintro s ⟨process, node, hinit⟩
    have hboot : NoNull boot := fun _ _ h => nomatch h
    have hrun : Prog.Triple NoNull (schedulerInit process node) fun _ => NoNull := by
      refine Prog.Triple.ite (fun _ => Prog.Triple.stop) fun _ => ?_
      refine Prog.Triple.bind (modify_noNull fun _ => rfl) fun _ => ?_
      exact Prog.Triple.bind (addProcess_noNull _ _) fun _ => modify_noNull fun _ => rfl
    exact hrun boot hboot () s hinit
  step := fun s call s' hs hstep => exec_noNull call s hs () s' hstep.2

end MyOs.Scheduler
