import MyOs.Logic.Removal
import MyOs.Theorems.ReadyQueue

/-!
# Removal and the rotation

Removing a process keeps the order of the others unless it is the head of the
queue or the process under the cursor. Without the head the tail links to its
freed node; moving the cursor off the removed node skips the process after it,
except in a queue of two, where that process comes next anyway.
-/

namespace MyOs.Scheduler

/-- Any number of calls after the removal of `process` return what the calls
without it return, less `process`. -/
def RemovalKeepsRotation (s : Scheduler) (process : Nat) : Prop :=
  ∃ t, schedulerRemoveProcess s.count process s = .ok ((), t) ∧
    ∀ m, ∃ ps s', rounds m s = .ok (ps, s') ∧
      ∃ t', rounds (ps.filter (· ≠ process)).length t = .ok (ps.filter (· ≠ process), t')

theorem length_filter_ne {ps : List Nat} {q : Nat} (hnodup : ps.Nodup) (hmem : q ∈ ps) :
    (ps.filter (· ≠ q)).length + 1 = ps.length := by
  rw [← List.length_erase_add_one hmem, hnodup.erase_eq_filter]
  congr 2
  refine List.filter_congr fun a _ => ?_
  by_cases h : a = q <;> simp [h]

section Cases

variable {s : Scheduler} {l : List Nat} {x : Nat} {nx : QueueNode}

/-- Other nodes hold other processes. -/
theorem processAt_ne (hdistinct : (l.map s.processAt).Nodup) (hmem : x ∈ l)
    (hx : s.nodes x = some nx) : ∀ a ∈ l, a ≠ x → s.processAt a ≠ nx.process := by
  intro a ha hne heq
  exact hne (List.inj_on_of_nodup_map hdistinct ha hmem (heq.trans (processAt_of hx).symm))

/-- One call from the cursor of a ring. -/
theorem Ring.rounds_one (h : Ring s l) {b : Nat} (hnext : s.next s.currentProcessNode = some b) :
    rounds 1 s = .ok ([s.processAt b], s.withCursor b) := by
  obtain ⟨c, _, hc, hcall⟩ := h.getNext h.cursor
  obtain rfl : b = c := Option.some.inj (hnext.symm.trans hc)
  change schedulerGetNextProcess s = _ at hcall
  rw [rounds, Prog.bind_of_ok hcall]
  rfl

/-- Moving the cursor off the removed node, in a queue of at least three,
skips the process that would have come next. -/
theorem Ring.skips {pre post : List Nat} {p : Nat} {np : QueueNode}
    (h : Ring s (pre ++ p :: x :: post)) (h' : Ring (s.unlinked p x np nx) (pre ++ p :: post))
    (hdistinct : ((pre ++ p :: x :: post).map s.processAt).Nodup) (hnp : s.nodes p = some np)
    (hx : s.nodes x = some nx) (hcursor : s.currentProcessNode = x) (hlong : s.count ≠ 2) :
    ∃ y z, y ≠ nx.process ∧ z ≠ y ∧
      (∃ s', rounds 1 s = .ok ([y], s')) ∧
      ∃ t', rounds 1 (s.unlinked p x np nx) = .ok ([z], t') := by
  have hothers := processAt_ne hdistinct (by simp) hx
  have hpx := h.apart.1
  have hxpost : x ∉ pre ++ p :: post := by
    have hnodup : (x :: ((pre ++ [p]) ++ post)).Nodup :=
      List.nodup_middle.mp (by simpa using h.nodup)
    simpa using (List.nodup_cons.mp hnodup).1
  have hstay : ∀ a, a ∈ pre ++ p :: x :: post → a ≠ x → a ∈ pre ++ p :: post := by
    intro a ha hax
    simpa [hax] using ha
  have hback : ∀ a, a ∈ pre ++ p :: post → a ∈ pre ++ p :: x :: post := by
    intro a ha
    simp only [List.mem_append, List.mem_cons] at ha ⊢
    tauto
  -- `y` comes after the removed node, `z` after `y`
  obtain ⟨y, hy, hxy⟩ := h.next_mem (a := x) (by simp)
  have hlinked := h.linked
  rw [List.append_assoc, List.cons_append, List.cons_append] at hlinked
  have hyx : y ≠ x := by
    rintro rfl
    exact hpx (h.next_inj (by simp) hy (hlinked.next_eq.trans hxy.symm))
  obtain ⟨z, hz, hyz⟩ := h'.next_mem (hstay y hy hyx)
  have hpy : (s.unlinked p x np nx).next p = some y := (unlinked_next_pred hpx hx).trans hxy
  have hzy : z ≠ y := by
    rintro rfl
    obtain rfl : z = p := h'.next_inj (hstay z hy hyx) (by simp) (hyz.trans hpy.symm)
    exact hlong (h.next_pred_iff.mp hxy)
  have hzx : z ≠ x := fun heq => hxpost (heq ▸ hz)
  have hnext : nx.next = y := by simpa [next, hx] using hxy
  have hmoved : (s.unlinked p x np nx).currentProcessNode = y := by
    simp [unlinked, hcursor, hnext]
  refine ⟨s.processAt y, s.processAt z, hothers y hy hyx, ?_, ⟨_, h.rounds_one (hcursor ▸ hxy)⟩, ?_⟩
  · intro heq
    exact hzy (List.inj_on_of_nodup_map hdistinct (hback z hz) hy heq)
  · exact ⟨_, unlinked_processAt hnp hzx ▸ h'.rounds_one (hmoved.symm ▸ hyz)⟩

/-- Behind the head, the rotation is kept unless the cursor moves. -/
theorem Ring.keeps_iff_behind (h : Ring s l) (hdistinct : (l.map s.processAt).Nodup)
    (hmem : x ∈ l) (hhead : x ≠ s.head) (hx : s.nodes x = some nx) (hp : nx.process ≠ 0) :
    RemovalKeepsRotation s nx.process ↔ s.currentProcessNode ≠ x ∨ s.count = 2 := by
  have hothers := processAt_ne hdistinct hmem hx
  obtain ⟨pre, p, post, np, rfl, hnp, hrun⟩ := h.remove_run hdistinct hmem hhead hx hp
  have h' : Ring (s.unlinked p x np nx) (pre ++ p :: post) := h.cut hx
  constructor
  · rintro ⟨t, hremove, hrounds⟩
    rw [hrun] at hremove
    obtain rfl : s.unlinked p x np nx = t := by
      cases hremove
      rfl
    refine Classical.byContradiction fun hnot => ?_
    obtain ⟨hcursor, hlong⟩ := not_or.mp hnot
    obtain ⟨y, z, hy, hzy, ⟨s', hone⟩, t', hone'⟩ :=
      h.skips h' hdistinct hnp hx (not_not.mp hcursor) hlong
    obtain ⟨ps, s'', hps, t'', hps'⟩ := hrounds 1
    rw [hone] at hps
    obtain rfl : [y] = ps := by
      cases hps
      rfl
    rw [List.filter_cons_of_pos (by simpa using hy), List.filter_nil] at hps'
    have heq := hone'.symm.trans hps'
    simp only [Except.ok.injEq, Prod.mk.injEq, List.cons.injEq, and_true] at heq
    exact hzy heq.1
  · intro hok
    refine ⟨_, hrun, fun m => ?_⟩
    have hfollows : Follows p x s.currentProcessNode
        (s.unlinked p x np nx).currentProcessNode := by
      by_cases hcursor : s.currentProcessNode = x
      · have hpred : s.next x = some p :=
          h.next_pred_iff.mpr (hok.resolve_left (not_not.mpr hcursor))
        have hnext : nx.next = p := by simpa [next, hx] using hpred
        exact .inr ⟨hcursor, by simp [unlinked, hcursor, hnext]⟩
      · exact .inl ⟨hcursor, by simp [unlinked, Ne.symm hcursor]⟩
    obtain ⟨ps, a', b', hps, hps'⟩ := rounds_follows h h' hnp hx hothers m _ _ h.cursor hfollows
    exact ⟨ps, _, hps, _, hps'⟩

/-- Without the head, the calls run along the links into its freed node. -/
theorem Ring.headUnlinked_dangles (h : Ring s l) (hx : s.nodes s.head = some nx)
    (hne : s.head ≠ s.tail) {m : Nat} (hm : s.count ≤ m + 1) :
    ∃ e, rounds m (s.headUnlinked nx) = .error e := by
  obtain ⟨rest, rfl⟩ := List.head?_eq_some_iff.mp h.head
  obtain ⟨hhead, _⟩ := List.nodup_cons.mp h.nodup
  have hnextmem : nx.next ∈ s.head :: rest := by
    obtain ⟨n, hn, hnl⟩ := h.node h.head_mem
    rw [hx] at hn
    exact Option.some.inj hn ▸ hnl
  have hnexthead : nx.next ≠ s.head := by
    intro heq
    have hnext : s.next s.head = s.next s.tail := by
      rw [h.next_tail, next, hx, Option.map_some, heq]
    exact hne (h.next_inj h.head_mem h.tail_mem hnext)
  have hcursor : (s.headUnlinked nx).currentProcessNode ∈ rest := by
    by_cases hc : s.head = s.currentProcessNode
    · simpa [headUnlinked, ← hc, hnexthead] using hnextmem
    · simpa [headUnlinked, hc, Ne.symm hc] using h.cursor
  obtain ⟨u, v, hrest⟩ := List.append_of_mem hcursor
  have hlinked : Linked s.next ((s.head :: u) ++
      (s.headUnlinked nx).currentProcessNode :: (v ++ [s.head])) := by
    have hl := h.linked
    rw [hrest] at hl
    simpa using hl
  have hv : ∀ a ∈ (s.headUnlinked nx).currentProcessNode :: v, a ∈ rest ∧ a ≠ s.head := by
    intro a ha
    have hmem : a ∈ rest := hrest ▸ List.mem_append_right u ha
    exact ⟨hmem, fun heq => hhead (heq ▸ hmem)⟩
  have hpath : Linked (s.headUnlinked nx).next
      ((s.headUnlinked nx).currentProcessNode :: (v ++ [s.head])) := by
    refine (Linked.split.mp hlinked).2.congr fun a ha => ?_
    rw [← List.cons_append, List.dropLast_concat] at ha
    rw [next, headUnlinked_nodes (hv a ha).2, next]
  refine rounds_dangling (h.ne_zero hnextmem) (h.ne_zero h.head_mem) ?_ v _ m
    (h.ne_zero (List.mem_cons_of_mem _ hcursor)) hpath ?_ ?_
  · simp [headUnlinked]
  · intro a ha
    obtain ⟨hmem, hah⟩ := hv a (List.mem_cons_of_mem _ ha)
    obtain ⟨n, hn, _⟩ := h.node (List.mem_cons_of_mem _ hmem)
    exact ⟨h.ne_zero (List.mem_cons_of_mem _ hmem), n, (headUnlinked_nodes hah).trans hn⟩
  · have hcount := h.count
    rw [List.length_cons, hrest, List.length_append, List.length_cons] at hcount
    omega

/-- Removing the head of several nodes does not keep the rotation. -/
theorem Ring.not_keeps_head (h : Ring s l) (hdistinct : (l.map s.processAt).Nodup)
    (hx : s.nodes s.head = some nx) (hp : nx.process ≠ 0) (hne : s.head ≠ s.tail) :
    ¬ RemovalKeepsRotation s nx.process := by
  rintro ⟨t, hremove, hrounds⟩
  have hcount := h.count_of_ne hne
  obtain ⟨fuel, hfuel⟩ := Nat.exists_eq_succ_of_ne_zero (Nat.ne_of_gt (Nat.zero_lt_of_lt hcount))
  rw [hfuel, h.remove_head_run hp hx rfl hne] at hremove
  obtain rfl : s.headUnlinked nx = t := by
    cases hremove
    rfl
  obtain ⟨pre, post, rfl⟩ := List.append_of_mem h.cursor
  obtain ⟨ps, s', hps, t', hps'⟩ := hrounds s.count
  rw [← h.count, h.rounds_all rfl] at hps
  obtain rfl : (post ++ pre ++ [s.currentProcessNode]).map s.processAt = ps := by
    cases hps
    rfl
  have hperm : (post ++ pre ++ [s.currentProcessNode]).Perm
      (pre ++ s.currentProcessNode :: post) := by
    grind
  have hround := (hperm.map s.processAt).nodup_iff.mpr hdistinct
  have hmem : nx.process ∈ (post ++ pre ++ [s.currentProcessNode]).map s.processAt :=
    List.mem_map.mpr ⟨s.head, hperm.mem_iff.mpr h.head_mem, processAt_of hx⟩
  have hlength := length_filter_ne hround hmem
  rw [List.length_map, hperm.length_eq, h.count] at hlength
  obtain ⟨e, he⟩ := h.headUnlinked_dangles hx hne (Nat.le_of_eq hlength.symm)
  rw [he] at hps'
  cases hps'

/-- When a removal from a ring keeps the rotation. -/
theorem Ring.keeps_iff (h : Ring s l) (hdistinct : (l.map s.processAt).Nodup)
    (hnull : NoNull s) {process : Nat} (hqueued : process ∈ l.map s.processAt)
    (hothers : 2 ≤ l.length) :
    RemovalKeepsRotation s process ↔ s.headProcess ≠ some process ∧
      (s.processAt s.currentProcessNode ≠ process ∨ s.count = 2) := by
  obtain ⟨x, hmem, rfl⟩ := List.mem_map.mp hqueued
  obtain ⟨nx, hx, _⟩ := h.node hmem
  have hp : nx.process ≠ 0 := hnull x nx hx
  have hsame : ∀ a ∈ l, s.processAt a = s.processAt x ↔ a = x := fun a ha =>
    ⟨List.inj_on_of_nodup_map hdistinct ha hmem, fun heq => by rw [heq]⟩
  have hhead : s.headProcess = some (s.processAt x) ↔ s.head = x := by
    obtain ⟨nh, hh, _⟩ := h.node h.head_mem
    rw [headProcess, hh, Option.map_some, Option.some_inj, ← processAt_of hh]
    exact hsame s.head h.head_mem
  rw [ne_eq, hhead, ne_eq, hsame _ h.cursor, processAt_of hx]
  by_cases heq : s.head = x
  · subst heq
    have hne : s.head ≠ s.tail := by
      obtain ⟨init, hinit⟩ := h.exists_init
      intro heq
      have hnodup := h.nodup
      rw [hinit] at hothers hnodup
      have hfirst := h.head
      rw [hinit, heq] at hfirst
      cases init with
      | nil => simp at hothers
      | cons a init =>
          obtain rfl : a = s.tail := by simpa using hfirst
          simp at hnodup
    simp [h.not_keeps_head hdistinct hx hp hne]
  · rw [h.keeps_iff_behind hdistinct hmem (Ne.symm heq) hx hp]
    simp [heq]

end Cases

/-- **Removal and the rotation.** In every state that calls after
`scheduler_init` reach without removing a process from the head, removing one of
several distinct queued processes keeps the rotation of the others exactly when
it is not at the head, and not under the cursor in a queue of more than two. -/
theorem removal_keeps_rotation_iff {s : Scheduler} (hinit : sys.init s)
    {run : List (Call × Scheduler)} (hrun : sys.IsRun s run)
    (hkeep : TSys.AllSteps KeepsHead s run) :
    ∃ l, Ring (TSys.final s run) l ∧
      ((l.map (TSys.final s run).processAt).Nodup → 2 ≤ l.length →
        ∀ process ∈ l.map (TSys.final s run).processAt,
          (RemovalKeepsRotation (TSys.final s run) process ↔
            (TSys.final s run).headProcess ≠ some process ∧
            ((TSys.final s run).processAt (TSys.final s run).currentProcessNode ≠ process ∨
              (TSys.final s run).count = 2))) := by
  have hnull : NoNull (TSys.final s run) :=
    hrun.final_of (fun s call s' hs _ hstep => noNull_inductive.step s call s' hs hstep)
      (noNull_inductive.init s hinit) hkeep
  have hring : ∃ l, Ring (TSys.final s run) l := by
    obtain ⟨process, node, hinit⟩ := hinit
    have hstep : ∀ s call s', (∃ l, Ring s l) → KeepsHead s call → sys.step s call s' →
        ∃ l, Ring s' l := fun _ _ _ => step_ring
    exact hrun.final_of hstep ⟨_, init_ring hinit⟩ hkeep
  obtain ⟨l, hring⟩ := hring
  exact ⟨l, hring, fun hdistinct hothers process hqueued =>
    hring.keeps_iff hdistinct hnull hqueued hothers⟩

/-- Processes 2 and 3 have joined process 1. -/
def threeProcesses : Scheduler :=
  (exec (.add 3 300)).stateAfter ((exec (.add 2 200)).stateAfter oneProcess)

theorem threeProcesses_ring {node : Nat} (hnode : node ∈ [100, 200, 300]) :
    Ring (threeProcesses.withCursor node) [100, 200, 300] where
  head := rfl
  tail := rfl
  linked := Linked.cons_cons.mpr ⟨rfl, Linked.cons_cons.mpr ⟨rfl,
    Linked.cons_cons.mpr ⟨rfl, Linked.singleton 100⟩⟩⟩
  nodup := by decide
  count := rfl
  cursor := hnode
  nonnull := by decide

theorem threeProcesses_run : sys.IsRun oneProcess
    [(.add 2 200, (exec (.add 2 200)).stateAfter oneProcess), (.add 3 300, threeProcesses),
      (.getNext, threeProcesses.withCursor 200)] :=
  ⟨⟨rfl, rfl⟩, ⟨rfl, rfl⟩, ⟨trivial, rfl⟩, trivial⟩

/-- With the cursor on process 2, process 3 can be removed. -/
theorem removal_keeps_rotation_three : sys.Reachable (threeProcesses.withCursor 200) ∧
    RemovalKeepsRotation (threeProcesses.withCursor 200) 3 := by
  have hinit : sys.init oneProcess := ⟨1, 100, rfl⟩
  refine ⟨threeProcesses_run.reachable (.init hinit), ?_⟩
  obtain ⟨l, hring, hiff⟩ := removal_keeps_rotation_iff hinit threeProcesses_run
    ⟨trivial, trivial, trivial, trivial⟩
  obtain rfl : l = [100, 200, 300] := hring.unique (threeProcesses_ring (by decide))
  exact (hiff (by decide) (by decide) 3 (by decide)).mpr ⟨by decide, .inl (by decide)⟩

/-- With the cursor on process 2, the next call returns process 3; after the
removal of process 2 it returns process 1. -/
theorem removal_skips_process : ¬ ∀ s, sys.Reachable s → ∀ l, Ring s l →
    (l.map s.processAt).Nodup → 2 ≤ l.length → ∀ process ∈ l.map s.processAt,
    RemovalKeepsRotation s process := by
  intro hall
  have hinit : sys.init oneProcess := ⟨1, 100, rfl⟩
  obtain ⟨t, hremove, hrounds⟩ := hall _ (threeProcesses_run.reachable (.init hinit)) _
    (threeProcesses_ring (by decide)) (by decide) (by decide) 2 (by decide)
  obtain ⟨ps, s', hps, t', hps'⟩ := hrounds 1
  have hone : rounds 1 (threeProcesses.withCursor 200) =
      .ok ([3], threeProcesses.withCursor 300) := rfl
  obtain rfl : [3] = ps := by
    cases hone.symm.trans hps
    rfl
  have hskip : ∃ t, schedulerRemoveProcess 3 2 (threeProcesses.withCursor 200) = .ok ((), t) ∧
      ∃ t', rounds 1 t = .ok ([1], t') := ⟨_, rfl, _, rfl⟩
  obtain ⟨u, hremove', u', hu⟩ := hskip
  cases hremove.symm.trans hremove'
  cases hu.symm.trans hps'

end MyOs.Scheduler
