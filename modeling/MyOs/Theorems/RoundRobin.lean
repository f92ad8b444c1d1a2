import MyOs.Logic.Rotation
import MyOs.Theorems.ReadyQueue

/-!
# Round-robin order

What runs of insertions and ticks after `scheduler_init` keep: the ring holds
the processes in the order they were added, and the current process is the one
at the cursor. The next round then returns each of them once, from the one
after the cursor on.
-/

namespace MyOs.Scheduler

/-- The queue holds the processes of `entries`, each in its node, in this
order, and the current process is the one at the cursor. -/
structure Serves (s : Scheduler) (entries : List (Nat × Nat)) : Prop where
  ring : Ring s (entries.map Prod.snd)
  process : ∀ e ∈ entries, (s.nodes e.2).map QueueNode.process = some e.1
  nonnull : ∀ e ∈ entries, e.1 ≠ 0
  current : (s.nodes s.currentProcessNode).map QueueNode.process = some s.currentProcess

/-- `scheduler_init` on an empty queue makes a ring of one node. -/
theorem init_serves {s₀ s : Scheduler} {process node : Nat} (hempty : s₀.tail = 0)
    (hcount : s₀.count = 0) (hrun : schedulerInit process node s₀ = .ok ((), s)) :
    Serves s [(process, node)] := by
  unfold schedulerInit schedulerAddProcess schedulerCreateQueueNode at hrun
  by_cases hp : process = 0
  · simp [hp] at hrun
  by_cases hz : node = 0
  · simp [hp, hz] at hrun
  simp only [hp, hz, Prog.bind_assoc_apply, Prog.modify_bind_apply,
    Prog.pure_bind_apply, Prog.get_bind_apply, hempty, ↓reduceIte] at hrun
  rw [Prog.bind_of_ok (writeNext_of (n := ⟨process, 0⟩) (by simp))] at hrun
  simp only [Prog.modify_bind_apply, Prog.modify_apply, Except.ok.injEq, Prod.mk.injEq,
    true_and, linkTo] at hrun
  subst hrun
  refine ⟨⟨rfl, rfl, by simp [next], by simp, by simp [hcount], by simp, by simp [Ne.symm hz]⟩,
    ?_, ?_, by simp⟩
  · simp
  · simp [hp]

/-- An insertion appends the process it adds. -/
theorem Serves.add {s t : Scheduler} {entries : List (Nat × Nat)} (h : Serves s entries)
    {process node : Nat} (hfresh : s.nodes node = none)
    (hrun : schedulerAddProcess process node s = .ok ((), t)) :
    Serves t (entries ++ [(process, node)]) := by
  obtain ⟨n, hn, _⟩ := h.ring.node h.ring.tail_mem
  have hnew : ∀ a, (s.nodes a).map QueueNode.process ≠ none → a ≠ node := by
    rintro a ha rfl
    rw [hfresh] at ha
    exact ha rfl
  have hne : node ≠ s.tail := fun heq => hnew s.tail (by simp [hn]) heq.symm
  have hring := h.ring.add hfresh hrun
  obtain ⟨hp, _, rfl⟩ := add_effect (h.ring.ne_zero h.ring.tail_mem) hn hne hrun
  -- the nodes in the ring keep their processes
  have hkeep : ∀ a p, (s.nodes a).map QueueNode.process = some p →
      (Function.update (Function.update s.nodes s.tail (some { n with next := node })) node
        (some ⟨process, s.head⟩) a).map QueueNode.process = some p := by
    intro a p ha
    rw [Function.update_of_ne (hnew a (by simp [ha]))]
    by_cases heq : a = s.tail
    · subst heq
      rw [hn] at ha
      simpa using ha
    · rw [Function.update_of_ne heq, ha]
  refine ⟨by simpa using hring, ?_, ?_, hkeep _ _ h.current⟩
  · intro e he
    rcases List.mem_append.mp he with he | he
    · exact hkeep _ _ (h.process e he)
    · obtain rfl : e = (process, node) := List.mem_singleton.mp he
      simp
  · intro e he
    rcases List.mem_append.mp he with he | he
    · exact h.nonnull e he
    · obtain rfl : e = (process, node) := List.mem_singleton.mp he
      exact hp

/-- A tick keeps the queue, and after it the process at the cursor runs. -/
theorem Serves.tick {s t : Scheduler} {entries : List (Nat × Nat)} (h : Serves s entries)
    (hrun : schedulerHandleTick s = .ok ((), t)) : Serves t entries := by
  have hring := h.ring.tick hrun
  unfold schedulerHandleTick at hrun
  simp only [Prog.modify_bind_apply, Prog.get_bind_apply, Prog.ite_apply] at hrun
  split at hrun
  · obtain ⟨process, s', hnext, hrest⟩ := Prog.bind_eq_ok.mp hrun
    have hreset : Ring { s with tickCount := 0 } (entries.map Prod.snd) :=
      ⟨h.ring.head, h.ring.tail, h.ring.linked, h.ring.nodup, h.ring.count, h.ring.cursor,
        h.ring.nonnull⟩
    obtain ⟨node, hnode, n, _, hn, rfl, rfl⟩ := getNext_effect hreset hnext
    obtain ⟨e, he, rfl⟩ := List.mem_map.mp hnode
    have hn : s.nodes e.2 = some n := hn
    have hprocess : n.process = e.1 := by
      have heq := h.process e he
      rw [hn] at heq
      exact Option.some.inj heq
    have hne : n.process ≠ 0 := hprocess ▸ h.nonnull e he
    simp only [Prog.get_bind_apply, Prog.ite_apply, processSwitch, Prog.modify_apply,
      Prog.pure_apply, ne_eq, hne, not_false_eq_true, true_and] at hrest
    have hcurrent : t.currentProcess = n.process ∧ t.currentProcessNode = e.2 ∧
        t.nodes = s.nodes := by
      by_cases hsame : n.process = s.currentProcess
      · rw [if_neg (not_not.mpr hsame)] at hrest
        cases hrest
        exact ⟨hsame.symm, rfl, rfl⟩
      · rw [if_pos hsame] at hrest
        cases hrest
        exact ⟨rfl, rfl, rfl⟩
    refine ⟨hring, ?_, h.nonnull, ?_⟩
    · rw [hcurrent.2.2]
      exact h.process
    · rw [hcurrent.1, hcurrent.2.1, hcurrent.2.2, hn]
      rfl
  · cases hrun
    exact ⟨hring, h.process, h.nonnull, h.current⟩

/-- The call adds a process or is a tick. -/
def AddsOrTicks : Call → Prop
  | .add _ _ => True
  | .tick => True
  | _ => False

/-- The processes a run adds, each with its node, in order. -/
def added (run : List (Call × Scheduler)) : List (Nat × Nat) :=
  run.filterMap fun
    | (.add process node, _) => some (process, node)
    | _ => none

/-- The processes a run of insertions and ticks adds come after those that are
there. -/
theorem run_serves {s : Scheduler} {entries : List (Nat × Nat)} (h : Serves s entries)
    {run : List (Call × Scheduler)} (hrun : sys.IsRun s run)
    (hcalls : TSys.AllSteps (fun _ call => AddsOrTicks call) s run) :
    Serves (TSys.final s run) (entries ++ added run) := by
  induction run generalizing s entries with
  | nil => simpa [added, TSys.final] using h
  | cons next rest ih =>
      obtain ⟨call, s'⟩ := next
      obtain ⟨⟨hfresh, hstep⟩, hrest⟩ := hrun
      cases call with
      | add process node =>
          have := ih (h.add hfresh hstep) hrest hcalls.2
          simpa [added, TSys.final] using this
      | tick =>
          have := ih (h.tick hstep) hrest hcalls.2
          simpa [added, TSys.final] using this
      | remove _ _ => exact hcalls.1.elim
      | getNext => exact hcalls.1.elim

/-- **Round-robin order.** After `scheduler_init` on an empty queue and any
insertions and ticks, the queue holds the processes in the order they were
added. The next round of calls returns each of them once, from the one after the
cursor on, and leaves the state as it was; the current process is the one at
the cursor. -/
theorem round_robin {s₀ s : Scheduler} {process node : Nat}
    (hempty : s₀.head = 0 ∧ s₀.tail = 0 ∧ s₀.count = 0)
    (hinit : schedulerInit process node s₀ = .ok ((), s)) {run : List (Call × Scheduler)}
    (hrun : sys.IsRun s run)
    (hcalls : TSys.AllSteps (fun _ call => AddsOrTicks call) s run) :
    ∃ pre cur post, (process, node) :: added run = pre ++ cur :: post ∧
      Ring (TSys.final s run) (((process, node) :: added run).map Prod.snd) ∧
      cur.2 = (TSys.final s run).currentProcessNode ∧
      cur.1 = (TSys.final s run).currentProcess ∧
      rounds (TSys.final s run).count (TSys.final s run) =
        .ok ((post ++ pre ++ [cur]).map Prod.fst, TSys.final s run) := by
  have h : Serves (TSys.final s run) ((process, node) :: added run) :=
    run_serves (init_serves hempty.2.1 hempty.2.2 hinit) hrun hcalls
  generalize TSys.final s run = t at h ⊢
  obtain ⟨cur, hcur, hnode⟩ := List.mem_map.mp h.ring.cursor
  obtain ⟨pre, post, hsplit⟩ := List.append_of_mem hcur
  refine ⟨pre, cur, post, hsplit, h.ring, hnode, ?_, ?_⟩
  · have hprocess := h.process cur hcur
    rw [hnode, h.current] at hprocess
    exact (Option.some.inj hprocess).symm
  · have hring : Ring t (pre.map Prod.snd ++ cur.2 :: post.map Prod.snd) := by
      simpa [hsplit] using h.ring
    have hround := hring.rounds_all hnode.symm
    rw [hring.count] at hround
    rw [hround]
    -- the nodes hold the processes of the entries
    have hprocesses : ∀ es : List (Nat × Nat), (∀ e ∈ es, e ∈ (process, node) :: added run) →
        (es.map Prod.snd).map t.processAt = es.map Prod.fst := by
      intro es hes
      rw [List.map_map]
      refine List.map_congr_left fun e he => ?_
      simp [processAt, h.process e (hes e he)]
    have := hprocesses (post ++ pre ++ [cur]) (by
      intro e he
      rw [hsplit]
      simp only [List.mem_append, List.mem_cons, List.not_mem_nil, or_false] at he ⊢
      tauto)
    rw [← this]
    simp

/-- Two processes added after the first, and ten ticks: the cursor is at the
second process, and a round returns the third, the first and the second. -/
theorem round_robin_three : ∃ run, sys.IsRun oneProcess run ∧ run.length = 12 ∧
    ∃ pre cur post, [(1, 100), (2, 200), (3, 300)] = pre ++ cur :: post ∧
      cur.1 = (TSys.final oneProcess run).currentProcess ∧
      rounds (TSys.final oneProcess run).count (TSys.final oneProcess run) =
        .ok ((post ++ pre ++ [cur]).map Prod.fst, TSys.final oneProcess run) := by
  have hinit : schedulerInit 1 100 boot = .ok ((), oneProcess) := rfl
  have hrun : sys.IsRun oneProcess ([(.add 2 200, _), (.add 3 300, _), (.tick, _), (.tick, _),
      (.tick, _), (.tick, _), (.tick, _), (.tick, _), (.tick, _), (.tick, _), (.tick, _),
      (.tick, _)] : List (Call × Scheduler)) :=
    ⟨⟨rfl, rfl⟩, ⟨rfl, rfl⟩, ⟨trivial, rfl⟩, ⟨trivial, rfl⟩, ⟨trivial, rfl⟩, ⟨trivial, rfl⟩,
      ⟨trivial, rfl⟩, ⟨trivial, rfl⟩, ⟨trivial, rfl⟩, ⟨trivial, rfl⟩, ⟨trivial, rfl⟩,
      ⟨trivial, rfl⟩, trivial⟩
  obtain ⟨pre, cur, post, hsplit, _, _, hcurrent, hround⟩ :=
    round_robin ⟨rfl, rfl, rfl⟩ hinit hrun
      ⟨trivial, trivial, trivial, trivial, trivial, trivial, trivial, trivial, trivial, trivial,
        trivial, trivial, trivial⟩
  exact ⟨_, hrun, rfl, pre, cur, post, hsplit, hcurrent, hround⟩

end MyOs.Scheduler
