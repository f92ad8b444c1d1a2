import MyOs.Logic.ReadyRing

/-!
# The ready queue over whole runs

The queue stays a ring as long as no removal hits the process at its head. A
removal of the head process leaves a freed node reachable: from the cursor
when it was the only node, from the tail otherwise.
-/

namespace MyOs.Scheduler

/-- The queue is empty, or it is a ring with the cursor on one of its nodes. -/
def ReadyQueueOk (s : Scheduler) : Prop := Empty s ∨ ∃ l, Ring s l

/-- The call does not remove the process at the head of the queue. -/
def KeepsHead (s : Scheduler) : Call → Prop
  | .remove process _ => process = 0 ∨ s.headProcess ≠ some process
  | _ => True

/-- A call that keeps the head keeps a ring. -/
theorem step_ring {s s' : Scheduler} {call : Call} (h : ∃ l, Ring s l)
    (hkeep : KeepsHead s call) (hstep : sys.step s call s') : ∃ l, Ring s' l := by
  obtain ⟨l, h⟩ := h
  obtain ⟨hfresh, hrun⟩ := hstep
  cases call with
  | add process node => exact ⟨l ++ [node], h.add hfresh hrun⟩
  | remove process fuel => exact h.remove hkeep hrun
  | getNext =>
      obtain ⟨process, t, hnext, hrest⟩ := Prog.bind_eq_ok.mp hrun
      cases hrest
      obtain ⟨node, hnode, _, _, _, _, rfl⟩ := getNext_effect h hnext
      exact ⟨l, h.rotate hnode⟩
  | tick => exact ⟨l, h.tick hrun⟩

/-- A call that removes the head breaks the queue. -/
theorem step_head_breaks {s s' : Scheduler} {call : Call} (h : ∃ l, Ring s l)
    (hhead : ¬ KeepsHead s call) (hstep : sys.step s call s') : ¬ ReadyQueueOk s' := by
  obtain ⟨l, h⟩ := h
  cases call with
  | remove process fuel =>
      simp only [KeepsHead, not_or, not_not] at hhead
      exact h.remove_head hhead.1 hhead.2 hstep.2
  | add _ _ => exact absurd trivial hhead
  | getNext => exact absurd trivial hhead
  | tick => exact absurd trivial hhead

/-- **The ready-queue ring.** Along any sequence of calls after
`scheduler_init`, every state has an empty queue or a ring exactly when no
call removes the process at the head. -/
theorem ready_queue_ok_iff {s : Scheduler} (hinit : sys.init s)
    {run : List (Call × Scheduler)} (hrun : sys.IsRun s run) :
    TSys.AllStates ReadyQueueOk s run ↔ TSys.AllSteps KeepsHead s run := by
  obtain ⟨process, node, hinit⟩ := hinit
  have hring : (fun s => ∃ l, Ring s l) s := ⟨_, init_ring hinit⟩
  exact TSys.run_states_iff_steps (fun _ => .inr) (fun _ _ _ => step_ring)
    (fun _ _ _ => step_head_breaks) hring hrun

/-- The state after `scheduler_init` of process 1 with its node at 100. -/
def oneProcess : Scheduler :=
  { boot with
    nodes := Function.update (Function.update (fun _ => none) 100 (some ⟨1, 0⟩)) 100 (some ⟨1, 100⟩)
    head := 100, tail := 100, count := 1, currentProcessNode := 100, currentProcess := 1 }

/-- Adding process 2 at node 200 and taking it out again never hits the head,
so the queue is a ring throughout. -/
theorem ready_queue_ok_two : ∃ run, sys.IsRun oneProcess run ∧ run.length = 2 ∧
    TSys.AllStates ReadyQueueOk oneProcess run := by
  have hinit : sys.init oneProcess := ⟨1, 100, rfl⟩
  have hrun : sys.IsRun oneProcess [(.add 2 200, _), (.remove 2 2, _)] :=
    ⟨⟨rfl, rfl⟩, ⟨trivial, rfl⟩, trivial⟩
  exact ⟨_, hrun, rfl, (ready_queue_ok_iff hinit hrun).mpr
    ⟨trivial, .inr (by simp [headProcess, oneProcess, boot, Function.update]), trivial⟩⟩

/-- Removing the only process leaves the cursor on its freed node. -/
theorem ready_queue_dangling_cursor : ¬ sys.Invariant ReadyQueueOk := by
  intro h
  have hinit : sys.Reachable oneProcess := .init ⟨1, 100, rfl⟩
  have hstep : sys.step oneProcess (.remove 1 0) { oneProcess with
      nodes := Function.update oneProcess.nodes 100 none, head := 0, tail := 0, count := 0 } :=
    ⟨trivial, rfl⟩
  rcases h _ (hinit.step hstep) with hempty | ⟨l, hring⟩
  · exact absurd hempty.cursor (by decide)
  · exact hring.ne_zero hring.head_mem rfl

end MyOs.Scheduler
