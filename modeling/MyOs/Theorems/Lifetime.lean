import MyOs.Processes.Lifecycle
import MyOs.Theorems.ReadyQueue

/-!
# Process lifetime

The scheduler keeps its own pointers to processes: one in each node of the ready
queue, and `current_process`. `process_destroy` looks at none of them. What the
scheduler can switch to is what these pointers hold, so no destroyed process
ever runs as long as none of them leads to a process that is destroyed.
-/

namespace MyOs
namespace Scheduler

/-- Every process the scheduler has a pointer to satisfies `A`. -/
structure AllHeld (A : Nat → Prop) (s : Scheduler) : Prop where
  current : A s.currentProcess
  queued : ∀ node n, s.nodes node = some n → A n.process

section Held

variable {A : Nat → Prop}

theorem AllHeld.update {s : Scheduler} (h : AllHeld A s) {node : Nat} {n : QueueNode}
    (hn : A n.process) :
    AllHeld A { s with nodes := Function.update s.nodes node (some n) } where
  current := h.current
  queued a m hm := by
    change Function.update s.nodes node (some n) a = some m at hm
    by_cases ha : a = node
    · subst ha
      rw [Function.update_self] at hm
      cases hm
      exact hn
    · rw [Function.update_of_ne ha] at hm
      exact h.queued a m hm

theorem readNode_held (node : Nat) :
    Prog.Triple (AllHeld A) (readNode node) fun n s => AllHeld A s ∧ A n.process := by
  intro s h n t hrun
  unfold readNode at hrun
  cases hnode : s.nodes node with
  | none =>
      rw [hnode] at hrun
      cases hrun
  | some m =>
      rw [hnode] at hrun
      cases hrun
      exact ⟨h, h.queued node n hnode⟩

theorem writeNext_held (node next : Nat) :
    Prog.Triple (AllHeld A) (writeNext node next) fun _ => AllHeld A := by
  refine .bind (readNode_held node) fun n => .modify fun s h => ?_
  exact h.1.update h.2

/-- An insertion holds one process more. -/
theorem schedulerAddProcess_held {process : Nat} (node : Nat) (hA : A process) :
    Prog.Triple (AllHeld A) (schedulerAddProcess process node) fun _ => AllHeld A := by
  refine .ite (fun _ => .stop) fun _ => ?_
  have hcreate : Prog.Triple (AllHeld A) (schedulerCreateQueueNode process node)
      fun _ => AllHeld A := by
    refine .ite (fun _ => .stop) fun _ => ?_
    refine .bind (.modify (Q := fun _ => AllHeld A) fun s h => ?_) fun _ => .pure fun _ h => h
    exact h.update hA
  have hmodify {f : Scheduler → Scheduler} (hf : ∀ s, AllHeld A s → AllHeld A (f s)) :
      Prog.Triple (AllHeld A) (Prog.modify f) fun _ => AllHeld A := .modify hf
  have hcount : Prog.Triple (AllHeld A) (Prog.modify fun s : Scheduler =>
      { s with count := s.count + 1 }) fun _ => AllHeld A :=
    hmodify fun s h => ⟨h.current, h.queued⟩
  refine .bind hcreate fun node => .read fun s _ => .ite (fun _ => ?_) fun _ => ?_
  · -- the first node
    refine .bind (hmodify fun s h => ⟨h.current, h.queued⟩) fun _ => ?_
    exact .bind (writeNext_held node node) fun _ => hcount
  · refine .bind (writeNext_held s.tail node) fun _ => ?_
    refine .bind (hmodify fun s h => ⟨h.current, h.queued⟩) fun _ => ?_
    exact .bind (writeNext_held node s.head) fun _ => hcount

/-- The next process is one the scheduler holds. -/
theorem schedulerGetNextProcess_held : Prog.Triple (AllHeld A) schedulerGetNextProcess
    fun p s => AllHeld A s ∧ (p = 0 ∨ A p) := by
  refine .read fun s _ => .ite (fun _ => .pure fun _ h => ⟨h, .inl rfl⟩) fun _ => ?_
  refine .ite (fun _ => .stop) fun _ => ?_
  refine .bind (readNode_held _) fun cursor => .ite (fun _ => .stop) fun _ => ?_
  refine .bind (.modify (Q := fun _ => AllHeld A) fun s h => ⟨h.1.current, h.1.queued⟩) fun _ => ?_
  exact .bind (readNode_held _) fun n => .pure fun s h => ⟨h.1, .inr h.2⟩

/-- A tick switches to a process the scheduler holds. -/
theorem schedulerHandleTick_held :
    Prog.Triple (AllHeld A) schedulerHandleTick fun _ => AllHeld A := by
  have hmodify {f : Scheduler → Scheduler} (hf : ∀ s, AllHeld A s → AllHeld A (f s)) :
      Prog.Triple (AllHeld A) (Prog.modify f) fun _ => AllHeld A := .modify hf
  refine .bind (hmodify fun s h => ⟨h.current, h.queued⟩) fun _ => .read fun s _ => ?_
  refine .ite (fun _ => ?_) fun _ => .pure fun _ h => h
  refine .bind (hmodify fun s h => ⟨h.current, h.queued⟩) fun _ => ?_
  refine .bind schedulerGetNextProcess_held fun p => .read fun s _ => ?_
  refine .ite (fun hp => .modify fun s h => ⟨?_, h.1.queued⟩) fun _ => .pure fun _ h => h.1
  exact h.2.resolve_left hp.1

/-- After `scheduler_init` the initial process is the only one held. -/
theorem schedulerInit_held {process node : Nat} {s : Scheduler} (hA : A process) (h0 : A 0)
    (hrun : schedulerInit process node boot = .ok ((), s)) : AllHeld A s := by
  have hboot : AllHeld A boot := ⟨h0, fun _ _ h => nomatch h⟩
  have hmodify {f : Scheduler → Scheduler} (hf : ∀ s, AllHeld A s → AllHeld A (f s)) :
      Prog.Triple (AllHeld A) (Prog.modify f) fun _ => AllHeld A := .modify hf
  have h : Prog.Triple (AllHeld A) (schedulerInit process node) fun _ => AllHeld A := by
    refine .ite (fun _ => .stop) fun _ => ?_
    refine .bind (hmodify fun s h => ⟨h.current, h.queued⟩) fun _ => ?_
    refine .bind (schedulerAddProcess_held node hA) fun _ => ?_
    exact hmodify fun s h => ⟨hA, h.queued⟩
  exact h boot hboot () s hrun

end Held
end Scheduler

namespace Lifecycle

open Scheduler

/-- What the next tick passes to `process_switch`. -/
def switchTarget (s : Lifecycle) : Option Nat :=
  match schedulerHandleTick s.scheduler with
  | .ok (_, t) =>
      if t.currentProcess = s.scheduler.currentProcess then none else some t.currentProcess
  | .error _ => none

/-- Neither the current process nor the one the next tick switches to has been
destroyed. -/
structure RunsLive (s : Lifecycle) : Prop where
  current : s.scheduler.currentProcess ∉ s.destroyed
  switched : ∀ process, s.switchTarget = some process → process ∉ s.destroyed

/-- A process is destroyed only when the scheduler has no pointer to it, and not
added afterwards. -/
def DestroysUnheld (s : Lifecycle) : Call → Prop
  | .add process _ => process ∉ s.destroyed
  | .destroy process => process = 0 ∨ s.scheduler.AllHeld (· ≠ process)
  | _ => True

/-- The invariant: no pointer of the scheduler leads to a destroyed process. -/
def HeldLive (s : Lifecycle) : Prop := s.scheduler.AllHeld (· ∉ s.destroyed)

theorem HeldLive.runsLive {s : Lifecycle} (h : HeldLive s) : RunsLive s where
  current := h.current
  switched process htarget := by
    unfold switchTarget at htarget
    cases hrun : schedulerHandleTick s.scheduler with
    | error e =>
        rw [hrun] at htarget
        cases htarget
    | ok r =>
        obtain ⟨⟨⟩, t⟩ := r
        have ht := schedulerHandleTick_held _ h _ _ hrun
        rw [hrun] at htarget
        dsimp only at htarget
        split at htarget
        · cases htarget
        · cases htarget
          exact ht.current

section Calls

variable {s s' : Lifecycle}

theorem readProcess_keeps {P : Lifecycle → Prop} (process : Nat) :
    Prog.Triple P (readProcess process) fun _ => P := by
  intro s h p t hrun
  unfold readProcess at hrun
  split at hrun
  · cases hrun
    exact h
  · cases hrun

theorem readPcb_keeps {P : Lifecycle → Prop} (pcb : Nat) :
    Prog.Triple P (readPcb pcb) fun _ => P := by
  intro s h b t hrun
  unfold readPcb at hrun
  split at hrun
  · cases hrun
    exact h
  · cases hrun

theorem readVmContext_keeps {P : Lifecycle → Prop} (process : Nat) :
    Prog.Triple P (readVmContext process) fun _ => P :=
  .bind (readProcess_keeps process) fun p => .bind (readPcb_keeps p.1) fun _ => .pure fun _ h => h

theorem processCreateStack_keeps {P : Lifecycle → Prop} (process : Nat) :
    Prog.Triple P (processCreateStack process) fun _ => P := by
  have hcurrent : Prog.Triple P (onScheduler do
      let s ← Prog.get
      pure s.currentProcess) fun _ => P := by
    intro s h p t hrun
    obtain ⟨u, hu, rfl⟩ := Prog.zoom_eq_ok.mp hrun
    cases hu
    exact h
  refine .bind hcurrent fun current => .bind (readVmContext_keeps current) fun _ => ?_
  exact .bind (readVmContext_keeps process) fun _ => .pure fun _ h => h

/-- `process_create` leaves the scheduler alone and destroys nothing. -/
theorem processCreate_keeps (name : List UInt8) (priority parent : Nat) (new : NewObjects) :
    Prog.Triple HeldLive (processCreate name priority parent new) fun _ => HeldLive := by
  have hmodify {f : Lifecycle → Lifecycle} (hf : ∀ s, HeldLive s → HeldLive (f s)) :
      Prog.Triple HeldLive (Prog.modify f) fun _ => HeldLive := .modify hf
  refine .ite (fun _ => .pure fun _ h => h) fun _ => .ite (fun _ => .pure fun _ h => h) fun _ => ?_
  refine .bind (readVmContext_keeps parent) fun vmContextParent => ?_
  have hpcb : Prog.Triple HeldLive (pcbCreate vmContextParent new) fun _ => HeldLive := by
    refine .ite (fun _ => .pure fun _ h => h) fun _ => .ite (fun _ => .pure fun _ h => h) fun _ => ?_
    exact .bind (hmodify fun _ h => h) fun _ => .pure fun _ h => h
  refine .bind hpcb fun pcb => .ite (fun _ => .pure fun _ h => h) fun _ => ?_
  refine .bind (hmodify fun s h => ?_) fun _ => ?_
  · have hless {p : Nat} (hp : p ∉ s.destroyed) :
        p ∉ s.destroyed.filter (· ≠ new.process) := fun hmem => hp (List.mem_filter.mp hmem).1
    exact ⟨hless h.current, fun node n hn => hless (h.queued node n hn)⟩
  · refine .bind (processCreateStack_keeps new.process) fun _ => ?_
    have hpid : Prog.Triple HeldLive pidAlloc fun _ => HeldLive :=
      .read fun s _ => .bind (hmodify fun _ h => h) fun _ => .pure fun _ h => h
    exact .bind hpid fun pid => .bind (hmodify fun _ h => h) fun _ => .pure fun _ h => h

/-- Destroying a process the scheduler has no pointer to. -/
theorem processDestroy_keeps {process : Nat} (h : HeldLive s)
    (hunheld : process = 0 ∨ s.scheduler.AllHeld (· ≠ process))
    (hrun : processDestroy process s = .ok ((), s')) : HeldLive s' := by
  rw [processDestroy] at hrun
  by_cases hnull : process = 0
  · rw [if_pos hnull] at hrun
    cases hrun
    exact h
  · rw [if_neg hnull] at hrun
    have hother := hunheld.resolve_left hnull
    let P : Lifecycle → Prop := fun t => HeldLive t ∧ t.scheduler.AllHeld (· ≠ process)
    have hpcb (pcb : Nat) : Prog.Triple P (pcbDestroy pcb) fun _ => P := by
      refine .ite (fun _ => .pure fun _ h => h) fun _ => ?_
      exact .bind (readPcb_keeps pcb) fun _ => .modify fun _ h => h
    have hall : Prog.Triple P (do
        let p ← readProcess process
        pcbDestroy p.1
        Prog.modify fun s =>
          { s with
            processes := Function.update s.processes process none
            destroyed := process :: s.destroyed }) fun _ => HeldLive := by
      refine .bind (readProcess_keeps process) fun p => .bind (hpcb p.1) fun _ => ?_
      refine .modify fun t ht => ⟨?_, fun node n hn => ?_⟩
      · exact List.not_mem_cons_of_ne_of_not_mem ht.2.current ht.1.current
      · exact List.not_mem_cons_of_ne_of_not_mem (ht.2.queued node n hn) (ht.1.queued node n hn)
    exact hall s ⟨h, hother⟩ () s' hrun

/-- A call that meets the condition keeps the invariant. -/
theorem step_heldLive {call : Call} (h : HeldLive s) (hcall : DestroysUnheld s call)
    (hstep : sys.step s call s') : HeldLive s' := by
  obtain ⟨_, hrun⟩ := hstep
  cases call with
  | create name priority parent new =>
      obtain ⟨p, t, hcreate, hrest⟩ := Prog.bind_eq_ok.mp hrun
      cases hrest
      exact processCreate_keeps name priority parent new s h p s' hcreate
  | add process node =>
      rw [exec, onScheduler] at hrun
      obtain ⟨t, ht, rfl⟩ := Prog.zoom_eq_ok.mp hrun
      exact schedulerAddProcess_held node hcall _ h _ _ ht
  | destroy process => exact processDestroy_keeps h hcall hrun
  | tick =>
      rw [exec, onScheduler] at hrun
      obtain ⟨t, ht, rfl⟩ := Prog.zoom_eq_ok.mp hrun
      exact schedulerHandleTick_held _ h _ _ ht

end Calls

/-- **Process lifetime.** In every run after `scheduler_init` in which no process
is destroyed while the scheduler has a pointer to it, and none is added after it
was destroyed, no state has a destroyed current process and no tick switches to
a destroyed process. -/
theorem process_lifetime {s : Lifecycle} (hinit : sys.init s) {run : List (Call × Lifecycle)}
    (hrun : sys.IsRun s run) (hsteps : TSys.AllSteps DestroysUnheld s run) :
    TSys.AllStates RunsLive s run := by
  obtain ⟨process, node, pcb, hinit, _, hnone⟩ := hinit
  have hheld : HeldLive s := by
    unfold HeldLive
    rw [hnone]
    exact schedulerInit_held List.not_mem_nil List.not_mem_nil hinit
  exact TSys.IsRun.states_of (fun _ => HeldLive.runsLive) (fun _ _ _ => step_heldLive) hheld hrun
    hsteps

/-- The initial process, at address 1 with its control block at 10. -/
def oneProcess : Lifecycle where
  scheduler := Scheduler.oneProcess
  processes := Function.update (fun _ => none) 1 (some (10, 1, [], 0))
  pcbs := Function.update (fun _ => none) 10 (some (11, 12))
  nextPid := 2
  destroyed := []

theorem oneProcess_init : sys.init oneProcess := ⟨1, 100, (10, 1, [], 0), rfl, rfl, rfl⟩

/-- Creating process 2 and destroying it before it is added is no use after the
end. -/
theorem process_lifetime_unheld : ∃ run, sys.IsRun oneProcess run ∧ run.length = 2 ∧
    TSys.AllStates RunsLive oneProcess run := by
  have hrun : sys.IsRun oneProcess [(.create [] 0 1 ⟨2, 20, 21, 22⟩, _), (.destroy 2, _)] :=
    ⟨⟨⟨rfl, rfl⟩, rfl⟩, ⟨trivial, rfl⟩, trivial⟩
  refine ⟨_, hrun, rfl, process_lifetime oneProcess_init hrun ⟨trivial, .inr ⟨?_, ?_⟩, trivial⟩⟩
  · decide
  · intro node n hn
    change Function.update (Function.update (fun _ => none) 100 (some ⟨1, 0⟩)) 100
      (some ⟨1, 100⟩) node = some n at hn
    by_cases hnode : node = 100
    · subst hnode
      rw [Function.update_self] at hn
      cases hn
      decide
    · rw [Function.update_of_ne hnode, Function.update_of_ne hnode] at hn
      cases hn

/-- Process 2 is created, added and destroyed; the tenth tick switches to it. -/
theorem destroyed_process_runs : ∃ run, sys.IsRun oneProcess run ∧
    run.map Prod.fst = [.create [] 0 1 ⟨2, 20, 21, 22⟩, .add 2 200, .destroy 2] ++
      List.replicate 10 .tick ∧
    (TSys.final oneProcess run).scheduler.currentProcess = 2 ∧
    2 ∈ (TSys.final oneProcess run).destroyed ∧ ¬ TSys.AllStates RunsLive oneProcess run := by
  have hrun : sys.IsRun oneProcess [(.create [] 0 1 ⟨2, 20, 21, 22⟩, _), (.add 2 200, _),
      (.destroy 2, _), (.tick, _), (.tick, _), (.tick, _), (.tick, _), (.tick, _), (.tick, _),
      (.tick, _), (.tick, _), (.tick, _), (.tick, _)] :=
    ⟨⟨⟨rfl, rfl⟩, rfl⟩, ⟨rfl, rfl⟩, ⟨trivial, rfl⟩, ⟨trivial, rfl⟩, ⟨trivial, rfl⟩, ⟨trivial, rfl⟩,
      ⟨trivial, rfl⟩, ⟨trivial, rfl⟩, ⟨trivial, rfl⟩, ⟨trivial, rfl⟩, ⟨trivial, rfl⟩, ⟨trivial, rfl⟩,
      ⟨trivial, rfl⟩, trivial⟩
  refine ⟨_, hrun, rfl, rfl, List.mem_cons_self, fun hall => ?_⟩
  exact hall.final.current List.mem_cons_self

end Lifecycle
end MyOs
