import MyOs.Theorems.Preemption
import MyOs.Theorems.RoundRobin

/-!
# Time slices

`scheduler_handle_tick` counts ticks and turns the ring; what it decides is what
the machine does. `Slices` says whose turn it is and for how long it has been.
The whole follows `slicedSys`, where every process has a processor of its own and
each in turn runs for ten ticks.
-/

namespace MyOs

namespace Scheduler

/-- The queue holds `entries`, and the slice of the one at `i` has lasted `k` ticks. -/
structure Slices (s : Scheduler) (entries : List (Nat × Nat)) (i k : Nat) : Prop where
  serves : Serves s entries
  cursor : entries[i]?.map Prod.snd = some s.currentProcessNode
  ticks : s.tickCount = k
  short : k < ticksUntilSwitch

section Slices

variable {s t : Scheduler} {entries : List (Nat × Nat)} {i k : Nat}

theorem Slices.lt (h : Slices s entries i k) : i < entries.length := by
  obtain ⟨e, he, _⟩ := Option.map_eq_some_iff.mp h.cursor
  exact (List.getElem?_eq_some_iff.mp he).1

/-- The process of the entry runs. -/
theorem Slices.current (h : Slices s entries i k) :
    entries[i]?.map Prod.fst = some s.currentProcess := by
  obtain ⟨e, he, hnode⟩ := Option.map_eq_some_iff.mp h.cursor
  have hprocess := h.serves.process e (List.mem_of_getElem? he)
  rw [hnode, h.serves.current] at hprocess
  rw [he, Option.map_some]
  exact hprocess.symm

/-- The cells of a ring, by their places: the last one links to the first. -/
theorem Ring.next_getElem {l : List Nat} {a : Nat} (h : Ring s l) (ha : l[i]? = some a) :
    ∃ b, l[(i + 1) % l.length]? = some b ∧ s.next a = some b := by
  obtain ⟨hi, rfl⟩ := List.getElem?_eq_some_iff.mp ha
  have hmap := h.linked.map_next
  have hlink : (l.map s.next)[i]? = ((l ++ [s.head]).tail.map some)[i]? := by rw [hmap]
  rw [List.getElem?_map, List.getElem?_map, List.getElem?_tail, List.getElem?_eq_getElem hi,
    Option.map_some] at hlink
  rcases Nat.lt_or_ge (i + 1) l.length with hlt | hge
  · rw [List.getElem?_append_left hlt, List.getElem?_eq_getElem hlt] at hlink
    refine ⟨l[i + 1], ?_, Option.some.inj hlink⟩
    rw [Nat.mod_eq_of_lt hlt, List.getElem?_eq_getElem hlt]
  · have hlast : i + 1 = l.length := by omega
    rw [List.getElem?_append_right hge, hlast, Nat.sub_self] at hlink
    refine ⟨s.head, ?_, Option.some.inj hlink⟩
    rw [hlast, Nat.mod_self, ← List.head?_eq_getElem?, h.head]

/-- A tick within a slice counts; the last one gives the turn to the next entry. -/
theorem Slices.tick (h : Slices s entries i k) :
    ∃ t, schedulerHandleTick s = .ok ((), t) ∧
      if k + 1 < ticksUntilSwitch then Slices t entries i (k + 1)
      else Slices t entries ((i + 1) % entries.length) 0 := by
  have hcount : u32 (s.tickCount + 1) = k + 1 := by
    rw [h.ticks]
    exact u32_of_lt (Nat.lt_of_le_of_lt h.short (by decide))
  by_cases hlt : k + 1 < ticksUntilSwitch
  · -- the slice goes on
    have hrun : schedulerHandleTick s = .ok ((), { s with tickCount := k + 1 }) := by
      unfold schedulerHandleTick
      rw [Prog.modify_bind_apply, Prog.get_bind_apply, hcount, if_neg (Nat.not_le.mpr hlt)]
      rfl
    refine ⟨_, hrun, ?_⟩
    rw [if_pos hlt]
    exact ⟨h.serves.tick hrun, h.cursor, rfl, hlt⟩
  · obtain ⟨e, he, hnode⟩ := Option.map_eq_some_iff.mp h.cursor
    have hring := h.serves.ring
    have hplace : (entries.map Prod.snd)[i]? = some s.currentProcessNode := by
      rw [List.getElem?_map, h.cursor]
    obtain ⟨b, hb, hnext⟩ := hring.next_getElem hplace
    rw [List.length_map, List.getElem?_map] at hb
    have hbmem : b ∈ entries.map Prod.snd := by
      obtain ⟨e', he', rfl⟩ := Option.map_eq_some_iff.mp hb
      exact List.mem_map.mpr ⟨e', List.mem_of_getElem? he', rfl⟩
    obtain ⟨n, hn, _⟩ := hring.node hbmem
    -- the ring is turned
    let s₁ : Scheduler := { s with tickCount := 0 }
    have hget : schedulerGetNextProcess s₁ = .ok (s₁.processAt b, s₁.withCursor b) :=
      getNext_of (s := s₁) (hring.ne_zero hring.head_mem) (hring.ne_zero hring.cursor)
        hnext (hring.ne_zero hbmem) hn
    have hrun : ∃ t, schedulerHandleTick s = .ok ((), t) ∧ t.currentProcessNode = b ∧
        t.tickCount = 0 := by
      unfold schedulerHandleTick
      rw [Prog.modify_bind_apply, Prog.get_bind_apply, hcount, if_pos (Nat.not_lt.mp hlt),
        Prog.modify_bind_apply]
      change ∃ t, (do
        let nextProcess ← schedulerGetNextProcess
        let s ← Prog.get
        if nextProcess ≠ 0 ∧ nextProcess ≠ s.currentProcess then processSwitch nextProcess
        else pure ()) s₁ = .ok ((), t) ∧ _
      rw [Prog.bind_of_ok hget, Prog.get_bind_apply, Prog.ite_apply]
      split
      · exact ⟨_, rfl, rfl, rfl⟩
      · exact ⟨_, rfl, rfl, rfl⟩
    obtain ⟨t, ht, hcursor, hticks⟩ := hrun
    refine ⟨t, ht, ?_⟩
    rw [if_neg hlt]
    exact ⟨h.serves.tick ht, by rw [hcursor]; exact hb, hticks, by decide⟩

/-- An insertion puts an entry at the end of the queue. -/
theorem Slices.add {process node : Nat} (h : Slices s entries i k) (hfresh : s.nodes node = none)
    (hrun : schedulerAddProcess process node s = .ok ((), t)) :
    Slices t (entries ++ [(process, node)]) i k := by
  have hserves := h.serves.add hfresh hrun
  obtain ⟨n, hn, _⟩ := h.serves.ring.node h.serves.ring.tail_mem
  have hne : node ≠ s.tail := by
    rintro rfl
    rw [hfresh] at hn
    cases hn
  obtain ⟨_, _, rfl⟩ :=
    add_effect (h.serves.ring.ne_zero h.serves.ring.tail_mem) hn hne hrun
  refine ⟨hserves, ?_, h.ticks, h.short⟩
  rw [List.getElem?_append_left h.lt]
  exact h.cursor

/-- `scheduler_init` gives the only process its first slice. -/
theorem init_slices {s₀ : Scheduler} {process node : Nat} (hempty : s₀.tail = 0)
    (hcount : s₀.count = 0) (hrun : schedulerInit process node s₀ = .ok ((), s)) :
    Slices s [(process, node)] 0 0 := by
  have hserves := init_serves hempty hcount hrun
  have hcursor : s.currentProcessNode = node := by
    simpa using hserves.ring.cursor
  have hticks : s.tickCount = 0 := by
    unfold schedulerInit schedulerAddProcess schedulerCreateQueueNode at hrun
    by_cases hp : process = 0
    · simp [hp] at hrun
    by_cases hz : node = 0
    · simp [hp, hz] at hrun
    simp only [hp, hz, Prog.bind_assoc_apply, Prog.modify_bind_apply, Prog.pure_bind_apply,
      Prog.get_bind_apply, hempty, ↓reduceIte] at hrun
    rw [Prog.bind_of_ok (writeNext_of (n := ⟨process, 0⟩) (by simp))] at hrun
    cases hrun
    rfl
  exact ⟨hserves, by rw [hcursor]; rfl, hticks, by decide⟩

/-- Insertions and ticks keep the turns. -/
theorem run_slices {run : List (Call × Scheduler)} (h : Slices s entries i k)
    (hrun : sys.IsRun s run) (hcalls : TSys.AllSteps (fun _ call => AddsOrTicks call) s run) :
    ∃ i k, Slices (TSys.final s run) (entries ++ added run) i k := by
  induction run generalizing s entries i k with
  | nil => exact ⟨i, k, by simpa [added, TSys.final] using h⟩
  | cons next rest ih =>
      obtain ⟨call, s'⟩ := next
      obtain ⟨⟨hfresh, hstep⟩, hrest⟩ := hrun
      cases call with
      | add process node =>
          obtain ⟨i', k', h'⟩ := ih (h.add hfresh hstep) hrest hcalls.2
          exact ⟨i', k', by simpa [added, TSys.final] using h'⟩
      | tick =>
          obtain ⟨t, ht, hslices⟩ := h.tick
          rw [show schedulerHandleTick s = .ok ((), s') from hstep] at ht
          cases ht
          split at hslices
          · obtain ⟨i', k', h'⟩ := ih hslices hrest hcalls.2
            exact ⟨i', k', by simpa [added, TSys.final] using h'⟩
          · obtain ⟨i', k', h'⟩ := ih hslices hrest hcalls.2
            exact ⟨i', k', by simpa [added, TSys.final] using h'⟩
      | remove _ _ => exact hcalls.1.elim
      | getNext => exact hcalls.1.elim

/-- `n` ticks. -/
def handleTicks (n : Nat) : Prog Scheduler Unit := Prog.forLoop (fun _ => schedulerHandleTick) 0 n

/-- The turns after `n` ticks. -/
theorem Slices.run (h : Slices s entries i k) (n : Nat) :
    ∃ t, handleTicks n s = .ok ((), t) ∧
      Slices t entries ((i + (k + n) / ticksUntilSwitch) % entries.length)
        ((k + n) % ticksUntilSwitch) := by
  refine Prog.forLoop_ok (P := fun j t =>
    Slices t entries ((i + (k + j) / ticksUntilSwitch) % entries.length)
      ((k + j) % ticksUntilSwitch)) (fun j t _ ht => ?_) n 0 s (Nat.zero_add n) ?_
  · obtain ⟨t', hrun, hslices⟩ := ht.tick
    refine ⟨t', hrun, ?_⟩
    have hten : ticksUntilSwitch = 10 := rfl
    split at hslices
    · next hlt =>
        rw [hten] at hlt hslices ⊢
        have hdiv : (k + (j + 1)) / 10 = (k + j) / 10 := by omega
        have hmod : (k + (j + 1)) % 10 = (k + j) % 10 + 1 := by omega
        rw [hdiv, hmod]
        exact hslices
    · next hge =>
        rw [hten] at hge hslices ⊢
        have hdiv : (k + (j + 1)) / 10 = (k + j) / 10 + 1 := by omega
        have hmod : (k + (j + 1)) % 10 = 0 := by omega
        rw [hdiv, hmod, ← Nat.add_assoc]
        rw [Nat.mod_add_mod] at hslices
        exact hslices
  · have hshort := h.short
    rw [Nat.add_zero, Nat.div_eq_of_lt hshort, Nat.mod_eq_of_lt hshort, Nat.add_zero,
      Nat.mod_eq_of_lt h.lt]
    exact h

/-- **Equal slices.** After `scheduler_init` on an empty queue and any insertions
and ticks, the next ticks all return, and after `n` of them the process that runs
is the one as many places further on in the queue as slices of ten ticks have come
to an end. -/
theorem equal_slices {s₀ s : Scheduler} {process node : Nat}
    (hempty : s₀.head = 0 ∧ s₀.tail = 0 ∧ s₀.count = 0)
    (hinit : schedulerInit process node s₀ = .ok ((), s)) {run : List (Call × Scheduler)}
    (hrun : sys.IsRun s run)
    (hcalls : TSys.AllSteps (fun _ call => AddsOrTicks call) s run) :
    ∃ i, (TSys.final s run).tickCount < 10 ∧ (((process, node) :: added run)[i]?.map Prod.fst =
        some (TSys.final s run).currentProcess) ∧
      ∀ n, ∃ t, handleTicks n (TSys.final s run) = .ok ((), t) ∧
        (((process, node) :: added run)[(i + ((TSys.final s run).tickCount + n) / 10) %
          ((process, node) :: added run).length]?.map Prod.fst = some t.currentProcess) := by
  obtain ⟨i, k, h⟩ := run_slices (init_slices hempty.2.1 hempty.2.2 hinit) hrun hcalls
  rw [h.ticks]
  refine ⟨i, h.short, h.current, fun n => ?_⟩
  obtain ⟨t, ht, hslices⟩ := h.run n
  exact ⟨t, ht, hslices.current⟩

/-- Of three processes the third one runs after twenty-five ticks. -/
theorem equal_slices_three : ∃ s t, schedulerAddProcess 2 200 oneProcess = .ok ((), s) ∧
    (do schedulerAddProcess 3 300; handleTicks 25) s = .ok ((), t) ∧ t.currentProcess = 3 := by
  have hinit : schedulerInit 1 100 boot = .ok ((), oneProcess) := rfl
  have hrun : sys.IsRun oneProcess ([(.add 2 200, _), (.add 3 300, _)] :
      List (Call × Scheduler)) := ⟨⟨rfl, rfl⟩, ⟨rfl, rfl⟩, trivial⟩
  obtain ⟨i, _, hi, hticks⟩ := equal_slices ⟨rfl, rfl, rfl⟩ hinit hrun ⟨trivial, trivial, trivial⟩
  obtain ⟨t, ht, hcurrent⟩ := hticks 25
  refine ⟨_, t, rfl, ht, ?_⟩
  -- the first process runs before the ticks
  have hzero : i = 0 := by
    rcases i with _ | _ | _ | i
    · rfl
    all_goals simp [added, TSys.final, oneProcess] at hi
  subst hzero
  exact (Option.some.inj hcurrent).symm

end Slices
end Scheduler
/-! ## The machine and its scheduler -/

open Machine

structure TimeSharing where
  machine : Machine
  scheduler : Scheduler

inductive Moment
  | work (w : Work)
  | tick (entry : Word) (e : TickEffect)
  | create (espTop stackSize entryPoint parent : Word) (new : NewProcess)
  | add (process : Word) (node : Nat)

/-- The process `scheduler_handle_tick` has switched to. -/
def switchedTo (s s' : Scheduler) : Option Word :=
  if s'.currentProcess = s.currentProcess then none else some (BitVec.ofNat 32 s'.currentProcess)

/-- Runs from `scheduler_init` for the initial process. The processor switches when
`scheduler_handle_tick` calls `process_switch`. -/
def timeSharingSys (code : TickCode) : TSys TimeSharing Moment where
  init σ := (sharingSys code).init σ.machine ∧ ∃ node,
    Scheduler.schedulerInit σ.machine.objects.currentProcess.toNat node Scheduler.boot =
      .ok ((), σ.scheduler)
  step σ moment σ' :=
    match moment with
    | .work w => σ' = { σ with machine := σ.machine.afterWork w }
    | .tick entry e =>
        Scheduler.schedulerHandleTick σ.scheduler = .ok ((), σ'.scheduler) ∧
        timerTick code entry (switchedTo σ.scheduler σ'.scheduler) e σ.machine =
          .ok ((), σ'.machine)
    | .create espTop stackSize entryPoint parent new =>
        σ'.scheduler = σ.scheduler ∧ ∃ p, p ≠ 0 ∧
          createProcess espTop stackSize entryPoint parent new σ.machine = .ok (p, σ'.machine)
    | .add process node =>
        σ'.machine = σ.machine ∧
        Scheduler.schedulerAddProcess process.toNat node σ.scheduler = .ok ((), σ'.scheduler)

/-- The conditions of `TurnOk`. A process that is added has been created, and
`kmalloc` gives its node a new place. -/
def MomentOk (code : TickCode) (σ : TimeSharing) : Moment → Prop
  | .work w => TurnOk code σ.machine (.work w)
  | .tick _ e => ∀ s', Scheduler.schedulerHandleTick σ.scheduler = .ok ((), s') →
      TickOk code σ.machine (switchedTo σ.scheduler s') e
  | .create espTop stackSize entryPoint parent new =>
      TurnOk code σ.machine (.create espTop stackSize entryPoint parent new)
  | .add process node => σ.scheduler.nodes node = none ∧
      ∃ a, σ.machine.objects.processes process = some a

/-! ## Processors in turn -/

/-- The processes in the order they were added, whose turn it is, how many ticks the
turn has lasted, and the processor of each process. -/
structure Sliced where
  queue : List Word
  turn : Nat
  ticks : Nat
  cpus : Word → Option Resume

inductive SlicedCall
  | work (own : Resume)
  | tick
  | create (process : Word) (own new : Resume)
  | add (process : Word)

def Sliced.set (a : Sliced) (p : Word) (r : Resume) : Sliced :=
  { a with cpus := Function.update a.cpus p (some r) }

/-- A tick is counted; the tenth gives the turn to the next in the queue. -/
def Sliced.tick (a : Sliced) : Sliced :=
  if a.ticks + 1 < 10 then { a with ticks := a.ticks + 1 }
  else { a with turn := (a.turn + 1) % a.queue.length, ticks := 0 }

def slicedSys : TSys Sliced SlicedCall where
  init a := ∃ p r, a.queue = [p] ∧ a.turn = 0 ∧ a.ticks = 0 ∧ a.cpus p = some r ∧
    ∀ q, q ≠ p → a.cpus q = none
  step a call a' :=
    match call with
    | .work own => ∃ p, a.queue[a.turn]? = some p ∧ a' = a.set p own
    | .tick => a' = a.tick
    | .create process own new => a.cpus process = none ∧ ∃ p, a.queue[a.turn]? = some p ∧
        a' = (a.set p own).set process new
    | .add process => (∃ r, a.cpus process = some r) ∧
        a' = { a with queue := a.queue ++ [process] }

/-- What a moment is to the processes. -/
def Moment.Is : Moment → SlicedCall → Prop
  | .work w, .work own => own = ⟨w.regs, w.eflags, w.eip⟩
  | .tick _ _, .tick => True
  | .create espTop _ entryPoint _ new, .create process _ r =>
      process = new.process ∧ r = started entryPoint espTop
  | .add process _, .add process' => process' = process
  | _, _ => False

/-- The machine holds the processors of `a`, and the scheduler its queue and turn. -/
structure SharesSlices (code : TickCode) (σ : TimeSharing) (a : Sliced) : Prop where
  shares : Shares code σ.machine ⟨σ.machine.objects.currentProcess, a.cpus⟩
  slices : ∃ entries, Scheduler.Slices σ.scheduler entries a.turn a.ticks ∧
    entries.map Prod.fst = a.queue.map BitVec.toNat
  current : σ.scheduler.currentProcess = σ.machine.objects.currentProcess.toNat
  known : ∀ p ∈ a.queue, ∃ b, σ.machine.objects.processes p = some b

section Step

variable {code : TickCode} {σ σ' : TimeSharing} {a : Sliced}

/-- The process at a place of the queue, as the scheduler knows it. -/
theorem queue_getElem {s : Scheduler} {entries : List (Nat × Nat)} {queue : List Word} {i k : Nat}
    (h : Scheduler.Slices s entries i k) (hqueue : entries.map Prod.fst = queue.map BitVec.toNat) :
    ∃ p, queue[i]? = some p ∧ s.currentProcess = p.toNat := by
  have hcurrent := h.current
  rw [← List.getElem?_map, hqueue, List.getElem?_map] at hcurrent
  obtain ⟨p, hp, heq⟩ := Option.map_eq_some_iff.mp hcurrent
  exact ⟨p, hp, heq.symm⟩

/-- The process whose turn it is runs. -/
theorem SharesSlices.turn (h : SharesSlices code σ a) :
    a.queue[a.turn]? = some σ.machine.objects.currentProcess := by
  obtain ⟨entries, hslices, hqueue⟩ := h.slices
  obtain ⟨p, hp, heq⟩ := queue_getElem hslices hqueue
  rw [h.current] at heq
  rw [hp, BitVec.eq_of_toNat_eq heq]

/-- A tick gives the processor to the process whose turn it is then. -/
theorem SharesSlices.tick {entry : Word} {e : TickEffect} (h : SharesSlices code σ a)
    (hok : MomentOk code σ (.tick entry e))
    (hstep : (timeSharingSys code).step σ (.tick entry e) σ') :
    SharesSlices code σ' a.tick := by
  obtain ⟨entries, hslices, hqueue⟩ := h.slices
  obtain ⟨hscheduler, hmachine⟩ := hstep
  obtain ⟨s', hrun, hnext⟩ := hslices.tick
  rw [hscheduler] at hrun
  cases hrun
  have hlength : entries.length = a.queue.length := by
    simpa using congrArg List.length hqueue
  -- whose turn it is
  have hslices' : Scheduler.Slices σ'.scheduler entries a.tick.turn a.tick.ticks := by
    rw [Sliced.tick]
    rw [hlength, show Scheduler.ticksUntilSwitch = 10 from rfl] at hnext
    split at hnext
    · next hlt =>
        rw [if_pos hlt]
        exact hnext
    · next hge =>
        rw [if_neg hge]
        exact hnext
  have hqueue' : a.tick.queue = a.queue := by
    rw [Sliced.tick]
    split <;> rfl
  have hcpus' : a.tick.cpus = a.cpus := by
    rw [Sliced.tick]
    split <;> rfl
  obtain ⟨q, hq, hcurrent⟩ := queue_getElem hslices' hqueue
  -- the machine follows
  have hgives : (switchedTo σ.scheduler σ'.scheduler).getD σ.machine.objects.currentProcess = q ∧
      ∀ p, switchedTo σ.scheduler σ'.scheduler = some p →
        p ≠ σ.machine.objects.currentProcess ∧ p = q := by
    rw [switchedTo, hcurrent, h.current]
    split
    · next heq => exact ⟨(BitVec.eq_of_toNat_eq heq).symm, fun p hp => by cases hp⟩
    · next hne =>
        rw [BitVec.ofNat_toNat, BitVec.setWidth_eq]
        refine ⟨rfl, fun p hp => ?_⟩
        obtain rfl := Option.some.inj hp
        exact ⟨fun heq => hne (congrArg BitVec.toNat heq), rfl⟩
  have htickOk := hok σ'.scheduler hscheduler
  have hknown : ∀ p, switchedTo σ.scheduler σ'.scheduler = some p →
      p ≠ σ.machine.objects.currentProcess ∧ ∃ u, σ.machine.objects.Has p u := by
    intro p hp
    obtain ⟨hne, rfl⟩ := hgives.2 p hp
    obtain ⟨b, hb⟩ := h.known p (List.mem_of_getElem? hq)
    exact ⟨hne, h.shares.wf.linked p b hb⟩
  obtain ⟨m', htick, _, hshares⟩ := h.shares.tick entry htickOk hknown
  have hprocesses := h.shares.tick_processes ⟨htickOk, hknown⟩ hmachine
  rw [hmachine] at htick
  cases htick
  have hmoved : σ'.machine.objects.currentProcess = q := hshares.current.symm.trans hgives.1
  refine ⟨?_, ⟨entries, hslices', by rw [hqueue', hqueue]⟩, ?_, fun p hp => ?_⟩
  · rw [hcpus', hmoved, ← hgives.1]
    exact hshares
  · rw [hcurrent, hmoved]
  · rw [hqueue'] at hp
    rw [hprocesses]
    exact h.known p hp

theorem SharesSlices.work {w : Work} (h : SharesSlices code σ a)
    (hok : KeepsSaved code σ.machine (σ.machine.afterWork w)) :
    SharesSlices code { σ with machine := σ.machine.afterWork w }
      (a.set σ.machine.objects.currentProcess ⟨w.regs, w.eflags, w.eip⟩) where
  shares := h.shares.work hok
  slices := h.slices
  current := h.current
  known := h.known

/-- A new process; nobody waits for it yet. -/
theorem SharesSlices.create {espTop stackSize entryPoint parent : Word} {new : NewProcess}
    (h : SharesSlices code σ a)
    (hok : MomentOk code σ (.create espTop stackSize entryPoint parent new))
    (hstep : (timeSharingSys code).step σ (.create espTop stackSize entryPoint parent new) σ') :
    a.cpus new.process = none ∧ SharesSlices code σ'
      ((a.set σ.machine.objects.currentProcess σ'.machine.resumePoint).set new.process
        (started entryPoint espTop)) := by
  obtain ⟨hscheduler, p, hp, hrun⟩ := hstep
  obtain ⟨hfresh, htick, hisr, hmapped⟩ := hok
  obtain ⟨hkeeps, hr⟩ := hmapped p σ'.machine hrun
  have hcreated := createProcess_eq_ok hfresh hrun hp
  obtain ⟨c, _, hobjects⟩ := hcreated.objects
  have hcurrent : σ'.machine.objects.currentProcess = σ.machine.objects.currentProcess := by
    rw [hobjects]
    rfl
  refine ⟨h.shares.absent _ hfresh.process, ?_, ?_, ?_, fun q hq => ?_⟩
  · rw [hcurrent]
    exact h.shares.create hfresh htick hisr hcreated hkeeps hr
  · rw [hscheduler]
    exact h.slices
  · rw [hscheduler, hcurrent]
    exact h.current
  · obtain ⟨b, hb⟩ := h.known q hq
    have hne : q ≠ new.process := by
      rintro rfl
      rw [hfresh.process] at hb
      cases hb
    refine ⟨b, ?_⟩
    rw [hobjects]
    exact (Function.update_of_ne hne _ _).trans hb

theorem SharesSlices.add {process : Word} {node : Nat} (h : SharesSlices code σ a)
    (hok : MomentOk code σ (.add process node))
    (hstep : (timeSharingSys code).step σ (.add process node) σ') :
    (∃ r, a.cpus process = some r) ∧
      SharesSlices code σ' { a with queue := a.queue ++ [process] } := by
  obtain ⟨hmachine, hrun⟩ := hstep
  obtain ⟨hfresh, b, hb⟩ := hok
  obtain ⟨entries, hslices, hqueue⟩ := h.slices
  have hadded := hslices.add hfresh hrun
  -- it has a processor
  have hcpu : ∃ r, a.cpus process = some r := by
    by_cases heq : process = σ.machine.objects.currentProcess
    · rw [heq]
      exact ⟨_, h.shares.running⟩
    · obtain ⟨t, ht⟩ := h.shares.wf.linked process b hb
      obtain ⟨r, hr, _⟩ := h.shares.saved process t ht heq
      exact ⟨r, hr⟩
  obtain ⟨p, hp, hcurrent⟩ := queue_getElem hadded
    (show _ = (a.queue ++ [process]).map BitVec.toNat by simp [hqueue])
  rw [List.getElem?_append_left (List.getElem?_eq_some_iff.mp h.turn).1, h.turn] at hp
  refine ⟨hcpu, ?_, ⟨_, hadded, by simp [hqueue]⟩, ?_, fun q hq => ?_⟩
  · rw [hmachine]
    exact h.shares
  · rw [hcurrent, hmachine, Option.some.inj hp]
  · rw [hmachine]
    rcases List.mem_append.mp hq with hq | hq
    · exact h.known q hq
    · rw [List.mem_singleton.mp hq]
      exact ⟨b, hb⟩

theorem timeSharingSys_init (h : (timeSharingSys code).init σ) :
    ∃ a, slicedSys.init a ∧ SharesSlices code σ a := by
  obtain ⟨hmachine, node, hrun⟩ := h
  obtain ⟨b, hb, hshares⟩ := sharingSys_init hmachine
  have hslices := Scheduler.init_slices rfl rfl hrun
  obtain ⟨p, hp, hcurrent⟩ := queue_getElem hslices
    (show _ = [σ.machine.objects.currentProcess].map BitVec.toNat from rfl)
  obtain rfl := Option.some.inj hp
  have hcpus : Shares code σ.machine ⟨σ.machine.objects.currentProcess, b.cpus⟩ := by
    rw [← hshares.current]
    exact hshares
  refine ⟨⟨[σ.machine.objects.currentProcess], 0, 0, b.cpus⟩, ⟨_, _, rfl, rfl, rfl,
    hshares.running, fun q hq => hb.2 q (by rw [hshares.current]; exact hq)⟩,
    hcpus, ⟨_, hslices, rfl⟩, hcurrent, fun q hq => ?_⟩
  obtain ⟨t, ht⟩ := hmachine.1
  rw [List.mem_singleton.mp hq]
  exact ⟨_, ht.process⟩

end Step

/-- **The kernel shares the processor fairly.** In runs that meet `MomentOk` its timer
interrupts, scheduler and context switches together do what `slicedSys` does: the
processes run in the order they were added, each for ten ticks at a time, and each goes
on as if it had a processor of its own. -/
theorem fair_time_sharing (code : TickCode) :
    ((timeSharingSys code).restrict (MomentOk code)).Simulates slicedSys (SharesSlices code)
      Moment.Is where
  init _ h := timeSharingSys_init h
  step σ moment σ' a h hstep := by
    obtain ⟨hok, hstep⟩ := hstep
    cases moment with
    | work w =>
        obtain rfl : σ' = { σ with machine := σ.machine.afterWork w } := hstep
        exact ⟨.work ⟨w.regs, w.eflags, w.eip⟩, _, rfl, ⟨_, h.turn, rfl⟩, h.work hok⟩
    | tick entry e => exact ⟨.tick, _, trivial, rfl, h.tick hok hstep⟩
    | create espTop stackSize entryPoint parent new =>
        obtain ⟨hnone, hshares⟩ := h.create hok hstep
        exact ⟨.create new.process σ'.machine.resumePoint (started entryPoint espTop), _,
          ⟨rfl, rfl⟩, ⟨hnone, _, h.turn, rfl⟩, hshares⟩
    | add process node =>
        obtain ⟨hcpu, hshares⟩ := h.add hok hstep
        exact ⟨.add process, _, rfl, ⟨hcpu, rfl⟩, hshares⟩

end MyOs
