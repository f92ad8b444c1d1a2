import MyOs.Base.System
import MyOs.Logic.TrapFrame

/-!
# Context switches are transparent

Processes take turns: the one that runs does any work of its own, creates
processes, and calls `process_switch`. When nobody writes to the frame of a
suspended process, and stacks stay mapped, a process goes on after its call as
if nothing had happened, and a new one starts at its entry point.
-/

namespace MyOs

open Machine

/-- What the running process may change by itself: everything but the process
objects. -/
structure Work where
  regs : Reg → Word
  eflags : Eflags
  eip : Word
  mem : PagedMemory Word
  cr3 : Word
  currentDirectory : Word
  frames : List Nat

namespace Machine

def afterWork (m : Machine) (w : Work) : Machine where
  regs := w.regs
  eflags := w.eflags
  eip := w.eip
  mem := w.mem
  cr3 := w.cr3
  currentDirectory := w.currentDirectory
  frames := w.frames
  objects := m.objects

/-- `p` is suspended, and goes on with `r`. -/
structure Suspended (p : Word) (r : Resume) (m : Machine) : Prop where
  away : m.objects.currentProcess ≠ p
  frame : ∃ t, m.objects.Has p t ∧ FrameAt m.mem t.space t.context.esp r

end Machine

inductive SwitchCall
  | switch (next ret : Word) (call : CallEffect)
  | work (w : Work)
  | create (espTop stackSize entryPoint parent : Word) (new : NewProcess)

/-- The runs of the processes from the initial one; `site` is the address in
`process_switch` after its call. -/
def switchSys (site : Word) : TSys Machine SwitchCall where
  init m := (∃ t, m.objects.Has m.objects.currentProcess t) ∧
    ∀ p a, m.objects.processes p = some a → p = m.objects.currentProcess
  step m call m' :=
    match call with
    | .switch _ _ call => processSwitch site call m = .ok ((), m')
    | .work w => m' = m.afterWork w
    | .create espTop stackSize entryPoint parent new =>
        ∃ p, p ≠ 0 ∧ createProcess espTop stackSize entryPoint parent new m = .ok (p, m')

/-- The stacks are mapped and nobody writes to the frame of a suspended process;
the blocks for a new process are new. -/
def SwitchCallOk (m : Machine) : SwitchCall → Prop
  | .switch next ret call => SwitchOk m next ret call
  | .work w => Undisturbed m (m.afterWork w)
  | .create espTop stackSize entryPoint parent new => Fresh m new ∧
      ∀ p m', createProcess espTop stackSize entryPoint parent new m = .ok (p, m') →
        Undisturbed m m' ∧ m'.mem.Region new.pageDirPhysAddr (espTop - 44#32) 44

/-- `p` runs in none of the states before the last one. -/
def Away (p : Word) : Machine → List (SwitchCall × Machine) → Prop
  | _, [] => True
  | m, (_, m') :: rest => m.objects.currentProcess ≠ p ∧ Away p m' rest

section Step

variable {site : Word} {m m' : Machine} {p : Word} {r : Resume}

/-- Work, or a new process: the suspended ones stay suspended. -/
theorem Machine.Suspended.keep (h : Suspended p r m)
    (hcurrent : m'.objects.currentProcess = m.objects.currentProcess)
    (hframe : ∀ t, m.objects.Has p t → FrameAt m.mem t.space t.context.esp r →
      m'.objects.Has p t ∧ FrameAt m'.mem t.space t.context.esp r) : Suspended p r m' := by
  obtain ⟨haway, t, ht, hold⟩ := h
  refine ⟨?_, t, hframe t ht hold⟩
  rw [hcurrent]
  exact haway

theorem afterWork_wf {w : Work} (hwf : m.Wf) (hundisturbed : Undisturbed m (m.afterWork w)) :
    (m.afterWork w).Wf where
  current := hwf.current
  linked := hwf.linked
  contexts := hwf.contexts
  suspended p t ht hne := by
    obtain ⟨r, hframe⟩ := hwf.suspended p t ht hne
    exact ⟨r, hframe.congr (hundisturbed p t ht hne)⟩

/-- There is something that `next` goes on with. -/
theorem exists_goesOnWith {next ret : Word} {call : CallEffect} (hwf : m.Wf)
    (hok : SwitchOk m next ret call) : ∃ r, m.GoesOnWith next ret r := by
  obtain ⟨u, hu⟩ := hok.known
  by_cases heq : next = m.objects.currentProcess
  · refine ⟨m.atReturn ret, ?_⟩
    rw [GoesOnWith, if_pos heq]
  · obtain ⟨r, hframe⟩ := hwf.suspended next u hu heq
    refine ⟨r, ?_⟩
    rw [GoesOnWith, if_neg heq]
    intro v hv
    rw [hv.unique hu]
    exact hframe

/-- What a switch that has returned did. -/
theorem switch_effect {t : Task} {next ret : Word} {call : CallEffect} (hwf : m.Wf)
    (ht : m.objects.Has m.objects.currentProcess t) (hok : SwitchOk m next ret call)
    (hrun : processSwitch site call m = .ok ((), m')) :
    Switched m t next ret m' ∧ ∀ r, m.GoesOnWith next ret r → Resumed r m' := by
  have heffect {r : Resume} (hr : m.GoesOnWith next ret r) :
      Switched m t next ret m' ∧ Resumed r m' := by
    obtain ⟨m'', hrun', hswitched, hresumed⟩ := processSwitch_ok site hwf ht hok hr
    rw [hrun] at hrun'
    cases hrun'
    exact ⟨hswitched, hresumed⟩
  obtain ⟨r, hr⟩ := exists_goesOnWith hwf hok
  exact ⟨(heffect hr).1, fun _ hr => (heffect hr).2⟩

/-- A step: what the processes rely on stays, and a suspended process either
stays suspended or goes on. -/
theorem switchSys_step {call : SwitchCall} (hwf : m.Wf) (hok : SwitchCallOk m call)
    (hstep : (switchSys site).step m call m') :
    m'.Wf ∧ (Suspended p r m → Suspended p r m' ∨
      m'.objects.currentProcess = p ∧ Resumed r m') := by
  cases call with
  | switch next ret call =>
      obtain ⟨t, ht⟩ := hwf.current
      obtain ⟨hswitched, hresumed⟩ := switch_effect hwf ht hok hstep
      refine ⟨hswitched.wf hwf ht hok.known, ?_⟩
      rintro ⟨haway, v, hv, hframe⟩
      by_cases heq : next = p
      · -- its turn
        subst heq
        refine .inr ⟨hswitched.current, hresumed r ?_⟩
        rw [GoesOnWith, if_neg (Ne.symm haway)]
        intro u hu
        rw [hu.unique hv]
        exact hframe
      · obtain ⟨u, hu⟩ := hswitched.has hwf ht hv
        refine .inl ⟨?_, u, hu, hswitched.other hwf ht (Ne.symm haway) hv hframe hu⟩
        rw [hswitched.current]
        exact heq
  | work w =>
      obtain rfl : m' = m.afterWork w := hstep
      refine ⟨afterWork_wf hwf hok, fun h => .inl (h.keep rfl fun t ht hframe => ?_)⟩
      exact ⟨ht, hframe.congr (hok p t ht (Ne.symm h.away))⟩
  | create espTop stackSize entryPoint parent new =>
      obtain ⟨q, hq, hrun⟩ := hstep
      obtain ⟨hfresh, hmapped⟩ := hok
      obtain ⟨hundisturbed, hregion⟩ := hmapped q m' hrun
      have hcreated := createProcess_eq_ok hfresh hrun hq
      refine ⟨hcreated.wf hfresh hwf hundisturbed hregion, fun h => .inl (h.keep ?_
        fun t ht hframe => ?_)⟩
      · obtain ⟨c, _, hobjects⟩ := hcreated.objects
        rw [hobjects]
        rfl
      · exact hcreated.old_frame hfresh hundisturbed ht (Ne.symm h.away) hframe

/-- A run in which `p` does not run before the last state. -/
theorem run_resumes {run : List (SwitchCall × Machine)} (hwf : m.Wf) (h : Suspended p r m)
    (hrun : (switchSys site).IsRun m run) (hok : TSys.AllSteps SwitchCallOk m run)
    (haway : Away p m run) (hlast : (TSys.final m run).objects.currentProcess = p) :
    Resumed r (TSys.final m run) := by
  induction run generalizing m with
  | nil => exact absurd hlast h.away
  | cons next rest ih =>
      obtain ⟨call, m'⟩ := next
      obtain ⟨hwf', hnext⟩ := switchSys_step hwf hok.1 hrun.1
      rcases hnext h with hsuspended | ⟨hcurrent, hresumed⟩
      · exact ih hwf' hsuspended hrun.2 hok.2 haway.2 hlast
      · -- the turn of `p` ends the run
        cases rest with
        | nil => exact hresumed
        | cons _ _ => exact absurd hcurrent haway.2.1

end Step

/-- What the processes rely on holds in every state reached. -/
theorem switchSys_wf {site : Word} :
    ((switchSys site).restrict SwitchCallOk).Invariant Wf := by
  apply TSys.Inductive.invariant
  constructor
  · rintro m ⟨⟨t, ht⟩, honly⟩
    have hcurrent {p : Word} {u : Task} (hu : m.objects.Has p u) :
        p = m.objects.currentProcess := honly p _ hu.process
    refine ⟨⟨t, ht⟩, fun p a hp => ?_, fun p q u v hu hv _ => ?_, fun p u hu hne => ?_⟩
    · rw [honly p a hp]
      exact ⟨t, ht⟩
    · rw [hcurrent hu, hcurrent hv]
    · exact absurd (hcurrent hu) hne
  · rintro m call m' hwf ⟨hok, hstep⟩
    exact (switchSys_step (p := 0) (r := m.atReturn 0) hwf hok hstep).1

/-- The initial process with its stack at `0x9000`, about to return to `0x1234`,
in a memory where every page is mapped to its own address. -/
def soloMachine : Machine where
  regs r := if r = .esp then 0x9000#32 else 7#32
  eflags := ⟨0x46#32, by decide⟩
  eip := 0
  mem :=
    { phys := ByteStore.ofWords [(0x9000, 0x1234), (0x9004, 0x50)]
      pages := ⟨fun _ i => some i, fun t j => some ((t * 1024 + j) * 4096)⟩ }
  cr3 := 0x1000#32
  currentDirectory := 0x1000#32
  frames := []
  objects :=
    { currentProcess := 0x10#32
      processes := fun p => if p = 0x10#32 then some 0x20#32 else none
      pcbs := fun p => if p = 0x20#32 then some ⟨0x30#32, 0x40#32⟩ else none
      contexts := fun p => if p = 0x30#32 then some ⟨0, 0, 0, 0, 0, 0, 0, 0, 0, 0⟩ else none
      vmContexts := fun p => if p = 0x40#32 then some ⟨0x1000#32, 0x1000#32⟩ else none }

def secondProcess : NewProcess := ⟨0x50#32, 0x60#32, 0x70#32, 0x80#32, 0x2000#32, 0x2000#32⟩

/-- Its stack is on a page that is there already. -/
def createSecond : SwitchCall := .create 0x11000#32 0#32 0x5678#32 0x10#32 secondProcess

def clobber : CallEffect := ⟨1, 2, 3, ⟨0x46#32, by decide⟩, [9, 9]⟩

def pairMachine : Machine :=
  (createProcess 0x11000#32 0#32 0x5678#32 0x10#32 secondProcess).stateAfter soloMachine

/-- After the switch to the second process. -/
def secondRuns : Machine := (processSwitch 0x777#32 clobber).stateAfter pairMachine

theorem soloMachine_has : soloMachine.objects.Has 0x10#32
    ⟨0x20#32, ⟨0x30#32, 0x40#32⟩, ⟨0, 0, 0, 0, 0, 0, 0, 0, 0, 0⟩, ⟨0x1000#32, 0x1000#32⟩⟩ :=
  ⟨rfl, rfl, rfl, rfl, by decide⟩

theorem soloMachine_init : (switchSys 0x777#32).init soloMachine := by
  refine ⟨⟨_, soloMachine_has⟩, fun p a hp => ?_⟩
  have hprocess : (if p = 0x10#32 then some 0x20#32 else none) = some a := hp
  split at hprocess
  · next h => exact h
  · cases hprocess

theorem soloMachine_reachable :
    ((switchSys 0x777#32).restrict SwitchCallOk).Reachable soloMachine := .init soloMachine_init

theorem createSecond_run :
    createProcess 0x11000#32 0#32 0x5678#32 0x10#32 secondProcess soloMachine =
      .ok (0x50#32, pairMachine) :=
  Prog.eq_of_returned (by decide +kernel)

theorem secondProcess_fresh : Fresh soloMachine secondProcess := ⟨rfl, rfl, rfl, rfl, rfl⟩

theorem createSecond_ok : SwitchCallOk soloMachine createSecond := by
  refine ⟨secondProcess_fresh, fun p m' hrun => ?_⟩
  rw [createSecond_run] at hrun
  cases hrun
  refine ⟨fun q t ht hne => ?_, ?_⟩
  · exact absurd (soloMachine_init.2 q _ ht.process) hne
  · have hmap : ∀ i < 44, pairMachine.mem.translate 0x2000#32
        (Word.offset (0x11000#32 - 44#32) i) = some (0x11000 - 44 + i) := by decide +kernel
    refine ⟨fun i hi => by rw [show secondProcess.pageDirPhysAddr = 0x2000#32 from rfl, hmap i hi]; rfl,
      fun i j hi hj heq => ?_⟩
    rw [show secondProcess.pageDirPhysAddr = 0x2000#32 from rfl, hmap i hi, hmap j hj] at heq
    have := Option.some.inj heq
    omega

/-- The two processes after the creation. -/
theorem pairMachine_has {p : Word} {t : Task} (ht : pairMachine.objects.Has p t) :
    p = 0x10#32 ∧ t.space = 0x1000#32 ∨
      p = 0x50#32 ∧ t.space = 0x2000#32 ∧ t.context.esp = 0x11000#32 - 44#32 := by
  have hcreated := createProcess_eq_ok secondProcess_fresh createSecond_run (by decide)
  obtain ⟨c, hc, hobjects⟩ := hcreated.objects
  rw [hobjects] at ht
  have hwf : soloMachine.Wf := switchSys_wf _ soloMachine_reachable
  rcases has_cases secondProcess_fresh hwf (by decide) ht with ⟨hp, rfl⟩ | ⟨_, hold⟩
  · exact .inr ⟨hp, rfl, hc⟩
  · obtain rfl : p = 0x10#32 := soloMachine_init.2 p _ hold.process
    rw [hold.unique soloMachine_has]
    exact .inl ⟨rfl, rfl⟩

theorem pairMachine_switch : SwitchOk pairMachine 0x50#32 0x1234#32 clobber := by
  have hlow : pairMachine.stackLow clobber = 0x8FC8#32 := by decide +kernel
  have hcr : pairMachine.cr3 = 0x1000#32 := by decide +kernel
  have hcurrent : pairMachine.objects.currentProcess = 0x10#32 := by decide +kernel
  -- every page is its own frame, in both directories
  have hfirst : ∀ i < 64, pairMachine.mem.translate 0x1000#32 (Word.offset 0x8FC8#32 i) =
      some (0x8FC8 + i) := by decide +kernel
  have hsecond : ∀ i < 64, pairMachine.mem.translate 0x2000#32 (Word.offset 0x8FC8#32 i) =
      some (0x8FC8 + i) := by decide +kernel
  have hframe : ∀ j < 44, pairMachine.mem.translate 0x2000#32
      (Word.offset (0x11000#32 - 44#32) j) = some (0x10FD4 + j) := by decide +kernel
  refine ⟨?_, ?_, ?_, fun p t ht _ i hi => ?_, fun p t ht hne i j hi hj => ?_⟩
  · have hcreated := createProcess_eq_ok secondProcess_fresh createSecond_run (by decide)
    obtain ⟨c, _, hobjects⟩ := hcreated.objects
    rw [hobjects]
    exact ⟨_, has_newTask hcreated.vmContext_ne⟩
  · exact ⟨by decide +kernel, by decide +kernel, trivial⟩
  · rw [hlow, hcr]
    refine ⟨fun i hi => ?_, fun i j hi hj heq => ?_⟩
    · rw [hfirst i hi]
      rfl
    · rw [hfirst i hi, hfirst j hj] at heq
      have := Option.some.inj heq
      omega
  · rw [hlow, hcr]
    rcases pairMachine_has ht with ⟨_, hspace⟩ | ⟨_, hspace, _⟩
    · rw [hspace]
    · rw [hspace, hfirst i hi, hsecond i hi]
  · rw [hlow, hcr]
    rcases pairMachine_has ht with ⟨hp, _⟩ | ⟨_, hspace, hesp⟩
    · exact absurd (hp.trans hcurrent.symm) hne
    · have hi' : i < 56 := hi
      rw [hspace, hesp, hfirst i (by omega), hframe j hj]
      intro heq
      have := Option.some.inj heq
      omega

end MyOs
