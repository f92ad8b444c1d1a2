import MyOs.Logic.Preempted
import MyOs.Theorems.ContextSwitch

/-!
# Time sharing

On the machine a timer interrupt saves the running process piece by piece, on its
stack and in its context, and brings back another one. To the processes it looks
as if each had a processor of its own that stands still while another one runs;
`sharedSys` is that picture, and the machine follows it.
-/

namespace MyOs

open Machine

/-! ## A processor for each process -/

/-- The running process, and the processor of each one. -/
structure Shared where
  current : Word
  cpus : Word → Option Resume

/-- The processor of `p` set to `r`. -/
def Shared.set (a : Shared) (p : Word) (r : Resume) : Shared :=
  { a with cpus := Function.update a.cpus p (some r) }

inductive SharedCall
  | work (own : Resume)
  | tick (next : Option Word)
  | create (process : Word) (own new : Resume)

/-- Work and creation change the processor of the running process only; a tick
changes none of them. -/
def sharedSys : TSys Shared SharedCall where
  init a := (∃ r, a.cpus a.current = some r) ∧ ∀ p, p ≠ a.current → a.cpus p = none
  step a call a' :=
    match call with
    | .work own => a' = a.set a.current own
    | .tick next => (∀ p, next = some p → p ≠ a.current ∧ ∃ r, a.cpus p = some r) ∧
        a' = { a with current := next.getD a.current }
    | .create process own new =>
        a.cpus process = none ∧ a' = (a.set a.current own).set process new

/-! ## The machine -/

inductive Turn
  | work (w : Work)
  | tick (entry : Word) (next : Option Word) (e : TickEffect)
  | create (espTop stackSize entryPoint parent : Word) (new : NewProcess)

/-- The runs of the processes from the initial one, with timer interrupts. -/
def sharingSys (code : TickCode) : TSys Machine Turn where
  init m := (∃ t, m.objects.Has m.objects.currentProcess t) ∧
    ∀ p a, m.objects.processes p = some a → p = m.objects.currentProcess
  step m turn m' :=
    match turn with
    | .work w => m' = m.afterWork w
    | .tick entry next e => timerTick code entry next e m = .ok ((), m')
    | .create espTop stackSize entryPoint parent new =>
        ∃ p, p ≠ 0 ∧ createProcess espTop stackSize entryPoint parent new m = .ok (p, m')

/-- Stacks are mapped, nobody writes to what a suspended process relies on, and the
blocks for a new process are new. A tick switches to a process, another than the
one that runs; no process begins inside a tick. -/
def TurnOk (code : TickCode) (m : Machine) : Turn → Prop
  | .work w => KeepsSaved code m (m.afterWork w)
  | .tick _ next e => TickOk code m next e ∧ ∀ q, next = some q →
      q ≠ m.objects.currentProcess ∧ ∃ u, m.objects.Has q u
  | .create espTop stackSize entryPoint parent new => Fresh m new ∧
      entryPoint ≠ code.tickSite ∧ entryPoint ≠ code.isrSite ∧
      ∀ p m', createProcess espTop stackSize entryPoint parent new m = .ok (p, m') →
        KeepsSaved code m m' ∧ m'.mem.Region new.pageDirPhysAddr (espTop - 44#32) 44

/-- What a turn of the machine is to the processes. -/
def Turn.Is : Turn → SharedCall → Prop
  | .work w, .work own => own = ⟨w.regs, w.eflags, w.eip⟩
  | .tick _ next _, .tick next' => next' = next
  | .create espTop _ entryPoint _ new, .create process _ r =>
      process = new.process ∧ r = started entryPoint espTop
  | _, _ => False

/-- The machine holds the processors of `a`: the running process's in its own
registers, the others' on their stacks. -/
structure Shares (code : TickCode) (m : Machine) (a : Shared) : Prop where
  wf : m.Wf
  current : a.current = m.objects.currentProcess
  running : a.cpus m.objects.currentProcess = some m.resumePoint
  saved : ∀ p t, m.objects.Has p t → p ≠ m.objects.currentProcess →
    ∃ r, a.cpus p = some r ∧ SavedAt code m.mem t.space t.context.esp r
  absent : ∀ p, m.objects.processes p = none → a.cpus p = none

theorem Machine.Resumed.eq {r : Resume} {m : Machine} (h : Resumed r m) : m.resumePoint = r := by
  obtain ⟨regs, eflags, eip⟩ := r
  obtain ⟨hregs, heflags, heip⟩ := h
  rw [resumePoint, hregs, heflags, heip]

section Step

variable {code : TickCode} {m m' : Machine} {a : Shared}

theorem Shares.work {w : Work} (h : Shares code m a) (hok : KeepsSaved code m (m.afterWork w)) :
    Shares code (m.afterWork w) (a.set a.current ⟨w.regs, w.eflags, w.eip⟩) where
  wf := afterWork_wf h.wf hok.undisturbed
  current := h.current
  running := by
    rw [h.current]
    exact Function.update_self ..
  saved p t ht hne := by
    obtain ⟨r, hcpu, hsaved⟩ := h.saved p t ht hne
    refine ⟨r, ?_, hsaved.congr (hok p t ht hne)⟩
    rw [h.current]
    exact (Function.update_of_ne hne _ _).trans hcpu
  absent p hp := by
    have hne : p ≠ a.current := by
      rintro rfl
      obtain ⟨t, ht⟩ := h.wf.current
      rw [h.current] at hp
      exact absurd (hp.symm.trans ht.process) (by simp)
    exact (Function.update_of_ne hne _ _).trans (h.absent p hp)

/-- A tick that keeps the running process. -/
theorem Shares.stay (h : Shares code m a) (hresumed : Resumed m.resumePoint m')
    (hobjects : m'.objects = m.objects) (hkeeps : KeepsSaved code m m') : Shares code m' a where
  wf := h.wf.keep hobjects hkeeps.undisturbed
  current := by
    rw [hobjects]
    exact h.current
  running := by
    rw [hobjects, hresumed.eq]
    exact h.running
  saved p t ht hne := by
    rw [hobjects] at ht hne
    obtain ⟨r, hcpu, hsaved⟩ := h.saved p t ht hne
    exact ⟨r, hcpu, hsaved.congr (hkeeps p t ht hne)⟩
  absent p hp := by
    rw [hobjects] at hp
    exact h.absent p hp

/-- A tick that switches to `next`. -/
theorem Shares.switch {next : Word} {r : Resume} (h : Shares code m a)
    (hcpu : a.cpus next = some r) (hresumed : Resumed r m')
    (hswitched : TickSwitched code m next m') : Shares code m' { a with current := next } where
  wf := hswitched.wf
  current := hswitched.current.symm
  running := by
    rw [hswitched.current, hresumed.eq]
    exact hcpu
  saved p v hv hne := by
    rw [hswitched.current] at hne
    by_cases hself : p = m.objects.currentProcess
    · subst hself
      exact ⟨m.resumePoint, h.running, hswitched.caller v hv⟩
    · have hprocess := hv.process
      rw [hswitched.processes] at hprocess
      obtain ⟨t, ht⟩ := h.wf.linked p _ hprocess
      obtain rfl := hv.unique (hswitched.others p t hself ht)
      obtain ⟨r', hcpu', hsaved⟩ := h.saved p v ht hself
      exact ⟨r', hcpu', hsaved.congr (hswitched.keeps p v ht hself)⟩
  absent p hp := by
    rw [hswitched.processes] at hp
    exact h.absent p hp

/-- A new process. -/
theorem Shares.create {new : NewProcess} {espTop entryPoint : Word} (h : Shares code m a)
    (hfresh : Fresh m new) (htick : entryPoint ≠ code.tickSite) (hisr : entryPoint ≠ code.isrSite)
    (hcreated : Created m new espTop entryPoint m') (hkeeps : KeepsSaved code m m')
    (hr : m'.mem.Region new.pageDirPhysAddr (espTop - 44#32) 44) :
    Shares code m' ((a.set a.current m'.resumePoint).set new.process
      (started entryPoint espTop)) := by
  obtain ⟨c, hc, hobjects⟩ := hcreated.objects
  have hcurrent : m'.objects.currentProcess = m.objects.currentProcess := by
    rw [hobjects]
    rfl
  have hnew : m.objects.currentProcess ≠ new.process := by
    intro heq
    obtain ⟨t, ht⟩ := h.wf.current
    have hprocess := ht.process
    rw [heq, hfresh.process] at hprocess
    cases hprocess
  refine ⟨hcreated.wf hfresh h.wf hkeeps.undisturbed hr, h.current.trans hcurrent.symm, ?_,
    fun p u hu hne => ?_, fun p hp => ?_⟩
  · rw [hcurrent, ← h.current]
    rw [← h.current] at hnew
    exact (Function.update_of_ne hnew _ _).trans (Function.update_self ..)
  · rw [hcurrent] at hne
    rw [hobjects] at hu
    rcases has_cases hfresh h.wf hcreated.vmContext_ne hu with ⟨rfl, rfl⟩ | ⟨hp, hu⟩
    · refine ⟨_, Function.update_self .., .inl ⟨?_, htick, hisr⟩⟩
      rw [show (newTask new c).context.esp = espTop - 44#32 from hc]
      exact hcreated.frame hr
    · obtain ⟨r, hcpu, hsaved⟩ := h.saved p u hu hne
      refine ⟨r, ?_, hsaved.congr (hkeeps p u hu hne)⟩
      rw [h.current]
      exact (Function.update_of_ne hp _ _).trans ((Function.update_of_ne hne _ _).trans hcpu)
  · rw [hobjects] at hp
    have hp : Function.update m.objects.processes new.process (some new.pcb) p = none := hp
    have hne : p ≠ new.process := by
      rintro rfl
      rw [Function.update_self] at hp
      cases hp
    rw [Function.update_of_ne hne] at hp
    have hother : p ≠ a.current := by
      rintro rfl
      obtain ⟨t, ht⟩ := h.wf.current
      rw [h.current] at hp
      exact absurd (hp.symm.trans ht.process) (by simp)
    exact (Function.update_of_ne hne _ _).trans
      ((Function.update_of_ne hother _ _).trans (h.absent p hp))

/-- What a tick does to the processors: to none of them anything. -/
theorem Shares.tick {next : Option Word} {e : TickEffect} (entry : Word) (h : Shares code m a)
    (hok : TickOk code m next e)
    (hnext : ∀ q, next = some q → q ≠ m.objects.currentProcess ∧ ∃ u, m.objects.Has q u) :
    ∃ m', timerTick code entry next e m = .ok ((), m') ∧
      (∀ p, next = some p → p ≠ a.current ∧ ∃ r, a.cpus p = some r) ∧
      Shares code m' { a with current := next.getD a.current } := by
  cases next with
  | none =>
      obtain ⟨m', hrun, hresumed, hobjects, hkeeps⟩ := timerTick_none_ok entry hok
      refine ⟨m', hrun, ?_, h.stay hresumed hobjects hkeeps⟩
      intro p hp
      cases hp
  | some q =>
      obtain ⟨hne, u, hu⟩ := hnext q rfl
      obtain ⟨r, hcpu, hsaved⟩ := h.saved q u hu hne
      obtain ⟨m', hrun, hresumed, hswitched⟩ := timerTick_switch_ok entry h.wf hok hu hne hsaved
      refine ⟨m', hrun, ?_, h.switch hcpu hresumed hswitched⟩
      rintro p hp
      obtain rfl := Option.some.inj hp
      exact ⟨by rw [h.current]; exact hne, r, hcpu⟩

/-- A tick makes no process. -/
theorem Shares.tick_processes {entry : Word} {next : Option Word} {e : TickEffect}
    (h : Shares code m a) (hok : TurnOk code m (.tick entry next e))
    (hrun : timerTick code entry next e m = .ok ((), m')) :
    m'.objects.processes = m.objects.processes := by
  cases next with
  | none =>
      obtain ⟨m'', hrun', _, hobjects, _⟩ := timerTick_none_ok entry hok.1
      rw [hrun] at hrun'
      cases hrun'
      rw [hobjects]
  | some q =>
      obtain ⟨hne, u, hu⟩ := hok.2 q rfl
      obtain ⟨r, _, hsaved⟩ := h.saved q u hu hne
      obtain ⟨m'', hrun', _, hswitched⟩ := timerTick_switch_ok entry h.wf hok.1 hu hne hsaved
      rw [hrun] at hrun'
      cases hrun'
      exact hswitched.processes

/-- One turn. -/
theorem Shares.step {turn : Turn} (h : Shares code m a) (hok : TurnOk code m turn)
    (hstep : (sharingSys code).step m turn m') :
    ∃ call a', turn.Is call ∧ sharedSys.step a call a' ∧ Shares code m' a' := by
  cases turn with
  | work w =>
      obtain rfl : m' = m.afterWork w := hstep
      exact ⟨.work ⟨w.regs, w.eflags, w.eip⟩, _, rfl, rfl, h.work hok⟩
  | tick entry next e =>
      obtain ⟨m'', hrun, hnext, hshares⟩ := h.tick entry hok.1 hok.2
      rw [show timerTick code entry next e m = .ok ((), m') from hstep] at hrun
      cases hrun
      exact ⟨.tick next, _, rfl, ⟨hnext, rfl⟩, hshares⟩
  | create espTop stackSize entryPoint parent new =>
      obtain ⟨p, hp, hrun⟩ := hstep
      obtain ⟨hfresh, htick, hisr, hmapped⟩ := hok
      obtain ⟨hkeeps, hr⟩ := hmapped p m' hrun
      refine ⟨.create new.process m'.resumePoint (started entryPoint espTop), _, ⟨rfl, rfl⟩,
        ⟨h.absent _ hfresh.process, rfl⟩, ?_⟩
      exact h.create hfresh htick hisr (createProcess_eq_ok hfresh hrun hp) hkeeps hr

/-- The initial process has the only processor. -/
theorem sharingSys_init (h : (sharingSys code).init m) :
    ∃ a, sharedSys.init a ∧ Shares code m a := by
  obtain ⟨⟨t, ht⟩, honly⟩ := h
  have hcurrent {p : Word} {u : Task} (hu : m.objects.Has p u) :
      p = m.objects.currentProcess := honly p _ hu.process
  refine ⟨⟨m.objects.currentProcess, fun p =>
    if p = m.objects.currentProcess then some m.resumePoint else none⟩,
    ⟨⟨m.resumePoint, if_pos rfl⟩, fun p hp => if_neg hp⟩, ?_⟩
  refine ⟨⟨⟨t, ht⟩, fun p b hp => ?_, fun p q u v hu hv _ => ?_, fun p u hu hne => ?_⟩, rfl,
    if_pos rfl, fun p u hu hne => ?_, fun p hp => ?_⟩
  · rw [honly p b hp]
    exact ⟨t, ht⟩
  · rw [hcurrent hu, hcurrent hv]
  · exact absurd (hcurrent hu) hne
  · exact absurd (hcurrent hu) hne
  · refine if_neg ?_
    rintro rfl
    exact absurd (hp.symm.trans ht.process) (by simp)

end Step

/-- **Time sharing.** While the turns meet `TurnOk`, whatever else the processes do and
whenever the timer interrupts them, the machine follows the picture in which each
process has a processor of its own: a tick changes which one runs, and no registers,
flags or place of any process. -/
theorem time_sharing (code : TickCode) :
    ((sharingSys code).restrict (TurnOk code)).Simulates sharedSys (Shares code) Turn.Is where
  init _ h := sharingSys_init h
  step _ _ _ _ h hstep := h.step hstep.1 hstep.2

/-! ## A process that waits -/

/-- `p` runs in none of the states before the last one. -/
def Waits (p : Word) : Machine → List (Turn × Machine) → Prop
  | _, [] => True
  | m, (_, m') :: rest => m.objects.currentProcess ≠ p ∧ Waits p m' rest

section Waiting

variable {code : TickCode} {m : Machine} {a : Shared} {p : Word} {r : Resume}

/-- A processor that stands still is not touched. -/
theorem sharedSys_keeps {call : SharedCall} {a' : Shared} (hcpu : a.cpus p = some r)
    (hne : a.current ≠ p) (hstep : sharedSys.step a call a') : a'.cpus p = some r := by
  cases call with
  | work own =>
      obtain rfl : a' = a.set a.current own := hstep
      exact (Function.update_of_ne (Ne.symm hne) _ _).trans hcpu
  | tick next =>
      obtain ⟨_, rfl⟩ := hstep
      exact hcpu
  | create process own new =>
      obtain ⟨hnone, rfl⟩ := hstep
      have hnew : p ≠ process := by
        rintro rfl
        rw [hnone] at hcpu
        cases hcpu
      exact (Function.update_of_ne hnew _ _).trans
        ((Function.update_of_ne (Ne.symm hne) _ _).trans hcpu)

/-- The first time it runs again, `p` goes on with what it had. -/
theorem waits_resumes {run : List (Turn × Machine)} (h : Shares code m a)
    (hcpu : a.cpus p = some r) (haway : m.objects.currentProcess ≠ p)
    (hrun : (sharingSys code).IsRun m run) (hok : TSys.AllSteps (TurnOk code) m run)
    (hwaits : Waits p m run) (hlast : (TSys.final m run).objects.currentProcess = p) :
    Resumed r (TSys.final m run) := by
  induction run generalizing m a with
  | nil => exact absurd hlast haway
  | cons next rest ih =>
      obtain ⟨turn, m'⟩ := next
      obtain ⟨call, a', _, hstep, h'⟩ := h.step hok.1 hrun.1
      have hcpu' := sharedSys_keeps hcpu (by rw [h.current]; exact haway) hstep
      cases rest with
      | nil =>
          have hrunning := h'.running
          rw [show m'.objects.currentProcess = p from hlast, hcpu'] at hrunning
          obtain rfl := Option.some.inj hrunning
          exact ⟨rfl, rfl, rfl⟩
      | cons next' rest' => exact ih h' hcpu' hwaits.2.1 hrun.2 hok.2 hwaits.2 hlast

end Waiting

/-- The machine holds somebody's processors in every state reached. -/
theorem sharingSys_shares {code : TickCode} :
    ((sharingSys code).restrict (TurnOk code)).Invariant fun m => ∃ a, Shares code m a := by
  apply TSys.Inductive.invariant
  constructor
  · intro m hm
    obtain ⟨a, _, h⟩ := sharingSys_init hm
    exact ⟨a, h⟩
  · rintro m turn m' ⟨a, h⟩ ⟨hok, hstep⟩
    obtain ⟨_, a', _, _, h'⟩ := h.step hok hstep
    exact ⟨a', h'⟩

/-- **Preemption is transparent.** In every state that turns which meet `TurnOk` reach,
a timer interrupt that meets it comes to an end. A process it takes the processor from
goes on, when it runs again, at the very instruction it was interrupted at, with its
registers and flags as they were; a new process begins, when it first runs, at its entry
point with its registers clear. -/
theorem preemption_transparent (code : TickCode) :
    ((sharingSys code).restrict (TurnOk code)).Invariant fun m =>
      (∀ entry next e, TurnOk code m (.tick entry next e) →
        ∃ m', timerTick code entry next e m = .ok ((), m')) ∧
      (∀ entry next e m₁ run,
        (sharingSys code).IsRun m ((.tick entry next e, m₁) :: run) →
        TSys.AllSteps (TurnOk code) m ((.tick entry next e, m₁) :: run) →
        Waits m.objects.currentProcess m₁ run →
        (TSys.final m₁ run).objects.currentProcess = m.objects.currentProcess →
        Resumed m.resumePoint (TSys.final m₁ run)) ∧
      (∀ espTop stackSize entryPoint parent new m₁ run,
        (sharingSys code).IsRun m ((.create espTop stackSize entryPoint parent new, m₁) :: run) →
        TSys.AllSteps (TurnOk code) m
          ((.create espTop stackSize entryPoint parent new, m₁) :: run) →
        Waits new.process m₁ run →
        (TSys.final m₁ run).objects.currentProcess = new.process →
        Resumed (started entryPoint espTop) (TSys.final m₁ run)) := by
  intro m hm
  obtain ⟨a, h⟩ := sharingSys_shares m hm
  refine ⟨?_, ?_, ?_⟩
  · intro entry next e hok
    obtain ⟨m', hrun, _⟩ := h.tick entry hok.1 hok.2
    exact ⟨m', hrun⟩
  · intro entry next e m₁ run hrun hok hwaits hlast
    obtain ⟨m', htick, hnext, h₁⟩ := h.tick entry hok.1.1 hok.1.2
    rw [show timerTick code entry next e m = .ok ((), m₁) from hrun.1] at htick
    cases htick
    have hcpu := h.running
    by_cases haway : m₁.objects.currentProcess = m.objects.currentProcess
    · -- the tick did not switch
      cases run with
      | nil =>
          have hrunning := h₁.running
          rw [haway] at hrunning
          obtain heq := Option.some.inj (hcpu.symm.trans hrunning)
          rw [heq]
          exact ⟨rfl, rfl, rfl⟩
      | cons _ _ => exact absurd haway hwaits.1
    · exact waits_resumes h₁ hcpu haway hrun.2 hok.2 hwaits hlast
  · intro espTop stackSize entryPoint parent new m₁ run hrun hok hwaits hlast
    obtain ⟨p, hp, hcreate⟩ := hrun.1
    obtain ⟨hfresh, htick, hisr, hmapped⟩ := hok.1
    obtain ⟨hkeeps, hr⟩ := hmapped p m₁ hcreate
    have hcreated := createProcess_eq_ok hfresh hcreate hp
    have h₁ := h.create hfresh htick hisr hcreated hkeeps hr
    have haway : m₁.objects.currentProcess ≠ new.process := by
      obtain ⟨c, _, hobjects⟩ := hcreated.objects
      obtain ⟨t, ht⟩ := h.wf.current
      rw [hobjects]
      -- the running process had its objects before
      intro heq
      have hprocess := ht.process
      rw [show m.objects.currentProcess = new.process from heq, hfresh.process] at hprocess
      cases hprocess
    exact waits_resumes h₁ (Function.update_self ..) haway hrun.2 hok.2 hwaits hlast

/-! ## Two processes and two ticks -/

/-- The initial process with interrupts on. -/
def tickingMachine : Machine := { soloMachine with eflags := ⟨0x246#32, by decide⟩ }

/-- With the second process. -/
def sharedMachine : Machine :=
  (createProcess 0x11000#32 0#32 0x5678#32 0x10#32 secondProcess).stateAfter tickingMachine

def smallCode : TickCode := ⟨0x210#32, 0x310#32, 0x777#32, 1⟩

def plainTick : TickEffect where
  frames := [9#32]
  regs _ := 1#32
  eflags := soloMachine.eflags
  phys := id
  call := clobber
  lastRegs _ := 2#32
  lastEflags := soloMachine.eflags

/-- After a tick for the second process, and after one for the first. -/
def secondTurn : Machine :=
  (timerTick smallCode 0x200#32 (some 0x50#32) plainTick).stateAfter sharedMachine

def firstTurn : Machine :=
  (timerTick smallCode 0x200#32 (some 0x10#32) plainTick).stateAfter secondTurn

theorem turns_returned :
    Prog.returned (createProcess 0x11000#32 0#32 0x5678#32 0x10#32 secondProcess) tickingMachine =
        some 0x50#32 ∧
      Prog.returned (timerTick smallCode 0x200#32 (some 0x50#32) plainTick) sharedMachine =
        some () ∧
      Prog.returned (timerTick smallCode 0x200#32 (some 0x10#32) plainTick) secondTurn =
        some () := by
  decide +kernel

theorem sharedMachine_run :
    createProcess 0x11000#32 0#32 0x5678#32 0x10#32 secondProcess tickingMachine =
      .ok (0x50#32, sharedMachine) :=
  Prog.eq_of_returned turns_returned.1

theorem secondTurn_run :
    timerTick smallCode 0x200#32 (some 0x50#32) plainTick sharedMachine = .ok ((), secondTurn) :=
  Prog.eq_of_returned turns_returned.2.1

theorem firstTurn_run :
    timerTick smallCode 0x200#32 (some 0x10#32) plainTick secondTurn = .ok ((), firstTurn) :=
  Prog.eq_of_returned turns_returned.2.2

theorem turns_current : sharedMachine.objects.currentProcess = 0x10#32 ∧
    secondTurn.objects.currentProcess = 0x50#32 ∧ firstTurn.objects.currentProcess = 0x10#32 ∧
    sharedMachine.eflags.Interruptible ∧ secondTurn.eflags.Interruptible := by
  decide +kernel

instance (o : ProcessObjects) (p : Word) (t : Task) : Decidable (o.Has p t) :=
  decidable_of_iff (o.processes p = some t.pcbAddr ∧ o.pcbs t.pcbAddr = some t.pcb ∧
      o.contexts t.pcb.context = some t.context ∧
      o.vmContexts t.pcb.vmContext = some t.vmContext ∧ t.pcb.vmContext ≠ 0)
    ⟨fun ⟨h₁, h₂, h₃, h₄, h₅⟩ => ⟨h₁, h₂, h₃, h₄, h₅⟩,
      fun h => ⟨h.process, h.pcb, h.context, h.vmContext, h.vmContext_ne⟩⟩

def firstTask (c : Context) : Task := ⟨0x20#32, ⟨0x30#32, 0x40#32⟩, c, ⟨0x1000#32, 0x1000#32⟩⟩

def secondTask (c : Context) : Task := ⟨0x60#32, ⟨0x70#32, 0x80#32⟩, c, ⟨0x2000#32, 0x2000#32⟩⟩

theorem tickingMachine_init : (sharingSys smallCode).init tickingMachine := soloMachine_init

theorem tickingMachine_fresh : Fresh tickingMachine secondProcess := ⟨rfl, rfl, rfl, rfl, rfl⟩

theorem sharedMachine_create : TurnOk smallCode tickingMachine
    (.create 0x11000#32 0#32 0x5678#32 0x10#32 secondProcess) := by
  refine ⟨tickingMachine_fresh, by decide, by decide, fun p m' hrun => ?_⟩
  rw [sharedMachine_run] at hrun
  cases hrun
  refine ⟨fun q t ht hne => absurd (soloMachine_init.2 q _ ht.process) hne, ?_⟩
  have hmap : ∀ i < 44, sharedMachine.mem.translate 0x2000#32
      (Word.offset (0x11000#32 - 44#32) i) = some (0x11000 - 44 + i) := by decide +kernel
  refine ⟨fun i hi => by rw [show secondProcess.pageDirPhysAddr = 0x2000#32 from rfl, hmap i hi]; rfl,
    fun i j hi hj heq => ?_⟩
  rw [show secondProcess.pageDirPhysAddr = 0x2000#32 from rfl, hmap i hi, hmap j hj] at heq
  have := Option.some.inj heq
  omega

theorem sharedMachine_reachable :
    ((sharingSys smallCode).restrict (TurnOk smallCode)).Reachable sharedMachine := by
  have hstep : (sharingSys smallCode).step tickingMachine
      (.create 0x11000#32 0#32 0x5678#32 0x10#32 secondProcess) sharedMachine :=
    ⟨0x50#32, by decide, sharedMachine_run⟩
  exact .step (.init tickingMachine_init) ⟨sharedMachine_create, hstep⟩

/-- The processes there are after the creation. -/
theorem sharedMachine_processes {p a : Word} (h : sharedMachine.objects.processes p = some a) :
    p = 0x10#32 ∨ p = 0x50#32 := by
  have hcreated := createProcess_eq_ok tickingMachine_fresh sharedMachine_run (by decide)
  obtain ⟨c, _, hobjects⟩ := hcreated.objects
  rw [hobjects] at h
  have h : Function.update tickingMachine.objects.processes 0x50#32 (some 0x60#32) p = some a := h
  by_cases hp : p = 0x50#32
  · exact .inr hp
  · rw [Function.update_of_ne hp] at h
    exact .inl (soloMachine_init.2 p a h)

/-- The tasks before the first tick and before the second one. -/
theorem turns_tasks :
    sharedMachine.objects.Has 0x10#32 (firstTask ⟨0, 0, 0, 0, 0, 0, 0, 0, 0, 0⟩) ∧
      sharedMachine.objects.Has 0x50#32
        (secondTask ⟨0, 0, 0, 0x11000#32 - 44#32, 0, 0, 0, 0, 0x5678#32, 0x202#32⟩) ∧
      secondTurn.objects.Has 0x10#32
        (firstTask ⟨1, 1, 0x9000#32 - 76#32, 0x9000#32 - 112#32, 1, 1, 1, 1, 0x310#32, 1⟩) ∧
      secondTurn.objects.Has 0x50#32
        (secondTask ⟨0, 0, 0, 0x11000#32 - 44#32, 0, 0, 0, 0, 0x5678#32, 0x202#32⟩) := by
  decide +kernel

/-- A tick whose stack is 128 bytes of the identity mapping, away from the one other
process's `n` bytes. -/
theorem plainTick_ok {m : Machine} {next p : Word} {t u : Task} (low place : Nat)
    (henabled : m.eflags.Interruptible)
    (honly : ∀ q v, m.objects.Has q v → q ≠ m.objects.currentProcess → q = p)
    (ht : m.objects.Has p t) (hu : m.objects.Has m.objects.currentProcess u) (hnext : next = p)
    (hstack : ∀ i < 128,
      m.mem.translate m.cr3 ((m.tickLow (some next) plainTick).offset i) = some (low + i) ∧
      m.mem.translate u.space ((m.tickLow (some next) plainTick).offset i) = some (low + i) ∧
      m.mem.translate t.space ((m.tickLow (some next) plainTick).offset i) = some (low + i))
    (hplace : savedBytes smallCode m.mem t.space t.context.esp ≤ 112 ∧
      ∀ j < 112, m.mem.translate t.space (t.context.esp.offset j) = some (place + j))
    (hapart : low + 128 ≤ place ∨ place + 112 ≤ low) : TickOk smallCode m (some next) plainTick where
  enabled := henabled
  mapped := by
    have hrunning := fun i hi => (hstack i hi).1
    refine ⟨fun i hi => by rw [hrunning i hi]; rfl, fun i j hi hj heq => ?_⟩
    rw [hrunning i hi, hrunning j hj] at heq
    have := Option.some.inj heq
    omega
  separate q v hv hne i j hi hj heq := by
    obtain rfl := honly q v hv hne
    obtain rfl := hv.unique ht
    have hlt : j < 112 := Nat.lt_of_lt_of_le hj hplace.1
    rw [(hstack i hi).1, hplace.2 j hlt] at heq
    have := Option.some.inj heq
    have hi : i < 128 := hi
    omega
  ownStack _ _ _ _ _ := rfl
  otherStacks _ _ _ _ _ _ _ _ _ := rfl
  switch q hq := by
    obtain rfl := Option.some.inj hq
    refine ⟨rfl, fun q v hv hq i hi => ?_⟩
    obtain ⟨hrunning, hmine, hother⟩ := hstack i hi
    rw [hrunning]
    rcases hq with rfl | rfl
    · rw [hv.unique hu, hmine]
    · rw [hnext] at hv
      rw [hv.unique ht, hother]

theorem sharedMachine_tick :
    TurnOk smallCode sharedMachine (.tick 0x200#32 (some 0x50#32) plainTick) := by
  obtain ⟨hcurrent, _, _, henabled, _⟩ := turns_current
  obtain ⟨hfirst, hsecond, _⟩ := turns_tasks
  refine ⟨plainTick_ok (p := 0x50#32) (0x9000 - 128) (0x11000 - 44) henabled
    (fun q v hv hne => ?_) hsecond (by rw [hcurrent]; exact hfirst) rfl (by decide +kernel)
    (by decide +kernel) (by decide), ?_⟩
  · rcases sharedMachine_processes hv.process with rfl | rfl
    · exact absurd hcurrent.symm hne
    · rfl
  · rintro q hq
    obtain rfl := Option.some.inj hq
    exact ⟨by rw [hcurrent]; decide, _, hsecond⟩

theorem secondTurn_processes {p a : Word} (h : secondTurn.objects.processes p = some a) :
    p = 0x10#32 ∨ p = 0x50#32 := by
  obtain ⟨b, hshares⟩ := sharingSys_shares sharedMachine sharedMachine_reachable
  rw [hshares.tick_processes sharedMachine_tick secondTurn_run] at h
  exact sharedMachine_processes h

theorem secondTurn_tick :
    TurnOk smallCode secondTurn (.tick 0x200#32 (some 0x10#32) plainTick) := by
  obtain ⟨_, hcurrent, _, _, henabled⟩ := turns_current
  obtain ⟨_, _, hfirst, hsecond⟩ := turns_tasks
  refine ⟨plainTick_ok (p := 0x10#32) (0x11000 - 128) (0x9000 - 112) henabled
    (fun q v hv hne => ?_) hfirst (by rw [hcurrent]; exact hsecond) rfl (by decide +kernel)
    (by decide +kernel) (by decide), ?_⟩
  · rcases secondTurn_processes hv.process with rfl | rfl
    · rfl
    · exact absurd hcurrent.symm hne
  · rintro q hq
    obtain rfl := Option.some.inj hq
    exact ⟨by rw [hcurrent]; decide, _, hfirst⟩

/-- The initial process goes on where the first tick interrupted it. -/
theorem preemption_transparent_first : Resumed sharedMachine.resumePoint firstTurn := by
  obtain ⟨hbefore, hother, hlast, _⟩ := turns_current
  have hbetween : secondTurn.objects.currentProcess ≠ 0x10#32 := by
    rw [hother]
    decide
  clear hother
  have hreachable := sharedMachine_reachable
  have hfirst := secondTurn_run
  have hsecond := firstTurn_run
  have hfirstOk := sharedMachine_tick
  have hsecondOk := secondTurn_tick
  -- the states by name only
  generalize firstTurn = m₂ at hsecond hlast ⊢
  generalize secondTurn = m₁ at hfirst hsecond hbetween hsecondOk
  generalize sharedMachine = m at hbefore hreachable hfirst hfirstOk ⊢
  rw [← hbefore] at hbetween hlast
  exact (preemption_transparent smallCode m hreachable).2.1 0x200#32 (some 0x50#32) plainTick m₁
    [(.tick 0x200#32 (some 0x10#32) plainTick, m₂)] ⟨hfirst, hsecond, trivial⟩
    ⟨hfirstOk, hsecondOk, trivial⟩ ⟨hbetween, trivial⟩ hlast

end MyOs
