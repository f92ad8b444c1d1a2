import MyOs.Logic.Interrupted
import MyOs.Logic.SwitchSpec
import MyOs.Processes.Preemption

/-!
# What a preempted process leaves on its stack

Above the frame of `process_switch` lie the words of the functions of the tick
and those of the interrupt. `SavedAt` is the whole: a process that has never run,
or one that a tick has taken the processor from. Ticks, work and new processes
keep it, and the switch back ends where the process was interrupted.
-/

namespace MyOs

/-- The code at the end of an interrupt, on a stack with the words of `x`. -/
def Registers.resume (x : Registers) (esp : Word) : Machine.Resume where
  regs := x.popped esp
  eflags := Eflags.ofWord x.eflags
  eip := x.eip

/-- A byte reads the same when its address does. -/
theorem PagedMemory.byteAt_of_phys {ι : Type} {m m' : PagedMemory ι} {c : ι} {v : Word}
    (hpages : m'.pages = m.pages)
    (hphys : ∀ a, m.translate c v = some a → m'.phys a = m.phys a) :
    m'.byteAt c v = m.byteAt c v := by
  rw [byteAt, byteAt, translate_congr hpages]
  cases hp : m.translate c v with
  | none => rfl
  | some a => rw [Option.map_some, Option.map_some, hphys a hp]

namespace Machine

/-! ## Where `process_switch` writes and where it ends -/

section Places

variable {m m' : Machine} {t u : Task} {next ret : Word} {call : CallEffect}

/-- The memory is `mem` and the directory in use is `c`. -/
def Rests (mem : PagedMemory Word) (c : Word) (m : Machine) : Prop := m.mem = mem ∧ m.cr3 = c

section Rests

variable {mem : PagedMemory Word} {c : Word}

theorem pop_rests : Prog.Triple (Rests mem c) pop fun _ => Rests mem c := by
  intro m hm w m' hrun
  rw [pop, getReg_bind_apply] at hrun
  obtain ⟨w', m₁, hload, hrest⟩ := Prog.bind_eq_ok.mp hrun
  rw [load] at hload
  cases hread : m.mem.readWord m.cr3 (m.regs .esp) with
  | none =>
      rw [hread] at hload
      cases hload
  | some w'' =>
      rw [hread] at hload
      cases hload
      cases hrest
      exact hm

theorem setReg_rests (r : Reg) (w : Word) :
    Prog.Triple (Rests mem c) (setReg r w) fun _ => Rests mem c := .modify fun _ hm => hm

theorem popReg_rests (r : Reg) : Prog.Triple (Rests mem c) (popReg r) fun _ => Rests mem c :=
  .bind pop_rests fun _ => .modify fun _ hm => hm

theorem readObject_rests {α : Type} (objects : ProcessObjects → Word → Option α) (p : Word) :
    Prog.Triple (Rests mem c) (readObject objects p) fun _ => Rests mem c := by
  intro m hm a m' hrun
  rw [readObject] at hrun
  split at hrun
  · cases hrun
    exact hm
  · cases hrun

theorem popad_rests : Prog.Triple (Rests mem c) popad fun _ => Rests mem c :=
  .bind (popReg_rests _) fun _ => .bind (popReg_rests _) fun _ => .bind (popReg_rests _) fun _ =>
    .read fun _ _ => .bind (setReg_rests _ _) fun _ => .bind (popReg_rests _) fun _ =>
      .bind (popReg_rests _) fun _ => .bind (popReg_rests _) fun _ => popReg_rests _

theorem loadContext_rests : Prog.Triple (Rests mem c) loadContext fun _ => Rests mem c := by
  have hpcb : Prog.Triple (Rests mem c) loadPcb fun _ => Rests mem c :=
    .read fun _ _ => .bind (setReg_rests _ _) fun _ => .read fun _ _ =>
      .bind (readObject_rests _ _) fun _ => setReg_rests _ _
  exact .bind hpcb fun _ => .read fun _ _ => .bind (readObject_rests _ _) fun _ => setReg_rests _ _

/-- The way out of `process_switch` only reads. -/
theorem restoreFrame_rests : Prog.Triple (Rests mem c) restoreFrame fun _ => Rests mem c := by
  have hpopfd : Prog.Triple (Rests mem c) popfd fun _ => Rests mem c :=
    .bind pop_rests fun _ => .modify fun _ hm => hm
  have hret : Prog.Triple (Rests mem c) ret fun _ => Rests mem c :=
    .bind pop_rests fun _ => .modify fun _ hm => hm
  exact .read fun _ _ => .bind (setReg_rests _ _) fun _ => .bind loadContext_rests fun _ =>
    .read fun _ _ => .bind (readObject_rests _ _) fun _ => .bind (setReg_rests _ _) fun _ =>
      .bind popad_rests fun _ => .bind hpopfd fun _ => .bind (popReg_rests _) fun _ => hret

end Rests

/-- A switch to another process writes below the stack pointer and ends in the
other's directory. -/
theorem processSwitch_places (site : Word) (hwf : m.Wf)
    (ht : m.objects.Has m.objects.currentProcess t) (hok : SwitchOk m next ret call)
    (hu : m.objects.Has next u) (hne : next ≠ m.objects.currentProcess)
    (hrun : processSwitch site call m = .ok ((), m')) :
    m.mem.WritesIn m'.mem m.cr3 (m.stackLow call) (4 * call.frame.length + 48) ∧
      m'.cr3 = u.space := by
  obtain ⟨m₁, m₂, m₃, hsave, hcontext, hcurrent, hsaved⟩ := saveCaller_ok ht hok
  obtain ⟨ebp, esp, hwords₃⟩ := hsaved.words
  have hu₃ : m₃.objects.Has m₃.objects.currentProcess u := by
    rw [hsaved.objects]
    exact hu.switched_other fun h => hne (hwf.contexts _ _ _ _ hu ht h)
  have hregion₃ : m₃.mem.Region m₃.cr3 (m.stackLow call) (4 * call.frame.length + 56) := by
    rw [hsaved.cr3]
    exact hok.mapped.congr hsaved.writes.pages
  have hlen : 4 * call.frame.length + 8 +
      4 * (frameWords (m.atReturn ret) ebp esp ++ [next]).length ≤
        4 * call.frame.length + 56 := by
    change 4 * call.frame.length + 8 + 4 * 12 ≤ _
    omega
  rw [← hsaved.cr3] at hwords₃
  obtain ⟨m₄, hswitch, heip, hcr₄, _, hwrites₄, _⟩ :=
    switchDirectory_ok site call hu₃ hregion₃ hlen hsaved.esp hwords₃ fun i hi => by
      rw [PagedMemory.translate_congr hsaved.writes.pages,
        PagedMemory.translate_congr hsaved.writes.pages, hsaved.cr3]
      exact hok.stays next u hu (.inr rfl) i hi
  rw [processSwitch, Prog.bind_of_ok hsave, Prog.bind_of_ok hcontext, Prog.bind_of_ok hcurrent,
    Prog.bind_of_ok hswitch, Prog.get_bind_apply, if_pos heip] at hrun
  obtain ⟨hmem, hcr⟩ := restoreFrame_rests m₄ ⟨rfl, rfl⟩ _ m' hrun
  rw [hsaved.cr3, ← Word.offset_zero (m.stackLow call)] at hwrites₄
  refine ⟨?_, hcr.trans hcr₄⟩
  rw [hmem]
  exact hsaved.writes.trans (hwrites₄.widen (by omega))

end Places

/-! ## A preempted process -/

theorem interrupted_resume (m : Machine) (n errCode : Word) :
    (m.interrupted n errCode).resume (m.regs .esp) = m.resumePoint := by
  have hregs : (m.interrupted n errCode).popped (m.regs .esp) = m.regs := by
    funext q
    cases q <;> rfl
  rw [Registers.resume, hregs, resumePoint]
  congr 1
  exact Eflags.ofWord_word m.eflags

/-- The words of a tick above the frame of `process_switch`. -/
def tickWords (code : TickCode) (next arg : Word) (frames : List Word) (x : Registers) :
    List Word :=
  next :: (frames ++ code.isrSite :: arg :: x.words)

theorem tickWords_length (code : TickCode) (next arg : Word) (frames : List Word) (x : Registers) :
    (tickWords code next arg frames x).length = frames.length + 16 := by
  simp [tickWords, Registers.words]

/-- The tick at `f` goes on with `r` when it has come back. -/
structure TickAt (code : TickCode) (mem : PagedMemory Word) (c f : Word) (r : Resume) : Prop where
  frame : ∃ r', FrameAt mem c f r' ∧ r'.eip = code.tickSite
  words : ∃ next arg frames x, frames.length = code.depth ∧
    mem.Holds c (f.offset 44) (tickWords code next arg frames x) ∧ x.cs = kernelCodeSelector ∧
    r = x.resume (f.offset (108 + 4 * code.depth))

/-- A process suspended at `f` goes on with `r`: it has never run, or a tick has
suspended it. -/
def SavedAt (code : TickCode) (mem : PagedMemory Word) (c f : Word) (r : Resume) : Prop :=
  FrameAt mem c f r ∧ r.eip ≠ code.tickSite ∧ r.eip ≠ code.isrSite ∨ TickAt code mem c f r

/-- The bytes a suspended process relies on: the return address in the frame tells
how many. -/
def savedBytes (code : TickCode) (mem : PagedMemory Word) (c f : Word) : Nat :=
  if mem.readWord c (f.offset 40) = some code.tickSite then 108 + 4 * code.depth else 44

section Saved

variable {code : TickCode} {mem mem' : PagedMemory Word} {c d f : Word} {r : Resume}

theorem le_savedBytes : 44 ≤ savedBytes code mem c f := by
  rw [savedBytes]
  split <;> omega

theorem FrameAt.eip (h : FrameAt mem c f r) : mem.readWord c (f.offset 40) = some r.eip := by
  obtain ⟨⟨ebp, esp, hwords⟩, _⟩ := h
  exact PagedMemory.holds_iff.mp hwords 10 (by simp [frameWords])

theorem TickAt.bytes (h : TickAt code mem c f r) :
    savedBytes code mem c f = 108 + 4 * code.depth := by
  obtain ⟨r', hframe, heip⟩ := h.frame
  rw [savedBytes, if_pos (by rw [hframe.eip, heip])]

/-- What is saved lies in those bytes. -/
theorem TickAt.congr (h : TickAt code mem c f r)
    (hbytes : ∀ i, i < savedBytes code mem c f →
      mem'.byteAt d (f.offset i) = mem.byteAt c (f.offset i)) : TickAt code mem' d f r := by
  rw [h.bytes] at hbytes
  obtain ⟨⟨r', hframe, heip⟩, next, arg, frames, x, hlen, hwords, hcs, hr⟩ := h
  refine ⟨⟨r', hframe.congr fun i hi => hbytes i (by omega), heip⟩, next, arg, frames, x,
    hlen, hwords.congr fun i hi => ?_, hcs, hr⟩
  rw [tickWords_length] at hi
  rw [Word.offset_offset]
  exact hbytes _ (by omega)

theorem SavedAt.congr (h : SavedAt code mem c f r)
    (hbytes : ∀ i, i < savedBytes code mem c f →
      mem'.byteAt d (f.offset i) = mem.byteAt c (f.offset i)) : SavedAt code mem' d f r := by
  rcases h with ⟨hframe, hne⟩ | htick
  · exact .inl ⟨hframe.congr fun i hi => hbytes i (Nat.lt_of_lt_of_le hi le_savedBytes), hne⟩
  · exact .inr (htick.congr hbytes)

/-- A suspended process has a frame of `process_switch`. -/
theorem SavedAt.frame (h : SavedAt code mem c f r) : ∃ r', FrameAt mem c f r' := by
  rcases h with ⟨hframe, _⟩ | htick
  · exact ⟨r, hframe⟩
  · obtain ⟨r', hframe, _⟩ := htick.frame
    exact ⟨r', hframe⟩

end Saved

/-! ## The functions of a tick -/

section Tick

variable {code : TickCode} {m : Machine} {e : TickEffect}

/-- Out of the functions, when the stack has their words, and out of the routine. -/
theorem tickLeave_ok {site arg : Word} {frames : List Word} {x : Registers}
    (hcs : x.cs = kernelCodeSelector)
    (h : m.mem.Holds m.cr3 (m.regs .esp) (frames ++ site :: arg :: x.words)) :
    ∃ m₁ m', tickLeave frames.length e m = .ok ((), m₁) ∧ isrReturn site m₁ = .ok ((), m') ∧
      Resumed (x.resume ((m.regs .esp).offset (60 + 4 * frames.length))) m' ∧
      m'.mem = m.mem ∧ m'.cr3 = m.cr3 ∧ m'.objects = m.objects := by
  -- past the frames, to the return address
  have habove := h.right
  obtain ⟨m₁, hm₁⟩ : ∃ m₁ : Machine, m₁ = { m with
    regs := Function.update e.lastRegs .esp ((m.regs .esp).offset (4 * frames.length))
    eflags := e.lastEflags } := ⟨_, rfl⟩
  have h₁ : m₁.mem.Holds m₁.cr3 (m₁.regs .esp) (site :: arg :: x.words) := by
    rw [hm₁]
    simp only [Function.update_self]
    exact habove
  obtain ⟨m₂, hm₂⟩ : ∃ m₂ : Machine, m₂ = { m₁ with
    regs := Function.update m₁.regs .esp ((m₁.regs .esp).offset 4)
    eip := site } := ⟨_, rfl⟩
  have hret : ret m₁ = .ok ((), m₂) := by
    rw [ret, Prog.bind_of_ok (pop_ok h₁), hm₂]
    rfl
  have h₂ : m₂.mem.Holds m₂.cr3 (m₂.regs .esp) (arg :: x.words) := by
    rw [hm₂]
    simp only [Function.update_self]
    exact h₁.2
  obtain ⟨m', hexit, hregs, heflags, heip, hmem, hcr, hobjects⟩ := isrExit_ok hcs h₂
  refine ⟨m₂, m', ?_, ?_, ⟨?_, heflags, heip⟩, ?_, ?_, ?_⟩
  · rw [tickLeave, Prog.bind_of_ok (addEsp_apply _), Prog.modify_bind_apply]
    simp only [Function.update_self]
    rw [← hm₁, hret]
  · rw [isrReturn, Prog.get_bind_apply, if_pos (by rw [hm₂]), hexit]
  · rw [hregs, hm₂, hm₁]
    simp only [Function.update_self, Word.offset_offset]
    rw [show 4 * frames.length + (4 + 56) = 60 + 4 * frames.length by omega]
    rfl
  · rw [hmem, hm₂, hm₁]
  · rw [hcr, hm₂, hm₁]
  · rw [hobjects, hm₂, hm₁]

/-- In the functions of a tick, with `b` bytes left on the stack down to `lo`. -/
structure Ticking (m : Machine) (e : TickEffect) (site lo : Word) (b : Nat) (m₂ : Machine) :
    Prop where
  cr3 : m₂.cr3 = m.cr3
  objects : m₂.objects = m.objects
  esp : m₂.regs .esp = lo.offset b
  pages : m₂.mem.pages = m.mem.pages
  words : ∃ arg, m₂.mem.Holds m.cr3 (lo.offset b)
    (e.frames.reverse ++ site :: arg :: (m.interrupted 32#32 0#32).words)
  phys : ∀ a, (∀ i, i < b + 4 * e.frames.length + 60 →
    m.mem.translate m.cr3 (lo.offset i) ≠ some a) → (∀ s, e.phys s a = s a) →
      m₂.mem.phys a = m.mem.phys a

variable (code) in
/-- The way into the functions. -/
theorem timerTick_enters {lo : Word} {b : Nat} (entry : Word) (next : Option Word)
    (hr : m.mem.Region m.cr3 lo (b + 4 * e.frames.length + 60))
    (hesp : m.regs .esp = lo.offset (b + 4 * e.frames.length + 60))
    (hspared : ∀ i a, i < b + 4 * e.frames.length + 60 →
      m.mem.translate m.cr3 (lo.offset i) = some a → ∀ s, e.phys s a = s a) :
    ∃ m₁ m₂, timerTick code entry next e m =
        (do pitHandler code next e; isrReturn code.isrSite) m₁ ∧
      tickEnter e m₁ = .ok ((), m₂) ∧ Ticking m e code.isrSite lo b m₂ := by
  obtain ⟨top, htop⟩ : ∃ top, top = lo.offset (b + 4 * e.frames.length) := ⟨_, rfl⟩
  -- down to `isr_handler`
  have htopMapped : m.mem.Region m.cr3 top 60 := by
    rw [htop]
    exact hr.drop (by omega)
  obtain ⟨m₁, hrun, hentered⟩ := interrupt_enters 32 none entry code.isrSite
    (tickServices code next e) (by decide) htopMapped (by rw [htop, Word.offset_offset, hesp])
  have hdispatch := isrHandler_dispatch (tickServices code next e) hentered
  -- down to `scheduler_handle_tick`
  have hr₁ : m₁.mem.Region m₁.cr3 lo (b + 4 * e.frames.length + 60) := by
    rw [hentered.cr3]
    exact hr.congr hentered.writes.pages
  have hwords₁ := hentered.words
  rw [htop, ← hentered.cr3] at hwords₁
  obtain ⟨mem₂, hpush, hwrites₂, hholds₂⟩ := pushAll_ok e.frames hr₁
    (by simp only [List.length_append, List.length_cons, List.length_nil, Registers.words]; omega)
    (show b + 4 * e.frames.length ≤ b + 4 * e.frames.length + 60 by omega)
    (by rw [hentered.esp, htop]) hwords₁
  rw [hentered.cr3] at hwrites₂ hholds₂
  have hwrites₁ := hentered.writes
  rw [htop] at hwrites₁
  have hwrites := (hwrites₁.widen (Nat.le_refl (b + 4 * e.frames.length + 60))).trans hwrites₂
  refine ⟨m₁, { m₁ with
    regs := Function.update e.regs .esp (lo.offset b)
    eflags := e.eflags
    mem := { mem₂ with phys := e.phys mem₂.phys } }, ?_, ?_, hentered.cr3, hentered.objects,
    by simp, hwrites.pages, ⟨top.offset 8, ?_⟩, fun a hout hspare => ?_⟩
  · rw [timerTick, hrun]
    exact Prog.bind_congr_apply hdispatch
  · rw [tickEnter, Prog.bind_of_ok hpush, Prog.modify_apply]
    simp
  · -- the functions' own writes are elsewhere
    refine PagedMemory.Holds.congr (m := mem₂) (c := m.cr3) ?_ fun i hi => ?_
    · rw [htop]
      exact hholds₂
    · simp only [List.length_append, List.length_reverse, List.length_cons, Registers.words,
        List.length_nil] at hi
      refine PagedMemory.byteAt_of_phys rfl fun a ha => ?_
      rw [Word.offset_offset, PagedMemory.translate_congr hwrites.pages] at ha
      exact hspared _ a (by omega) ha _
  · exact (hspare _).trans (hwrites.phys a hout)

end Tick

/-! ## What a tick needs and what it does -/

/-- The bytes a tick pushes below the interrupted code. -/
def tickBytes (next : Option Word) (e : TickEffect) : Nat :=
  match next with
  | none => 60 + 4 * e.frames.length
  | some _ => 116 + 4 * e.frames.length + 4 * e.call.frame.length

/-- Where they begin. -/
def tickLow (m : Machine) (next : Option Word) (e : TickEffect) : Word :=
  m.regs .esp - BitVec.ofNat 32 (tickBytes next e)

/-- A switch from a tick to `next`: the stack of the process that runs is mapped alike
in its own directory and in that of `next`. -/
structure TickSwitchOk (code : TickCode) (m : Machine) (next : Word) (e : TickEffect) : Prop where
  depth : e.frames.length = code.depth
  stays : ∀ p t, m.objects.Has p t → p = m.objects.currentProcess ∨ p = next →
    ∀ i, i < tickBytes (some next) e →
      m.mem.translate t.space ((m.tickLow (some next) e).offset i) =
        m.mem.translate m.cr3 ((m.tickLow (some next) e).offset i)

/-- A tick: interrupts are on, the stack is mapped, and neither what is pushed nor
what the functions write elsewhere is in what a suspended process relies on. -/
structure TickOk (code : TickCode) (m : Machine) (next : Option Word) (e : TickEffect) :
    Prop where
  enabled : m.eflags.Interruptible
  mapped : m.mem.Region m.cr3 (m.tickLow next e) (tickBytes next e)
  separate : ∀ p t, m.objects.Has p t → p ≠ m.objects.currentProcess →
    ∀ i j, i < tickBytes next e → j < savedBytes code m.mem t.space t.context.esp →
      m.mem.translate m.cr3 ((m.tickLow next e).offset i) ≠
        m.mem.translate t.space (t.context.esp.offset j)
  ownStack : ∀ i a, i < tickBytes next e →
    m.mem.translate m.cr3 ((m.tickLow next e).offset i) = some a → ∀ s, e.phys s a = s a
  otherStacks : ∀ p t, m.objects.Has p t → p ≠ m.objects.currentProcess →
    ∀ j a, j < savedBytes code m.mem t.space t.context.esp →
      m.mem.translate t.space (t.context.esp.offset j) = some a → ∀ s, e.phys s a = s a
  switch : ∀ q, next = some q → TickSwitchOk code m q e

/-- What the suspended processes rely on is as it was. -/
def KeepsSaved (code : TickCode) (m m' : Machine) : Prop :=
  ∀ p t, m.objects.Has p t → p ≠ m.objects.currentProcess →
    ∀ i, i < savedBytes code m.mem t.space t.context.esp →
      m'.mem.byteAt t.space (t.context.esp.offset i) =
        m.mem.byteAt t.space (t.context.esp.offset i)

section Effect

variable {code : TickCode} {m m' : Machine} {e : TickEffect} {next : Option Word}

/-- The bytes relied on are as many as before. -/
theorem KeepsSaved.bytes {p : Word} {t : Task} (h : KeepsSaved code m m')
    (ht : m.objects.Has p t) (hne : p ≠ m.objects.currentProcess) :
    savedBytes code m'.mem t.space t.context.esp =
      savedBytes code m.mem t.space t.context.esp := by
  rw [savedBytes, savedBytes, PagedMemory.readWord_congr fun j hj => ?_]
  rw [Word.offset_offset]
  exact h p t ht hne _ (Nat.lt_of_lt_of_le (show 40 + j < 44 by omega) le_savedBytes)

theorem KeepsSaved.trans {m'' : Machine} (h : KeepsSaved code m m')
    (hobjects : m'.objects = m.objects) (h' : KeepsSaved code m' m'') : KeepsSaved code m m'' := by
  intro p t ht hne i hi
  rw [← h p t ht hne i hi]
  rw [← h.bytes ht hne] at hi
  rw [← hobjects] at ht hne
  exact h' p t ht hne i hi

theorem KeepsSaved.undisturbed (h : KeepsSaved code m m') : Undisturbed m m' :=
  fun p t ht hne i hi => h p t ht hne i (Nat.lt_of_lt_of_le hi le_savedBytes)

/-- The processes have what they need, when their objects and frames stay. -/
theorem Wf.keep (hwf : m.Wf) (hobjects : m'.objects = m.objects) (h : Undisturbed m m') :
    m'.Wf where
  current := by
    rw [hobjects]
    exact hwf.current
  linked := by
    rw [hobjects]
    exact hwf.linked
  contexts := by
    rw [hobjects]
    exact hwf.contexts
  suspended p t ht hne := by
    rw [hobjects] at ht hne
    obtain ⟨r, hframe⟩ := hwf.suspended p t ht hne
    exact ⟨r, hframe.congr (h p t ht hne)⟩

theorem esp_eq_tickLow (m : Machine) (next : Option Word) (e : TickEffect) :
    m.regs .esp = (m.tickLow next e).offset (tickBytes next e) := by
  rw [tickLow, Word.offset, BitVec.sub_add_cancel]

/-- Until the switch the suspended processes keep what they rely on. -/
theorem Ticking.keepsSaved {b : Nat} {m₂ : Machine} (hok : TickOk code m next e)
    (hb : tickBytes next e = b + 4 * e.frames.length + 60)
    (h : Ticking m e code.isrSite (m.tickLow next e) b m₂) : KeepsSaved code m m₂ := by
  intro p t ht hne i hi
  refine PagedMemory.byteAt_of_phys h.pages fun a ha => h.phys a (fun j hj heq => ?_) ?_
  · rw [← hb] at hj
    exact hok.separate p t ht hne j i hj hi (heq.trans ha.symm)
  · exact hok.otherStacks p t ht hne i a hi ha

/-- A tick that switches to nobody. -/
theorem timerTick_none_ok (entry : Word) (hok : TickOk code m none e) :
    ∃ m', timerTick code entry none e m = .ok ((), m') ∧ Resumed m.resumePoint m' ∧
      m'.objects = m.objects ∧ KeepsSaved code m m' := by
  have hb : tickBytes none e = 0 + 4 * e.frames.length + 60 := by
    rw [tickBytes]
    omega
  have hesp := esp_eq_tickLow m none e
  have hmapped := hok.mapped
  have hown := hok.ownStack
  rw [hb] at hesp hmapped hown
  obtain ⟨m₁, m₂, hrun, henter, hticking⟩ :=
    timerTick_enters code entry none hmapped hesp hown
  obtain ⟨arg, hwords⟩ := hticking.words
  have hwords₂ : m₂.mem.Holds m₂.cr3 (m₂.regs .esp)
      (e.frames.reverse ++ code.isrSite :: arg :: (m.interrupted 32#32 0#32).words) := by
    rw [hticking.cr3, hticking.esp]
    exact hwords
  obtain ⟨m₃, m', hleave, hreturn, hresumed, hmem, hcr, hobjects⟩ :=
    tickLeave_ok (e := e) rfl hwords₂
  rw [List.length_reverse] at hleave hresumed
  refine ⟨m', ?_, ?_, hobjects.trans hticking.objects, ?_⟩
  · have hpit : pitHandler code none e m₁ = .ok ((), m₃) := by
      rw [pitHandler, Prog.bind_of_ok henter, hleave]
    rw [hrun, Prog.bind_of_ok hpit, hreturn]
  · rw [hticking.esp, Word.offset_offset,
      show 0 + (60 + 4 * e.frames.length) = 0 + 4 * e.frames.length + 60 by omega, ← hesp,
      interrupted_resume] at hresumed
    exact hresumed
  · have hkeeps := hticking.keepsSaved hok hb
    intro p t ht hne i hi
    rw [hmem]
    exact hkeeps p t ht hne i hi

/-- At the call of `process_switch`, its stack at `lo`. -/
structure Calling (code : TickCode) (m : Machine) (next : Word) (e : TickEffect) (m₃ : Machine) :
    Prop where
  cr3 : m₃.cr3 = m.cr3
  objects : m₃.objects = m.objects
  low : m₃.stackLow e.call = m.tickLow (some next) e
  pages : m₃.mem.pages = m.mem.pages
  words : ∃ arg, m₃.mem.Holds m.cr3
    ((m.tickLow (some next) e).offset (4 * e.call.frame.length + 48))
    (code.tickSite ::
      tickWords code next arg e.frames.reverse (m.interrupted 32#32 0#32))
  keeps : KeepsSaved code m m₃

/-- The way to the call. -/
theorem timerTick_calls {next : Word} (entry : Word) (hok : TickOk code m (some next) e) :
    ∃ m₁ m₂ m₃, timerTick code entry (some next) e m =
        (do pitHandler code (some next) e; isrReturn code.isrSite) m₁ ∧
      tickEnter e m₁ = .ok ((), m₂) ∧
      (do push next; push code.tickSite) m₂ = .ok ((), m₃) ∧ Calling code m next e m₃ := by
  obtain ⟨b, hb⟩ : ∃ b, b = 4 * e.call.frame.length + 56 := ⟨_, rfl⟩
  have hbytes : tickBytes (some next) e = b + 4 * e.frames.length + 60 := by
    rw [tickBytes, hb]
    omega
  have hesp := esp_eq_tickLow m (some next) e
  have hmapped := hok.mapped
  have hown := hok.ownStack
  obtain ⟨lo, hlo⟩ : ∃ lo, lo = m.tickLow (some next) e := ⟨_, rfl⟩
  rw [hbytes] at hesp hmapped hown
  obtain ⟨m₁, m₂, hrun, henter, hticking⟩ :=
    timerTick_enters code entry (some next) hmapped hesp hown
  have hkeeps₂ := hticking.keepsSaved hok hbytes
  rw [← hlo] at hmapped hticking
  obtain ⟨arg, hwords₂⟩ := hticking.words
  have hr₂ : m₂.mem.Region m₂.cr3 lo (b + 4 * e.frames.length + 60) := by
    rw [hticking.cr3]
    exact hmapped.congr hticking.pages
  have hesp₂ := hticking.esp
  rw [← hticking.cr3, hb, show 4 * e.call.frame.length + 56 = 4 * e.call.frame.length + 52 + 4 from rfl]
    at hwords₂
  rw [hb, show 4 * e.call.frame.length + 56 = 4 * e.call.frame.length + 52 + 4 from rfl] at hesp₂
  have hlen : (e.frames.reverse ++ code.isrSite :: arg ::
      (m.interrupted 32#32 0#32).words).length = e.frames.length + 15 := by
    simp [Registers.words]
  -- push next
  obtain ⟨mem₃, hpush₃, hwrites₃, hholds₃⟩ := push_ok hr₂ (by rw [hlen]; omega) hesp₂ hwords₂ next
  obtain ⟨m₃, hm₃⟩ : ∃ m₃ : Machine, m₃ = { m₂ with
    mem := mem₃
    regs := Function.update m₂.regs .esp (lo.offset (4 * e.call.frame.length + 52)) } := ⟨_, rfl⟩
  have hmem₃ : m₃.mem = mem₃ := by rw [hm₃]
  have hcr₃ : m₃.cr3 = m₂.cr3 := by rw [hm₃]
  rw [← hm₃] at hpush₃
  rw [← hmem₃] at hwrites₃ hholds₃
  -- push the return address
  have hr₃ : m₃.mem.Region m₃.cr3 lo (b + 4 * e.frames.length + 60) := by
    rw [hcr₃]
    exact hr₂.congr hwrites₃.pages
  rw [← hcr₃] at hholds₃
  obtain ⟨mem₄, hpush₄, hwrites₄, hholds₄⟩ := push_ok (k := 4 * e.call.frame.length + 48) hr₃
    (by rw [List.length_cons, hlen]; omega) (by simp [hm₃]) hholds₃ code.tickSite
  obtain ⟨m₄, hm₄⟩ : ∃ m₄ : Machine, m₄ = { m₃ with
    mem := mem₄
    regs := Function.update m₃.regs .esp (lo.offset (4 * e.call.frame.length + 48)) } := ⟨_, rfl⟩
  have hmem₄ : m₄.mem = mem₄ := by rw [hm₄]
  rw [← hm₄] at hpush₄
  rw [← hmem₄] at hwrites₄ hholds₄
  have hwrites : m₂.mem.WritesIn m₄.mem m.cr3 lo (b + 4 * e.frames.length + 60) := by
    rw [hcr₃] at hwrites₄
    rw [← hticking.cr3]
    exact (hwrites₃.widen (by omega)).trans (hwrites₄.widen (by omega))
  refine ⟨m₁, m₂, m₄, hrun, henter, ?_, ?_, ?_, ?_, hwrites.pages.trans hticking.pages, ⟨arg, ?_⟩,
    ?_⟩
  · rw [Prog.bind_of_ok hpush₃, hpush₄]
  · rw [hm₄, hm₃]
    exact hticking.cr3
  · rw [hm₄, hm₃]
    exact hticking.objects
  · rw [stackLow, hm₄, hlo]
    simp only [Function.update_self, Word.offset]
    exact BitVec.add_sub_cancel _ _
  · rw [← hlo, ← hticking.cr3, ← hcr₃]
    exact hholds₄
  · intro p t ht hne i hi
    rw [← hkeeps₂ p t ht hne i hi]
    refine hwrites.byteAt fun j hj heq => ?_
    rw [PagedMemory.translate_congr hticking.pages, PagedMemory.translate_congr hticking.pages,
      hlo] at heq
    exact hok.separate p t ht hne j i (by omega) hi heq

/-- After a switch from a tick: what the process that ran relies on is saved, and the
others are as they were. -/
structure TickSwitched (code : TickCode) (m : Machine) (next : Word) (m' : Machine) : Prop where
  current : m'.objects.currentProcess = next
  wf : m'.Wf
  caller : ∀ t, m'.objects.Has m.objects.currentProcess t →
    SavedAt code m'.mem t.space t.context.esp m.resumePoint
  others : ∀ p t, p ≠ m.objects.currentProcess → m.objects.Has p t → m'.objects.Has p t
  keeps : KeepsSaved code m m'
  processes : m'.objects.processes = m.objects.processes

/-- What a tick has to satisfy is what its call of `process_switch` has to. -/
theorem Calling.switchOk {next : Word} {m₃ : Machine} {u : Task}
    (hok : TickOk code m (some next) e) (hu : m.objects.Has next u)
    (h : Calling code m next e m₃) : SwitchOk m₃ next code.tickSite e.call := by
  have hswitch := hok.switch next rfl
  have hle : 4 * e.call.frame.length + 56 ≤ tickBytes (some next) e := by
    rw [tickBytes]
    omega
  obtain ⟨arg, hwords⟩ := h.words
  refine ⟨?_, ?_, ?_, fun p t ht hp i hi => ?_, fun p t ht hne i j hi hj => ?_⟩
  · rw [h.objects]
    exact ⟨u, hu⟩
  · rw [esp_eq_stackLow m₃ e.call, h.low, h.cr3]
    exact ⟨hwords.1, hwords.2.1, trivial⟩
  · rw [h.low, h.cr3]
    exact (hok.mapped.mono hle).congr h.pages
  · rw [h.objects] at ht hp
    rw [h.low, h.cr3, PagedMemory.translate_congr h.pages, PagedMemory.translate_congr h.pages]
    exact hswitch.stays p t ht hp i (by omega)
  · rw [h.objects] at ht hne
    rw [h.low, h.cr3, PagedMemory.translate_congr h.pages, PagedMemory.translate_congr h.pages]
    exact hok.separate p t ht hne i j (by omega) (Nat.lt_of_lt_of_le hj le_savedBytes)

/-- The words of the tick stay above the frame of the process that ran. -/
theorem Calling.caller_saved {next : Word} {m₃ m₄ : Machine} {t u : Task}
    (hok : TickOk code m (some next) e) (h : Calling code m next e m₃)
    (ht : m.objects.Has m.objects.currentProcess t)
    (hswitched : Switched m₃ t next code.tickSite m₄)
    (hwrites : m₃.mem.WritesIn m₄.mem m₃.cr3 (m₃.stackLow e.call)
      (4 * e.call.frame.length + 48))
    (hu : m₄.objects.Has m.objects.currentProcess u) :
    SavedAt code m₄.mem u.space u.context.esp m.resumePoint := by
  have hswitch := hok.switch next rfl
  obtain ⟨arg, hwords⟩ := h.words
  obtain ⟨lo, hlo⟩ : ∃ lo, lo = m.tickLow (some next) e := ⟨_, rfl⟩
  -- the frame of `process_switch`
  have ht₃ : m₃.objects.Has m₃.objects.currentProcess t := by
    rw [h.objects]
    exact ht
  have hu₃ : m₄.objects.Has m₃.objects.currentProcess u := by
    rw [h.objects]
    exact hu
  have hframe := hswitched.caller ht₃ hu₃
  obtain ⟨c, hobjects, _⟩ := hswitched.objects
  rw [hobjects] at hu₃
  have hspace : u.space = t.space := by
    rw [hu₃.unique ht₃.switched_self]
    rfl
  have hplace : u.context.esp = lo.offset (4 * e.call.frame.length + 8) := by
    have hsaved := hswitched.saved
    rw [hobjects] at hsaved
    rw [ProcessObjects.switched] at hsaved
    simp only [Function.update_self, Option.some.injEq] at hsaved
    rw [hu₃.unique ht₃.switched_self, hlo, ← h.low, ← savedContext_esp m₃ code.tickSite, ← hsaved]
  refine .inr ⟨⟨_, hframe, rfl⟩, next, arg, e.frames.reverse, m.interrupted 32#32 0#32, ?_, ?_, rfl,
    ?_⟩
  · rw [List.length_reverse]
    exact hswitch.depth
  · -- the words above it, in the directory of the process
    have habove := hwords.2
    rw [Word.offset_offset, ← hlo] at habove
    rw [hplace, hspace, Word.offset_offset]
    refine habove.congr fun i hi => ?_
    rw [tickWords_length, List.length_reverse] at hi
    have hbound : 4 * e.call.frame.length + 48 + 4 + i < tickBytes (some next) e := by
      rw [tickBytes]
      omega
    rw [Word.offset_offset,
      show 4 * e.call.frame.length + 8 + 44 + i = 4 * e.call.frame.length + 48 + 4 + i by omega]
    have hstays := hswitch.stays _ t ht (.inl rfl) _ hbound
    rw [← hlo] at hstays
    rw [h.cr3, h.low, ← hlo] at hwrites
    rw [← hwrites.byteAt (d := m.cr3) fun j hj heq => ?_]
    · rw [PagedMemory.byteAt, PagedMemory.byteAt, PagedMemory.translate_congr hwrites.pages,
        PagedMemory.translate_congr hwrites.pages, PagedMemory.translate_congr h.pages,
        PagedMemory.translate_congr h.pages, hstays]
    · rw [PagedMemory.translate_congr h.pages, PagedMemory.translate_congr h.pages, hlo] at heq
      have := hok.mapped.injective _ _ (by rw [tickBytes] at hbound ⊢; omega) hbound heq
      omega
  · have hesp := esp_eq_tickLow m (some next) e
    rw [hplace, Word.offset_offset, ← interrupted_resume m 32#32 0#32, hesp, ← hlo, tickBytes,
      ← hswitch.depth]
    congr 2
    omega

/-- The switch itself keeps them too. -/
theorem Calling.keepsSaved {next : Word} {m₃ m₄ : Machine} (hok : TickOk code m (some next) e)
    (h : Calling code m next e m₃)
    (hwrites : m₃.mem.WritesIn m₄.mem m₃.cr3 (m₃.stackLow e.call)
      (4 * e.call.frame.length + 48)) : KeepsSaved code m₃ m₄ := by
  intro p v hv hne i hi
  rw [h.objects] at hv hne
  rw [h.keeps.bytes hv hne] at hi
  refine hwrites.byteAt fun j hj heq => ?_
  rw [h.cr3, h.low, PagedMemory.translate_congr h.pages, PagedMemory.translate_congr h.pages] at heq
  exact hok.separate p v hv hne j i (by rw [tickBytes]; omega) hi heq

/-- After the switch, on the stack of the process switched to: a new process begins,
and a preempted one leaves its tick. -/
theorem switched_resumes {m₄ : Machine} {f : Word} {r r' : Resume} (hr : Resumed r' m₄)
    (hframe : FrameAt m₄.mem m₄.cr3 f r')
    (hcase : r.eip ≠ code.tickSite ∧ r.eip ≠ code.isrSite ∧ r' = r ∨
      TickAt code m₄.mem m₄.cr3 f r ∧ r'.eip = code.tickSite) :
    ∃ m₅ m', tickReturn code e m₄ = .ok ((), m₅) ∧ isrReturn code.isrSite m₅ = .ok ((), m') ∧
      Resumed r m' ∧ m'.mem = m₄.mem ∧ m'.objects = m₄.objects := by
  rcases hcase with ⟨htick, hisr, rfl⟩ | ⟨htick, heip⟩
  · refine ⟨m₄, m₄, ?_, ?_, hr, rfl, rfl⟩
    · rw [tickReturn, Prog.get_bind_apply, if_neg (by rw [hr.eip]; exact htick)]
      rfl
    · rw [isrReturn, Prog.get_bind_apply, if_neg (by rw [hr.eip]; exact hisr)]
      rfl
  · obtain ⟨next, arg, frames, x, hlen, hwords, hcs, rfl⟩ := htick.words
    obtain ⟨m₅, hm₅⟩ : ∃ m₅ : Machine, m₅ = { m₄ with
      regs := Function.update m₄.regs .esp ((m₄.regs .esp).offset 4) } := ⟨_, rfl⟩
    have hesp₅ : m₅.regs .esp = (f.offset 44).offset 4 := by
      rw [hm₅, ← hframe.esp, ← hr.regs]
      simp
    have hwords₅ : m₅.mem.Holds m₅.cr3 (m₅.regs .esp)
        (frames ++ code.isrSite :: arg :: x.words) := by
      rw [hesp₅, hm₅]
      exact hwords.2
    obtain ⟨m₆, m', hleave, hreturn, hresumed, hmem, _, hobjects⟩ :=
      tickLeave_ok (e := e) hcs hwords₅
    refine ⟨m₆, m', ?_, hreturn, ?_, ?_, ?_⟩
    · rw [tickReturn, Prog.get_bind_apply, if_pos (by rw [hr.eip]; exact heip),
        Prog.bind_of_ok (addEsp_apply 4), ← hm₅, ← hlen, hleave]
    · rw [hesp₅, Word.offset_offset, Word.offset_offset, hlen,
        show 44 + (4 + (60 + 4 * code.depth)) = 108 + 4 * code.depth by omega] at hresumed
      exact hresumed
    · rw [hmem, hm₅]
    · rw [hobjects, hm₅]

/-- **A tick that switches.** The process that ran is suspended where it was
interrupted, and `next` goes on where it was suspended. -/
theorem timerTick_switch_ok {next : Word} {u : Task} {r : Resume} (entry : Word) (hwf : m.Wf)
    (hok : TickOk code m (some next) e) (hu : m.objects.Has next u)
    (hne : next ≠ m.objects.currentProcess)
    (hsaved : SavedAt code m.mem u.space u.context.esp r) :
    ∃ m', timerTick code entry (some next) e m = .ok ((), m') ∧ Resumed r m' ∧
      TickSwitched code m next m' := by
  obtain ⟨m₁, m₂, m₃, hrun, henter, hpushes, hcalling⟩ := timerTick_calls entry hok
  have hwf₃ : m₃.Wf := hwf.keep hcalling.objects hcalling.keeps.undisturbed
  have hok₃ := hcalling.switchOk hok hu
  obtain ⟨t, ht⟩ := hwf.current
  have ht₃ : m₃.objects.Has m₃.objects.currentProcess t := by
    rw [hcalling.objects]
    exact ht
  have hu₃ : m₃.objects.Has next u := by
    rw [hcalling.objects]
    exact hu
  have hother : next ≠ m₃.objects.currentProcess := by
    rw [hcalling.objects]
    exact hne
  -- the frame of `next` at the call
  obtain ⟨r', hframe, hcase⟩ : ∃ r', FrameAt m₃.mem u.space u.context.esp r' ∧
      (r.eip ≠ code.tickSite ∧ r.eip ≠ code.isrSite ∧ r' = r ∨
        TickAt code m₃.mem u.space u.context.esp r ∧ r'.eip = code.tickSite) := by
    rcases hsaved.congr (hcalling.keeps next u hu hne) with
      ⟨hframe, hfresh⟩ | htick
    · exact ⟨r, hframe, .inl ⟨hfresh.1, hfresh.2, rfl⟩⟩
    · obtain ⟨r', hframe, heip⟩ := htick.frame
      exact ⟨r', hframe, .inr ⟨htick, heip⟩⟩
  have hgoes : m₃.GoesOnWith next code.tickSite r' := by
    rw [GoesOnWith, if_neg hother]
    intro v hv
    rw [hv.unique hu₃]
    exact hframe
  -- the switch
  obtain ⟨m₄, hcall, hswitched, hresumed⟩ :=
    processSwitch_ok code.switchSite hwf₃ ht₃ hok₃ hgoes
  obtain ⟨hwrites, hcr₄⟩ :=
    processSwitch_places code.switchSite hwf₃ ht₃ hok₃ hu₃ hother hcall
  have hkeeps₃ := hcalling.keepsSaved hok hwrites
  -- on the stack of `next`
  obtain ⟨m₅, m', hback, hreturn, hresumed', hmem, hobjects⟩ :=
    switched_resumes (e := e) hresumed
      (by rw [hcr₄]; exact hframe.congr (hswitched.others next u hu₃ hother))
      (hcase.imp_right fun h => ⟨by rw [hcr₄]; exact h.1.congr (hkeeps₃ next u hu₃ hother), h.2⟩)
  refine ⟨m', ?_, hresumed', ?_⟩
  · obtain ⟨_, m₂', hpush, hpush'⟩ := Prog.bind_eq_ok.mp hpushes
    have hpit : pitHandler code (some next) e m₁ = .ok ((), m₅) := by
      rw [pitHandler, Prog.bind_of_ok henter]
      rw [callProcessSwitch, Prog.bind_of_ok hpush, Prog.bind_of_ok hpush', Prog.bind_of_ok hcall,
        hback]
    rw [hrun, Prog.bind_of_ok hpit, hreturn]
  · have hcurrent := hswitched.current
    obtain ⟨c, hobjects₄, _⟩ := hswitched.objects
    refine ⟨?_, ?_, fun v hv => ?_, fun p v hne hv => ?_, fun p v hv hne i hi => ?_, ?_⟩
    · rw [hobjects, hcurrent]
    · refine (hswitched.wf hwf₃ ht₃ hok₃.known).keep hobjects fun p v hv hne i hi => ?_
      rw [hmem]
    · rw [hobjects] at hv
      rw [hmem]
      exact hcalling.caller_saved hok ht hswitched hwrites hv
    · rw [hobjects, hobjects₄]
      rw [← hcalling.objects] at hv hne
      exact hv.switched_other fun heq => hne (hwf₃.contexts _ _ _ _ hv ht₃ heq)
    · rw [hmem]
      exact (hcalling.keeps.trans hcalling.objects hkeeps₃) p v hv hne i hi
    · rw [hobjects, hobjects₄, ← hcalling.objects]
      rfl

end Effect
end Machine
end MyOs
