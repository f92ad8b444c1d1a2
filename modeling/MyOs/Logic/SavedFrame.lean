import MyOs.Processes.ContextSwitch

/-!
# The frame of a suspended process

Eleven words: what `pushad`, `pushfd` and `push ebp` leave below the return
address, which is also what `process_create_stack` writes. `frameWords` is the
frame of a process that goes on with given registers; each part of
`process_switch` has one lemma about the words on the stack.
-/

namespace MyOs

theorem Eflags.ofWord_word (f : Eflags) : Eflags.ofWord f.word = f := by
  obtain ⟨w, hfixed⟩ := f
  have hword : w &&& flagsLoaded ||| 0x2#32 = w := by
    rw [← hfixed, ← BitVec.and_or_distrib_left,
      show flagsLoaded ||| ~~~flagsLoaded = BitVec.allOnes 32 by decide, BitVec.and_allOnes]
  simp only [Eflags.ofWord, hword]

/-- The objects of a process, with the addresses that lead to them. -/
structure Task where
  pcbAddr : Word
  pcb : Pcb
  context : Context
  vmContext : VmContext

namespace Task

/-- The physical address of its directory. -/
def space (t : Task) : Word := t.vmContext.pageDirPhysAddr

end Task

/-- The objects of the process at `p` are `t`. -/
structure ProcessObjects.Has (o : ProcessObjects) (p : Word) (t : Task) : Prop where
  process : o.processes p = some t.pcbAddr
  pcb : o.pcbs t.pcbAddr = some t.pcb
  context : o.contexts t.pcb.context = some t.context
  vmContext : o.vmContexts t.pcb.vmContext = some t.vmContext
  vmContext_ne : t.pcb.vmContext ≠ 0

theorem ProcessObjects.Has.unique {o : ProcessObjects} {p : Word} {t u : Task} (ht : o.Has p t)
    (hu : o.Has p u) : t = u := by
  obtain ⟨pcbAddr, pcb, context, vmContext⟩ := t
  obtain ⟨pcbAddr', pcb', context', vmContext'⟩ := u
  obtain rfl : pcbAddr = pcbAddr' := Option.some.inj (ht.process.symm.trans hu.process)
  obtain rfl : pcb = pcb' := Option.some.inj (ht.pcb.symm.trans hu.pcb)
  obtain rfl : context = context' := Option.some.inj (ht.context.symm.trans hu.context)
  obtain rfl : vmContext = vmContext' := Option.some.inj (ht.vmContext.symm.trans hu.vmContext)
  rfl

namespace Machine

/-- What a process goes on with: its registers, ESP the one after the return,
its flags, and the address. -/
structure Resume where
  regs : Reg → Word
  eflags : Eflags
  eip : Word

/-- The process goes on in `m`. -/
structure Resumed (r : Resume) (m : Machine) : Prop where
  regs : m.regs = r.regs
  eflags : m.eflags = r.eflags
  eip : m.eip = r.eip

/-- The frame, with the words of EBP and ESP that `popad` brings no effect of. -/
def frameWords (r : Resume) (ebp esp : Word) : List Word :=
  [r.regs .edi, r.regs .esi, ebp, esp, r.regs .ebx, r.regs .edx, r.regs .ecx, r.regs .eax,
    r.eflags.word, r.regs .ebp, r.eip]

/-- The frame at `f` in the space `c` is that of `r`. -/
structure FrameAt (mem : PagedMemory Word) (c f : Word) (r : Resume) : Prop where
  words : ∃ ebp esp, mem.Holds c f (frameWords r ebp esp)
  esp : r.regs .esp = f.offset 44

theorem FrameAt.congr {mem mem' : PagedMemory Word} {c d f : Word} {r : Resume}
    (h : FrameAt mem c f r)
    (hbytes : ∀ i, i < 44 → mem'.byteAt d (f.offset i) = mem.byteAt c (f.offset i)) :
    FrameAt mem' d f r := by
  obtain ⟨⟨ebp, esp, hwords⟩, hesp⟩ := h
  exact ⟨⟨ebp, esp, hwords.congr hbytes⟩, hesp⟩

/-! ## Instructions -/

section Instructions

variable {m : Machine}

@[simp] theorem getReg_bind_apply {β : Type} (r : Reg) (f : Word → Prog Machine β) :
    (getReg r >>= f) m = f (m.regs r) m := rfl

@[simp] theorem setReg_bind_apply {β : Type} (r : Reg) (w : Word) (f : Unit → Prog Machine β) :
    (setReg r w >>= f) m = f () { m with regs := Function.update m.regs r w } := rfl

@[simp] theorem setReg_apply (r : Reg) (w : Word) :
    setReg r w m = .ok ((), { m with regs := Function.update m.regs r w }) := rfl

@[simp] theorem setContext_apply (p : Word) (context : Context) :
    setContext p context m = .ok ((), { m with objects := { m.objects with
      contexts := Function.update m.objects.contexts p (some context) } }) := rfl

theorem load_ok {v w : Word} (h : m.mem.readWord m.cr3 v = some w) : load v m = .ok (w, m) := by
  rw [load, h]

theorem readObject_ok {α : Type} {objects : ProcessObjects → Word → Option α} {p : Word} {a : α}
    (h : objects m.objects p = some a) : readObject objects p m = .ok (a, m) := by
  rw [readObject, h]

theorem pop_ok {w : Word} {ws : List Word} (h : m.mem.Holds m.cr3 (m.regs .esp) (w :: ws)) :
    pop m = .ok (w,
      { m with regs := Function.update m.regs .esp ((m.regs .esp).offset 4) }) := by
  rw [pop, getReg_bind_apply, Prog.bind_of_ok (load_ok h.1)]
  rfl

/-- `m'` is `m` with these registers. -/
structure SetRegs (m : Machine) (regs : Reg → Word) (m' : Machine) : Prop where
  regs : m'.regs = regs
  eflags : m'.eflags = m.eflags
  mem : m'.mem = m.mem
  cr3 : m'.cr3 = m.cr3
  objects : m'.objects = m.objects

theorem popReg_ok {r : Reg} {w : Word} {ws : List Word} (hr : r ≠ .esp)
    (h : m.mem.Holds m.cr3 (m.regs .esp) (w :: ws)) :
    ∃ m', popReg r m = .ok ((), m') ∧
      m.SetRegs (Function.update (Function.update m.regs .esp ((m.regs .esp).offset 4)) r w) m' ∧
      m'.mem.Holds m'.cr3 (m'.regs .esp) ws := by
  have hrun : popReg r m = .ok ((), { m with
      regs := Function.update (Function.update m.regs .esp ((m.regs .esp).offset 4)) r w }) := by
    rw [popReg, Prog.bind_of_ok (pop_ok h)]
    rfl
  refine ⟨_, hrun, ⟨rfl, rfl, rfl, rfl, rfl⟩, ?_⟩
  simp only [Function.update_of_ne hr.symm, Function.update_self]
  exact h.2

end Instructions

/-! ## Pushing -/

section Push

variable {m : Machine} {lo : Word} {n k : Nat} {ws : List Word}

theorem push_ok (hr : m.mem.Region m.cr3 lo n) (hlen : k + 4 + 4 * ws.length ≤ n)
    (hesp : m.regs .esp = lo.offset (k + 4)) (h : m.mem.Holds m.cr3 (lo.offset (k + 4)) ws)
    (w : Word) :
    ∃ mem, push w m = .ok ((), { m with
        mem := mem
        regs := Function.update m.regs .esp (lo.offset k) }) ∧
      m.mem.WritesIn mem m.cr3 (lo.offset k) 4 ∧ mem.Holds m.cr3 (lo.offset k) (w :: ws) := by
  obtain ⟨mem, hrun, hwrites, hholds⟩ := PagedMemory.push_ok hr hlen h w
  refine ⟨mem, ?_, hwrites, hholds⟩
  have hbelow : m.regs .esp - 4#32 = lo.offset k := by
    rw [hesp, Word.offset, Word.offset, BitVec.ofNat_add]
    bv_omega
  have hstore : store (lo.offset k) w m = .ok ((), { m with mem := mem }) := by
    rw [store, hrun]
  rw [push, getReg_bind_apply, hbelow, Prog.bind_of_ok hstore]
  rfl

/-- Pushing several words: they lie in reverse, below what was there. -/
theorem pushAll_ok (new : List Word) {top : Nat} (hr : m.mem.Region m.cr3 lo n)
    (hlen : k + 4 * new.length + 4 * ws.length ≤ n) (htop : k + 4 * new.length ≤ top)
    (hesp : m.regs .esp = lo.offset (k + 4 * new.length))
    (h : m.mem.Holds m.cr3 (lo.offset (k + 4 * new.length)) ws) :
    ∃ mem, pushAll new m = .ok ((), { m with
        mem := mem
        regs := Function.update m.regs .esp (lo.offset k) }) ∧
      m.mem.WritesIn mem m.cr3 lo top ∧ mem.Holds m.cr3 (lo.offset k) (new.reverse ++ ws) := by
  induction new generalizing m ws with
  | nil =>
      refine ⟨m.mem, ?_, .refl, h⟩
      have hsame : Function.update m.regs .esp (lo.offset k) = m.regs := by
        rw [show lo.offset k = m.regs .esp from hesp.symm, Function.update_eq_self]
      rw [hsame]
      rfl
  | cons w new ih =>
      rw [List.length_cons] at hlen htop hesp h
      rw [show k + 4 * (new.length + 1) = k + 4 * new.length + 4 by omega] at hesp h
      obtain ⟨mem₁, hpush, hwrites₁, hholds₁⟩ := push_ok hr (by omega) hesp h w
      let m₁ : Machine := { m with
        mem := mem₁
        regs := Function.update m.regs .esp (lo.offset (k + 4 * new.length)) }
      have hesp₁ : m₁.regs .esp = lo.offset (k + 4 * new.length) := by
        simp [m₁]
      obtain ⟨mem, hrun, hwrites, hholds⟩ := ih (m := m₁)
        (hr.congr hwrites₁.pages) (by simp only [List.length_cons]; omega) (by omega) hesp₁ hholds₁
      refine ⟨mem, ?_, (hwrites₁.widen (by omega)).trans hwrites, ?_⟩
      · rw [pushAll, Prog.bind_of_ok hpush, hrun]
        simp only [m₁, Function.update_idem]
      · rw [List.reverse_cons, List.append_assoc]
        exact hholds

/-- The frame of the caller, below its return address. -/
theorem saveFrame_ok {top : Nat} (hr : m.mem.Region m.cr3 lo n)
    (hlen : k + 40 + 4 * ws.length ≤ n) (htop : k + 40 ≤ top)
    (hesp : m.regs .esp = lo.offset (k + 40)) (h : m.mem.Holds m.cr3 (lo.offset (k + 40)) ws) :
    ∃ mem, saveFrame m = .ok ((), { m with
        mem := mem
        regs := Function.update (Function.update m.regs .ebp (lo.offset (k + 36))) .esp
          (lo.offset k) }) ∧
      m.mem.WritesIn mem m.cr3 lo top ∧
      mem.Holds m.cr3 (lo.offset k)
        ([m.regs .edi, m.regs .esi, lo.offset (k + 36), lo.offset (k + 32), m.regs .ebx,
          m.regs .edx, m.regs .ecx, m.regs .eax, m.eflags.word, m.regs .ebp] ++ ws) := by
  -- push ebp
  obtain ⟨mem₁, hpush₁, hwrites₁, hholds₁⟩ :=
    push_ok (k := k + 36) hr (by omega) hesp h (m.regs .ebp)
  -- mov ebp, esp
  let m₁ : Machine := { m with
    mem := mem₁
    regs := Function.update (Function.update m.regs .esp (lo.offset (k + 36))) .ebp
      (lo.offset (k + 36)) }
  have hr₁ : m₁.mem.Region m₁.cr3 lo n := hr.congr hwrites₁.pages
  have hesp₁ : m₁.regs .esp = lo.offset (k + 32 + 4) := by
    simp [m₁]
  -- pushfd
  obtain ⟨mem₂, hpush₂, hwrites₂, hholds₂⟩ :=
    push_ok (m := m₁) (k := k + 32) hr₁
      (by simp only [List.length_cons]; omega) hesp₁ hholds₁ m.eflags.word
  let m₂ : Machine := { m₁ with
    mem := mem₂
    regs := Function.update m₁.regs .esp (lo.offset (k + 32)) }
  have hr₂ : m₂.mem.Region m₂.cr3 lo n := hr₁.congr hwrites₂.pages
  have hesp₂ : m₂.regs .esp = lo.offset (k + 32) := by
    simp [m₂]
  -- pushad
  obtain ⟨mem₃, hpush₃, hwrites₃, hholds₃⟩ :=
    pushAll_ok (m := m₂) (k := k)
      [m₂.regs .eax, m₂.regs .ecx, m₂.regs .edx, m₂.regs .ebx, m₂.regs .esp, m₂.regs .ebp,
        m₂.regs .esi, m₂.regs .edi] hr₂ (by simp only [List.length_cons, List.length_nil]; omega)
      (show k + 4 * 8 ≤ top by omega) hesp₂ hholds₂
  refine ⟨mem₃, ?_, ((hwrites₁.widen (by omega)).trans (hwrites₂.widen (by omega))).trans
    hwrites₃, ?_⟩
  · rw [saveFrame, getReg_bind_apply, Prog.bind_of_ok hpush₁, getReg_bind_apply,
      setReg_bind_apply]
    simp only [Function.update_self]
    rw [Prog.bind_of_ok (show pushfd m₁ = .ok ((), m₂) from hpush₂)]
    change pushAll _ m₂ = _
    rw [hpush₃]
    have hregs : Function.update m₂.regs .esp (lo.offset k) =
        Function.update (Function.update m.regs .ebp (lo.offset (k + 36))) .esp
          (lo.offset k) := by
      funext q
      cases q <;> simp [m₂, m₁]
    rw [hregs]
  · simpa [m₂, m₁] using hholds₃

end Push

/-! ## Popping -/

/-- `popad` on the eight words `pushad` leaves. -/
theorem popad_ok {m : Machine} {edi esi ebp esp ebx edx ecx eax : Word} {ws : List Word}
    (h : m.mem.Holds m.cr3 (m.regs .esp)
      ([edi, esi, ebp, esp, ebx, edx, ecx, eax] ++ ws)) :
    ∃ m', popad m = .ok ((), m') ∧
      m.SetRegs (fun
        | .eax => eax | .ecx => ecx | .edx => edx | .ebx => ebx
        | .esp => (m.regs .esp).offset 32 | .ebp => ebp | .esi => esi | .edi => edi) m' ∧
      m'.mem.Holds m'.cr3 (m'.regs .esp) ws := by
  obtain ⟨m₁, hrun₁, hset₁, h₁⟩ := popReg_ok (r := .edi) (by decide) h
  obtain ⟨m₂, hrun₂, hset₂, h₂⟩ := popReg_ok (r := .esi) (by decide) h₁
  obtain ⟨m₃, hrun₃, hset₃, h₃⟩ := popReg_ok (r := .ebp) (by decide) h₂
  -- the stack pointer that was pushed is skipped
  obtain ⟨m₄, hm₄⟩ : ∃ m₄ : Machine, m₄ = { m₃ with
    regs := Function.update m₃.regs .esp ((m₃.regs .esp).offset 4) } := ⟨_, rfl⟩
  have h₄ : m₄.mem.Holds m₄.cr3 (m₄.regs .esp) ([ebx, edx, ecx, eax] ++ ws) := by
    rw [hm₄]
    simp only [Function.update_self]
    exact h₃.2
  obtain ⟨m₅, hrun₅, hset₅, h₅⟩ := popReg_ok (r := .ebx) (by decide) h₄
  obtain ⟨m₆, hrun₆, hset₆, h₆⟩ := popReg_ok (r := .edx) (by decide) h₅
  obtain ⟨m₇, hrun₇, hset₇, h₇⟩ := popReg_ok (r := .ecx) (by decide) h₆
  obtain ⟨m₈, hrun₈, hset₈, h₈⟩ := popReg_ok (r := .eax) (by decide) h₇
  refine ⟨m₈, ?_, ⟨?_, ?_, ?_, ?_, ?_⟩, h₈⟩
  · rw [popad, Prog.bind_of_ok hrun₁, Prog.bind_of_ok hrun₂, Prog.bind_of_ok hrun₃,
      getReg_bind_apply, setReg_bind_apply, ← hm₄, Prog.bind_of_ok hrun₅, Prog.bind_of_ok hrun₆,
      Prog.bind_of_ok hrun₇, hrun₈]
  · funext q
    rw [hset₈.regs, hset₇.regs, hset₆.regs, hset₅.regs, hm₄, hset₃.regs, hset₂.regs, hset₁.regs]
    cases q <;> simp
  · rw [hset₈.eflags, hset₇.eflags, hset₆.eflags, hset₅.eflags, hm₄, hset₃.eflags, hset₂.eflags,
      hset₁.eflags]
  · rw [hset₈.mem, hset₇.mem, hset₆.mem, hset₅.mem, hm₄, hset₃.mem, hset₂.mem, hset₁.mem]
  · rw [hset₈.cr3, hset₇.cr3, hset₆.cr3, hset₅.cr3, hm₄, hset₃.cr3, hset₂.cr3, hset₁.cr3]
  · rw [hset₈.objects, hset₇.objects, hset₆.objects, hset₅.objects, hm₄, hset₃.objects,
      hset₂.objects, hset₁.objects]

/-- `popad`, `popfd`, `pop ebp` and `ret` on a frame. -/
theorem popFrame_ok {m : Machine} {r : Resume} (h : FrameAt m.mem m.cr3 (m.regs .esp) r) :
    ∃ m', (do popad; popfd; popReg .ebp; ret) m = .ok ((), m') ∧ Resumed r m' ∧
      m'.mem = m.mem ∧ m'.objects = m.objects := by
  obtain ⟨⟨ebp, esp, hwords⟩, hesp⟩ := h
  obtain ⟨m₁, hpopad, hset₁, h₁⟩ := popad_ok hwords
  obtain ⟨m₂, hm₂⟩ : ∃ m₂ : Machine, m₂ = { m₁ with
    regs := Function.update m₁.regs .esp ((m₁.regs .esp).offset 4)
    eflags := r.eflags } := ⟨_, rfl⟩
  have hpopfd : popfd m₁ = .ok ((), m₂) := by
    rw [popfd, Prog.bind_of_ok (pop_ok h₁), Eflags.ofWord_word, hm₂]
    rfl
  have h₂ : m₂.mem.Holds m₂.cr3 (m₂.regs .esp) [r.regs .ebp, r.eip] := by
    rw [hm₂]
    simp only [Function.update_self]
    exact h₁.2
  obtain ⟨m₃, hpop, hset₃, h₃⟩ := popReg_ok (r := .ebp) (by decide) h₂
  obtain ⟨m₄, hm₄⟩ : ∃ m₄ : Machine, m₄ = { m₃ with
    regs := Function.update m₃.regs .esp ((m₃.regs .esp).offset 4)
    eip := r.eip } := ⟨_, rfl⟩
  have hret : ret m₃ = .ok ((), m₄) := by
    rw [ret, Prog.bind_of_ok (pop_ok h₃), hm₄]
    rfl
  refine ⟨m₄, ?_, ⟨?_, ?_, ?_⟩, ?_, ?_⟩
  · rw [Prog.bind_of_ok hpopad, Prog.bind_of_ok hpopfd, Prog.bind_of_ok hpop, hret]
  · funext q
    rw [hm₄]
    simp only [hset₃.regs, hm₂, hset₁.regs]
    cases q <;> simp [hesp]
  · rw [hm₄]
    simp only [hset₃.eflags, hm₂]
  · rw [hm₄]
  · rw [hm₄]
    simp only [hset₃.mem, hm₂, hset₁.mem]
  · rw [hm₄]
    simp only [hset₃.objects, hm₂, hset₁.objects]

/-! ## The parts of `process_switch` -/

section Parts

variable {m : Machine} {t : Task}

/-- EAX and ECX after following `current_process`. -/
theorem loadPcb_ok (h : m.objects.Has m.objects.currentProcess t) :
    ∃ m', loadPcb m = .ok ((), m') ∧ m.SetRegs (Function.update (Function.update m.regs .eax
      m.objects.currentProcess) .ecx t.pcbAddr) m' := by
  obtain ⟨m₁, hm₁⟩ : ∃ m₁ : Machine, m₁ = { m with
    regs := Function.update m.regs .eax m.objects.currentProcess } := ⟨_, rfl⟩
  have heax : m₁.regs .eax = m.objects.currentProcess := by simp [hm₁]
  have hpcb : readObject ProcessObjects.processes (m₁.regs .eax) m₁ = .ok (t.pcbAddr, m₁) := by
    rw [heax]
    refine readObject_ok ?_
    rw [hm₁]
    exact h.process
  refine ⟨{ m₁ with regs := Function.update m₁.regs .ecx t.pcbAddr }, ?_, ?_, ?_, ?_, ?_, ?_⟩
  · rw [loadPcb, Prog.get_bind_apply, setReg_bind_apply, ← hm₁, getReg_bind_apply,
      Prog.bind_of_ok hpcb, setReg_apply]
  all_goals rw [hm₁]

theorem loadContext_ok (h : m.objects.Has m.objects.currentProcess t) :
    ∃ m', loadContext m = .ok ((), m') ∧ m.SetRegs (Function.update (Function.update m.regs .eax
      m.objects.currentProcess) .ecx t.pcb.context) m' := by
  obtain ⟨m₁, hrun, hset⟩ := loadPcb_ok h
  have hecx : m₁.regs .ecx = t.pcbAddr := by simp [hset.regs]
  have hpcb : readObject ProcessObjects.pcbs (m₁.regs .ecx) m₁ = .ok (t.pcb, m₁) := by
    rw [hecx]
    refine readObject_ok ?_
    rw [hset.objects]
    exact h.pcb
  refine ⟨{ m₁ with regs := Function.update m₁.regs .ecx t.pcb.context }, ?_, ?_, hset.eflags,
    hset.mem, hset.cr3, hset.objects⟩
  · rw [loadContext, Prog.bind_of_ok hrun, getReg_bind_apply, Prog.bind_of_ok hpcb, setReg_apply]
  · simp only [hset.regs, Function.update_idem]

/-- While the context at `addr` is being written, and is `c` by now: nothing else
of `m₀` has changed but EAX, ECX and EDX. -/
structure Saving (m₀ : Machine) (addr : Word) (c : Context) (m : Machine) : Prop where
  mem : m.mem = m₀.mem
  cr3 : m.cr3 = m₀.cr3
  esp : m.regs .esp = m₀.regs .esp
  ebp : m.regs .ebp = m₀.regs .ebp
  ecx : m.regs .ecx = addr
  objects : m.objects = { m₀.objects with
    contexts := Function.update m₀.objects.contexts addr (some c) }

/-- One field: a word of the stack is copied. -/
theorem saveField_ok {m₀ : Machine} {addr w : Word} {c : Context} {base : Reg} (off : Nat)
    (set : Context → Word → Context) (h : Saving m₀ addr c m) (hbase : base = .esp ∨ base = .ebp)
    (hw : m₀.mem.readWord m₀.cr3 ((m₀.regs base).offset off) = some w) :
    ∃ m', saveField base off set m = .ok ((), m') ∧ Saving m₀ addr (set c w) m' := by
  have hregs : m.regs base = m₀.regs base := by
    rcases hbase with rfl | rfl
    · exact h.esp
    · exact h.ebp
  have hload : load ((m.regs base).offset off) m = .ok (w, m) :=
    load_ok (by rw [hregs, h.mem, h.cr3, hw])
  obtain ⟨m₁, hm₁⟩ : ∃ m₁ : Machine, m₁ = { m with regs := Function.update m.regs .edx w } :=
    ⟨_, rfl⟩
  have hecx : m₁.regs .ecx = addr := by simp [hm₁, h.ecx]
  have hobjects₁ : m₁.objects = m.objects := by rw [hm₁]
  have hcontext : readObject ProcessObjects.contexts (m₁.regs .ecx) m₁ = .ok (c, m₁) := by
    refine readObject_ok ?_
    rw [hecx, hobjects₁, h.objects]
    exact Function.update_self ..
  refine ⟨{ m₁ with objects := { m₁.objects with
    contexts := Function.update m₁.objects.contexts addr (some (set c w)) } }, ?_, ?_⟩
  · rw [saveField, getReg_bind_apply, Prog.bind_of_ok hload, setReg_bind_apply, ← hm₁,
      getReg_bind_apply, Prog.bind_of_ok hcontext, setContext_apply, hecx]
  · exact
      { mem := by rw [hm₁]; exact h.mem
        cr3 := by rw [hm₁]; exact h.cr3
        esp := by simp [hm₁, h.esp]
        ebp := by simp [hm₁, h.ebp]
        ecx := hecx
        objects := by simp only [hobjects₁, h.objects, Function.update_idem] }

/-- The context of the current process gets the words of the frame: the one at
offset 8 for EBP and the one at 36 for EFLAGS. -/
theorem saveContext_ok {edi esi ebp esp ebx edx ecx eax eflags old ret : Word} {ws : List Word}
    (ht : m.objects.Has m.objects.currentProcess t)
    (hwords : m.mem.Holds m.cr3 (m.regs .esp)
      ([edi, esi, ebp, esp, ebx, edx, ecx, eax, eflags, old, ret] ++ ws))
    (hebp : m.regs .ebp = (m.regs .esp).offset 36) :
    ∃ m', saveContext m = .ok ((), m') ∧ Saving m t.pcb.context
      ⟨edi, esi, ebp, m.regs .esp, ebx, edx, ecx, eax, ret, old⟩ m' := by
  have hword {j : Nat} {w : Word}
      (hw : ([edi, esi, ebp, esp, ebx, edx, ecx, eax, eflags, old, ret] ++ ws)[j]? = some w) :
      m.mem.readWord m.cr3 ((m.regs .esp).offset (4 * j)) = some w := by
    obtain ⟨hj, rfl⟩ := List.getElem?_eq_some_iff.mp hw
    exact PagedMemory.holds_iff.mp hwords j hj
  have hret : m.mem.readWord m.cr3 ((m.regs .ebp).offset 4) = some ret := by
    rw [hebp, Word.offset_offset]
    exact hword (j := 10) rfl
  obtain ⟨m₁, hrun₁, hset₁⟩ := loadContext_ok ht
  have hecx : m₁.regs .ecx = t.pcb.context := by simp [hset₁.regs]
  have hcontext : readObject ProcessObjects.contexts (m₁.regs .ecx) m₁ = .ok (t.context, m₁) := by
    refine readObject_ok ?_
    rw [hecx, hset₁.objects]
    exact ht.context
  obtain ⟨m₂, hm₂⟩ : ∃ m₂ : Machine, m₂ = { m₁ with objects := { m₁.objects with
    contexts := Function.update m₁.objects.contexts (m₁.regs .ecx)
      (some { t.context with esp := m₁.regs .esp }) } } := ⟨_, rfl⟩
  have h₂ : Saving m t.pcb.context { t.context with esp := m.regs .esp } m₂ :=
    { mem := by rw [hm₂]; exact hset₁.mem
      cr3 := by rw [hm₂]; exact hset₁.cr3
      esp := by simp [hm₂, hset₁.regs]
      ebp := by simp [hm₂, hset₁.regs]
      ecx := by rw [hm₂]; exact hecx
      objects := by simp [hm₂, hset₁.objects, hset₁.regs] }
  obtain ⟨m₃, hrun₃, h₃⟩ := saveField_ok 0 (fun context w => { context with edi := w }) h₂
    (.inl rfl) (hword (j := 0) rfl)
  obtain ⟨m₄, hrun₄, h₄⟩ := saveField_ok 4 (fun context w => { context with esi := w }) h₃
    (.inl rfl) (hword (j := 1) rfl)
  obtain ⟨m₅, hrun₅, h₅⟩ := saveField_ok 8 (fun context w => { context with ebp := w }) h₄
    (.inl rfl) (hword (j := 2) rfl)
  obtain ⟨m₆, hrun₆, h₆⟩ := saveField_ok 16 (fun context w => { context with ebx := w }) h₅
    (.inl rfl) (hword (j := 4) rfl)
  obtain ⟨m₇, hrun₇, h₇⟩ := saveField_ok 20 (fun context w => { context with edx := w }) h₆
    (.inl rfl) (hword (j := 5) rfl)
  obtain ⟨m₈, hrun₈, h₈⟩ := saveField_ok 24 (fun context w => { context with ecx := w }) h₇
    (.inl rfl) (hword (j := 6) rfl)
  obtain ⟨m₉, hrun₉, h₉⟩ := saveField_ok 28 (fun context w => { context with eax := w }) h₈
    (.inl rfl) (hword (j := 7) rfl)
  obtain ⟨m₁₀, hrun₁₀, h₁₀⟩ := saveField_ok 36 (fun context w => { context with eflags := w }) h₉
    (.inl rfl) (hword (j := 9) rfl)
  obtain ⟨m₁₁, hrun₁₁, h₁₁⟩ := saveField_ok 4 (fun context w => { context with eip := w }) h₁₀
    (.inr rfl) hret
  refine ⟨m₁₁, ?_, h₁₁⟩
  rw [saveContext, Prog.bind_of_ok hrun₁, getReg_bind_apply, getReg_bind_apply,
    Prog.bind_of_ok hcontext]
  change (saveField .esp 0 _ >>= _) { m₁ with objects := { m₁.objects with
    contexts := Function.update m₁.objects.contexts (m₁.regs .ecx)
      (some { t.context with esp := m₁.regs .esp }) } } = _
  rw [← hm₂, Prog.bind_of_ok hrun₃, Prog.bind_of_ok hrun₄, Prog.bind_of_ok hrun₅,
    Prog.bind_of_ok hrun₆, Prog.bind_of_ok hrun₇, Prog.bind_of_ok hrun₈, Prog.bind_of_ok hrun₉,
    Prog.bind_of_ok hrun₁₀, hrun₁₁]

theorem setCurrentProcess_ok {next : Word}
    (h : m.mem.readWord m.cr3 ((m.regs .ebp).offset 8) = some next) :
    ∃ m', setCurrentProcess m = .ok ((), m') ∧ m'.mem = m.mem ∧ m'.cr3 = m.cr3 ∧
      m'.regs .esp = m.regs .esp ∧ m'.objects = { m.objects with currentProcess := next } := by
  refine ⟨{ m with
    regs := Function.update m.regs .edx next
    objects := { m.objects with currentProcess := next } }, ?_, rfl, rfl, ?_, rfl⟩
  · rw [setCurrentProcess, getReg_bind_apply, Prog.bind_of_ok (load_ok h), setReg_bind_apply]
    rfl
  · simp

theorem vmmSwitchVmContext_ok {p : Word} {c : VmContext} (hne : p ≠ 0)
    (h : m.objects.vmContexts p = some c) :
    vmmSwitchVmContext p m =
      .ok ((), { m with currentDirectory := c.pageDir, cr3 := c.pageDirPhysAddr }) := by
  rw [vmmSwitchVmContext, if_neg hne, Prog.bind_of_ok (readObject_ok h)]
  rfl

section Call

variable {lo : Word} {n : Nat} {ws : List Word}

/-- The call of `vmm_switch_vm_context` comes back when the stack it was made on
is mapped alike in the directory switched to. -/
theorem callVmmSwitchVmContext_ok {p : Word} {c : VmContext} (site : Word) (call : CallEffect)
    (hne : p ≠ 0) (hc : m.objects.vmContexts p = some c) (hr : m.mem.Region m.cr3 lo n)
    (hlen : 4 * call.frame.length + 8 + 4 * ws.length ≤ n)
    (hesp : m.regs .esp = lo.offset (4 * call.frame.length + 4))
    (hholds : m.mem.Holds m.cr3 (lo.offset (4 * call.frame.length + 4)) (p :: ws))
    (hstays : ∀ i, i < n → m.mem.translate c.pageDirPhysAddr (lo.offset i) =
      m.mem.translate m.cr3 (lo.offset i)) :
    ∃ m', callVmmSwitchVmContext site call m = .ok ((), m') ∧ m'.eip = site ∧
      m'.cr3 = c.pageDirPhysAddr ∧ m'.objects = m.objects ∧
      m.mem.WritesIn m'.mem m.cr3 lo (4 * call.frame.length + 8) ∧
      m'.mem.Holds m.cr3 (lo.offset (4 * call.frame.length + 4)) (p :: ws) := by
  -- the return address
  obtain ⟨mem₁, hpush₁, hwrites₁, hholds₁⟩ :=
    push_ok hr (by simp only [List.length_cons]; omega) hesp hholds site
  obtain ⟨m₁, hm₁⟩ : ∃ m₁ : Machine, m₁ = { m with
    mem := mem₁
    regs := Function.update m.regs .esp (lo.offset (4 * call.frame.length)) } := ⟨_, rfl⟩
  have hmem₁ : m₁.mem = mem₁ := by rw [hm₁]
  have hcr₁ : m₁.cr3 = m.cr3 := by rw [hm₁]
  have hesp₁ : m₁.regs .esp = lo.offset (4 * call.frame.length) := by simp [hm₁]
  rw [← hm₁] at hpush₁
  rw [← hmem₁, ← hcr₁] at hwrites₁ hholds₁
  rw [hcr₁] at hwrites₁
  have hr₁ : m₁.mem.Region m₁.cr3 lo n := by
    rw [hcr₁]
    exact hr.congr hwrites₁.pages
  have harg : load ((m₁.regs .esp).offset 4) m₁ = .ok (p, m₁) := by
    rw [hesp₁]
    exact load_ok hholds₁.2.1
  -- the callee's frame
  obtain ⟨mem₂, hpush₂, hwrites₂, hholds₂⟩ :=
    pushAll_ok call.frame (k := 0) hr₁ (by simp only [List.length_cons]; omega)
      (show 0 + 4 * call.frame.length ≤ 4 * call.frame.length + 8 by omega)
      (by rw [Nat.zero_add]; exact hesp₁) ((Nat.zero_add (4 * call.frame.length)).symm ▸ hholds₁)
  obtain ⟨m₂, hm₂⟩ : ∃ m₂ : Machine, m₂ = { m₁ with
    mem := mem₂
    regs := Function.update m₁.regs .esp (lo.offset 0) } := ⟨_, rfl⟩
  rw [← hm₂] at hpush₂
  have hobjects₂ : m₂.objects = m.objects := by rw [hm₂, hm₁]
  have hwords : mem₂.Holds m.cr3 (lo.offset (4 * call.frame.length)) (site :: p :: ws) := by
    have hright := hholds₂.right
    rwa [Word.offset_offset, Nat.zero_add, List.length_reverse, hcr₁] at hright
  -- to the other directory, and back to the caller's registers
  obtain ⟨m₃, hm₃⟩ : ∃ m₃ : Machine, m₃ = { m₂ with
    currentDirectory := c.pageDir
    cr3 := c.pageDirPhysAddr } := ⟨_, rfl⟩
  have hswitch : vmmSwitchVmContext p m₂ = .ok ((), m₃) := by
    rw [hm₃]
    exact vmmSwitchVmContext_ok hne (by rw [hobjects₂]; exact hc)
  obtain ⟨m₄, hm₄⟩ : ∃ m₄ : Machine, m₄ = { m₃ with
    regs := Function.update (Function.update (Function.update (Function.update m₃.regs .eax
      call.eax) .ecx call.ecx) .edx call.edx) .esp (m₁.regs .esp)
    eflags := call.eflags } := ⟨_, rfl⟩
  have hmem₄ : m₄.mem = mem₂ := by rw [hm₄, hm₃, hm₂]
  have hcr₄ : m₄.cr3 = c.pageDirPhysAddr := by rw [hm₄, hm₃]
  have hesp₄ : m₄.regs .esp = lo.offset (4 * call.frame.length) := by simp [hm₄, hesp₁]
  have hwrites : m.mem.WritesIn mem₂ m.cr3 lo (4 * call.frame.length + 8) := by
    rw [hcr₁] at hwrites₂
    exact (hwrites₁.widen (by omega)).trans hwrites₂
  -- the return address is read through the directory switched to
  have hsite : m₄.mem.Holds m₄.cr3 (m₄.regs .esp) [site] := by
    rw [hmem₄, hcr₄, hesp₄]
    refine ⟨?_, trivial⟩
    rw [← hwords.1]
    refine PagedMemory.readWord_congr fun i hi => ?_
    rw [Word.offset_offset, PagedMemory.byteAt, PagedMemory.byteAt,
      PagedMemory.translate_congr hwrites.pages, PagedMemory.translate_congr hwrites.pages,
      hstays _ (by omega)]
  refine ⟨{ m₄ with
    regs := Function.update m₄.regs .esp ((m₄.regs .esp).offset 4)
    eip := site }, ?_, rfl, hcr₄, ?_, ?_, ?_⟩
  · rw [callVmmSwitchVmContext, Prog.bind_of_ok hpush₁, getReg_bind_apply, Prog.bind_of_ok harg,
      Prog.bind_of_ok hpush₂, Prog.bind_of_ok hswitch]
    change ret { m₃ with
      regs := Function.update (Function.update (Function.update (Function.update m₃.regs .eax
        call.eax) .ecx call.ecx) .edx call.edx) .esp (m₁.regs .esp)
      eflags := call.eflags } = _
    rw [← hm₄, ret, Prog.bind_of_ok (pop_ok hsite)]
    rfl
  · change m₄.objects = m.objects
    rw [hm₄, hm₃, ← hobjects₂]
  · change m.mem.WritesIn m₄.mem m.cr3 lo _
    rw [hmem₄]
    exact hwrites
  · change m₄.mem.Holds m.cr3 _ (p :: ws)
    rw [hmem₄]
    have hrest := hwords.2
    rwa [Word.offset_offset] at hrest

theorem switchDirectory_ok (site : Word) (call : CallEffect)
    (ht : m.objects.Has m.objects.currentProcess t) (hr : m.mem.Region m.cr3 lo n)
    (hlen : 4 * call.frame.length + 8 + 4 * ws.length ≤ n)
    (hesp : m.regs .esp = lo.offset (4 * call.frame.length + 8))
    (hholds : m.mem.Holds m.cr3 (lo.offset (4 * call.frame.length + 8)) ws)
    (hstays : ∀ i, i < n →
      m.mem.translate t.space (lo.offset i) = m.mem.translate m.cr3 (lo.offset i)) :
    ∃ m', switchDirectory site call m = .ok ((), m') ∧ m'.eip = site ∧ m'.cr3 = t.space ∧
      m'.objects = m.objects ∧
      m.mem.WritesIn m'.mem m.cr3 lo (4 * call.frame.length + 8) ∧
      m'.mem.Holds m.cr3 (lo.offset (4 * call.frame.length + 8)) ws := by
  obtain ⟨m₁, hrun₁, hset₁⟩ := loadPcb_ok ht
  have hecx : m₁.regs .ecx = t.pcbAddr := by simp [hset₁.regs]
  have hpcb : readObject ProcessObjects.pcbs (m₁.regs .ecx) m₁ = .ok (t.pcb, m₁) := by
    refine readObject_ok ?_
    rw [hecx, hset₁.objects]
    exact ht.pcb
  obtain ⟨m₂, hm₂⟩ : ∃ m₂ : Machine, m₂ = { m₁ with
    regs := Function.update m₁.regs .ecx t.pcb.vmContext } := ⟨_, rfl⟩
  have hmem₂ : m₂.mem = m.mem := by rw [hm₂]; exact hset₁.mem
  have hcr₂ : m₂.cr3 = m.cr3 := by rw [hm₂]; exact hset₁.cr3
  have hobjects₂ : m₂.objects = m.objects := by rw [hm₂]; exact hset₁.objects
  have hesp₂ : m₂.regs .esp = lo.offset (4 * call.frame.length + 4 + 4) := by
    simp [hm₂, hset₁.regs, hesp]
  -- the argument
  rw [← hmem₂, ← hcr₂] at hr hholds
  obtain ⟨mem₃, hpush₃, hwrites₃, hholds₃⟩ :=
    push_ok hr (by omega) hesp₂ hholds t.pcb.vmContext
  obtain ⟨m₃, hm₃⟩ : ∃ m₃ : Machine, m₃ = { m₂ with
    mem := mem₃
    regs := Function.update m₂.regs .esp (lo.offset (4 * call.frame.length + 4)) } := ⟨_, rfl⟩
  have hmem₃ : m₃.mem = mem₃ := by rw [hm₃]
  have hcr₃ : m₃.cr3 = m.cr3 := by rw [hm₃]; exact hcr₂
  have hesp₃ : m₃.regs .esp = lo.offset (4 * call.frame.length + 4) := by simp [hm₃]
  have hobjects₃ : m₃.objects = m.objects := by rw [hm₃]; exact hobjects₂
  rw [← hm₃] at hpush₃
  rw [hmem₂, hcr₂, ← hmem₃] at hwrites₃
  rw [hmem₂, hcr₂] at hr
  rw [hcr₂, ← hmem₃, ← hcr₃] at hholds₃
  have hr₃ : m₃.mem.Region m₃.cr3 lo n := by
    rw [hcr₃]
    exact hr.congr hwrites₃.pages
  -- the call
  obtain ⟨m', hcall, heip, hcr', hobjects', hwrites', hholds'⟩ :=
    callVmmSwitchVmContext_ok site call ht.vmContext_ne
      (by rw [hobjects₃]; exact ht.vmContext) hr₃ hlen hesp₃ hholds₃ fun i hi => by
        rw [PagedMemory.translate_congr hwrites₃.pages,
          PagedMemory.translate_congr hwrites₃.pages, hcr₃]
        exact hstays i hi
  refine ⟨m', ?_, heip, hcr', hobjects'.trans hobjects₃, ?_, ?_⟩
  · rw [switchDirectory, Prog.bind_of_ok hrun₁, getReg_bind_apply, Prog.bind_of_ok hpcb,
      setReg_bind_apply, ← hm₂, Prog.bind_of_ok hpush₃, hcall]
  · rw [hcr₃] at hwrites'
    exact (hwrites₃.widen (by omega)).trans hwrites'
  · have hrest := hholds'.2
    rwa [Word.offset_offset, hcr₃] at hrest

end Call

/-- The frame of the process that is current now. -/
theorem restoreFrame_ok {r : Resume} (ht : m.objects.Has m.objects.currentProcess t)
    (hcr : m.cr3 = t.space) (h : FrameAt m.mem t.space t.context.esp r) :
    ∃ m', restoreFrame m = .ok ((), m') ∧ Resumed r m' ∧ m'.mem = m.mem ∧
      m'.objects = m.objects := by
  obtain ⟨m₁, hm₁⟩ : ∃ m₁ : Machine, m₁ = { m with
    regs := Function.update m.regs .esp ((m.regs .esp).offset 4) } := ⟨_, rfl⟩
  have hobjects₁ : m₁.objects = m.objects := by rw [hm₁]
  obtain ⟨m₂, hrun₂, hset₂⟩ :=
    loadContext_ok (m := m₁) (t := t) (by rw [hobjects₁]; exact ht)
  have hecx : m₂.regs .ecx = t.pcb.context := by simp [hset₂.regs]
  have hcontext : readObject ProcessObjects.contexts (m₂.regs .ecx) m₂ = .ok (t.context, m₂) := by
    refine readObject_ok ?_
    rw [hecx, hset₂.objects, hobjects₁]
    exact ht.context
  obtain ⟨m₃, hm₃⟩ : ∃ m₃ : Machine, m₃ = { m₂ with
    regs := Function.update m₂.regs .esp t.context.esp } := ⟨_, rfl⟩
  have hmem₃ : m₃.mem = m.mem := by rw [hm₃, ← show m₁.mem = m.mem by rw [hm₁]]; exact hset₂.mem
  have hcr₃ : m₃.cr3 = t.space := by
    rw [← hcr, hm₃, ← show m₁.cr3 = m.cr3 by rw [hm₁]]
    exact hset₂.cr3
  have hframe : FrameAt m₃.mem m₃.cr3 (m₃.regs .esp) r := by
    rw [hmem₃, hcr₃, show m₃.regs .esp = t.context.esp by simp [hm₃]]
    exact h
  obtain ⟨m₄, hpop, hresumed, hmem₄, hobjects₄⟩ := popFrame_ok hframe
  refine ⟨m₄, ?_, hresumed, hmem₄.trans hmem₃, ?_⟩
  · rw [restoreFrame, getReg_bind_apply, setReg_bind_apply, ← hm₁, Prog.bind_of_ok hrun₂,
      getReg_bind_apply, Prog.bind_of_ok hcontext, setReg_bind_apply, ← hm₃, hpop]
  · rw [hobjects₄, hm₃, ← hobjects₁]
    exact hset₂.objects

end Parts

end Machine
end MyOs
