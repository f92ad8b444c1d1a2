import MyOs.Logic.SavedFrame

/-!
# What `process_switch` and `process_create` do to the suspended processes

A switch leaves the caller's frame on the caller's stack, the frames of the
others as they were, and goes on with the frame of the process switched to. A
new process gets a frame of its own. `SwitchOk` is what the stack of the caller
has to satisfy.
-/

namespace MyOs

namespace ProcessObjects

variable {o : ProcessObjects} {p next : Word} {t u : Task} {c : Context}

/-- The objects after a switch: the caller's context is written. -/
def switched (o : ProcessObjects) (t : Task) (c : Context) (next : Word) : ProcessObjects :=
  { o with
    currentProcess := next
    contexts := Function.update o.contexts t.pcb.context (some c) }

theorem Has.switched_self (h : o.Has p t) :
    (o.switched t c next).Has p { t with context := c } where
  process := h.process
  pcb := h.pcb
  context := Function.update_self ..
  vmContext := h.vmContext
  vmContext_ne := h.vmContext_ne

/-- A process after the switch was one before, with the same addresses. -/
theorem Has.of_switched {q : Word} (ht : o.Has q t) (h : (o.switched t c next).Has p u) :
    ∃ v, o.Has p v ∧ u.pcb = v.pcb ∧ u.vmContext = v.vmContext ∧
      (u.pcb.context = t.pcb.context → u.context = c) ∧
      (u.pcb.context ≠ t.pcb.context → u = v) := by
  have hcontext : Function.update o.contexts t.pcb.context (some c) u.pcb.context =
      some u.context := h.context
  by_cases heq : u.pcb.context = t.pcb.context
  · rw [heq, Function.update_self] at hcontext
    refine ⟨{ u with context := t.context }, ⟨h.process, h.pcb, ?_, h.vmContext, h.vmContext_ne⟩,
      rfl, rfl, fun _ => (Option.some.inj hcontext).symm, fun hne => absurd heq hne⟩
    exact (congrArg o.contexts heq).trans ht.context
  · rw [Function.update_of_ne heq] at hcontext
    exact ⟨u, ⟨h.process, h.pcb, hcontext, h.vmContext, h.vmContext_ne⟩, rfl, rfl,
      fun h => absurd h heq, fun _ => rfl⟩

theorem Has.switched_other (h : o.Has p u) (hne : u.pcb.context ≠ t.pcb.context) :
    (o.switched t c next).Has p u where
  process := h.process
  pcb := h.pcb
  context := (Function.update_of_ne hne _ _).trans h.context
  vmContext := h.vmContext
  vmContext_ne := h.vmContext_ne

end ProcessObjects

namespace Machine

/-- The processes have all their objects, with contexts of their own, and each
one but the current one has a frame to go on with. -/
structure Wf (m : Machine) : Prop where
  current : ∃ t, m.objects.Has m.objects.currentProcess t
  linked : ∀ p a, m.objects.processes p = some a → ∃ t, m.objects.Has p t
  contexts : ∀ p q t u, m.objects.Has p t → m.objects.Has q u →
    t.pcb.context = u.pcb.context → p = q
  suspended : ∀ p t, m.objects.Has p t → p ≠ m.objects.currentProcess →
    ∃ r, FrameAt m.mem t.space t.context.esp r

/-- The frames of the suspended processes are as they were. -/
def Undisturbed (m m' : Machine) : Prop :=
  ∀ p t, m.objects.Has p t → p ≠ m.objects.currentProcess → ∀ i, i < 44 →
    m'.mem.byteAt t.space (t.context.esp.offset i) =
      m.mem.byteAt t.space (t.context.esp.offset i)

/-- Where the words that a switch pushes begin. -/
def stackLow (m : Machine) (call : CallEffect) : Word :=
  m.regs .esp - BitVec.ofNat 32 (4 * call.frame.length + 48)

/-- A call of `process_switch` for `next` that returns to `ret`. The caller's
stack is mapped, also in its own directory and in that of `next`, and what is
pushed on it is not in the frame of a suspended process. -/
structure SwitchOk (m : Machine) (next ret : Word) (call : CallEffect) : Prop where
  known : ∃ u, m.objects.Has next u
  called : m.mem.Holds m.cr3 (m.regs .esp) [ret, next]
  mapped : m.mem.Region m.cr3 (m.stackLow call) (4 * call.frame.length + 56)
  stays : ∀ p t, m.objects.Has p t → p = m.objects.currentProcess ∨ p = next →
    ∀ i, i < 4 * call.frame.length + 56 →
      m.mem.translate t.space ((m.stackLow call).offset i) =
        m.mem.translate m.cr3 ((m.stackLow call).offset i)
  separate : ∀ p t, m.objects.Has p t → p ≠ m.objects.currentProcess →
    ∀ i j, i < 4 * call.frame.length + 48 → j < 44 →
      m.mem.translate m.cr3 ((m.stackLow call).offset i) ≠
        m.mem.translate t.space (t.context.esp.offset j)

/-- What the caller goes on with: everything as it is, after the return to `ret`. -/
def atReturn (m : Machine) (ret : Word) : Resume where
  regs := Function.update m.regs .esp ((m.regs .esp).offset 4)
  eflags := m.eflags
  eip := ret

theorem atReturn_esp (m : Machine) (ret : Word) :
    (m.atReturn ret).regs .esp = (m.regs .esp).offset 4 := by
  simp [atReturn]

/-- What the switch writes into the caller's context. -/
def savedContext (m : Machine) (ret : Word) : Context where
  edi := m.regs .edi
  esi := m.regs .esi
  -- `pushad` follows `mov ebp, esp`
  ebp := m.regs .esp - 4#32
  esp := m.regs .esp - 40#32
  ebx := m.regs .ebx
  edx := m.regs .edx
  ecx := m.regs .ecx
  eax := m.regs .eax
  eip := ret
  -- the word at offset 36, above the flags
  eflags := m.regs .ebp

/-- `r` is what `next` goes on with. -/
def GoesOnWith (m : Machine) (next ret : Word) (r : Resume) : Prop :=
  if next = m.objects.currentProcess then r = m.atReturn ret
  else ∀ u, m.objects.Has next u → FrameAt m.mem u.space u.context.esp r

/-- The state after a switch by the process of `t`. -/
structure Switched (m : Machine) (t : Task) (next ret : Word) (m' : Machine) : Prop where
  objects : ∃ c, m'.objects = m.objects.switched t c next ∧
    FrameAt m'.mem t.space c.esp (m.atReturn ret)
  saved : m'.objects.contexts t.pcb.context = some (m.savedContext ret)
  others : Undisturbed m m'

/-- After the caller's part of the switch, with its frame at `f`. -/
structure Saved (m : Machine) (t : Task) (call : CallEffect) (next ret : Word) (m' : Machine) :
    Prop where
  cr3 : m'.cr3 = m.cr3
  esp : m'.regs .esp = (m.stackLow call).offset (4 * call.frame.length + 8)
  objects : m'.objects = m.objects.switched t (m.savedContext ret) next
  writes : m.mem.WritesIn m'.mem m.cr3 (m.stackLow call) (4 * call.frame.length + 48)
  words : ∃ ebp esp, m'.mem.Holds m.cr3
    ((m.stackLow call).offset (4 * call.frame.length + 8))
    (frameWords (m.atReturn ret) ebp esp ++ [next])

theorem esp_eq_stackLow (m : Machine) (call : CallEffect) :
    m.regs .esp = (m.stackLow call).offset (4 * call.frame.length + 48) := by
  rw [stackLow, Word.offset, BitVec.sub_add_cancel]

theorem savedContext_esp (m : Machine) (ret : Word) (call : CallEffect) :
    (m.savedContext ret).esp = (m.stackLow call).offset (4 * call.frame.length + 8) := by
  have hsplit : m.regs .esp = (m.stackLow call).offset (4 * call.frame.length + 8) + 40#32 := by
    rw [esp_eq_stackLow m call, Word.offset, Word.offset, BitVec.add_assoc, ← BitVec.ofNat_add]
  rw [savedContext, hsplit, BitVec.add_sub_cancel]

/-- The caller's part: its registers on its stack, its context, `current_process`. -/
theorem saveCaller_ok {m : Machine} {t : Task} {next ret : Word} {call : CallEffect}
    (ht : m.objects.Has m.objects.currentProcess t) (hok : SwitchOk m next ret call) :
    ∃ m₁ m₂ m₃, saveFrame m = .ok ((), m₁) ∧ saveContext m₁ = .ok ((), m₂) ∧
      setCurrentProcess m₂ = .ok ((), m₃) ∧ Saved m t call next ret m₃ := by
  obtain ⟨lo, hlo⟩ : ∃ lo, lo = m.stackLow call := ⟨_, rfl⟩
  obtain ⟨k, hk⟩ : ∃ k, k = 4 * call.frame.length + 8 := ⟨_, rfl⟩
  have htop : 4 * call.frame.length + 48 = k + 40 := by omega
  have hesp : m.regs .esp = lo.offset (k + 40) := by
    rw [hlo, ← htop]
    exact esp_eq_stackLow m call
  have hregion : m.mem.Region m.cr3 lo (4 * call.frame.length + 56) := by
    rw [hlo]
    exact hok.mapped
  have hcalled := hok.called
  rw [hesp] at hcalled
  -- the caller's registers
  obtain ⟨mem₁, hsave, hwrites₁, hwords₁⟩ :=
    saveFrame_ok (k := k) hregion (show k + 40 + 4 * 2 ≤ _ by omega)
      (Nat.le_refl (k + 40)) hesp hcalled
  obtain ⟨m₁, hm₁⟩ : ∃ m₁ : Machine, m₁ = { m with
    mem := mem₁
    regs := Function.update (Function.update m.regs .ebp (lo.offset (k + 36))) .esp
      (lo.offset k) } := ⟨_, rfl⟩
  have hmem₁ : m₁.mem = mem₁ := by rw [hm₁]
  have hcr₁ : m₁.cr3 = m.cr3 := by rw [hm₁]
  have hobjects₁ : m₁.objects = m.objects := by rw [hm₁]
  have hesp₁ : m₁.regs .esp = lo.offset k := by simp [hm₁]
  have hebp₁ : m₁.regs .ebp = lo.offset (k + 36) := by simp [hm₁]
  rw [← hm₁] at hsave
  rw [← hmem₁] at hwrites₁ hwords₁
  -- the caller's context
  have hframeWords : m₁.mem.Holds m₁.cr3 (m₁.regs .esp)
      ([m.regs .edi, m.regs .esi, lo.offset (k + 36), lo.offset (k + 32), m.regs .ebx,
        m.regs .edx, m.regs .ecx, m.regs .eax, m.eflags.word, m.regs .ebp, ret] ++ [next]) := by
    rw [hcr₁, hesp₁]
    exact hwords₁
  obtain ⟨m₂, hcontext, hsaving⟩ := saveContext_ok (m := m₁) (t := t)
    (by rw [hobjects₁]; exact ht) hframeWords (by rw [hebp₁, hesp₁, Word.offset_offset])
  have hsaved : (⟨m.regs .edi, m.regs .esi, lo.offset (k + 36), m₁.regs .esp, m.regs .ebx,
      m.regs .edx, m.regs .ecx, m.regs .eax, ret, m.regs .ebp⟩ : Context) =
        m.savedContext ret := by
    have hframe : m.regs .esp - 4#32 = lo.offset (k + 36) := by
      rw [hesp, show k + 40 = k + 36 + 4 from rfl, ← Word.offset_offset]
      exact BitVec.add_sub_cancel _ _
    rw [hesp₁, hlo, hk, ← savedContext_esp m ret call, ← hk, ← hlo, ← hframe]
    rfl
  -- the argument, three words above the frame
  have hnext : m₂.mem.readWord m₂.cr3 ((m₂.regs .ebp).offset 8) = some next := by
    rw [hsaving.mem, hsaving.cr3, hsaving.ebp, hebp₁, hcr₁, Word.offset_offset]
    have hword := PagedMemory.holds_iff.mp hwords₁ 11 (by simp)
    rwa [Word.offset_offset] at hword
  obtain ⟨m₃, hcurrent, hmem₃, hcr₃, hesp₃, hobjects₃⟩ := setCurrentProcess_ok hnext
  refine ⟨m₁, m₂, m₃, hsave, hcontext, hcurrent, ?_, ?_, ?_, ?_, ?_⟩
  · rw [hcr₃, hsaving.cr3, hcr₁]
  · rw [hesp₃, hsaving.esp, hesp₁, hlo, hk]
  · rw [hobjects₃, hsaving.objects, hobjects₁, hsaved]
    rfl
  · rw [hmem₃, hsaving.mem, ← hlo, htop]
    exact hwrites₁
  · refine ⟨lo.offset (k + 36), lo.offset (k + 32), ?_⟩
    rw [hmem₃, hsaving.mem, ← hlo, ← hk]
    simpa [frameWords, atReturn] using hwords₁

section Switch

variable {m m₃ m₄ : Machine} {t u v : Task} {next ret : Word} {call : CallEffect} {r : Resume}

/-- The objects of `next`, which may be the caller. -/
theorem Saved.next_has (h : Saved m t call next ret m₃) (hwf : m.Wf)
    (ht : m.objects.Has m.objects.currentProcess t) (hu : m.objects.Has next u) :
    ∃ v, m₃.objects.Has next v ∧ v.space = u.space := by
  rw [h.objects]
  by_cases heq : next = m.objects.currentProcess
  · subst heq
    rw [hu.unique ht]
    exact ⟨_, ht.switched_self, rfl⟩
  · exact ⟨u, hu.switched_other fun h => heq (hwf.contexts _ _ _ _ hu ht h), rfl⟩

/-- After the call of `vmm_switch_vm_context` too: what was written since the call of
`process_switch`, and the caller's frame on its stack. -/
structure InSpace (m : Machine) (t : Task) (call : CallEffect) (next ret : Word) (m' : Machine) :
    Prop where
  objects : m'.objects = m.objects.switched t (m.savedContext ret) next
  writes : m.mem.WritesIn m'.mem m.cr3 (m.stackLow call) (4 * call.frame.length + 48)
  words : ∃ ebp esp, m'.mem.Holds m.cr3
    ((m.stackLow call).offset (4 * call.frame.length + 8))
    (frameWords (m.atReturn ret) ebp esp ++ [next])

/-- The directory of `next` is loaded; its stack shows the caller's words at the same
place, so the call comes back. -/
theorem Saved.switchDirectory (site : Word) (h : Saved m t call next ret m₃)
    (hok : SwitchOk m next ret call) (hu : m.objects.Has next u) (hv : m₃.objects.Has next v)
    (hspace : v.space = u.space) :
    ∃ m', switchDirectory site call m₃ = .ok ((), m') ∧ m'.eip = site ∧ m'.cr3 = v.space ∧
      InSpace m t call next ret m' := by
  have hcurrent : m₃.objects.currentProcess = next := by
    rw [h.objects]
    rfl
  have hregion : m₃.mem.Region m₃.cr3 (m.stackLow call) (4 * call.frame.length + 56) := by
    rw [h.cr3]
    exact hok.mapped.congr h.writes.pages
  obtain ⟨ebp, esp, hwords⟩ := h.words
  have hlen : 4 * call.frame.length + 8 +
      4 * (frameWords (m.atReturn ret) ebp esp ++ [next]).length ≤
        4 * call.frame.length + 56 := by
    change 4 * call.frame.length + 8 + 4 * 12 ≤ _
    omega
  rw [← h.cr3] at hwords
  obtain ⟨m', hrun, heip, hcr, hobjects, hwrites, hwords'⟩ :=
    switchDirectory_ok (t := v) site call (by rw [hcurrent]; exact hv) hregion hlen h.esp hwords
      fun i hi => by
        rw [PagedMemory.translate_congr h.writes.pages, PagedMemory.translate_congr h.writes.pages,
          h.cr3, hspace]
        exact hok.stays next u hu (.inr rfl) i hi
  rw [h.cr3] at hwrites hwords'
  rw [← Word.offset_zero (m.stackLow call)] at hwrites
  exact ⟨m', hrun, heip, hcr, hobjects.trans h.objects,
    h.writes.trans (hwrites.widen (by omega)), ebp, esp, hwords'⟩

/-- The caller's frame, in its own directory. -/
theorem InSpace.frame (h : InSpace m t call next ret m₄) (hok : SwitchOk m next ret call)
    (ht : m.objects.Has m.objects.currentProcess t) :
    FrameAt m₄.mem t.space (m.savedContext ret).esp (m.atReturn ret) := by
  obtain ⟨ebp, esp, hwords⟩ := h.words
  rw [savedContext_esp m ret call]
  refine ⟨⟨ebp, esp, hwords.left.congr fun i hi => ?_⟩, ?_⟩
  · rw [show (frameWords (m.atReturn ret) ebp esp).length = 11 from rfl] at hi
    rw [Word.offset_offset, PagedMemory.byteAt, PagedMemory.byteAt,
      PagedMemory.translate_congr h.writes.pages, PagedMemory.translate_congr h.writes.pages,
      hok.stays _ t ht (.inl rfl) _ (by omega)]
  · rw [atReturn_esp, esp_eq_stackLow m call, Word.offset_offset, Word.offset_offset]

/-- The frames of the others. -/
theorem InSpace.undisturbed (h : InSpace m t call next ret m₄) (hok : SwitchOk m next ret call) :
    Undisturbed m m₄ := fun p u hp hne i hi =>
  h.writes.byteAt fun j hj => hok.separate p u hp hne j i hj hi

/-- The frame of `next`, which may be the caller's. -/
theorem InSpace.next_frame (h : InSpace m t call next ret m₄) (hwf : m.Wf)
    (hok : SwitchOk m next ret call) (ht : m.objects.Has m.objects.currentProcess t)
    (hr : m.GoesOnWith next ret r) (hv : m₄.objects.Has next v) :
    FrameAt m₄.mem v.space v.context.esp r := by
  obtain ⟨u, hu⟩ := hok.known
  rw [GoesOnWith] at hr
  rw [h.objects] at hv
  split at hr
  · next heq =>
      subst heq
      rw [hv.unique ht.switched_self, hr]
      exact h.frame hok ht
  · next hne =>
      have hsame : (m.objects.switched t (m.savedContext ret) next).Has next u :=
        hu.switched_other fun heq => hne (hwf.contexts _ _ _ _ hu ht heq)
      rw [hv.unique hsame]
      exact (hr u hu).congr (h.undisturbed hok next u hu hne)

/-- **The switch.** It returns, with the caller suspended and `next` going on. -/
theorem processSwitch_ok (site : Word) (hwf : m.Wf)
    (ht : m.objects.Has m.objects.currentProcess t) (hok : SwitchOk m next ret call)
    (hr : m.GoesOnWith next ret r) :
    ∃ m', processSwitch site call m = .ok ((), m') ∧ Switched m t next ret m' ∧
      Resumed r m' := by
  obtain ⟨m₁, m₂, m₃, hsave, hcontext, hcurrent, hsaved⟩ := saveCaller_ok ht hok
  obtain ⟨u, hu⟩ := hok.known
  obtain ⟨v, hv, hspace⟩ := hsaved.next_has hwf ht hu
  obtain ⟨m₄, hswitch, heip, hcr₄, hin⟩ := hsaved.switchDirectory site hok hu hv hspace
  have hv₄ : m₄.objects.Has next v := by
    rw [hin.objects, ← hsaved.objects]
    exact hv
  have hcurrent₄ : m₄.objects.currentProcess = next := by
    rw [hin.objects]
    rfl
  obtain ⟨m₅, hrestore, hresumed, hmem₅, hobjects₅⟩ :=
    restoreFrame_ok (m := m₄) (t := v) (by rw [hcurrent₄]; exact hv₄) hcr₄
      (hin.next_frame hwf hok ht hr hv₄)
  refine ⟨m₅, ?_, ⟨⟨m.savedContext ret, ?_, ?_⟩, ?_, ?_⟩, hresumed⟩
  · rw [processSwitch, Prog.bind_of_ok hsave, Prog.bind_of_ok hcontext, Prog.bind_of_ok hcurrent,
      Prog.bind_of_ok hswitch, Prog.get_bind_apply, if_pos heip, hrestore]
  · rw [hobjects₅, hin.objects]
  · rw [hmem₅]
    exact hin.frame hok ht
  · rw [hobjects₅, hin.objects]
    exact Function.update_self ..
  · rw [Undisturbed, hmem₅]
    exact hin.undisturbed hok

end Switch

/-! ## The frames after a switch -/

section Frames

variable {m m' : Machine} {t u v : Task} {p next ret : Word} {r : Resume}

theorem Switched.caller (h : Switched m t next ret m')
    (ht : m.objects.Has m.objects.currentProcess t)
    (hu : m'.objects.Has m.objects.currentProcess u) :
    FrameAt m'.mem u.space u.context.esp (m.atReturn ret) := by
  obtain ⟨c, hobjects, hframe⟩ := h.objects
  rw [hobjects] at hu
  rw [hu.unique ht.switched_self]
  exact hframe

theorem Switched.other (h : Switched m t next ret m') (hwf : m.Wf)
    (ht : m.objects.Has m.objects.currentProcess t) (hne : p ≠ m.objects.currentProcess)
    (hv : m.objects.Has p v) (hframe : FrameAt m.mem v.space v.context.esp r)
    (hu : m'.objects.Has p u) : FrameAt m'.mem u.space u.context.esp r := by
  obtain ⟨c, hobjects, _⟩ := h.objects
  rw [hobjects] at hu
  have hsame : (m.objects.switched t c next).Has p v :=
    hv.switched_other fun heq => hne (hwf.contexts _ _ _ _ hv ht heq)
  rw [hu.unique hsame]
  exact hframe.congr (h.others p v hv hne)

theorem Switched.has (h : Switched m t next ret m') (hwf : m.Wf)
    (ht : m.objects.Has m.objects.currentProcess t) (hv : m.objects.Has p v) :
    ∃ u, m'.objects.Has p u := by
  obtain ⟨c, hobjects, _⟩ := h.objects
  rw [hobjects]
  by_cases heq : p = m.objects.currentProcess
  · rw [heq]
    exact ⟨_, ht.switched_self⟩
  · exact ⟨v, hv.switched_other fun h => heq (hwf.contexts _ _ _ _ hv ht h)⟩

theorem Switched.current (h : Switched m t next ret m') : m'.objects.currentProcess = next := by
  obtain ⟨c, hobjects, _⟩ := h.objects
  rw [hobjects]
  rfl

/-- The switch keeps what the processes rely on. -/
theorem Switched.wf (h : Switched m t next ret m') (hwf : m.Wf)
    (ht : m.objects.Has m.objects.currentProcess t) (hnext : ∃ u, m.objects.Has next u) :
    m'.Wf := by
  obtain ⟨c, hobjects, _⟩ := h.objects
  -- a process of `m'` is one of `m`, with the same addresses
  have hold {p : Word} {u : Task} (hu : m'.objects.Has p u) :
      ∃ v, m.objects.Has p v ∧ u.pcb = v.pcb := by
    rw [hobjects] at hu
    obtain ⟨v, hv, hpcb, _⟩ := ht.of_switched hu
    exact ⟨v, hv, hpcb⟩
  refine ⟨?_, fun p a hp => ?_, fun p q u v hu hv heq => ?_, fun p u hu hne => ?_⟩
  · obtain ⟨u, hu⟩ := hnext
    rw [h.current]
    exact h.has hwf ht hu
  · rw [hobjects] at hp
    obtain ⟨u, hu⟩ := hwf.linked p a hp
    exact h.has hwf ht hu
  · obtain ⟨u', hu', hpcb⟩ := hold hu
    obtain ⟨v', hv', hpcb'⟩ := hold hv
    rw [hpcb, hpcb'] at heq
    exact hwf.contexts _ _ _ _ hu' hv' heq
  · obtain ⟨v, hv, _⟩ := hold hu
    by_cases heq : p = m.objects.currentProcess
    · subst heq
      exact ⟨_, h.caller ht hu⟩
    · obtain ⟨r, hframe⟩ := hwf.suspended p v hv heq
      exact ⟨r, h.other hwf ht heq hv hframe hu⟩

end Frames
end Machine
end MyOs
