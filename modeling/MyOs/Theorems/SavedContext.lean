import MyOs.Theorems.ContextSwitch

/-!
# The record of a suspended process

`process_switch` copies the words of its frame into the caller's `context_t`. The word
it takes for EBP is the one `pushad` pushed after `mov ebp, esp`, the routine's own frame
pointer, and the word it takes for EFLAGS lies above the flags: it is the caller's EBP.
-/

namespace MyOs

open Machine

namespace Machine

/-- The restore sequence, with the stack pointer at `f` in the space `c`, recovers `r`. -/
def Restores (mem : PagedMemory Word) (c f : Word) (r : Resume) : Prop :=
  ∀ m : Machine, m.mem = mem → m.cr3 = c → m.regs .esp = f →
    ∃ m', (do popad; popfd; popReg .ebp; ret) m = .ok ((), m') ∧ Resumed r m'

theorem FrameAt.restores {mem : PagedMemory Word} {c f : Word} {r : Resume}
    (h : FrameAt mem c f r) : Restores mem c f r := by
  rintro m rfl rfl rfl
  obtain ⟨m', hrun, hresumed, _⟩ := popFrame_ok h
  exact ⟨m', hrun, hresumed⟩

/-- The context of `u` in `m'` has the values of the call in `m` that returns to `ret`. -/
structure Truthful (m : Machine) (ret : Word) (u : Task) (m' : Machine) : Prop where
  edi : u.context.edi = m.regs .edi
  esi : u.context.esi = m.regs .esi
  ebx : u.context.ebx = m.regs .ebx
  edx : u.context.edx = m.regs .edx
  ecx : u.context.ecx = m.regs .ecx
  eax : u.context.eax = m.regs .eax
  ebp : u.context.ebp = m.regs .ebp
  eflags : u.context.eflags = m.eflags.word
  eip : u.context.eip = ret
  esp : Restores m'.mem u.space u.context.esp (m.atReturn ret)

/-- The frame pointer of the caller is the one of the routine, and its flags, as a word,
are its frame pointer. -/
def FlagsInFramePointer (m : Machine) : Prop :=
  m.regs .ebp = m.regs .esp - 4#32 ∧ m.eflags.word = m.regs .ebp

variable {m m' : Machine} {t u : Task} {next ret : Word} {call : CallEffect}

/-- What the record of the caller holds after a switch. -/
theorem Switched.context_eq (h : Switched m t next ret m')
    (ht : m.objects.Has m.objects.currentProcess t)
    (hu : m'.objects.Has m.objects.currentProcess u) : u.context = m.savedContext ret := by
  obtain ⟨c, hobjects, _⟩ := h.objects
  have hsaved := h.saved
  rw [hobjects] at hu hsaved
  have hc : (m.objects.switched t c next).contexts t.pcb.context = some c :=
    ht.switched_self.context
  rw [hu.unique ht.switched_self]
  exact Option.some.inj (hc.symm.trans hsaved)

theorem Switched.truthful_iff (h : Switched m t next ret m')
    (ht : m.objects.Has m.objects.currentProcess t)
    (hu : m'.objects.Has m.objects.currentProcess u) :
    Truthful m ret u m' ↔ FlagsInFramePointer m := by
  have hcontext := h.context_eq ht hu
  constructor
  · intro htrue
    have hebp := htrue.ebp
    have heflags := htrue.eflags
    rw [hcontext] at hebp heflags
    exact ⟨hebp.symm, heflags.symm⟩
  · rintro ⟨hebp, heflags⟩
    have hframe := (h.caller ht hu).restores
    constructor <;> try rw [hcontext]; rfl
    · rw [hcontext]
      exact hebp.symm
    · rw [hcontext]
      exact heflags.symm
    · exact hframe

/-- Bit 1 of the flags is always set, so the stack pointer is no multiple of 4. -/
theorem FlagsInFramePointer.unaligned (h : FlagsInFramePointer m) :
    (m.regs .esp).toNat % 4 ≠ 0 := by
  obtain ⟨hebp, heflags⟩ := h
  have hbit : m.eflags.word.getLsbD 1 = true := by
    have hfixed := congrArg (fun w => w.getLsbD 1) m.eflags.fixed
    simpa [flagsLoaded] using hfixed
  rw [heflags, hebp, ← BitVec.testBit_toNat, Nat.testBit_eq_decide_div_mod_eq,
    decide_eq_true_iff, BitVec.toNat_sub] at hbit
  intro haligned
  have hfour : (4#32).toNat = 4 := rfl
  rw [hfour] at hbit
  omega

end Machine

/-- **The saved context.** In every state in which the processes have their objects, and
for every call of `process_switch` in it, the record of the caller is truthful after the
switch if and only if its frame pointer was just below the return address, and its flags,
as a word, were its frame pointer. -/
theorem saved_context_iff {site : Word} {m m' : Machine} {next ret : Word} {call : CallEffect}
    (hwf : m.Wf) (hok : SwitchOk m next ret call)
    (hrun : processSwitch site call m = .ok ((), m')) :
    ∃ u, m'.objects.Has m.objects.currentProcess u ∧
      (Truthful m ret u m' ↔ FlagsInFramePointer m) := by
  obtain ⟨t, ht⟩ := hwf.current
  obtain ⟨hswitched, _⟩ := switch_effect hwf ht hok hrun
  obtain ⟨u, hu⟩ := hswitched.has hwf ht ht
  exact ⟨u, hu, hswitched.truthful_iff ht hu⟩

theorem pairMachine_wf : pairMachine.Wf :=
  switchSys_wf _ (.step (a := createSecond) soloMachine_reachable
    ⟨createSecond_ok, 0x50#32, by decide, createSecond_run⟩)

theorem pairMachine_run : processSwitch 0x777#32 clobber pairMachine = .ok ((), secondRuns) :=
  Prog.eq_of_returned (by decide +kernel)

theorem pairMachine_aligned : (pairMachine.regs .esp).toNat % 4 = 0 := by decide +kernel

/-- The initial process's record after its switch to the second one. -/
theorem saved_context_first : ∃ u, secondRuns.objects.Has pairMachine.objects.currentProcess u ∧
    ¬ Truthful pairMachine 0x1234#32 u secondRuns := by
  obtain ⟨u, hu, hiff⟩ := saved_context_iff pairMachine_wf pairMachine_switch pairMachine_run
  exact ⟨u, hu, fun h => (hiff.mp h).unaligned pairMachine_aligned⟩

/-- With EBP 7 and the stack at `0x9000`, the record says `0x8FFC` for EBP and 7 for the
flags `0x46`. -/
theorem saved_context_wrong : ¬ ∀ (site : Word) (m m' : Machine) (next ret : Word)
    (call : CallEffect) (u : Task), m.Wf → SwitchOk m next ret call →
      processSwitch site call m = .ok ((), m') →
      m'.objects.Has m.objects.currentProcess u → Truthful m ret u m' := by
  intro hall
  obtain ⟨t, ht⟩ := pairMachine_wf.current
  obtain ⟨hswitched, _⟩ := switch_effect pairMachine_wf ht pairMachine_switch pairMachine_run
  obtain ⟨u, hu⟩ := hswitched.has pairMachine_wf ht ht
  have htrue := hall _ _ _ _ _ _ u pairMachine_wf pairMachine_switch pairMachine_run hu
  exact ((hswitched.truthful_iff ht hu).mp htrue).unaligned pairMachine_aligned

end MyOs
