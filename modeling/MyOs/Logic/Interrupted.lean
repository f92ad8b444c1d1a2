import MyOs.Interrupts.Stubs
import MyOs.Logic.SavedFrame

/-!
# The stack of an interrupt

Between the interrupted code and `isr_handler` a routine leaves fifteen words:
the return address, the argument, and the `registers_t` it points to. One lemma
for the way in, one for the way out, one for the dispatch in between.
-/

namespace MyOs

/-- What the words of a `registers_t` are popped into. -/
def Registers.popped (x : Registers) (esp : Word) : Reg → Word
  | .eax => x.eax
  | .ecx => x.ecx
  | .edx => x.edx
  | .ebx => x.ebx
  | .esp => esp
  | .ebp => x.ebp
  | .esi => x.esi
  | .edi => x.edi

namespace Machine

/-- The `registers_t` of code interrupted in `m`. -/
def interrupted (m : Machine) (n errCode : Word) : Registers where
  edi := m.regs .edi
  esi := m.regs .esi
  ebp := m.regs .ebp
  -- below EFLAGS, CS, EIP, the error code and the number
  esp := m.regs .esp - 20#32
  ebx := m.regs .ebx
  edx := m.regs .edx
  ecx := m.regs .ecx
  eax := m.regs .eax
  intNo := n
  errCode := errCode
  eip := m.eip
  cs := kernelCodeSelector
  eflags := m.eflags.word

/-- Where the interrupted code goes on. -/
def resumePoint (m : Machine) : Resume := ⟨m.regs, m.eflags, m.eip⟩

/-- At the entry of `isr_handler`, its stack at `lo`: `m` has been interrupted. -/
structure Entered (m : Machine) (n errCode site lo : Word) (m₁ : Machine) : Prop where
  cr3 : m₁.cr3 = m.cr3
  objects : m₁.objects = m.objects
  esp : m₁.regs .esp = lo
  writes : m.mem.WritesIn m₁.mem m.cr3 lo 60
  words : m₁.mem.Holds m.cr3 lo ([site, lo.offset 8] ++ (m.interrupted n errCode).words)

section Enter

variable {m : Machine} {lo : Word} {ws : List Word}

/-- The number, the registers and the argument, below the words `ws`. -/
theorem isrEnter_ok (n site : Word) (hr : m.mem.Region m.cr3 lo (44 + 4 * ws.length))
    (hesp : m.regs .esp = lo.offset 44) (h : m.mem.Holds m.cr3 (lo.offset 44) ws) :
    ∃ m₁, isrEnter n site m = .ok ((), m₁) ∧ m₁.cr3 = m.cr3 ∧ m₁.objects = m.objects ∧
      m₁.regs .esp = lo ∧ m.mem.WritesIn m₁.mem m.cr3 lo 44 ∧
      m₁.mem.Holds m.cr3 lo ([site, lo.offset 8, m.regs .edi, m.regs .esi, m.regs .ebp,
        lo.offset 40, m.regs .ebx, m.regs .edx, m.regs .ecx, m.regs .eax, n] ++ ws) := by
  -- push dword n
  obtain ⟨mem₁, hpush₁, hwrites₁, hholds₁⟩ := push_ok (k := 40) hr (by omega) hesp h n
  obtain ⟨m₁, hm₁⟩ : ∃ m₁ : Machine, m₁ = { m with
    mem := mem₁
    regs := Function.update m.regs .esp (lo.offset 40) } := ⟨_, rfl⟩
  have hmem₁ : m₁.mem = mem₁ := by rw [hm₁]
  have hcr₁ : m₁.cr3 = m.cr3 := by rw [hm₁]
  rw [← hm₁] at hpush₁
  rw [← hmem₁] at hwrites₁ hholds₁
  -- pushad
  have hr₁ : m₁.mem.Region m₁.cr3 lo (44 + 4 * ws.length) := by
    rw [hcr₁]
    exact hr.congr hwrites₁.pages
  have hholds₁' : m₁.mem.Holds m₁.cr3 (lo.offset (8 + 4 * 8)) (n :: ws) := by
    rw [hcr₁]
    exact hholds₁
  obtain ⟨mem₂, hpush₂, hwrites₂, hholds₂⟩ := pushAll_ok (m := m₁) (k := 8)
    [m₁.regs .eax, m₁.regs .ecx, m₁.regs .edx, m₁.regs .ebx, m₁.regs .esp, m₁.regs .ebp,
      m₁.regs .esi, m₁.regs .edi] hr₁
    (by simp only [List.length_cons, List.length_nil]; omega) (show 8 + 4 * 8 ≤ 44 by omega)
    (by simp [hm₁]) hholds₁'
  -- mov eax, esp
  obtain ⟨m₂, hm₂⟩ : ∃ m₂ : Machine, m₂ = { m₁ with
    mem := mem₂
    regs := Function.update m₁.regs .esp (lo.offset 8) } := ⟨_, rfl⟩
  rw [← hm₂] at hpush₂
  obtain ⟨m₃, hm₃⟩ : ∃ m₃ : Machine, m₃ = { m₂ with
    regs := Function.update m₂.regs .eax (m₂.regs .esp) } := ⟨_, rfl⟩
  have hmem₃ : m₃.mem = mem₂ := by rw [hm₃, hm₂]
  have hcr₃ : m₃.cr3 = m.cr3 := by rw [hm₃, hm₂]; exact hcr₁
  have hesp₃ : m₃.regs .esp = lo.offset (4 + 4) := by simp [hm₃, hm₂]
  have heax₃ : m₃.regs .eax = lo.offset 8 := by simp [hm₃, hm₂]
  -- push eax
  have hr₃ : m₃.mem.Region m₃.cr3 lo (44 + 4 * ws.length) := by
    rw [hcr₃, hmem₃, ← hcr₁]
    exact hr₁.congr hwrites₂.pages
  rw [hcr₁, ← hmem₃, ← hcr₃] at hholds₂
  obtain ⟨mem₄, hpush₄, hwrites₄, hholds₄⟩ := push_ok (k := 4) hr₃
    (by simp only [List.length_append, List.length_reverse, List.length_cons, List.length_nil]
        omega) hesp₃ hholds₂ (m₃.regs .eax)
  obtain ⟨m₄, hm₄⟩ : ∃ m₄ : Machine, m₄ = { m₃ with
    mem := mem₄
    regs := Function.update m₃.regs .esp (lo.offset 4) } := ⟨_, rfl⟩
  have hmem₄ : m₄.mem = mem₄ := by rw [hm₄]
  have hcr₄ : m₄.cr3 = m.cr3 := by rw [hm₄]; exact hcr₃
  rw [← hm₄] at hpush₄
  -- call isr_handler
  have hr₄ : m₄.mem.Region m₄.cr3 lo (44 + 4 * ws.length) := by
    rw [hcr₄, hmem₄, ← hcr₃]
    exact hr₃.congr hwrites₄.pages
  rw [hcr₃, ← hmem₄, ← hcr₄] at hholds₄
  obtain ⟨mem₅, hpush₅, hwrites₅, hholds₅⟩ := push_ok (k := 0) hr₄
    (by simp only [List.length_append, List.length_reverse, List.length_cons, List.length_nil]
        omega) (by simp [hm₄]) hholds₄ site
  refine ⟨{ m₄ with mem := mem₅, regs := Function.update m₄.regs .esp (lo.offset 0) }, ?_, hcr₄,
    ?_, ?_, ?_, ?_⟩
  · rw [isrEnter, Prog.bind_of_ok hpush₁, Prog.bind_of_ok (show pushad m₁ = .ok ((), m₂) from hpush₂),
      getReg_bind_apply, setReg_bind_apply, ← hm₃, getReg_bind_apply, Prog.bind_of_ok hpush₄,
      hpush₅]
  · change m₄.objects = m.objects
    rw [hm₄, hm₃, hm₂, hm₁]
  · simp
  · rw [hcr₁] at hwrites₂
    rw [hcr₃, hmem₃] at hwrites₄
    rw [hcr₄, hmem₄] at hwrites₅
    exact (((hwrites₁.widen (by omega)).trans hwrites₂).trans (hwrites₄.widen (by omega))).trans
      (hwrites₅.widen (by omega))
  · rw [hcr₄, Word.offset_zero, heax₃] at hholds₅
    simpa [hm₁] using hholds₅

/-- Delivery, and the `0` of a routine without error code: the four words above
the number. -/
theorem delivered_ok {v : Nat} {errorCode : Option Word} (entry site : Word)
    (isrHandler : Prog Machine Unit) (hkind : errorCode.isSome ↔ v ∈ withErrCode)
    (hr : m.mem.Region m.cr3 lo 60) (hesp : m.regs .esp = lo.offset 60) :
    ∃ m₁, (do deliver entry errorCode; isr v site isrHandler) m =
        (do isrEnter (BitVec.ofNat 32 v) site; isrHandler; isrReturn site) m₁ ∧
      m₁.cr3 = m.cr3 ∧ m₁.objects = m.objects ∧
      m₁.regs = Function.update m.regs .esp (lo.offset 44) ∧
      m.mem.WritesIn m₁.mem m.cr3 lo 60 ∧
      m₁.mem.Holds m.cr3 (lo.offset 44)
        [errorCode.getD 0#32, m.eip, kernelCodeSelector, m.eflags.word] := by
  cases errorCode with
  | some code =>
      have hv : v ∈ withErrCode := hkind.mp rfl
      obtain ⟨mem₁, hpush, hwrites, hholds⟩ := pushAll_ok (m := m) (k := 44)
        ([m.eflags.word, kernelCodeSelector, m.eip] ++ [code]) hr (by simp)
        (show 44 + 4 * 4 ≤ 60 by omega) hesp (show m.mem.Holds m.cr3 _ [] from trivial)
      refine ⟨{ m with
        mem := mem₁
        regs := Function.update m.regs .esp (lo.offset 44)
        eflags := m.eflags.gated.disabled
        eip := entry }, ?_, rfl, rfl, rfl, hwrites, hholds⟩
      rw [Prog.bind_of_ok (show deliver entry (some code) m = .ok ((), { m with
          mem := mem₁
          regs := Function.update m.regs .esp (lo.offset 44)
          eflags := m.eflags.gated
          eip := entry }) from by rw [deliver, Prog.get_bind_apply,
            Option.toList_some, Prog.bind_of_ok hpush]; rfl),
        isr, if_pos hv, isrWithErrCode, cli, Prog.modify_bind_apply]
  | none =>
      have hv : v ∉ withErrCode := fun h => absurd (hkind.mpr h) (by simp)
      obtain ⟨mem₁, hpush, hwrites, hholds⟩ := pushAll_ok (m := m) (k := 48)
        [m.eflags.word, kernelCodeSelector, m.eip] hr (by simp)
        (show 48 + 4 * 3 ≤ 60 by omega) hesp (show m.mem.Holds m.cr3 _ [] from trivial)
      obtain ⟨m₁, hm₁⟩ : ∃ m₁ : Machine, m₁ = { m with
        mem := mem₁
        regs := Function.update m.regs .esp (lo.offset 48)
        eflags := m.eflags.gated.disabled
        eip := entry } := ⟨_, rfl⟩
      have hmem₁ : m₁.mem = mem₁ := by rw [hm₁]
      have hcr₁ : m₁.cr3 = m.cr3 := by rw [hm₁]
      -- push dword 0
      rw [← hmem₁] at hwrites hholds
      have hr₁ : m₁.mem.Region m₁.cr3 lo 60 := by
        rw [hcr₁]
        exact hr.congr hwrites.pages
      rw [← hcr₁] at hholds
      obtain ⟨mem₂, hpush₂, hwrites₂, hholds₂⟩ := push_ok (k := 44) hr₁ (by simp)
        (by simp [hm₁]) hholds 0#32
      rw [hcr₁] at hwrites₂ hholds₂
      refine ⟨{ m₁ with
        mem := mem₂
        regs := Function.update m₁.regs .esp (lo.offset 44) }, ?_, hcr₁, ?_, ?_,
        hwrites.trans (hwrites₂.widen (by omega)), hholds₂⟩
      · rw [Prog.bind_of_ok (show deliver entry none m = .ok ((), { m with
            mem := mem₁
            regs := Function.update m.regs .esp (lo.offset 48)
            eflags := m.eflags.gated
            eip := entry }) from by rw [deliver, Prog.get_bind_apply,
              Option.toList_none, List.append_nil, Prog.bind_of_ok hpush]; rfl),
          isr, if_neg hv, isrNoErrCode, cli, Prog.modify_bind_apply, ← hm₁,
          Prog.bind_of_ok hpush₂]
      · rw [hm₁]
      · simp [hm₁]

/-- **The way in.** -/
theorem interrupt_enters (v : Nat) (errorCode : Option Word) (entry site : Word)
    (run : Service → Prog Machine Unit) (hkind : errorCode.isSome ↔ v ∈ withErrCode)
    (hr : m.mem.Region m.cr3 lo 60) (hesp : m.regs .esp = lo.offset 60) :
    ∃ m₁, interrupt v entry site errorCode run m =
        (do isrHandler run; isrReturn site) m₁ ∧
      Entered m (BitVec.ofNat 32 v) (errorCode.getD 0#32) site lo m₁ := by
  obtain ⟨m₁, hrun₁, hcr₁, hobjects₁, hregs₁, hwrites₁, hholds₁⟩ :=
    delivered_ok entry site (isrHandler run) hkind hr hesp
  have hr₁ : m₁.mem.Region m₁.cr3 lo (44 + 4 * 4) := by
    rw [hcr₁]
    exact hr.congr hwrites₁.pages
  rw [← hcr₁] at hholds₁
  obtain ⟨m₂, hrun₂, hcr₂, hobjects₂, hesp₂, hwrites₂, hholds₂⟩ :=
    isrEnter_ok (BitVec.ofNat 32 v) site hr₁ (by simp [hregs₁]) hholds₁
  rw [hcr₁] at hwrites₂ hholds₂
  rw [← Word.offset_zero lo] at hwrites₂
  refine ⟨m₂, ?_, hcr₂.trans hcr₁, hobjects₂.trans hobjects₁, hesp₂,
    hwrites₁.trans (hwrites₂.widen (by omega)), ?_⟩
  · rw [interrupt, hrun₁, Prog.bind_of_ok hrun₂]
  · have hpushed : m.regs .esp - 20#32 = lo.offset 40 := by
      rw [hesp, show 60 = 40 + 20 from rfl, ← Word.offset_offset]
      exact BitVec.add_sub_cancel _ _
    rw [Registers.words, interrupted, hpushed]
    simpa [hregs₁] using hholds₂

end Enter

/-! ## The way out -/

section Exit

variable {m m₀ : Machine} {x : Registers} {r : Resume} {ws : List Word}

@[simp] theorem addEsp_apply (n : Nat) : addEsp n m =
    .ok ((), { m with regs := Function.update m.regs .esp ((m.regs .esp).offset n) }) := rfl

/-- `iret` within the kernel. -/
theorem iret_ok {eip eflags : Word}
    (h : m.mem.Holds m.cr3 (m.regs .esp) ([eip, kernelCodeSelector, eflags] ++ ws)) :
    iret m = .ok ((), { m with
      regs := Function.update m.regs .esp ((m.regs .esp).offset 12)
      eflags := Eflags.ofWord eflags
      eip := eip }) := by
  obtain ⟨m₁, hm₁⟩ : ∃ m₁ : Machine, m₁ = { m with
    regs := Function.update m.regs .esp ((m.regs .esp).offset 4) } := ⟨_, rfl⟩
  have h₁ : m₁.mem.Holds m₁.cr3 (m₁.regs .esp) ([kernelCodeSelector, eflags] ++ ws) := by
    rw [hm₁]
    simp only [Function.update_self]
    exact h.2
  obtain ⟨m₂, hm₂⟩ : ∃ m₂ : Machine, m₂ = { m₁ with
    regs := Function.update m₁.regs .esp ((m₁.regs .esp).offset 4) } := ⟨_, rfl⟩
  have h₂ : m₂.mem.Holds m₂.cr3 (m₂.regs .esp) (eflags :: ws) := by
    rw [hm₂]
    simp only [Function.update_self]
    exact h₁.2
  rw [iret, Prog.bind_of_ok (pop_ok h), ← hm₁, Prog.bind_of_ok (pop_ok h₁), ← hm₂,
    Prog.bind_of_ok (pop_ok h₂), if_pos rfl, Prog.modify_apply, hm₂, hm₁]
  simp

/-- The registers come back from the words, whatever they were before. -/
theorem isrExit_ok {arg : Word} (hcs : x.cs = kernelCodeSelector)
    (h : m.mem.Holds m.cr3 (m.regs .esp) (arg :: x.words)) :
    ∃ m', isrExit m = .ok ((), m') ∧
      m'.regs = x.popped ((m.regs .esp).offset 56) ∧ m'.eflags = Eflags.ofWord x.eflags ∧
      m'.eip = x.eip ∧ m'.mem = m.mem ∧ m'.cr3 = m.cr3 ∧ m'.objects = m.objects := by
  -- add esp, 4
  obtain ⟨m₁, hm₁⟩ : ∃ m₁ : Machine, m₁ = { m with
    regs := Function.update m.regs .esp ((m.regs .esp).offset 4) } := ⟨_, rfl⟩
  have h₁ : m₁.mem.Holds m₁.cr3 (m₁.regs .esp)
      ([x.edi, x.esi, x.ebp, x.esp, x.ebx, x.edx, x.ecx, x.eax] ++
        [x.intNo, x.errCode, x.eip, x.cs, x.eflags]) := by
    rw [hm₁]
    simp only [Function.update_self]
    exact h.2
  -- popad
  obtain ⟨m₂, hrun₂, hset₂, h₂⟩ := popad_ok h₁
  -- add esp, 8; sti
  obtain ⟨m₃, hm₃⟩ : ∃ m₃ : Machine, m₃ = { m₂ with
    regs := Function.update m₂.regs .esp ((m₂.regs .esp).offset 8)
    eflags := m₂.eflags.enabled } := ⟨_, rfl⟩
  have h₃ : m₃.mem.Holds m₃.cr3 (m₃.regs .esp) ([x.eip, kernelCodeSelector, x.eflags] ++ []) := by
    rw [hm₃, ← hcs]
    simp only [Function.update_self]
    have hrest := h₂.2.2
    rw [Word.offset_offset] at hrest
    exact hrest
  refine ⟨{ m₃ with
    regs := Function.update m₃.regs .esp ((m₃.regs .esp).offset 12)
    eflags := Eflags.ofWord x.eflags
    eip := x.eip }, ?_, ?_, rfl, rfl, ?_, ?_, ?_⟩
  · rw [isrExit, Prog.bind_of_ok (addEsp_apply 4), ← hm₁, Prog.bind_of_ok hrun₂,
      Prog.bind_of_ok (addEsp_apply 8), sti, Prog.modify_bind_apply, ← hm₃, iret_ok h₃]
  · funext q
    simp only [hm₃, hset₂.regs, hm₁]
    cases q <;> simp [Registers.popped]
  · change m₃.mem = m.mem
    rw [hm₃, hset₂.mem, hm₁]
  · change m₃.cr3 = m.cr3
    rw [hm₃, hset₂.cr3, hm₁]
  · change m₃.objects = m.objects
    rw [hm₃, hset₂.objects, hm₁]

/-- The words of the interrupted code bring back the interrupted code. -/
theorem interrupted_exit {n errCode arg : Word}
    (hesp : (m.regs .esp).offset 56 = m₀.regs .esp)
    (h : m.mem.Holds m.cr3 (m.regs .esp) (arg :: (m₀.interrupted n errCode).words)) :
    ∃ m', isrExit m = .ok ((), m') ∧ Resumed m₀.resumePoint m' ∧ m'.mem = m.mem ∧
      m'.cr3 = m.cr3 ∧ m'.objects = m.objects := by
  obtain ⟨m', hrun, hregs, heflags, heip, hmem, hcr, hobjects⟩ := isrExit_ok rfl h
  refine ⟨m', hrun, ⟨?_, ?_, heip⟩, hmem, hcr, hobjects⟩
  · rw [hregs, hesp]
    funext q
    cases q <;> rfl
  · rw [heflags]
    exact Eflags.ofWord_word m₀.eflags

end Exit

/-! ## The dispatch -/

/-- `isr_handler` serves what it was called for, and leaves the state to the service. -/
theorem isrHandler_dispatch {m m₁ : Machine} {n errCode site lo : Word}
    (run : Service → Prog Machine Unit) (h : Entered m n errCode site lo m₁) :
    isrHandler run m₁ = run (service n errCode) m₁ := by
  have hwords := PagedMemory.holds_iff.mp h.words
  have hread {j : Nat} {w : Word} (hw : ([site, lo.offset 8] ++
      (m.interrupted n errCode).words)[j]? = some w) :
      m₁.mem.readWord m₁.cr3 (lo.offset (4 * j)) = some w := by
    obtain ⟨hj, rfl⟩ := List.getElem?_eq_some_iff.mp hw
    rw [h.cr3]
    exact hwords j hj
  have harg : load (lo.offset 4) m₁ = .ok (lo.offset 8, m₁) := load_ok (hread (j := 1) rfl)
  have hintNo : load ((lo.offset 8).offset 32) m₁ = .ok (n, m₁) := by
    rw [Word.offset_offset]
    exact load_ok (hread (j := 10) rfl)
  have herrCode : load ((lo.offset 8).offset 36) m₁ = .ok (errCode, m₁) := by
    rw [Word.offset_offset]
    exact load_ok (hread (j := 11) rfl)
  rw [isrHandler, getReg_bind_apply, h.esp, Prog.bind_of_ok harg, Prog.bind_of_ok hintNo,
    Prog.bind_of_ok herrCode]

end Machine
end MyOs
