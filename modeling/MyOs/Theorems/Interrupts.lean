import MyOs.Logic.Interrupted
import MyOs.Theorems.ContextSwitch

/-!
# Interrupts are transparent

A service that returns as C functions do gives the interrupted code back all its
registers, its flags and its place, whatever it did to the registers itself.
This needs the routine to know whether the processor has pushed an error code;
three of the routines do not.
-/

namespace MyOs

open Machine

/-- The vectors for which the processor pushes an error code. -/
def pushesErrorCode (v : Nat) : Bool := v ∈ [8, 10, 11, 12, 13, 14, 17, 21, 29, 30]

/-- What a service owes the routine that called it with its return address at `lo`:
it returns, and the words above are as they were. -/
structure Served (site lo : Word) (m₁ m₂ : Machine) : Prop where
  eip : m₂.eip = site
  esp : m₂.regs .esp = lo.offset 4
  kept : ∀ i, 4 ≤ i → i < 60 →
    m₂.mem.byteAt m₂.cr3 (lo.offset i) = m₁.mem.byteAt m₁.cr3 (lo.offset i)

section Return

variable {m m₁ m₂ : Machine} {n errCode site lo : Word}

/-- After the service: what was interrupted goes on. -/
theorem isrReturn_resumes (hesp : m.regs .esp = lo.offset 60) (h : Entered m n errCode site lo m₁)
    (hserved : Served site lo m₁ m₂) :
    ∃ m', isrReturn site m₂ = .ok ((), m') ∧ Resumed m.resumePoint m' ∧ m'.mem = m₂.mem ∧
      m'.cr3 = m₂.cr3 ∧ m'.objects = m₂.objects := by
  have hwords : m₂.mem.Holds m₂.cr3 (m₂.regs .esp)
      (lo.offset 8 :: (m.interrupted n errCode).words) := by
    rw [hserved.esp]
    refine h.words.2.congr fun i hi => ?_
    have hlen : i < 56 := hi
    rw [Word.offset_offset, hserved.kept _ (by omega) (by omega), h.cr3]
  have hback : (m₂.regs .esp).offset 56 = m.regs .esp := by
    rw [hserved.esp, Word.offset_offset, hesp]
  obtain ⟨m', hrun, hresumed⟩ := interrupted_exit hback hwords
  refine ⟨m', ?_, hresumed⟩
  rw [isrReturn, Prog.get_bind_apply, if_pos hserved.eip, hrun]

end Return

theorem esp_eq_offset (m : Machine) (n : Nat) :
    m.regs .esp = (m.regs .esp - BitVec.ofNat 32 n).offset n := by
  rw [Word.offset, BitVec.sub_add_cancel]

/-- The routine and the processor agree on the error code, but for three vectors. -/
theorem withErrCode_agrees (v : Nat) :
    (v ∈ withErrCode ↔ pushesErrorCode v = true) ↔ v ∉ [21, 29, 30] := by
  simp only [withErrCode, pushesErrorCode, List.mem_cons, List.not_mem_nil, or_false,
    decide_eq_true_eq]
  omega

/-- **Interrupts are transparent.** An interrupt with any vector that has a routine,
but for three, reaches the service that `isr_handler` has for its number, with
the interrupted registers in the `registers_t`. When the service returns, the
interrupted code goes on with its registers, its flags and its stack as they
were, in the memory the service left; when it does not return, neither does the
interrupt. -/
theorem interrupt_transparent {m : Machine} (v : Nat) (errorCode : Option Word)
    (entry site : Word) (run : Service → Prog Machine Unit) (_hlt : v < 34)
    (hv : v ∉ [21, 29, 30]) (hcode : errorCode.isSome = pushesErrorCode v)
    (hr : m.mem.Region m.cr3 (m.regs .esp - 60#32) 60) :
    ∃ m₁, Entered m (BitVec.ofNat 32 v) (errorCode.getD 0#32) site (m.regs .esp - 60#32) m₁ ∧
      (∀ e, run (service (BitVec.ofNat 32 v) (errorCode.getD 0#32)) m₁ = .error e →
        interrupt v entry site errorCode run m = .error e) ∧
      ∀ m₂, run (service (BitVec.ofNat 32 v) (errorCode.getD 0#32)) m₁ = .ok ((), m₂) →
        Served site (m.regs .esp - 60#32) m₁ m₂ →
        ∃ m', interrupt v entry site errorCode run m = .ok ((), m') ∧
          Resumed m.resumePoint m' ∧ m'.mem = m₂.mem ∧ m'.cr3 = m₂.cr3 ∧
          m'.objects = m₂.objects := by
  have hkind : errorCode.isSome ↔ v ∈ withErrCode := by
    rw [(withErrCode_agrees v).mpr hv, hcode]
  obtain ⟨m₁, hrun, hentered⟩ :=
    interrupt_enters v errorCode entry site run hkind hr (esp_eq_offset m 60)
  have hdispatch := isrHandler_dispatch run hentered
  refine ⟨m₁, hentered, fun e he => ?_, fun m₂ hm₂ hserved => ?_⟩
  · rw [← hdispatch] at he
    rw [hrun, Prog.bind_of_error he]
  · rw [← hdispatch] at hm₂
    rw [hrun, Prog.bind_of_ok hm₂]
    exact isrReturn_resumes (esp_eq_offset m 60) hentered hserved

/-- Every service returns, from every state. -/
def ServicesReturn (run : Service → Prog Machine Unit) : Prop :=
  ∀ s site m₁, m₁.mem.readWord m₁.cr3 (m₁.regs .esp) = some site →
    ∃ m₂, run s m₁ = .ok ((), m₂) ∧ Served site (m₁.regs .esp) m₁ m₂

/-- Code interrupted with this vector goes on as if it had not been. -/
def Transparent (v : Nat) : Prop :=
  ∀ (m : Machine) (errorCode : Option Word) (entry site : Word) (run : Service → Prog Machine Unit),
    errorCode.isSome = pushesErrorCode v → m.mem.Region m.cr3 (m.regs .esp - 60#32) 60 →
    ServicesReturn run →
    ∃ m', interrupt v entry site errorCode run m = .ok ((), m') ∧ Resumed m.resumePoint m'

/-- A service that returns at once. -/
theorem ret_servicesReturn : ServicesReturn fun _ => ret := by
  intro s site m₁ hsite
  refine ⟨{ m₁ with
    regs := Function.update m₁.regs .esp ((m₁.regs .esp).offset 4)
    eip := site }, ?_, rfl, ?_, fun _ _ _ => rfl⟩
  · change ret m₁ = _
    have hword : m₁.mem.Holds m₁.cr3 (m₁.regs .esp) [site] := ⟨hsite, trivial⟩
    rw [ret, Prog.bind_of_ok (pop_ok hword)]
    rfl
  · simp

/-- The sixty bytes below the stack of the initial process. -/
theorem soloMachine_region :
    soloMachine.mem.Region soloMachine.cr3 (soloMachine.regs .esp - 60#32) 60 := by
  have hmap : ∀ i < 60, soloMachine.mem.translate 0x1000#32
      (Word.offset (soloMachine.regs .esp - 60#32) i) = some (0x9000 - 60 + i) := by
    decide +kernel
  have hcr : soloMachine.cr3 = 0x1000#32 := rfl
  rw [hcr]
  refine ⟨fun i hi => ?_, fun i j hi hj heq => ?_⟩
  · rw [hmap i hi]
    rfl
  · rw [hmap i hi, hmap j hj] at heq
    have := Option.some.inj heq
    omega

/-- A keyboard interrupt of the initial process. -/
theorem interrupt_transparent_keyboard : ∃ m',
    interrupt 33 0x200#32 0x210#32 none (fun _ => ret) soloMachine = .ok ((), m') ∧
      Resumed soloMachine.resumePoint m' := by
  obtain ⟨m₁, hentered, _, hreturns⟩ :=
    interrupt_transparent 33 none 0x200#32 0x210#32 (fun _ => ret)
      (by decide) (by decide) rfl soloMachine_region
  have hsite : m₁.mem.readWord m₁.cr3 (m₁.regs .esp) = some 0x210#32 := by
    rw [hentered.cr3, hentered.esp]
    exact hentered.words.1
  obtain ⟨m₂, hrun, hserved⟩ := ret_servicesReturn (service 33#32 0#32) 0x210#32 m₁ hsite
  rw [hentered.esp] at hserved
  obtain ⟨m', hrun', hresumed, _⟩ := hreturns m₂ hrun hserved
  exact ⟨m', hrun', hresumed⟩

/-- Where the processor has pushed an error code below which the routine pushes a `0`,
the error code is taken for the return address. -/
theorem not_transparent {v : Nat} (hv : v ∈ [21, 29, 30]) : ¬ Transparent v := by
  intro h
  have hstops : ∀ v ∈ [21, 29, 30], Prog.returned
      (interrupt v 0x200#32 0x210#32 (some 5#32) fun _ => ret) soloMachine = none := by
    decide +kernel
  have hcodes : ∀ v ∈ [21, 29, 30], true = pushesErrorCode v := by decide
  obtain ⟨m', hrun, _⟩ := h soloMachine (some 5#32) 0x200#32 0x210#32 (fun _ => ret)
    (hcodes v hv) soloMachine_region ret_servicesReturn
  have hreturned := hstops v hv
  rw [Prog.returned, hrun] at hreturned
  cases hreturned

theorem transparent_of_agrees {v : Nat} (h : v ∈ withErrCode ↔ pushesErrorCode v = true) :
    Transparent v := by
  intro m errorCode entry site run hcode hr hservices
  have hkind : errorCode.isSome ↔ v ∈ withErrCode := by
    rw [h, hcode]
  obtain ⟨m₁, hrun, hentered⟩ :=
    interrupt_enters v errorCode entry site run hkind hr (esp_eq_offset m 60)
  have hsite : m₁.mem.readWord m₁.cr3 (m₁.regs .esp) = some site := by
    rw [hentered.cr3, hentered.esp]
    exact hentered.words.1
  obtain ⟨m₂, hm₂, hserved⟩ := hservices (service (BitVec.ofNat 32 v) (errorCode.getD 0#32)) site
    m₁ hsite
  rw [← isrHandler_dispatch run hentered] at hm₂
  rw [hentered.esp] at hserved
  obtain ⟨m', hreturn, hresumed, _⟩ :=
    isrReturn_resumes (esp_eq_offset m 60) hentered hserved
  exact ⟨m', by rw [hrun, Prog.bind_of_ok hm₂, hreturn], hresumed⟩

/-- **Which interrupts are transparent.** Those whose routine knows whether the processor
pushes an error code: all but three exceptions. -/
theorem transparent_iff (v : Nat) (_hlt : v < 34) :
    (Transparent v ↔ (v ∈ withErrCode ↔ pushesErrorCode v = true)) ∧
      (Transparent v ↔ v ∉ [21, 29, 30]) := by
  have hagrees := withErrCode_agrees v
  have hlisted : Transparent v ↔ v ∉ [21, 29, 30] :=
    ⟨fun h hv => not_transparent hv h, fun hv => transparent_of_agrees (hagrees.mpr hv)⟩
  exact ⟨hlisted.trans hagrees.symm, hlisted⟩

/-- The security exception is not. -/
theorem transparent_iff_security : ¬ Transparent 30 := fun h =>
  (transparent_iff 30 (by decide)).2.mp h (by decide)

end MyOs
