import MyOs.Processes.Creation

/-!
# `process_create` without memory

It fails as it should when one of its first two blocks cannot be had. `pcb_create` and
`vmm_create_vm_context` do not look at what the calls below them return, so without any of
the other three blocks the process is used, and returned, all the same.
-/

namespace MyOs

namespace Creation

/-- `x` returns NULL, with nothing written through NULL and no block left. -/
def CleanFailure (x : Prog Creation Nat) (s : Creation) : Prop :=
  ∃ s', x s = .ok (0, s') ∧ s'.held = s.held ∧ s'.writes.count 0 = s.writes.count 0

/-- `process->pcb->vm_context` -/
def vmContextAt (mem : ByteStore) (process : Nat) : Nat :=
  mem.load32 (mem.load32 (process + offsetPcb) + offsetVmContext)

variable {env : CreateEnv} {s s' : Creation} {p : Word}

@[simp] theorem kmalloc_null : kmalloc 0 s = .ok (0, s) := rfl

theorem kmalloc_block (hp : p ≠ 0) :
    kmalloc p s = .ok (p.toNat, { s with held := p.toNat :: s.held }) := by
  rw [kmalloc, if_neg hp]
  rfl

theorem read_apply (q off : Nat) : read q off s = .ok (s.mem.load32 (q + off), s) := rfl

theorem write_apply (q off w : Nat) : write q off w s =
    .ok ((), { s with mem := s.mem.store32 (q + off) w, writes := q :: s.writes }) := rfl

theorem vmContextOf_apply (process : Nat) :
    vmContextOf process s = .ok (vmContextAt s.mem process, s) := rfl

theorem toNat_ne_zero (hp : p ≠ 0) : p.toNat ≠ 0 := by
  intro h
  exact hp (BitVec.eq_of_toNat_eq h)

/-- What has just been written is read. -/
theorem read_write {f : Nat → Prog Creation Nat} {q off w : Nat} (hw : w < 2 ^ 32) :
    (write q off w >>= fun _ => read q off >>= f) s =
      f w { s with mem := s.mem.store32 (q + off) w, writes := q :: s.writes } := by
  rw [Prog.bind_of_ok (write_apply ..), Prog.bind_of_ok (read_apply ..),
    ByteStore.load32_store32 hw]

/-! ## The first two blocks -/

theorem pcbCreate_null {eip esp parent : Nat} (h : parent = 0 ∨ env.blocks.pcb = 0) :
    pcbCreate env eip esp parent s = .ok (0, s) := by
  by_cases hparent : parent = 0
  · rw [pcbCreate, if_pos hparent]
    rfl
  · rw [pcbCreate, if_neg hparent, h.resolve_left hparent, Prog.bind_of_ok kmalloc_null]
    rfl

variable {entryPoint priority parent : Nat} {name : CString}

/-- Without a process or a control block it fails cleanly. -/
theorem processCreate_clean (h : parent = 0 ∨ env.blocks.process = 0 ∨
    vmContextAt s.mem parent = 0 ∨ env.blocks.pcb = 0) :
    CleanFailure (processCreate env entryPoint name priority parent) s := by
  by_cases hparent : parent = 0
  · refine ⟨s, ?_, rfl, rfl⟩
    rw [processCreate, if_pos hparent]
    rfl
  by_cases hprocess : env.blocks.process = 0
  · refine ⟨s, ?_, rfl, rfl⟩
    rw [processCreate, if_neg hparent, hprocess, Prog.bind_of_ok kmalloc_null, if_pos rfl,
      Prog.pure_apply]
  have hpcb := (h.resolve_left hparent).resolve_left hprocess
  have hne := toNat_ne_zero hprocess
  obtain ⟨s₁, hs₁⟩ : ∃ s₁ : Creation, s₁ =
    { s with held := env.blocks.process.toNat :: s.held } := ⟨_, rfl⟩
  have hmem : s₁.mem = s.mem := by rw [hs₁]
  have hrun : processCreate env entryPoint name priority parent s = .ok (0, { s₁ with
      mem := s₁.mem.store32 (env.blocks.process.toNat + offsetPcb) 0
      held := s₁.held.erase env.blocks.process.toNat
      writes := env.blocks.process.toNat :: s₁.writes }) := by
    rw [processCreate, if_neg hparent, Prog.bind_of_ok (kmalloc_block hprocess), if_neg hne, ← hs₁,
      Prog.bind_of_ok (vmContextOf_apply parent), hmem, Prog.bind_of_ok (pcbCreate_null hpcb),
      read_write (by decide), if_pos rfl, kfree, Prog.modify_bind_apply, Prog.pure_apply, hmem]
  refine ⟨_, hrun, ?_, ?_⟩
  · rw [hs₁]
    exact List.erase_cons_head ..
  · rw [hs₁]
    exact List.count_cons_of_ne hne

/-! ## The others -/

/-- `x` frees nothing: blocks and pointers written through are only added. -/
def Adds {α : Type} (x : Prog Creation α) : Prop :=
  ∀ s a s', x s = .ok (a, s') → s.held <:+ s'.held ∧ s.writes <:+ s'.writes

namespace Adds

variable {α β : Type}

theorem pure (a : α) : Adds (pure a) := by
  rintro s _ _ ⟨⟩
  exact ⟨List.suffix_refl _, List.suffix_refl _⟩

theorem bind {x : Prog Creation α} {f : α → Prog Creation β} (hx : Adds x)
    (hf : ∀ a, Adds (f a)) : Adds (x >>= f) := by
  intro s b s' hrun
  obtain ⟨a, s₁, hfirst, hrest⟩ := Prog.bind_eq_ok.mp hrun
  have h₁ := hx s a s₁ hfirst
  have h₂ := hf a s₁ b s' hrest
  exact ⟨h₁.1.trans h₂.1, h₁.2.trans h₂.2⟩

theorem ite {c : Prop} [Decidable c] {x y : Prog Creation α} (hx : Adds x) (hy : Adds y) :
    Adds (if c then x else y) := by
  split
  · exact hx
  · exact hy

theorem modify {f : Creation → Creation} (hheld : ∀ s, s.held <:+ (f s).held)
    (hwrites : ∀ s, s.writes <:+ (f s).writes) : Adds (Prog.modify f) := by
  rintro s _ _ ⟨⟩
  exact ⟨hheld s, hwrites s⟩

theorem forLoop {body : Nat → Prog Creation Unit} (h : ∀ i, Adds (body i)) (start n : Nat) :
    Adds (Prog.forLoop body start n) := by
  induction n generalizing start with
  | zero => exact pure ()
  | succ n ih => exact bind (h start) fun _ => ih (start + 1)

theorem read (p off : Nat) : Adds (read p off) := by
  rintro s _ _ ⟨⟩
  exact ⟨List.suffix_refl _, List.suffix_refl _⟩

theorem write (p off w : Nat) : Adds (write p off w) :=
  modify (fun _ => List.suffix_refl _) fun _ => List.suffix_cons _ _

theorem writeBytes (p off : Nat) (bs : List Byte) : Adds (writeBytes p off bs) :=
  modify (fun _ => List.suffix_refl _) fun _ => List.suffix_cons _ _

theorem onMemory (x : Prog ByteStore α) : Adds (onMemory x) := by
  intro s a s' hrun
  obtain ⟨mem, _, rfl⟩ := Prog.zoom_eq_ok.mp hrun
  exact ⟨List.suffix_refl _, List.suffix_refl _⟩

theorem kmalloc (p : Word) : Adds (kmalloc p) :=
  ite (pure 0) (bind (modify (fun _ => List.suffix_cons _ _) fun _ => List.suffix_refl _)
    fun _ => pure _)

theorem writeFields (p : Nat) (ws : List Nat) (off : Nat) : Adds (writeFields p off ws) := by
  induction ws generalizing off with
  | nil => exact pure ()
  | cons w ws ih => exact bind (write p off w) fun _ => ih (off + 4)

theorem contextCreate (eip esp : Nat) : Adds (contextCreate env eip esp) :=
  bind (kmalloc _) fun _ => ite (pure 0) (bind (writeFields _ _ _) fun _ => pure _)

theorem vmmCreateEmptyPageDirectory : Adds (vmmCreateEmptyPageDirectory env) :=
  bind (kmalloc _) fun _ => ite (pure 0) (bind (writeBytes _ _ _) fun _ => pure _)

theorem copyTable (vmContext pageDir i : Nat) : Adds (copyTable vmContext pageDir i) :=
  bind (read _ _) fun _ => bind (read _ _) fun _ => write _ _ _

theorem vmmCreateVmContext (pageDir : Nat) : Adds (vmmCreateVmContext env pageDir) := by
  refine bind (kmalloc _) fun _ => ite (pure 0) ?_
  refine bind vmmCreateEmptyPageDirectory fun _ => bind (write _ _ _) fun _ =>
    bind (forLoop (copyTable _ _) _ _) fun _ => bind (read _ _) fun _ =>
      bind (onMemory _) fun _ => ?_
  exact bind (write _ _ _) fun _ => bind (read _ _) fun _ => bind (read _ _) fun _ =>
    bind (write _ _ _) fun _ => pure _

theorem vmContextOf (process : Nat) : Adds (vmContextOf process) :=
  bind (read _ _) fun _ => read _ _

theorem vmmSwitchVmContext (vmContext : Nat) : Adds (vmmSwitchVmContext vmContext) := by
  refine ite ?_ ?_
  · rintro s _ _ ⟨⟩
  · exact bind (read _ _) fun _ => bind (read _ _) fun _ =>
      modify (fun _ => List.suffix_refl _) fun _ => List.suffix_refl _

theorem processCreateStack (process stackSize : Nat) :
    Adds (processCreateStack env process stackSize) := by
  refine ite (pure ()) ?_
  refine bind (vmContextOf _) fun _ => bind (read _ _) fun _ => bind (read _ _) fun _ =>
    bind (read _ _) fun _ => bind (vmContextOf _) fun _ => bind (vmmSwitchVmContext _) fun _ =>
      bind (onMemory _) fun _ => bind (vmmSwitchVmContext _) fun _ => ?_
  exact bind (read _ _) fun _ => bind (read _ _) fun _ => write _ _ _

theorem pidAlloc : Adds pidAlloc := by
  rintro s _ _ ⟨⟩
  exact ⟨List.suffix_refl _, List.suffix_refl _⟩

end Adds

/-- An entry copied while the directory is NULL is written through NULL. -/
theorem copyTable_null {vmContext pageDir i : Nat}
    (hnull : s.mem.load32 (vmContext + offsetPageDir) = 0)
    (h : copyTable vmContext pageDir i s = .ok ((), s')) : 0 ∈ s'.writes := by
  cases h
  rw [hnull]
  exact List.mem_cons_self ..

theorem vmmCreateVmContext_null {pageDir vmContext : Nat} (hvm : env.blocks.vmContext ≠ 0)
    (hdir : env.blocks.pageDir = 0)
    (h : vmmCreateVmContext env pageDir s = .ok (vmContext, s')) : 0 ∈ s'.writes := by
  have hempty (s : Creation) : vmmCreateEmptyPageDirectory env s = .ok (0, s) := by
    rw [vmmCreateEmptyPageDirectory, hdir, Prog.bind_of_ok kmalloc_null, if_pos rfl,
      Prog.pure_apply]
  rw [vmmCreateVmContext, Prog.bind_of_ok (kmalloc_block hvm), if_neg (toNat_ne_zero hvm),
    Prog.bind_of_ok (hempty _), Prog.bind_of_ok (write_apply ..)] at h
  obtain ⟨_, s₁, hloop, h⟩ := Prog.bind_eq_ok.mp h
  -- the first entry, and what follows only adds to the record
  rw [show tablesPerDir - 1 = 1022 + 1 from rfl, Prog.forLoop] at hloop
  obtain ⟨_, s₂, hfirst, hrest⟩ := Prog.bind_eq_ok.mp hloop
  have hnull := copyTable_null (ByteStore.load32_store32 (by decide)) hfirst
  have hrest := Adds.forLoop (Adds.copyTable _ _) _ _ _ _ _ hrest
  rw [Prog.bind_of_ok (read_apply ..)] at h
  obtain ⟨phys, s₃, hphys, h⟩ := Prog.bind_eq_ok.mp h
  have hphys := Adds.onMemory _ _ _ _ hphys
  cases h
  exact List.mem_cons_of_mem _ (List.mem_cons_of_mem _ (hphys.2.subset (hrest.2.subset hnull)))

/-- What `pcb_create` returns when it has the block, and what it leaves. -/
theorem pcbCreate_block {eip esp parent pcb : Nat} (hparent : parent ≠ 0)
    (hpcb : env.blocks.pcb ≠ 0) (h : pcbCreate env eip esp parent s = .ok (pcb, s')) :
    pcb = env.blocks.pcb.toNat ∧ (pcb :: s.held) <:+ s'.held ∧
      (env.blocks.vmContext ≠ 0 → env.blocks.pageDir = 0 → 0 ∈ s'.writes) := by
  rw [pcbCreate, if_neg hparent, Prog.bind_of_ok (kmalloc_block hpcb),
    if_neg (toNat_ne_zero hpcb)] at h
  obtain ⟨_, s₁, hcontext, h⟩ := Prog.bind_eq_ok.mp h
  obtain ⟨_, s₂, hwrite, h⟩ := Prog.bind_eq_ok.mp h
  rw [Prog.bind_of_ok (read_apply ..)] at h
  obtain ⟨vmContext, s₃, hvm, h⟩ := Prog.bind_eq_ok.mp h
  cases h
  have hheld := (Adds.contextCreate _ _ _ _ _ hcontext).1.trans
    (Adds.write _ _ _ _ _ _ hwrite).1
  refine ⟨rfl, hheld.trans (Adds.vmmCreateVmContext _ _ _ _ hvm).1, fun hne hnull => ?_⟩
  have hwritten := vmmCreateVmContext_null hne hnull hvm
  exact List.mem_cons_of_mem _ (List.mem_cons_of_mem _ hwritten)

/-- With a control block `process_create` does not return NULL any more, nor gives the
blocks back; and through a directory that is NULL it has written. -/
theorem processCreate_block {process : Nat} (hparent : parent ≠ 0)
    (hprocess : env.blocks.process ≠ 0) (hvm : vmContextAt s.mem parent ≠ 0)
    (hpcb : env.blocks.pcb ≠ 0)
    (h : processCreate env entryPoint name priority parent s = .ok (process, s')) :
    process = env.blocks.process.toNat ∧
      (env.blocks.pcb.toNat :: process :: s.held) <:+ s'.held ∧
      (env.blocks.vmContext ≠ 0 → env.blocks.pageDir = 0 → 0 ∈ s'.writes) := by
  rw [processCreate, if_neg hparent, Prog.bind_of_ok (kmalloc_block hprocess),
    if_neg (toNat_ne_zero hprocess), Prog.bind_of_ok (vmContextOf_apply parent)] at h
  obtain ⟨pcb, s₁, hcreate, h⟩ := Prog.bind_eq_ok.mp h
  obtain ⟨rfl, hheld, hnull⟩ := pcbCreate_block hvm hpcb hcreate
  rw [read_write (BitVec.isLt _), if_neg (toNat_ne_zero hpcb)] at h
  obtain ⟨_, s₂, hstack, h⟩ := Prog.bind_eq_ok.mp h
  obtain ⟨pid, s₃, hpid, h⟩ := Prog.bind_eq_ok.mp h
  cases h
  have hstack := Adds.processCreateStack _ _ _ _ _ hstack
  have hpid := Adds.pidAlloc _ _ _ hpid
  refine ⟨rfl, hheld.trans (hstack.1.trans hpid.1), fun hne hdir => ?_⟩
  have hbefore := hstack.2.subset (List.mem_cons_of_mem _ (hnull hne hdir))
  simpa using .inr (hpid.2.subset hbefore)

/-- **Failing to create a process.** Whatever the calls of `kmalloc` return, `process_create`
fails cleanly exactly if it gets no further than its first two blocks, the process and the
control block: never when one of the other three is NULL. -/
theorem process_create_clean_iff :
    CleanFailure (processCreate env entryPoint name priority parent) s ↔
      parent = 0 ∨ env.blocks.process = 0 ∨ vmContextAt s.mem parent = 0 ∨
        env.blocks.pcb = 0 := by
  constructor
  · rintro ⟨s', hrun, -⟩
    by_contra hcond
    simp only [not_or] at hcond
    obtain ⟨hparent, hprocess, hvm, hpcb⟩ := hcond
    have hreturned := (processCreate_block hparent hprocess hvm hpcb hrun).1
    exact toNat_ne_zero hprocess hreturned.symm
  · exact processCreate_clean

/-- There is memory for everything but the page directory. -/
def noDirectory : CreateEnv where
  blocks := ⟨0x4000, 0x5000, 0x6000, 0x7000, 0⟩
  currentProcess := 0x10000
  vmmCalcPhysAddr virAddr := pure virAddr
  buildStack _ _ _ := pure ()

/-- The process at 0x10000 is about to create another. -/
def beforeCreate : Creation where
  mem := ByteStore.ofWords [(0x10000, 0x11000), (0x11004, 0x12000), (0x12000, 0x13000)]
  held := []
  writes := []
  nextPid := 2
  currentDirectory := 0x13000
  cr3 := 0x13000

/-- It returns the process, keeps its blocks and has written through NULL. -/
theorem process_create_no_directory :
    ¬ CleanFailure (processCreate noDirectory 0x8048000 (.lit "shell") 1 0x10000) beforeCreate ∧
      ∀ process s', processCreate noDirectory 0x8048000 (.lit "shell") 1 0x10000 beforeCreate =
        .ok (process, s') → process = 0x4000 ∧ [0x5000, 0x4000] <:+ s'.held ∧ 0 ∈ s'.writes := by
  have hvm : vmContextAt beforeCreate.mem 0x10000 ≠ 0 := by decide
  have hcreated {process : Nat} {s' : Creation} (hrun : processCreate noDirectory 0x8048000
      (.lit "shell") 1 0x10000 beforeCreate = .ok (process, s')) :=
    processCreate_block (by decide) (by decide) hvm (by decide) hrun
  constructor
  · rintro ⟨s', hrun, -⟩
    exact absurd (hcreated hrun).1 (by decide)
  · intro process s' hrun
    obtain ⟨rfl, hheld, hnull⟩ := hcreated hrun
    exact ⟨rfl, hheld, hnull (by decide) rfl⟩

end Creation
end MyOs
