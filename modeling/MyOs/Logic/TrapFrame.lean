import MyOs.Logic.SwitchSpec

/-!
# The frame `process_create_stack` writes

The pages of the new stack are mapped and cleared in the child's directory;
what counts in the end are the eleven words below the stack's top. They are a
frame in the sense of `FrameAt`, of a process that starts at its entry point
with its registers clear.
-/

namespace MyOs

namespace Machine

/-- The objects are `o` and the directory in use is `c`. -/
def Keeps (o : ProcessObjects) (c : Word) (m : Machine) : Prop := m.objects = o ∧ m.cr3 = c

section Keeps

variable {o : ProcessObjects} {c : Word}

theorem allocFrame_keeps : Prog.Triple (Keeps o c) allocFrame fun _ => Keeps o c := by
  intro m hm frame m' heq
  rw [allocFrame] at heq
  split at heq
  · cases heq
    exact hm
  · cases heq
    exact hm

theorem setEntry_keeps (table j frame : Nat) :
    Prog.Triple (Keeps o c) (setEntry table j frame) fun _ => Keeps o c :=
  .modify fun _ hm => hm

theorem tableOf_keeps (v : Word) : Prog.Triple (Keeps o c) (tableOf v) fun _ => Keeps o c := by
  refine .read fun m _ => ?_
  split
  · exact .pure fun _ hm => hm
  · refine .bind allocFrame_keeps fun frame => ?_
    split
    · exact .stop
    · exact .bind (.modify fun _ hm => hm) fun _ => .pure fun _ hm => hm

theorem vmmMapPageToCurrDir_keeps (v : Word) (frame : Nat) :
    Prog.Triple (Keeps o c) (vmmMapPageToCurrDir v frame) fun _ => Keeps o c :=
  .bind (tableOf_keeps v) fun _ => setEntry_keeps _ _ _

end Keeps

/-! ## Page faults -/

section Touch

variable {m m' : Machine} {v : Word}

/-- Having a page mapped: the memory and the translations stay. -/
structure Touched (m m' : Machine) : Prop where
  objects : m'.objects = m.objects
  cr3 : m'.cr3 = m.cr3
  phys : m'.mem.phys = m.mem.phys
  pages : ∀ u p, m.mem.translate m.cr3 u = some p → m'.mem.translate m.cr3 u = some p

theorem touch_of_mapped (h : (m.mem.translate m.cr3 v).isSome = true) :
    touch v m = .ok ((), m) := by
  rw [touch, Prog.get_bind_apply, if_pos h]
  rfl

theorem touch_effect (h : touch v m = .ok ((), m')) : Touched m m' := by
  rw [touch, Prog.get_bind_apply] at h
  by_cases hmapped : (m.mem.translate m.cr3 v).isSome = true
  · rw [if_pos hmapped] at h
    cases h
    exact ⟨rfl, rfl, rfl, fun _ _ hp => hp⟩
  rw [if_neg hmapped, pageFault, Prog.get_bind_apply] at h
  cases hdirectory : m.mem.pages.directories m.cr3 v.directoryIndex with
  | none =>
      rw [hdirectory] at h
      cases h
  | some table =>
      rw [hdirectory] at h
      obtain ⟨frame, m₁, halloc, h⟩ := Prog.bind_eq_ok.mp h
      cases frame with
      | none => cases h
      | some frame =>
          have hnone : m.mem.pages.tables table v.tableIndex = none := by
            refine Option.eq_none_iff_forall_ne_some.mpr fun frame' hframe => hmapped ?_
            rw [PagedMemory.translate, PageTables.translate, hdirectory, Option.bind_eq_bind,
              Option.bind_some, hframe]
            rfl
          rw [allocFrame] at halloc
          split at halloc
          · cases halloc
          · cases halloc
            cases h
            exact ⟨rfl, rfl, rfl, fun _ _ hp => PageTables.translate_setEntry hnone hp⟩

/-- One byte stored: it is there, and any other is as it was or the same byte
again. -/
structure Stored (m : Machine) (v : Word) (b : Byte) (m' : Machine) : Prop where
  objects : m'.objects = m.objects
  cr3 : m'.cr3 = m.cr3
  byte : m'.mem.byteAt m.cr3 v = some b
  others : ∀ u x, m.mem.byteAt m.cr3 u = some x →
    m'.mem.byteAt m.cr3 u = some x ∨ m'.mem.byteAt m.cr3 u = some b

theorem storeByte_effect {b : Byte} (h : storeByte v b m = .ok ((), m')) : Stored m v b m' := by
  obtain ⟨_, m₁, htouch, h⟩ := Prog.bind_eq_ok.mp h
  have htouched := touch_effect htouch
  rw [Prog.get_bind_apply] at h
  cases hwrite : m₁.mem.writeByte m₁.cr3 v b with
  | none =>
      rw [hwrite] at h
      cases h
  | some mem =>
      rw [hwrite] at h
      cases h
      rw [htouched.cr3] at hwrite
      have hwritten := PagedMemory.writeByte_effect (d := m.cr3) hwrite
      refine ⟨htouched.objects, htouched.cr3, hwritten.1, fun u x hu => ?_⟩
      obtain ⟨q, hq, hx⟩ := Option.map_eq_some_iff.mp hu
      have hkept : m₁.mem.byteAt m.cr3 u = some x := by
        rw [PagedMemory.byteAt, htouched.pages u q hq, htouched.phys, Option.map_some, hx]
      exact hwritten.2 u x hkept

end Touch

section Frame

variable {o : ProcessObjects} {c f w : Word}

/-- `memset`, byte by byte: what has been cleared stays cleared. -/
theorem memset_spec (v : Word) (b : Byte) (n : Nat) :
    Prog.Triple (Keeps o c) (memset v b n) fun _ m =>
      Keeps o c m ∧ ∀ i, i < n → m.mem.byteAt c (v.offset i) = some b := by
  have turn (i : Nat) : Prog.Triple
      (fun m => Keeps o c m ∧ ∀ j, j < i → m.mem.byteAt c (v.offset j) = some b)
      (storeByte (v.offset i) b) fun _ m =>
        Keeps o c m ∧ ∀ j, j < i + 1 → m.mem.byteAt c (v.offset j) = some b := by
    rintro m ⟨hkeeps, hbytes⟩ _ m' hrun
    have hstored := storeByte_effect hrun
    refine ⟨⟨hstored.objects.trans hkeeps.1, hstored.cr3.trans hkeeps.2⟩, fun j hj => ?_⟩
    rw [← hkeeps.2]
    rcases Nat.lt_succ_iff_lt_or_eq.mp hj with hlt | rfl
    · have hbefore := hbytes j hlt
      rw [← hkeeps.2] at hbefore
      exact (hstored.others _ _ hbefore).elim id id
    · exact hstored.byte
  refine (Prog.Triple.forLoop turn n 0).weaken (fun m hm => ⟨hm, fun j hj => ?_⟩) fun _ m hm => ?_
  · exact absurd hj (Nat.not_lt_zero j)
  · rw [Nat.zero_add] at hm
    exact hm

theorem mapStackPage_keeps (espTop : Word) (i : Nat) :
    Prog.Triple (Keeps o c) (mapStackPage espTop i) fun _ => Keeps o c := by
  refine .bind allocFrame_keeps fun frame => ?_
  split
  · exact .stop
  · refine .bind (vmmMapPageToCurrDir_keeps _ _) fun _ => ?_
    exact (memset_spec _ _ _).weaken (fun _ hm => hm) fun _ _ hm => hm.1

/-- The 44 bytes at `f` are mapped, and hold the words `ws` when they are apart. -/
structure Framed (o : ProcessObjects) (c f : Word) (ws : List Word) (m : Machine) : Prop where
  keeps : Keeps o c m
  mapped : ∀ i, i < 44 → (m.mem.translate c (f.offset i)).isSome = true
  words : m.mem.Region c f 44 → m.mem.Holds c f ws

/-- `f[j] = w` -/
theorem storeDword_framed {ws : List Word} {j : Nat} (hws : ws.length = 11) (hj : j < 11)
    (w : Word) :
    Prog.Triple (Framed o c f ws) (storeDword f j w) fun _ => Framed o c f (ws.set j w) := by
  intro m hm _ m' hrun
  obtain ⟨hobjects, rfl⟩ := hm.keeps
  rw [storeDword, Prog.bind_of_ok (touch_of_mapped (hm.mapped _ (by omega))),
    Prog.bind_of_ok (touch_of_mapped (hm.mapped _ (by omega))), store] at hrun
  cases hwrite : m.mem.writeWord m.cr3 (f.offset (4 * j)) w with
  | none =>
      rw [hwrite] at hrun
      cases hrun
  | some mem =>
      rw [hwrite] at hrun
      cases hrun
      have hpages : mem.pages = m.mem.pages := PagedMemory.writeBytes_pages hwrite
      refine ⟨⟨hobjects, rfl⟩, fun i hi => ?_, fun hr => ?_⟩
      · rw [PagedMemory.translate_congr hpages]
        exact hm.mapped i hi
      · have hr₀ : m.mem.Region m.cr3 f 44 := hr.congr hpages.symm
        have hr₁ : m.mem.Region m.cr3 f (4 * ws.length) := by
          rw [hws]
          exact hr₀
        obtain ⟨mem', hset, _, hwords⟩ := PagedMemory.set_ok hr₁ (hm.words hr₀)
          (show j < ws.length by omega) w
        rw [PagedMemory.writeWord] at hset
        rw [PagedMemory.writeWord, hset] at hwrite
        obtain rfl := Option.some.inj hwrite
        exact hwords

/-- The words of the initial frame. -/
def trapWords (eip : Word) : List Word := [0, 0, 0, 0, 0, 0, 0, 0, defaultEflags, 0, eip]

theorem buildTrapFrame_framed (f eip : Word) :
    Prog.Triple (Keeps o c) (buildTrapFrame f eip) fun _ => Framed o c f (trapWords eip) := by
  have hclear : Prog.Triple (Keeps o c) (memset f 0 44) fun _ =>
      Framed o c f (List.replicate 11 0) := by
    refine (memset_spec f 0 44).weaken (fun _ hm => hm) fun _ m hm => ⟨hm.1, fun i hi => ?_,
      fun _ => PagedMemory.holds_iff.mpr fun j hj => ?_⟩
    · obtain ⟨p, hp, _⟩ := Option.map_eq_some_iff.mp (hm.2 i hi)
      rw [hp]
      rfl
    · rw [List.length_replicate] at hj
      rw [PagedMemory.readWord, Word.offset_offset, Word.offset_offset, Word.offset_offset,
        hm.2 _ (by omega), hm.2 _ (by omega), hm.2 _ (by omega), hm.2 _ (by omega),
        List.getElem_replicate]
      rfl
  refine .bind hclear fun _ => .bind (storeDword_framed rfl (by decide) _) fun _ =>
    .bind (storeDword_framed rfl (by decide) _) fun _ => ?_
  exact storeDword_framed rfl (by decide) _

end Frame

/-! ## Creating a process -/

section Create

variable {m m' : Machine} {new : NewProcess} {top entryPoint : Word}

theorem readObject_eq_ok {α : Type} {objects : ProcessObjects → Word → Option α} {p : Word} {a : α}
    (h : readObject objects p m = .ok (a, m')) : m' = m ∧ objects m.objects p = some a := by
  rw [readObject] at h
  cases hobject : objects m.objects p with
  | none =>
      rw [hobject] at h
      cases h
  | some b =>
      rw [hobject] at h
      cases h
      exact ⟨rfl, rfl⟩

theorem pcbOf_eq_ok {p : Word} {b : Pcb} (h : pcbOf p m = .ok (b, m')) :
    m' = m ∧ ∃ a, m.objects.processes p = some a ∧ m.objects.pcbs a = some b := by
  obtain ⟨a, m₁, hprocess, hpcb⟩ := Prog.bind_eq_ok.mp h
  obtain ⟨rfl, ha⟩ := readObject_eq_ok hprocess
  obtain ⟨rfl, hb⟩ := readObject_eq_ok hpcb
  exact ⟨rfl, a, ha, hb⟩

theorem vmmSwitchVmContext_eq_ok {p : Word} (h : vmmSwitchVmContext p m = .ok ((), m')) :
    p ≠ 0 ∧ m'.mem = m.mem ∧ m'.objects = m.objects ∧
      ∃ c, m.objects.vmContexts p = some c ∧ m'.cr3 = c.pageDirPhysAddr := by
  rw [vmmSwitchVmContext] at h
  by_cases hp : p = 0
  · rw [if_pos hp] at h
    cases h
  · rw [if_neg hp] at h
    obtain ⟨c, m₁, hread, hset⟩ := Prog.bind_eq_ok.mp h
    obtain ⟨rfl, hc⟩ := readObject_eq_ok hread
    cases hset
    exact ⟨hp, rfl, rfl, c, hc, rfl⟩

/-- What a new process goes on with when it first runs. -/
def started (entryPoint top : Word) : Resume where
  regs := Function.update (fun _ => 0) .esp top
  eflags := ⟨defaultEflags, by decide⟩
  eip := entryPoint

/-- The frame `process_create_stack` writes is one to go on with. -/
theorem trapWords_eq (entryPoint top : Word) :
    trapWords entryPoint = frameWords (started entryPoint top) 0 0 := by
  simp [trapWords, frameWords, started]

/-- The stack of a process whose context holds its entry point and its top. -/
theorem processCreateStack_eq_ok {process size : Word} {b : Pcb} {a : Word}
    (hprocess : m.objects.processes process = some a) (hpcb : m.objects.pcbs a = some b)
    (hne : process ≠ 0) (h : processCreateStack process size m = .ok ((), m')) :
    b.vmContext ≠ 0 ∧ ∃ context c, m.objects.contexts b.context = some context ∧
      m.objects.vmContexts b.vmContext = some c ∧
      m'.objects = { m.objects with
        contexts := Function.update m.objects.contexts b.context
          (some { context with esp := context.esp - 44#32 }) } ∧
      (m'.mem.Region c.pageDirPhysAddr (context.esp - 44#32) 44 →
        m'.mem.Holds c.pageDirPhysAddr (context.esp - 44#32) (trapWords context.eip)) := by
  rw [processCreateStack, if_neg hne, Prog.get_bind_apply] at h
  obtain ⟨current, m₁, hcurrent, h₁⟩ := Prog.bind_eq_ok.mp h
  obtain ⟨rfl, _⟩ := pcbOf_eq_ok hcurrent
  obtain ⟨b', m₂, hb, h₂⟩ := Prog.bind_eq_ok.mp h₁
  obtain ⟨rfl, a', ha', hb'⟩ := pcbOf_eq_ok hb
  obtain rfl : a = a' := Option.some.inj (hprocess.symm.trans ha')
  obtain rfl : b = b' := Option.some.inj (hpcb.symm.trans hb')
  obtain ⟨context, m₃, hread, h₃⟩ := Prog.bind_eq_ok.mp h₂
  obtain ⟨rfl, hcontext⟩ := readObject_eq_ok hread
  -- in the child's directory
  obtain ⟨_, m₄, hswitch, h₄⟩ := Prog.bind_eq_ok.mp h₃
  obtain ⟨hvm, _, hobjects₄, c, hvmContext, hcr₄⟩ := vmmSwitchVmContext_eq_ok hswitch
  obtain ⟨_, m₅, hpages, h₅⟩ := Prog.bind_eq_ok.mp h₄
  have hkeeps : Keeps m₃.objects c.pageDirPhysAddr m₅ :=
    Prog.Triple.forLoop (I := fun _ => Keeps m₃.objects c.pageDirPhysAddr)
      (fun i => mapStackPage_keeps context.esp i) _ 0 m₄ ⟨hobjects₄, hcr₄⟩ _ m₅ hpages
  obtain ⟨_, m₆, hframe, h₆⟩ := Prog.bind_eq_ok.mp h₅
  have hframed := buildTrapFrame_framed _ _ m₅ hkeeps _ m₆ hframe
  -- and back
  obtain ⟨_, m₇, hback, h₇⟩ := Prog.bind_eq_ok.mp h₆
  obtain ⟨_, hmem₇, hobjects₇, _⟩ := vmmSwitchVmContext_eq_ok hback
  obtain ⟨context', m₈, hread', hset⟩ := Prog.bind_eq_ok.mp h₇
  obtain ⟨rfl, hc'⟩ := readObject_eq_ok hread'
  rw [hobjects₇, hframed.keeps.1] at hc'
  obtain rfl : context = context' := Option.some.inj (hcontext.symm.trans hc')
  rw [setContext_apply] at hset
  cases hset
  refine ⟨hvm, context, c, hcontext, hvmContext, ?_, ?_⟩
  · simp only [hobjects₇, hframed.keeps.1]
  · change m₈.mem.Region _ _ _ → m₈.mem.Holds _ _ _
    rw [hmem₇]
    exact hframed.words

/-- Blocks that `kmalloc` has just given out: no object is there, nor at `NULL`. -/
structure Fresh (m : Machine) (new : NewProcess) : Prop where
  process : m.objects.processes new.process = none
  pcb : m.objects.pcbs new.pcb = none
  context : m.objects.contexts new.context = none
  vmContext : m.objects.vmContexts new.vmContext = none
  null : m.objects.contexts 0 = none

/-- The objects of a new process, its context `c`. -/
def withProcess (o : ProcessObjects) (new : NewProcess) (c : Context) : ProcessObjects where
  currentProcess := o.currentProcess
  processes := Function.update o.processes new.process (some new.pcb)
  pcbs := Function.update o.pcbs new.pcb (some ⟨new.context, new.vmContext⟩)
  contexts := Function.update o.contexts new.context (some c)
  vmContexts := Function.update o.vmContexts new.vmContext
    (some ⟨new.pageDir, new.pageDirPhysAddr⟩)

/-- After a new process has been created, its frame at the top of its stack. -/
structure Created (m : Machine) (new : NewProcess) (top entryPoint : Word) (m' : Machine) :
    Prop where
  vmContext_ne : new.vmContext ≠ 0
  objects : ∃ c, c.esp = top - 44#32 ∧ m'.objects = withProcess m.objects new c
  frame : m'.mem.Region new.pageDirPhysAddr (top - 44#32) 44 →
    FrameAt m'.mem new.pageDirPhysAddr (top - 44#32) (started entryPoint top)

theorem contextCreate_ok (eip esp context : Word) :
    ∃ m', contextCreate eip esp context m = .ok (context, m') ∧ m'.objects =
      { m.objects with
        contexts := if context = 0 then m.objects.contexts else
          Function.update m.objects.contexts context
            (some ⟨0, 0, 0, esp, 0, 0, 0, 0, eip, defaultEflags⟩) } := by
  by_cases hzero : context = 0
  · refine ⟨m, ?_, ?_⟩
    · rw [contextCreate, if_pos hzero, hzero]
      rfl
    · rw [if_pos hzero]
  · refine ⟨(contextCreate eip esp context).stateAfter m, ?_, ?_⟩
    · rw [contextCreate, if_neg hzero]
      rfl
    · rw [contextCreate, if_neg hzero, if_neg hzero]
      rfl

theorem vmmCreateVmContext_ok (parent : VmContext) (new : NewProcess) :
    ∃ m', vmmCreateVmContext parent new m = .ok (new.vmContext, m') ∧ m'.objects =
      { m.objects with
        vmContexts := if new.vmContext = 0 then m.objects.vmContexts else
          Function.update m.objects.vmContexts new.vmContext
            (some ⟨new.pageDir, new.pageDirPhysAddr⟩) } := by
  by_cases hzero : new.vmContext = 0
  · refine ⟨m, ?_, ?_⟩
    · rw [vmmCreateVmContext, if_pos hzero, hzero]
      rfl
    · rw [if_pos hzero]
  · refine ⟨(vmmCreateVmContext parent new).stateAfter m, ?_, ?_⟩
    · rw [vmmCreateVmContext, if_neg hzero]
      rfl
    · rw [vmmCreateVmContext, if_neg hzero, if_neg hzero]
      rfl

theorem pcbCreate_eq_ok {parent pcb : Word}
    (h : pcbCreate entryPoint top parent new m = .ok (pcb, m')) (hne : pcb ≠ 0) :
    pcb = new.pcb ∧ m'.objects =
      { m.objects with
        pcbs := Function.update m.objects.pcbs new.pcb (some ⟨new.context, new.vmContext⟩)
        contexts := if new.context = 0 then m.objects.contexts else
          Function.update m.objects.contexts new.context
            (some ⟨0, 0, 0, top, 0, 0, 0, 0, entryPoint, defaultEflags⟩)
        vmContexts := if new.vmContext = 0 then m.objects.vmContexts else
          Function.update m.objects.vmContexts new.vmContext
            (some ⟨new.pageDir, new.pageDirPhysAddr⟩) } := by
  rw [pcbCreate] at h
  by_cases hparent : parent = 0
  · rw [if_pos hparent] at h
    cases h
    exact absurd rfl hne
  by_cases hpcb : new.pcb = 0
  · rw [if_neg hparent, if_pos hpcb] at h
    cases h
    exact absurd rfl hne
  rw [if_neg hparent, if_neg hpcb] at h
  obtain ⟨m₁, hcontext, hobjects₁⟩ := contextCreate_ok (m := m) entryPoint top new.context
  rw [Prog.bind_of_ok hcontext] at h
  obtain ⟨c, m₂, hread, hrest⟩ := Prog.bind_eq_ok.mp h
  obtain ⟨rfl, _⟩ := readObject_eq_ok hread
  obtain ⟨m₃, hvmContext, hobjects₃⟩ := vmmCreateVmContext_ok (m := m₂) c new
  rw [Prog.bind_of_ok hvmContext] at hrest
  cases hrest
  exact ⟨rfl, by simp only [hobjects₃, hobjects₁]⟩

/-- **A new process**: its objects, and its frame when the frame's bytes are apart. -/
theorem createProcess_eq_ok {size parent p : Word} (hfresh : Fresh m new)
    (h : createProcess top size entryPoint parent new m = .ok (p, m')) (hp : p ≠ 0) :
    Created m new top entryPoint m' := by
  rw [createProcess] at h
  by_cases hparent : parent = 0
  · rw [if_pos hparent] at h
    cases h
    exact absurd rfl hp
  by_cases hprocess : new.process = 0
  · rw [if_neg hparent, if_pos hprocess] at h
    cases h
    exact absurd rfl hp
  rw [if_neg hparent, if_neg hprocess] at h
  obtain ⟨parentPcb, m₁, hparentPcb, hrest⟩ := Prog.bind_eq_ok.mp h
  obtain ⟨rfl, _⟩ := pcbOf_eq_ok hparentPcb
  obtain ⟨pcb, m₂, hpcb, hrest⟩ := Prog.bind_eq_ok.mp hrest
  by_cases hzero : pcb = 0
  · rw [if_pos hzero] at hrest
    cases hrest
    exact absurd rfl hp
  rw [if_neg hzero] at hrest
  obtain ⟨rfl, hobjects₂⟩ := pcbCreate_eq_ok hpcb hzero
  rw [Prog.modify_bind_apply] at hrest
  obtain ⟨m₃, hm₃⟩ : ∃ m₃ : Machine, m₃ = { m₂ with objects := { m₂.objects with
    processes := Function.update m₂.objects.processes new.process (some new.pcb) } } := ⟨_, rfl⟩
  rw [← hm₃] at hrest
  obtain ⟨_, m₄, hstack, hpure⟩ := Prog.bind_eq_ok.mp hrest
  cases hpure
  have hobjects₃ : m₃.objects =
      { m₁.objects with
        processes := Function.update m₁.objects.processes new.process (some new.pcb)
        pcbs := Function.update m₁.objects.pcbs new.pcb (some ⟨new.context, new.vmContext⟩)
        contexts := if new.context = 0 then m₁.objects.contexts else
          Function.update m₁.objects.contexts new.context
            (some ⟨0, 0, 0, top, 0, 0, 0, 0, entryPoint, defaultEflags⟩)
        vmContexts := if new.vmContext = 0 then m₁.objects.vmContexts else
          Function.update m₁.objects.vmContexts new.vmContext
            (some ⟨new.pageDir, new.pageDirPhysAddr⟩) } := by
    simp only [hm₃, hobjects₂]
  obtain ⟨hvm, context, c, hcontext, hvmContext, hobjects, hframe⟩ :=
    processCreateStack_eq_ok (a := new.pcb) (b := ⟨new.context, new.vmContext⟩)
      (by rw [hobjects₃]; exact Function.update_self ..)
      (by rw [hobjects₃]; exact Function.update_self ..) hprocess hstack
  -- a process without a context would have stopped at NULL
  have hne : new.context ≠ 0 := by
    intro hnull
    rw [hobjects₃] at hcontext
    simp only [hnull, if_true, hfresh.null] at hcontext
    cases hcontext
  rw [hobjects₃] at hcontext hvmContext
  simp only [if_neg hne, Function.update_self, Option.some.injEq] at hcontext
  simp only [if_neg hvm, Function.update_self, Option.some.injEq] at hvmContext
  subst hcontext hvmContext
  refine ⟨hvm, ⟨⟨0, 0, 0, top - 44#32, 0, 0, 0, 0, entryPoint, defaultEflags⟩, rfl,
    hobjects.trans ?_⟩, fun hr => ⟨⟨0, 0, ?_⟩, ?_⟩⟩
  · rw [hobjects₃, withProcess]
    simp only [if_neg hne, if_neg hvm, Function.update_idem]
  · rw [← trapWords_eq]
    exact hframe hr
  · change top = top - 44#32 + 44#32
    rw [BitVec.sub_add_cancel]

end Create

/-! ## The frames after a new process -/

section Frames

variable {m m' : Machine} {new : NewProcess} {c : Context} {t u : Task} {p top entryPoint : Word}
  {r : Resume}

/-- The objects of the new process. -/
def newTask (new : NewProcess) (c : Context) : Task where
  pcbAddr := new.pcb
  pcb := ⟨new.context, new.vmContext⟩
  context := c
  vmContext := ⟨new.pageDir, new.pageDirPhysAddr⟩

theorem has_newTask (hne : new.vmContext ≠ 0) :
    (withProcess m.objects new c).Has new.process (newTask new c) where
  process := Function.update_self ..
  pcb := Function.update_self ..
  context := Function.update_self ..
  vmContext := Function.update_self ..
  vmContext_ne := hne

/-- The other processes keep their objects. -/
theorem Fresh.has (hfresh : Fresh m new) (h : m.objects.Has p t) :
    (withProcess m.objects new c).Has p t := by
  have hne {α : Type} {f : Word → Option α} {a b : Word} {x : α} (hb : f b = none)
      (ha : f a = some x) : a ≠ b := by
    rintro rfl
    rw [hb] at ha
    cases ha
  exact
    { process := (Function.update_of_ne (hne hfresh.process h.process) _ _).trans h.process
      pcb := (Function.update_of_ne (hne hfresh.pcb h.pcb) _ _).trans h.pcb
      context := (Function.update_of_ne (hne hfresh.context h.context) _ _).trans h.context
      vmContext := (Function.update_of_ne (hne hfresh.vmContext h.vmContext) _ _).trans h.vmContext
      vmContext_ne := h.vmContext_ne }

/-- A process is the new one or was there before. -/
theorem has_cases (hfresh : Fresh m new) (hwf : m.Wf) (hne : new.vmContext ≠ 0)
    (h : (withProcess m.objects new c).Has p u) :
    p = new.process ∧ u = newTask new c ∨ p ≠ new.process ∧ m.objects.Has p u := by
  by_cases heq : p = new.process
  · subst heq
    exact .inl ⟨rfl, h.unique (has_newTask hne)⟩
  · have hprocess : Function.update m.objects.processes new.process (some new.pcb) p =
        some u.pcbAddr := h.process
    rw [Function.update_of_ne heq] at hprocess
    obtain ⟨t, ht⟩ := hwf.linked p _ hprocess
    rw [h.unique (hfresh.has ht)]
    exact .inr ⟨heq, ht⟩

theorem Created.new_frame (h : Created m new top entryPoint m')
    (hr : m'.mem.Region new.pageDirPhysAddr (top - 44#32) 44) :
    ∃ t, m'.objects.Has new.process t ∧
      FrameAt m'.mem t.space t.context.esp (started entryPoint top) := by
  obtain ⟨c, hc, hobjects⟩ := h.objects
  refine ⟨newTask new c, ?_, ?_⟩
  · rw [hobjects]
    exact has_newTask h.vmContext_ne
  · rw [show (newTask new c).context.esp = top - 44#32 from hc]
    exact h.frame hr

theorem Created.old_frame (h : Created m new top entryPoint m') (hfresh : Fresh m new)
    (hundisturbed : Undisturbed m m') (ht : m.objects.Has p t)
    (hne : p ≠ m.objects.currentProcess) (hframe : FrameAt m.mem t.space t.context.esp r) :
    m'.objects.Has p t ∧ FrameAt m'.mem t.space t.context.esp r := by
  obtain ⟨c, _, hobjects⟩ := h.objects
  rw [hobjects]
  exact ⟨hfresh.has ht, hframe.congr (hundisturbed p t ht hne)⟩

theorem Created.wf (h : Created m new top entryPoint m') (hfresh : Fresh m new) (hwf : m.Wf)
    (hundisturbed : Undisturbed m m')
    (hr : m'.mem.Region new.pageDirPhysAddr (top - 44#32) 44) : m'.Wf := by
  obtain ⟨c, hc, hobjects⟩ := h.objects
  have hold {p : Word} {t : Task} (ht : m.objects.Has p t) : t.pcb.context ≠ new.context := by
    intro heq
    have hcontext := ht.context
    rw [heq, hfresh.context] at hcontext
    cases hcontext
  refine ⟨?_, fun p a hp => ?_, fun p q u v hu hv heq => ?_, fun p u hu hne => ?_⟩
  · obtain ⟨t, ht⟩ := hwf.current
    rw [hobjects]
    exact ⟨t, hfresh.has ht⟩
  · rw [hobjects] at hp ⊢
    by_cases heq : p = new.process
    · rw [heq]
      exact ⟨_, has_newTask h.vmContext_ne⟩
    · have hprocess : Function.update m.objects.processes new.process (some new.pcb) p = some a := hp
      rw [Function.update_of_ne heq] at hprocess
      obtain ⟨t, ht⟩ := hwf.linked p a hprocess
      exact ⟨t, hfresh.has ht⟩
  · rw [hobjects] at hu hv
    rcases has_cases hfresh hwf h.vmContext_ne hu with ⟨hp, rfl⟩ | ⟨_, hu⟩ <;>
      rcases has_cases hfresh hwf h.vmContext_ne hv with ⟨hq, rfl⟩ | ⟨_, hv⟩
    · rw [hp, hq]
    · exact absurd heq.symm (hold hv)
    · exact absurd heq (hold hu)
    · exact hwf.contexts _ _ _ _ hu hv heq
  · have hcurrent : m'.objects.currentProcess = m.objects.currentProcess := by
      rw [hobjects]
      rfl
    rw [hcurrent] at hne
    rw [hobjects] at hu
    rcases has_cases hfresh hwf h.vmContext_ne hu with ⟨_, rfl⟩ | ⟨_, hu⟩
    · refine ⟨started entryPoint top, ?_⟩
      rw [show (newTask new c).context.esp = top - 44#32 from hc]
      exact h.frame hr
    · obtain ⟨r, hframe⟩ := hwf.suspended p u hu hne
      exact ⟨r, (h.old_frame hfresh hundisturbed hu hne hframe).2⟩

end Frames
end Machine
end MyOs
