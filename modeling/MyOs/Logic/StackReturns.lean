import MyOs.Logic.StackLog

/-!
# `process_create_stack` returns

With page tables behind all entries of the child's directory no table is made, and every
byte stored costs at most one frame, for a page fault. With frames for them all the stack is
built.
-/

namespace MyOs

namespace Machine

/-- In the directory `c`, whose page tables are all there, with `k` frames left. -/
structure Supplied (o : ProcessObjects) (c : Word) (k : Nat) (m : Machine) : Prop where
  keeps : Keeps o c m
  tables : ∀ i, (m.mem.pages.directories c i).isSome = true
  frames : k ≤ m.frames.length

section Supplied

variable {o : ProcessObjects} {c : Word} {k : Nat} {m : Machine}

theorem allocFrame_supplied (h : Supplied o c (k + 1) m) :
    ∃ pa m', allocFrame m = .ok (some pa, m') ∧ Supplied o c k m' ∧ m'.mem = m.mem := by
  have hframes := h.frames
  cases hlist : m.frames with
  | nil =>
      rw [hlist] at hframes
      simp at hframes
  | cons pa rest =>
      rw [hlist] at hframes
      refine ⟨pa, { m with frames := rest }, ?_, ⟨h.keeps, h.tables, ?_⟩, rfl⟩
      · rw [allocFrame, hlist]
      · exact Nat.le_of_succ_le_succ hframes

theorem vmmMapPageToCurrDir_supplied (h : Supplied o c k m) (v : Word) (frame : Nat) :
    ∃ m', vmmMapPageToCurrDir v frame m = .ok ((), m') ∧ Supplied o c k m' := by
  obtain ⟨hobjects, rfl⟩ := h.keeps
  obtain ⟨table, htable⟩ := Option.isSome_iff_exists.mp (h.tables v.directoryIndex)
  have hrun : tableOf v m = .ok (table, m) := by
    rw [tableOf, Prog.get_bind_apply, htable]
    rfl
  refine ⟨{ m with mem := { m.mem with
    pages := m.mem.pages.setEntry table v.tableIndex frame } }, ?_, ⟨h.keeps, h.tables, h.frames⟩⟩
  rw [vmmMapPageToCurrDir, Prog.bind_of_ok hrun]
  rfl

theorem touch_supplied (h : Supplied o c (k + 1) m) (v : Word) :
    ∃ m', touch v m = .ok ((), m') ∧ Supplied o c k m' ∧
      (m'.mem.translate c v).isSome = true := by
  obtain ⟨hobjects, rfl⟩ := h.keeps
  by_cases hmapped : (m.mem.translate m.cr3 v).isSome = true
  · exact ⟨m, touch_of_mapped hmapped, ⟨h.keeps, h.tables, by have := h.frames; omega⟩, hmapped⟩
  obtain ⟨table, htable⟩ := Option.isSome_iff_exists.mp (h.tables v.directoryIndex)
  obtain ⟨frame, m₁, halloc, h₁, hmem⟩ := allocFrame_supplied h
  refine ⟨{ m₁ with mem := { m₁.mem with
    pages := m₁.mem.pages.setEntry table v.tableIndex frame } }, ?_,
    ⟨h₁.keeps, h₁.tables, h₁.frames⟩, ?_⟩
  · rw [touch, Prog.get_bind_apply, if_neg hmapped, pageFault, Prog.get_bind_apply, htable]
    change (allocFrame >>= _) m = _
    rw [Prog.bind_of_ok halloc]
    rfl
  · simp only [PagedMemory.translate, PageTables.translate, PageTables.setEntry, hmem, htable,
      Function.update_self, Option.bind_eq_bind, Option.bind_some]
    rfl

theorem storeByte_supplied (h : Supplied o c (k + 1) m) (v : Word) (b : Byte) :
    ∃ m', storeByte v b m = .ok ((), m') ∧ Supplied o c k m' := by
  obtain ⟨m₁, htouch, h₁, hmapped⟩ := touch_supplied h v
  obtain ⟨p, hp⟩ := Option.isSome_iff_exists.mp hmapped
  obtain ⟨hobjects, rfl⟩ := h₁.keeps
  refine ⟨{ m₁ with mem := { m₁.mem with phys := Function.update m₁.mem.phys p b } }, ?_,
    ⟨h₁.keeps, h₁.tables, h₁.frames⟩⟩
  rw [storeByte, Prog.bind_of_ok htouch, Prog.get_bind_apply,
    PagedMemory.writeByte_of_mapped hp]
  rfl

theorem memset_supplied {n : Nat} (h : Supplied o c (k + n) m) (v : Word) (b : Byte) :
    ∃ m', memset v b n m = .ok ((), m') ∧ Supplied o c k m' := by
  refine Prog.forLoop_ok (P := fun i => Supplied o c (k + (n - i))) (fun i s hi hs => ?_) n 0 m
    (Nat.zero_add n) h |>.imp fun m' h' => ⟨h'.1, ?_⟩
  · rw [show k + (n - i) = k + (n - (i + 1)) + 1 by omega] at hs
    exact storeByte_supplied hs _ b
  · have hend := h'.2
    rwa [Nat.sub_self] at hend

theorem mapStackPage_supplied (h : Supplied o c (k + 4097) m) (espTop : Word) (i : Nat) :
    ∃ m', mapStackPage espTop i m = .ok ((), m') ∧ Supplied o c k m' := by
  obtain ⟨pa, m₁, halloc, h₁, -⟩ := allocFrame_supplied h
  obtain ⟨m₂, hmap, h₂⟩ :=
    vmmMapPageToCurrDir_supplied h₁ (espTop - BitVec.ofNat 32 ((i + 1) * 4096)) pa
  obtain ⟨m₃, hclear, h₃⟩ := memset_supplied h₂ (espTop - BitVec.ofNat 32 ((i + 1) * 4096)) 0
  refine ⟨m₃, ?_, h₃⟩
  rw [mapStackPage, Prog.bind_of_ok halloc]
  change (vmmMapPageToCurrDir _ pa >>= _) m₁ = _
  rw [Prog.bind_of_ok hmap, hclear]

/-! ## The frame -/

/-- Bytes that are mapped can be written. -/
theorem writeBytes_of_mapped {mem : PagedMemory Word} {v : Word} (bs : List Byte)
    (h : ∀ i, i < bs.length → (mem.translate c (v.offset i)).isSome = true) :
    ∃ mem', mem.writeBytes c v bs = some mem' := by
  induction bs generalizing mem v with
  | nil => exact ⟨mem, rfl⟩
  | cons b bs ih =>
      obtain ⟨p, hp⟩ := Option.isSome_iff_exists.mp (h 0 (Nat.succ_pos _))
      rw [Word.offset_zero] at hp
      have hrest : ∀ i, i < bs.length →
          (({ mem with phys := Function.update mem.phys p b } : PagedMemory Word).translate c
            ((v.offset 1).offset i)).isSome = true := by
        intro i hi
        rw [Word.offset_offset, Nat.add_comm 1 i]
        exact h (i + 1) (Nat.succ_lt_succ hi)
      obtain ⟨mem', hwrite⟩ := ih hrest
      refine ⟨mem', ?_⟩
      rw [PagedMemory.writeBytes, PagedMemory.writeByte_of_mapped hp]
      exact hwrite

/-- The 44 bytes at `f` are mapped. -/
def FrameMapped (o : ProcessObjects) (c f : Word) (m : Machine) : Prop :=
  Keeps o c m ∧ ∀ i, i < 44 → (m.mem.translate c (f.offset i)).isSome = true

theorem storeDword_mapped {f : Word} {j : Nat} (h : FrameMapped o c f m) (hj : j < 11) (w : Word) :
    ∃ m', storeDword f j w m = .ok ((), m') ∧ FrameMapped o c f m' := by
  obtain ⟨⟨hobjects, rfl⟩, hmapped⟩ := h
  have hword : ∀ i, i < [w.byte 0, w.byte 1, w.byte 2, w.byte 3].length →
      (m.mem.translate m.cr3 ((f.offset (4 * j)).offset i)).isSome = true := by
    intro i hi
    rw [Word.offset_offset]
    exact hmapped _ (by simp at hi; omega)
  obtain ⟨mem, hwrite⟩ := writeBytes_of_mapped _ hword
  have hpages := PagedMemory.writeBytes_pages hwrite
  refine ⟨{ m with mem := mem }, ?_, ⟨hobjects, rfl⟩, fun i hi => ?_⟩
  · rw [storeDword, Prog.bind_of_ok (touch_of_mapped (hmapped _ (by omega))),
      Prog.bind_of_ok (touch_of_mapped (hmapped _ (by omega))), store, PagedMemory.writeWord, hwrite]
  · rw [PagedMemory.translate_congr hpages]
    exact hmapped i hi

theorem buildTrapFrame_supplied (h : Supplied o c 44 m) (f eip : Word) :
    ∃ m', buildTrapFrame f eip m = .ok ((), m') ∧ Keeps o c m' := by
  have h : Supplied o c (0 + 44) m := h
  obtain ⟨m₁, hclear, h₁⟩ := memset_supplied h f 0
  have hbytes := (memset_spec f 0 44 m h.keeps _ _ hclear).2
  have hmapped : FrameMapped o c f m₁ := by
    refine ⟨h₁.keeps, fun i hi => ?_⟩
    obtain ⟨p, hp, -⟩ := Option.map_eq_some_iff.mp (hbytes i hi)
    rw [hp]
    rfl
  obtain ⟨m₂, hebp, h₂⟩ := storeDword_mapped hmapped (show 3 < 11 by decide) 0
  obtain ⟨m₃, heflags, h₃⟩ := storeDword_mapped h₂ (show 8 < 11 by decide) defaultEflags
  obtain ⟨m₄, heip, h₄⟩ := storeDword_mapped h₃ (show 10 < 11 by decide) eip
  refine ⟨m₄, ?_, h₄.1⟩
  rw [buildTrapFrame, Prog.bind_of_ok hclear, Prog.bind_of_ok hebp, Prog.bind_of_ok heflags, heip]

end Supplied

/-- With page tables and frames enough it returns. -/
theorem processCreateStack_returns {process stackSize : Word} {t u : Task} {m : Machine}
    (ht : m.objects.Has process t) (hu : m.objects.Has m.objects.currentProcess u)
    (hne : process ≠ 0) (htables : ∀ i, (m.mem.pages.directories t.space i).isSome = true)
    (hframes : stackPages stackSize * 4097 + 44 ≤ m.frames.length) :
    ∃ m', processCreateStack process stackSize m = .ok ((), m') := by
  obtain ⟨m₁, hm₁⟩ : ∃ m₁ : Machine, m₁ =
    { m with
      currentDirectory := t.vmContext.pageDir
      cr3 := t.vmContext.pageDirPhysAddr } := ⟨_, rfl⟩
  have hswitch : vmmSwitchVmContext t.pcb.vmContext m = .ok ((), m₁) := by
    rw [hm₁]
    exact vmmSwitchVmContext_ok ht.vmContext_ne ht.vmContext
  have h₁ : Supplied m.objects t.space (44 + (stackPages stackSize - 0) * 4097) m₁ := by
    rw [hm₁]
    exact ⟨⟨rfl, rfl⟩, htables, by simp only; omega⟩
  obtain ⟨m₂, hpages, h₂⟩ := Prog.forLoop_ok
    (P := fun i => Supplied m.objects t.space (44 + (stackPages stackSize - i) * 4097))
    (fun i s hi hs => by
      rw [show 44 + (stackPages stackSize - i) * 4097 =
        44 + (stackPages stackSize - (i + 1)) * 4097 + 4097 by omega] at hs
      exact mapStackPage_supplied hs t.context.esp i)
    (stackPages stackSize) 0 m₁ (Nat.zero_add _) h₁
  rw [Nat.sub_self, Nat.zero_mul] at h₂
  obtain ⟨m₃, hframe, hobjects, -⟩ :=
    buildTrapFrame_supplied h₂ (t.context.esp - 44#32) t.context.eip
  have hu₃ : m₃.objects.Has m.objects.currentProcess u := by
    rw [hobjects]
    exact hu
  obtain ⟨m₄, hm₄⟩ : ∃ m₄ : Machine, m₄ =
    { m₃ with
      currentDirectory := u.vmContext.pageDir
      cr3 := u.vmContext.pageDirPhysAddr } := ⟨_, rfl⟩
  have hback : vmmSwitchVmContext u.pcb.vmContext m₃ = .ok ((), m₄) := by
    rw [hm₄]
    exact vmmSwitchVmContext_ok hu₃.vmContext_ne hu₃.vmContext
  have ht₄ : m₄.objects.Has process t := by
    rw [hm₄]
    exact hobjects ▸ ht
  have hrun : processCreateStack process stackSize m =
      setContext t.pcb.context { t.context with esp := t.context.esp - 44#32 } m₄ := by
    rw [processCreateStack, if_neg hne, Prog.get_bind_apply, Prog.bind_of_ok (pcbOf_ok hu),
      Prog.bind_of_ok (pcbOf_ok ht), Prog.bind_of_ok (readObject_ok ht.context),
      Prog.bind_of_ok hswitch, ← stackPages, Prog.bind_of_ok hpages, Prog.bind_of_ok hframe,
      Prog.bind_of_ok hback, Prog.bind_of_ok (readObject_ok ht₄.context)]
  rw [hrun, setContext_apply]
  exact ⟨_, rfl⟩

end Machine
end MyOs
