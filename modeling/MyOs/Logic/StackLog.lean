import MyOs.Base.Noted
import MyOs.Logic.TrapFrame

/-!
# What `process_create_stack` maps and writes

`Noted` has the functions of `process_create_stack` with notes: the frames it obtains, the
pages it maps and the bytes it stores, but not what the page fault handler does for it. The
notes of a run are known exactly up to the frames (`Built`).
-/

namespace MyOs

/-- The frames from `pmm_alloc_frame`, the calls of `vmm_map_page_to_curr_dir` with the
directory in use, and the bytes stored; the latest first. -/
structure StackLog where
  frames : List Nat
  maps : List (Word × Word × Nat)
  writes : List Word

namespace Machine
namespace Noted

open Prog

def allocFrame : Prog (Machine × StackLog) (Option Nat) :=
  Machine.allocFrame.noting fun frame _ l => { l with frames := frame.toList ++ l.frames }

def vmmMapPageToCurrDir (v : Word) (frame : Nat) : Prog (Machine × StackLog) Unit :=
  (Machine.vmmMapPageToCurrDir v frame).noting fun _ m l =>
    { l with maps := (m.cr3, v, frame) :: l.maps }

def storeByte (v : Word) (b : Byte) : Prog (Machine × StackLog) Unit :=
  (Machine.storeByte v b).noting fun _ _ l => { l with writes := v :: l.writes }

def memset (v : Word) (b : Byte) (n : Nat) : Prog (Machine × StackLog) Unit :=
  Prog.forLoop (fun i => storeByte (v.offset i) b) 0 n

def storeDword (f : Word) (i : Nat) (w : Word) : Prog (Machine × StackLog) Unit :=
  (Machine.storeDword f i w).noting fun _ _ l =>
    { l with writes := (List.range 4).map (fun j => f.offset (4 * i + j)) ++ l.writes }

def mapStackPage (espTop : Word) (i : Nat) : Prog (Machine × StackLog) Unit := do
  let frame ← allocFrame
  match frame with
  | none => Prog.stop (.panic "pmm_alloc_frame() failed while building stack")
  | some pa => do
      let virAddr := espTop - BitVec.ofNat 32 ((i + 1) * 4096)
      vmmMapPageToCurrDir virAddr pa
      memset virAddr 0 4096

def buildTrapFrame (f eip : Word) : Prog (Machine × StackLog) Unit := do
  memset f 0 44
  storeDword f 3 0
  storeDword f 8 defaultEflags
  storeDword f 10 eip

def processCreateStack (process stackSize : Word) : Prog (Machine × StackLog) Unit :=
  if process = 0 then pure ()
  else do
    let m ← Prog.get.silent
    let current ← (pcbOf m.objects.currentProcess).silent
    let pages := ((stackSize + 4095#32) &&& ~~~4095#32).toNat / 4096
    let pcb ← (pcbOf process).silent
    let context ← (readObject ProcessObjects.contexts pcb.context).silent
    (vmmSwitchVmContext pcb.vmContext).silent
    Prog.forLoop (mapStackPage context.esp) 0 pages
    let espFrame := context.esp - 44#32
    buildTrapFrame espFrame context.eip
    (vmmSwitchVmContext current.vmContext).silent
    let context ← (readObject ProcessObjects.contexts pcb.context).silent
    (setContext pcb.context { context with esp := espFrame }).silent

/-! ## The notes change nothing -/

theorem memset_erases (v : Word) (b : Byte) (n : Nat) :
    Erases (memset v b n) (Machine.memset v b n) :=
  .forLoop (fun _ => .noting _ _) 0 n

theorem mapStackPage_erases (espTop : Word) (i : Nat) :
    Erases (mapStackPage espTop i) (Machine.mapStackPage espTop i) := by
  refine .bind (.noting _ _) fun frame => ?_
  cases frame with
  | none => exact .stop _
  | some pa => exact .bind (.noting _ _) fun _ => memset_erases _ _ _

theorem buildTrapFrame_erases (f eip : Word) :
    Erases (buildTrapFrame f eip) (Machine.buildTrapFrame f eip) :=
  .bind (memset_erases _ _ _) fun _ => .bind (.noting _ _) fun _ =>
    .bind (.noting _ _) fun _ => .noting _ _

theorem processCreateStack_erases (process stackSize : Word) :
    Erases (processCreateStack process stackSize)
      (Machine.processCreateStack process stackSize) := by
  refine .ite (.pure ()) ?_
  refine .bind (.noting _ _) fun m => .bind (.noting _ _) fun current =>
    .bind (.noting _ _) fun pcb => .bind (.noting _ _) fun context => ?_
  refine .bind (.noting _ _) fun _ => .bind (.forLoop (mapStackPage_erases _) _ _) fun _ =>
    .bind (buildTrapFrame_erases _ _) fun _ => ?_
  exact .bind (.noting _ _) fun _ => .bind (.noting _ _) fun _ => .noting _ _

end Noted

/-- The notes of a call of `process_create_stack` that returns. -/
def stackLog (process stackSize : Word) (m : Machine) : StackLog :=
  ((Noted.processCreateStack process stackSize).stateAfter (m, ⟨[], [], []⟩)).2

/-! ## What the notes say -/

/-- Page `j` of a stack, from its top. -/
def stackPage (espTop : Word) (j : Nat) : Word := espTop - BitVec.ofNat 32 ((j + 1) * 4096)

/-- The pages of a stack mapped to these frames, the lowest page first. -/
def stackMaps (c espTop : Word) : List Nat → List (Word × Word × Nat)
  | [] => []
  | pa :: frames => (c, stackPage espTop frames.length, pa) :: stackMaps c espTop frames

/-- The `n` bytes below an address. -/
def Below (espTop : Word) (n : Nat) (v : Word) : Prop :=
  ∃ k, 0 < k ∧ k ≤ n ∧ v = espTop - BitVec.ofNat 32 k

theorem Below.mono {espTop v : Word} {n n' : Nat} (h : Below espTop n v) (hn : n ≤ n') :
    Below espTop n' v := by
  obtain ⟨k, hpos, hle, hv⟩ := h
  exact ⟨k, hpos, Nat.le_trans hle hn, hv⟩

theorem below_offset (espTop : Word) {n j : Nat} (hj : j < n) :
    Below espTop n ((espTop - BitVec.ofNat 32 n).offset j) := by
  refine ⟨n - j, by omega, by omega, ?_⟩
  rw [Word.offset]
  bv_omega

/-- In the directory `c`: the notes are these, and every byte stored is one of `A`. -/
structure Notes (c : Word) (frames : List Nat) (maps : List (Word × Word × Nat))
    (A : Word → Prop) (t : Machine × StackLog) : Prop where
  cr3 : t.1.cr3 = c
  frames : t.2.frames = frames
  maps : t.2.maps = maps
  writes : ∀ v ∈ t.2.writes, A v

section Notes

variable {c espTop : Word} {frames : List Nat} {maps : List (Word × Word × Nat)}
  {A A' : Word → Prop}

theorem Notes.mono {t : Machine × StackLog} (h : Notes c frames maps A t) (hA : ∀ v, A v → A' v) :
    Notes c frames maps A' t :=
  ⟨h.cr3, h.frames, h.maps, fun v hv => hA v (h.writes v hv)⟩

theorem storeByte_notes (v : Word) (b : Byte) :
    Prog.Triple (Notes c frames maps A) (Noted.storeByte v b) fun _ =>
      Notes c frames maps fun u => A u ∨ u = v := by
  refine Prog.noting_triple fun m l h _ m' hrun => ⟨?_, h.frames, h.maps, fun u hu => ?_⟩
  · exact (storeByte_effect hrun).cr3.trans h.cr3
  · rcases List.mem_cons.mp hu with rfl | hu
    · exact .inr rfl
    · exact .inl (h.writes u hu)

/-- `memset` of bytes that may be stored. -/
theorem memset_notes {v : Word} {n : Nat} (b : Byte) (hA : ∀ j, j < n → A (v.offset j)) :
    Prog.Triple (Notes c frames maps A) (Noted.memset v b n) fun _ => Notes c frames maps A := by
  have turn (j : Nat) : Prog.Triple
      (Notes c frames maps fun u => A u ∨ ∃ i, i < j ∧ u = v.offset i)
      (Noted.storeByte (v.offset j) b) fun _ =>
        Notes c frames maps fun u => A u ∨ ∃ i, i < j + 1 ∧ u = v.offset i := by
    refine (storeByte_notes _ b).weaken (fun _ h => h) fun _ t h => h.mono fun u hu => ?_
    rcases hu with (hu | ⟨i, hi, hu⟩) | hu
    · exact .inl hu
    · exact .inr ⟨i, by omega, hu⟩
    · exact .inr ⟨j, by omega, hu⟩
  refine (Prog.Triple.forLoop turn n 0).weaken (fun t h => h.mono fun u => .inl) fun _ t h => ?_
  rw [Nat.zero_add] at h
  refine h.mono fun u hu => ?_
  rcases hu with hu | ⟨j, hj, rfl⟩
  · exact hu
  · exact hA j hj

/-- One page of the stack. -/
theorem mapStackPage_notes (i : Nat) :
    Prog.Triple
      (fun t => ∃ frames, frames.length = i ∧
        Notes c frames (stackMaps c espTop frames) (Below espTop (i * 4096)) t)
      (Noted.mapStackPage espTop i)
      fun _ t => ∃ frames, frames.length = i + 1 ∧
        Notes c frames (stackMaps c espTop frames) (Below espTop ((i + 1) * 4096)) t := by
  rintro t ⟨frames, hlen, h⟩ _ t' hrun
  obtain ⟨frame, t₁, halloc, hrun⟩ := Prog.bind_eq_ok.mp hrun
  obtain ⟨halloc, hnote⟩ := Prog.noting_eq_ok halloc
  cases frame with
  | none => cases hrun
  | some pa =>
      obtain ⟨_, t₂, hmap, hrun⟩ := Prog.bind_eq_ok.mp hrun
      obtain ⟨hmap, hnote'⟩ := Prog.noting_eq_ok hmap
      have hcr₁ := (allocFrame_keeps t.1 ⟨rfl, h.cr3⟩ _ _ halloc).2
      have hcr₂ := (vmmMapPageToCurrDir_keeps _ _ t₁.1 ⟨rfl, hcr₁⟩ _ _ hmap).2
      have h₂ : Notes c (pa :: frames) (stackMaps c espTop (pa :: frames))
          (Below espTop ((i + 1) * 4096)) t₂ := by
        refine ⟨hcr₂, ?_, ?_, fun v hv => ?_⟩
        · rw [hnote', hnote, h.frames]
          rfl
        · rw [hnote', hnote, h.maps, hcr₂, stackMaps, hlen]
          rfl
        · rw [hnote', hnote] at hv
          exact (h.writes v hv).mono (by omega)
      refine ⟨pa :: frames, by rw [List.length_cons, hlen], ?_⟩
      refine memset_notes 0 (fun j hj => ?_) t₂ h₂ _ _ hrun
      exact below_offset espTop (show j < (i + 1) * 4096 by omega)

theorem storeDword_cr3 {m m' : Machine} {f w : Word} {i : Nat}
    (h : storeDword f i w m = .ok ((), m')) : m'.cr3 = m.cr3 := by
  obtain ⟨_, m₁, hfirst, h⟩ := Prog.bind_eq_ok.mp h
  obtain ⟨_, m₂, hlast, h⟩ := Prog.bind_eq_ok.mp h
  rw [store] at h
  split at h
  · cases h
    exact (touch_effect hlast).cr3.trans (touch_effect hfirst).cr3
  · cases h

/-- The four bytes of `f[i]`. -/
theorem storeDword_notes {f : Word} {i : Nat} (w : Word)
    (hA : ∀ j, j < 4 → A (f.offset (4 * i + j))) :
    Prog.Triple (Notes c frames maps A) (Noted.storeDword f i w) fun _ t =>
      Notes c frames maps A t ∧ f.offset (4 * i) ∈ t.2.writes := by
  refine Prog.noting_triple fun m l h _ m' hrun => ⟨⟨?_, h.frames, h.maps, fun u hu => ?_⟩, ?_⟩
  · exact (storeDword_cr3 hrun).trans h.cr3
  · rcases List.mem_append.mp hu with hu | hu
    · obtain ⟨j, hj, rfl⟩ := List.mem_map.mp hu
      exact hA j (List.mem_range.mp hj)
    · exact h.writes u hu
  · exact List.mem_append_left _ (List.mem_map.mpr ⟨0, by simp, rfl⟩)

/-- The frame of eleven words below `espTop`. -/
theorem buildTrapFrame_notes (eip : Word) (hA : ∀ v, Below espTop 44 v → A v) :
    Prog.Triple (Notes c frames maps A) (Noted.buildTrapFrame (espTop - 44#32) eip) fun _ t =>
      Notes c frames maps A t ∧ t.2.writes ≠ [] := by
  have hframe {j : Nat} (hj : j < 44) : A ((espTop - 44#32).offset j) :=
    hA _ (below_offset espTop hj)
  refine .bind (memset_notes 0 fun j hj => hframe hj) fun _ => ?_
  refine .bind (storeDword_notes 0 fun j hj => hframe (by omega)) fun _ => ?_
  refine .bind (Q := fun _ => Notes c frames maps A) ?_ fun _ => ?_
  · exact (storeDword_notes defaultEflags fun j hj => hframe (by omega)).weaken
      (fun _ h => h.1) fun _ _ h => h.1
  · exact (storeDword_notes eip fun j hj => hframe (by omega)).weaken (fun _ h => h)
      fun _ _ h => ⟨h.1, List.ne_nil_of_mem h.2⟩

end Notes

theorem pcbOf_ok {m : Machine} {p : Word} {t : Task} (ht : m.objects.Has p t) :
    pcbOf p m = .ok (t.pcb, m) := by
  rw [pcbOf, Prog.bind_of_ok (readObject_ok ht.process), readObject_ok ht.pcb]

/-- `stack_size` in whole pages. -/
def stackPages (stackSize : Word) : Nat := ((stackSize + 4095#32) &&& ~~~4095#32).toNat / 4096

/-- The notes of `process_create_stack`: as many pages as it computes are mapped, each to a
frame of its own; it has stored something, and only in these pages and in the frame. -/
theorem stackLog_spec {process stackSize : Word} {t : Task} {m m' : Machine}
    (ht : m.objects.Has process t) (hne : process ≠ 0)
    (h : processCreateStack process stackSize m = .ok ((), m')) :
    let log := stackLog process stackSize m
    ∃ frames, frames.length = stackPages stackSize ∧ log.frames = frames ∧
      log.maps = stackMaps t.space t.context.esp frames ∧ log.writes ≠ [] ∧
      ∀ v ∈ log.writes, Below t.context.esp (max (stackPages stackSize * 4096) 44) v := by
  intro log
  obtain ⟨log', hrun⟩ := (Noted.processCreateStack_erases process stackSize).run h ⟨[], [], []⟩
  have hlog : log = log' := by
    rw [show log = stackLog process stackSize m from rfl, stackLog, Prog.stateAfter_of_ok hrun]
  rw [hlog]
  rw [processCreateStack, if_neg hne, Prog.get_bind_apply] at h
  obtain ⟨current, m₁, hcurrent, -⟩ := Prog.bind_eq_ok.mp h
  obtain ⟨rfl, -⟩ := pcbOf_eq_ok hcurrent
  rw [Noted.processCreateStack, if_neg hne, Prog.bind_of_ok (Prog.silent_of_ok (Prog.get_apply _) _),
    Prog.bind_of_ok (Prog.silent_of_ok hcurrent _), Prog.bind_of_ok (Prog.silent_of_ok (pcbOf_ok ht) _),
    Prog.bind_of_ok (Prog.silent_of_ok (readObject_ok ht.context) _),
    Prog.bind_of_ok (Prog.silent_of_ok (vmmSwitchVmContext_ok ht.vmContext_ne ht.vmContext) _)] at hrun
  obtain ⟨_, t₆, hpages, hrun⟩ := Prog.bind_eq_ok.mp hrun
  have hstart : ∃ frames, frames.length = 0 ∧ Notes t.space frames
      (stackMaps t.space t.context.esp frames) (Below t.context.esp (0 * 4096))
      ({ m₁ with
        currentDirectory := t.vmContext.pageDir
        cr3 := t.vmContext.pageDirPhysAddr }, ⟨[], [], []⟩) :=
    ⟨[], rfl, rfl, rfl, rfl, by simp⟩
  obtain ⟨frames, hlen, h₆⟩ :=
    Prog.Triple.forLoop mapStackPage_notes (stackPages stackSize) 0 _ hstart _ t₆ hpages
  rw [Nat.zero_add] at hlen h₆
  obtain ⟨_, t₇, hframe, hrun⟩ := Prog.bind_eq_ok.mp hrun
  have h₆ := h₆.mono fun v hv => hv.mono (Nat.le_max_left _ 44)
  obtain ⟨h₇, hne₇⟩ := buildTrapFrame_notes t.context.eip
    (fun v hv => hv.mono (Nat.le_max_right (stackPages stackSize * 4096) 44)) t₆ h₆ _ t₇ hframe
  -- and back, with nothing noted any more
  obtain ⟨_, ⟨m₈, l₈⟩, hback, hrun⟩ := Prog.bind_eq_ok.mp hrun
  obtain ⟨-, rfl⟩ := Prog.silent_eq_ok hback
  obtain ⟨_, ⟨m₉, l₉⟩, hread, hset⟩ := Prog.bind_eq_ok.mp hrun
  obtain ⟨-, rfl⟩ := Prog.silent_eq_ok hread
  obtain ⟨-, rfl⟩ := Prog.silent_eq_ok hset
  exact ⟨frames, hlen, h₇.frames, h₇.maps, hne₇, h₇.writes⟩

end Machine
end MyOs
