import MyOs.Logic.StackReturns

/-!
# The stack of a new process

`process_create_stack` maps pages in steps of a page from the top down, so a top that is
not on a page boundary leaves the page it is in to the page fault handler. With an aligned
top and at least one page, what it maps is what it stores to.
-/

namespace MyOs

/-- The page of an address. -/
def Word.page (v : Word) : Nat := v.toNat / 4096

/-- A size rounded up to whole pages. -/
def wholePages (size : Nat) : Nat := (size + 4095) / 4096 * 4096

namespace Machine

/-- Byte `k` of the `size` bytes below `espTop`. -/
def stackByte (espTop : Word) (size k : Nat) : Word := (espTop - BitVec.ofNat 32 size).offset k

/-- The pages of the `size` bytes below `espTop` were mapped in the directory `c`, to frames
obtained one for each, and nothing was stored outside of them. -/
structure StackMapped (c espTop : Word) (size : Nat) (log : StackLog) : Prop where
  mapped : ∀ k, k < size → ∃ v pa, (c, v, pa) ∈ log.maps ∧
    v.page = (stackByte espTop size k).page
  fresh : log.maps.map (fun e => e.2.2) = log.frames
  inside : ∀ v ∈ log.writes, ∃ k, k < size ∧ v.page = (stackByte espTop size k).page

/-! ## Pages -/

/-- The mask clears the offset only. -/
theorem mask_div (x : Word) : (x &&& ~~~4095#32).toNat / 4096 = x.toNat / 4096 := by
  have hlt := x.isLt
  have hshift := Nat.shiftRight_and_distrib (a := x.toNat) (b := (~~~4095#32).toNat) (i := 12)
  rw [show (~~~4095#32).toNat >>> 12 = 2 ^ 20 - 1 from rfl, Nat.and_two_pow_sub_one_eq_mod] at hshift
  simp only [Nat.shiftRight_eq_div_pow] at hshift
  rw [BitVec.toNat_and]
  omega

theorem stackPages_eq (size : Word) : stackPages size = (size.toNat + 4095) % 2 ^ 32 / 4096 := by
  rw [stackPages, mask_div, BitVec.toNat_add]
  rfl

theorem stackPages_pos_iff (size : Word) :
    0 < stackPages size ↔ 0 < size.toNat ∧ size.toNat ≤ 2 ^ 32 - 4096 := by
  have hlt := size.isLt
  rw [stackPages_eq]
  omega

theorem stackPages_lt (size : Word) : stackPages size < 2 ^ 20 := by
  rw [stackPages_eq]
  omega

theorem wholePages_eq {size : Word} (h : 0 < stackPages size) :
    wholePages size.toNat = stackPages size * 4096 := by
  have hpos := (stackPages_pos_iff size).mp h
  rw [stackPages_eq, wholePages, Nat.mod_eq_of_lt (by omega)]

variable {c espTop : Word} {n : Nat}

/-- From an aligned top, every byte is in a page of the stack. -/
theorem stackByte_page {k : Nat} (halign : espTop.toNat % 4096 = 0) (hn : n < 2 ^ 20)
    (hk : k < n * 4096) :
    (stackPage espTop (n - 1 - k / 4096)).page = (stackByte espTop (n * 4096) k).page := by
  have he := espTop.isLt
  simp only [stackPage, stackByte, Word.page, Word.offset, BitVec.toNat_sub, BitVec.toNat_add,
    BitVec.toNat_ofNat]
  omega

/-- From a top that is not aligned, the last byte is in none. -/
theorem lastByte_page {j : Nat} (halign : espTop.toNat % 4096 ≠ 0) (hn : n < 2 ^ 20) (hj : j < n) :
    (stackPage espTop j).page ≠ (stackByte espTop (n * 4096) (n * 4096 - 1)).page := by
  have he := espTop.isLt
  simp only [stackPage, stackByte, Word.page, Word.offset, BitVec.toNat_sub, BitVec.toNat_add,
    BitVec.toNat_ofNat]
  omega

theorem Below.stackByte {v : Word} (h : Below espTop n v) :
    ∃ k, k < n ∧ v = stackByte espTop n k := by
  obtain ⟨k, hpos, hle, rfl⟩ := h
  refine ⟨n - k, by omega, ?_⟩
  rw [Machine.stackByte, Word.offset]
  bv_omega

theorem stackMaps_page {frames : List Nat} {j : Nat} (hj : j < frames.length) :
    ∃ pa, (c, stackPage espTop j, pa) ∈ stackMaps c espTop frames := by
  induction frames with
  | nil => simp at hj
  | cons pa frames ih =>
      rcases Nat.lt_succ_iff_lt_or_eq.mp hj with hlt | rfl
      · obtain ⟨pa', hmem⟩ := ih hlt
        exact ⟨pa', List.mem_cons_of_mem _ hmem⟩
      · exact ⟨pa, List.mem_cons_self ..⟩

theorem of_mem_stackMaps {frames : List Nat} {e : Word × Word × Nat}
    (h : e ∈ stackMaps c espTop frames) : ∃ j, j < frames.length ∧ e.2.1 = stackPage espTop j := by
  induction frames with
  | nil => simp [stackMaps] at h
  | cons pa frames ih =>
      rcases List.mem_cons.mp h with rfl | hmem
      · exact ⟨frames.length, Nat.lt_succ_self _, rfl⟩
      · obtain ⟨j, hj, hpage⟩ := ih hmem
        exact ⟨j, Nat.lt_succ_of_lt hj, hpage⟩

theorem stackMaps_frames (frames : List Nat) :
    (stackMaps c espTop frames).map (fun e => e.2.2) = frames := by
  induction frames with
  | nil => rfl
  | cons pa frames ih => rw [stackMaps, List.map_cons, ih]

/-! ## What is mapped -/

variable {process stackSize : Word} {t : Task} {m m' : Machine}

/-- With an aligned top and at least one page all is as it should be. -/
theorem stackMapped_of_aligned (ht : m.objects.Has process t) (hne : process ≠ 0)
    (h : processCreateStack process stackSize m = .ok ((), m'))
    (halign : t.context.esp.toNat % 4096 = 0) (hpos : 0 < stackPages stackSize) :
    StackMapped t.space t.context.esp (wholePages stackSize.toNat)
      (stackLog process stackSize m) := by
  obtain ⟨frames, hlen, hframes, hmaps, -, hwrites⟩ := stackLog_spec ht hne h
  have hlt := stackPages_lt stackSize
  rw [wholePages_eq hpos]
  refine ⟨fun k hk => ?_, ?_, fun v hv => ?_⟩
  · have hj : stackPages stackSize - 1 - k / 4096 < frames.length := by omega
    obtain ⟨pa, hmem⟩ := @stackMaps_page t.space t.context.esp _ _ hj
    rw [hmaps]
    exact ⟨_, pa, hmem, stackByte_page halign hlt hk⟩
  · rw [hmaps, hframes, stackMaps_frames]
  · have hbelow := hwrites v hv
    rw [Nat.max_eq_left (by omega)] at hbelow
    obtain ⟨k, hk, rfl⟩ := hbelow.stackByte
    exact ⟨k, hk, rfl⟩

/-- Without a page the frame is stored where nothing was mapped. -/
theorem pages_of_stackMapped (ht : m.objects.Has process t) (hne : process ≠ 0)
    (h : processCreateStack process stackSize m = .ok ((), m'))
    (hmapped : StackMapped t.space t.context.esp (wholePages stackSize.toNat)
      (stackLog process stackSize m)) : 0 < stackPages stackSize := by
  obtain ⟨frames, hlen, -, hmaps, hstored, -⟩ := stackLog_spec ht hne h
  obtain ⟨v, hv⟩ := List.exists_mem_of_ne_nil _ hstored
  obtain ⟨k, hk, -⟩ := hmapped.inside v hv
  -- the page that this byte is in was mapped
  obtain ⟨v', pa, hmem, -⟩ := hmapped.mapped k hk
  rw [hmaps] at hmem
  obtain ⟨j, hj, -⟩ := of_mem_stackMaps hmem
  omega

theorem aligned_of_stackMapped (ht : m.objects.Has process t) (hne : process ≠ 0)
    (h : processCreateStack process stackSize m = .ok ((), m'))
    (hpos : 0 < stackPages stackSize)
    (hmapped : StackMapped t.space t.context.esp (wholePages stackSize.toNat)
      (stackLog process stackSize m)) : t.context.esp.toNat % 4096 = 0 := by
  obtain ⟨frames, hlen, -, hmaps, -, -⟩ := stackLog_spec ht hne h
  by_contra halign
  rw [wholePages_eq hpos] at hmapped
  obtain ⟨v, pa, hmem, hpage⟩ := hmapped.mapped (stackPages stackSize * 4096 - 1) (by omega)
  rw [hmaps] at hmem
  obtain ⟨j, hj, rfl⟩ := of_mem_stackMaps hmem
  exact lastByte_page halign (stackPages_lt stackSize) (hlen ▸ hj) hpage

/-- The address space of a process, its page tables without entries. -/
def emptyTables : PageTables Word where
  directories _ i := some (0x400000 + i * 4096)
  tables _ _ := none

/-- The context of a process that has not run, with the stack below `espTop`. -/
def newContext (espTop : Word) : Context :=
  ⟨0, 0, 0, espTop, 0, 0, 0, 0, 0x8048000, defaultEflags⟩

/-- The process at 0x100 runs, the one at 0x200 is to get its stack below `espTop`. -/
def stackMachine (espTop : Word) : Machine where
  regs _ := 0
  eflags := .ofWord 0
  eip := 0
  mem := ⟨fun _ => 0, emptyTables⟩
  cr3 := 0x1000
  currentDirectory := 0x1000
  frames := (List.range 30000).map fun i => 0x1000000 + i * 4096
  objects := {
    currentProcess := 0x100
    processes := fun p => if p = 0x100 then some 0x110 else if p = 0x200 then some 0x210 else none
    pcbs := fun p =>
      if p = 0x110 then some ⟨0x120, 0x130⟩ else if p = 0x210 then some ⟨0x220, 0x230⟩ else none
    contexts := fun p =>
      if p = 0x120 then some (newContext 0) else if p = 0x220 then some (newContext espTop) else none
    vmContexts := fun p =>
      if p = 0x130 then some ⟨0x1000, 0x1000⟩ else if p = 0x230 then some ⟨0x2000, 0x2000⟩
      else none }

def runningTask : Task := ⟨0x110, ⟨0x120, 0x130⟩, newContext 0, ⟨0x1000, 0x1000⟩⟩

def childTask (espTop : Word) : Task := ⟨0x210, ⟨0x220, 0x230⟩, newContext espTop, ⟨0x2000, 0x2000⟩⟩

theorem has_runningTask (espTop : Word) : (stackMachine espTop).objects.Has 0x100 runningTask :=
  ⟨rfl, rfl, rfl, rfl, by decide⟩

theorem has_childTask (espTop : Word) :
    (stackMachine espTop).objects.Has 0x200 (childTask espTop) :=
  ⟨rfl, rfl, rfl, rfl, show (0x230#32) ≠ 0 by decide⟩

theorem stackMachine_returns (espTop : Word) :
    ∃ m', processCreateStack 0x200 0x5000 (stackMachine espTop) = .ok ((), m') := by
  refine processCreateStack_returns (has_childTask espTop) (has_runningTask espTop) (by decide)
    (fun _ => rfl) ?_
  have hpages : stackPages 0x5000 = 5 := by decide
  have hframes : (stackMachine espTop).frames.length = 30000 := by simp [stackMachine]
  rw [hpages, hframes]
  decide

end Machine
end MyOs
