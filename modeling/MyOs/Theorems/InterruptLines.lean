import MyOs.Logic.PicLines

/-!
# The lines of the devices

To the kernel the two controllers are one set of lines: a line that is raised stays
pending until it is served, in a fixed order, and only when it has been unmasked.
One thing is odd about it. `pic_send_ack` ends interrupts of the master alone, so
the slave has every line that was once served in service forever, and from then on
only lines before it come through.
-/

namespace MyOs

open Bitmap (bitMask)

namespace Pics

/-! ## One set of lines -/

structure Lines where
  pending : Nat → Bool
  enabled : Nat → Bool
  /-- the first of the slave's lines that does not come through -/
  floor : Nat
  serving : Bool

/-- A line of the slave comes through the master's line 2. -/
def Lines.eligible (a : Lines) (irq : Nat) : Bool :=
  a.pending irq && a.enabled irq &&
    if irq < 8 then true else a.enabled 2 && decide (irq - 8 < a.floor)

/-- Lines by priority; line 2 is the slave's. -/
def lineOrder : List Nat := [0, 1] ++ (List.range 8).map (8 + ·) ++ [3, 4, 5, 6, 7]

/-- The line that is served next. -/
def Lines.next (a : Lines) : Option Nat := lineOrder.find? a.eligible

/-- A line is served. -/
def Lines.serve (a : Lines) (irq : Nat) : Lines where
  pending := Function.update a.pending irq false
  enabled := a.enabled
  floor := if irq < 8 then a.floor else irq - 8
  serving := true

/-- At first only the keyboard's line is enabled. Line `irq` has vector `32 + irq`. -/
def linesSys : TSys Lines LineCall where
  init a := a.pending = (fun _ => false) ∧ a.enabled = (fun irq => decide (irq = 1)) ∧
    a.floor = 8 ∧ a.serving = false
  step a call a' :=
    match call with
    | .raise irq => irq < irqNum ∧ irq ≠ 2 ∧
        a' = { a with pending := Function.update a.pending irq true }
    | .take vector => a.serving = false ∧
        ∃ irq, a.next = some irq ∧ vector = 32 + irq ∧ a' = a.serve irq
    | .ack => a.serving = true ∧ a' = { a with serving := false }
    | .unmask irq => irq < irqNum ∧ a' = { a with enabled := Function.update a.enabled irq true }

/-! ## The controllers -/

/-- The controllers hold the lines of `a`. The master's own line 2 is as the slave's
requests have it. -/
structure HoldsLines (σ : Served) (a : Lines) : Prop where
  phases : σ.pics.master.phase = .ready ∧ σ.pics.slave.phase = .ready
  offsets : σ.pics.master.offset = 0x20#8 ∧ σ.pics.slave.offset = 0x28#8
  cascade : σ.pics.master.cascade = 0x04#8
  masterPending : ∀ i, i < 8 → i ≠ 2 → σ.pics.master.irr.getLsbD i = a.pending i
  slavePending : ∀ i, i < 8 → σ.pics.slave.irr.getLsbD i = a.pending (8 + i)
  masterMask : ∀ i, i < 8 → σ.pics.master.imr.getLsbD i = !a.enabled i
  slaveMask : ∀ i, i < 8 → σ.pics.slave.imr.getLsbD i = !a.enabled (8 + i)
  floor : FloorIs σ.pics.slave.isr a.floor
  idle : a.serving = false → σ.pics.master.isr = 0#8
  inService : a.serving = true → ∃ i, i < 8 ∧ σ.pics.master.isr = bitMask i
  busy : σ.busy = a.serving

section Step

variable {σ : Served} {a : Lines}

theorem holdsLines_init {σ : Served} (h : sys.init σ) :
    HoldsLines σ ⟨fun _ => false, fun irq => decide (irq = 1), 8, false⟩ := by
  obtain ⟨⟨s, hrun⟩, hbusy⟩ := h
  obtain ⟨pics, busy⟩ := σ
  rw [remapPic_ok] at hrun
  cases hrun
  refine ⟨⟨rfl, rfl⟩, ⟨rfl, rfl⟩, rfl, ?_, ?_, ?_, ?_, .inl ⟨firstLine_zero, rfl⟩,
    fun _ => rfl, (fun h => nomatch h), hbusy⟩
  · intro i hi _
    exact BitVec.getLsbD_zero
  · intro i hi
    exact BitVec.getLsbD_zero
  · intro i hi
    change (0xFD#8).getLsbD i = !decide (i = 1)
    revert i
    decide
  · intro i hi
    have hone : ¬8 + i = 1 := by omega
    simp only [hone, decide_false, Bool.not_false]
    change (0xFF#8).getLsbD i = true
    clear hone
    revert i
    decide

/-- The line the slave interrupts for. -/
theorem HoldsLines.slave_request (h : HoldsLines σ a) :
    σ.pics.slave.request = (List.range 8).find? fun i =>
      a.pending (8 + i) && a.enabled (8 + i) && decide (i < a.floor) := by
  rw [request_eq _ h.floor]
  refine find?_congr_mem fun i hi => ?_
  have hi := List.mem_range.mp hi
  rw [h.slavePending i hi, h.slaveMask i hi, Bool.not_not]

/-- The master with the slave on its line 2. -/
theorem wired_master (s : Pics) :
    ∃ irr, s.wired.master = { s.master with irr := irr } ∧ ∀ i, i < 8 →
      irr.getLsbD i = if i = 2 then s.slave.request.isSome else s.master.irr.getLsbD i := by
  rw [wired]
  split
  · next hsome =>
      refine ⟨_, rfl, fun i hi => ?_⟩
      rw [getLsbD_or_bitMask _ hi, hsome]
      by_cases htwo : i = 2 <;> simp [htwo]
  · next hnone =>
      refine ⟨_, rfl, fun i hi => ?_⟩
      rw [getLsbD_and_not_bitMask _ hi, Bool.eq_false_iff.mpr hnone]
      by_cases htwo : i = 2 <;> simp [htwo]

/-- The line the master interrupts for, in parts. -/
theorem HoldsLines.master_request (h : HoldsLines σ a) (hidle : a.serving = false) :
    σ.pics.wired.master.request =
      (([0, 1].find? a.eligible).or
        (if a.enabled 2 && σ.pics.slave.request.isSome then some 2 else none)).or
          ([3, 4, 5, 6, 7].find? a.eligible) := by
  obtain ⟨irr, hwired, hirr⟩ := wired_master σ.pics
  have hisr : FloorIs σ.pics.master.isr 8 := by
    rw [h.idle hidle]
    exact .inl ⟨firstLine_zero, rfl⟩
  rw [hwired, request_eq { σ.pics.master with irr := irr } hisr,
    show List.range 8 = [0, 1] ++ [2] ++ [3, 4, 5, 6, 7] from rfl, List.find?_append, List.find?_append]
  have hplain : ∀ i, i < 8 → i ≠ 2 →
      (irr.getLsbD i && !σ.pics.master.imr.getLsbD i && decide (i < 8)) = a.eligible i := by
    intro i hi htwo
    rw [hirr i hi, if_neg htwo, h.masterPending i hi htwo, h.masterMask i hi, Lines.eligible,
      if_pos hi, decide_eq_true hi, Bool.not_not]
  congr 1
  · congr 1
    · refine find?_congr_mem fun i hi => ?_
      simp only [List.mem_cons, List.not_mem_nil, or_false] at hi
      exact hplain i (by omega) (by omega)
    · rw [List.find?_cons, List.find?_nil, hirr 2 (by decide), if_pos rfl,
        h.masterMask 2 (by decide)]
      cases a.enabled 2 <;> cases σ.pics.slave.request.isSome <;> rfl
  · refine find?_congr_mem fun i hi => ?_
    simp only [List.mem_cons, List.not_mem_nil, or_false] at hi
    exact hplain i (by omega) (by omega)

/-- The lines of the slave, by their numbers. -/
theorem slave_lines (a : Lines) :
    ((List.range 8).map (8 + ·)).find? a.eligible =
      if a.enabled 2 then ((List.range 8).find? fun i =>
        a.pending (8 + i) && a.enabled (8 + i) && decide (i < a.floor)).map (8 + ·)
      else none := by
  have hline : ∀ i, a.eligible (8 + i) =
      (a.pending (8 + i) && a.enabled (8 + i) && (a.enabled 2 && decide (i < a.floor))) := by
    intro i
    rw [Lines.eligible, if_neg (by omega), Nat.add_sub_cancel_left]
  rw [List.find?_map]
  split
  · next htwo =>
      congr 1
      refine find?_congr_mem fun i _ => ?_
      rw [Function.comp_apply, hline, htwo, Bool.true_and]
  · next htwo =>
      rw [Option.map_eq_none_iff, List.find?_eq_none]
      intro i _
      rw [Function.comp_apply, hline, Bool.eq_false_iff.mpr htwo]
      simp

/-- The line that is next, in parts. -/
theorem HoldsLines.next_eq (h : HoldsLines σ a) :
    a.next = (([0, 1].find? a.eligible).or
      (if a.enabled 2 then σ.pics.slave.request.map (8 + ·) else none)).or
        ([3, 4, 5, 6, 7].find? a.eligible) := by
  rw [Lines.next, lineOrder, List.find?_append, List.find?_append, slave_lines, h.slave_request]

theorem vector_of_offset {c : Pic} {o : Byte} (h : c.offset = o) (i : Nat) :
    c.vector i = o.toNat + i := by
  rw [Pic.vector, h]

theorem cascade_line : ∀ i, i < 8 → (0x04#8).getLsbD i = decide (i = 2) := by
  decide

/-- The master answers for one of its own lines. -/
theorem HoldsLines.take_master (h : HoldsLines σ a) (hidle : a.serving = false) {i : Nat}
    (hi : i < 8) (htwo : i ≠ 2) (hrequest : σ.pics.wired.master.request = some i) :
    ∃ s, σ.pics.take = some (32 + i, s) ∧ HoldsLines ⟨s, true⟩ (a.serve i) := by
  obtain ⟨irr, hwired, hirr⟩ := wired_master σ.pics
  have hcascade : σ.pics.master.cascade.getLsbD i = false := by
    rw [h.cascade, cascade_line i hi, decide_eq_false htwo]
  refine ⟨{ σ.pics with master := σ.pics.wired.master.acknowledge i }, ?_, ?_⟩
  · rw [take, hrequest]
    simp only [hcascade, Bool.false_eq_true, if_false, vector_of_offset h.offsets.1]
    rfl
  rw [hwired]
  refine ⟨h.phases, h.offsets, h.cascade, fun j hj htwo' => ?_, fun j hj => ?_, h.masterMask,
    h.slaveMask, ?_, (fun hno => nomatch hno), fun _ => ⟨i, hi, ?_⟩, rfl⟩
  · change (irr &&& ~~~bitMask i).getLsbD j = Function.update a.pending i false j
    rw [getLsbD_and_not_bitMask _ hj, hirr j hj, if_neg htwo', h.masterPending j hj htwo']
    by_cases heq : j = i <;> simp [heq]
  · change σ.pics.slave.irr.getLsbD j = Function.update a.pending i false (8 + j)
    rw [Function.update_of_ne (by omega), h.slavePending j hj]
  · change FloorIs σ.pics.slave.isr (if i < 8 then a.floor else i - 8)
    rw [if_pos hi]
    exact h.floor
  · change σ.pics.master.isr ||| bitMask i = bitMask i
    rw [h.idle hidle, BitVec.zero_or]

/-- The slave answers for one of its lines, which stays in service. -/
theorem HoldsLines.take_slave (h : HoldsLines σ a) (hidle : a.serving = false) {i : Nat}
    (hslave : σ.pics.slave.request = some i)
    (hrequest : σ.pics.wired.master.request = some 2) :
    ∃ s, σ.pics.take = some (32 + (8 + i), s) ∧ HoldsLines ⟨s, true⟩ (a.serve (8 + i)) := by
  obtain ⟨irr, hwired, hirr⟩ := wired_master σ.pics
  obtain ⟨hi, hfloor⟩ : i < 8 ∧ i < a.floor := by
    have hfind := h.slave_request
    rw [hslave, eq_comm, List.find?_range_eq_some] at hfind
    obtain ⟨hline, hi, _⟩ := hfind
    simp only [Bool.and_eq_true, decide_eq_true_eq] at hline
    exact ⟨List.mem_range.mp hi, hline.2⟩
  have hcascade : σ.pics.master.cascade.getLsbD 2 = true := by
    rw [h.cascade]
    rfl
  refine ⟨⟨σ.pics.wired.master.acknowledge 2, σ.pics.slave.acknowledge i⟩, ?_, ?_⟩
  · rw [take, hrequest]
    simp only [hcascade, if_true, hslave, vector_of_offset h.offsets.2]
    rw [show (0x28#8).toNat = 32 + 8 from rfl, Nat.add_assoc]
  rw [hwired]
  refine ⟨h.phases, h.offsets, h.cascade, fun j hj htwo' => ?_, fun j hj => ?_, h.masterMask,
    h.slaveMask, .inr ⟨?_, ?_⟩, (fun hno => nomatch hno), fun _ => ⟨2, by decide, ?_⟩, rfl⟩
  · change (irr &&& ~~~bitMask 2).getLsbD j = Function.update a.pending (8 + i) false j
    rw [getLsbD_and_not_bitMask _ hj, hirr j hj, if_neg htwo', h.masterPending j hj htwo',
      Function.update_of_ne (by omega), decide_eq_false htwo', Bool.not_false, Bool.and_true]
  · change (σ.pics.slave.irr &&& ~~~bitMask i).getLsbD j =
      Function.update a.pending (8 + i) false (8 + j)
    rw [getLsbD_and_not_bitMask _ hj, h.slavePending j hj]
    by_cases heq : j = i
    · simp [heq]
    · rw [Function.update_of_ne (by omega), decide_eq_false heq, Bool.not_false, Bool.and_true]
  · change firstLine (σ.pics.slave.isr ||| bitMask i) = some (if 8 + i < 8 then a.floor else _)
    rw [if_neg (by omega), Nat.add_sub_cancel_left]
    refine firstLine_or_bitMask hi fun j hj => ?_
    rcases h.floor with ⟨hnone, _⟩ | ⟨hsome, _⟩
    · rw [hnone] at hj
      cases hj
    · rw [hsome] at hj
      exact Option.some.inj hj ▸ hfloor
  · change (if 8 + i < 8 then a.floor else 8 + i - 8) < 8
    rw [if_neg (by omega), Nat.add_sub_cancel_left]
    exact hi
  · change σ.pics.master.isr ||| bitMask 2 = bitMask 2
    rw [h.idle hidle, BitVec.zero_or]

/-- The processor is given the line that is next. -/
theorem HoldsLines.take (h : HoldsLines σ a) (hidle : a.serving = false) :
    match a.next with
    | none => σ.pics.take = none
    | some irq => ∃ s, σ.pics.take = some (32 + irq, s) ∧ HoldsLines ⟨s, true⟩ (a.serve irq) := by
  have hrequest := h.master_request hidle
  rw [h.next_eq]
  cases hfirst : [0, 1].find? a.eligible with
  | some i =>
      rw [hfirst, Option.some_or, Option.some_or] at hrequest
      have hmem := List.mem_of_find?_eq_some hfirst
      simp only [List.mem_cons, List.not_mem_nil, or_false] at hmem
      rw [Option.some_or, Option.some_or]
      exact h.take_master hidle (by omega) (by omega) hrequest
  | none =>
      rw [hfirst, Option.none_or] at hrequest
      rw [Option.none_or]
      have hlast : a.enabled 2 = false ∨ σ.pics.slave.request = none →
          match [3, 4, 5, 6, 7].find? a.eligible with
          | none => σ.pics.take = none
          | some irq => ∃ s, σ.pics.take = some (32 + irq, s) ∧
              HoldsLines ⟨s, true⟩ (a.serve irq) := by
        intro hno
        have hnone : (a.enabled 2 && σ.pics.slave.request.isSome) = false := by
          rcases hno with hno | hno <;> simp [hno]
        rw [hnone, if_neg (by decide), Option.none_or] at hrequest
        cases hthen : [3, 4, 5, 6, 7].find? a.eligible with
        | none =>
            rw [hthen] at hrequest
            simp only [Pics.take, hrequest]
        | some i =>
            rw [hthen] at hrequest
            have hmem := List.mem_of_find?_eq_some hthen
            simp only [List.mem_cons, List.not_mem_nil, or_false] at hmem
            exact h.take_master hidle (by omega) (by omega) hrequest
      cases htwo : a.enabled 2 with
      | false =>
          rw [if_neg (by decide), Option.none_or]
          exact hlast (.inl htwo)
      | true =>
          cases hslave : σ.pics.slave.request with
          | none =>
              rw [if_pos rfl, Option.map_none, Option.none_or]
              exact hlast (.inr hslave)
          | some i =>
              rw [htwo, hslave, Option.isSome_some, Bool.true_and, if_pos rfl, Option.some_or]
                at hrequest
              rw [if_pos rfl, Option.map_some, Option.some_or]
              exact h.take_slave hidle hslave hrequest

/-- `pic_send_ack` ends the master's interrupt. -/
theorem HoldsLines.ack (h : HoldsLines σ a) (hserving : a.serving = true) :
    ∃ s, picSendAck σ.pics = .ok ((), s) ∧ HoldsLines ⟨s, false⟩ { a with serving := false } := by
  obtain ⟨i, hi, hisr⟩ := h.inService hserving
  refine ⟨{ σ.pics with master := σ.pics.master.endOfInterrupt }, rfl, ?_⟩
  have hend : σ.pics.master.endOfInterrupt = { σ.pics.master with isr := 0#8 } := by
    rw [Pic.endOfInterrupt, hisr, firstLine_bitMask hi]
    simp only [BitVec.and_not_self]
    rfl
  rw [hend]
  exact ⟨h.phases, h.offsets, h.cascade, h.masterPending, h.slavePending, h.masterMask,
    h.slaveMask, h.floor, fun _ => rfl, (fun hno => nomatch hno), rfl⟩

theorem HoldsLines.raise (h : HoldsLines σ a) {irq : Nat} (hirq : irq < 16) :
    HoldsLines { σ with pics := σ.pics.raise irq }
      { a with pending := Function.update a.pending irq true } := by
  rw [Pics.raise]
  split
  · next hlt =>
      have hlt : irq < 8 := hlt
      refine ⟨h.phases, h.offsets, h.cascade, fun j hj htwo => ?_, fun j hj => ?_, h.masterMask,
        h.slaveMask, h.floor, h.idle, h.inService, h.busy⟩
      · change (σ.pics.master.irr ||| bitMask irq).getLsbD j = Function.update a.pending irq true j
        rw [getLsbD_or_bitMask _ hj, h.masterPending j hj htwo]
        by_cases heq : j = irq <;> simp [heq]
      · change σ.pics.slave.irr.getLsbD j = Function.update a.pending irq true (8 + j)
        rw [Function.update_of_ne (by omega), h.slavePending j hj]
  · next hge =>
      have hge : 8 ≤ irq := Nat.not_lt.mp hge
      refine ⟨h.phases, h.offsets, h.cascade, fun j hj htwo => ?_, fun j hj => ?_, h.masterMask,
        h.slaveMask, h.floor, h.idle, h.inService, h.busy⟩
      · change σ.pics.master.irr.getLsbD j = Function.update a.pending irq true j
        rw [Function.update_of_ne (by omega), h.masterPending j hj htwo]
      · change (σ.pics.slave.irr ||| bitMask (irq - 8)).getLsbD j =
          Function.update a.pending irq true (8 + j)
        rw [getLsbD_or_bitMask _ hj, h.slavePending j hj]
        by_cases heq : j = irq - 8
        · rw [decide_eq_true heq, show 8 + j = irq by omega, Function.update_self, Bool.or_true]
        · rw [decide_eq_false heq, Function.update_of_ne (by omega), Bool.or_false]

/-- `unmask_irq` clears one bit of one mask. -/
theorem HoldsLines.unmask (h : HoldsLines σ a) {irq : Nat} (hirq : irq < 16) :
    ∃ s, unmaskIrq irq σ.pics = .ok ((), s) ∧
      HoldsLines { σ with pics := s }
        { a with enabled := Function.update a.enabled irq true } := by
  by_cases hlt : irq < 8
  · refine ⟨{ σ.pics with master := { σ.pics.master with
      imr := σ.pics.master.imr &&& ~~~bitMask irq } }, ?_, h.phases, h.offsets, h.cascade,
      h.masterPending, h.slavePending, fun j hj => ?_, fun j hj => ?_, h.floor, h.idle,
      h.inService, h.busy⟩
    · rw [unmaskIrq, if_pos (show irq < irqNum from hirq),
        if_pos (show irq < picIrqAmount from hlt)]
      change Except.ok ((), Pics.mk (σ.pics.master.data (σ.pics.master.imr &&& ~~~bitMask irq))
        σ.pics.slave) = _
      rw [data_ready h.phases.1]
    · change (σ.pics.master.imr &&& ~~~bitMask irq).getLsbD j =
        !Function.update a.enabled irq true j
      rw [getLsbD_and_not_bitMask _ hj, h.masterMask j hj]
      by_cases heq : j = irq <;> simp [heq]
    · change σ.pics.slave.imr.getLsbD j = !Function.update a.enabled irq true (8 + j)
      rw [Function.update_of_ne (by omega), h.slaveMask j hj]
  · refine ⟨{ σ.pics with slave := { σ.pics.slave with
      imr := σ.pics.slave.imr &&& ~~~bitMask (irq - 8) } }, ?_, h.phases, h.offsets, h.cascade,
      h.masterPending, h.slavePending, fun j hj => ?_, fun j hj => ?_, h.floor, h.idle,
      h.inService, h.busy⟩
    · rw [unmaskIrq, if_pos (show irq < irqNum from hirq),
        if_neg (show ¬irq < picIrqAmount from hlt)]
      change Except.ok ((), Pics.mk σ.pics.master
        (σ.pics.slave.data (σ.pics.slave.imr &&& ~~~bitMask (irq - 8)))) = _
      rw [data_ready h.phases.2]
    · change σ.pics.master.imr.getLsbD j = !Function.update a.enabled irq true j
      rw [Function.update_of_ne (by omega), h.masterMask j hj]
    · change (σ.pics.slave.imr &&& ~~~bitMask (irq - 8)).getLsbD j =
        !Function.update a.enabled irq true (8 + j)
      rw [getLsbD_and_not_bitMask _ hj, h.slaveMask j hj]
      by_cases heq : j = irq - 8
      · rw [decide_eq_true heq, show 8 + j = irq by omega, Function.update_self, Bool.not_true,
          Bool.and_false]
      · rw [decide_eq_false heq, Function.update_of_ne (by omega), Bool.not_false, Bool.and_true]

end Step

/-- Each call of the controllers is one of the lines, and the other way round. -/
theorem holdsLines_step {σ : Served} {a : Lines} (h : HoldsLines σ a) (call : LineCall) :
    (∀ σ', sys.step σ call σ' → ∃ a', linesSys.step a call a' ∧ HoldsLines σ' a') ∧
      ∀ a', linesSys.step a call a' → ∃ σ', sys.step σ call σ' ∧ HoldsLines σ' a' := by
  cases call with
  | raise irq =>
      refine ⟨?_, ?_⟩
      · rintro σ' ⟨hirq, htwo, rfl⟩
        exact ⟨_, ⟨hirq, htwo, rfl⟩, h.raise hirq⟩
      · rintro a' ⟨hirq, htwo, rfl⟩
        exact ⟨_, ⟨hirq, htwo, rfl⟩, h.raise hirq⟩
  | take vector =>
      refine ⟨?_, ?_⟩
      · rintro σ' ⟨hbusy, s, htake, rfl⟩
        have hidle := h.busy.symm.trans hbusy
        have hnext := h.take hidle
        cases hn : a.next with
        | none =>
            rw [hn] at hnext
            rw [hnext] at htake
            cases htake
        | some irq =>
            rw [hn] at hnext
            obtain ⟨s', hs', hholds⟩ := hnext
            rw [hs'] at htake
            cases htake
            exact ⟨_, ⟨hidle, irq, hn, rfl, rfl⟩, hholds⟩
      · rintro a' ⟨hidle, irq, hn, rfl, rfl⟩
        have hnext := h.take hidle
        rw [hn] at hnext
        obtain ⟨s, hs, hholds⟩ := hnext
        exact ⟨_, ⟨h.busy.trans hidle, s, hs, rfl⟩, hholds⟩
  | ack =>
      refine ⟨?_, ?_⟩
      · rintro σ' ⟨hbusy, s, hack, rfl⟩
        have hserving := h.busy.symm.trans hbusy
        obtain ⟨s', hs', hholds⟩ := h.ack hserving
        rw [hack] at hs'
        cases hs'
        exact ⟨_, ⟨hserving, rfl⟩, hholds⟩
      · rintro a' ⟨hserving, rfl⟩
        obtain ⟨s, hs, hholds⟩ := h.ack hserving
        exact ⟨_, ⟨h.busy.trans hserving, s, hs, rfl⟩, hholds⟩
  | unmask irq =>
      refine ⟨?_, ?_⟩
      · rintro σ' ⟨s, hrun, rfl⟩
        by_cases hirq : irq < 16
        · obtain ⟨s', hs', hholds⟩ := h.unmask hirq
          rw [hrun] at hs'
          cases hs'
          exact ⟨_, ⟨hirq, rfl⟩, hholds⟩
        · rw [unmaskIrq, if_neg (show ¬irq < irqNum from hirq)] at hrun
          cases hrun
      · rintro a' ⟨hirq, rfl⟩
        obtain ⟨s, hs, hholds⟩ := h.unmask hirq
        exact ⟨_, ⟨s, hs, rfl⟩, hholds⟩

/-- **The controllers are one set of lines.** From whatever state `remap_pic` found them
in, and in any order of requests, interrupts, acknowledgements and `unmask_irq`, the
controllers can do what `linesSys` can and nothing else: a request stays pending until it
is served, nothing that is masked comes through, line `irq` has vector `32 + irq`, and of
the lines that come through the first in `lineOrder` is served. -/
theorem controllers_are_lines :
    sys.Simulates linesSys HoldsLines (fun call call' => call = call') ∧
      linesSys.Simulates sys (fun a σ => HoldsLines σ a) fun call call' => call = call' := by
  refine ⟨⟨fun σ h => ⟨_, ⟨rfl, rfl, rfl, rfl⟩, holdsLines_init h⟩, fun σ call σ' a h hstep => ?_⟩,
    ⟨fun a h => ?_, fun a call a' σ h hstep => ?_⟩⟩
  · obtain ⟨a', hstep', hholds⟩ := (holdsLines_step h call).1 σ' hstep
    exact ⟨call, a', rfl, hstep', hholds⟩
  · obtain ⟨pending, enabled, floor, serving⟩ := a
    obtain ⟨rfl, rfl, rfl, rfl⟩ := h
    have hinit : sys.init ⟨remapped, false⟩ := ⟨⟨remapped, remapPic_ok _⟩, rfl⟩
    exact ⟨_, hinit, holdsLines_init hinit⟩
  · obtain ⟨σ', hstep', hholds⟩ := (holdsLines_step h call).2 a' hstep
    exact ⟨call, σ', rfl, hstep', hholds⟩

/-! ## Runs -/

/-- The vector the processor is given. -/
def LineCall.vector : LineCall → Option Nat
  | .take vector => some vector
  | _ => none

/-- The line a device raises. -/
def LineCall.request : LineCall → Option Nat
  | .raise irq => some irq
  | _ => none

/-- The vectors of a run, in their order. -/
def vectors (run : List (LineCall × Served)) : List Nat := run.filterMap fun x => x.1.vector

/-- The requests of a run. -/
def requests (run : List (LineCall × Served)) : List Nat := run.filterMap fun x => x.1.request

/-- What the line that is next has. -/
theorem Lines.of_next {a : Lines} {irq : Nat} (h : a.next = some irq) :
    irq < 16 ∧ a.pending irq = true ∧ a.enabled irq = true ∧
      (8 ≤ irq → a.enabled 2 = true ∧ irq - 8 < a.floor) := by
  have heligible := List.find?_some h
  have hmem : irq ∈ List.range 16 := by
    have hall : ∀ i ∈ lineOrder, i ∈ List.range 16 := by decide
    exact hall irq (List.mem_of_find?_eq_some h)
  rw [eligible, Bool.and_eq_true, Bool.and_eq_true] at heligible
  obtain ⟨⟨hpending, henabled⟩, hslave⟩ := heligible
  refine ⟨List.mem_range.mp hmem, hpending, henabled, fun hge => ?_⟩
  rw [if_neg (by omega), Bool.and_eq_true, decide_eq_true_eq] at hslave
  exact hslave

section Run

variable {σ : Served} {a : Lines} {run : List (LineCall × Served)}

/-- The vectors are those of the sixteen lines. -/
theorem HoldsLines.vector_lines (h : HoldsLines σ a) (hrun : sys.IsRun σ run) :
    ∀ v ∈ vectors run, ∃ irq < 16, v = 32 + irq := by
  induction run generalizing σ a with
  | nil => exact fun _ hv => nomatch hv
  | cons next rest ih =>
      obtain ⟨call, σ'⟩ := next
      obtain ⟨a', hstep, hholds⟩ := (holdsLines_step h call).1 σ' hrun.1
      have hrest := ih hholds hrun.2
      cases call with
      | take vector =>
          obtain ⟨_, irq, hnext, rfl, rfl⟩ := hstep
          change ∀ v ∈ (32 + irq) :: vectors rest, ∃ irq < 16, v = 32 + irq
          rw [List.forall_mem_cons]
          exact ⟨⟨irq, (Lines.of_next hnext).1, rfl⟩, hrest⟩
      | _ => exact hrest

/-- The vectors of the slave fall, from below its first line in service. -/
theorem HoldsLines.slave_vectors (h : HoldsLines σ a) (hrun : sys.IsRun σ run) :
    (∀ v ∈ vectors run, 40 ≤ v → v < 40 + a.floor) ∧
      ((vectors run).filter fun v => 40 ≤ v).Pairwise (· > ·) := by
  induction run generalizing σ a with
  | nil => exact ⟨(fun _ hv => nomatch hv), List.Pairwise.nil⟩
  | cons next rest ih =>
      obtain ⟨call, σ'⟩ := next
      obtain ⟨a', hstep, hholds⟩ := (holdsLines_step h call).1 σ' hrun.1
      have hrest := ih hholds hrun.2
      cases call with
      | raise irq =>
          obtain ⟨_, _, rfl⟩ := hstep
          exact hrest
      | ack =>
          obtain ⟨_, rfl⟩ := hstep
          exact hrest
      | unmask irq =>
          obtain ⟨_, rfl⟩ := hstep
          exact hrest
      | take vector =>
          obtain ⟨_, irq, hnext, rfl, rfl⟩ := hstep
          obtain ⟨_, _, _, hslave⟩ := Lines.of_next hnext
          change (∀ v ∈ (32 + irq) :: vectors rest, 40 ≤ v → v < 40 + a.floor) ∧
            (((32 + irq) :: vectors rest).filter fun v => 40 ≤ v).Pairwise (· > ·)
          rw [List.filter_cons, List.forall_mem_cons]
          by_cases hlow : irq < 8
          · have hfloor : (a.serve irq).floor = a.floor := if_pos hlow
            rw [hfloor] at hrest
            rw [if_neg (by simp only [decide_eq_true_eq]; omega)]
            exact ⟨⟨fun hge => absurd hge (by omega), hrest.1⟩, hrest.2⟩
          · -- a line of the slave, which is the new floor
            have hfloor : (a.serve irq).floor = irq - 8 := if_neg hlow
            rw [hfloor] at hrest
            obtain ⟨_, hbelow⟩ := hslave (by omega)
            rw [if_pos (by simp only [decide_eq_true_eq]; omega), List.pairwise_cons]
            refine ⟨⟨fun _ => by omega, fun v hv hge => ?_⟩, fun v hv => ?_, hrest.2⟩
            · have := hrest.1 v hv hge
              omega
            · obtain ⟨hmem, hge⟩ := List.mem_filter.mp hv
              have := hrest.1 v hmem (of_decide_eq_true hge)
              omega

/-- A line is served no more often than it is requested, and only when it is
unmasked. -/
theorem HoldsLines.count_vectors (h : HoldsLines σ a) (hrun : sys.IsRun σ run) (irq : Nat) :
    (vectors run).count (32 + irq) ≤ (requests run).count irq + (a.pending irq).toNat ∧
      (32 + irq ∈ vectors run → a.enabled irq = true ∨ .unmask irq ∈ run.map Prod.fst) := by
  induction run generalizing σ a with
  | nil => exact ⟨Nat.zero_le _, (fun hv => nomatch hv)⟩
  | cons next rest ih =>
      obtain ⟨call, σ'⟩ := next
      obtain ⟨a', hstep, hholds⟩ := (holdsLines_step h call).1 σ' hrun.1
      obtain ⟨hcount, hmasked⟩ := ih hholds hrun.2
      have hlater : LineCall.unmask irq ∈ rest.map Prod.fst →
          .unmask irq ∈ ((call, σ') :: rest).map Prod.fst := List.mem_cons_of_mem _
      cases call with
      | raise line =>
          obtain ⟨_, _, rfl⟩ := hstep
          refine ⟨?_, fun hv => (hmasked hv).imp_right hlater⟩
          change (vectors rest).count (32 + irq) ≤ (line :: requests rest).count irq + _
          rw [List.count_cons]
          by_cases heq : irq = line
          · rw [heq, beq_self_eq_true, if_pos rfl]
            rw [heq] at hcount
            simp only [Function.update_self, Bool.toNat_true] at hcount
            omega
          · simp only [Function.update_of_ne heq] at hcount
            omega
      | ack =>
          obtain ⟨_, rfl⟩ := hstep
          exact ⟨hcount, fun hv => (hmasked hv).imp_right hlater⟩
      | unmask line =>
          obtain ⟨_, rfl⟩ := hstep
          refine ⟨hcount, fun hv => ?_⟩
          rcases hmasked hv with henabled | hlate
          · by_cases heq : irq = line
            · exact .inr (heq ▸ List.mem_cons_self)
            · change Function.update a.enabled line true irq = true at henabled
              exact .inl (by rwa [Function.update_of_ne heq] at henabled)
          · exact .inr (hlater hlate)
      | take vector =>
          obtain ⟨_, line, hnext, rfl, rfl⟩ := hstep
          obtain ⟨_, hpending, henabled, _⟩ := Lines.of_next hnext
          change ((32 + line) :: vectors rest).count (32 + irq) ≤ (requests rest).count irq + _ ∧
            (32 + irq ∈ (32 + line) :: vectors rest → _)
          rw [List.count_cons, List.mem_cons]
          by_cases heq : irq = line
          · subst heq
            rw [beq_self_eq_true, if_pos rfl, hpending, Bool.toNat_true]
            simp only [Lines.serve, Function.update_self, Bool.toNat_false] at hcount
            exact ⟨by omega, fun _ => .inl henabled⟩
          · have hne : (32 + line == 32 + irq) = false := by
              rw [beq_eq_false_iff_ne]
              omega
            simp only [Lines.serve, Function.update_of_ne heq] at hcount
            rw [hne, if_neg Bool.false_ne_true]
            refine ⟨hcount, fun hv => ?_⟩
            rcases hv with hv | hv
            · exact absurd hv (by omega)
            · exact (hmasked hv).imp_right hlater

end Run

/-- **A line of the slave is served once.** In every run after `remap_pic` the vectors of
the slave's lines, 40 and up, come in falling order: `pic_send_ack` never ends an
interrupt of the slave, so a line that was served, and every line after it, is never
served again. -/
theorem slave_interrupts_fall {σ : Served} {run : List (LineCall × Served)} (h : sys.init σ)
    (hrun : sys.IsRun σ run) : ((vectors run).filter fun v => 40 ≤ v).Pairwise (· > ·) :=
  ((holdsLines_init h).slave_vectors hrun).2

/-- After the disk's line 14 the line of the real-time clock is served, which comes
before it. -/
theorem slave_interrupts_fall_disk : ∃ run : List (LineCall × Served),
    sys.IsRun ⟨remapped, false⟩ run ∧ vectors run = [46, 40] ∧
      ((vectors run).filter fun v => 40 ≤ v).Pairwise (· > ·) := by
  have hrun : sys.IsRun ⟨remapped, false⟩ [(.unmask 2, _), (.unmask 8, _), (.unmask 14, _),
      (.raise 14, _), (.take 46, _), (.ack, _), (.raise 8, _), (.take 40, _)] :=
    ⟨⟨_, rfl, rfl⟩, ⟨_, rfl, rfl⟩, ⟨_, rfl, rfl⟩, ⟨by decide, by decide, rfl⟩, ⟨rfl, _, rfl, rfl⟩,
      ⟨rfl, _, rfl, rfl⟩, ⟨by decide, by decide, rfl⟩, ⟨rfl, _, rfl, rfl⟩, trivial⟩
  exact ⟨_, hrun, rfl, slave_interrupts_fall ⟨⟨remapped, rfl⟩, rfl⟩ hrun⟩

end Pics
end MyOs
