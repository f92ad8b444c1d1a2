import MyOs.Interrupts.Pic

/-!
# The lines the controllers serve

Bits of the registers, the states `remap_pic` leads to, and which line an
interrupt is for: of those that come through the masks the first in the order
0, 1, 8 to 15, 3 to 7.
-/

namespace MyOs

open Bitmap (bitMask getLsbD_bitMask)

/-! ## Registers -/

theorem getLsbD_or_bitMask (b : Byte) {i j : Nat} (hj : j < 8) :
    (b ||| bitMask i).getLsbD j = (b.getLsbD j || decide (j = i)) := by
  rw [BitVec.getLsbD_or, getLsbD_bitMask _ _ hj]

theorem getLsbD_and_not_bitMask (b : Byte) {i j : Nat} (hj : j < 8) :
    (b &&& ~~~bitMask i).getLsbD j = (b.getLsbD j && !decide (j = i)) := by
  rw [BitVec.getLsbD_and, BitVec.getLsbD_not, getLsbD_bitMask _ _ hj, decide_eq_true hj,
    Bool.true_and]

theorem firstLine_zero : firstLine 0#8 = none := by decide

theorem firstLine_bitMask {i : Nat} (hi : i < 8) : firstLine (bitMask i) = some i := by
  rw [firstLine, List.find?_range_eq_some]
  refine ⟨by rw [getLsbD_bitMask _ _ hi]; simp, List.mem_range.mpr hi, fun j hj => ?_⟩
  rw [getLsbD_bitMask _ _ (Nat.lt_trans hj hi)]
  simp [Nat.ne_of_lt hj]

/-- A line joins those in service. -/
theorem firstLine_or_bitMask {b : Byte} {i : Nat} (hi : i < 8)
    (h : ∀ j, firstLine b = some j → i < j) : firstLine (b ||| bitMask i) = some i := by
  rw [firstLine, List.find?_range_eq_some]
  refine ⟨by rw [getLsbD_or_bitMask _ hi]; simp, List.mem_range.mpr hi, fun j hj => ?_⟩
  have hj8 := Nat.lt_trans hj hi
  rw [getLsbD_or_bitMask _ hj8]
  simp only [Nat.ne_of_lt hj, decide_false, Bool.or_false]
  -- a line before `i` would be the first one
  by_contra hb
  simp only [Bool.not_eq_true', Bool.not_eq_false] at hb
  cases hfirst : firstLine b with
  | none =>
      rw [firstLine, List.find?_range_eq_none] at hfirst
      have := hfirst j hj8
      simp [hb] at this
  | some k =>
      have hk := h k hfirst
      rw [firstLine, List.find?_range_eq_some] at hfirst
      have := hfirst.2.2 j (by omega)
      simp [hb] at this

theorem find?_congr_mem {p q : Nat → Bool} {l : List Nat} (h : ∀ i ∈ l, p i = q i) :
    l.find? p = l.find? q := by
  induction l with
  | nil => rfl
  | cons i l ih =>
      rw [List.find?_cons, List.find?_cons, h i List.mem_cons_self,
        ih fun j hj => h j (List.mem_cons_of_mem _ hj)]

/-- A slave that has nothing in service, or a line from `floor` on. -/
def FloorIs (isr : Byte) (floor : Nat) : Prop :=
  firstLine isr = none ∧ floor = 8 ∨ firstLine isr = some floor ∧ floor < 8

theorem find?_and_lt (p : Nat → Bool) (n k : Nat) :
    (List.range n).find? (fun i => p i && decide (i < k)) =
      ((List.range n).find? p).filter fun i => decide (i < k) := by
  cases hfind : (List.range n).find? p with
  | none =>
      rw [List.find?_range_eq_none] at hfind
      rw [Option.filter_none, List.find?_range_eq_none]
      intro i hi
      have := hfind i hi
      simp_all
  | some i =>
      rw [List.find?_range_eq_some] at hfind
      obtain ⟨hp, hi, hbefore⟩ := hfind
      by_cases hk : i < k
      · rw [Option.filter_some, decide_eq_true hk, if_pos rfl, List.find?_range_eq_some]
        refine ⟨by simp [hp, hk], hi, fun j hj => ?_⟩
        have := hbefore j hj
        simp_all
      · rw [Option.filter_some, decide_eq_false hk, if_neg (by decide), List.find?_range_eq_none]
        intro j hj
        rcases Nat.lt_or_ge j i with hlt | hge
        · have := hbefore j hlt
          simp_all
        · simp only [Bool.not_eq_true', Bool.and_eq_false_iff, decide_eq_false_iff_not]
          exact .inr (by omega)

/-- The line a controller interrupts for, by its bits. -/
theorem request_eq (c : Pic) {floor : Nat} (h : FloorIs c.isr floor) :
    c.request = (List.range 8).find? fun i =>
      c.irr.getLsbD i && !c.imr.getLsbD i && decide (i < floor) := by
  have hfirst : firstLine (c.irr &&& ~~~c.imr) = (List.range 8).find? fun i =>
      c.irr.getLsbD i && !c.imr.getLsbD i := by
    refine find?_congr_mem fun i hi => ?_
    rw [BitVec.getLsbD_and, BitVec.getLsbD_not, decide_eq_true (List.mem_range.mp hi),
      Bool.true_and]
  rw [find?_and_lt, Pic.request, ← hfirst]
  cases hline : firstLine (c.irr &&& ~~~c.imr) with
  | none => rfl
  | some i =>
      have hi : i < 8 := by
        rw [firstLine, List.find?_range_eq_some] at hline
        exact List.mem_range.mp hline.2.1
      rcases h with ⟨hnone, rfl⟩ | ⟨hsome, _⟩
      · rw [hnone, Option.filter_some, decide_eq_true hi, if_pos rfl]
      · rw [hsome, Option.filter_some]
        by_cases hlt : i < floor
        · simp [hlt]
        · simp [hlt]

/-- Outside an initialization the data port sets the mask. -/
theorem data_ready {c : Pic} (h : c.phase = .ready) (value : Byte) :
    c.data value = { c with imr := value } := by
  obtain ⟨phase, _⟩ := c
  obtain rfl : phase = .ready := h
  rfl

namespace Pics

/-! ## `remap_pic` -/

/-- What `remap_pic` leaves. -/
def remapped : Pics where
  master := ⟨.ready, true, 0x20#8, 0x04#8, 0xFD#8, 0#8, 0#8⟩
  slave := ⟨.ready, true, 0x28#8, 0x02#8, 0xFF#8, 0#8, 0#8⟩

/-- Whatever state the controllers were in, the first word starts them anew. -/
theorem remapPic_ok (s : Pics) : remapPic s = .ok ((), remapped) := rfl

end Pics
end MyOs
