import Mathlib.Data.Bool.Basic
import MyOs.Interrupts.Descriptors

/-!
# One descriptor

What `set_gdt_entry` and `idt_set_gate` store is one record of the table, and the
processor reads back of it what was asked for: a limit is cut to twenty bits, the
flags to four.
-/

namespace MyOs

open Processor

/-- The bytes of a segment descriptor, in the order they are assigned. -/
def segmentBytes (base limit : Word) (access flags : Byte) : List Byte :=
  halfBytes (gdtLimitLow limit) ++ halfBytes (gdtBaseLow base) ++ [gdtBaseMid base] ++ [access] ++
    [gdtCombineHighLimitAndFlags (gdtLimitHigh limit) flags] ++ [gdtBaseHigh base]

/-- The bytes of a gate. -/
def gateBytes (base : Word) (selector : BitVec 16) (typeAttr : Byte) : List Byte :=
  halfBytes (idtOffsetLow base) ++ halfBytes selector ++ [0#8] ++ [typeAttr] ++
    halfBytes (idtOffsetHigh base)

/-- The segment `set_gdt_entry` is asked for. -/
def segmentOf (base limit : Word) (access flags : Byte) : Segment where
  base := base
  limit := segmentLimit (limit.setWidth 20) (flags.getLsbD 3)
  present := access.getLsbD 7
  dpl := access.extractLsb' 5 2
  application := access.getLsbD 4
  executable := access.getLsbD 3
  conforming := access.getLsbD 2
  accessible := access.getLsbD 1
  big := flags.getLsbD 2

/-- The gate `idt_set_gate` is asked for. -/
def gateOf (base : Word) (selector : BitVec 16) (typeAttr : Byte) : Gate where
  offset := base
  selector := selector
  kind := typeAttr.extractLsb' 0 5
  dpl := typeAttr.extractLsb' 5 2
  present := typeAttr.getLsbD 7

/-- `p` with other memory. -/
def Processor.withMem (p : Processor) (mem : ByteStore) : Processor := { p with mem := mem }

@[simp] theorem Processor.withMem_mem (p : Processor) (mem : ByteStore) :
    (p.withMem mem).mem = mem := rfl

@[simp] theorem Processor.withMem_gdtr (p : Processor) (mem : ByteStore) :
    (p.withMem mem).gdtr = p.gdtr := rfl

@[simp] theorem Processor.withMem_idtr (p : Processor) (mem : ByteStore) :
    (p.withMem mem).idtr = p.idtr := rfl

@[simp] theorem Processor.withMem_segments (p : Processor) (mem : ByteStore) :
    (p.withMem mem).segments = p.segments := rfl

@[simp] theorem Processor.withMem_withMem (p : Processor) (mem mem' : ByteStore) :
    (p.withMem mem).withMem mem' = p.withMem mem' := rfl

theorem assign_apply (a : Nat) (bytes : List Byte) (p : Processor) :
    assign a bytes p = .ok ((), p.withMem (p.mem.store a bytes)) := rfl

theorem assign_bind_apply {β : Type} (a : Nat) (bytes : List Byte) (f : Unit → Prog Processor β)
    (p : Processor) : (assign a bytes >>= f) p = f () (p.withMem (p.mem.store a bytes)) := rfl

section Tables

variable {l : DescriptorLayout} {p : Processor}

/-- The field stores are one store. -/
theorem setGdtEntry_at {num : Int} {a : Nat} (hnum : num < 6) (ha : l.gdt + 8 * num = a)
    (hlt : a + 8 ≤ 2 ^ 32) (base limit : Word) (access flags : Byte) :
    setGdtEntry l num base limit access flags p =
      .ok ((), p.withMem (p.mem.store a (segmentBytes base limit access flags))) := by
  have hfield : ∀ offset, offset < 8 → gdtField l num offset = a + offset := by
    intro offset hoffset
    rw [gdtField, ha]
    omega
  rw [setGdtEntry, if_pos (show num < gdtEntries from hnum), hfield 0 (by decide),
    hfield 2 (by decide), hfield 4 (by decide), hfield 5 (by decide), hfield 6 (by decide),
    hfield 7 (by decide)]
  simp only [assign_bind_apply, assign_apply, Processor.withMem_withMem, Processor.withMem_mem,
    segmentBytes, ByteStore.store_append]
  rfl

theorem setGdtEntry_ok {num : Nat} (hnum : num < 6) (base limit : Word) (access flags : Byte) :
    setGdtEntry l num base limit access flags p =
      .ok ((), p.withMem
        (p.mem.store (l.gdt + 8 * num) (segmentBytes base limit access flags))) := by
  have hlt := l.gdt_lt
  exact setGdtEntry_at (by omega) (by omega) (by omega) base limit access flags

/-- The assertion lets a negative number through: the descriptor is stored below the
table. -/
theorem setGdtEntry_below {num : Nat} (hpos : 0 < num) (hle : 8 * num ≤ l.gdt)
    (base limit : Word) (access flags : Byte) :
    setGdtEntry l (-num) base limit access flags p =
      .ok ((), p.withMem
        (p.mem.store (l.gdt - 8 * num) (segmentBytes base limit access flags))) := by
  have hlt := l.gdt_lt
  exact setGdtEntry_at (by omega) (by omega) (by omega) base limit access flags

/-- Beyond the table it stops. -/
theorem setGdtEntry_stops {num : Int} (hnum : ¬num < 6) (base limit : Word) (access flags : Byte) :
    setGdtEntry l num base limit access flags p = .error (.assertion "num < GDT_ENTRIES") := by
  rw [setGdtEntry, if_neg (show ¬num < gdtEntries from hnum), Prog.stop_apply]

theorem idtSetGate_ok (num : Byte) (base : Word) (selector : BitVec 16) (typeAttr : Byte) :
    idtSetGate l num base selector typeAttr p =
      .ok ((), p.withMem
        (p.mem.store (l.idt + 8 * num.toNat) (gateBytes base selector typeAttr))) := by
  rw [idtSetGate]
  simp only [assign_bind_apply, assign_apply, Processor.withMem_withMem, Processor.withMem_mem,
    gateBytes, ByteStore.store_append]
  rfl

end Tables

@[simp] theorem length_segmentBytes (base limit : Word) (access flags : Byte) :
    (segmentBytes base limit access flags).length = 8 := rfl

@[simp] theorem length_gateBytes (base : Word) (selector : BitVec 16) (typeAttr : Byte) :
    (gateBytes base selector typeAttr).length = 8 := rfl

/-! ## Reading back -/

/-- Cutting to `n` bits makes a mask of `n` bits superfluous. -/
theorem setWidth_and_mask (w : Word) {n : Nat} (hn : n ≤ 32) :
    (w &&& BitVec.ofNat 32 (2 ^ n - 1)).setWidth n = w.setWidth n := by
  have hmask : 2 ^ n - 1 < 2 ^ 32 := by
    have := Nat.pow_le_pow_right (show 0 < 2 by decide) hn
    have := Nat.two_pow_pos n
    omega
  apply BitVec.eq_of_toNat_eq
  rw [BitVec.toNat_setWidth, BitVec.toNat_and, BitVec.toNat_ofNat, Nat.mod_eq_of_lt hmask,
    Nat.and_two_pow_sub_one_eq_mod, Nat.mod_mod, BitVec.toNat_setWidth]

/-- The `n` bits from `k` on. -/
theorem setWidth_shift (w : Word) (k n : Nat) : (w >>> k).setWidth n = w.extractLsb' k n := by
  apply BitVec.eq_of_toNat_eq
  rw [BitVec.toNat_setWidth, BitVec.toNat_ushiftRight, BitVec.extractLsb'_toNat]

theorem gdtLimitLow_eq (limit : Word) : gdtLimitLow limit = limit.extractLsb' 0 16 :=
  setWidth_and_mask limit (n := 16) (by decide)

theorem gdtBaseLow_eq (base : Word) : gdtBaseLow base = base.extractLsb' 0 16 :=
  setWidth_and_mask base (n := 16) (by decide)

theorem gdtBaseMid_eq (base : Word) : gdtBaseMid base = base.extractLsb' 16 8 :=
  (setWidth_and_mask _ (n := 8) (by decide)).trans (setWidth_shift base 16 8)

theorem gdtBaseHigh_eq (base : Word) : gdtBaseHigh base = base.extractLsb' 24 8 :=
  (setWidth_and_mask _ (n := 8) (by decide)).trans (setWidth_shift base 24 8)

theorem gdtLimitHigh_eq (limit : Word) :
    gdtLimitHigh limit = (limit.extractLsb' 16 4).setWidth 32 := by
  have hmask := Nat.and_two_pow_sub_one_eq_mod (limit.toNat >>> 16) 4
  apply BitVec.eq_of_toNat_eq
  rw [gdtLimitHigh, BitVec.toNat_and, BitVec.toNat_setWidth, BitVec.toNat_ushiftRight,
    BitVec.extractLsb'_toNat, show (15#32).toNat = 2 ^ 4 - 1 from rfl, hmask]
  omega

/-- Four bits of the limit below four bits of flags. -/
theorem gdtCombineHighLimitAndFlags_eq (limit : Word) (flags : Byte) :
    gdtCombineHighLimitAndFlags (gdtLimitHigh limit) flags =
      flags.extractLsb' 0 4 ++ limit.extractLsb' 16 4 := by
  apply BitVec.eq_of_getLsbD_eq
  intro i hi
  rw [gdtCombineHighLimitAndFlags, gdtLimitHigh_eq]
  simp only [BitVec.getLsbD_setWidth, BitVec.getLsbD_or, BitVec.getLsbD_shiftLeft,
    BitVec.getLsbD_append, BitVec.getLsbD_extractLsb', hi]
  grind

theorem idtOffsetLow_eq (offset : Word) : idtOffsetLow offset = offset.extractLsb' 0 16 :=
  setWidth_and_mask offset (n := 16) (by decide)

theorem idtOffsetHigh_eq (offset : Word) : idtOffsetHigh offset = offset.extractLsb' 16 16 :=
  setWidth_shift offset 16 16

/-- The base is put together from its three parts. -/
theorem base_parts (base : Word) :
    Word.ofBytes ((base.extractLsb' 0 16).extractLsb' 0 8) ((base.extractLsb' 0 16).extractLsb' 8 8)
      (base.extractLsb' 16 8) (base.extractLsb' 24 8) = base := by
  apply BitVec.eq_of_getLsbD_eq
  intro i hi
  simp only [Word.ofBytes, BitVec.getLsbD_append, BitVec.getLsbD_extractLsb']
  grind

theorem offset_parts (base : Word) :
    Word.ofBytes ((base.extractLsb' 0 16).extractLsb' 0 8) ((base.extractLsb' 0 16).extractLsb' 8 8)
      ((base.extractLsb' 16 16).extractLsb' 0 8) ((base.extractLsb' 16 16).extractLsb' 8 8) =
        base := by
  apply BitVec.eq_of_getLsbD_eq
  intro i hi
  simp only [Word.ofBytes, BitVec.getLsbD_append, BitVec.getLsbD_extractLsb']
  grind

theorem limit_parts (limit : Word) (flags : Byte) :
    (flags.extractLsb' 0 4 ++ limit.extractLsb' 16 4 : Byte).extractLsb' 0 4 ++
        (limit.extractLsb' 0 16).extractLsb' 8 8 ++ (limit.extractLsb' 0 16).extractLsb' 0 8 =
      (limit.setWidth 20 : BitVec 20) := by
  apply BitVec.eq_of_getLsbD_eq
  intro i hi
  simp only [BitVec.getLsbD_append, BitVec.getLsbD_extractLsb', BitVec.getLsbD_setWidth]
  grind

theorem flags_part (limit : Word) (flags : Byte) (i : Nat) (hi : i < 4) :
    (flags.extractLsb' 0 4 ++ limit.extractLsb' 16 4 : Byte).getLsbD (4 + i) =
      flags.getLsbD i := by
  simp only [BitVec.getLsbD_append, BitVec.getLsbD_extractLsb']
  grind

/-- A segment descriptor is what was asked for. -/
theorem segment_ofBytes (base limit : Word) (access flags : Byte) :
    Segment.ofBytes (segmentBytes base limit access flags) =
      segmentOf base limit access flags := by
  rw [segmentBytes, gdtCombineHighLimitAndFlags_eq, gdtLimitLow_eq, gdtBaseLow_eq, gdtBaseMid_eq,
    gdtBaseHigh_eq]
  simp only [Segment.ofBytes, segmentOf, halfBytes, List.cons_append, List.nil_append,
    List.getD_cons_zero, List.getD_cons_succ, Segment.mk.injEq]
  refine ⟨base_parts base, ?_, trivial, trivial, trivial, trivial, trivial, trivial,
    flags_part limit flags 2 (by decide)⟩
  rw [limit_parts, flags_part limit flags 3 (by decide)]

/-- And so is a gate. -/
theorem gate_ofBytes (base : Word) (selector : BitVec 16) (typeAttr : Byte) :
    Gate.ofBytes (gateBytes base selector typeAttr) = gateOf base selector typeAttr := by
  rw [gateBytes, idtOffsetLow_eq, idtOffsetHigh_eq]
  simp only [Gate.ofBytes, gateOf, halfBytes, List.cons_append, List.nil_append,
    List.getD_cons_zero, List.getD_cons_succ, Gate.mk.injEq]
  exact ⟨offset_parts base, append_extractLsb' selector, trivial, trivial, trivial⟩

/-! ## The table registers -/

/-- What `init_gdt_ptr` and `init_idt_ptr` store is loaded. -/
theorem tablePtr_ofBytes (limit : BitVec 16) (base : Word) :
    TablePtr.ofBytes (halfBytes limit ++ base.bytes) = ⟨limit, base⟩ := by
  simp only [TablePtr.ofBytes, halfBytes, Word.bytes, List.cons_append, List.nil_append,
    List.getD_cons_zero, List.getD_cons_succ]
  rw [append_extractLsb', Word.ofBytes_byte]

end MyOs
