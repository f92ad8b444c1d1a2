import MyOs.Base.Cells
import MyOs.Interrupts.Stubs
import MyOs.Logic.DescriptorSpec

/-!
# The way of an interrupt through the tables

The bytes of the two tables are cells: at each place the processor reads the
descriptor that was last put there, and nothing the other table is given shows.
After `init_gdt` and `init_idt` every vector leads to a routine of the kernel's;
those without a gate lead, by way of an exception, to `isr13`.
-/

namespace MyOs

open Processor

/-! ## The tables as cells -/

inductive DescriptorCall
  | setGdtEntry (num : Int) (base limit : Word) (access flags : Byte)
  | idtSetGate (num : Byte) (base : Word) (selector : BitVec 16) (typeAttr : Byte)

/-- Calls of `set_gdt_entry` and `idt_set_gate` that return, from any contents. -/
def descriptorSys (l : DescriptorLayout) : TSys Processor DescriptorCall where
  init _ := True
  step p call p' :=
    match call with
    | .setGdtEntry num base limit access flags =>
        setGdtEntry l num base limit access flags p = .ok ((), p')
    | .idtSetGate num base selector typeAttr =>
        idtSetGate l num base selector typeAttr p = .ok ((), p')

/-- A place of one of the tables. -/
inductive DescriptorPlace
  | segment (num : Nat)
  | gate (num : Byte)
deriving DecidableEq

inductive Descriptor
  | segment (s : Segment)
  | gate (g : Gate)

/-- What a call puts into which place. -/
def DescriptorCall.cell : DescriptorCall → CellCall DescriptorPlace Descriptor
  | .setGdtEntry num base limit access flags =>
      .set (.segment num.toNat) (.segment (segmentOf base limit access flags))
  | .idtSetGate num base selector typeAttr =>
      .set (.gate num) (.gate (gateOf base selector typeAttr))

/-- No entry below the table is asked for; the assertion does not see to that. -/
def DescriptorCall.Indexed : DescriptorCall → Prop
  | .setGdtEntry num _ _ _ _ => 0 ≤ num
  | .idtSetGate _ _ _ _ => True

/-- At every place the processor reads what the cell holds. -/
structure Tables (l : DescriptorLayout) (p : Processor) (f : DescriptorPlace → Descriptor) :
    Prop where
  segments : ∀ i, i < 6 → f (.segment i) = .segment (Segment.ofBytes (p.mem.record l.gdt 8 i))
  gates : ∀ v : Byte, f (.gate v) = .gate (Gate.ofBytes (p.mem.record l.idt 8 v.toNat))

section Store

variable {l : DescriptorLayout} {p : Processor} {f : DescriptorPlace → Descriptor}

/-- A store outside both tables. -/
theorem Tables.outside (h : Tables l p f) (a : Nat) (bs : List Byte)
    (hgdt : l.gdt + 48 ≤ a ∨ a + bs.length ≤ l.gdt)
    (hidt : l.idt + 2048 ≤ a ∨ a + bs.length ≤ l.idt) :
    Tables l (p.withMem (p.mem.store a bs)) f where
  segments i hi := by
    rw [h.segments i hi, Processor.withMem_mem,
      ByteStore.record_store_apart 6 hi (by omega)]
  gates v := by
    rw [h.gates v, Processor.withMem_mem,
      ByteStore.record_store_apart 256 v.isLt (by omega)]

theorem Tables.setEntry (h : Tables l p f) (num : Nat) (hnum : num < 6) (base limit : Word)
    (access flags : Byte) :
    Tables l (p.withMem (p.mem.store (l.gdt + 8 * num) (segmentBytes base limit access flags)))
      (Function.update f (.segment num) (.segment (segmentOf base limit access flags))) where
  segments i hi := by
    rw [Processor.withMem_mem, ByteStore.record_store (length_segmentBytes ..)]
    by_cases heq : i = num
    · rw [if_pos heq, heq, Function.update_self, segment_ofBytes]
    · rw [if_neg heq, Function.update_of_ne (by simpa using heq), h.segments i hi]
  gates v := by
    have hapart := l.gdt_idt
    rw [Processor.withMem_mem, Function.update_of_ne (by simp), h.gates v,
      ByteStore.record_store_apart 256 v.isLt (by rw [length_segmentBytes]; omega)]

theorem Tables.setGate (h : Tables l p f) (num : Byte) (base : Word) (selector : BitVec 16)
    (typeAttr : Byte) :
    Tables l (p.withMem
        (p.mem.store (l.idt + 8 * num.toNat) (gateBytes base selector typeAttr)))
      (Function.update f (.gate num) (.gate (gateOf base selector typeAttr))) where
  segments i hi := by
    have hapart := l.gdt_idt
    have hnum := num.isLt
    rw [Processor.withMem_mem, Function.update_of_ne (by simp), h.segments i hi,
      ByteStore.record_store_apart 6 hi (by rw [length_gateBytes]; omega)]
  gates v := by
    rw [Processor.withMem_mem, ByteStore.record_store (length_gateBytes ..)]
    by_cases heq : v = num
    · rw [if_pos (congrArg BitVec.toNat heq), heq, Function.update_self, gate_ofBytes]
    · rw [if_neg fun hv => heq (BitVec.eq_of_toNat_eq hv),
        Function.update_of_ne (by simpa using heq), h.gates v]

/-- Any contents are the contents of cells. -/
theorem exists_tables (l : DescriptorLayout) (p : Processor) : ∃ f, Tables l p f :=
  ⟨fun
    | .segment i => .segment (Segment.ofBytes (p.mem.record l.gdt 8 i))
    | .gate v => .gate (Gate.ofBytes (p.mem.record l.idt 8 v.toNat)),
    fun _ _ => rfl, fun _ => rfl⟩

end Store

/-- **The tables store descriptors.** Over any run of `set_gdt_entry`, with numbers
that are not negative, and `idt_set_gate`, from any memory, the processor reads at
every place the descriptor that was last asked for there: base, limit, privileges and
kind of a segment, target, selector and kind of a gate. -/
theorem descriptor_tables_store (l : DescriptorLayout) :
    ((descriptorSys l).restrict fun _ call => call.Indexed).Simulates
      (cells DescriptorPlace Descriptor) (Tables l) fun call c => c = call.cell where
  init p _ := by
    obtain ⟨f, hf⟩ := exists_tables l p
    exact ⟨f, trivial, hf⟩
  step p call p' f h hstep := by
    cases call with
    | setGdtEntry num base limit access flags =>
        obtain ⟨n, rfl⟩ := Int.eq_ofNat_of_zero_le (show 0 ≤ num from hstep.1)
        have hset : setGdtEntry l n base limit access flags p = .ok ((), p') := hstep.2
        by_cases hnum : n < 6
        · rw [setGdtEntry_ok hnum] at hset
          cases hset
          exact ⟨_, _, rfl, rfl, h.setEntry n hnum base limit access flags⟩
        · rw [setGdtEntry_stops (by omega)] at hset
          cases hset
    | idtSetGate num base selector typeAttr =>
        have hset : idtSetGate l num base selector typeAttr p = .ok ((), p') := hstep.2
        rw [idtSetGate_ok] at hset
        cases hset
        exact ⟨_, _, rfl, rfl, h.setGate num base selector typeAttr⟩

/-! ## From the vector to the routine -/

/-- The kernel's code segment: all of memory, ring 0. -/
def codeSegment : Segment := segmentOf 0#32 maxLimit gdtCodeAccess gdtCodeFlags

def dataSegment : Segment := segmentOf 0#32 maxLimit gdtDataAccess gdtDataFlags

/-- What lies at a place of the interrupt table nobody has written to. -/
def noGate : Gate := ⟨0#32, 0#16, 0#5, 0#2, false⟩

/-- The gate for a routine, if there is one. -/
def gateFor : Option Word → Gate
  | some a => gateOf a codeSelector idtAttrKernel
  | none => noGate

/-- Routines by vector. -/
abbrev Routes := Byte → Option Word

/-- `isr0` to `isr33`. -/
def bootRoutes (isr : Nat → Word) : Routes := fun v =>
  if v.toNat < 34 then some (isr v.toNat) else none

/-- The tables are loaded, and the gates are those for `routes`. -/
structure Routed (l : DescriptorLayout) (p : Processor) (routes : Routes) : Prop where
  gdtr : p.gdtr = ⟨47#16, BitVec.ofNat 32 l.gdt⟩
  idtr : p.idtr = ⟨2047#16, BitVec.ofNat 32 l.idt⟩
  tables : ∃ f, Tables l p f ∧ f (.segment 2) = .segment codeSegment ∧
    ∀ v, f (.gate v) = .gate (gateFor (routes v))

/-- The routine at `a`, in the kernel's code segment with interrupts off. -/
def routineAt (a : Word) : Entry := ⟨codeSelector, a, a, true⟩

/-- Where an interrupt goes: without a routine of its own it is a general protection
exception. -/
def Routes.target (routes : Routes) (v : Byte) : Option (Nat × Entry) :=
  match routes v with
  | some a => some (v.toNat, routineAt a)
  | none => (routes 13#8).map fun a => (13, routineAt a)

section Routing

variable {l : DescriptorLayout} {p : Processor} {routes : Routes}

/-- A segment of the table that is loaded. -/
theorem descriptor_of {f : DescriptorPlace → Descriptor}
    (hgdtr : p.gdtr = ⟨47#16, BitVec.ofNat 32 l.gdt⟩) (h : Tables l p f) (selector : BitVec 16)
    {s : Segment} (hti : selector.getLsbD 2 = false) (hplace : selector.toNat / 8 < 6)
    (hs : f (.segment (selector.toNat / 8)) = .segment s) :
    p.descriptor selector = some s := by
  have hlt := l.gdt_lt
  rw [h.segments _ hplace] at hs
  have hinside : ¬((selector.getLsbD 2 : Prop) ∨ (47#16).toNat < 8 * (selector.toNat / 8) + 7) := by
    rw [hti, show (47#16).toNat = 47 from rfl]
    simp only [Bool.false_eq_true, false_or]
    omega
  rw [descriptor, hgdtr, if_neg hinside, BitVec.toNat_ofNat, Nat.mod_eq_of_lt (by omega)]
  exact congrArg some (Descriptor.segment.inj hs)

/-- A gate of the table that is loaded. -/
theorem Routed.gate (h : Routed l p routes) (v : Byte) :
    Gate.ofBytes (p.mem.record p.idtr.base.toNat 8 v.toNat) = gateFor (routes v) := by
  obtain ⟨f, htables, _, hgates⟩ := h.tables
  have hlt := l.idt_lt
  have hv := hgates v
  rw [htables.gates v] at hv
  rw [h.idtr, BitVec.toNat_ofNat, Nat.mod_eq_of_lt (by omega)]
  exact Descriptor.gate.inj hv

/-- The checks on the kernel's gates pass. -/
theorem Routed.vectorEntry (h : Routed l p routes) (v : Byte) :
    p.vectorEntry v.toNat =
      match routes v with
      | some a => .ok (routineAt a)
      | none => .error (.generalProtection (gateError v.toNat)) := by
  obtain ⟨f, htables, hcode, _⟩ := h.tables
  have hv := v.isLt
  rw [Processor.vectorEntry, if_neg (by rw [h.idtr]; simp; omega), h.gate v]
  cases routes v with
  | none => rfl
  | some a =>
      have hcodes : p.descriptor codeSelector = some codeSegment :=
        descriptor_of h.gdtr htables _ rfl (by decide) hcode
      have hlimit : ¬codeSegment.limit < a.toNat := by
        have := a.isLt
        rw [show codeSegment.limit = 2 ^ 32 - 1 from rfl]
        omega
      change p.enterSegment (gateOf a codeSelector idtAttrKernel) = .ok (routineAt a)
      rw [enterSegment, show (gateOf a codeSelector idtAttrKernel).selector = codeSelector from rfl,
        hcodes, if_neg (by decide : ¬codeSelector.toNat / 4 = 0)]
      change (if codeSegment.limit < a.toNat then _ else
        Except.ok (Entry.mk codeSelector a (0#32 + a) true)) = _
      rw [if_neg hlimit, BitVec.zero_add]
      rfl

/-- Where an interrupt goes in the end. -/
theorem Routed.delivered (h : Routed l p routes) (hgp : routes 13#8 ≠ none) (v : Byte) :
    p.delivered v.toNat = routes.target v := by
  rw [Processor.delivered, h.vectorEntry v, Routes.target]
  cases routes v with
  | some a => rfl
  | none =>
      obtain ⟨a, ha⟩ := Option.ne_none_iff_exists'.mp hgp
      have hthirteen : p.vectorEntry (Fault.generalProtection (gateError v.toNat)).vector =
          .ok (routineAt a) := by
        have hentry := h.vectorEntry 13#8
        rw [ha] at hentry
        exact hentry
      simp only [hthirteen, ha]
      rfl

/-- A gate for a routine is installed. -/
theorem Routed.install (h : Routed l p routes) (num : Byte) (a : Word) :
    ∃ p', idtSetGate l num a codeSelector idtAttrKernel p = .ok ((), p') ∧
      Routed l p' (Function.update routes num (some a)) ∧ p'.segments = p.segments := by
  obtain ⟨f, htables, hcode, hgates⟩ := h.tables
  refine ⟨_, idtSetGate_ok num a codeSelector idtAttrKernel,
    ⟨h.gdtr, h.idtr, _, htables.setGate num a codeSelector idtAttrKernel, ?_, fun v => ?_⟩, rfl⟩
  · rw [Function.update_of_ne (by simp), hcode]
  · by_cases hv : v = num
    · rw [hv, Function.update_self, Function.update_self]
      rfl
    · rw [Function.update_of_ne (by simpa using hv), Function.update_of_ne hv, hgates v]

/-! ### The boot -/

/-- `setup_gdt_entries` and `init_gdt_ptr` return, and fill their places. -/
theorem initGdtTables_ok {f : DescriptorPlace → Descriptor} (h : Tables l p f) :
    ∃ p' f', (do setupGdtEntries l; initGdtPtr l) p = .ok ((), p') ∧ Tables l p' f' ∧
      f' (.segment 2) = .segment codeSegment ∧ f' (.segment 3) = .segment dataSegment ∧
      (∀ v, f' (.gate v) = f (.gate v)) ∧
      TablePtr.ofBytes (p'.mem.load l.gdtPtr 6) = ⟨47#16, BitVec.ofNat 32 l.gdt⟩ := by
  -- the five entries
  have h₀ := h.setEntry 0 (by decide) 0#32 0#32 0#8 0#8
  have h₁ := h₀.setEntry 2 (by decide) 0#32 maxLimit gdtCodeAccess gdtCodeFlags
  have h₂ := h₁.setEntry 3 (by decide) 0#32 maxLimit gdtDataAccess gdtDataFlags
  have h₃ := h₂.setEntry 4 (by decide) 0#32 maxLimit gdtUserCodeAccess gdtCodeFlags
  have h₄ := h₃.setEntry 5 (by decide) 0#32 maxLimit gdtUserDataAccess gdtDataFlags
  obtain ⟨q, hq⟩ : ∃ q, setupGdtEntries l p = .ok ((), q) ∧ Tables l q _ := by
    refine ⟨_, ?_, h₄⟩
    rw [setupGdtEntries, Prog.bind_of_ok (setGdtEntry_ok (by decide) ..),
      Prog.bind_of_ok (setGdtEntry_ok (by decide) ..),
      Prog.bind_of_ok (setGdtEntry_ok (by decide) ..),
      Prog.bind_of_ok (setGdtEntry_ok (by decide) ..), setGdtEntry_ok (by decide)]
    rfl
  obtain ⟨hrun, htables⟩ := hq
  -- the pointer
  have hgdt := l.gdt_gdtPtr
  have hidt := l.gdtPtr_idt
  have h₅ := htables.outside l.gdtPtr (TablePtr.bytes ⟨47#16, BitVec.ofNat 32 l.gdt⟩)
    (by simp [TablePtr.bytes]; omega) (by simp [TablePtr.bytes]; omega)
  refine ⟨_, _, ?_, h₅, ?_, ?_, fun v => ?_, ?_⟩
  · rw [Prog.bind_of_ok hrun, initGdtPtr, assign_bind_apply, assign_apply]
    rw [TablePtr.bytes, ByteStore.store_append]
    rfl
  · simp [codeSegment]
  · simp [dataSegment]
  · simp
  · have hload : (q.mem.store l.gdtPtr (TablePtr.bytes ⟨47#16, BitVec.ofNat 32 l.gdt⟩)).load
        l.gdtPtr 6 = TablePtr.bytes ⟨47#16, BitVec.ofNat 32 l.gdt⟩ := ByteStore.load_store
    rw [Processor.withMem_mem, hload]
    exact tablePtr_ofBytes _ _

theorem loadSegment_ok {r : SegmentRegister} {selector : BitVec 16}
    (h : p.takes r selector = true) :
    loadSegment r selector p =
      .ok ((), { p with segments := Function.update p.segments r selector }) := by
  rw [loadSegment, Prog.get_bind_apply, if_pos h]
  rfl

/-- The selectors after `load_gdt`. -/
def kernelSegments : SegmentRegister → BitVec 16
  | .cs => codeSelector
  | _ => kernelDataSelector

/-- `load_gdt` finds the segments it asks for. -/
theorem loadGdt_ok {f : DescriptorPlace → Descriptor} (h : Tables l p f)
    (hcode : f (.segment 2) = .segment codeSegment)
    (hdata : f (.segment 3) = .segment dataSegment)
    (hptr : TablePtr.ofBytes (p.mem.load l.gdtPtr 6) = ⟨47#16, BitVec.ofNat 32 l.gdt⟩) :
    ∃ p', loadGdt l p = .ok ((), p') ∧ p'.mem = p.mem ∧
      p'.gdtr = ⟨47#16, BitVec.ofNat 32 l.gdt⟩ ∧ p'.segments = kernelSegments := by
  have hdatas : ∀ segments r, r ≠ .cs →
      Processor.takes { p with gdtr := ⟨47#16, BitVec.ofNat 32 l.gdt⟩, segments := segments } r
        kernelDataSelector = true := by
    intro segments r hr
    have hdescriptor := descriptor_of (l := l)
      (p := { p with gdtr := ⟨47#16, BitVec.ofNat 32 l.gdt⟩, segments := segments }) rfl
      ⟨h.segments, h.gates⟩ kernelDataSelector rfl (by decide) hdata
    rw [takes, hdescriptor]
    cases r with
    | cs => exact absurd rfl hr
    | _ => rfl
  have hcodes : ∀ segments,
      Processor.takes { p with gdtr := ⟨47#16, BitVec.ofNat 32 l.gdt⟩, segments := segments } .cs
        codeSelector = true := by
    intro segments
    have hdescriptor := descriptor_of (l := l)
      (p := { p with gdtr := ⟨47#16, BitVec.ofNat 32 l.gdt⟩, segments := segments }) rfl
      ⟨h.segments, h.gates⟩ codeSelector rfl (by decide) hcode
    rw [takes, hdescriptor]
    rfl
  refine ⟨{ p with gdtr := ⟨47#16, BitVec.ofNat 32 l.gdt⟩, segments := kernelSegments }, ?_, rfl,
    rfl, rfl⟩
  rw [loadGdt, Prog.modify_bind_apply, hptr,
    Prog.bind_of_ok (loadSegment_ok (hdatas _ .ds (by decide))),
    Prog.bind_of_ok (loadSegment_ok (hdatas _ .es (by decide))),
    Prog.bind_of_ok (loadSegment_ok (hdatas _ .fs (by decide))),
    Prog.bind_of_ok (loadSegment_ok (hdatas _ .gs (by decide))),
    Prog.bind_of_ok (loadSegment_ok (hdatas _ .ss (by decide))), loadSegment_ok (hcodes _)]
  have hsegments : Function.update (Function.update (Function.update (Function.update
      (Function.update (Function.update p.segments .ds kernelDataSelector) .es kernelDataSelector)
      .fs kernelDataSelector) .gs kernelDataSelector) .ss kernelDataSelector) .cs codeSelector =
        kernelSegments := by
    funext r
    cases r with
    | _ => rfl
  rw [← hsegments]

/-- The gates of the routines below `i` are set, and nothing else has changed. -/
structure GatesBelow (l : DescriptorLayout) (isr : Nat → Word) (p : Processor) (i : Nat)
    (q : Processor) : Prop where
  tables : ∃ f, Tables l q f ∧ f (.segment 2) = .segment codeSegment ∧
    ∀ v : Byte, f (.gate v) = .gate (gateFor (if v.toNat < i then some (isr v.toNat) else none))
  gdtr : q.gdtr = p.gdtr
  segments : q.segments = p.segments

theorem GatesBelow.turn {isr : Nat → Word} {q : Processor} {i : Nat} (hi : i < 34)
    (h : GatesBelow l isr p i q) :
    ∃ q', idtSetGate l (BitVec.ofNat 8 i) (isr i) codeSelector idtAttrKernel q = .ok ((), q') ∧
      GatesBelow l isr p (i + 1) q' := by
  obtain ⟨f, hf, hcode, hgates⟩ := h.tables
  have hnum : (BitVec.ofNat 8 i).toNat = i := by
    rw [BitVec.toNat_ofNat, Nat.mod_eq_of_lt (by omega)]
  refine ⟨_, idtSetGate_ok .., ⟨_, hf.setGate _ _ _ _, ?_, fun v => ?_⟩, h.gdtr, h.segments⟩
  · rw [Function.update_of_ne (by simp), hcode]
  · by_cases hv : v = BitVec.ofNat 8 i
    · rw [hv, Function.update_self, hnum, if_pos (Nat.lt_succ_self i)]
      rfl
    · have hne : v.toNat ≠ i := fun heq => hv (BitVec.eq_of_toNat_eq (by rw [hnum, heq]))
      have hiff : v.toNat < i ↔ v.toNat < i + 1 := by omega
      rw [Function.update_of_ne (by simpa using hv), hgates v]
      simp only [hiff]

/-- `init_idt` puts the gates of `isr0` to `isr33` into an empty table. -/
theorem initIdt_ok {f : DescriptorPlace → Descriptor} (isr : Nat → Word) (h : Tables l p f)
    (hgdtr : p.gdtr = ⟨47#16, BitVec.ofNat 32 l.gdt⟩)
    (hcode : f (.segment 2) = .segment codeSegment)
    (hempty : ∀ v, f (.gate v) = .gate noGate) :
    ∃ p', initIdt l isr p = .ok ((), p') ∧ Routed l p' (bootRoutes isr) ∧
      p'.segments = p.segments := by
  have hstart : GatesBelow l isr p 0 p :=
    ⟨⟨f, h, hcode, fun v => by rw [if_neg (Nat.not_lt_zero _), hempty v]; rfl⟩, rfl, rfl⟩
  obtain ⟨q, hrun, ⟨g, hg, hgcode, hgates⟩, hqgdtr, hqsegments⟩ :=
    Prog.forLoop_ok (fun i q hi hq => GatesBelow.turn hi hq) 34 0 p (by decide) hstart
  -- the pointer
  have hidt := l.idt_idtPtr
  have hgdt := l.gdt_idtPtr
  have htables := hg.outside l.idtPtr (TablePtr.bytes ⟨2047#16, BitVec.ofNat 32 l.idt⟩)
    (by simp [TablePtr.bytes]; omega) (by simp [TablePtr.bytes]; omega)
  have hload : (q.mem.store l.idtPtr (TablePtr.bytes ⟨2047#16, BitVec.ofNat 32 l.idt⟩)).load
      l.idtPtr 6 = TablePtr.bytes ⟨2047#16, BitVec.ofNat 32 l.idt⟩ := ByteStore.load_store
  have hptr : initIdtPtr l q = .ok ((), q.withMem
      (q.mem.store l.idtPtr (TablePtr.bytes ⟨2047#16, BitVec.ofNat 32 l.idt⟩))) := by
    rw [initIdtPtr, assign_bind_apply, assign_apply, TablePtr.bytes, ByteStore.store_append]
    rfl
  refine ⟨{ q with
    mem := q.mem.store l.idtPtr (TablePtr.bytes ⟨2047#16, BitVec.ofNat 32 l.idt⟩)
    idtr := ⟨2047#16, BitVec.ofNat 32 l.idt⟩ }, ?_,
    ⟨hqgdtr.trans hgdtr, rfl, g, ⟨htables.segments, htables.gates⟩, hgcode, hgates⟩, hqsegments⟩
  rw [initIdt, initIdtEntries, Prog.bind_of_ok hrun, Prog.bind_of_ok hptr, loadIdt,
    Prog.modify_apply, Processor.withMem_mem, hload, TablePtr.bytes, tablePtr_ofBytes]
  rfl

/-- Records of zeros are no gates. -/
theorem empty_gate (hzero : ∀ a, l.idt ≤ a → a < l.idt + 2048 → p.mem a = 0#8) (v : Byte) :
    Gate.ofBytes (p.mem.record l.idt 8 v.toNat) = noGate := by
  have hv := v.isLt
  have hbytes : p.mem.record l.idt 8 v.toNat = List.replicate 8 0#8 := by
    apply List.ext_getElem?
    intro i
    by_cases hi : i < 8
    · rw [ByteStore.record, ByteStore.getElem?_load hi, hzero _ (by omega) (by omega)]
      rw [List.getElem?_replicate, if_pos hi]
    · rw [List.getElem?_eq_none (by simpa [ByteStore.record] using hi),
        List.getElem?_eq_none (by simpa using hi)]
  rw [hbytes]
  rfl

/-- From an empty interrupt table, `init_gdt` and `init_idt` return. -/
theorem boot_routed (isr : Nat → Word)
    (hzero : ∀ a, l.idt ≤ a → a < l.idt + 2048 → p.mem a = 0#8) :
    ∃ p', (do initGdt l; initIdt l isr) p = .ok ((), p') ∧ Routed l p' (bootRoutes isr) ∧
      p'.segments = kernelSegments := by
  obtain ⟨f, hf⟩ := exists_tables l p
  obtain ⟨p₁, f₁, hrun₁, htables₁, hcode, hdata, hgates, hptr⟩ := initGdtTables_ok hf
  obtain ⟨p₂, hrun₂, hmem, hgdtr, hsegments⟩ := loadGdt_ok htables₁ hcode hdata hptr
  have htables₂ : Tables l p₂ f₁ := by
    refine ⟨fun i hi => ?_, fun v => ?_⟩
    · rw [hmem, htables₁.segments i hi]
    · rw [hmem, htables₁.gates v]
  have hempty : ∀ v, f₁ (.gate v) = .gate noGate := by
    intro v
    rw [hgates v, hf.gates v, empty_gate hzero v]
  obtain ⟨p₃, hrun₃, hrouted, hkept⟩ := initIdt_ok isr htables₂ hgdtr hcode hempty
  refine ⟨p₃, ?_, hrouted, hkept.trans hsegments⟩
  have hgdt : initGdt l p = .ok ((), p₂) := by
    obtain ⟨_, q, hsetup, hinit⟩ := Prog.bind_eq_ok.mp hrun₁
    rw [initGdt, Prog.bind_of_ok hsetup, Prog.bind_of_ok hinit, hrun₂]
  rw [Prog.bind_of_ok hgdt, hrun₃]

end Routing

/-! ### Runs -/

/-- Calls of `idt_irq_install_handler`, from any state. -/
def installSys (l : DescriptorLayout) : TSys Processor (Int × Word) where
  init _ := True
  step p call p' := idtIrqInstallHandler l call.1 call.2 p = .ok ((), p')

/-- The routines after a run of installations. -/
def routesAfter (isr : Nat → Word) (run : List ((Int × Word) × Processor)) : Routes :=
  CellCall.after (bootRoutes isr)
    (run.map fun x => .set (BitVec.ofInt 8 x.1.1) (some x.1.2))

/-- A run of installations keeps the tables in order. -/
theorem run_routed {l : DescriptorLayout} {p : Processor} {routes : Routes}
    {run : List ((Int × Word) × Processor)} (h : Routed l p routes)
    (hrun : (installSys l).IsRun p run) :
    Routed l (TSys.final p run) (CellCall.after routes
      (run.map fun x => .set (BitVec.ofInt 8 x.1.1) (some x.1.2))) := by
  induction run generalizing p routes with
  | nil => exact h
  | cons next rest ih =>
      obtain ⟨⟨irq, handler⟩, p'⟩ := next
      obtain ⟨q, hq, hrouted, _⟩ := h.install (BitVec.ofInt 8 irq) handler
      have hstep : idtSetGate l (BitVec.ofInt 8 irq) handler codeSelector idtAttrKernel p =
        .ok ((), p') := hrun.1
      rw [hq] at hstep
      cases hstep
      exact ih hrouted hrun.2

/-- A general protection exception always has its routine. -/
theorem routesAfter_thirteen (isr : Nat → Word) (run : List ((Int × Word) × Processor)) :
    routesAfter isr run 13#8 ≠ none := by
  rcases CellCall.after_cases (bootRoutes isr)
    (run.map fun x => .set (BitVec.ofInt 8 x.1.1) (some x.1.2)) 13#8 with h | ⟨a, ha, h⟩
  · rw [routesAfter, h]
    exact Option.some_ne_none _
  · obtain ⟨x, _, hx⟩ := List.mem_map.mp ha
    rw [routesAfter, h, ← (CellCall.set.inj hx).2]
    exact Option.some_ne_none _

/-- **Interrupts reach their routines.** From an empty interrupt table, whatever else
memory holds, `init_gdt` and `init_idt` return with all segment registers loaded.
After any run of `idt_irq_install_handler`, an interrupt with any vector enters the
routine last installed for it, at first one of `isr0` to `isr33`, in the kernel's
code segment and with interrupts off; a vector without one raises the exception of
vector 13. -/
theorem interrupts_routed (l : DescriptorLayout) (isr : Nat → Word) (p₀ : Processor)
    (hzero : ∀ a, l.idt ≤ a → a < l.idt + 2048 → p₀.mem a = 0#8) :
    ∃ p, (do initGdt l; initIdt l isr) p₀ = .ok ((), p) ∧ p.segments = kernelSegments ∧
      ∀ run, (installSys l).IsRun p run → ∀ v : Byte,
        (TSys.final p run).delivered v.toNat = (routesAfter isr run).target v := by
  obtain ⟨p, hrun, hrouted, hsegments⟩ := boot_routed isr hzero
  refine ⟨p, hrun, hsegments, fun run hinstalls v => ?_⟩
  exact (run_routed hrouted hinstalls).delivered (routesAfter_thirteen isr run) v

/-- The tables one after the other. -/
def flatLayout : DescriptorLayout where
  gdt := 0x200000
  gdtPtr := 0x200040
  idt := 0x201000
  idtPtr := 0x202000
  gdt_lt := by decide
  idt_lt := by decide
  gdt_gdtPtr := by decide
  gdt_idt := by decide
  gdt_idtPtr := by decide
  gdtPtr_idt := by decide
  idt_idtPtr := by decide

def bareProcessor : Processor := ⟨fun _ => 0#8, ⟨0#16, 0#32⟩, ⟨0#16, 0#32⟩, fun _ => 0#16⟩

/-- A timer interrupt after the boot. -/
theorem interrupts_routed_timer : ∃ p,
    (do initGdt flatLayout; initIdt flatLayout fun v => BitVec.ofNat 32 (0x100000 + 64 * v))
      bareProcessor = .ok ((), p) ∧ p.delivered 32 = some (32, routineAt 0x100800#32) := by
  obtain ⟨p, hrun, _, hroutes⟩ := interrupts_routed flatLayout
    (fun v => BitVec.ofNat 32 (0x100000 + 64 * v)) bareProcessor fun _ _ _ => rfl
  exact ⟨p, hrun, hroutes [] trivial 32#8⟩

theorem service_known {n : Nat} (hn : n < 34) (errCode : Word) :
    Machine.service (BitVec.ofNat 32 n) errCode ≠ .unknownInterrupt := by
  have hnat : (BitVec.ofNat 32 n).toNat = n := by
    rw [BitVec.toNat_ofNat, Nat.mod_eq_of_lt (by omega)]
  rw [Machine.service]
  split
  · exact Service.noConfusion
  · next hkeyboard =>
      split
      · exact Service.noConfusion
      · split
        · exact Service.noConfusion
        · next hpit =>
            -- what is neither 33 nor 32 is an exception
            have hexception : BitVec.ofNat 32 n < cpuExceptions := by
              have h₁ : n ≠ 33 := fun h => hkeyboard (by rw [h]; rfl)
              have h₂ : n ≠ 32 := fun h => hpit (by rw [h]; rfl)
              rw [BitVec.lt_def, hnat, show cpuExceptions.toNat = 32 from rfl]
              omega
            rw [if_pos hexception]
            exact Service.noConfusion

/-- **No interrupt is unknown.** After the boot and any installations, whatever the
vector, either a handler that was installed is entered, or one of `isr0` to `isr33`,
with its own number or for a general protection exception; and to none of these
numbers does `isr_handler` say "Unknown interrupt". -/
theorem unknown_interrupt_never {l : DescriptorLayout} {isr : Nat → Word} (p₀ : Processor)
    {p : Processor} (hzero : ∀ a, l.idt ≤ a → a < l.idt + 2048 → p₀.mem a = 0#8)
    (hboot : (do initGdt l; initIdt l isr) p₀ = .ok ((), p))
    (run : List ((Int × Word) × Processor)) (hrun : (installSys l).IsRun p run) (v : Byte) :
    ∃ n a, (TSys.final p run).delivered v.toNat = some (n, routineAt a) ∧
      (n = v.toNat ∨ n = 13) ∧
      ((∃ x ∈ run, BitVec.ofInt 8 x.1.1 = BitVec.ofNat 8 n ∧ x.1.2 = a) ∨
        n < 34 ∧ a = isr n ∧
          ∀ errCode, Machine.service (BitVec.ofNat 32 n) errCode ≠ .unknownInterrupt) := by
  obtain ⟨p', hboot', hrouted, _⟩ := boot_routed isr hzero
  rw [hboot] at hboot'
  cases hboot'
  have hdelivered :=
    (run_routed hrouted hrun).delivered (routesAfter_thirteen isr run) v
  change _ = (routesAfter isr run).target v at hdelivered
  -- a routine in the table is an installed one or one of the first
  have hroute : ∀ (w : Byte) (a : Word), routesAfter isr run w = some a →
      (∃ x ∈ run, BitVec.ofInt 8 x.1.1 = BitVec.ofNat 8 w.toNat ∧ x.1.2 = a) ∨
        w.toNat < 34 ∧ a = isr w.toNat ∧ ∀ errCode,
          Machine.service (BitVec.ofNat 32 w.toNat) errCode ≠ .unknownInterrupt := by
    intro w a hw
    rcases CellCall.after_cases (bootRoutes isr)
      (run.map fun x => .set (BitVec.ofInt 8 x.1.1) (some x.1.2)) w with h | ⟨b, hb, h⟩
    · rw [routesAfter, h, bootRoutes] at hw
      split at hw
      · next hlt =>
          exact .inr ⟨hlt, (Option.some.inj hw).symm, service_known hlt⟩
      · cases hw
    · obtain ⟨x, hx, heq⟩ := List.mem_map.mp hb
      obtain ⟨hplace, hvalue⟩ := CellCall.set.inj heq
      rw [routesAfter, h, ← hvalue] at hw
      exact .inl ⟨x, hx, by rw [hplace]; simp, Option.some.inj hw⟩
  rw [Routes.target] at hdelivered
  cases hv : routesAfter isr run v with
  | some a =>
      rw [hv] at hdelivered
      exact ⟨v.toNat, a, hdelivered, .inl rfl, hroute v a hv⟩
  | none =>
      obtain ⟨a, ha⟩ := Option.ne_none_iff_exists'.mp (routesAfter_thirteen isr run)
      rw [hv] at hdelivered
      simp only [ha, Option.map_some] at hdelivered
      exact ⟨13, a, hdelivered, .inr rfl, hroute 13#8 a ha⟩

/-- Vector 48 has no gate. -/
theorem unknown_interrupt_never_ungated : ∃ p n a,
    (do initGdt flatLayout; initIdt flatLayout fun v => BitVec.ofNat 32 (0x100000 + 64 * v))
      bareProcessor = .ok ((), p) ∧ p.delivered 48 = some (n, routineAt a) ∧ (n = 48 ∨ n = 13) := by
  obtain ⟨p, hboot, _⟩ := boot_routed (l := flatLayout) (p := bareProcessor)
    (fun v => BitVec.ofNat 32 (0x100000 + 64 * v)) fun _ _ _ => rfl
  obtain ⟨n, a, hdelivered, hn, _⟩ := unknown_interrupt_never bareProcessor
    (fun _ _ _ => rfl) hboot [] trivial 48#8
  exact ⟨p, n, a, hboot, hdelivered, hn⟩

end MyOs
