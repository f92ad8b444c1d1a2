import MyOs.Drivers.Pit
import MyOs.Theorems.Descriptors
import MyOs.Theorems.InterruptLines

/-!
# Interrupts of the devices

The timer is programmed for its rate; the controllers pass on the lines that have
been unmasked; the tables lead from the vector to the routine, and the routine to
the service.
-/

namespace MyOs

open Bitmap (bitMask)

namespace Timer

theorem clampFrequency_eq (frequency : Nat) :
    clampFrequency frequency = min (max frequency 20) pitClockFrequency := by
  have hclock : pitClockFrequency = 1193182 := rfl
  rw [clampFrequency]
  split <;> split <;> omega

/-- The count fits the counter. -/
theorem divisor_lt (frequency : Nat) :
    0 < clampFrequency frequency ∧ 0 < pitClockFrequency / clampFrequency frequency ∧
      pitClockFrequency / clampFrequency frequency < 2 ^ 16 := by
  have hclock : pitClockFrequency = 1193182 := rfl
  have hlow : 20 ≤ clampFrequency frequency := by
    rw [clampFrequency_eq, hclock]
    omega
  have hhigh : clampFrequency frequency ≤ pitClockFrequency := by
    rw [clampFrequency_eq]
    omega
  refine ⟨by omega, Nat.div_pos hhigh (by omega), ?_⟩
  rw [Nat.div_lt_iff_lt_mul (by omega), hclock]
  omega

/-- The two bytes of the divisor. -/
theorem divisor_bytes (d : BitVec 16) :
    ((d >>> 8) &&& 0xFF#16).setWidth 8 ++ (d &&& 0xFF#16).setWidth 8 = d := by
  apply BitVec.eq_of_getLsbD_eq
  intro i hi
  have hmask : ∀ j, j < 8 → (0xFF#16).getLsbD j = true := by decide
  simp only [BitVec.getLsbD_append, BitVec.getLsbD_setWidth, BitVec.getLsbD_and,
    BitVec.getLsbD_ushiftRight]
  by_cases hlow : i < 8
  · simp [hlow, hmask i hlow]
  · have hhigh : i - 8 < 8 := by omega
    simp [hlow, hhigh, hmask (i - 8) hhigh, show 8 + (i - 8) = i by omega]

/-- `t` with other counters. -/
def withChannels (t : Timer) (f : BitVec 2 → PitChannel) : Timer := { t with channels := f }

/-- The control word `pit_init` writes. -/
theorem outb_control (t : Timer) :
    outb pitCommand (pitCommandChannel0 ||| pitAccessMode16Bit ||| pitClockMode ||| pitBinaryMode)
      t = .ok ((), t.withChannels
        (Function.update t.channels 0#2 ⟨3#3, false, 3#2, none, none⟩)) := rfl

/-- A byte for channel 0. -/
theorem outb_channel0 (t : Timer) (c : PitChannel) (f : BitVec 2 → PitChannel) (value : Byte) :
    outb pitChannel0 value (t.withChannels (Function.update f 0#2 c)) =
      .ok ((), t.withChannels (Function.update f 0#2 (c.write value))) := by
  have hwrite : outb pitChannel0 value (t.withChannels (Function.update f 0#2 c)) =
      .ok ((), t.withChannels (Function.update (Function.update f 0#2 c) 0#2
        ((Function.update f 0#2 c 0#2).write value))) := rfl
  rw [hwrite, Function.update_self, Function.update_idem]

/-- **The timer's rate.** For every `frequency` and whatever the counters were doing,
`pit_init` makes channel 0 a binary square-wave counter that starts over from
`PIT_CLOCK_FREQUENCY / f`, where `f` is the frequency brought into the range from 20 Hz
to `PIT_CLOCK_FREQUENCY`: a count between 1 and 65535, and the largest with which the
timer ticks at least `f` times a second. The other counters keep their settings, and of
the interrupt masks it clears line 0 only. -/
theorem pit_init_rate (t : Timer) (hready : t.pics.master.phase = .ready) :
    ∃ t' count, pitInit t = .ok ((), t') ∧
      t'.frequency = min (max t.frequency 20) pitClockFrequency ∧
      t'.channels = Function.update t.channels 0#2 ⟨3#3, false, 3#2, none, some count⟩ ∧
      0 < count.toNat ∧ (∀ n, n * t'.frequency ≤ pitClockFrequency ↔ n ≤ count.toNat) ∧
      t'.pics = { t.pics with
        master := { t.pics.master with imr := t.pics.master.imr &&& ~~~bitMask 0 } } := by
  obtain ⟨hclamped, hpos, hlt⟩ := divisor_lt t.frequency
  obtain ⟨d, hd⟩ : ∃ d, d = BitVec.ofNat 16 (pitClockFrequency / clampFrequency t.frequency) :=
    ⟨_, rfl⟩
  have hdivisor : d.toNat = pitClockFrequency / clampFrequency t.frequency := by
    rw [hd, BitVec.toNat_ofNat, Nat.mod_eq_of_lt hlt]
  have hunmask : Pics.unmaskIrq pitIrq t.pics = .ok ((), { t.pics with
      master := { t.pics.master with imr := t.pics.master.imr &&& ~~~bitMask 0 } }) := by
    change Except.ok ((), Pics.mk (t.pics.master.data (t.pics.master.imr &&& ~~~bitMask 0))
      t.pics.slave) = _
    rw [data_ready hready]
  refine ⟨⟨Function.update t.channels 0#2 ⟨3#3, false, 3#2, none, some d⟩, { t.pics with
    master := { t.pics.master with imr := t.pics.master.imr &&& ~~~bitMask 0 } },
    clampFrequency t.frequency⟩, d, ?_, clampFrequency_eq _, rfl, by rw [hdivisor]; exact hpos,
    fun n => ?_, rfl⟩
  · rw [pitInit, Prog.modify_bind_apply, Prog.get_bind_apply]
    simp only [← hd]
    have hbytes : (PitChannel.write (PitChannel.write ⟨3#3, false, 3#2, none, none⟩
        ((d &&& 0xFF#16).setWidth 8)) (((d >>> 8) &&& 0xFF#16).setWidth 8)) =
          ⟨3#3, false, 3#2, none, some d⟩ := by
      change PitChannel.mk 3#3 false 3#2 none (some (_ ++ _)) = _
      rw [divisor_bytes]
    rw [Prog.bind_of_ok (outb_control _), Prog.bind_of_ok (outb_channel0 _ _ _ _),
      Prog.bind_of_ok (outb_channel0 _ _ _ _), hbytes]
    exact Prog.zoom_eq_ok.mpr ⟨_, hunmask, rfl⟩
  · rw [hdivisor, Nat.le_div_iff_mul_le hclamped]

/-- The timer at 100 Hz. -/
theorem pit_init_rate_hundred : ∃ t' count,
    pitInit ⟨fun _ => .control 0#8, Pics.remapped, 100⟩ = .ok ((), t') ∧ t'.frequency = 100 ∧
      count = 11931#16 ∧ t'.channels 0#2 = ⟨3#3, false, 3#2, none, some count⟩ := by
  obtain ⟨t', count, hrun, hfrequency, hchannels, _, hrate, _⟩ :=
    pit_init_rate ⟨fun _ => .control 0#8, Pics.remapped, 100⟩ rfl
  have hhundred : t'.frequency = 100 := hfrequency
  have hclock : pitClockFrequency = 1193182 := rfl
  rw [hhundred, hclock] at hrate
  -- 11931 ticks fit, 11932 do not
  have hcount : count.toNat = 11931 := by
    have hfits := (hrate 11931).mp (by decide)
    have hmore := mt (hrate 11932).mpr (by decide)
    omega
  refine ⟨t', count, hrun, hhundred, BitVec.eq_of_toNat_eq hcount, ?_⟩
  rw [hchannels, Function.update_self]

end Timer

/-! ## From the line to the handler -/

/-- The routine a line's interrupt enters: only lines 0 and 1 have one of their own. -/
def lineEntry (isr : Nat → Word) (irq : Nat) : Nat × Entry :=
  if irq < 2 then (32 + irq, routineAt (isr (32 + irq))) else (13, routineAt (isr 13))

/-- What `isr_handler` does for a line. -/
def lineService (irq : Nat) : Service :=
  if irq = 0 then .pitHandler else if irq = 1 then .keyboardHandler else .cpuHandler 13#32

theorem service_line (irq : Nat) (isr : Nat → Word) (errCode : Word) :
    Machine.service (BitVec.ofNat 32 (lineEntry isr irq).1) errCode = lineService irq := by
  rw [lineEntry]
  split
  · next hlt =>
      obtain rfl | rfl : irq = 0 ∨ irq = 1 := by omega
      · rfl
      · rfl
  · next hge =>
      rw [lineService, if_neg (by omega), if_neg (by omega)]
      rfl

/-- **Devices reach their handlers.** After the boot, in every run of requests, interrupts,
acknowledgements and `unmask_irq`, each interrupt is that of a line that was requested at
least as often, and that is the keyboard's or was unmasked. The keyboard's interrupts
enter `isr33` and its handler, the timer's `isr32` and its own; any other line's are
taken for a general protection exception. -/
theorem device_interrupts_served {l : DescriptorLayout} {isr : Nat → Word} (p₀ : Processor)
    {p : Processor} (hzero : ∀ a, l.idt ≤ a → a < l.idt + 2048 → p₀.mem a = 0#8)
    (hboot : (do initGdt l; initIdt l isr) p₀ = .ok ((), p)) {σ : Pics.Served}
    (hpics : Pics.sys.init σ) (run : List (Pics.LineCall × Pics.Served))
    (hrun : Pics.sys.IsRun σ run) (v : Nat) (hv : v ∈ Pics.vectors run) :
    ∃ irq, v = 32 + irq ∧ irq < 16 ∧
      (Pics.vectors run).count v ≤ (Pics.requests run).count irq ∧
      (irq = 1 ∨ .unmask irq ∈ run.map Prod.fst) ∧
      p.delivered v = some (lineEntry isr irq) ∧
      ∀ errCode, Machine.service (BitVec.ofNat 32 (lineEntry isr irq).1) errCode =
        lineService irq := by
  obtain ⟨p', hboot', hrouted, _⟩ := boot_routed isr hzero
  rw [hboot] at hboot'
  cases hboot'
  have hholds := Pics.holdsLines_init hpics
  obtain ⟨irq, hlt, rfl⟩ := hholds.vector_lines hrun v hv
  obtain ⟨hcount, hmasked⟩ := hholds.count_vectors hrun irq
  refine ⟨irq, rfl, hlt, hcount, (hmasked hv).imp_left of_decide_eq_true, ?_,
    service_line irq isr⟩
  have hbyte : (BitVec.ofNat 8 (32 + irq)).toNat = 32 + irq := by
    rw [BitVec.toNat_ofNat, Nat.mod_eq_of_lt (by omega)]
  have hdelivered := hrouted.delivered (by simp [bootRoutes]) (BitVec.ofNat 8 (32 + irq))
  rw [hbyte] at hdelivered
  rw [hdelivered, Routes.target, bootRoutes, hbyte, lineEntry]
  by_cases htwo : irq < 2
  · rw [if_pos (by omega), if_pos htwo]
  · rw [if_neg (by omega), if_neg htwo]
    rfl

/-- A key is pressed. -/
theorem device_interrupts_served_key : ∃ p, ∃ run : List (Pics.LineCall × Pics.Served),
    (do initGdt flatLayout; initIdt flatLayout fun v => BitVec.ofNat 32 (0x100000 + 64 * v))
      bareProcessor = .ok ((), p) ∧ Pics.sys.IsRun ⟨Pics.remapped, false⟩ run ∧
      Pics.vectors run = [33] ∧ ∃ irq, 33 = 32 + irq ∧
        p.delivered 33 = some (lineEntry (fun v => BitVec.ofNat 32 (0x100000 + 64 * v)) irq) := by
  obtain ⟨p, hboot, _⟩ := boot_routed (l := flatLayout) (p := bareProcessor)
    (fun v => BitVec.ofNat 32 (0x100000 + 64 * v)) fun _ _ _ => rfl
  have hrun : Pics.sys.IsRun ⟨Pics.remapped, false⟩ [(.raise 1, _), (.take 33, _), (.ack, _)] :=
    ⟨⟨by decide, by decide, rfl⟩, ⟨rfl, _, rfl, rfl⟩, ⟨rfl, _, rfl, rfl⟩, trivial⟩
  obtain ⟨irq, hirq, _, _, _, hdelivered, _⟩ := device_interrupts_served bareProcessor
    (fun _ _ _ => rfl) hboot ⟨⟨Pics.remapped, rfl⟩, rfl⟩ _ hrun 33 List.mem_cons_self
  exact ⟨p, _, hboot, hrun, rfl, irq, hirq, hdelivered⟩

end MyOs
