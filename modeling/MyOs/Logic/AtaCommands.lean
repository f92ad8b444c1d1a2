import MyOs.Logic.AtaRules

/-!
# The ATA commands sector by sector

What the drive is ready for after the command has been sent, what the sector loop
of a read leaves, and what one sector of a write leaves for the flush that
follows it.
-/

namespace MyOs

open Prog

/-- What a drive announces with `n` sectors of a read to go. -/
def Phase.nextIn (spec : DriveSpec) : Nat → Phase
  | 0 => .idle
  | n + 1 => .dataIn spec.sectorWords n

/-- What a drive announces with `n` sectors of a write to go. -/
def Phase.nextOut (spec : DriveSpec) : Nat → Phase
  | 0 => .idle
  | n + 1 => .dataOut spec.sectorWords n

namespace Drive

variable {spec : DriveSpec} {d : Drive}

/-- The drive has announced `next`, or an error instead. -/
def Announces (next : Phase) (d : Drive) : Prop := d.phase = next ∨ d.phase = .failed

theorem start_phase (next : Phase) : (d.start spec next).Announces next := by
  unfold Announces start
  split
  · exact .inr rfl
  · exact .inl rfl

theorem Announces.of_drq {next : Phase} (h : d.Announces next) (hdrq : d.phase.drq = true) :
    d.phase = next := by
  rcases h with h | h
  · exact h
  · rw [h] at hdrq
    cases hdrq

theorem Announces.no_drq {next : Phase} (h : d.Announces next) (hnext : next.drq = false) :
    d.phase.drq = false := by
  rcases h with h | h
  · rw [h, hnext]
  · rw [h]
    rfl

/-- A word of a sector that has more of them. -/
theorem giveWord_more {words n : Nat} (hbusy : d.busy = 0) (hphase : d.phase = .dataIn words n)
    (hwords : words > 1) : d.giveWord spec = { d with phase := .dataIn (words - 1) n } := by
  simp only [giveWord, hbusy, hphase, if_pos hwords]

/-- The last word of a sector. -/
theorem giveWord_last {words n : Nat} (hbusy : d.busy = 0) (hphase : d.phase = .dataIn words n)
    (hwords : ¬ words > 1) : (d.giveWord spec).Announces (.nextIn spec n) := by
  simp only [giveWord, hbusy, hphase, if_neg hwords]
  cases n with
  | zero => exact .inl rfl
  | succ n => exact start_phase _

theorem takeWord_more {words n : Nat} (hbusy : d.busy = 0) (hphase : d.phase = .dataOut words n)
    (hwords : words > 1) : d.takeWord spec = { d with phase := .dataOut (words - 1) n } := by
  simp only [takeWord, hbusy, hphase, if_pos hwords]

theorem takeWord_last {words n : Nat} (hbusy : d.busy = 0) (hphase : d.phase = .dataOut words n)
    (hwords : ¬ words > 1) : d.takeWord spec = d.start spec (.nextOut spec n) := by
  simp only [takeWord, hbusy, hphase, if_neg hwords]
  cases n <;> rfl

end Drive

namespace Channel

variable {ch : Channel} {reg : Nat} {value : Byte}

@[simp] theorem latch_drives : (ch.latch reg value).drives = ch.drives := by
  unfold latch
  repeat' split
  all_goals rfl

theorem latch_slaveSelected (hreg : reg ≠ ataRegDriveSelect) :
    (ch.latch reg value).slaveSelected = ch.slaveSelected := by
  unfold latch
  rw [if_neg hreg]
  repeat' split
  all_goals rfl

theorem latch_select : (ch.latch ataRegDriveSelect value).slaveSelected = value.getLsbD 4 := rfl

theorem latch_count : (ch.latch ataRegSeccount value).regs.secCount = value := rfl

theorem latch_secCount (hreg : reg ≠ ataRegSeccount) :
    (ch.latch reg value).regs.secCount = ch.regs.secCount := by
  unfold latch
  rw [if_neg hreg]
  repeat' split
  all_goals rfl

theorem Working.latch {slave : Bool} {P O : Drive → Prop} (h : Working slave P O ch)
    (hreg : reg ≠ ataRegDriveSelect) : Working slave P O (ch.latch reg value) := by
  refine ⟨(latch_slaveSelected hreg).trans h.selected, ?_, ?_⟩
  · rw [latch_drives]
    exact h.drive
  · rw [latch_drives]
    exact h.other

end Channel

/-- The select register of a disk selects its drive. -/
theorem driveSelection_slave (disk : IdentifyDeviceData) (lba : Nat) :
    (driveSelection disk ||| getLbaHighest lba).getLsbD 4 = disk.slave := by
  have hmask : (0x0F#8).getLsbD 4 = false := by decide
  rw [BitVec.getLsbD_or, getLbaHighest, BitVec.getLsbD_and, hmask, Bool.and_false, Bool.or_false]
  unfold driveSelection
  cases disk.slave <;> rfl

namespace AtaBus

open Channel

section Send

variable {m : AtaSetup} {disk : AtaDisk} {lba : Nat} {sectorCount cmd : Byte} {periods : Nat}

/-- Both drives are ready; the one the command is for has had `periods` busy
periods. -/
def BothReady (slave : Bool) (periods : Nat) (ch : Channel) : Prop :=
  ∀ b, (ch.drives b).ready = true ∧ (b = slave → (ch.drives b).periods = periods)

/-- The command is written when both drives are ready, and starts the drive it
is for. -/
theorem sendCommand_rule (next : Phase)
    (hcmd : ∀ d : Drive, d.accept (m.spec disk.baseIoPort disk.slave)
      (sectorsOf sectorCount.toNat) cmd = d.start (m.spec disk.baseIoPort disk.slave) next) :
    Triple (On disk.baseIoPort (BothReady disk.slave periods))
      (sendCommand m disk lba sectorCount cmd) fun _ => On disk.baseIoPort
        (Working disk.slave (fun d => d.Announces next ∧ d.periods = periods + 1)
          fun d => d.ready = true) := by
  have hselect : Triple (On disk.baseIoPort (BothReady disk.slave periods))
      (outb m disk.baseIoPort ataRegDriveSelect
        (driveSelection disk.toIdentifyDeviceData ||| getLbaHighest lba)) fun _ =>
      On disk.baseIoPort (Working disk.slave (fun d => d.ready = true ∧ d.periods = periods)
        fun d => d.ready = true) := by
    refine outb_rule (by decide) fun ch hch => ⟨latch_select.trans ?_, ?_, ?_⟩
    · exact driveSelection_slave disk.toIdentifyDeviceData lba
    · rw [latch_drives]
      exact ⟨(hch disk.slave).1, (hch disk.slave).2 rfl⟩
    · rw [latch_drives]
      exact (hch !disk.slave).1
  refine Triple.bind hselect fun _ => ?_
  refine Triple.bind (readAltstatus_rule (fun d hd => ⟨Drive.ready_tick hd.1, hd.2⟩) 14) fun _ => ?_
  refine Triple.bind (outb_rule (Q := fun ch => Working disk.slave
      (fun d => d.ready = true ∧ d.periods = periods) (fun d => d.ready = true) ch ∧
        ch.regs.secCount = sectorCount) (by decide)
    fun ch hch => ⟨hch.latch (by decide), latch_count⟩) fun _ => ?_
  have haddress : ∀ reg value, reg ≠ ataRegCmdStatus → reg ≠ ataRegDriveSelect →
      reg ≠ ataRegSeccount → Triple (On disk.baseIoPort fun ch => Working disk.slave
        (fun d => d.ready = true ∧ d.periods = periods) (fun d => d.ready = true) ch ∧
          ch.regs.secCount = sectorCount) (outb m disk.baseIoPort reg value) fun _ =>
        On disk.baseIoPort fun ch => Working disk.slave
          (fun d => d.ready = true ∧ d.periods = periods) (fun d => d.ready = true) ch ∧
            ch.regs.secCount = sectorCount := fun reg value hne hselect hcount =>
    outb_rule hne fun ch hch => ⟨hch.1.latch hselect, (latch_secCount hcount).trans hch.2⟩
  refine Triple.bind (haddress _ _ (by decide) (by decide) (by decide)) fun _ => ?_
  refine Triple.bind (haddress _ _ (by decide) (by decide) (by decide)) fun _ => ?_
  refine Triple.bind (haddress _ _ (by decide) (by decide) (by decide)) fun _ => ?_
  refine Triple.bind (command_rule (Q := Working disk.slave
      (fun d => d.Announces next ∧ d.periods = periods + 1) fun d => d.ready = true) ?_ ?_)
    fun _ => readAltstatus_rule (fun d hd => hd) 4
  · rintro ch ⟨hch, _⟩
    rw [selected, hch.selected]
    exact hch.drive.1
  · rintro ch ⟨hch, hcount⟩
    have hready : ch.selected.ready = true := by
      rw [selected, hch.selected]
      exact hch.drive.1
    rw [command, if_pos hready, hcount, hch.selected, hcmd]
    exact hch.set (f := fun d => d.start _ next)
      fun d hd => ⟨Drive.start_phase next, congrArg (· + 1) hd.2⟩

end Send

section Sectors

variable {m : AtaSetup} {O : Drive → Prop}

/-- The words of a sector, one access each: `I i` holds before word `i`, and `E`
after the last. -/
theorem words_rule {base : Nat} {slave : Bool} (body : Prog AtaBus Unit) {access : Drive → Drive}
    (rule : ∀ P Q : Drive → Prop, (∀ d, P d → Q (access d)) →
      Triple (On base (Working slave P O)) body fun _ => On base (Working slave Q O))
    {I : Nat → Drive → Prop} {E : Drive → Prop} {words : Nat} (hpos : 0 < words)
    (more : ∀ i d, i + 1 < words → I i d → I (i + 1) (access d))
    (last : ∀ i d, i + 1 = words → I i d → E (access d)) :
    Triple (On base (Working slave (I 0) O)) (Prog.forLoop (fun _ => body) 0 words)
      fun _ => On base (Working slave E O) := by
  have hturn : ∀ i, Triple (On base (Working slave (fun d =>
      (i < words → I i d) ∧ (i = words → E d)) O)) body fun _ => On base (Working slave (fun d =>
        (i + 1 < words → I (i + 1) d) ∧ (i + 1 = words → E d)) O) :=
    fun i => rule _ _ fun d hd =>
      ⟨fun h => more i d h (hd.1 (by omega)), fun h => last i d h (hd.1 (by omega))⟩
  refine (Triple.forLoop hturn words 0).weaken (fun s hs => hs.mono fun ch hch => hch.mono fun d hd => ?_)
    fun _ s hs => hs.mono fun ch hch => hch.mono fun d hd => hd.2 (Nat.zero_add _)
  exact ⟨fun _ => hd, fun h => absurd h.symm (Nat.ne_of_gt hpos)⟩

/-- A read leaves the drive without a request for data. -/
theorem readLoop_rule {disk : AtaDisk}
    (hwords : (m.spec disk.baseIoPort disk.slave).sectorWords = disk.logicalSectorSize / 2)
    (hpos : 0 < disk.logicalSectorSize / 2) (sectors : Nat) :
    Triple (On disk.baseIoPort (Working disk.slave
        (fun d => d.Announces (.nextIn (m.spec disk.baseIoPort disk.slave) sectors)) O))
      (readLoop m disk sectors) fun r s => r = true → On disk.baseIoPort
        (Working disk.slave (fun d => d.phase.drq = false) O) s := by
  induction sectors with
  | zero =>
      refine Triple.pure fun s hs _ => hs.mono fun ch hch => hch.mono fun d hd => ?_
      exact hd.no_drq rfl
  | succ sectors ih =>
      refine Triple.bind (waitForData_rule fun d hd => hd) fun ok => ?_
      cases ok with
      | false => exact Triple.pure fun _ _ h => nomatch h
      | true =>
          have hsector := words_rule (in16 m disk.baseIoPort) (O := O)
            (fun _ _ => in16_rule) hpos
            (I := fun i d => d.busy = 0 ∧
              d.phase = .dataIn (disk.logicalSectorSize / 2 - i) sectors)
            (E := Drive.Announces (.nextIn (m.spec disk.baseIoPort disk.slave) sectors))
            (fun i d hi hd => by
              rw [Drive.giveWord_more hd.1 hd.2 (by omega)]
              exact ⟨hd.1, rfl⟩)
            (fun i d hi hd => Drive.giveWord_last hd.1 hd.2 (by omega))
          refine Triple.bind (hsector.weaken (fun s hs => ?_) fun _ _ h => h) fun _ => ?_
          · refine (hs rfl).mono fun ch hch => hch.mono fun d hd => ⟨hd.2.1, ?_⟩
            exact hwords ▸ hd.1.of_drq hd.2.2
          · exact Triple.bind (readAltstatus_rule (fun d hd => hd) 14) fun _ => ih

/-- What a drive is after the last word of a sector of a write. -/
def Written (spec : DriveSpec) (periods : Nat) (sectors : Nat) (d : Drive) : Prop :=
  d.busy = spec.delay periods ∧ d.Announces (.nextOut spec sectors)

/-- One sector of a write, up to the flush. -/
theorem writeSector_rule {disk : AtaDisk} {periods sectors : Nat}
    (hwords : (m.spec disk.baseIoPort disk.slave).sectorWords = disk.logicalSectorSize / 2)
    (hpos : 0 < disk.logicalSectorSize / 2) :
    Triple (fun s => On disk.baseIoPort (Working disk.slave (fun d =>
        (d.Announces (.nextOut (m.spec disk.baseIoPort disk.slave) (sectors + 1)) ∧
          d.periods = periods) ∧ d.busy = 0 ∧ d.phase.drq = true) O) s)
      (Prog.forLoop (fun _ => out16 m disk.baseIoPort) 0 (disk.logicalSectorSize / 2)) fun _ =>
      On disk.baseIoPort (Working disk.slave
        (Written (m.spec disk.baseIoPort disk.slave) periods sectors) O) := by
  have hsector := words_rule (out16 m disk.baseIoPort) (O := O)
    (fun _ _ => out16_rule) hpos
    (I := fun i d => d.busy = 0 ∧ d.periods = periods ∧
      d.phase = .dataOut (disk.logicalSectorSize / 2 - i) sectors)
    (E := Written (m.spec disk.baseIoPort disk.slave) periods sectors)
    (fun i d hi hd => by
      rw [Drive.takeWord_more hd.1 hd.2.2 (by omega)]
      exact ⟨hd.1, hd.2.1, rfl⟩)
    (fun i d hi hd => by
      rw [Drive.takeWord_last hd.1 hd.2.2 (by omega)]
      exact ⟨congrArg _ hd.2.1, Drive.start_phase _⟩)
  refine hsector.weaken (fun s hs => hs.mono fun ch hch => hch.mono fun d hd => ?_) fun _ _ h => h
  exact ⟨hd.2.1, hd.1.2, hwords ▸ hd.1.1.of_drq hd.2.2⟩

end Sectors

/-! ## Commands that come too early -/

section Violations

variable {m : AtaSetup}

/-- A command that came too early stays on record. -/
def Violated (s : AtaBus) : Prop := s.violated = true

theorem inb_violated (base reg : Nat) : Triple Violated (inb base reg) fun _ => Violated := by
  refine Triple.read fun s _ => Triple.ite (fun _ => ?_) fun _ => Triple.pure fun _ hs => hs
  exact Triple.bind (Triple.modify (Q := fun _ => Violated) fun _ hs => hs)
    fun _ => Triple.pure fun _ hs => hs

theorem outb_violated (base reg : Nat) (value : Byte) :
    Triple Violated (outb m base reg value) fun _ => Violated := by
  refine Triple.modify fun s hs => ?_
  unfold Violated at hs ⊢
  split
  · simp [hs]
  · exact hs

theorem ataWaitForBsy_violated (base timeout : Nat) :
    Triple Violated (ataWaitForBsy base timeout) fun _ => Violated := by
  induction timeout with
  | zero => exact Triple.pure fun _ hs => hs
  | succ timeout ih =>
      exact Triple.bind (inb_violated base _) fun _ =>
        Triple.ite (fun _ => Triple.pure fun _ hs => hs) fun _ => ih

theorem ataWaitForDrq_violated (base timeout : Nat) :
    Triple Violated (ataWaitForDrq base timeout) fun _ => Violated := by
  induction timeout with
  | zero => exact Triple.pure fun _ hs => hs
  | succ timeout ih =>
      exact Triple.bind (inb_violated base _) fun _ =>
        Triple.ite (fun _ => Triple.pure fun _ hs => hs) fun _ =>
          Triple.ite (fun _ => Triple.pure fun _ hs => hs) fun _ => ih

theorem waitForData_violated (base : Nat) :
    Triple Violated (waitForData base) fun _ => Violated :=
  Triple.bind (ataWaitForBsy_violated base _) fun _ =>
    Triple.ite (fun _ => ataWaitForDrq_violated base _) fun _ => Triple.pure fun _ hs => hs

theorem readAltstatus_violated (base n : Nat) :
    Triple Violated (readAltstatus base n) fun _ => Violated :=
  Triple.forLoop (I := fun _ => Violated) (fun _ =>
    Triple.bind (inb_violated base _) fun _ => Triple.pure fun _ hs => hs) n 0

theorem flushCache_violated (diskNum : Nat) :
    Triple Violated (flushCache m diskNum) fun _ => Violated :=
  Triple.ite (fun _ => Triple.pure fun _ hs => hs) fun _ =>
    Triple.bind (outb_violated _ _ _) fun _ => readAltstatus_violated _ 4

theorem out16_violated (base : Nat) : Triple Violated (out16 m base) fun _ => Violated :=
  Triple.modify fun _ hs => hs

theorem writeLoop_violated (diskNum sectors : Nat) :
    Triple Violated (writeLoop m diskNum sectors) fun _ => Violated := by
  induction sectors with
  | zero => exact Triple.pure fun _ hs => hs
  | succ sectors ih =>
      refine Triple.bind (waitForData_violated _) fun _ => ?_
      refine Triple.ite (fun _ => ?_) fun _ => Triple.pure fun _ hs => hs
      refine Triple.bind (Triple.forLoop (I := fun _ => Violated)
        (fun _ => out16_violated _) _ 0) fun _ => ?_
      exact Triple.bind (flushCache_violated diskNum) fun _ => ih

end Violations
end AtaBus
end MyOs
