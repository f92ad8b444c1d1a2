import MyOs.Base.System
import MyOs.Logic.AtaCommands

/-!
# When the ATA driver keeps to the protocol

Every call first waits until the selected drive is not busy, and a drive that
has finished its command requests no data, so the read and write commands come
in time. The flush after each sector of a write does not wait: it comes in time
only when it is the last sector and the drive is not busy with it.
-/

namespace MyOs

open Prog

/-- The driver's table has the drives' own sector sizes. -/
def AtaSetup.Identified (m : AtaSetup) : Prop :=
  ∀ diskNum, diskNum < 4 → (m.disks diskNum).valid = true →
    (m.spec (m.disks diskNum).baseIoPort (m.disks diskNum).slave).sectorWords =
      (m.disks diskNum).logicalSectorSize / 2 ∧
    0 < (m.disks diskNum).logicalSectorSize / 2

namespace AtaBus

open Channel

/-- Between calls: no command came too early, and every channel is settled. -/
structure Quiet (s : AtaBus) : Prop where
  clean : s.violated = false
  settled : ∀ base, (s.channels base).Settled

/-- Successful calls, from a bus that is quiet. -/
def sys (m : AtaSetup) : TSys AtaBus Call where
  init := Quiet
  step s call s' := exec m call s = .ok (true, s')

/-- The drive of a disk. -/
def driveOf (m : AtaSetup) (s : AtaBus) (diskNum : Nat) : Drive :=
  (s.channels (m.disks diskNum).baseIoPort).drives (m.disks diskNum).slave

/-- The flush of a write comes in time: the call writes one sector, and the
drive is not busy after it. -/
def FlushInTime (m : AtaSetup) (s : AtaBus) : Call → Prop
  | .read _ _ _ => True
  | .write diskNum _ sectorCount _ =>
      sectorsOf sectorCount.toNat = 1 ∧
      (m.spec (m.disks diskNum).baseIoPort (m.disks diskNum).slave).delay
        ((s.driveOf m diskNum).periods + 1) = 0

section Calls

variable {m : AtaSetup} {base periods : Nat} {slave : Bool}

/-- A quiet bus when the driver turns to one of its drives. -/
def Turned (base : Nat) (slave : Bool) (periods : Nat) (s : AtaBus) : Prop :=
  ∃ sel, On base (Working sel
    (fun d => d.phase.drq = false ∧ (sel = slave → d.periods = periods))
    (fun d => d.ready = true ∧ ((!sel) = slave → d.periods = periods))) s

theorem Quiet.turned {s : AtaBus} (h : Quiet s) (base : Nat) (slave : Bool) :
    Turned base slave ((s.channels base).drives slave).periods s := by
  refine ⟨(s.channels base).slaveSelected, h.clean, fun c _ => h.settled c, rfl, ?_, ?_⟩
  · refine ⟨(h.settled base).drq _, fun hsel => by rw [hsel]⟩
  · refine ⟨Drive.ready_iff.mpr ⟨(h.settled base).other, (h.settled base).drq _⟩, fun hsel => ?_⟩
    rw [hsel]

/-- When no drive is busy both are ready. -/
theorem Turned.wait {sel : Bool} {s : AtaBus} (h : On base (Working sel
    (fun d => (d.phase.drq = false ∧ (sel = slave → d.periods = periods)) ∧ d.busy = 0)
    (fun d => d.ready = true ∧ ((!sel) = slave → d.periods = periods))) s) :
    On base (BothReady slave periods) s := by
  refine h.mono fun ch hch b => ?_
  by_cases hb : b = sel
  · subst hb
    exact ⟨Drive.ready_iff.mpr ⟨hch.drive.2, hch.drive.1.1⟩, hch.drive.1.2⟩
  · obtain rfl : b = !sel := by
      cases b <;> cases sel <;> simp_all
    exact hch.other

theorem ataWaitForBsy_turned (timeout : Nat) :
    Triple (Turned base slave periods) (ataWaitForBsy base timeout) fun r s =>
      if r then On base (BothReady slave periods) s else Turned base slave periods s := by
  rintro s ⟨sel, hs⟩ r t hrun
  have h := ataWaitForBsy_rule (fun d hd => hd) timeout s hs r t hrun
  cases r with
  | false =>
      rw [if_neg (by decide)]
      exact ⟨sel, h.mono fun ch hch => hch.mono fun d hd => hd.1⟩
  | true =>
      rw [if_pos rfl]
      exact Turned.wait (h.mono fun ch hch => hch.mono fun d hd => ⟨hd.1, hd.2 rfl⟩)

theorem waitUntilFree_turned (fuel : Nat) :
    Triple (Turned base slave periods) (waitUntilFree base fuel)
      fun _ => On base (BothReady slave periods) := by
  induction fuel with
  | zero => exact Triple.stop
  | succ fuel ih =>
      refine Triple.bind (ataWaitForBsy_turned _) fun r => ?_
      cases r with
      | true => exact Triple.pure fun _ h => h
      | false => exact ih

/-- A channel whose drives are done, with the others settled. -/
theorem On.quiet {s : AtaBus} (h : On base (Working slave (fun d => d.phase.drq = false)
    fun d => d.ready = true) s) : Quiet s := by
  refine ⟨h.clean, fun c => ?_⟩
  by_cases hc : c = base
  · subst hc
    obtain ⟨hselected, hdrive, hother⟩ := h.here
    obtain ⟨hbusy, hdrq⟩ := Drive.ready_iff.mp hother
    refine ⟨fun b => ?_, hselected ▸ hbusy⟩
    by_cases hb : b = slave
    · exact hb ▸ hdrive
    · obtain rfl : b = !slave := by
        cases b <;> cases slave <;> simp_all
      exact hdrq
  · exact h.others c hc

theorem accepts_valid {diskNum lba : Nat} {sectorCount : Byte}
    (h : accepts m diskNum lba sectorCount = true) :
    diskNum < 4 ∧ (m.disks diskNum).valid = true := by
  simp only [accepts, Bool.and_eq_true, decide_eq_true_eq] at h
  exact ⟨h.1.1.1, h.1.1.2⟩

/-- A successful write has passed the checks. -/
theorem accepts_of_write {s s' : AtaBus} {diskNum lba fuel : Nat} {sectorCount : Byte}
    (h : ataWriteSectors m diskNum lba sectorCount fuel s = .ok (true, s')) :
    accepts m diskNum lba sectorCount = true := by
  refine Classical.byContradiction fun hnot => ?_
  rw [ataWriteSectors, if_neg hnot] at h
  cases h

theorem sectorsOf_succ (sectorCount : Nat) : ∃ n, sectorsOf sectorCount = n + 1 := by
  unfold sectorsOf
  split
  · exact ⟨255, rfl⟩
  · exact Nat.exists_eq_succ_of_ne_zero ‹_›

/-- A successful read keeps the bus quiet. -/
theorem read_rule (hm : m.Identified) (diskNum lba : Nat) (sectorCount : Byte) :
    Triple (Turned (m.disks diskNum).baseIoPort (m.disks diskNum).slave periods)
      (ataReadSectors m diskNum lba sectorCount) fun r s => r = true → Quiet s := by
  refine Triple.ite (fun haccept => ?_) fun _ => Triple.pure fun _ _ h => nomatch h
  obtain ⟨hnum, hvalid⟩ := accepts_valid haccept
  obtain ⟨hwords, hpos⟩ := hm diskNum hnum hvalid
  obtain ⟨n, hn⟩ := sectorsOf_succ sectorCount.toNat
  refine Triple.bind (ataWaitForBsy_turned _) fun free => ?_
  cases free with
  | false => exact Triple.pure fun _ _ h => nomatch h
  | true =>
      refine Triple.bind (sendCommand_rule (.nextIn (m.spec (m.disks diskNum).baseIoPort
          (m.disks diskNum).slave) (n + 1)) fun d => ?_) fun _ => ?_
      · rw [hn]
        rfl
      · refine (readLoop_rule hwords hpos _).weaken (fun s hs => ?_) fun r s hs hr => (hs hr).quiet
        rw [hn]
        exact hs.mono fun ch hch => hch.mono fun d hd => hd.1

/-- The start of a write, up to its first sector. -/
theorem writeStart_rule (diskNum lba : Nat) {sectorCount : Byte} {fuel n : Nat}
    (hn : sectorsOf sectorCount.toNat = n + 1) {Q : Bool → AtaBus → Prop}
    (hrest : Triple (On (m.disks diskNum).baseIoPort (Working (m.disks diskNum).slave
        (fun d => d.Announces (.nextOut (m.spec (m.disks diskNum).baseIoPort
          (m.disks diskNum).slave) (n + 1)) ∧ d.periods = periods + 1)
        fun d => d.ready = true)) (writeLoop m diskNum (n + 1)) fun r s => r = true → Q r s) :
    Triple (Turned (m.disks diskNum).baseIoPort (m.disks diskNum).slave periods)
      (ataWriteSectors m diskNum lba sectorCount fuel) fun r s => r = true → Q r s := by
  refine Triple.ite (fun _ => ?_) fun _ => Triple.pure fun _ _ h => nomatch h
  refine Triple.bind (waitUntilFree_turned fuel) fun _ => ?_
  refine Triple.bind (sendCommand_rule (.nextOut (m.spec (m.disks diskNum).baseIoPort
      (m.disks diskNum).slave) (n + 1)) fun d => ?_) fun _ => ?_
  · rw [hn]
    rfl
  · rw [hn]
    exact hrest

/-- A flush that comes in time. -/
theorem flush_rule {P O : Drive → Prop} (diskNum : Nat)
    (hready : ∀ d, P d → d.ready = true) (hnum : diskNum < 4)
    (hvalid : (m.disks diskNum).valid = true) :
    Triple (On (m.disks diskNum).baseIoPort (Working slave P O)) (flushCache m diskNum)
      fun _ => On (m.disks diskNum).baseIoPort
        (Working slave (fun d => d.phase.drq = false) O) := by
  refine Triple.ite (fun h => absurd h (by simp [hnum, hvalid])) fun _ => ?_
  refine Triple.bind (command_rule ?_ ?_) fun _ => readAltstatus_rule (fun d hd => hd) 4
  · intro ch hch
    rw [selected, hch.selected]
    exact hready _ hch.drive
  · intro ch hch
    have hselected : ch.selected.ready = true := hready _ (by
      rw [selected, hch.selected]
      exact hch.drive)
    rw [command, if_pos hselected]
    exact hch.set (f := fun d => d.start _ .idle) fun d _ => (Drive.start_phase .idle).no_drq rfl

/-- A write of one sector to a drive that is not busy after it. -/
theorem write_in_time (hm : m.Identified) {diskNum : Nat} (hnum : diskNum < 4)
    (hvalid : (m.disks diskNum).valid = true)
    (hdelay : (m.spec (m.disks diskNum).baseIoPort (m.disks diskNum).slave).delay
      (periods + 1) = 0) :
    Triple (On (m.disks diskNum).baseIoPort (Working (m.disks diskNum).slave
        (fun d => d.Announces (.nextOut (m.spec (m.disks diskNum).baseIoPort
          (m.disks diskNum).slave) (0 + 1)) ∧ d.periods = periods + 1)
        fun d => d.ready = true)) (writeLoop m diskNum (0 + 1)) fun r s => r = true → Quiet s := by
  obtain ⟨hwords, hpos⟩ := hm diskNum hnum hvalid
  refine Triple.bind (waitForData_rule fun d hd => hd) fun ok => ?_
  cases ok with
  | false => exact Triple.pure fun _ _ h => nomatch h
  | true =>
      refine Triple.bind ((writeSector_rule hwords hpos).weaken (fun s hs => hs rfl)
        fun _ _ h => h) fun _ => ?_
      refine Triple.bind (flush_rule diskNum (fun d hd => ?_) hnum hvalid) fun _ =>
        Triple.pure fun s hs _ => hs.quiet
      exact Drive.ready_iff.mpr ⟨hd.1.trans hdelay, hd.2.no_drq rfl⟩

/-- The flush after a sector with another one to come, or while the drive is
busy: it comes too early, unless the drive has failed and asks for nothing. -/
theorem flush_early {n : Nat} {O : Drive → Prop} {diskNum : Nat} (hnum : diskNum < 4)
    (hvalid : (m.disks diskNum).valid = true)
    (hnot : n = 0 → (m.spec base slave).delay periods ≠ 0)
    (hbase : (m.disks diskNum).baseIoPort = base) :
    Triple (On base (Working slave (Written (m.spec base slave) periods n) O))
      (flushCache m diskNum) fun _ s => Violated s ∨
        (1 ≤ n ∧ On base (Working slave (fun d => d.phase.drq = false) O) s) := by
  subst hbase
  intro s hs
  by_cases hready : (s.channels (m.disks diskNum).baseIoPort).selected.ready = true
  · -- the drive is not busy, so another sector was to come, and it has failed
    have hin : On (m.disks diskNum).baseIoPort (Working slave (fun d => d.ready = true) O) s := by
      refine ⟨hs.clean, hs.others, hs.here.selected, ?_, hs.here.other⟩
      rw [selected, hs.here.selected] at hready
      exact hready
    have hpos : 1 ≤ n := by
      refine Nat.one_le_iff_ne_zero.mpr fun hzero => hnot hzero ?_
      exact hs.here.drive.1.symm.trans (Drive.ready_iff.mp hin.here.drive).1
    exact (flush_rule diskNum (fun d hd => hd) hnum hvalid).weaken (fun s hs => hs)
      (fun _ t ht => .inr ⟨hpos, ht⟩) s hin
  · intro r t hrun
    have hflush : Triple (fun s => (s.channels (m.disks diskNum).baseIoPort).selected.ready = false)
        (flushCache m diskNum) fun _ => Violated := by
      refine Triple.ite (fun h => absurd h (by simp [hnum, hvalid])) fun _ => ?_
      refine Triple.bind (Q := fun _ => Violated) (Triple.modify fun s hs => ?_)
        fun _ => readAltstatus_violated _ 4
      simp [Violated, hs]
    exact .inl (hflush s (by simpa using hready) r t hrun)

/-- A drive that asks for nothing fails the call. -/
theorem writeLoop_refused {O : Drive → Prop} {n : Nat} {diskNum : Nat} (hpos : 1 ≤ n) :
    Triple (On (m.disks diskNum).baseIoPort (Working slave (fun d => d.phase.drq = false) O))
      (writeLoop m diskNum n) fun r _ => r = true → False := by
  obtain ⟨n, rfl⟩ := Nat.exists_eq_succ_of_ne_zero (Nat.one_le_iff_ne_zero.mp hpos)
  refine Triple.bind (waitForData_rule fun d hd => hd) fun ok => ?_
  cases ok with
  | false => exact Triple.pure fun _ _ h => nomatch h
  | true =>
      intro s hs
      obtain ⟨hdrq, _, hdrq'⟩ := (hs rfl).here.drive
      rw [hdrq] at hdrq'
      cases hdrq'

/-- A successful write of several sectors, or to a drive that is busy after the
first, has flushed too early. -/
theorem write_early (hm : m.Identified) {diskNum n : Nat} (hnum : diskNum < 4)
    (hvalid : (m.disks diskNum).valid = true)
    (hnot : n = 0 → (m.spec (m.disks diskNum).baseIoPort (m.disks diskNum).slave).delay
      (periods + 1) ≠ 0) :
    Triple (On (m.disks diskNum).baseIoPort (Working (m.disks diskNum).slave
        (fun d => d.Announces (.nextOut (m.spec (m.disks diskNum).baseIoPort
          (m.disks diskNum).slave) (n + 1)) ∧ d.periods = periods + 1)
        fun d => d.ready = true)) (writeLoop m diskNum (n + 1)) fun r s =>
      r = true → Violated s := by
  obtain ⟨hwords, hpos⟩ := hm diskNum hnum hvalid
  refine Triple.bind (waitForData_rule fun d hd => hd) fun ok => ?_
  cases ok with
  | false => exact Triple.pure fun _ _ h => nomatch h
  | true =>
      refine Triple.bind ((writeSector_rule hwords hpos).weaken (fun s hs => hs rfl)
        fun _ _ h => h) fun _ => ?_
      refine Triple.bind (flush_early hnum hvalid hnot rfl) fun _ => ?_
      intro s hs r t hrun
      rcases hs with hs | ⟨hn, hs⟩
      · exact fun _ => writeLoop_violated diskNum n s hs r t hrun
      · exact fun hr => (writeLoop_refused hn s hs r t hrun hr).elim

/-- A successful call whose flush comes in time keeps the bus quiet. -/
theorem step_quiet (hm : m.Identified) (s : AtaBus) (call : Call) (s' : AtaBus) (hs : Quiet s)
    (hcall : FlushInTime m s call) (hstep : (sys m).step s call s') : Quiet s' := by
  cases call with
  | read diskNum lba sectorCount =>
      exact read_rule hm diskNum lba sectorCount s (hs.turned _ _) true s' hstep rfl
  | write diskNum lba sectorCount fuel =>
      obtain ⟨hone, hdelay⟩ := hcall
      have haccept : accepts m diskNum lba sectorCount = true := accepts_of_write hstep
      obtain ⟨hnum, hvalid⟩ := accepts_valid haccept
      exact writeStart_rule diskNum lba hone (write_in_time hm hnum hvalid hdelay) s
        (hs.turned _ _) true s' hstep rfl

/-- A successful write whose flush comes too early is on record. -/
theorem step_violated (hm : m.Identified) (s : AtaBus) (call : Call) (s' : AtaBus) (hs : Quiet s)
    (hcall : ¬ FlushInTime m s call) (hstep : (sys m).step s call s') :
    ¬ s'.violated = false := by
  cases call with
  | read diskNum lba sectorCount => exact absurd trivial hcall
  | write diskNum lba sectorCount fuel =>
      obtain ⟨hnum, hvalid⟩ := accepts_valid (accepts_of_write hstep)
      obtain ⟨n, hn⟩ := sectorsOf_succ sectorCount.toNat
      have hnot : n = 0 → (m.spec (m.disks diskNum).baseIoPort (m.disks diskNum).slave).delay
          ((s.driveOf m diskNum).periods + 1) ≠ 0 :=
        fun hzero hdelay => hcall ⟨by rw [hn, hzero], hdelay⟩
      have hviolated : Violated s' := writeStart_rule diskNum lba hn
        (write_early hm hnum hvalid hnot) s (hs.turned _ _) true s' hstep rfl
      rw [hviolated]
      decide

end Calls

/-- **ATA command discipline.** Along any sequence of successful calls no
command is written while the selected drive is busy or requests data, exactly
when every write is of one sector and its drive is not busy after that sector. -/
theorem ata_discipline_iff {m : AtaSetup} (hm : m.Identified) {s : AtaBus} (hinit : (sys m).init s)
    {run : List (Call × AtaBus)} (hrun : (sys m).IsRun s run) :
    TSys.AllStates (fun s => s.violated = false) s run ↔ TSys.AllSteps (FlushInTime m) s run :=
  TSys.run_states_iff_steps (fun _ hs => Quiet.clean hs) (step_quiet hm) (step_violated hm) hinit
    hrun

/-- One disk of 512-byte sectors, whose drive goes on idle when a command comes
too early. -/
def oneDisk (delay : Nat → Nat) : AtaSetup where
  disks _ := ⟨⟨0x200#16, 1000, 512, false, true, thousandSectors_lt, sectorBytes_lt⟩, 0x1F0⟩
  spec _ _ := ⟨256, delay, fun _ => false, fun _ => (0, .idle)⟩

theorem oneDisk_identified (delay : Nat → Nat) : (oneDisk delay).Identified :=
  fun _ _ _ => ⟨(by decide : 256 = 512 / 2), (by decide : 0 < 512 / 2)⟩

/-- All drives idle. -/
def idleBus : AtaBus :=
  ⟨fun _ => ⟨fun _ => ⟨0, .idle, 0⟩, false, ⟨0#8, 0#8, 0#8, 0#8, 0#8⟩⟩, false⟩

theorem idleBus_quiet : Quiet idleBus := ⟨rfl, fun _ => ⟨fun _ => rfl, rfl⟩⟩

/-- A sector written to a drive that is done at once. -/
theorem ata_discipline_one : ∃ s', (sys (oneDisk fun _ => 0)).IsRun idleBus
    [(.write 0 5 1#8 1, s')] ∧ s'.violated = false := by
  have hok : Prog.returnsTrue (exec (oneDisk fun _ => 0) (.write 0 5 1#8 1)) idleBus = true := by
    decide +kernel
  have hrun : (sys (oneDisk fun _ => 0)).IsRun idleBus [(.write 0 5 1#8 1, _)] :=
    ⟨Prog.eq_of_returnsTrue hok, trivial⟩
  exact ⟨_, hrun, ((ata_discipline_iff (oneDisk_identified _) idleBus_quiet hrun).mpr
    ⟨⟨rfl, rfl⟩, trivial⟩).2⟩

/-- A drive that is busy with the sector for one read of its status gets the
flush too early, and the write succeeds all the same. -/
theorem ata_flush_too_early : ¬ ∀ m : AtaSetup, m.Identified → ∀ s, (sys m).init s →
    ∀ run, (sys m).IsRun s run → TSys.AllStates (fun s => s.violated = false) s run := by
  intro hall
  have hok : Prog.returnsTrue (exec (oneDisk fun _ => 1) (.write 0 5 1#8 1)) idleBus = true := by
    decide +kernel
  have hrun : (sys (oneDisk fun _ => 1)).IsRun idleBus [(.write 0 5 1#8 1, _)] :=
    ⟨Prog.eq_of_returnsTrue hok, trivial⟩
  have hclean := (hall _ (oneDisk_identified _) idleBus idleBus_quiet _ hrun).2
  have hviolated : (Prog.stateAfter (exec (oneDisk fun _ => 1) (.write 0 5 1#8 1)) idleBus).violated
      = true := by
    decide +kernel
  exact absurd (hviolated.symm.trans hclean) (by decide)

end AtaBus
end MyOs
