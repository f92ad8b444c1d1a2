import MyOs.Logic.AtaDataRules
import MyOs.Theorems.AtaDiscipline

/-!
# The ports carry the sectors

What the driver does at the ports is what `DiskState` says of a command: a read
fills the buffer with the bytes of its sectors, whatever the timing of the drive,
and a write of one sector to a drive that stores it at once changes that sector.
A command that fails returns false, and at the ports no other error is overlooked.
-/

namespace MyOs

open Prog

namespace AtaStore

open AtaBus Channel

/-- Between calls: the bus is quiet, and every drive will be free in time. -/
structure Rest (s : AtaBus) : Prop where
  quiet : Quiet s
  bounded : ∀ base slave, ((s.channels base).drives slave).busy < bsyTimeout

section Calls

variable {m : AtaDrives} {base periods : Nat} {slave : Bool}

/-- The selected drive gets free, and then both are ready. -/
theorem ataWaitForBsy_rest : Triple
    (fun s => Rest s ∧ ((s.channels base).drives slave).periods = periods)
    (ataWaitForBsy base bsyTimeout)
    fun r s => r = true ∧ On base (BothReady slave periods) s := by
  rintro s ⟨hs, rfl⟩ r t hrun
  have hon : On base (Working (s.channels base).slaveSelected
      (fun d => (d.phase.drq = false ∧ ((s.channels base).slaveSelected = slave →
        d.periods = ((s.channels base).drives slave).periods)) ∧ d.busy < bsyTimeout)
      (fun d => d.ready = true ∧ ((!(s.channels base).slaveSelected) = slave →
        d.periods = ((s.channels base).drives slave).periods))) s := by
    refine ⟨hs.quiet.clean, fun c _ => hs.quiet.settled c, rfl,
      ⟨⟨(hs.quiet.settled base).drq _, fun h => by rw [h]⟩, hs.bounded _ _⟩, ?_, fun h => by rw [h]⟩
    exact Drive.ready_iff.mpr ⟨(hs.quiet.settled base).other, (hs.quiet.settled base).drq _⟩
  obtain ⟨hr, ht⟩ := ataWaitForBsy_prompt (fun d hd => hd) _ s hon r t hrun
  exact ⟨hr, Turned.wait ht⟩

/-- The same wait without a limit. -/
theorem waitUntilFree_rest (fuel : Nat) : Triple
    (fun s => Rest s ∧ ((s.channels base).drives slave).periods = periods)
    (waitUntilFree base fuel) fun _ => On base (BothReady slave periods) := by
  cases fuel with
  | zero => exact Triple.stop
  | succ fuel =>
      refine Triple.bind ataWaitForBsy_rest fun free => ?_
      rintro s ⟨rfl, hs⟩ r t hrun
      cases hrun
      exact hs

/-- The drives at rest once more. -/
theorem rest_of_done {s : AtaBus} {chs : Nat → Channel}
    (h : On base (Working slave Done (fun d => d.ready = true)) s) (haside : Aside base chs s)
    (hchs : ∀ c b, ((chs c).drives b).busy < bsyTimeout) : Rest s := by
  refine ⟨(h.mono fun ch hch => hch.mono fun d hd => hd.1).quiet, fun c b => ?_⟩
  by_cases hc : c = base
  · rw [hc]
    by_cases hb : b = slave
    · rw [hb]
      exact h.here.drive.2
    · have hother := (Drive.ready_iff.mp h.here.other).1
      have hnot : b = !slave := by
        cases b <;> cases slave <;> simp_all
      rw [hnot, hother]
      decide
  · rw [haside c hc]
    exact hchs c b

/-- What a read of the sectors does. -/
def ReadDone (m : AtaDrives) (imgs : Nat → Bool → ByteStore) (diskNum lba : Nat)
    (sectorCount : Byte) (buffer : ByteStore) (r : Bool × ByteStore) : Prop :=
  let disk := m.disks diskNum
  if accepts m.toAtaSetup diskNum lba sectorCount then
    Filled buffer 0 (imgs disk.baseIoPort disk.slave)
      (lba28 (taskFile disk.toIdentifyDeviceData lba sectorCount.toNat) *
        sectorBytes m disk.baseIoPort disk.slave)
      (sectorsOf sectorCount.toNat * sectorBytes m disk.baseIoPort disk.slave) r
  else r = (false, buffer)

theorem ataReadSectors_rest (diskNum lba : Nat) (sectorCount : Byte) (buffer : ByteStore)
    {s s' : AtaStore} {r : Bool × ByteStore} (hs : Rest s.bus)
    (hrun : ataReadSectors m diskNum lba sectorCount buffer s = .ok (r, s')) :
    Rest s'.bus ∧ s'.image = s.image ∧
      ReadDone m s.image diskNum lba sectorCount buffer r := by
  have haside := ataReadSectors_aside s.bus.channels diskNum lba sectorCount buffer
    rfl s (fun _ _ => rfl) r s' hrun
  unfold ReadDone
  unfold ataReadSectors at hrun
  by_cases haccept : accepts m.toAtaSetup diskNum lba sectorCount = true
  · rw [if_pos haccept] at hrun ⊢
    obtain ⟨hnum, hvalid⟩ := accepts_valid haccept
    obtain ⟨hsize, hpos⟩ := m.sector_size diskNum hnum hvalid
    obtain ⟨n, hn⟩ := sectorsOf_succ sectorCount.toNat
    obtain ⟨free, s₁, hwait, hrest⟩ := bind_eq_ok.mp hrun
    obtain ⟨⟨rfl, hready⟩, himage₁⟩ := control_rule (K := fun image _ => image = s.image)
      ataWaitForBsy_rest s ⟨⟨hs, rfl⟩, rfl⟩ free s₁ hwait
    rw [if_pos rfl] at hrest
    obtain ⟨_, s₂, hsend, hloop⟩ := bind_eq_ok.mp hrest
    have hstarts : ∀ d : Drive, d.accept
        (m.spec (m.disks diskNum).baseIoPort (m.disks diskNum).slave)
        (sectorsOf sectorCount.toNat) ataCmdRead =
          d.start (m.spec (m.disks diskNum).baseIoPort (m.disks diskNum).slave) (.nextIn
            (m.spec (m.disks diskNum).baseIoPort (m.disks diskNum).slave) (n + 1)) := by
      intro d
      rw [hn]
      rfl
    have hsent := sendCommand_stage (.inl rfl) hstarts s₁ ⟨hready, himage₁⟩ _ s₂ hsend
    have hgiving : Stage (m.disks diskNum).baseIoPort (m.disks diskNum).slave
        (Giving (m.spec (m.disks diskNum).baseIoPort (m.disks diskNum).slave)
          (sectorsOf sectorCount.toNat) 0) (fun d => d.ready = true) s.image
        (lba28 (taskFile (m.disks diskNum).toIdentifyDeviceData lba sectorCount.toNat) *
          sectorBytes m (m.disks diskNum).baseIoPort (m.disks diskNum).slave) s₂ := by
      refine ⟨hsent.1.mono fun ch hch => hch.mono fun d hd => ⟨⟨trivial, ?_⟩, hd.2⟩, hsent.2⟩
      rw [hn]
      exact hd.1.2
    obtain ⟨⟨hdone, himage⟩, hfilled⟩ := readLoop_stage hsize hpos _ 0 buffer s₂ hgiving r s' hloop
    exact ⟨rest_of_done hdone haside hs.bounded, himage, hfilled⟩
  · rw [if_neg haccept] at hrun ⊢
    cases hrun
    exact ⟨hs, rfl, rfl⟩

/-- The write is of one sector, which its drive stores at once. -/
def StoresInTime (m : AtaDrives) (s : AtaBus) (diskNum : Nat) (sectorCount : Byte) : Prop :=
  sectorsOf sectorCount.toNat = 1 ∧
    StoresAtOnce (m.spec (m.disks diskNum).baseIoPort (m.disks diskNum).slave)
      ((s.driveOf m.toAtaSetup diskNum).periods + 1)

/-- What a write of the sector does. -/
def WriteDone (m : AtaDrives) (imgs : Nat → Bool → ByteStore) (diskNum lba : Nat)
    (sectorCount : Byte) (buffer : ByteStore) (r : Bool) (imgs' : Nat → Bool → ByteStore) : Prop :=
  let disk := m.disks diskNum
  (r = true → accepts m.toAtaSetup diskNum lba sectorCount = true) ∧
    imgs' = if r then setDrive imgs disk.baseIoPort disk.slave
      ((imgs disk.baseIoPort disk.slave).copy
        (lba28 (taskFile disk.toIdentifyDeviceData lba sectorCount.toNat) *
          sectorBytes m disk.baseIoPort disk.slave) buffer 0
        (sectorBytes m disk.baseIoPort disk.slave)) else imgs

theorem ataWriteSectors_rest (diskNum lba : Nat) (sectorCount : Byte) (buffer : ByteStore)
    (fuel : Nat) {s s' : AtaStore} {r : Bool} (hs : Rest s.bus)
    (htime : StoresInTime m s.bus diskNum sectorCount)
    (hrun : ataWriteSectors m diskNum lba sectorCount buffer fuel s = .ok (r, s')) :
    Rest s'.bus ∧ WriteDone m s.image diskNum lba sectorCount buffer r s'.image := by
  have haside := ataWriteSectors_aside s.bus.channels diskNum lba sectorCount
    buffer fuel rfl s (fun _ _ => rfl) r s' hrun
  obtain ⟨hone, hstores⟩ := htime
  unfold ataWriteSectors at hrun
  by_cases haccept : accepts m.toAtaSetup diskNum lba sectorCount = true
  · rw [if_pos haccept] at hrun
    obtain ⟨hnum, hvalid⟩ := accepts_valid haccept
    obtain ⟨_, s₁, hwait, hrest⟩ := bind_eq_ok.mp hrun
    obtain ⟨hready, himage₁⟩ := control_rule (K := fun image _ => image = s.image)
      (waitUntilFree_rest fuel) s ⟨⟨hs, rfl⟩, rfl⟩ _ s₁ hwait
    obtain ⟨_, s₂, hsend, hloop⟩ := bind_eq_ok.mp hrest
    have hstarts : ∀ d : Drive, d.accept
        (m.spec (m.disks diskNum).baseIoPort (m.disks diskNum).slave)
        (sectorsOf sectorCount.toNat) ataCmdWrite =
          d.start (m.spec (m.disks diskNum).baseIoPort (m.disks diskNum).slave) (.nextOut
            (m.spec (m.disks diskNum).baseIoPort (m.disks diskNum).slave) 1) := by
      intro d
      rw [hone]
      rfl
    have hsent := sendCommand_stage (.inr rfl) hstarts s₁ ⟨hready, himage₁⟩ _ s₂ hsend
    rw [hone] at hloop
    obtain ⟨hdone, himage⟩ := writeLoop_stage hnum hvalid hstores buffer 0 s₂ hsent r s' hloop
    exact ⟨rest_of_done hdone haside hs.bounded, fun _ => haccept, himage⟩
  · rw [if_neg haccept] at hrun
    cases hrun
    exact ⟨hs, (fun h => nomatch h), rfl⟩

end Calls

/-! ## Runs -/

/-- A command of the driver, with what it returned. -/
inductive Transfer
  | read (diskNum lba : Nat) (sectorCount : Byte) (buffer : ByteStore) (ok : Bool)
      (after : ByteStore)
  | write (diskNum lba : Nat) (sectorCount : Byte) (buffer : ByteStore) (fuel : Nat) (ok : Bool)

/-- Commands at the ports, whether they succeed or not, from drives at rest. -/
def portSys (m : AtaDrives) : TSys AtaStore Transfer where
  init s := Rest s.bus
  step s call s' :=
    match call with
    | .read diskNum lba sectorCount buffer ok after =>
        ataReadSectors m diskNum lba sectorCount buffer s = .ok ((ok, after), s')
    | .write diskNum lba sectorCount buffer fuel ok =>
        ataWriteSectors m diskNum lba sectorCount buffer fuel s = .ok (ok, s')

/-- The flush of a write comes in time and its sector is stored. -/
def TransferOk (m : AtaDrives) (s : AtaStore) : Transfer → Prop
  | .read .. => True
  | .write diskNum _ sectorCount .. => StoresInTime m s.bus diskNum sectorCount

/-- The commands of `DiskState`, however the drive ends them. -/
def commandSys : TSys DiskState Transfer where
  init _ := True
  step d call d' := ∃ outcome : Outcome,
    match call with
    | .read diskNum lba sectorCount buffer ok after =>
        { d with outcome := fun _ => outcome }.ataReadSectors diskNum lba sectorCount.toNat buffer =
          ((ok, after), d')
    | .write diskNum lba sectorCount buffer _ ok =>
        { d with outcome := fun _ => outcome }.ataWriteSectors diskNum lba sectorCount.toNat
          buffer = (ok, d')

/-- `d` has the disks of the drives, with their contents. -/
structure HoldsDisks (m : AtaDrives) (s : AtaStore) (d : DiskState) : Prop where
  rest : Rest s.bus
  disks : ∀ n, d.disks n = (m.disks n).toIdentifyDeviceData
  seek : ∀ n, d.seek n = lba28
  image : ∀ n, n < 4 → (m.disks n).valid = true →
    d.image n = s.image (m.disks n).baseIoPort (m.disks n).slave

section Steps

variable {m : AtaDrives} {s s' : AtaStore} {d : DiskState}

theorem accepts_eq (h : HoldsDisks m s d) (diskNum lba : Nat) (sectorCount : Byte)
    (outcome : Nat → Outcome) :
    ataAccepts { d with outcome := outcome } diskNum lba sectorCount.toNat =
      accepts m.toAtaSetup diskNum lba sectorCount := by
  simp only [ataAccepts, accepts, h.disks]

theorem HoldsDisks.read (h : HoldsDisks m s d) {diskNum lba : Nat} {sectorCount : Byte}
    {buffer after : ByteStore} {ok : Bool}
    (hrun : ataReadSectors m diskNum lba sectorCount buffer s = .ok ((ok, after), s')) :
    ∃ d', commandSys.step d (.read diskNum lba sectorCount buffer ok after) d' ∧
      HoldsDisks m s' d' := by
  obtain ⟨hrest, himage, hdone⟩ := ataReadSectors_rest diskNum lba sectorCount buffer h.rest hrun
  have hholds : ∀ outcome commands regs, HoldsDisks m s'
      { d with outcome := outcome, commands := commands, regs := regs } :=
    fun _ _ _ => ⟨hrest, h.disks, h.seek, fun n hn hvalid => by
      rw [himage]
      exact h.image n hn hvalid⟩
  unfold ReadDone at hdone
  by_cases haccept : accepts m.toAtaSetup diskNum lba sectorCount = true
  · obtain ⟨hnum, hvalid⟩ := accepts_valid haccept
    obtain ⟨hsize, _⟩ := m.sector_size diskNum hnum hvalid
    have hbytes : (m.disks diskNum).logicalSectorSize =
        sectorBytes m (m.disks diskNum).baseIoPort (m.disks diskNum).slave := hsize
    rw [if_pos haccept] at hdone
    cases ok with
    | true =>
        have hcopy : after = _ := hdone.complete rfl
        refine ⟨_, ⟨.done, ?_⟩, hholds (fun _ => .done) (d.commands + 1)
          (taskFile (d.disks diskNum) lba sectorCount.toNat)⟩
        simp only [DiskState.ataReadSectors, accepts_eq h, if_pos haccept, DiskState.nextOutcome,
          h.seek, h.image diskNum hnum hvalid, h.disks, DiskState.issue]
        rw [hcopy, hbytes]
    | false =>
        have hpatch : buffer.patch 0 (sectorsOf sectorCount.toNat *
            (m.disks diskNum).logicalSectorSize) after = after := by
          funext a
          by_cases hin : a < sectorsOf sectorCount.toNat * (m.disks diskNum).logicalSectorSize
          · exact ByteStore.patch_inside (Nat.zero_le _) (by omega)
          · rw [ByteStore.patch_outside (.inr (by omega))]
            exact (hdone.outside a (.inr (by rw [← hbytes]; omega))).symm
        refine ⟨_, ⟨.failed after, ?_⟩, hholds (fun _ => .failed after) (d.commands + 1)
          (taskFile (d.disks diskNum) lba sectorCount.toNat)⟩
        simp only [DiskState.ataReadSectors, accepts_eq h, if_pos haccept, DiskState.nextOutcome,
          h.disks, hpatch, DiskState.issue]
  · rw [if_neg haccept] at hdone
    cases hdone
    refine ⟨_, ⟨.done, ?_⟩, hholds (fun _ => .done) d.commands d.regs⟩
    simp only [DiskState.ataReadSectors, accepts_eq h, if_neg haccept]

theorem HoldsDisks.write (h : HoldsDisks m s d) {diskNum lba fuel : Nat} {sectorCount : Byte}
    {buffer : ByteStore} {ok : Bool} (htime : StoresInTime m s.bus diskNum sectorCount)
    (hrun : ataWriteSectors m diskNum lba sectorCount buffer fuel s = .ok (ok, s')) :
    ∃ d', commandSys.step d (.write diskNum lba sectorCount buffer fuel ok) d' ∧
      HoldsDisks m s' d' := by
  obtain ⟨hrest, haccepted, himage⟩ :=
    ataWriteSectors_rest diskNum lba sectorCount buffer fuel h.rest htime hrun
  by_cases haccept : accepts m.toAtaSetup diskNum lba sectorCount = true
  · obtain ⟨hnum, hvalid⟩ := accepts_valid haccept
    have hbytes : (m.disks diskNum).logicalSectorSize =
        sectorBytes m (m.disks diskNum).baseIoPort (m.disks diskNum).slave :=
      (m.sector_size diskNum hnum hvalid).1
    cases ok with
    | true =>
        rw [if_pos rfl] at himage
        let disk := m.disks diskNum
        let img := (s.image disk.baseIoPort disk.slave).copy
          (lba28 (taskFile disk.toIdentifyDeviceData lba sectorCount.toNat) *
            sectorBytes m disk.baseIoPort disk.slave) buffer 0
          (sectorBytes m disk.baseIoPort disk.slave)
        refine ⟨{ d with
          outcome := fun _ => .done
          commands := d.commands + 1
          regs := taskFile disk.toIdentifyDeviceData lba sectorCount.toNat
          image := Function.update d.image diskNum img }, ⟨.done, ?_⟩, hrest, h.disks, h.seek,
          fun n hn hv => ?_⟩
        · simp only [DiskState.ataWriteSectors, accepts_eq h, if_pos haccept, DiskState.nextOutcome,
            h.seek, h.image diskNum hnum hvalid, h.disks, DiskState.issue, DiskState.setImage,
            htime.1, Nat.one_mul, hbytes]
          rfl
        · rw [himage]
          by_cases heq : n = diskNum
          · subst heq
            simp only [Function.update_self]
            exact (setDrive_self _ _).symm
          · simp only [Function.update_of_ne heq]
            rw [setDrive, if_neg fun hsame =>
              heq (m.apart n diskNum hn hv hnum hvalid hsame.1 hsame.2)]
            exact h.image n hn hv
    | false =>
        rw [if_neg Bool.false_ne_true] at himage
        -- nothing was stored
        have hpatch : ∀ pos n,
            (d.image diskNum).patch pos n (d.image diskNum) = d.image diskNum := by
          intro pos n
          funext a
          simp only [ByteStore.patch, ite_self]
        refine ⟨{ d with
          outcome := fun _ => .failed (d.image diskNum)
          commands := d.commands + 1
          regs := taskFile (m.disks diskNum).toIdentifyDeviceData lba sectorCount.toNat },
          ⟨.failed (d.image diskNum), ?_⟩, hrest, h.disks, h.seek, fun n hn hv => ?_⟩
        · simp only [DiskState.ataWriteSectors, accepts_eq h, if_pos haccept, DiskState.nextOutcome,
            hpatch, h.disks, DiskState.issue, DiskState.setImage, Function.update_eq_self]
        · rw [himage]
          exact h.image n hn hv
  · have hfalse : ok = false := by
      cases ok with
      | true => exact absurd (haccepted rfl) haccept
      | false => rfl
    subst hfalse
    rw [if_neg Bool.false_ne_true] at himage
    refine ⟨{ d with outcome := fun _ => .done }, ⟨.done, ?_⟩, hrest, h.disks, h.seek,
      fun n hn hv => ?_⟩
    · simp only [DiskState.ataWriteSectors, accepts_eq h, if_neg haccept]
    · rw [himage]
      exact h.image n hn hv

end Steps

/-- **The ports carry the sectors.** In every run of `ata_read_sectors` and
`ata_write_sectors` at the ports of drives with any timing below the timeouts and any
errors, where each write is of one sector that its drive stores at once, each call
returns what `DiskState` says of some ending of the command, and leaves the contents it
says: a read that succeeds has filled the buffer with the bytes of its sectors, one that
fails has touched nothing else, and no write touches another sector or disk. -/
theorem ports_carry_sectors (m : AtaDrives) :
    ((portSys m).restrict (TransferOk m)).Simulates commandSys (HoldsDisks m)
      fun call call' => call = call' where
  init s hs := ⟨⟨fun n => (m.disks n).toIdentifyDeviceData, 0,
    fun n => s.image (m.disks n).baseIoPort (m.disks n).slave, fun _ => lba28, fun _ => .done, 0,
    ⟨0#8, 0#8, 0#8, 0#8, 0#8⟩⟩, trivial, hs, fun _ => rfl, fun _ => rfl, fun _ _ _ => rfl⟩
  step s call s' d h hstep := by
    obtain ⟨hok, hstep⟩ := hstep
    cases call with
    | read diskNum lba sectorCount buffer ok after =>
        obtain ⟨d', hd', hholds⟩ := h.read hstep
        exact ⟨_, d', rfl, hd', hholds⟩
    | write diskNum lba sectorCount buffer fuel ok =>
        obtain ⟨d', hd', hholds⟩ := h.write hok hstep
        exact ⟨_, d', rfl, hd', hholds⟩

/-- What a command that succeeds has stored. -/
theorem commandSys_write {d d' : DiskState} {diskNum lba fuel : Nat} {sectorCount : Byte}
    {buffer : ByteStore}
    (h : commandSys.step d (.write diskNum lba sectorCount buffer fuel true) d') :
    d'.disks = d.disks ∧ d'.seek = d.seek ∧
      d'.image diskNum = (d.image diskNum).copy
        (d.seek diskNum (taskFile (d.disks diskNum) lba sectorCount.toNat) *
          (d.disks diskNum).logicalSectorSize) buffer 0
        (sectorsOf sectorCount.toNat * (d.disks diskNum).logicalSectorSize) := by
  obtain ⟨outcome, h⟩ := h
  simp only [DiskState.ataWriteSectors, DiskState.nextOutcome] at h
  split at h
  next _ =>
    cases outcome with
    | done =>
        cases h
        exact ⟨rfl, rfl, Function.update_self ..⟩
    | failed garbage => cases h
  next _ => cases h

/-- What a command that succeeds has read. -/
theorem commandSys_read {d d' : DiskState} {diskNum lba : Nat} {sectorCount : Byte}
    {buffer after : ByteStore}
    (h : commandSys.step d (.read diskNum lba sectorCount buffer true after) d') :
    after = buffer.copy 0 (d.image diskNum)
      (d.seek diskNum (taskFile (d.disks diskNum) lba sectorCount.toNat) *
        (d.disks diskNum).logicalSectorSize)
      (sectorsOf sectorCount.toNat * (d.disks diskNum).logicalSectorSize) := by
  obtain ⟨outcome, h⟩ := h
  simp only [DiskState.ataReadSectors, DiskState.nextOutcome] at h
  split at h
  next _ =>
    cases outcome with
    | done =>
        cases h
        rfl
    | failed garbage => cases h
  next _ => cases h

/-- A read of what a write has just stored gives it back. -/
theorem command_read_back {d d₁ d₂ : DiskState} {diskNum lba fuel : Nat} {sectorCount : Byte}
    {buffer into after : ByteStore}
    (hwrite : commandSys.step d (.write diskNum lba sectorCount buffer fuel true) d₁)
    (hread : commandSys.step d₁ (.read diskNum lba sectorCount into true after) d₂) {i : Nat}
    (hi : i < sectorsOf sectorCount.toNat * (d.disks diskNum).logicalSectorSize) :
    after i = buffer i := by
  obtain ⟨hdisks, hseek, himage⟩ := commandSys_write hwrite
  have hafter := commandSys_read hread
  rw [hdisks, hseek, himage] at hafter
  rw [hafter, ← Nat.zero_add i, ByteStore.copy_inside hi, ByteStore.copy_inside hi]

/-- One drive of 1000 sectors, which is busy over three reads of its status after the
first command and never again. -/
def oneDrive : AtaDrives where
  disks n := ⟨⟨0x200#16, 1000, 512, false, n == 0, thousandSectors_lt, sectorBytes_lt⟩, 0x1F0⟩
  spec _ _ := ⟨256, fun n => if n = 0 then 3 else 0, fun _ => false, fun _ => (0, .idle)⟩
  spoiled _ _ _ := fun _ => 0#8
  sector_size _ _ _ := ⟨rfl, by decide⟩
  apart n k _ hn _ hk _ _ := (beq_iff_eq.mp hn).trans (beq_iff_eq.mp hk).symm
  delay_lt _ _ n := by
    show (if n = 0 then 3 else 0) < bsyTimeout
    split <;> decide

/-- Blank drives, at rest. -/
def idleStore : AtaStore := ⟨idleBus, fun _ _ _ => 0#8, fun _ _ => 0⟩

def countingBuffer : ByteStore := fun a => BitVec.ofNat 8 a

/-- A sector is written, and read back while the drive is free. -/
theorem ports_carry_sectors_back : ∃ s₁ s₂ after,
    ataWriteSectors oneDrive 0 5 1#8 countingBuffer 1 idleStore = .ok (true, s₁) ∧
      ataReadSectors oneDrive 0 5 1#8 (fun _ => 0#8) s₁ = .ok ((true, after), s₂) ∧
      ∀ i, i < 512 → after i = countingBuffer i := by
  have hwrite := Prog.eq_of_returnsTrue
    (show (ataWriteSectors oneDrive 0 5 1#8 countingBuffer 1).returnsTrue idleStore = true by
      decide +kernel)
  generalize hs₁ : stateAfter _ idleStore = s₁ at hwrite
  have hread := Prog.eq_of_returnsTrue (x := do
      let r ← ataReadSectors oneDrive 0 5 1#8 (fun _ => 0#8)
      pure r.1) (s := s₁) (by rw [← hs₁]; decide +kernel)
  obtain ⟨⟨ok, after⟩, s₂, hread, hok⟩ := bind_eq_ok.mp hread
  obtain ⟨rfl, -⟩ := Prod.mk.inj (Except.ok.inj hok)
  have hrest : Rest idleStore.bus := ⟨idleBus_quiet, fun _ _ => show 0 < bsyTimeout by decide⟩
  have hsim := ports_carry_sectors oneDrive
  obtain ⟨d, -, hd⟩ := hsim.init idleStore hrest
  obtain ⟨_, d₁, rfl, hstep₁, hd₁⟩ :=
    hsim.step idleStore (.write 0 5 1#8 countingBuffer 1 true) s₁ d hd
      ⟨⟨rfl, rfl, rfl⟩, hwrite⟩
  obtain ⟨_, d₂, rfl, hstep₂, -⟩ :=
    hsim.step s₁ (.read 0 5 1#8 (fun _ => 0#8) true after) s₂ d₁ hd₁ ⟨trivial, hread⟩
  refine ⟨s₁, s₂, after, hwrite, hread, fun i hi => command_read_back hstep₁ hstep₂ ?_⟩
  rw [hd.disks]
  exact hi

end AtaStore
end MyOs
