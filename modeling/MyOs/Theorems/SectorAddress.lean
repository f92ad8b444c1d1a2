import MyOs.Drivers.Identify
import MyOs.Logic.AtaCommands
import MyOs.Logic.DiskSpec

/-!
# Which sector a request addresses

The range checks of the two ATA calls compare with all 32 bits of the disk's
size, but the registers carry 28 bits of the address. The two agree up to
2 ^ 28 sectors; on a larger disk the request for sector 2 ^ 28 goes to sector 0.
-/

namespace MyOs

/-- A request that passes the checks of `ata_read_sectors` and `ata_write_sectors`. -/
structure Accepted (d : DiskState) (diskNum lba sectorCount : Nat) : Prop where
  lba_lt : lba < 2 ^ 32
  count_lt : sectorCount < 2 ^ 8
  accepts : ataAccepts d diskNum lba sectorCount = true

/-- The registers a call has written. -/
def DiskState.ReadRegs (d : DiskState) (diskNum lba sectorCount : Nat) (buffer : ByteStore) : TaskFile :=
  (d.ataReadSectors diskNum lba sectorCount buffer).2.regs

def DiskState.WriteRegs (d : DiskState) (diskNum lba sectorCount : Nat) (buffer : ByteStore) :
    TaskFile :=
  (d.ataWriteSectors diskNum lba sectorCount buffer).2.regs

/-- The registers select the drive and sector `lba` of it. -/
structure Selects (disk : IdentifyDeviceData) (lba : Nat) (t : TaskFile) : Prop where
  sector : lba28 t = lba
  slave : t.driveSelect.getLsbD 4 = disk.slave

/-- The range of a request lies inside the disk, without wrapping around. -/
def RangeInside (d : DiskState) (diskNum lba sectorCount : Nat) : Prop :=
  lba + sectorsOf sectorCount ≤ (d.disks diskNum).totalSectors ∧
    lba + sectorsOf sectorCount ≤ 2 ^ 32

/-- Both calls address the sector asked for, and no other request addresses it. -/
structure AddressesExactly (d : DiskState) (diskNum lba sectorCount : Nat) : Prop where
  read : ∀ buffer, Selects (d.disks diskNum) lba (d.ReadRegs diskNum lba sectorCount buffer)
  write : ∀ buffer, Selects (d.disks diskNum) lba (d.WriteRegs diskNum lba sectorCount buffer)
  only : ∀ lba' sectorCount' buffer, Accepted d diskNum lba' sectorCount' →
    lba28 (d.ReadRegs diskNum lba' sectorCount' buffer) =
      lba28 (d.ReadRegs diskNum lba sectorCount buffer) → lba' = lba

section Request

variable {d : DiskState} {diskNum lba sectorCount : Nat}

theorem sectorsOf_pos (sectorCount : Nat) : 0 < sectorsOf sectorCount := by
  unfold sectorsOf
  split
  · decide
  · exact Nat.pos_of_ne_zero ‹_›

/-- The checks, for an identified drive. -/
theorem ataAccepts_identified (hid : Identified (d.disks diskNum)) :
    ataAccepts d diskNum lba sectorCount = true ↔ diskNum < 4 ∧
      isLbaSupported (d.disks diskNum) = true ∧
        lba + sectorsOf sectorCount ≤ (d.disks diskNum).totalSectors := by
  have hpos := sectorsOf_pos sectorCount
  simp only [ataAccepts, hid.valid, Bool.and_true, Bool.and_eq_true, decide_eq_true_eq,
    Bool.not_eq_true', Bool.or_eq_false_iff, decide_eq_false_iff_not]
  constructor
  · rintro ⟨⟨hnum, hlba⟩, hlt, hcount⟩
    exact ⟨hnum, hlba, by omega⟩
  · rintro ⟨hnum, hlba, hle⟩
    exact ⟨⟨hnum, hlba⟩, by omega, by omega⟩

namespace Accepted

variable (h : Accepted d diskNum lba sectorCount) (buffer : ByteStore)

include h

theorem readRegs : d.ReadRegs diskNum lba sectorCount buffer =
    taskFile (d.disks diskNum) lba sectorCount := by
  unfold DiskState.ReadRegs DiskState.ataReadSectors
  rw [if_pos h.accepts]
  cases d.nextOutcome <;> rfl

theorem writeRegs : d.WriteRegs diskNum lba sectorCount buffer =
    taskFile (d.disks diskNum) lba sectorCount := by
  unfold DiskState.WriteRegs DiskState.ataWriteSectors
  rw [if_pos h.accepts]
  cases d.nextOutcome <;> rfl

theorem rangeInside (hid : Identified (d.disks diskNum)) : RangeInside d diskNum lba sectorCount := by
  obtain ⟨_, _, hle⟩ := (ataAccepts_identified hid).mp h.accepts
  exact ⟨hle, Nat.le_trans hle (Nat.le_of_lt (d.disks diskNum).totalSectors_lt)⟩

end Accepted

/-- The registers carry the address modulo 2 ^ 28. -/
theorem lba28_taskFile_mod (disk : IdentifyDeviceData) (lba sectorCount : Nat) :
    lba28 (taskFile disk lba sectorCount) = lba % 2 ^ 28 := by
  have hmask (b : Byte) : (b &&& 0x0F#8).toNat = b.toNat % 16 := by
    rw [BitVec.toNat_and]
    exact Nat.and_two_pow_sub_one_eq_mod b.toNat 4
  simp only [lba28, taskFile, getLbaHighest, driveSelect_lba, hmask, getLbaHigh, getLbaMid,
    getLbaLow, BitVec.toNat_ofNat, Nat.shiftRight_eq_div_pow]
  omega

theorem selects_iff (disk : IdentifyDeviceData) :
    Selects disk lba (taskFile disk lba sectorCount) ↔ lba < 2 ^ 28 := by
  constructor
  · intro h
    have hsector := h.sector
    rw [lba28_taskFile_mod] at hsector
    omega
  · intro h
    exact ⟨lba28_taskFile disk sectorCount h, driveSelection_slave disk lba⟩

end Request

/-- **Sector addresses.** For every drive that can be identified: a request that
passes the checks lies inside the disk, and reaches the sector asked for if and
only if that is below 2 ^ 28; so every such request does, and no two meet in one
sector, if and only if the drive, when it takes such addresses at all, has at
most 2 ^ 28 sectors. -/
theorem sector_address_exact_iff {d : DiskState} {diskNum : Nat}
    (hid : Identified (d.disks diskNum)) :
    (∀ lba sectorCount, Accepted d diskNum lba sectorCount → ∀ buffer,
      RangeInside d diskNum lba sectorCount ∧
        (Selects (d.disks diskNum) lba (d.ReadRegs diskNum lba sectorCount buffer) ↔
          lba < 2 ^ 28) ∧
        (Selects (d.disks diskNum) lba (d.WriteRegs diskNum lba sectorCount buffer) ↔
          lba < 2 ^ 28)) ∧
    ((∀ lba sectorCount, Accepted d diskNum lba sectorCount →
      RangeInside d diskNum lba sectorCount ∧ AddressesExactly d diskNum lba sectorCount) ↔
      (diskNum < 4 → isLbaSupported (d.disks diskNum) = true →
        (d.disks diskNum).totalSectors ≤ 2 ^ 28)) := by
  constructor
  · intro lba sectorCount h buffer
    rw [h.readRegs, h.writeRegs, selects_iff]
    exact ⟨h.rangeInside hid, Iff.rfl, Iff.rfl⟩
  have hsmall {lba sectorCount : Nat} (h : Accepted d diskNum lba sectorCount)
      (hle : diskNum < 4 → isLbaSupported (d.disks diskNum) = true →
        (d.disks diskNum).totalSectors ≤ 2 ^ 28) : lba < 2 ^ 28 := by
    obtain ⟨hnum, hlba, hinside⟩ := (ataAccepts_identified hid).mp h.accepts
    have hpos := sectorsOf_pos sectorCount
    have htotal := hle hnum hlba
    omega
  constructor
  · intro hall hnum hlba
    refine Nat.not_lt.mp fun hbig => ?_
    -- the first sector that 28 bits do not reach
    have haccepted : Accepted d diskNum (2 ^ 28) 1 :=
      ⟨by decide, by decide, (ataAccepts_identified hid).mpr ⟨hnum, hlba, hbig⟩⟩
    have hselects := (hall _ _ haccepted).2.read fun _ => 0#8
    rw [haccepted.readRegs, selects_iff] at hselects
    exact Nat.lt_irrefl _ hselects
  · intro hle lba sectorCount h
    have hlt := hsmall h hle
    refine ⟨h.rangeInside hid, fun buffer => ?_, fun buffer => ?_, fun lba' count' buffer h' heq => ?_⟩
    · rw [h.readRegs]
      exact (selects_iff _).mpr hlt
    · rw [h.writeRegs]
      exact (selects_iff _).mpr hlt
    · rw [h.readRegs, h'.readRegs, lba28_taskFile_mod, lba28_taskFile_mod,
        Nat.mod_eq_of_lt hlt, Nat.mod_eq_of_lt (hsmall h' hle)] at heq
      exact heq

/-! ## Drives of two sizes -/

/-- A drive with LBA and sixteen sectors more than 28 bits can number. -/
def largeWords : IdentifyBlock := fun i =>
  if i = 49 then 0x200#16 else if i = 60 then 0x10#16 else if i = 61 then 0x1000#16 else 0#16

def identifiedDisk (words : IdentifyBlock) : DiskState where
  disks := fun _ => identifiedData words masterDrive
  currDisk := 0
  image := fun _ _ => 0#8
  seek := fun _ => lba28
  outcome := fun _ => .done
  commands := 0
  regs := ⟨0, 0, 0, 0, 0⟩

theorem identifiedDisk_identified (words : IdentifyBlock) :
    Identified ((identifiedDisk words).disks 0) :=
  identified_iff.mpr ⟨words, masterDrive, rfl⟩

def largeDisk : DiskState := identifiedDisk largeWords

theorem largeDisk_identified : Identified (largeDisk.disks 0) :=
  identifiedDisk_identified largeWords

/-- A drive of as many sectors as 28 bits can number. -/
def fullWords : IdentifyBlock := fun i =>
  if i = 49 then 0x200#16 else if i = 61 then 0x1000#16 else 0#16

/-- The full drive is addressed exactly, the large one is not. -/
theorem sector_address_exact_full :
    (∀ lba sectorCount, Accepted (identifiedDisk fullWords) 0 lba sectorCount →
      RangeInside (identifiedDisk fullWords) 0 lba sectorCount ∧
        AddressesExactly (identifiedDisk fullWords) 0 lba sectorCount) ∧
    ¬ ∀ lba sectorCount, Accepted largeDisk 0 lba sectorCount →
      RangeInside largeDisk 0 lba sectorCount ∧ AddressesExactly largeDisk 0 lba sectorCount := by
  constructor
  · exact (sector_address_exact_iff (identifiedDisk_identified fullWords)).2.mpr
      fun _ _ => by decide
  · intro hall
    have hle := (sector_address_exact_iff largeDisk_identified).2.mp hall
    exact absurd (hle (by decide) (by decide)) (by decide)

theorem largeDisk_accepts {lba : Nat} (hlba : lba ≤ 2 ^ 28) : Accepted largeDisk 0 lba 1 := by
  have htotal : (largeDisk.disks 0).totalSectors = 2 ^ 28 + 16 := by decide
  have hone : sectorsOf 1 = 1 := rfl
  refine ⟨by omega, by decide, ?_⟩
  rw [ataAccepts_identified largeDisk_identified, htotal, hone]
  exact ⟨by decide, by decide, by omega⟩

/-- The requests for its sectors 0 and 2 ^ 28 both pass the checks, and both reach
sector 0. -/
theorem sector_address_aliased :
    ¬ ∀ (d : DiskState) (diskNum lba sectorCount : Nat), Identified (d.disks diskNum) →
      Accepted d diskNum lba sectorCount →
      RangeInside d diskNum lba sectorCount ∧ AddressesExactly d diskNum lba sectorCount := by
  intro hall
  have hfirst := largeDisk_accepts (Nat.zero_le _)
  have hbeyond := largeDisk_accepts (Nat.le_refl (2 ^ 28))
  have hexact := (hall largeDisk 0 0 1 largeDisk_identified hfirst).2
  have hmod : 2 ^ 28 % 2 ^ 28 = 0 % 2 ^ 28 := by decide
  have hsame : lba28 (largeDisk.ReadRegs 0 (2 ^ 28) 1 fun _ => 0#8) =
      lba28 (largeDisk.ReadRegs 0 0 1 fun _ => 0#8) := by
    rw [hfirst.readRegs, hbeyond.readRegs]
    exact (lba28_taskFile_mod _ _ _).trans (hmod.trans (lba28_taskFile_mod _ _ _).symm)
  have heq := hexact.only (2 ^ 28) 1 (fun _ => 0#8) hbeyond hsame
  exact absurd heq (by decide)

end MyOs
