import MyOs.Drivers.Disk

/-!
# Identifying a drive (`disk.c`)

`identify_drive` asks the drive for 256 words and takes the driver's record from
them. `IdentifyReply` is what the drive answers on the way: the status, the two
signature registers, whether the waits end in time, and the words.
-/

namespace MyOs

/-- `identify_data`. -/
abbrev IdentifyBlock : Type := Fin 256 → BitVec 16

instance identifyBlock_neZero : @NeZero Nat Zero.ofOfNat0 256 := ⟨by decide⟩

/-- `MASTER_DRIVE`. -/
def masterDrive : Byte := 0xE0#8

/-- `SLAVE_DRIVE`. -/
def slaveDrive : Byte := 0xF0#8

/-- Two words as one number: `lo | (uint32_t) hi << 16`. -/
def wordPair (lo hi : BitVec 16) : BitVec 32 := lo.setWidth 32 ||| hi.setWidth 32 <<< 16

theorem toNat_wordPair (lo hi : BitVec 16) :
    (wordPair lo hi).toNat = hi.toNat * 2 ^ 16 + lo.toNat := by
  have hlo := lo.isLt
  have hhi := hi.isLt
  rw [wordPair, BitVec.toNat_or, BitVec.toNat_shiftLeft, BitVec.toNat_setWidth,
    BitVec.toNat_setWidth, Nat.mod_eq_of_lt (by omega), Nat.mod_eq_of_lt (b := 2 ^ 32) (by omega),
    Nat.shiftLeft_eq, Nat.mod_eq_of_lt (by omega), Nat.or_comm, ← Nat.shiftLeft_eq,
    ← Nat.shiftLeft_add_eq_or_of_lt hlo]

/-- `parse_logical_sector_size`, in bytes. -/
def parseLogicalSectorSize (identifyData : IdentifyBlock) : BitVec 32 :=
  if (identifyData 106).getLsbD 14 = false then 512#32
  else if (identifyData 106).getLsbD 12 then
    wordPair (identifyData 117) (identifyData 118) * 2#32
  else 512#32

/-- The record `identify_drive` fills in. -/
def identifiedData (identifyData : IdentifyBlock) (drive : Byte) : IdentifyDeviceData where
  capabilities := identifyData 49
  totalSectors := (wordPair (identifyData 60) (identifyData 61)).toNat
  logicalSectorSize := (parseLogicalSectorSize identifyData).toNat
  slave := drive == slaveDrive
  valid := true
  totalSectors_lt := BitVec.isLt _
  logicalSectorSize_lt := BitVec.isLt _

/-- What the drive answers to IDENTIFY. -/
structure IdentifyReply where
  /-- the status after the command -/
  status : Byte
  /-- `ata_wait_for_bsy` -/
  bsyClears : Bool
  lbaMid : Byte
  lbaHigh : Byte
  /-- `ata_wait_for_drq` -/
  drqSets : Bool
  words : IdentifyBlock

/-- `identify_drive`: whether there is such a drive, and its record. -/
def identifyDrive (reply : IdentifyReply) (drive : Byte) (data : IdentifyDeviceData) :
    Bool × IdentifyDeviceData :=
  if reply.status = 0#8 then (false, data)
  else if reply.bsyClears = false then (false, data)
  else if reply.lbaMid ≠ 0#8 ∨ reply.lbaHigh ≠ 0#8 then (false, data)
  else if reply.drqSets = false then (false, data)
  else (true, identifiedData reply.words drive)

/-- A drive that is identified is described by its words alone. -/
theorem identifyDrive_ok {reply : IdentifyReply} {drive : Byte} {data disk : IdentifyDeviceData}
    (h : identifyDrive reply drive data = (true, disk)) :
    disk = identifiedData reply.words drive := by
  unfold identifyDrive at h
  repeat' split at h
  all_goals cases h
  rfl

/-- `parse_physical_sector_size`, in bytes. -/
def parsePhysicalSectorSize (identifyData : IdentifyBlock) : BitVec 32 :=
  -- the source takes bit 3 for the flag that bits 3:0 are valid
  if (identifyData 106).getLsbD 3 then
    parseLogicalSectorSize identifyData <<< (identifyData 106 &&& 0x0F#16).toNat
  else parseLogicalSectorSize identifyData

/-- The record with the `physical_sector_size`, which no transfer reads. -/
structure SizedDeviceData extends IdentifyDeviceData where
  physicalSectorSize : BitVec 16

/-- `identify_drive` with the `physical_sector_size` it stores. -/
def identifySizedDrive (reply : IdentifyReply) (drive : Byte) (data : SizedDeviceData) :
    Bool × SizedDeviceData :=
  match identifyDrive reply drive data.toIdentifyDeviceData with
  | (true, disk) => (true, ⟨disk, (parsePhysicalSectorSize reply.words).setWidth 16⟩)
  | (false, disk) => (false, ⟨disk, data.physicalSectorSize⟩)

/-- Both sizes of a drive that is identified come from its words. -/
theorem identifySizedDrive_ok {reply : IdentifyReply} {drive : Byte} {data disk : SizedDeviceData}
    (h : identifySizedDrive reply drive data = (true, disk)) :
    disk.logicalSectorSize = (parseLogicalSectorSize reply.words).toNat ∧
      disk.physicalSectorSize = (parsePhysicalSectorSize reply.words).setWidth 16 := by
  unfold identifySizedDrive at h
  cases hid : identifyDrive reply drive data.toIdentifyDeviceData with
  | mk ok d =>
      rw [hid] at h
      cases ok with
      | false => cases h
      | true =>
          cases h
          rw [identifyDrive_ok hid]
          exact ⟨rfl, rfl⟩

/-- A record `identify_drive` can produce. -/
def Identified (disk : IdentifyDeviceData) : Prop :=
  ∃ reply drive data, identifyDrive reply drive data = (true, disk)

/-- A drive that answers with these words. -/
def identifyReply (words : IdentifyBlock) : IdentifyReply where
  status := 0x58#8
  bsyClears := true
  lbaMid := 0#8
  lbaHigh := 0#8
  drqSets := true
  words := words

theorem identified_iff {disk : IdentifyDeviceData} :
    Identified disk ↔ ∃ words drive, disk = identifiedData words drive := by
  constructor
  · rintro ⟨reply, drive, data, h⟩
    exact ⟨reply.words, drive, identifyDrive_ok h⟩
  · rintro ⟨words, drive, rfl⟩
    exact ⟨identifyReply words, drive, identifiedData words drive, rfl⟩

theorem Identified.valid {disk : IdentifyDeviceData} (h : Identified disk) : disk.valid = true := by
  obtain ⟨words, drive, rfl⟩ := identified_iff.mp h
  rfl

end MyOs
