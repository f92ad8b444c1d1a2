import MyOs.Base.Bytes
import MyOs.Base.Prog
import MyOs.Base.Word

/-!
# The disk driver (`disk.c`)

`disk_read` and `disk_write` over the two ATA PIO commands. The drive's reply
to a command is not under the driver's control: `outcome` says for every
command issued whether it completes, and a command that fails may leave
anything in the sectors (or the buffer) it was to transfer. The heap the
temporary buffers come from is a parameter, `Host`.
-/

namespace MyOs

/-- `MAX_SECTORS_PER_CALL_SIZE`. -/
def maxSectorsPerCallSize : Nat := 256

/-- `ATA_PIO_MAX_SECTORS_PER_CMD`: a sector count of 0 asks for 256. -/
def ataPioMaxSectorsPerCmd : Nat := 0

/-- The fields of `identifyDeviceData` the driver reads after identification. -/
structure IdentifyDeviceData where
  /-- `capabilities[0]` -/
  capabilities : BitVec 16
  totalSectors : Nat
  logicalSectorSize : Nat
  slave : Bool
  valid : Bool
  totalSectors_lt : totalSectors < 2 ^ 32
  logicalSectorSize_lt : logicalSectorSize < 2 ^ 32

/-! Sizes of small drives are 32-bit words. -/

theorem sectorBytes_lt : 512 < 2 ^ 32 := by decide

theorem noSectors_lt : 0 < 2 ^ 32 := by decide

theorem eightSectors_lt : 8 < 2 ^ 32 := by decide

theorem thousandSectors_lt : 1000 < 2 ^ 32 := by decide

theorem millionSectors_lt : 1000000 < 2 ^ 32 := by decide

/-- The registers that carry a command's address and count. -/
structure TaskFile where
  driveSelect : Byte
  secCount : Byte
  lbaLow : Byte
  lbaMid : Byte
  lbaHigh : Byte

/-- How the drive ends a command. -/
inductive Outcome
  | done
  | failed (garbage : ByteStore)

namespace Outcome

def isDone : Outcome → Bool
  | done => true
  | failed _ => false

end Outcome

/-- The driver's statics, the four drives' contents, and the replies they will
give. -/
structure DiskState where
  disks : Nat → IdentifyDeviceData
  currDisk : Nat
  /-- the bytes of each drive, sector after sector -/
  image : Nat → ByteStore
  /-- the sector a drive addresses for a register setting -/
  seek : Nat → TaskFile → Nat
  outcome : Nat → Outcome
  /-- commands issued so far -/
  commands : Nat
  /-- the registers, as the last command found them -/
  regs : TaskFile

def isLbaSupported (disk : IdentifyDeviceData) : Bool := disk.capabilities.getLsbD 9

def getLbaLow (lba : Nat) : Byte := BitVec.ofNat 8 lba

def getLbaMid (lba : Nat) : Byte := BitVec.ofNat 8 (lba >>> 8)

def getLbaHigh (lba : Nat) : Byte := BitVec.ofNat 8 (lba >>> 16)

def getLbaHighest (lba : Nat) : Byte := BitVec.ofNat 8 (lba >>> 24) &&& 0x0F#8

/-- `MASTER_DRIVE` or `SLAVE_DRIVE`. -/
def driveSelection (disk : IdentifyDeviceData) : Byte := if disk.slave then 0xF0#8 else 0xE0#8

/-- What `ata_read_sectors` and `ata_write_sectors` send before the command. -/
def taskFile (disk : IdentifyDeviceData) (lba sectorCount : Nat) : TaskFile where
  driveSelect := driveSelection disk ||| getLbaHighest lba
  secCount := BitVec.ofNat 8 sectorCount
  lbaLow := getLbaLow lba
  lbaMid := getLbaMid lba
  lbaHigh := getLbaHigh lba

/-- The sector a drive in 28-bit LBA mode reads out of its registers. -/
def lba28 (t : TaskFile) : Nat :=
  (t.driveSelect &&& 0x0F#8).toNat * 2 ^ 24 + t.lbaHigh.toNat * 2 ^ 16 +
    t.lbaMid.toNat * 2 ^ 8 + t.lbaLow.toNat

/-- The sectors a count asks for. -/
def sectorsOf (sectorCount : Nat) : Nat :=
  if sectorCount = ataPioMaxSectorsPerCmd then maxSectorsPerCallSize else sectorCount

/-- The checks both ATA calls make before they touch the drive. -/
def ataAccepts (d : DiskState) (diskNum lba sectorCount : Nat) : Bool :=
  let disk := d.disks diskNum
  decide (diskNum < 4) && disk.valid && isLbaSupported disk &&
    !(decide (lba ≥ disk.totalSectors) ||
      decide (sectorsOf sectorCount > disk.totalSectors - lba))

namespace DiskState

def nextOutcome (d : DiskState) : Outcome := d.outcome d.commands

def setImage (d : DiskState) (diskNum : Nat) (img : ByteStore) : DiskState :=
  { d with image := Function.update d.image diskNum img }

/-- One command has been issued. -/
def issue (d : DiskState) (t : TaskFile) : DiskState :=
  { d with commands := d.commands + 1, regs := t }

/-- `ata_read_sectors`: whether it succeeded, and the buffer. -/
def ataReadSectors (d : DiskState) (diskNum lba sectorCount : Nat) (buffer : ByteStore) :
    (Bool × ByteStore) × DiskState :=
  if ataAccepts d diskNum lba sectorCount then
    let disk := d.disks diskNum
    let regs := taskFile disk lba sectorCount
    let bytes := sectorsOf sectorCount * disk.logicalSectorSize
    match d.nextOutcome with
    | .done =>
        let pos := d.seek diskNum regs * disk.logicalSectorSize
        ((true, buffer.copy 0 (d.image diskNum) pos bytes), d.issue regs)
    | .failed garbage => ((false, buffer.patch 0 bytes garbage), d.issue regs)
  else ((false, buffer), d)

/-- `ata_write_sectors`. -/
def ataWriteSectors (d : DiskState) (diskNum lba sectorCount : Nat) (buffer : ByteStore) :
    Bool × DiskState :=
  if ataAccepts d diskNum lba sectorCount then
    let disk := d.disks diskNum
    let regs := taskFile disk lba sectorCount
    let pos := d.seek diskNum regs * disk.logicalSectorSize
    let bytes := sectorsOf sectorCount * disk.logicalSectorSize
    let img := d.image diskNum
    match d.nextOutcome with
    | .done => (true, (d.issue regs).setImage diskNum (img.copy pos buffer 0 bytes))
    | .failed garbage => (false, (d.issue regs).setImage diskNum (img.patch pos bytes garbage))
  else (false, d)

/-- `switch_disk`. -/
def switchDisk (d : DiskState) (diskNum : Nat) : DiskState :=
  if diskNum < 4 ∧ (d.disks diskNum).valid then { d with currDisk := diskNum } else d

end DiskState

/-- The machine the driver runs on: the heap, the caller's buffer, and where the disk state
lives. -/
structure Host (σ : Type) where
  /-- the block's address, 0 when there is none -/
  kmalloc : Nat → Prog σ Nat
  kfree : Nat → Prog σ Unit
  /-- the bytes a fresh block holds -/
  stale : Nat → Prog σ ByteStore
  /-- what `memcpy` finds in the caller's buffer, which the caller passed as these bytes -/
  fetch : ByteStore → Prog σ ByteStore
  /-- `memcpy` of so many bytes to a place of the caller's buffer -/
  deliver : (pos n : Nat) → ByteStore → Prog σ Unit
  disk : σ → DiskState
  setDisk : DiskState → σ → σ

namespace Host

variable {σ : Type} (h : Host σ)

def readSectors (diskNum lba sectorCount : Nat) (buffer : ByteStore) :
    Prog σ (Bool × ByteStore) :=
  fun s =>
    let r := (h.disk s).ataReadSectors diskNum lba sectorCount buffer
    .ok (r.1, h.setDisk r.2 s)

def writeSectors (diskNum lba sectorCount : Nat) (buffer : ByteStore) : Prog σ Bool :=
  fun s =>
    let r := (h.disk s).ataWriteSectors diskNum lba sectorCount buffer
    .ok (r.1, h.setDisk r.2 s)

end Host

/-- `sectors_this_call`: 0 stands for 256. -/
def sectorsThisCall (totalSectors : Nat) : Nat :=
  if totalSectors ≥ maxSectorsPerCallSize then ataPioMaxSectorsPerCmd else totalSectors

/-- The count encoding is exact: a call moves the sectors left, at most 256. -/
theorem sectorsOf_sectorsThisCall {totalSectors : Nat} (h : totalSectors ≠ 0) :
    sectorsOf (sectorsThisCall totalSectors) = min totalSectors 256 := by
  have hmax : maxSectorsPerCallSize = 256 := rfl
  have hne : totalSectors ≠ ataPioMaxSectorsPerCmd := h
  by_cases hbig : totalSectors ≥ maxSectorsPerCallSize
  · rw [sectorsThisCall, if_pos hbig, sectorsOf, if_pos rfl]
    omega
  · rw [sectorsThisCall, if_neg hbig, sectorsOf, if_neg hne]
    omega

section Transfers

variable {σ : Type} (h : Host σ)

/-! ## Reading -/

/-- The loop of `disk_read`; `buffer` is the caller's. -/
def diskReadLoop (currDisk sectorSize len : Nat) (addr totalRead totalSectors : Nat)
    (buffer : ByteStore) : Prog σ (Nat × ByteStore) :=
  if totalSectors = 0 then pure (totalRead, buffer)
  else do
    let sectors := sectorsThisCall totalSectors
    let sectorsRead := sectorsOf sectors
    let tempBuffer ← h.kmalloc (u32 (sectorsRead * sectorSize))
    if tempBuffer = 0 then pure (totalRead, buffer)
    else do
      let stale ← h.stale tempBuffer
      let temp := stale.fill 0 0 (u32 (sectorsRead * sectorSize))
      let r ← h.readSectors currDisk addr sectors temp
      if r.1 = false then do
        h.kfree tempBuffer
        pure (totalRead, buffer)
      else do
        -- the last chunk is trimmed to the caller's length
        let bytesThisCall :=
          if u32 (totalRead + u32 (sectorsRead * sectorSize)) > len then sub32 len totalRead
          else u32 (sectorsRead * sectorSize)
        let buffer := buffer.copy totalRead r.2 0 bytesThisCall
        h.deliver totalRead bytesThisCall r.2
        h.kfree tempBuffer
        diskReadLoop currDisk sectorSize len (u32 (addr + sectorsRead))
          (u32 (totalRead + bytesThisCall)) (totalSectors - sectorsRead) buffer
termination_by totalSectors
decreasing_by
  rw [sectorsOf_sectorsThisCall ‹¬totalSectors = 0›]
  omega

/-- `disk_read`: the bytes read, and the caller's buffer. -/
def diskRead (addr : Nat) (buffer : ByteStore) (len : Nat) : Prog σ (Nat × ByteStore) := do
  let s ← Prog.get
  let d := h.disk s
  let disk := d.disks d.currDisk
  if disk.valid = false then pure (0, buffer)
  else if disk.logicalSectorSize = 0 then Prog.stop .divideError
  else
    let sectorSize := disk.logicalSectorSize
    let totalSectors := u32 (len + sectorSize - 1) / sectorSize
    diskReadLoop h d.currDisk sectorSize len addr 0 totalSectors buffer

/-! ## Writing -/

/-- The last sector of `disk_write`, when it is not full. -/
def diskWriteLast (currDisk sectorSize len : Nat) (lba totalWritten : Nat)
    (buffer : ByteStore) : Prog σ Nat :=
  if len % sectorSize = 0 then pure len
  else do
    let temp ← h.kmalloc sectorSize
    if temp = 0 then pure totalWritten
    else do
      let stale ← h.stale temp
      let r ← h.readSectors currDisk lba 1 stale
      if r.1 = false then pure totalWritten
      else do
        let data ← h.fetch buffer
        let merged := r.2.copy 0 data totalWritten (len % sectorSize)
        let written ← h.writeSectors currDisk lba 1 merged
        if written = false then pure totalWritten
        else do
          h.kfree temp
          pure len

/-- The loop of `disk_write` over the whole sectors, and the last one. -/
def diskWriteLoop (currDisk sectorSize len : Nat) (lba totalWritten totalSectors : Nat)
    (buffer : ByteStore) : Prog σ Nat :=
  if totalSectors = 0 then diskWriteLast h currDisk sectorSize len lba totalWritten buffer
  else do
    let sectors := sectorsThisCall totalSectors
    let sectorsXfer := sectorsOf sectors
    let bytesThisCall := u32 (sectorsXfer * sectorSize)
    let tempBuffer ← h.kmalloc bytesThisCall
    if tempBuffer = 0 then pure totalWritten
    else do
      let stale ← h.stale tempBuffer
      let data ← h.fetch buffer
      let temp := (stale.fill 0 0 bytesThisCall).copy 0 data totalWritten bytesThisCall
      let written ← h.writeSectors currDisk lba sectors temp
      if written = false then do
        h.kfree tempBuffer
        pure totalWritten
      else do
        h.kfree tempBuffer
        diskWriteLoop currDisk sectorSize len (u32 (lba + sectorsXfer))
          (u32 (totalWritten + bytesThisCall)) (totalSectors - sectorsXfer) buffer
termination_by totalSectors
decreasing_by
  rw [sectorsOf_sectorsThisCall ‹¬totalSectors = 0›]
  omega

/-- `disk_write`: the bytes written. -/
def diskWrite (lba : Nat) (buffer : ByteStore) (len : Nat) : Prog σ Nat := do
  let s ← Prog.get
  let d := h.disk s
  let disk := d.disks d.currDisk
  if disk.valid = false then pure 0
  else if disk.logicalSectorSize = 0 then Prog.stop .divideError
  else
    let sectorSize := disk.logicalSectorSize
    diskWriteLoop h d.currDisk sectorSize len lba 0 (len / sectorSize) buffer

end Transfers

/-! ## A machine with an arbitrary heap -/

/-- The disk with a heap that answers each `kmalloc` as `allocOk` says. -/
structure DiskMachine where
  disk : DiskState
  allocOk : Nat → Bool
  staleBytes : Nat → ByteStore
  /-- `kmalloc` calls so far -/
  allocs : Nat
  /-- the blocks not freed yet -/
  live : List Nat

namespace DiskMachine

def kmalloc (_size : Nat) : Prog DiskMachine Nat :=
  fun m =>
    let m' := { m with allocs := m.allocs + 1 }
    if m.allocOk m.allocs then .ok (m'.allocs, { m' with live := m'.allocs :: m.live })
    else .ok (0, m')

def host : Host DiskMachine where
  kmalloc := kmalloc
  kfree ptr := Prog.modify fun m => { m with live := m.live.erase ptr }
  stale ptr := fun m => .ok (m.staleBytes ptr, m)
  fetch buffer := pure buffer
  deliver _ _ _ := pure ()
  disk := DiskMachine.disk
  setDisk d m := { m with disk := d }

end DiskMachine
end MyOs
