import MyOs.Base.Records
import MyOs.Drivers.Ata

/-!
# The ATA transfers with their data (`disk.c`)

`ata_read_sectors` and `ata_write_sectors` once more, with the words that go through
the data register. A drive that takes a command sets the place of its first word,
and each word it gives or takes moves the place on. A sector whose busy period ends
in an error holds anything.
-/

namespace MyOs

/-- The driver's table and the drives as `identify_drive` found them: sectors of the
drive's own size, no drive in the table twice, and no busy period that outlasts
`ata_wait_for_bsy`. -/
structure AtaDrives extends AtaSetup where
  /-- what a sector holds after an error, by the number of the busy period -/
  spoiled : Nat → Bool → Nat → ByteStore
  sector_size : ∀ n, n < 4 → (disks n).valid = true →
    (disks n).logicalSectorSize = 2 * (spec (disks n).baseIoPort (disks n).slave).sectorWords ∧
      0 < (spec (disks n).baseIoPort (disks n).slave).sectorWords
  apart : ∀ n k, n < 4 → (disks n).valid = true → k < 4 → (disks k).valid = true →
    (disks n).baseIoPort = (disks k).baseIoPort → (disks n).slave = (disks k).slave → n = k
  delay_lt : ∀ base slave n, (spec base slave).delay n < AtaBus.bsyTimeout

/-- The drives with what is on them. -/
structure AtaStore where
  bus : AtaBus
  /-- the bytes of the drives of a base port, the master's at `false` -/
  image : Nat → Bool → ByteStore
  /-- where the next word of a transfer lies -/
  place : Nat → Bool → Nat

namespace AtaStore

/-- Another value for one drive. -/
def setDrive {α : Type} (f : Nat → Bool → α) (base : Nat) (slave : Bool) (a : α) :
    Nat → Bool → α :=
  fun c b => if c = base ∧ b = slave then a else f c b

/-- What only concerns the state of the drives. -/
def control {α : Type} (x : Prog AtaBus α) : Prog AtaStore α :=
  Prog.zoom AtaStore.bus (fun bus s => { s with bus := bus }) x

/-- The word at `pos`. -/
def wordAt (img : ByteStore) (pos : Nat) : BitVec 16 := img (pos + 1) ++ img pos

section Ports

variable (m : AtaDrives)

/-- The bytes of a sector. -/
def sectorBytes (base : Nat) (slave : Bool) : Nat := 2 * (m.spec base slave).sectorWords

/-- `outb`: a transfer starts at the sector the registers name. -/
def outb (base reg : Nat) (value : Byte) : Prog AtaStore Unit := do
  let s ← Prog.get
  let ch := s.bus.channels base
  if reg = ataRegCmdStatus ∧ ch.selected.ready = true ∧
      (value = ataCmdRead ∨ value = ataCmdWrite) then
    Prog.modify fun s => { s with
      place := setDrive s.place base ch.slaveSelected
        (lba28 ch.regs * sectorBytes m base ch.slaveSelected) }
  control (AtaBus.outb m.toAtaSetup base reg value)

/-- `in16` of the data register. -/
def in16 (base : Nat) : Prog AtaStore (BitVec 16) := do
  let s ← Prog.get
  let ch := s.bus.channels base
  let slave := ch.slaveSelected
  control (AtaBus.in16 m.toAtaSetup base)
  match ch.selected.busy, ch.selected.phase with
  | 0, .dataIn _ _ => do
      Prog.modify fun s => { s with place := setDrive s.place base slave (s.place base slave + 2) }
      pure (wordAt (s.image base slave) (s.place base slave))
  | _, _ => pure 0#16

/-- A word for the sector that ends at `stop`, the last one if `last` says so. -/
def putWord (base : Nat) (slave : Bool) (d : Drive) (img : ByteStore) (pos : Nat)
    (value : BitVec 16) (last : Bool) : ByteStore :=
  if last && (m.spec base slave).fails d.periods then
    (img.store pos (halfBytes value)).patch (pos + 2 - sectorBytes m base slave)
      (sectorBytes m base slave) (m.spoiled base slave d.periods)
  else img.store pos (halfBytes value)

/-- `out16` to the data register. -/
def out16 (base : Nat) (value : BitVec 16) : Prog AtaStore Unit := do
  let s ← Prog.get
  let ch := s.bus.channels base
  let slave := ch.slaveSelected
  match ch.selected.busy, ch.selected.phase with
  | 0, .dataOut words _ =>
      Prog.modify fun s => { s with
        image := setDrive s.image base slave (putWord m base slave ch.selected (s.image base slave)
          (s.place base slave) value (decide (words ≤ 1)))
        place := setDrive s.place base slave (s.place base slave + 2) }
  | _, _ => pure ()
  control (AtaBus.out16 m.toAtaSetup base)

/-! ## `disk.c` -/

/-- `flush_cache`. -/
def flushCache (diskNum : Nat) : Prog AtaStore Unit :=
  if diskNum ≥ 4 ∨ (m.disks diskNum).valid = false then pure ()
  else do
    outb m (m.disks diskNum).baseIoPort ataRegCmdStatus ataCmdFlush
    control (AtaBus.delayAfterCommand (m.disks diskNum).baseIoPort)

/-- What both calls send. -/
def sendCommand (disk : AtaDisk) (lba : Nat) (sectorCount : Byte) (cmd : Byte) :
    Prog AtaStore Unit := do
  outb m disk.baseIoPort ataRegDriveSelect
    (driveSelection disk.toIdentifyDeviceData ||| getLbaHighest lba)
  control (AtaBus.delay400ns disk.baseIoPort)
  outb m disk.baseIoPort ataRegSeccount sectorCount
  outb m disk.baseIoPort ataRegLbaLow (getLbaLow lba)
  outb m disk.baseIoPort ataRegLbaMid (getLbaMid lba)
  outb m disk.baseIoPort ataRegLbaHigh (getLbaHigh lba)
  outb m disk.baseIoPort ataRegCmdStatus cmd
  control (AtaBus.delayAfterCommand disk.baseIoPort)

/-- `buffer16[j] = in16(..)`, `n` times from byte `pos` of the buffer on. -/
def readWords (base : Nat) : (n pos : Nat) → ByteStore → Prog AtaStore ByteStore
  | 0, _, buffer => pure buffer
  | n + 1, pos, buffer => do
      let value ← in16 m base
      readWords base n (pos + 2) (buffer.store pos (halfBytes value))

/-- The sector loop of `ata_read_sectors`, with `buffer16` at byte `pos`. -/
def readLoop (disk : AtaDisk) : (sectors pos : Nat) → ByteStore → Prog AtaStore (Bool × ByteStore)
  | 0, _, buffer => pure (true, buffer)
  | sectors + 1, pos, buffer => do
      let ok ← control (AtaBus.waitForData disk.baseIoPort)
      if ok then do
        let buffer ← readWords m disk.baseIoPort (disk.logicalSectorSize / 2) pos buffer
        control (AtaBus.delay400ns disk.baseIoPort)
        readLoop disk sectors (pos + 2 * (disk.logicalSectorSize / 2)) buffer
      else pure (false, buffer)

/-- `ata_read_sectors`: whether it succeeded, and the buffer. -/
def ataReadSectors (diskNum lba : Nat) (sectorCount : Byte) (buffer : ByteStore) :
    Prog AtaStore (Bool × ByteStore) :=
  if AtaBus.accepts m.toAtaSetup diskNum lba sectorCount then do
    let disk := m.disks diskNum
    let free ← control (AtaBus.ataWaitForBsy disk.baseIoPort AtaBus.bsyTimeout)
    if free then do
      sendCommand m disk lba sectorCount ataCmdRead
      readLoop m disk (sectorsOf sectorCount.toNat) 0 buffer
    else pure (false, buffer)
  else pure (false, buffer)

/-- `out16(.., buffer16[j])`, `n` times from byte `pos` of the buffer on. -/
def writeWords (base : Nat) (buffer : ByteStore) : (n pos : Nat) → Prog AtaStore Unit
  | 0, _ => pure ()
  | n + 1, pos => do
      out16 m base (wordAt buffer pos)
      writeWords base buffer n (pos + 2)

/-- The sector loop of `ata_write_sectors`, with `buffer16` at byte `pos`. -/
def writeLoop (diskNum : Nat) (buffer : ByteStore) : (sectors pos : Nat) → Prog AtaStore Bool
  | 0, _ => pure true
  | sectors + 1, pos => do
      let disk := m.disks diskNum
      let ok ← control (AtaBus.waitForData disk.baseIoPort)
      if ok then do
        writeWords m disk.baseIoPort buffer (disk.logicalSectorSize / 2) pos
        flushCache m diskNum
        writeLoop diskNum buffer sectors (pos + 2 * (disk.logicalSectorSize / 2))
      else pure false

/-- `ata_write_sectors`, with `fuel` timeouts of its first wait. -/
def ataWriteSectors (diskNum lba : Nat) (sectorCount : Byte) (buffer : ByteStore) (fuel : Nat) :
    Prog AtaStore Bool :=
  if AtaBus.accepts m.toAtaSetup diskNum lba sectorCount then do
    let disk := m.disks diskNum
    control (AtaBus.waitUntilFree disk.baseIoPort fuel)
    sendCommand m disk lba sectorCount ataCmdWrite
    writeLoop m diskNum buffer (sectorsOf sectorCount.toNat) 0
  else pure false

end Ports
end AtaStore
end MyOs
