import MyOs.Drivers.Disk

/-!
# The ATA commands at the port level (`disk.c`)

`ata_read_sectors` and `ata_write_sectors` as port accesses to drives that follow
the PIO state machine. A drive is busy for as many reads of its status as its
timing says, then asks for the next sector, has become idle or reports an error.
The sectors' bytes are those of the transfers in `Drivers/Disk`; here only the
number of words counts. Writing the command register while the selected drive is
busy or requests data is recorded in `violated`; what such a drive then does is
its own affair.
-/

namespace MyOs

/-- What a drive does once it is no longer busy. -/
inductive Phase
  | idle
  /-- the error bit is set -/
  | failed
  /-- it has `words` of a sector to give, and `sectors` after that one -/
  | dataIn (words sectors : Nat)
  /-- it takes `words` of a sector, and `sectors` after that one -/
  | dataOut (words sectors : Nat)
deriving DecidableEq, Repr

/-- The data request bit. -/
def Phase.drq : Phase → Bool
  | .dataIn _ _ => true
  | .dataOut _ _ => true
  | _ => false

/-- A drive's sector size and timing. Its busy periods are numbered. -/
structure DriveSpec where
  sectorWords : Nat
  /-- reads of the status for which a busy period lasts -/
  delay : Nat → Nat
  /-- whether it ends in an error -/
  fails : Nat → Bool
  /-- what a command written too early does to the drive -/
  misused : Nat → Nat × Phase

/-- A drive. -/
structure Drive where
  /-- reads of the status for which it still is busy -/
  busy : Nat
  phase : Phase
  /-- busy periods so far -/
  periods : Nat

/-- `ATA_REG_SECCOUNT` and the other register offsets. -/
def ataRegSeccount : Nat := 0x2
def ataRegLbaLow : Nat := 0x3
def ataRegLbaMid : Nat := 0x4
def ataRegLbaHigh : Nat := 0x5
def ataRegDriveSelect : Nat := 0x6
def ataRegCmdStatus : Nat := 0x7
def ataRegAltstatus : Nat := 0x206

/-- `ATA_CMD_READ` and the other commands. -/
def ataCmdRead : Byte := 0x20#8
def ataCmdWrite : Byte := 0x30#8
def ataCmdFlush : Byte := 0xE7#8

/-- `ATA_STATUS_BSY` and the other flags. -/
def ataStatusBsy : Byte := 0x80#8
def ataStatusDrq : Byte := 0x08#8
def ataStatusErr : Byte := 0x01#8

namespace Drive

/-- The status register. -/
def status (d : Drive) : Byte :=
  if d.busy ≠ 0 then ataStatusBsy
  else match d.phase with
    | .idle => 0x50#8
    | .failed => 0x50#8 ||| ataStatusErr
    | _ => 0x50#8 ||| ataStatusDrq

/-- The status has been read once more. -/
def tick (d : Drive) : Drive := { d with busy := d.busy - 1 }

/-- Neither busy nor requesting data. -/
def ready (d : Drive) : Bool := d.busy = 0 ∧ d.phase.drq = false

/-- A busy period before `next`. -/
def start (spec : DriveSpec) (d : Drive) (next : Phase) : Drive where
  busy := spec.delay d.periods
  phase := if spec.fails d.periods then .failed else next
  periods := d.periods + 1

/-- A command of `n` sectors to a drive that is ready. -/
def accept (spec : DriveSpec) (d : Drive) (n : Nat) (cmd : Byte) : Drive :=
  if cmd = ataCmdRead then d.start spec (.dataIn spec.sectorWords (n - 1))
  else if cmd = ataCmdWrite then d.start spec (.dataOut spec.sectorWords (n - 1))
  else if cmd = ataCmdFlush then d.start spec .idle
  else { d with phase := .failed }

/-- A command that comes too early. -/
def misuse (spec : DriveSpec) (d : Drive) : Drive where
  busy := (spec.misused d.periods).1
  phase := (spec.misused d.periods).2
  periods := d.periods + 1

/-- The host has read a word of data; after the last of a sector comes the next
sector, if any. -/
def giveWord (spec : DriveSpec) (d : Drive) : Drive :=
  match d.busy, d.phase with
  | 0, .dataIn words sectors =>
      if words > 1 then { d with phase := .dataIn (words - 1) sectors }
      else match sectors with
        | 0 => { d with phase := .idle }
        | sectors + 1 => d.start spec (.dataIn spec.sectorWords sectors)
  | _, _ => d

/-- The host has written a word of data; after the last of a sector the drive
is busy with it. -/
def takeWord (spec : DriveSpec) (d : Drive) : Drive :=
  match d.busy, d.phase with
  | 0, .dataOut words sectors =>
      if words > 1 then { d with phase := .dataOut (words - 1) sectors }
      else match sectors with
        | 0 => d.start spec .idle
        | sectors + 1 => d.start spec (.dataOut spec.sectorWords sectors)
  | _, _ => d

end Drive

/-- Two drives on one base port. The registers are written to both, commands
and data go to the selected one. -/
structure Channel where
  /-- the master is `drives false` -/
  drives : Bool → Drive
  slaveSelected : Bool
  regs : TaskFile

namespace Channel

def selected (ch : Channel) : Drive := ch.drives ch.slaveSelected

def setSelected (ch : Channel) (d : Drive) : Channel :=
  { ch with drives := Function.update ch.drives ch.slaveSelected d }

/-- A write to one of the address registers. -/
def latch (ch : Channel) (reg : Nat) (value : Byte) : Channel :=
  if reg = ataRegSeccount then { ch with regs := { ch.regs with secCount := value } }
  else if reg = ataRegLbaLow then { ch with regs := { ch.regs with lbaLow := value } }
  else if reg = ataRegLbaMid then { ch with regs := { ch.regs with lbaMid := value } }
  else if reg = ataRegLbaHigh then { ch with regs := { ch.regs with lbaHigh := value } }
  else if reg = ataRegDriveSelect then
    { ch with
      regs := { ch.regs with driveSelect := value }
      slaveSelected := value.getLsbD 4 }
  else ch

/-- A write to the command register. -/
def command (spec : Bool → DriveSpec) (ch : Channel) (cmd : Byte) : Channel :=
  if ch.selected.ready then
    ch.setSelected
      (ch.selected.accept (spec ch.slaveSelected) (sectorsOf ch.regs.secCount.toNat) cmd)
  else
    ch.setSelected (ch.selected.misuse (spec ch.slaveSelected))

end Channel

/-- The drives, by base port. -/
structure AtaBus where
  channels : Nat → Channel
  /-- a command was written while the selected drive was busy or requested data -/
  violated : Bool

/-- An entry of `disks` with its base port. -/
structure AtaDisk extends IdentifyDeviceData where
  baseIoPort : Nat

/-- What stays fixed: the driver's table and the drives. -/
structure AtaSetup where
  disks : Nat → AtaDisk
  spec : Nat → Bool → DriveSpec

namespace AtaBus

def setChannel (s : AtaBus) (base : Nat) (ch : Channel) : AtaBus :=
  { s with channels := Function.update s.channels base ch }

section Ports

variable (m : AtaSetup)

/-- `inb`: only the two status registers are read. -/
def inb (base reg : Nat) : Prog AtaBus Byte := do
  let s ← Prog.get
  let ch := s.channels base
  if reg = ataRegCmdStatus ∨ reg = ataRegAltstatus then
    Prog.modify fun s => s.setChannel base (ch.setSelected ch.selected.tick)
    pure ch.selected.status
  else pure 0

/-- `outb`. -/
def outb (base reg : Nat) (value : Byte) : Prog AtaBus Unit :=
  Prog.modify fun s =>
    let ch := s.channels base
    if reg = ataRegCmdStatus then
      { s.setChannel base (ch.command (m.spec base) value) with
        violated := s.violated || !ch.selected.ready }
    else s.setChannel base (ch.latch reg value)

/-- `in16` of the data register. -/
def in16 (base : Nat) : Prog AtaBus Unit :=
  Prog.modify fun s =>
    let ch := s.channels base
    s.setChannel base (ch.setSelected (ch.selected.giveWord (m.spec base ch.slaveSelected)))

/-- `out16` to the data register. -/
def out16 (base : Nat) : Prog AtaBus Unit :=
  Prog.modify fun s =>
    let ch := s.channels base
    s.setChannel base (ch.setSelected (ch.selected.takeWord (m.spec base ch.slaveSelected)))

/-- The timeout of `ata_wait_for_bsy`. -/
def bsyTimeout : Nat := 1000000000

/-- The timeout of `ata_wait_for_drq`. -/
def drqTimeout : Nat := 1000000

/-- The loop of `ata_wait_for_bsy`. -/
def ataWaitForBsy (base : Nat) : (timeout : Nat) → Prog AtaBus Bool
  | 0 => pure false
  | timeout + 1 => do
      let status ← inb base ataRegCmdStatus
      if status &&& ataStatusBsy = 0#8 then pure true
      else ataWaitForBsy base timeout

/-- The loop of `ata_wait_for_drq`. -/
def ataWaitForDrq (base : Nat) : (timeout : Nat) → Prog AtaBus Bool
  | 0 => pure false
  | timeout + 1 => do
      let status ← inb base ataRegCmdStatus
      if status &&& ataStatusErr ≠ 0#8 then pure false
      else if status &&& ataStatusDrq ≠ 0#8 then pure true
      else ataWaitForDrq base timeout

/-- `!ata_wait_for_bsy(base_port) || !ata_wait_for_drq(base_port)`, negated. -/
def waitForData (base : Nat) : Prog AtaBus Bool := do
  let free ← ataWaitForBsy base bsyTimeout
  if free then ataWaitForDrq base drqTimeout else pure false

/-- `n` reads of the alternate status. -/
def readAltstatus (base n : Nat) : Prog AtaBus Unit :=
  Prog.forLoop (fun _ => do
    let _ ← inb base ataRegAltstatus
    pure ()) 0 n

/-- `delay400ns`. -/
def delay400ns (base : Nat) : Prog AtaBus Unit := readAltstatus base 14

/-- `delayAfterCommand`. -/
def delayAfterCommand (base : Nat) : Prog AtaBus Unit := readAltstatus base 4

/-- `flush_cache`. -/
def flushCache (diskNum : Nat) : Prog AtaBus Unit :=
  if diskNum ≥ 4 ∨ (m.disks diskNum).valid = false then pure ()
  else do
    outb m (m.disks diskNum).baseIoPort ataRegCmdStatus ataCmdFlush
    delayAfterCommand (m.disks diskNum).baseIoPort

/-- What both calls send: the address, the count and the command. -/
def sendCommand (disk : AtaDisk) (lba : Nat) (sectorCount : Byte) (cmd : Byte) :
    Prog AtaBus Unit := do
  outb m disk.baseIoPort ataRegDriveSelect
    (driveSelection disk.toIdentifyDeviceData ||| getLbaHighest lba)
  delay400ns disk.baseIoPort
  outb m disk.baseIoPort ataRegSeccount sectorCount
  outb m disk.baseIoPort ataRegLbaLow (getLbaLow lba)
  outb m disk.baseIoPort ataRegLbaMid (getLbaMid lba)
  outb m disk.baseIoPort ataRegLbaHigh (getLbaHigh lba)
  outb m disk.baseIoPort ataRegCmdStatus cmd
  delayAfterCommand disk.baseIoPort

/-- The checks before the drive is touched. -/
def accepts (diskNum lba : Nat) (sectorCount : Byte) : Bool :=
  let disk := m.disks diskNum
  decide (diskNum < 4) && disk.valid && isLbaSupported disk.toIdentifyDeviceData &&
    !(decide (lba ≥ disk.totalSectors) ||
      decide (sectorsOf sectorCount.toNat > disk.totalSectors - lba))

/-- The sector loop of `ata_read_sectors`. -/
def readLoop (disk : AtaDisk) : (sectors : Nat) → Prog AtaBus Bool
  | 0 => pure true
  | sectors + 1 => do
      let ok ← waitForData disk.baseIoPort
      if ok then
        Prog.forLoop (fun _ => in16 m disk.baseIoPort) 0 (disk.logicalSectorSize / 2)
        delay400ns disk.baseIoPort
        readLoop disk sectors
      else pure false

/-- `ata_read_sectors`. -/
def ataReadSectors (diskNum lba : Nat) (sectorCount : Byte) : Prog AtaBus Bool :=
  if accepts m diskNum lba sectorCount then do
    let disk := m.disks diskNum
    let free ← ataWaitForBsy disk.baseIoPort bsyTimeout
    if free then
      sendCommand m disk lba sectorCount ataCmdRead
      readLoop m disk (sectorsOf sectorCount.toNat)
    else pure false
  else pure false

/-- `while (!ata_wait_for_bsy(base_port));`, for `fuel` timeouts. -/
def waitUntilFree (base : Nat) : (fuel : Nat) → Prog AtaBus Unit
  | 0 => Prog.stop .outOfFuel
  | fuel + 1 => do
      let free ← ataWaitForBsy base bsyTimeout
      if free then pure () else waitUntilFree base fuel

/-- The sector loop of `ata_write_sectors`. -/
def writeLoop (diskNum : Nat) : (sectors : Nat) → Prog AtaBus Bool
  | 0 => pure true
  | sectors + 1 => do
      let disk := m.disks diskNum
      let ok ← waitForData disk.baseIoPort
      if ok then
        Prog.forLoop (fun _ => out16 m disk.baseIoPort) 0 (disk.logicalSectorSize / 2)
        flushCache m diskNum
        writeLoop diskNum sectors
      else pure false

/-- `ata_write_sectors`, with `fuel` timeouts of its first wait. -/
def ataWriteSectors (diskNum lba : Nat) (sectorCount : Byte) (fuel : Nat) : Prog AtaBus Bool :=
  if accepts m diskNum lba sectorCount then do
    let disk := m.disks diskNum
    waitUntilFree disk.baseIoPort fuel
    sendCommand m disk lba sectorCount ataCmdWrite
    writeLoop m diskNum (sectorsOf sectorCount.toNat)
  else pure false

/-! ## Runs of the driver -/

/-- A call of the driver. -/
inductive Call
  | read (diskNum lba : Nat) (sectorCount : Byte)
  | write (diskNum lba : Nat) (sectorCount : Byte) (fuel : Nat)

def exec : Call → Prog AtaBus Bool
  | .read diskNum lba sectorCount => ataReadSectors m diskNum lba sectorCount
  | .write diskNum lba sectorCount fuel => ataWriteSectors m diskNum lba sectorCount fuel

end Ports
end AtaBus
end MyOs
