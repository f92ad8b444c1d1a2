import MyOs.Memory.Vmm
import MyOs.Logic.SwapSpec
import MyOs.Theorems.BufferRelease
import MyOs.Theorems.DiskTransfer
import MyOs.Theorems.SectorAddress
import MyOs.Theorems.SlotFree

/-!
# The retry loop of a swap-out

`vmm_swap_out_page` repeats `disk_write` until it has written the page. A run of
slots that reaches beyond the drive is refused by the range check each time, so
the loop ends just when the run lies inside the drive; the slot map is of one
size for every drive.
-/

namespace MyOs

open Prog DiskMachine

/-- `while (disk_write(slot, (void *)frame, PAGE_SIZE) != PAGE_SIZE);`, for so many
turns. The heap and the accesses to the page under a turn are `host`, by the turns left
and the page. -/
def swapWriteLoop (host : Nat → Nat → Host Kernel) (slot frame : Nat) : Nat → Prog Kernel Unit
  | 0 => Prog.stop .outOfFuel
  | fuel + 1 => do
      let n ← diskWrite (host fuel frame) slot inMemory pageSize
      if n = pageSize then pure () else swapWriteLoop host slot frame fuel

/-- It is the loop of the memory manager. -/
theorem link_swapWrite (slot frame n : Nat) : (link n).swapWrite slot frame =
    swapWriteLoop (fun fuel => diskHost (link fuel)) slot frame n := by
  induction n with
  | zero => rfl
  | succ n ih =>
      show swapWriteTurn (link n) slot frame = _
      rw [swapWriteTurn, swapWriteLoop, ih]

/-- The current drive is this one, and completes every command. -/
structure Serving (disk : IdentifyDeviceData) (cur : Nat) (k : Kernel) : Prop where
  cur_eq : k.disk.currDisk = cur
  disk_eq : k.disk.disks cur = disk
  done : ∀ i, (k.disk.outcome i).isDone = true

theorem Serving.slotsTaken {disk : IdentifyDeviceData} {cur : Nat} {k : Kernel}
    (h : Serving disk cur k) (d : DiskSlots) : Serving disk cur { k with slots := d } :=
  ⟨h.cur_eq, h.disk_eq, h.done⟩

/-- Allocations and accesses succeed and leave the drive serving. -/
structure Obliging (host : Host Kernel) (disk : IdentifyDeviceData) (cur : Nat) : Prop where
  kmalloc : ∀ size k, Serving disk cur k →
    ∃ p k', host.kmalloc size k = .ok (p, k') ∧ p ≠ 0 ∧ Serving disk cur k'
  kfree : ∀ p k, Serving disk cur k →
    ∃ k', host.kfree p k = .ok ((), k') ∧ Serving disk cur k'
  stale : ∀ p k, Serving disk cur k →
    ∃ bytes k', host.stale p k = .ok (bytes, k') ∧ Serving disk cur k'
  fetch : ∀ buffer k, Serving disk cur k →
    ∃ bytes k', host.fetch buffer k = .ok (bytes, k') ∧ Serving disk cur k'
  disk : ∀ k, host.disk k = k.disk
  setDisk : ∀ d k, (host.setDisk d k).disk = d

/-- The slots a page needs. -/
def pageSectors (sectorSize : Nat) : Nat := (pageSize + sectorSize - 1) / sectorSize

/-- A call leaves the drives' records, the choice among them and their replies. -/
theorem ataWriteSectors_kept (d : DiskState) (diskNum lba count : Nat) (buffer : ByteStore) :
    (d.ataWriteSectors diskNum lba count buffer).2.disks = d.disks ∧
      (d.ataWriteSectors diskNum lba count buffer).2.currDisk = d.currDisk ∧
      (d.ataWriteSectors diskNum lba count buffer).2.outcome = d.outcome := by
  unfold DiskState.ataWriteSectors
  split
  · cases d.nextOutcome with
    | done => exact ⟨rfl, rfl, rfl⟩
    | failed garbage => exact ⟨rfl, rfl, rfl⟩
  · exact ⟨rfl, rfl, rfl⟩

theorem ataReadSectors_kept (d : DiskState) (diskNum lba count : Nat) (buffer : ByteStore) :
    (d.ataReadSectors diskNum lba count buffer).2.disks = d.disks ∧
      (d.ataReadSectors diskNum lba count buffer).2.currDisk = d.currDisk ∧
      (d.ataReadSectors diskNum lba count buffer).2.outcome = d.outcome := by
  unfold DiskState.ataReadSectors
  split
  · cases d.nextOutcome with
    | done => exact ⟨rfl, rfl, rfl⟩
    | failed garbage => exact ⟨rfl, rfl, rfl⟩
  · exact ⟨rfl, rfl, rfl⟩

section Turn

variable {host : Host Kernel} {disk : IdentifyDeviceData} {cur : Nat}
  (ho : Obliging host disk cur) (hid : Identified disk) (hnum : cur < 4)
  (hlba : isLbaSupported disk = true) {k : Kernel} (hk : Serving disk cur k)

include hid hnum hlba hk

theorem Serving.accepts_iff (lba count : Nat) :
    ataAccepts k.disk cur lba count = true ↔ lba + sectorsOf count ≤ disk.totalSectors := by
  have hdisk := hk.disk_eq
  have hid' : Identified (k.disk.disks cur) := by rw [hdisk]; exact hid
  rw [ataAccepts_identified hid', hdisk]
  constructor
  · rintro ⟨_, _, hle⟩
    exact hle
  · intro hle
    exact ⟨hnum, hlba, hle⟩

include ho

/-- A write succeeds when its sectors are there. -/
theorem writeSectors_served (lba count : Nat) (buffer : ByteStore) :
    ∃ r k', host.writeSectors cur lba count buffer k = .ok (r, k') ∧ Serving disk cur k' ∧
      (r = true ↔ lba + sectorsOf count ≤ disk.totalSectors) := by
  obtain ⟨hdisks, hcur, hout⟩ := ataWriteSectors_kept k.disk cur lba count buffer
  have hmoves := (ataWriteSectors_moves k.disk cur lba count buffer).1
  refine ⟨_, _, by rw [Host.writeSectors, ho.disk], ?_, ?_⟩
  · refine ⟨?_, ?_, fun i => ?_⟩
    · rw [ho.setDisk, hcur, hk.cur_eq]
    · rw [ho.setDisk, hdisks, hk.disk_eq]
    · rw [ho.setDisk, hout]
      exact hk.done i
  · rw [hmoves, hk.accepts_iff hid hnum hlba]
    exact and_iff_left (hk.done _)

theorem readSectors_served (lba count : Nat) (buffer : ByteStore) :
    ∃ r k', host.readSectors cur lba count buffer k = .ok (r, k') ∧ Serving disk cur k' ∧
      (r.1 = true ↔ lba + sectorsOf count ≤ disk.totalSectors) := by
  obtain ⟨hdisks, hcur, hout⟩ := ataReadSectors_kept k.disk cur lba count buffer
  have hmoves := (ataReadSectors_moves k.disk cur lba count buffer).1
  refine ⟨_, _, by rw [Host.readSectors, ho.disk], ?_, ?_⟩
  · refine ⟨?_, ?_, fun i => ?_⟩
    · rw [ho.setDisk, hcur, hk.cur_eq]
    · rw [ho.setDisk, hdisks, hk.disk_eq]
    · rw [ho.setDisk, hout]
      exact hk.done i
  · rw [hmoves, hk.accepts_iff hid hnum hlba]
    exact and_iff_left (hk.done _)

/-- The last sector is written when it is there. -/
theorem diskWriteLast_served {sectorSize len lba start : Nat} (hrem : len % sectorSize ≠ 0)
    (hstart : start < len) (buffer : ByteStore) :
    ∃ n k', diskWriteLast host cur sectorSize len lba start buffer k = .ok (n, k') ∧
      Serving disk cur k' ∧ (n = len ↔ lba + 1 ≤ disk.totalSectors) := by
  have hone : sectorsOf 1 = 1 := rfl
  obtain ⟨p, k₁, hkm, hp, hk₁⟩ := ho.kmalloc sectorSize k hk
  obtain ⟨bytes, k₂, hstale, hk₂⟩ := ho.stale p k₁ hk₁
  obtain ⟨r, k₃, hread, hk₃, hr⟩ := readSectors_served ho hid hnum hlba hk₂ lba 1 bytes
  rw [hone] at hr
  rw [diskWriteLast, if_neg hrem, Prog.bind_of_ok hkm, if_neg hp, Prog.bind_of_ok hstale,
    Prog.bind_of_ok hread]
  by_cases hin : lba + 1 ≤ disk.totalSectors
  · obtain ⟨data, k₄, hfetch, hk₄⟩ := ho.fetch buffer k₃ hk₃
    obtain ⟨written, k₅, hwrite, hk₅, hw⟩ := writeSectors_served ho hid hnum hlba hk₄ lba 1
      (r.2.copy 0 data start (len % sectorSize))
    obtain ⟨k₆, hfree, hk₆⟩ := ho.kfree p k₅ hk₅
    obtain rfl : written = true := hw.mpr hin
    refine ⟨len, k₆, ?_, hk₆, iff_of_true rfl hin⟩
    rw [hr.mpr hin, if_neg (by decide), Prog.bind_of_ok hfetch, Prog.bind_of_ok hwrite,
      if_neg (by decide), Prog.bind_of_ok hfree]
    rfl
  · refine ⟨start, k₃, ?_, hk₃, iff_of_false (Nat.ne_of_lt hstart) hin⟩
    rw [if_pos (Bool.eq_false_iff.mpr (mt hr.mp hin))]
    rfl

/-- A write is complete when all its sectors are there. -/
theorem diskWriteLoop_served {sectorSize len : Nat} (hpos : 0 < sectorSize) (hlen : len < 2 ^ 32)
    (lba start sectors : Nat) (buffer : ByteStore)
    (hstart : start + sectors * sectorSize + len % sectorSize = len) (hlenpos : start < len) :
    ∃ n k', diskWriteLoop host cur sectorSize len lba start sectors buffer k = .ok (n, k') ∧
      Serving disk cur k' ∧ (n = len ↔
        lba + sectors + (if len % sectorSize = 0 then 0 else 1) ≤ disk.totalSectors) := by
  induction sectors using Nat.strongRecOn generalizing k lba start with
  | ind sectors ih =>
  rw [diskWriteLoop]
  by_cases hzero : sectors = 0
  · subst hzero
    have hrem : len % sectorSize ≠ 0 := by omega
    rw [if_pos rfl, if_neg hrem, Nat.add_zero]
    exact diskWriteLast_served ho hid hnum hlba hk hrem hlenpos buffer
  obtain ⟨xfer, hx⟩ : ∃ xfer, sectorsOf (sectorsThisCall sectors) = xfer := ⟨_, rfl⟩
  have hxfer := sectorsOf_sectorsThisCall hzero
  have htotal := disk.totalSectors_lt
  rw [hx] at hxfer
  have hsplit : sectors * sectorSize = xfer * sectorSize + (sectors - xfer) * sectorSize := by
    rw [← Nat.add_mul]
    congr 1
    omega
  obtain ⟨p, k₁, hkm, hp, hk₁⟩ := ho.kmalloc (u32 (xfer * sectorSize)) k hk
  obtain ⟨bytes, k₂, hstale, hk₂⟩ := ho.stale p k₁ hk₁
  obtain ⟨data, kf, hfetch, hkf⟩ := ho.fetch buffer k₂ hk₂
  obtain ⟨written, k₃, hwrite, hk₃, hw⟩ := writeSectors_served ho hid hnum hlba hkf lba
    (sectorsThisCall sectors) ((bytes.fill 0 0 (u32 (xfer * sectorSize))).copy 0 data start
      (u32 (xfer * sectorSize)))
  obtain ⟨k₄, hfree, hk₄⟩ := ho.kfree p k₃ hk₃
  rw [hx] at hw
  rw [if_neg hzero, hx, Prog.bind_of_ok hkm, if_neg hp, Prog.bind_of_ok hstale,
    Prog.bind_of_ok hfetch, Prog.bind_of_ok hwrite]
  by_cases hin : lba + xfer ≤ disk.totalSectors
  · obtain rfl : written = true := hw.mpr hin
    have hbytes : u32 (xfer * sectorSize) = xfer * sectorSize := u32_of_lt (by omega)
    have hnext : u32 (start + xfer * sectorSize) = start + xfer * sectorSize :=
      u32_of_lt (by omega)
    have hlba' : u32 (lba + xfer) = lba + xfer := u32_of_lt (by omega)
    rw [if_neg (by decide), Prog.bind_of_ok hfree, hbytes, hnext, hlba']
    by_cases hend : start + xfer * sectorSize = len
    · -- the last chunk, and no partial sector
      have hrem : len % sectorSize = 0 := by omega
      have hmore : (sectors - xfer) * sectorSize = 0 := by omega
      have hnone : sectors - xfer = 0 := by
        rcases Nat.mul_eq_zero.mp hmore with h | h
        · exact h
        · exact absurd h (Nat.ne_of_gt hpos)
      refine ⟨len, k₄, ?_, hk₄, iff_of_true rfl (by rw [if_pos hrem]; omega)⟩
      rw [hnone, diskWriteLoop, if_pos rfl, diskWriteLast, if_pos hrem]
      rfl
    · have hstart' : start + xfer * sectorSize + (sectors - xfer) * sectorSize +
          len % sectorSize = len := by omega
      obtain ⟨n, k', hrun, hk', hiff⟩ := ih (sectors - xfer) (by omega) hk₄ (lba + xfer)
        (start + xfer * sectorSize) hstart' (by omega)
      refine ⟨n, k', hrun, hk', hiff.trans ?_⟩
      rw [show lba + xfer + (sectors - xfer) = lba + sectors by omega]
  · obtain rfl : written = false := Bool.eq_false_iff.mpr (mt hw.mp hin)
    refine ⟨start, k₄, ?_, hk₄, iff_of_false (Nat.ne_of_lt hlenpos) (by omega)⟩
    rw [if_pos rfl, Prog.bind_of_ok hfree]
    rfl

/-- A page is written when its sectors are there. -/
theorem diskWrite_served (hsize : disk.logicalSectorSize ≠ 0) (slot : Nat) (page : ByteStore) :
    ∃ n k', diskWrite host slot page pageSize k = .ok (n, k') ∧ Serving disk cur k' ∧
      (n = pageSize ↔ slot + pageSectors disk.logicalSectorSize ≤ disk.totalSectors) := by
  have hpos := Nat.pos_of_ne_zero hsize
  obtain ⟨n, k', hrun, hk', hiff⟩ := diskWriteLoop_served ho hid hnum hlba hk hpos
    (show pageSize < 2 ^ 32 by decide) slot 0 (pageSize / disk.logicalSectorSize) page
    (by rw [Nat.zero_add]; exact Nat.div_add_mod' _ _) (by decide)
  refine ⟨n, k', ?_, hk', ?_⟩
  · rw [← hrun, diskWrite, Prog.get_bind_apply, ho.disk, hk.cur_eq, hk.disk_eq, hid.valid,
      if_neg (by decide), if_neg hsize]
  · rw [hiff, pageSectors, sectors_needed _ _ hpos, Nat.add_assoc]

end Turn

section Loop

variable {host : Nat → Nat → Host Kernel} {disk : IdentifyDeviceData} {cur : Nat}
  (ho : ∀ n frame, Obliging (host n frame) disk cur) (hid : Identified disk) (hnum : cur < 4)
  (hlba : isLbaSupported disk = true) (hsize : disk.logicalSectorSize ≠ 0)

include ho hid hnum hlba hsize

/-- The loop ends when the page's sectors are there, after the first turn. -/
theorem swapWriteLoop_ends_iff (slot frame : Nat) {k : Kernel} (hk : Serving disk cur k) :
    (∃ fuel k', swapWriteLoop host slot frame fuel k = .ok ((), k')) ↔
      slot + pageSectors disk.logicalSectorSize ≤ disk.totalSectors := by
  constructor
  · rintro ⟨fuel, k', hrun⟩
    -- a turn that is refused leaves the loop where it was
    induction fuel generalizing k with
    | zero => cases hrun
    | succ fuel ih =>
        obtain ⟨n, k₂, hwrite, hk₂, hn⟩ :=
          diskWrite_served (ho fuel frame) hid hnum hlba hk hsize slot inMemory
        rw [swapWriteLoop, Prog.bind_of_ok hwrite] at hrun
        by_cases hdone : n = pageSize
        · exact hn.mp hdone
        · rw [if_neg hdone] at hrun
          exact ih hk₂ hrun
  · intro hin
    obtain ⟨n, k₂, hwrite, _, hn⟩ :=
      diskWrite_served (ho 0 frame) hid hnum hlba hk hsize slot inMemory
    refine ⟨1, k₂, ?_⟩
    rw [swapWriteLoop, Prog.bind_of_ok hwrite, if_pos (hn.mpr hin)]
    rfl

end Loop

/-- A run of slots for a page is found, lies inside the drive, and the loop over it
ends. -/
def SwapWriteEnds (host : Nat → Nat → Host Kernel) (disk : IdentifyDeviceData)
    (frame : Nat) (k : Kernel) : Prop :=
  ∀ slot k₁, diskAllocSlotsForPage k = .ok (slot, k₁) → slot ≠ diskNoSlotAvailable →
    slot + sectorAmount disk.logicalSectorSize ≤ disk.totalSectors ∧
      ∃ fuel k₂, swapWriteLoop host slot frame fuel k₁ = .ok ((), k₂)

/-- The count passed is at most the slots a page needs. -/
theorem sectorAmount_le {sectorSize : Nat} (hpos : 0 < sectorSize) :
    sectorAmount sectorSize ≤ pageSectors sectorSize := by
  rw [pageSectors, sectors_needed _ _ hpos, sectorAmount]
  refine Nat.le_trans (Nat.mod_le _ _) ?_
  by_cases hrem : pageSize % sectorSize = 0
  · simp [hrem]
  · simp [hrem]

/-- **The end of the retry loop.** With an identified drive on which nothing fails, and
after any sequence of slot calls: the run found for a page lies inside the drive and the
loop of `vmm_swap_out_page` ends, if and only if the first free run in the order of the
search leaves room for a page on the drive. -/
theorem swap_write_ends_iff {host : Nat → Nat → Host Kernel} {disk : IdentifyDeviceData}
    {cur : Nat} (ho : ∀ n frame, Obliging (host n frame) disk cur)
    (hid : Identified disk) (hnum : cur < 4) (hlba : isLbaSupported disk = true) {k : Kernel}
    (hk : Serving disk cur k) (hslots : slotSys.Reachable k.slots) (frame : Nat) :
    SwapWriteEnds host disk frame k ↔
      (disk.logicalSectorSize ≠ 0 → sectorAmount disk.logicalSectorSize ≠ 0 →
        ∀ s, FirstRun k.slots (sectorAmount disk.logicalSectorSize) s →
          s + pageSectors disk.logicalSectorSize ≤ disk.totalSectors) := by
  have hlast := slotSys_inductive.invariant _ hslots
  have hdisk : diskSectorSize k = disk.logicalSectorSize := by
    rw [diskSectorSize, hk.cur_eq, hk.disk_eq]
  have hn : sectorAmount disk.logicalSectorSize ≤ 255 :=
    Nat.le_of_lt_succ (Nat.mod_lt _ (by decide))
  constructor
  · intro hends hsize hamount s hfirst
    have hpos := Nat.pos_of_ne_zero hamount
    have halloc := @diskAllocSlotsForPage_eq k (by rw [hdisk]; exact hsize)
    rw [Kernel.pageSlots, hdisk] at halloc
    have hfound : (k.slots.diskAllocSlots (sectorAmount disk.logicalSectorSize)).1 ≠
        diskNoSlotAvailable := fun hnone =>
      diskAllocSlots_none hlast hpos (by omega) hnone s hfirst.1
    obtain ⟨_, hloop⟩ := hends _ _ halloc hfound
    obtain rfl := FirstRun.unique hpos hn hfirst
      (diskAllocSlots_first hlast hpos hn hfound)
    exact (swapWriteLoop_ends_iff ho hid hnum hlba hsize _ frame (hk.slotsTaken _)).mp hloop
  · intro hroom slot k₁ halloc hfound
    have hsize : disk.logicalSectorSize ≠ 0 := hdisk ▸ sectorSize_ne_of_alloc halloc
    rw [diskAllocSlotsForPage_eq (by rw [hdisk]; exact hsize), Kernel.pageSlots, hdisk] at halloc
    cases halloc
    have hamount : sectorAmount disk.logicalSectorSize ≠ 0 := by
      intro hzero
      rw [hzero, DiskSlots.diskAllocSlots, if_pos rfl] at hfound
      exact hfound rfl
    have hpos := Nat.pos_of_ne_zero hamount
    have hin := hroom hsize hamount _ (diskAllocSlots_first hlast hpos hn hfound)
    have hle := sectorAmount_le (Nat.pos_of_ne_zero hsize)
    refine ⟨by omega, ?_⟩
    exact (swapWriteLoop_ends_iff ho hid hnum hlba hsize _ frame (hk.slotsTaken _)).mpr hin

/-! ## A small drive -/

/-- A drive of `n` 512-byte sectors. -/
def fewSectors (n : BitVec 16) : IdentifyDeviceData :=
  identifiedData (fun i => if i = 49 then 0x200#16 else if i = 60 then n else 0#16) masterDrive

def fewSectorsKernel (n : BitVec 16) : Kernel :=
  { Kernel.ofWords 0x100000 [] with
      disk := ⟨fun _ => fewSectors n, 0, fun _ _ => 0#8, fun _ => lba28, fun _ => .done, 0,
        ⟨0, 0, 0, 0, 0⟩⟩ }

/-- Accesses that fault are answered in place. -/
def plentyExt : Ext := { link 0 with fault := fun v => pure v }

/-- A heap that always has a block. -/
def plentyHost (frame : Nat) : Host Kernel :=
  { diskHost plentyExt frame with
    kmalloc := fun _ => pure 1
    kfree := fun _ => pure () }

theorem plenty_obliging (disk : IdentifyDeviceData) (cur frame : Nat) :
    Obliging (plentyHost frame) disk cur where
  kmalloc _ k hk := ⟨1, k, rfl, by decide, hk⟩
  kfree _ k hk := ⟨k, rfl, hk⟩
  stale _ k hk := ⟨_, k, rfl, hk⟩
  fetch buffer k hk := by
    have hresolve : ∃ p, resolve plentyExt frame k = .ok (p, k) := by
      rw [resolve, Prog.get_bind_apply]
      cases k.translate frame with
      | some p => exact ⟨p, rfl⟩
      | none => exact ⟨frame, rfl⟩
    obtain ⟨p, hp⟩ := hresolve
    exact ⟨_, k, Prog.bind_of_ok hp, hk⟩
  disk _ := rfl
  setDisk _ _ := rfl

theorem fewSectors_identified (n : BitVec 16) : Identified (fewSectors n) :=
  identified_iff.mpr ⟨_, _, rfl⟩

theorem fewSectors_serving (n : BitVec 16) : Serving (fewSectors n) 0 (fewSectorsKernel n) :=
  ⟨rfl, rfl, fun _ => rfl⟩

/-- The first run on the fresh map. -/
theorem boot_firstRun : FirstRun DiskSlots.boot 8 8 := by
  have hfree (j : Nat) : DiskSlots.boot.diskBitmap.bit j = false := by
    simp [DiskSlots.boot, Bitmap.bit]
  have hlast : DiskSlots.boot.lastAllocIndex = 1 := rfl
  refine ⟨⟨by decide, fun j _ _ => hfree j⟩, fun s' _ => ?_⟩
  have hsize : diskBitmapSize = 100000 := rfl
  by_cases hs' : s' < DiskSlots.boot.lastAllocIndex * 8
  · rw [searchOrder, searchOrder, if_neg (by decide), if_pos hs']
    omega
  · rw [searchOrder, searchOrder, if_neg (by decide), if_neg hs']
    omega

/-- The first page swapped out goes to the second eight sectors, so a drive of sixteen is
large enough and one of eight is not. -/
theorem swap_write_ends_few :
    SwapWriteEnds (fun _ => plentyHost) (fewSectors 16#16) 0x8000
        (fewSectorsKernel 16#16) ∧
      ¬ SwapWriteEnds (fun _ => plentyHost) (fewSectors 8#16) 0x8000
        (fewSectorsKernel 8#16) := by
  constructor
  · refine (swap_write_ends_iff (fun _ => plenty_obliging (fewSectors 16#16) 0)
      (fewSectors_identified _) (by decide) (by decide) (fewSectors_serving _) (.init rfl)
      0x8000).mpr fun _ _ s hs => ?_
    obtain rfl := FirstRun.unique (by decide) (by decide) hs boot_firstRun
    decide
  · intro hends
    have hroom := (swap_write_ends_iff (fun _ => plenty_obliging (fewSectors 8#16) 0)
      (fewSectors_identified _) (by decide) (by decide) (fewSectors_serving _) (.init rfl)
      0x8000).mp hends
    exact absurd (hroom (by decide) (by decide) 8 boot_firstRun) (by decide)

/-- The loop over that run never ends. -/
theorem swap_write_never_ends : ¬ ∀ (disk : IdentifyDeviceData) (cur : Nat) (k : Kernel),
    Identified disk → cur < 4 → isLbaSupported disk = true → Serving disk cur k →
      slotSys.Reachable k.slots → ∀ frame,
        SwapWriteEnds (fun _ => plentyHost) disk frame k := by
  intro hall
  have hslot : (DiskSlots.boot.diskAllocSlots 8).1 = 8 :=
    FirstRun.unique (d := DiskSlots.boot) (n := 8) (by decide) (by decide)
      (diskAllocSlots_first (by decide) (by decide) (by decide) fun hnone =>
        diskAllocSlots_none (by decide) (by decide) (by decide) hnone 8 boot_firstRun.1)
      boot_firstRun
  have halloc := @diskAllocSlotsForPage_eq (fewSectorsKernel 8#16) (by decide)
  have hends := hall (fewSectors 8#16) 0 (fewSectorsKernel 8#16) (fewSectors_identified _)
    (by decide) (by decide) (fewSectors_serving _) (.init rfl) 0x8000 _ _ halloc
  have hslot' : ((fewSectorsKernel 8#16).slots.diskAllocSlots
      (fewSectorsKernel 8#16).pageSlots).1 = 8 := hslot
  rw [hslot'] at hends
  have hin := (hends (by decide)).1
  exact absurd hin (by decide)

end MyOs
