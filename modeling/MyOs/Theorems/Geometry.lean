import MyOs.Drivers.Identify
import MyOs.Logic.BufferLedger
import MyOs.Memory.Vmm

/-!
# The sector size a drive reports

`identify_drive` takes the logical sector size from the drive unchecked. A size
of 0 is divided by, and a size below 17 makes the slots of a page more than a
`uint8_t` counts; from 17 on everything computed with it is in range.
-/

namespace MyOs

open Prog

/-! ## The transfers return -/

section Returning

variable {σ : Type} {h : Host σ}

/-- The heap calls and the accesses to the buffer return. -/
structure Host.Answers (h : Host σ) : Prop where
  kmalloc : ∀ size, Returns (h.kmalloc size)
  kfree : ∀ p, Returns (h.kfree p)
  stale : ∀ p, Returns (h.stale p)
  fetch : ∀ buffer, Returns (h.fetch buffer)
  deliver : ∀ pos n src, Returns (h.deliver pos n src)

variable (hans : h.Answers)

include hans

theorem diskReadLoop_returns (cur sectorSize len addr start sectors : Nat) (buffer : ByteStore) :
    Returns (diskReadLoop h cur sectorSize len addr start sectors buffer) := by
  induction sectors using Nat.strongRecOn generalizing addr start buffer with
  | ind sectors ih =>
  rw [diskReadLoop]
  refine Returns.ite (fun _ => Returns.pure _) fun hzero => ?_
  have hxfer := sectorsOf_sectorsThisCall hzero
  refine Returns.bind (hans.kmalloc _) fun p => Returns.ite (fun _ => Returns.pure _) fun _ => ?_
  refine Returns.bind (hans.stale p) fun _ => Returns.bind (fun _ => ⟨_, rfl⟩) fun r => ?_
  refine Returns.ite (fun _ => ?_) fun _ => ?_
  · exact Returns.bind (hans.kfree p) fun _ => Returns.pure _
  · refine Returns.bind (hans.deliver _ _ _) fun _ => ?_
    exact Returns.bind (hans.kfree p) fun _ => ih _ (by omega) _ _ _

theorem diskWriteLast_returns (cur sectorSize len lba start : Nat) (buffer : ByteStore) :
    Returns (diskWriteLast h cur sectorSize len lba start buffer) := by
  rw [diskWriteLast]
  refine Returns.ite (fun _ => Returns.pure _) fun _ => ?_
  refine Returns.bind (hans.kmalloc _) fun p => Returns.ite (fun _ => Returns.pure _) fun _ => ?_
  refine Returns.bind (hans.stale p) fun _ => Returns.bind (fun _ => ⟨_, rfl⟩) fun r => ?_
  refine Returns.ite (fun _ => Returns.pure _) fun _ => ?_
  refine Returns.bind (hans.fetch _) fun _ => ?_
  refine Returns.bind (fun _ => ⟨_, rfl⟩) fun _ => Returns.ite (fun _ => Returns.pure _) fun _ => ?_
  exact Returns.bind (hans.kfree p) fun _ => Returns.pure _

theorem diskWriteLoop_returns (cur sectorSize len lba start sectors : Nat) (buffer : ByteStore) :
    Returns (diskWriteLoop h cur sectorSize len lba start sectors buffer) := by
  induction sectors using Nat.strongRecOn generalizing lba start buffer with
  | ind sectors ih =>
  rw [diskWriteLoop]
  refine Returns.ite (fun _ => diskWriteLast_returns hans _ _ _ _ _ _) fun hzero => ?_
  have hxfer := sectorsOf_sectorsThisCall hzero
  refine Returns.bind (hans.kmalloc _) fun p => Returns.ite (fun _ => Returns.pure _) fun _ => ?_
  refine Returns.bind (hans.stale p) fun _ => Returns.bind (hans.fetch _) fun _ => ?_
  refine Returns.bind (fun _ => ⟨_, rfl⟩) fun r => ?_
  refine Returns.ite (fun _ => ?_) fun _ => ?_
  · exact Returns.bind (hans.kfree p) fun _ => Returns.pure _
  · exact Returns.bind (hans.kfree p) fun _ => ih _ (by omega) _ _ _

/-- On a disk whose sectors have a size `disk_read` returns. -/
theorem diskRead_returns {s : σ} (hsize : (h.disk s).curr.logicalSectorSize ≠ 0) (addr : Nat)
    (buffer : ByteStore) (len : Nat) : ∃ r, diskRead h addr buffer len s = .ok r := by
  rw [diskRead, get_bind_apply]
  refine Returns.ite (fun _ => Returns.pure _) (fun _ => ?_) s
  exact Returns.ite (fun hzero => absurd hzero hsize) fun _ =>
    diskReadLoop_returns hans _ _ _ _ _ _ _

/-- And so does `disk_write`. -/
theorem diskWrite_returns {s : σ} (hsize : (h.disk s).curr.logicalSectorSize ≠ 0) (lba : Nat)
    (buffer : ByteStore) (len : Nat) : ∃ r, diskWrite h lba buffer len s = .ok r := by
  rw [diskWrite, get_bind_apply]
  refine Returns.ite (fun _ => Returns.pure _) (fun _ => ?_) s
  exact Returns.ite (fun hzero => absurd hzero hsize) fun _ =>
    diskWriteLoop_returns hans _ _ _ _ _ _ _

end Returning

namespace DiskMachine

theorem host_answers : host.Answers where
  kmalloc size m := by
    cases hok : m.allocOk m.allocs with
    | true => exact ⟨_, by simp only [host, kmalloc, hok, if_true]; rfl⟩
    | false => exact ⟨_, by simp only [host, kmalloc, hok]; rfl⟩
  kfree _ _ := ⟨_, rfl⟩
  stale _ _ := ⟨_, rfl⟩
  fetch _ _ := ⟨_, rfl⟩
  deliver _ _ _ _ := ⟨_, rfl⟩

/-! ## The buffers are large enough -/

/-- A call left the disk as it was, or sent the request `t` to it. -/
inductive Sent (d : DiskState) (t : TaskFile) : DiskState → Prop
  | no : Sent d t d
  | yes {d'} : d'.disks = d.disks → d'.currDisk = d.currDisk → d'.regs = t → Sent d t d'

theorem ataReadSectors_sent (d : DiskState) (diskNum lba count : Nat) (buffer : ByteStore) :
    Sent d (taskFile (d.disks diskNum) lba count)
      (d.ataReadSectors diskNum lba count buffer).2 := by
  unfold DiskState.ataReadSectors
  split
  · cases d.nextOutcome with
    | done => exact .yes rfl rfl rfl
    | failed garbage => exact .yes rfl rfl rfl
  · exact .no

theorem ataWriteSectors_sent (d : DiskState) (diskNum lba count : Nat) (buffer : ByteStore) :
    Sent d (taskFile (d.disks diskNum) lba count)
      (d.ataWriteSectors diskNum lba count buffer).2 := by
  unfold DiskState.ataWriteSectors
  split
  · cases d.nextOutcome with
    | done => exact .yes rfl rfl rfl
    | failed garbage => exact .yes rfl rfl rfl
  · exact .no

/-- Every command so far fitted its buffer, and the current disk is this one. -/
structure Fitting (disk : IdentifyDeviceData) (t : DiskMachine × Ledger) : Prop where
  curr : t.1.disk.curr = disk
  fits : t.2.fits = true

/-- And the latest buffer has this size. -/
structure Buffered (disk : IdentifyDeviceData) (size : Nat) (t : DiskMachine × Ledger) : Prop
    extends Fitting disk t where
  latest : ∃ p, t.2.obtained.head? = some (p, size)

variable {disk : IdentifyDeviceData}

theorem kmalloc_fitting (size : Nat) :
    Triple (Fitting disk) (host.audited.kmalloc size) fun p t =>
      Fitting disk t ∧ (p ≠ 0 → Buffered disk size t) := by
  show Triple _ (recorded (host.kmalloc size) fun p l => l.obtain p size) _
  refine recorded_triple fun m l hfit p m' hrun => ?_
  have hdisk : m'.disk = m.disk := by
    rcases kmalloc_cases m size with ⟨_, _, hk, _, _, hd⟩ | ⟨_, hk, _, hd⟩
    all_goals
      cases hrun.symm.trans hk
      exact hd
  have hfits : (l.obtain p size).fits = true := by
    unfold Ledger.obtain
    split
    · exact hfit.fits
    · exact hfit.fits
  have hnow : Fitting disk (m', l.obtain p size) := ⟨by rw [hdisk]; exact hfit.curr, hfits⟩
  refine ⟨hnow, fun hp => ⟨hnow, p, ?_⟩⟩
  rw [Ledger.obtain, if_neg hp]
  rfl

theorem stale_fitting (p size : Nat) :
    Triple (Buffered disk size) (host.audited.stale p) fun _ => Buffered disk size := by
  show Triple _ (recorded (host.stale p) fun _ l => l) _
  refine recorded_triple fun m l hbuf b m' hrun => ?_
  cases hrun
  exact hbuf

theorem fetch_fitting (buffer : ByteStore) (size : Nat) :
    Triple (Buffered disk size) (host.audited.fetch buffer) fun _ => Buffered disk size := by
  show Triple _ (recorded (host.fetch buffer) fun _ l => l) _
  refine recorded_triple fun m l hbuf b m' hrun => ?_
  cases hrun
  exact hbuf

theorem deliver_fitting (pos n : Nat) (src : ByteStore) (size : Nat) :
    Triple (Buffered disk size) (host.audited.deliver pos n src) fun _ => Buffered disk size := by
  show Triple _ (recorded (host.deliver pos n src) fun _ l => l) _
  refine recorded_triple fun m l hbuf b m' hrun => ?_
  cases hrun
  exact hbuf

theorem kfree_fitting (p size : Nat) :
    Triple (Buffered disk size) (host.audited.kfree p) fun _ => Fitting disk := by
  show Triple _ (recorded (host.kfree p) fun _ l => { l with freed := p :: l.freed }) _
  refine recorded_triple fun m l hbuf b m' hrun => ?_
  cases hrun
  exact ⟨hbuf.curr, hbuf.fits⟩

/-- A request that moves at most the size of the buffer. -/
theorem Buffered.sent {m : DiskMachine} {l : Ledger} {size cur lba count : Nat} {d' : DiskState}
    (h : Buffered disk size (m, l)) (hcount : count < 256)
    (hle : sectorsOf count * (disk.logicalSectorSize / 2 * 2) ≤ size)
    (hsent : Sent m.disk (taskFile (m.disk.disks cur) lba count) d') :
    Buffered disk size ({ m with disk := d' }, l.command m.disk d') := by
  obtain ⟨p, hhead⟩ := h.latest
  have hobtained := l.command_obtained m.disk d'
  have hlatest : ∃ p, (l.command m.disk d').obtained.head? = some (p, size) :=
    ⟨p, by rw [hobtained]; exact hhead⟩
  cases hsent with
  | no => exact ⟨⟨h.curr, by rw [Ledger.command, if_pos rfl]; exact h.fits⟩, hlatest⟩
  | yes hdisks hcurr hregs =>
      have hdisk : d'.curr = disk := by
        rw [← h.curr, DiskState.curr, hdisks, hcurr]
        rfl
      refine ⟨⟨hdisk, ?_⟩, hlatest⟩
      have hmoved : d'.moved = sectorsOf count * (disk.logicalSectorSize / 2 * 2) := by
        rw [DiskState.moved, hregs, hdisk, taskFile, BitVec.toNat_ofNat, Nat.mod_eq_of_lt hcount]
      have hfits : l.fits = true := h.fits
      have hhead' : l.obtained.head? = some (p, size) := hhead
      rw [Ledger.command]
      split
      · exact hfits
      · simp [hfits, hhead', hmoved, hle]

theorem readSectors_fitting {size count : Nat} (cur lba : Nat) (buffer : ByteStore)
    (hcount : count < 256) (hle : sectorsOf count * (disk.logicalSectorSize / 2 * 2) ≤ size) :
    Triple (Buffered disk size) (host.audited.readSectors cur lba count buffer)
      fun _ => Buffered disk size := by
  rintro ⟨m, l⟩ hbuf r t hrun
  cases hrun
  exact hbuf.sent hcount hle (ataReadSectors_sent m.disk cur lba count buffer)

theorem writeSectors_fitting {size count : Nat} (cur lba : Nat) (buffer : ByteStore)
    (hcount : count < 256) (hle : sectorsOf count * (disk.logicalSectorSize / 2 * 2) ≤ size) :
    Triple (Buffered disk size) (host.audited.writeSectors cur lba count buffer)
      fun _ => Buffered disk size := by
  rintro ⟨m, l⟩ hbuf r t hrun
  cases hrun
  exact hbuf.sent hcount hle (ataWriteSectors_sent m.disk cur lba count buffer)

/-- The words of whole sectors are at most their bytes. -/
theorem words_le (sectors sectorSize : Nat) :
    sectors * (sectorSize / 2 * 2) ≤ sectors * sectorSize :=
  Nat.mul_le_mul_left _ (Nat.div_mul_le_self _ _)

/-- A chunk's buffer is not truncated when the whole request is below 2 ^ 32. -/
theorem chunk_fits {sectors sectorSize : Nat} (hzero : sectors ≠ 0)
    (hlt : sectors * sectorSize < 2 ^ 32) :
    sectorsOf (sectorsThisCall sectors) * (sectorSize / 2 * 2) ≤
      u32 (sectorsOf (sectorsThisCall sectors) * sectorSize) := by
  have hxfer := sectorsOf_sectorsThisCall hzero
  have hle : sectorsOf (sectorsThisCall sectors) * sectorSize ≤ sectors * sectorSize :=
    Nat.mul_le_mul_right _ (by omega)
  rw [u32_of_lt (by omega)]
  exact words_le _ _

theorem sectorsThisCall_lt (sectors : Nat) : sectorsThisCall sectors < 256 := by
  have hmax : maxSectorsPerCallSize = 256 := rfl
  unfold sectorsThisCall
  split
  · decide
  · omega

theorem diskReadLoop_fitting (cur len addr start : Nat) {sectors : Nat}
    (hlt : sectors * disk.logicalSectorSize < 2 ^ 32) (buffer : ByteStore) :
    Triple (Fitting disk)
      (diskReadLoop host.audited cur disk.logicalSectorSize len addr start sectors buffer)
      fun _ => Fitting disk := by
  induction sectors using Nat.strongRecOn generalizing addr start buffer with
  | ind sectors ih =>
  rw [diskReadLoop]
  refine Triple.ite (fun _ => Triple.pure fun _ hfit => hfit) fun hzero => ?_
  have hxfer := sectorsOf_sectorsThisCall hzero
  have hrest : (sectors - sectorsOf (sectorsThisCall sectors)) * disk.logicalSectorSize < 2 ^ 32 :=
    Nat.lt_of_le_of_lt (Nat.mul_le_mul_right _ (Nat.sub_le _ _)) hlt
  refine Triple.bind (kmalloc_fitting _) fun p => ?_
  refine Triple.ite (fun _ => Triple.pure fun _ hp => hp.1) fun hp => ?_
  refine Triple.bind ((stale_fitting p _).weaken (fun _ hs => hs.2 hp) fun _ _ hs => hs) fun _ => ?_
  refine Triple.bind (readSectors_fitting _ _ _ (sectorsThisCall_lt _) (chunk_fits hzero hlt))
    fun r => Triple.ite (fun _ => ?_) fun _ => ?_
  · exact Triple.bind (kfree_fitting p _) fun _ => Triple.pure fun _ hfit => hfit
  · refine Triple.bind (deliver_fitting _ _ _ _) fun _ => ?_
    exact Triple.bind (kfree_fitting p _) fun _ => ih _ (by omega) _ _ hrest _

theorem diskWriteLast_fitting (cur len lba start : Nat) (buffer : ByteStore) :
    Triple (Fitting disk)
      (diskWriteLast host.audited cur disk.logicalSectorSize len lba start buffer)
      fun _ => Fitting disk := by
  have hone : sectorsOf 1 * (disk.logicalSectorSize / 2 * 2) ≤ disk.logicalSectorSize := by
    have := words_le 1 disk.logicalSectorSize
    rwa [Nat.one_mul disk.logicalSectorSize] at this
  rw [diskWriteLast]
  refine Triple.ite (fun _ => Triple.pure fun _ hfit => hfit) fun _ => ?_
  refine Triple.bind (kmalloc_fitting _) fun p => ?_
  refine Triple.ite (fun _ => Triple.pure fun _ hp => hp.1) fun hp => ?_
  refine Triple.bind ((stale_fitting p _).weaken (fun _ hs => hs.2 hp) fun _ _ hs => hs) fun _ => ?_
  refine Triple.bind (readSectors_fitting _ _ _ (by decide) hone) fun r => ?_
  refine Triple.ite (fun _ => Triple.pure fun _ hbuf => hbuf.toFitting) fun _ => ?_
  refine Triple.bind (fetch_fitting _ _) fun _ => ?_
  refine Triple.bind (writeSectors_fitting _ _ _ (by decide) hone) fun _ => ?_
  refine Triple.ite (fun _ => Triple.pure fun _ hbuf => hbuf.toFitting) fun _ => ?_
  exact Triple.bind (kfree_fitting p _) fun _ => Triple.pure fun _ hfit => hfit

theorem diskWriteLoop_fitting (cur len lba start : Nat) {sectors : Nat}
    (hlt : sectors * disk.logicalSectorSize < 2 ^ 32) (buffer : ByteStore) :
    Triple (Fitting disk)
      (diskWriteLoop host.audited cur disk.logicalSectorSize len lba start sectors buffer)
      fun _ => Fitting disk := by
  induction sectors using Nat.strongRecOn generalizing lba start buffer with
  | ind sectors ih =>
  rw [diskWriteLoop]
  refine Triple.ite (fun _ => diskWriteLast_fitting _ _ _ _ _) fun hzero => ?_
  have hxfer := sectorsOf_sectorsThisCall hzero
  have hrest : (sectors - sectorsOf (sectorsThisCall sectors)) * disk.logicalSectorSize < 2 ^ 32 :=
    Nat.lt_of_le_of_lt (Nat.mul_le_mul_right _ (Nat.sub_le _ _)) hlt
  refine Triple.bind (kmalloc_fitting _) fun p => ?_
  refine Triple.ite (fun _ => Triple.pure fun _ hp => hp.1) fun hp => ?_
  refine Triple.bind ((stale_fitting p _).weaken (fun _ hs => hs.2 hp) fun _ _ hs => hs) fun _ => ?_
  refine Triple.bind (fetch_fitting _ _) fun _ => ?_
  refine Triple.bind (writeSectors_fitting _ _ _ (sectorsThisCall_lt _) (chunk_fits hzero hlt))
    fun r => Triple.ite (fun _ => ?_) fun _ => ?_
  · exact Triple.bind (kfree_fitting p _) fun _ => Triple.pure fun _ hfit => hfit
  · exact Triple.bind (kfree_fitting p _) fun _ => ih _ (by omega) _ _ hrest _

theorem diskRead_fitting (addr : Nat) (buffer : ByteStore) (len : Nat) :
    Triple (Fitting disk) (diskRead host.audited addr buffer len) fun _ => Fitting disk := by
  refine Triple.read fun t hfit => ?_
  refine Triple.ite (fun _ => Triple.pure fun _ hs => hs) fun _ => ?_
  refine Triple.ite (fun _ => Triple.stop) fun _ => ?_
  have hcurr : (host.audited.disk t).disks (host.audited.disk t).currDisk = disk := hfit.curr
  rw [hcurr]
  refine diskReadLoop_fitting _ _ _ _ ?_ _
  exact Nat.lt_of_le_of_lt (Nat.div_mul_le_self _ _) (u32_lt _)

theorem diskWrite_fitting (lba : Nat) (buffer : ByteStore) {len : Nat} (hlen : len < 2 ^ 32) :
    Triple (Fitting disk) (diskWrite host.audited lba buffer len) fun _ => Fitting disk := by
  refine Triple.read fun t hfit => ?_
  refine Triple.ite (fun _ => Triple.pure fun _ hs => hs) fun _ => ?_
  refine Triple.ite (fun _ => Triple.stop) fun _ => ?_
  have hcurr : (host.audited.disk t).disks (host.audited.disk t).currDisk = disk := hfit.curr
  rw [hcurr]
  refine diskWriteLoop_fitting _ _ _ _ ?_ _
  exact Nat.lt_of_le_of_lt (Nat.div_mul_le_self _ _) hlen

end DiskMachine

/-! ## The geometry -/

open DiskMachine

/-- What the driver computes with this disk current is in range. -/
structure GeometrySafe (disk : IdentifyDeviceData) : Prop where
  read_divides : ∀ m : DiskMachine, m.disk.curr = disk → ∀ addr buffer len,
    diskRead host addr buffer len m ≠ .error .divideError
  write_divides : ∀ m : DiskMachine, m.disk.curr = disk → ∀ lba buffer len,
    diskWrite host lba buffer len m ≠ .error .divideError
  alloc_divides : ∀ k : Kernel, k.disk.curr = disk →
    diskAllocSlotsForPage k ≠ .error .divideError
  /-- the count is not truncated -/
  count : sectorAmount disk.logicalSectorSize = pageSize / disk.logicalSectorSize +
    if pageSize % disk.logicalSectorSize != 0 then 1 else 0
  count_pos : 1 ≤ sectorAmount disk.logicalSectorSize
  covers : pageSize ≤ sectorAmount disk.logicalSectorSize * disk.logicalSectorSize
  read_fits : ∀ m : DiskMachine, m.disk.curr = disk → ∀ addr buffer len r t,
    diskRead host.audited addr buffer len (m, .start) = .ok (r, t) → t.2.fits = true
  write_fits : ∀ m : DiskMachine, m.disk.curr = disk → ∀ lba buffer len r t, len < 2 ^ 32 →
    diskWrite host.audited lba buffer len (m, .start) = .ok (r, t) → t.2.fits = true

/-- The sectors of a page. -/
theorem pageSectors_covers {sectorSize : Nat} (hpos : 0 < sectorSize) :
    1 ≤ (pageSize / sectorSize + if pageSize % sectorSize != 0 then 1 else 0) ∧
      pageSize ≤ (pageSize / sectorSize + if pageSize % sectorSize != 0 then 1 else 0) *
        sectorSize := by
  have hdiv := Nat.div_add_mod' pageSize sectorSize
  have hmod := Nat.mod_lt pageSize hpos
  have hcover : pageSize ≤ (pageSize / sectorSize + if pageSize % sectorSize != 0 then 1 else 0) *
      sectorSize := by
    by_cases hrem : pageSize % sectorSize = 0
    · simp only [hrem, bne_self_eq_false, Bool.false_eq_true, if_false, Nat.add_zero]
      omega
    · rw [if_pos (by simpa using hrem), Nat.succ_mul]
      omega
  refine ⟨Nat.pos_of_ne_zero fun hzero => ?_, hcover⟩
  rw [hzero, Nat.zero_mul] at hcover
  exact absurd hcover (by decide)

/-- They are few enough for a `uint8_t` from 17 bytes a sector on. -/
theorem sectorAmount_exact_iff {sectorSize : Nat} (hpos : 0 < sectorSize) :
    sectorAmount sectorSize = (pageSize / sectorSize +
      if pageSize % sectorSize != 0 then 1 else 0) ↔ 17 ≤ sectorSize := by
  have hdiv := Nat.div_add_mod' pageSize sectorSize
  have hmod := Nat.mod_lt pageSize hpos
  have hpage : pageSize = 4096 := rfl
  obtain ⟨_, hcover⟩ := pageSectors_covers hpos
  rw [sectorAmount]
  constructor
  · intro hexact
    have hlt := Nat.mod_lt (pageSize / sectorSize +
      if pageSize % sectorSize != 0 then 1 else 0) (show 0 < 2 ^ 8 by decide)
    rw [hexact] at hlt
    refine Nat.not_lt.mp fun hsmall => ?_
    have hle : (pageSize / sectorSize + if pageSize % sectorSize != 0 then 1 else 0) * sectorSize ≤
        255 * 16 := Nat.mul_le_mul (by omega) (by omega)
    omega
  · intro hlarge
    refine Nat.mod_eq_of_lt ?_
    have hquot : pageSize / sectorSize ≤ pageSize / 17 := Nat.div_le_div_left hlarge (by decide)
    have h17 : pageSize / 17 = 240 := rfl
    split <;> omega

/-- A disk is safe when its sectors have at least 17 bytes. -/
theorem geometrySafe_iff {disk : IdentifyDeviceData} :
    GeometrySafe disk ↔ 17 ≤ disk.logicalSectorSize := by
  constructor
  · intro h
    have hpos : 0 < disk.logicalSectorSize := by
      refine Nat.pos_of_ne_zero fun hzero => ?_
      have hcovers := h.covers
      rw [hzero, Nat.mul_zero] at hcovers
      exact absurd hcovers (by decide)
    exact (sectorAmount_exact_iff hpos).mp h.count
  · intro h
    have hpos : 0 < disk.logicalSectorSize := by omega
    have hne := Nat.ne_of_gt hpos
    have hexact := (sectorAmount_exact_iff hpos).mpr h
    obtain ⟨hone, hcover⟩ := pageSectors_covers hpos
    refine
      { read_divides := fun m hm addr buffer len => ?_
        write_divides := fun m hm lba buffer len => ?_
        alloc_divides := fun k hk => ?_
        count := hexact
        count_pos := by rw [hexact]; exact hone
        covers := by rw [hexact]; exact hcover
        read_fits := fun m hm addr buffer len r t hrun => ?_
        write_fits := fun m hm lba buffer len r t hlen hrun => ?_ }
    · obtain ⟨r, hrun⟩ := diskRead_returns host_answers (s := m) (by rw [disk_host, hm]; exact hne)
        addr buffer len
      rw [hrun]
      exact fun heq => by cases heq
    · obtain ⟨r, hrun⟩ := diskWrite_returns host_answers (s := m) (by rw [disk_host, hm]; exact hne)
        lba buffer len
      rw [hrun]
      exact fun heq => by cases heq
    · have hsize : diskSectorSize k ≠ 0 := by
        rw [diskSectorSize, ← DiskState.curr, hk]
        exact hne
      rw [diskAllocSlotsForPage, get_bind_apply, if_neg hsize]
      exact fun heq => by cases heq
    · exact (diskRead_fitting addr buffer len (m, .start) ⟨hm, rfl⟩ r t hrun).fits
    · exact (diskWrite_fitting lba buffer hlen (m, .start) ⟨hm, rfl⟩ r t hrun).fits

/-- The words do not claim long sectors, or claim more than eight words. -/
def SectorsLongEnough (words : IdentifyBlock) : Prop :=
  (words 106).getLsbD 14 = true → (words 106).getLsbD 12 = true →
    8 < (words 118).toNat % 2 ^ 15 * 2 ^ 16 + (words 117).toNat

/-- The size read from such words. -/
theorem sectorSize_iff (words : IdentifyBlock) :
    17 ≤ (parseLogicalSectorSize words).toNat ↔ SectorsLongEnough words := by
  unfold parseLogicalSectorSize SectorsLongEnough
  cases h14 : (words 106).getLsbD 14 with
  | false =>
      rw [if_pos rfl]
      exact iff_of_true (by decide) fun h => by cases h
  | true =>
      rw [if_neg (by decide)]
      cases h12 : (words 106).getLsbD 12 with
      | false =>
          rw [if_neg (by decide)]
          exact iff_of_true (by decide) fun _ h => by cases h
      | true =>
          have hlo := (words 117).isLt
          rw [if_pos rfl, BitVec.toNat_mul, toNat_wordPair, BitVec.toNat_ofNat]
          simp only [forall_const]
          omega

/-- **The reported geometry.** For every IDENTIFY block that is accepted, the disk's
divisions, counts and buffers are in range if and only if the block does not
report sectors of at most eight words. -/
theorem identified_geometry_safe_iff {reply : IdentifyReply} {drive : Byte}
    {data disk : IdentifyDeviceData} (h : identifyDrive reply drive data = (true, disk)) :
    GeometrySafe disk ↔ SectorsLongEnough reply.words := by
  obtain rfl := identifyDrive_ok h
  rw [geometrySafe_iff]
  exact sectorSize_iff reply.words

/-- Words that claim long sectors and give their size as 0. -/
def zeroSizeWords : IdentifyBlock := fun i =>
  if i = 49 then 0x200#16 else if i = 61 then 1#16 else if i = 106 then 0x5000#16 else 0#16

/-- Words that leave the size of a sector at 512 bytes. -/
def plainSizeWords : IdentifyBlock := fun i =>
  if i = 49 then 0x200#16 else if i = 61 then 1#16 else 0#16

/-- The drive that leaves the size is safe, the one that gives it as 0 is not. -/
theorem identified_geometry_safe_plain :
    GeometrySafe (identifiedData plainSizeWords masterDrive) ∧
      ¬ GeometrySafe (identifiedData zeroSizeWords masterDrive) := by
  constructor
  · refine (@identified_geometry_safe_iff (identifyReply plainSizeWords) masterDrive
      (identifiedData plainSizeWords masterDrive) _ rfl).mpr fun hlong _ => ?_
    exact absurd hlong (by decide)
  · intro h
    have hlong := (@identified_geometry_safe_iff (identifyReply zeroSizeWords) masterDrive
      (identifiedData zeroSizeWords masterDrive) _ rfl).mp h
    exact absurd (hlong (by decide) (by decide)) (by decide)

/-- With it the first read divides by zero. -/
theorem zero_size_divides : ¬ ∀ (reply : IdentifyReply) (drive : Byte)
    (data disk : IdentifyDeviceData), identifyDrive reply drive data = (true, disk) →
      GeometrySafe disk := by
  intro hall
  have hsafe := hall (identifyReply zeroSizeWords) masterDrive
    (identifiedData zeroSizeWords masterDrive) _ rfl
  let m : DiskMachine :=
    { disk := ⟨fun _ => identifiedData zeroSizeWords masterDrive, 0, fun _ _ => 0#8, fun _ => lba28,
        fun _ => .done, 0, ⟨0, 0, 0, 0, 0⟩⟩
      allocOk := fun _ => true, staleBytes := fun _ _ => 0#8, allocs := 0, live := [] }
  exact hsafe.read_divides m rfl 0 (fun _ => 0#8) 512 rfl

end MyOs
