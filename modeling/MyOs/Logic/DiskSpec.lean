import MyOs.Drivers.Disk

/-!
# What one ATA call does

The drive is `Ready` when it is identified, speaks LBA, and a command that
completes moves exactly the sectors asked for. Under it each ATA call has one
effect per outcome. `Extends` is what every call of the driver keeps: the
drives' records and replies, the other drives' contents; `NoFailure m m'` says
that no allocation and no command failed on the way from `m` to `m'`.
-/

namespace MyOs

/-- The current disk. -/
def DiskState.curr (d : DiskState) : IdentifyDeviceData := d.disks d.currDisk

/-- The current disk is identified and LBA-capable, and a command that
completes moves exactly the requested whole sectors. -/
structure DiskState.Ready (d : DiskState) : Prop where
  disk_num : d.currDisk < 4
  valid : d.curr.valid = true
  lba : isLbaSupported d.curr = true
  sector_pos : 0 < d.curr.logicalSectorSize
  chunk_lt : 256 * d.curr.logicalSectorSize < 2 ^ 32
  exact : ∀ lba sectorCount, lba < d.curr.totalSectors →
    d.seek d.currDisk (taskFile d.curr lba sectorCount) = lba

theorem driveSelect_lba (disk : IdentifyDeviceData) (b : Byte) :
    (driveSelection disk ||| (b &&& 0x0F#8)) &&& 0x0F#8 = b &&& 0x0F#8 := by
  have h : driveSelection disk &&& 0x0F#8 = 0#8 := by
    unfold driveSelection
    split <;> rfl
  rw [BitVec.and_comm, BitVec.and_or_distrib_left, BitVec.and_comm, h, BitVec.and_comm,
    BitVec.and_assoc, BitVec.and_self, BitVec.zero_or]

/-- A drive in 28-bit LBA mode addresses the sector asked for, up to the size
such a drive can have. -/
theorem lba28_taskFile (disk : IdentifyDeviceData) {lba : Nat} (sectorCount : Nat)
    (h : lba < 2 ^ 28) : lba28 (taskFile disk lba sectorCount) = lba := by
  have hmask (b : Byte) : (b &&& 0x0F#8).toNat = b.toNat % 16 := by
    rw [BitVec.toNat_and]
    exact Nat.and_two_pow_sub_one_eq_mod b.toNat 4
  simp only [lba28, taskFile, getLbaHighest, driveSelect_lba, hmask, getLbaHigh, getLbaMid,
    getLbaLow, BitVec.toNat_ofNat, Nat.shiftRight_eq_div_pow]
  omega

namespace DiskMachine

/-- The contents of the current disk. -/
def image (m : DiskMachine) : ByteStore := m.disk.image m.disk.currDisk

/-- What no call of the driver changes. -/
structure Extends (m m' : DiskMachine) : Prop where
  disks : m'.disk.disks = m.disk.disks
  currDisk : m'.disk.currDisk = m.disk.currDisk
  seek : m'.disk.seek = m.disk.seek
  outcome : m'.disk.outcome = m.disk.outcome
  allocOk : m'.allocOk = m.allocOk
  commands_le : m.disk.commands ≤ m'.disk.commands
  allocs_le : m.allocs ≤ m'.allocs
  others : ∀ i, i ≠ m.disk.currDisk → m'.disk.image i = m.disk.image i

/-- Every command issued and every allocation made between `m` and `m'`
succeeded. -/
def NoFailure (m m' : DiskMachine) : Prop :=
  (∀ k, m.disk.commands ≤ k → k < m'.disk.commands → (m.disk.outcome k).isDone = true) ∧
  (∀ k, m.allocs ≤ k → k < m'.allocs → m.allocOk k = true)

theorem Extends.refl (m : DiskMachine) : Extends m m where
  disks := rfl
  currDisk := rfl
  seek := rfl
  outcome := rfl
  allocOk := rfl
  commands_le := Nat.le_refl _
  allocs_le := Nat.le_refl _
  others _ _ := rfl

theorem Extends.trans {m₁ m₂ m₃ : DiskMachine} (h : Extends m₁ m₂) (h' : Extends m₂ m₃) :
    Extends m₁ m₃ where
  disks := h'.disks.trans h.disks
  currDisk := h'.currDisk.trans h.currDisk
  seek := h'.seek.trans h.seek
  outcome := h'.outcome.trans h.outcome
  allocOk := h'.allocOk.trans h.allocOk
  commands_le := Nat.le_trans h.commands_le h'.commands_le
  allocs_le := Nat.le_trans h.allocs_le h'.allocs_le
  others i hi := (h'.others i (by rw [h.currDisk]; exact hi)).trans (h.others i hi)

theorem Extends.curr {m m' : DiskMachine} (h : Extends m m') : m'.disk.curr = m.disk.curr := by
  simp only [DiskState.curr, h.disks, h.currDisk]

theorem Extends.ready {m m' : DiskMachine} (h : Extends m m') (hr : m.disk.Ready) :
    m'.disk.Ready where
  disk_num := by rw [h.currDisk]; exact hr.disk_num
  valid := by rw [h.curr]; exact hr.valid
  lba := by rw [h.curr]; exact hr.lba
  sector_pos := by rw [h.curr]; exact hr.sector_pos
  chunk_lt := by rw [h.curr]; exact hr.chunk_lt
  exact lba sectorCount hlt := by
    rw [h.curr] at hlt ⊢
    rw [h.currDisk, h.seek]
    exact hr.exact lba sectorCount hlt

/-- A stretch of calls without failure splits at any state on the way. -/
theorem noFailure_iff {m₁ m₂ m₃ : DiskMachine} (h : Extends m₁ m₂) (h' : Extends m₂ m₃) :
    NoFailure m₁ m₃ ↔ NoFailure m₁ m₂ ∧ NoFailure m₂ m₃ := by
  have hc := h.commands_le
  have hc' := h'.commands_le
  have ha := h.allocs_le
  have ha' := h'.allocs_le
  simp only [NoFailure, h.outcome, h.allocOk]
  constructor
  · rintro ⟨hcmd, halloc⟩
    refine ⟨⟨fun k hk hk' => hcmd k hk (by omega), fun k hk hk' => halloc k hk (by omega)⟩,
      fun k hk hk' => hcmd k (by omega) hk', fun k hk hk' => halloc k (by omega) hk'⟩
  · rintro ⟨⟨hcmd, halloc⟩, hcmd', halloc'⟩
    refine ⟨fun k hk hk' => ?_, fun k hk hk' => ?_⟩
    · rcases Nat.lt_or_ge k m₂.disk.commands with hlt | hge
      · exact hcmd k hk hlt
      · exact hcmd' k hge hk'
    · rcases Nat.lt_or_ge k m₂.allocs with hlt | hge
      · exact halloc k hk hlt
      · exact halloc' k hge hk'

/-- On from `m` to `m'` with every reply a success. -/
structure Succeeds (m m' : DiskMachine) : Prop where
  later : Extends m m'
  ok : NoFailure m m'

/-- On from `m` to `m'` with some reply a failure. -/
structure Fails (m m' : DiskMachine) : Prop where
  later : Extends m m'
  bad : ¬ NoFailure m m'

theorem Succeeds.refl (m : DiskMachine) : Succeeds m m :=
  ⟨Extends.refl m, fun _ hk hk' => absurd hk' (Nat.not_lt.mpr hk),
    fun _ hk hk' => absurd hk' (Nat.not_lt.mpr hk)⟩

theorem Succeeds.trans {m₁ m₂ m₃ : DiskMachine} (h : Succeeds m₁ m₂) (h' : Succeeds m₂ m₃) :
    Succeeds m₁ m₃ :=
  ⟨h.later.trans h'.later, (noFailure_iff h.later h'.later).mpr ⟨h.ok, h'.ok⟩⟩

theorem Succeeds.fails {m₁ m₂ m₃ : DiskMachine} (h : Succeeds m₁ m₂) (h' : Fails m₂ m₃) :
    Fails m₁ m₃ :=
  ⟨h.later.trans h'.later, fun hok => h'.bad ((noFailure_iff h.later h'.later).mp hok).2⟩

theorem Fails.succeeds {m₁ m₂ m₃ : DiskMachine} (h : Fails m₁ m₂) (h' : Succeeds m₂ m₃) :
    Fails m₁ m₃ :=
  ⟨h.later.trans h'.later, fun hok => h.bad ((noFailure_iff h.later h'.later).mp hok).1⟩

/-- A command that completes is no failure. -/
theorem succeeds_command {m m' : DiskMachine} (hlater : Extends m m')
    (hc : m'.disk.commands = m.disk.commands + 1) (ha : m'.allocs = m.allocs)
    (h : m.disk.nextOutcome = .done) : Succeeds m m' := by
  refine ⟨hlater, fun k hk hk' => ?_, fun k hk hk' => absurd hk' (by omega)⟩
  have : k = m.disk.commands := by omega
  subst this
  rw [show m.disk.outcome m.disk.commands = .done from h]
  rfl

theorem fails_command {m m' : DiskMachine} {garbage : ByteStore} (hlater : Extends m m')
    (hc : m'.disk.commands = m.disk.commands + 1) (h : m.disk.nextOutcome = .failed garbage) :
    Fails m m' := by
  refine ⟨hlater, fun ⟨hcmd, _⟩ => ?_⟩
  have := hcmd m.disk.commands (Nat.le_refl _) (by omega)
  rw [show m.disk.outcome m.disk.commands = .failed garbage from h] at this
  cases this

/-! ## The heap -/

@[simp] theorem disk_host (m : DiskMachine) : host.disk m = m.disk := rfl

@[simp] theorem setDisk_host (d : DiskState) (m : DiskMachine) :
    host.setDisk d m = { m with disk := d } := rfl

@[simp] theorem stale_apply (m : DiskMachine) (ptr : Nat) :
    host.stale ptr m = .ok (m.staleBytes ptr, m) := rfl

@[simp] theorem fetch_apply (m : DiskMachine) (buffer : ByteStore) :
    host.fetch buffer m = .ok (buffer, m) := rfl

@[simp] theorem deliver_apply (m : DiskMachine) (pos n : Nat) (src : ByteStore) :
    host.deliver pos n src m = .ok ((), m) := rfl

/-- A `kmalloc` returns a block or, having failed, NULL. -/
theorem kmalloc_cases (m : DiskMachine) (size : Nat) :
    (∃ ptr m₁, host.kmalloc size m = .ok (ptr, m₁) ∧ ptr ≠ 0 ∧ Succeeds m m₁ ∧
      m₁.disk = m.disk) ∨
    (∃ m₁, host.kmalloc size m = .ok (0, m₁) ∧ Fails m m₁ ∧ m₁.disk = m.disk) := by
  cases h : m.allocOk m.allocs with
  | true =>
      let m₁ : DiskMachine := { m with allocs := m.allocs + 1, live := (m.allocs + 1) :: m.live }
      refine .inl ⟨m.allocs + 1, m₁, by simp [host, kmalloc, h, m₁], Nat.succ_ne_zero _,
        ⟨{ Extends.refl m with allocs_le := Nat.le_succ _ },
          fun _ hk hk' => absurd hk' (Nat.not_lt.mpr hk), fun k hk hk' => ?_⟩, rfl⟩
      have : k = m.allocs := Nat.le_antisymm (Nat.le_of_lt_succ hk') hk
      rw [this, h]
  | false =>
      let m₁ : DiskMachine := { m with allocs := m.allocs + 1 }
      refine .inr ⟨m₁, by simp [host, kmalloc, h, m₁],
        ⟨{ Extends.refl m with allocs_le := Nat.le_succ _ }, fun ⟨_, halloc⟩ => ?_⟩, rfl⟩
      have := halloc m.allocs (Nat.le_refl _) (Nat.lt_succ_self _)
      rw [h] at this
      cases this

theorem kfree_ok (m : DiskMachine) (ptr : Nat) :
    ∃ m₁, host.kfree ptr m = .ok ((), m₁) ∧ Succeeds m m₁ ∧ m₁.disk = m.disk :=
  ⟨_, rfl, ⟨{ Extends.refl m with }, fun _ hk hk' => absurd hk' (Nat.not_lt.mpr hk),
    fun _ hk hk' => absurd hk' (Nat.not_lt.mpr hk)⟩, rfl⟩

theorem image_eq {m m' : DiskMachine} (h : m'.disk = m.disk) : m'.image = m.image := by
  rw [image, image, h]

/-! ## The ATA calls -/

/-- The checks pass just when the sectors lie inside the disk. -/
theorem ataAccepts_iff {d : DiskState} (hr : d.Ready) {lba sectorCount : Nat}
    (hpos : 0 < sectorsOf sectorCount) :
    ataAccepts d d.currDisk lba sectorCount = true ↔
      lba + sectorsOf sectorCount ≤ d.curr.totalSectors := by
  have hvalid : (d.disks d.currDisk).valid = true := hr.valid
  have hlba : isLbaSupported (d.disks d.currDisk) = true := hr.lba
  simp only [ataAccepts, hvalid, hlba, hr.disk_num, decide_true, Bool.true_and, Bool.not_eq_true',
    Bool.or_eq_false_iff, decide_eq_false_iff_not, DiskState.curr]
  omega

/-- The current disk is `cur`, ready, with this sector size and so many
sectors. -/
structure Uses (m : DiskMachine) (cur sectorSize total : Nat) : Prop where
  ready : m.disk.Ready
  cur_eq : m.disk.currDisk = cur
  size_eq : m.disk.curr.logicalSectorSize = sectorSize
  total_eq : m.disk.curr.totalSectors = total

theorem Extends.uses {m m' : DiskMachine} {cur sectorSize total : Nat} (h : Extends m m')
    (hu : m.Uses cur sectorSize total) : m'.Uses cur sectorSize total where
  ready := h.ready hu.ready
  cur_eq := h.currDisk.trans hu.cur_eq
  size_eq := by rw [h.curr, hu.size_eq]
  total_eq := by rw [h.curr, hu.total_eq]

section Calls

variable {m : DiskMachine} {cur sectorSize total : Nat} (hu : m.Uses cur sectorSize total)
  (lba sectorCount : Nat) (buffer : ByteStore) (hpos : 0 < sectorsOf sectorCount)

include hu hpos

theorem readSectors_rejected (hout : ¬ lba + sectorsOf sectorCount ≤ total) :
    host.readSectors cur lba sectorCount buffer m = .ok ((false, buffer), m) := by
  obtain ⟨hr, rfl, rfl, rfl⟩ := hu
  have hacc := Bool.eq_false_iff.mpr (mt (ataAccepts_iff hr hpos).mp hout)
  simp only [Host.readSectors, disk_host, DiskState.ataReadSectors, hacc]
  rfl

variable (hin : lba + sectorsOf sectorCount ≤ total)

include hin

/-- A read inside the disk fills the buffer from the sectors, or fails. -/
theorem readSectors_cases :
    (∃ m₁, host.readSectors cur lba sectorCount buffer m =
        .ok ((true, buffer.copy 0 m.image (lba * sectorSize) (sectorsOf sectorCount * sectorSize)),
          m₁) ∧
      Succeeds m m₁ ∧ m₁.image = m.image) ∨
    (∃ buffer' m₁, host.readSectors cur lba sectorCount buffer m = .ok ((false, buffer'), m₁) ∧
      Fails m m₁ ∧ m₁.image = m.image) := by
  obtain ⟨hr, rfl, rfl, rfl⟩ := hu
  have hacc := (ataAccepts_iff hr hpos).mpr hin
  have hseek := hr.exact lba sectorCount (by omega)
  have hlater : Extends m
      { m with disk := m.disk.issue (taskFile m.disk.curr lba sectorCount) } :=
    { Extends.refl m with commands_le := Nat.le_succ _ }
  rw [DiskState.curr] at hseek
  simp only [Host.readSectors, disk_host, DiskState.ataReadSectors, hacc, hseek, if_true]
  cases h : m.disk.nextOutcome with
  | done => exact .inl ⟨_, rfl, succeeds_command hlater rfl rfl h, rfl⟩
  | failed garbage => exact .inr ⟨_, _, rfl, fails_command hlater rfl h, rfl⟩

/-- A write inside the disk replaces the sectors, or fails and leaves anything
in them. -/
theorem writeSectors_cases :
    (∃ m₁, host.writeSectors cur lba sectorCount buffer m = .ok (true, m₁) ∧ Succeeds m m₁ ∧
      m₁.image =
        m.image.copy (lba * sectorSize) buffer 0 (sectorsOf sectorCount * sectorSize)) ∨
    (∃ garbage m₁, host.writeSectors cur lba sectorCount buffer m = .ok (false, m₁) ∧
      Fails m m₁ ∧ m₁.image =
        m.image.patch (lba * sectorSize) (sectorsOf sectorCount * sectorSize) garbage) := by
  obtain ⟨hr, rfl, rfl, rfl⟩ := hu
  have hacc := (ataAccepts_iff hr hpos).mpr hin
  have hseek := hr.exact lba sectorCount (by omega)
  have hlater (img : ByteStore) :
      Extends m { m with disk :=
        (m.disk.issue (taskFile m.disk.curr lba sectorCount)).setImage m.disk.currDisk img } :=
    { Extends.refl m with
      commands_le := Nat.le_succ _
      others := fun i hi => by
        simp [DiskState.setImage, DiskState.issue, Function.update_of_ne hi] }
  rw [DiskState.curr] at hseek
  simp only [Host.writeSectors, disk_host, DiskState.ataWriteSectors, hacc, hseek, if_true]
  cases h : m.disk.nextOutcome with
  | done =>
      refine .inl ⟨_, rfl, succeeds_command (hlater _) rfl rfl h, ?_⟩
      simp [image, DiskState.setImage, DiskState.issue, DiskState.curr]
  | failed garbage =>
      refine .inr ⟨garbage, _, rfl, fails_command (hlater _) rfl h, ?_⟩
      simp [image, DiskState.setImage, DiskState.issue, DiskState.curr]

end Calls
end DiskMachine
end MyOs
