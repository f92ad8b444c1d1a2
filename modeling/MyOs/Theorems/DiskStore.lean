import MyOs.Base.System
import MyOs.Theorems.DiskTransfer

/-!
# The disks as stores

`disk_write`, `disk_read` and `switch_disk` in any order, whatever allocations and
commands fail. The abstract disks are what the calls have shown of them: a write says
what the bytes are from then on, one that stops short takes back what was known of the
sectors it had not come to, and a read returns the bytes that are known, and makes known
what else it returns.
-/

namespace MyOs

/-- The selected disk, and the bytes of the disks that are known. -/
structure Volumes where
  current : Nat
  known : Nat → Nat → Option Byte

namespace Volumes

/-- The bytes from `pos` on of the selected disk become known. -/
def learn (v : Volumes) (pos n : Nat) (bytes : ByteStore) : Volumes :=
  { v with known := fun d a =>
      if d = v.current ∧ pos ≤ a ∧ a < pos + n then some (bytes (a - pos)) else v.known d a }

/-- Nothing is known any more of these bytes of the selected disk. -/
def forget (v : Volumes) (pos n : Nat) : Volumes :=
  { v with known := fun d a =>
      if d = v.current ∧ pos ≤ a ∧ a < pos + n then none else v.known d a }

end Volumes

namespace DiskMachine

/-- A call of the driver, with what it returned. -/
inductive DiskCall
  | write (w : WriteCall) (n : Nat)
  | read (addr len : Nat) (buffer : ByteStore) (n : Nat) (after : ByteStore)
  | switch (diskNum : Nat)

/-- Every disk that is valid can be the current one. -/
structure AllReady (m : DiskMachine) : Prop where
  disk_num : m.disk.currDisk < 4
  ready : ∀ n, n < 4 → (m.disk.disks n).valid = true → { m.disk with currDisk := n }.Ready

/-- The driver's functions, from drives as `disks` describes them. -/
def driverSys (disks : Nat → IdentifyDeviceData) : TSys DiskMachine DiskCall where
  init m := AllReady m ∧ m.disk.disks = disks
  step m call m' :=
    match call with
    | .write w n => w.run m = .ok (n, m')
    | .read addr len buffer n after => diskRead host addr buffer len m = .ok ((n, after), m')
    | .switch diskNum => m' = { m with disk := m.disk.switchDisk diskNum }

/-- The sectors of a write lie inside the disk, and the sum of a read does not wrap. -/
def DiskCallOk (m : DiskMachine) : DiskCall → Prop
  | .write w _ => w.Fits m.disk
  | .read _ len .. => len + m.disk.curr.logicalSectorSize - 1 < 2 ^ 32
  | .switch _ => True

/-- The disks as their callers know them. -/
def volumesSys (disks : Nat → IdentifyDeviceData) : TSys Volumes DiskCall where
  init v := v.current < 4 ∧ ∀ d a, v.known d a = none
  step v call v' :=
    let sectorSize := (disks v.current).logicalSectorSize
    match call with
    | .write w n => n ≤ w.len ∧ v' =
        (if n = w.len then v else
          v.forget (w.lba * sectorSize) (w.sectors sectorSize * sectorSize)).learn
            (w.lba * sectorSize) n w.buffer
    | .read addr len buffer n after => n ≤ len ∧ (∀ i, n ≤ i → after i = buffer i) ∧
        (∀ i, i < n → ∀ b, v.known v.current (addr * sectorSize + i) = some b → after i = b) ∧
        v' = v.learn (addr * sectorSize) n after
    | .switch diskNum => v' =
        if diskNum < 4 ∧ (disks diskNum).valid then { v with current := diskNum } else v

/-- What is known is what the disks hold. -/
structure Remembers (disks : Nat → IdentifyDeviceData) (m : DiskMachine) (v : Volumes) :
    Prop where
  ready : AllReady m
  disks : m.disk.disks = disks
  current : v.current = m.disk.currDisk
  known : ∀ d a b, v.known d a = some b → m.disk.image d a = b

/-! ## Readiness -/

section Ready

variable {m m' : DiskMachine}

/-- It depends on what the drives are only. -/
theorem ready_congr {d d' : DiskState} (h : d.Ready) (hdisks : d'.disks = d.disks)
    (hcurr : d'.currDisk = d.currDisk) (hseek : d'.seek = d.seek) : d'.Ready := by
  have hsame : d'.curr = d.curr := by rw [DiskState.curr, DiskState.curr, hdisks, hcurr]
  refine ⟨hcurr ▸ h.disk_num, hsame ▸ h.valid, hsame ▸ h.lba, hsame ▸ h.sector_pos,
    hsame ▸ h.chunk_lt, fun lba sectorCount hlt => ?_⟩
  rw [hsame] at hlt ⊢
  rw [hseek, hcurr]
  exact h.exact lba sectorCount hlt

theorem AllReady.curr (h : AllReady m) (hvalid : m.disk.curr.valid = true) : m.disk.Ready :=
  h.ready m.disk.currDisk h.disk_num hvalid

theorem AllReady.extends (h : AllReady m) (hlater : Extends m m') : AllReady m' where
  disk_num := by rw [hlater.currDisk]; exact h.disk_num
  ready n hn hvalid := by
    rw [hlater.disks] at hvalid
    exact ready_congr (h.ready n hn hvalid) hlater.disks rfl hlater.seek

end Ready

/-! ## What is known -/

section Known

variable {disks : Nat → IdentifyDeviceData} {m m' : DiskMachine} {v : Volumes} {pos n : Nat}
  {bytes : ByteStore}

/-- A call that changes the selected disk, and what is known of it afterwards. -/
theorem Remembers.extends (h : Remembers disks m v) (hlater : Extends m m') {v' : Volumes}
    (hcurrent : v'.current = v.current)
    (hothers : ∀ d, d ≠ m.disk.currDisk → v'.known d = v.known d)
    (hknown : ∀ a b, v'.known m.disk.currDisk a = some b → m'.image a = b) :
    Remembers disks m' v' where
  ready := h.ready.extends hlater
  disks := hlater.disks.trans h.disks
  current := by rw [hcurrent, h.current, hlater.currDisk]
  known d a b hb := by
    by_cases hd : d = m.disk.currDisk
    · subst hd
      rw [← hknown a b hb, image, hlater.currDisk]
    · rw [hothers d hd] at hb
      rw [hlater.others d hd]
      exact h.known d a b hb

theorem learn_others (h : Remembers disks m v) {d : Nat} (hd : d ≠ m.disk.currDisk) :
    (v.learn pos n bytes).known d = v.known d := by
  funext a
  exact if_neg fun hno => hd (hno.1.trans h.current)

theorem forget_others (h : Remembers disks m v) {d : Nat} (hd : d ≠ m.disk.currDisk) :
    (v.forget pos n).known d = v.known d := by
  funext a
  exact if_neg fun hno => hd (hno.1.trans h.current)

/-- A byte that is known now is one that was learnt or one that was known. -/
theorem learn_known {d a : Nat} {b : Byte} (h : (v.learn pos n bytes).known d a = some b)
    (hd : d = v.current) :
    pos ≤ a ∧ a < pos + n ∧ bytes (a - pos) = b ∨
      ¬ (pos ≤ a ∧ a < pos + n) ∧ v.known d a = some b := by
  simp only [Volumes.learn] at h
  by_cases hin : pos ≤ a ∧ a < pos + n
  · rw [if_pos ⟨hd, hin⟩] at h
    exact .inl ⟨hin.1, hin.2, Option.some.inj h⟩
  · rw [if_neg fun hno => hin hno.2] at h
    exact .inr ⟨hin, h⟩

/-- And one that is still known was known, and lies outside what was forgotten. -/
theorem forget_known {d a : Nat} {b : Byte} (h : (v.forget pos n).known d a = some b)
    (hd : d = v.current) :
    ¬ (pos ≤ a ∧ a < pos + n) ∧ v.known d a = some b := by
  simp only [Volumes.forget] at h
  by_cases hin : pos ≤ a ∧ a < pos + n
  · rw [if_pos ⟨hd, hin⟩] at h
    cases h
  · rw [if_neg fun hno => hin hno.2] at h
    exact ⟨hin, h⟩

end Known

/-! ## The calls -/

section Calls

variable {disks : Nat → IdentifyDeviceData} {m m' : DiskMachine} {v : Volumes}

theorem Remembers.size (h : Remembers disks m v) :
    (disks v.current).logicalSectorSize = m.disk.curr.logicalSectorSize := by
  rw [← h.disks, h.current]
  rfl

/-- The function does nothing to a disk that is not there. -/
theorem diskWrite_invalid (w : WriteCall) (h : m.disk.curr.valid = false) :
    w.run m = .ok (0, m) := by
  have hvalid : (m.disk.disks m.disk.currDisk).valid = false := h
  simp [WriteCall.run, diskWrite, hvalid]

theorem diskRead_invalid (addr len : Nat) (buffer : ByteStore)
    (h : m.disk.curr.valid = false) :
    diskRead host addr buffer len m = .ok ((0, buffer), m) := by
  have hvalid : (m.disk.disks m.disk.currDisk).valid = false := h
  simp [diskRead, hvalid]

/-- What a write leaves, whether it ends short or not. -/
theorem diskWrite_effect (h : AllReady m) {w : WriteCall} (hfits : w.Fits m.disk) {n : Nat}
    (hrun : w.run m = .ok (n, m')) :
    Extends m m' ∧ n ≤ w.len ∧
      (∀ i, i < n → m'.image (w.lba * m.disk.curr.logicalSectorSize + i) = w.buffer i) ∧
      ∀ a, (a < w.lba * m.disk.curr.logicalSectorSize ∨
        w.lba * m.disk.curr.logicalSectorSize + (if n = w.len then n else
          w.sectors m.disk.curr.logicalSectorSize * m.disk.curr.logicalSectorSize) ≤ a) →
        m'.image a = m.image a := by
  by_cases hvalid : m.disk.curr.valid = true
  · obtain ⟨n', m₁, hrun', hw⟩ := diskWrite_written (h.curr hvalid) hfits
    cases hrun.symm.trans hrun'
    refine ⟨hw.later, ?_⟩
    by_cases hok : NoFailure m m'
    · obtain ⟨rfl, himage⟩ := hw.exact hok
      rw [if_pos rfl, himage, Nat.sub_zero]
      refine ⟨Nat.le_refl _, fun i hi => ?_, fun a ha => ByteStore.copy_outside ha⟩
      rw [ByteStore.copy_inside hi, Nat.zero_add]
    · obtain ⟨_, hlt, hbytes⟩ := hw.short hok
      rw [if_neg (Nat.ne_of_lt hlt)]
      refine ⟨Nat.le_of_lt hlt, fun i hi => ?_, hw.outside⟩
      rw [hbytes i (by omega), Nat.zero_add]
  · cases hrun.symm.trans (diskWrite_invalid w (Bool.not_eq_true _ ▸ hvalid))
    exact ⟨.refl m, Nat.zero_le _, fun i hi => absurd hi (Nat.not_lt_zero i), fun _ _ => rfl⟩

/-- What a read returns. -/
theorem diskRead_effect (h : AllReady m) {addr len : Nat} {buffer after : ByteStore} {n : Nat}
    (hlen : len + m.disk.curr.logicalSectorSize - 1 < 2 ^ 32)
    (hrun : diskRead host addr buffer len m = .ok ((n, after), m')) :
    Extends m m' ∧ m'.image = m.image ∧ n ≤ len ∧
      after = buffer.copy 0 m.image (addr * m.disk.curr.logicalSectorSize) n := by
  by_cases hvalid : m.disk.curr.valid = true
  · have hr := h.curr hvalid
    have hpos := hr.sector_pos
    have hvalid' : (m.disk.disks m.disk.currDisk).valid = true := hvalid
    have hsize : (m.disk.disks m.disk.currDisk).logicalSectorSize ≠ 0 := Nat.ne_of_gt hpos
    have hdiv := Nat.div_add_mod' (len + m.disk.curr.logicalSectorSize - 1)
      m.disk.curr.logicalSectorSize
    have hlt := Nat.mod_lt (len + m.disk.curr.logicalSectorSize - 1) hpos
    have hcover : len ≤ 0 + (len + m.disk.curr.logicalSectorSize - 1) /
        m.disk.curr.logicalSectorSize * m.disk.curr.logicalSectorSize := by
      omega
    obtain ⟨n', after', m₁, hrun', hf, _⟩ := diskReadLoop_fetched addr ⟨hr, rfl, rfl, rfl⟩ hlen
      (DiskState.curr _).totalSectors_lt buffer (Nat.zero_le len) hcover (by omega)
    have hwrap : u32 (len + (m.disk.disks m.disk.currDisk).logicalSectorSize - 1) =
        len + (m.disk.disks m.disk.currDisk).logicalSectorSize - 1 := u32_of_lt hlen
    have hloop : diskRead host addr buffer len m = .ok ((n', after'), m₁) := by
      rw [← hrun']
      simp [diskRead, hvalid', hsize, DiskState.curr, hwrap]
    cases hrun.symm.trans hloop
    exact ⟨hf.later, hf.same, hf.le, hf.bytes⟩
  · cases hrun.symm.trans (diskRead_invalid addr len buffer (Bool.not_eq_true _ ▸ hvalid))
    exact ⟨.refl m, rfl, Nat.zero_le _, ByteStore.copy_zero.symm⟩

/-- A call of the driver is one the abstract disks make. -/
theorem Remembers.step (h : Remembers disks m v) {call : DiskCall} (hok : DiskCallOk m call)
    (hstep : (driverSys disks).step m call m') :
    ∃ v', (volumesSys disks).step v call v' ∧ Remembers disks m' v' := by
  cases call with
  | write w n =>
      obtain ⟨hlater, hle, hbytes, houtside⟩ := diskWrite_effect h.ready hok hstep
      refine ⟨_, ⟨hle, rfl⟩, h.extends hlater ?_ (fun d hd => ?_) fun a b hb => ?_⟩
      · split <;> rfl
      · split
        · exact learn_others h hd
        · funext a
          refine (if_neg fun hno => hd (hno.1.trans h.current)).trans ?_
          exact congrFun (forget_others h hd) a
      · rw [h.size] at hb
        by_cases hn : n = w.len
        · rw [if_pos hn] at hb houtside
          rcases learn_known hb h.current.symm with ⟨hle, hlt, rfl⟩ | ⟨hout, hb⟩
          · obtain ⟨i, rfl⟩ := Nat.exists_eq_add_of_le hle
            rw [hbytes i (by omega), Nat.add_sub_cancel_left]
          · rw [houtside a (by omega)]
            exact h.known m.disk.currDisk a b hb
        · rw [if_neg hn] at hb houtside
          rcases learn_known hb h.current.symm with ⟨hle, hlt, rfl⟩ | ⟨_, hb⟩
          · obtain ⟨i, rfl⟩ := Nat.exists_eq_add_of_le hle
            rw [hbytes i (by omega), Nat.add_sub_cancel_left]
          · obtain ⟨hout, hb⟩ := forget_known hb h.current.symm
            rw [houtside a (by omega)]
            exact h.known m.disk.currDisk a b hb
  | read addr len buffer n after =>
      obtain ⟨hlater, himage, hle, rfl⟩ := diskRead_effect h.ready hok hstep
      have hread : ∀ i, i < n → buffer.copy 0 m.image (addr * m.disk.curr.logicalSectorSize) n i =
          m.image (addr * m.disk.curr.logicalSectorSize + i) := fun i hi => by
        conv => lhs; rw [← Nat.zero_add i]
        exact ByteStore.copy_inside hi
      refine ⟨_, ⟨hle, fun i hi => ByteStore.copy_outside (.inr (by omega)), fun i hi b hb => ?_,
        rfl⟩, h.extends hlater rfl (fun d hd => learn_others h hd) fun a b hb => ?_⟩
      · rw [h.size, h.current] at hb
        rw [hread i hi]
        exact h.known m.disk.currDisk _ b hb
      · rw [h.size] at hb
        rw [himage]
        rcases learn_known hb h.current.symm with ⟨hle, hlt, rfl⟩ | ⟨_, hb⟩
        · obtain ⟨i, rfl⟩ := Nat.exists_eq_add_of_le hle
          rw [Nat.add_sub_cancel_left, hread i (by omega)]
        · exact h.known m.disk.currDisk a b hb
  | switch diskNum =>
      obtain ⟨hready, rfl, hcurrent, hknown⟩ := h
      obtain rfl := hstep
      refine ⟨_, rfl, ?_⟩
      unfold DiskState.switchDisk
      split
      · next hvalid => exact ⟨⟨hvalid.1, hready.ready⟩, rfl, rfl, hknown⟩
      · exact ⟨hready, rfl, hcurrent, hknown⟩

end Calls

/-- **The disks are stores.** Whatever allocations and commands fail, every run of
`disk_write`, `disk_read` and `switch_disk` is one of disks whose known bytes are those
that calls have stored or returned since: where a byte is known a read returns it, and what
one disk holds no call on another disk touches. -/
theorem disks_remember (disks : Nat → IdentifyDeviceData) :
    ((driverSys disks).restrict DiskCallOk).Simulates (volumesSys disks) (Remembers disks)
      (· = ·) where
  init m hm := ⟨⟨m.disk.currDisk, fun _ _ => none⟩, ⟨hm.1.disk_num, fun _ _ => rfl⟩,
    ⟨hm.1, hm.2, rfl, fun _ _ _ hb => by cases hb⟩⟩
  step m call m' v h hstep := by
    obtain ⟨v', hv', hnext⟩ := h.step hstep.1 hstep.2
    exact ⟨call, v', rfl, hv', hnext⟩

end DiskMachine
end MyOs
