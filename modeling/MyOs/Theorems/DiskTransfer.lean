import MyOs.Logic.DiskSpec

/-!
# The transfers of `disk_read` and `disk_write`

Both loops are followed from an arbitrary point on: what the rest of the loop
does to the bytes not transferred yet, for every way the remaining allocations
and commands can end. Each chunk's effect composes with the rest by
`ByteStore.copy_add`.
-/

namespace MyOs
namespace DiskMachine

/-! ## Writing -/

/-- `disk_write` has written the bytes of `buffer` from `start` on to the
sectors that begin at `pos` and take up `span` bytes. -/
structure Written (m : DiskMachine) (pos span : Nat) (buffer : ByteStore) (start len n : Nat)
    (m' : DiskMachine) : Prop where
  later : Extends m m'
  exact : NoFailure m m' → n = len ∧ m'.image = m.image.copy pos buffer start (len - start)
  short : ¬ NoFailure m m' →
    start ≤ n ∧ n < len ∧ ∀ i, i < n - start → m'.image (pos + i) = buffer (start + i)
  outside : ∀ a, a < pos ∨ pos + span ≤ a → m'.image a = m.image a

/-- A failure that leaves everything outside the sectors alone ends the
transfer short. -/
theorem Written.stopped {m m' : DiskMachine} {pos span : Nat} {buffer : ByteStore}
    {start len : Nat} (hfail : Fails m m') (hlt : start < len)
    (hout : ∀ a, a < pos ∨ pos + span ≤ a → m'.image a = m.image a) :
    Written m pos span buffer start len start m' where
  later := hfail.later
  exact h := absurd h hfail.bad
  short _ := ⟨Nat.le_refl _, hlt, fun i hi => by omega⟩
  outside := hout

/-- A transfer whose last calls succeeded is complete. -/
theorem Written.complete {m m' : DiskMachine} {pos : Nat} {buffer : ByteStore}
    {start len span : Nat} (hok : Succeeds m m')
    (himg : m'.image = m.image.copy pos buffer start (len - start)) (hspan : len - start ≤ span) :
    Written m pos span buffer start len len m' where
  later := hok.later
  exact _ := ⟨rfl, himg⟩
  short h := absurd hok.ok h
  outside a ha := by rw [himg, ByteStore.copy_outside (by omega)]

/-- A chunk written without failure, and then the rest. -/
theorem Written.chunk {m m₁ m' : DiskMachine} {pos span : Nat} {buffer : ByteStore}
    {start len n bytes : Nat} (hok : Succeeds m m₁) (hle : start + bytes ≤ len)
    (himg : m₁.image = m.image.copy pos buffer start bytes)
    (hrest : Written m₁ (pos + bytes) span buffer (start + bytes) len n m') :
    Written m pos (bytes + span) buffer start len n m' where
  later := hok.later.trans hrest.later
  exact h := by
    obtain ⟨_, hrestOk⟩ := (noFailure_iff hok.later hrest.later).mp h
    obtain ⟨hn, himg'⟩ := hrest.exact hrestOk
    refine ⟨hn, ?_⟩
    rw [himg', himg, ← ByteStore.copy_add]
    congr 1
    omega
  short h := by
    have hrestFail : ¬ NoFailure m₁ m' := fun hrestOk =>
      h ((noFailure_iff hok.later hrest.later).mpr ⟨hok.ok, hrestOk⟩)
    obtain ⟨hge, hlt, hbytes⟩ := hrest.short hrestFail
    refine ⟨by omega, hlt, fun i hi => ?_⟩
    rcases Nat.lt_or_ge i bytes with hi' | hi'
    · rw [hrest.outside _ (.inl (by omega)), himg, ByteStore.copy_inside hi']
    · obtain ⟨j, rfl⟩ := Nat.exists_eq_add_of_le hi'
      have := hbytes j (by omega)
      rwa [Nat.add_assoc, Nat.add_assoc] at this
  outside a ha := by
    rw [hrest.outside a (by omega), himg, ByteStore.copy_outside (by omega)]

/-- The bytes the last sector takes up, when there is one. -/
def lastSpan (sectorSize len : Nat) : Nat := if len % sectorSize = 0 then 0 else sectorSize

/-- The last sector: its first bytes come from the buffer, the others are
written back as they were read. -/
theorem diskWriteLast_written {m : DiskMachine} {cur sectorSize total : Nat}
    (hu : m.Uses cur sectorSize total) {lba start len : Nat} (buffer : ByteStore)
    (hin : len % sectorSize ≠ 0 → lba + 1 ≤ total) (hstart : start + len % sectorSize = len) :
    ∃ n m', diskWriteLast host cur sectorSize len lba start buffer m = .ok (n, m') ∧
      Written m (lba * sectorSize) (lastSpan sectorSize len) buffer start len n m' := by
  unfold diskWriteLast lastSpan
  by_cases hrem : len % sectorSize = 0
  · refine ⟨len, m, by simp [hrem], .complete (Succeeds.refl m) ?_ (by omega)⟩
    rw [show len - start = 0 by omega, ByteStore.copy_zero]
  have hpos : 0 < sectorSize := hu.size_eq ▸ hu.ready.sector_pos
  have hlt : len % sectorSize < sectorSize := Nat.mod_lt _ hpos
  have hone : sectorsOf 1 = 1 := rfl
  simp only [hrem, if_false]
  rcases kmalloc_cases m sectorSize with ⟨ptr, m₁, hk, hptr, hok₁, hd₁⟩ | ⟨m₁, hk, hfail, hd₁⟩
  swap
  · refine ⟨start, m₁, ?_, .stopped hfail (by omega) fun _ _ => by rw [image_eq hd₁]⟩
    rw [Prog.bind_of_ok hk]
    rfl
  rw [Prog.bind_of_ok hk]
  simp only [hptr, if_false, Prog.bind_of_ok (stale_apply m₁ ptr)]
  have hu₁ := hok₁.later.uses hu
  rcases readSectors_cases hu₁ lba 1 (m₁.staleBytes ptr) (by decide) (hin hrem) with
    ⟨m₂, hread, hok₂, himg₂⟩ | ⟨_, m₂, hread, hfail, himg₂⟩
  swap
  · refine ⟨start, m₂, ?_, .stopped (hok₁.fails hfail) (by omega) fun _ _ => by
      rw [himg₂, image_eq hd₁]⟩
    rw [Prog.bind_of_ok hread]
    rfl
  rw [Prog.bind_of_ok hread]
  have hu₂ := hok₂.later.uses hu₁
  have hok := hok₁.trans hok₂
  have himg : m₂.image = m.image := himg₂.trans (image_eq hd₁)
  simp only [hone, Nat.one_mul, Bool.true_eq_false, if_false,
    Prog.bind_of_ok (fetch_apply m₂ buffer)]
  rcases writeSectors_cases hu₂ lba 1 (((m₁.staleBytes ptr).copy 0 m₁.image (lba * sectorSize)
      sectorSize).copy 0 buffer start (len % sectorSize)) (by decide) (hin hrem) with
    ⟨m₃, hwrite, hok₃, himg₃⟩ | ⟨_, m₃, hwrite, hfail, himg₃⟩
  swap
  · refine ⟨start, m₃, ?_, .stopped (hok.fails hfail) (by omega) fun a ha => ?_⟩
    · rw [Prog.bind_of_ok hwrite]
      rfl
    · rw [himg₃, hone, Nat.one_mul, ByteStore.patch_outside ha, himg]
  obtain ⟨m₄, hfree, hok₄, hd₄⟩ := kfree_ok m₃ ptr
  refine ⟨len, m₄, ?_, .complete (hok.trans (hok₃.trans hok₄)) ?_ (by omega)⟩
  · rw [Prog.bind_of_ok hwrite]
    simp only [Bool.true_eq_false, if_false]
    rw [Prog.bind_of_ok hfree]
    rfl
  · rw [image_eq hd₄, himg₃, himg, image_eq hd₁, hone, Nat.one_mul,
      ByteStore.copy_merged (by omega)]
    congr 1
    omega

/-- The loop over the whole sectors, and the last one. -/
theorem diskWriteLoop_written {m : DiskMachine} {cur sectorSize total : Nat}
    (hu : m.Uses cur sectorSize total) {len : Nat} (hlen : len < 2 ^ 32) (htotal : total < 2 ^ 32)
    {lba start sectors : Nat} (buffer : ByteStore)
    (hin : lba + sectors + (if len % sectorSize = 0 then 0 else 1) ≤ total)
    (hstart : start + sectors * sectorSize + len % sectorSize = len) :
    ∃ n m', diskWriteLoop host cur sectorSize len lba start sectors buffer m = .ok (n, m') ∧
      Written m (lba * sectorSize) (sectors * sectorSize + lastSpan sectorSize len) buffer start
        len n m' := by
  induction sectors using Nat.strongRecOn generalizing m lba start with
  | ind sectors ih =>
  rw [diskWriteLoop]
  by_cases hzero : sectors = 0
  · subst hzero
    rw [if_pos rfl, Nat.zero_mul, Nat.zero_add]
    refine diskWriteLast_written hu buffer (fun hrem => ?_) (by omega)
    rw [if_neg hrem] at hin
    omega
  -- one chunk of `xfer` sectors
  have hxfer := sectorsOf_sectorsThisCall hzero
  obtain ⟨xfer, hx⟩ : ∃ xfer, sectorsOf (sectorsThisCall sectors) = xfer := ⟨_, rfl⟩
  rw [hx] at hxfer
  have hpos : 0 < sectorSize := hu.size_eq ▸ hu.ready.sector_pos
  have hsplit : sectors * sectorSize = xfer * sectorSize + (sectors - xfer) * sectorSize := by
    rw [← Nat.add_mul]
    congr 1
    omega
  have hxpos : 0 < xfer * sectorSize := Nat.mul_pos (by omega) hpos
  have hbytes : u32 (xfer * sectorSize) = xfer * sectorSize := u32_of_lt (by omega)
  have hspan : sectors * sectorSize + lastSpan sectorSize len =
      xfer * sectorSize + ((sectors - xfer) * sectorSize + lastSpan sectorSize len) := by omega
  simp only [if_neg hzero, hx, hbytes]
  rcases kmalloc_cases m (xfer * sectorSize) with
    ⟨ptr, m₁, hk, hptr, hok₁, hd₁⟩ | ⟨m₁, hk, hfail, hd₁⟩
  swap
  · refine ⟨start, m₁, ?_, .stopped hfail (by omega) fun _ _ => by rw [image_eq hd₁]⟩
    rw [Prog.bind_of_ok hk]
    rfl
  rw [Prog.bind_of_ok hk]
  simp only [hptr, if_false, Prog.bind_of_ok (stale_apply m₁ ptr),
    Prog.bind_of_ok (fetch_apply m₁ buffer)]
  have hu₁ := hok₁.later.uses hu
  rcases writeSectors_cases hu₁ lba (sectorsThisCall sectors) (((m₁.staleBytes ptr).fill 0 0
      (xfer * sectorSize)).copy 0 buffer start (xfer * sectorSize)) (by omega) (by omega) with
    ⟨m₂, hwrite, hok₂, himg₂⟩ | ⟨_, m₂, hwrite, hfail, himg₂⟩
  all_goals
    rw [Prog.bind_of_ok hwrite]
    obtain ⟨m₃, hfree, hok₃, hd₃⟩ := kfree_ok m₂ ptr
  swap
  · refine ⟨start, m₃, ?_, .stopped ((hok₁.fails hfail).succeeds hok₃) (by omega) fun a ha => ?_⟩
    · simp only [if_true]
      rw [Prog.bind_of_ok hfree]
      rfl
    · rw [image_eq hd₃, himg₂, hx, ByteStore.patch_outside (by omega), image_eq hd₁]
  simp only [Bool.true_eq_false, if_false]
  rw [Prog.bind_of_ok hfree]
  have hok := (hok₁.trans hok₂).trans hok₃
  have hlba : u32 (lba + xfer) = lba + xfer := u32_of_lt (by omega)
  have hnext : u32 (start + xfer * sectorSize) = start + xfer * sectorSize := u32_of_lt (by omega)
  have hin' : lba + xfer + (sectors - xfer) + (if len % sectorSize = 0 then 0 else 1) ≤ total := by
    omega
  have hstart' : start + xfer * sectorSize + (sectors - xfer) * sectorSize + len % sectorSize =
      len := by omega
  obtain ⟨n, m', hrun, hw⟩ := ih (sectors - xfer) (by omega) (hok.later.uses hu) hin' hstart'
  rw [hlba, hnext, hspan]
  refine ⟨n, m', hrun, .chunk hok (by omega) ?_ (by rwa [Nat.add_mul] at hw)⟩
  rw [image_eq hd₃, himg₂, hx, image_eq hd₁]
  exact ByteStore.copy_congr fun i hi => ByteStore.copy_inside hi

/-- On a valid disk `disk_write` is its loop over the whole sectors. -/
theorem diskWrite_loop {m : DiskMachine} (lba : Nat) (buffer : ByteStore) {len : Nat}
    (hvalid : m.disk.curr.valid = true) (hpos : 0 < m.disk.curr.logicalSectorSize) :
    diskWrite host lba buffer len m =
      diskWriteLoop host m.disk.currDisk m.disk.curr.logicalSectorSize len lba 0
        (len / m.disk.curr.logicalSectorSize) buffer m := by
  unfold DiskState.curr at hvalid hpos
  simp [diskWrite, hvalid, Nat.ne_of_gt hpos, DiskState.curr]

/-- Whole sectors and the last one make up the request. -/
theorem sectors_needed (sectorSize len : Nat) (hpos : 0 < sectorSize) :
    (len + sectorSize - 1) / sectorSize =
      len / sectorSize + (if len % sectorSize = 0 then 0 else 1) := by
  have hdiv := Nat.div_add_mod len sectorSize
  have hlt := Nat.mod_lt len hpos
  rw [show len + sectorSize - 1 =
      len % sectorSize + sectorSize - 1 + sectorSize * (len / sectorSize) by omega,
    Nat.add_mul_div_left _ _ hpos, Nat.add_comm]
  congr 1
  split
  · exact Nat.div_eq_of_lt (by omega)
  · rw [show len % sectorSize + sectorSize - 1 = len % sectorSize - 1 + sectorSize * 1 by omega,
      Nat.add_mul_div_left _ _ hpos, Nat.div_eq_of_lt (by omega)]

/-- A call of `disk_write`. -/
structure WriteCall where
  lba : Nat
  buffer : ByteStore
  len : Nat

namespace WriteCall

/-- The sectors the call touches. -/
def sectors (w : WriteCall) (sectorSize : Nat) : Nat := (w.len + sectorSize - 1) / sectorSize

/-- The length is a `size_t` and the sectors lie inside the disk. -/
def Fits (w : WriteCall) (d : DiskState) : Prop :=
  w.len < 2 ^ 32 ∧ (w.len ≠ 0 → w.lba + w.sectors d.curr.logicalSectorSize ≤ d.curr.totalSectors)

def run (w : WriteCall) : Prog DiskMachine Nat := diskWrite host w.lba w.buffer w.len

/-- The image with the call's bytes laid over it. -/
def overlay (sectorSize : Nat) (img : ByteStore) (w : WriteCall) : ByteStore :=
  img.copy (w.lba * sectorSize) w.buffer 0 w.len

end WriteCall

/-- `disk_write` writes its request. -/
theorem diskWrite_written {m : DiskMachine} (hr : m.disk.Ready) {w : WriteCall}
    (hfits : w.Fits m.disk) :
    ∃ n m', w.run m = .ok (n, m') ∧
      Written m (w.lba * m.disk.curr.logicalSectorSize)
        (w.sectors m.disk.curr.logicalSectorSize * m.disk.curr.logicalSectorSize) w.buffer 0 w.len
        n m' := by
  obtain ⟨hlen, hin⟩ := hfits
  have hpos := hr.sector_pos
  have hneed := sectors_needed m.disk.curr.logicalSectorSize w.len hpos
  have hspan : w.sectors m.disk.curr.logicalSectorSize * m.disk.curr.logicalSectorSize =
      w.len / m.disk.curr.logicalSectorSize * m.disk.curr.logicalSectorSize +
        lastSpan m.disk.curr.logicalSectorSize w.len := by
    rw [WriteCall.sectors, hneed, Nat.add_mul, lastSpan]
    congr 1
    split <;> simp
  rw [hspan, WriteCall.run, diskWrite_loop _ _ hr.valid hpos]
  rcases Nat.eq_zero_or_pos w.len with hzero | hlenpos
  · rw [hzero, Nat.zero_div, diskWriteLoop, if_pos rfl, Nat.zero_mul, Nat.zero_add]
    exact diskWriteLast_written ⟨hr, rfl, rfl, rfl⟩ _ (by simp) (by simp)
  rw [WriteCall.sectors, hneed, ← Nat.add_assoc] at hin
  refine diskWriteLoop_written ⟨hr, rfl, rfl, rfl⟩ hlen (DiskState.curr _).totalSectors_lt _
    (hin (by omega)) ?_
  rw [Nat.zero_add]
  exact Nat.div_add_mod' _ _

/-- A sequence of calls of `disk_write`. -/
def diskWrites : List WriteCall → Prog DiskMachine Unit
  | [] => pure ()
  | w :: ws => do
      let _ ← w.run
      diskWrites ws

/-- Calls that all succeed lay their bytes over the image in order. -/
theorem diskWrites_overlay {m : DiskMachine} (hr : m.disk.Ready) {ws : List WriteCall}
    (hfits : ∀ w ∈ ws, w.Fits m.disk) :
    ∃ m', diskWrites ws m = .ok ((), m') ∧ Extends m m' ∧
      (NoFailure m m' →
        m'.image = ws.foldl (WriteCall.overlay m.disk.curr.logicalSectorSize) m.image) := by
  induction ws generalizing m with
  | nil => exact ⟨m, rfl, Extends.refl m, fun _ => rfl⟩
  | cons w ws ih =>
      obtain ⟨n, m₁, hrun, hw⟩ := diskWrite_written hr (hfits w List.mem_cons_self)
      have hrest : ∀ w' ∈ ws, w'.Fits m₁.disk := by
        intro w' hmem
        unfold WriteCall.Fits
        rw [hw.later.curr]
        exact hfits w' (List.mem_cons_of_mem _ hmem)
      obtain ⟨m', hrun', hlater, himg⟩ := ih (hw.later.ready hr) hrest
      refine ⟨m', ?_, hw.later.trans hlater, fun hok => ?_⟩
      · rw [diskWrites, Prog.bind_of_ok hrun, hrun']
      · obtain ⟨hok₁, hok₂⟩ := (noFailure_iff hw.later hlater).mp hok
        rw [himg hok₂, (hw.exact hok₁).2, hw.later.curr, List.foldl_cons]
        rfl

/-- **The effect of `disk_write`.** With no failure the call returns `len` and
changes exactly the bytes of its range, to those of the buffer; with a failure
it returns less, what it returns is written, and no other sector changed. Calls
one after another overlay the image in their order. -/
theorem disk_write_exact (m : DiskMachine) (hr : m.disk.Ready) :
    (∀ w : WriteCall, w.Fits m.disk → ∃ n m', w.run m = .ok (n, m') ∧
      (NoFailure m m' → n = w.len ∧
        (∀ i, i < w.len →
          m'.image (w.lba * m.disk.curr.logicalSectorSize + i) = w.buffer i) ∧
        (∀ a, a < w.lba * m.disk.curr.logicalSectorSize ∨
          w.lba * m.disk.curr.logicalSectorSize + w.len ≤ a → m'.image a = m.image a)) ∧
      (¬ NoFailure m m' → n < w.len ∧
        (∀ i, i < n → m'.image (w.lba * m.disk.curr.logicalSectorSize + i) = w.buffer i) ∧
        (∀ a, a / m.disk.curr.logicalSectorSize < w.lba ∨
          w.lba + w.sectors m.disk.curr.logicalSectorSize ≤ a / m.disk.curr.logicalSectorSize →
          m'.image a = m.image a))) ∧
    (∀ ws : List WriteCall, (∀ w ∈ ws, w.Fits m.disk) →
      ∃ m', diskWrites ws m = .ok ((), m') ∧
        (NoFailure m m' →
          m'.image = ws.foldl (WriteCall.overlay m.disk.curr.logicalSectorSize) m.image)) := by
  refine ⟨fun w hfits => ?_, fun ws hfits => ?_⟩
  · obtain ⟨n, m', hrun, hw⟩ := diskWrite_written hr hfits
    refine ⟨n, m', hrun, fun hok => ?_, fun hfail => ?_⟩
    · obtain ⟨hn, himg⟩ := hw.exact hok
      rw [himg]
      refine ⟨hn, fun i hi => ?_, fun a ha => ByteStore.copy_outside (by omega)⟩
      rw [ByteStore.copy_inside (by omega), Nat.zero_add]
    · obtain ⟨_, hlt, hbytes⟩ := hw.short hfail
      refine ⟨hlt, fun i hi => ?_, fun a ha => hw.outside a ?_⟩
      · rw [hbytes i (by omega), Nat.zero_add]
      · rw [← Nat.add_mul, ← Nat.div_lt_iff_lt_mul hr.sector_pos,
          ← Nat.le_div_iff_mul_le hr.sector_pos]
        exact ha
  · obtain ⟨m', hrun, _, himg⟩ := diskWrites_overlay hr hfits
    exact ⟨m', hrun, himg⟩

/-- A disk of eight 512-byte sectors on which nothing fails. -/
def smallDisk : DiskMachine where
  disk := {
    disks := fun _ => ⟨0x200#16, 8, 512, false, true, eightSectors_lt, sectorBytes_lt⟩
    currDisk := 0
    image := fun _ _ => 0#8
    seek := fun _ => lba28
    outcome := fun _ => .done
    commands := 0
    regs := ⟨0, 0, 0, 0, 0⟩ }
  allocOk := fun _ => true
  staleBytes := fun _ _ => 0#8
  allocs := 0
  live := []

theorem smallDisk_ready : smallDisk.disk.Ready where
  disk_num := by decide
  valid := rfl
  lba := by decide
  sector_pos := by decide
  chunk_lt := by decide
  exact lba sectorCount h := lba28_taskFile _ sectorCount (Nat.lt_trans h (by decide))

/-- 700 bytes to sector 1 of it: one whole sector and part of another. -/
theorem disk_write_exact_small : ∃ n m',
    diskWrite host 1 (fun i => BitVec.ofNat 8 i) 700 smallDisk = .ok (n, m') ∧
      (NoFailure smallDisk m' → n = 700) := by
  obtain ⟨n, m', hrun, hok, _⟩ := (disk_write_exact smallDisk smallDisk_ready).1
    ⟨1, fun i => BitVec.ofNat 8 i, 700⟩ ⟨by decide, fun _ => by decide⟩
  exact ⟨n, m', hrun, fun h => (hok h).1⟩

/-! ## Reading -/

/-- `disk_read` has put the bytes of the disk from `pos` on into the caller's
buffer from `start` on, up to a count `n`. -/
structure Fetched (m : DiskMachine) (pos : Nat) (buffer : ByteStore) (start len n : Nat)
    (buffer' : ByteStore) (m' : DiskMachine) : Prop where
  later : Extends m m'
  same : m'.image = m.image
  start_le : start ≤ n
  le : n ≤ len
  bytes : buffer' = buffer.copy start m.image pos (n - start)

theorem Fetched.stopped {m m' : DiskMachine} {pos : Nat} {buffer : ByteStore} {start len : Nat}
    (hlater : Extends m m') (hsame : m'.image = m.image) (hle : start ≤ len) :
    Fetched m pos buffer start len start buffer m' where
  later := hlater
  same := hsame
  start_le := Nat.le_refl _
  le := hle
  bytes := by rw [Nat.sub_self, ByteStore.copy_zero]

/-- A chunk fetched, and then the rest. -/
theorem Fetched.chunk {m m₁ m' : DiskMachine} {pos start len n bytes : Nat}
    {buffer buffer' : ByteStore} (hlater : Extends m m₁) (hsame : m₁.image = m.image)
    (hrest : Fetched m₁ (pos + bytes) (buffer.copy start m.image pos bytes) (start + bytes) len n
      buffer' m') : Fetched m pos buffer start len n buffer' m' where
  later := hlater.trans hrest.later
  same := hrest.same.trans hsame
  start_le := Nat.le_trans (Nat.le_add_right _ _) hrest.start_le
  le := hrest.le
  bytes := by
    have hle := hrest.start_le
    rw [hrest.bytes, hsame, ← ByteStore.copy_add]
    congr 1
    omega

/-- The loop of `disk_read`: every sector but the last is needed whole, so only
the last chunk can be trimmed. -/
theorem diskReadLoop_fetched (addr : Nat) {m : DiskMachine} {cur sectorSize total : Nat}
    (hu : m.Uses cur sectorSize total) {len : Nat} (hlen : len + sectorSize - 1 < 2 ^ 32)
    (htotal : total < 2 ^ 32) {start sectors : Nat} (buffer : ByteStore)
    (hstart : start ≤ len) (hcover : len ≤ start + sectors * sectorSize)
    (htight : start + sectors * sectorSize < len + sectorSize) :
    ∃ n buffer' m', diskReadLoop host cur sectorSize len addr start sectors buffer m =
        .ok ((n, buffer'), m') ∧
      Fetched m (addr * sectorSize) buffer start len n buffer' m' ∧
      (NoFailure m m' → addr + sectors ≤ total → n = len) := by
  induction sectors using Nat.strongRecOn generalizing m addr start buffer with
  | ind sectors ih =>
  rw [diskReadLoop]
  by_cases hzero : sectors = 0
  · subst hzero
    exact ⟨start, buffer, m, rfl, .stopped (Extends.refl m) rfl hstart, fun _ _ => by omega⟩
  have hxfer := sectorsOf_sectorsThisCall hzero
  obtain ⟨xfer, hx⟩ : ∃ xfer, sectorsOf (sectorsThisCall sectors) = xfer := ⟨_, rfl⟩
  rw [hx] at hxfer
  have hsplit : sectors * sectorSize = xfer * sectorSize + (sectors - xfer) * sectorSize := by
    rw [← Nat.add_mul]
    congr 1
    omega
  have hbytes : u32 (xfer * sectorSize) = xfer * sectorSize := u32_of_lt (by omega)
  have hsum : u32 (start + xfer * sectorSize) = start + xfer * sectorSize :=
    u32_of_lt (by omega)
  simp only [if_neg hzero, hx, hbytes, hsum]
  rcases kmalloc_cases m (xfer * sectorSize) with
    ⟨ptr, m₁, hk, hptr, hok₁, hd₁⟩ | ⟨m₁, hk, hfail, hd₁⟩
  swap
  · refine ⟨start, buffer, m₁, ?_, .stopped hfail.later (image_eq hd₁) hstart,
      fun hok => absurd hok hfail.bad⟩
    rw [Prog.bind_of_ok hk]
    rfl
  rw [Prog.bind_of_ok hk]
  simp only [hptr, if_false, Prog.bind_of_ok (stale_apply m₁ ptr)]
  have hu₁ := hok₁.later.uses hu
  by_cases hin : addr + xfer ≤ total
  swap
  · -- the chunk lies partly outside the disk
    rw [Prog.bind_of_ok (readSectors_rejected hu₁ addr (sectorsThisCall sectors) _ (by omega)
      (by omega))]
    obtain ⟨m₂, hfree, hok₂, hd₂⟩ := kfree_ok m₁ ptr
    refine ⟨start, buffer, m₂, ?_, .stopped (hok₁.trans hok₂).later
      (by rw [image_eq hd₂, image_eq hd₁]) hstart, fun _ _ => by omega⟩
    simp only [if_true]
    rw [Prog.bind_of_ok hfree]
    rfl
  rcases readSectors_cases hu₁ addr (sectorsThisCall sectors)
      ((m₁.staleBytes ptr).fill 0 0 (xfer * sectorSize)) (by omega) (by omega) with
    ⟨m₂, hread, hok₂, himg₂⟩ | ⟨_, m₂, hread, hfail, himg₂⟩
  all_goals
    rw [Prog.bind_of_ok hread]
    obtain ⟨m₃, hfree, hok₃, hd₃⟩ := kfree_ok m₂ ptr
    have himg : m₃.image = m.image := by rw [image_eq hd₃, himg₂, image_eq hd₁]
  swap
  · have hfails := (hok₁.fails hfail).succeeds hok₃
    refine ⟨start, buffer, m₃, ?_, .stopped hfails.later himg hstart,
      fun hok => absurd hok hfails.bad⟩
    simp only [if_true]
    rw [Prog.bind_of_ok hfree]
    rfl
  simp only [Bool.true_eq_false, if_false]
  rw [Prog.bind_of_ok (deliver_apply m₂ _ _ _), Prog.bind_of_ok hfree, hx]
  have hok := (hok₁.trans hok₂).trans hok₃
  have hcopied {bytes : Nat} (hle : bytes ≤ xfer * sectorSize) :
      buffer.copy start (((m₁.staleBytes ptr).fill 0 0 (xfer * sectorSize)).copy 0 m₁.image
        (addr * sectorSize) (xfer * sectorSize)) 0 bytes =
      buffer.copy start m.image (addr * sectorSize) bytes := by
    rw [image_eq hd₁]
    exact ByteStore.copy_congr fun i hi => ByteStore.copy_inside (by omega)
  by_cases htrim : start + xfer * sectorSize > len
  · -- the trimmed chunk is the last
    have hlast : sectors - xfer = 0 := by
      refine Nat.eq_zero_of_not_pos fun hmore => ?_
      have := Nat.le_mul_of_pos_left sectorSize hmore
      omega
    have hsub : sub32 len start = len - start := sub32_of_le hstart (by omega)
    rw [if_pos htrim, hsub, hcopied (by omega), hlast, diskReadLoop, if_pos rfl,
      Nat.add_sub_cancel' hstart, u32_of_lt (by omega)]
    exact ⟨len, _, m₃, rfl, ⟨hok.later, himg, hstart, Nat.le_refl _, rfl⟩, fun _ _ => rfl⟩
  · have haddr : u32 (addr + xfer) = addr + xfer := u32_of_lt (by omega)
    have hcover' : len ≤ start + xfer * sectorSize + (sectors - xfer) * sectorSize := by omega
    rw [if_neg htrim, hcopied (Nat.le_refl _), hsum, haddr]
    obtain ⟨n, buffer', m', hrun, hf, hall⟩ := ih (sectors - xfer) (by omega) (addr + xfer)
      (hok.later.uses hu) (buffer.copy start m.image (addr * sectorSize) (xfer * sectorSize))
      (by omega) hcover' (by omega)
    refine ⟨n, buffer', m', hrun, .chunk hok.later himg (by rwa [Nat.add_mul] at hf),
      fun hok' hle => hall ?_ (by omega)⟩
    exact ((noFailure_iff hok.later hf.later).mp hok').2

/-- **The result of `disk_read`.** Whatever fails, the bytes it says it read are
those of the disk and the rest of the caller's buffer is untouched; it reads
all of them when the sectors lie inside the disk and nothing fails. -/
theorem disk_read_exact (m : DiskMachine) (hr : m.disk.Ready) (addr len : Nat)
    (buffer : ByteStore) (hlen : len + m.disk.curr.logicalSectorSize - 1 < 2 ^ 32) :
    ∃ n buffer' m', diskRead host addr buffer len m = .ok ((n, buffer'), m') ∧ n ≤ len ∧
      (∀ i, i < n → buffer' i = m.image (addr * m.disk.curr.logicalSectorSize + i)) ∧
      (∀ i, n ≤ i → buffer' i = buffer i) ∧
      (NoFailure m m' →
        addr + (len + m.disk.curr.logicalSectorSize - 1) / m.disk.curr.logicalSectorSize ≤
          m.disk.curr.totalSectors → n = len) := by
  have hpos := hr.sector_pos
  have hcover : len ≤ (len + m.disk.curr.logicalSectorSize - 1) /
      m.disk.curr.logicalSectorSize * m.disk.curr.logicalSectorSize ∧
      (len + m.disk.curr.logicalSectorSize - 1) / m.disk.curr.logicalSectorSize *
        m.disk.curr.logicalSectorSize < len + m.disk.curr.logicalSectorSize := by
    have hdiv := Nat.div_add_mod' (len + m.disk.curr.logicalSectorSize - 1)
      m.disk.curr.logicalSectorSize
    have hlt := Nat.mod_lt (len + m.disk.curr.logicalSectorSize - 1) hpos
    omega
  obtain ⟨n, buffer', m', hrun, hf, hall⟩ := diskReadLoop_fetched addr
    ⟨hr, rfl, rfl, rfl⟩ hlen (DiskState.curr _).totalSectors_lt buffer (Nat.zero_le _)
    (by rw [Nat.zero_add]; exact hcover.1) (by rw [Nat.zero_add]; exact hcover.2)
  refine ⟨n, buffer', m', ?_, hf.le, fun i hi => ?_, fun i hi => ?_, hall⟩
  · have hvalid := hr.valid
    unfold DiskState.curr at hvalid hrun hlen hpos
    simp [diskRead, hvalid, Nat.ne_of_gt hpos, u32_of_lt hlen, hrun]
  · rw [hf.bytes, ← Nat.zero_add i, ByteStore.copy_inside (by omega), Nat.zero_add]
  · rw [hf.bytes, ByteStore.copy_outside (by omega)]

/-- 700 bytes from sector 1 of the small disk. -/
theorem disk_read_exact_small : ∃ n buffer' m',
    diskRead host 1 (fun _ => 0#8) 700 smallDisk = .ok ((n, buffer'), m') ∧
      (NoFailure smallDisk m' → n = 700) := by
  obtain ⟨n, buffer', m', hrun, _, _, _, hall⟩ :=
    disk_read_exact smallDisk smallDisk_ready 1 700 (fun _ => 0#8) (by decide)
  exact ⟨n, buffer', m', hrun, fun h => hall h (by decide)⟩

end DiskMachine
end MyOs
