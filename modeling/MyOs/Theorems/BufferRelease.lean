import MyOs.Logic.BufferLedger

/-!
# The temporary buffers of a transfer

Every exit of `disk_read`, and of the loop of `disk_write`, frees the buffer it
holds. The exits for a partial last sector do not: when its read or its write
fails the buffer is lost. Which commands and allocations those are is counted
from the state before the call.
-/

namespace MyOs

open Prog

/-! ## Reading -/

section Host

variable {σ : Type} (h : Host σ)

theorem audited_kmalloc (size : Nat) :
    Triple (fun t : σ × Ledger => t.2.Balanced) (h.audited.kmalloc size) fun p t =>
      (p = 0 → t.2.Balanced) ∧ (p ≠ 0 → t.2.Owes p) := by
  show Triple _ (recorded (h.kmalloc size) fun p l => l.obtain p size) _
  refine recorded_triple fun s l hbal p s' _ => ⟨?_, fun hp => Ledger.Balanced.owes hbal size hp⟩
  rintro rfl
  exact hbal.null size

theorem audited_kfree (p : Nat) :
    Triple (fun t : σ × Ledger => t.2.Owes p) (h.audited.kfree p) fun _ t => t.2.Balanced := by
  show Triple _ (recorded (h.kfree p) fun _ l => { l with freed := p :: l.freed }) _
  exact recorded_triple fun _ _ howes _ _ _ => Ledger.Owes.freed howes

theorem audited_stale (p q : Nat) :
    Triple (fun t : σ × Ledger => t.2.Owes p) (h.audited.stale q) fun _ t => t.2.Owes p := by
  show Triple _ (recorded (h.stale q) fun _ l => l) _
  exact recorded_triple fun _ _ howes _ _ _ => howes

theorem audited_deliver (p pos n : Nat) (src : ByteStore) :
    Triple (fun t : σ × Ledger => t.2.Owes p) (h.audited.deliver pos n src)
      fun _ t => t.2.Owes p := by
  show Triple _ (recorded (h.deliver pos n src) fun _ l => l) _
  exact recorded_triple fun _ _ howes _ _ _ => howes

theorem audited_readSectors (p diskNum lba count : Nat) (buffer : ByteStore) :
    Triple (fun t : σ × Ledger => t.2.Owes p) (h.audited.readSectors diskNum lba count buffer)
      fun _ t => t.2.Owes p := by
  intro t howes r t' hrun
  cases hrun
  exact howes.command _ _

/-- The loop of `disk_read`: each turn frees the buffer it obtains. -/
theorem diskReadLoop_balanced (cur sectorSize len addr start sectors : Nat)
    (buffer : ByteStore) :
    Triple (fun t : σ × Ledger => t.2.Balanced)
      (diskReadLoop h.audited cur sectorSize len addr start sectors buffer)
      fun _ t => t.2.Balanced := by
  induction sectors using Nat.strongRecOn generalizing addr start buffer with
  | ind sectors ih =>
  rw [diskReadLoop]
  refine Triple.ite (fun _ => Triple.pure fun _ hbal => hbal) fun hzero => ?_
  have hxfer := sectorsOf_sectorsThisCall hzero
  refine Triple.bind (audited_kmalloc h _) fun p => ?_
  refine Triple.ite (fun hnull => Triple.pure fun _ hp => hp.1 hnull) fun hp => ?_
  refine Triple.bind ((audited_stale h p p).weaken (fun _ hs => hs.2 hp) fun _ _ hs => hs)
    fun _ => ?_
  refine Triple.bind (audited_readSectors h p _ _ _ _) fun r => ?_
  refine Triple.ite (fun _ => ?_) fun _ => ?_
  · exact Triple.bind (audited_kfree h p) fun _ => Triple.pure fun _ hbal => hbal
  · refine Triple.bind (audited_deliver h p _ _ _) fun _ => ?_
    exact Triple.bind (audited_kfree h p) fun _ => ih _ (by omega) _ _ _

/-- `disk_read` frees each buffer it obtains, on any machine and on every exit. -/
theorem diskRead_balanced (addr : Nat) (buffer : ByteStore) (len : Nat) :
    Triple (fun t : σ × Ledger => t.2.Balanced) (diskRead h.audited addr buffer len)
      fun _ t => t.2.Balanced := by
  refine Triple.read fun t _ => ?_
  refine Triple.ite (fun _ => Triple.pure fun _ hbal => hbal) fun _ => ?_
  exact Triple.ite (fun _ => Triple.stop) fun _ => diskReadLoop_balanced h _ _ _ _ _ _ _

end Host

/-! ## Writing -/

namespace DiskMachine

/-- The answer to the `i`-th allocation from now. -/
def BufferAt (m : DiskMachine) (i : Nat) : Prop := m.allocOk (m.allocs + i) = true

/-- The request passes the checks, and the `i`-th command from now completes. -/
def MovesAt (m : DiskMachine) (i lba sectorCount : Nat) : Prop :=
  ataAccepts m.disk m.disk.currDisk lba sectorCount = true ∧
    (m.disk.outcome (m.disk.commands + i)).isDone = true

/-- After `c` commands and `a` allocations, on the same drives. -/
structure After (m : DiskMachine) (c a : Nat) (m' : DiskMachine) : Prop where
  disks : m'.disk.disks = m.disk.disks
  currDisk : m'.disk.currDisk = m.disk.currDisk
  outcome : m'.disk.outcome = m.disk.outcome
  allocOk : m'.allocOk = m.allocOk
  commands : m'.disk.commands = m.disk.commands + c
  allocs : m'.allocs = m.allocs + a

namespace After

variable {m m' m'' : DiskMachine} {c c' a a' : Nat}

theorem refl (m : DiskMachine) : After m 0 0 m := ⟨rfl, rfl, rfl, rfl, rfl, rfl⟩

theorem trans (h : After m c a m') (h' : After m' c' a' m'') :
    After m (c + c') (a + a') m'' where
  disks := h'.disks.trans h.disks
  currDisk := h'.currDisk.trans h.currDisk
  outcome := h'.outcome.trans h.outcome
  allocOk := h'.allocOk.trans h.allocOk
  commands := by rw [h'.commands, h.commands, Nat.add_assoc]
  allocs := by rw [h'.allocs, h.allocs, Nat.add_assoc]

theorem bufferAt (h : After m c a m') (i : Nat) : BufferAt m' i ↔ BufferAt m (a + i) := by
  rw [BufferAt, BufferAt, h.allocOk, h.allocs, Nat.add_assoc]

theorem movesAt (h : After m c a m') (i lba count : Nat) :
    MovesAt m' i lba count ↔ MovesAt m (c + i) lba count := by
  rw [MovesAt, MovesAt, h.outcome, h.commands, Nat.add_assoc, ataAccepts, ataAccepts, h.disks,
    h.currDisk]

end After

/-- An allocation, with the ledger. -/
theorem kmalloc_audited (m : DiskMachine) (l : Ledger) (size : Nat) :
    ∃ p m', host.audited.kmalloc size (m, l) = .ok (p, (m', l.obtain p size)) ∧
      After m 0 1 m' ∧ (p ≠ 0 ↔ BufferAt m 0) := by
  cases hok : m.allocOk m.allocs with
  | true =>
      refine ⟨m.allocs + 1, { m with allocs := m.allocs + 1, live := (m.allocs + 1) :: m.live },
        ?_, ⟨rfl, rfl, rfl, rfl, rfl, rfl⟩, ?_⟩
      · simp [Host.audited, recorded, host, kmalloc, hok]
      · simp [BufferAt, hok]
  | false =>
      refine ⟨0, { m with allocs := m.allocs + 1 }, ?_, ⟨rfl, rfl, rfl, rfl, rfl, rfl⟩, ?_⟩
      · simp [Host.audited, recorded, host, kmalloc, hok]
      · simp [BufferAt, hok]

theorem kfree_audited (m : DiskMachine) (l : Ledger) (p : Nat) :
    ∃ m', host.audited.kfree p (m, l) = .ok ((), (m', { l with freed := p :: l.freed })) ∧
      After m 0 0 m' :=
  ⟨_, rfl, ⟨rfl, rfl, rfl, rfl, rfl, rfl⟩⟩

theorem stale_audited (m : DiskMachine) (l : Ledger) (p : Nat) :
    host.audited.stale p (m, l) = .ok (m.staleBytes p, (m, l)) := rfl

theorem fetch_audited (m : DiskMachine) (l : Ledger) (buffer : ByteStore) :
    host.audited.fetch buffer (m, l) = .ok (buffer, (m, l)) := rfl

/-- A command has been issued, on the same drives. -/
structure Issued (d d' : DiskState) : Prop where
  disks : d'.disks = d.disks
  currDisk : d'.currDisk = d.currDisk
  outcome : d'.outcome = d.outcome
  commands : d'.commands = d.commands + 1

/-- A read succeeds when it is accepted and its command completes. -/
theorem ataReadSectors_moves (d : DiskState) (diskNum lba count : Nat) (buffer : ByteStore) :
    ((d.ataReadSectors diskNum lba count buffer).1.1 = true ↔
      ataAccepts d diskNum lba count = true ∧ (d.outcome d.commands).isDone = true) ∧
    ((d.ataReadSectors diskNum lba count buffer).1.1 = true →
      Issued d (d.ataReadSectors diskNum lba count buffer).2) := by
  unfold DiskState.ataReadSectors
  cases hacc : ataAccepts d diskNum lba count with
  | false => simp
  | true =>
      rw [if_pos rfl]
      cases hnext : d.outcome d.commands with
      | done =>
          rw [show d.nextOutcome = .done from hnext]
          exact ⟨by simp [Outcome.isDone], fun _ => ⟨rfl, rfl, rfl, rfl⟩⟩
      | failed garbage =>
          rw [show d.nextOutcome = .failed garbage from hnext]
          exact ⟨by simp [Outcome.isDone], fun h => by cases h⟩

theorem ataWriteSectors_moves (d : DiskState) (diskNum lba count : Nat) (buffer : ByteStore) :
    ((d.ataWriteSectors diskNum lba count buffer).1 = true ↔
      ataAccepts d diskNum lba count = true ∧ (d.outcome d.commands).isDone = true) ∧
    ((d.ataWriteSectors diskNum lba count buffer).1 = true →
      Issued d (d.ataWriteSectors diskNum lba count buffer).2) := by
  unfold DiskState.ataWriteSectors
  cases hacc : ataAccepts d diskNum lba count with
  | false => simp
  | true =>
      rw [if_pos rfl]
      cases hnext : d.outcome d.commands with
      | done =>
          rw [show d.nextOutcome = .done from hnext]
          exact ⟨by simp [Outcome.isDone], fun _ => ⟨rfl, rfl, rfl, rfl⟩⟩
      | failed garbage =>
          rw [show d.nextOutcome = .failed garbage from hnext]
          exact ⟨by simp [Outcome.isDone], fun h => by cases h⟩

theorem Issued.after {m : DiskMachine} {d : DiskState} (h : Issued m.disk d) :
    After m 1 0 { m with disk := d } :=
  ⟨h.disks, h.currDisk, h.outcome, rfl, h.commands, rfl⟩

/-- A read of the current disk, with the ledger. -/
theorem readSectors_audited {m : DiskMachine} {cur : Nat} (hcur : m.disk.currDisk = cur)
    {l : Ledger} {p : Nat} (howes : l.Owes p) (lba count : Nat) (buffer : ByteStore) :
    ∃ r m' l', host.audited.readSectors cur lba count buffer (m, l) = .ok (r, (m', l')) ∧
      l'.Owes p ∧ (r.1 = true ↔ MovesAt m 0 lba count) ∧ (r.1 = true → After m 1 0 m') := by
  subst hcur
  obtain ⟨hiff, hissued⟩ := ataReadSectors_moves m.disk m.disk.currDisk lba count buffer
  exact ⟨_, _, _, rfl, howes.command _ _, hiff, fun h => (hissued h).after⟩

/-- A write to the current disk, with the ledger. -/
theorem writeSectors_audited {m : DiskMachine} {cur : Nat} (hcur : m.disk.currDisk = cur)
    {l : Ledger} {p : Nat} (howes : l.Owes p) (lba count : Nat) (buffer : ByteStore) :
    ∃ r m' l', host.audited.writeSectors cur lba count buffer (m, l) = .ok (r, (m', l')) ∧
      l'.Owes p ∧ (r = true ↔ MovesAt m 0 lba count) ∧ (r = true → After m 1 0 m') := by
  subst hcur
  obtain ⟨hiff, hissued⟩ := ataWriteSectors_moves m.disk m.disk.currDisk lba count buffer
  exact ⟨_, _, _, rfl, howes.command _ _, hiff, fun h => (hissued h).after⟩

/-- The last sector, from a state in which nothing is owed: its buffer is freed
when both of its commands complete. -/
theorem diskWriteLast_balanced_iff {m : DiskMachine} {l : Ledger} {cur : Nat}
    (hcur : m.disk.currDisk = cur) (hbal : l.Balanced) (sectorSize len lba start : Nat)
    (buffer : ByteStore) :
    ∃ n t, diskWriteLast host.audited cur sectorSize len lba start buffer (m, l) = .ok (n, t) ∧
      (t.2.Balanced ↔ (len % sectorSize ≠ 0 → BufferAt m 0 →
        MovesAt m 0 lba 1 ∧ MovesAt m 1 lba 1)) := by
  unfold diskWriteLast
  by_cases hrem : len % sectorSize = 0
  · refine ⟨len, (m, l), by rw [if_pos hrem]; rfl, iff_of_true hbal fun hne => absurd hrem hne⟩
  rw [if_neg hrem]
  obtain ⟨p, m₁, hk, hafter₁, hp⟩ := kmalloc_audited m l sectorSize
  rw [Prog.bind_of_ok hk]
  by_cases hnull : p = 0
  · subst hnull
    refine ⟨start, (m₁, l.obtain 0 sectorSize), by rw [if_pos rfl]; rfl,
      iff_of_true (hbal.null sectorSize) fun _ hbuffer => absurd rfl (hp.mpr hbuffer)⟩
  have hbuffer := hp.mp hnull
  have howes₁ := hbal.owes sectorSize hnull
  rw [if_neg hnull, Prog.bind_of_ok (stale_audited _ _ _)]
  obtain ⟨r, m₂, l₂, hread, howes₂, hmoves, hafter₂⟩ := readSectors_audited
    (hafter₁.currDisk.trans hcur) howes₁ lba 1 (m₁.staleBytes p)
  rw [hafter₁.movesAt] at hmoves
  rw [Prog.bind_of_ok hread]
  cases hr : r.1 with
  | false =>
      refine ⟨start, (m₂, l₂), by rw [if_pos rfl]; rfl, iff_of_false howes₂.not_balanced ?_⟩
      intro hboth
      rw [hmoves.mpr (hboth hrem hbuffer).1] at hr
      cases hr
  | true =>
      have hafter := hafter₁.trans (hafter₂ hr)
      obtain ⟨written, m₃, l₃, hwrite, howes₃, hmoves', _⟩ := writeSectors_audited
        (hafter.currDisk.trans hcur) howes₂ lba 1 (r.2.copy 0 buffer start (len % sectorSize))
      rw [hafter.movesAt] at hmoves'
      rw [if_neg (by decide), Prog.bind_of_ok (fetch_audited _ _ _), Prog.bind_of_ok hwrite]
      cases written with
      | false =>
          refine ⟨start, (m₃, l₃), by rw [if_pos rfl]; rfl, iff_of_false howes₃.not_balanced ?_⟩
          intro hboth
          exact absurd (hmoves'.mpr (hboth hrem hbuffer).2) (by decide)
      | true =>
          obtain ⟨m₄, hfree, _⟩ := kfree_audited m₃ l₃ p
          refine ⟨len, _, by rw [if_neg (by decide), Prog.bind_of_ok hfree]; rfl,
            iff_of_true howes₃.freed fun _ _ => ⟨hmoves.mp hr, hmoves'.mp rfl⟩⟩

/-- The commands for so many whole sectors. -/
def chunks (sectors : Nat) : Nat := (sectors + 255) / 256

/-- The buffer and the command of the `i`-th chunk are answered. -/
def ChunkMoves (m : DiskMachine) (lba sectors i : Nat) : Prop :=
  BufferAt m i ∧ MovesAt m i (u32 (lba + 256 * i)) (sectorsThisCall (sectors - 256 * i))

/-- Every chunk of the whole sectors is written. -/
def WholeMoves (m : DiskMachine) (lba sectors : Nat) : Prop :=
  ∀ i, i < chunks sectors → ChunkMoves m lba sectors i

/-- The loop over the chunks, one chunk on. -/
theorem wholeMoves_succ {m m₁ : DiskMachine} {lba sectors xfer : Nat} (hlba : lba < 2 ^ 32)
    (hxfer : xfer = min sectors 256) (hzero : sectors ≠ 0) (hafter : After m 1 1 m₁) :
    WholeMoves m lba sectors ↔ BufferAt m 0 ∧ MovesAt m 0 lba (sectorsThisCall sectors) ∧
      WholeMoves m₁ (u32 (lba + xfer)) (sectors - xfer) := by
  have hchunks : chunks sectors = chunks (sectors - xfer) + 1 := by
    unfold chunks
    omega
  have hfirst : ChunkMoves m lba sectors 0 ↔
      BufferAt m 0 ∧ MovesAt m 0 lba (sectorsThisCall sectors) := by
    rw [ChunkMoves, Nat.mul_zero, Nat.add_zero, Nat.sub_zero, u32_of_lt hlba]
  have hnext (i : Nat) (hi : i < chunks (sectors - xfer)) :
      ChunkMoves m lba sectors (i + 1) ↔ ChunkMoves m₁ (u32 (lba + xfer)) (sectors - xfer) i := by
    have hfull : xfer = 256 := by
      unfold chunks at hi
      omega
    have haddr : u32 (u32 (lba + xfer) + 256 * i) = u32 (lba + 256 * (i + 1)) := by
      unfold u32
      omega
    have hleft : sectors - xfer - 256 * i = sectors - 256 * (i + 1) := by omega
    rw [ChunkMoves, ChunkMoves, hafter.bufferAt, hafter.movesAt, haddr, hleft, Nat.add_comm 1 i]
  rw [WholeMoves, hchunks]
  constructor
  · intro hall
    obtain ⟨hbuffer, hmoves⟩ := hfirst.mp (hall 0 (Nat.succ_pos _))
    exact ⟨hbuffer, hmoves, fun i hi => (hnext i hi).mp (hall (i + 1) (Nat.succ_lt_succ hi))⟩
  · rintro ⟨hbuffer, hmoves, hrest⟩ i hi
    cases i with
    | zero => exact hfirst.mpr ⟨hbuffer, hmoves⟩
    | succ i => exact (hnext i (Nat.lt_of_succ_lt_succ hi)).mpr (hrest i (Nat.lt_of_succ_lt_succ hi))

/-- The last sector's buffer is obtained. -/
def LastBuffered (m : DiskMachine) (lba sectors : Nat) : Prop :=
  WholeMoves m lba sectors ∧ BufferAt m (chunks sectors)

/-- The read and the write of the last sector complete. -/
def LastMoves (m : DiskMachine) (lba sectors : Nat) : Prop :=
  MovesAt m (chunks sectors) (u32 (lba + sectors)) 1 ∧
    MovesAt m (chunks sectors + 1) (u32 (lba + sectors)) 1

/-- The loop of `disk_write`, and the last sector. -/
theorem diskWriteLoop_balanced_iff {m : DiskMachine} {l : Ledger} {cur : Nat}
    (hcur : m.disk.currDisk = cur) (hbal : l.Balanced) {lba : Nat} (hlba : lba < 2 ^ 32)
    (sectorSize len start sectors : Nat) (buffer : ByteStore) :
    ∃ n t, diskWriteLoop host.audited cur sectorSize len lba start sectors buffer (m, l) =
        .ok (n, t) ∧
      (t.2.Balanced ↔ (len % sectorSize ≠ 0 → LastBuffered m lba sectors →
        LastMoves m lba sectors)) := by
  induction sectors using Nat.strongRecOn generalizing m l lba start with
  | ind sectors ih =>
  rw [diskWriteLoop]
  by_cases hzero : sectors = 0
  · subst hzero
    obtain ⟨n, t, hrun, hiff⟩ :=
      diskWriteLast_balanced_iff hcur hbal sectorSize len lba start buffer
    have hnone : WholeMoves m lba 0 := fun i hi => absurd hi (Nat.not_lt_zero i)
    have hlast : u32 (lba + 0) = lba := u32_of_lt hlba
    refine ⟨n, t, by rw [if_pos rfl, hrun], ?_⟩
    rw [hiff, LastBuffered, LastMoves, hlast]
    exact ⟨fun hall hrem hbuffered => hall hrem hbuffered.2,
      fun hall hrem hbuffered => hall hrem ⟨hnone, hbuffered⟩⟩
  rw [if_neg hzero]
  obtain ⟨xfer, hx⟩ : ∃ xfer, sectorsOf (sectorsThisCall sectors) = xfer := ⟨_, rfl⟩
  have hxfer := sectorsOf_sectorsThisCall hzero
  rw [hx] at hxfer ⊢
  -- a chunk that is not written ends the call with its buffer freed
  have hstopped {n : Nat} {t : DiskMachine × Ledger}
      (hno : ¬ (BufferAt m 0 ∧ MovesAt m 0 lba (sectorsThisCall sectors)))
      (ht : t.2.Balanced) : t.2.Balanced ↔ (len % sectorSize ≠ 0 → LastBuffered m lba sectors →
        LastMoves m lba sectors) := by
    refine iff_of_true ht fun _ hbuffered => absurd ?_ hno
    have hfirst := hbuffered.1 0 (by unfold chunks; omega)
    rw [ChunkMoves, Nat.mul_zero, Nat.add_zero, Nat.sub_zero, u32_of_lt hlba] at hfirst
    exact hfirst
  obtain ⟨p, m₁, hk, hafter₁, hp⟩ := kmalloc_audited m l (u32 (xfer * sectorSize))
  rw [Prog.bind_of_ok hk]
  by_cases hnull : p = 0
  · subst hnull
    refine ⟨start, _, by rw [if_pos rfl]; rfl,
      hstopped (n := 0) (fun hboth => absurd rfl (hp.mpr hboth.1)) (hbal.null (u32 (xfer * sectorSize)))⟩
  have howes₁ := hbal.owes (u32 (xfer * sectorSize)) hnull
  rw [if_neg hnull, Prog.bind_of_ok (stale_audited _ _ _)]
  obtain ⟨written, m₂, l₂, hwrite, howes₂, hmoves, hafter₂⟩ := writeSectors_audited
    (hafter₁.currDisk.trans hcur) howes₁ lba (sectorsThisCall sectors)
    (((m₁.staleBytes p).fill 0 0 (u32 (xfer * sectorSize))).copy 0 buffer start
      (u32 (xfer * sectorSize)))
  rw [hafter₁.movesAt] at hmoves
  obtain ⟨m₃, hfree, hafter₃⟩ := kfree_audited m₂ l₂ p
  rw [Prog.bind_of_ok (fetch_audited _ _ _), Prog.bind_of_ok hwrite]
  cases written with
  | false =>
      refine ⟨start, _, by rw [if_pos rfl, Prog.bind_of_ok hfree]; rfl,
        hstopped (n := 0) (fun hboth => ?_) howes₂.freed⟩
      exact absurd (hmoves.mpr hboth.2) (by decide)
  | true =>
      have hafter : After m 1 1 m₃ := (hafter₁.trans (hafter₂ rfl)).trans hafter₃
      rw [if_neg (by decide), Prog.bind_of_ok hfree]
      obtain ⟨n, t, hrun, hiff⟩ := ih (sectors - xfer) (by omega)
        (hafter.currDisk.trans hcur) howes₂.freed (u32_lt (lba + xfer))
        (u32 (start + u32 (xfer * sectorSize)))
      refine ⟨n, t, hrun, ?_⟩
      have hchunks : chunks sectors = 1 + chunks (sectors - xfer) := by
        unfold chunks
        omega
      have hlast : u32 (u32 (lba + xfer) + (sectors - xfer)) = u32 (lba + sectors) := by
        unfold u32
        omega
      rw [hiff, LastBuffered, LastBuffered, wholeMoves_succ hlba hxfer hzero hafter, LastMoves,
        LastMoves, hafter.bufferAt, hafter.movesAt, hafter.movesAt, hlast, hchunks,
        Nat.add_assoc 1 (chunks (sectors - xfer)) 1]
      have hbuffer := hp.mp hnull
      have hwritten := hmoves.mp rfl
      exact ⟨fun hall hrem hboth => hall hrem ⟨hboth.1.2.2, hboth.2⟩,
        fun hall hrem hboth => hall hrem ⟨⟨hbuffer, hwritten, hboth.1⟩, hboth.2⟩⟩

/-- **The buffers of a transfer.** `disk_read` frees each buffer it obtains, whatever
fails. `disk_write` does if and only if it does not obtain a buffer for a partial
last sector or both commands for that sector complete. -/
theorem transfers_free_buffers_iff (m : DiskMachine) {lba : Nat} (hlba : lba < 2 ^ 32)
    (buffer : ByteStore) (len : Nat) :
    (∀ r t, diskRead host.audited lba buffer len (m, .start) = .ok (r, t) → t.2.Balanced) ∧
    ((∀ n t, diskWrite host.audited lba buffer len (m, .start) = .ok (n, t) → t.2.Balanced) ↔
      (m.disk.curr.valid = true → m.disk.curr.logicalSectorSize ≠ 0 →
        len % m.disk.curr.logicalSectorSize ≠ 0 →
          LastBuffered m lba (len / m.disk.curr.logicalSectorSize) →
            LastMoves m lba (len / m.disk.curr.logicalSectorSize))) := by
  have hstart : Ledger.start.Balanced := List.Perm.refl _
  refine ⟨fun r t => diskRead_balanced host lba buffer len (m, .start) hstart r t, ?_⟩
  obtain ⟨n, t, hloop, hiff⟩ := diskWriteLoop_balanced_iff rfl hstart hlba
    m.disk.curr.logicalSectorSize len 0 (len / m.disk.curr.logicalSectorSize) buffer
  have hrun : diskWrite host.audited lba buffer len (m, .start) =
      if m.disk.curr.valid = false then .ok (0, (m, .start))
      else if m.disk.curr.logicalSectorSize = 0 then .error .divideError else .ok (n, t) := by
    rw [← hloop, diskWrite, Prog.get_bind_apply, Prog.ite_apply, Prog.ite_apply]
    rfl
  rw [hrun]
  by_cases hvalid : m.disk.curr.valid = false
  · rw [if_pos hvalid]
    refine iff_of_true ?_ fun h => absurd (hvalid.symm.trans h) (by decide)
    intro n t heq
    cases heq
    exact hstart
  by_cases hsize : m.disk.curr.logicalSectorSize = 0
  · rw [if_neg hvalid, if_pos hsize]
    refine iff_of_true ?_ fun _ h => absurd hsize h
    intro n t heq
    cases heq
  rw [if_neg hvalid, if_neg hsize]
  constructor
  · intro hall _ _
    exact hiff.mp (hall n t rfl)
  · rintro hall _ _ heq
    cases heq
    exact hiff.mpr (hall (Bool.not_eq_false _ ▸ hvalid) hsize)

/-- Eight 512-byte sectors; every buffer is obtained, and every command ends alike. -/
def diskEnding (outcome : Outcome) : DiskMachine where
  disk := {
    disks := fun _ => ⟨0x200#16, 8, 512, false, true, eightSectors_lt, sectorBytes_lt⟩
    currDisk := 0
    image := fun _ _ => 0#8
    seek := fun _ => lba28
    outcome := fun _ => outcome
    commands := 0
    regs := ⟨0, 0, 0, 0, 0⟩ }
  allocOk := fun _ => true
  staleBytes := fun _ _ => 0#8
  allocs := 0
  live := []

def failingDisk : DiskMachine := diskEnding (.failed fun _ => 0#8)

theorem failingDisk_lastBuffered : LastBuffered failingDisk 0 (100 / 512) :=
  ⟨fun i hi => absurd hi (Nat.not_lt_zero i), rfl⟩

theorem failingDisk_not_lastMoves : ¬ LastMoves failingDisk 0 (100 / 512) := by
  intro h
  exact absurd h.1.2 (by decide)

/-- A write of 100 bytes frees its buffer when its commands complete, not when they fail. -/
theorem transfers_free_buffers_last :
    (∀ n t, diskWrite host.audited 0 (fun _ => 0#8) 100 (diskEnding .done, .start) = .ok (n, t) →
      t.2.Balanced) ∧
    ¬ ∀ n t, diskWrite host.audited 0 (fun _ => 0#8) 100 (failingDisk, .start) = .ok (n, t) →
      t.2.Balanced := by
  have hlba : 0 < 2 ^ 32 := by decide
  constructor
  · refine (transfers_free_buffers_iff (diskEnding .done) hlba (fun _ => 0#8) 100).2.mpr
      fun _ _ _ _ => ⟨⟨?_, rfl⟩, ⟨?_, rfl⟩⟩
    · decide +kernel
    · decide +kernel
  · intro hall
    have hiff := (transfers_free_buffers_iff failingDisk hlba (fun _ => 0#8) 100).2
    exact failingDisk_not_lastMoves
      (hiff.mp hall rfl (by decide) (by decide) failingDisk_lastBuffered)

/-- The buffer of a failed last sector is lost. -/
theorem write_buffer_lost : ¬ ∀ (m : DiskMachine) (lba : Nat) (buffer : ByteStore) (len : Nat),
    lba < 2 ^ 32 → ∀ n t, diskWrite host.audited lba buffer len (m, .start) = .ok (n, t) →
      t.2.Balanced := by
  intro hall
  obtain ⟨n, t, hrun, hiff⟩ := diskWriteLoop_balanced_iff (m := failingDisk) rfl
    (List.Perm.refl _ : Ledger.start.Balanced) (by decide : 0 < 2 ^ 32) 512 100 0 (100 / 512)
    fun _ => 0#8
  exact failingDisk_not_lastMoves (hiff.mp (hall failingDisk 0 (fun _ => 0#8) 100 (by decide) n t hrun)
    (by decide) failingDisk_lastBuffered)

end DiskMachine
end MyOs
