import MyOs.Drivers.Disk

/-!
# What a transfer leaves alone

A property of the machine that the heap calls keep, and that does not look at
the disk, survives `disk_read` and `disk_write`. `F p` is what the property
knows of a block `p` between its `kmalloc` and its `kfree`.
-/

namespace MyOs

open Prog

/-- The heap calls and the accesses to the buffer keep `I`, and blocks are handed over with
`F`; neither depends on the disk. -/
structure Host.Keeps {σ : Type} (h : Host σ) (I : σ → Prop) (F : Nat → Prop) : Prop where
  kmalloc : ∀ size, Triple I (h.kmalloc size) fun p s => I s ∧ F p
  kfree : ∀ p, F p → Triple I (h.kfree p) fun _ => I
  stale : ∀ p, Triple I (h.stale p) fun _ => I
  fetch : ∀ buffer, Triple I (h.fetch buffer) fun _ => I
  deliver : ∀ pos n src, Triple I (h.deliver pos n src) fun _ => I
  setDisk : ∀ d s, I s → I (h.setDisk d s)

section Transfers

variable {σ : Type} {h : Host σ} {I : σ → Prop} {F : Nat → Prop} (hk : h.Keeps I F)

include hk

theorem readSectors_keeps (diskNum lba count : Nat) (buffer : ByteStore) :
    Triple I (h.readSectors diskNum lba count buffer) fun _ => I := by
  intro s hs r s' heq
  cases heq
  exact hk.setDisk _ _ hs

theorem writeSectors_keeps (diskNum lba count : Nat) (buffer : ByteStore) :
    Triple I (h.writeSectors diskNum lba count buffer) fun _ => I := by
  intro s hs r s' heq
  cases heq
  exact hk.setDisk _ _ hs

/-- A block, and the rest of the call with it. -/
theorem withBlock_keeps {α : Type} {size : Nat} {body : Nat → Prog σ α}
    (hbody : ∀ p, F p → Triple I (body p) fun _ => I) :
    Triple I (h.kmalloc size >>= body) fun _ => I := by
  refine Triple.bind (hk.kmalloc size) fun p s hs => ?_
  exact hbody p hs.2 s hs.1

theorem diskReadLoop_keeps (cur sectorSize len addr start sectors : Nat) (buffer : ByteStore) :
    Triple I (diskReadLoop h cur sectorSize len addr start sectors buffer) fun _ => I := by
  induction sectors using Nat.strongRecOn generalizing addr start buffer with
  | ind sectors ih =>
  rw [diskReadLoop]
  refine Triple.ite (fun _ => Triple.pure fun _ hs => hs) fun hzero => ?_
  have hxfer := sectorsOf_sectorsThisCall hzero
  refine withBlock_keeps hk fun p hp => ?_
  refine Triple.ite (fun _ => Triple.pure fun _ hs => hs) fun _ => ?_
  refine Triple.bind (hk.stale p) fun _ => ?_
  refine Triple.bind (readSectors_keeps hk _ _ _ _) fun r => ?_
  refine Triple.ite (fun _ => ?_) fun _ => ?_
  · exact Triple.bind (hk.kfree p hp) fun _ => Triple.pure fun _ hs => hs
  · refine Triple.bind (hk.deliver _ _ _) fun _ => ?_
    exact Triple.bind (hk.kfree p hp) fun _ => ih _ (by omega) _ _ _

theorem diskRead_keeps (addr : Nat) (buffer : ByteStore) (len : Nat) :
    Triple I (diskRead h addr buffer len) fun _ => I := by
  refine Triple.read fun s _ => ?_
  refine Triple.ite (fun _ => Triple.pure fun _ hs => hs) fun _ => ?_
  refine Triple.ite (fun _ => Triple.stop) fun _ => ?_
  exact diskReadLoop_keeps hk _ _ _ _ _ _ _

theorem diskWriteLast_keeps (cur sectorSize len lba start : Nat) (buffer : ByteStore) :
    Triple I (diskWriteLast h cur sectorSize len lba start buffer) fun _ => I := by
  rw [diskWriteLast]
  refine Triple.ite (fun _ => Triple.pure fun _ hs => hs) fun _ => ?_
  refine withBlock_keeps hk fun p hp => ?_
  refine Triple.ite (fun _ => Triple.pure fun _ hs => hs) fun _ => ?_
  refine Triple.bind (hk.stale p) fun _ => ?_
  refine Triple.bind (readSectors_keeps hk _ _ _ _) fun r => ?_
  refine Triple.ite (fun _ => Triple.pure fun _ hs => hs) fun _ => ?_
  refine Triple.bind (hk.fetch _) fun data => ?_
  refine Triple.bind (writeSectors_keeps hk _ _ _ _) fun written => ?_
  refine Triple.ite (fun _ => Triple.pure fun _ hs => hs) fun _ => ?_
  exact Triple.bind (hk.kfree p hp) fun _ => Triple.pure fun _ hs => hs

theorem diskWriteLoop_keeps (cur sectorSize len lba start sectors : Nat) (buffer : ByteStore) :
    Triple I (diskWriteLoop h cur sectorSize len lba start sectors buffer) fun _ => I := by
  induction sectors using Nat.strongRecOn generalizing lba start buffer with
  | ind sectors ih =>
  rw [diskWriteLoop]
  refine Triple.ite (fun _ => diskWriteLast_keeps hk _ _ _ _ _ _) fun hzero => ?_
  have hxfer := sectorsOf_sectorsThisCall hzero
  refine withBlock_keeps hk fun p hp => ?_
  refine Triple.ite (fun _ => Triple.pure fun _ hs => hs) fun _ => ?_
  refine Triple.bind (hk.stale p) fun _ => ?_
  refine Triple.bind (hk.fetch _) fun data => ?_
  refine Triple.bind (writeSectors_keeps hk _ _ _ _) fun written => ?_
  refine Triple.ite (fun _ => ?_) fun _ => ?_
  · exact Triple.bind (hk.kfree p hp) fun _ => Triple.pure fun _ hs => hs
  · exact Triple.bind (hk.kfree p hp) fun _ => ih _ (by omega) _ _ _

theorem diskWrite_keeps (lba : Nat) (buffer : ByteStore) (len : Nat) :
    Triple I (diskWrite h lba buffer len) fun _ => I := by
  refine Triple.read fun s _ => ?_
  refine Triple.ite (fun _ => Triple.pure fun _ hs => hs) fun _ => ?_
  refine Triple.ite (fun _ => Triple.stop) fun _ => ?_
  exact diskWriteLoop_keeps hk _ _ _ _ _ _ _

end Transfers
end MyOs
