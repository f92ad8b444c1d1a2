import MyOs.Logic.DiskSpec
import Mathlib.Data.List.Perm.Basic

/-!
# Watching the temporary buffers

`Host.audited` runs the driver on the same machine and keeps a ledger of what it
does with its buffers: which it obtained and of what size, which it freed, and
whether every command moved at most the size of the buffer obtained last. The
ledger changes no result (`Watches`).
-/

namespace MyOs

open Prog

/-- The bytes the last command moved: `logical_sector_size / 2` words for each sector. -/
def DiskState.moved (d : DiskState) : Nat :=
  sectorsOf d.regs.secCount.toNat * (d.curr.logicalSectorSize / 2 * 2)

/-- What has been done with temporary buffers. -/
structure Ledger where
  /-- the blocks obtained with the sizes asked for, the latest first -/
  obtained : List (Nat × Nat)
  freed : List Nat
  /-- every command so far fitted the latest block -/
  fits : Bool

namespace Ledger

def start : Ledger := ⟨[], [], true⟩

def obtain (l : Ledger) (p size : Nat) : Ledger :=
  if p = 0 then l else { l with obtained := (p, size) :: l.obtained }

/-- From `d` to `d'` a command may have been issued. -/
def command (l : Ledger) (d d' : DiskState) : Ledger :=
  if d'.commands = d.commands then l
  else { l with fits := l.fits && l.obtained.head?.any fun block => d'.moved ≤ block.2 }

/-- The blocks obtained were freed, each once. -/
def Balanced (l : Ledger) : Prop := l.freed.Perm (l.obtained.map Prod.fst)

/-- So they were, except for `p`. -/
def Owes (p : Nat) (l : Ledger) : Prop := (p :: l.freed).Perm (l.obtained.map Prod.fst)

theorem Owes.not_balanced {p : Nat} {l : Ledger} (h : l.Owes p) : ¬ l.Balanced := by
  intro hbal
  have hlen := h.length_eq
  rw [← hbal.length_eq] at hlen
  exact absurd hlen (Nat.succ_ne_self _)

theorem Owes.freed {p : Nat} {l : Ledger} (h : l.Owes p) :
    Balanced { l with freed := p :: l.freed } := h

theorem Balanced.owes {l : Ledger} {p : Nat} (h : l.Balanced) (size : Nat) (hp : p ≠ 0) :
    (l.obtain p size).Owes p := by
  rw [Ledger.obtain, if_neg hp]
  exact List.Perm.cons p h

theorem Balanced.null {l : Ledger} (h : l.Balanced) (size : Nat) :
    (l.obtain 0 size).Balanced := by
  rw [Ledger.obtain, if_pos rfl]
  exact h

theorem command_obtained (l : Ledger) (d d' : DiskState) :
    (l.command d d').obtained = l.obtained := by
  unfold command
  split <;> rfl

theorem command_freed (l : Ledger) (d d' : DiskState) : (l.command d d').freed = l.freed := by
  unfold command
  split <;> rfl

theorem Owes.command {p : Nat} {l : Ledger} (h : l.Owes p) (d d' : DiskState) :
    (l.command d d').Owes p := by
  rw [Owes, command_obtained, command_freed]
  exact h

end Ledger

/-- A call on the machine, and its entry in the ledger. -/
def recorded {σ α : Type} (x : Prog σ α) (entry : α → Ledger → Ledger) : Prog (σ × Ledger) α :=
  fun t =>
    match x t.1 with
    | .ok (a, s) => .ok (a, (s, entry a t.2))
    | .error e => .error e

theorem recorded_triple {σ α : Type} {x : Prog σ α} {entry : α → Ledger → Ledger}
    {P : σ × Ledger → Prop} {Q : α → σ × Ledger → Prop}
    (h : ∀ s l, P (s, l) → ∀ a s', x s = .ok (a, s') → Q a (s', entry a l)) :
    Triple P (recorded x entry) Q := by
  rintro ⟨s, l⟩ hP a t hrun
  rw [recorded] at hrun
  cases hx : x s with
  | error e =>
      rw [hx] at hrun
      cases hrun
  | ok r =>
      rw [hx] at hrun
      cases hrun
      exact h s l hP _ _ hx

/-- The host with a ledger. -/
def Host.audited {σ : Type} (h : Host σ) : Host (σ × Ledger) where
  kmalloc size := recorded (h.kmalloc size) fun p l => l.obtain p size
  kfree p := recorded (h.kfree p) fun _ l => { l with freed := p :: l.freed }
  stale p := recorded (h.stale p) fun _ l => l
  fetch buffer := recorded (h.fetch buffer) fun _ l => l
  deliver pos n src := recorded (h.deliver pos n src) fun _ l => l
  disk t := h.disk t.1
  setDisk d t := (h.setDisk d t.1, t.2.command (h.disk t.1) d)

/-! ## The ledger only watches -/

/-- `x` does on the machine what `y` does. -/
def Watches {σ α : Type} (x : Prog (σ × Ledger) α) (y : Prog σ α) : Prop :=
  ∀ t, match x t with
    | .ok (a, t') => y t.1 = .ok (a, t'.1)
    | .error e => y t.1 = .error e

namespace Watches

variable {σ α β : Type}

theorem pure (a : α) : Watches (σ := σ) (pure a) (pure a) := fun _ => rfl

theorem stop (e : Stop) : Watches (σ := σ) (α := α) (Prog.stop e) (Prog.stop e) := fun _ => rfl

theorem recorded (x : Prog σ α) (entry : α → Ledger → Ledger) :
    Watches (recorded x entry) x := by
  intro t
  rw [MyOs.recorded]
  cases x t.1 <;> rfl

theorem bind {x : Prog (σ × Ledger) α} {y : Prog σ α} {f : α → Prog (σ × Ledger) β}
    {g : α → Prog σ β} (hx : Watches x y) (hf : ∀ a, Watches (f a) (g a)) :
    Watches (x >>= f) (y >>= g) := by
  intro t
  have hrun := hx t
  cases hxt : x t with
  | error e =>
      rw [hxt] at hrun
      rw [bind_of_error hxt]
      exact bind_of_error hrun
  | ok r =>
      rw [hxt] at hrun
      rw [bind_of_ok hxt, bind_of_ok hrun]
      exact hf r.1 r.2

theorem ite {c : Prop} [Decidable c] {x x' : Prog (σ × Ledger) α} {y y' : Prog σ α}
    (h : Watches x y) (h' : Watches x' y') :
    Watches (if c then x else x') (if c then y else y') := by
  split
  · exact h
  · exact h'

variable (h : Host σ)

theorem kmalloc (size : Nat) : Watches (h.audited.kmalloc size) (h.kmalloc size) :=
  recorded (h.kmalloc size) fun p l => l.obtain p size

theorem kfree (p : Nat) : Watches (h.audited.kfree p) (h.kfree p) :=
  recorded (h.kfree p) fun _ l => { l with freed := p :: l.freed }

theorem stale (p : Nat) : Watches (h.audited.stale p) (h.stale p) :=
  recorded (h.stale p) fun _ l => l

theorem fetch (buffer : ByteStore) : Watches (h.audited.fetch buffer) (h.fetch buffer) :=
  recorded (h.fetch buffer) fun _ l => l

theorem deliver (pos n : Nat) (src : ByteStore) :
    Watches (h.audited.deliver pos n src) (h.deliver pos n src) :=
  recorded (h.deliver pos n src) fun _ l => l

theorem readSectors (diskNum lba count : Nat) (buffer : ByteStore) :
    Watches (h.audited.readSectors diskNum lba count buffer)
      (h.readSectors diskNum lba count buffer) := fun _ => rfl

theorem writeSectors (diskNum lba count : Nat) (buffer : ByteStore) :
    Watches (h.audited.writeSectors diskNum lba count buffer)
      (h.writeSectors diskNum lba count buffer) := fun _ => rfl

theorem diskReadLoop (cur sectorSize len addr start sectors : Nat) (buffer : ByteStore) :
    Watches (diskReadLoop h.audited cur sectorSize len addr start sectors buffer)
      (diskReadLoop h cur sectorSize len addr start sectors buffer) := by
  induction sectors using Nat.strongRecOn generalizing addr start buffer with
  | ind sectors ih =>
  rw [MyOs.diskReadLoop, MyOs.diskReadLoop]
  by_cases hzero : sectors = 0
  · rw [if_pos hzero, if_pos hzero]
    exact .pure _
  have hxfer := sectorsOf_sectorsThisCall hzero
  rw [if_neg hzero, if_neg hzero]
  refine .bind (kmalloc h _) fun p => .ite (.pure _) ?_
  refine .bind (stale h p) fun _ => .bind (readSectors h _ _ _ _) fun r => .ite ?_ ?_
  · exact .bind (kfree h p) fun _ => .pure _
  · refine .bind (deliver h _ _ _) fun _ => ?_
    exact .bind (kfree h p) fun _ => ih _ (by omega) _ _ _

theorem diskWriteLast (cur sectorSize len lba start : Nat) (buffer : ByteStore) :
    Watches (diskWriteLast h.audited cur sectorSize len lba start buffer)
      (diskWriteLast h cur sectorSize len lba start buffer) := by
  rw [MyOs.diskWriteLast, MyOs.diskWriteLast]
  refine .ite (.pure _) ?_
  refine .bind (kmalloc h _) fun p => .ite (.pure _) ?_
  refine .bind (stale h p) fun _ => .bind (readSectors h _ _ _ _) fun r => .ite (.pure _) ?_
  refine .bind (fetch h _) fun _ => .bind (writeSectors h _ _ _ _) fun _ => .ite (.pure _) ?_
  exact .bind (kfree h p) fun _ => .pure _

theorem diskWriteLoop (cur sectorSize len lba start sectors : Nat) (buffer : ByteStore) :
    Watches (diskWriteLoop h.audited cur sectorSize len lba start sectors buffer)
      (diskWriteLoop h cur sectorSize len lba start sectors buffer) := by
  induction sectors using Nat.strongRecOn generalizing lba start buffer with
  | ind sectors ih =>
  rw [MyOs.diskWriteLoop, MyOs.diskWriteLoop]
  by_cases hzero : sectors = 0
  · rw [if_pos hzero, if_pos hzero]
    exact diskWriteLast h _ _ _ _ _ _
  have hxfer := sectorsOf_sectorsThisCall hzero
  rw [if_neg hzero, if_neg hzero]
  refine .bind (kmalloc h _) fun p => .ite (.pure _) ?_
  refine .bind (stale h p) fun _ => .bind (fetch h _) fun _ => ?_
  refine .bind (writeSectors h _ _ _ _) fun _ => .ite ?_ ?_
  · exact .bind (kfree h p) fun _ => .pure _
  · exact .bind (kfree h p) fun _ => ih _ (by omega) _ _ _

/-- `disk_read` reads the same with the ledger. -/
theorem diskRead (addr : Nat) (buffer : ByteStore) (len : Nat) :
    Watches (diskRead h.audited addr buffer len) (diskRead h addr buffer len) := by
  intro t
  simp only [MyOs.diskRead, Prog.get_bind_apply]
  exact (Watches.ite (.pure _) (.ite (.stop _) (diskReadLoop h _ _ _ _ _ _ _))) t

/-- `disk_write` writes the same with the ledger. -/
theorem diskWrite (lba : Nat) (buffer : ByteStore) (len : Nat) :
    Watches (diskWrite h.audited lba buffer len) (diskWrite h lba buffer len) := by
  intro t
  simp only [MyOs.diskWrite, Prog.get_bind_apply]
  exact (Watches.ite (.pure _) (.ite (.stop _) (diskWriteLoop h _ _ _ _ _ _ _))) t

end Watches
end MyOs
