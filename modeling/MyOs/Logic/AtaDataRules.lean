import MyOs.Drivers.AtaData
import MyOs.Logic.AtaCommands

/-!
# Rules for the transfers with their data

When no busy period outlasts the timeout, a wait ends with the drive as it said it
would be, and a transfer fails only where the drive reports an error. The rules say
of every step where the drive is and where the next word lies.
-/

namespace MyOs

open Prog

namespace AtaBus

open Channel

section Waiting

variable {base : Nat} {slave : Bool} {P O : Drive → Prop}

/-- The status of a drive that requests data. -/
theorem status_request {d : Drive} (h : d.busy = 0) (hdrq : d.phase.drq = true) :
    d.status = 0x50#8 ||| ataStatusDrq := by
  rw [Drive.status, if_neg (by simpa using h)]
  revert hdrq
  cases d.phase with
  | idle => exact fun hno => absurd hno Bool.false_ne_true
  | failed => exact fun hno => absurd hno Bool.false_ne_true
  | dataIn _ _ => exact fun _ => rfl
  | dataOut _ _ => exact fun _ => rfl

/-- A drive that is not busy does not show the busy bit. -/
theorem status_free {d : Drive} (h : d.busy = 0) : d.status &&& ataStatusBsy = 0#8 := by
  cases hdrq : d.phase.drq with
  | true =>
      rw [status_request h hdrq]
      decide
  | false =>
      rw [Drive.status, if_neg (by simpa using h)]
      revert hdrq
      cases d.phase with
      | idle => exact fun _ => rfl
      | failed => exact fun _ => rfl
      | dataIn _ _ => exact fun hno => absurd hno.symm Bool.false_ne_true
      | dataOut _ _ => exact fun hno => absurd hno.symm Bool.false_ne_true

theorem ataWaitForBsy_prompt (hP : ∀ d, P d → P d.tick) (timeout : Nat) :
    Triple (On base (Working slave (fun d => P d ∧ d.busy < timeout) O))
      (ataWaitForBsy base timeout) fun r s =>
        r = true ∧ On base (Working slave (fun d => P d ∧ d.busy = 0) O) s := by
  induction timeout with
  | zero =>
      exact Triple.pure fun s hs => absurd hs.here.drive.2 (Nat.not_lt_zero _)
  | succ timeout ih =>
      refine Triple.bind (status_rule (Q := fun r d => P d ∧
        if r &&& ataStatusBsy = 0#8 then d.busy = 0 else d.busy < timeout) (.inl rfl)
        fun d hd => ⟨hP d hd.1, ?_⟩) fun r => Triple.ite (fun hr => Triple.pure fun s hs => ⟨rfl, ?_⟩)
          fun hr => ih.weaken (fun s hs => ?_) fun _ _ h => h
      · split
        · next h =>
            change d.busy - 1 = 0
            rw [Drive.status_bsy h]
        · next h =>
            have hne : d.busy ≠ 0 := fun hzero => h (status_free hzero)
            change d.busy - 1 < timeout
            have := hd.2
            omega
      · exact hs.mono fun ch hch => hch.mono fun d hd => ⟨hd.1, by simpa [hr] using hd.2⟩
      · exact hs.mono fun ch hch => hch.mono fun d hd => ⟨hd.1, by simpa [hr] using hd.2⟩

/-- A drive that is not busy any more requests data, or has reported an error. -/
theorem ataWaitForDrq_prompt {next : Phase} (hP : ∀ d, P d → P d.tick) (hnext : next.drq = true)
    (timeout : Nat) :
    Triple (On base (Working slave (fun d => (P d ∧ d.Announces next) ∧ d.busy = 0) O))
      (ataWaitForDrq base (timeout + 1)) fun r => On base (Working slave (fun d => P d ∧
        d.busy = 0 ∧ d.phase = if r then next else .failed) O) := by
  refine Triple.bind (status_rule (Q := fun r d => P d ∧ d.busy = 0 ∧
      (r &&& ataStatusErr ≠ 0#8 ∧ d.phase = .failed ∨
        r &&& ataStatusErr = 0#8 ∧ r &&& ataStatusDrq ≠ 0#8 ∧ d.phase = next)) (.inl rfl)
    fun d hd => ⟨hP d hd.1.1, by simp [Drive.tick, hd.2], ?_⟩) fun r => ?_
  · rcases hd.1.2 with h | h
    · rw [status_request hd.2 (by rw [h]; exact hnext)]
      exact .inr ⟨by decide, by decide, h⟩
    · rw [Drive.status, if_neg (by simpa using hd.2), h]
      exact .inl ⟨by decide, h⟩
  · refine Triple.ite (fun herr => Triple.pure fun s hs => ?_) fun herr =>
      Triple.ite (fun hdrq => Triple.pure fun s hs => ?_) fun hdrq => ?_
    · refine hs.mono fun ch hch => hch.mono fun d hd => ⟨hd.1, hd.2.1, ?_⟩
      rcases hd.2.2 with h | h
      · exact h.2
      · exact absurd h.1 herr
    · refine hs.mono fun ch hch => hch.mono fun d hd => ⟨hd.1, hd.2.1, ?_⟩
      rcases hd.2.2 with h | h
      · exact absurd h.1 herr
      · exact h.2.2
    · intro s hs
      rcases hs.here.drive.2.2 with h | h
      · exact absurd h.1 herr
      · exact absurd h.2.1 hdrq

theorem waitForData_prompt {next : Phase} (hP : ∀ d, P d → P d.tick) (hnext : next.drq = true) :
    Triple (On base (Working slave (fun d => (P d ∧ d.Announces next) ∧ d.busy < bsyTimeout) O))
      (waitForData base) fun r => On base (Working slave (fun d => P d ∧
        d.busy = 0 ∧ d.phase = if r then next else .failed) O) := by
  refine Triple.bind (ataWaitForBsy_prompt (fun d hd => ⟨hP d hd.1, hd.2⟩) _) fun free => ?_
  intro s hs
  obtain ⟨rfl, hs⟩ := hs
  exact ataWaitForDrq_prompt hP hnext 999999 s hs

theorem readAltstatus_channel {P : Channel → Prop}
    (hP : ∀ ch, P ch → P (ch.setSelected ch.selected.tick)) (n : Nat) :
    Triple (On base P) (readAltstatus base n) fun _ => On base P :=
  Triple.forLoop (I := fun _ => On base P) (fun _ =>
    Triple.bind (inb_rule (Q := fun _ => P) (.inr rfl) hP) fun _ => Triple.pure fun _ hs => hs) n 0

end Waiting

/-! ## Other channels -/

/-- The channels of the other base ports. -/
def Aside (base : Nat) (chs : Nat → Channel) (s : AtaBus) : Prop :=
  ∀ c, c ≠ base → s.channels c = chs c

section Aside

variable {m : AtaSetup} {base : Nat} {chs : Nat → Channel}

theorem Aside.set {s : AtaBus} (h : Aside base chs s) (ch : Channel) :
    Aside base chs (s.setChannel base ch) := fun c hc => by
  simp only [setChannel, Function.update_of_ne hc, h c hc]

theorem inb_aside (reg : Nat) : Triple (Aside base chs) (inb base reg) fun _ => Aside base chs := by
  refine Triple.read fun s _ => Triple.ite (fun _ => ?_) fun _ => Triple.pure fun _ hs => hs
  exact Triple.bind (Triple.modify (Q := fun _ => Aside base chs) fun _ hs => hs.set _)
    fun _ => Triple.pure fun _ hs => hs

theorem outb_aside (reg : Nat) (value : Byte) :
    Triple (Aside base chs) (outb m base reg value) fun _ => Aside base chs := by
  refine Triple.modify fun s hs => ?_
  by_cases hreg : reg = ataRegCmdStatus
  · simp only [if_pos hreg]
    exact hs.set _
  · simp only [if_neg hreg]
    exact hs.set _

theorem ataWaitForBsy_aside (timeout : Nat) :
    Triple (Aside base chs) (ataWaitForBsy base timeout) fun _ => Aside base chs := by
  induction timeout with
  | zero => exact Triple.pure fun _ hs => hs
  | succ timeout ih =>
      exact Triple.bind (inb_aside _) fun _ =>
        Triple.ite (fun _ => Triple.pure fun _ hs => hs) fun _ => ih

theorem ataWaitForDrq_aside (timeout : Nat) :
    Triple (Aside base chs) (ataWaitForDrq base timeout) fun _ => Aside base chs := by
  induction timeout with
  | zero => exact Triple.pure fun _ hs => hs
  | succ timeout ih =>
      exact Triple.bind (inb_aside _) fun _ =>
        Triple.ite (fun _ => Triple.pure fun _ hs => hs) fun _ =>
          Triple.ite (fun _ => Triple.pure fun _ hs => hs) fun _ => ih

theorem waitForData_aside :
    Triple (Aside base chs) (waitForData base) fun _ => Aside base chs :=
  Triple.bind (ataWaitForBsy_aside _) fun _ =>
    Triple.ite (fun _ => ataWaitForDrq_aside _) fun _ => Triple.pure fun _ hs => hs

theorem waitUntilFree_aside (fuel : Nat) :
    Triple (Aside base chs) (waitUntilFree base fuel) fun _ => Aside base chs := by
  induction fuel with
  | zero => exact Triple.stop
  | succ fuel ih =>
      exact Triple.bind (ataWaitForBsy_aside _) fun _ =>
        Triple.ite (fun _ => Triple.pure fun _ hs => hs) fun _ => ih

theorem readAltstatus_aside (n : Nat) :
    Triple (Aside base chs) (readAltstatus base n) fun _ => Aside base chs :=
  Triple.forLoop (I := fun _ => Aside base chs) (fun _ =>
    Triple.bind (inb_aside _) fun _ => Triple.pure fun _ hs => hs) n 0

end Aside
end AtaBus

namespace AtaStore

open AtaBus Channel

section Rules

variable {m : AtaDrives} {base : Nat} {slave : Bool} {O : Drive → Prop}
  {imgs : Nat → Bool → ByteStore} {pos : Nat}

/-- What the data are is not the bus's affair. -/
theorem control_rule {α : Type} {x : Prog AtaBus α} {P : AtaBus → Prop} {Q : α → AtaBus → Prop}
    {K : (Nat → Bool → ByteStore) → (Nat → Bool → Nat) → Prop} (h : Triple P x Q) :
    Triple (fun s => P s.bus ∧ K s.image s.place) (control x)
      fun a s => Q a s.bus ∧ K s.image s.place := by
  intro s hs a t hrun
  obtain ⟨bus, hx, rfl⟩ := zoom_eq_ok.mp hrun
  exact ⟨h s.bus hs.1 a bus hx, hs.2⟩

/-- The drive is as `P` says, the contents are `imgs`, and the next word lies at `pos`. -/
def Stage (base : Nat) (slave : Bool) (P O : Drive → Prop) (imgs : Nat → Bool → ByteStore)
    (pos : Nat) (s : AtaStore) : Prop :=
  On base (Working slave P O) s.bus ∧ s.image = imgs ∧ s.place base slave = pos

theorem setDrive_self {α : Type} (f : Nat → Bool → α) (a : α) :
    setDrive f base slave a base slave = a := if_pos ⟨rfl, rfl⟩

/-- Only a read or a write sets the place. -/
theorem outb_eq_control {reg : Nat} {value : Byte}
    (h : reg = ataRegCmdStatus → value ≠ ataCmdRead ∧ value ≠ ataCmdWrite) :
    outb m base reg value = control (AtaBus.outb m.toAtaSetup base reg value) := by
  funext s
  rw [outb, get_bind_apply]
  refine congrFun (if_neg ?_) s
  rintro ⟨hreg, _, hvalue⟩
  obtain ⟨hread, hwrite⟩ := h hreg
  exact hvalue.elim hread hwrite

/-! ## Sending the command -/

/-- Both drives are ready, and the registers are as `K` says. -/
def Latched (slave : Bool) (periods : Nat) (K : TaskFile → Prop) (ch : Channel) : Prop :=
  Working slave (fun d => d.ready = true ∧ d.periods = periods) (fun d => d.ready = true) ch ∧
    K ch.regs

theorem latch_rule {periods reg : Nat} {value : Byte} {J : TaskFile → Prop}
    (K : TaskFile → Prop) (hcmd : reg ≠ ataRegCmdStatus) (hselect : reg ≠ ataRegDriveSelect)
    (hK : ∀ ch : Channel, J ch.regs → K (ch.latch reg value).regs) :
    Triple (fun s => On base (Latched slave periods J) s.bus ∧ s.image = imgs)
      (outb m base reg value)
      fun _ s => On base (Latched slave periods K) s.bus ∧ s.image = imgs := by
  rw [outb_eq_control fun hreg => absurd hreg hcmd]
  exact control_rule (K := fun image _ => image = imgs)
    (outb_rule hcmd fun ch hch => ⟨hch.1.latch hselect, hK ch hch.2⟩)

/-- The command starts the drive, and the place is the one the registers name. -/
theorem start_rule {periods : Nat} {regs : TaskFile} {cmd : Byte} (next : Phase)
    (hcmd : cmd = ataCmdRead ∨ cmd = ataCmdWrite)
    (haccept : ∀ d : Drive, d.accept (m.spec base slave) (sectorsOf regs.secCount.toNat) cmd =
      d.start (m.spec base slave) next) :
    Triple (fun s => On base (Latched slave periods (· = regs)) s.bus ∧ s.image = imgs)
      (outb m base ataRegCmdStatus cmd) fun _ => Stage base slave
        (fun d => (d.periods = periods + 1 ∧ d.Announces next) ∧ d.busy < bsyTimeout)
        (fun d => d.ready = true) imgs (lba28 regs * sectorBytes m base slave) := by
  refine Triple.read fun s hs => ?_
  obtain ⟨hbus, rfl⟩ := hs
  have hselected := hbus.here.1.selected
  have hregs : (s.bus.channels base).regs = regs := hbus.here.2
  have hready : (s.bus.channels base).selected.ready = true := by
    rw [selected, hselected]
    exact hbus.here.1.drive.1
  refine Triple.ite (fun _ => ?_) fun hno => absurd ⟨rfl, hready, hcmd⟩ hno
  rw [hselected, hregs]
  refine Triple.bind (Q := fun _ t => On base (Latched slave periods (· = regs)) t.bus ∧
      t.image = s.image ∧ t.place base slave = lba28 regs * sectorBytes m base slave)
    (Triple.modify fun t ht => ⟨ht.1, ht.2, setDrive_self _ _⟩) fun _ => ?_
  refine control_rule (K := fun image place => image = s.image ∧ place base slave = _)
    (command_rule (fun ch hch => ?_) fun ch hch => ?_)
  · rw [selected, hch.1.selected]
    exact hch.1.drive.1
  · have hready : ch.selected.ready = true := by
      rw [selected, hch.1.selected]
      exact hch.1.drive.1
    rw [command, if_pos hready, hch.2, hch.1.selected, haccept]
    exact hch.1.set (f := fun d => d.start _ next) fun d hd =>
      ⟨⟨congrArg (· + 1) hd.2, Drive.start_phase next⟩, m.delay_lt _ _ _⟩

/-- What both calls send, to drives that are ready. -/
theorem sendCommand_stage {disk : AtaDisk} {lba periods : Nat} {sectorCount cmd : Byte}
    {next : Phase} (hcmd : cmd = ataCmdRead ∨ cmd = ataCmdWrite)
    (haccept : ∀ d : Drive, d.accept (m.spec disk.baseIoPort disk.slave)
      (sectorsOf sectorCount.toNat) cmd = d.start (m.spec disk.baseIoPort disk.slave) next) :
    Triple (fun s => On disk.baseIoPort (BothReady disk.slave periods) s.bus ∧ s.image = imgs)
      (sendCommand m disk lba sectorCount cmd) fun _ => Stage disk.baseIoPort disk.slave
        (fun d => (d.periods = periods + 1 ∧ d.Announces next) ∧ d.busy < bsyTimeout)
        (fun d => d.ready = true) imgs
        (lba28 (taskFile disk.toIdentifyDeviceData lba sectorCount.toNat) *
          sectorBytes m disk.baseIoPort disk.slave) := by
  have hcount : BitVec.ofNat 8 sectorCount.toNat = sectorCount := by simp
  let select := driveSelection disk.toIdentifyDeviceData ||| getLbaHighest lba
  refine Triple.bind (Q := fun _ s => On disk.baseIoPort (Latched disk.slave periods
    fun t => t.driveSelect = select) s.bus ∧ s.image = imgs) ?_ fun _ => ?_
  · rw [outb_eq_control fun hreg => absurd hreg (by decide)]
    refine control_rule (K := fun image _ => image = imgs) (outb_rule (by decide)
      fun ch hch => ⟨⟨latch_select.trans ?_, ?_, ?_⟩, rfl⟩)
    · exact driveSelection_slave disk.toIdentifyDeviceData lba
    · rw [latch_drives]
      exact ⟨(hch disk.slave).1, (hch disk.slave).2 rfl⟩
    · rw [latch_drives]
      exact (hch !disk.slave).1
  refine Triple.bind (control_rule (K := fun image _ => image = imgs)
    (readAltstatus_channel (fun ch hch => ⟨hch.1.set (f := Drive.tick)
      fun d hd => ⟨Drive.ready_tick hd.1, hd.2⟩, hch.2⟩) 14)) fun _ => ?_
  refine Triple.bind (latch_rule (fun t => t.driveSelect = select ∧
    t.secCount = sectorCount) (by decide) (by decide) fun _ h => ⟨h, rfl⟩) fun _ => ?_
  refine Triple.bind (latch_rule (fun t => (t.driveSelect = select ∧
    t.secCount = sectorCount) ∧ t.lbaLow = getLbaLow lba) (by decide) (by decide)
    fun _ h => ⟨h, rfl⟩) fun _ => ?_
  refine Triple.bind (latch_rule (fun t => ((t.driveSelect = select ∧
    t.secCount = sectorCount) ∧ t.lbaLow = getLbaLow lba) ∧ t.lbaMid = getLbaMid lba)
    (by decide) (by decide) fun _ h => ⟨h, rfl⟩) fun _ => ?_
  refine Triple.bind (latch_rule
    (· = taskFile disk.toIdentifyDeviceData lba sectorCount.toNat)
    (by decide) (by decide) fun ch h => ?_) fun _ => ?_
  · obtain ⟨⟨⟨h₁, h₂⟩, h₃⟩, h₄⟩ := h
    rw [taskFile, hcount]
    exact TaskFile.mk.injEq .. |>.mpr ⟨h₁, h₂, h₃, h₄, rfl⟩
  · refine Triple.bind (start_rule next hcmd fun d => ?_) fun _ => ?_
    · rw [taskFile, hcount]
      exact haccept d
    · exact control_rule (K := fun image place => image = imgs ∧
        place disk.baseIoPort disk.slave = _) (readAltstatus_rule (fun d hd =>
          ⟨hd.1, Nat.lt_of_le_of_lt (Nat.sub_le _ _) hd.2⟩) 4)

/-! ## The words of a sector -/

/-- A word is two bytes. -/
theorem halfBytes_wordAt (img : ByteStore) (pos : Nat) :
    halfBytes (wordAt img pos) = img.load pos 2 := by
  have hlow : (img (pos + 1) ++ img pos).extractLsb' 0 8 = img pos := by
    apply BitVec.eq_of_getLsbD_eq
    intro i hi
    rw [BitVec.getLsbD_extractLsb', BitVec.getLsbD_append]
    simp [hi]
  have hhigh : (img (pos + 1) ++ img pos).extractLsb' 8 8 = img (pos + 1) := by
    apply BitVec.eq_of_getLsbD_eq
    intro i hi
    rw [BitVec.getLsbD_extractLsb', BitVec.getLsbD_append]
    simp [hi]
  rw [halfBytes, wordAt, hlow, hhigh]
  rfl

/-- A word and the rest of a copy. -/
theorem copy_word (buffer img : ByteStore) (dst pos n : Nat) :
    (buffer.store dst (halfBytes (wordAt img pos))).copy (dst + 2) img (pos + 2) (2 * n) =
      buffer.copy dst img pos (2 * (n + 1)) := by
  rw [halfBytes_wordAt, show 2 * (n + 1) = 2 + 2 * n by omega, ByteStore.copy_add]
  rfl

/-- The drive has `n` words of a sector to give, and `sectors` after that one. -/
def Giving (spec : DriveSpec) (sectors : Nat) : (n : Nat) → Drive → Prop
  | 0, d => (True ∧ d.Announces (.nextIn spec sectors)) ∧ d.busy < bsyTimeout
  | n + 1, d => d.busy = 0 ∧ d.phase = .dataIn (n + 1) sectors

theorem Giving.giveWord {sectors n : Nat} {d : Drive}
    (h : Giving (m.spec base slave) sectors (n + 1) d) :
    Giving (m.spec base slave) sectors n (d.giveWord (m.spec base slave)) := by
  obtain ⟨hbusy, hphase⟩ := h
  cases n with
  | succ n =>
      rw [Drive.giveWord_more hbusy hphase (by omega)]
      exact ⟨hbusy, rfl⟩
  | zero =>
      refine ⟨⟨trivial, Drive.giveWord_last hbusy hphase (by decide)⟩, ?_⟩
      simp only [Drive.giveWord, hbusy, hphase]
      cases sectors with
      | zero => exact (by decide : 0 < bsyTimeout)
      | succ sectors => exact m.delay_lt _ _ _

theorem Giving.tick {spec : DriveSpec} {sectors : Nat} {d : Drive} (h : Giving spec sectors 0 d) :
    Giving spec sectors 0 d.tick :=
  ⟨h.1, Nat.lt_of_le_of_lt (Nat.sub_le _ _) h.2⟩

theorem in16_stage {sectors n : Nat} :
    Triple (Stage base slave (Giving (m.spec base slave) sectors (n + 1)) O imgs pos) (in16 m base)
      fun value s => value = wordAt (imgs base slave) pos ∧
        Stage base slave (Giving (m.spec base slave) sectors n) O imgs (pos + 2) s := by
  refine Triple.read fun s hs => ?_
  obtain ⟨hbus, rfl, rfl⟩ := hs
  have hselected := hbus.here.selected
  have hdrive : Giving (m.spec base slave) sectors (n + 1) (s.bus.channels base).selected := by
    rw [selected, hselected]
    exact hbus.here.drive
  obtain ⟨hbusy, hphase⟩ := hdrive
  simp only [hbusy, hphase, hselected]
  refine Triple.bind (control_rule (K := fun image place => image = s.image ∧
    place base slave = s.place base slave) (in16_rule fun d hd => Giving.giveWord hd)) fun _ => ?_
  refine Triple.bind (Q := fun _ => Stage base slave (Giving (m.spec base slave) sectors n) O
    s.image (s.place base slave + 2)) (Triple.modify fun t ht => ⟨ht.1, ht.2.1, ?_⟩)
    fun _ => Triple.pure fun t ht => ⟨rfl, ht⟩
  exact (setDrive_self _ _).trans (congrArg (· + 2) ht.2.2)

theorem readWords_stage (sectors n dst : Nat) (buffer : ByteStore) :
    Triple (Stage base slave (Giving (m.spec base slave) sectors n) O imgs pos)
      (readWords m base n dst buffer) fun b s => b = buffer.copy dst (imgs base slave) pos (2 * n) ∧
        Stage base slave (Giving (m.spec base slave) sectors 0) O imgs (pos + 2 * n) s := by
  induction n generalizing dst buffer pos with
  | zero => exact Triple.pure fun s hs => ⟨ByteStore.copy_zero.symm, hs⟩
  | succ n ih =>
      refine Triple.bind in16_stage fun value => ?_
      intro s hs
      obtain ⟨rfl, hs⟩ := hs
      intro b t hrun
      obtain ⟨rfl, ht⟩ := ih (dst + 2) _ s hs b t hrun
      refine ⟨copy_word .., ?_⟩
      rw [show pos + 2 * (n + 1) = pos + 2 + 2 * n by omega]
      exact ht

/-- A read returns the bytes of its sectors, or leaves the rest of the buffer as it was. -/
structure Filled (buffer : ByteStore) (dst : Nat) (img : ByteStore) (pos n : Nat)
    (r : Bool × ByteStore) : Prop where
  complete : r.1 = true → r.2 = buffer.copy dst img pos n
  outside : ∀ a, a < dst ∨ dst + n ≤ a → r.2 a = buffer a

/-- A drive that is done or has failed. -/
def Done (d : Drive) : Prop := d.phase.drq = false ∧ d.busy < bsyTimeout

theorem readLoop_stage {disk : AtaDisk}
    (hsize : disk.logicalSectorSize = 2 * (m.spec disk.baseIoPort disk.slave).sectorWords)
    (hpos : 0 < (m.spec disk.baseIoPort disk.slave).sectorWords) (sectors dst : Nat)
    (buffer : ByteStore) :
    Triple (Stage disk.baseIoPort disk.slave
        (Giving (m.spec disk.baseIoPort disk.slave) sectors 0) O imgs pos)
      (readLoop m disk sectors dst buffer) fun r s =>
        (On disk.baseIoPort (Working disk.slave Done O) s.bus ∧ s.image = imgs) ∧
          Filled buffer dst (imgs disk.baseIoPort disk.slave) pos
            (sectors * sectorBytes m disk.baseIoPort disk.slave) r := by
  have hhalf : disk.logicalSectorSize / 2 = (m.spec disk.baseIoPort disk.slave).sectorWords := by
    omega
  induction sectors generalizing dst buffer pos with
  | zero =>
      refine Triple.pure fun s hs => ⟨⟨hs.1.mono fun ch hch => hch.mono fun d hd =>
        ⟨hd.1.2.no_drq rfl, hd.2⟩, hs.2.1⟩, fun _ => ?_, fun _ _ => rfl⟩
      rw [Nat.zero_mul, ByteStore.copy_zero]
  | succ sectors ih =>
      refine Triple.bind (control_rule (K := fun image place => image = imgs ∧
        place disk.baseIoPort disk.slave = pos)
        (waitForData_prompt (P := fun _ => True) (fun _ h => h) rfl)) fun ok => ?_
      cases ok with
      | false =>
          refine Triple.pure fun s hs => ⟨⟨hs.1.mono fun ch hch => hch.mono fun d hd => ?_,
            hs.2.1⟩, (fun h => nomatch h), fun _ _ => rfl⟩
          obtain ⟨_, hbusy, hphase⟩ := hd
          exact ⟨by rw [hphase]; rfl, by rw [hbusy]; decide⟩
      | true =>
          -- the sector, and then the others
          refine Triple.bind ((readWords_stage sectors (disk.logicalSectorSize / 2) dst
            buffer).weaken (fun s hs => ⟨hs.1.mono fun ch hch => hch.mono fun d hd => ?_, hs.2⟩)
            fun _ _ h => h) fun b => ?_
          · obtain ⟨words, hwords⟩ := Nat.exists_eq_succ_of_ne_zero (Nat.ne_of_gt hpos)
            obtain ⟨_, hbusy, hphase⟩ := hd
            change d.phase = .dataIn (m.spec disk.baseIoPort disk.slave).sectorWords sectors
              at hphase
            rw [hwords] at hphase
            rw [hhalf, hwords]
            exact ⟨hbusy, hphase⟩
          · intro s hs
            obtain ⟨rfl, hs⟩ := hs
            have hdelay : Triple (Stage disk.baseIoPort disk.slave
                (Giving (m.spec disk.baseIoPort disk.slave) sectors 0) O imgs
                (pos + 2 * (disk.logicalSectorSize / 2)))
                (control (delay400ns disk.baseIoPort)) fun _ => Stage disk.baseIoPort disk.slave
                  (Giving (m.spec disk.baseIoPort disk.slave) sectors 0) O imgs
                  (pos + 2 * (disk.logicalSectorSize / 2)) :=
              control_rule (K := fun image place => image = imgs ∧
                place disk.baseIoPort disk.slave = pos + 2 * (disk.logicalSectorSize / 2))
                (readAltstatus_rule (fun d hd => hd.tick) 14)
            refine Triple.bind hdelay (fun _ => ?_) s hs
            refine (ih _ _).weaken (fun _ h => h) fun r t h => ⟨h.1, ?_⟩
            rw [show (sectors + 1) * sectorBytes m disk.baseIoPort disk.slave =
              2 * (disk.logicalSectorSize / 2) +
                sectors * sectorBytes m disk.baseIoPort disk.slave by
                  rw [Nat.succ_mul, Nat.add_comm, hhalf]
                  rfl]
            refine ⟨fun hr => ?_, fun a ha => ?_⟩
            · rw [h.2.complete hr, ByteStore.copy_add]
            · rw [h.2.outside a (by omega), ByteStore.copy_outside (by omega)]

/-! ## Writing one sector -/

/-- A sector is taken at once and without an error. -/
def StoresAtOnce (spec : DriveSpec) (period : Nat) : Prop :=
  spec.delay period = 0 ∧ spec.fails period = false

/-- The drive takes `n` more words of its last sector. -/
def Taking (period : Nat) : (n : Nat) → Drive → Prop
  | 0, d => d.ready = true
  | n + 1, d => d.busy = 0 ∧ d.periods = period ∧ d.phase = .dataOut (n + 1) 0

theorem Taking.takeWord {period n : Nat} {d : Drive}
    (hstores : StoresAtOnce (m.spec base slave) period) (h : Taking period (n + 1) d) :
    Taking period n (d.takeWord (m.spec base slave)) := by
  obtain ⟨hbusy, hperiods, hphase⟩ := h
  cases n with
  | succ n =>
      rw [Drive.takeWord_more hbusy hphase (by omega)]
      exact ⟨hbusy, hperiods, rfl⟩
  | zero =>
      rw [Drive.takeWord_last hbusy hphase (by decide)]
      refine Drive.ready_iff.mpr ⟨?_, (Drive.start_phase .idle).no_drq rfl⟩
      change (m.spec base slave).delay d.periods = 0
      rw [hperiods, hstores.1]

theorem setDrive_setDrive {α : Type} (f : Nat → Bool → α) (a a' : α) :
    setDrive (setDrive f base slave a) base slave a' = setDrive f base slave a' := by
  funext c b
  simp only [setDrive]
  split <;> rfl

theorem setDrive_eq_self {α : Type} (f : Nat → Bool → α) :
    setDrive f base slave (f base slave) = f := by
  funext c b
  simp only [setDrive]
  split
  · next h => rw [h.1, h.2]
  · rfl

theorem out16_stage {period n : Nat} (hstores : StoresAtOnce (m.spec base slave) period)
    (img : ByteStore) (value : BitVec 16) :
    Triple (Stage base slave (Taking period (n + 1)) O (setDrive imgs base slave img) pos)
      (out16 m base value) fun _ => Stage base slave (Taking period n) O
        (setDrive imgs base slave (img.store pos (halfBytes value))) (pos + 2) := by
  refine Triple.read fun s hs => ?_
  have hbus := hs.1
  have hselected := hbus.here.selected
  have hdrive : Taking period (n + 1) (s.bus.channels base).selected := by
    rw [selected, hselected]
    exact hbus.here.drive
  obtain ⟨hbusy, hperiods, hphase⟩ := hdrive
  simp only [hbusy, hphase, hselected]
  have hput : ∀ last, putWord m base slave (s.bus.channels base).selected img pos value last =
      img.store pos (halfBytes value) := fun last => by
    rw [putWord, hperiods, hstores.2, Bool.and_false, if_neg Bool.false_ne_true]
  refine Triple.bind (Q := fun _ => Stage base slave (Taking period (n + 1)) O
    (setDrive imgs base slave (img.store pos (halfBytes value))) (pos + 2))
    (Triple.modify fun t ht => ⟨ht.1, ?_, (setDrive_self _ _).trans (congrArg (· + 2) ht.2.2)⟩)
    fun _ => control_rule (K := fun image place => image = setDrive imgs base slave _ ∧
      place base slave = pos + 2) (out16_rule fun d hd => hd.takeWord hstores)
  obtain ⟨_, himage, hplace⟩ := ht
  change setDrive t.image base slave (putWord m base slave (s.bus.channels base).selected
    (t.image base slave) (t.place base slave) value _) = _
  rw [himage, hplace, setDrive_self, hput, setDrive_setDrive]

theorem writeWords_stage {period : Nat} (hstores : StoresAtOnce (m.spec base slave) period)
    (imgs : Nat → Bool → ByteStore) (buffer : ByteStore) (n src : Nat) (img : ByteStore) :
    Triple (Stage base slave (Taking period n) O (setDrive imgs base slave img) pos)
      (writeWords m base buffer n src) fun _ => Stage base slave (Taking period 0) O
        (setDrive imgs base slave (img.copy pos buffer src (2 * n))) (pos + 2 * n) := by
  induction n generalizing src img pos with
  | zero =>
      refine Triple.pure fun s hs => ?_
      rw [Nat.mul_zero, ByteStore.copy_zero]
      exact hs
  | succ n ih =>
      refine Triple.bind (out16_stage hstores img _) fun _ => ?_
      rw [← copy_word, show pos + 2 * (n + 1) = pos + 2 + 2 * n by omega]
      exact ih (src + 2) _

/-- `flush_cache`, when the drive is ready for it. -/
theorem flushCache_stage {diskNum : Nat} (hnum : diskNum < 4)
    (hvalid : (m.disks diskNum).valid = true) :
    Triple (Stage (m.disks diskNum).baseIoPort slave (fun d => d.ready = true) O imgs pos)
      (flushCache m diskNum) fun _ s =>
        On (m.disks diskNum).baseIoPort (Working slave Done O) s.bus ∧ s.image = imgs := by
  refine Triple.ite (fun h => absurd h (by simp [hnum, hvalid])) fun _ => ?_
  rw [outb_eq_control fun _ => ⟨by decide, by decide⟩]
  have hflush : Triple (On (m.disks diskNum).baseIoPort (Working slave (fun d => d.ready = true) O))
      (AtaBus.outb m.toAtaSetup (m.disks diskNum).baseIoPort ataRegCmdStatus ataCmdFlush)
      fun _ => On (m.disks diskNum).baseIoPort (Working slave Done O) := by
    have hready : ∀ ch, Working slave (fun d => d.ready = true) O ch →
        ch.selected.ready = true := fun ch hch => by
      rw [selected, hch.selected]
      exact hch.drive
    refine command_rule hready fun ch hch => ?_
    rw [command, if_pos (hready ch hch)]
    exact hch.set (f := fun d => d.start _ .idle) fun d _ =>
      ⟨(Drive.start_phase .idle).no_drq rfl, m.delay_lt _ _ _⟩
  refine (Triple.bind (control_rule (K := fun image _ => image = imgs) hflush) fun _ =>
    control_rule (K := fun image _ => image = imgs) (readAltstatus_rule (fun d hd =>
      ⟨hd.1, Nat.lt_of_le_of_lt (Nat.sub_le _ _) hd.2⟩) 4)).weaken
    (fun s hs => ⟨hs.1, hs.2.1⟩) fun _ _ h => h

/-- A write of one sector to a drive that stores it at once. -/
theorem writeLoop_stage {diskNum period : Nat} (hnum : diskNum < 4)
    (hvalid : (m.disks diskNum).valid = true)
    (hstores : StoresAtOnce (m.spec (m.disks diskNum).baseIoPort (m.disks diskNum).slave) period)
    (buffer : ByteStore) (src : Nat) :
    Triple (Stage (m.disks diskNum).baseIoPort (m.disks diskNum).slave (fun d =>
        (d.periods = period ∧ d.Announces (.nextOut
          (m.spec (m.disks diskNum).baseIoPort (m.disks diskNum).slave) 1)) ∧
            d.busy < bsyTimeout) O imgs pos)
      (writeLoop m diskNum buffer 1 src) fun r s =>
        On (m.disks diskNum).baseIoPort (Working (m.disks diskNum).slave Done O) s.bus ∧
          s.image = if r then setDrive imgs (m.disks diskNum).baseIoPort (m.disks diskNum).slave
            ((imgs (m.disks diskNum).baseIoPort (m.disks diskNum).slave).copy pos buffer src
              (sectorBytes m (m.disks diskNum).baseIoPort (m.disks diskNum).slave)) else imgs := by
  obtain ⟨hsize, hpos⟩ := m.sector_size diskNum hnum hvalid
  obtain ⟨words, hwords⟩ := Nat.exists_eq_succ_of_ne_zero (Nat.ne_of_gt hpos)
  have hhalf : (m.disks diskNum).logicalSectorSize / 2 = words + 1 := by omega
  refine Triple.bind (control_rule (K := fun image place => image = imgs ∧
    place (m.disks diskNum).baseIoPort (m.disks diskNum).slave = pos)
    (waitForData_prompt (P := fun d => d.periods = period) (fun _ h => h) rfl)) fun ok => ?_
  cases ok with
  | false =>
      refine Triple.pure fun s hs => ⟨hs.1.mono fun ch hch => hch.mono fun d hd => ?_, hs.2.1⟩
      obtain ⟨_, hbusy, hphase⟩ := hd
      exact ⟨by rw [hphase]; rfl, by rw [hbusy]; decide⟩
  | true =>
      refine Triple.bind ((writeWords_stage hstores imgs buffer
        ((m.disks diskNum).logicalSectorSize / 2) src
        (imgs (m.disks diskNum).baseIoPort (m.disks diskNum).slave)).weaken
        (fun s hs => ⟨hs.1.mono fun ch hch => hch.mono fun d hd => ?_, ?_, hs.2.2⟩)
        fun _ _ h => h) fun _ => ?_
      · obtain ⟨hperiods, hbusy, hphase⟩ := hd
        change d.phase = .dataOut
          (m.spec (m.disks diskNum).baseIoPort (m.disks diskNum).slave).sectorWords 0 at hphase
        rw [hwords] at hphase
        rw [hhalf]
        exact ⟨hbusy, hperiods, hphase⟩
      · rw [setDrive_eq_self]
        exact hs.2.1
      · rw [show 2 * ((m.disks diskNum).logicalSectorSize / 2) =
          sectorBytes m (m.disks diskNum).baseIoPort (m.disks diskNum).slave by
            rw [hhalf, sectorBytes, hwords]]
        exact Triple.bind (flushCache_stage hnum hvalid) fun _ => Triple.pure fun s hs => hs

end Rules

/-! ## Other channels -/

section Aside

variable {m : AtaDrives} {base : Nat} {chs : Nat → Channel}

theorem control_aside {α : Type} {x : Prog AtaBus α}
    (h : Triple (Aside base chs) x fun _ => Aside base chs) :
    Triple (fun s => Aside base chs s.bus) (control x) fun _ s => Aside base chs s.bus :=
  (control_rule (K := fun _ _ => True) h).weaken (fun _ hs => ⟨hs, trivial⟩) fun _ _ hs => hs.1

theorem outb_data_aside (reg : Nat) (value : Byte) :
    Triple (fun s => Aside base chs s.bus) (outb m base reg value)
      fun _ s => Aside base chs s.bus := by
  refine Triple.read fun s _ => Triple.ite (fun _ => ?_) fun _ =>
    control_aside (outb_aside reg value)
  exact Triple.bind (Q := fun _ t => Aside base chs t.bus) (Triple.modify fun _ hs => hs)
    fun _ => control_aside (outb_aside reg value)

theorem in16_data_aside : Triple (fun s => Aside base chs s.bus) (in16 m base)
    fun _ s => Aside base chs s.bus := by
  refine Triple.read fun s _ => Triple.bind
    (control_aside (Triple.modify fun _ hs => hs.set _)) fun _ => ?_
  split
  · exact Triple.bind (Q := fun _ t => Aside base chs t.bus) (Triple.modify fun _ hs => hs)
      fun _ => Triple.pure fun _ hs => hs
  · exact Triple.pure fun _ hs => hs

theorem out16_data_aside (value : BitVec 16) :
    Triple (fun s => Aside base chs s.bus) (out16 m base value)
      fun _ s => Aside base chs s.bus := by
  have hcontrol : Triple (fun s => Aside base chs s.bus)
      (control (AtaBus.out16 m.toAtaSetup base)) fun _ s => Aside base chs s.bus :=
    control_aside (Triple.modify fun _ hs => hs.set _)
  refine Triple.read fun s _ => ?_
  dsimp only
  split
  · exact Triple.bind (Q := fun _ t => Aside base chs t.bus) (Triple.modify fun _ hs => hs)
      fun _ => hcontrol
  · exact hcontrol

theorem flushCache_data_aside (diskNum : Nat) (hbase : (m.disks diskNum).baseIoPort = base) :
    Triple (fun s => Aside base chs s.bus) (flushCache m diskNum)
      fun _ s => Aside base chs s.bus := by
  subst hbase
  exact Triple.ite (fun _ => Triple.pure fun _ hs => hs) fun _ =>
    Triple.bind (outb_data_aside _ _) fun _ => control_aside (readAltstatus_aside 4)

theorem sendCommand_data_aside (disk : AtaDisk) (lba : Nat) (sectorCount cmd : Byte)
    (hbase : disk.baseIoPort = base) :
    Triple (fun s => Aside base chs s.bus) (sendCommand m disk lba sectorCount cmd)
      fun _ s => Aside base chs s.bus := by
  subst hbase
  refine Triple.bind (outb_data_aside _ _) fun _ =>
    Triple.bind (control_aside (readAltstatus_aside 14)) fun _ => ?_
  refine Triple.bind (outb_data_aside _ _) fun _ => Triple.bind (outb_data_aside _ _) fun _ => ?_
  refine Triple.bind (outb_data_aside _ _) fun _ => Triple.bind (outb_data_aside _ _) fun _ => ?_
  exact Triple.bind (outb_data_aside _ _) fun _ => control_aside (readAltstatus_aside 4)

theorem readWords_aside (n dst : Nat) (buffer : ByteStore) :
    Triple (fun s => Aside base chs s.bus) (readWords m base n dst buffer)
      fun _ s => Aside base chs s.bus := by
  induction n generalizing dst buffer with
  | zero => exact Triple.pure fun _ hs => hs
  | succ n ih => exact Triple.bind in16_data_aside fun _ => ih _ _

theorem readLoop_aside (disk : AtaDisk) (hbase : disk.baseIoPort = base) (sectors dst : Nat)
    (buffer : ByteStore) :
    Triple (fun s => Aside base chs s.bus) (readLoop m disk sectors dst buffer)
      fun _ s => Aside base chs s.bus := by
  subst hbase
  induction sectors generalizing dst buffer with
  | zero => exact Triple.pure fun _ hs => hs
  | succ sectors ih =>
      refine Triple.bind (control_aside waitForData_aside) fun _ =>
        Triple.ite (fun _ => ?_) fun _ => Triple.pure fun _ hs => hs
      refine Triple.bind (readWords_aside _ _ _) fun _ => ?_
      exact Triple.bind (control_aside (readAltstatus_aside 14)) fun _ => ih _ _

theorem ataReadSectors_aside (chs : Nat → Channel) (diskNum lba : Nat) (sectorCount : Byte)
    (buffer : ByteStore) (hbase : (m.disks diskNum).baseIoPort = base) :
    Triple (fun s => Aside base chs s.bus) (ataReadSectors m diskNum lba sectorCount buffer)
      fun _ s => Aside base chs s.bus := by
  subst hbase
  refine Triple.ite (fun _ => ?_) fun _ => Triple.pure fun _ hs => hs
  refine Triple.bind (control_aside (ataWaitForBsy_aside _)) fun _ =>
    Triple.ite (fun _ => ?_) fun _ => Triple.pure fun _ hs => hs
  exact Triple.bind (sendCommand_data_aside _ _ _ _ rfl) fun _ => readLoop_aside _ rfl _ _ _

theorem writeWords_aside (buffer : ByteStore) (n src : Nat) :
    Triple (fun s => Aside base chs s.bus) (writeWords m base buffer n src)
      fun _ s => Aside base chs s.bus := by
  induction n generalizing src with
  | zero => exact Triple.pure fun _ hs => hs
  | succ n ih => exact Triple.bind (out16_data_aside _) fun _ => ih _

theorem writeLoop_aside (diskNum : Nat) (buffer : ByteStore)
    (hbase : (m.disks diskNum).baseIoPort = base) (sectors src : Nat) :
    Triple (fun s => Aside base chs s.bus) (writeLoop m diskNum buffer sectors src)
      fun _ s => Aside base chs s.bus := by
  subst hbase
  induction sectors generalizing src with
  | zero => exact Triple.pure fun _ hs => hs
  | succ sectors ih =>
      refine Triple.bind (control_aside waitForData_aside) fun _ =>
        Triple.ite (fun _ => ?_) fun _ => Triple.pure fun _ hs => hs
      refine Triple.bind (writeWords_aside _ _ _) fun _ => ?_
      exact Triple.bind (flushCache_data_aside _ rfl) fun _ => ih _

theorem ataWriteSectors_aside (chs : Nat → Channel) (diskNum lba : Nat) (sectorCount : Byte)
    (buffer : ByteStore) (fuel : Nat) (hbase : (m.disks diskNum).baseIoPort = base) :
    Triple (fun s => Aside base chs s.bus)
      (ataWriteSectors m diskNum lba sectorCount buffer fuel) fun _ s => Aside base chs s.bus := by
  subst hbase
  refine Triple.ite (fun _ => ?_) fun _ => Triple.pure fun _ hs => hs
  refine Triple.bind (control_aside (waitUntilFree_aside _)) fun _ => ?_
  exact Triple.bind (sendCommand_data_aside _ _ _ _ rfl) fun _ => writeLoop_aside _ _ rfl _ _

end Aside
end AtaStore
end MyOs
