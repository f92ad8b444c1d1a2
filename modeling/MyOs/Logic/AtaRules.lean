import MyOs.Drivers.Ata

/-!
# Rules for the port accesses of the ATA driver

`On base P` is the state of the bus while the driver works on one base port: no
command has come too early, the other base ports are settled, and the channel
satisfies `P`. `Working` says what holds of the selected drive and of the other
one. Each access has one rule for each of the two.
-/

namespace MyOs

open Prog

namespace Drive

theorem ready_iff {d : Drive} : d.ready = true ↔ d.busy = 0 ∧ d.phase.drq = false := by
  simp [ready]

theorem ready_tick {d : Drive} (h : d.ready = true) : d.tick.ready = true := by
  obtain ⟨hbusy, hdrq⟩ := ready_iff.mp h
  exact ready_iff.mpr ⟨by simp [tick, hbusy], hdrq⟩

/-- The busy bit is clear just when the drive is not busy. -/
theorem status_bsy {d : Drive} (h : d.status &&& ataStatusBsy = 0#8) : d.busy = 0 := by
  refine Classical.byContradiction fun hbusy => ?_
  rw [status, if_pos hbusy] at h
  revert h
  decide

/-- A drive that shows the data request bit requests data. -/
theorem status_drq {d : Drive} (h : d.status &&& ataStatusDrq ≠ 0#8) :
    d.busy = 0 ∧ d.phase.drq = true := by
  unfold status at h
  by_cases hbusy : d.busy ≠ 0
  · rw [if_pos hbusy] at h
    exact absurd (by decide) h
  · rw [if_neg hbusy] at h
    refine ⟨not_not.mp hbusy, ?_⟩
    cases hphase : d.phase with
    | idle =>
        rw [hphase] at h
        exact absurd (by decide) h
    | failed =>
        rw [hphase] at h
        exact absurd (by decide) h
    | dataIn _ _ => rfl
    | dataOut _ _ => rfl

end Drive

namespace Channel

/-- No drive requests data, and only the selected one may be busy. -/
structure Settled (ch : Channel) : Prop where
  drq : ∀ slave, (ch.drives slave).phase.drq = false
  other : (ch.drives !ch.slaveSelected).busy = 0

/-- What holds of the selected drive and of the other one. -/
structure Working (slave : Bool) (P O : Drive → Prop) (ch : Channel) : Prop where
  selected : ch.slaveSelected = slave
  drive : P (ch.drives slave)
  other : O (ch.drives !slave)

theorem Working.set {slave : Bool} {P Q O : Drive → Prop} {ch : Channel} {f : Drive → Drive}
    (h : Working slave P O ch) (hf : ∀ d, P d → Q (f d)) :
    Working slave Q O (ch.setSelected (f ch.selected)) := by
  obtain ⟨rfl, hdrive, hother⟩ := h
  refine ⟨rfl, ?_, ?_⟩
  · simpa [setSelected] using hf ch.selected hdrive
  · simpa [setSelected] using hother

theorem Working.mono {slave : Bool} {P Q O : Drive → Prop} {ch : Channel}
    (h : Working slave P O ch) (hPQ : ∀ d, P d → Q d) : Working slave Q O ch :=
  ⟨h.selected, hPQ _ h.drive, h.other⟩

end Channel

namespace AtaBus

open Channel

/-- The driver is at work on the channel of `base`. -/
structure On (base : Nat) (P : Channel → Prop) (s : AtaBus) : Prop where
  clean : s.violated = false
  others : ∀ c, c ≠ base → (s.channels c).Settled
  here : P (s.channels base)

section Accesses

variable {m : AtaSetup} {base reg : Nat} {P Q : Channel → Prop}

theorem On.set {s : AtaBus} (h : On base P s) {ch : Channel} (hch : Q ch) :
    On base Q (s.setChannel base ch) := by
  refine ⟨h.clean, fun c hc => ?_, ?_⟩
  · simpa [setChannel, hc] using h.others c hc
  · simpa [setChannel] using hch

theorem On.mono {s : AtaBus} (h : On base P s) (hPQ : ∀ ch, P ch → Q ch) : On base Q s :=
  ⟨h.clean, h.others, hPQ _ h.here⟩

theorem inb_rule {Q : Byte → Channel → Prop} (hreg : reg = ataRegCmdStatus ∨ reg = ataRegAltstatus)
    (h : ∀ ch, P ch → Q ch.selected.status (ch.setSelected ch.selected.tick)) :
    Triple (On base P) (inb base reg) fun r => On base (Q r) := by
  intro s hs r t hrun
  rw [inb, get_bind_apply, if_pos hreg] at hrun
  cases hrun
  exact hs.set (h _ hs.here)

/-- A register other than the command register. -/
theorem outb_rule {value : Byte} (hreg : reg ≠ ataRegCmdStatus)
    (h : ∀ ch, P ch → Q (ch.latch reg value)) :
    Triple (On base P) (outb m base reg value) fun _ => On base Q := by
  refine Triple.modify fun s hs => ?_
  simp only [if_neg hreg]
  exact hs.set (h _ hs.here)

/-- A command to a drive that is ready. -/
theorem command_rule {cmd : Byte} (hready : ∀ ch, P ch → ch.selected.ready = true)
    (h : ∀ ch, P ch → Q (ch.command (m.spec base) cmd)) :
    Triple (On base P) (outb m base ataRegCmdStatus cmd) fun _ => On base Q := by
  refine Triple.modify fun s hs => ?_
  simp only [if_true, hready _ hs.here, Bool.not_true, Bool.or_false]
  exact hs.set (h _ hs.here)

end Accesses

section Selected

variable {m : AtaSetup} {base : Nat} {slave : Bool} {P Q O : Drive → Prop}

theorem status_rule {Q : Byte → Drive → Prop} {reg : Nat}
    (hreg : reg = ataRegCmdStatus ∨ reg = ataRegAltstatus)
    (h : ∀ d, P d → Q d.status d.tick) :
    Triple (On base (Working slave P O)) (inb base reg) fun r => On base (Working slave (Q r) O) :=
  inb_rule hreg fun ch hch => by
    obtain ⟨rfl, hdrive, hother⟩ := hch
    refine ⟨rfl, ?_, ?_⟩
    · simpa [setSelected] using h ch.selected hdrive
    · simpa [setSelected] using hother

theorem in16_rule (h : ∀ d, P d → Q (d.giveWord (m.spec base slave))) :
    Triple (On base (Working slave P O)) (in16 m base) fun _ => On base (Working slave Q O) := by
  refine Triple.modify fun s hs => ?_
  have hselected := hs.here.selected
  simp only [hselected]
  exact hs.set (hs.here.set h)

theorem out16_rule (h : ∀ d, P d → Q (d.takeWord (m.spec base slave))) :
    Triple (On base (Working slave P O)) (out16 m base) fun _ => On base (Working slave Q O) := by
  refine Triple.modify fun s hs => ?_
  have hselected := hs.here.selected
  simp only [hselected]
  exact hs.set (hs.here.set h)

/-! ## Waiting -/

variable (hP : ∀ d, P d → P d.tick)

include hP

theorem ataWaitForBsy_rule (timeout : Nat) :
    Triple (On base (Working slave P O)) (ataWaitForBsy base timeout) fun r =>
      On base (Working slave (fun d => P d ∧ (r = true → d.busy = 0)) O) := by
  induction timeout with
  | zero =>
      exact Triple.pure fun _ hs => hs.mono fun _ hch => hch.mono fun _ hd => ⟨hd, fun h => nomatch h⟩
  | succ timeout ih =>
      refine Triple.bind (status_rule (Q := fun r d => P d ∧
        (r &&& ataStatusBsy = 0#8 → d.busy = 0)) (.inl rfl) fun d hd => ⟨hP d hd, fun h => ?_⟩)
        fun r => Triple.ite (fun hr => Triple.pure fun s hs => ?_) fun _ => ?_
      · simp [Drive.tick, Drive.status_bsy h]
      · exact hs.mono fun ch hch => hch.mono fun d hd => ⟨hd.1, fun _ => hd.2 hr⟩
      · exact ih.weaken (fun s hs => hs.mono fun ch hch => hch.mono fun d hd => hd.1)
          fun _ _ h => h

theorem ataWaitForDrq_rule (timeout : Nat) :
    Triple (On base (Working slave P O)) (ataWaitForDrq base timeout) fun r s => r = true →
      On base (Working slave (fun d => P d ∧ d.busy = 0 ∧ d.phase.drq = true) O) s := by
  induction timeout with
  | zero => exact Triple.pure fun _ _ h => nomatch h
  | succ timeout ih =>
      refine Triple.bind (status_rule (Q := fun r d => P d ∧
        (r &&& ataStatusDrq ≠ 0#8 → d.busy = 0 ∧ d.phase.drq = true)) (.inl rfl)
        fun d hd => ⟨hP d hd, fun h => ?_⟩) fun r => Triple.ite
        (fun _ => Triple.pure fun _ _ h => nomatch h)
        fun _ => Triple.ite (fun hr => Triple.pure fun s hs _ => ?_) fun _ => ?_
      · obtain ⟨hbusy, hdrq⟩ := Drive.status_drq h
        exact ⟨by simp [Drive.tick, hbusy], hdrq⟩
      · exact hs.mono fun ch hch => hch.mono fun d hd => ⟨hd.1, hd.2 hr⟩
      · exact ih.weaken (fun s hs => hs.mono fun ch hch => hch.mono fun d hd => hd.1)
          fun _ _ h => h

theorem waitForData_rule :
    Triple (On base (Working slave P O)) (waitForData base) fun r s => r = true →
      On base (Working slave (fun d => P d ∧ d.busy = 0 ∧ d.phase.drq = true) O) s := by
  refine Triple.bind (ataWaitForBsy_rule hP _) fun free => ?_
  cases free with
  | false => exact Triple.pure fun _ _ h => nomatch h
  | true =>
      refine (ataWaitForDrq_rule hP _).weaken (fun s hs => ?_) fun _ _ h => h
      exact hs.mono fun ch hch => hch.mono fun d hd => hd.1

theorem readAltstatus_rule (n : Nat) :
    Triple (On base (Working slave P O)) (readAltstatus base n)
      fun _ => On base (Working slave P O) :=
  Triple.forLoop (I := fun _ => On base (Working slave P O)) (fun _ =>
    Triple.bind (status_rule (Q := fun _ => P) (.inr rfl) hP)
      fun _ => Triple.pure fun _ hs => hs) n 0

end Selected
end AtaBus
end MyOs
