import MyOs.Drivers.Identify

/-!
# The physical sector size

Word 106 of the IDENTIFY block says in bits 3:0 how many logical sectors make a
physical one, as a power of two. `parse_physical_sector_size` takes bit 3 of that
exponent for the flag that it is valid, so exponents 1 to 7 count as 0, and from 8 on
the size no longer fits the 16-bit field unless a logical sector is shorter than any
drive's.
-/

namespace MyOs

/-- The ratio exponent: bits 3:0 of word 106. -/
def ratioExponent (words : IdentifyBlock) : Nat := (words 106).toNat % 16

/-- The logical sector size a valid word 106 reports: 512 bytes, or the bytes of as
many words as words 118:117 say, in 32 bits. -/
def reportedSize (words : IdentifyBlock) : Nat :=
  if (words 106).getLsbD 12 then
    ((words 118).toNat * 2 ^ 16 + (words 117).toNat) * 2 % 2 ^ 32
  else 512

/-- The stored sizes are those of one drive. -/
structure SizesConsistent (words : IdentifyBlock) (disk : SizedDeviceData) : Prop where
  ratio : disk.physicalSectorSize.toNat = disk.logicalSectorSize * 2 ^ ratioExponent words
  le : disk.logicalSectorSize ≤ disk.physicalSectorSize.toNat

/-- No sector at all, one logical sector in a physical one, or an exponent with bit 3
set; and the physical size fits into 16 bits. -/
def SizeStored (words : IdentifyBlock) : Prop :=
  reportedSize words = 0 ∨
    (ratioExponent words = 0 ∨ 8 ≤ ratioExponent words) ∧
      reportedSize words * 2 ^ ratioExponent words < 2 ^ 16

section Words

variable {words : IdentifyBlock}

theorem logicalSectorSize_reported (hvalid : (words 106).getLsbD 14 = true) :
    (parseLogicalSectorSize words).toNat = reportedSize words := by
  rw [parseLogicalSectorSize, reportedSize, hvalid, if_neg (by decide)]
  split
  · rw [BitVec.toNat_mul, toNat_wordPair]
    rfl
  · rfl

/-- Bit 3 of the word is the highest bit of the exponent. -/
theorem ratio_flag : (words 106).getLsbD 3 = decide (8 ≤ ratioExponent words) := by
  rw [ratioExponent, ← BitVec.testBit_toNat, Nat.testBit_eq_decide_div_mod_eq, decide_eq_decide]
  omega

/-- What is stored for a logical size of `size` bytes. -/
theorem physicalSectorSize_stored {size : Nat}
    (hsize : (parseLogicalSectorSize words).toNat = size) :
    ((parsePhysicalSectorSize words).setWidth 16).toNat =
      if 8 ≤ ratioExponent words then size * 2 ^ ratioExponent words % 2 ^ 16
      else size % 2 ^ 16 := by
  have hratio : (words 106 &&& 0x0F#16).toNat = ratioExponent words := by
    rw [BitVec.toNat_and]
    exact Nat.and_two_pow_sub_one_eq_mod _ 4
  rw [BitVec.toNat_setWidth, parsePhysicalSectorSize, ratio_flag, hratio]
  by_cases hflag : 8 ≤ ratioExponent words
  · rw [decide_eq_true hflag, if_pos rfl, if_pos hflag, BitVec.toNat_shiftLeft, hsize,
      Nat.shiftLeft_eq, Nat.mod_mod_of_dvd _ (by decide)]
  · rw [decide_eq_false hflag, if_neg (by decide), if_neg hflag, hsize]

/-- The stored size is the drive's when the exponent is read and the size fits. -/
theorem sizeStored_iff (size r : Nat) :
    (if 8 ≤ r then size * 2 ^ r % 2 ^ 16 else size % 2 ^ 16) = size * 2 ^ r ↔
      size = 0 ∨ (r = 0 ∨ 8 ≤ r) ∧ size * 2 ^ r < 2 ^ 16 := by
  have hmod (n : Nat) : n % 2 ^ 16 = n ↔ n < 2 ^ 16 :=
    ⟨fun h => h ▸ Nat.mod_lt _ (by decide), Nat.mod_eq_of_lt⟩
  by_cases hr : 8 ≤ r
  · rw [if_pos hr, hmod]
    refine ⟨fun h => .inr ⟨.inr hr, h⟩, ?_⟩
    rintro (rfl | ⟨_, h⟩)
    · rw [Nat.zero_mul]
      decide
    · exact h
  rw [if_neg hr]
  rcases Nat.eq_zero_or_pos r with rfl | hpos
  · rw [Nat.pow_zero, Nat.mul_one, hmod]
    refine ⟨fun h => .inr ⟨.inl rfl, h⟩, ?_⟩
    rintro (rfl | ⟨_, h⟩)
    · decide
    · exact h
  · -- at least doubled, so only 0 is left
    have hdouble : size * 2 ≤ size * 2 ^ r :=
      Nat.mul_le_mul_left size (Nat.pow_le_pow_right (by decide) hpos : 2 ^ 1 ≤ 2 ^ r)
    have hle := Nat.mod_le size (2 ^ 16)
    constructor
    · intro h
      exact .inl (by omega)
    · rintro (rfl | ⟨hor, _⟩)
      · rw [Nat.zero_mul, Nat.zero_mod]
      · omega

end Words

/-- **The physical sector size.** For every IDENTIFY block that is accepted with a valid
word 106, the stored physical size is the logical size times the ratio if and only if
there are no bytes in a sector, or the ratio is 1 or has an exponent from 8 on and the
product fits into 16 bits. -/
theorem physical_sector_size_iff {reply : IdentifyReply} {drive : Byte}
    {data disk : SizedDeviceData} (h : identifySizedDrive reply drive data = (true, disk))
    (hvalid : (reply.words 106).getLsbD 14 = true) :
    SizesConsistent reply.words disk ↔ SizeStored reply.words := by
  obtain ⟨hlogical, hphysical⟩ := identifySizedDrive_ok h
  have hsize := logicalSectorSize_reported hvalid
  have hstored := physicalSectorSize_stored hsize
  rw [SizeStored, ← sizeStored_iff, ← hstored, ← hphysical]
  rw [hsize] at hlogical
  constructor
  · intro hsizes
    rw [hsizes.ratio, hlogical]
  · intro heq
    refine ⟨heq.trans (by rw [hlogical]), ?_⟩
    rw [heq, hlogical]
    exact Nat.le_mul_of_pos_right _ (Nat.two_pow_pos _)

/-- Words of a drive whose physical sectors are `2 ^ r` logical ones of 512 bytes. -/
def ratioWords (r : BitVec 4) : IdentifyBlock := fun i =>
  if i = 49 then 0x200#16 else if i = 61 then 1#16
  else if i = 106 then 0x6000#16 ||| r.setWidth 16 else 0#16

/-- A record before the identification. -/
def blankDevice : SizedDeviceData :=
  ⟨⟨0#16, 0, 0, false, false, noSectors_lt, noSectors_lt⟩, 0#16⟩

/-- A drive with 512-byte sectors of both kinds. -/
theorem physical_sector_size_plain :
    SizesConsistent (ratioWords 0) (identifySizedDrive (identifyReply (ratioWords 0)) masterDrive
      blankDevice).2 :=
  (@physical_sector_size_iff (identifyReply (ratioWords 0)) masterDrive blankDevice _ rfl
    (by decide)).mpr (.inr ⟨.inl (by decide), by decide⟩)

/-- A drive with 4096-byte physical sectors: 512 is stored. -/
theorem physical_sector_size_4k : ¬ ∀ (reply : IdentifyReply) (drive : Byte)
    (data disk : SizedDeviceData), identifySizedDrive reply drive data = (true, disk) →
      (reply.words 106).getLsbD 14 = true → SizesConsistent reply.words disk := by
  intro hall
  have hratio := (hall (identifyReply (ratioWords 3)) masterDrive blankDevice _ rfl (by decide)).ratio
  exact absurd hratio (by decide)

end MyOs
