import MyOs.Memory.Layout
import Mathlib.Data.Nat.Bitwise

/-!
# Page entries (`vmm.h`)

A page entry is one 32-bit word: attribute bits below bit 12 and a frame above,
or the slot of a swapped page. The entry operations are the source's masks;
`testBit` lemmas say which bits each keeps, and what the readers read follows
from them.
-/

namespace MyOs

/-- `PRESENT`. -/
def present : Nat := 0x1

/-- `PAGE_WRITEABLE`. -/
def pageWriteable : Nat := 0x2

/-- `GLOBAL`. -/
def global : Nat := 0x100

/-- `SWAPPED`. -/
def swapped : Nat := 0x200

/-- `KERNEL_PAGE_FLAGS`. -/
def kernelPageFlags : Nat := pageWriteable ||| present ||| global

/-- `TABLES_PER_DIR` and `ENTRIES_PER_TABLE`. -/
def tablesPerDir : Nat := 1024

/-- `RECURSIVE_PAGE_TABLE_INDEX`. -/
def recursivePageTableIndex : Nat := 1023

def getDirectoryIndex (virAddr : Nat) : Nat := virAddr >>> 22

def getTableIndex (virAddr : Nat) : Nat := (virAddr >>> 12) &&& 0x3FF

def getFrameOffset (virAddr : Nat) : Nat := virAddr &&& 0xFFF

def getPageTableVirAddr (pdIndex : Nat) : Nat :=
  (recursivePageTableIndex <<< 22) ||| (pdIndex <<< 12)

def getFrameAddr (entry : Nat) : Nat := entry &&& 0xFFFFF000

def isPagePresent (entry : Nat) : Bool := entry &&& present != 0

def isSwapped (entry : Nat) : Bool := entry &&& swapped != 0

/-- `(e & ~0xFFFFF000) | frame_addr` -/
def pageEntrySetFrame (e frameAddr : Nat) : Nat := (e &&& 0xFFF) ||| frameAddr

def pageEntryAddAttrib (e attrib : Nat) : Nat := e ||| attrib

/-- `e & ~attrib` -/
def pageEntryRemoveAttrib (e attrib : Nat) : Nat := e &&& (0xFFFFFFFF ^^^ attrib)

/-! ## The parts of an address -/

theorem getDirectoryIndex_eq (v : Nat) : getDirectoryIndex v = v / 2 ^ 22 :=
  Nat.shiftRight_eq_div_pow ..

theorem getTableIndex_eq (v : Nat) : getTableIndex v = v / pageSize % 1024 := by
  rw [getTableIndex, Nat.shiftRight_eq_div_pow]
  exact Nat.and_two_pow_sub_one_eq_mod _ 10

theorem getFrameOffset_eq (v : Nat) : getFrameOffset v = v % pageSize :=
  Nat.and_two_pow_sub_one_eq_mod _ 12

theorem getTableIndex_lt (v : Nat) : getTableIndex v < 1024 := by
  rw [getTableIndex_eq]
  exact Nat.mod_lt _ (by decide)

theorem getDirectoryIndex_lt {v n : Nat} (h : v < n * 2 ^ 22) : getDirectoryIndex v < n := by
  rw [getDirectoryIndex_eq]
  exact (Nat.div_lt_iff_lt_mul (by decide)).mpr h

/-! ## Which bits each operation keeps -/

theorem testBit_lowMask (i : Nat) : Nat.testBit 0xFFF i = decide (i < 12) :=
  Nat.testBit_two_pow_sub_one 12 i

theorem testBit_frameMask (i : Nat) : Nat.testBit 0xFFFFF000 i = decide (12 ≤ i ∧ i < 32) := by
  have h : (0xFFFFF000 : Nat) = (2 ^ 20 - 1) <<< 12 := by decide
  rw [h, Nat.testBit_shiftLeft, Nat.testBit_two_pow_sub_one]
  by_cases hi : 12 ≤ i
  · simp [hi]
    omega
  · simp [hi]

theorem testBit_getFrameAddr (e i : Nat) :
    (getFrameAddr e).testBit i = (e.testBit i && decide (12 ≤ i ∧ i < 32)) := by
  rw [getFrameAddr, Nat.testBit_and, testBit_frameMask]

theorem testBit_pageEntrySetFrame (e f i : Nat) :
    (pageEntrySetFrame e f).testBit i = (e.testBit i && decide (i < 12) || f.testBit i) := by
  rw [pageEntrySetFrame, Nat.testBit_or, Nat.testBit_and, testBit_lowMask]

theorem testBit_pageEntryAddAttrib (e a i : Nat) :
    (pageEntryAddAttrib e a).testBit i = (e.testBit i || a.testBit i) := Nat.testBit_or ..

theorem testBit_pageEntryRemoveAttrib (e a i : Nat) :
    (pageEntryRemoveAttrib e a).testBit i =
      (e.testBit i && (decide (i < 32) ^^ a.testBit i)) := by
  rw [pageEntryRemoveAttrib, Nat.testBit_and, Nat.testBit_xor]
  congr 2
  exact Nat.testBit_two_pow_sub_one 32 i

theorem isPagePresent_eq (e : Nat) : isPagePresent e = e.testBit 0 := by
  simp [isPagePresent, present, Nat.testBit, Nat.and_comm]

theorem isSwapped_eq (e : Nat) : isSwapped e = e.testBit 9 := by
  have h : e &&& swapped = (e.testBit 9).toNat * 2 ^ 9 := Nat.and_two_pow e 9
  rw [isSwapped, h]
  cases e.testBit 9 <;> rfl

/-! ## What the readers read -/

theorem testBit_of_aligned {f i : Nat} (hf : f % pageSize = 0) (hi : i < 12) :
    f.testBit i = false := by
  have h := Nat.testBit_mod_two_pow f 12 i
  rw [show f % 2 ^ 12 = 0 from hf, Nat.zero_testBit] at h
  simpa [hi] using h.symm

theorem getFrameAddr_lt (e : Nat) : getFrameAddr e < 2 ^ 32 :=
  Nat.lt_of_le_of_lt Nat.and_le_right (by decide)

/-- The frame of an entry: its address bits. -/
theorem getFrameAddr_eq {e : Nat} (he : e < 2 ^ 32) :
    getFrameAddr e = e / pageSize * pageSize := by
  apply Nat.eq_of_testBit_eq
  intro i
  have h : e / pageSize * pageSize = (e >>> 12) <<< 12 := by
    rw [Nat.shiftLeft_eq, Nat.shiftRight_eq_div_pow]
    rfl
  rw [testBit_getFrameAddr, h, Nat.testBit_shiftLeft, Nat.testBit_shiftRight]
  by_cases hi : 12 ≤ i
  · rw [Nat.add_sub_cancel' hi]
    rcases Nat.lt_or_ge i 32 with hlt | hge
    · simp [hi, hlt]
    · rw [Nat.testBit_lt_two_pow (Nat.lt_of_lt_of_le he (Nat.pow_le_pow_right (by decide) hge))]
      simp
  · simp [hi]

theorem getFrameAddr_aligned (e : Nat) : getFrameAddr e % pageSize = 0 := by
  have h : getFrameAddr (getFrameAddr e) = getFrameAddr e := by
    rw [getFrameAddr, getFrameAddr, Nat.and_assoc, Nat.and_self]
  rw [← h, getFrameAddr_eq (getFrameAddr_lt e)]
  exact Nat.mul_mod_left _ _

/-- Setting a frame sets it: only the attribute bits are kept. -/
theorem getFrameAddr_pageEntrySetFrame (e : Nat) {f : Nat} :
    getFrameAddr (pageEntrySetFrame e f) = getFrameAddr f := by
  apply Nat.eq_of_testBit_eq
  intro i
  simp only [testBit_getFrameAddr, testBit_pageEntrySetFrame]
  by_cases hi : i < 12
  · simp [Nat.not_le.mpr hi]
  · simp [hi]

theorem getFrameAddr_of_aligned {f : Nat} (hf : f % pageSize = 0) (hlt : f < 2 ^ 32) :
    getFrameAddr f = f := by
  rw [getFrameAddr_eq hlt]
  exact Nat.div_mul_cancel (Nat.dvd_of_mod_eq_zero hf)

/-- Attributes do not reach the frame. -/
theorem getFrameAddr_pageEntryAddAttrib (e : Nat) {a : Nat} (ha : a < pageSize) :
    getFrameAddr (pageEntryAddAttrib e a) = getFrameAddr e := by
  apply Nat.eq_of_testBit_eq
  intro i
  simp only [testBit_getFrameAddr, testBit_pageEntryAddAttrib]
  by_cases hi : 12 ≤ i
  · rw [Nat.testBit_lt_two_pow
      (Nat.lt_of_lt_of_le ha (show pageSize ≤ 2 ^ i from Nat.pow_le_pow_right (by decide : 0 < 2) hi)), Bool.or_false]
  · simp [hi]

theorem isPagePresent_pageEntryAddAttrib (e : Nat) {a : Nat} (ha : a.testBit 0 = true) :
    isPagePresent (pageEntryAddAttrib e a) = true := by
  rw [isPagePresent_eq, testBit_pageEntryAddAttrib, ha, Bool.or_true]

theorem pageEntryAddAttrib_lt {e a : Nat} (he : e < 2 ^ 32) (ha : a < 2 ^ 32) :
    pageEntryAddAttrib e a < 2 ^ 32 := Nat.or_lt_two_pow he ha

theorem pageEntryRemoveAttrib_lt {e a : Nat} (he : e < 2 ^ 32) :
    pageEntryRemoveAttrib e a < 2 ^ 32 := Nat.lt_of_le_of_lt Nat.and_le_left he

theorem swapped_lt : swapped < 2 ^ 32 := by decide

theorem present_lt : present < 2 ^ 32 := by decide

theorem pageEntrySetFrame_lt {e f : Nat} (hf : f < 2 ^ 32) : pageEntrySetFrame e f < 2 ^ 32 :=
  Nat.or_lt_two_pow (Nat.lt_of_le_of_lt Nat.and_le_right (by decide)) hf

end MyOs
