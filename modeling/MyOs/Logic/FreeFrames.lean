import Mathlib.Data.Finset.Card
import Mathlib.Order.Interval.Finset.Nat
import MyOs.Logic.TableStep

/-!
# Counting the free frames

A large block takes one frame for each of its pages and one for each page table that
is missing. How far `kmalloc_large` gets is decided by how many frames are free: a
step that takes a frame and makes some tables leaves that many fewer.
-/

namespace MyOs
namespace Kernel

/-- The frames `pmm_alloc_frame` can give. -/
def freeFrames (k : Kernel) : Finset Nat :=
  (Finset.Ico 8 totalFrames).filter fun n => k.pmm.pmmBitmap.bit n = false

/-- The directory's tables for the `n` pages from page `i` of a block at `ptr` on that
are missing. -/
def missingTables (k : Kernel) (ptr i n : Nat) : Finset Nat :=
  ((Finset.Ico i (i + n)).image fun j => getDirectoryIndex (ptr + j * pageSize)).filter
    fun t => isPagePresent (k.entryAt k.dirFrame t) = false

/-- The page tables that mapping the first `n` pages of a block at `ptr` makes. -/
def newTables (k : Kernel) (ptr n : Nat) : Nat := (k.missingTables ptr 0 n).card

/-- At most `g` of the `n` pages of a block at `ptr` get a frame: there are no more, or
the frames are too few for one page more and the tables up to it. -/
structure PagesGot (k : Kernel) (ptr n g : Nat) : Prop where
  le : g ≤ n
  few : g < n → k.freeFrames.card < g + 1 + k.newTables ptr (g + 1)

/-- The tables `k'` has and `k` has not. -/
def tablesMade (k k' : Kernel) : Finset Nat :=
  (Finset.range 1024).filter fun t => isPagePresent (k.entryAt k.dirFrame t) = false ∧
    isPagePresent (k'.entryAt k.dirFrame t) = true

section Frames

variable {k k' : Kernel} {f i n ptr t : Nat}

theorem mem_freeFrames {m : Nat} : m ∈ k.freeFrames ↔
    8 ≤ m ∧ m < totalFrames ∧ k.pmm.pmmBitmap.bit m = false := by
  rw [freeFrames, Finset.mem_filter, Finset.mem_Ico, and_assoc]

/-- A frame that is not used is one of them. -/
theorem frame_mem_freeFrames (hlow : 8 * pageSize ≤ f) (hlt : f < 2 ^ 32) :
    f / pageSize ∈ k.freeFrames ↔ ¬ k.FrameUsed f := by
  have hbit : frameBit f = f / pageSize := frameBit_eq f
  have htotal : totalFrames = 1048576 := rfl
  rw [mem_freeFrames, FrameUsed, hbit, Bool.not_eq_true]
  simp only [pageSize] at hlow ⊢
  constructor
  · rintro ⟨_, _, hfree⟩
    exact hfree
  · intro hfree
    exact ⟨by omega, by omega, hfree⟩

theorem mem_missingTables : t ∈ k.missingTables ptr i n ↔
    (∃ j, i ≤ j ∧ j < i + n ∧ getDirectoryIndex (ptr + j * pageSize) = t) ∧
      isPagePresent (k.entryAt k.dirFrame t) = false := by
  rw [missingTables, Finset.mem_filter, Finset.mem_image]
  simp only [Finset.mem_Ico, and_assoc]

theorem mem_tablesMade : t ∈ k.tablesMade k' ↔ t < 1024 ∧
    isPagePresent (k.entryAt k.dirFrame t) = false ∧
      isPagePresent (k'.entryAt k.dirFrame t) = true := by
  rw [tablesMade, Finset.mem_filter, Finset.mem_range]

/-- **The frames a step takes.** One for the page, when `f` was free and now is used and
no table's, and one for each table. -/
theorem TableStep.frames (h : k.TableStep k') (hr : k'.Running) (hlow : 8 * pageSize ≤ f)
    (haligned : f % pageSize = 0) (hlt : f < 2 ^ 32) (hfree : ¬ k.FrameUsed f)
    (hused : k'.FrameUsed f) (hnot : ∀ t, t < 1024 → isPagePresent (k'.entryAt k'.dirFrame t) = true →
      getFrameAddr (k'.entryAt k'.dirFrame t) ≠ f) :
    k'.freeFrames.card + 1 + (k.tablesMade k').card ≤ k.freeFrames.card := by
  have hdir := h.dirFrame
  rw [hdir] at hnot
  have hframe : ∀ t, getFrameAddr (k'.entryAt k.dirFrame t) % pageSize = 0 := fun t =>
    getFrameAddr_aligned _
  have hpage : ∀ a b, a % pageSize = 0 → b % pageSize = 0 → a / pageSize = b / pageSize → a = b := by
    intro a b ha hb heq
    simp only [pageSize] at ha hb heq
    omega
  -- each new table has a frame of its own
  have hcard : ((k.tablesMade k').image fun t =>
      getFrameAddr (k'.entryAt k.dirFrame t) / pageSize).card = (k.tablesMade k').card := by
    apply Finset.card_image_of_injOn
    intro t ht u hu heq
    rw [Finset.mem_coe, mem_tablesMade] at ht hu
    have happart := hr.paged.apart t u ht.1 hu.1
    rw [hdir] at happart
    exact happart ht.2.2 hu.2.2 (hpage _ _ (hframe t) (hframe u) heq)
  generalize himage : ((k.tablesMade k').image fun t =>
      getFrameAddr (k'.entryAt k.dirFrame t) / pageSize) = image at hcard
  have hmem : ∀ m ∈ image, ∃ t, t ∈ k.tablesMade k' ∧
      getFrameAddr (k'.entryAt k.dirFrame t) / pageSize = m := fun m hm => by
    rw [← himage, Finset.mem_image] at hm
    exact hm
  -- the frames `k'` uses beyond those of `k`
  have hf : f / pageSize ∉ image := by
    intro hm
    obtain ⟨t, ht, heq⟩ := hmem _ hm
    rw [mem_tablesMade] at ht
    exact hnot t ht.1 ht.2.2 (hpage _ _ (hframe t) haligned heq)
  have htable : ∀ t ∈ k.tablesMade k', ¬ k.FrameUsed (getFrameAddr (k'.entryAt k.dirFrame t)) ∧
      8 * pageSize ≤ getFrameAddr (k'.entryAt k.dirFrame t) := by
    intro t ht
    rw [mem_tablesMade] at ht
    rcases h.fresh t ht.1 ht.2.2 with hold | hnew
    · rw [ht.2.1] at hold
      cases hold
    · exact hnew
  have hdisjoint : Disjoint (insert (f / pageSize) image) k'.freeFrames := by
    rw [Finset.disjoint_left]
    intro m hm hm'
    rcases Finset.mem_insert.mp hm with rfl | hold
    · exact (frame_mem_freeFrames hlow hlt).mp hm' hused
    · obtain ⟨t, ht, rfl⟩ := hmem m hold
      have hlow' := (htable t ht).2
      have hused' := hr.tables_used t (mem_tablesMade.mp ht).1
      rw [hdir] at hused'
      exact (frame_mem_freeFrames hlow' (getFrameAddr_lt _)).mp hm'
        (hused' (mem_tablesMade.mp ht).2.2)
  have hsub : insert (f / pageSize) image ∪ k'.freeFrames ⊆ k.freeFrames := by
    intro m hm
    rcases Finset.mem_union.mp hm with hm | hm
    · rcases Finset.mem_insert.mp hm with rfl | hold
      · exact (frame_mem_freeFrames hlow hlt).mpr hfree
      · obtain ⟨t, ht, rfl⟩ := hmem m hold
        exact (frame_mem_freeFrames (htable t ht).2 (getFrameAddr_lt _)).mpr (htable t ht).1
    · rw [mem_freeFrames] at hm ⊢
      refine ⟨hm.1, hm.2.1, Bool.eq_false_iff.mpr fun hbit => ?_⟩
      have hkept := h.used (m * pageSize)
      have hindex : frameBit (m * pageSize) = m := by
        rw [frameBit_eq]
        exact Nat.mul_div_cancel m (by decide)
      rw [FrameUsed, FrameUsed, hindex, hm.2.2] at hkept
      exact absurd (hkept hbit) (by decide)
  have hle := Finset.card_le_card hsub
  rw [Finset.card_union_of_disjoint hdisjoint, Finset.card_insert_of_notMem hf, hcard] at hle
  omega

end Frames
end Kernel
end MyOs
