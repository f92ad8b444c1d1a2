import MyOs.Logic.CreateTable

/-!
# The tables across a step of mapping

Mapping a page sets an entry of a table that is there, or makes a table first. Both
leave the tables of the directory where they are, and give a new one a frame that
was not used (`TableStep`); so does making the slab of a queue node. `AreaStep` adds
which pages the step may map anew. They are composed from their parts, each a change
of one word or of one cleared table.
-/

namespace MyOs
namespace Kernel

/-- The tables stay where they are, a new one has a frame that was not used, no table
goes out to the disk and no frame is given back. -/
structure TableStep (k k' : Kernel) : Prop extends SameRoot k k' where
  tables : ∀ i, i < 1024 → isPagePresent (k.entryAt k.dirFrame i) = true →
    isPagePresent (k'.entryAt k.dirFrame i) = true ∧
      getFrameAddr (k'.entryAt k.dirFrame i) = getFrameAddr (k.entryAt k.dirFrame i)
  fresh : ∀ i, i < 1024 → isPagePresent (k'.entryAt k.dirFrame i) = true →
    isPagePresent (k.entryAt k.dirFrame i) = true ∨
      ¬ k.FrameUsed (getFrameAddr (k'.entryAt k.dirFrame i)) ∧
        8 * pageSize ≤ getFrameAddr (k'.entryAt k.dirFrame i)
  unswapped : (∀ i, i < 1024 → isSwapped (k.entryAt k.dirFrame i) = false) →
    ∀ i, i < 1024 → isSwapped (k'.entryAt k.dirFrame i) = false
  used : ∀ g, k.FrameUsed g → k'.FrameUsed g

/-- And only the pages that are `changed` are mapped anew, the window apart. -/
structure AreaStep (changed : Nat → Prop) (k k' : Kernel) : Prop extends TableStep k k' where
  translate : ∀ u, u < 2 ^ 32 → getDirectoryIndex u ≠ recursivePageTableIndex → ¬ changed u →
    k'.translate u = k.translate u

section Steps

variable {k k' k'' : Kernel} {changed changed' : Nat → Prop} {f u v w : Nat}

theorem TableStep.refl (k : Kernel) : k.TableStep k where
  toSameRoot := ⟨rfl, rfl, rfl⟩
  tables := fun _ _ h => ⟨h, rfl⟩
  fresh := fun _ _ h => .inl h
  unswapped := fun h => h
  used := fun _ h => h

theorem TableStep.trans (h : k.TableStep k') (h' : k'.TableStep k'') : k.TableStep k'' where
  toSameRoot := h.toSameRoot.trans h'.toSameRoot
  tables := fun i hi hp => by
    obtain ⟨hp', hframe⟩ := h.tables i hi hp
    rw [← h.dirFrame] at hp'
    obtain ⟨hp'', hframe'⟩ := h'.tables i hi hp'
    rw [h.dirFrame] at hp'' hframe'
    exact ⟨hp'', hframe'.trans hframe⟩
  fresh := fun i hi hp => by
    have hdir := h.dirFrame
    rw [← hdir] at hp
    rcases h'.fresh i hi hp with hold | hnew
    · -- a table of the state in between stays where it is
      have hframe := (h'.tables i hi hold).2
      rw [hdir] at hold hframe
      rw [hframe]
      exact h.fresh i hi hold
    · rw [hdir] at hnew
      exact .inr ⟨fun hused => hnew.1 (h.used _ hused), hnew.2⟩
  unswapped := fun hs => by
    have hs' := h.unswapped hs
    rw [← h.dirFrame] at hs' ⊢
    exact h'.unswapped hs'
  used := fun g hg => h'.used g (h.used g hg)

theorem AreaStep.trans (h : k.AreaStep changed k') (h' : k'.AreaStep changed' k'') :
    k.AreaStep (fun u => changed u ∨ changed' u) k'' where
  toTableStep := h.toTableStep.trans h'.toTableStep
  translate := fun u hu hbelow hnot => by
    rw [h'.translate u hu hbelow fun hc => hnot (.inr hc),
      h.translate u hu hbelow fun hc => hnot (.inl hc)]

theorem AreaStep.weaken (h : k.AreaStep changed k') (hle : ∀ u, changed u → changed' u) :
    k.AreaStep changed' k' where
  toTableStep := h.toTableStep
  translate := fun u hu hbelow hnot => h.translate u hu hbelow fun hc => hnot (hle u hc)

/-- With the same directory and at least the frames in use. -/
theorem SameTables.tableStep (h : k.SameTables k') (hused : ∀ g, k.FrameUsed g → k'.FrameUsed g) :
    k.TableStep k' where
  toSameRoot := h.toSameRoot
  tables := fun i hi hp => by rw [h.entries i hi]; exact ⟨hp, rfl⟩
  fresh := fun i hi hp => by
    rw [h.entries i hi] at hp
    exact .inl hp
  unswapped := fun hs i hi => by rw [h.entries i hi]; exact hs i hi
  used := hused

theorem used_of_pmm (h : k'.pmm = k.pmm) (g : Nat) (hg : k.FrameUsed g) : k'.FrameUsed g := by
  rw [FrameUsed, h]
  exact hg

theorem SameWalks.areaStep (h : k.SameWalks k') (hused : ∀ g, k.FrameUsed g → k'.FrameUsed g) :
    k.AreaStep (fun _ => False) k' where
  toTableStep := SameTables.tableStep ⟨h.root, fun i _ => h.entryAt _ i⟩ hused
  translate := fun u _ _ _ => h.translate u

/-- Setting an entry maps its page anew. -/
theorem PteSet.areaStep (h : k.PteSet k' v w) :
    k.AreaStep (fun u => u / pageSize = v / pageSize) k' where
  toTableStep := h.toSameTables.tableStep (used_of_pmm h.pmm)
  translate := fun u hu _ hne => h.others u hu hne

/-- The directory's entries when a table is being made for `v`. -/
theorem FrameFree.entryAt_queueing (hf : k.FrameFree f) (i : Nat) :
    (k.queueing v f).entryAt k.dirFrame i =
      if i = getDirectoryIndex v then allocatedWord (k.pdeOf v) f else k.entryAt k.dirFrame i := by
  have halign := k.dirFrame_aligned
  simp only [pageSize] at halign
  rw [Kernel.entryAt, load32_pageAllocated (k.pdeAddr_aligned v) (by omega) hf.lt_word]
  by_cases hiv : i = getDirectoryIndex v
  · rw [if_pos hiv, if_pos (by rw [pdeAddr, hiv])]
    rfl
  · rw [if_neg hiv, if_neg (by rw [pdeAddr]; omega)]
    rfl

/-- The new table's frame was free. -/
theorem Running.queueing_step (h : k.Running) (hv : v < 2 ^ 32)
    (habsent : isPagePresent (k.pdeOf v) = false) (hf : k.FrameFree f) :
    k.AreaStep (fun u => getDirectoryIndex u = getDirectoryIndex v) (k.queueing v f) where
  toSameRoot := k.pageAllocated_root _ _
  tables := fun i hi hp => by
    have hiv : i ≠ getDirectoryIndex v := by
      rintro rfl
      rw [show k.entryAt k.dirFrame (getDirectoryIndex v) = k.pdeOf v from rfl, habsent] at hp
      cases hp
    rw [hf.entryAt_queueing i, if_neg hiv]
    exact ⟨hp, rfl⟩
  fresh := fun i hi hp => by
    rw [hf.entryAt_queueing i] at hp ⊢
    by_cases hiv : i = getDirectoryIndex v
    · rw [if_pos hiv, getFrameAddr_allocatedWord hf.aligned hf.lt_word]
      exact .inr ⟨hf.unused, hf.low h.pmm⟩
    · rw [if_neg hiv] at hp
      exact .inl hp
  unswapped := fun hs i hi => by
    rw [hf.entryAt_queueing i]
    by_cases hiv : i = getDirectoryIndex v
    · have hold : isSwapped (k.pdeOf v) = false := hs _ (getDirectoryIndex_lt_of hv)
      rw [isSwapped_eq] at hold
      rw [if_pos hiv, isSwapped_eq, testBit_allocatedWord, hold,
        testBit_of_aligned hf.aligned (by decide)]
      rfl
    · rw [if_neg hiv]
      exact hs i hi
  used := fun g hg => by
    rw [FrameUsed, k.pageAllocated_pmm]
    exact (hf.used g).mpr (.inr hg)
  translate := fun u hu hbelow hne => h.translate_queueing hv hf hu hbelow hne

/-- Clearing the table leaves the directory, but for a flag. -/
theorem Running.tableCleared_step (h : k.Running) (hv : v < 2 ^ 32)
    (hbelow : getDirectoryIndex v ≠ recursivePageTableIndex)
    (hpv : isPagePresent (k.pdeOf v) = true) :
    k.AreaStep (fun u => getDirectoryIndex u = getDirectoryIndex v) (k.tableCleared v) where
  toSameRoot := k.tableCleared_root v
  tables := fun i hi hp => by
    obtain ⟨_, hentries, _⟩ := h.tableCleared_tables hv hbelow hpv
    rw [(hentries i hi).1, (hentries i hi).2]
    exact ⟨hp, rfl⟩
  fresh := fun i hi hp => by
    obtain ⟨_, hentries, _⟩ := h.tableCleared_tables hv hbelow hpv
    rw [(hentries i hi).1] at hp
    exact .inl hp
  unswapped := fun hs i hi => by
    have hframes := Running.writeable hpv
    have hpresent := (hframes.present _ (k.pdeAddr_aligned v)).trans hpv
    have hsame := (hframes.running rfl h).paged.clearTable_same hv hbelow hpresent
    have halign := k.dirFrame_aligned
    have hpde := k.pdeAddr_aligned v
    simp only [pageSize] at halign
    have hentry : (k.tableCleared v).entryAt k.dirFrame i =
        (k.mem.store32 (k.pdeAddr v) (pageEntryAddAttrib (k.pdeOf v) pageWriteable)).load32
          (k.dirFrame + 4 * i) := hsame.entries i hi
    have hword : pageEntryAddAttrib (k.pdeOf v) pageWriteable < 2 ^ 32 :=
      pageEntryAddAttrib_lt (load32_mem_lt k _) (by decide)
    rw [hentry, ByteStore.load32_store32_word hword hpde (by omega)]
    by_cases hiv : k.dirFrame + 4 * i = k.pdeAddr v
    · have hold : isSwapped (k.pdeOf v) = false := hs _ (getDirectoryIndex_lt_of hv)
      rw [isSwapped_eq] at hold
      rw [if_pos hiv, isSwapped_eq, testBit_pageEntryAddAttrib, hold]
      decide
    · rw [if_neg hiv]
      exact hs i hi
  used := used_of_pmm (k.tableCleared_pmm v)
  translate := fun u hu _ hne => h.translate_tableCleared hv hbelow hpv hu hne

end Steps
end Kernel
end MyOs
