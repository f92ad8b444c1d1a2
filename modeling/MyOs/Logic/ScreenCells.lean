import MyOs.Drivers.Screen

/-!
# What the screen functions do to the cells

Each loop of `screen.c` has one lemma giving the cells it leaves: `cleared` is
what clearing a stretch of cells makes of the buffer and `shifted` what moving
the rows up does, as far as the loop has got.
-/

namespace MyOs.Screen

/-- Cells `start … start + n - 1` emptied. -/
def cleared (cells : Nat → Letter) (start n : Nat) : Nat → Letter := fun j =>
  if start ≤ j ∧ j < start + n then emptyLetter else cells j

/-- The first `n` cells replaced by those one row below. -/
def shifted (cells : Nat → Letter) (n : Nat) : Nat → Letter := fun j =>
  if j < n then cells (j + vgaWidth) else cells j

/-- The screen with other cells. -/
def withCells (s : Screen) (cells : Nat → Letter) : Screen := { s with videoMemory := cells }

theorem writeCell_of {s : Screen} {i : Nat} {l : Letter} (hi : i < vgaMaxChars) :
    writeCell i l s = .ok ((), s.withCells (Function.update s.videoMemory i l)) := by
  rw [writeCell, if_pos hi]
  rfl

theorem readCell_of {s : Screen} {i : Nat} (hi : i < vgaMaxChars) :
    readCell i s = .ok (s.videoMemory i, s) := by
  rw [readCell, Prog.get_bind_apply, if_pos hi]
  rfl

theorem cleared_succ (cells : Nat → Letter) (start n : Nat) :
    Function.update (cleared cells start n) (start + n) emptyLetter =
      cleared cells start (n + 1) := by
  funext j
  by_cases hj : j = start + n
  · subst hj
    rw [Function.update_self, cleared, if_pos (by omega)]
  · rw [Function.update_of_ne hj]
    unfold cleared
    congr 1
    exact propext (by omega)

theorem shifted_succ (cells : Nat → Letter) (n : Nat) :
    Function.update (shifted cells n) n (cells (n + vgaWidth)) = shifted cells (n + 1) := by
  funext j
  by_cases hj : j = n
  · subst hj
    rw [Function.update_self, shifted, if_pos (by omega)]
  · rw [Function.update_of_ne hj]
    unfold shifted
    congr 1
    exact propext (by omega)

/-- Clearing `n` cells from `start` on. -/
theorem clearLoop_run (s : Screen) (start n : Nat) (hend : start + n ≤ vgaMaxChars) :
    Prog.forLoop (fun i => writeCell (start + i) emptyLetter) 0 n s =
      .ok ((), s.withCells (cleared s.videoMemory start n)) := by
  have hturn : ∀ i t, i < n → t = s.withCells (cleared s.videoMemory start i) →
      ∃ t', writeCell (start + i) emptyLetter t = .ok ((), t') ∧
        t' = s.withCells (cleared s.videoMemory start (i + 1)) := by
    rintro i t hi rfl
    exact ⟨_, writeCell_of (by omega),
      congrArg s.withCells (cleared_succ s.videoMemory start i)⟩
  have hstart : s = s.withCells (cleared s.videoMemory start 0) := by
    have hnone : cleared s.videoMemory start 0 = s.videoMemory := by
      funext j
      exact if_neg (by omega)
    rw [hnone]
    rfl
  obtain ⟨t, hrun, ht⟩ := Prog.forLoop_ok hturn n 0 s (Nat.zero_add n) hstart
  rw [hrun, ht]

theorem clearScreen_run (s : Screen) : clearScreen s = .ok ((), { s with
    videoMemory := cleared s.videoMemory 0 vgaMaxChars, posOnScreen := 0 }) := by
  have hloop := clearLoop_run s 0 vgaMaxChars (by omega)
  simp only [Nat.zero_add] at hloop
  rw [clearScreen, Prog.bind_of_ok hloop]
  rfl

/-- Moving up a row once the rows above it have been moved. -/
theorem moveRowUp_run (s : Screen) (cells : Nat → Letter) {row : Nat} (hrow : 1 ≤ row)
    (hheight : row < vgaHeight) :
    moveRowUp row (s.withCells (shifted cells ((row - 1) * vgaWidth))) =
      .ok ((), s.withCells (shifted cells (row * vgaWidth))) := by
  have hrow' : row * vgaWidth = (row - 1) * vgaWidth + vgaWidth := by
    obtain ⟨r, rfl⟩ : ∃ r, row = r + 1 := ⟨row - 1, by omega⟩
    exact Nat.succ_mul r vgaWidth
  have hbound : row * vgaWidth + vgaWidth ≤ vgaMaxChars := by
    unfold vgaHeight at hheight
    unfold vgaMaxChars vgaHeight vgaWidth
    omega
  have hturn : ∀ col t, col < vgaWidth →
      t = s.withCells (shifted cells ((row - 1) * vgaWidth + col)) →
      ∃ t', (do
          let l ← readCell (row * vgaWidth + col)
          writeCell ((row - 1) * vgaWidth + col) l : Prog Screen Unit) t = .ok ((), t') ∧
        t' = s.withCells (shifted cells ((row - 1) * vgaWidth + (col + 1))) := by
    rintro col t hcol rfl
    refine ⟨_, (Prog.bind_of_ok (readCell_of (by omega))).trans (writeCell_of (by omega)), ?_⟩
    have hread : shifted cells ((row - 1) * vgaWidth + col) (row * vgaWidth + col) =
        cells ((row - 1) * vgaWidth + col + vgaWidth) := by
      rw [shifted, if_neg (by omega)]
      congr 1
      omega
    change s.withCells (Function.update (shifted cells ((row - 1) * vgaWidth + col))
      ((row - 1) * vgaWidth + col)
      (shifted cells ((row - 1) * vgaWidth + col) (row * vgaWidth + col))) = _
    rw [hread, shifted_succ]
    rfl
  obtain ⟨t, hrun, ht⟩ := Prog.forLoop_ok hturn vgaWidth 0
    (s.withCells (shifted cells ((row - 1) * vgaWidth))) (Nat.zero_add _) rfl
  rw [moveRowUp, hrun, ht, hrow']

/-- A scroll moves every row up, empties the last one and puts the cursor at
its start. -/
theorem scrollScreen_run (s : Screen) : scrollScreen s = .ok ((), { s with
    videoMemory := cleared (shifted s.videoMemory (24 * vgaWidth)) (24 * vgaWidth) vgaWidth
    posOnScreen := 24 * vgaWidth }) := by
  have hturn : ∀ row t, row < vgaHeight →
      (1 ≤ row ∧ t = s.withCells (shifted s.videoMemory ((row - 1) * vgaWidth))) →
      ∃ t', moveRowUp row t = .ok ((), t') ∧ 1 ≤ row + 1 ∧
        t' = s.withCells (shifted s.videoMemory ((row + 1 - 1) * vgaWidth)) := by
    rintro row t hlt ⟨hrow, rfl⟩
    exact ⟨_, moveRowUp_run s s.videoMemory hrow hlt, Nat.le_succ_of_le hrow, rfl⟩
  obtain ⟨t, hrun, ht⟩ := Prog.forLoop_ok hturn (vgaHeight - 1) 1 s rfl ⟨Nat.le_refl 1, rfl⟩
  have hclear : clearRow (vgaHeight - 1) t = .ok ((), t.withCells
      (cleared t.videoMemory (24 * vgaWidth) vgaWidth)) := by
    rw [clearRow, if_neg (by decide)]
    exact clearLoop_run t (24 * vgaWidth) vgaWidth (by decide)
  rw [scrollScreen, Prog.bind_of_ok hrun, Prog.bind_of_ok hclear, ht.2]
  rfl

end MyOs.Screen
