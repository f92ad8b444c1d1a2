import MyOs.Logic.ScreenCells

/-!
# The screen as a window on a sheet

The sheet is 80 columns wide and has no last row. A character takes the next
cell, a newline goes to the next row, and before either the row of the cursor is
brought into view. The 2000 cells of the screen are the 25 rows of the sheet
from the first visible one on.
-/

namespace MyOs.Screen

/-- An endless sheet of rows of `VGA_WIDTH` cells, numbered row by row. -/
structure Sheet where
  cells : Nat → Letter
  /-- the next cell -/
  cursor : Nat
  color : UInt8
  /-- the first row in view -/
  top : Nat

namespace Sheet

def empty (color : UInt8) : Sheet := ⟨fun _ => emptyLetter, 0, color, 0⟩

/-- The row of the cursor comes into view when it lies below the last row. -/
def reveal (sheet : Sheet) : Sheet :=
  { sheet with top := max sheet.top (sheet.cursor / vgaWidth - (vgaHeight - 1)) }

/-- A newline goes to the start of the next row, any other character takes the
next cell in the current colour. -/
def putChar (sheet : Sheet) (c : UInt8) : Sheet :=
  if c = newline then
    { sheet.reveal with cursor := (sheet.cursor / vgaWidth + 1) * vgaWidth }
  else
    { sheet.reveal with
      cells := Function.update sheet.cells sheet.cursor ⟨c, sheet.color⟩
      cursor := sheet.cursor + 1 }

def play (sheet : Sheet) : List Call → Sheet
  | [] => sheet
  | .putChar c :: rest => (sheet.putChar c).play rest
  | .setColor newColor :: rest => { sheet with color := newColor }.play rest

theorem play_append (sheet : Sheet) (calls more : List Call) :
    sheet.play (calls ++ more) = (sheet.play calls).play more := by
  induction calls generalizing sheet with
  | nil => rfl
  | cons call rest ih => cases call <;> exact ih _

/-- The view is never further down than the cursor needs. -/
def Lazy (sheet : Sheet) : Prop := sheet.top ≤ sheet.cursor / vgaWidth - (vgaHeight - 1)

theorem Lazy.reveal_top {sheet : Sheet} (h : sheet.Lazy) :
    sheet.reveal.top = sheet.cursor / vgaWidth - (vgaHeight - 1) := Nat.max_eq_right h

theorem Lazy.putChar {sheet : Sheet} (h : sheet.Lazy) (c : UInt8) : (sheet.putChar c).Lazy := by
  unfold Sheet.putChar
  split
  · change sheet.reveal.top ≤ (sheet.cursor / vgaWidth + 1) * vgaWidth / vgaWidth - _
    rw [h.reveal_top]
    simp only [vgaWidth, vgaHeight]
    omega
  · change sheet.reveal.top ≤ (sheet.cursor + 1) / vgaWidth - _
    rw [h.reveal_top]
    simp only [vgaWidth, vgaHeight]
    omega

theorem Lazy.play {sheet : Sheet} (h : sheet.Lazy) (calls : List Call) :
    (sheet.play calls).Lazy := by
  induction calls generalizing sheet with
  | nil => exact h
  | cons call rest ih =>
      cases call with
      | putChar c => exact ih (h.putChar c)
      | setColor newColor => exact ih h

end Sheet

/-- The screen shows the sheet from its first visible row on. -/
structure Shows (s : Screen) (sheet : Sheet) : Prop where
  cells : ∀ i, i < vgaMaxChars → s.videoMemory i = sheet.cells (sheet.top * vgaWidth + i)
  pos : sheet.cursor = sheet.top * vgaWidth + s.posOnScreen
  inside : s.posOnScreen ≤ vgaMaxChars
  color : s.color = sheet.color
  blank : ∀ j, sheet.cursor ≤ j → sheet.cells j = emptyLetter

/-- The screen just cleared shows the empty sheet. -/
theorem clearScreen_shows (s : Screen) :
    Shows (clearScreen.stateAfter s) (Sheet.empty s.color) := by
  rw [Prog.stateAfter_of_ok (clearScreen_run s)]
  refine ⟨fun i hi => ?_, rfl, Nat.zero_le _, rfl, fun _ _ => rfl⟩
  exact if_pos ⟨Nat.zero_le i, by simpa using hi⟩

namespace Shows

variable {s : Screen} {sheet : Sheet}

/-- Before the end of the screen the row of the cursor is in view. -/
theorem reveal_same (h : Shows s sheet) (hpos : s.posOnScreen < vgaMaxChars) :
    sheet.reveal = sheet := by
  have htop : sheet.cursor / vgaWidth - (vgaHeight - 1) ≤ sheet.top := by
    have hpos' := h.pos
    simp only [vgaMaxChars, vgaWidth, vgaHeight] at hpos hpos' ⊢
    omega
  rw [Sheet.reveal, Nat.max_eq_left htop]

/-- At the end of the screen a scroll brings the next row into view. -/
theorem scroll (h : Shows s sheet) (hpos : s.posOnScreen = vgaMaxChars) :
    ∃ t, scrollScreen s = .ok ((), t) ∧ Shows t sheet.reveal ∧ t.posOnScreen < vgaMaxChars ∧
      sheet.reveal.top = sheet.top + 1 := by
  have htop : sheet.reveal.top = sheet.top + 1 := by
    have hcursor := h.pos
    rw [Sheet.reveal]
    simp only [hpos, vgaMaxChars, vgaWidth, vgaHeight] at hcursor ⊢
    omega
  refine ⟨_, scrollScreen_run s, ⟨fun i hi => ?_, ?_, ?_, h.color, h.blank⟩, ?_, htop⟩
  · -- the rows above are those below before, the last row is not written yet
    change cleared (shifted s.videoMemory (24 * vgaWidth)) (24 * vgaWidth) vgaWidth i =
      sheet.cells (sheet.reveal.top * vgaWidth + i)
    rw [htop]
    by_cases hlast : 24 * vgaWidth ≤ i
    · rw [cleared, if_pos ⟨hlast, hi⟩]
      refine (h.blank _ ?_).symm
      have hcursor := h.pos
      simp only [hpos, vgaMaxChars, vgaWidth, vgaHeight] at hcursor hlast ⊢
      omega
    · rw [cleared, if_neg (fun hin => hlast hin.1), shifted, if_pos (by omega)]
      rw [h.cells (i + vgaWidth) (by
        simp only [vgaMaxChars, vgaWidth, vgaHeight] at hi hlast ⊢
        omega)]
      congr 1
      simp only [vgaWidth]
      omega
  · change sheet.cursor = sheet.reveal.top * vgaWidth + 24 * vgaWidth
    rw [htop, h.pos, hpos]
    simp only [vgaMaxChars, vgaWidth, vgaHeight]
    omega
  · exact (by decide : 24 * vgaWidth ≤ vgaMaxChars)
  · exact (by decide : 24 * vgaWidth < vgaMaxChars)

/-- A character once its row is in view. -/
theorem write (h : Shows s sheet) (hpos : s.posOnScreen < vgaMaxChars) (c : UInt8) :
    Shows { s with
        videoMemory := Function.update s.videoMemory s.posOnScreen ⟨c, s.color⟩
        posOnScreen := u32 (s.posOnScreen + 1) }
      { sheet with
        cells := Function.update sheet.cells sheet.cursor ⟨c, sheet.color⟩
        cursor := sheet.cursor + 1 } := by
  have hstep : u32 (s.posOnScreen + 1) = s.posOnScreen + 1 := u32_of_lt (by
    simp only [vgaMaxChars, vgaWidth, vgaHeight] at hpos
    omega)
  refine ⟨fun i hi => ?_, ?_, ?_, h.color, fun j hj => ?_⟩
  · by_cases heq : i = s.posOnScreen
    · subst heq
      simp only [← h.pos, Function.update_self, h.color]
    · have hne : sheet.top * vgaWidth + i ≠ sheet.cursor := by
        rw [h.pos]
        omega
      simpa only [Function.update_of_ne heq, Function.update_of_ne hne] using h.cells i hi
  · change sheet.cursor + 1 = sheet.top * vgaWidth + u32 (s.posOnScreen + 1)
    rw [hstep, h.pos, Nat.add_assoc]
  · change u32 (s.posOnScreen + 1) ≤ vgaMaxChars
    omega
  · have hj : sheet.cursor + 1 ≤ j := hj
    exact (Function.update_of_ne (by omega) _ _).trans (h.blank j (by omega))

/-- A newline once its row is in view. -/
theorem breakLine (h : Shows s sheet) (hpos : s.posOnScreen < vgaMaxChars) :
    Shows { s with posOnScreen := u32 ((s.posOnScreen / vgaWidth + 1) * vgaWidth) }
      { sheet with cursor := (sheet.cursor / vgaWidth + 1) * vgaWidth } := by
  have hstep : u32 ((s.posOnScreen / vgaWidth + 1) * vgaWidth) =
      (s.posOnScreen / vgaWidth + 1) * vgaWidth := u32_of_lt (by
    simp only [vgaMaxChars, vgaWidth, vgaHeight] at hpos ⊢
    omega)
  have hcursor := h.pos
  refine ⟨h.cells, ?_, ?_, h.color, fun j hj => h.blank j ?_⟩
  · change (sheet.cursor / vgaWidth + 1) * vgaWidth =
      sheet.top * vgaWidth + u32 ((s.posOnScreen / vgaWidth + 1) * vgaWidth)
    rw [hstep]
    simp only [vgaWidth] at hcursor ⊢
    omega
  · change u32 ((s.posOnScreen / vgaWidth + 1) * vgaWidth) ≤ vgaMaxChars
    rw [hstep]
    simp only [vgaMaxChars, vgaWidth, vgaHeight] at hpos ⊢
    omega
  · have hj : (sheet.cursor / vgaWidth + 1) * vgaWidth ≤ j := hj
    simp only [vgaWidth] at hj
    omega

/-- A character or a newline once its row is in view. -/
theorem place (h : Shows s sheet) (hpos : s.posOnScreen < vgaMaxChars) (c : UInt8) :
    ∃ t, placeChar c s = .ok ((), t) ∧ Shows t (if c = newline then
      { sheet with cursor := (sheet.cursor / vgaWidth + 1) * vgaWidth }
    else
      { sheet with
        cells := Function.update sheet.cells sheet.cursor ⟨c, sheet.color⟩
        cursor := sheet.cursor + 1 }) := by
  unfold placeChar
  rw [Prog.get_bind_apply]
  by_cases hc : c = newline
  · rw [if_pos hc, if_pos hc]
    exact ⟨_, rfl, h.breakLine hpos⟩
  · rw [if_neg hc, if_neg hc]
    exact ⟨_, Prog.bind_of_ok (writeCell_of hpos), h.write hpos c⟩

/-- A character: the screen scrolls when its row is not in view yet. -/
theorem putChar (h : Shows s sheet) (c : UInt8) : ∃ t, Screen.putChar c s = .ok ((), t) ∧
    Shows t (sheet.putChar c) ∧
    (sheet.putChar c).top = sheet.top + if s.posOnScreen ≥ vgaMaxChars then 1 else 0 := by
  have htop : (sheet.putChar c).top = sheet.reveal.top := by
    unfold Sheet.putChar
    split <;> rfl
  unfold Screen.putChar
  rw [Prog.get_bind_apply, htop]
  by_cases hend : s.posOnScreen ≥ vgaMaxChars
  · obtain ⟨t, hscroll, hshows, hpos, hnext⟩ := h.scroll (Nat.le_antisymm h.inside hend)
    obtain ⟨u, hplace, hu⟩ := hshows.place hpos c
    rw [if_pos hend, if_pos hend]
    exact ⟨u, (Prog.bind_of_ok hscroll).trans hplace, hu, hnext⟩
  · have hpos : s.posOnScreen < vgaMaxChars := Nat.lt_of_not_le hend
    have hsame := h.reveal_same hpos
    obtain ⟨u, hplace, hu⟩ := h.place hpos c
    rw [if_neg hend, if_neg hend]
    refine ⟨u, hplace, ?_, congrArg Sheet.top hsame⟩
    rw [Sheet.putChar, hsame]
    exact hu

/-- **Simulation.** Any calls keep the screen a window on the sheet, whose
first row is the number of scrolls. -/
theorem runCalls (h : Shows s sheet) (calls : List Call) :
    ∃ t, Screen.runCalls calls s = .ok ((), t) ∧ Shows t (sheet.play calls) ∧
      (sheet.play calls).top = sheet.top + scrolls calls s := by
  induction calls generalizing s sheet with
  | nil => exact ⟨s, rfl, h, rfl⟩
  | cons call rest ih =>
      cases call with
      | putChar c =>
          obtain ⟨t, hrun, ht, htop⟩ := h.putChar c
          obtain ⟨u, hrest, hu, hutop⟩ := ih ht
          refine ⟨u, (Prog.bind_of_ok hrun).trans hrest, hu, ?_⟩
          rw [Sheet.play, hutop, htop, scrolls, exec, Prog.stateAfter_of_ok hrun, Nat.add_assoc]
      | setColor newColor =>
          have ht : Shows { s with color := newColor } { sheet with color := newColor } :=
            ⟨h.cells, h.pos, h.inside, rfl, h.blank⟩
          obtain ⟨u, hrest, hu, hutop⟩ := ih ht
          refine ⟨u, hrest, hu, ?_⟩
          rw [Sheet.play, hutop, scrolls, Nat.zero_add]
          rfl

end Shows

/-- **Terminal refinement.** After `clear_screen`, any characters and colour
changes write inside the screen only and leave it a window of 25 rows on the
sheet they describe, which starts at the row given by the number of scrolls so
far. Just before a character is placed, the screen has scrolled as far as the
row of its cell needs. -/
theorem terminal_refines (s₀ : Screen) (calls : List Call) : ∃ s t,
    clearScreen s₀ = .ok ((), s) ∧ runCalls calls s = .ok ((), t) ∧
    (∀ i, i < vgaMaxChars → t.videoMemory i =
      ((Sheet.empty s₀.color).play calls).cells (scrolls calls s * vgaWidth + i)) ∧
    ((Sheet.empty s₀.color).play calls).cursor = scrolls calls s * vgaWidth + t.posOnScreen ∧
    ∀ before c, calls = before ++ [.putChar c] → scrolls calls s =
      ((Sheet.empty s₀.color).play before).cursor / vgaWidth - (vgaHeight - 1) := by
  have hcleared := clearScreen_shows s₀
  rw [Prog.stateAfter_of_ok (clearScreen_run s₀)] at hcleared
  obtain ⟨t, hrun, hshows, htop⟩ := hcleared.runCalls calls
  have htop : ((Sheet.empty s₀.color).play calls).top = _ := htop.trans (Nat.zero_add _)
  refine ⟨_, t, clearScreen_run s₀, hrun, ?_, ?_, ?_⟩
  · rw [← htop]
    exact hshows.cells
  · rw [← htop]
    exact hshows.pos
  · rintro before c rfl
    have hlazy : (Sheet.empty s₀.color).Lazy := Nat.zero_le _
    rw [← htop, Sheet.play_append, ← (hlazy.play before).reveal_top]
    change (Sheet.putChar _ c).top = _
    unfold Sheet.putChar
    split <;> rfl

end MyOs.Screen
