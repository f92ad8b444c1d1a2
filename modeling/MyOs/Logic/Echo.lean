import MyOs.Drivers.Terminal
import MyOs.Logic.LineInput
import MyOs.Logic.ScreenCells
import Mathlib.Data.List.Induction

/-!
# What the characters of the buffer look like

`typed` is the screen after `put_char` of each character in order, as long as no
row scrolls. `moveBackFrom_blank` is what `move_cursor_back` does from a cursor
with blank cells before it.
-/

namespace MyOs
namespace Screen

/-- The screen after one character, when it does not scroll. -/
def place (s : Screen) (c : UInt8) : Screen :=
  if c = newline then { s with posOnScreen := (s.posOnScreen / vgaWidth + 1) * vgaWidth }
  else
    { s with
      videoMemory := Function.update s.videoMemory s.posOnScreen ⟨c, s.color⟩
      posOnScreen := s.posOnScreen + 1 }

/-- The screen after the characters `q`. -/
def typed (s : Screen) (q : List UInt8) : Screen := q.foldl place s

/-- None of the characters `q` scrolls. -/
inductive InView (s : Screen) : List UInt8 → Prop
  | nil : InView s []
  | concat {q c} : InView s q → (s.typed q).posOnScreen < vgaMaxChars → InView s (q ++ [c])

section Typed

variable {s : Screen} {q : List UInt8} {c : UInt8}

theorem typed_concat : s.typed (q ++ [c]) = (s.typed q).place c := by
  simp [typed]

theorem place_newline :
    s.place newline = { s with posOnScreen := (s.posOnScreen / vgaWidth + 1) * vgaWidth } :=
  if_pos rfl

theorem place_char (hc : c ≠ newline) : s.place c = { s with
    videoMemory := Function.update s.videoMemory s.posOnScreen ⟨c, s.color⟩
    posOnScreen := s.posOnScreen + 1 } := if_neg hc

/-- A visible or invisible character takes the cell at the cursor, a newline
takes none. -/
theorem videoMemory_place (j : Nat) : (s.place c).videoMemory j =
    if j = s.posOnScreen ∧ c ≠ newline then ⟨c, s.color⟩ else s.videoMemory j := by
  by_cases hc : c = newline
  · rw [if_neg fun h => h.2 hc, place, if_pos hc]
  · rw [place_char hc]
    by_cases hj : j = s.posOnScreen
    · rw [if_pos ⟨hj, hc⟩]
      exact hj ▸ Function.update_self _ _ _
    · rw [if_neg fun h => hj h.1]
      exact Function.update_of_ne hj _ _

/-- The cursor moves on. -/
theorem pos_lt_place : s.posOnScreen < (s.place c).posOnScreen := by
  unfold place
  split
  · simp only [vgaWidth]
    omega
  · exact Nat.lt_succ_self _

theorem place_pos_le (hpos : s.posOnScreen < vgaMaxChars) :
    (s.place c).posOnScreen ≤ vgaMaxChars := by
  unfold place
  simp only [vgaMaxChars, vgaWidth, vgaHeight] at hpos ⊢
  split
  · simp only
    omega
  · exact hpos

theorem InView.of_concat (h : InView s (q ++ [c])) :
    InView s q ∧ (s.typed q).posOnScreen < vgaMaxChars := by
  generalize hlist : q ++ [c] = l at h
  cases h with
  | nil => simp at hlist
  | concat hq hpos =>
      obtain ⟨rfl, _⟩ := List.append_inj' hlist rfl
      exact ⟨hq, hpos⟩

theorem color_place : (s.place c).color = s.color := by
  unfold place
  split <;> rfl

theorem color_typed : (s.typed q).color = s.color := by
  induction q using List.reverseRecOn with
  | nil => rfl
  | append_singleton q c ih => rw [typed_concat, color_place, ih]

theorem start_le_typed : s.posOnScreen ≤ (s.typed q).posOnScreen := by
  induction q using List.reverseRecOn with
  | nil => exact Nat.le_refl _
  | append_singleton q c ih =>
      rw [typed_concat]
      exact Nat.le_of_lt (Nat.lt_of_le_of_lt ih pos_lt_place)

/-- Only the first character can start in the corner. -/
theorem typed_pos_eq_zero (h : (s.typed q).posOnScreen = 0) : q = [] := by
  induction q using List.reverseRecOn with
  | nil => rfl
  | append_singleton q c _ =>
      rw [typed_concat] at h
      have := pos_lt_place (s := s.typed q) (c := c)
      omega

/-- Behind the cursor nothing has changed. -/
theorem typed_behind {j : Nat} (hj : (s.typed q).posOnScreen ≤ j) :
    (s.typed q).videoMemory j = s.videoMemory j := by
  induction q using List.reverseRecOn with
  | nil => rfl
  | append_singleton q c ih =>
      rw [typed_concat] at hj ⊢
      have hlt := pos_lt_place (s := s.typed q) (c := c)
      rw [videoMemory_place, if_neg fun h => by omega, ih (by omega)]

theorem typed_pos_le (h : InView s q) (hstart : s.posOnScreen ≤ vgaMaxChars) :
    (s.typed q).posOnScreen ≤ vgaMaxChars := by
  cases h with
  | nil => exact hstart
  | concat _ hpos =>
      rw [typed_concat]
      exact place_pos_le hpos

/-- `put_char` before the end of the screen. -/
theorem putChar_place (hpos : s.posOnScreen < vgaMaxChars) :
    putChar c s = .ok ((), s.place c) := by
  rw [putChar, Prog.get_bind_apply, if_neg (Nat.not_le_of_lt hpos), placeChar, Prog.get_bind_apply]
  have hsmall {n : Nat} (hn : n ≤ 4000) : u32 n = n := u32_of_lt (by omega)
  by_cases hc : c = newline
  · subst hc
    rw [if_pos rfl, place_newline, Prog.modify_apply, hsmall]
    simp only [vgaMaxChars, vgaWidth, vgaHeight] at hpos ⊢
    omega
  · rw [if_neg hc, place_char hc, Prog.bind_of_ok (writeCell_of hpos), Prog.modify_apply]
    simp only [withCells]
    rw [hsmall]
    simp only [vgaMaxChars, vgaWidth, vgaHeight] at hpos
    omega

theorem runCalls_append {before after : List Call} {t : Screen}
    (h : runCalls before s = .ok ((), t)) : runCalls (before ++ after) s = runCalls after t := by
  induction before generalizing s with
  | nil =>
      cases h
      rfl
  | cons call rest ih =>
      rw [runCalls] at h
      obtain ⟨⟨⟩, u, hu, hrest⟩ := Prog.bind_eq_ok.mp h
      rw [List.cons_append, runCalls, Prog.bind_of_ok hu]
      exact ih hrest

/-- The rendering of characters that do not scroll. -/
theorem InView.runCalls (h : InView s q) :
    Screen.runCalls (q.map .putChar) s = .ok ((), s.typed q) := by
  induction h with
  | nil => rfl
  | @concat q c _ hpos ih =>
      rw [List.map_append, runCalls_append ih, List.map_singleton, Screen.runCalls]
      change (Screen.putChar c >>= fun _ => Screen.runCalls []) _ = _
      rw [Prog.bind_of_ok (putChar_place hpos), typed_concat]
      rfl

end Typed

/-! ## Moving back -/

section MoveBack

variable {s : Screen}

/-- The character before the cursor is a visible one: it goes. -/
theorem moveBackFrom_visible {pos : Nat} (hpos : pos < vgaMaxChars)
    (hvisible : (s.videoMemory pos).c ≠ emptyLetter.c) : moveBackFrom (pos + 1) s = .ok ((), { s with
      videoMemory := Function.update s.videoMemory pos emptyLetter, posOnScreen := pos }) := by
  have hcell : ({ s with posOnScreen := pos } : Screen).videoMemory pos = s.videoMemory pos := rfl
  rw [moveBackFrom, Prog.modify_bind_apply, Prog.bind_of_ok (readCell_of hpos), hcell,
    if_pos hvisible, writeCell_of hpos]
  rfl

/-- The cursor moves on over a blank cell. -/
theorem moveBackFrom_step {pos : Nat} (hpos : pos < vgaMaxChars)
    (hblank : (s.videoMemory pos).c = emptyLetter.c) :
    moveBackFrom (pos + 1) s = moveBackFrom pos { s with posOnScreen := pos } := by
  have hcell : ({ s with posOnScreen := pos } : Screen).videoMemory pos = s.videoMemory pos := rfl
  rw [moveBackFrom, Prog.modify_bind_apply, Prog.bind_of_ok (readCell_of hpos), hcell,
    if_neg (not_not_intro hblank)]

/-- Wherever the cursor stops, it is before where it was. -/
theorem moveBackFrom_lt (pos : Nat) : ∀ {s : Screen}, pos ≤ vgaMaxChars → s.posOnScreen = pos →
    0 < pos → ∃ t, moveBackFrom pos s = .ok ((), t) ∧ t.posOnScreen < pos := by
  induction pos with
  | zero => exact fun _ _ h => absurd h (Nat.lt_irrefl 0)
  | succ pos ih =>
      intro s hmax _ _
      by_cases hvisible : (s.videoMemory pos).c = emptyLetter.c
      · rw [moveBackFrom_step hmax hvisible]
        by_cases hpos : pos = 0
        · subst hpos
          exact ⟨_, rfl, Nat.lt_succ_self 0⟩
        · obtain ⟨t, hrun, ht⟩ := ih (s := { s with posOnScreen := pos }) (Nat.le_of_succ_le hmax)
            rfl (Nat.pos_of_ne_zero hpos)
          exact ⟨t, hrun, Nat.lt_succ_of_lt ht⟩
      · exact ⟨_, moveBackFrom_visible hmax hvisible, Nat.lt_succ_self pos⟩

/-- The cursor moves back over blank cells without stopping. -/
theorem moveBackFrom_blank {low : Nat} : ∀ n, ∀ {s : Screen}, low + n ≤ vgaMaxChars →
    s.posOnScreen = low + n → (∀ j, low ≤ j → j < low + n → (s.videoMemory j).c = emptyLetter.c) →
    moveBackFrom (low + n) s = moveBackFrom low { s with posOnScreen := low } := by
  intro n
  induction n with
  | zero =>
      intro s _ hpos _
      rw [Nat.add_zero] at hpos ⊢
      rw [← hpos]
  | succ n ih =>
      intro s hmax hpos hblank
      have hstep := @moveBackFrom_step s (low + n) (by omega)
        (hblank _ (Nat.le_add_right _ _) (Nat.lt_succ_self _))
      rw [← Nat.add_assoc, hstep]
      exact ih (by omega) rfl fun j hj hj' => hblank j hj (by omega)

end MoveBack
end Screen

namespace Keyboard

/-- The buffer's contents are determined. -/
theorem Holds.unique {k : Keyboard} {q q' : List UInt8} (h : k.Holds q) (h' : k.Holds q') :
    q = q' := by
  have hlength : q.length = q'.length := by rw [← h.held_eq, ← h'.held_eq]
  apply List.ext_getElem?
  intro i
  by_cases hi : i < q.length
  · rw [h.chars i hi, h'.chars i (hlength ▸ hi)]
  · rw [List.getElem?_eq_none (by omega), List.getElem?_eq_none (by omega)]

/-- The newest character of the buffer. -/
def lastChar (k : Keyboard) : UInt8 :=
  k.keyboardBuffer ((k.bufferHead + (bufferSize - 1)) % bufferSize)

theorem Holds.lastChar {k : Keyboard} {q : List UInt8} {c : UInt8} (h : k.Holds (q ++ [c])) :
    k.lastChar = c := by
  have hlast := h.chars q.length (by simp)
  have hhead := h.head
  rw [List.getElem?_concat_length] at hlast
  rw [List.length_append, List.length_singleton] at hhead
  have hindex : (k.bufferHead + 255) % 256 = (k.bufferTail + q.length) % 256 := by omega
  change k.keyboardBuffer ((k.bufferHead + 255) % 256) = c
  rw [hindex]
  exact (Option.some.inj hlast).symm

/-- What a scancode does: it types a character, it is a Backspace, or it leaves
the buffer and the screen alone. -/
inductive ScancodeEffect (k : Keyboard) (scancode : UInt8) : Keyboard × Option Echo → Prop
  | type (typesKey : TypesKey scancode) : ScancodeEffect k scancode
      (k.keyboardBufferPut (typedChar k.shiftPressed k.capsLock scancode),
        if k.putOnScreen then some (.putChar (typedChar k.shiftPressed k.capsLock scancode))
        else none)
  | backspace (backspace : scancode = backspaceKey) : ScancodeEffect k scancode
      (if k.isKeyboardBufferEmpty then (k, none)
        else (k.rmLastCharBuffer, if k.putOnScreen then some .moveCursorBack else none))
  | modifier {k'} (notTyped : ¬ TypesKey scancode) (notBack : scancode ≠ backspaceKey)
      (buffer : k'.keyboardBuffer = k.keyboardBuffer)
      (head : k'.bufferHead = k.bufferHead) (tail : k'.bufferTail = k.bufferTail)
      (on : k'.putOnScreen = k.putOnScreen) : ScancodeEffect k scancode (k', none)

theorem handleScancode_effect (k : Keyboard) (scancode : UInt8) :
    ScancodeEffect k scancode (k.handleScancode scancode) := by
  unfold handleScancode
  by_cases hreleased : isKeyReleased scancode
  · have hback : scancode ≠ backspaceKey := by
      rintro rfl
      exact absurd hreleased (by decide)
    rw [if_pos hreleased]
    split
    · exact .modifier (fun h => h.1 hreleased) hback rfl rfl rfl rfl
    · exact .modifier (fun h => h.1 hreleased) hback rfl rfl rfl rfl
  rw [if_neg hreleased]
  by_cases hshift : scancode = shiftKey
  · rw [if_pos hshift]
    exact .modifier (fun h => h.2.1 hshift) (by rw [hshift]; decide) rfl rfl rfl rfl
  rw [if_neg hshift]
  by_cases hcaps : scancode = capsLockKey
  · rw [if_pos hcaps]
    exact .modifier (fun h => h.2.2.1 hcaps) (by rw [hcaps]; decide) rfl rfl rfl rfl
  rw [if_neg hcaps]
  by_cases hback : scancode = backspaceKey
  · rw [if_pos hback]
    exact .backspace hback
  · rw [if_neg hback]
    exact .type ⟨hreleased, hshift, hcaps, hback⟩

end Keyboard
end MyOs
