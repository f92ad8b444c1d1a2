import MyOs.Base.System
import MyOs.Logic.Echo

/-!
# The echo and the buffer

A Backspace takes the newest character out of the buffer, and on the screen it
erases the last visible character before the cursor. The two are the same
character unless the newest one has no visible cell: then the screen loses a
character that the buffer still holds, or the prompt.
-/

namespace MyOs.Terminal

open Screen Keyboard

/-- From the starting cursor on the screen is the rendering of the buffer's
characters, with the cursor where the rendering leaves it. -/
def EchoAgrees (start : Screen) (t : Terminal) : Prop :=
  ∃ q r, t.keyboard.Holds q ∧ Screen.runCalls (q.map .putChar) start = .ok ((), r) ∧
    (∀ i, start.posOnScreen ≤ i → i < vgaMaxChars → t.screen.videoMemory i = r.videoMemory i) ∧
    t.screen.posOnScreen = r.posOnScreen

/-- Any sequence of scancodes from an empty buffer, on the screen `start`, as
long as the buffer has room and the screen does not scroll. -/
def sys (start : Screen) : TSys Terminal UInt8 where
  init t := t.keyboard.Holds [] ∧ t.keyboard.putOnScreen = true ∧ t.screen = start
  step t scancode t' :=
    (TypesKey scancode → t.keyboard.held < 255 ∧ t.screen.posOnScreen < vgaMaxChars) ∧
      t.handleScancode scancode = .ok ((), t')

/-- A Backspace finds an empty buffer or a visible character at its end. An
invisible one does no harm as the only character of a screen that starts in the
corner. -/
def FindsVisible (start : Screen) (t : Terminal) (scancode : UInt8) : Prop :=
  scancode = backspaceKey → t.keyboard.isKeyboardBufferEmpty = false →
    t.keyboard.lastChar ≠ newline ∧ t.keyboard.lastChar ≠ 0 ∨
    t.keyboard.held = 1 ∧ start.posOnScreen = 0 ∧
      (t.keyboard.lastChar = newline ∨ start.color = whiteOnBlack)

/-- A screen to type on: nothing from the cursor on. -/
structure Blank (start : Screen) : Prop where
  inside : start.posOnScreen ≤ vgaMaxChars
  cells : ∀ j, start.posOnScreen ≤ j → start.videoMemory j = emptyLetter

/-- The invariant: the buffer holds `q`, and the screen is what `q` looks like. -/
structure Echoed (start : Screen) (t : Terminal) (q : List UInt8) : Prop where
  holds : t.keyboard.Holds q
  on : t.keyboard.putOnScreen = true
  inView : start.InView q
  cells : ∀ i, start.posOnScreen ≤ i → i < vgaMaxChars →
    t.screen.videoMemory i = (start.typed q).videoMemory i
  pos : t.screen.posOnScreen = (start.typed q).posOnScreen
  color : t.screen.color = start.color

section Steps

variable {start : Screen} {t t' : Terminal} {q : List UInt8} {c : UInt8}

theorem Echoed.agrees (h : Echoed start t q) : EchoAgrees start t :=
  ⟨q, start.typed q, h.holds, h.inView.runCalls, h.cells, h.pos⟩

/-- What agreement says when the buffer is known. -/
theorem EchoAgrees.typed (h : EchoAgrees start t) (hq : t.keyboard.Holds q)
    (hview : start.InView q) :
    (∀ i, start.posOnScreen ≤ i → i < vgaMaxChars →
      t.screen.videoMemory i = (start.typed q).videoMemory i) ∧
    t.screen.posOnScreen = (start.typed q).posOnScreen := by
  obtain ⟨q', r, hq', hr, hcells, hpos⟩ := h
  obtain rfl := hq.unique hq'
  rw [hview.runCalls] at hr
  cases hr
  exact ⟨hcells, hpos⟩

/-- The handler, from what it does to the keyboard. -/
theorem handleScancode_eq {scancode : UInt8} {r : Keyboard × Option Echo}
    (hr : t.keyboard.handleScancode scancode = r) {s : Screen}
    (hecho : echo r.2 t.screen = .ok ((), s)) :
    t.handleScancode scancode = .ok ((), ⟨r.1, s⟩) := by
  rw [Terminal.handleScancode, Prog.get_bind_apply, hr]
  exact Prog.zoom_eq_ok.mpr ⟨s, hecho, rfl⟩

/-- A character goes into the buffer and on the screen. -/
theorem Echoed.type (h : Echoed start t q) (hroom : t.keyboard.held < 255)
    (hpos : t.screen.posOnScreen < vgaMaxChars) (c : UInt8) :
    Echoed start ⟨t.keyboard.keyboardBufferPut c, t.screen.place c⟩ (q ++ [c]) := by
  have hq := h.pos
  constructor
  case holds => exact h.holds.put (h.holds.held_eq ▸ hroom) c
  case on => exact h.on
  case inView => exact h.inView.concat (hq ▸ hpos)
  case color => exact color_place.trans h.color
  case cells =>
    intro i hi hmax
    change (t.screen.place c).videoMemory i = _
    rw [typed_concat, videoMemory_place, videoMemory_place, hq, h.color, color_typed,
      h.cells i hi hmax]
  case pos =>
    change (t.screen.place c).posOnScreen = _
    rw [typed_concat]
    by_cases hc : c = newline
    · subst hc
      rw [place_newline, place_newline, hq]
    · rw [place_char hc, place_char hc, hq]

/-- The cells from the cursor before `c` on, up to the cursor after it. -/
theorem Echoed.behind (h : Echoed start t (q ++ [c])) (hblank : Blank start) {j : Nat}
    (hj : (start.typed q).posOnScreen ≤ j) (hmax : j < vgaMaxChars) : t.screen.videoMemory j =
      if j = (start.typed q).posOnScreen ∧ c ≠ newline then ⟨c, start.color⟩ else emptyLetter := by
  have hstart : start.posOnScreen ≤ j := Nat.le_trans start_le_typed hj
  rw [h.cells j hstart hmax, typed_concat, videoMemory_place, color_typed, typed_behind hj,
    hblank.cells j hstart]

theorem rmLastCharBuffer_on (h : t.keyboard.putOnScreen = true) :
    t.keyboard.rmLastCharBuffer.putOnScreen = true := by
  unfold rmLastCharBuffer
  split
  · exact h
  · exact h

/-- The Backspace of a visible character takes it from the screen too. -/
theorem Echoed.erase_visible (h : Echoed start t (q ++ [c])) (hblank : Blank start)
    (hnewline : c ≠ newline) (hvisible : c ≠ 0) : ∃ s, moveCursorBack t.screen = .ok ((), s) ∧
      Echoed start ⟨t.keyboard.rmLastCharBuffer, s⟩ q := by
  obtain ⟨hview, hmax⟩ := h.inView.of_concat
  have hpos : t.screen.posOnScreen = (start.typed q).posOnScreen + 1 := by
    rw [h.pos, typed_concat, place_char hnewline]
  have hcell : (t.screen.videoMemory (start.typed q).posOnScreen).c ≠ emptyLetter.c := by
    rw [h.behind hblank (Nat.le_refl _) hmax, if_pos ⟨rfl, hnewline⟩]
    exact hvisible
  have hrun : moveCursorBack t.screen = .ok ((), { t.screen with
      videoMemory := Function.update t.screen.videoMemory (start.typed q).posOnScreen emptyLetter
      posOnScreen := (start.typed q).posOnScreen }) := by
    rw [moveCursorBack, Prog.get_bind_apply, hpos]
    exact moveBackFrom_visible hmax hcell
  refine ⟨_, hrun, ?_⟩
  constructor
  case holds => simpa using h.holds.rmLast
  case on => exact rmLastCharBuffer_on h.on
  case inView => exact hview
  case pos => rfl
  case color => exact h.color
  case cells =>
    intro i hi hlt
    change Function.update _ _ _ i = _
    by_cases hat : i = (start.typed q).posOnScreen
    · subst hat
      rw [Function.update_self, typed_behind (Nat.le_refl _), hblank.cells _ start_le_typed]
    · rw [Function.update_of_ne hat, h.cells i hi hlt, typed_concat, videoMemory_place,
        if_neg fun h => hat h.1]

/-- The Backspace of an invisible character moves the cursor past the place it
came from, or to the corner. -/
theorem Echoed.erase_invisible (h : Echoed start t (q ++ [c])) (hblank : Blank start)
    (hinvisible : c = newline ∨ c = 0) :
    (start.typed q).posOnScreen = 0 ∧
        moveCursorBack t.screen = .ok ((), { t.screen with posOnScreen := 0 }) ∨
      ∃ s, moveCursorBack t.screen = .ok ((), s) ∧
        s.posOnScreen < (start.typed q).posOnScreen := by
  have hmax : t.screen.posOnScreen ≤ vgaMaxChars := h.pos ▸ typed_pos_le h.inView hblank.inside
  have hlt : (start.typed q).posOnScreen < t.screen.posOnScreen := by
    rw [h.pos, typed_concat]
    exact pos_lt_place
  obtain ⟨n, hn⟩ := Nat.exists_eq_add_of_le (Nat.le_of_lt hlt)
  have hcells : ∀ j, (start.typed q).posOnScreen ≤ j → j < (start.typed q).posOnScreen + n →
      (t.screen.videoMemory j).c = emptyLetter.c := by
    intro j hj hj'
    rw [h.behind hblank hj (by omega)]
    split
    · next hat => exact hinvisible.resolve_left hat.2
    · rfl
  have hrun : moveCursorBack t.screen = moveBackFrom (start.typed q).posOnScreen
      { t.screen with posOnScreen := (start.typed q).posOnScreen } := by
    rw [moveCursorBack, Prog.get_bind_apply, hn]
    exact moveBackFrom_blank n (hn ▸ hmax) hn hcells
  by_cases hzero : (start.typed q).posOnScreen = 0
  · rw [hzero] at hrun
    exact .inl ⟨hzero, hrun⟩
  · obtain ⟨s, hs, hpos⟩ := moveBackFrom_lt (start.typed q).posOnScreen
      (s := { t.screen with posOnScreen := (start.typed q).posOnScreen })
      (Nat.le_trans (Nat.le_of_lt hlt) hmax) rfl (Nat.pos_of_ne_zero hzero)
    exact .inr ⟨s, hrun.trans hs, hpos⟩

/-- The state after a Backspace, when the buffer holds a character. -/
theorem backspace_eq (h : Echoed start t (q ++ [c])) {s : Screen}
    (hback : moveCursorBack t.screen = .ok ((), s)) :
    t.handleScancode backspaceKey = .ok ((), ⟨t.keyboard.rmLastCharBuffer, s⟩) := by
  have hfull : t.keyboard.isKeyboardBufferEmpty = false := by
    refine decide_eq_false fun hempty => ?_
    simpa using h.holds.empty_iff.mp hempty
  have hkeys : t.keyboard.handleScancode backspaceKey =
      (t.keyboard.rmLastCharBuffer, some .moveCursorBack) := by
    rw [Keyboard.handleScancode, if_neg (by decide), if_neg (by decide), if_neg (by decide),
      if_pos rfl, hfull, h.on]
    rfl
  exact handleScancode_eq hkeys hback

/-- A Backspace on a non-empty buffer keeps the agreement exactly when it meets
the condition. -/
theorem Echoed.backspace_iff (h : Echoed start t (q ++ [c])) (hblank : Blank start) :
    ∃ s, moveCursorBack t.screen = .ok ((), s) ∧
      (FindsVisible start t backspaceKey →
        Echoed start ⟨t.keyboard.rmLastCharBuffer, s⟩ q) ∧
      (¬ FindsVisible start t backspaceKey →
        ¬ EchoAgrees start ⟨t.keyboard.rmLastCharBuffer, s⟩) := by
  have hlast := h.holds.lastChar
  have hheld : t.keyboard.held = q.length + 1 := by simpa using h.holds.held_eq
  obtain ⟨hview, hmax⟩ := h.inView.of_concat
  have hholds : t.keyboard.rmLastCharBuffer.Holds q := by simpa using h.holds.rmLast
  by_cases hvisible : c ≠ newline ∧ c ≠ 0
  · obtain ⟨s, hs, hnext⟩ := h.erase_visible hblank hvisible.1 hvisible.2
    refine ⟨s, hs, fun _ => hnext, fun hfinds => absurd (fun _ _ => .inl ?_) hfinds⟩
    exact hlast.symm ▸ hvisible
  have hinvisible : c = newline ∨ c = 0 := by
    by_cases hc : c = newline
    · exact .inl hc
    · exact .inr (Classical.not_not.mp fun h0 => hvisible ⟨hc, h0⟩)
  have hfull : t.keyboard.isKeyboardBufferEmpty = false := by
    refine decide_eq_false fun hempty => ?_
    simpa using h.holds.empty_iff.mp hempty
  have hcorner (hfinds : FindsVisible start t backspaceKey) : t.keyboard.held = 1 ∧
      start.posOnScreen = 0 ∧ (c = newline ∨ start.color = whiteOnBlack) := by
    have hcase := (hfinds rfl hfull).resolve_left fun hv => hvisible (hlast ▸ hv)
    exact hlast ▸ hcase
  rcases h.erase_invisible hblank hinvisible with ⟨hzero, hrun⟩ | ⟨s, hs, hpos⟩
  · -- the character is the first one, in the corner
    obtain rfl := typed_pos_eq_zero hzero
    refine ⟨_, hrun, fun hfinds => ?_, fun hfinds hagrees => hfinds fun _ _ => .inr ?_⟩
    · obtain ⟨_, hstart, hcolor⟩ := hcorner hfinds
      refine ⟨hholds, rmLastCharBuffer_on h.on, .nil, fun i hi hlt => ?_, hzero.symm, h.color⟩
      change t.screen.videoMemory i = start.videoMemory i
      rw [h.behind hblank hi hlt, hblank.cells i hi]
      split
      · next hat =>
          rw [hinvisible.resolve_left hat.2, hcolor.resolve_left hat.2]
          rfl
      · rfl
    · refine ⟨hheld, hzero, ?_⟩
      rw [hlast]
      by_cases hc : c = newline
      · exact .inl hc
      · -- the cell has the character's colour
        have hcell := (hagrees.typed hholds .nil).1 0 (Nat.le_of_eq hzero) (by decide)
        change t.screen.videoMemory 0 = start.videoMemory 0 at hcell
        rw [h.behind hblank (Nat.le_of_eq hzero) (by decide), if_pos ⟨hzero.symm, hc⟩,
          hblank.cells 0 (Nat.le_of_eq hzero)] at hcell
        exact .inr (congrArg Letter.color hcell)
  · refine ⟨s, hs, fun hfinds => ?_, fun _ hagrees => ?_⟩
    · obtain ⟨hone, hstart, _⟩ := hcorner hfinds
      obtain rfl : q = [] := List.length_eq_zero_iff.mp (by omega)
      exact absurd (hstart ▸ hpos : s.posOnScreen < 0) (Nat.not_lt_zero _)
    · exact absurd (hagrees.typed hholds hview).2 (Nat.ne_of_lt hpos)

/-- One scancode: the agreement is kept exactly when the condition is met. -/
theorem Echoed.step {scancode : UInt8} (h : Echoed start t q) (hblank : Blank start)
    (hstep : (sys start).step t scancode t') :
    (FindsVisible start t scancode → ∃ q', Echoed start t' q') ∧
      (¬ FindsVisible start t scancode → ¬ EchoAgrees start t') := by
  obtain ⟨hfits, hrun⟩ := hstep
  have heffect := handleScancode_effect t.keyboard scancode
  generalize hkeys : t.keyboard.handleScancode scancode = r at heffect
  cases heffect with
  | type htypes =>
      obtain ⟨hroom, hpos⟩ := hfits htypes
      have hecho : echo (if t.keyboard.putOnScreen then some (.putChar (typedChar
          t.keyboard.shiftPressed t.keyboard.capsLock scancode)) else none) t.screen =
          .ok ((), t.screen.place (typedChar t.keyboard.shiftPressed t.keyboard.capsLock scancode)) := by
        rw [h.on]
        exact putChar_place hpos
      rw [handleScancode_eq hkeys hecho] at hrun
      cases hrun
      exact ⟨fun _ => ⟨_, h.type hroom hpos _⟩,
        fun hfinds => absurd (fun hback => absurd hback htypes.2.2.2) hfinds⟩
  | backspace hback =>
      subst hback
      by_cases hempty : t.keyboard.isKeyboardBufferEmpty = true
      · rw [if_pos hempty] at hkeys
        have hsame := handleScancode_eq (t := t) (s := t.screen) hkeys rfl
        rw [hsame] at hrun
        cases hrun
        refine ⟨fun _ => ⟨q, h⟩, fun hfinds => absurd (fun _ hfull => ?_) hfinds⟩
        rw [hempty] at hfull
        cases hfull
      · have hne : q ≠ [] := fun hnil => hempty (decide_eq_true (h.holds.empty_iff.mpr hnil))
        obtain ⟨q', c, rfl⟩ := List.eq_nil_or_concat' q |>.resolve_left hne
        obtain ⟨s, hs, hkeep, hlose⟩ := h.backspace_iff hblank
        rw [backspace_eq h hs] at hrun
        cases hrun
        exact ⟨fun hfinds => ⟨q', hkeep hfinds⟩, hlose⟩
  | @modifier k _ hback hbuffer hhead htail hon =>
      have hsame := handleScancode_eq (t := t) (s := t.screen) hkeys rfl
      rw [hsame] at hrun
      cases hrun
      refine ⟨fun _ => ⟨q, ⟨?_, hon.trans h.on, h.inView, h.cells, h.pos, h.color⟩⟩,
        fun hfinds => absurd (fun heq => absurd heq hback) hfinds⟩
      refine ⟨htail ▸ h.holds.tail, h.holds.room, ?_, ?_⟩
      · rw [hhead, htail]
        exact h.holds.head
      · rw [hbuffer, htail]
        exact h.holds.chars

end Steps

/-- The screen shows some buffer contents. -/
def Tracks (start : Screen) (t : Terminal) : Prop := ∃ q, Echoed start t q

/-- **The echo agrees with the buffer.** On a screen that is blank from the
cursor on, along any sequence of scancodes the screen shows what is in the
buffer after each of them exactly when every Backspace finds an empty buffer or a
visible character at its end. -/
theorem echo_agrees_iff {start : Screen} (hblank : Blank start) {t : Terminal}
    (hinit : (sys start).init t) {run : List (UInt8 × Terminal)}
    (hrun : (sys start).IsRun t run) :
    TSys.AllStates (EchoAgrees start) t run ↔ TSys.AllSteps (FindsVisible start) t run := by
  obtain ⟨hholds, hon, hscreen⟩ := hinit
  have hstart : Tracks start t :=
    ⟨[], hholds, hon, .nil, fun _ _ _ => by rw [hscreen]; rfl, by rw [hscreen]; rfl, by rw [hscreen]⟩
  have hsafe : ∀ s, Tracks start s → EchoAgrees start s := fun _ ⟨_, h⟩ => h.agrees
  refine TSys.run_states_iff_steps hsafe ?_ ?_ hstart hrun
  · rintro s a s' ⟨q, h⟩ hfinds hstep
    exact (h.step hblank hstep).1 hfinds
  · rintro s a s' ⟨q, h⟩ hfinds hstep
    exact (h.step hblank hstep).2 hfinds

/-- The screen after the shell's prompt, a greater-than sign. -/
def prompt : Screen :=
  ⟨Function.update (fun _ => emptyLetter) 0 ⟨62, whiteOnBlack⟩, 1, whiteOnBlack⟩

theorem prompt_blank : Blank prompt where
  inside := by decide
  cells j hj := by
    change 1 ≤ j at hj
    change Function.update (fun _ => emptyLetter) 0 _ j = emptyLetter
    rw [Function.update_of_ne (Nat.ne_of_gt hj)]

def atPrompt : Terminal := ⟨⟨fun _ => 0, 0, 0, false, true, false⟩, prompt⟩

theorem atPrompt_init : (sys prompt).init atPrompt :=
  ⟨⟨by decide, by decide, rfl, nofun⟩, rfl, rfl⟩

/-- The key a and Backspace: every Backspace finds a visible character. -/
theorem echo_agrees_letter : ∃ run, (sys prompt).IsRun atPrompt run ∧
    run.map Prod.fst = [0x1E, backspaceKey] ∧
    TSys.AllStates (EchoAgrees prompt) atPrompt run := by
  have hrun : (sys prompt).IsRun atPrompt [(0x1E, _), (backspaceKey, _)] :=
    ⟨⟨fun _ => by decide, rfl⟩, ⟨fun _ => by decide, rfl⟩, trivial⟩
  refine ⟨_, hrun, rfl, (echo_agrees_iff prompt_blank atPrompt_init hrun).mpr ?_⟩
  exact ⟨fun h => absurd h (by decide), fun _ _ => .inl (by decide), trivial⟩

/-- Enter and Backspace: the buffer is empty again, and the prompt is gone. -/
theorem echo_erases_prompt : ∃ run, (sys prompt).IsRun atPrompt run ∧
    run.map Prod.fst = [enterKey, backspaceKey] ∧
    (TSys.final atPrompt run).keyboard.held = 0 ∧
    (TSys.final atPrompt run).screen.videoMemory 0 = emptyLetter ∧
    (TSys.final atPrompt run).screen.posOnScreen = 0 ∧
    ¬ TSys.AllStates (EchoAgrees prompt) atPrompt run := by
  have hrun : (sys prompt).IsRun atPrompt [(enterKey, _), (backspaceKey, _)] :=
    ⟨⟨fun _ => by decide, rfl⟩, ⟨fun _ => by decide, rfl⟩, trivial⟩
  refine ⟨_, hrun, rfl, by decide +kernel, by decide +kernel, by decide +kernel, fun hall => ?_⟩
  obtain ⟨q, r, hq, hr, _, hpos⟩ := hall.final
  obtain rfl : q = [] := List.length_eq_zero_iff.mp (by
    rw [← hq.held_eq]
    decide +kernel)
  cases hr
  exact absurd hpos (by decide +kernel)

end MyOs.Terminal
