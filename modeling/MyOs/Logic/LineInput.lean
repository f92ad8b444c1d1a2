import MyOs.Drivers.Keyboard

/-!
# The line in the ring

`Holds` reads the ring as the list of its characters, the oldest first. `Feeds`
is the invariant of the two parties while a line is typed: the line is what the
shell has taken, what it had no room for and what is still in the ring, as long
as every Backspace finds its character in the ring.
-/

namespace MyOs

/-! ## The ring of characters -/

namespace Keyboard

/-- The buffer holds the characters of `q`, the oldest first. -/
structure Holds (k : Keyboard) (q : List UInt8) : Prop where
  tail : k.bufferTail < 256
  room : q.length ≤ 255
  head : k.bufferHead = (k.bufferTail + q.length) % 256
  chars : ∀ i, i < q.length → q[i]? = some (k.keyboardBuffer ((k.bufferTail + i) % 256))

namespace Holds

variable {k : Keyboard} {q : List UInt8}

theorem empty_iff (h : Holds k q) : k.bufferHead = k.bufferTail ↔ q = [] := by
  have hhead := h.head
  have htail := h.tail
  have hroom := h.room
  rw [← List.length_eq_zero_iff]
  omega

theorem held_eq (h : Holds k q) : k.held = q.length := by
  have hhead := h.head
  have htail := h.tail
  have hroom := h.room
  unfold held bufferSize
  omega

/-- A character goes behind the others. -/
theorem put (h : Holds k q) (hroom : q.length < 255) (c : UInt8) :
    Holds (k.keyboardBufferPut c) (q ++ [c]) := by
  have hhead := h.head
  refine ⟨h.tail, by simp; omega, ?_, fun i hi => ?_⟩
  · change (k.bufferHead + 1) % 256 = (k.bufferTail + (q ++ [c]).length) % 256
    rw [List.length_append, List.length_singleton]
    omega
  · rw [List.length_append, List.length_singleton] at hi
    change _ = some (Function.update k.keyboardBuffer k.bufferHead c ((k.bufferTail + i) % 256))
    by_cases hlast : i = q.length
    · subst hlast
      rw [List.getElem?_concat_length, ← hhead, Function.update_self]
    · rw [List.getElem?_append_left (by omega), h.chars i (by omega),
        Function.update_of_ne (by omega)]

/-- The newest character goes. -/
theorem rmLast (h : Holds k q) : Holds k.rmLastCharBuffer q.dropLast := by
  have hhead := h.head
  have hroom := h.room
  have htail := h.tail
  unfold rmLastCharBuffer
  by_cases hempty : k.bufferHead = k.bufferTail
  · obtain rfl := h.empty_iff.mp hempty
    rw [if_pos hempty]
    exact h
  · have hpos : q.length ≠ 0 := by
      rw [ne_eq, List.length_eq_zero_iff, ← h.empty_iff]
      exact hempty
    rw [if_neg hempty]
    refine ⟨htail, by simp; omega, ?_, fun i hi => ?_⟩
    · change (k.bufferHead + 255) % 256 = (k.bufferTail + q.dropLast.length) % 256
      rw [List.length_dropLast]
      omega
    · rw [List.length_dropLast] at hi
      rw [List.getElem?_dropLast, if_pos (by omega), h.chars i (by omega)]

/-- The tail is at the oldest character. -/
theorem front {c : UInt8} (h : Holds k (c :: q)) : k.keyboardBuffer k.bufferTail = c := by
  have hchar := h.chars 0 (by simp)
  rw [Nat.add_zero, Nat.mod_eq_of_lt h.tail] at hchar
  exact (Option.some.inj hchar).symm

/-- Taking the oldest character. -/
theorem advance {c : UInt8} (h : Holds k (c :: q)) : Holds k.advanceTail q := by
  have hhead := h.head
  have hroom := h.room
  have htail := h.tail
  rw [List.length_cons] at hhead hroom
  refine ⟨Nat.mod_lt _ (by decide), by omega, ?_, fun i hi => ?_⟩
  · change k.bufferHead = ((k.bufferTail + 1) % 256 + q.length) % 256
    omega
  · have hchar := h.chars (i + 1) (by simpa using hi)
    rw [List.getElem?_cons_succ] at hchar
    have hindex : (k.bufferTail + (i + 1)) % 256 = ((k.bufferTail + 1) % 256 + i) % 256 := by omega
    rw [hchar, hindex]
    rfl

end Holds

/-- The scancode puts a character in the buffer. -/
def TypesKey (scancode : UInt8) : Prop :=
  ¬ isKeyReleased scancode ∧ scancode ≠ shiftKey ∧ scancode ≠ capsLockKey ∧
    scancode ≠ backspaceKey

instance (scancode : UInt8) : Decidable (TypesKey scancode) :=
  inferInstanceAs (Decidable (_ ∧ _))

/-- The character of a scancode. -/
def typedChar (shift caps : Bool) (scancode : UInt8) : UInt8 :=
  if shift || caps then shiftAscii (scancodeToAscii scancode) else scancodeToAscii scancode

/-- Only the Enter key types a newline and no key types a backspace. -/
theorem typedChar_plain (shift caps : Bool) {scancode : UInt8} (henter : scancode ≠ enterKey)
    (hback : scancode ≠ backspaceKey) :
    typedChar shift caps scancode ≠ 10 ∧ typedChar shift caps scancode ≠ 8 := by
  have htable : ∀ n, n < 256 → n ≠ 0x1C → n ≠ 0x0E →
      (kbdUs.getD n 0 ≠ 10 ∧ kbdUs.getD n 0 ≠ 8) ∧
        shiftAscii (kbdUs.getD n 0) ≠ 10 ∧ shiftAscii (kbdUs.getD n 0) ≠ 8 := by
    decide +kernel
  have hplain : (scancodeToAscii scancode ≠ 10 ∧ scancodeToAscii scancode ≠ 8) ∧
      shiftAscii (scancodeToAscii scancode) ≠ 10 ∧ shiftAscii (scancodeToAscii scancode) ≠ 8 := by
    unfold scancodeToAscii
    split
    · decide
    · exact htable scancode.toNat scancode.toNat_lt
        (fun h => henter (UInt8.toNat_inj.mp h)) fun h => hback (UInt8.toNat_inj.mp h)
  unfold typedChar
  split
  · exact hplain.2
  · exact hplain.1

end Keyboard

/-! ## What is typed -/

/-- A typist's line: each key adds its character and each Backspace deletes the
one before it. -/
structure Typist where
  shift : Bool
  caps : Bool
  line : List UInt8

open Keyboard in
def Typist.press (t : Typist) (scancode : UInt8) : Typist :=
  if isKeyReleased scancode then
    if scancode - keyReleaseMask = shiftKey then { t with shift := false } else t
  else if scancode = shiftKey then { t with shift := true }
  else if scancode = capsLockKey then { t with caps := !t.caps }
  else if scancode = backspaceKey then { t with line := t.line.dropLast }
  else { t with line := t.line ++ [typedChar t.shift t.caps scancode] }

/-- The line that `scancodes` type on the keyboard `k`. -/
def typedLine (k : Keyboard) (scancodes : List UInt8) : List UInt8 :=
  (scancodes.foldl Typist.press ⟨k.shiftPressed, k.capsLock, []⟩).line

namespace Console

/-- The buffer never holds more than 255 characters. -/
def Fits (con : Console) (step : Step) : Prop :=
  ∀ scancode, step = .scancode scancode → Keyboard.TypesKey scancode → con.keyboard.held < 255

/-- A Backspace finds a character in the buffer that the shell is not about to
take, or there is no character in the line. -/
def FindsCharacter (con : Console) (step : Step) : Prop :=
  step = .scancode Keyboard.backspaceKey → 2 ≤ con.keyboard.held ∨
    con.shell.pc = .polling ∧ (con.keyboard.held = 1 ∨ con.shell.input = [])

instance (con : Console) (step : Step) : Decidable (Fits con step) :=
  match step with
  | .shell => isTrue nofun
  | .scancode scancode =>
      decidable_of_iff (Keyboard.TypesKey scancode → con.keyboard.held < 255)
        ⟨fun h _ heq => Step.scancode.inj heq ▸ h, fun h => h scancode rfl⟩

instance (con : Console) (step : Step) : Decidable (FindsCharacter con step) :=
  inferInstanceAs (Decidable (_ → _))

/-- The line typed so far is what the shell has taken, the characters `lost`
that found it full, and the characters `q` in the buffer, behind which `e` is
the Enter key's, once it is typed. -/
structure Feeds (con : Console) (t : Typist) (lost q e : List UInt8) : Prop where
  shift : con.keyboard.shiftPressed = t.shift
  caps : con.keyboard.capsLock = t.caps
  holds : con.keyboard.Holds (q ++ e)
  line : t.line = con.shell.input ++ lost ++ q
  full : lost ≠ [] → maxInputLength - 1 ≤ con.shell.input.length
  plain : ∀ c ∈ q, c ≠ 10 ∧ c ≠ 8
  loading : con.shell.pc = .loading → q ++ e ≠ []
  advancing : ∀ c, con.shell.pc = .advancing c → (q ++ e).head? = some c

/-- The shell has taken the whole line. -/
structure Taken (con : Console) (executed : List (List UInt8)) : Prop where
  pc : con.shell.pc = .polling
  empty : con.keyboard.Holds []
  executed : con.shell.executed = executed

namespace Feeds

variable {con : Console} {t : Typist} {lost q e : List UInt8}

/-- A change of the modifier keys only. -/
theorem keys (h : Feeds con t lost q e) {k : Keyboard} {t' : Typist}
    (hbuffer : k.keyboardBuffer = con.keyboard.keyboardBuffer)
    (hhead : k.bufferHead = con.keyboard.bufferHead)
    (htail : k.bufferTail = con.keyboard.bufferTail) (hshift : k.shiftPressed = t'.shift)
    (hcaps : k.capsLock = t'.caps) (hline : t'.line = t.line) :
    Feeds { con with keyboard := k } t' lost q e := by
  refine ⟨hshift, hcaps, ⟨htail ▸ h.holds.tail, h.holds.room, ?_, ?_⟩, hline.trans h.line, h.full,
    h.plain, h.loading, h.advancing⟩
  · rw [hhead, htail]
    exact h.holds.head
  · rw [hbuffer, htail]
    exact h.holds.chars

/-- A Backspace that finds its character in the buffer, or an empty line. -/
theorem backspace (h : Feeds con t lost q [])
    (hfinds : FindsCharacter con (.scancode Keyboard.backspaceKey)) :
    Feeds { con with keyboard := con.keyboard.rmLastCharBuffer }
      { t with line := t.line.dropLast } lost q.dropLast [] := by
  have hholds : con.keyboard.Holds q := by simpa using h.holds
  have hheld := hholds.held_eq
  have hsame : con.keyboard.rmLastCharBuffer.shiftPressed = con.keyboard.shiftPressed ∧
      con.keyboard.rmLastCharBuffer.capsLock = con.keyboard.capsLock := by
    unfold Keyboard.rmLastCharBuffer
    split <;> exact ⟨rfl, rfl⟩
  refine ⟨hsame.1.trans h.shift, hsame.2.trans h.caps, by simpa using hholds.rmLast, ?_, h.full,
    fun c hc => h.plain c (List.dropLast_subset q hc), ?_, ?_⟩
  · change t.line.dropLast = con.shell.input ++ lost ++ q.dropLast
    by_cases hq : q = []
    · -- the buffer is empty, and so is the line
      have hinput : con.shell.input = [] := by
        rcases hfinds rfl with htwo | ⟨_, hone | hinput⟩
        · simp [hheld, hq] at htwo
        · simp [hheld, hq] at hone
        · exact hinput
      have hlost : lost = [] := by
        refine Classical.byContradiction fun hne => ?_
        have hfull := h.full hne
        rw [hinput] at hfull
        exact absurd hfull (by decide)
      rw [h.line, hinput, hlost, hq]
      rfl
    · rw [h.line, List.dropLast_append_of_ne_nil hq]
  · -- the shell has not fetched the character that goes
    intro hpc
    have htwo : 2 ≤ q.length := by
      rcases hfinds rfl with htwo | ⟨hpoll, _⟩
      · exact hheld ▸ htwo
      · exact absurd (hpc.symm.trans hpoll) (by simp)
    rw [List.append_nil, ne_eq, ← List.length_eq_zero_iff, List.length_dropLast]
    omega
  · intro c hpc
    have htwo : 2 ≤ q.length := by
      rcases hfinds rfl with htwo | ⟨hpoll, _⟩
      · exact hheld ▸ htwo
      · exact absurd (hpc.symm.trans hpoll) (by simp)
    have hhead := h.advancing c hpc
    rw [List.append_nil] at hhead ⊢
    obtain ⟨rest, rfl⟩ := List.head?_eq_some_iff.mp hhead
    obtain ⟨d, rest, rfl⟩ := List.exists_cons_of_length_pos (l := rest) (Nat.succ_le_succ_iff.mp htwo)
    simp

/-- A key with a character. -/
theorem type (h : Feeds con t lost q []) {c : UInt8} (hroom : con.keyboard.held < 255)
    (hc : c ≠ 10 ∧ c ≠ 8) :
    Feeds { con with keyboard := con.keyboard.keyboardBufferPut c }
      { t with line := t.line ++ [c] } lost (q ++ [c]) [] := by
  have hholds : con.keyboard.Holds q := by simpa using h.holds
  have hput := hholds.put (hholds.held_eq ▸ hroom) c
  refine ⟨h.shift, h.caps, by simpa using hput, ?_, h.full, ?_, ?_, ?_⟩
  · change t.line ++ [c] = _
    rw [h.line, List.append_assoc]
  · intro d hd
    rcases List.mem_append.mp hd with hd | hd
    · exact h.plain d hd
    · exact List.mem_singleton.mp hd ▸ hc
  · intro _
    simp
  · intro d hd
    have hhead := h.advancing d hd
    rw [List.append_nil] at hhead ⊢
    rw [List.head?_append, hhead]
    rfl

/-- The Enter key types a newline whatever the modifiers. -/
theorem step_enter : con.step (.scancode Keyboard.enterKey) =
    { con with keyboard := con.keyboard.keyboardBufferPut 10 } := by
  have hchar : ∀ modifier : Bool, (if modifier then
      Keyboard.shiftAscii (Keyboard.scancodeToAscii Keyboard.enterKey)
      else Keyboard.scancodeToAscii Keyboard.enterKey) = 10 := by decide
  change ({ con with keyboard := (con.keyboard.handleScancode Keyboard.enterKey).1 } : Console) = _
  rw [Keyboard.handleScancode, if_neg (by decide), if_neg (by decide), if_neg (by decide),
    if_neg (by decide)]
  exact congrArg (fun c => ({ con with keyboard := con.keyboard.keyboardBufferPut c } : Console))
    (hchar _)

/-- The Enter key. -/
theorem enter (h : Feeds con t lost q []) (hroom : con.keyboard.held < 255) :
    Feeds (con.step (.scancode Keyboard.enterKey)) t lost q [10] := by
  rw [step_enter]
  have hholds : con.keyboard.Holds q := by simpa using h.holds
  refine ⟨h.shift, h.caps, hholds.put (hholds.held_eq ▸ hroom) 10, h.line, h.full, h.plain, ?_, ?_⟩
  · intro _
    simp
  · intro d hd
    have hhead := h.advancing d hd
    rw [List.append_nil] at hhead
    rw [List.head?_append, hhead]
    rfl

/-- A scancode other than Enter. -/
theorem scancode (h : Feeds con t lost q []) {scancode : UInt8}
    (henter : scancode ≠ Keyboard.enterKey) (hfits : Fits con (.scancode scancode))
    (hfinds : FindsCharacter con (.scancode scancode)) :
    ∃ q', Feeds (con.step (.scancode scancode)) (t.press scancode) lost q' [] := by
  change ∃ q', Feeds { con with keyboard := (con.keyboard.handleScancode scancode).1 } _ lost q' []
  unfold Keyboard.handleScancode Typist.press
  by_cases hreleased : Keyboard.isKeyReleased scancode
  · rw [if_pos hreleased, if_pos hreleased]
    split
    · exact ⟨q, h.keys rfl rfl rfl rfl h.caps rfl⟩
    · exact ⟨q, h⟩
  rw [if_neg hreleased, if_neg hreleased]
  by_cases hshift : scancode = Keyboard.shiftKey
  · rw [if_pos hshift, if_pos hshift]
    exact ⟨q, h.keys rfl rfl rfl rfl h.caps rfl⟩
  rw [if_neg hshift, if_neg hshift]
  by_cases hcaps : scancode = Keyboard.capsLockKey
  · rw [if_pos hcaps, if_pos hcaps]
    exact ⟨q, h.keys rfl rfl rfl h.shift (congrArg not h.caps) rfl⟩
  rw [if_neg hcaps, if_neg hcaps]
  by_cases hback : scancode = Keyboard.backspaceKey
  · subst hback
    rw [if_pos rfl, if_pos rfl]
    refine ⟨q.dropLast, ?_⟩
    have hnext := h.backspace hfinds
    unfold Keyboard.isKeyboardBufferEmpty
    by_cases hempty : con.keyboard.bufferHead = con.keyboard.bufferTail
    · rw [Keyboard.rmLastCharBuffer, if_pos hempty] at hnext
      simpa [hempty] using hnext
    · simpa [hempty] using hnext
  · rw [if_neg hback, if_neg hback]
    have htype := h.type (hfits scancode rfl ⟨hreleased, hshift, hcaps, hback⟩)
      (Keyboard.typedChar_plain t.shift t.caps henter hback)
    have hchar : Keyboard.typedChar t.shift t.caps scancode =
        Keyboard.typedChar con.keyboard.shiftPressed con.keyboard.capsLock scancode := by
      rw [h.shift, h.caps]
    rw [hchar] at htype ⊢
    exact ⟨_, htype⟩

/-- The shell's next access, while the line is not complete. -/
theorem shell (h : Feeds con t lost q e) (he : e = [] ∨ e = [10]) :
    (∃ lost' q', Feeds con.stepShell t lost' q' e ∧
      con.stepShell.shell.executed = con.shell.executed) ∨
    (e = [10] ∧ t.line = con.shell.input ++ lost ∧
      Taken con.stepShell (con.shell.executed ++ [con.shell.input])) := by
  unfold stepShell
  cases hpc : con.shell.pc with
  | polling =>
      left
      by_cases hempty : con.keyboard.isKeyboardBufferEmpty
      · simp only [if_pos hempty]
        exact ⟨lost, q, h, trivial⟩
      · simp only [if_neg hempty]
        refine ⟨lost, q, ⟨h.shift, h.caps, h.holds, h.line, h.full, h.plain, fun _ hnil => ?_,
          nofun⟩, trivial⟩
        exact hempty (decide_eq_true (h.holds.empty_iff.mpr hnil))
  | loading =>
      left
      refine ⟨lost, q, ⟨h.shift, h.caps, h.holds, h.line, h.full, h.plain, nofun, ?_⟩, rfl⟩
      intro c hc
      obtain ⟨d, rest, hd⟩ := List.exists_cons_of_ne_nil (h.loading hpc)
      have hfront := (hd ▸ h.holds : con.keyboard.Holds (d :: rest)).front
      obtain rfl : con.keyboard.keyboardBuffer con.keyboard.bufferTail = c := by
        cases hc
        rfl
      rw [hd, hfront]
      rfl
  | advancing c =>
      have hhead := h.advancing c hpc
      cases q with
      | nil =>
          -- the Enter key's character ends the line
          obtain rfl : e = [10] := by
            refine he.resolve_left fun hnil => ?_
            subst hnil
            cases hhead
          obtain rfl : (10 : UInt8) = c := Option.some.inj hhead
          exact .inr ⟨rfl, by simpa using h.line, rfl, h.holds.advance, rfl⟩
      | cons d q =>
          obtain rfl : d = c := Option.some.inj hhead
          obtain ⟨hnewline, hback⟩ := h.plain d List.mem_cons_self
          have hplain : ∀ c ∈ q, c ≠ 10 ∧ c ≠ 8 := fun c hc => h.plain c (List.mem_cons_of_mem d hc)
          left
          by_cases hroom : con.shell.input.length < maxInputLength - 1
          · have htake : { con.shell with pc := .polling }.take d =
                { con.shell with pc := .polling, input := con.shell.input ++ [d] } := by
              rw [Shell.take, if_neg hnewline, if_neg hback, if_pos hroom]
            have hlost : lost = [] := Classical.byContradiction fun hne =>
              Nat.not_le_of_lt hroom (h.full hne)
            simp only [htake]
            refine ⟨[], q, ⟨h.shift, h.caps, h.holds.advance, ?_, fun hne => absurd rfl hne, hplain,
              nofun, nofun⟩, trivial⟩
            simpa [hlost] using h.line
          · -- the line is full and the character is lost
            have htake : { con.shell with pc := .polling }.take d =
                { con.shell with pc := .polling } := by
              rw [Shell.take, if_neg hnewline, if_neg hback, if_neg hroom]
            simp only [htake]
            refine ⟨lost ++ [d], q, ⟨h.shift, h.caps, h.holds.advance, ?_, fun _ => ?_, hplain,
              nofun, nofun⟩, trivial⟩
            · simpa using h.line
            · exact Nat.le_of_not_lt hroom

end Feeds

end Console
end MyOs
