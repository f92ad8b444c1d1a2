import MyOs.Theorems.LineInput

/-!
# The shell reads what is typed

Keys may be typed ahead of the shell, over any number of lines. The characters reach
the shell in the order of the text, each once, and the commands it executes are the
lines of that text, cut to the length of `input`, as long as a Backspace finds its
character unread.
-/

namespace MyOs

/-! ## Lines -/

section SplitOn

variable {α : Type} [BEq α] [LawfulBEq α] {a c : α}

/-- One more character of the last line. -/
theorem splitOn_concat_ne (h : c ≠ a) (xs : List α) : ∃ front last,
    xs.splitOn a = front ++ [last] ∧ (xs ++ [c]).splitOn a = front ++ [last ++ [c]] := by
  induction xs with
  | nil =>
      refine ⟨[], [], rfl, ?_⟩
      rw [List.nil_append, List.splitOn_eq_singleton (by simpa using h.symm)]
      rfl
  | cons x xs ih =>
      obtain ⟨front, last, hxs, hconcat⟩ := ih
      rw [List.cons_append, List.splitOn_cons_eq_if_modifyHead, List.splitOn_cons_eq_if_modifyHead,
        hxs, hconcat]
      split
      · exact ⟨[] :: front, last, rfl, rfl⟩
      · cases front with
        | nil => exact ⟨[], x :: last, rfl, rfl⟩
        | cons first front => exact ⟨(x :: first) :: front, last, rfl, rfl⟩

end SplitOn

/-- The commands in a text: its complete lines, as far as `input` has room for them. -/
def commandLines (text : List UInt8) : List (List UInt8) :=
  (text.splitOn 10).dropLast.map (List.take (maxInputLength - 1))

/-- What `input` holds of the line that is not complete. -/
def openLine (text : List UInt8) : List UInt8 :=
  ((text.splitOn 10).getLastD []).take (maxInputLength - 1)

/-- A text with its last line apart. -/
theorem lines_of_splitOn {text : List UInt8} {front : List (List UInt8)} {last : List UInt8}
    (h : text.splitOn 10 = front ++ [last]) :
    commandLines text = front.map (List.take (maxInputLength - 1)) ∧
      openLine text = last.take (maxInputLength - 1) := by
  constructor
  · rw [commandLines, h, List.dropLast_concat]
  · rw [openLine, h, List.getLastD_concat]

/-- The shell takes the next character of a text. -/
theorem Shell.take_text {sh : Shell} {old : List (List UInt8)} {text : List UInt8}
    (hexecuted : sh.executed = old ++ commandLines text) (hinput : sh.input = openLine text)
    {c : UInt8} (hc : c ≠ 8) :
    (sh.take c).executed = old ++ commandLines (text ++ [c]) ∧
      (sh.take c).input = openLine (text ++ [c]) := by
  by_cases hnewline : c = 10
  · subst hnewline
    obtain ⟨front, last, htext⟩ : ∃ front last, text.splitOn 10 = front ++ [last] :=
      ⟨_, _, (List.dropLast_append_getLast (List.splitOn_ne_nil 10 text)).symm⟩
    obtain ⟨hlines, hopen⟩ := lines_of_splitOn htext
    have hnext : (text ++ [10]).splitOn 10 = (front ++ [last]) ++ [[]] := by
      rw [List.splitOn_append_cons_self, htext]
      rfl
    obtain ⟨hlines', hopen'⟩ := lines_of_splitOn hnext
    rw [Shell.take, if_pos rfl, hlines', hopen', hexecuted, hlines, hinput, hopen, List.map_append,
      List.append_assoc]
    exact ⟨rfl, rfl⟩
  · obtain ⟨front, last, htext, hnext⟩ := splitOn_concat_ne hnewline text
    obtain ⟨hlines, hopen⟩ := lines_of_splitOn htext
    obtain ⟨hlines', hopen'⟩ := lines_of_splitOn hnext
    rw [Shell.take, if_neg hnewline, if_neg hc, hlines', hopen']
    rw [hlines] at hexecuted
    rw [hopen] at hinput
    by_cases hroom : sh.input.length < maxInputLength - 1
    · have hlast : last.length < maxInputLength - 1 := by
        rw [hinput, List.length_take] at hroom
        omega
      rw [if_pos hroom]
      refine ⟨hexecuted, ?_⟩
      rw [hinput, List.take_of_length_le (Nat.le_of_lt hlast), List.take_of_length_le]
      simp only [List.length_append, List.length_singleton]
      omega
    · -- the line is full
      have hlast : maxInputLength - 1 ≤ last.length := by
        rw [hinput, List.length_take] at hroom
        omega
      rw [if_neg hroom]
      exact ⟨hexecuted, by rw [hinput, List.take_append_of_le_length hlast]⟩

/-- Only the Backspace key has the character of a backspace. -/
theorem Keyboard.typedChar_ne_backspace (shift caps : Bool) {scancode : UInt8}
    (hback : scancode ≠ backspaceKey) : typedChar shift caps scancode ≠ 8 := by
  by_cases henter : scancode = enterKey
  · subst henter
    revert shift caps
    decide
  · exact (typedChar_plain shift caps henter hback).2

namespace Console

/-- A Backspace finds a character that the shell is not about to take. -/
def FindsUnread (con : Console) (step : Step) : Prop :=
  step = .scancode Keyboard.backspaceKey →
    2 ≤ con.keyboard.held ∨ con.shell.pc = .polling ∧ con.keyboard.held = 1

instance (con : Console) (step : Step) : Decidable (FindsUnread con step) :=
  inferInstanceAs (Decidable (_ → _))

/-- The text is what the shell has taken and what is unread. -/
structure Reads (old : List (List UInt8)) (con : Console) (t : Typist) (taken q : List UInt8) :
    Prop where
  shift : con.keyboard.shiftPressed = t.shift
  caps : con.keyboard.capsLock = t.caps
  holds : con.keyboard.Holds q
  text : t.line = taken ++ q
  executed : con.shell.executed = old ++ commandLines taken
  input : con.shell.input = openLine taken
  plain : ∀ c ∈ q, c ≠ 8
  loading : con.shell.pc = .loading → q ≠ []
  advancing : ∀ c, con.shell.pc = .advancing c → q.head? = some c

namespace Reads

variable {old : List (List UInt8)} {con : Console} {t : Typist} {taken q : List UInt8}

/-- A change of the modifier keys only. -/
theorem keys (h : Reads old con t taken q) {k : Keyboard} {t' : Typist}
    (hbuffer : k.keyboardBuffer = con.keyboard.keyboardBuffer)
    (hhead : k.bufferHead = con.keyboard.bufferHead)
    (htail : k.bufferTail = con.keyboard.bufferTail) (hshift : k.shiftPressed = t'.shift)
    (hcaps : k.capsLock = t'.caps) (hline : t'.line = t.line) :
    Reads old { con with keyboard := k } t' taken q := by
  refine ⟨hshift, hcaps, ⟨htail ▸ h.holds.tail, h.holds.room, ?_, ?_⟩, hline.trans h.text,
    h.executed, h.input, h.plain, h.loading, h.advancing⟩
  · rw [hhead, htail]
    exact h.holds.head
  · rw [hbuffer, htail]
    exact h.holds.chars

/-- A key with a character. -/
theorem type (h : Reads old con t taken q) {c : UInt8} (hroom : con.keyboard.held < 255)
    (hc : c ≠ 8) :
    Reads old { con with keyboard := con.keyboard.keyboardBufferPut c }
      { t with line := t.line ++ [c] } taken (q ++ [c]) := by
  refine ⟨h.shift, h.caps, h.holds.put (h.holds.held_eq ▸ hroom) c, ?_, h.executed, h.input,
    fun d hd => ?_, fun _ => by simp, fun d hd => ?_⟩
  · change t.line ++ [c] = _
    rw [h.text, List.append_assoc]
  · rcases List.mem_append.mp hd with hd | hd
    · exact h.plain d hd
    · exact List.mem_singleton.mp hd ▸ hc
  · rw [List.head?_append, h.advancing d hd]
    rfl

/-- A Backspace that finds its character unread. -/
theorem backspace (h : Reads old con t taken q)
    (hfinds : FindsUnread con (.scancode Keyboard.backspaceKey)) :
    con.keyboard.isKeyboardBufferEmpty = false ∧
      Reads old { con with keyboard := con.keyboard.rmLastCharBuffer }
        { t with line := t.line.dropLast } taken q.dropLast := by
  have hheld := h.holds.held_eq
  have hne : q ≠ [] := by
    rintro rfl
    rcases hfinds rfl with htwo | ⟨_, hone⟩
    · rw [hheld] at htwo
      exact absurd htwo (by decide)
    · rw [hheld] at hone
      exact absurd hone (by decide)
  have hsame : con.keyboard.rmLastCharBuffer.shiftPressed = con.keyboard.shiftPressed ∧
      con.keyboard.rmLastCharBuffer.capsLock = con.keyboard.capsLock := by
    unfold Keyboard.rmLastCharBuffer
    split <;> exact ⟨rfl, rfl⟩
  -- when the shell is not waiting, another character is left
  have htwo : con.shell.pc ≠ .polling → 2 ≤ q.length := by
    intro hpc
    rcases hfinds rfl with htwo | ⟨hpoll, _⟩
    · exact hheld ▸ htwo
    · exact absurd hpoll hpc
  refine ⟨decide_eq_false fun heq => hne (h.holds.empty_iff.mp heq), hsame.1.trans h.shift,
    hsame.2.trans h.caps, h.holds.rmLast, ?_, h.executed, h.input,
    fun c hc => h.plain c (List.dropLast_subset q hc), fun hpc => ?_, fun c hpc => ?_⟩
  · change t.line.dropLast = _
    rw [h.text, List.dropLast_append_of_ne_nil hne]
  · have hlength := htwo (by rw [hpc]; simp)
    rw [ne_eq, ← List.length_eq_zero_iff, List.length_dropLast]
    omega
  · have hlength := htwo (by rw [hpc]; simp)
    obtain ⟨rest, rfl⟩ := List.head?_eq_some_iff.mp (h.advancing c hpc)
    obtain ⟨d, rest, rfl⟩ := List.exists_cons_of_length_pos (l := rest)
      (Nat.succ_le_succ_iff.mp hlength)
    simp

/-- A scancode. -/
theorem scancode (h : Reads old con t taken q) {scancode : UInt8}
    (hfits : Fits con (.scancode scancode)) (hfinds : FindsUnread con (.scancode scancode)) :
    ∃ q', Reads old (con.step (.scancode scancode)) (t.press scancode) taken q' := by
  change ∃ q', Reads old { con with
    keyboard := (con.keyboard.handleScancode scancode).1 } _ taken q'
  unfold Keyboard.handleScancode Typist.press
  by_cases hreleased : Keyboard.isKeyReleased scancode
  · rw [if_pos hreleased, if_pos hreleased]
    split
    · exact ⟨q, h.keys rfl rfl rfl rfl h.caps rfl⟩
    · exact ⟨q, h⟩
  rw [if_neg hreleased, if_neg hreleased]
  by_cases hshift : scancode = Keyboard.shiftKey
  · rw [if_pos hshift, if_pos hshift]
    exact ⟨q, h.keys rfl rfl rfl rfl h.caps rfl⟩
  rw [if_neg hshift, if_neg hshift]
  by_cases hcaps : scancode = Keyboard.capsLockKey
  · rw [if_pos hcaps, if_pos hcaps]
    exact ⟨q, h.keys rfl rfl rfl h.shift (congrArg not h.caps) rfl⟩
  rw [if_neg hcaps, if_neg hcaps]
  by_cases hback : scancode = Keyboard.backspaceKey
  · subst hback
    obtain ⟨hsome, hnext⟩ := h.backspace hfinds
    rw [if_pos rfl, if_pos rfl, if_neg (by rw [hsome]; exact Bool.false_ne_true)]
    exact ⟨q.dropLast, hnext⟩
  · rw [if_neg hback, if_neg hback]
    have htype := h.type (hfits scancode rfl ⟨hreleased, hshift, hcaps, hback⟩)
      (Keyboard.typedChar_ne_backspace t.shift t.caps hback)
    have hchar : Keyboard.typedChar t.shift t.caps scancode =
        Keyboard.typedChar con.keyboard.shiftPressed con.keyboard.capsLock scancode := by
      rw [h.shift, h.caps]
    rw [hchar] at htype ⊢
    exact ⟨_, htype⟩

/-- The shell's next access. -/
theorem shell (h : Reads old con t taken q) :
    ∃ taken' q', Reads old con.stepShell t taken' q' := by
  unfold stepShell
  cases hpc : con.shell.pc with
  | polling =>
      by_cases hempty : con.keyboard.isKeyboardBufferEmpty
      · simp only [if_pos hempty]
        exact ⟨taken, q, h⟩
      · simp only [if_neg hempty]
        refine ⟨taken, q, h.shift, h.caps, h.holds, h.text, h.executed, h.input, h.plain,
          fun _ hnil => ?_, nofun⟩
        exact hempty (decide_eq_true (h.holds.empty_iff.mpr hnil))
  | loading =>
      refine ⟨taken, q, h.shift, h.caps, h.holds, h.text, h.executed, h.input, h.plain, nofun, ?_⟩
      intro c hc
      obtain ⟨d, rest, hd⟩ := List.exists_cons_of_ne_nil (h.loading hpc)
      have hfront := (hd ▸ h.holds : con.keyboard.Holds (d :: rest)).front
      obtain rfl : con.keyboard.keyboardBuffer con.keyboard.bufferTail = c := by
        cases hc
        rfl
      rw [hd, hfront]
      rfl
  | advancing c =>
      obtain ⟨rest, rfl⟩ := List.head?_eq_some_iff.mp (h.advancing c hpc)
      have hbefore : ({ con.shell with pc := .polling } : Shell).executed =
        old ++ commandLines taken := h.executed
      obtain ⟨hexecuted, hinput⟩ :=
        Shell.take_text hbefore h.input (h.plain c List.mem_cons_self)
      have hpolling : ({ con.shell with pc := .polling }.take c).pc = .polling := by
        unfold Shell.take
        split
        · rfl
        · split
          · rfl
          · split <;> rfl
      refine ⟨taken ++ [c], rest, h.shift, h.caps, h.holds.advance, ?_, hexecuted, hinput,
        fun d hd => h.plain d (List.mem_cons_of_mem c hd), fun hno => ?_, fun d hno => ?_⟩
      · rw [h.text, List.append_assoc]
        rfl
      · exact absurd (hpolling.symm.trans hno) (by simp)
      · exact absurd (hpolling.symm.trans hno) (by simp)

/-- Any interleaving of the two. -/
theorem run {steps : List Step} (h : Reads old con t taken q) (hfits : AllSteps Fits steps con)
    (hfinds : AllSteps FindsUnread steps con) :
    ∃ taken' q', Reads old (Console.run steps con) ((scancodes steps).foldl Typist.press t)
      taken' q' := by
  induction steps generalizing con t taken q with
  | nil => exact ⟨taken, q, h⟩
  | cons next rest ih =>
      cases next with
      | scancode scancode =>
          obtain ⟨q', hnext⟩ := h.scancode hfits.1 hfinds.1
          exact ih hnext hfits.2 hfinds.2
      | shell =>
          obtain ⟨taken', q', hnext⟩ := h.shell
          exact ih hnext hfits.2 hfinds.2

end Reads

/-- **The shell executes the lines of the text.** From the prompt, in every
interleaving of the keyboard's interrupts and the shell, with at most 255 characters
unread and each Backspace finding its character unread, what the shell has executed
are the complete lines of what it has taken of the text, cut to 127 characters; when
nothing is unread, of the whole text. -/
theorem shell_executes_text {con : Console} (hprompt : con.AtPrompt) (steps : List Step)
    (hfits : AllSteps Fits steps con) (hfinds : AllSteps FindsUnread steps con) :
    ∃ taken unread, typedLine con.keyboard (scancodes steps) = taken ++ unread ∧
      (run steps con).keyboard.Holds unread ∧
      (run steps con).shell.executed = con.shell.executed ++ commandLines taken ∧
      ((run steps con).keyboard.isKeyboardBufferEmpty = true → (run steps con).shell.executed =
        con.shell.executed ++ commandLines (typedLine con.keyboard (scancodes steps))) := by
  have hstart : Reads con.shell.executed con ⟨con.keyboard.shiftPressed, con.keyboard.capsLock, []⟩
      [] [] := by
    refine ⟨rfl, rfl, hprompt.empty, rfl, ?_, hprompt.input, nofun,
      fun h => absurd (hprompt.pc.symm.trans h) (by simp),
      fun c h => absurd (hprompt.pc.symm.trans h) (by simp)⟩
    rw [show commandLines [] = [] from rfl, List.append_nil]
  obtain ⟨taken, unread, h⟩ := hstart.run hfits hfinds
  refine ⟨taken, unread, h.text, h.holds, h.executed, fun hempty => ?_⟩
  obtain rfl := h.holds.empty_iff.mp (of_decide_eq_true hempty)
  have htext : typedLine con.keyboard (scancodes steps) = taken ++ [] := h.text
  rw [htext, List.append_nil]
  exact h.executed

/-- Two lines typed ahead of the shell. -/
theorem shell_executes_text_ahead :
    (run ([0x1E, 0x1C, 0x30, 0x1C].map .scancode ++ List.replicate 12 .shell) boot).shell.executed =
      [[97], [98]] := by
  obtain ⟨_, _, _, _, _, hall⟩ := shell_executes_text boot_atPrompt
    ([0x1E, 0x1C, 0x30, 0x1C].map .scancode ++ List.replicate 12 .shell) (by decide) (by decide)
  exact (hall (by decide)).trans (by decide)

end Console
end MyOs
