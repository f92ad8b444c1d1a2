import MyOs.Logic.LineInput

/-!
# The line the shell gets

The handler deletes a character only while it is still in the buffer, and never
puts a backspace there, so the shell's own backspace branch is never taken: once
the shell has begun to take a character, a Backspace does not delete it. Where
every Backspace is in time, no interleaving changes the line.
-/

namespace MyOs.Console

/-- The shell is at its prompt: nothing is typed and nothing taken. -/
structure AtPrompt (con : Console) : Prop where
  pc : con.shell.pc = .polling
  input : con.shell.input = []
  empty : con.keyboard.Holds []

/-- The line is complete: the Enter key's character is still in the buffer, or
the shell has taken the whole line. -/
inductive Closing (con : Console) (t : Typist) (old : List (List UInt8)) : Prop
  | waiting {lost q : List UInt8} (feeds : Feeds con t lost q [10])
      (executed : con.shell.executed = old)
  | taken {input lost : List UInt8} (line : t.line = input ++ lost)
      (full : lost ≠ [] → maxInputLength - 1 ≤ input.length)
      (taken : Taken con (old ++ [input]))

section Runs

variable {con : Console} {t : Typist} {old : List (List UInt8)}

theorem Closing.shell (h : Closing con t old) : Closing (con.step .shell) t old := by
  cases h with
  | waiting feeds executed =>
      rcases feeds.shell (.inr rfl) with ⟨lost, q, hnext, hsame⟩ | ⟨_, hline, htaken⟩
      · exact .waiting hnext (hsame.trans executed)
      · exact .taken hline feeds.full (executed ▸ htaken)
  | taken line full taken =>
      -- nothing is left to take
      have hstay : con.step .shell = con := by
        change con.stepShell = con
        unfold stepShell
        rw [taken.pc]
        exact if_pos (decide_eq_true (taken.empty.empty_iff.mpr rfl))
      rw [hstay]
      exact .taken line full taken

/-- After the Enter key only the shell moves. -/
theorem Closing.run {steps : List Step} (hsteps : scancodes steps = [])
    (h : Closing con t old) : Closing (run steps con) t old := by
  induction steps generalizing con with
  | nil => exact h
  | cons next rest ih =>
      cases next with
      | scancode scancode => simp [scancodes] at hsteps
      | shell => exact ih (by simpa [scancodes] using hsteps) h.shell

/-- A run that types `line` and Enter. -/
theorem Feeds.run {lost q : List UInt8} {steps : List Step} {line : List UInt8}
    (h : Feeds con t lost q []) (hold : con.shell.executed = old)
    (hsteps : scancodes steps = line ++ [Keyboard.enterKey]) (hline : Keyboard.enterKey ∉ line)
    (hfits : AllSteps Fits steps con) (hfinds : AllSteps FindsCharacter steps con) :
    Closing (run steps con) (line.foldl Typist.press t) old := by
  induction steps generalizing con t lost q line with
  | nil => simp [scancodes] at hsteps
  | cons next rest ih =>
      cases next with
      | shell =>
          rcases h.shell (.inl rfl) with ⟨lost', q', hnext, hsame⟩ | ⟨he, _⟩
          · exact ih hnext (hsame.trans hold) (by simpa [scancodes] using hsteps) hline hfits.2
              hfinds.2
          · cases he
      | scancode scancode =>
          have hsteps : scancode :: scancodes rest = line ++ [Keyboard.enterKey] := by
            simpa [scancodes] using hsteps
          cases line with
          | nil =>
              obtain ⟨rfl, hrest⟩ := List.cons.inj hsteps
              have hnext := h.enter (hfits.1 _ rfl (by decide))
              change Closing (Console.run rest (con.step _)) t old
              exact Closing.run hrest (.waiting hnext hold)
          | cons first line =>
              obtain ⟨rfl, hrest⟩ := List.cons.inj hsteps
              obtain ⟨q', hnext⟩ := h.scancode (fun heq => hline (heq ▸ List.mem_cons_self))
                hfits.1 hfinds.1
              change Closing (Console.run rest (con.step _)) (line.foldl Typist.press (t.press _)) old
              exact ih hnext hold hrest (fun hmem => hline (List.mem_cons_of_mem _ hmem)) hfits.2
                hfinds.2

end Runs

/-- **Line input.** From the prompt, in every interleaving that types a line of
at most 127 characters and Enter, with at most 255 characters in the buffer, and
in which every Backspace finds its character still in the buffer, the shell
executes the typed line, and does so when it has emptied the buffer. -/
theorem line_input {con : Console} (hprompt : con.AtPrompt) {steps : List Step}
    {line : List UInt8} (hsteps : scancodes steps = line ++ [Keyboard.enterKey])
    (hline : Keyboard.enterKey ∉ line) (hfits : AllSteps Fits steps con)
    (hlength : (typedLine con.keyboard line).length ≤ maxInputLength - 1)
    (hfinds : AllSteps FindsCharacter steps con) :
    (run steps con).shell.executed = con.shell.executed ++
      if (run steps con).keyboard.isKeyboardBufferEmpty then [typedLine con.keyboard line]
      else [] := by
  have hstart : Feeds con ⟨con.keyboard.shiftPressed, con.keyboard.capsLock, []⟩ [] [] [] :=
    ⟨rfl, rfl, hprompt.empty, by simp [hprompt.input], fun h => absurd rfl h, nofun,
      fun h => absurd (hprompt.pc.symm.trans h) (by simp),
      fun c h => absurd (hprompt.pc.symm.trans h) (by simp)⟩
  cases hstart.run rfl hsteps hline hfits hfinds with
  | waiting feeds executed =>
      have hheld : ¬ (run steps con).keyboard.isKeyboardBufferEmpty := by
        intro hempty
        have hnil := feeds.holds.empty_iff.mp (of_decide_eq_true hempty)
        simp at hnil
      rw [if_neg hheld, List.append_nil, executed]
  | @taken input lost heq full taken =>
      have hheld : (run steps con).keyboard.isKeyboardBufferEmpty :=
        decide_eq_true (taken.empty.empty_iff.mpr rfl)
      change typedLine con.keyboard line = input ++ lost at heq
      have hlost : lost = [] := by
        refine Classical.byContradiction fun hne => ?_
        have hfull := full hne
        have hpos := List.length_pos_of_ne_nil hne
        rw [heq, List.length_append] at hlength
        omega
      rw [if_pos hheld, taken.executed, heq, hlost, List.append_nil]

/-- A keyboard and a shell that have seen no key. -/
def boot : Console := ⟨⟨fun _ => 0, 0, 0, false, true, false⟩, ⟨.polling, [], []⟩⟩

theorem boot_atPrompt : AtPrompt boot :=
  ⟨rfl, rfl, ⟨by decide, by decide, rfl, nofun⟩⟩

/-- The key a, Backspace and Enter before the shell looks: it gets the empty
line. -/
theorem line_input_unread : (run [.scancode 0x1E, .scancode 0x0E, .scancode 0x1C, .shell, .shell,
    .shell] boot).shell.executed = [[]] := by
  have hsteps : scancodes [.scancode 0x1E, .scancode 0x0E, .scancode 0x1C, .shell, .shell,
    .shell] = [0x1E, 0x0E] ++ [Keyboard.enterKey] := rfl
  have h := line_input boot_atPrompt hsteps (by decide) (by decide) (by decide) (by decide)
  exact h

/-- The shell takes the key a before Backspace and executes it anyway. -/
theorem line_input_lost_backspace : ¬ ∀ con : Console, con.AtPrompt → ∀ steps line,
    scancodes steps = line ++ [Keyboard.enterKey] → Keyboard.enterKey ∉ line →
    AllSteps Fits steps con → (typedLine con.keyboard line).length ≤ maxInputLength - 1 →
    (run steps con).shell.executed = con.shell.executed ++
      if (run steps con).keyboard.isKeyboardBufferEmpty then [typedLine con.keyboard line]
      else [] := by
  intro hall
  have hsteps : scancodes [.scancode 0x1E, .shell, .shell, .shell, .scancode 0x0E,
      .scancode 0x1C, .shell, .shell, .shell] = [0x1E, 0x0E] ++ [Keyboard.enterKey] := rfl
  have h := hall boot boot_atPrompt _ _ hsteps (by decide) (by decide) (by decide)
  exact absurd h (by decide)

end MyOs.Console
