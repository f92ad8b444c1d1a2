import MyOs.Base.System
import MyOs.Logic.Echo

/-!
# The keyboard's ring as a queue

Head and tail are the only record of how many characters are unread, so the ring
tells 255 of them apart from none but not 256: `keyboard_buffer_put` never looks at
the tail, and the put after the 255th makes the ring empty. Up to there the three
operations are those of a queue, wherever head and tail stand.
-/

namespace MyOs.Keyboard

/-- Head and tail are `uint8_t`s. -/
structure Indices (k : Keyboard) : Prop where
  head : k.bufferHead < 256
  tail : k.bufferTail < 256

/-- The unread characters, the oldest first. -/
def unread (k : Keyboard) : List UInt8 :=
  (List.range k.held).map fun i => k.keyboardBuffer ((k.bufferTail + i) % bufferSize)

/-- A call; `get` with the character it returns. -/
inductive RingCall
  | put (c : UInt8)
  | rmLast
  | get (c : UInt8)
deriving DecidableEq, Repr

/-- What a call does. `get` is only called when there is a character. -/
inductive RingStep : Keyboard → RingCall → Keyboard → Prop
  | put {k : Keyboard} {c : UInt8} : RingStep k (.put c) (k.keyboardBufferPut c)
  | rmLast {k : Keyboard} : RingStep k .rmLast k.rmLastCharBuffer
  | get {k k' : Keyboard} {c : UInt8} : k.keyboardBufferGet = some (c, k') → RingStep k (.get c) k'

/-- Any sequence of calls, from any place of head and tail. -/
def ringCalls : TSys Keyboard RingCall where
  init := Indices
  step := RingStep

/-- The unread characters of a queue of 255 after a put: the new one is behind the
others, and a full queue has lost at most one of them all. -/
def Appended (q : List UInt8) (c : UInt8) (q' : List UInt8) : Prop :=
  if q.length < 255 then q' = q ++ [c] else q'.Sublist (q ++ [c]) ∧ q.length ≤ q'.length

/-- The call does to the unread characters what it does to a queue. -/
def FifoMove (k : Keyboard) : RingCall → Keyboard → Prop
  | .put c, k' => Appended k.unread c k'.unread
  | .rmLast, k' => k'.unread = k.unread.dropLast
  | .get c, k' => k.unread = c :: k'.unread

/-- A put finds room: fewer than 255 characters are unread. -/
def RoomToPut (k : Keyboard) (call : RingCall) : Prop :=
  (∃ c, call = .put c) → k.unread.length < 255

section Ring

variable {k k' : Keyboard} {q : List UInt8} {c : UInt8}

@[simp] theorem length_unread (k : Keyboard) : k.unread.length = k.held := by simp [unread]

theorem held_lt (k : Keyboard) : k.held < 256 := Nat.mod_lt _ (by decide)

theorem Indices.holds (h : k.Indices) : k.Holds k.unread where
  tail := h.tail
  room := by
    have hheld := k.held_lt
    rw [length_unread]
    omega
  head := by
    have hhead := h.head
    have htail := h.tail
    rw [length_unread, held, bufferSize]
    omega
  chars i hi := by
    rw [length_unread] at hi
    simp [unread, hi, bufferSize]

theorem Indices.unread_eq (h : k.Indices) (hq : k.Holds q) : k.unread = q := h.holds.unique hq

/-! ## One call -/

theorem RingStep.indices {call : RingCall} (h : k.Indices) (hstep : RingStep k call k') :
    k'.Indices := by
  cases hstep with
  | put => exact ⟨Nat.mod_lt _ (by decide), h.tail⟩
  | rmLast =>
      unfold rmLastCharBuffer
      split
      · exact h
      · exact ⟨Nat.mod_lt _ (by decide), h.tail⟩
  | get hget =>
      unfold keyboardBufferGet at hget
      split at hget
      · cases hget
      · cases hget
        exact ⟨h.head, Nat.mod_lt _ (by decide)⟩

/-- The put on a full ring: head meets tail, and nothing is unread. -/
theorem Indices.put_full (h : k.Indices) (hfull : k.unread.length = 255) :
    (k.keyboardBufferPut c).unread = [] := by
  rw [length_unread] at hfull
  have hhead := h.head
  have htail := h.tail
  have hheld : (k.keyboardBufferPut c).held = 0 := by
    change ((k.bufferHead + 1) % 256 + 256 - k.bufferTail) % 256 = 0
    rw [held, bufferSize] at hfull
    omega
  rw [← List.length_eq_zero_iff, length_unread, hheld]

theorem Indices.appended_iff (h : k.Indices) :
    Appended k.unread c (k.keyboardBufferPut c).unread ↔ k.unread.length < 255 := by
  unfold Appended
  by_cases hroom : k.unread.length < 255
  · have hnext : (k.keyboardBufferPut c).Indices := RingStep.put.indices h
    rw [if_pos hroom, hnext.unread_eq (h.holds.put hroom c)]
    exact iff_of_true rfl hroom
  · have hle := h.holds.room
    rw [if_neg hroom, h.put_full (by omega)]
    refine iff_of_false ?_ hroom
    rintro ⟨_, hlength⟩
    rw [List.length_nil] at hlength
    omega

theorem Indices.rmLast (h : k.Indices) : k.rmLastCharBuffer.unread = k.unread.dropLast :=
  (RingStep.rmLast.indices h).unread_eq h.holds.rmLast

theorem Indices.get (h : k.Indices) (hget : k.keyboardBufferGet = some (c, k')) :
    k.unread = c :: k'.unread := by
  have hnext : k'.Indices := (RingStep.get hget).indices h
  unfold keyboardBufferGet at hget
  split at hget
  · cases hget
  · next hsome =>
    cases hget
    have hholds := h.holds
    cases hq : k.unread with
    | nil =>
        rw [hq] at hholds
        exact absurd (decide_eq_true (hholds.empty_iff.mpr rfl)) hsome
    | cons first rest =>
        rw [hq] at hholds
        rw [hnext.unread_eq hholds.advance, hholds.front]

/-- A call is that of a queue just when a put finds room. -/
theorem RingStep.fifo_iff {call : RingCall} (h : k.Indices) (hstep : RingStep k call k') :
    FifoMove k call k' ↔ RoomToPut k call := by
  cases hstep with
  | put =>
      rw [FifoMove, h.appended_iff]
      exact ⟨fun hroom _ => hroom, fun hroom => hroom ⟨_, rfl⟩⟩
  | rmLast => exact iff_of_true h.rmLast nofun
  | get hget => exact iff_of_true (h.get hget) nofun

/-- One put too many is a run that is no queue's. -/
theorem Indices.overflows (h : k.Indices) (hfull : k.held = 255) (c : UInt8) :
    ¬ TSys.AllMoves FifoMove k [(.put c, k.keyboardBufferPut c)] := by
  rintro ⟨hmove, _⟩
  have hroom : k.unread.length < 255 := h.appended_iff.mp hmove
  rw [length_unread, hfull] at hroom
  exact Nat.lt_irrefl 255 hroom

end Ring

/-- **The ring is a queue.** Along every run of puts, removals of the newest character
and gets, from any place of head and tail, every call does to the unread characters
what it does to a queue, and a full queue loses at most one character, if and only if
no put finds 255 characters unread. -/
theorem keyboard_fifo_iff {k : Keyboard} (hk : ringCalls.init k)
    {run : List (RingCall × Keyboard)} (hrun : ringCalls.IsRun k run) :
    TSys.AllMoves FifoMove k run ↔ TSys.AllSteps RoomToPut k run := by
  refine TSys.run_moves_iff_steps (fun s call s' h hstep => ?_) (fun s call s' h hstep => ?_) hk hrun
  · exact RingStep.indices h hstep
  · exact RingStep.fifo_iff h hstep

/-- An empty ring whose head and tail are on the last cell. -/
def atLastCell : Keyboard := ⟨fun _ => 0, 255, 255, false, true, false⟩

/-- A character put around the end of the ring, and taken again. -/
theorem keyboard_fifo_wraps :
    TSys.AllMoves FifoMove atLastCell [(.put 97, atLastCell.keyboardBufferPut 97),
      (.get 97, (atLastCell.keyboardBufferPut 97).advanceTail)] := by
  have hget : (atLastCell.keyboardBufferPut 97).keyboardBufferGet =
      some (97, (atLastCell.keyboardBufferPut 97).advanceTail) := rfl
  have hrun : ringCalls.IsRun atLastCell [(.put 97, atLastCell.keyboardBufferPut 97),
      (.get 97, (atLastCell.keyboardBufferPut 97).advanceTail)] := ⟨.put, .get hget, trivial⟩
  refine (keyboard_fifo_iff ⟨by decide, by decide⟩ hrun).mpr ⟨fun _ => ?_, nofun, trivial⟩
  rw [length_unread]
  decide

/-- A full ring. -/
def fullRing : Keyboard := ⟨fun _ => 97, 255, 0, false, true, false⟩

/-- One more character, and all 256 are gone. -/
theorem keyboard_fifo_overflow : ¬ ∀ k : Keyboard, ringCalls.init k →
    ∀ run, ringCalls.IsRun k run → TSys.AllMoves FifoMove k run := by
  intro hall
  have hheld : fullRing.held = 255 := by simp [held, fullRing, bufferSize]
  have hfull : fullRing.Indices := ⟨by decide, by decide⟩
  exact hfull.overflows hheld 98 (hall fullRing hfull _ ⟨.put, trivial⟩)

end MyOs.Keyboard
