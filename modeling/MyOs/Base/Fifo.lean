import MyOs.Base.System

/-!
# The first-in first-out queue

The queue over any type of items, as a transition system whose states are the items in the
queue, the oldest first. Over a run the items that came out, followed by the ones left, are
the items that went in.
-/

namespace MyOs

/-- A call on a queue, with what it returns. -/
inductive FifoCall (α : Type)
  | enqueue (a : α)
  /-- the item that came out, if there was one -/
  | dequeue (a : Option α)
deriving DecidableEq

variable {α : Type}

/-- The item the call puts in. -/
def FifoCall.entered : FifoCall α → Option α
  | enqueue a => some a
  | dequeue _ => none

/-- The item the call takes out. -/
def FifoCall.left : FifoCall α → Option α
  | enqueue _ => none
  | dequeue a => a

/-- The queue, empty at first. -/
def fifo (α : Type) : TSys (List α) (FifoCall α) where
  init queue := queue = []
  step queue call queue' :=
    match call with
    | .enqueue a => queue' = queue ++ [a]
    | .dequeue a => a = queue.head? ∧ queue' = queue.tail

namespace Fifo

/-- The items that went in over a run, in order. -/
def entered (run : List (FifoCall α × List α)) : List α := run.filterMap fun x => x.1.entered

/-- The items that came out over a run, in order. -/
def left (run : List (FifoCall α × List α)) : List α := run.filterMap fun x => x.1.left

variable {queue : List α} {run : List (FifoCall α × List α)}

@[simp] theorem entered_nil : entered ([] : List (FifoCall α × List α)) = [] := rfl

@[simp] theorem left_nil : left ([] : List (FifoCall α × List α)) = [] := rfl

@[simp] theorem entered_enqueue (a : α) :
    entered ((.enqueue a, queue) :: run) = a :: entered run := rfl

@[simp] theorem left_enqueue (a : α) : left ((.enqueue a, queue) :: run) = left run := rfl

@[simp] theorem entered_dequeue (a : Option α) :
    entered ((.dequeue a, queue) :: run) = entered run := rfl

@[simp] theorem left_dequeue_some (a : α) :
    left ((.dequeue (some a), queue) :: run) = a :: left run := rfl

@[simp] theorem left_dequeue_none : left ((.dequeue none, queue) :: run) = left run := rfl

/-- Items leave in the order they came. -/
theorem order (hrun : (fifo α).IsRun queue run) :
    queue ++ entered run = left run ++ TSys.final queue run := by
  induction run generalizing queue with
  | nil => simp [TSys.final]
  | cons next rest ih =>
      obtain ⟨call, queue'⟩ := next
      obtain ⟨hstep, hrest⟩ := hrun
      have hih := ih hrest
      cases call with
      | enqueue a =>
          obtain rfl : queue' = queue ++ [a] := hstep
          simpa [TSys.final] using hih
      | dequeue a =>
          obtain ⟨rfl, rfl⟩ := hstep
          cases queue with
          | nil => simpa [TSys.final] using hih
          | cons b queue => simpa [TSys.final] using hih

end Fifo
end MyOs
