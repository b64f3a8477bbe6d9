import LoongNvr.Core.Types
import LoongNvr.Support.Line

/-!
# Core — StageQueue

The bounded queue in front of a pipeline stage.  A push into a full queue first drops the oldest
frame of the same channel that is not a keyframe, else the oldest of any channel, else the frame
pushed.

* `mem_push`: a push adds no frame but the one pushed.
* `length_push_le`: it leaves no more frames than there were or the capacity allows.
-/

namespace LoongNvr.Core
open Support

/-- The queue's state. -/
structure StageQueue where
  capacity : ℕ
  queue : List Frame := []
  droppedCount : ℕ := 0
  shutdown : Bool := false

namespace StageQueue

/-- A frame of the channel that backpressure may drop. -/
def droppableOf (channelId : ℤ) (frame : Frame) : Bool :=
  decide (frame.channelId = channelId) && !frame.info.isKeyframe

/-- A frame of any channel that backpressure may drop. -/
def droppable (frame : Frame) : Bool := !frame.info.isKeyframe

/-- `StageQueue::Push` -/
def push (q : StageQueue) (frame : Frame) : StageQueue × Bool :=
  if q.shutdown then (q, false)
  else if q.queue.length ≥ q.capacity then
    if q.queue.any (droppableOf frame.channelId) then
      ({ q with
          queue := q.queue.eraseP (droppableOf frame.channelId) ++ [frame]
          droppedCount := q.droppedCount + 1 }, true)
    else if q.queue.any droppable then
      ({ q with
          queue := q.queue.eraseP droppable ++ [frame]
          droppedCount := q.droppedCount + 1 }, true)
    else ({ q with droppedCount := q.droppedCount + 1 }, false) -- all keyframes and still full
  else ({ q with queue := q.queue ++ [frame] }, true)

/-- `StageQueue::Pop`, where it does not time out. -/
def pop (q : StageQueue) : Option (Frame × StageQueue) :=
  match q.queue with
  | [] => none
  | frame :: rest => some (frame, { q with queue := rest })

/-- `StageQueue::PopBatch` -/
def popBatch (q : StageQueue) (maxBatch : ℕ) : List Frame × StageQueue :=
  let count := min maxBatch q.queue.length
  (q.queue.take count, { q with queue := q.queue.drop count })

/-- `StageQueue::SetCapacity` -/
def setCapacity (q : StageQueue) (capacity : ℕ) : StageQueue := { q with capacity := capacity }

/-- `StageQueue::Shutdown` -/
def close (q : StageQueue) : StageQueue := { q with shutdown := true }

theorem mem_push {q : StageQueue} {frame other : Frame} (h : other ∈ (q.push frame).1.queue) :
    other ∈ q.queue ∨ other = frame := by
  have happend : ∀ l : List Frame, l ⊆ q.queue → other ∈ l ++ [frame] →
      other ∈ q.queue ∨ other = frame := by
    intro l hl hmem
    rcases List.mem_append.mp hmem with hmem | hmem
    · exact .inl (hl hmem)
    · exact .inr (List.mem_singleton.mp hmem)
  unfold push at h
  split at h
  · exact .inl h
  · split at h
    · split at h
      · exact happend _ List.eraseP_subset h
      · split at h
        · exact happend _ List.eraseP_subset h
        · exact .inl h
    · exact happend _ (List.Subset.refl _) h

/-- Dropping a frame makes room for one. -/
theorem length_eraseP_append {l : List Frame} {p : Frame → Bool} (frame : Frame)
    (h : l.any p = true) : (l.eraseP p ++ [frame]).length = l.length := by
  obtain ⟨x, hx, hp⟩ := List.any_eq_true.mp h
  have hpos : 0 < l.length := List.length_pos_of_mem hx
  rw [List.length_append, List.length_eraseP_of_mem hx hp, List.length_singleton,
    Nat.sub_add_cancel hpos]

theorem length_push_le (q : StageQueue) (frame : Frame) :
    (q.push frame).1.queue.length ≤ max q.queue.length q.capacity := by
  simp only [push]
  split
  · exact le_max_left _ _
  · split
    · split
      · next hany => exact (length_eraseP_append frame hany).trans_le (le_max_left _ _)
      · split
        · next hany => exact (length_eraseP_append frame hany).trans_le (le_max_left _ _)
        · exact le_max_left _ _
    · next hroom =>
        rw [List.length_append, List.length_singleton]
        exact (Nat.lt_of_not_le hroom).trans_le (le_max_right _ _)

/-- The queue of a line of stages. -/
def ops : QueueOps StageQueue Frame where
  contents := queue
  push q frame := (q.push frame).1
  pop := pop
  close := close
  mem_push := mem_push
  mem_pop := by
    intro q q' frame h
    unfold pop at h
    split at h
    · cases h
    · next hq =>
        cases h
        rw [hq]
        exact List.mem_cons_self
  pop_subset := by
    intro q q' frame h
    unfold pop at h
    split at h
    · cases h
    · next hq =>
        cases h
        rw [hq]
        exact List.subset_cons_self _ _
  close_subset h := h

end StageQueue

end LoongNvr.Core
