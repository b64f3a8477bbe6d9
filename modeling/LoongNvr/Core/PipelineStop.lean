import LoongNvr.Core.StageQueue
import Mathlib.Algebra.Order.BigOperators.Group.Finset
import Mathlib.Algebra.Order.Group.Multiset
import Mathlib.Tactic.Abel

/-!
# Core — PipelineStop

A `ChannelPipeline` of pass-through stages while `Stop` or `DrainAndStop` runs: the workers of the
stages, the thread that stops them and the one that pushes frames into the first queue, each going
on step by step in any order.

* `StageQueue.push_conserves`: where a push leaves its frame, or the one it drops.
* `StoppingPipeline.step`: one step of one of the threads.
-/

namespace LoongNvr.Core
open Support

/-! ### What a push drops -/

namespace StageQueue

/-- The frame that a push into a queue that is not shut down drops, if it drops one. -/
def dropped (q : StageQueue) (frame : Frame) : List Frame :=
  if q.queue.length ≥ q.capacity then
    if q.queue.any (droppableOf frame.channelId) then
      (q.queue.find? (droppableOf frame.channelId)).toList
    else if q.queue.any droppable then (q.queue.find? droppable).toList
    else [frame]
  else []

/-- What is found first is what is erased. -/
theorem eraseP_add_find? {l : List Frame} {p : Frame → Bool} (h : l.any p = true) :
    (l.eraseP p : Multiset Frame) + ((l.find? p).toList : Multiset Frame) = l := by
  induction l with
  | nil => cases h
  | cons x l ih =>
      by_cases hx : p x = true
      · rw [List.eraseP_cons_of_pos hx, List.find?_cons_of_pos hx, Option.toList_some,
          Multiset.coe_singleton, add_comm, Multiset.singleton_add, Multiset.cons_coe]
      · have hl : l.any p = true := by
          rw [List.any_cons] at h
          exact (Bool.or_eq_true_iff.mp h).resolve_left hx
        rw [List.eraseP_cons_of_neg hx, List.find?_cons_of_neg hx, ← Multiset.cons_coe,
          ← Multiset.cons_coe, Multiset.cons_add, ih hl]

/-- **A push conserves frames**: what was there and the frame pushed are there, but for what is
dropped. -/
theorem push_conserves {q : StageQueue} (frame : Frame) (hopen : q.shutdown = false) :
    ((q.push frame).1.queue : Multiset Frame) + (q.dropped frame : Multiset Frame) =
      (q.queue : Multiset Frame) + {frame} := by
  have hmoved : ∀ p : Frame → Bool, q.queue.any p = true →
      ((q.queue.eraseP p ++ [frame] : List Frame) : Multiset Frame) +
        ((q.queue.find? p).toList : Multiset Frame) = (q.queue : Multiset Frame) + {frame} := by
    intro p hp
    rw [← Multiset.coe_add, Multiset.coe_singleton, add_right_comm, eraseP_add_find? hp]
  unfold push dropped
  rw [hopen, if_neg Bool.false_ne_true]
  split
  · split
    · next hany => exact hmoved _ hany
    · split
      · next hany => exact hmoved _ hany
      · exact congrArg _ (Multiset.coe_singleton frame)
  · rw [← Multiset.coe_add, Multiset.coe_singleton, Multiset.coe_nil, add_zero]

/-- A push that is not accepted leaves the frames that were there. -/
theorem queue_push_of_not {q : StageQueue} {frame : Frame} (h : ¬ (q.push frame).2 = true) :
    (q.push frame).1.queue = q.queue := by
  unfold push at h ⊢
  split at h
  · rw [if_pos ‹_›]
  · rw [if_neg ‹_›]
    split at h
    · rw [if_pos ‹_›]
      split at h
      · exact absurd rfl h
      · rw [if_neg ‹_›]
        split at h
        · exact absurd rfl h
        · rw [if_neg ‹_›]
    · exact absurd rfl h

/-- A push into an empty queue leaves it empty exactly if it has no capacity. -/
theorem push_of_empty {q : StageQueue} (frame : Frame) (hopen : q.shutdown = false)
    (hempty : q.queue = []) : (q.push frame).1.queue = [] ↔ q.capacity = 0 := by
  simp only [push, hopen, Bool.false_eq_true, if_false, hempty, List.length_nil, List.any_nil,
    ge_iff_le, Nat.le_zero]
  split
  · simp [*]
  · simp [*]

/-- No push leaves a queue empty that was not. -/
theorem push_ne_nil {q : StageQueue} (frame : Frame) (h : q.queue ≠ []) :
    (q.push frame).1.queue ≠ [] := by
  unfold push
  split
  · exact h
  · split
    · split
      · exact List.append_ne_nil_of_right_ne_nil _ (List.cons_ne_nil frame [])
      · split
        · exact List.append_ne_nil_of_right_ne_nil _ (List.cons_ne_nil frame [])
        · exact h
    · exact List.append_ne_nil_of_right_ne_nil _ (List.cons_ne_nil frame [])

end StageQueue

/-! ### The threads -/

/-- Where a worker's loop is; it holds the frame it has taken until the stage has processed it. -/
inductive WorkerPlace
  | test
  | pop
  | process (frame : Frame)
  | exited

/-- A stage's queue and its worker. -/
structure StageSlot where
  queue : StageQueue
  worker : WorkerPlace := .test

/-- Where the thread is that stops the pipeline. -/
inductive StopPlace
  | running
  /-- `DrainAndStop` looks at a stage's queue. -/
  | polling (attempt stage : ℕ)
  /-- `Stop` is at a stage's `OnPipelineStop`, the shutdown of its queue, the join of its worker. -/
  | notifying (stage : ℕ)
  | closing (stage : ℕ)
  | joining (stage : ℕ)
  | returned

/-- The pipeline and its threads.  The last four fields are history: the frames the first queue has
accepted, those dropped for lack of capacity since they were accepted, those a queue that is shut
down refused, and those the last stage has processed. -/
structure StoppingPipeline where
  stages : ℕ
  stage : ℕ → StageSlot
  running : Bool := true
  /-- The source has not been told to stop. -/
  producing : Bool := true
  stopPlace : StopPlace := .running
  accepted : Multiset Frame := 0
  evicted : Multiset Frame := 0
  refused : Multiset Frame := 0
  processed : Multiset Frame := 0

/-- A frame is pushed into the first queue, a worker goes on, `Stop` or `DrainAndStop` is called, or
its thread goes on. -/
inductive StopStep
  | push (frame : Frame)
  | worker (i : ℕ)
  | stop
  | drainAndStop
  | caller

namespace StoppingPipeline

/-- After `Start`. -/
def launched (stages : ℕ) (capacity : ℕ → ℕ) : StoppingPipeline where
  stages := stages
  stage i := { queue := { capacity := capacity i } }

@[simp] def setStage (s : StoppingPipeline) (i : ℕ) (slot : StageSlot) : StoppingPipeline :=
  { s with stage := Function.update s.stage i slot }

def setWorker (s : StoppingPipeline) (i : ℕ) (worker : WorkerPlace) : StoppingPipeline :=
  s.setStage i { s.stage i with worker := worker }

/-- A push into the first queue, by a source that has not been told to stop. -/
def push (s : StoppingPipeline) (frame : Frame) : StoppingPipeline :=
  if s.producing ∧ 0 < s.stages then
    let q := (s.stage 0).queue
    let (q', ok) := q.push frame
    let s := s.setStage 0 { s.stage 0 with queue := q' }
    if ok then
      { s with
        accepted := s.accepted + {frame}
        evicted := s.evicted + (q.dropped frame : Multiset Frame) }
    else s
  else s

/-- A worker's push into a queue. -/
def pushInto (s : StoppingPipeline) (i : ℕ) (frame : Frame) : StoppingPipeline :=
  let q := (s.stage i).queue
  let s := s.setStage i { s.stage i with queue := (q.push frame).1 }
  if q.shutdown then { s with refused := s.refused + {frame} }
  else { s with evicted := s.evicted + (q.dropped frame : Multiset Frame) }

/-- `ProcessFrame` of a pass-through stage; the last stage has no output queue. -/
def processFrame (s : StoppingPipeline) (i : ℕ) (frame : Frame) : StoppingPipeline :=
  if i + 1 < s.stages then s.pushInto (i + 1) frame
  else { s with processed := s.processed + {frame} }

/-- The next step of `StageWorkerLoop`.  Once `running_` is read as false it stays so, and the two
reads of the loop's test are as one. -/
def workerStep (s : StoppingPipeline) (i : ℕ) : StoppingPipeline :=
  let slot := s.stage i
  match slot.worker with
  | .test =>
      if s.running || !slot.queue.queue.isEmpty then s.setWorker i .pop else s.setWorker i .exited
  | .pop =>
      match slot.queue.pop with
      | none => s.setWorker i .test -- the queue is shut down, or the wait times out
      | some (frame, queue) => s.setStage i { queue := queue, worker := .process frame }
  | .process frame => (s.processFrame i frame).setWorker i .test
  | .exited => s

/-- The next step of the thread that stops the pipeline. -/
def callerStep (s : StoppingPipeline) : StoppingPipeline :=
  match s.stopPlace with
  | .running => s
  | .polling attempt i =>
      if attempt = 50 ∨ i = s.stages then { s with stopPlace := .notifying 0 }
      else if (s.stage i).queue.queue.isEmpty then { s with stopPlace := .polling attempt (i + 1) }
      else { s with stopPlace := .polling (attempt + 1) 0 }
  | .notifying i =>
      if i < s.stages then { s with producing := false, stopPlace := .notifying (i + 1) }
      else { s with running := false, stopPlace := .closing 0 }
  | .closing i =>
      if i < s.stages then
        { s.setStage i { s.stage i with queue := (s.stage i).queue.close } with
          stopPlace := .closing (i + 1) }
      else { s with stopPlace := .joining 0 }
  | .joining i =>
      if i < s.stages then
        match (s.stage i).worker with
        | .exited => { s with stopPlace := .joining (i + 1) }
        | _ => s -- it waits
      else { s with stopPlace := .returned }
  | .returned => s

/-- One step of one of the threads. -/
def step (s : StoppingPipeline) : StopStep → StoppingPipeline
  | .push frame => s.push frame
  | .worker i => if i < s.stages then s.workerStep i else s
  | .stop =>
      match s.stopPlace with
      | .running => { s with stopPlace := .notifying 0 }
      | _ => s
  | .drainAndStop =>
      match s.stopPlace with
      | .running => { s with stopPlace := .polling 0 0 }
      | _ => s
  | .caller => s.callerStep

/-- What the first queue accepted and no queue dropped for lack of capacity has been processed by
the last stage. -/
def NothingLost (s : StoppingPipeline) : Prop := s.accepted ≤ s.processed + s.evicted

/-! ### A push -/

variable {s : StoppingPipeline} {i : ℕ} {frame : Frame}

theorem pushInto_shut (h : (s.stage i).queue.shutdown = true) :
    s.pushInto i frame = { s with refused := s.refused + {frame} } := by
  have hsame : ((s.stage i).queue.push frame).1 = (s.stage i).queue := by
    rw [StageQueue.push, if_pos h]
  rw [pushInto, hsame, if_pos h]
  simp only [setStage, Function.update_eq_self]

theorem pushInto_open (h : (s.stage i).queue.shutdown = false) :
    s.pushInto i frame =
      { s.setStage i { s.stage i with queue := ((s.stage i).queue.push frame).1 } with
        evicted := s.evicted + ((s.stage i).queue.dropped frame : Multiset Frame) } := by
  rw [pushInto, h, if_neg Bool.false_ne_true]
  rfl

theorem pushInto_stage_of_ne {j : ℕ} (h : j ≠ i) : (s.pushInto i frame).stage j = s.stage j := by
  unfold pushInto
  dsimp only
  split <;> exact Function.update_of_ne h _ _

theorem pushInto_stages : (s.pushInto i frame).stages = s.stages := by
  unfold pushInto
  dsimp only
  split <;> rfl

/-- A stage that processes a frame stays as it is but for its worker. -/
theorem processFrame_stage : (s.processFrame i frame).stage i = s.stage i := by
  unfold processFrame
  split
  · exact pushInto_stage_of_ne (Nat.lt_succ_self i).ne
  · rfl

theorem processFrame_stages : (s.processFrame i frame).stages = s.stages := by
  unfold processFrame
  split
  · exact pushInto_stages
  · rfl

/-- A push into the first queue changes nothing, or no frame, or leaves its frame there. -/
theorem push_cases (s : StoppingPipeline) (frame : Frame) :
    s.push frame = s ∨
      s.producing = true ∧ 0 < s.stages ∧
        ((∃ q : StageQueue, q.queue = (s.stage 0).queue.queue ∧
            s.push frame = s.setStage 0 { s.stage 0 with queue := q }) ∨
          (s.stage 0).queue.shutdown = false ∧
            s.push frame =
              { s.setStage 0 { s.stage 0 with queue := ((s.stage 0).queue.push frame).1 } with
                accepted := s.accepted + {frame}
                evicted := s.evicted + ((s.stage 0).queue.dropped frame : Multiset Frame) }) := by
  rw [push]
  split
  · next hon =>
      refine .inr ⟨hon.1, hon.2, ?_⟩
      dsimp only
      split
      · next hok =>
          refine .inr ⟨?_, rfl⟩
          by_contra hshut
          rw [StageQueue.push, if_pos (Bool.eq_true_of_not_eq_false hshut)] at hok
          cases hok
      · next hno => exact .inl ⟨_, StageQueue.queue_push_of_not hno, rfl⟩
  · exact .inl rfl

/-- What a worker does next: it has left its loop; or it goes on in it, at its own stage; or leaves
it; or processes the frame it holds. -/
inductive WorkerMoves (s : StoppingPipeline) (i : ℕ) : StoppingPipeline → Prop
  | exited (hplace : (s.stage i).worker = .exited) : WorkerMoves s i s
  | loops (slot : StageSlot) (hplace : (s.stage i).worker ≠ .exited)
      (hempty : ∀ frame, (s.stage i).worker ≠ .process frame) (hslot : slot.worker ≠ .exited) :
      WorkerMoves s i (s.setStage i slot)
  | leaves (hplace : (s.stage i).worker = .test) (hrunning : s.running = false)
      (hempty : (s.stage i).queue.queue = []) : WorkerMoves s i (s.setWorker i .exited)
  | processes (frame : Frame) (hplace : (s.stage i).worker = .process frame) :
      WorkerMoves s i ((s.processFrame i frame).setWorker i .test)

theorem WorkerMoves.of_loops {slot : StageSlot}
    (hplace : (s.stage i).worker = .test ∨ (s.stage i).worker = .pop)
    (hslot : slot.worker ≠ .exited) : WorkerMoves s i (s.setStage i slot) := by
  refine .loops slot ?_ (fun frame => ?_) hslot
  · rcases hplace with hplace | hplace <;> rw [hplace] <;> nofun
  · rcases hplace with hplace | hplace <;> rw [hplace] <;> nofun

theorem workerStep_moves (s : StoppingPipeline) (i : ℕ) : WorkerMoves s i (s.workerStep i) := by
  unfold workerStep
  dsimp only
  split
  · next hplace =>
      split
      · exact .of_loops (.inl hplace) nofun
      · next htest =>
          have hboth := Bool.or_eq_false_iff.mp (Bool.eq_false_of_not_eq_true htest)
          refine .leaves hplace hboth.1 (List.isEmpty_iff.mp ?_)
          simpa using hboth.2
  · next hplace =>
      split
      · exact .of_loops (.inr hplace) nofun
      · exact .of_loops (.inr hplace) nofun
  · next frame hplace => exact .processes frame hplace
  · next hplace => exact .exited hplace

end StoppingPipeline

end LoongNvr.Core
