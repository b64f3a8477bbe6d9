import LoongNvr.Core.PipelineStop
import LoongNvr.Support.Runs

/-!
# Core — DrainedFrames

Whether stopping a pipeline loses frames.  A frame that a worker passes on is lost where the next
stage's queue is shut down already, or its worker has left its loop.

* `Accounted.step`: every accepted frame is processed, dropped for lack of capacity, refused, or
  still inside.
* `nothingLost_iff`: when `Stop` has returned, nothing is lost exactly if every frame passed on in
  the run found a queue that was open and a worker that had not left.
-/

namespace LoongNvr.Core
open Support

namespace StoppingPipeline

variable {s : StoppingPipeline} {i : ℕ} {frame : Frame}

/-! ### Frames that are passed on -/

/-- A frame that a worker passes on finds the next stage's queue open, and its worker there, unless
the queue has no capacity anyway. -/
def Delivers (s : StoppingPipeline) : StopStep → Prop
  | .worker i =>
      match (s.stage i).worker with
      | .process _ =>
          i + 1 < s.stages →
            (s.stage (i + 1)).queue.shutdown = false ∧
              ((s.stage (i + 1)).worker = .exited → (s.stage (i + 1)).queue.capacity = 0)
      | _ => True
  | _ => True

/-! ### What is inside -/

/-- The frame a worker holds. -/
def held : WorkerPlace → Multiset Frame
  | .process frame => {frame}
  | .test | .pop | .exited => 0

/-- The frames at a stage. -/
def content (slot : StageSlot) : Multiset Frame :=
  (slot.queue.queue : Multiset Frame) + held slot.worker

/-- The frames at all stages. -/
def inside (s : StoppingPipeline) : Multiset Frame :=
  ∑ i ∈ Finset.range s.stages, content (s.stage i)

theorem inside_setStage (hi : i < s.stages) (slot : StageSlot) :
    (s.setStage i slot).inside + content (s.stage i) = s.inside + content slot := by
  have hmem : i ∈ Finset.range s.stages := Finset.mem_range.mpr hi
  have hrest : ∑ j ∈ (Finset.range s.stages).erase i,
      content (Function.update s.stage i slot j) =
        ∑ j ∈ (Finset.range s.stages).erase i, content (s.stage j) :=
    Finset.sum_congr rfl fun j hj => by rw [Function.update_of_ne (Finset.ne_of_mem_erase hj)]
  have hself : content (Function.update s.stage i slot i) = content slot := by
    rw [Function.update_self]
  simp only [inside, setStage]
  rw [← Finset.add_sum_erase _ _ hmem, ← Finset.add_sum_erase _ (fun j => content (s.stage j)) hmem,
    hrest, hself]
  abel

/-- Every accepted frame is processed, dropped for lack of capacity, refused, or inside, where
`surplus` is there twice. -/
def Balanced (s : StoppingPipeline) (surplus : Multiset Frame) : Prop :=
  s.accepted + surplus = s.processed + s.evicted + (s.inside + s.refused)

/-- How far the workers and the thread that stops the pipeline have come. -/
structure Placed (s : StoppingPipeline) : Prop where
  producing : s.producing = true → 0 < s.stages → s.running = true
  notified : ∀ i, s.stopPlace = .notifying i → 0 < i → s.producing = false
  exited : ∀ i, (s.stage i).worker = .exited → s.running = false
  joined : ∀ i, s.stopPlace = .joining i → ∀ j < i, (s.stage j).worker = .exited
  returned : s.stopPlace = .returned → ∀ j < s.stages, (s.stage j).worker = .exited

/-! ### Accounts -/

/-- A change at one stage, with what it brings and takes. -/
theorem Balanced.setStage {surplus : Multiset Frame} (h : Balanced s surplus) (hi : i < s.stages)
    (slot : StageSlot) (surplus' accepted evicted refused processed : Multiset Frame)
    (hchange : content slot + (evicted + refused + processed) + surplus =
      content (s.stage i) + accepted + surplus') :
    Balanced { s.setStage i slot with
      accepted := s.accepted + accepted
      evicted := s.evicted + evicted
      refused := s.refused + refused
      processed := s.processed + processed } surplus' := by
  have hinside := inside_setStage hi slot
  refine add_right_cancel (b := content (s.stage i)) ?_
  calc s.accepted + accepted + surplus' + content (s.stage i)
      = s.accepted + (content (s.stage i) + accepted + surplus') := by abel
    _ = (s.accepted + surplus) + (content slot + (evicted + refused + processed)) := by
        rw [← hchange]
        abel
    _ = s.processed + s.evicted + s.refused + (s.inside + content slot) +
          (evicted + refused + processed) := by
        rw [h]
        abel
    _ = s.processed + processed + (s.evicted + evicted) +
          ((s.setStage i slot).inside + (s.refused + refused)) + content (s.stage i) := by
        rw [← hinside]
        abel

/-- A change at one stage and nowhere else. -/
theorem Balanced.setStage_only {surplus surplus' : Multiset Frame} (h : Balanced s surplus)
    (hi : i < s.stages) {slot : StageSlot}
    (hchange : content slot + surplus = content (s.stage i) + surplus') :
    Balanced (s.setStage i slot) surplus' := by
  have hall := h.setStage hi slot surplus' 0 0 0 0 (by simpa using hchange)
  simpa using hall

/-- A frame that a worker passes on is there twice until the worker lets go of it. -/
theorem Balanced.pushInto (h : Balanced s 0) (hi : i < s.stages) (frame : Frame) :
    Balanced (s.pushInto i frame) {frame} := by
  cases hshut : (s.stage i).queue.shutdown with
  | true =>
      have hinside : inside { s with refused := s.refused + {frame} } = s.inside := rfl
      rw [pushInto_shut hshut, Balanced, hinside, ← add_assoc s.inside,
        ← add_assoc (s.processed + _),
        ← h, add_zero]
  | false =>
      have hconserves := StageQueue.push_conserves frame hshut
      have hall := h.setStage hi { s.stage i with queue := ((s.stage i).queue.push frame).1 }
        {frame} 0 ((s.stage i).queue.dropped frame) 0 0 (by
          simp only [content, add_zero]
          rw [add_right_comm, hconserves]
          abel)
      simp only [add_zero] at hall
      rw [pushInto_open hshut]
      exact hall

theorem Balanced.push (h : Balanced s 0) (frame : Frame) : Balanced (s.push frame) 0 := by
  rcases s.push_cases frame with e | ⟨-, hpos, ⟨q, hq, e⟩ | ⟨hopen, e⟩⟩ <;> rw [e]
  · exact h
  · exact h.setStage_only hpos (by simp only [content, hq])
  · have hconserves := StageQueue.push_conserves frame hopen
    have hall := h.setStage hpos { s.stage 0 with queue := ((s.stage 0).queue.push frame).1 } 0
      {frame} ((s.stage 0).queue.dropped frame) 0 0 (by
        simp only [content, add_zero]
        rw [add_right_comm, hconserves]
        abel)
    simp only [add_zero] at hall
    exact hall

theorem Balanced.processFrame (h : Balanced s 0) (i : ℕ) (frame : Frame) :
    Balanced (s.processFrame i frame) {frame} := by
  unfold StoppingPipeline.processFrame
  split
  · next hnext => exact h.pushInto hnext frame
  · have hinside : inside { s with processed := s.processed + {frame} } = s.inside := rfl
    rw [Balanced, hinside, add_right_comm s.processed, add_right_comm, ← h, add_zero]

theorem Balanced.workerStep (h : Balanced s 0) (hi : i < s.stages) :
    Balanced (s.workerStep i) 0 := by
  unfold StoppingPipeline.workerStep
  dsimp only
  split
  · next hplace =>
      split
      · exact h.setStage_only hi (by simp [content, held, hplace])
      · exact h.setStage_only hi (by simp [content, held, hplace])
  · next hplace =>
      cases hqueue : (s.stage i).queue.queue with
      | nil =>
          simp only [StageQueue.pop, hqueue]
          exact h.setStage_only hi (by simp [content, held, hplace])
      | cons frame rest =>
          simp only [StageQueue.pop, hqueue]
          refine h.setStage_only hi ?_
          simp only [content, held, hplace, hqueue, add_zero, ← Multiset.cons_coe]
          exact (Multiset.singleton_add frame _ ▸ add_comm _ _)
  · next frame hplace =>
      refine (h.processFrame i frame).setStage_only (hi.trans_eq processFrame_stages.symm) ?_
      rw [processFrame_stage]
      simp only [content, held, hplace, add_zero]
  · exact h

theorem Balanced.callerStep (h : Balanced s 0) : Balanced s.callerStep 0 := by
  unfold StoppingPipeline.callerStep
  split
  · exact h
  · split
    · exact h
    · split <;> exact h
  · split <;> exact h
  · split
    · next i _ hi => exact h.setStage_only (i := i) hi rfl
    · exact h
  · split
    · split <;> exact h
    · exact h
  · exact h

theorem Balanced.step (h : Balanced s 0) (a : StopStep) : Balanced (s.step a) 0 := by
  cases a with
  | push frame => exact h.push frame
  | worker i =>
      simp only [StoppingPipeline.step]
      split
      · next hi => exact h.workerStep hi
      · exact h
  | stop | drainAndStop =>
      simp only [StoppingPipeline.step]
      split <;> exact h
  | caller => exact h.callerStep

/-! ### Places -/

/-- The workers go on; those that have left their loop do not come back, and none leaves it while
the pipeline runs. -/
theorem Placed.of_workers {s' : StoppingPipeline} (h : Placed s) (hstages : s'.stages = s.stages)
    (hrunning : s'.running = s.running) (hproducing : s'.producing = s.producing)
    (hplace : s'.stopPlace = s.stopPlace)
    (hstay : ∀ j, (s.stage j).worker = .exited → (s'.stage j).worker = .exited)
    (hleave : ∀ j, (s'.stage j).worker = .exited →
      (s.stage j).worker = .exited ∨ s.running = false) : Placed s' where
  producing := by rw [hproducing, hstages, hrunning]; exact h.producing
  notified := by rw [hplace, hproducing]; exact h.notified
  exited j hj := by
    rw [hrunning]
    exact (hleave j hj).elim (h.exited j) id
  joined i hi j hj := hstay j (h.joined i (hplace ▸ hi) j hj)
  returned hreturned j hj := hstay j (h.returned (hplace ▸ hreturned) j (hstages ▸ hj))

/-- A stage whose worker stays where it is. -/
theorem worker_setStage_queue (i j : ℕ) (q : StageQueue) :
    ((s.setStage i { s.stage i with queue := q }).stage j).worker = (s.stage j).worker := by
  simp only [setStage]
  by_cases hj : j = i
  · subst hj
    rw [Function.update_self]
  · rw [Function.update_of_ne hj]

theorem worker_pushInto (j : ℕ) :
    ((s.pushInto i frame).stage j).worker = (s.stage j).worker := by
  unfold pushInto
  dsimp only
  split <;> exact worker_setStage_queue i j _

theorem worker_processFrame (j : ℕ) :
    ((s.processFrame i frame).stage j).worker = (s.stage j).worker := by
  unfold processFrame
  split
  · exact worker_pushInto j
  · rfl

theorem worker_push (j : ℕ) : ((s.push frame).stage j).worker = (s.stage j).worker := by
  rcases s.push_cases frame with e | ⟨-, -, ⟨q, -, e⟩ | ⟨-, e⟩⟩ <;> rw [e]
  · exact worker_setStage_queue 0 j q
  · exact worker_setStage_queue 0 j _

theorem worker_setStage (i j : ℕ) (slot : StageSlot) :
    ((s.setStage i slot).stage j).worker =
      if j = i then slot.worker else (s.stage j).worker := by
  simp only [setStage]
  split
  · next hj => rw [hj, Function.update_self]
  · next hj => rw [Function.update_of_ne hj]

/-- A worker that has not left its loop goes to another place. -/
theorem Placed.setStage (h : Placed s) {slot : StageSlot} (hplace : (s.stage i).worker ≠ .exited)
    (hslot : slot.worker = .exited → s.running = false) : Placed (s.setStage i slot) := by
  refine h.of_workers rfl rfl rfl rfl (fun j hj => ?_) fun j hj => ?_
  · have hne : j ≠ i := by
      rintro rfl
      exact hplace hj
    rw [worker_setStage, if_neg hne]
    exact hj
  · rw [worker_setStage] at hj
    split at hj
    · exact .inr (hslot hj)
    · exact .inl hj

theorem Placed.processFrame (h : Placed s) (i : ℕ) (frame : Frame) :
    Placed (s.processFrame i frame) := by
  have hrest : (s.processFrame i frame).running = s.running ∧
      (s.processFrame i frame).producing = s.producing ∧
      (s.processFrame i frame).stopPlace = s.stopPlace := by
    unfold StoppingPipeline.processFrame pushInto
    dsimp only
    split
    · split <;> exact ⟨rfl, rfl, rfl⟩
    · exact ⟨rfl, rfl, rfl⟩
  refine h.of_workers processFrame_stages hrest.1 hrest.2.1 hrest.2.2 (fun j hj => ?_)
    fun j hj => ?_
  · rw [worker_processFrame]
    exact hj
  · rw [worker_processFrame] at hj
    exact .inl hj

theorem Placed.workerStep (h : Placed s) (i : ℕ) : Placed (s.workerStep i) := by
  have hmoves := workerStep_moves s i
  generalize s.workerStep i = s' at hmoves ⊢
  cases hmoves with
  | exited hplace => exact h
  | loops slot hplace _ hslot => exact h.setStage hplace fun hexited => absurd hexited hslot
  | leaves hplace hrunning _ => exact h.setStage (by rw [hplace]; nofun) fun _ => hrunning
  | processes frame hplace =>
      refine (h.processFrame i frame).setStage ?_ nofun
      rw [worker_processFrame, hplace]
      nofun

theorem Placed.push (h : Placed s) (frame : Frame) : Placed (s.push frame) := by
  have hrest : (s.push frame).stages = s.stages ∧ (s.push frame).running = s.running ∧
      (s.push frame).producing = s.producing ∧ (s.push frame).stopPlace = s.stopPlace := by
    rcases s.push_cases frame with e | ⟨-, -, ⟨q, -, e⟩ | ⟨-, e⟩⟩ <;> rw [e]
    · exact ⟨rfl, rfl, rfl, rfl⟩
    · exact ⟨rfl, rfl, rfl, rfl⟩
    · exact ⟨rfl, rfl, rfl, rfl⟩
  refine h.of_workers hrest.1 hrest.2.1 hrest.2.2.1 hrest.2.2.2 (fun j hj => ?_) fun j hj => ?_
  · rw [worker_push]
    exact hj
  · rw [worker_push] at hj
    exact .inl hj

/-- The thread that stops the pipeline goes on, where it notifies and joins nothing. -/
theorem Placed.goTo (h : Placed s) {place : StopPlace} (hnotify : ∀ i, place ≠ .notifying (i + 1))
    (hjoin : ∀ i, place ≠ .joining (i + 1)) (hreturn : place ≠ .returned) :
    Placed { s with stopPlace := place } where
  producing := h.producing
  notified i hi hpos := by
    obtain ⟨k, rfl⟩ := Nat.exists_eq_succ_of_ne_zero hpos.ne'
    exact absurd hi (hnotify k)
  exited := h.exited
  joined i hi j hj := by
    obtain ⟨k, rfl⟩ := Nat.exists_eq_succ_of_ne_zero (Nat.ne_zero_of_lt hj)
    exact absurd hi (hjoin k)
  returned hreturned := absurd hreturned hreturn

theorem Placed.callerStep (h : Placed s) : Placed s.callerStep := by
  unfold StoppingPipeline.callerStep
  split
  · exact h
  · split
    · exact h.goTo nofun nofun nofun
    · split
      · exact h.goTo nofun nofun nofun
      · exact h.goTo nofun nofun nofun
  · next i hplace =>
      split
      · exact ⟨nofun, fun _ _ _ => rfl, h.exited, nofun, nofun⟩
      · next hall =>
          -- every stage has been told, the source among them
          refine ⟨fun hproducing hpos => ?_, nofun, fun _ _ => rfl, nofun, nofun⟩
          have hnotified := h.notified i hplace (hpos.trans_le (Nat.le_of_not_lt hall))
          exact absurd (hnotified.symm.trans hproducing) Bool.false_ne_true
  · next i hplace =>
      split
      · have hclosed : Placed
            (s.setStage i { s.stage i with queue := (s.stage i).queue.close }) := by
          refine h.of_workers rfl rfl rfl rfl (fun j hj => ?_) fun j hj => ?_
          · rw [worker_setStage_queue]
            exact hj
          · rw [worker_setStage_queue] at hj
            exact .inl hj
        exact hclosed.goTo nofun nofun nofun
      · exact h.goTo nofun nofun nofun
  · next i hplace =>
      split
      · split
        · next hexited =>
            refine ⟨h.producing, nofun, h.exited, ?_, nofun⟩
            rintro _ ⟨⟩ j hj
            rcases Nat.lt_succ_iff_lt_or_eq.mp hj with hj | rfl
            · exact h.joined i hplace j hj
            · exact hexited
        · exact h
      · next hall =>
          refine ⟨h.producing, nofun, h.exited, nofun, fun _ j hj => ?_⟩
          exact h.joined i hplace j (hj.trans_le (Nat.le_of_not_lt hall))
  · exact h

theorem Placed.step (h : Placed s) (a : StopStep) : Placed (s.step a) := by
  cases a with
  | push frame => exact h.push frame
  | worker i =>
      simp only [StoppingPipeline.step]
      split
      · exact h.workerStep i
      · exact h
  | stop | drainAndStop =>
      simp only [StoppingPipeline.step]
      split
      · exact h.goTo nofun nofun nofun
      · exact h
  | caller => exact h.callerStep

/-! ### Losses -/

/-- Frames wait for a worker that has left. -/
def Stuck (slot : StageSlot) : Prop := slot.worker = .exited ∧ slot.queue.queue ≠ []

/-- A frame has been refused, or waits for a worker that has left. -/
def Lost (s : StoppingPipeline) : Prop := s.refused ≠ 0 ∨ ∃ j < s.stages, Stuck (s.stage j)

theorem lost_setStage_iff {slot : StageSlot} (h : Stuck slot ↔ Stuck (s.stage i)) :
    Lost (s.setStage i slot) ↔ Lost s := by
  have hsame : ∀ j, Stuck ((s.setStage i slot).stage j) ↔ Stuck (s.stage j) := by
    intro j
    simp only [setStage]
    by_cases hj : j = i
    · rw [hj, Function.update_self]
      exact h
    · rw [Function.update_of_ne hj]
  unfold Lost
  simp only [hsame]
  rfl

theorem not_stuck_of_worker {slot : StageSlot} (h : slot.worker ≠ .exited) : ¬ Stuck slot :=
  fun hstuck => h hstuck.1

theorem lost_push (h : Placed s) (frame : Frame) : Lost (s.push frame) ↔ Lost s := by
  rcases s.push_cases frame with e | ⟨hproducing, hpos, hcases⟩
  · rw [e]
  have hrunning := h.producing hproducing hpos
  have hworker : (s.stage 0).worker ≠ .exited := fun hexited =>
    absurd ((h.exited 0 hexited).symm.trans hrunning) Bool.false_ne_true
  have hkeep : ∀ q : StageQueue, Lost (s.setStage 0 { s.stage 0 with queue := q }) ↔ Lost s :=
    fun q => lost_setStage_iff
      (iff_of_false (not_stuck_of_worker hworker) (not_stuck_of_worker hworker))
  rcases hcases with ⟨q, -, e⟩ | ⟨-, e⟩ <;> rw [e]
  · exact hkeep q
  · exact hkeep _

/-- Where a worker passes a frame on. -/
theorem lost_processFrame (hi : i + 1 < s.stages) :
    Lost (s.processFrame i frame) ↔
      Lost s ∨ (s.stage (i + 1)).queue.shutdown = true ∨
        (s.stage (i + 1)).worker = .exited ∧
          ((s.stage (i + 1)).queue.push frame).1.queue ≠ [] := by
  rw [StoppingPipeline.processFrame, if_pos hi]
  cases hshut : (s.stage (i + 1)).queue.shutdown with
  | true =>
      rw [pushInto_shut hshut]
      refine iff_of_true (.inl ?_) (.inr (.inl rfl))
      exact fun hzero => Multiset.singleton_ne_zero frame (add_eq_zero.mp hzero).2
  | false =>
      rw [pushInto_open hshut]
      simp only [Bool.false_eq_true, false_or]
      constructor
      · rintro (hrefused | ⟨j, hj, hstuck⟩)
        · exact .inl (.inl hrefused)
        · simp only [setStage] at hstuck
          by_cases e : j = i + 1
          · rw [e, Function.update_self] at hstuck
            exact .inr hstuck
          · rw [Function.update_of_ne e] at hstuck
            exact .inl (.inr ⟨j, hj, hstuck⟩)
      · rintro ((hrefused | ⟨j, hj, hstuck⟩) | hstuck)
        · exact .inl hrefused
        · refine .inr ⟨j, hj, ?_⟩
          simp only [setStage]
          by_cases e : j = i + 1
          · subst e
            rw [Function.update_self]
            exact ⟨hstuck.1, StageQueue.push_ne_nil frame hstuck.2⟩
          · rw [Function.update_of_ne e]
            exact hstuck
        · refine .inr ⟨i + 1, hi, ?_⟩
          simp only [setStage, Function.update_self]
          exact hstuck

/-- In a state where nothing is lost, the loss is where the frame is not delivered. -/
theorem lost_processFrame_iff (hlost : ¬ Lost s) (hplace : (s.stage i).worker = .process frame) :
    ¬ Lost (s.processFrame i frame) ↔ Delivers s (.worker i) := by
  by_cases hi : i + 1 < s.stages
  · simp only [lost_processFrame hi, or_iff_right hlost, Delivers, hplace, hi, true_imp_iff]
    cases hshut : (s.stage (i + 1)).queue.shutdown with
    | true => simp
    | false =>
        simp only [Bool.false_eq_true, false_or, true_and, not_and, not_not]
        refine imp_congr_right fun hexited => StageQueue.push_of_empty frame hshut ?_
        by_contra hne
        exact hlost (.inr ⟨i + 1, hi, hexited, hne⟩)
  · simp only [StoppingPipeline.processFrame, if_neg hi, Delivers, hplace]
    exact iff_of_true hlost fun h => absurd h hi

theorem lost_setWorker (hplace : (s.stage i).worker ≠ .exited) (worker : WorkerPlace)
    (hworker : worker = .exited → (s.stage i).queue.queue = []) :
    Lost (s.setWorker i worker) ↔ Lost s :=
  lost_setStage_iff (iff_of_false (fun h => h.2 (hworker h.1)) (not_stuck_of_worker hplace))

/-- A worker that is not about to pass a frame on loses none. -/
theorem delivers_of_empty (h : ∀ frame, (s.stage i).worker ≠ .process frame) :
    Delivers s (.worker i) := by
  simp only [Delivers]

theorem lost_workerStep (hlost : ¬ Lost s) :
    ¬ Lost (s.workerStep i) ↔ Delivers s (.worker i) := by
  have hmoves := workerStep_moves s i
  generalize s.workerStep i = s' at hmoves ⊢
  cases hmoves with
  | exited hplace =>
      refine iff_of_true hlost (delivers_of_empty fun frame => ?_)
      rw [hplace]
      nofun
  | loops slot hplace hempty hslot =>
      rw [lost_setStage_iff (iff_of_false (not_stuck_of_worker hslot) (not_stuck_of_worker hplace))]
      exact iff_of_true hlost (delivers_of_empty hempty)
  | leaves hplace _ hqueue =>
      rw [lost_setWorker (by rw [hplace]; nofun) .exited fun _ => hqueue]
      refine iff_of_true hlost (delivers_of_empty fun frame => ?_)
      rw [hplace]
      nofun
  | processes frame hplace =>
      have hworker : ((s.processFrame i frame).stage i).worker ≠ .exited := by
        rw [worker_processFrame, hplace]
        nofun
      rw [lost_setWorker hworker .test nofun]
      exact lost_processFrame_iff hlost hplace

/-- What is lost stays lost. -/
theorem Lost.workerStep (h : Lost s) : Lost (s.workerStep i) := by
  have hmoves := workerStep_moves s i
  generalize s.workerStep i = s' at hmoves ⊢
  cases hmoves with
  | exited _ => exact h
  | loops slot hplace _ hslot =>
      exact (lost_setStage_iff
        (iff_of_false (not_stuck_of_worker hslot) (not_stuck_of_worker hplace))).mpr h
  | leaves hplace _ hqueue =>
      exact (lost_setWorker (by rw [hplace]; nofun) .exited fun _ => hqueue).mpr h
  | processes frame hplace =>
      have hworker : ((s.processFrame i frame).stage i).worker ≠ .exited := by
        rw [worker_processFrame, hplace]
        nofun
      refine (lost_setWorker hworker .test nofun).mpr ?_
      by_cases hi : i + 1 < s.stages
      · exact (lost_processFrame hi).mpr (.inl h)
      · rw [StoppingPipeline.processFrame, if_neg hi]
        exact h

theorem lost_callerStep : Lost s.callerStep ↔ Lost s := by
  unfold StoppingPipeline.callerStep
  split
  · rfl
  · split
    · rfl
    · split <;> rfl
  · split <;> rfl
  · next i _ =>
      split
      · have hclosed : Lost (s.setStage i { s.stage i with queue := (s.stage i).queue.close }) ↔
            Lost s := lost_setStage_iff Iff.rfl
        exact hclosed
      · rfl
  · split
    · split <;> rfl
    · rfl
  · rfl

/-- **A step loses a frame** exactly where one is passed on and not delivered. -/
theorem lost_step (h : Placed s) (hlost : ¬ Lost s) (a : StopStep) :
    ¬ Lost (s.step a) ↔ Delivers s a := by
  cases a with
  | push frame => exact (not_congr (lost_push h frame)).trans (iff_of_true hlost trivial)
  | worker i =>
      simp only [StoppingPipeline.step]
      split
      · exact lost_workerStep hlost
      · next hi =>
          refine iff_of_true hlost ?_
          simp only [Delivers]
          split
          · exact fun hnext => absurd ((Nat.lt_succ_self i).trans hnext) hi
          · trivial
  | stop | drainAndStop =>
      simp only [StoppingPipeline.step]
      split <;> exact iff_of_true hlost trivial
  | caller => exact (not_congr lost_callerStep).trans (iff_of_true hlost trivial)

theorem Lost.step (h : Placed s) (hlost : Lost s) (a : StopStep) : Lost (s.step a) := by
  cases a with
  | push frame => exact (lost_push h frame).mpr hlost
  | worker i =>
      simp only [StoppingPipeline.step]
      split
      · exact hlost.workerStep
      · exact hlost
  | stop | drainAndStop =>
      simp only [StoppingPipeline.step]
      split <;> exact hlost
  | caller => exact lost_callerStep.mpr hlost

/-! ### Runs -/

/-- Once `Stop` has returned, what is inside are the frames that wait for workers that have left. -/
theorem nothingLost_iff_not_lost (hbalanced : Balanced s 0) (hplaced : Placed s)
    (hreturned : s.stopPlace = .returned) : NothingLost s ↔ ¬ Lost s := by
  have hcontent : ∀ j < s.stages, (content (s.stage j) = 0 ↔ ¬ Stuck (s.stage j)) := by
    intro j hj
    have hexited := hplaced.returned hreturned j hj
    simp [content, held, Stuck, hexited]
  have hinside : s.inside = 0 ↔ ∀ j < s.stages, ¬ Stuck (s.stage j) := by
    rw [inside, Finset.sum_eq_zero_iff]
    simp only [Finset.mem_range]
    exact forall₂_congr hcontent
  rw [Balanced, add_zero] at hbalanced
  have hlost : ¬ Lost s ↔ s.inside + s.refused = 0 := by
    rw [add_eq_zero, hinside, Lost, not_or, not_not, and_comm]
    simp only [not_exists, not_and]
  rw [hlost, NothingLost, hbalanced, add_le_iff_nonpos_right]
  exact nonpos_iff_eq_zero

theorem launched_balanced (stages : ℕ) (capacity : ℕ → ℕ) :
    Balanced (launched stages capacity) 0 := by
  have hinside : (launched stages capacity).inside = 0 :=
    Finset.sum_eq_zero fun _ _ => rfl
  rw [Balanced, hinside]
  rfl

theorem launched_placed (stages : ℕ) (capacity : ℕ → ℕ) : Placed (launched stages capacity) where
  producing _ _ := rfl
  notified := nofun
  exited := nofun
  joined := nofun
  returned := nofun

/-- **Nothing is lost** when `Stop` has returned, after whatever steps, exactly if every frame that
a worker passed on found the next stage's queue open, and its worker there. -/
theorem nothingLost_iff (stages : ℕ) (capacity : ℕ → ℕ) (steps : List StopStep)
    (hreturned : (steps.foldl StoppingPipeline.step (launched stages capacity)).stopPlace =
      .returned) :
    NothingLost (steps.foldl StoppingPipeline.step (launched stages capacity)) ↔
      EveryStep StoppingPipeline.step Delivers (launched stages capacity) steps := by
  have hinv := foldl_of_step (P := fun s => Balanced s 0 ∧ Placed s)
    (fun s a h => ⟨h.1.step a, h.2.step a⟩) steps
    ⟨launched_balanced stages capacity, launched_placed stages capacity⟩
  rw [nothingLost_iff_not_lost hinv.1 hinv.2 hreturned]
  refine foldl_iff_everyStep (I := Placed) (P := fun s => ¬ Lost s) (fun s a h => h.step a)
    (fun s a h hlost => lost_step h hlost a)
    (fun s a h hlost => not_not.mpr ((not_not.mp hlost).step h a)) steps
    (launched_placed stages capacity) ?_
  rintro (hrefused | ⟨j, -, hexited, -⟩)
  · exact hrefused rfl
  · cases hexited

/-- Two stages take a frame through, and then the pipeline is drained and stopped. -/
def drainedInTime : List StopStep :=
  [.push { origin := 0 }, .worker 0, .worker 0, .worker 0, .worker 1, .worker 1, .worker 1,
    .drainAndStop, .caller, .caller, .caller, .caller, .caller, .caller, .caller, .caller, .caller,
    .worker 0, .worker 1, .caller, .caller, .caller]

theorem nothingLost_drained :
    NothingLost (drainedInTime.foldl StoppingPipeline.step (launched 2 fun _ => 4)) := by
  refine (nothingLost_iff 2 (fun _ => 4) drainedInTime rfl).mpr ?_
  refine ⟨trivial, trivial, trivial, fun _ => ⟨rfl, nofun⟩, trivial, trivial, ?_, ?_⟩
  · exact fun hnext => absurd hnext (lt_irrefl 2)
  · exact ⟨trivial, trivial, trivial, trivial, trivial, trivial, trivial, trivial, trivial, trivial,
      trivial, trivial, trivial, trivial, trivial, trivial⟩

/-- The first worker holds a frame while the queues are shut down. -/
def stoppedTooSoon : List StopStep :=
  [.push { origin := 0 }, .worker 0, .worker 0, .stop, .caller, .caller, .caller, .caller, .caller,
    .caller, .worker 0, .worker 0, .worker 1, .caller, .caller, .caller]

/-- The frame it holds is refused by the second queue. -/
theorem nothingLost_refuted :
    ¬ ∀ (stages : ℕ) (capacity : ℕ → ℕ) (steps : List StopStep),
      (steps.foldl StoppingPipeline.step (launched stages capacity)).stopPlace = .returned →
        NothingLost (steps.foldl StoppingPipeline.step (launched stages capacity)) := by
  intro h
  have hcard := Multiset.card_le_card (h 2 (fun _ => 4) stoppedTooSoon rfl)
  exact absurd hcard (by decide)

end StoppingPipeline

end LoongNvr.Core
